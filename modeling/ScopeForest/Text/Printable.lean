import ScopeForest.Unicode.Derived

namespace ScopeForest.Text

/-- The characters that do not show. The sound marks of half width stand beside a letter, so they
do show. -/
def hidden : CharSet :=
  (CharSet.unions [Unicode.category.anyOf ["cc", "cf", "co", "cn", "zl", "zp", "zs"],
    Unicode.graphemeExtend, Unicode.defaultIgnorable]).diff (CharSet.ofChars " \uff9e\uff9f")

def isPrintable (c : Char) : Bool := !hidden.has c

end ScopeForest.Text
