import ScopeForest.Unicode.Age
import ScopeForest.Unicode.Folding
import ScopeForest.Unicode.Property
import ScopeForest.Unicode.ScriptExtensions

namespace ScopeForest.Pattern

/-- What the standard assigned after the version that patterns know. -/
def newcomers : CharSet := Unicode.age.anyOf ["17.0"]

def word : CharSet := Unicode.wordChars.diff newcomers

def digit : CharSet := (Unicode.category.anyOf ["nd"]).diff newcomers

def foldCase (s : CharSet) : CharSet :=
  s.union ((Unicode.foldCase (s.diff newcomers)).diff newcomers)

/-- Case, blanks, dashes and a leading `is` make no difference in a name. -/
def plainName (name : List Char) : String :=
  let (marked, rest) := match name with
    | i :: s :: rest =>
      if i.toLower = 'i' ∧ s.toLower = 's' then (true, rest) else (false, name)
    | _ => (false, name)
  let kept := rest.filter fun c ↦ c.toNat < 128 && c != ' ' && c != '_' && c != '-'
  if marked ∧ kept.map Char.toLower = ['c'] then "isc"
  else String.ofList (kept.map Char.toLower)

def foresighted : List String :=
  ["extpict", "extendedpictographic", "patsyn", "patternsyntax"]

/-- A set as it was in the known version. There one letter was in lower case which no longer is,
and two letters had no capitals. -/
def restored (name : String) (s : CharSet) : CharSet :=
  let changed := CharSet.single '\u0295'
  let s := if foresighted.contains name then s else s.diff newcomers
  if ["ll", "lowercaseletter", "lc", "casedletter", "lower", "lowercase", "cased"].contains name
  then s.union changed
  else if ["lo", "otherletter"].contains name then s.diff changed
  else if ["cwu", "changeswhenuppercased", "cwt", "changeswhentitlecased", "cwcm",
      "changeswhencasemapped"].contains name then s.diff (CharSet.ofChars "\ua7d3\ua7d5")
  else s

/-- A category, where what is assigned later counts as unassigned. -/
def categoryNamed? (name : String) : Option CharSet :=
  let unassigned := (Unicode.category.anyOf ["cn"]).union newcomers
  match name with
  | "any" => some CharSet.all
  | "ascii" => some (CharSet.range '\x00' '\x7f')
  | "assigned" => some unassigned.compl
  | "cn" | "unassigned" => some unassigned
  | "c" | "other" => (Unicode.categorySet? name).map (·.union newcomers)
  | name => (Unicode.categorySet? name).map (restored name)

def known? (set : Option CharSet) : Option CharSet :=
  (set.map (·.diff newcomers)).filter (· != CharSet.empty)

def named? (name : List Char) : Option CharSet :=
  let name := plainName name
  let property := if ["cf", "sc", "lc"].contains name then none else Unicode.propertySet? name
  property.map (restored name) <|> categoryNamed? name <|> known? (Unicode.script.set? name)

def valued? (property value : List Char) : Option CharSet :=
  let value := plainName value
  match plainName property with
  | "gc" | "generalcategory" => categoryNamed? value
  | "sc" | "script" => known? (Unicode.script.set? value)
  | "scx" | "scriptextensions" => known? (Unicode.extendedScriptSet? value)
  | "age" => if Unicode.age.index? value = Unicode.age.index? "17.0" then none
    else Unicode.assignedBy? value
  | "gcb" | "graphemeclusterbreak" => known? (Unicode.graphemeBreak.set? value)
  | "wb" | "wordbreak" => known? (Unicode.wordBreak.set? value)
  | "sb" | "sentencebreak" => known? (Unicode.sentenceBreak.set? value)
  | _ => none

def splitAt? (mark : List Char) : List Char → Option (List Char × List Char)
  | [] => none
  | c :: cs =>
    if mark.isPrefixOf (c :: cs) then some ([], (c :: cs).drop mark.length)
    else (splitAt? mark cs).map fun (before, after) ↦ (c :: before, after)

/-- The set that a text in braces stands for: a name, or a property and its value. The three marks
between them mean the same. -/
def described? (text : List Char) : Option CharSet :=
  match splitAt? ['!', '='] text <|> splitAt? [':'] text <|> splitAt? ['='] text with
  | some (property, value) => valued? property value
  | none => named? text

end ScopeForest.Pattern
