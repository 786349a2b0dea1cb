import ScopeForest.Id
import ScopeForest.Kind
import ScopeForest.Pattern.Reader
import ScopeForest.Text.Segment

namespace ScopeForest

mutual

inductive Matcher
  | anything
  /-- The name within the scope, or the qualified name if the text is qualified. -/
  | nameEquals (name : String)
  | nameMatches (pattern : NamePattern)
  | qualifiedNameEquals (name : String)
  | kindIs (kind : DeclKind)
  | accessIs (access : Access)
  | isVirtual
  | isPureVirtual
  | isStatic
  | isConst
  /-- The type of a variable, the target of a typedef or the return type of a callable. -/
  | typeMatches (type : TypeMatcher)
  | returnType (type : TypeMatcher)
  | hasParameter (type : TypeMatcher)
  | parameterCount (count : Nat)
  /-- Some direct or indirect base class matches. -/
  | hasBaseClass (base : Matcher)
  | parentIs (parent : Matcher)
  | conj (all : List Matcher)
  | disj (any : List Matcher)
  | neg (m : Matcher)

/-- A predicate on a type. Typedefs are looked through everywhere, and so are the outer qualifiers
but by `const` and `volatile`. -/
inductive TypeMatcher
  | any
  | fundamental (name : Option String)
  | void
  | pointerTo (target : TypeMatcher)
  | referenceTo (target : TypeMatcher)
  | arrayOf (element : TypeMatcher)
  | const (inner : TypeMatcher)
  | volatile (inner : TypeMatcher)
  /-- A class, union, enumeration or instantiation whose declaration matches. -/
  | declared (decl : Matcher)
  | equalTo (type : TypeId)
  /-- The canonical text of the type. -/
  | spelled (text : String)
  | conj (all : List TypeMatcher)
  | disj (any : List TypeMatcher)
  | neg (m : TypeMatcher)

end

namespace Matcher

def and : Matcher → Matcher → Matcher
  | conj ms, m => conj (ms ++ [m])
  | a, b => conj [a, b]

/-- One of two holds; a disjunction on the left is extended. -/
def or : Matcher → Matcher → Matcher
  | disj ms, m => disj (ms ++ [m])
  | a, b => disj [a, b]

def pattern? (source : String) : Option Matcher := (NamePattern.ofSource? source).map nameMatches

/-- The last segment of a name, unless it is empty or spells template arguments, under which
declarations are not indexed. -/
def simpleName? (name : String) : Option String :=
  let segment := Text.lastSegment name
  if segment = "" ∨ segment.toList.contains '<' then none else some segment

mutual

/-- A name that all declarations carry that match. -/
def nameHint? : Matcher → Option String
  | nameEquals name => simpleName? name
  | qualifiedNameEquals name => simpleName? name
  | conj all => firstHint? all
  | _ => none

def firstHint? : List Matcher → Option String
  | [] => none
  | m :: ms => m.nameHint? <|> firstHint? ms

end

end Matcher

namespace TypeMatcher

def and : TypeMatcher → TypeMatcher → TypeMatcher
  | conj ms, m => conj (ms ++ [m])
  | a, b => conj [a, b]

def or : TypeMatcher → TypeMatcher → TypeMatcher
  | disj ms, m => disj (ms ++ [m])
  | a, b => disj [a, b]

end TypeMatcher

end ScopeForest
