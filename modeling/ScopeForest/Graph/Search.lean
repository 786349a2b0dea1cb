import ScopeForest.Graph.Basic
import ScopeForest.Matcher.Acceptance
import ScopeForest.Matcher.Text

namespace ScopeForest

inductive QueryError
  | notFound (m : Matcher)
  | ambiguous (m : Matcher) (count : Nat) (candidates : List String)
  | noSuchDeclaration (d : DeclId)

namespace QueryError

def code : QueryError → String
  | notFound _ => "NOT_FOUND"
  | ambiguous .. => "AMBIGUOUS_MATCH"
  | noSuchDeclaration _ => "NO_SUCH_DECLARATION"

def message : QueryError → String
  | notFound m => s!"No declaration matches {m.text}"
  | ambiguous m count candidates =>
    s!"{count} declarations match {m.text}, expected exactly one: {Text.quotedList candidates}"
  | noSuchDeclaration d => s!"Declaration {DeclId.shown d} does not exist in this graph"

end QueryError

structure Search where
  root : DeclId
  /-- Whether to look inside members too. -/
  recursive : Bool := true
  useIndex : Bool := true
  deriving DecidableEq, Repr

def Graph.search (g : Graph) : Search := { root := g.root }

namespace Search

variable (q : Search) (g : Graph) (m : Matcher)

def within (d : DeclId) : Except QueryError Search :=
  if (g.get? d).isSome then .ok { q with root := d } else .error (.noSuchDeclaration d)

def directOnly : Search := { q with recursive := false }

def candidates : Outcome (List DeclId) := do
  if q.recursive then return (← g.subtree q.root).tail
  else return (← g.store.decl q.root).members

/-- Whether a scan would look at a declaration. -/
def covers (d : DeclId) : Outcome Bool := do
  if d = q.root then return false
  else if q.recursive then g.contains q.root d
  else return (← g.store.decl d).parent == some q.root

def hint? : Option String := if q.useIndex then m.nameHint? else none

def findAll : Outcome (List DeclId) := do
  match q.hint? m with
  | some name =>
    Outcome.filter (fun d ↦ do if ← q.covers g d then m.accepts g.store d else return false)
      (g.named name)
  | none => Outcome.filter (m.accepts g.store) (← q.candidates g)

def count : Outcome Nat := do return (← q.findAll g m).length

def exists? : Outcome Bool := do Outcome.any (m.accepts g.store) (← q.candidates g)

def maxCandidates : Nat := 5

def findOne : Outcome (Except QueryError DeclId) := do
  match ← q.findAll g m with
  | [] => return .error (.notFound m)
  | [d] => return .ok d
  | found =>
    let names ← (found.take maxCandidates).mapM g.store.shownName
    return .error (.ambiguous m found.length names)

/-- The only match if there is one, but an error if there are several. -/
def unique : Outcome (Except QueryError (Option DeclId)) := do
  match ← q.findOne g m with
  | .ok d => return .ok (some d)
  | .error (.notFound _) => return .ok none
  | .error e => return .error e

def classLike : Matcher := (Matcher.kindIs .classDecl).or (.kindIs .unionDecl)

def namespaceNamed (name : String) : Outcome (Except QueryError DeclId) :=
  q.findOne g ((Matcher.kindIs .namespaceDecl).and (.nameEquals name))

def classNamed (name : String) : Outcome (Except QueryError DeclId) :=
  q.findOne g (classLike.and (.nameEquals name))

def classes : Outcome (List DeclId) := q.findAll g (classLike.and m)

def ofKind (kind : DeclKind) : Outcome (List DeclId) := q.findAll g ((Matcher.kindIs kind).and m)

def memberFunctions : Outcome (List DeclId) := q.ofKind g m .memberFunction

def freeFunctions : Outcome (List DeclId) := q.ofKind g m .function

def variableDecls : Outcome (List DeclId) := q.ofKind g m .variableDecl

def typedefs : Outcome (List DeclId) := q.ofKind g m .typedef

def enumerations : Outcome (List DeclId) := q.ofKind g m .enumDecl

end Search

end ScopeForest
