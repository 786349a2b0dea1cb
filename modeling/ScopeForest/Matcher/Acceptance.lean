import ScopeForest.Matcher.Basic
import ScopeForest.Store.Equality
import ScopeForest.Store.Spelling

namespace ScopeForest

namespace Store

/-- Breadth-first search for a class that passes `test`; `seen` are those tried so far. -/
def searchBases (s : Store) (test : DeclId → Outcome Bool) (seen queue : List DeclId) :
    Outcome Bool :=
  match queue with
  | [] => .ok false
  | d :: queue =>
    if _ : d ∈ seen then s.searchBases test seen queue
    else match test d with
      | .error e => .error e
      | .ok true => .ok true
      | .ok false =>
        match _ : d.get? s.decls with
        | none => Outcome.fault (.noDecl d)
        | some decl => s.searchBases test (d :: seen) (queue ++ decl.bases.map (·.cls))
termination_by (Id.unseen s.decls seen, queue.length)
decreasing_by
  · exact .right _ (by simp)
  · exact .left _ _ (Id.unseen_cons_lt ‹_› ‹_›)

/-- A name given in full is compared with the qualified name, any other with the name as it stands
and, for a specialized class, as it is spelled. -/
def carriesName (s : Store) (d : DeclId) (decl : Declaration) (name : String) : Outcome Bool := do
  let name := Text.dropRoot name
  if (Text.lastSegment? name).isSome then return (← s.shownName d) == name
  else if decl.name = name then return true
  else if name.toList.contains '<' ∧ decl.instantiates?.isSome then
    return (← s.displayName d) == name
  else return false

/-- A pattern that contains `::` is searched in the qualified name, any other in the name as it
stands or as it is spelled. -/
def fitsPattern (s : Store) (d : DeclId) (decl : Declaration) (p : NamePattern) :
    Outcome Bool := do
  if Text.hasSeparator p.source.toList then return p.search (← s.shownName d)
  else if p.search decl.name then return true
  else return p.search (← s.displayName d)

def equalTypes (s : Store) (t u : TypeId) : Outcome Bool := do
  match ← (s.structuralEquals t u).recover with
  | .ok same => return same
  | .error _ => return false

def spelledAs (s : Store) (t : TypeId) (text : String) : Outcome Bool := do
  match ← (s.spell true t).recover with
  | .ok spelling => return spelling == text
  | .error _ => return false

end Store

mutual

def Matcher.accepts (s : Store) (m : Matcher) (d : DeclId) : Outcome Bool := do
  let decl ← s.decl d
  match m with
  | .anything => return true
  | .nameEquals name => s.carriesName d decl name
  | .nameMatches pattern => s.fitsPattern d decl pattern
  | .qualifiedNameEquals name => return (← s.shownName d) == Text.dropRoot name
  | .kindIs kind => return decl.kind == kind
  | .accessIs access => return decl.access == some access
  | .isVirtual => return decl.isVirtual
  | .isPureVirtual => return decl.isPureVirtual
  | .isStatic => return decl.isStatic
  | .isConst => return decl.isConst
  | .typeMatches type => match decl.valueType? with
    | none => return false
    | some t => type.accepts s {} t
  | .returnType type => match decl.callableDetails?.bind (·.returnType) with
    | none => return false
    | some t => type.accepts s {} t
  | .hasParameter type => match decl.callableDetails? with
    | none => return false
    | some c => Outcome.any (fun p ↦ type.accepts s {} p.type) c.parameters
  | .parameterCount n => return decl.callableDetails?.any (·.parameters.length == n)
  | .hasBaseClass base => s.searchBases (fun c ↦ base.accepts s c) [] (decl.bases.map (·.cls))
  | .parentIs parent => match decl.parent with
    | none => return false
    | some p => parent.accepts s p
  | .conj all => Matcher.acceptsAll s all d
  | .disj any => Matcher.acceptsAny s any d
  | .neg m => return !(← m.accepts s d)

def Matcher.acceptsAll (s : Store) (ms : List Matcher) (d : DeclId) : Outcome Bool :=
  match ms with
  | [] => return true
  | m :: ms => do if ← m.accepts s d then Matcher.acceptsAll s ms d else return false

def Matcher.acceptsAny (s : Store) (ms : List Matcher) (d : DeclId) : Outcome Bool :=
  match ms with
  | [] => return false
  | m :: ms => do if ← m.accepts s d then return true else Matcher.acceptsAny s ms d

/-- Whether a type satisfies a matcher; `used` are the outer qualifiers that an enclosing matcher
has asked for already. Typedefs that run in a circle satisfy nothing. -/
def TypeMatcher.accepts (s : Store) (m : TypeMatcher) (used : Qualifiers) (t : TypeId) :
    Outcome Bool := do
  match ← s.view t with
  | none => return false
  | some (head, q) =>
    match m with
    | .any => return true
    | .fundamental expected => match ← s.ty head with
      | .fundamental name => return expected.all (· == name)
      | _ => return false
    | .void => return (← s.ty head).isVoid
    | .pointerTo target => match ← s.ty head with
      | .pointer u => target.accepts s {} u
      | _ => return false
    | .referenceTo target => match ← s.ty head with
      | .reference u => target.accepts s {} u
      | _ => return false
    | .arrayOf element => match ← s.ty head with
      | .array u _ => element.accepts s {} u
      | _ => return false
    | .const inner =>
      if q.const && !used.const then inner.accepts s { used with const := true } t
      else return false
    | .volatile inner =>
      if q.volatile && !used.volatile then inner.accepts s { used with volatile := true } t
      else return false
    | .declared decl => match ← s.ty head with
      | .declared d => decl.accepts s d
      | .instantiation template _ => decl.accepts s template
      | _ => return false
    | .equalTo u => s.equalTypes t u
    | .spelled text => s.spelledAs t text
    | .conj all => TypeMatcher.acceptsAll s all used t
    | .disj any => TypeMatcher.acceptsAny s any used t
    | .neg m => return !(← m.accepts s used t)

def TypeMatcher.acceptsAll (s : Store) (ms : List TypeMatcher) (used : Qualifiers) (t : TypeId) :
    Outcome Bool :=
  match ms with
  | [] => return true
  | m :: ms => do if ← m.accepts s used t then TypeMatcher.acceptsAll s ms used t else return false

def TypeMatcher.acceptsAny (s : Store) (ms : List TypeMatcher) (used : Qualifiers) (t : TypeId) :
    Outcome Bool :=
  match ms with
  | [] => return false
  | m :: ms => do if ← m.accepts s used t then return true else TypeMatcher.acceptsAny s ms used t

end

end ScopeForest
