import ScopeForest.Store.Basic

namespace ScopeForest

namespace Store

def membersOf (s : Store) (d : DeclId) : List DeclId :=
  ((d.get? s.decls).map (·.members)).getD []

def visit (s : Store) : Nat → List DeclId → List DeclId
  | 0, _ => []
  | _, [] => []
  | fuel + 1, d :: stack => d :: s.visit fuel (s.membersOf d ++ stack)

def preorder (s : Store) (d : DeclId) : List DeclId := s.visit s.decls.length [d]

theorem preorder_congr {s t : Store} (hlength : t.decls.length = s.decls.length)
    (h : ∀ d, t.membersOf d = s.membersOf d) (d : DeclId) : t.preorder d = s.preorder d := by
  have hvisit (fuel : Nat) (stack : List DeclId) : t.visit fuel stack = s.visit fuel stack := by
    induction fuel generalizing stack with
    | zero => rfl
    | succ fuel ih =>
      cases stack with
      | nil => rfl
      | cons d stack => rw [visit, visit, h, ih]
  rw [preorder, preorder, hlength, hvisit]

end Store

inductive Turn
  | enter (d : DeclId)
  | leave (d : DeclId)
  deriving DecidableEq, Repr

/-- A walk that also notes where in the order each declaration begins and ends. -/
structure Tour where
  stack : List Turn
  order : List DeclId := []
  spans : List (Nat × Nat)
  deriving DecidableEq, Repr

namespace Tour

def step (s : Store) (t : Tour) : Tour :=
  match t.stack with
  | [] => t
  | .enter d :: stack =>
    { stack := (s.membersOf d).map .enter ++ .leave d :: stack
      order := t.order ++ [d]
      spans := d.modify (fun span ↦ (t.order.length, span.2)) t.spans }
  | .leave d :: stack =>
    { t with
      stack
      spans := d.modify (fun span ↦ (span.1, t.order.length)) t.spans }

def run (s : Store) : Nat → Tour → Tour
  | 0, t => t
  | n + 1, t => run s n (t.step s)

end Tour

def Store.tour (s : Store) (root : DeclId) : Tour :=
  Tour.run s (2 * s.decls.length) { stack := [.enter root], spans := s.decls.map fun _ ↦ (0, 0) }

end ScopeForest
