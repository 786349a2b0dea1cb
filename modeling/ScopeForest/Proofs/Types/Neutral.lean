import ScopeForest.Proofs.Types.Heads
import ScopeForest.Store.MergeName
import ScopeForest.Store.Preorder
import ScopeForest.Unit.Resolve

namespace ScopeForest

/-- The change keeps all that texts are made from. -/
structure Declaration.Neutral (change : Declaration → Declaration) : Prop where
  name : ∀ x, (change x).name = x.name
  externalId : ∀ x, (change x).externalId = x.externalId
  parent : ∀ x, (change x).parent = x.parent
  anonymous : ∀ x, (change x).anonymous = x.anonymous
  aliased : ∀ x, (change x).aliased? = x.aliased?
  instantiates : ∀ x, (change x).instantiates? = x.instantiates?
  callable : ∀ x, (change x).callableDetails? = x.callableDetails?

theorem Declaration.Neutral.expansion {change : Declaration → Declaration}
    (h : Declaration.Neutral change) (x : Declaration) : (change x).expansion? = x.expansion? := by
  rw [Declaration.expansion?, Declaration.expansion?, h.aliased, h.instantiates]

theorem Declaration.Neutral.isAnonymous {change : Declaration → Declaration}
    (h : Declaration.Neutral change) (x : Declaration) : (change x).isAnonymous = x.isAnonymous := by
  rw [Declaration.isAnonymous, Declaration.isAnonymous, h.anonymous]

namespace Store

def mapDecls (change : Declaration → Declaration) (s : Store) : Store :=
  ⟨s.decls.map change, s.types⟩

variable {s : Store} {change : Declaration → Declaration}

theorem get?_mapDecls (d : DeclId) :
    d.get? (s.mapDecls change).decls = (d.get? s.decls).map change :=
  Id.get?_map change

theorem decl_mapDecls (d : DeclId) : (s.mapDecls change).decl d = change <$> s.decl d := by
  rw [decl, decl, get?_mapDecls]
  cases d.get? s.decls <;> rfl

theorem bind_decl_mapDecls {α : Type} {k l : Declaration → Outcome α} (d : DeclId)
    (h : ∀ x, l (change x) = k x) : ((s.mapDecls change).decl d >>= l) = (s.decl d >>= k) := by
  rw [decl_mapDecls]
  cases s.decl d with
  | error e => rfl
  | ok x => exact h x

theorem stripQualifiersAux_mapDecls (fuel : Nat) (q : Qualifiers) (t : TypeId) :
    (s.mapDecls change).stripQualifiersAux fuel q t = s.stripQualifiersAux fuel q t := by
  have hty (t : TypeId) : (s.mapDecls change).ty t = s.ty t := rfl
  induction fuel generalizing q t with
  | zero => rfl
  | succ fuel ih => simp only [stripQualifiersAux, hty, ih]

theorem preorder_mapDecls (hmembers : ∀ x, (change x).members = x.members) (d : DeclId) :
    (s.mapDecls change).preorder d = s.preorder d := by
  have hof (d : DeclId) : (s.mapDecls change).membersOf d = s.membersOf d := by
    rw [membersOf, membersOf, get?_mapDecls, Option.map_map]
    simp only [Function.comp_def, hmembers]
  exact preorder_congr (List.length_map _) hof d

section Texts

variable (hc : Declaration.Neutral change)

include hc

theorem followHead_mapDecls (seen : List DeclId) (q : Qualifiers) (t : TypeId) :
    (s.mapDecls change).followHead seen q t = s.followHead seen q t := by
  have hty (t : TypeId) : (s.mapDecls change).ty t = s.ty t := rfl
  have hlength : (s.mapDecls change).types.length = s.types.length := rfl
  fun_induction followHead s seen q t with
  | case1 seen q t e he =>
    unfold followHead
    simp only [stripQualifiersAux_mapDecls, hlength, he]
  | case2 seen q t u p hu e he =>
    unfold followHead
    simp only [stripQualifiersAux_mapDecls, hlength, hu, hty, he]
  | case3 seen q t u p hu d hd hnone =>
    unfold followHead
    simp only [stripQualifiersAux_mapDecls, hlength, hu, hty, hd]
    split
    next => rfl
    next y hy =>
      rw [get?_mapDecls, hnone] at hy
      cases hy
  | case4 seen q t u p hu d hd x hx hnone =>
    unfold followHead
    simp only [stripQualifiersAux_mapDecls, hlength, hu, hty, hd]
    split
    next hy =>
      rw [get?_mapDecls, hx] at hy
      cases hy
    next y hy =>
      rw [get?_mapDecls, hx] at hy
      cases hy
      simp only [hc.expansion, hnone]
  | case5 seen q t u p hu d hd x hx next hnext hmem =>
    unfold followHead
    simp only [stripQualifiersAux_mapDecls, hlength, hu, hty, hd]
    split
    next hy =>
      rw [get?_mapDecls, hx] at hy
      cases hy
    next y hy =>
      rw [get?_mapDecls, hx] at hy
      cases hy
      simp only [hc.expansion, hnext, hc.externalId, hmem, dite_true]
  | case6 seen q t u p hu d hd x hx next hnext hmem ih =>
    conv_lhs => unfold followHead
    simp only [stripQualifiersAux_mapDecls, hlength, hu, hty, hd]
    split
    next hy =>
      rw [get?_mapDecls, hx] at hy
      cases hy
    next y hy =>
      rw [get?_mapDecls, hx] at hy
      cases hy
      simp only [hc.expansion, hnext, hmem, dite_false, ih]
  | case7 seen q t u p hu node hne hnode =>
    unfold followHead
    simp only [stripQualifiersAux_mapDecls, hlength, hu, hty, hnode]

theorem canonicalHead_mapDecls (t : TypeId) :
    (s.mapDecls change).canonicalHead t = s.canonicalHead t :=
  followHead_mapDecls hc [] {} t

theorem nameWith_mapDecls (spell : Speller) (d : DeclId) :
    (s.mapDecls change).nameWith spell d = s.nameWith spell d := by
  refine bind_decl_mapDecls d fun x ↦ ?_
  rw [hc.instantiates, hc.name]
  cases x.instantiates? with
  | none => rfl
  | some t =>
    refine congrArg (s.ty t >>= ·) (funext fun node ↦ ?_)
    cases node with
    | instantiation template args =>
      refine bind_decl_mapDecls template fun y ↦ ?_
      rw [hc.name]
    | _ => rfl

theorem pathAux_mapDecls (spell : Speller) (fuel : Nat) (d : DeclId) (below : List String) :
    (s.mapDecls change).pathAux spell fuel d below = s.pathAux spell fuel d below := by
  induction fuel generalizing d below with
  | zero => rfl
  | succ fuel ih =>
    refine bind_decl_mapDecls d fun x ↦ ?_
    rw [hc.parent, hc.isAnonymous]
    simp only [ih, nameWith_mapDecls hc]

theorem qualifiedNameWith_mapDecls (spell : Speller) (d : DeclId) :
    (s.mapDecls change).qualifiedNameWith spell d = s.qualifiedNameWith spell d := by
  have hlength : (s.mapDecls change).decls.length = s.decls.length := List.length_map _
  simp only [qualifiedNameWith, pathWith, pathAux_mapDecls hc, hlength]

theorem spellNode_mapDecls (spell : Speller) (canonical : Bool) (node : Ty) :
    (s.mapDecls change).spellNode spell canonical node = s.spellNode spell canonical node := by
  have hty (t : TypeId) : (s.mapDecls change).ty t = s.ty t := rfl
  have hpointer (mark : String) (t : TypeId) :
      (s.mapDecls change).spellPointer spell canonical mark t =
        s.spellPointer spell canonical mark t := by
    simp only [spellPointer, pointee, canonicalHead_mapDecls hc, hty]
  cases node <;> simp only [spellNode, hpointer, qualifiedNameWith_mapDecls hc]

theorem spellAux_mapDecls (fuel : Nat) : (s.mapDecls change).spellAux fuel = s.spellAux fuel := by
  have hty (t : TypeId) : (s.mapDecls change).ty t = s.ty t := rfl
  induction fuel with
  | zero => rfl
  | succ fuel ih =>
    funext canonical t
    cases canonical <;>
      simp only [spellAux, canonicalHead_mapDecls hc, hty, ih, spellNode_mapDecls hc]

theorem spell_mapDecls : (s.mapDecls change).spell = s.spell := by
  funext canonical t
  exact congrFun (congrFun (spellAux_mapDecls hc _) canonical) t

theorem anonymousAroundAux_mapDecls (fuel : Nat) (d : DeclId) :
    (s.mapDecls change).anonymousAroundAux fuel d = s.anonymousAroundAux fuel d := by
  induction fuel generalizing d with
  | zero => rfl
  | succ fuel ih =>
    refine bind_decl_mapDecls d fun x ↦ ?_
    rw [hc.parent, hc.anonymous]
    simp only [ih]

theorem ownerScopes_mapDecls (node : Ty) :
    (s.mapDecls change).ownerScopes node = s.ownerScopes node := by
  have hlength : (s.mapDecls change).decls.length = s.decls.length := List.length_map _
  unfold ownerScopes
  cases node.owner? with
  | none => rfl
  | some d =>
    simp only [anonymousAround, hlength, anonymousAroundAux_mapDecls hc]
    refine congrArg (s.anonymousAroundAux (s.decls.length + 1) d >>= ·) (funext fun names ↦ ?_)
    refine bind_decl_mapDecls d fun x ↦ ?_
    rw [hc.instantiates]

theorem anonymousScopesAux_mapDecls (fuel : Nat) :
    (s.mapDecls change).anonymousScopesAux fuel = s.anonymousScopesAux fuel := by
  have hty (t : TypeId) : (s.mapDecls change).ty t = s.ty t := rfl
  induction fuel with
  | zero => rfl
  | succ fuel ih =>
    funext t
    simp only [anonymousScopesAux, canonicalHead_mapDecls hc, hty, ownerScopes_mapDecls hc, ih]

theorem anonymousScopes_mapDecls : (s.mapDecls change).anonymousScopes = s.anonymousScopes := by
  funext t
  exact congrFun (anonymousScopesAux_mapDecls hc _) t

theorem signatureKey_mapDecls (d : DeclId) :
    (s.mapDecls change).signatureKey d = s.signatureKey d := by
  refine bind_decl_mapDecls d fun x ↦ ?_
  rw [hc.callable]
  simp only [spell_mapDecls hc, anonymousScopes_mapDecls hc]

theorem mergeName_mapDecls (d : DeclId) : (s.mapDecls change).mergeName d = s.mergeName d := by
  unfold mergeName declName
  rw [spell_mapDecls hc, nameWith_mapDecls hc]
  refine congrArg (s.nameWith s.spell d >>= ·) (funext fun name ↦ ?_)
  refine bind_decl_mapDecls d fun x ↦ ?_
  rw [hc.instantiates, anonymousScopes_mapDecls hc]

theorem expansions_mapDecls (node : Ty) :
    (s.mapDecls change).expansions node = s.expansions node := by
  cases node with
  | declared d =>
    refine bind_decl_mapDecls d fun x ↦ ?_
    rw [hc.expansion]
  | _ => rfl

theorem searchCycle_mapDecls (path done todo : List TypeId) :
    (s.mapDecls change).searchCycle path done todo = s.searchCycle path done todo := by
  have hty (t : TypeId) : t.get? (s.mapDecls change).types = t.get? s.types := rfl
  fun_induction searchCycle s path done todo with
  | case1 path done => unfold searchCycle; rfl
  | case2 path done t todo hdone ih =>
    rw [searchCycle, if_pos hdone, ih]
  | case3 path done t todo hdone hpath =>
    rw [searchCycle, if_neg hdone, dif_pos hpath]
  | case4 path done t todo hdone hpath hnone =>
    rw [searchCycle, if_neg hdone, dif_neg hpath]
    split
    next => rfl
    next node hnode => rw [hty, hnone] at hnode; cases hnode
  | case5 path done t todo hdone hpath node hnode e he =>
    rw [searchCycle, if_neg hdone, dif_neg hpath]
    split
    next hnone => rw [hty, hnode] at hnone; cases hnone
    next other hother =>
      rw [hty, hnode] at hother
      cases hother
      simp only [expansions_mapDecls hc, he]
  | case6 path done t todo hdone hpath node hnode next hnext reached hreached ihnext ih =>
    rw [searchCycle, if_neg hdone, dif_neg hpath]
    split
    next hnone => rw [hty, hnode] at hnone; cases hnone
    next other hother =>
      rw [hty, hnode] at hother
      cases hother
      simp only [expansions_mapDecls hc, hnext, ihnext, hreached, ih]
  | case7 path done t todo hdone hpath node hnode next hnext hfound ihnext =>
    rw [searchCycle, if_neg hdone, dif_neg hpath]
    split
    next hnone => rw [hty, hnode] at hnone; cases hnone
    next other hother =>
      rw [hty, hnode] at hother
      cases hother
      simp only [expansions_mapDecls hc, hnext, ihnext]

theorem findCycle_mapDecls : (s.mapDecls change).findCycle = s.findCycle := by
  unfold findCycle
  rw [searchCycle_mapDecls hc]
  rfl

end Texts

end Store

theorem climb_map {change : Declaration → Declaration} (hc : Declaration.Neutral change)
    (decls : List Declaration) (fuel : Nat) (d : Option DeclId) :
    climb (decls.map change) fuel d = climb decls fuel d := by
  fun_induction climb decls fuel d with
  | case1 => unfold climb; rfl
  | case2 => rfl
  | case3 fuel d ih =>
    have hparent : (fun x ↦ (change x).parent) = (·.parent) := funext hc.parent
    rw [climb, Id.get?_map, Option.bind_map]
    simpa only [Function.comp_def, hparent] using ih

end ScopeForest
