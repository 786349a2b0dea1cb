import ScopeForest.Proofs.Entity

namespace ScopeForest

def DeclKind.IsClass (kind : DeclKind) : Prop := kind = .classDecl ∨ kind = .unionDecl

/-- Which ids name something. -/
structure Holding where
  type : TypeId → Prop
  /-- A declaration of the given kind. -/
  decl : DeclId → DeclKind → Prop
  file : FileId → Prop

namespace Holding

/-- A renaming leads from what `H` holds to what `K` holds. -/
structure Maps (H K : Holding) (r : Renaming) : Prop where
  type : ∀ {t : TypeId}, H.type t → K.type (r.type t)
  decl : ∀ {d : DeclId} {kind : DeclKind}, H.decl d kind → K.decl (r.decl d) kind
  file : ∀ {i : FileId}, H.file i → K.file (r.file i)

structure Within (H K : Holding) : Prop where
  type : ∀ {t : TypeId}, H.type t → K.type t
  decl : ∀ {d : DeclId} {kind : DeclKind}, H.decl d kind → K.decl d kind
  file : ∀ {i : FileId}, H.file i → K.file i

end Holding

/-- The declarations of a store and its types, with files by number. -/
def Store.holding (s : Store) (files : List String) : Holding where
  type t := ∃ node, t.get? s.types = some node
  decl d kind := ∃ x, d.get? s.decls = some x ∧ x.kind = kind
  file i := ∃ path, i.get? files = some path

/-- The kinds of declaration that a node may name. -/
def Ty.Owns : Ty → DeclKind → Prop
  | .declared _, kind => kind.isTypeDeclaration
  | .memberPointer .., kind => kind.IsClass
  | .memberFunctionPointer .., kind => kind.IsClass
  | _, _ => True

/-- The sub-types of a node are held, and so is the declaration that it names. -/
structure Ty.Refers (H : Holding) (node : Ty) : Prop where
  children : ∀ t ∈ node.children, H.type t
  owner : ∀ d ∈ node.owner?, ∃ kind, H.decl d kind ∧ node.Owns kind

def Details.types : Details → List TypeId
  | .cls c => c.instantiates.toList
  | .callable c => c.returnType.toList ++ c.parameters.map (·.type)
  | .var v => [v.type]
  | .typedef t => [t]
  | _ => []

/-- All that a declaration mentions is held, apart from its scope and its members. -/
structure Declaration.Refers (H : Holding) (x : Declaration) : Prop where
  types : ∀ t ∈ x.details.types, H.type t
  bases : ∀ b ∈ x.bases, ∃ kind, H.decl b.cls kind ∧ kind.IsClass
  aliases : ∀ a ∈ x.aliases, H.decl a .typedef
  location : ∀ l ∈ x.location, H.file l.file

section Renamed

variable {H K : Holding} {r : Renaming}

theorem Ty.children_rename (f : DeclId → DeclId) (g : TypeId → TypeId) (node : Ty) :
    (node.rename f g).children = node.children.map g := by
  cases node with
  | instantiation template args =>
    simp only [rename, children, List.filterMap_map, List.map_filterMap]
    congr 1
    funext arg
    cases arg <;> rfl
  | _ => rfl

theorem Ty.owner?_rename (f : DeclId → DeclId) (g : TypeId → TypeId) (node : Ty) :
    (node.rename f g).owner? = node.owner?.map f := by
  cases node <;> rfl

theorem Ty.Refers.rename {node : Ty} (hm : H.Maps K r) (h : node.Refers H) :
    (r.ty node).Refers K where
  children := by
    intro t ht
    rw [Renaming.ty, children_rename] at ht
    obtain ⟨u, hu, rfl⟩ := List.mem_map.mp ht
    exact hm.type (h.children u hu)
  owner := by
    intro d hd
    rw [Renaming.ty, owner?_rename] at hd
    obtain ⟨e, he, rfl⟩ := Option.map_eq_some_iff.mp hd
    obtain ⟨kind, hk, ho⟩ := h.owner e he
    refine ⟨kind, hm.decl hk, ?_⟩
    cases node <;> exact ho

theorem Ty.Refers.mono {node : Ty} (hw : H.Within K) (h : node.Refers H) : node.Refers K where
  children t ht := hw.type (h.children t ht)
  owner d hd := by
    obtain ⟨kind, hk, ho⟩ := h.owner d hd
    exact ⟨kind, hw.decl hk, ho⟩

namespace Declaration

variable {x y : Declaration}

theorem refers_of_details (ht : ∀ t ∈ x.details.types, H.type t)
    (hc : ∀ c, x.details = .cls c → (∀ b ∈ c.bases, ∃ kind, H.decl b.cls kind ∧ kind.IsClass) ∧
      ∀ a ∈ c.aliases, H.decl a .typedef)
    (hl : ∀ l ∈ x.location, H.file l.file) : x.Refers H := by
  rcases x with ⟨_, _, _, _, _, _, _, _, _, details⟩
  cases details with
  | cls c => exact ⟨ht, (hc c rfl).1, (hc c rfl).2, hl⟩
  | _ => exact ⟨ht, nofun, nofun, hl⟩

theorem Refers.mono (hw : H.Within K) (h : x.Refers H) : x.Refers K where
  types t ht := hw.type (h.types t ht)
  bases b hb := by
    obtain ⟨kind, hk, hc⟩ := h.bases b hb
    exact ⟨kind, hw.decl hk, hc⟩
  aliases a ha := hw.decl (h.aliases a ha)
  location l hl := hw.file (h.location l hl)

theorem Refers.rename (hm : H.Maps K r) (d : DeclId) (h : x.Refers H) :
    (r.declaration d x).Refers K := by
  have htypes : (r.declaration d x).details.types = x.details.types.map r.type := by
    rcases x with ⟨_, _, _, _, _, _, _, _, _, details⟩
    cases details <;> simp [Renaming.declaration, Renaming.details, Renaming.classDetails,
      Details.types, Option.toList_map, Function.comp_def]
  have hbases : (r.declaration d x).bases = x.bases.map r.base := by
    rcases x with ⟨_, _, _, _, _, _, _, _, _, details⟩
    cases details <;> rfl
  have haliases : (r.declaration d x).aliases = [] := by
    rcases x with ⟨_, _, _, _, _, _, _, _, _, details⟩
    cases details <;> rfl
  refine ⟨?_, ?_, by simp [haliases], ?_⟩
  · intro t ht
    rw [htypes] at ht
    obtain ⟨u, hu, rfl⟩ := List.mem_map.mp ht
    exact hm.type (h.types u hu)
  · intro b hb
    rw [hbases] at hb
    obtain ⟨c, hc, rfl⟩ := List.mem_map.mp hb
    obtain ⟨kind, hk, hclass⟩ := h.bases c hc
    exact ⟨kind, hm.decl hk, hclass⟩
  · intro l hl
    obtain ⟨k, hk, rfl⟩ := Option.map_eq_some_iff.mp hl
    exact hm.file (h.location k hk)

theorem Refers.withMembers (members : List DeclId) (h : x.Refers H) :
    (x.withMembers members).Refers H := by
  rcases x with ⟨_, _, _, _, _, _, _, _, _, details⟩
  cases details <;> exact ⟨h.types, h.bases, h.aliases, h.location⟩

theorem Refers.withAliases {aliases : List DeclId} (ha : ∀ a ∈ aliases, H.decl a .typedef)
    (h : x.Refers H) : (x.withAliases aliases).Refers H := by
  rcases x with ⟨_, _, _, _, _, _, _, _, _, details⟩
  cases details with
  | cls c => exact ⟨h.types, h.bases, ha, h.location⟩
  | _ => exact ⟨h.types, h.bases, h.aliases, h.location⟩

theorem mem_addBase {bases : List BaseSpec} {b c : BaseSpec} (h : c ∈ addBase bases b) :
    c ∈ bases ∨ c = b := by
  unfold addBase at h
  split at h
  · exact .inl h
  · simpa using h

theorem mem_foldl_addBase {bases more : List BaseSpec} {b : BaseSpec}
    (h : b ∈ more.foldl addBase bases) : b ∈ bases ∨ b ∈ more := by
  induction more generalizing bases with
  | nil => exact .inl h
  | cons c more ih =>
    rcases ih h with h | h
    · rcases mem_addBase h with h | rfl
      · exact .inl h
      · exact .inr List.mem_cons_self
    · exact .inr (List.mem_cons_of_mem c h)

theorem Refers.absorb (hx : x.Refers H) (hy : y.Refers H) : (x.absorb y).Refers H := by
  have hlocation {a b : Option Location} (ha : ∀ l ∈ a, H.file l.file) (hb : ∀ l ∈ b, H.file l.file) :
      ∀ l ∈ a <|> b, H.file l.file := by
    cases a with
    | none => exact hb
    | some l => exact ha
  rw [Declaration.absorb]
  split
  next k s hk hs =>
    obtain ⟨xtypes, xbases, xaliases, xlocation⟩ := hx
    obtain ⟨ytypes, ybases, -, ylocation⟩ := hy
    simp only [Declaration.bases, Declaration.aliases, classDetails?, hk, hs, Details.types,
      Option.map_some, Option.getD_some] at xtypes xbases xaliases ytypes ybases
    refine ⟨?_, ?_, ?_, ?_⟩
    · simp only [Details.types, ClassDetails.absorb]
      split
      · exact ytypes
      · exact xtypes
    · intro b hb
      have hb : b ∈ s.bases.foldl addBase k.bases := by
        simp only [Declaration.bases, classDetails?, ClassDetails.absorb, Option.map_some,
          Option.getD_some] at hb
        split at hb <;> exact hb
      rcases mem_foldl_addBase hb with hb | hb
      · exact xbases b hb
      · exact ybases b hb
    · simp only [Declaration.aliases, classDetails?, ClassDetails.absorb, Option.map_some,
        Option.getD_some]
      split <;> exact xaliases
    · simp only
      split
      · exact hlocation ylocation xlocation
      · exact hlocation xlocation ylocation
  next => exact ⟨hx.types, hx.bases, hx.aliases, hlocation hx.location hy.location⟩

end Declaration

end Renamed

end ScopeForest
