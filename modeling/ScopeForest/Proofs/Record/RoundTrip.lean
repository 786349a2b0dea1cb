import ScopeForest.Proofs.Json.RoundTrip
import ScopeForest.Proofs.Text.Bytes
import ScopeForest.Record.Json

namespace ScopeForest

namespace NameMap

variable {α : Type}

theorem place_of_forall_lt {k : String} (v : α) {es : List (String × α)} (h : ∀ e ∈ es, e.1 < k) :
    place k v es = es ++ [(k, v)] := by
  induction es with
  | nil => rfl
  | cons e es ih =>
    have hlt : e.1 < k := h e List.mem_cons_self
    rw [place, if_neg (String.lt_asymm hlt), if_neg (String.ne_of_lt hlt).symm,
      ih fun a ha ↦ h a (List.mem_cons_of_mem e ha)]
    rfl

theorem entries_foldl_insert {m : NameMap α} {es : List (String × α)}
    (h : (m.entries ++ es).Pairwise fun a b ↦ a.1 < b.1) :
    (es.foldl (fun m e ↦ m.insert e.1 e.2) m).entries = m.entries ++ es := by
  induction es generalizing m with
  | nil => rw [List.append_nil, List.foldl_nil]
  | cons e es ih =>
    have hplaced : (m.insert e.1 e.2).entries = m.entries ++ [e] :=
      place_of_forall_lt e.2 fun a ha ↦ (List.pairwise_append.mp h).2.2 a ha e List.mem_cons_self
    rw [List.foldl_cons, ih (by rwa [hplaced, List.append_assoc]), hplaced, List.append_assoc]
    rfl

theorem ofList_entries (m : NameMap α) : ofList m.entries = m := by
  have hentries : (ofList m.entries).entries = m.entries := entries_foldl_insert m.sorted
  cases h : ofList m.entries
  rw [h] at hentries
  subst hentries
  rfl

end NameMap

theorem mapM_map_eq_some {α β : Type} {f : α → β} {g : β → Option α} {xs : List α}
    (h : ∀ x ∈ xs, g (f x) = some x) : (xs.map f).mapM g = some xs := by
  induction xs with
  | nil => rfl
  | cons x xs ih =>
    rw [List.map_cons, List.mapM_cons, h x List.mem_cons_self,
      ih fun y hy ↦ h y (List.mem_cons_of_mem x hy)]
    rfl

open Json

theorem Tag.ofName?_name (tag : Tag) : Tag.ofName? tag.name = some tag := by
  cases tag <;> rfl

theorem ChildKind.ofName?_name (kind : ChildKind) : ChildKind.ofName? kind.name = some kind := by
  cases kind <;> rfl

theorem AttrValue.ofJson?_toJson (v : AttrValue) : AttrValue.ofJson? v.toJson = some v := by
  cases v with
  | literal text => rfl
  | ref id => rfl
  | refs ids =>
    have hids : (ids.map str).mapM str? = some ids := mapM_map_eq_some fun _ _ ↦ rfl
    exact congrArg (Option.map AttrValue.refs) hids

theorem Attrs.ofJson?_toJson (attrs : Attrs) : Attrs.ofJson? attrs.toJson = some attrs := by
  have hentries : (attrs.entries.map fun e ↦ (e.1, e.2.toJson)).mapM
      (fun f ↦ do return (f.1, ← AttrValue.ofJson? f.2)) = some attrs.entries := by
    refine mapM_map_eq_some fun e _ ↦ ?_
    rw [AttrValue.ofJson?_toJson]
    rfl
  rw [Attrs.toJson, Attrs.ofJson?, hentries]
  exact congrArg some attrs.ofList_entries

theorem ChildRecord.ofJson?_toJson (c : ChildRecord) : ChildRecord.ofJson? c.toJson = some c := by
  show (do
    let kind ← ChildKind.ofName? c.kind.name
    let attrs ← Attrs.ofJson? c.attrs.toJson
    return ({ kind, attrs } : ChildRecord)) = some c
  rw [ChildKind.ofName?_name, Attrs.ofJson?_toJson]
  rfl

theorem Record.ofJson?_toJson (r : Record) : Record.ofJson? r.toJson = some r := by
  have hchildren : (r.children.map ChildRecord.toJson).mapM ChildRecord.ofJson? = some r.children :=
    mapM_map_eq_some fun c _ ↦ c.ofJson?_toJson
  show (do
    let tag ← Tag.ofName? r.tag.name
    let attrs ← Attrs.ofJson? r.attrs.toJson
    let children ← (r.children.map ChildRecord.toJson).mapM ChildRecord.ofJson?
    return ({ tag, id := r.id, attrs, children } : Record)) = some r
  rw [Tag.ofName?_name, Attrs.ofJson?_toJson, hchildren]
  rfl

theorem Record.listOfJson?_listToJson (rs : List Record) :
    Record.listOfJson? (Record.listToJson rs) = some rs :=
  mapM_map_eq_some fun r _ ↦ r.ofJson?_toJson

theorem AttrValue.plain_toJson (v : AttrValue) : v.toJson.Plain := by
  cases v with
  | literal text | ref text => exact (Plain.str text).tagged
  | refs ids =>
    refine (Plain.arr fun w hw ↦ ?_).tagged
    obtain ⟨id, -, rfl⟩ := List.mem_map.mp hw
    exact .str id

theorem Attrs.plain_toJson (attrs : Attrs) : attrs.toJson.Plain := by
  refine .obj fun f hf ↦ ?_
  obtain ⟨e, -, rfl⟩ := List.mem_map.mp hf
  exact e.2.plain_toJson

theorem ChildRecord.plain_toJson (c : ChildRecord) : c.toJson.Plain := by
  refine .obj ?_
  simp only [List.mem_cons, List.not_mem_nil, or_false, forall_eq_or_imp, forall_eq]
  exact ⟨.str _, c.attrs.plain_toJson⟩

theorem Record.plain_toJson (r : Record) : r.toJson.Plain := by
  refine .obj ?_
  simp only [List.mem_cons, List.not_mem_nil, or_false, forall_eq_or_imp, forall_eq]
  refine ⟨.str _, .str _, r.attrs.plain_toJson, .arr fun w hw ↦ ?_⟩
  obtain ⟨c, -, rfl⟩ := List.mem_map.mp hw
  exact c.plain_toJson

theorem Record.plain_listToJson (rs : List Record) : (Record.listToJson rs).Plain := by
  refine .arr fun w hw ↦ ?_
  obtain ⟨r, -, rfl⟩ := List.mem_map.mp hw
  exact r.plain_toJson

theorem Record.readList?_listText (rs : List Record) :
    Record.readList? (Record.listText rs) = some rs := by
  rw [readList?, listText, (plain_listToJson rs).read?_text]
  exact listOfJson?_listToJson rs

/-- The names come in the order of their bytes, and none comes twice. -/
def Attrs.ByteOrdered (attrs : Attrs) : Prop :=
  attrs.keys.Pairwise fun a b ↦ Text.bytes a.toList < Text.bytes b.toList

theorem Attrs.byteOrdered (attrs : Attrs) : attrs.ByteOrdered := by
  refine List.pairwise_map.mpr (attrs.sorted.imp fun h ↦ ?_)
  exact (Text.bytes_lt_iff _ _).mpr h

/-- Every list of records is read back from its text, and so no two have the same text and each is
read from some. Whatever the order of attributes in a text is, those that are read are in the order
of the bytes of their names. -/
theorem Record.lists_read_back :
    (∀ rs, Record.readList? (Record.listText rs) = some rs) ∧
    Function.Injective Record.listText ∧ (∀ rs, ∃ text, Record.readList? text = some rs) ∧
    ∀ text rs, Record.readList? text = some rs → ∀ r ∈ rs, r.attrs.ByteOrdered ∧
      ∀ c ∈ r.children, c.attrs.ByteOrdered := by
  refine ⟨readList?_listText, fun rs rs' h ↦ ?_, fun rs ↦ ⟨_, readList?_listText rs⟩, ?_⟩
  · have hread := readList?_listText rs
    rw [h, readList?_listText] at hread
    exact (Option.some_inj.mp hread).symm
  · exact fun _ _ _ r _ ↦ ⟨r.attrs.byteOrdered, fun c _ ↦ c.attrs.byteOrdered⟩

def Sample.labelled : Record :=
  ((({ tag := .file, id := "\"\\\x01" } : Record).withLiteral "😀" "\n").withRefs "\uffff"
    ["é", ""]).withChild
      { kind := .base, attrs := NameMap.ofList [("b", .ref "c"), ("a", .ref "d")] }

theorem lists_read_back_sample :
    Record.readList? (Record.listText [Sample.labelled]) = some [Sample.labelled] ∧
      Sample.labelled.attrs.keys = ["\uffff", "😀"] ∧ Sample.labelled.attrs.ByteOrdered := by
  obtain ⟨hread, -, -, hordered⟩ := Record.lists_read_back
  have hsample := hread [Sample.labelled]
  exact ⟨hsample, by decide, (hordered _ _ hsample _ (List.mem_singleton_self _)).1⟩

end ScopeForest
