import ScopeForest.Proofs.Text.Bytes
import ScopeForest.Text.Segment

namespace ScopeForest.Text

def bracketStep (depth : Nat) (c : Char) : Nat :=
  if c = '<' then depth + 1 else if c = '>' then depth - 1 else depth

/-- A name that can stand in front of a separator. -/
structure IsSegment (name : String) : Prop where
  unbroken : lastSegment? name = none
  closed : name.toList.foldl bracketStep 0 = 0
  last : name.toList.getLast? ≠ some ':'

/-- A path whose names can be told apart when they are joined. -/
structure Separable (path : List String) : Prop where
  front : ∀ name ∈ path.dropLast, IsSegment name
  last : ∀ name ∈ path.getLast?, lastSegment? name = none

theorem afterSeparator_cons {depth : Nat} {c : Char} {cs : List Char}
    (h : depth = 0 → c = ':' → cs.head? ≠ some ':') :
    afterSeparator depth (c :: cs) = afterSeparator (bracketStep depth c) cs := by
  rw [afterSeparator.eq_def]
  split
  next heq => cases heq
  next heq =>
    cases heq
    exact absurd rfl (h rfl rfl)
  next heq =>
    cases heq
    rfl
  next heq =>
    cases heq
    rfl
  next hopen hclose _ heq =>
    cases heq
    rw [bracketStep, if_neg hopen, if_neg hclose]

/-- A text without a separator only opens and closes brackets for what comes after it. -/
theorem afterSeparator_append {depth : Nat} {w rest : List Char}
    (h : afterSeparator depth w = none) (hlast : w.getLast? ≠ some ':') :
    afterSeparator depth (w ++ rest) = afterSeparator (w.foldl bracketStep depth) rest := by
  induction w generalizing depth with
  | nil => rfl
  | cons c w ih =>
    have hplain : depth = 0 → c = ':' → w.head? ≠ some ':' := by
      rintro rfl rfl hhead
      obtain ⟨w, rfl⟩ := List.head?_eq_some_iff.mp hhead
      cases h
    have hplain' : depth = 0 → c = ':' → (w ++ rest).head? ≠ some ':' := by
      rintro rfl rfl
      cases w with
      | nil => exact absurd rfl hlast
      | cons e w => exact hplain rfl rfl
    rw [afterSeparator_cons hplain] at h
    rw [List.cons_append, afterSeparator_cons hplain', List.foldl_cons]
    cases w with
    | nil => rfl
    | cons e w => exact ih h (by rwa [List.getLast?_cons_cons] at hlast)

theorem lastSegment?_append {name rest : String} (h : IsSegment name) :
    lastSegment? (name ++ "::" ++ rest) = some (lastSegment rest) := by
  have hname : afterSeparator 0 name.toList = none := Option.map_eq_none_iff.mp h.unbroken
  have hjoined : (name ++ "::" ++ rest).toList = name.toList ++ ':' :: ':' :: rest.toList := by
    simp
  rw [lastSegment?, hjoined, afterSeparator_append hname h.last, h.closed, afterSeparator,
    Option.map_some, lastSegment, lastSegment?]
  cases afterSeparator 0 rest.toList with
  | none => exact congrArg some String.ofList_toList
  | some cs => rfl

theorem lastSegment_append {name rest : String} (h : IsSegment name) :
    lastSegment (name ++ "::" ++ rest) = lastSegment rest := by
  rw [lastSegment, lastSegment?_append h]
  rfl

theorem lastSegment_intercalate {front : List String} {name : String}
    (h : Separable (front ++ [name])) : lastSegment ("::".intercalate (front ++ [name])) = name := by
  have hname : lastSegment? name = none := h.last name List.getLast?_concat
  have hfront := h.front
  rw [List.dropLast_concat] at hfront
  clear h
  induction front with
  | nil =>
    rw [List.nil_append, String.intercalate_singleton, lastSegment, hname]
    rfl
  | cons first front ih =>
    obtain ⟨next, rest, hrest⟩ := List.exists_cons_of_ne_nil (List.concat_ne_nil name front)
    rw [List.cons_append, hrest, String.intercalate_cons_cons,
      lastSegment_append (hfront first List.mem_cons_self), ← hrest]
    exact ih fun w hw ↦ hfront w (List.mem_cons_of_mem first hw)

theorem lastSegment_dropRoot (name : String) : lastSegment (dropRoot name) = lastSegment name := by
  unfold dropRoot
  split
  next cs hcs =>
    rw [lastSegment, lastSegment, lastSegment?, lastSegment?, hcs, String.toList_ofList,
      afterSeparator, Option.map_some, Option.getD_some]
    cases afterSeparator 0 cs <;> rfl
  next => rfl

section Bytes

variable {c : Char} {cs : List Char} {i depth : Nat} {b : UInt8} {bs : List UInt8}

def IsMark (b : UInt8) : Prop := b = 0x3A ∨ b = 0x3C ∨ b = 0x3E

theorem segmentStart_of_not_isMark {w : List UInt8} (h : ∀ b ∈ w, ¬IsMark b) :
    segmentStart i depth (w ++ bs) = segmentStart (i + w.length) depth bs := by
  induction w generalizing i with
  | nil => rfl
  | cons b w ih =>
    obtain ⟨hcolon, hopen, hclose⟩ : b ≠ 0x3A ∧ b ≠ 0x3C ∧ b ≠ 0x3E := by
      simpa [IsMark] using h b List.mem_cons_self
    rw [List.cons_append, segmentStart, ih fun a ha ↦ h a (List.mem_cons_of_mem b ha),
      List.length_cons, Nat.add_right_comm, Nat.add_assoc]
    · exact hopen
    · exact hclose
    · exact fun _ _ hb _ ↦ hcolon hb

theorem not_isMark_of_mem_encoding (hcolon : c ≠ ':') (hopen : c ≠ '<') (hclose : c ≠ '>')
    (hb : b ∈ String.utf8EncodeChar c) : ¬IsMark b := by
  have hne {e : Char} (he : c ≠ e) : c.toNat ≠ e.toNat := fun h ↦ he (Char.toNat_inj.mp h)
  rintro (rfl | rfl | rfl)
  · exact hne hcolon (toNat_of_mem_encoding hb (by decide))
  · exact hne hopen (toNat_of_mem_encoding hb (by decide))
  · exact hne hclose (toNat_of_mem_encoding hb (by decide))

theorem head?_bytes (h : cs.head? ≠ some ':') : (bytes cs).head? ≠ some 0x3A := by
  cases cs with
  | nil => exact nofun
  | cons c cs =>
    intro hhead
    obtain ⟨b, w, hw⟩ := List.exists_cons_of_ne_nil (String.utf8EncodeChar_ne_nil (c := c))
    rw [bytes_cons, hw, List.cons_append, List.head?_cons, Option.some_inj] at hhead
    have hb : (0x3A : UInt8) ∈ String.utf8EncodeChar c := hw ▸ hhead ▸ List.mem_cons_self
    exact h (congrArg some (Char.toNat_inj.mp (toNat_of_mem_encoding hb (by decide))))

/-- A character that does not begin a separator only counts as a bracket, however many bytes it
has. -/
theorem segmentStart_encoding (h : depth = 0 → c = ':' → cs.head? ≠ some ':') :
    segmentStart i depth (bytes (c :: cs)) =
      segmentStart (i + (String.utf8EncodeChar c).length) (bracketStep depth c) (bytes cs) := by
  rw [bytes_cons]
  by_cases hopen : c = '<'
  · subst hopen
    rfl
  by_cases hclose : c = '>'
  · subst hclose
    rfl
  rw [bracketStep, if_neg hopen, if_neg hclose]
  by_cases hcolon : c = ':'
  · subst hcolon
    have hhead : depth = 0 → (bytes cs).head? ≠ some 0x3A := fun hdepth ↦ head?_bytes (h hdepth rfl)
    show segmentStart i depth (0x3A :: bytes cs) = _
    rw [segmentStart]
    · rfl
    · decide
    · decide
    · intro rest hdepth _ hrest
      exact hhead hdepth (by rw [hrest]; rfl)
  · exact segmentStart_of_not_isMark fun b hb ↦ not_isMark_of_mem_encoding hcolon hopen hclose hb

/-- The scan of the bytes stops where the scan of the characters does. -/
def ScansAlike (depth : Nat) (cs : List Char) : Prop :=
  ∀ i, segmentStart i depth (bytes cs) =
    (afterSeparator depth cs).map fun rest ↦ i + (bytes cs).length - (bytes rest).length

theorem scansAlike_cons (depth : Nat) (c : Char)
    (hc : depth = 0 → c = ':' → cs.head? ≠ some ':') (h : ScansAlike (bracketStep depth c) cs) :
    ScansAlike depth (c :: cs) := by
  intro i
  rw [segmentStart_encoding hc, afterSeparator_cons hc, h, bytes_cons, List.length_append]
  simp only [Nat.add_assoc]

theorem scansAlike_separator (h : ScansAlike 0 cs) : ScansAlike 0 (':' :: ':' :: cs) := by
  intro i
  show (segmentStart (i + 2) 0 (bytes cs)).or (some (i + 2)) =
    some (i + ((bytes cs).length + 2) - (bytes ((afterSeparator 0 cs).getD cs)).length)
  rw [h]
  cases afterSeparator 0 cs with
  | none =>
    rw [Option.map_none, Option.none_or, Option.getD_none]
    congr 1
    omega
  | some rest =>
    rw [Option.map_some, Option.some_or, Option.getD_some]
    congr 1
    omega

theorem scansAlike (depth : Nat) (cs : List Char) : ScansAlike depth cs := by
  fun_induction afterSeparator depth cs with
  | case1 => exact fun _ ↦ rfl
  | case2 cs ih => exact scansAlike_separator ih
  | case3 depth cs ih => exact scansAlike_cons depth '<' (fun _ hc ↦ absurd hc (by decide)) ih
  | case4 depth cs ih => exact scansAlike_cons depth '>' (fun _ hc ↦ absurd hc (by decide)) ih
  | case5 depth c cs hplain hopen hclose ih =>
    refine scansAlike_cons depth c (fun hdepth hc hhead ↦ ?_) ?_
    · obtain ⟨rest, hrest⟩ := List.head?_eq_some_iff.mp hhead
      exact hplain rest hdepth hc hrest
    · rwa [bracketStep, if_neg hopen, if_neg hclose]

/-- The last segment begins as many bytes before the end as it has. -/
theorem lastSegmentStart?_eq (name : String) : lastSegmentStart? name =
    (lastSegment? name).map fun segment ↦ name.utf8ByteSize - segment.utf8ByteSize := by
  rw [lastSegmentStart?, ← bytes_toList, scansAlike 0 name.toList, lastSegment?, Option.map_map,
    length_bytes]
  congr 1
  funext rest
  rw [Function.comp_apply, ← length_bytes (String.ofList rest), String.toList_ofList, Nat.zero_add]

end Bytes

section Joined

variable {name : String}

def openBrackets (text : String) : Nat := text.toList.foldl bracketStep 0

def Unbroken (name : String) : Prop :=
  ∀ before behind : String, name = before ++ "::" ++ behind → openBrackets before ≠ 0

/-- A path of names that stay apart when they are joined. -/
structure Joinable (path : List String) : Prop where
  unbroken : ∀ name ∈ path, Unbroken name
  closed : ∀ name ∈ path.dropLast, openBrackets name = 0
  colon : ∀ name ∈ path.dropLast, name.toList.getLast? ≠ some ':'

theorem afterSeparator_eq_none_iff {depth : Nat} {cs : List Char} :
    afterSeparator depth cs = none ↔ ∀ before behind, cs = before ++ ':' :: ':' :: behind →
      before.foldl bracketStep depth ≠ 0 := by
  induction cs generalizing depth with
  | nil => simp [afterSeparator]
  | cons c cs ih =>
    by_cases hstart : depth = 0 ∧ c = ':' ∧ cs.head? = some ':'
    · obtain ⟨rfl, rfl, hhead⟩ := hstart
      obtain ⟨rest, rfl⟩ := List.head?_eq_some_iff.mp hhead
      refine iff_of_false nofun fun h ↦ h [] rest rfl rfl
    · have hplain : depth = 0 → c = ':' → cs.head? ≠ some ':' := fun h h' h'' ↦ hstart ⟨h, h', h''⟩
      rw [afterSeparator_cons hplain, ih]
      refine ⟨fun h before behind hcs ↦ ?_, fun h before behind hcs ↦ ?_⟩
      · cases before with
        | nil =>
          cases hcs
          exact fun hdepth ↦ hplain hdepth rfl rfl
        | cons e before =>
          obtain ⟨rfl, hrest⟩ := List.cons.inj hcs
          exact h before behind hrest
      · exact h (c :: before) behind (congrArg (c :: ·) hcs)

theorem unbroken_iff : Unbroken name ↔ lastSegment? name = none := by
  rw [lastSegment?, Option.map_eq_none_iff, afterSeparator_eq_none_iff]
  refine ⟨fun h before behind hname ↦ ?_, fun h before behind hname ↦ ?_⟩
  · have hjoined : name = String.ofList before ++ "::" ++ String.ofList behind :=
      String.toList_inj.mp (by simp [hname])
    have hopen := h _ _ hjoined
    rwa [openBrackets, String.toList_ofList] at hopen
  · exact h before.toList behind.toList (by simp [hname])

theorem Joinable.separable {path : List String} (h : Joinable path) : Separable path where
  front name hname :=
    ⟨unbroken_iff.mp (h.unbroken name (List.mem_of_mem_dropLast hname)), h.closed name hname,
      h.colon name hname⟩
  last name hname := unbroken_iff.mp (h.unbroken name (List.mem_of_getLast? hname))

theorem intercalate_concat {front : List String} (h : front ≠ []) (name : String) :
    "::".intercalate (front ++ [name]) = "::".intercalate front ++ "::" ++ name := by
  rw [String.intercalate_append_of_ne_nil h (List.cons_ne_nil name []),
    String.intercalate_singleton]

theorem lastSegment?_intercalate {front : List String} (hne : front ≠ [])
    (h : Separable (front ++ [name])) :
    lastSegment? ("::".intercalate (front ++ [name])) = some name := by
  have hlast := lastSegment_intercalate h
  obtain ⟨first, rest, rfl⟩ := List.exists_cons_of_ne_nil hne
  have hfirst : IsSegment first := by
    refine h.front first ?_
    rw [List.dropLast_concat]
    exact List.mem_cons_self
  have hsome : lastSegment? ("::".intercalate (first :: rest ++ [name])) =
      some (lastSegment ("::".intercalate (rest ++ [name]))) := by
    rw [List.cons_append, String.intercalate_cons_of_ne_nil (List.concat_ne_nil name rest)]
    exact lastSegment?_append hfirst
  rw [lastSegment, hsome, Option.getD_some] at hlast
  rw [hsome, hlast]

/-- What the scan of the bytes says about the names of a path that are joined. -/
structure FindsLastName (path : List String) : Prop where
  single : ∀ name, path = [name] → lastSegmentStart? ("::".intercalate path) = none
  several : ∀ front name, front ≠ [] → path = front ++ [name] →
    "::".intercalate path = "::".intercalate front ++ "::" ++ name ∧
    lastSegmentStart? ("::".intercalate path) = some ("::".intercalate front ++ "::").utf8ByteSize
  boundary : ∀ start, lastSegmentStart? ("::".intercalate path) = some start →
    String.Pos.Raw.IsValid ("::".intercalate path) ⟨start⟩

/-- A scan of the bytes finds no separator in a single name, and the byte where the last name begins
if there are more, whatever stands inside brackets. -/
theorem findsLastName (path : List String) (h : Joinable path) : FindsLastName path := by
  have hsingle (name : String) (hpath : path = [name]) :
      lastSegmentStart? ("::".intercalate path) = none := by
    subst hpath
    have hname := unbroken_iff.mp (h.unbroken name List.mem_cons_self)
    rw [String.intercalate_singleton, lastSegmentStart?_eq, hname, Option.map_none]
  have hseveral (front : List String) (name : String) (hne : front ≠ [])
      (hpath : path = front ++ [name]) : lastSegmentStart? ("::".intercalate path) =
        some ("::".intercalate front ++ "::").utf8ByteSize := by
    subst hpath
    rw [lastSegmentStart?_eq, lastSegment?_intercalate hne h.separable, Option.map_some,
      intercalate_concat hne, String.utf8ByteSize_append, Nat.add_sub_cancel]
  refine ⟨hsingle, fun front name hne hpath ↦ ?_, fun start hstart ↦ ?_⟩
  · exact ⟨hpath ▸ intercalate_concat hne name, hseveral front name hne hpath⟩
  · rcases List.eq_nil_or_concat path with rfl | ⟨front, name, rfl⟩
    · cases hstart
    · by_cases hne : front = []
      · rw [hsingle name (by rw [hne]; rfl)] at hstart
        cases hstart
      · rw [hseveral front name hne (List.concat_eq_append ..)] at hstart
        cases hstart
        exact String.Pos.Raw.isValid_iff_exists_append.mpr
          ⟨_, name, by rw [List.concat_eq_append, intercalate_concat hne], rfl⟩

/-- An arrow that closes a bracket which was never opened, and a separator between brackets, behind
a name of more bytes than characters. -/
theorem findsLastName_sample : Joinable ["é", "operator->", "v<a::b>"] ∧
    FindsLastName ["é", "operator->", "v<a::b>"] ∧
      lastSegmentStart? "é::operator->::v<a::b>" = some 16 := by
  have hjoinable : Joinable ["é", "operator->", "v<a::b>"] := by
    refine ⟨fun name hname ↦ unbroken_iff.mpr ?_, by decide, by decide⟩
    revert name
    decide
  have hfinds := findsLastName _ hjoinable
  exact ⟨hjoinable, hfinds, (hfinds.several ["é", "operator->"] "v<a::b>" nofun rfl).2⟩

end Joined

end ScopeForest.Text
