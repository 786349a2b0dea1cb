import Mathlib
import ScopeForest.Json.Printer
import ScopeForest.Json.Reader

namespace ScopeForest.Json

variable {c : Char} {cs rest : List Char} {v : Json}

section Strings

inductive Piece.Means : Piece → Char → Prop
  | char (c : Char) : Means (.char c) c
  | unit (c : Char) (h : c.toNat < 0xD800) : Means (.unit c.toNat) c

theorem joinPieces_unit {n : Nat} (hn : n < 0xD800) (ps : List Piece) :
    joinPieces (.unit n :: ps) = (joinPieces ps).map (Char.ofNat n :: ·) := by
  have hhigh : isHighUnit n = false := by simp [isHighUnit]; omega
  have hlow : isLowUnit n = false := by simp [isLowUnit]; omega
  rcases ps with - | ⟨p, ps⟩
  · simp [joinPieces, hhigh, hlow]
  · cases p <;> simp [joinPieces, hhigh, hlow]

theorem Piece.Means.joinPieces_cons {p : Piece} (h : p.Means c) (ps : List Piece) :
    joinPieces (p :: ps) = (joinPieces ps).map (c :: ·) := by
  cases h with
  | char c => rfl
  | unit c h => rw [joinPieces_unit h, Char.ofNat_toNat]

theorem hexDigits?_hexPair {n : Nat} (hn : n < 32) :
    Text.hexDigits? ('0' :: '0' :: hexPair n) = some n := by
  revert hn
  revert n
  decide

theorem pieces_escape {e : Char} (he : escaped? e = some c) (cs : List Char) :
    pieces ('\\' :: e :: cs) = (pieces cs).map fun found ↦ (.char c :: found.1, found.2) := by
  have hu : e ≠ 'u' := by
    rintro rfl
    cases he
  rw [pieces, he]
  · cases pieces cs <;> rfl
  · intro _ _ _ _ _ h
    exact absurd h hu

theorem pieces_unit (hc : c.toNat < 32) (cs : List Char) :
    pieces ('\\' :: 'u' :: '0' :: '0' :: (hexPair c.toNat ++ cs)) =
      (pieces cs).map fun found ↦ (.unit c.toNat :: found.1, found.2) := by
  have hhex := hexDigits?_hexPair hc
  rw [hexPair] at hhex
  rw [hexPair, List.cons_append, List.cons_append, List.nil_append, pieces, hhex]
  cases pieces cs <;> rfl

theorem pieces_char (hquote : c ≠ '"') (hslash : c ≠ '\\') (hc : ¬c.toNat < 32) (cs : List Char) :
    pieces (c :: cs) = (pieces cs).map fun found ↦ (.char c :: found.1, found.2) := by
  rw [pieces, if_neg hc]
  · cases pieces cs <;> rfl
  · exact hquote
  · intro _ _ _ _ _ h
    exact absurd h hslash
  · intro _ _ h
    exact absurd h hslash

theorem exists_pieces_escapeChar (c : Char) : ∃ p : Piece, p.Means c ∧ ∀ cs,
    pieces (escapeChar c ++ cs) = (pieces cs).map fun found ↦ (p :: found.1, found.2) := by
  have hescape {e : Char} (he : escaped? e = some c) : ∃ p : Piece, p.Means c ∧ ∀ cs,
      pieces (['\\', e] ++ cs) = (pieces cs).map fun found ↦ (p :: found.1, found.2) :=
    ⟨.char c, .char c, pieces_escape he⟩
  unfold escapeChar
  split
  next h => exact hescape (by rw [h]; rfl)
  split
  next h => exact hescape (by rw [h]; rfl)
  split
  next h => exact hescape (by rw [h]; rfl)
  split
  next h => exact hescape (by rw [h]; rfl)
  split
  next h => exact hescape (by rw [h]; rfl)
  split
  next h => exact hescape (by rw [← c.ofNat_toNat, h]; rfl)
  split
  next h => exact hescape (by rw [← c.ofNat_toNat, h]; rfl)
  split
  next h => exact ⟨.unit c.toNat, .unit c (by omega), pieces_unit h⟩
  next hquote hslash _ _ _ _ _ h => exact ⟨.char c, .char c, pieces_char hquote hslash h⟩

theorem exists_pieces (cs rest : List Char) : ∃ ps,
    pieces (cs.flatMap escapeChar ++ '"' :: rest) = some (ps, rest) ∧ joinPieces ps = some cs := by
  induction cs with
  | nil => exact ⟨[], rfl, rfl⟩
  | cons c cs ih =>
    obtain ⟨ps, hps, hjoin⟩ := ih
    obtain ⟨p, hmeans, hp⟩ := exists_pieces_escapeChar c
    refine ⟨p :: ps, ?_, ?_⟩
    · rw [List.flatMap_cons, List.append_assoc, hp, hps]
      rfl
    · rw [hmeans.joinPieces_cons, hjoin]
      rfl

theorem stringBody_stringChars (s : String) (rest : List Char) :
    stringBody (s.toList.flatMap escapeChar ++ '"' :: rest) = some (some s, rest) := by
  obtain ⟨ps, hps, hjoin⟩ := exists_pieces s.toList rest
  simp [stringBody, hps, hjoin]

end Strings

section Numbers

def Behind (rest : List Char) : Prop := ∀ c ∈ rest.head?, c = ',' ∨ c = ']' ∨ c = '\x7d'

theorem behind_nil : Behind [] := nofun

theorem behind_itemsChars (vs : List Json) (rest : List Char) : Behind (itemsChars vs ++ rest) := by
  intro c hc
  cases vs with
  | nil => exact .inr (.inl (Option.some_inj.mp hc).symm)
  | cons v vs => exact .inl (Option.some_inj.mp hc).symm

theorem behind_fieldsChars (fs : List (String × Json)) (rest : List Char) :
    Behind (fieldsChars fs ++ rest) := by
  intro c hc
  cases fs with
  | nil => exact .inr (.inr (Option.some_inj.mp hc).symm)
  | cons f fs => exact .inl (Option.some_inj.mp hc).symm

theorem head?_toDigits_ne_zero {n : Nat} (hn : n ≠ 0) : (Nat.toDigits 10 n).head? ≠ some '0' := by
  induction n using Nat.strong_induction_on with
  | _ n ih =>
    rw [Nat.toDigits_eq_if (by decide)]
    split
    next => simpa using hn
    next h =>
      rw [List.head?_append_of_ne_nil _ Nat.toDigits_ne_nil]
      exact ih (n / 10) (by omega) (by omega)

theorem spanDigits_toDigits (n : Nat) (hrest : Behind rest) :
    spanDigits (Nat.toDigits 10 n ++ rest) = (Nat.toDigits 10 n, rest) := by
  have hdigits : ∀ c ∈ Nat.toDigits 10 n, c.isDigit := fun c hc ↦
    Nat.isDigit_of_mem_toDigits (by decide) (by decide) hc
  have hstop : rest.takeWhile Char.isDigit = [] ∧ rest.dropWhile Char.isDigit = rest := by
    cases rest with
    | nil => exact ⟨rfl, rfl⟩
    | cons c rest =>
      have hc : c.isDigit = false := by rcases hrest c rfl with rfl | rfl | rfl <;> rfl
      simp [hc]
  rw [spanDigits, List.span_eq_takeWhile_dropWhile, List.takeWhile_append_of_pos hdigits,
    List.dropWhile_append_of_pos hdigits, hstop.1, hstop.2, List.append_nil]

theorem whole_toDigits (n : Nat) (hrest : Behind rest) :
    whole (Nat.toDigits 10 n ++ rest) = some (Nat.toDigits 10 n, rest) := by
  by_cases hn : n = 0
  · rw [hn]
    rfl
  · unfold whole
    split
    next cs hcs =>
      have hhead := congrArg List.head? hcs
      rw [List.head?_append_of_ne_nil _ Nat.toDigits_ne_nil] at hhead
      exact absurd hhead (head?_toDigits_ne_zero hn)
    next =>
      rw [spanDigits_toDigits n hrest]
      exact if_neg Nat.toDigits_ne_nil

theorem fraction_behind (hrest : Behind rest) : fraction rest = some ([], rest) := by
  unfold fraction
  split
  next cs => rcases hrest '.' rfl with h | h | h <;> cases h
  next => rfl

theorem exponent_behind (hrest : Behind rest) : exponent rest = some ([], rest) := by
  cases rest with
  | nil => rfl
  | cons c rest =>
    have hc : ¬(c = 'e' ∨ c = 'E') := by rcases hrest c rfl with rfl | rfl | rfl <;> decide
    exact if_neg hc

theorem exists_toDigits (n : Nat) : ∃ d ds, Nat.toDigits 10 n = d :: ds ∧ d.isDigit := by
  obtain ⟨d, ds, h⟩ := List.exists_cons_of_ne_nil (Nat.toDigits_ne_nil (n := n) (b := 10))
  exact ⟨d, ds, h, Nat.isDigit_of_mem_toDigits (by decide) (by decide) (h ▸ List.mem_cons_self)⟩

theorem isSpace_of_isDigit (h : c.isDigit) : isSpace c = false := by
  by_contra hspace
  simp only [isSpace, Bool.not_eq_false, Bool.or_eq_true, beq_iff_eq] at hspace
  rcases hspace with ((rfl | rfl) | rfl) | rfl <;> cases h

theorem numeral_toDigits (n : Nat) (hrest : Behind rest) :
    numeral (Nat.toDigits 10 n ++ rest) = some (nat n, rest) := by
  have hsign : ∀ cs, Nat.toDigits 10 n ++ rest ≠ '-' :: cs := by
    intro cs h
    obtain ⟨d, ds, hd, hdigit⟩ := exists_toDigits n
    rw [hd] at h
    cases h
    cases hdigit
  unfold numeral
  split
  next sign cs hcs =>
    split at hcs
    next cs' h => exact absurd h (hsign cs')
    next =>
      cases hcs
      simp [whole_toDigits n hrest, fraction_behind hrest, exponent_behind hrest]

end Numbers

/-- Values that every text writes in one way: all numbers are whole, and all can be read. -/
inductive Plain : Json → Prop
  | null : Plain null
  | bool (b : Bool) : Plain (bool b)
  | nat (n : Nat) : Plain (nat n)
  | str (s : String) : Plain (str s)
  | arr {items : List Json} (h : ∀ v ∈ items, Plain v) : Plain (arr items)
  | obj {fields : List (String × Json)} (h : ∀ f ∈ fields, Plain f.2) : Plain (obj fields)

theorem Plain.tagged {tag : String} (h : v.Plain) : (Json.tagged tag v).Plain := by
  refine .obj fun f hf ↦ ?_
  rw [List.mem_singleton.mp hf]
  exact h

section Values

variable {fuel : Nat}

/-- The value is read wherever its text stands, with fuel for each character. -/
def ReadBack (v : Json) : Prop := ∀ {fuel : Nat} {rest : List Char}, v.chars.length ≤ fuel →
  Behind rest → value fuel (v.chars ++ rest) = some (v, rest)

theorem skipSpace_cons (h : isSpace c = false) : skipSpace (c :: cs) = c :: cs := by
  rw [skipSpace, List.dropWhile_cons_of_neg (by simp [h])]

/-- No text begins with a blank or a closing bracket. -/
theorem Plain.exists_chars (h : v.Plain) :
    ∃ c cs, v.chars = c :: cs ∧ isSpace c = false ∧ c ≠ ']' := by
  cases h with
  | null => exact ⟨'n', _, rfl, rfl, by decide⟩
  | bool b => cases b with
    | true => exact ⟨'t', _, rfl, rfl, by decide⟩
    | false => exact ⟨'f', _, rfl, rfl, by decide⟩
  | nat n =>
    obtain ⟨d, ds, hd, hdigit⟩ := exists_toDigits n
    refine ⟨d, ds, hd, isSpace_of_isDigit hdigit, ?_⟩
    rintro rfl
    cases hdigit
  | str s => exact ⟨'"', _, rfl, rfl, by decide⟩
  | @arr items h => cases items with
    | nil => exact ⟨'[', _, rfl, rfl, by decide⟩
    | cons v vs => exact ⟨'[', _, rfl, rfl, by decide⟩
  | @obj fields h => cases fields with
    | nil => exact ⟨'\x7b', _, rfl, rfl, by decide⟩
    | cons f fs => exact ⟨'\x7b', _, rfl, rfl, by decide⟩

theorem readBack_nat (n : Nat) : ReadBack (nat n) := by
  intro fuel rest hfuel hrest
  have hnumeral := numeral_toDigits n hrest
  obtain ⟨d, ds, hd, hdigit⟩ := exists_toDigits n
  have hne {e : Char} {cs : List Char} (he : e.isDigit = false) : d :: (ds ++ rest) ≠ e :: cs := by
    rintro ⟨⟩
    rw [hdigit] at he
    cases he
  have hkeyword : keyword? (d :: (ds ++ rest)) = none := by
    unfold keyword?
    split
    next h => exact absurd h (hne rfl)
    next h => exact absurd h (hne rfl)
    next h => exact absurd h (hne rfl)
    next => rfl
  rw [chars, hd, List.cons_append]
  rw [hd, List.cons_append] at hnumeral
  rw [chars, hd] at hfuel
  cases fuel with
  | zero => cases hfuel
  | succ fuel =>
    rw [value, skipSpace_cons (isSpace_of_isDigit hdigit)]
    split
    next h => exact absurd h (hne rfl)
    next h => exact absurd h (hne rfl)
    next h => exact absurd h (hne rfl)
    next =>
      rw [hkeyword, hnumeral]
      rfl

theorem stringChars_append (s : String) (rest : List Char) :
    stringChars s ++ rest = '"' :: (s.toList.flatMap escapeChar ++ '"' :: rest) := by
  simp [stringChars]

theorem readBack_str (s : String) : ReadBack (str s) := by
  intro fuel rest hfuel hrest
  cases fuel with
  | zero => cases hfuel
  | succ fuel =>
    rw [chars, stringChars_append, value, skipSpace_cons rfl]
    simp [stringBody_stringChars]

theorem items_last (h : value fuel cs = some (v, ']' :: rest)) :
    items (fuel + 1) cs = some ([v], rest) := by
  rw [items, h]
  rfl

theorem items_next {vs : List Json} {cs' : List Char} (h : value fuel cs = some (v, ',' :: cs'))
    (hvs : items fuel cs' = some (vs, rest)) : items (fuel + 1) cs = some (v :: vs, rest) := by
  rw [items, h]
  show (items fuel cs').bind _ = _
  rw [hvs]
  rfl

theorem items_itemsChars {vs : List Json} (hv : v.ReadBack) (hvs : ∀ w ∈ vs, w.ReadBack)
    (hfuel : (v.chars ++ itemsChars vs).length ≤ fuel) :
    items fuel (v.chars ++ (itemsChars vs ++ rest)) = some (v :: vs, rest) := by
  have hbehind := behind_itemsChars vs rest
  induction vs generalizing v fuel with
  | nil =>
    rw [itemsChars, List.length_append, List.length_singleton] at hfuel
    cases fuel with
    | zero => omega
    | succ fuel => exact items_last (hv (by omega) hbehind)
  | cons w ws ih =>
    rw [itemsChars, List.length_append, List.length_cons] at hfuel
    rw [itemsChars, List.cons_append, List.append_assoc] at hbehind ⊢
    cases fuel with
    | zero => omega
    | succ fuel =>
      refine items_next (hv (by omega) hbehind) (ih ?_ ?_ (by omega) (behind_itemsChars ws rest))
      · exact hvs w List.mem_cons_self
      · exact fun u hu ↦ hvs u (List.mem_cons_of_mem w hu)

theorem members_last {k : String} (h : value fuel cs = some (v, '\x7d' :: rest)) :
    members (fuel + 1) (stringChars k ++ ':' :: cs) = some (some [(k, v)], rest) := by
  rw [stringChars_append, members]
  show (stringBody _).bind _ = _
  rw [stringBody_stringChars]
  show (value fuel cs).bind _ = _
  rw [h]
  rfl

theorem members_next {k : String} {fs : List (String × Json)} {cs' : List Char}
    (h : value fuel cs = some (v, ',' :: cs')) (hfs : members fuel cs' = some (some fs, rest)) :
    members (fuel + 1) (stringChars k ++ ':' :: cs) = some (some ((k, v) :: fs), rest) := by
  rw [stringChars_append, members]
  show (stringBody _).bind _ = _
  rw [stringBody_stringChars]
  show (value fuel cs).bind _ = _
  rw [h]
  show (members fuel cs').bind _ = _
  rw [hfs]
  rfl

theorem members_fieldsChars {k : String} {fs : List (String × Json)} (hv : v.ReadBack)
    (hfs : ∀ f ∈ fs, f.2.ReadBack)
    (hfuel : (stringChars k ++ ':' :: (v.chars ++ fieldsChars fs)).length ≤ fuel) :
    members fuel (stringChars k ++ ':' :: (v.chars ++ (fieldsChars fs ++ rest))) =
      some (some ((k, v) :: fs), rest) := by
  have hbehind := behind_fieldsChars fs rest
  induction fs generalizing k v fuel with
  | nil =>
    rw [fieldsChars, List.length_append, List.length_cons, List.length_append] at hfuel
    cases fuel with
    | zero => omega
    | succ fuel => exact members_last (hv (by omega) hbehind)
  | cons f fs ih =>
    rw [fieldsChars, List.length_append, List.length_cons, List.length_append,
      List.length_cons] at hfuel
    rw [fieldsChars, List.cons_append, List.append_assoc, List.cons_append,
      List.append_assoc] at hbehind ⊢
    cases fuel with
    | zero => omega
    | succ fuel =>
      refine members_next (hv (by omega) hbehind)
        (ih ?_ ?_ (by omega) (behind_fieldsChars fs rest))
      · exact hfs f List.mem_cons_self
      · exact fun g hg ↦ hfs g (List.mem_cons_of_mem f hg)

theorem value_arr {vs : List Json} (hspace : isSpace c = false) (hc : c ≠ ']')
    (h : items fuel (c :: cs) = some (vs, rest)) :
    value (fuel + 1) ('[' :: c :: cs) = some (arr vs, rest) := by
  rw [value, skipSpace_cons rfl]
  simp only [skipSpace_cons hspace]
  split
  next he =>
    cases he
    exact absurd rfl hc
  next =>
    rw [h]
    rfl

theorem value_obj {fs : List (String × Json)}
    (h : members fuel ('"' :: cs) = some (some fs, rest)) :
    value (fuel + 1) ('\x7b' :: '"' :: cs) = some (obj fs, rest) := by
  rw [value, skipSpace_cons rfl]
  show (members fuel ('"' :: cs)).bind _ = _
  rw [h]
  rfl

theorem readBack_arr {vs : List Json} (hplain : ∀ v ∈ vs, v.Plain) (hvs : ∀ v ∈ vs, v.ReadBack) :
    ReadBack (arr vs) := by
  intro fuel rest hfuel hrest
  cases fuel with
  | zero => cases vs <;> cases hfuel
  | succ fuel =>
    cases vs with
    | nil => rfl
    | cons v vs =>
      have hitems : items fuel (v.chars ++ (itemsChars vs ++ rest)) = some (v :: vs, rest) := by
        refine items_itemsChars (hvs v List.mem_cons_self) ?_ ?_
        · exact fun w hw ↦ hvs w (List.mem_cons_of_mem v hw)
        · exact Nat.le_of_succ_le_succ hfuel
      obtain ⟨c, cs, hc, hspace, hbracket⟩ := (hplain v List.mem_cons_self).exists_chars
      rw [chars, List.cons_append, List.append_assoc]
      rw [hc, List.cons_append] at hitems ⊢
      exact value_arr hspace hbracket hitems

theorem readBack_obj {fs : List (String × Json)} (hfs : ∀ f ∈ fs, f.2.ReadBack) :
    ReadBack (obj fs) := by
  intro fuel rest hfuel hrest
  cases fuel with
  | zero => cases fs <;> cases hfuel
  | succ fuel =>
    cases fs with
    | nil => rfl
    | cons f fs =>
      have hmembers : members fuel (stringChars f.1 ++ ':' ::
          (f.2.chars ++ (fieldsChars fs ++ rest))) = some (some (f :: fs), rest) := by
        refine members_fieldsChars (hfs f List.mem_cons_self) ?_ ?_
        · exact fun g hg ↦ hfs g (List.mem_cons_of_mem f hg)
        · exact Nat.le_of_succ_le_succ hfuel
      rw [chars, List.cons_append, List.append_assoc, List.cons_append, List.append_assoc]
      rw [stringChars_append] at hmembers ⊢
      exact value_obj hmembers

theorem Plain.readBack (h : v.Plain) : v.ReadBack := by
  induction h with
  | null =>
    intro fuel rest hfuel hrest
    cases fuel with
    | zero => cases hfuel
    | succ fuel => rfl
  | bool b =>
    intro fuel rest hfuel hrest
    cases fuel with
    | zero => cases b <;> cases hfuel
    | succ fuel => cases b <;> rfl
  | nat n => exact readBack_nat n
  | str s => exact readBack_str s
  | arr h ih => exact readBack_arr h ih
  | obj h ih => exact readBack_obj ih

/-- A value is read back from its text. -/
theorem Plain.read?_text (h : v.Plain) : read? v.text = some v := by
  have hread : value (2 * v.chars.length + 2) (v.chars ++ []) = some (v, []) :=
    h.readBack (by omega) behind_nil
  rw [List.append_nil] at hread
  rw [read?, text, String.toList_ofList]
  show (value _ _).bind _ = _
  rw [hread]
  rfl

end Values

end ScopeForest.Json
