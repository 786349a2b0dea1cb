import Mathlib

namespace ScopeForest.Text

variable {c d : Char} {b : UInt8} {cs ds : List Char}

def bytes (cs : List Char) : List UInt8 := cs.flatMap String.utf8EncodeChar

@[simp] theorem bytes_nil : bytes [] = [] := rfl

@[simp] theorem bytes_cons (c : Char) (cs : List Char) :
    bytes (c :: cs) = String.utf8EncodeChar c ++ bytes cs :=
  List.flatMap_cons

theorem bytes_toList (s : String) : bytes s.toList = s.toByteArray.data.toList := by
  conv => rhs; rw [← String.ofList_toList (s := s), String.toByteArray_ofList]
  exact List.toList_data_toByteArray.symm

theorem length_bytes (s : String) : (bytes s.toList).length = s.utf8ByteSize := by
  rw [bytes_toList, Array.length_toList]
  rfl

/-- The last `k` digits of 6 bits of a number, as the bytes of a character behind its first. -/
def continuation : Nat → Nat → List UInt8
  | 0, _ => []
  | k + 1, n => UInt8.ofNat (n / 64 ^ k % 64 + 128) :: continuation k n

def lead : Nat → Nat
  | 0 => 0
  | 1 => 192
  | 2 => 224
  | _ => 240

def firstOf : Nat → Nat
  | 0 => 0
  | 1 => 0x80
  | 2 => 0x800
  | 3 => 0x10000
  | _ => 0x110000

theorem firstByte_lt {k n : Nat} (hk : k < 4) (h : n < firstOf (k + 1)) :
    n / 64 ^ k + lead k < 256 := by
  interval_cases k <;> simp only [firstOf, lead] at * <;> omega

/-- The first byte tells how many there are, and grows with their number. -/
theorem firstByte_lt_firstByte {k l m n : Nat} (hl : l < 4) (hkl : k < l) (hm : m < firstOf (k + 1))
    (hn : firstOf l ≤ n) : m / 64 ^ k + lead k < n / 64 ^ l + lead l := by
  interval_cases l <;> interval_cases k <;> simp only [firstOf, lead] at * <;> omega

theorem firstOf_succ_le {k l : Nat} (hl : l < 4) (hkl : k < l) : firstOf (k + 1) ≤ firstOf l := by
  interval_cases l <;> interval_cases k <;> decide

/-- A character has up to four bytes: the first digits of its number with a mark, and then the
others. -/
theorem exists_encoding (c : Char) :
    ∃ k < 4, firstOf k ≤ c.toNat ∧ c.toNat < firstOf (k + 1) ∧ String.utf8EncodeChar c =
      UInt8.ofNat (c.toNat / 64 ^ k + lead k) :: continuation k c.toNat := by
  have hmax : c.toNat < 0x110000 := by
    rcases c.valid with hc | hc
    · exact Nat.lt_trans hc (by decide)
    · exact hc.2
  have hval : c.val.toNat = c.toNat := rfl
  simp only [String.utf8EncodeChar, hval]
  generalize c.toNat = n at hmax
  -- in each case the digits in front of the first one are zero
  split
  next h => exact ⟨0, by decide, Nat.zero_le n, Nat.lt_succ_of_le h, by simp [continuation, lead]⟩
  next h =>
    split
    next h' =>
      refine ⟨1, by decide, Nat.lt_of_not_le h, Nat.lt_succ_of_le h', ?_⟩
      rw [Nat.mod_eq_of_lt (by omega : n / 64 < 32)]
      simp [continuation, lead]
    next h' =>
      split
      next h'' =>
        refine ⟨2, by decide, Nat.lt_of_not_le h', Nat.lt_succ_of_le h'', ?_⟩
        rw [Nat.mod_eq_of_lt (by omega : n / 4096 < 16)]
        simp [continuation, lead]
      next h'' =>
        refine ⟨3, by decide, Nat.lt_of_not_le h'', hmax, ?_⟩
        rw [Nat.mod_eq_of_lt (by omega : n / 262144 < 8)]
        simp [continuation, lead]

theorem le_of_mem_continuation {k n : Nat} (h : b ∈ continuation k n) : 128 ≤ b.toNat := by
  induction k with
  | zero => cases h
  | succ k ih =>
    rcases List.mem_cons.mp h with rfl | h
    · rw [UInt8.toNat_ofNat']
      omega
    · exact ih h

theorem toNat_of_mem_encoding (hb : b ∈ String.utf8EncodeChar c) (hlt : b.toNat < 128) :
    c.toNat = b.toNat := by
  obtain ⟨k, hk, hfirst, hnext, he⟩ := exists_encoding c
  rw [he] at hb
  rcases List.mem_cons.mp hb with rfl | hb
  · rw [UInt8.toNat_ofNat_of_lt' (firstByte_lt hk hnext)] at hlt ⊢
    interval_cases k <;> simp only [firstOf, lead] at * <;> omega
  · have hle := le_of_mem_continuation hb
    omega

theorem continuation_lt {k m n : Nat} (h : m % 64 ^ k < n % 64 ^ k) (x y : List UInt8) :
    continuation k m ++ x < continuation k n ++ y := by
  induction k with
  | zero => simp [Nat.mod_one] at h
  | succ k ih =>
    rw [Nat.mod_pow_succ, Nat.mod_pow_succ] at h
    rw [continuation, continuation, List.cons_append, List.cons_append, List.cons_lt_cons_iff,
      UInt8.lt_iff_toNat_lt, UInt8.toNat_ofNat', UInt8.toNat_ofNat']
    rcases Nat.lt_trichotomy (m / 64 ^ k % 64) (n / 64 ^ k % 64) with hlt | heq | hgt
    · left
      omega
    · rw [heq] at h ⊢
      exact .inr ⟨rfl, ih (by omega)⟩
    · have hdigits := Nat.mul_le_mul_left (64 ^ k) (Nat.succ_le_of_lt hgt)
      have hrest : n % 64 ^ k < 64 ^ k := Nat.mod_lt _ (by positivity)
      rw [Nat.mul_succ] at hdigits
      omega

/-- Of two characters, the smaller one has the smaller bytes, whatever stands behind. -/
theorem encoding_lt (h : c < d) (x y : List UInt8) :
    String.utf8EncodeChar c ++ x < String.utf8EncodeChar d ++ y := by
  have hlt : c.toNat < d.toNat := h
  obtain ⟨k, hk, hfirst, hnext, he⟩ := exists_encoding c
  obtain ⟨l, hl, hfirst', hnext', he'⟩ := exists_encoding d
  rw [he, he', List.cons_append, List.cons_append, List.cons_lt_cons_iff, UInt8.lt_iff_toNat_lt,
    UInt8.toNat_ofNat_of_lt' (firstByte_lt hk hnext),
    UInt8.toNat_ofNat_of_lt' (firstByte_lt hl hnext')]
  rcases Nat.lt_trichotomy k l with hkl | rfl | hkl
  · exact .inl (firstByte_lt_firstByte hl hkl hnext hfirst')
  · rcases Nat.lt_or_ge (c.toNat / 64 ^ k) (d.toNat / 64 ^ k) with hdiv | hdiv
    · exact .inl (Nat.add_lt_add_right hdiv _)
    · have heq : c.toNat / 64 ^ k = d.toNat / 64 ^ k :=
        Nat.le_antisymm (Nat.div_le_div_right hlt.le) hdiv
      have hc := Nat.div_add_mod c.toNat (64 ^ k)
      have hd := Nat.div_add_mod d.toNat (64 ^ k)
      rw [heq] at hc ⊢
      exact .inr ⟨rfl, continuation_lt (by omega) x y⟩
  · have hle := firstOf_succ_le hk hkl
    omega

theorem bytes_lt (h : cs < ds) : bytes cs < bytes ds := by
  induction cs generalizing ds with
  | nil =>
    cases ds with
    | nil => exact absurd h (List.lt_irrefl [])
    | cons d ds =>
      rw [bytes_cons]
      obtain ⟨b, bs, hd⟩ := List.exists_cons_of_ne_nil (String.utf8EncodeChar_ne_nil (c := d))
      rw [hd]
      exact List.nil_lt_cons _ _
  | cons c cs ih =>
    cases ds with
    | nil => exact absurd h (List.not_lt_nil _)
    | cons d ds =>
      rw [bytes_cons, bytes_cons]
      rcases List.cons_lt_cons_iff.mp h with hlt | ⟨rfl, hrest⟩
      · exact encoding_lt hlt _ _
      · exact List.append_left_lt (ih hrest)

theorem bytes_lt_iff (s t : String) : bytes s.toList < bytes t.toList ↔ s < t := by
  rw [String.lt_iff]
  refine ⟨fun h ↦ ?_, bytes_lt⟩
  rcases lt_trichotomy s.toList t.toList with hlt | heq | hgt
  · exact hlt
  · rw [heq] at h
    exact absurd h (List.lt_irrefl _)
  · exact absurd (List.lt_trans h (bytes_lt hgt)) (List.lt_irrefl _)

end ScopeForest.Text
