import Mathlib.Data.List.Induction
import Mathlib.Tactic.Ring
import SwitchLdnZt.Library.CText

namespace SwitchLdnZt.Library

/-- `isspace` in the C locale -/
def isBlankByte (b : UInt8) : Bool := b == 32 || (9 ≤ b && b ≤ 13)

/-- `isxdigit` -/
def isHex (b : UInt8) : Bool := (48 ≤ b && b ≤ 57) || (65 ≤ b && b ≤ 70) || (97 ≤ b && b ≤ 102)

/-- What a hexadecimal digit stands for; any other byte counts nothing. -/
def hexValue (b : UInt8) : Nat :=
  if 48 ≤ b ∧ b ≤ 57 then b.toNat - 48
  else if 65 ≤ b ∧ b ≤ 70 then b.toNat - 55
  else if 97 ≤ b ∧ b ≤ 102 then b.toNat - 87
  else 0

def hexOf (ds : Bytes) : Nat := ds.foldl (fun n d => 16 * n + hexValue d) 0

/-- The optional sign of a number, and the text behind it. -/
def sign : Bytes → Bool × Bytes
  | [] => (false, [])
  | b :: t => if b = 45 then (true, t) else if b = 43 then (false, t) else (false, b :: t)

/-- The optional `0x`, which is one only with a digit behind it. -/
def dropHexMark : Bytes → Bytes
  | z :: x :: d :: t =>
    if z = 48 ∧ (x = 120 ∨ x = 88) ∧ isHex d = true then d :: t else z :: x :: d :: t
  | t => t

/-- Where the digits of the number at a text's front begin. -/
def numeral (s : Bytes) : Bytes := dropHexMark (sign (s.dropWhile isBlankByte)).2

def digits (s : Bytes) : Bytes := (numeral s).takeWhile isHex

def negative (s : Bytes) : Bool := (sign (s.dropWhile isBlankByte)).1

/-- `strtoull(s, &end, 16)`: the value, and the text from `end` on. -/
def strtoull16 (s : Bytes) : UInt64 × Bytes :=
  if digits s = [] then (0, s)
  else
    let n := hexOf (digits s)
    let value := if n < 2 ^ 64 then
        if negative s then -UInt64.ofNat n else UInt64.ofNat n
      else UInt64.ofNat (2 ^ 64 - 1)
    (value, (numeral s).dropWhile isHex)

theorem space_not_hex {b : UInt8} (h : isBlankByte b = true) : isHex b = false := by
  simp only [isBlankByte, isHex, Bool.or_eq_true, beq_iff_eq, Bool.and_eq_true, decide_eq_true_eq,
    Bool.or_eq_false_iff, Bool.and_eq_false_iff, decide_eq_false_iff_not] at h ⊢
  simp only [UInt8.le_iff_toNat_le, ← UInt8.toNat_inj] at h ⊢
  simp only [UInt8.reduceToNat] at h ⊢
  omega

theorem hex_not_blank {b : UInt8} (h : isHex b = true) : isBlankByte b = false := by
  by_contra hs
  rw [space_not_hex (by simpa using hs)] at h
  cases h

/-- No digit of a number is its sign. -/
theorem sign_hex {b : UInt8} {t : Bytes} (h : isHex b = true) :
    sign (b :: t) = (false, b :: t) := by
  have h₁ : b ≠ 45 := by
    intro he
    rw [he] at h
    cases h
  have h₂ : b ≠ 43 := by
    intro he
    rw [he] at h
    cases h
  simp [sign, h₁, h₂]

theorem dropHexMark_length_le (t : Bytes) : (dropHexMark t).length ≤ t.length := by
  unfold dropHexMark
  split
  · split <;> simp
  · exact Nat.le_refl _

theorem sign_length_le (t : Bytes) : (sign t).2.length ≤ t.length := by
  unfold sign
  split
  · exact Nat.le_refl _
  · split
    · simp
    · split <;> simp

theorem numeral_length_le (s : Bytes) : (numeral s).length ≤ s.length :=
  Nat.le_trans (dropHexMark_length_le _)
    (Nat.le_trans (sign_length_le _) (List.dropWhile_suffix _).length_le)

theorem hexOf_snoc (ds : Bytes) (d : UInt8) : hexOf (ds ++ [d]) = 16 * hexOf ds + hexValue d := by
  simp [hexOf]

theorem hexOf_append (a b : Bytes) : hexOf (a ++ b) = 16 ^ b.length * hexOf a + hexOf b := by
  induction b using List.reverseRecOn with
  | nil => simp [hexOf]
  | append_singleton b d ih =>
    rw [← List.append_assoc, hexOf_snoc, ih, hexOf_snoc, List.length_append, List.length_singleton,
      Nat.pow_succ]
    ring

theorem hexValue_lt (b : UInt8) : hexValue b < 16 := by
  unfold hexValue
  simp only [UInt8.le_iff_toNat_le, UInt8.reduceToNat]
  split
  · omega
  · split
    · omega
    · split <;> omega

theorem hexOf_lt (ds : Bytes) : hexOf ds < 16 ^ ds.length := by
  induction ds using List.reverseRecOn with
  | nil => simp [hexOf]
  | append_singleton ds d ih =>
    have := hexValue_lt d
    rw [hexOf_snoc, List.length_append, List.length_singleton, Nat.pow_succ]
    omega

/-- The value is zero for the digits that are all zeros, and only for these. -/
theorem hexOf_eq_zero {ds : Bytes} (h : ∀ d ∈ ds, isHex d = true) :
    hexOf ds = 0 ↔ ∀ d ∈ ds, d = 48 := by
  have hdigit : ∀ d : UInt8, isHex d = true → (hexValue d = 0 ↔ d = 48) := by
    intro d hd
    simp only [isHex, Bool.or_eq_true, Bool.and_eq_true, decide_eq_true_eq] at hd
    unfold hexValue
    simp only [UInt8.le_iff_toNat_le, ← UInt8.toNat_inj, UInt8.reduceToNat] at hd ⊢
    split
    · omega
    · split
      · omega
      · split <;> omega
  induction ds using List.reverseRecOn with
  | nil => simp [hexOf]
  | append_singleton ds d ih =>
    obtain ⟨hds, hd⟩ := List.forall_mem_append.mp h
    have hlast := hdigit d (hd d List.mem_cons_self)
    have hinit : hexOf ds = 0 ↔ ∀ d ∈ ds, d = 48 := ih hds
    rw [hexOf_snoc, List.forall_mem_append, List.forall_mem_singleton, ← hlast, ← hinit]
    omega

theorem strtoull16_eq_zero (s : Bytes) : (strtoull16 s).1 = 0 ↔ hexOf (digits s) = 0 := by
  unfold strtoull16
  split
  next h => simp [h, hexOf]
  next =>
    dsimp only
    split
    · next hlt =>
      have hz : UInt64.ofNat (hexOf (digits s)) = 0 ↔ hexOf (digits s) = 0 := by
        rw [← UInt64.toNat_inj, UInt64.toNat_ofNat_of_lt' hlt]
        simp
      split
      · rw [← hz, ← UInt64.toNat_inj, ← UInt64.toNat_inj, UInt64.toNat_neg]
        have := (UInt64.ofNat (hexOf (digits s))).toNat_lt_size
        simp only [UInt64.toNat_zero]
        rcases Nat.eq_zero_or_pos (UInt64.ofNat (hexOf (digits s))).toNat with h0 | hpos
        · simp [h0]
        · rw [Nat.mod_eq_of_lt (by omega)]
          omega
      · exact hz
    · next hge =>
      constructor
      · intro h
        cases h
      · omega

/-- `end == s` is the case of no conversion. -/
theorem strtoull16_end {s : Bytes} : (strtoull16 s).2 = s ↔ digits s = [] := by
  unfold strtoull16
  split
  next h => simp [h]
  next h =>
    simp only [h, iff_false]
    intro he
    have hcut :=
      congrArg List.length (List.takeWhile_append_dropWhile (p := isHex) (l := numeral s))
    have hlen := numeral_length_le s
    have hpos := List.length_pos_iff.mpr h
    rw [List.length_append, he] at hcut
    simp only [digits] at hpos
    omega

theorem digitChar_hex : ∀ d < 16, isHex (charByte (Nat.digitChar d)) = true ∧
    hexValue (charByte (Nat.digitChar d)) = d := by
  decide

theorem toDigits_hex (n : Nat) : (∀ d ∈ (Nat.toDigits 16 n).map charByte, isHex d = true) ∧
    hexOf ((Nat.toDigits 16 n).map charByte) = n := by
  induction n using Nat.strongRecOn with
  | ind n ih =>
    rcases Nat.lt_or_ge n 16 with h | h
    · obtain ⟨hhex, hvalue⟩ := digitChar_hex n h
      rw [Nat.toDigits_of_lt_base h]
      exact ⟨List.forall_mem_singleton.mpr hhex, by simp [hexOf, hvalue]⟩
    · obtain ⟨hall, hinit⟩ := ih (n / 16) (by omega)
      obtain ⟨hhex, hvalue⟩ := digitChar_hex (n % 16) (by omega)
      rw [Nat.toDigits_of_base_le (by omega) h, List.map_append, List.map_singleton]
      constructor
      · exact List.forall_mem_append.mpr ⟨hall, List.forall_mem_singleton.mpr hhex⟩
      · rw [hexOf_snoc, hinit, hvalue]
        omega

/-- What `%0<width>x` prints reads back. -/
theorem fmtX_hex (width n : Nat) : (∀ d ∈ fmtX width n, isHex d = true) ∧
    hexOf (fmtX width n) = n := by
  obtain ⟨hall, hvalue⟩ := toDigits_hex n
  constructor
  · refine List.forall_mem_append.mpr ⟨?_, hall⟩
    intro d hd
    rw [List.eq_of_mem_replicate hd]
    rfl
  · have hzeros : hexOf (List.replicate (width - ((Nat.toDigits 16 n).map charByte).length)
        (charByte '0')) = 0 := by
      apply (hexOf_eq_zero _).mpr
      · intro d hd
        exact List.eq_of_mem_replicate hd
      · intro d hd
        rw [List.eq_of_mem_replicate hd]
        rfl
    rw [fmtX, hexOf_append, hzeros, hvalue]
    simp

theorem fmtX_length {width n : Nat} (hw : 0 < width) (h : n < 16 ^ width) :
    (fmtX width n).length = width := by
  have hle : (Nat.toDigits 16 n).length ≤ width :=
    (Nat.length_toDigits_le_iff (by omega) hw).mpr h
  simp only [fmtX, List.length_append, List.length_replicate, List.length_map]
  omega

end SwitchLdnZt.Library
