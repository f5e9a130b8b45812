import Mathlib.Algebra.Group.Nat.Defs
import Mathlib.Data.List.TakeWhile

namespace SwitchLdnZt.Library

abbrev Bytes := List UInt8

def charByte (c : Char) : UInt8 := UInt8.ofNat c.toNat

/-- The bytes of a string literal; every literal here is ASCII. -/
def ascii (s : String) : Bytes := s.toList.map charByte

@[simp] theorem ascii_eq_nil {s : String} : ascii s = [] ↔ s = "" := by
  simp [ascii]

/-- What `%s` prints of an object: everything before its first NUL. -/
def cString (b : Bytes) : Bytes := b.takeWhile (· ≠ 0)

/-- `%.*s`: at most `n` bytes of the object, stopping at a NUL. -/
def cStringUpTo (n : Nat) (b : Bytes) : Bytes := cString (b.take n)

/-- `%u` -/
def fmtU (n : Nat) : Bytes := (Nat.toDigits 10 n).map charByte

/-- `%d` -/
def fmtD (i : Int) : Bytes := if i < 0 then charByte '-' :: fmtU i.natAbs else fmtU i.natAbs

/-- `%0<width>x` -/
def fmtX (width n : Nat) : Bytes :=
  let ds := (Nat.toDigits 16 n).map charByte
  List.replicate (width - ds.length) (charByte '0') ++ ds

/-- A local line buffer after `snprintf`: the bytes stored (terminator included)
and the length returned, which counts what did not fit. -/
structure Line where
  stored : Bytes
  len : Nat

def snprintf (size : Nat) (text : Bytes) : Line := ⟨text.take (size - 1) ++ [0], text.length⟩

/-- What a call handed the buffer and that length reads of it. -/
def Line.sent (l : Line) : Bytes := l.stored.take l.len

def byteChar (b : UInt8) : Char := Char.ofNat b.toNat

theorem digit_range {c : Char} (h : c.isDigit = true) : 48 ≤ c.toNat ∧ c.toNat ≤ 57 := by
  simp only [Char.isDigit, Bool.and_eq_true, decide_eq_true_eq, ge_iff_le] at h
  exact ⟨UInt32.le_iff_toNat_le.mp h.1, UInt32.le_iff_toNat_le.mp h.2⟩

theorem byteChar_charByte {c : Char} (h : c.toNat < 256) : byteChar (charByte c) = c := by
  simp only [byteChar, charByte, UInt8.toNat_ofNat']
  rw [Nat.mod_eq_of_lt (by simpa using h)]
  exact Char.ofNat_toNat c

theorem fmtU_digits {n : Nat} {b : UInt8} (hb : b ∈ fmtU n) : 48 ≤ b.toNat ∧ b.toNat ≤ 57 := by
  obtain ⟨c, hc, rfl⟩ := List.mem_map.mp hb
  have hr := digit_range (Nat.isDigit_of_mem_toDigits (by decide) (by decide) hc)
  have hm : (charByte c).toNat = c.toNat := by
    simp only [charByte, UInt8.toNat_ofNat']
    exact Nat.mod_eq_of_lt (by omega)
  omega

theorem fmtU_ne_zero {n : Nat} {b : UInt8} (hb : b ∈ fmtU n) : b ≠ 0 := by
  intro he
  have := (fmtU_digits hb).1
  simp [he] at this

/-- A 32-bit value prints in at most ten digits. -/
theorem fmtU_length_le {n : Nat} (h : n < 2 ^ 32) : (fmtU n).length ≤ 10 := by
  have hk : (Nat.toDigits 10 n).length ≤ 10 :=
    (Nat.length_toDigits_le_iff (by decide) (by decide)).mpr (by omega)
  simpa [fmtU] using hk

/-- Different numbers print differently. -/
theorem fmtU_injective {m n : Nat} (h : fmtU m = fmtU n) : m = n := by
  have decode (k : Nat) : (fmtU k).map byteChar = Nat.toDigits 10 k := by
    have hc : ∀ c ∈ Nat.toDigits 10 k, (byteChar ∘ charByte) c = id c := by
      intro c hc
      have hr := digit_range (Nat.isDigit_of_mem_toDigits (by decide) (by decide) hc)
      exact byteChar_charByte (by omega)
    rw [fmtU, List.map_map, List.map_congr_left hc, List.map_id]
  have hd : Nat.toDigits 10 m = Nat.toDigits 10 n := by rw [← decode, ← decode, h]
  have hv := congrArg (fun ds => Nat.ofDigitChars 10 ds 0) hd
  simpa [Nat.ofDigitChars_ten_toDigits] using hv

theorem cString_of_no_nul {b : Bytes} (h : ∀ x ∈ b, x ≠ 0) : cString b = b :=
  List.takeWhile_eq_self_iff.mpr (by simpa using h)

/-- A terminated object prints the same whatever follows its terminator. -/
theorem cString_append_nul (b rest : Bytes) : cString (b ++ 0 :: rest) = cString b := by
  induction b with
  | nil => simp [cString]
  | cons x b ih =>
    by_cases hx : x = 0
    · simp [cString, hx]
    · simpa [cString, hx] using ih

theorem cString_length_le (b : Bytes) : (cString b).length ≤ b.length :=
  (List.takeWhile_prefix _).length_le

theorem sent_of_fits {size : Nat} {text : Bytes} (h : text.length ≤ size - 1) :
    Line.sent (snprintf size text) = text := by
  simp [Line.sent, snprintf, List.take_of_length_le h]

/-- What fits is printed back whole. -/
theorem cString_snprintf {size : Nat} {t : Bytes} (hno : ∀ x ∈ t, x ≠ 0) (hlt : t.length < size) :
    cString (snprintf size t).stored = t := by
  rw [snprintf, cString_append_nul, List.take_of_length_le (by omega), cString_of_no_nul hno]

theorem cStringUpTo_length_le (n : Nat) (b : Bytes) : (cStringUpTo n b).length ≤ n :=
  Nat.le_trans (cString_length_le _) (List.length_take_le n b)

/-- A cut string ends at its terminator, whatever lies behind it. -/
theorem cStringUpTo_append_nul (n : Nat) (b rest : Bytes) :
    cStringUpTo n (b ++ 0 :: rest) = cStringUpTo n b := by
  unfold cStringUpTo
  rcases Nat.lt_or_ge b.length n with h | h
  · rw [List.take_append, List.take_of_length_le (Nat.le_of_lt h)]
    obtain ⟨k, hk⟩ : ∃ k, n - b.length = k + 1 := ⟨n - b.length - 1, by omega⟩
    rw [hk, List.take_succ_cons, cString_append_nul]
  · rw [List.take_append_of_le_length h]

theorem cStringUpTo_of_take (n m : Nat) (b : Bytes) (h : n ≤ m) :
    cStringUpTo n (b.take m) = cStringUpTo n b := by
  simp [cStringUpTo, List.take_take, Nat.min_eq_left h]

end SwitchLdnZt.Library
