import SwitchLdnZt.Library.CNumber

namespace SwitchLdnZt.Library

/-- Separators and fields by turns, from the first separator on. -/
def weave : List Bytes → List Bytes → Bytes
  | sep :: seps, field :: fields => sep ++ field ++ weave seps fields
  | seps, _ => seps.flatten

theorem weave_cons (sep field : Bytes) (seps fields : List Bytes) :
    weave (sep :: seps) (field :: fields) = sep ++ field ++ weave seps fields := rfl

theorem weave_nil (seps : List Bytes) : weave seps [] = seps.flatten := by
  cases seps <;> rfl

variable {P : UInt8 → Bool} {seps fs gs : List Bytes}

theorem takeWhile_field {f r : Bytes} (hf : ∀ b ∈ f, P b = true) (hr : ∀ c ∈ r.head?, P c = false) :
    (f ++ r).takeWhile P = f := by
  rw [List.takeWhile_append_of_pos hf]
  cases r with
  | nil => rw [List.takeWhile_nil, List.append_nil]
  | cons c r => rw [List.takeWhile_cons_of_neg (by simp [hr c rfl]), List.append_nil]

/-- A field goes as far as its bytes do. -/
theorem field_unique {f g r r' : Bytes} (hf : ∀ b ∈ f, P b = true) (hg : ∀ b ∈ g, P b = true)
    (hr : ∀ c ∈ r.head?, P c = false) (hr' : ∀ c ∈ r'.head?, P c = false)
    (h : f ++ r = g ++ r') : f = g ∧ r = r' := by
  have htake := congrArg (List.takeWhile P) h
  rw [takeWhile_field hf hr, takeWhile_field hg hr'] at htake
  subst htake
  exact ⟨rfl, List.append_cancel_left h⟩

/-- The separators hold the fields apart: none but the first may begin as a field does. -/
def Separated (P : UInt8 → Bool) (seps : List Bytes) : Prop :=
  ∀ s ∈ seps.tail, s.head?.any (fun c => !P c) = true

instance (P : UInt8 → Bool) (seps : List Bytes) : Decidable (Separated P seps) :=
  inferInstanceAs (Decidable (∀ s ∈ seps.tail, _ = _))

theorem Separated.head {sep : Bytes} (h : Separated P (sep :: seps)) (hne : seps ≠ [])
    (fs : List Bytes) : ∀ c ∈ (weave seps fs).head?, P c = false := by
  obtain ⟨s, ss, rfl⟩ := List.exists_cons_of_ne_nil hne
  obtain ⟨c, hhead, hc⟩ := (Option.any_eq_true _ _).mp (h s (by simp))
  obtain ⟨cs, rfl⟩ := List.head?_eq_some_iff.mp hhead
  intro d hd
  have hdc : d = c := by cases fs <;> simpa [weave, eq_comm] using hd
  simpa [hdc] using hc

theorem Separated.tail {sep : Bytes} (h : Separated P (sep :: seps)) : Separated P seps :=
  fun s hs => h s (List.mem_of_mem_tail hs)

/-- Behind separators of their own the fields can be told from the text. -/
theorem weave_injective (hseps : Separated P seps) (hlen : seps.length = fs.length + 1)
    (hlen' : fs.length = gs.length) (hf : ∀ f ∈ fs, ∀ b ∈ f, P b = true)
    (hg : ∀ g ∈ gs, ∀ b ∈ g, P b = true) (h : weave seps fs = weave seps gs) : fs = gs := by
  induction fs generalizing seps gs with
  | nil => exact (List.length_eq_zero_iff.mp hlen'.symm).symm
  | cons f fs ih =>
    obtain ⟨g, gs, rfl⟩ := List.exists_cons_of_length_eq_add_one hlen'.symm
    obtain ⟨sep, seps, rfl⟩ := List.exists_cons_of_length_eq_add_one hlen
    obtain ⟨hf, hfs⟩ := List.forall_mem_cons.mp hf
    obtain ⟨hg, hgs⟩ := List.forall_mem_cons.mp hg
    simp only [List.length_cons, Nat.add_right_cancel_iff] at hlen hlen'
    have hne : seps ≠ [] := by
      rintro rfl
      simp at hlen
    simp only [weave, List.append_assoc, List.append_cancel_left_eq] at h
    obtain ⟨rfl, hrest⟩ := field_unique hf hg (hseps.head hne fs) (hseps.head hne gs) h
    rw [ih hseps.tail hlen hlen' hfs hgs hrest]

theorem weave_length (seps fs : List Bytes) (h : fs.length ≤ seps.length) :
    (weave seps fs).length = seps.flatten.length + fs.flatten.length := by
  induction fs generalizing seps with
  | nil => simp [weave_nil]
  | cons f fs ih =>
    cases seps with
    | nil => simp at h
    | cons s ss =>
      simp only [weave, List.flatten_cons, List.length_append]
      rw [ih ss (by simpa using h)]
      omega

/-- A field for each item, behind its separator. -/
theorem weave_map {ι : Type} (is : List ι) (sep field : ι → Bytes) (last : Bytes) :
    weave (is.map sep ++ [last]) (is.map field) =
      is.flatMap (fun i => sep i ++ field i) ++ last := by
  induction is with
  | nil => simp [weave_nil]
  | cons i is ih =>
    rw [List.map_cons, List.map_cons, List.cons_append, weave_cons, ih, List.flatMap_cons,
      List.append_assoc (sep i ++ field i)]

/-- What stands before each item may as well stand behind it. -/
theorem flatMap_turn {ι : Type} (is : List ι) (x : ι → Bytes) (sep : Bytes) :
    is.flatMap (fun i => sep ++ x i) ++ sep = sep ++ is.flatMap (fun i => x i ++ sep) := by
  induction is with
  | nil => simp
  | cons i is ih =>
    rw [List.flatMap_cons, List.flatMap_cons, List.append_assoc, ih]
    simp only [List.append_assoc]

/-- By fours. -/
theorem flatMap_fours (n : Nat) (x : Nat → Bytes) : (List.range (4 * n)).flatMap x =
    (List.range n).flatMap (fun k =>
      x (4 * k) ++ x (4 * k + 1) ++ x (4 * k + 2) ++ x (4 * k + 3)) := by
  induction n with
  | zero => rfl
  | succ n ih =>
    have hfour : 4 * (n + 1) = 4 * n + 1 + 1 + 1 + 1 := by omega
    rw [hfour, List.range_succ, List.range_succ, List.range_succ, List.range_succ]
    simp only [List.range_succ, List.flatMap_append, List.flatMap_singleton, ih,
      List.append_assoc]

def isDecimal (b : UInt8) : Bool := 48 ≤ b.toNat && b.toNat ≤ 57

theorem fmtU_decimal (n : Nat) : ∀ b ∈ fmtU n, isDecimal b = true := by
  intro b hb
  have hb := fmtU_digits hb
  simp [isDecimal, hb]

theorem fmtX_injective {width m n : Nat} (h : fmtX width m = fmtX width n) : m = n := by
  rw [← (fmtX_hex width m).2, h, (fmtX_hex width n).2]

/-- What fits is stored whole, and then tells what was printed. -/
theorem stored_injective {size : Nat} {a b : Bytes} (ha : a.length < size) (hb : b.length < size)
    (h : (snprintf size a).stored = (snprintf size b).stored) : a = b := by
  rw [snprintf, snprintf] at h
  dsimp only at h
  rw [List.take_of_length_le (by omega), List.take_of_length_le (by omega)] at h
  exact List.append_cancel_right h

end SwitchLdnZt.Library
