import SwitchLdnZt.Config.NetworkId

namespace SwitchLdnZt.Proofs.NetworkId
open Library Config

/-- No number goes on into this text. -/
def Stops (tail : Bytes) : Prop := ∀ b ∈ tail.head?, isBlankByte b = true ∨ b = 0

theorem Stops.head {b : UInt8} {t : Bytes} (h : Stops (b :: t)) :
    isHex b = false ∧ b ≠ 48 ∧ b ≠ 120 ∧ b ≠ 88 := by
  have hb : isBlankByte b = true ∨ b = 0 := h b rfl
  simp only [isBlankByte, isHex, Bool.or_eq_true, beq_iff_eq, Bool.and_eq_true, decide_eq_true_eq,
    Bool.or_eq_false_iff, Bool.and_eq_false_iff, decide_eq_false_iff_not, ne_eq] at hb ⊢
  simp only [UInt8.le_iff_toNat_le, ← UInt8.toNat_inj, UInt8.reduceToNat, UInt8.toNat_zero] at hb ⊢
  omega

theorem takeWhile_stops {tail : Bytes} (h : Stops tail) (u : Bytes) :
    (u ++ tail).takeWhile isHex = u.takeWhile isHex := by
  induction u with
  | nil =>
    cases tail with
    | nil => rfl
    | cons b t => simp [h.head.1]
  | cons b u ih =>
    rw [List.cons_append, List.takeWhile_cons, List.takeWhile_cons, ih]

theorem dropHexMark_stops {tail : Bytes} (h : Stops tail) (u : Bytes) :
    (dropHexMark (u ++ tail)).takeWhile isHex = (dropHexMark u).takeWhile isHex := by
  have keep {t : Bytes} (ht : dropHexMark (t ++ tail) = t ++ tail) (ht' : dropHexMark t = t) :
      (dropHexMark (t ++ tail)).takeWhile isHex = (dropHexMark t).takeWhile isHex := by
    rw [ht, ht', takeWhile_stops h]
  match u with
  | [] =>
    apply keep _ rfl
    match tail with
    | [] | [_] | [_, _] => rfl
    | b :: _ :: _ :: _ => simp [dropHexMark, h.head.2.1]
  | [z] =>
    apply keep _ rfl
    match tail with
    | [] | [_] => rfl
    | b :: _ :: _ => simp [dropHexMark, h.head.2.2.1, h.head.2.2.2]
  | [z, x] =>
    apply keep _ rfl
    match tail with
    | [] => rfl
    | b :: _ => simp [dropHexMark, h.head.1]
  | z :: x :: d :: t =>
    simp only [List.cons_append, dropHexMark]
    split
    · exact takeWhile_stops h (d :: t)
    · exact takeWhile_stops h (z :: x :: d :: t)

theorem sign_append {u : Bytes} (hu : u ≠ []) (tail : Bytes) :
    sign (u ++ tail) = ((sign u).1, (sign u).2 ++ tail) := by
  cases u with
  | nil => exact absurd rfl hu
  | cons b u =>
    simp only [List.cons_append, sign]
    split
    · rfl
    · split <;> rfl

/-- Blanks before a number and what stops it behind do not change its value. -/
theorem strtoull16_front {blanks u tail : Bytes} (hb : ∀ b ∈ blanks, isBlankByte b = true)
    (hu : ∃ b t, u = b :: t ∧ isBlankByte b = false) (ht : Stops tail) :
    digits (blanks ++ (u ++ tail)) = digits u ∧ negative (blanks ++ (u ++ tail)) = negative u := by
  obtain ⟨b, t, rfl, hspace⟩ := hu
  have hdrop : (blanks ++ (b :: t ++ tail)).dropWhile isBlankByte = b :: t ++ tail := by
    rw [List.dropWhile_append_of_pos hb, List.cons_append,
      List.dropWhile_cons_of_neg (by simp [hspace])]
  have hself : (b :: t).dropWhile isBlankByte = b :: t :=
    List.dropWhile_cons_of_neg (by simp [hspace])
  have hsign := sign_append (u := b :: t) (by simp) tail
  constructor
  · rw [digits, digits, numeral, numeral, hdrop, hself, hsign]
    exact dropHexMark_stops ht _
  · rw [negative, negative, hdrop, hself, hsign]

theorem digits_blank {s tail : Bytes} (h : ∀ b ∈ s, isBlankByte b = true)
    (ht : tail = [] ∨ tail.head? = some 0) : digits (s ++ tail) = [] := by
  have hdrop : (s ++ tail).dropWhile isBlankByte = tail := by
    rw [List.dropWhile_append_of_pos h]
    rcases ht with rfl | ht
    · rfl
    · obtain ⟨t, rfl⟩ := List.head?_eq_some_iff.mp ht
      rfl
  rw [digits, numeral, hdrop]
  rcases ht with rfl | ht
  · rfl
  · obtain ⟨t, rfl⟩ := List.head?_eq_some_iff.mp ht
    have hstop : Stops (0 :: t) := fun b hb => .inr (Option.some.inj hb).symm
    exact dropHexMark_stops hstop []

theorem value_congr {s t : Bytes} (hd : digits s = digits t) (hn : negative s = negative t) :
    (strtoull16 s).1 = (strtoull16 t).1 := by
  unfold strtoull16
  rw [hd, hn]
  split <;> rfl

theorem value_blank {s tail : Bytes} (h : ∀ b ∈ s, isBlankByte b = true)
    (ht : tail = [] ∨ tail.head? = some 0) : (strtoull16 (s ++ tail)).1 = 0 := by
  rw [strtoull16_eq_zero, digits_blank h ht]
  rfl

theorem trimmed_space {b : UInt8} (h : isTrimmed b = true) : isBlankByte b = true := by
  simp only [isTrimmed, isBlankByte, Bool.or_eq_true, beq_iff_eq, Bool.and_eq_true,
    decide_eq_true_eq] at h ⊢
  simp only [UInt8.le_iff_toNat_le, ← UInt8.toNat_inj, UInt8.reduceToNat] at h ⊢
  omega

/-- Blanks and where they end. -/
theorem blanks_cases (s : Bytes) : ∃ blanks u, s = blanks ++ u ∧
    (∀ b ∈ blanks, isBlankByte b = true) ∧
      (u = [] ∨ ∃ b t, u = b :: t ∧ isBlankByte b = false) := by
  refine ⟨s.takeWhile isBlankByte, s.dropWhile isBlankByte, List.takeWhile_append_dropWhile.symm,
    fun b hb => List.mem_takeWhile_imp hb, ?_⟩
  cases hu : s.dropWhile isBlankByte with
  | nil => exact .inl rfl
  | cons b t =>
    refine .inr ⟨b, t, rfl, ?_⟩
    have hne : s.dropWhile isBlankByte ≠ [] := by simp [hu]
    have hhead := List.head_dropWhile_not isBlankByte hne
    simpa [hu] using hhead

theorem stops_zero (z : Bytes) : Stops (0 :: z) := by
  intro b hb
  exact .inr (Option.some.inj hb).symm

theorem stops_space {s : Bytes} (h : ∀ b ∈ s, isBlankByte b = true) : Stops s := by
  intro b hb
  exact .inl (h b (List.mem_of_mem_head? hb))

/-- Taking blanks off the end and closing the text with a NUL leaves the number. -/
theorem value_trimmed (got z : Bytes) :
    (strtoull16 (got.rdropWhile isTrimmed ++ 0 :: z)).1 = (strtoull16 got).1 := by
  have hgot : got.rdropWhile isTrimmed ++ got.rtakeWhile isTrimmed = got :=
    List.rdropWhile_append_rtakeWhile
  have hcut : ∀ b ∈ got.rtakeWhile isTrimmed, isBlankByte b = true :=
    fun b hb => trimmed_space (List.mem_rtakeWhile_imp hb)
  obtain ⟨blanks, u, hkept, hblanks, hu⟩ := blanks_cases (got.rdropWhile isTrimmed)
  rw [hkept, List.append_assoc] at hgot
  rw [hkept, ← hgot, List.append_assoc]
  rcases hu with rfl | hu
  · have hall : ∀ b ∈ blanks ++ ([] ++ got.rtakeWhile isTrimmed) , isBlankByte b = true :=
      List.forall_mem_append.mpr ⟨hblanks, hcut⟩
    have hzero := value_blank hall (.inl rfl : ([] : Bytes) = [] ∨ _)
    rw [List.append_nil] at hzero
    rw [hzero]
    exact value_blank hblanks (.inr rfl)
  · have hbuf := strtoull16_front hblanks hu (stops_zero z)
    have hraw := strtoull16_front hblanks hu (stops_space hcut)
    exact value_congr (hbuf.1.trans hraw.1.symm) (hbuf.2.trans hraw.2.symm)

/-- The Switch reads the number at the front of the first 63 bytes. -/
theorem readNetworkIdSwitch_window (content : Bytes) :
    readNetworkIdSwitch (some content) =
      if (strtoull16 (content.take 63)).1 = 0 then none
      else some (strtoull16 (content.take 63)).1 := by
  rw [readNetworkIdSwitch_eq]
  simp only [readTextFile, List.length_replicate, Nat.reduceLT, ↓reduceIte]
  by_cases hgot : content.take 63 = []
  · simp [hgot, strtoull16, digits, numeral, sign, dropHexMark]
  · have hle : ((content.take 63).rdropWhile isTrimmed).length ≤ (content.take 63).length :=
      (List.rdropWhile_prefix _ _).length_le
    obtain ⟨k, hk⟩ : ∃ k, (content.take 63).length + 1 -
        ((content.take 63).rdropWhile isTrimmed).length = k + 1 :=
      ⟨(content.take 63).length - ((content.take 63).rdropWhile isTrimmed).length, by omega⟩
    simp only [hgot, ↓reduceIte, hk, List.replicate_succ, List.append_assoc, List.cons_append]
    split
    next hnone =>
      split at hnone
      · cases hnone
      · next hhead =>
        -- a NUL in front
        obtain ⟨t, ht⟩ := List.head?_eq_some_iff.mp (not_not.mp hhead)
        have hzero : (strtoull16 ([] ++ 0 :: t)).1 = 0 := value_blank (by simp) (.inr rfl)
        rw [List.nil_append, ← ht, value_trimmed] at hzero
        rw [if_pos hzero]
    next buf hbuf =>
      split at hbuf
      · cases hbuf
        rw [value_trimmed]
      · cases hbuf

/-- A content without a token, or one whose first token ends within the first 63 bytes. -/
def TokenWithin (content : Bytes) : Prop :=
  token content = [] ∨ (content.takeWhile isBlankByte).length + (token content).length ≤ 63

/-- What is in front of the first token and what is behind it. -/
theorem token_cases (content : Bytes) : ∃ tail,
    content = content.takeWhile isBlankByte ++ (token content ++ tail) ∧
    (∀ b ∈ tail.head?, isBlankByte b = true) := by
  refine ⟨(content.dropWhile isBlankByte).dropWhile (fun b => !isBlankByte b), ?_, ?_⟩
  · rw [token, List.takeWhile_append_dropWhile, List.takeWhile_append_dropWhile]
  · intro b hb
    have hne : (content.dropWhile isBlankByte).dropWhile (fun b => !isBlankByte b) ≠ [] := by
      intro he
      rw [he] at hb
      cases hb
    have hhead := List.head_dropWhile_not (fun b => !isBlankByte b) hne
    rw [List.head?_eq_some_head hne] at hb
    cases hb
    simpa using hhead

theorem token_head (content : Bytes) :
    token content = [] ∨ ∃ b t, token content = b :: t ∧ isBlankByte b = false := by
  cases ht : token content with
  | nil => exact .inl rfl
  | cons b t =>
    refine .inr ⟨b, t, rfl, ?_⟩
    have hb : b ∈ token content := by simp [ht]
    simpa using List.mem_takeWhile_imp hb

theorem token_nil {content : Bytes} (h : token content = []) :
    ∀ b ∈ content, isBlankByte b = true := by
  have hdrop : content.dropWhile isBlankByte = [] := by
    by_contra hne
    have hhead := List.head_dropWhile_not isBlankByte hne
    obtain ⟨b, t, hbt⟩ := List.exists_cons_of_ne_nil hne
    simp only [hbt, List.head_cons] at hhead
    rw [token, hbt, List.takeWhile_cons, hhead] at h
    cases h
  exact List.dropWhile_eq_nil_iff.mp hdrop

/-- Within the window the Switch reads the number at the front of the token. -/
theorem value_token {content : Bytes} (h : TokenWithin content) :
    (strtoull16 (content.take 63)).1 = (strtoull16 (token content ++ [0])).1 := by
  rcases token_head content with hnil | htok
  · have hspace : ∀ b ∈ content.take 63 ++ [], isBlankByte b = true := by
      intro b hb
      exact token_nil hnil b (List.mem_of_mem_take (by simpa using hb))
    have hzero := value_blank hspace (.inl rfl : ([] : Bytes) = [] ∨ _)
    simp only [List.append_nil] at hzero
    rw [hzero, hnil]
    exact (value_blank (s := []) (by simp) (.inr rfl)).symm
  · obtain ⟨tail, hcontent, htail⟩ := token_cases content
    have hlen : (content.takeWhile isBlankByte).length + (token content).length ≤ 63 := by
      rcases h with hnil | hle
      · obtain ⟨b, t, hbt, -⟩ := htok
        rw [hnil] at hbt
        cases hbt
      · exact hle
    obtain ⟨k, htake⟩ : ∃ k, content.take 63 =
        content.takeWhile isBlankByte ++ (token content ++ tail.take k) := by
      refine ⟨63 - (content.takeWhile isBlankByte).length - (token content).length, ?_⟩
      conv_lhs => rw [hcontent]
      rw [List.take_append, List.take_append, List.take_of_length_le (by omega),
        List.take_of_length_le (by omega)]
    have hstop : Stops (tail.take k) := by
      intro b hb
      have hmem : b ∈ tail.head? := by
        cases tail with
        | nil => simp at hb
        | cons c t =>
          cases k with
          | zero => simp at hb
          | succ k => simpa using hb
      exact .inl (htail b hmem)
    have hblanks : ∀ b ∈ content.takeWhile isBlankByte, isBlankByte b = true :=
      fun b hb => List.mem_takeWhile_imp hb
    have hswitch := strtoull16_front hblanks htok hstop
    have hnone : ∀ b ∈ ([] : Bytes), isBlankByte b = true := by simp
    have hpc := strtoull16_front hnone htok (stops_zero [])
    rw [List.nil_append] at hpc
    rw [htake]
    exact value_congr (hswitch.1.trans hpc.1.symm) (hswitch.2.trans hpc.2.symm)

theorem readers_equal {content : Bytes} (h : TokenWithin content) :
    readNetworkIdSwitch (some content) = readNetworkIdPc (some content) := by
  rw [readNetworkIdSwitch_window, value_token h]
  unfold readNetworkIdPc
  by_cases hnil : token content = []
  · have hzero : (strtoull16 (token content ++ [0])).1 = 0 := by
      rw [hnil]
      exact value_blank (s := []) (by simp) (.inr rfl)
    rw [if_pos hzero]
    simp only [hnil, ↓reduceIte]
  · by_cases hzero : (strtoull16 (token content ++ [0])).1 = 0 <;> simp [hzero, hnil]

/-- Digits alone are a number without sign or mark. -/
theorem digits_hex {ds : Bytes} (h : ∀ d ∈ ds, isHex d = true) :
    digits ds = ds ∧ negative ds = false := by
  cases ds with
  | nil => exact ⟨rfl, rfl⟩
  | cons d t =>
    have hd : isHex d = true := h d List.mem_cons_self
    have hdrop : (d :: t).dropWhile isBlankByte = d :: t :=
      List.dropWhile_cons_of_neg (by simp [hex_not_blank hd])
    have hmark : dropHexMark (d :: t) = d :: t := by
      unfold dropHexMark
      split
      next z x e r he =>
        cases he
        have hx : isHex x = true := h x (by simp)
        have hno : ¬ (d = 48 ∧ (x = 120 ∨ x = 88) ∧ isHex e = true) := by
          intro hc
          rcases hc.2.1 with hx' | hx' <;> rw [hx'] at hx <;> cases hx
        rw [if_neg hno]
      next => rfl
    constructor
    · rw [digits, numeral, hdrop, sign_hex hd, hmark]
      exact List.takeWhile_eq_self_iff.mpr h
    · rw [negative, hdrop, sign_hex hd]

/-- At most sixteen digits are read as what they say. -/
theorem value_hex {blanks ds tail : Bytes} (hb : ∀ b ∈ blanks, isBlankByte b = true) (hne : ds ≠ [])
    (hlen : ds.length ≤ 16) (h : ∀ d ∈ ds, isHex d = true) (ht : Stops tail) :
    (strtoull16 (blanks ++ (ds ++ tail))).1 = UInt64.ofNat (hexOf ds) ∧ hexOf ds < 2 ^ 64 := by
  have hlt : hexOf ds < 2 ^ 64 := by
    have hpow : 16 ^ ds.length ≤ 16 ^ 16 := Nat.pow_le_pow_right (by omega) hlen
    have := hexOf_lt ds
    omega
  have hu : ∃ b t, ds = b :: t ∧ isBlankByte b = false := by
    obtain ⟨b, t, rfl⟩ := List.exists_cons_of_ne_nil hne
    exact ⟨b, t, rfl, hex_not_blank (h b List.mem_cons_self)⟩
  have hfront := strtoull16_front hb hu ht
  rw [(digits_hex h).1, (digits_hex h).2] at hfront
  refine ⟨?_, hlt⟩
  simp only [strtoull16, hfront.1, hfront.2, hne, hlt, Bool.false_eq_true, ↓reduceIte]

/-- A digit in lower case. -/
def lower (b : UInt8) : UInt8 := if 65 ≤ b ∧ b ≤ 70 then b + 32 else b

theorem lower_hex (b : UInt8) : isHex (lower b) = isHex b ∧ hexValue (lower b) = hexValue b := by
  unfold lower
  split
  next h =>
    have hadd : (b + 32).toNat = b.toNat + 32 := by
      rw [UInt8.toNat_add]
      have := UInt8.le_iff_toNat_le.mp h.2
      simp only [UInt8.reduceToNat] at this ⊢
      omega
    simp only [UInt8.le_iff_toNat_le, UInt8.reduceToNat] at h
    constructor
    · have hb : isHex b = true := by
        simp [isHex, UInt8.le_iff_toNat_le, h]
      have hl : isHex (b + 32) = true := by
        simp only [isHex, UInt8.le_iff_toNat_le, UInt8.reduceToNat, hadd, Bool.or_eq_true,
          Bool.and_eq_true, decide_eq_true_eq]
        omega
      rw [hb, hl]
    · simp only [hexValue, UInt8.le_iff_toNat_le, UInt8.reduceToNat, hadd]
      rw [if_neg (by omega), if_neg (by omega), if_pos (by omega), if_neg (by omega), if_pos h]
      omega
  next => exact ⟨rfl, rfl⟩

theorem lower_digits {ds : Bytes} (h : ∀ d ∈ ds.map lower, isHex d = true) :
    (∀ d ∈ ds, isHex d = true) ∧ hexOf (ds.map lower) = hexOf ds := by
  induction ds using List.reverseRecOn with
  | nil => exact ⟨by simp, rfl⟩
  | append_singleton ds d ih =>
    rw [List.map_append, List.map_singleton, List.forall_mem_append,
      List.forall_mem_singleton, (lower_hex d).1] at h
    obtain ⟨hall, hvalue⟩ := ih h.1
    constructor
    · exact List.forall_mem_append.mpr ⟨hall, List.forall_mem_singleton.mpr h.2⟩
    · rw [List.map_append, List.map_singleton, hexOf_snoc, hexOf_snoc, hvalue, (lower_hex d).2]

theorem form_digits {id : UInt64} {ds : Bytes} (h : ds.map lower = fmtX 16 id.toNat) :
    ds.length = 16 ∧ (∀ d ∈ ds, isHex d = true) ∧ hexOf ds = id.toNat := by
  have hsize : (fmtX 16 id.toNat).length = 16 := fmtX_length (by omega) id.toNat_lt
  obtain ⟨hform, hvalue⟩ := fmtX_hex 16 id.toNat
  rw [← h] at hsize hform hvalue
  obtain ⟨hhex, hsame⟩ := lower_digits hform
  exact ⟨by simpa using hsize, hhex, hsame.symm.trans hvalue⟩

/-- The `%016` form of an id, in either case, between blanks. -/
theorem form_read {id : UInt64} (hid : id ≠ 0) {blanks ds behind : Bytes}
    (hb : ∀ b ∈ blanks, isBlankByte b = true) (hds : ds.map lower = fmtX 16 id.toNat)
    (hbehind : ∀ b ∈ behind, isBlankByte b = true) (hlen : blanks.length + 16 ≤ 63) :
    readNetworkIdSwitch (some (blanks ++ (ds ++ behind))) = some id := by
  obtain ⟨hsize, hhex, hvalue⟩ := form_digits hds
  have htake : (blanks ++ (ds ++ behind)).take 63 =
      blanks ++ (ds ++ behind.take (63 - blanks.length - ds.length)) := by
    rw [List.take_append, List.take_append, List.take_of_length_le (by omega),
      List.take_of_length_le (by omega)]
  have hstop : Stops (behind.take (63 - blanks.length - ds.length)) :=
    stops_space fun b hb => hbehind b (List.mem_of_mem_take hb)
  have hne : ds ≠ [] := List.length_pos_iff.mp (by omega)
  have hread := (value_hex hb hne (Nat.le_of_eq hsize) hhex hstop).1
  rw [hvalue, UInt64.ofNat_toNat] at hread
  rw [readNetworkIdSwitch_window, htake, hread, if_neg hid]

theorem form_within {id : UInt64} {blanks ds behind : Bytes}
    (hb : ∀ b ∈ blanks, isBlankByte b = true) (hds : ds.map lower = fmtX 16 id.toNat)
    (hbehind : ∀ b ∈ behind, isBlankByte b = true) (hlen : blanks.length + 16 ≤ 63) :
    TokenWithin (blanks ++ (ds ++ behind)) := by
  obtain ⟨hsize, hhex, -⟩ := form_digits hds
  cases ds with
  | nil => cases hsize
  | cons d t =>
    have hd : isBlankByte d = false := hex_not_blank (hhex d List.mem_cons_self)
    have hblanks : (blanks ++ (d :: t ++ behind)).takeWhile isBlankByte = blanks := by
      rw [List.takeWhile_append_of_pos hb]
      simp [hd]
    have hdrop : (blanks ++ (d :: t ++ behind)).dropWhile isBlankByte = d :: t ++ behind := by
      rw [List.dropWhile_append_of_pos hb]
      simp [hd]
    have htoken : token (blanks ++ (d :: t ++ behind)) = d :: t := by
      rw [token, hdrop, List.takeWhile_append_of_pos]
      · cases behind with
        | nil => simp
        | cons b behind => simp [hbehind b List.mem_cons_self]
      · intro b hb
        simp [hex_not_blank (hhex b hb)]
    right
    rw [hblanks, htoken, hsize]
    exact hlen

/-- The two readers are the same function of the contents whose first token ends
within 63 bytes, and they read every id's own form back. -/
theorem readers_agree :
    (∀ content, TokenWithin content →
      readNetworkIdSwitch (some content) = readNetworkIdPc (some content)) ∧
    ∀ (id : UInt64) (blanks ds behind : Bytes), id ≠ 0 → (∀ b ∈ blanks, isBlankByte b = true) →
      ds.map lower = fmtX 16 id.toNat → (∀ b ∈ behind, isBlankByte b = true) →
      blanks.length + 16 ≤ 63 →
      readNetworkIdSwitch (some (blanks ++ (ds ++ behind))) = some id ∧
      readNetworkIdPc (some (blanks ++ (ds ++ behind))) = some id := by
  refine ⟨fun _ h => readers_equal h, ?_⟩
  intro id blanks ds behind hid hb hds hbehind hlen
  have hread := form_read hid hb hds hbehind hlen
  exact ⟨hread, (readers_equal (form_within hb hds hbehind hlen)).symm.trans hread⟩

/-- The example of the app's own message. -/
theorem readers_agree_message :
    readNetworkIdSwitch (some (ascii " " ++ (ascii "8056c2E21c000001" ++ ascii "\n"))) =
      some 0x8056c2e21c000001 ∧
    readNetworkIdPc (some (ascii " " ++ (ascii "8056c2E21c000001" ++ ascii "\n"))) =
      some 0x8056c2e21c000001 :=
  readers_agree.2 0x8056c2e21c000001 _ _ _ (by decide) (List.all_eq_true.mp rfl) (by decide)
    (List.all_eq_true.mp rfl) (by decide)

/-- The content without the whitespace around it. -/
def stripped (content : Bytes) : Bytes := (content.dropWhile isBlankByte).rdropWhile isBlankByte

/-- Between 1 and 16 hexadecimal digits and nothing else. -/
def isId (s : Bytes) : Bool := s.length ≠ 0 && s.length ≤ 16 && s.all isHex

/-- Whatever is read is the exact value of what the whole content says. -/
def ReadExactly (content : Bytes) : Prop :=
  ∀ v, readNetworkIdSwitch (some content) = some v →
    isId (stripped content) = true ∧ v.toNat = hexOf (stripped content)

theorem stripped_cases (content : Bytes) : ∃ behind,
    content = content.takeWhile isBlankByte ++ (stripped content ++ behind) ∧
    ∀ b ∈ behind, isBlankByte b = true := by
  refine ⟨(content.dropWhile isBlankByte).rtakeWhile isBlankByte, ?_, ?_⟩
  · rw [stripped, List.rdropWhile_append_rtakeWhile, List.takeWhile_append_dropWhile]
  · intro b hb
    exact List.mem_rtakeWhile_imp hb

/-- An id that the window holds whole is read as it is. -/
theorem read_whole {content : Bytes} (hid : isId (stripped content) = true)
    (hlen : (content.takeWhile isBlankByte).length + (stripped content).length ≤ 63) {v : UInt64}
    (hv : readNetworkIdSwitch (some content) = some v) : v.toNat = hexOf (stripped content) := by
  simp only [isId, Bool.and_eq_true, decide_eq_true_eq, List.all_eq_true] at hid
  obtain ⟨⟨hne, hsize⟩, hhex⟩ := hid
  obtain ⟨behind, hcontent, hbehind⟩ := stripped_cases content
  have htake : ∃ k, content.take 63 =
      content.takeWhile isBlankByte ++ (stripped content ++ behind.take k) := by
    refine ⟨63 - (content.takeWhile isBlankByte).length - (stripped content).length, ?_⟩
    conv_lhs => rw [hcontent]
    rw [List.take_append, List.take_append, List.take_of_length_le (by omega),
      List.take_of_length_le (by omega)]
  obtain ⟨k, htake⟩ := htake
  have hstop : Stops (behind.take k) :=
    stops_space fun b hb => hbehind b (List.mem_of_mem_take hb)
  have hblanks : ∀ b ∈ content.takeWhile isBlankByte, isBlankByte b = true :=
    fun b hb => List.mem_takeWhile_imp hb
  obtain ⟨hvalue, hlt⟩ :=
    value_hex hblanks (List.length_pos_iff.mp (by omega)) hsize hhex hstop
  rw [readNetworkIdSwitch_window, htake, hvalue] at hv
  split at hv
  · cases hv
  · cases hv
    exact UInt64.toNat_ofNat_of_lt' hlt

/-- An id that goes on behind the window is read as less than it is. -/
theorem read_cut {content : Bytes} (hid : isId (stripped content) = true)
    (hlen : 63 < (content.takeWhile isBlankByte).length + (stripped content).length) {v : UInt64}
    (hv : readNetworkIdSwitch (some content) = some v) : v.toNat < hexOf (stripped content) := by
  simp only [isId, Bool.and_eq_true, decide_eq_true_eq, List.all_eq_true] at hid
  obtain ⟨⟨hne, hsize⟩, hhex⟩ := hid
  obtain ⟨behind, hcontent, -⟩ := stripped_cases content
  have hblanks : ∀ b ∈ content.takeWhile isBlankByte, isBlankByte b = true :=
    fun b hb => List.mem_takeWhile_imp hb
  rw [readNetworkIdSwitch_window] at hv
  split at hv
  · cases hv
  · next hnz =>
    cases hv
    let k := 63 - (content.takeWhile isBlankByte).length
    have htake : content.take 63 =
        (content.takeWhile isBlankByte).take 63 ++ ((stripped content).take k ++ []) := by
      conv_lhs => rw [hcontent]
      rw [List.take_append, List.take_append_of_le_length (by omega), List.append_nil]
    have hfront : ∀ b ∈ (content.takeWhile isBlankByte).take 63, isBlankByte b = true :=
      fun b hb => hblanks b (List.mem_of_mem_take hb)
    have hhex' : ∀ d ∈ (stripped content).take k, isHex d = true :=
      fun d hd => hhex d (List.mem_of_mem_take hd)
    by_cases hcut : (stripped content).take k = []
    · rw [htake, hcut] at hnz
      exact absurd (value_blank hfront (.inl rfl)) hnz
    · have hsize' : ((stripped content).take k).length ≤ 16 := by
        rw [List.length_take]
        omega
      have hend : Stops [] := by
        intro b hb
        cases hb
      obtain ⟨hvalue, hlt⟩ := value_hex hfront hcut hsize' hhex' hend
      have hpos : hexOf ((stripped content).take k) ≠ 0 := by
        intro hz
        rw [htake, hvalue, hz] at hnz
        exact hnz rfl
      have hsplit : hexOf (stripped content) = 16 ^ ((stripped content).drop k).length *
          hexOf ((stripped content).take k) + hexOf ((stripped content).drop k) := by
        rw [← hexOf_append, List.take_append_drop]
      have hpow : 16 ^ 1 ≤ 16 ^ ((stripped content).drop k).length := by
        apply Nat.pow_le_pow_right (by omega)
        rw [List.length_drop]
        omega
      have hmul := Nat.mul_le_mul_right (hexOf ((stripped content).take k)) hpow
      rw [htake, hvalue, UInt64.toNat_ofNat_of_lt' hlt]
      omega

/-- The id is read exactly where the number at the front of the first 63 bytes is
zero or missing, or the content is an id, within the window, and nothing else. -/
theorem read_exactly_iff (content : Bytes) :
    ReadExactly content ↔ (∀ d ∈ digits (content.take 63), d = 48) ∨
      (isId (stripped content) = true ∧
        (content.takeWhile isBlankByte).length + (stripped content).length ≤ 63) := by
  have hzero : (strtoull16 (content.take 63)).1 = 0 ↔ ∀ d ∈ digits (content.take 63), d = 48 := by
    rw [strtoull16_eq_zero, hexOf_eq_zero]
    intro d hd
    exact List.mem_takeWhile_imp hd
  constructor
  · intro h
    by_cases hz : (strtoull16 (content.take 63)).1 = 0
    · exact .inl (hzero.mp hz)
    · have hread := readNetworkIdSwitch_window content
      rw [if_neg hz] at hread
      obtain ⟨hid, hv⟩ := h _ hread
      refine .inr ⟨hid, ?_⟩
      by_contra hlen
      have := read_cut hid (Nat.lt_of_not_le hlen) hread
      omega
  · intro h v hv
    rcases h with hz | ⟨hid, hlen⟩
    · rw [readNetworkIdSwitch_window, if_pos (hzero.mpr hz)] at hv
      cases hv
    · exact ⟨hid, read_whole hid hlen hv⟩

/-- Text behind the id goes unnoticed. -/
theorem trailing_text_accepted : ¬ ReadExactly (ascii "8056c2e21c00000l") := by
  intro h
  have hread : readNetworkIdSwitch (some (ascii "8056c2e21c00000l")) = some 0x8056c2e21c00000 := by
    decide
  have hid := (h _ hread).1
  revert hid
  decide

end SwitchLdnZt.Proofs.NetworkId
