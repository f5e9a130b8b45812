import SwitchLdnZt.Proofs.FunctionSpan
import SwitchLdnZt.Scripts.LwipSteps

namespace SwitchLdnZt.Proofs.ThreadCall
open Library Preprocess Scripts LwipThread FunctionSpan

def switchAttr : Text := text "&switch_attr"

theorem threadNew_plain : Plainly threadNewPattern := by unfold Plainly; decide
theorem create_plain : Plainly createPattern := by unfold Plainly; decide

theorem threadNew_closed : Closed '\x7b' threadNewPattern := .of_all (by decide)

theorem create_closed : Closed ',' createPattern := .of_all (by decide)

theorem introduce_begins : Begins [text "static"] introducePattern :=
  List.forall_mem_singleton.mpr ⟨_, List.mem_cons_self, _, rfl⟩

theorem threadNew_begins : Begins [text "sys_thread_t"] threadNewPattern :=
  List.forall_mem_singleton.mpr ⟨_, List.mem_cons_self, _, rfl⟩

theorem create_begins : Begins [text "pthread_create"] createPattern :=
  List.forall_mem_singleton.mpr ⟨_, List.mem_cons_self, _, rfl⟩

/-- What is put in without a word of the script's in it, its parentheses closed. -/
structure Quiet (x : Text) : Prop where
  introduce : Opaque introducePattern x
  threadNew : Opaque threadNewPattern x
  create : Opaque createPattern x
  attr : Apart switchAttr x
  level : ∀ n, Library.level '(' ')' n x = some n
  ends : ';' ∈ x

def quiet (x : Text) : Bool :=
  [text "static", text "sys_thread_t", text "pthread_create", switchAttr].all (apart · x) &&
    x.contains ';' && (x.takeWhile (· ≠ ';')).all (fun c => c ≠ '\x7b' && c ≠ ',') &&
    level '(' ')' 0 x == some 0

theorem Quiet.of_check {x : Text} (h : quiet x = true) : Quiet x := by
  simp only [quiet, Bool.and_eq_true, List.all_cons, List.all_nil, Bool.and_true,
    List.contains_iff_mem, List.all_eq_true, decide_eq_true_eq, beq_iff_eq] at h
  obtain ⟨⟨⟨⟨hstatic, hthread, hcreate, hattr⟩, hends⟩, hfront⟩, hlevel⟩ := h
  have hbrace : '\x7b' ∉ x.takeWhile (· ≠ ';') := fun hm => (hfront _ hm).1 rfl
  have hcomma : ',' ∉ x.takeWhile (· ≠ ';') := fun hm => (hfront _ hm).2 rfl
  refine ⟨?_, ?_, ?_, .of_apart hattr, ?_, hends⟩
  · exact .of_until introduce_ends introduce_begins (List.forall_mem_singleton.mpr hstatic) hends
      hbrace (by decide)
  · exact .of_until threadNew_closed threadNew_begins (List.forall_mem_singleton.mpr hthread) hends
      hbrace (by decide)
  · exact .of_until create_closed create_begins (List.forall_mem_singleton.mpr hcreate) hends
      hcomma (by decide)
  · intro n
    simpa using level_add hlevel n

/-- A place behind a brace or a semicolon. -/
def Ended (p : Text) : Prop := p.getLast? = some '\x7b' ∨ p.getLast? = some ';'

theorem Ended.suffix {a p : Text} (h : Ended (a ++ p)) (hp : p ≠ []) : Ended p := by
  rwa [Ended, List.getLast?_append_of_ne_nil _ hp] at h

theorem Ended.mem {p : Text} (h : Ended p) : '\x7b' ∈ p ∨ ';' ∈ p := by
  rcases h with h | h
  · exact .inl (List.mem_of_getLast? h)
  · exact .inr (List.mem_of_getLast? h)

/-- The text `b ++ m ++ (pre ++ k ++ (args ++ z))` has the head of `sys_thread_new`
first in `m`, and behind it first in `k ++ args` its call of `pthread_create`. -/
structure Called (b m pre k args z : Text) : Prop where
  header : First threadNewPattern (b ++ m ++ (pre ++ k ++ (args ++ z))) b m
    (pre ++ k ++ (args ++ z))
  call : First createPattern (pre ++ k ++ (args ++ z)) pre k (args ++ z)
  closed : closing '(' ')' 1 args = some (args, [])

variable {b m pre k args z : Text} {kept : Bool}

theorem Called.behind (h : Called b m pre k args z) (z' : Text) : Called b m pre k args z' :=
  ⟨h.header.behind threadNew_closed _, h.call.behind create_closed _, h.closed⟩

theorem Called.unique {b' m' pre' k' args' z' : Text} (h : Called b m pre k args z)
    (h' : Called b' m' pre' k' args' z')
    (htext : b ++ m ++ (pre ++ k ++ (args ++ z)) = b' ++ m' ++ (pre' ++ k' ++ (args' ++ z'))) :
    b = b' ∧ m = m' ∧ pre = pre' ∧ k = k' ∧ args = args' ∧ z = z' := by
  have hheader := h.header
  rw [htext] at hheader
  obtain ⟨rfl, rfl, hrest⟩ := hheader.unique threadNew_closed h'.header
  have hcall := h.call
  rw [hrest] at hcall
  obtain ⟨rfl, rfl, hargs⟩ := hcall.unique create_closed h'.call
  have hclosed := closing_behind h.closed z
  rw [hargs, closing_behind h'.closed z'] at hclosed
  cases hclosed
  exact ⟨rfl, rfl, rfl, rfl, rfl, rfl⟩

/-- A place behind a brace or a semicolon is not within the head. -/
theorem threadNew_not_within {m₁ m₂ : Text} (h : Hits threadNewPattern (m₁ ++ m₂)) (h₁ : m₁ ≠ [])
    (h₂ : m₂ ≠ []) (b : Text) : ¬ Ended (b ++ m₁) := by
  rintro (hlast | hlast)
  · exact (threadNew_closed.not_within h h₁ h₂ b hlast).1 rfl
  · exact (threadNew_closed.not_within h h₁ h₂ b hlast).2 (by decide)

theorem behind_ne {a t : Text} (h : a.length < (a ++ t).length) : t ≠ [] := by
  intro h0
  rw [h0, List.append_nil] at h
  exact Nat.lt_irrefl _ h

/-- Nor is it within the first words of the call, and no other call begins there. -/
theorem create_whole {k k₁ k₂ : Text} (h : Hits createPattern k) (hk : k = k₁ ++ k₂)
    (h₁ : k₁ ≠ []) (h₂ : k₂ ≠ []) :
    (∀ a, ¬ Ended (a ++ k₁)) ∧ ∀ q, ¬ introduceCall <+: k₂ ++ q := by
  have hno {c : Char} (hc : ∀ is ∈ createPattern, ∀ i ∈ is, Item.takes i c = false) : c ∉ k :=
    not_mem_hit hc h
  constructor
  · intro a hstop
    rcases (hstop.suffix h₁).mem with hin | hin
    · exact hno (by decide) (hk ▸ List.mem_append_left _ hin)
    · exact hno (by decide) (hk ▸ List.mem_append_left _ hin)
  · intro q hahead
    obtain ⟨c, k₃, rfl⟩ := List.exists_cons_of_ne_nil h₂
    have hcall : introduceCall = 's' :: text "t = introduce_thread(" := rfl
    rw [hcall, List.cons_append, List.cons_prefix_cons] at hahead
    apply hno (c := 's') (by decide)
    rw [hk, ← hahead.1]
    simp

/-- A text put in before the end of the call moves the call or is in its arguments. -/
theorem Called.insert (h : Called b m pre k args z) {x p q : Text} (hx : Quiet x)
    (hpq : b ++ m ++ (pre ++ k ++ args) = p ++ q) (hq : q ≠ [])
    (hplace : Ended p ∨ introduceCall <+: q ++ z ∧ (b ++ m ++ pre).length ≤ p.length) :
    ∃ b' pre' args', Called b' m pre' k args' z ∧
      b' ++ m ++ (pre' ++ k ++ args') = p ++ x ++ q ∧
      ((b ++ m ++ pre).length < p.length → b' = b ∧ pre' = pre) ∧
      (args' = args ∨ ∃ a₁ a₂, args = a₁ ++ a₂ ∧ args' = a₁ ++ x ++ a₂ ∧
        p = b ++ m ++ (pre ++ k ++ a₁) ∧ q = a₂) := by
  obtain ⟨header, call, closed⟩ := id h
  rw [List.append_assoc] at hpq
  rcases Nat.lt_or_ge b.length p.length with hlt | hle
  case inr =>
    -- before the head
    obtain ⟨t, rfl, rfl⟩ := append_split hpq hle
    have htext : p ++ t ++ m ++ (pre ++ k ++ (args ++ z)) =
        p ++ (t ++ (m ++ (pre ++ k ++ (args ++ z)))) := by simp
    rw [htext] at header
    obtain ⟨t', ht', -, hfirst⟩ := header.insert_before hx.threadNew threadNew_closed hle
    obtain rfl := List.append_cancel_left ht'
    refine ⟨p ++ x ++ t, pre, args, ⟨?_, call, closed⟩, by simp, ?_, .inl rfl⟩
    · simpa using hfirst
    · intro hlate
      simp only [List.length_append] at hlate
      omega
  obtain ⟨p₁, rfl, hpq₁⟩ := append_split hpq.symm (Nat.le_of_lt hlt)
  have hne₁ : p₁ ≠ [] := behind_ne hlt
  rcases Nat.lt_or_ge p₁.length m.length with hlt₁ | hle₁
  · -- not within it
    obtain ⟨m₂, hm, -⟩ := append_split hpq₁ (Nat.le_of_lt hlt₁)
    rw [hm] at hlt₁
    rcases hplace with hstop | ⟨-, hlate⟩
    · exact absurd hstop (threadNew_not_within (hm ▸ header.hit) hne₁ (behind_ne hlt₁) b)
    · simp only [hm, List.length_append] at hlate hlt₁
      omega
  obtain ⟨p₂, rfl, hpq₂⟩ := append_split hpq₁.symm hle₁
  rw [List.append_assoc] at hpq₂
  rcases Nat.lt_or_ge pre.length p₂.length with hlt₂ | hle₂
  case inr =>
    -- between the head and the call
    obtain ⟨t, rfl, rfl⟩ := append_split hpq₂ hle₂
    have htext : p₂ ++ t ++ k ++ (args ++ z) = p₂ ++ (t ++ (k ++ (args ++ z))) := by simp
    rw [htext] at call
    obtain ⟨t', ht', -, hfirst⟩ := call.insert_before hx.create create_closed hle₂
    obtain rfl := List.append_cancel_left ht'
    refine ⟨b, p₂ ++ x ++ t, args, ⟨header.behind threadNew_closed _, ?_, closed⟩, by simp, ?_,
      .inl rfl⟩
    · simpa using hfirst
    · intro hlate
      simp only [List.length_append] at hlate
      omega
  obtain ⟨p₃, rfl, hpq₃⟩ := append_split hpq₂.symm (Nat.le_of_lt hlt₂)
  have hne₃ : p₃ ≠ [] := behind_ne hlt₂
  rcases Nat.lt_or_ge p₃.length k.length with hlt₃ | hle₃
  · -- not within the first words of the call
    obtain ⟨k₂, hk, rfl⟩ := append_split hpq₃ (Nat.le_of_lt hlt₃)
    rw [hk] at hlt₃
    obtain ⟨hstop, hahead⟩ := create_whole call.hit hk hne₃ (behind_ne hlt₃)
    rcases hplace with h | ⟨h, -⟩
    · rw [← List.append_assoc, ← List.append_assoc] at h
      exact absurd h (hstop _)
    · rw [List.append_assoc] at h
      exact absurd h (hahead _)
  obtain ⟨a₁, rfl, rfl⟩ := append_split hpq₃.symm hle₃
  refine ⟨b, pre, a₁ ++ x ++ q, ⟨header.behind threadNew_closed _, call.behind create_closed _, ?_⟩,
    by simp, fun _ => ⟨rfl, rfl⟩, .inr ⟨a₁, q, rfl, rfl, by simp, rfl⟩⟩
  exact closing_insert hx.level hq closed

/-- The call with its semicolon has a stack size, and begins at `i`. -/
def Created (i : Nat) (s : Text) : Prop :=
  ∃ b m pre k args gap z, s = b ++ m ++ (pre ++ k ++ (args ++ (gap ++ ';' :: z))) ∧
    Called b m pre k args (gap ++ ';' :: z) ∧ ';' ∉ gap ∧
    occurs switchAttr (k ++ (args ++ gap)) = true ∧ (b ++ m ++ pre).length = i

/-- The text ends between the call and its semicolon. Where what is to stand behind that
is `kept` already, this counts only without a stack size so far. -/
def Severed (kept : Bool) (s : Text) : Prop :=
  ∃ b m pre k args gap, s = b ++ m ++ (pre ++ k ++ (args ++ gap)) ∧ Called b m pre k args gap ∧
    ';' ∉ gap ∧ (kept && occurs switchAttr (k ++ (args ++ gap))) = false

/-- Something is put in at a place that the script goes by. -/
structure Put (x p q : Text) : Prop where
  quiet : Quiet x
  place : Ended p ∨ introduceCall <+: q

theorem Put.whole {x p q w : Text} (h : Put x p q) (hbrace : '\x7b' ∉ w) (hsemi : ';' ∉ w)
    (hcall : apart w introduceCall = true) : Whole w p q := by
  rcases h.place with (hlast | hlast) | hahead
  · exact .of_last hlast hbrace q
  · exact .of_last hlast hsemi q
  · exact .of_ahead hahead (.of_apart hcall)

theorem Put.attr {x p q : Text} (h : Put x p q) : Whole switchAttr p q :=
  h.whole (by decide) (by decide) (by decide)

theorem Created.put {i : Nat} {x p q : Text} (h : Created i (p ++ q)) (hput : Put x p q)
    (hlate : Ended p ∨ i ≤ p.length) (hsev : ¬ Severed kept p) :
    ∃ j, Created j (p ++ x ++ q) ∧ (i < p.length → j = i) := by
  obtain ⟨b, m, pre, k, args, gap, z, hs, hcall, hgap, hattr, rfl⟩ := h
  have hwhole : p ++ q = b ++ m ++ (pre ++ k ++ args) ++ (gap ++ ';' :: z) := by
    rw [hs]
    simp
  rcases Nat.lt_or_ge p.length (b ++ m ++ (pre ++ k ++ args)).length with hlt | hge
  · -- before the end of the call
    obtain ⟨q₁, hq₁, rfl⟩ := append_split hwhole.symm (Nat.le_of_lt hlt)
    have hne : q₁ ≠ [] := by
      rw [hq₁] at hlt
      exact behind_ne hlt
    have hplace : Ended p ∨
        introduceCall <+: q₁ ++ (gap ++ ';' :: z) ∧ (b ++ m ++ pre).length ≤ p.length := by
      rcases hlate with hstop | hlate
      · exact .inl hstop
      · rcases hput.place with hstop | hahead
        · exact .inl hstop
        · exact .inr ⟨hahead, hlate⟩
    obtain ⟨b', pre', args', hcall', htext, hlast, hargs⟩ :=
      hcall.insert hput.quiet hq₁ hne hplace
    refine ⟨_, ⟨b', m, pre', k, args', gap, z, ?_, hcall', hgap, ?_, rfl⟩, ?_⟩
    · rw [← List.append_assoc (p ++ x), ← htext]
      simp
    · rcases hargs with rfl | ⟨a₁, a₂, rfl, rfl, rfl, rfl⟩
      · exact hattr
      · have hpart : Whole switchAttr (k ++ a₁) (q₁ ++ gap) :=
          hput.attr.mono ⟨b ++ m ++ pre, by simp⟩ ⟨';' :: z, by simp⟩
        have hocc := hpart.occurs (by simpa using hattr) x
        simpa using hocc
    · intro hi
      obtain ⟨rfl, rfl⟩ := hlast hi
      rfl
  · obtain ⟨g, rfl, hg⟩ := append_split hwhole hge
    rcases Nat.lt_or_ge gap.length g.length with hlt | hle
    · -- behind it
      obtain ⟨t, rfl, hz⟩ := append_split hg.symm (Nat.le_of_lt hlt)
      obtain ⟨c, t, rfl⟩ := List.exists_cons_of_ne_nil (behind_ne hlt)
      rw [List.cons_append, List.cons.injEq] at hz
      obtain ⟨rfl, rfl⟩ := hz
      exact ⟨_, ⟨b, m, pre, k, args, gap, t ++ x ++ q, by simp, hcall.behind _, hgap, hattr, rfl⟩,
        fun _ => rfl⟩
    · -- between the call and its semicolon
      obtain ⟨g', rfl, rfl⟩ := append_split hg hle
      obtain ⟨x₁, x₂, hx, hx₁⟩ := List.eq_append_cons_of_mem hput.quiet.ends
      have hg₁ : ';' ∉ g := fun hm => hgap (List.mem_append_left _ hm)
      have hocc : occurs switchAttr (k ++ (args ++ g)) = true := by
        by_contra hno
        apply hsev
        refine ⟨b, m, pre, k, args, g, by simp, hcall.behind g, hg₁, ?_⟩
        rw [Bool.eq_false_iff.mpr hno, Bool.and_false]
      refine ⟨_, ⟨b, m, pre, k, args, g ++ x₁, x₂ ++ (g' ++ ';' :: z), ?_, hcall.behind _, ?_, ?_,
        rfl⟩, fun _ => rfl⟩
      · rw [hx]
        simp
      · simp [hg₁, hx₁]
      · have hmore := occurs_append hocc [] x₁
        simpa using hmore

theorem upTo_first {pat : Pattern} (hp : Plainly pat) {s head tail : Text}
    (h : upTo pat s = some (head, tail)) : ∃ b m, head = b ++ m ∧ First pat s b m tail := by
  obtain ⟨⟨b, segs, rest⟩, hs, he⟩ := Option.map_eq_some_iff.mp h
  cases he
  exact ⟨b, segs.flatten, rfl, search_first hp hs⟩

theorem first_upTo {pat : Pattern} (hp : Plainly pat) {c : Char} (hc : Closed c pat)
    {s b m a : Text} (h : First pat s b m a) : upTo pat s = some (b ++ m, a) := by
  obtain ⟨segs, hs, rfl⟩ := h.search hp hc
  rw [upTo, hs]
  rfl

/-- The first words of the call have one parenthesis. -/
theorem create_words {k : Text} (h : Hits createPattern k) :
    ∃ k₁ k₂, k = k₁ ++ '(' :: k₂ ∧ '(' ∉ k₁ ∧ '(' ∉ k₂ ∧ ')' ∉ k₂ := by
  obtain ⟨is, his, segs, hf, rfl⟩ := h
  obtain rfl := List.mem_singleton.mp his
  have hsplit : lits "pthread_create" ++ ws ++ lits "(" ++ ws ++ lits "&tmp" ++ ws ++ lits "," =
      (lits "pthread_create" ++ ws) ++ (lits "(" ++ (ws ++ lits "&tmp" ++ ws ++ lits ",")) := by
    simp
  rw [hsplit] at hf
  obtain ⟨us, vs, rfl, hu, hv⟩ := hf.append
  obtain ⟨ps, qs, rfl, hp, hq⟩ := hv.append
  have hparen : ps.flatten = text "(" := Fits.lits hp
  refine ⟨us.flatten, qs.flatten, ?_, hu.not_mem (by decide), hq.not_mem (by decide),
    hq.not_mem (by decide)⟩
  rw [List.flatten_append, List.flatten_append, hparen]
  rfl

/-- The loop that looks for the call's end begins at its first words. -/
theorem closeFrom_call {k : Text} (h : Hits createPattern k) (u z : Text) :
    closeFrom '(' ')' (u ++ (k ++ z)) (find (text "(") (u ++ (k ++ z)) (u.length : Nat)) =
      (closing '(' ')' 1 z).map (fun m => (u ++ (k ++ m.1)).length - 1) := by
  obtain ⟨k₁, k₂, rfl, h₁, h₂, h₃⟩ := create_words h
  have hparen : text "(" = ['('] := rfl
  have hcut : cut ['('] (k₁ ++ '(' :: k₂ ++ z) = some (k₁, k₂ ++ z) := by
    rw [List.append_assoc]
    exact cut_char h₁ _
  have hdrop : (u ++ (k₁ ++ '(' :: k₂ ++ z)).drop (u.length + k₁.length) = '(' :: (k₂ ++ z) := by
    have hsplit : u ++ (k₁ ++ '(' :: k₂ ++ z) = u ++ k₁ ++ '(' :: (k₂ ++ z) := by simp
    rw [hsplit, ← List.length_append, List.drop_left]
  have hone : ((0 : Int) + 1) = ((1 : Nat) : Int) := rfl
  rw [find_from, hparen, hcut]
  dsimp only
  rw [closeFrom, if_pos (Int.natCast_nonneg _), Int.toNat_natCast, hdrop, closeLoop, if_pos rfl,
    hone, closeLoop_eq (Nat.le_refl 1), closing_append h₂ h₃, Option.map_map]
  congr 1
  funext m
  simp only [Function.comp_apply, List.length_append, List.length_cons]
  omega

theorem Called.start (h : Called b m pre k args z) :
    threadNewStart (b ++ m ++ (pre ++ k ++ (args ++ z))) = .ok (b ++ m).length := by
  rw [threadNewStart, first_upTo threadNew_plain threadNew_closed h.header]

theorem Called.pos (h : Called b m pre k args z) :
    createPos (b ++ m ++ (pre ++ k ++ (args ++ z))) (b ++ m).length =
      ((b ++ m ++ pre).length : Nat) := by
  obtain ⟨segs, hs, -⟩ := h.call.search create_plain create_closed
  rw [createPos, List.drop_left, hs]
  simp [Int.add_assoc]

theorem Called.close (h : Called b m pre k args z) :
    closeFrom '(' ')' (b ++ m ++ (pre ++ k ++ (args ++ z)))
      (find (text "(") (b ++ m ++ (pre ++ k ++ (args ++ z))) ((b ++ m ++ pre).length : Nat)) =
      some ((b ++ m ++ (pre ++ k ++ args)).length - 1) := by
  have htext : b ++ m ++ (pre ++ k ++ (args ++ z)) = b ++ m ++ pre ++ (k ++ (args ++ z)) := by simp
  rw [htext, closeFrom_call h.call.hit, closing_behind h.closed, Option.map_some]
  simp

theorem Called.semi (h : Called b m pre k args z) :
    find (text ";") (b ++ m ++ (pre ++ k ++ (args ++ z)))
      (((b ++ m ++ (pre ++ k ++ args)).length - 1 : Nat) : Int) =
      match cut [';'] z with
      | some (gap, _) => (((b ++ m ++ (pre ++ k ++ (args ++ gap))).length : Nat) : Int)
      | none => -1 := by
  obtain ⟨a₀, rfl⟩ := closing_last h.closed
  have htext : b ++ m ++ (pre ++ k ++ (a₀ ++ [')'] ++ z)) =
      b ++ m ++ (pre ++ k ++ a₀) ++ (')' :: z) := by simp
  have hlen : (b ++ m ++ (pre ++ k ++ (a₀ ++ [')']))).length - 1 =
      (b ++ m ++ (pre ++ k ++ a₀)).length := by
    simp only [List.length_append, List.length_singleton]
    omega
  have hcut : cut [';'] (')' :: z) = (cut [';'] z).map (fun m => (')' :: m.1, m.2)) := by
    rw [cut, if_neg (by simp)]
  have hsemi : text ";" = [';'] := rfl
  rw [htext, hlen, find_from, hsemi, hcut]
  cases cut [';'] z with
  | none => rfl
  | some c =>
    simp only [Option.map_some, List.length_append, List.length_cons, List.length_nil]
    congr 1
    omega

/-- What the script finds is such a call. -/
theorem called_of {s : Text} {e j : Nat} (he : threadNewStart s = .ok e)
    (hpos : ¬ createPos s e < 0)
    (hj : closeFrom '(' ')' s (find (text "(") s (createPos s e)) = some j) :
    ∃ b m pre k args z, s = b ++ m ++ (pre ++ k ++ (args ++ z)) ∧ Called b m pre k args z ∧
      (b ++ m).length = e := by
  unfold threadNewStart at he
  split at he
  · cases he
  next head tail hup =>
    cases he
    obtain ⟨b, m, rfl, hfirst⟩ := upTo_first threadNew_plain hup
    have hs := hfirst.text
    subst hs
    unfold createPos at hpos hj
    rw [List.drop_left] at hpos hj
    split at hpos
    next pre c hsearch =>
      obtain ⟨segs, z⟩ := c
      have hcall := search_first create_plain hsearch
      obtain rfl := hcall.text
      rw [hsearch] at hj
      have htext : b ++ m ++ (pre ++ segs.flatten ++ z) =
          b ++ m ++ pre ++ (segs.flatten ++ z) := by simp
      have hcast : ((b ++ m).length : Int) + pre.length = ((b ++ m ++ pre).length : Nat) := by
        simp [Int.add_assoc]
      dsimp only at hj
      rw [hcast, htext, closeFrom_call hcall.hit] at hj
      obtain ⟨⟨args, z'⟩, hclose, -⟩ := Option.map_eq_some_iff.mp hj
      obtain ⟨rfl, hclosed⟩ := closing_text hclose
      exact ⟨b, m, pre, segs.flatten, args, z', rfl, ⟨hfirst, hcall, hclosed⟩, rfl⟩
    next => exact absurd (by decide) hpos

/-- Whether a text breaks off between the call and its semicolon, or if that counts
only without `&switch_attr` so far, by what the script itself looks for. -/
def severs (kept : Bool) (head : Text) : Bool :=
  match threadNewStart head with
  | .error _ => false
  | .ok fnStart =>
    let pos := createPos head fnStart
    if pos < 0 then false
    else match closeFrom '(' ')' head (find (text "(") head pos) with
      | none => false
      | some closeParen =>
        find (text ";") head closeParen < 0 &&
          !(kept && occurs switchAttr (head.drop pos.toNat))

theorem cut_char_none {c : Char} {s : Text} (h : c ∉ s) : cut [c] s = none := by
  cases hs : cut [c] s with
  | none => rfl
  | some m =>
    obtain ⟨rfl, -⟩ := cut_char_spec (u := m.1) (v := m.2) hs
    exact absurd (by simp) h

theorem Severed.severs {s : Text} (h : Severed kept s) : severs kept s = true := by
  obtain ⟨b, m, pre, k, args, gap, rfl, hcall, hgap, hattr⟩ := h
  have hpos := hcall.pos
  have hdrop : (b ++ m ++ (pre ++ k ++ (args ++ gap))).drop (b ++ m ++ pre).length =
      k ++ (args ++ gap) := by
    have htext : b ++ m ++ (pre ++ k ++ (args ++ gap)) =
        b ++ m ++ pre ++ (k ++ (args ++ gap)) := by simp
    rw [htext, List.drop_left]
  rw [ThreadCall.severs, hcall.start]
  dsimp only
  rw [hpos, if_neg (by omega), hcall.close]
  dsimp only
  rw [hcall.semi, cut_char_none hgap, Int.toNat_natCast, hdrop, hattr]
  rfl

/-- A call with a stack size is left alone. -/
theorem Called.fixStack {gap : Text} (h : Called b m pre k args (gap ++ ';' :: z))
    (hgap : ';' ∉ gap) (hattr : occurs switchAttr (k ++ (args ++ gap)) = true)
    (l : List Insertion) :
    fixStack ⟨b ++ m ++ (pre ++ k ++ (args ++ (gap ++ ';' :: z))), l⟩ =
      .ok (⟨b ++ m ++ (pre ++ k ++ (args ++ (gap ++ ';' :: z))), l⟩, (b ++ m ++ pre).length,
        (b ++ m ++ (pre ++ k ++ (args ++ gap))).length) := by
  have hsemi := h.semi
  rw [cut_char hgap] at hsemi
  dsimp only at hsemi
  rw [LwipThread.fixStack]
  refine bind_ok.mpr ⟨_, h.start, ?_⟩
  dsimp only
  rw [h.pos, if_neg (by omega), h.close]
  dsimp only
  rw [hsemi, if_neg (Int.not_lt.mpr (Int.natCast_nonneg _)), if_pos ?_]
  · rfl
  · have hslice := slice_middle (b ++ m ++ pre) (k ++ (args ++ gap) ++ [';']) z
    have htext : b ++ m ++ pre ++ (k ++ (args ++ gap) ++ [';']) ++ z =
        b ++ m ++ (pre ++ k ++ (args ++ (gap ++ ';' :: z))) := by simp
    have hlen : ((b ++ m ++ pre ++ (k ++ (args ++ gap) ++ [';'])).length : Int) =
        ((b ++ m ++ (pre ++ k ++ (args ++ gap))).length : Nat) + 1 := by
      simp only [List.length_append, List.length_singleton]
      omega
    rw [htext, hlen] at hslice
    rw [hslice]
    exact occurs_append hattr [] [';']

theorem Created.fixStack {i : Nat} {s : Text} (h : Created i s) (l : List Insertion) :
    ∃ semi, fixStack ⟨s, l⟩ = .ok (⟨s, l⟩, i, semi) := by
  obtain ⟨b, m, pre, k, args, gap, z, rfl, hcall, hgap, hattr, rfl⟩ := h
  exact ⟨_, hcall.fixStack hgap hattr l⟩

/-- What the script puts in behind a semicolon that it found. -/
theorem semi_take {s : Text} {start semi : Int} (h : find (text ";") s start = semi)
    (h0 : 0 ≤ semi) : (s.take (semi + 1).toNat).getLast? = some ';' ∧
      (s.take (semi + 1).toNat).length = (semi + 1).toNat := by
  obtain ⟨u, v, -, rfl, htake⟩ := find_take (by decide) h h0
  have hone : ((text ";").length : Int) = 1 := rfl
  rw [hone] at htake
  rw [htake]
  refine ⟨List.getLast?_concat, ?_⟩
  rw [List.length_append]
  rfl

/-- The lines put before the statement, up to the new call, in it and behind it. -/
def fixHead : Text := rows (ifdef switch :: stackFix.take 3) ++ text "  code = "
def fixWords : Text := text "pthread_create(&tmp,"
def fixArgs : Text := text " &switch_attr, thread_wrapper, thread_data)"
def fixTail : Text := text "\n" ++ rows (stackFix.drop 4 ++ [text "#else"])

theorem fix_parts : rows (ifdef switch :: (stackFix ++ [text "#else"])) =
    fixHead ++ (fixWords ++ (fixArgs ++ ';' :: fixTail)) := by decide +kernel

theorem fixWords_hit : Hits createPattern fixWords := hits_of_search (by decide)

theorem fixHead_opaque : Opaque createPattern fixHead :=
  .of_until create_closed create_begins (d := ';') (by decide +kernel) (by decide)
    (by decide) (by decide)

/-- With the new statement before it the call is the new one. -/
theorem Called.fixed {pre₁ pre₂ : Text} (h : Called b m (pre₁ ++ pre₂) k args z) (z' : Text) :
    Called b m (pre₁ ++ fixHead) fixWords fixArgs z' := by
  have hcall := h.call
  rw [List.append_assoc, List.append_assoc] at hcall
  refine ⟨h.header.behind threadNew_closed _, ?_, by decide⟩
  exact hcall.put_before fixHead_opaque create_closed (by simp) fixWords_hit _

/-- Behind a semicolon the call is not cut off from its own. -/
theorem Severed.last {s : Text} (h : Severed kept s) : s.getLast? ≠ some ';' := by
  obtain ⟨b, m, pre, k, args, gap, rfl, hcall, hgap, -⟩ := h
  intro hlast
  rw [← List.append_assoc, ← List.append_assoc, ← List.append_assoc] at hlast
  rcases List.eq_nil_or_concat gap with rfl | ⟨g, c, rfl⟩
  · obtain ⟨a₀, rfl⟩ := closing_last hcall.closed
    rw [List.append_nil, ← List.append_assoc, List.getLast?_concat] at hlast
    exact absurd hlast (by decide)
  · rw [List.concat_eq_append, ← List.append_assoc, List.getLast?_concat] at hlast
    cases hlast
    exact hgap (by simp)

theorem Created.at {i : Nat} {s : Text} (h : Created i s) (hcall : Called b m pre k args z)
    (hs : s = b ++ m ++ (pre ++ k ++ (args ++ z))) : i = (b ++ m ++ pre).length := by
  obtain ⟨b', m', pre', k', args', gap, z', rfl, hcall', -, -, rfl⟩ := h
  obtain ⟨rfl, rfl, rfl, -⟩ := hcall'.unique hcall hs
  rfl

/-- What is put in before a semicolon, or else not between the two itself, comes before
the call or in its arguments. -/
theorem Severed.put {x p q : Text} (h : Severed kept (p ++ q)) (hput : Put x p q)
    (hlate : Ended p ∨ ∃ i t, Created i (p ++ q ++ t) ∧ i ≤ p.length)
    (hout : ';' ∈ q ∨ ¬ Severed kept p) : Severed kept (p ++ x ++ q) := by
  obtain ⟨b, m, pre, k, args, gap, hs, hcall, hgap, hattr⟩ := h
  have hwhole : p ++ q = b ++ m ++ (pre ++ k ++ args) ++ gap := by
    rw [hs]
    simp
  rcases Nat.lt_or_ge p.length (b ++ m ++ (pre ++ k ++ args)).length with hlt | hge
  · obtain ⟨q₁, hq₁, rfl⟩ := append_split hwhole.symm (Nat.le_of_lt hlt)
    have hne : q₁ ≠ [] := by
      rw [hq₁] at hlt
      exact behind_ne hlt
    have hplace : Ended p ∨
        introduceCall <+: q₁ ++ gap ∧ (b ++ m ++ pre).length ≤ p.length := by
      rcases hlate with hstop | ⟨i, t, hc, hlate⟩
      · exact .inl hstop
      · have hi := hc.at (hcall.behind (gap ++ t)) (by rw [hs]; simp)
        exact hput.place.imp_right (fun hahead => ⟨hahead, hi ▸ hlate⟩)
    obtain ⟨b', pre', args', hcall', htext, -, hargs⟩ := hcall.insert hput.quiet hq₁ hne hplace
    refine ⟨b', m, pre', k, args', gap, ?_, hcall', hgap, ?_⟩
    · rw [← List.append_assoc (p ++ x), ← htext]
      simp
    · rcases hargs with rfl | ⟨a₁, a₂, rfl, rfl, -, -⟩
      · exact hattr
      · rw [Bool.and_eq_false_iff] at hattr ⊢
        refine hattr.imp_right (fun hattr => ?_)
        have hocc := hput.quiet.attr.absent (p := k ++ a₁) (q := a₂ ++ gap) (by simpa using hattr)
        simpa using hocc
  · obtain ⟨g, rfl, rfl⟩ := append_split hwhole hge
    rcases hout with hq | hno
    · exact absurd (List.mem_append_right g hq) hgap
    · refine absurd ⟨b, m, pre, k, args, g, by simp, hcall.behind g, ?_, ?_⟩ hno
      · exact fun hm => hgap (List.mem_append_left q hm)
      · rw [Bool.and_eq_false_iff] at hattr ⊢
        refine hattr.imp_right (fun hattr => Bool.eq_false_iff.mpr (fun hocc => ?_))
        have hmore := occurs_append hocc [] q
        simp [hattr] at hmore

/-- The call that is cut off at the end of a text has the next semicolon. -/
theorem Severed.fixStack {i : Nat} {a y z : Text} (h : Severed kept a) (hy : ';' ∉ y)
    (hc : Created i (a ++ (y ++ ';' :: z))) (l : List Insertion) :
    i ≤ a.length ∧ fixStack ⟨a ++ (y ++ ';' :: z), l⟩ =
      .ok (⟨a ++ (y ++ ';' :: z), l⟩, i, (a ++ y).length) := by
  obtain ⟨b, m, pre, k, args, gap, rfl, hcall, hgap, -⟩ := h
  obtain ⟨b', m', pre', k', args', gap', z', hs, hcall', hgap', hattr', rfl⟩ := hc
  have htext : b' ++ m' ++ (pre' ++ k' ++ (args' ++ (gap' ++ ';' :: z'))) =
      b ++ m ++ (pre ++ k ++ (args ++ (gap ++ (y ++ ';' :: z)))) := by
    rw [← hs]
    simp
  obtain ⟨rfl, rfl, rfl, rfl, rfl, hrest⟩ := hcall'.unique (hcall.behind _) htext
  have hgaps : gap' ++ [';'] ++ z' = gap ++ y ++ [';'] ++ z := by simpa using hrest
  have hfree : ';' ∉ gap ++ y := by simp [hgap, hy]
  obtain ⟨rfl, -⟩ := closed_unique hgap' hfree hgaps
  refine ⟨by simp only [List.length_append]; omega, ?_⟩
  have hfix := hcall'.fixStack hgap' hattr' l
  rw [← hs] at hfix
  rw [hfix]
  simp

/-- The call that the script finds has its stack size. -/
theorem created_of_found {s : Text} {fnStart : Nat} {pos semi : Int}
    (h : CallFound s fnStart pos semi)
    (hattr : occurs switchAttr (slice s pos (semi + 1)) = true) :
    ∃ i : Nat, Created i s ∧ pos = i := by
  obtain ⟨closeParen, hclose, hsemi⟩ := h.closed
  have hcreate := h.create
  subst hcreate
  obtain ⟨b, m, pre, k, args, z, rfl, hcall, rfl⟩ :=
    called_of h.start (Int.not_lt.mpr h.found) hclose
  have hpos := hcall.pos
  rw [hpos, hcall.close] at hclose
  cases hclose
  rw [hcall.semi] at hsemi
  cases hcut : cut [';'] z with
  | none =>
    rw [hcut] at hsemi
    dsimp only at hsemi
    have hfound := h.found
    have hends := h.ends
    omega
  | some c =>
    obtain ⟨gap, z⟩ := c
    obtain ⟨rfl, hgap⟩ := cut_char_spec hcut
    rw [hcut] at hsemi
    refine ⟨_, ⟨b, m, pre, k, args, gap, z, rfl, hcall, hgap, ?_, rfl⟩, hpos⟩
    have hslice := slice_middle (b ++ m ++ pre) (k ++ (args ++ gap) ++ [';']) z
    have htext : b ++ m ++ pre ++ (k ++ (args ++ gap) ++ [';']) ++ z =
        b ++ m ++ (pre ++ k ++ (args ++ (gap ++ ';' :: z))) := by simp
    have hlen : ((b ++ m ++ pre ++ (k ++ (args ++ gap) ++ [';'])).length : Int) = semi + 1 := by
      rw [← hsemi]
      simp only [List.length_append, List.length_singleton]
      omega
    rw [htext, hlen, ← hpos] at hslice
    rw [hslice] at hattr
    exact occurs_init hattr (by decide) (by decide)

/-- The new call up to its parenthesis, and from there up to the one that closes it. -/
def callName : Text := text "pthread_create"
def callList : Text := text "(&tmp, &switch_attr, thread_wrapper, thread_data"

theorem call_parts : fixWords ++ fixArgs = callName ++ (callList ++ [')']) := by decide

theorem Called.again {pre₁ r : Text} {pos semi : Int}
    (h : Called b m (pre₁ ++ fixHead) fixWords fixArgs (';' :: r))
    (hagain : CallAgain (b ++ m ++ (pre₁ ++ fixHead ++ fixWords ++ (fixArgs ++ ';' :: r)))
      pos semi) :
    pos = (b ++ m ++ (pre₁ ++ fixHead)).length ∧
      semi = (b ++ m ++ (pre₁ ++ fixHead ++ fixWords ++ fixArgs)).length := by
  obtain ⟨fnStart, hstart, hcreate⟩ := hagain.create
  rw [h.start] at hstart
  cases hstart
  rw [h.pos] at hcreate
  subst hcreate
  refine ⟨rfl, ?_⟩
  have hclosed := hagain.closed
  have hparts : fixWords ++ (fixArgs ++ ';' :: r) =
      callName ++ (callList ++ ')' :: ';' :: r) := by
    have hcall := call_parts
    calc fixWords ++ (fixArgs ++ ';' :: r) = (fixWords ++ fixArgs) ++ ';' :: r := by simp
      _ = callName ++ (callList ++ ')' :: ';' :: r) := by
        rw [hcall]
        simp
  have htext : b ++ m ++ (pre₁ ++ fixHead ++ fixWords ++ (fixArgs ++ ';' :: r)) =
      b ++ m ++ (pre₁ ++ fixHead) ++ (fixWords ++ (fixArgs ++ ';' :: r)) := by simp
  have hcalled : b ++ m ++ (pre₁ ++ fixHead ++ fixWords ++ fixArgs) =
      b ++ m ++ (pre₁ ++ fixHead) ++ (fixWords ++ fixArgs) := by simp
  rw [htext, hparts] at hclosed
  rw [hcalled, call_parts]
  generalize b ++ m ++ (pre₁ ++ fixHead) = u at hclosed ⊢
  have hlist : callList = '(' :: callList.tail := by decide
  have hopen : find (text "(") (u ++ (callName ++ (callList ++ ')' :: ';' :: r))) u.length =
      ((u ++ callName).length : Nat) := by
    rw [hlist]
    exact find_char_at (by decide) u _
  have hclose : find (text ")") (u ++ (callName ++ (callList ++ ')' :: ';' :: r)))
      ((u ++ callName).length : Nat) = ((u ++ callName ++ callList).length : Nat) := by
    rw [← List.append_assoc]
    exact find_char_at (by decide) (u ++ callName) _
  have hsemi : find (text ";") (u ++ (callName ++ (callList ++ ')' :: ';' :: r)))
      ((u ++ callName ++ callList).length : Nat) =
      ((u ++ callName ++ callList ++ [')']).length : Nat) := by
    rw [← List.append_assoc, ← List.append_assoc]
    exact find_char_at (y := [')']) (by decide) (u ++ callName ++ callList) r
  rw [hopen, hclose, hsemi] at hclosed
  rw [← hclosed]
  simp only [List.append_assoc]

/-- A call that is to get its stack size has its line begin behind the function's head. -/
def OwnLine (s : Text) : Prop := ∀ fnStart pos semi, CallFound s fnStart pos semi →
  occurs switchAttr (slice s pos (semi + 1)) = false → fnStart ≤ lineStart s pos.toNat

theorem created_of_fixed {w : Work} {fnStart : Nat} {pos semi pos' semi' : Int}
    (h : CallFound w.text fnStart pos semi) (hline : fnStart ≤ lineStart w.text pos.toNat)
    (hagain : CallAgain (fixedCall w pos semi).text pos' semi') :
    ∃ i : Nat, Created i (fixedCall w pos semi).text ∧ pos' = i ∧
      fixStack (fixedCall w pos semi) = .ok (fixedCall w pos semi, pos', semi') := by
  obtain ⟨closeParen, hclose, -⟩ := h.closed
  have hcreate := h.create
  subst hcreate
  obtain ⟨b, m, pre, k, args, z, htext, hcall, hfn⟩ :=
    called_of h.start (Int.not_lt.mpr h.found) hclose
  have hpos : createPos w.text fnStart = ((b ++ m ++ pre).length : Nat) := by
    rw [htext, ← hfn]
    exact hcall.pos
  have hle := lineStart_le w.text (createPos w.text fnStart).toNat
  obtain ⟨log, hnew⟩ : ∃ log, fixedCall w (createPos w.text fnStart) semi =
      ⟨w.text.take (lineStart w.text (createPos w.text fnStart).toNat) ++
        (rows (ifdef switch :: (stackFix ++ [text "#else"])) ++
          (slice w.text (lineStart w.text (createPos w.text fnStart).toNat) (semi + 1) ++
            '\n' :: (text "#endif" ++ w.text.drop (semi + 1).toNat))), log⟩ := ⟨_, rfl⟩
  rw [hnew] at hagain ⊢
  dsimp only at hagain ⊢
  generalize lineStart w.text (createPos w.text fnStart).toNat = ls at hline hle hagain ⊢
  generalize slice w.text ls (semi + 1) ++ '\n' :: (text "#endif" ++ w.text.drop (semi + 1).toNat)
    = r at hagain ⊢
  rw [hpos, Int.toNat_natCast] at hle
  have hlen : (w.text.take ls).length = ls := by
    rw [List.length_take, htext]
    simp only [List.length_append] at hle ⊢
    omega
  have hsplit := List.take_append_drop ls w.text
  generalize w.text.take ls = u at hlen hsplit hagain ⊢
  rw [htext] at hsplit
  obtain ⟨t, rfl, hrest⟩ := append_split hsplit (by omega)
  have hshort : t.length ≤ pre.length := by
    simp only [List.length_append] at hlen hle
    omega
  rw [List.append_assoc] at hrest
  obtain ⟨t', rfl, -⟩ := append_split hrest hshort
  have hfixed := hcall.fixed (';' :: (fixTail ++ r))
  have hsame : b ++ m ++ t ++ (rows (ifdef switch :: (stackFix ++ [text "#else"])) ++ r) =
      b ++ m ++ (t ++ fixHead ++ fixWords ++ (fixArgs ++ ';' :: (fixTail ++ r))) := by
    rw [fix_parts]
    simp
  rw [hsame] at hagain ⊢
  obtain ⟨rfl, rfl⟩ := hfixed.again hagain
  have hattr : occurs switchAttr (fixWords ++ (fixArgs ++ [])) = true := by decide
  have hnext : Called b m (t ++ fixHead) fixWords fixArgs ([] ++ ';' :: (fixTail ++ r)) := hfixed
  have hfix := hnext.fixStack (by simp) hattr log
  refine ⟨_, ⟨b, m, t ++ fixHead, fixWords, fixArgs, [], fixTail ++ r, rfl, hfixed, by simp, hattr,
    rfl⟩, rfl, ?_⟩
  simpa only [List.nil_append, List.append_nil] using hfix

/-- Once the call has been given its stack size a next search ends there too. -/
theorem fixStack_created {w w' : Work} {pos semi : Int} (h : fixStack w = .ok (w', pos, semi))
    (hline : OwnLine w.text) :
    ∃ i : Nat, Created i w'.text ∧ pos = i ∧ fixStack w' = .ok (w', pos, semi) := by
  obtain ⟨fnStart, at₀, end₀, hcall, ⟨hattr, rfl, rfl, rfl⟩ | ⟨hno, rfl, hagain⟩⟩ :=
    fixStack_cases h
  · obtain ⟨i, hi, hpos⟩ := created_of_found hcall hattr
    exact ⟨i, hi, hpos, h⟩
  · exact created_of_fixed hcall (hline _ _ _ hcall hno) hagain

/-- The semicolon that it finds is the call's. -/
theorem Created.semi {i : Nat} {w w' : Work} {pos semi : Int} (h : Created i w.text)
    (hfix : LwipThread.fixStack w = .ok (w', pos, semi)) :
    ∃ b m pre k args gap z, w.text = b ++ m ++ (pre ++ k ++ (args ++ (gap ++ ';' :: z))) ∧
      Called b m pre k args (gap ++ ';' :: z) ∧ ';' ∉ gap ∧ (b ++ m ++ pre).length = i ∧
      semi = (b ++ m ++ (pre ++ k ++ (args ++ gap))).length := by
  obtain ⟨b, m, pre, k, args, gap, z, hs, hcall, hgap, hattr, hi⟩ := h
  have hfix' := hcall.fixStack hgap hattr w.log
  rw [← hs] at hfix'
  rw [hfix'] at hfix
  cases hfix
  exact ⟨b, m, pre, k, args, gap, z, hs, hcall, hgap, hi, rfl⟩

end SwitchLdnZt.Proofs.ThreadCall
