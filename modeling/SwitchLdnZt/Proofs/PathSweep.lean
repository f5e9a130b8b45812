import SwitchLdnZt.Proofs.PeerTable

namespace SwitchLdnZt.Proofs.PathSweep
open Library App PeerTable

/-- The peers of the table, each with the role that it has there. -/
def entries (t : Peers) : List (UInt64 × Int) :=
  (t.ids.toList.take t.count).zip (t.roles.toList.take t.count)

/-- What the core answers to a turn of the heartbeat. -/
def answer : Beat → Option (Int × Option Bytes)
  | .turn pathCount path => some (pathCount, path)
  | .event _ _ => none

def answers (es : List Beat) : List (Int × Option Bytes) := es.filterMap answer

def lineOf (e : UInt64 × Int) (a : Int × Option Bytes) : Bytes := pathLine e.1 e.2 a.1 a.2

/-- The heartbeat is at its paths. -/
def sweeping (s : Heart) (_ : Beat) : Bool := s.next.isSome

variable {t t' : Peers}

theorem entries_length (h : t.count ≤ 24) : (entries t).length = t.count := by
  rw [entries, List.length_zip, List.length_take, List.length_take, Vector.length_toList,
    Vector.length_toList, Nat.min_self, Nat.min_eq_left h]

theorem entries_get {i : Nat} (hi : i < t.count) {id : UInt64} {role : Int}
    (hid : t.ids[i]? = some id) (hrole : t.roles[i]? = some role) :
    (entries t)[i]? = some (id, role) := by
  rw [entries, List.getElem?_zip_eq_some, List.getElem?_take_of_lt hi, List.getElem?_take_of_lt hi,
    Vector.getElem?_toList, Vector.getElem?_toList]
  exact ⟨hid, hrole⟩

/-- A table that has grown begins with what was in it. -/
theorem entries_grown (hb : t.count ≤ 24) (hb' : t'.count ≤ 24) (h : Grown t t') :
    (entries t').take t.count = entries t := by
  have hcount := h.count
  apply List.ext_getElem?
  intro i
  by_cases hi : i < t.count
  · have hid : t.ids[i]? = some (t.ids[i]) := Vector.getElem?_eq_getElem (by omega)
    have hrole : t.roles[i]? = some (t.roles[i]) := Vector.getElem?_eq_getElem (by omega)
    rw [List.getElem?_take_of_lt hi, entries_get hi hid hrole]
    exact entries_get (by omega) ((h.ids i hi).trans hid) ((h.roles i hi).trans hrole)
  · rw [List.getElem?_eq_none (by rw [List.length_take]; omega),
      List.getElem?_eq_none (by rw [entries_length hb]; omega)]

section Lines
variable {α β γ : Type} (f : α → β → γ)

/-- Only so many of the first list matter as the second has. -/
theorem zipWith_take {l : List α} {as : List β} {n : Nat} (h : as.length ≤ n) :
    List.zipWith f (l.take n) as = List.zipWith f l as := by
  induction as generalizing l n with
  | nil => rw [List.zipWith_nil_right, List.zipWith_nil_right]
  | cons a as ih =>
    cases n with
    | zero => cases h
    | succ n =>
      cases l with
      | nil => rfl
      | cons x l =>
        rw [List.take_succ_cons, List.zipWith_cons_cons, List.zipWith_cons_cons,
          ih (Nat.le_of_succ_le_succ h)]

/-- One more, with its partner. -/
theorem zipWith_concat {l : List α} {as : List β} {x : α} (a : β) (h : l[as.length]? = some x) :
    List.zipWith f l (as ++ [a]) = List.zipWith f l as ++ [f x a] := by
  induction as generalizing l with
  | nil =>
    obtain ⟨l', rfl⟩ := List.head?_eq_some_iff.mp (List.head?_eq_getElem?.trans h)
    rw [List.nil_append, List.zipWith_cons_cons, List.zipWith_nil_right, List.zipWith_nil_right,
      List.nil_append]
  | cons b as ih =>
    cases l with
    | nil => cases h
    | cons y l =>
      rw [List.cons_append, List.zipWith_cons_cons, List.zipWith_cons_cons, ih h, List.cons_append]

/-- What has no partner is left out. -/
theorem zipWith_past {l : List α} {as : List β} (h : l.length ≤ as.length) (bs : List β) :
    List.zipWith f l (as ++ bs) = List.zipWith f l as := by
  have htake := zipWith_take (fun b a => f a b) (l := as ++ bs) h
  rw [List.take_left] at htake
  rw [List.zipWith_comm, ← htake, ← List.zipWith_comm]

end Lines

/-- What a sweep has printed since its start, and where it is. -/
structure Swept (before : List Bytes) (es : List Beat) (s : Heart) : Prop where
  paths : s.paths = before ++ List.zipWith lineOf (entries s.events.peers) (answers es)
  turns : (answers es).length = s.next.getD (s.events.peers.count + 1)
  within : ∀ n ∈ s.next, n ≤ s.events.peers.count

variable {before : List Bytes} {es : List Beat} {s s' : Heart} {seen : List (UInt64 × Int)}

/-- An event on the way may add to the table, behind all that the sweep has been at. -/
theorem event_swept (h : Swept before es s) (hopen : s.next.isSome) (hb : s.events.peers.count ≤ 24)
    (hb' : s'.events.peers.count ≤ 24) (hgrown : Grown s.events.peers s'.events.peers)
    (hnext : s'.next = s.next) (hpaths : s'.paths = s.paths) : Swept before es s' := by
  obtain ⟨n, hn⟩ := Option.isSome_iff_exists.mp hopen
  have hle := h.within n hn
  have hturns : (answers es).length = n := by rw [h.turns, hn, Option.getD_some]
  refine ⟨?_, ?_, ?_⟩
  · rw [hpaths, h.paths, ← entries_grown hb hb' hgrown, zipWith_take lineOf (by omega)]
  · rw [hnext, hn, hturns, Option.getD_some]
  · intro m hm
    rw [hnext] at hm
    exact Nat.le_trans (h.within m hm) hgrown.count

theorem turn_swept (hexact : Exact seen s.events.peers) (h : Swept before es s)
    (hopen : s.next.isSome) {pathCount : Int} {path : Option Bytes}
    (hs : s.step (.turn pathCount path) = some s') :
    Swept before (es ++ [.turn pathCount path]) s' := by
  obtain ⟨n, hn⟩ := Option.isSome_iff_exists.mp hopen
  have hle := h.within n hn
  have hturns : (answers es).length = n := by rw [h.turns, hn, Option.getD_some]
  have hmore : answers (es ++ [.turn pathCount path]) = answers es ++ [(pathCount, path)] :=
    filterMap_snoc answer es _
  rw [Heart.step, hn] at hs
  dsimp only at hs
  by_cases hlt : n < s.events.peers.count
  · obtain ⟨id, role, hid, hrole, -⟩ := hexact.roles n hlt
    rw [if_pos hlt, hid, hrole] at hs
    cases hs
    have hget := entries_get hlt hid hrole
    rw [← hturns] at hget
    refine ⟨?_, ?_, ?_⟩
    · rw [hmore, zipWith_concat lineOf _ hget, ← List.append_assoc, ← h.paths]
      rfl
    · rw [hmore, List.length_append, hturns]
      rfl
    · intro m hm
      cases hm
      exact hlt
  · rw [if_neg hlt] at hs
    cases hs
    have hcount : n = s.events.peers.count := by omega
    refine ⟨?_, ?_, ?_⟩
    · have hfull : (entries s.events.peers).length ≤ (answers es).length := by
        rw [entries_length hexact.bound]
        omega
      rw [hmore, zipWith_past lineOf hfull, ← h.paths]
    · rw [hmore, List.length_append, hturns, hcount]
      rfl
    · intro m hm
      cases hm

theorem step_swept {more : List Beat} (hexact : Exact (seen ++ appeared more) s.events.peers)
    (h : Swept before more s) (hopen : s.next.isSome) {b : Beat} (hs : s.step b = some s') :
    Exact (seen ++ appeared (more ++ [b])) s'.events.peers ∧ Swept before (more ++ [b]) s' := by
  obtain ⟨s₁, hs₁, hexact', hgrown⟩ := step_exact hexact b
  rw [hs] at hs₁
  cases hs₁
  have hmore : appeared (more ++ [b]) = appeared more ++ (carried b).toList :=
    filterMap_snoc carried more b
  refine ⟨by rwa [hmore, ← List.append_assoc], ?_⟩
  cases b with
  | turn pathCount path => exact turn_swept hexact h hopen hs
  | event self msg =>
    have hanswers : answers (more ++ [.event self msg]) = answers more :=
      (filterMap_snoc answer more _).trans (List.append_nil _)
    obtain ⟨e, -, he⟩ := Option.map_eq_some_iff.mp hs
    have hevent : Swept before more s' := event_swept h hopen hexact.bound hexact'.bound hgrown
      (by rw [← he]) (by rw [← he])
    refine ⟨?_, ?_, hevent.within⟩
    · rw [hanswers]
      exact hevent.paths
    · rw [hanswers]
      exact hevent.turns

/-- From the start of a sweep to its end, whatever comes in between: it prints a line for each
entry of the table in the table's order, with what the core says of that peer, those that come
in while it runs among them, and it ends with its 25th turn at the latest. -/
theorem path_sweep {bs es : List Beat} {s u : Heart} (hstart : run Heart.step .start bs = some s)
    (hfirst : s.next = some 0) (hrun : run (guarded sweeping Heart.step) s es = some u) :
    u.paths = s.paths ++ List.zipWith lineOf (entries u.events.peers) (answers es) ∧
    (answers es).length = u.next.getD (u.events.peers.count + 1) ∧ (answers es).length ≤ 25 := by
  obtain ⟨s₀, hrun₀, hexact, -⟩ := run_exact (s := .start) start_exact bs
  rw [hstart] at hrun₀
  cases hrun₀
  have hswept : Exact (appeared bs ++ appeared es) u.events.peers ∧ Swept s.paths es u := by
    apply run_history
      (P := fun es t => Exact (appeared bs ++ appeared es) t.events.peers ∧ Swept s.paths es t)
      ?_ ?_ hrun
    · refine ⟨by simpa [appeared] using hexact, ?_, ?_, ?_⟩
      · rw [answers, List.filterMap_nil, List.zipWith_nil_right, List.append_nil]
      · rw [hfirst]
        rfl
      · intro n hn
        rw [hfirst] at hn
        cases hn
        exact Nat.zero_le _
    · intro es t b v _ ht hstep
      obtain ⟨hopen, hstep⟩ := guarded_eq_some.mp hstep
      exact step_swept ht.1 ht.2 hopen hstep
  obtain ⟨hexact, hswept⟩ := hswept
  refine ⟨hswept.paths, hswept.turns, ?_⟩
  have hbound := hexact.bound
  rw [hswept.turns]
  cases hn : u.next with
  | none =>
    rw [Option.getD_none]
    omega
  | some n =>
    have hle := hswept.within n hn
    rw [Option.getD_some]
    omega

def oneDirect (id : UInt64) : Beat :=
  .event ⟨0xdeadbeef01, 9993⟩ (some ⟨.peer .direct, some ⟨id, 4, 1, 38⟩⟩)

def opening : List Beat := [oneDirect 7, .turn 0 none]

/-- A second peer comes in when the first has been shown. -/
def joining : List Beat := [.turn 1 none, oneDirect 8, .turn 2 none, .turn 0 none]

theorem path_sweep_joining : ∃ s u, run Heart.step .start opening = some s ∧
    run (guarded sweeping Heart.step) s joining = some u ∧
    u.paths = s.paths ++ List.zipWith lineOf (entries u.events.peers) (answers joining) ∧
    (answers joining).length = u.next.getD (u.events.peers.count + 1) ∧
    (answers joining).length ≤ 25 :=
  ⟨_, _, rfl, rfl, @path_sweep opening joining _ _ rfl rfl rfl⟩

end SwitchLdnZt.Proofs.PathSweep
