import SwitchLdnZt.App.Peers

namespace SwitchLdnZt.Proofs.PeerTable
open Library App

/-- The id and the role that an event of a peer brings. -/
def carried : Beat → Option (UInt64 × Int)
  | .event _ (some msg) =>
    match msg.carried with
    | some p => if p.peerId = 0 then none else some (p.peerId, p.role)
    | none => none
  | _ => none

def appeared (bs : List Beat) : List (UInt64 × Int) := bs.filterMap carried

/-- The table is the ids that have appeared, each with its first role. -/
structure Exact (seen : List (UInt64 × Int)) (t : Peers) : Prop where
  bound : t.count ≤ 24
  ids : t.ids.toList.take t.count = (seen.map Prod.fst).eraseDups.take 24
  roles : ∀ i < t.count, ∃ id role, t.ids[i]? = some id ∧ t.roles[i]? = some role ∧
    seen.find? (fun a => a.1 == id) = some (id, role)

/-- The entries of the one are those of the other, where they were. -/
structure Grown (t t' : Peers) : Prop where
  count : t.count ≤ t'.count
  ids : ∀ i < t.count, t'.ids[i]? = t.ids[i]?
  roles : ∀ i < t.count, t'.roles[i]? = t.roles[i]?

theorem Grown.refl (t : Peers) : Grown t t := ⟨Nat.le_refl _, fun _ _ => rfl, fun _ _ => rfl⟩

theorem Grown.trans {t₁ t₂ t₃ : Peers} (h : Grown t₁ t₂) (h' : Grown t₂ t₃) : Grown t₁ t₃ := by
  refine ⟨Nat.le_trans h.count h'.count, ?_, ?_⟩
  · intro i hi
    rw [h'.ids i (Nat.lt_of_lt_of_le hi h.count), h.ids i hi]
  · intro i hi
    rw [h'.roles i (Nat.lt_of_lt_of_le hi h.count), h.roles i hi]

theorem eraseDups_concat (l : List UInt64) (x : UInt64) :
    (l ++ [x]).eraseDups = if x ∈ l then l.eraseDups else l.eraseDups ++ [x] := by
  rw [List.eraseDups_append]
  by_cases h : x ∈ l <;> simp [List.removeAll, List.eraseDups_cons, h]

variable {seen : List (UInt64 × Int)} {t t' : Peers} {id : UInt64} {role : Int}

/-- The loop looks at the entries and at no other index. -/
theorem known_eq (left i : Nat) (h : i + left ≤ 24) :
    t.known id left i = some (decide (id ∈ (t.ids.toList.drop i).take left)) := by
  induction left generalizing i with
  | zero => simp [Peers.known]
  | succ left ih =>
    have hi : i < t.ids.toList.length := by
      rw [Vector.length_toList]
      omega
    have hget : t.ids[i]? = some t.ids.toList[i] := by
      rw [← Vector.getElem?_toList, List.getElem?_eq_getElem hi]
    rw [Peers.known, hget, List.drop_eq_getElem_cons hi, List.take_succ_cons]
    dsimp only
    split
    next hx => simp [hx]
    next hx =>
      rw [ih (i + 1) (by omega)]
      congr 1
      rw [decide_eq_decide, List.mem_cons, or_iff_right (fun he => hx he.symm)]

/-- What `remember_peer` does with a peer, by where its id is. -/
theorem rememberPeer_cases (hb : t.count ≤ 24) (hid : id ≠ 0) :
    (id ∈ t.ids.toList.take t.count ∨ t.count = 24) ∧ rememberPeer id role t = some t ∨
    id ∉ t.ids.toList.take t.count ∧ t.count < 24 ∧ ∃ t', t.put id role = some t' ∧
      rememberPeer id role t = some t' := by
  have hsize : t.ids.size = 24 := rfl
  have hknown : t.known id t.count 0 = some (decide (id ∈ t.ids.toList.take t.count)) :=
    known_eq t.count 0 (by omega)
  rw [rememberPeer, if_neg hid, hknown]
  by_cases hin : id ∈ t.ids.toList.take t.count
  · left
    simp [hin]
  · rw [decide_eq_false hin]
    dsimp only
    by_cases hfull : t.count = 24
    · exact .inl ⟨.inr hfull, if_pos (by omega)⟩
    · have hlt : t.count < 24 := by omega
      refine .inr ⟨hin, hlt, _, dif_pos hlt, ?_⟩
      rw [if_neg (by omega)]
      exact dif_pos hlt

theorem put_spec (h : t.put id role = some t') : t.count < 24 ∧ t'.count = t.count + 1 ∧
    t'.ids.toList.take t'.count = t.ids.toList.take t.count ++ [id] ∧
    t'.ids[t.count]? = some id ∧ t'.roles[t.count]? = some role ∧ Grown t t' := by
  unfold Peers.put at h
  split at h
  next hlt =>
    cases h
    refine ⟨hlt, rfl, ?_, ?_, ?_, ?_, ?_, ?_⟩
    · rw [Vector.toList_set, List.take_succ_eq_append_getElem (by simpa using hlt)]
      rw [List.take_set_of_le (Nat.le_refl _)]
      simp
    · simp [hlt]
    · simp [hlt]
    · exact Nat.le_succ _
    · intro i hi
      simp [show ¬ t.count = i by omega]
    · intro i hi
      simp [show ¬ t.count = i by omega]
  next => cases h

theorem rememberPeer_exact (h : Exact seen t) (hid : id ≠ 0) (role : Int) :
    ∃ t', rememberPeer id role t = some t' ∧ Exact (seen ++ [(id, role)]) t' ∧ Grown t t' := by
  have hfound : ∀ i < t.count, ∃ id' role', t.ids[i]? = some id' ∧ t.roles[i]? = some role' ∧
      (seen ++ [(id, role)]).find? (fun a => a.1 == id') = some (id', role') := by
    intro i hi
    obtain ⟨id', role', hi₁, hi₂, hfind⟩ := h.roles i hi
    exact ⟨id', role', hi₁, hi₂, by rw [List.find?_append, hfind, Option.some_or]⟩
  have hmap : (seen ++ [(id, role)]).map Prod.fst = seen.map Prod.fst ++ [id] := by simp
  rcases rememberPeer_cases h.bound hid with ⟨hkept, hrun⟩ | ⟨hnew, hlt, t', hput, hrun⟩
  · refine ⟨t, hrun, ⟨h.bound, ?_, hfound⟩, .refl t⟩
    rw [h.ids, hmap, eraseDups_concat]
    split
    next => rfl
    next hnot =>
      rcases hkept with hin | hfull
      · rw [h.ids] at hin
        exact absurd (List.mem_eraseDups.mp (List.mem_of_mem_take hin)) hnot
      · have hlen := congrArg List.length h.ids
        rw [List.length_take, List.length_take, Vector.length_toList] at hlen
        rw [List.take_append_of_le_length (by omega)]
  · obtain ⟨-, hcount, hids, hid', hrole', hgrown⟩ := put_spec hput
    -- the table is not full, so all that have appeared are in it
    have hlen := congrArg List.length h.ids
    rw [List.length_take, List.length_take, Vector.length_toList] at hlen
    have hall : t.ids.toList.take t.count = (seen.map Prod.fst).eraseDups := by
      rw [h.ids, List.take_of_length_le (by omega)]
    have hunseen : id ∉ seen.map Prod.fst := by
      rwa [hall, List.mem_eraseDups] at hnew
    refine ⟨t', hrun, ⟨by omega, ?_, ?_⟩, hgrown⟩
    · rw [hids, hmap, eraseDups_concat, if_neg hunseen, hall, List.take_of_length_le]
      simp only [List.length_append, List.length_singleton]
      omega
    · intro i hi
      rcases Nat.lt_or_ge i t.count with hold | hlast
      · rw [hgrown.ids i hold, hgrown.roles i hold]
        exact hfound i hold
      · obtain rfl : i = t.count := by omega
        refine ⟨id, role, hid', hrole', ?_⟩
        have hnone : seen.find? (fun a => a.1 == id) = none := by
          rw [List.find?_eq_none]
          intro a ha hk
          exact hunseen (List.mem_map.mpr ⟨a, ha, beq_iff_eq.mp hk⟩)
        rw [List.find?_append, hnone, Option.none_or]
        simp

/-- No step uses an index outside the arrays, and each keeps the table exact. -/
theorem step_exact {s : Heart} (h : Exact seen s.events.peers) (b : Beat) :
    ∃ s', s.step b = some s' ∧ Exact (seen ++ (carried b).toList) s'.events.peers ∧
      Grown s.events.peers s'.events.peers := by
  have hsame : Exact (seen ++ []) s.events.peers := by rwa [List.append_nil]
  cases b with
  | turn pathCount path =>
    rw [Heart.step]
    cases s.next with
    | none => exact ⟨_, rfl, hsame, .refl _⟩
    | some i =>
      dsimp only
      split
      next hi =>
        obtain ⟨id, role, hid, hrole, -⟩ := h.roles i hi
        rw [hid, hrole]
        exact ⟨_, rfl, hsame, .refl _⟩
      next => exact ⟨_, rfl, hsame, .refl _⟩
  | event self msg =>
    cases msg with
    | none => exact ⟨s, rfl, hsame, .refl _⟩
    | some msg =>
      simp only [Heart.step, printEvent, carried]
      cases msg.carried with
      | none => exact ⟨_, rfl, hsame, .refl _⟩
      | some p =>
        dsimp only
        by_cases hzero : p.peerId = 0
        · rw [rememberPeer, if_pos hzero, if_pos hzero]
          exact ⟨_, rfl, hsame, .refl _⟩
        · obtain ⟨t', hrun, hexact, hgrown⟩ := rememberPeer_exact h hzero p.role
          rw [hrun, if_neg hzero]
          exact ⟨_, rfl, hexact, hgrown⟩

theorem start_exact : Exact [] Peers.start := ⟨Nat.zero_le _, rfl, fun _ hi => by cases hi⟩

theorem run_exact {s : Heart} (h : Exact seen s.events.peers) (bs : List Beat) :
    ∃ s', run Heart.step s bs = some s' ∧ Exact (seen ++ appeared bs) s'.events.peers ∧
      Grown s.events.peers s'.events.peers := by
  induction bs using List.reverseRecOn with
  | nil => exact ⟨s, rfl, by simpa [appeared] using h, .refl _⟩
  | append_singleton bs b ih =>
    obtain ⟨s₁, hrun, hexact, hgrown⟩ := ih
    obtain ⟨s₂, hstep, hexact₂, hgrown₂⟩ := step_exact hexact b
    refine ⟨s₂, run_snoc.mpr ⟨s₁, hrun, hstep⟩, ?_, hgrown.trans hgrown₂⟩
    have hmore : appeared (bs ++ [b]) = appeared bs ++ (carried b).toList := by
      rw [appeared, appeared, List.filterMap_append]
      cases hc : carried b <;> simp [hc]
    rw [hmore, ← List.append_assoc]
    exact hexact₂

/-- After any events and heartbeats the table is exact, and no more of them change what
is in it. -/
theorem peer_table_exact (bs : List Beat) : ∃ s, run Heart.step .start bs = some s ∧
    Exact (appeared bs) s.events.peers ∧
    ∀ more, ∃ s', run Heart.step s more = some s' ∧ Grown s.events.peers s'.events.peers := by
  obtain ⟨s, hrun, hexact, -⟩ := run_exact (s := .start) start_exact bs
  refine ⟨s, hrun, hexact, ?_⟩
  intro more
  obtain ⟨s', hrun', -, hgrown⟩ := run_exact hexact more
  exact ⟨s', hrun', hgrown⟩

end SwitchLdnZt.Proofs.PeerTable
