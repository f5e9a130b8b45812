import SwitchLdnZt.App.Status
import SwitchLdnZt.Library.Changes
import SwitchLdnZt.Proofs.JoinRetry
import SwitchLdnZt.Proofs.LoopLines

namespace SwitchLdnZt.Proofs.StatusBlock
open Library Ping Compat App LoopLines JoinRetry

/-- What the calls of one pass return, with the number of the pass, counted from one. -/
abbrev Turn := (LoopPass × Sample) × Nat

def every (n : Nat) (passes : List (LoopPass × Sample)) : List Turn :=
  (passes.zipIdx 1).filter fun x => x.2 % n = 0

/-- What the node said of the assigned address, where there was one. -/
def assigned (turns : List Turn) : List Sample :=
  (turns.map fun x => x.1.2).filter fun c => c.haveIp ≠ 0

def statusLines (x : Turn) : List Bytes :=
  beatLines x.2 x.1.1 x.1.2 ++ x.1.2.paths.map PeerPath.line

/-- Who a call of `printf` in the loop is from, by how its text begins. -/
inductive Voice
  | pass
  | banner
  | status
  deriving DecidableEq

def voice (l : Bytes) : Voice :=
  if l.head?.any fun b => b = charByte ' ' || b = charByte '\n' then .banner
  else if [ascii "[IP] ", ascii "[HB] ", ascii "[PATH] "].any fun tag => tag.isPrefixOf l then
    .status
  else .pass

def said (v : Voice) (out : List Bytes) : List Bytes := out.filter fun l => voice l = v

variable {passes : List (LoopPass × Sample)}

theorem every_snoc (n : Nat) (passes : List (LoopPass × Sample)) (x : LoopPass × Sample) :
    every n (passes ++ [x]) =
      every n passes ++ if (passes.length + 1) % n = 0 then [(x, passes.length + 1)] else [] := by
  unfold every
  rw [List.zipIdx_append, List.filter_append, List.zipIdx_singleton, List.filter_singleton,
    Nat.add_comm 1, Bool.cond_decide]

theorem assigned_snoc (turns : List Turn) (x : Turn) : assigned (turns ++ [x]) =
    assigned turns ++ if x.1.2.haveIp ≠ 0 then [x.1.2] else [] := by
  rw [assigned, List.map_append, List.filter_append, List.map_singleton, List.filter_singleton,
    Bool.cond_decide]
  rfl

theorem cString_no_nul (b : Bytes) : ∀ x ∈ cString b, x ≠ 0 := fun x hx => by
  simpa using List.mem_takeWhile_imp hx

theorem cString_length_lt {b : Bytes} (h : 0 ∈ b) : (cString b).length < b.length := by
  obtain ⟨pre, post, rfl⟩ := List.append_of_mem h
  rw [cString_append_nul]
  have := cString_length_le pre
  simp only [List.length_append, List.length_cons]
  omega

/-- `ip` fits `g_last_ip` whole. -/
theorem ip_kept (c : Sample) : cString (snprintf 64 c.ip).stored = c.ip := by
  apply cString_snprintf
  · unfold Sample.ip
    split <;> exact cString_no_nul _
  · unfold Sample.ip
    split
    · have := cString_length_lt c.terminated
      rwa [c.addr.property] at this
    · decide

theorem said_append (v : Voice) (a b : List Bytes) : said v (a ++ b) = said v a ++ said v b :=
  List.filter_append a b

/-- Texts of one voice are heard with that one. -/
theorem said_of {v : Voice} {ls : List Bytes} (h : ∀ l ∈ ls, voice l = v) (w : Voice) :
    said w ls = if v = w then ls else [] := by
  split
  next hv => exact List.filter_eq_self.mpr fun l hl => decide_eq_true ((h l hl).trans hv)
  next hv =>
    apply List.filter_eq_nil_iff.mpr
    intro l hl hw
    exact hv ((h l hl).symm.trans (of_decide_eq_true hw))

theorem aside_voice {l : Bytes} (h : Aside l) : voice l = .pass := by
  rcases h with rfl | ⟨x, rfl⟩ | ⟨x, rfl⟩ <;> rfl

theorem banner_voice (c : Sample) : ∀ l ∈ bannerLines c, voice l = .banner := by
  simp only [bannerLines, List.forall_mem_cons, List.append_assoc]
  exact ⟨rfl, rfl, rfl, rfl, rfl, rfl, fun l hl => absurd hl List.not_mem_nil⟩

theorem path_voice (e : PeerPath) : voice e.line = .status := by
  simp only [PeerPath.line, pathLine, List.append_assoc]
  rfl

theorem status_voice (x : Turn) : ∀ l ∈ statusLines x, voice l = .status := by
  refine List.forall_mem_append.mpr ⟨?_, List.forall_mem_map.mpr fun e _ => path_voice e⟩
  simp only [beatLines, List.forall_mem_cons, List.append_assoc]
  exact ⟨rfl, rfl, fun l hl => absurd hl List.not_mem_nil⟩

/-- What the runs so far have printed of each kind, and what the loop keeps for the rest. -/
structure Inv (passes : List (LoopPass × Sample)) (s : Status) : Prop where
  loop : s.loop = { mainLoop (passes.map Prod.fst) with out := s.loop.out }
  waited : s.loop.waited = passes.length
  lastIp : s.lastIp =
    ([] :: (assigned (every 500 passes)).map Sample.ip).getLast (List.cons_ne_nil _ _)
  own : said .pass s.loop.out = (mainLoop (passes.map Prod.fst)).out
  banner : said .banner s.loop.out =
    (changesBy Sample.ip [] (assigned (every 500 passes))).flatMap bannerLines
  status : said .status s.loop.out = (every 500 passes).flatMap statusLines
  log : s.log = (every 3000 passes).flatMap fun x => reportLines x.1.2.stat
  updates : s.updates = passes.length / 10

theorem start_inv : Inv [] .start := ⟨rfl, rfl, rfl, rfl, rfl, rfl, rfl, rfl⟩

/-- All that a pass does: the lines of its status block, where one is due, its report and
its update. -/
theorem pass_does (s : Status) (p : LoopPass) (c : Sample) (u : MainLoop)
    (hu : s.loop.pass p = u) : s.pass p c =
      { loop := { u with out := u.out ++
          (if u.waited.tmod 500 = 0 then
            (if c.haveIp ≠ 0 ∧ c.ip ≠ s.lastIp then bannerLines c else []) ++
              (beatLines u.waited p c ++ c.paths.map PeerPath.line)
          else []) }
        lastIp := if u.waited.tmod 500 = 0 ∧ c.haveIp ≠ 0 then c.ip else s.lastIp
        log := s.log ++ if u.waited.tmod 3000 = 0 then reportLines c.stat else []
        updates := s.updates + if u.waited.tmod 10 = 0 then 1 else 0 } := by
  have hbanner : (({ s with loop := u } : Status).banner c) =
      { s with
        loop := { u with out := u.out ++
          if c.haveIp ≠ 0 ∧ c.ip ≠ s.lastIp then bannerLines c else [] }
        lastIp := if c.haveIp ≠ 0 then c.ip else s.lastIp } := by
    unfold Status.banner
    by_cases hassigned : c.haveIp = 0
    · simp [hassigned]
    · by_cases hsame : c.ip = s.lastIp
      · simp [hassigned, hsame]
      · simp [hassigned, hsame, Status.print, ip_kept]
  simp only [Status.pass, hu, Status.beat, hbanner, Status.print]
  by_cases hbeat : u.waited.tmod 500 = 0 <;> by_cases hreport : u.waited.tmod 3000 = 0 <;>
    by_cases hupdate : u.waited.tmod 10 = 0 <;> simp [hbeat, hreport, hupdate]

theorem mainLoop_fst (passes : List (LoopPass × Sample)) (x : LoopPass × Sample) :
    mainLoop ((passes ++ [x]).map Prod.fst) = (mainLoop (passes.map Prod.fst)).pass x.1 := by
  rw [List.map_append, List.map_singleton, mainLoop_snoc]

/-- The pass of the loop itself, up to its sleep. -/
theorem Inv.loop_pass {s : Status} (h : Inv passes s) (p : LoopPass) :
    ∃ ls, (∀ l ∈ ls, voice l = .pass) ∧
      ((mainLoop (passes.map Prod.fst)).pass p).out = (mainLoop (passes.map Prod.fst)).out ++ ls ∧
      s.loop.pass p =
        { (mainLoop (passes.map Prod.fst)).pass p with out := s.loop.out ++ ls } := by
  obtain ⟨ls, hls, hadds, -⟩ := pass_adds (mainLoop (passes.map Prod.fst)) p
  refine ⟨_, ?_, hadds.out, ?_⟩
  · refine List.forall_mem_append.mpr ⟨List.forall_mem_append.mpr ⟨?_, ?_⟩,
      fun l hl => aside_voice (hls l hl)⟩
    · split
      · exact fun l hl => absurd hl List.not_mem_nil
      · exact List.forall_mem_singleton.mpr rfl
    · split
      · exact fun l hl => absurd hl List.not_mem_nil
      · exact List.forall_mem_singleton.mpr rfl
  · exact (congrArg (·.pass p) h.loop).trans (hadds s.loop.out)

/-- What a block does to the address kept, and whether it shows one. -/
theorem lastIp_snoc {turns : List Turn} {lastIp : Bytes} (x : Turn)
    (hlast : lastIp = ([] :: (assigned turns).map Sample.ip).getLast (List.cons_ne_nil _ _)) :
    (if x.1.2.haveIp ≠ 0 then x.1.2.ip else lastIp) =
      ([] :: (assigned (turns ++ [x])).map Sample.ip).getLast (List.cons_ne_nil _ _) ∧
    changesBy Sample.ip [] (assigned (turns ++ [x])) =
      changesBy Sample.ip [] (assigned turns) ++
        if x.1.2.haveIp ≠ 0 ∧ x.1.2.ip ≠ lastIp then [x.1.2] else [] := by
  simp only [assigned_snoc]
  by_cases hassigned : x.1.2.haveIp = 0
  · simp [hassigned, hlast]
  · have hmap : ([] :: (assigned turns ++ [x.1.2]).map Sample.ip).getLast
        (List.cons_ne_nil _ _) = x.1.2.ip := by
      simp only [List.map_append, List.map_singleton]
      exact List.getLast_append_singleton ([] :: (assigned turns).map Sample.ip)
    simp only [hassigned, ne_eq, not_false_eq_true, if_true, true_and]
    refine ⟨hmap.symm, ?_⟩
    rw [changesBy_snoc, ← hlast]
    by_cases hsame : x.1.2.ip = lastIp
    · simp [hsame]
    · simp [hsame, Ne.symm hsame]

/-- The lines of a pass, by who says them. -/
theorem said_turn {ls : List Bytes} (hls : ∀ l ∈ ls, voice l = .pass) (x : Turn)
    (due shows : Prop) [Decidable due] [Decidable shows] (v : Voice) :
    said v (ls ++ if due then (if shows then bannerLines x.1.2 else []) ++ statusLines x else []) =
      match v with
      | .pass => ls
      | .banner => if due ∧ shows then bannerLines x.1.2 else []
      | .status => if due then statusLines x else [] := by
  have hnone : said v [] = [] := rfl
  rw [said_append, said_of hls]
  by_cases hd : due
  · by_cases hs : shows
    · simp only [hd, hs, and_self, if_true]
      rw [said_append, said_of (banner_voice x.1.2), said_of (status_voice x)]
      cases v <;> simp
    · simp only [hd, hs, and_false, if_true, if_false, List.nil_append]
      rw [said_of (status_voice x)]
      cases v <;> simp
  · simp only [hd, false_and, if_false, hnone]
    cases v <;> simp

theorem Inv.next {s : Status} (h : Inv passes s) (x : LoopPass × Sample) :
    Inv (passes ++ [x]) (s.pass x.1 x.2) := by
  obtain ⟨p, c⟩ := x
  have hwaited : (s.loop.pass p).waited = ((passes.length + 1 : Nat) : Int) := by
    rw [pass_waited, h.waited]
    rfl
  have hevery : ∀ k : Nat, (s.loop.pass p).waited.tmod k = 0 ↔ (passes.length + 1) % k = 0 := by
    intro k
    rw [hwaited, ← Int.ofNat_tmod]
    exact Int.natCast_eq_zero
  obtain ⟨ls, hls, hmain, hloop⟩ := h.loop_pass p
  have hlen : (passes ++ [(p, c)]).length = passes.length + 1 := List.length_append
  have h500 : (s.loop.pass p).waited.tmod 500 = 0 ↔ _ := hevery 500
  have h3000 : (s.loop.pass p).waited.tmod 3000 = 0 ↔ _ := hevery 3000
  have h10 : (s.loop.pass p).waited.tmod 10 = 0 ↔ _ := hevery 10
  have hturn : statusLines ((p, c), passes.length + 1) =
      beatLines (s.loop.pass p).waited p c ++ c.paths.map PeerPath.line := by
    rw [hwaited]
    rfl
  obtain ⟨hip, hshown⟩ := lastIp_snoc ((p, c), passes.length + 1) h.lastIp
  have hdoes := pass_does s p c _ rfl
  rw [← hturn] at hdoes
  simp only [h500, h3000, h10] at hdoes
  have hout : (s.pass p c).loop.out = s.loop.out ++ (ls ++ if (passes.length + 1) % 500 = 0 then
      (if c.haveIp ≠ 0 ∧ c.ip ≠ s.lastIp then bannerLines c else []) ++
        statusLines ((p, c), passes.length + 1) else []) := by
    rw [hdoes, ← List.append_assoc]
    exact congrArg (· ++ _) (congrArg MainLoop.out hloop)
  have hsaid : ∀ v, said v (s.pass p c).loop.out = said v s.loop.out ++ _ := fun v =>
    (congrArg (said v) hout).trans ((said_append v _ _).trans
      (congrArg (said v s.loop.out ++ ·) (said_turn hls ((p, c), passes.length + 1) _ _ v)))
  refine ⟨?_, ?_, ?_, ?_, ?_, ?_, ?_, ?_⟩
  · rw [mainLoop_fst, hdoes]
    dsimp only
    rw [hloop]
  · rw [hlen, hdoes]
    exact hwaited
  · rw [every_snoc, hdoes]
    by_cases hbeat : (passes.length + 1) % 500 = 0
    · simp only [hbeat, true_and, if_true]
      exact hip
    · simp only [hbeat, false_and, if_false, List.append_nil]
      exact h.lastIp
  · rw [hsaid, mainLoop_fst, hmain, h.own]
  · rw [hsaid, every_snoc, h.banner]
    by_cases hbeat : (passes.length + 1) % 500 = 0
    · simp only [hbeat, true_and, if_true, hshown, List.flatMap_append]
      split <;> simp
    · simp [hbeat]
  · rw [hsaid, every_snoc, h.status]
    by_cases hbeat : (passes.length + 1) % 500 = 0 <;> simp [hbeat]
  · rw [hdoes, every_snoc, List.flatMap_append, h.log]
    dsimp only
    split <;> simp
  · rw [hdoes, hlen, h.updates, Nat.succ_div]
    simp only [Nat.dvd_iff_mod_eq_zero]

end SwitchLdnZt.Proofs.StatusBlock
