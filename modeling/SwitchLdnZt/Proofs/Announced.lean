import SwitchLdnZt.Proofs.StatusBlock

namespace SwitchLdnZt.Proofs.Announced
open Library Ping App LoopLines StatusBlock JoinRetry

/-- The passes that see another value than the pass before, each with what it sees; before
the first it is `false`. -/
def switched (seen : List Bool) : List (Bool × Nat) :=
  ((false :: seen).zip seen).zipIdx.filterMap fun x =>
    if x.1.2 = x.1.1 then none else some (x.1.2, x.2)

/-- The texts that begin with a tag, of all that `printf` was called with. -/
def tagged (tag : Bytes) (out : List Bytes) : List Bytes := out.filter fun l => tag.isPrefixOf l

theorem zip_concat (a b : Bool) (seen : List Bool) :
    (a :: (seen ++ [b])).zip (seen ++ [b]) =
      (a :: seen).zip seen ++ [((a :: seen).getLast (List.cons_ne_nil _ _), b)] := by
  induction seen generalizing a with
  | nil => rfl
  | cons c seen ih =>
    rw [List.cons_append, List.zip_cons_cons, ih c, List.zip_cons_cons, List.cons_append,
      List.getLast_cons (List.cons_ne_nil c seen)]

theorem switched_snoc (seen : List Bool) (b : Bool) : switched (seen ++ [b]) =
    switched seen ++ if b = (false :: seen).getLast (List.cons_ne_nil _ _) then []
      else [(b, seen.length)] := by
  have hlen : ((false :: seen).zip seen).length = seen.length := by simp
  rw [switched, zip_concat, List.zipIdx_append, List.filterMap_append, hlen]
  refine congrArg (switched seen ++ ·) ?_
  simp only [List.zipIdx_singleton, List.filterMap_cons, List.filterMap_nil, Nat.zero_add]
  split <;> simp_all

theorem tagged_append (tag : Bytes) (a b : List Bytes) :
    tagged tag (a ++ b) = tagged tag a ++ tagged tag b :=
  List.filter_append a b

theorem tagged_ite (tag : Bytes) (c : Prop) [Decidable c] (ls : List Bytes) :
    tagged tag (if c then [] else ls) = if c then [] else tagged tag ls := by
  split <;> rfl

theorem tagged_asides {ls : List Bytes} (h : ∀ l ∈ ls, Aside l) :
    tagged onlineTag ls = [] ∧ tagged readyTag ls = [] := by
  simp only [tagged, List.filter_eq_nil_iff, Bool.not_eq_true]
  constructor
  all_goals
    intro l hl
    rcases h l hl with rfl | ⟨x, rfl⟩ | ⟨x, rfl⟩ <;> rfl

structure Inv (ps : List LoopPass) (s : MainLoop) : Prop where
  waited : s.waited = ps.length
  online : s.wasOnline = (false :: ps.map LoopPass.online).getLast (List.cons_ne_nil _ _)
  ready : s.wasReady = (false :: ps.map LoopPass.ready).getLast (List.cons_ne_nil _ _)
  saidOnline : tagged onlineTag s.out =
    (switched (ps.map LoopPass.online)).map fun x => onlineLine x.1 x.2
  saidReady : tagged readyTag s.out =
    (switched (ps.map LoopPass.ready)).map fun x => readyLine x.1 x.2

theorem Inv.pass {ps : List LoopPass} {s : MainLoop} (h : Inv ps s) (p : LoopPass) :
    Inv (ps ++ [p]) (s.pass p) := by
  obtain ⟨ls, hls, hadds, hwaited, honline, hready⟩ := pass_adds s p
  have hout := hadds.out
  have hlast : ∀ f : LoopPass → Bool,
      (false :: (ps ++ [p]).map f).getLast (List.cons_ne_nil _ _) = f p := by
    intro f
    simp [List.getLast_cons]
  obtain ⟨hothers, hothers'⟩ := tagged_asides hls
  refine ⟨?_, ?_, ?_, ?_, ?_⟩
  · rw [hwaited, h.waited, List.length_append]
    rfl
  · rw [honline, hlast]
  · rw [hready, hlast]
  · have hmine : ∀ b i, tagged onlineTag [onlineLine b i] = [onlineLine b i] := fun _ _ => rfl
    have hnot : ∀ b i, tagged onlineTag [readyLine b i] = [] := fun _ _ => rfl
    rw [hout, tagged_append, tagged_append, tagged_append, hothers, h.saidOnline, List.map_append,
      List.map_singleton, switched_snoc, List.map_append, ← h.online, h.waited, List.length_map,
      tagged_ite, tagged_ite, hmine, hnot, ite_self, List.append_nil, List.append_nil]
    split <;> rfl
  · have hmine : ∀ b i, tagged readyTag [readyLine b i] = [readyLine b i] := fun _ _ => rfl
    have hnot : ∀ b i, tagged readyTag [onlineLine b i] = [] := fun _ _ => rfl
    rw [hout, tagged_append, tagged_append, tagged_append, hothers', h.saidReady, List.map_append,
      List.map_singleton, switched_snoc, List.map_append, ← h.ready, h.waited, List.length_map,
      tagged_ite, tagged_ite, hmine, hnot, ite_self, List.append_nil, List.nil_append]
    split <;> rfl

end SwitchLdnZt.Proofs.Announced
