import SwitchLdnZt.Library.Run

namespace SwitchLdnZt.Sysmodule
open Library

def ztGenmemSize : Nat := 2 * 1024 * 1024

/-- `g_zt_genmem_in_use`, and the calls it is read and written by. `inside` are the calls of
`zt_genmem_acquire` between their test and their store, with the sizes asked for. The rest
is bookkeeping: who has the block, what the calls returned, and how many tests were passed
while another call was inside. -/
structure Genmem (T : Type) where
  inUse : Bool
  inside : List (T × Nat)
  holders : List (T × Nat)
  returned : List (T × UInt64)
  overlaps : Nat

/-- The flag is no atomic: the test and the store of an acquire are two steps. -/
inductive GenmemEvent (T : Type)
  | acquireTest (t : T) (size : Nat)
  | acquireStore (t : T)
  | release (t : T) (p : UInt64)

variable {T : Type}

def Genmem.boot : Genmem T := ⟨false, [], [], [], 0⟩

variable [DecidableEq T] (genmem : UInt64)

def Genmem.step (s : Genmem T) : GenmemEvent T → Option (Genmem T)
  | .acquireTest t size =>
    if s.inside.any (fun c => c.1 == t) then none
    else if size > ztGenmemSize ∨ s.inUse then
      some { s with returned := s.returned ++ [(t, 0)] }
    else
      some { s with
        inside := s.inside ++ [(t, size)]
        overlaps := if s.inside = [] then s.overlaps else s.overlaps + 1 }
  | .acquireStore t =>
    match s.inside.find? (fun c => c.1 == t) with
    | none => none
    | some c =>
      some { s with
        inUse := true
        inside := s.inside.erase c
        holders := s.holders ++ [c]
        returned := s.returned ++ [(t, genmem)] }
  | .release t p =>
    if p = genmem then
      some { s with inUse := false, holders := s.holders.eraseP (fun c => c.1 == t) }
    else some s

/-- A thread gives back only a block that it has; any other pointer may come. -/
def givesBackOwn (s : Genmem T) : GenmemEvent T → Bool
  | .release t p => p != genmem || s.holders.any (fun c => c.1 == t)
  | _ => true

end SwitchLdnZt.Sysmodule
