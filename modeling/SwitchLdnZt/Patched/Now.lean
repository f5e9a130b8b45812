import Mathlib.Algebra.Group.Nat.Defs
import Mathlib.Data.List.Chain

namespace SwitchLdnZt.Patched

structure Timeval where
  tvSec : Int64
  tvUsec : Int64

/-- What one call of `OSUtils::now` can read: the wall clock and the tick for the
baselines, which only a call that finds them unset looks at, and then the tick. -/
structure NowCall where
  tv0 : Timeval
  baseline : UInt64
  tick : UInt64

/-- The two function statics. -/
structure NowStatics where
  wallclockBaselineMs : Int64
  tickBaseline : UInt64

def NowStatics.init : NowStatics := ⟨0, 0⟩

/-- libnx: `return (tick * 625) / 12;` -/
def armTicksToNs (tick : UInt64) : UInt64 :=
  tick * 625 / 12

def Timeval.ms (tv : Timeval) : Int64 :=
  1000 * tv.tvSec + tv.tvUsec / 1000

/-- `OSUtils::now` as the patch writes it for the Switch; a signed sum that does not
fit wraps around, as the machine's does. -/
def now (s : NowStatics) (c : NowCall) : NowStatics × Int64 :=
  let s := if s.tickBaseline = 0 then ⟨c.tv0.ms, c.baseline⟩ else s
  let elapsedMs := (armTicksToNs (c.tick - s.tickBaseline) / 1000000).toInt64
  (s, s.wallclockBaselineMs + elapsedMs)

def nows (s : NowStatics) : List NowCall → List Int64
  | [] => []
  | c :: cs => (now s c).2 :: nows (now s c).1 cs

end SwitchLdnZt.Patched
