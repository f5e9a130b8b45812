import Mathlib.Algebra.Order.Field.Basic
import Mathlib.Order.Interval.Set.Defs
import SwitchLdnZt.Library.CText
import SwitchLdnZt.Library.Run

namespace SwitchLdnZt.App
open Library

/-- A pass of the loop: what `select` returned and how many milliseconds it took,
then the lengths `recvfrom` returned before it would block. -/
structure Pass (K : Type) [Field K] [LinearOrder K] where
  sr : Int
  waited : Set.Icc (0 : K) 250
  received : List Nat

inductive FloodPhase
  | failed
  | waiting
  | done
deriving DecidableEq

structure Flood where
  phase : FloodPhase
  ready : UInt32
  recvd : UInt32
  empty : UInt32
  errCount : UInt32
  idleMs : UInt32
  totalMs : UInt32
  lastReport : UInt32
  out : List Bytes

def floodBanner : List Bytes :=
  [ascii "[FLOOD] UDP same-LAN receive test - listening on 0.0.0.0:9999\n",
    ascii "[FLOOD] drains incoming datagrams; exits 3s after the stream stops\n"]

/-- Up to the loop: `socket` returned `s`, then `bind` returned `rc`. -/
def Flood.enter (s rc errno : Int) : Flood :=
  if s < 0 then
    ⟨.failed, 0, 0, 0, 0, 0, 0, 0,
      floodBanner ++ [ascii "[FLOOD] socket fail errno=" ++ fmtD errno ++ ascii "\n"]⟩
  else if rc ≠ 0 then
    ⟨.failed, 0, 0, 0, 0, 0, 0, 0,
      floodBanner ++ [ascii "[FLOOD] bind fail errno=" ++ fmtD errno ++ ascii "\n"]⟩
  else
    ⟨.waiting, 0, 0, 0, 0, 0, 0, 0, floodBanner ++
      [ascii "[FLOOD] bound 0.0.0.0:9999, waiting for incoming UDP stream...\n"]⟩

def Flood.counts (f : Flood) : Bytes :=
  ascii "recvd=" ++ fmtU f.recvd.toNat ++ ascii " ready=" ++ fmtU f.ready.toNat ++
    ascii " empty=" ++ fmtU f.empty.toNat ++ ascii " err=" ++ fmtU f.errCount.toNat ++
    ascii "\n"

/-- The inner loop, one `recvfrom` that did not end it. -/
def Flood.recv (f : Flood) (n : Nat) : Flood :=
  if 0 < n then { f with recvd := f.recvd + 1 } else { f with empty := f.empty + 1 }

variable {K : Type} [Field K] [LinearOrder K]

/-- The lengths of the datagrams this pass took from the socket. -/
def Pass.lengths (p : Pass K) : List Nat :=
  if 0 < p.sr then p.received else []

def Pass.gotData (p : Pass K) : Bool := p.lengths.any (fun n => 0 < n)

def Flood.drain (f : Flood) (p : Pass K) : Flood :=
  if 0 < p.sr then p.received.foldl Flood.recv { f with ready := f.ready + 1 }
  else if p.sr < 0 then { f with errCount := f.errCount + 1 }
  else f

def Flood.report (f : Flood) : Flood :=
  if f.totalMs - f.lastReport ≥ 1000 then
    { f with
      lastReport := f.totalMs
      out := f.out ++ [ascii "[FLOOD] t=" ++ fmtU f.totalMs.toNat ++ ascii "ms " ++ f.counts] }
  else f

def Flood.leave (f : Flood) : Flood :=
  { f with phase := .done, out := f.out ++ [ascii "[FLOOD] DONE " ++ f.counts] }

def Flood.count (f : Flood) (p : Pass K) : Flood :=
  { f with
    totalMs := f.totalMs + 250
    idleMs := if p.gotData then 0 else f.idleMs + 250 }

def Flood.pass (f : Flood) (p : Pass K) : Option Flood :=
  match f.phase with
  | .waiting =>
    let g := (f.drain p).count p
    some (if g.idleMs ≥ 3000 then g.leave else g.report)
  | _ => none

def probeUdpFlood (s rc errno : Int) (passes : List (Pass K)) : Option Flood :=
  run Flood.pass (Flood.enter s rc errno) passes

end SwitchLdnZt.App
