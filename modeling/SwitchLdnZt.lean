import SwitchLdnZt.Proofs.AnchorSoundness
import SwitchLdnZt.Proofs.Announced
import SwitchLdnZt.Proofs.AuthOffSwitch
import SwitchLdnZt.Proofs.CallBrackets
import SwitchLdnZt.Proofs.CleanShutdown
import SwitchLdnZt.Proofs.ConsoleLog
import SwitchLdnZt.Proofs.CounterFlow
import SwitchLdnZt.Proofs.DeferredInit
import SwitchLdnZt.Proofs.DiagDrains
import SwitchLdnZt.Proofs.ErrnoTransparency
import SwitchLdnZt.Proofs.EventLines
import SwitchLdnZt.Proofs.ExitWait
import SwitchLdnZt.Proofs.FloodReports
import SwitchLdnZt.Proofs.FloodSilence
import SwitchLdnZt.Proofs.FunctionSpan
import SwitchLdnZt.Proofs.GenmemSlot
import SwitchLdnZt.Proofs.HeapOnce
import SwitchLdnZt.Proofs.JoinRetry
import SwitchLdnZt.Proofs.KeepaliveCadence
import SwitchLdnZt.Proofs.LdnStops
import SwitchLdnZt.Proofs.LineBounds
import SwitchLdnZt.Proofs.LineEnds
import SwitchLdnZt.Proofs.LockSafety
import SwitchLdnZt.Proofs.LogCaps
import SwitchLdnZt.Proofs.LogTells
import SwitchLdnZt.Proofs.LwipRerun
import SwitchLdnZt.Proofs.MonotonicNow
import SwitchLdnZt.Proofs.NetworkId
import SwitchLdnZt.Proofs.OffSwitch
import SwitchLdnZt.Proofs.Pacing
import SwitchLdnZt.Proofs.PathSweep
import SwitchLdnZt.Proofs.PeerCopy
import SwitchLdnZt.Proofs.PeerTable
import SwitchLdnZt.Proofs.PingNetwork
import SwitchLdnZt.Proofs.PingReply
import SwitchLdnZt.Proofs.PipeAtomic
import SwitchLdnZt.Proofs.PipeStream
import SwitchLdnZt.Proofs.PortRerun
import SwitchLdnZt.Proofs.RandomSecrecy
import SwitchLdnZt.Proofs.ResourceBalance
import SwitchLdnZt.Proofs.ScriptReruns
import SwitchLdnZt.Proofs.StatusBlock
import SwitchLdnZt.Proofs.SysThreadSlots
