import Mathlib.Data.List.DropRight
import SwitchLdnZt.Library.CNumber

namespace SwitchLdnZt.Config
open Library

/-- What `read_text_file` takes off the end: '\n', '\r', ' ' and '\t'. -/
def isTrimmed (b : UInt8) : Bool := b == 10 || b == 13 || b == 32 || b == 9

/-- `read_text_file` on a file's content, with what the caller's buffer held before;
the buffer it leaves, unless it fails. -/
def readTextFile (out : Bytes) : Option Bytes → Option Bytes
  | none => none
  | some content =>
    if out.length < 2 then none
    else
      let got := content.take (out.length - 1)
      if got = [] then none
      else
        let kept := got.rdropWhile isTrimmed
        -- out[n] and every byte taken off the end become NUL
        let out := kept ++ List.replicate (got.length + 1 - kept.length) 0 ++
          out.drop (got.length + 1)
        if out.head? ≠ some 0 then some out else none

/-- `read_network_id` of the Switch app; no content is a file that cannot be opened. -/
def readNetworkIdSwitch (file : Option Bytes) : Option UInt64 :=
  match readTextFile (List.replicate 64 0) file with
  | none => none
  | some buf =>
    let (value, rest) := strtoull16 buf
    if rest = buf ∨ value = 0 then none else some value

/-- What `f >> s` extracts: the first run of bytes that are no whitespace. -/
def token (content : Bytes) : Bytes :=
  (content.dropWhile isBlankByte).takeWhile (fun b => !isBlankByte b)

/-- `read_network_id` of pc-diag -/
def readNetworkIdPc (file : Option Bytes) : Option UInt64 :=
  match file with
  | none => none
  | some content =>
    let s := token content
    if s = [] then none
    else
      let out := (strtoull16 (s ++ [0])).1
      if out ≠ 0 then some out else none

/-- The number at the front of a text is zero or there is none. -/
theorem readNetworkIdSwitch_eq (content : Bytes) :
    readNetworkIdSwitch (some content) =
      match readTextFile (List.replicate 64 0) (some content) with
      | none => none
      | some buf => if (strtoull16 buf).1 = 0 then none else some (strtoull16 buf).1 := by
  unfold readNetworkIdSwitch
  cases readTextFile (List.replicate 64 0) (some content) with
  | none => rfl
  | some buf =>
    have hor : ((strtoull16 buf).2 = buf ∨ (strtoull16 buf).1 = 0) ↔ (strtoull16 buf).1 = 0 := by
      refine or_iff_right_of_imp ?_
      intro he
      rw [strtoull16_eq_zero, strtoull16_end.mp he]
      rfl
    simp only [hor]

end SwitchLdnZt.Config
