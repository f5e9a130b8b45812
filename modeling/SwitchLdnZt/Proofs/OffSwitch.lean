import SwitchLdnZt.Proofs.FunctionSpan
import SwitchLdnZt.Scripts.LwipEdits

namespace SwitchLdnZt.Proofs.OffSwitch
open Library Preprocess CTokens CRegions Scripts LwipThread FunctionSpan

theorem guards_switch : Guards switch := ⟨rfl, by decide, by decide⟩

variable (m : Macros switch)

/-- As long as every place was fit, the text means what it meant at the start. -/
def Kept (ref : Text) (w : Work) : Prop :=
  (∀ i ∈ w.log, i.Fit m) → process m w.text = process m ref

variable {m} {ref : Text}

theorem Kept.put {w : Work} (h : Kept m ref w) {i : Insertion} (hold : i.old = w.text)
    (hp : i.Plain) : Kept m ref (w.put i) := by
  intro hfit
  have hi : i.Fit m := hfit i (List.mem_append_right _ List.mem_cons_self)
  have hw := h (fun j hj => hfit j (List.mem_append_left _ hj))
  calc process m (i.new switch) = process m i.old := Insertion.process_new m guards_switch hp hi
    _ = process m w.text := by rw [hold]
    _ = process m ref := hw

/-- `introduce_thread` as it is read off the Switch. -/
def introOff : Text := rows (introHeader ++ introOther) ++ text "\x7d"

variable {sig s : Text}

/-- The original, but for the helper that the script replaces. It is the definition
that a reader of C sees, whatever the script takes for it. -/
def original (d : Definition sig s) : Text := d.before ++ introOff ++ d.after

/-- The definition looks as the script expects, nothing before it does, and the scan
for its end, which counts every brace, comes to its own. -/
structure Found (d : Definition sig s) : Prop where
  head : Hits introducePattern (sig ++ (d.gap ++ ['\x7b']))
  first : FirstHit d
  steady : d.Steady

variable (m)

def driver (opening : String) : Text := lines
  ["zts_main_lwip_driver_loop()", opening, "  sys_sem_new();", "  tcpip_init();",
    "  sys_sem_wait();", "\x7d", ""]

/-- Where there is no driver loop there is nothing to probe. -/
example : (virtualTap (text "void zts_lwip_driver_init();")).isOk = false := by decide +kernel

end SwitchLdnZt.Proofs.OffSwitch
