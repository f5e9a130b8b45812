import Mathlib.Algebra.Order.Field.Rat
import SwitchLdnZt.App.Main

namespace SwitchLdnZt.Proofs.ResourceBalance
open Library App Config

/-- What an ending did with one resource. -/
def share (r : Resource) (acts : List Act) : List Act :=
  acts.filter (fun a => a.resource = r)

/-- Acquired once and then released once, or left alone. -/
def Balanced (acts : List Act) : Prop :=
  ∀ r, share r acts = [] ∨ share r acts = [.acquired r, .released r]

theorem balanced_iff (acts : List Act) : Balanced acts ↔
    (share .console acts = [] ∨ share .console acts = [.acquired .console, .released .console]) ∧
    (share .sdmc acts = [] ∨ share .sdmc acts = [.acquired .sdmc, .released .sdmc]) ∧
    (share .socket acts = [] ∨ share .socket acts = [.acquired .socket, .released .socket]) := by
  constructor
  · intro h
    exact ⟨h .console, h .sdmc, h .socket⟩
  · rintro ⟨hc, hm, hs⟩ r
    cases r with
    | console => exact hc
    | sdmc => exact hm
    | socket => exact hs

instance (acts : List Act) : Decidable (Balanced acts) :=
  decidable_of_iff _ (balanced_iff acts).symm

/-- What every path of `main` begins with. -/
def opened (console mount : Bool) : List Act :=
  acquire .sdmc mount (acquire .console console [])

theorem noService_balanced (console mount : Bool) :
    Balanced (release .console (release .sdmc (opened console mount))) ↔
      console = true ∧ mount = true := by
  cases console <;> cases mount <;> decide

theorem cleaned_balanced (console mount : Bool) :
    Balanced (release .console (release .sdmc (release .socket
      (acquire .socket true (opened console mount))))) ↔ console = true ∧ mount = true := by
  cases console <;> cases mount <;> decide

/-- The socket service is never given back where the network id is missing. -/
theorem missing_unbalanced (console mount : Bool) :
    ¬ Balanced (release .console (release .sdmc
      (acquire .socket true (opened console mount)))) := by
  cases console <;> cases mount <;> decide

/-- The SD card is never unmounted behind the main loop. -/
theorem exiting_balanced (console mount : Bool) :
    Balanced (release .console (release .socket
      (acquire .socket true (opened console mount)))) ↔ console = true ∧ mount = false := by
  cases console <;> cases mount <;> decide

variable {K : Type} [Field K] [LinearOrder K]

/-- `main` takes one of the three ends that unmount and exit what they should. -/
def EndsEarly (w : World K) : Prop :=
  w.socketRc ≠ 0 ∨ w.flag.any isReg = true ∨
    readNetworkIdSwitch w.file ≠ none ∧ initZerotier w.pipeRc w.storageRc ≠ ztsErrOk

def ReachesLoop (w : World K) : Prop :=
  w.socketRc = 0 ∧ w.flag.any isReg = false ∧
    readNetworkIdSwitch w.file ≠ none ∧ initZerotier w.pipeRc w.storageRc = ztsErrOk

/-- What was acquired is released exactly when the console came up and either the
card was mounted and `main` ended before the loop, the network id present, or the
card was not mounted and the loop was reached. -/
theorem main_balanced (w : World K) :
    Balanced (main w).acts ↔
      w.console = true ∧ (EndsEarly w ∧ w.mountRc = 0 ∨ ReachesLoop w ∧ w.mountRc ≠ 0) := by
  have hmount : (w.mountRc == 0) = true ↔ w.mountRc = 0 := beq_iff_eq
  have hnot : (w.mountRc == 0) = false ↔ w.mountRc ≠ 0 := beq_eq_false_iff_ne
  unfold main EndsEarly ReachesLoop
  by_cases hsock : w.socketRc = 0
  · cases hflag : w.flag.any isReg with
    | true =>
      simp only [hsock, ne_eq, not_true_eq_false, ↓reduceIte, true_or, or_true, true_and,
        Bool.true_eq_false, false_and, or_false]
      rw [← hmount]
      exact cleaned_balanced w.console _
    | false =>
      cases hid : readNetworkIdSwitch w.file with
      | none =>
        simp only [hsock, ne_eq, not_true_eq_false, ↓reduceIte, Bool.false_eq_true, or_self,
          false_and, and_false, iff_false]
        exact missing_unbalanced w.console _
      | some id =>
        by_cases hinit : initZerotier w.pipeRc w.storageRc = ztsErrOk
        · simp only [hsock, ne_eq, not_true_eq_false, ↓reduceIte, Bool.false_eq_true, hinit,
            reduceCtorEq, not_false_eq_true, and_false, or_self, false_and, and_self,
            true_and, false_or]
          rw [← ne_eq, ← hnot]
          exact exiting_balanced w.console _
        · simp only [hsock, ne_eq, not_true_eq_false, ↓reduceIte, Bool.false_eq_true, hinit,
            reduceCtorEq, not_false_eq_true, and_self, or_true, true_and, and_false, false_and,
            or_false]
          rw [← hmount]
          exact cleaned_balanced w.console _
  · simp only [hsock, ne_eq, not_false_eq_true, ↓reduceIte, true_or, true_and, false_and,
      or_false]
    rw [← hmount]
    exact noService_balanced w.console _

/-- Everything comes up, and the network id file is not there. -/
def idMissing : World ℚ :=
  ⟨true, 0, 0, none, 0, 0, 0, [], none, 0, 0, 0, []⟩

/-- Everything comes up, the loop is entered, and plus is pressed at once. -/
def plusPressed : World ℚ :=
  ⟨true, 0, 0, none, 0, 0, 0, [], some (ascii "8056c2e21c000001"), 0, 0, 0, []⟩

theorem main_unbalanced :
    ¬ ∀ w : World ℚ, Balanced (main w).acts := by
  intro h
  have hm := h idMissing
  revert hm
  decide

example : ¬ Balanced (main plusPressed).acts := by decide

end SwitchLdnZt.Proofs.ResourceBalance
