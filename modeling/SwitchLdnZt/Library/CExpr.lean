import Mathlib.Algebra.Group.Int.Defs
import SwitchLdnZt.Library.CTokens

namespace SwitchLdnZt.Library.CExpr
open CTokens

/-- An identifier, by its spelling. -/
def isName (t : Text) : Bool := t.all isWord && !(t.headD '0').isDigit

def digit (c : Char) : Option Nat :=
  if c.isDigit then some (c.toNat - '0'.toNat)
  else if 'a' ≤ c ∧ c ≤ 'f' then some (c.toNat - 'a'.toNat + 10)
  else if 'A' ≤ c ∧ c ≤ 'F' then some (c.toNat - 'A'.toNat + 10)
  else none

def inBase (base : Nat) (ds : Text) : Option Int :=
  ds.foldlM (fun n c => (digit c).bind fun d =>
    if d < base then some (n * base + d) else none) 0

/-- An integer literal, its suffix left out. -/
def literal (t : Text) : Option Int :=
  let ds := (t.reverse.dropWhile (fun c => ['u', 'U', 'l', 'L'].contains c)).reverse
  match ds with
  | [] => none
  | '0' :: x :: hex =>
    if x = 'x' ∨ x = 'X' then (if hex = [] then none else inBase 16 hex)
    else inBase 8 (x :: hex)
  | ds => inBase 10 ds

/-- What waits for its right operand: an operator with how tightly it binds, a
condition whose first branch is read, one whose first branch is known, or an open
parenthesis. -/
inductive Op
  | unary (app : Int → Int)
  | binary (prec : Nat) (app : Int → Int → Option Int)
  | question (cond : Int)
  | colon (cond branch : Int)
  | opened

def truth (p : Prop) [Decidable p] : Option Int := some (if p then 1 else 0)

def bitwise (f : BitVec 64 → BitVec 64 → BitVec 64) (a b : Int) : Option Int :=
  some (f (.ofInt 64 a) (.ofInt 64 b)).toInt

/-- The binary operators, from the one that binds least on. -/
def binaries : List (Text × Nat × (Int → Int → Option Int)) :=
  [(['|', '|'], 2, fun a b => truth (a ≠ 0 ∨ b ≠ 0)),
    (['&', '&'], 3, fun a b => truth (a ≠ 0 ∧ b ≠ 0)),
    (['|'], 4, bitwise (· ||| ·)), (['^'], 5, bitwise (· ^^^ ·)), (['&'], 6, bitwise (· &&& ·)),
    (['=', '='], 7, fun a b => truth (a = b)), (['!', '='], 7, fun a b => truth (a ≠ b)),
    (['<'], 8, fun a b => truth (a < b)), (['>'], 8, fun a b => truth (b < a)),
    (['<', '='], 8, fun a b => truth (a ≤ b)), (['>', '='], 8, fun a b => truth (b ≤ a)),
    (['<', '<'], 9, fun a b => if b < 0 then none else some (a * 2 ^ b.toNat)),
    (['>', '>'], 9, fun a b => if b < 0 then none else some (a / 2 ^ b.toNat)),
    (['+'], 10, fun a b => some (a + b)), (['-'], 10, fun a b => some (a - b)),
    (['*'], 11, fun a b => some (a * b)),
    (['/'], 11, fun a b => if b = 0 then none else some (a.tdiv b)),
    (['%'], 11, fun a b => if b = 0 then none else some (a.tmod b))]

def unaries : List (Text × (Int → Int)) :=
  [(['-'], fun a => -a), (['+'], fun a => a), (['~'], fun a => -a - 1),
    (['!'], fun a => if a = 0 then 1 else 0)]

def opOf {α : Type} (ops : List (Text × α)) (t : Text) : Option α :=
  (ops.find? (fun op => op.1 = t)).map (·.2)

/-- The operands and operators read so far, the last ones first, and whether an
operand is next. -/
structure Eval where
  operands : List Int
  ops : List Op
  operand : Bool

/-- Apply the operators on top that bind at least as tightly, up to a parenthesis. -/
def reduce (prec : Nat) : List Int → List Op → Option (List Int × List Op)
  | as, .unary app :: ops =>
    match as with
    | a :: as => reduce prec (app a :: as) ops
    | [] => none
  | as, .binary p app :: ops =>
    if prec ≤ p then
      match as with
      | b :: a :: as => (app a b).bind fun v => reduce prec (v :: as) ops
      | _ => none
    else some (as, .binary p app :: ops)
  | as, .colon cond branch :: ops =>
    if prec ≤ 1 then
      match as with
      | a :: as => reduce prec ((if cond = 0 then a else branch) :: as) ops
      | [] => none
    else some (as, .colon cond branch :: ops)
  | as, ops => some (as, ops)

variable (env : Text → Option Int)

def operandOf (t : Text) : Option Int :=
  if t.all isWord then (if isName t then env t else literal t) else none

/-- The token where an operand is wanted. -/
def Eval.first (e : Eval) (t : Text) : Option Eval :=
  if t = ['('] then some { e with ops := .opened :: e.ops }
  else match opOf unaries t with
    | some app => some { e with ops := .unary app :: e.ops }
    | none => (operandOf env t).map fun v => ⟨v :: e.operands, e.ops, false⟩

/-- The token behind an operand. -/
def Eval.next (e : Eval) (t : Text) : Option Eval :=
  if t = [')'] then
    (reduce 0 e.operands e.ops).bind fun r =>
      match r with
      | (as, .opened :: ops) => some ⟨as, ops, false⟩
      | _ => none
  else if t = ['?'] then
    (reduce 2 e.operands e.ops).bind fun r =>
      match r with
      | (a :: as, ops) => some ⟨as, .question a :: ops, true⟩
      | _ => none
  else if t = [':'] then
    (reduce 1 e.operands e.ops).bind fun r =>
      match r with
      | (a :: as, .question cond :: ops) => some ⟨as, .colon cond a :: ops, true⟩
      | _ => none
  else (opOf binaries t).bind fun op => (reduce op.1 e.operands e.ops).map fun r =>
    ⟨r.1, .binary op.1 op.2 :: r.2, true⟩

def Eval.step (e : Eval) (t : Text) : Option Eval := if e.operand then e.first env t else e.next t

def Eval.run (e : Eval) (ts : List Text) : Option Eval := ts.foldlM (Eval.step env) e

/-- The value of an integer expression, with names by `env`. -/
def value (ts : List Text) : Option Int :=
  (Eval.run env ⟨[], [], true⟩ ts).bind fun e =>
    if e.operand then none
    else (reduce 0 e.operands e.ops).bind fun r =>
      match r with
      | ([v], []) => some v
      | _ => none

variable {env}

theorem run_append (e : Eval) (ts us : List Text) :
    Eval.run env e (ts ++ us) = (Eval.run env e ts).bind fun e => Eval.run env e us :=
  List.foldlM_append

variable (env) in
/-- Token lists that no expression around them can tell apart. -/
def Same (ts us : List Text) : Prop := ∀ e, Eval.run env e ts = Eval.run env e us

theorem Same.refl (ts : List Text) : Same env ts ts := fun _ => rfl

theorem Same.append {ts us ts' us' : List Text} (h : Same env ts us) (h' : Same env ts' us') :
    Same env (ts ++ ts') (us ++ us') := by
  intro e
  rw [run_append, run_append, h e]
  cases Eval.run env e us with
  | none => rfl
  | some e => exact h' e

theorem Same.flatMap {ts : List Text} {f g : Text → List Text}
    (h : ∀ t ∈ ts, Same env (f t) (g t)) : Same env (ts.flatMap f) (ts.flatMap g) := by
  induction ts with
  | nil => exact .refl []
  | cons t ts ih =>
    obtain ⟨ht, hts⟩ := List.forall_mem_cons.mp h
    rw [List.flatMap_cons, List.flatMap_cons]
    exact ht.append (ih hts)

theorem Same.value {ts us : List Text} (h : Same env ts us) : value env ts = value env us := by
  rw [CExpr.value, CExpr.value, h]

theorem opOf_none {α : Type} {ops : List (Text × α)} {t : Text} (h : ∀ op ∈ ops, '#' ∉ op.1)
    (ht : '#' ∈ t) : opOf ops t = none := by
  have hno : ops.find? (fun op => op.1 = t) = none := by
    rw [List.find?_eq_none]
    intro op hop he
    apply h op hop
    rw [of_decide_eq_true he]
    exact ht
  rw [opOf, hno, Option.map_none]

theorem isWord_of_all {t : Text} (h : t.all isWord = true) : '#' ∉ t :=
  fun hm => absurd (List.all_eq_true.mp h _ hm) (by decide)

/-- No expression has a token with a number sign. -/
theorem step_hash {t : Text} (ht : '#' ∈ t) (e : Eval) : e.step env t = none := by
  have hne {op : Text} (hop : '#' ∉ op) : ¬ t = op := by
    intro he
    rw [he] at ht
    exact hop ht
  have hoperand : operandOf env t = none := by
    rw [operandOf, if_neg]
    intro hall
    exact isWord_of_all hall ht
  have hunary : opOf unaries t = none := opOf_none (by decide) ht
  have hbinary : opOf binaries t = none := opOf_none (by decide) ht
  unfold Eval.step
  split
  · rw [Eval.first, if_neg (hne (by decide)), hunary, hoperand]
    rfl
  · rw [Eval.next, if_neg (hne (by decide)), if_neg (hne (by decide)), if_neg (hne (by decide)),
      hbinary]
    rfl

theorem run_hash {t : Text} (ht : '#' ∈ t) {ts : List Text} (hts : t ∈ ts) (e : Eval) :
    Eval.run env e ts = none := by
  obtain ⟨us, vs, rfl⟩ := List.append_of_mem hts
  rw [run_append]
  cases Eval.run env e us with
  | none => rfl
  | some e =>
    rw [Option.bind_some, Eval.run, List.foldlM_cons, step_hash ht]
    rfl

theorem value_hash {t : Text} (ht : '#' ∈ t) {ts : List Text} (hts : t ∈ ts) :
    value env ts = none := by
  rw [value, run_hash ht hts]
  rfl

end SwitchLdnZt.Library.CExpr
