import SwitchLdnZt.Library.CMacros
import SwitchLdnZt.Library.Swapped
import SwitchLdnZt.Scripts.Keepalive

namespace SwitchLdnZt.Proofs.KeepaliveCadence
open Library CTokens CExpr CMacros Scripts Keepalive

def pingPeriod : Text := text "ZT_PEER_PING_PERIOD"
def pathExpiration : Text := text "ZT_PEER_PATH_EXPIRATION"
def trialPeriod : Text := text "ZT_PEER_EXPIRED_PATH_TRIAL_PERIOD"

def periods : List Text := [pingPeriod, pathExpiration, trialPeriod]
def derivedPeriods : List Text := [pathExpiration, trialPeriod]

/-- The macros that expressions in a text are read with: what it defines the three
periods as, and whatever other macros there are. -/
def macros (others : Table) (s : Text) : Table :=
  periods.map (fun n => (n, (bodies n s).headD [])) ++ others

/-- With this in front of a table the ping period is upstream's. -/
def upstreamPing : Text × List Text := (pingPeriod, [text "60000"])

section
variable (env : Text → Option Int) (others : Table)

/-- The text defines the three periods, each as an integer expression. -/
structure Defines (s : Text) : Prop where
  once : ∀ n ∈ periods, (bodies n s).length = 1
  ping : (worth env (macros others s) pingPeriod).isSome = true
  derived : ∀ n ∈ derivedPeriods, (worth env (upstreamPing :: macros others s) n).isSome = true

end

/-- A line of upstream's that is rewritten, and what becomes of the definition in it. -/
structure Pin where
  name : Text
  old : Text
  new : Text
  read : List Text → List Text

/-- A number that is ten thousand where upstream's is sixty. -/
def tenThousand : List Text → List Text
  | (_ :: digits) :: post => ('1' :: digits) :: post
  | body => body

def pathFormula : List Text :=
  [['('], ['('], pingPeriod, ['*'], ['4'], [')'], ['+'], text "3000", [')']]

def trialFormula : List Text := [['('], pingPeriod, ['*'], text "10", [')']]

def parens (number : Text) : List Text := [['('], number, [')']]

def pingPin : Pin := ⟨pingPeriod, text "#define ZT_PEER_PING_PERIOD 60000",
  text "#define ZT_PEER_PING_PERIOD 10000", tenThousand⟩

def pathPin : Pin := ⟨pathExpiration,
  text "#define ZT_PEER_PATH_EXPIRATION ((ZT_PEER_PING_PERIOD * 4) + 3000)",
  text "#define ZT_PEER_PATH_EXPIRATION (243000)",
  fun body => parens (text "243000") ++ body.drop pathFormula.length⟩

def trialPin : Pin := ⟨trialPeriod,
  text "#define ZT_PEER_EXPIRED_PATH_TRIAL_PERIOD (ZT_PEER_PING_PERIOD * 10)",
  text "#define ZT_PEER_EXPIRED_PATH_TRIAL_PERIOD (600000)",
  fun body => parens (text "600000") ++ body.drop trialFormula.length⟩

/-- The line is in the text as a line, not within a comment, a literal or another line. -/
def Pin.spelled (pin : Pin) (s : Text) : Bool :=
  match cut pin.old s with
  | some (a, _) => opensLine a
  | none => false

/-- A period's definition, upstream's line taken for what is to stand there. -/
def Pin.body (pin : Pin) (s : Text) : List Text :=
  let body := (bodies pin.name s).headD []
  if pin.spelled s then pin.read body else body

def pins : List Pin := [pingPin, pathPin, trialPin]

def pinned (others : Table) (s : Text) : Table :=
  pins.map (fun pin => (pin.name, pin.body s)) ++ others

/-- With upstream's own lines taken for what is to stand there: the ping period is ten
seconds, and the derived periods do not depend on whether it is that or upstream's. -/
structure Fits (env : Text → Option Int) (others : Table) (s : Text) : Prop where
  ping : worth env (pinned others s) pingPeriod = some 10000
  derived : ∀ n ∈ derivedPeriods,
    worth env (pinned others s) n = worth env (upstreamPing :: pinned others s) n

/-- A definition that begins with one of upstream's formulas, and the one that begins
with the number it comes to. -/
def Grouped (body body' : List Text) : Prop :=
  ∃ post, (body = pathFormula ++ post ∧ body' = parens (text "243000") ++ post) ∨
    (body = trialFormula ++ post ∧ body' = parens (text "600000") ++ post)

/-- What rewriting the line does to the definition. -/
structure Pin.Reads (pin : Pin) (body body' : List Text) : Prop where
  read : body' = pin.read body
  clean : (∀ t ∈ body, '#' ∉ t) → ∀ t ∈ body', '#' ∉ t
  grouped : pin.name ≠ pingPeriod → Grouped body body'

/-- A line and what it is rewritten to both define the period. -/
def Pin.Rewrites (pin : Pin) : Prop := ∃ x x', pin.old = text "#define " ++ x ∧
  pin.new = text "#define " ++ x' ∧ Rewrite pin.name x x' pin.Reads

/-- The one definition of a name in a text, which no number sign spoils. -/
structure Defined (n s : Text) (body : List Text) : Prop where
  once : bodies n s = [body]
  clean : ∀ t ∈ body, '#' ∉ t

/-- A name keeps its definition unless it is the one rewritten, as a line. -/
theorem Pin.Rewrites.defined {pin : Pin} (hp : pin.Rewrites) {n s : Text} (hn : '#' ∉ n)
    {body : List Text} (h : Defined n s body) :
    ∃ body', Defined n (replaceFirst pin.old pin.new s) body' ∧
      if pin.name = n ∧ pin.spelled s = true then pin.Reads body body' else body' = body := by
  obtain ⟨x, x', hold, hnew, hrewrite⟩ := hp
  unfold replaceFirst Pin.spelled
  cases hcut : cut pin.old s with
  | none => exact ⟨body, h, by simp⟩
  | some split =>
    obtain ⟨a, b⟩ := split
    have hs := cut_eq hcut
    rw [hold] at hs
    have hclean : Clean n (tokenLines (a ++ (text "#define " ++ x) ++ b)) := by
      intro c hc
      rw [← hs] at hc
      have hbody : c ∈ bodies n s := hc
      rw [h.once, List.mem_singleton] at hbody
      rw [hbody]
      exact h.clean
    have hbodies := hrewrite.bodies a b hn hclean
    rw [← hs, ← hnew, h.once] at hbodies
    simp only at hbodies ⊢
    by_cases hat : opensLine a = true ∧ pin.name = n
    · rw [if_pos hat] at hbodies
      obtain ⟨front, back, c, c', hreads, hbefore, hafter⟩ := hbodies
      obtain ⟨rfl, hbefore⟩ : front = [] ∧ [body] = c :: back := by
        cases front with
        | nil => exact ⟨rfl, hbefore⟩
        | cons _ _ => simp at hbefore
      obtain ⟨rfl, rfl⟩ : body = c ∧ back = [] := by simpa using hbefore
      refine ⟨c', ⟨hafter, hreads.clean h.clean⟩, ?_⟩
      rw [if_pos hat.symm]
      exact hreads
    · rw [if_neg hat] at hbodies
      refine ⟨body, ⟨hbodies, h.clean⟩, ?_⟩
      rw [if_neg (fun h => hat h.symm)]

/-- Whether a line begins behind a text does not depend on rewriting another line in it. -/
theorem Pin.Rewrites.opensLine {pin : Pin} (hp : pin.Rewrites) {a a' : Text}
    (h : Swapped [pin.old, pin.new] a a') (front : Text) :
    opensLine (front ++ a) = CMacros.opensLine (front ++ a') := by
  obtain ⟨x, x', hold, hnew, hrewrite⟩ := hp
  induction h generalizing front with
  | nil => rfl
  | @char t t' c _ ih =>
    rw [List.append_cons front c t, List.append_cons front c t']
    exact ih (front ++ [c])
  | @swap t t' y y' hy hy' _ ih =>
    have hlines : CMacros.opensLine (front ++ y ++ t) = CMacros.opensLine (front ++ y' ++ t) := by
      have hrw := hrewrite.opensLine front t
      rw [← hold, ← hnew] at hrw
      simp only [List.mem_cons, List.not_mem_nil, or_false] at hy hy'
      rcases hy with rfl | rfl <;> rcases hy' with rfl | rfl
      · rfl
      · exact hrw
      · exact hrw.symm
      · rfl
    rw [← List.append_assoc, hlines, ih (front ++ y'), List.append_assoc]

/-- Neither of two lines shares a character with the other. -/
def Pin.Apart (pin other : Pin) : Prop :=
  pin.old ≠ [] ∧ ∀ y ∈ [other.old, other.new], Library.Apart pin.old y

theorem Pin.Rewrites.spelled {pin other : Pin} (ho : other.Rewrites) (h : pin.Apart other)
    (s : Text) : pin.spelled (replaceFirst other.old other.new s) = pin.spelled s := by
  unfold Pin.spelled
  rcases (replaceFirst_swapped other.old other.new s).cut h.1 h.2 with
    ⟨hs, hs'⟩ | ⟨a, b, a', b', hs, hs', ha, -⟩
  · rw [hs, hs']
  · rw [hs, hs']
    exact (ho.opensLine ha []).symm

theorem Pin.Apart.of_apart {pin other : Pin} (hne : pin.old ≠ [])
    (hold : apart pin.old other.old = true) (hnew : apart pin.old other.new = true) :
    pin.Apart other := by
  refine ⟨hne, ?_⟩
  intro y hy
  simp only [List.mem_cons, List.not_mem_nil, or_false] at hy
  rcases hy with rfl | rfl
  · exact .of_apart hold
  · exact .of_apart hnew

/-- Tables that have upstream's ping period and differ in whether a formula of upstream's
is its number. -/
structure Paired (table table' : Table) : Prop where
  ping : table.lookup pingPeriod = some [text "60000"]
  ping' : table'.lookup pingPeriod = some [text "60000"]
  other : ∀ n, n ≠ pingPeriod → table.lookup n = table'.lookup n ∨ ∃ body body',
    table.lookup n = some body ∧ table'.lookup n = some body' ∧ Grouped body body'

theorem Paired.without {table table' : Table} (h : Paired table table') {n : Text}
    (hn : n ≠ pingPeriod) : Paired (table.without n) (table'.without n) := by
  refine ⟨?_, ?_, ?_⟩
  · rw [lookup_without table hn.symm, h.ping]
  · rw [lookup_without table' hn.symm, h.ping']
  · intro m hm
    by_cases he : m = n
    · subst he
      exact .inl (by rw [lookup_without_self, lookup_without_self])
    · rw [lookup_without table he, lookup_without table' he]
      exact h.other m hm

/-- What an expression is with upstream's ping period in it. -/
theorem expand_formula {table : Table} (h : table.lookup pingPeriod = some [text "60000"])
    (depth : Nat) {ts : List Text} (hts : ∀ t ∈ ts, t = pingPeriod ∨ isName t = false) :
    expand (depth + 1) table ts =
      ts.map (fun t => if t = pingPeriod then text "60000" else t) := by
  rw [expand, List.map_eq_flatMap]
  apply List.flatMap_congr
  intro t ht
  rcases hts t ht with rfl | hname
  · rw [h, if_pos rfl]
    exact expand_plain depth _ (by decide)
  · have hne : t ≠ pingPeriod := by
      intro he
      rw [he] at hname
      exact absurd hname (by decide)
    rw [Table.lookup, hname, if_neg hne]
    rfl

/-- With upstream's ping period its formulas come to the numbers, in any expression. -/
theorem Grouped.formula {env : Text → Option Int} {table table' : Table} {body body' : List Text}
    (h : Grouped body body') (hping : table.lookup pingPeriod = some [text "60000"]) (depth : Nat) :
    ∃ ts us post, body = ts ++ post ∧ body' = us ++ post ∧
      Same env (expand (depth + 1) table ts) (expand (depth + 1) table' us) := by
  obtain ⟨post, ⟨rfl, rfl⟩ | ⟨rfl, rfl⟩⟩ := h
  · refine ⟨pathFormula, parens (text "243000"), post, rfl, rfl, ?_⟩
    rw [expand_formula hping depth (by decide), expand_plain _ _ (by decide)]
    intro e
    obtain ⟨as, ops, operand⟩ := e
    cases operand with
    | false => rfl
    | true => rfl
  · refine ⟨trialFormula, parens (text "600000"), post, rfl, rfl, ?_⟩
    rw [expand_formula hping depth (by decide), expand_plain _ _ (by decide)]
    intro e
    obtain ⟨as, ops, operand⟩ := e
    cases operand with
    | false => rfl
    | true => rfl

theorem Paired.same {env : Text → Option Int} {depth : Nat} {table table' : Table}
    (h : Paired table table') (hlen : table.length ≤ depth) (ts : List Text) :
    Same env (expand depth table ts) (expand depth table' ts) := by
  induction depth generalizing table table' ts with
  | zero => exact .refl ts
  | succ depth ih =>
    apply Same.flatMap
    intro t _
    by_cases ht : t = pingPeriod
    · subst ht
      rw [h.ping, h.ping']
      simp only
      rw [expand_plain depth _ (by decide), expand_plain depth _ (by decide)]
      exact .refl _
    · have hwithout := h.without ht
      rcases h.other t ht with hsame | ⟨body, body', hb, hb', hgrouped⟩
      · rw [← hsame]
        cases hb : table.lookup t with
        | none => exact .refl _
        | some body =>
          have hshort := length_without hb
          exact ih hwithout (by omega) body
      · have hshort := length_without hb
        have hpositive := length_without hwithout.ping
        obtain ⟨rest, rfl⟩ : ∃ rest, depth = rest + 1 := ⟨depth - 1, by omega⟩
        rw [hb, hb']
        obtain ⟨us, us', post, rfl, rfl, hus⟩ := hgrouped.formula hwithout.ping rest
        simp only
        rw [expand_append, expand_append]
        exact hus.append (ih hwithout (by omega) post)

def Pin.apply (pin : Pin) (s : Text) : Text := replaceFirst pin.old pin.new s

theorem Pin.Rewrites.own {pin : Pin} (hp : pin.Rewrites) (hn : '#' ∉ pin.name) {s : Text}
    {body : List Text} (h : Defined pin.name s body) :
    Defined pin.name (pin.apply s) (pin.body s) ∧
      (pin.body s = body ∨ pin.Reads body (pin.body s)) := by
  obtain ⟨body', h', hcases⟩ := hp.defined hn h
  have hbody : pin.body s = if pin.spelled s = true then pin.read body else body := by
    simp [Pin.body, h.once]
  by_cases hs : pin.spelled s = true
  · rw [if_pos ⟨rfl, hs⟩] at hcases
    rw [hbody, if_pos hs, ← hcases.read]
    exact ⟨h', .inr hcases⟩
  · rw [if_neg (fun h => hs h.2)] at hcases
    rw [hbody, if_neg hs]
    rw [hcases] at h'
    exact ⟨h', .inl rfl⟩

theorem Pin.Rewrites.other {pin : Pin} (hp : pin.Rewrites) {n : Text} (hn : '#' ∉ n)
    (hne : pin.name ≠ n) {s : Text} {body : List Text} (h : Defined n s body) :
    Defined n (pin.apply s) body := by
  obtain ⟨body', h', hcases⟩ := hp.defined hn h
  rw [if_neg (fun h => hne h.1)] at hcases
  rw [hcases] at h'
  exact h'

theorem lookup_macros {s : Text} {n : Text} (hn : n ∈ periods) (others : Table) :
    (macros others s).lookup n = some ((bodies n s).headD []) := by
  simp only [periods, List.mem_cons, List.not_mem_nil, or_false] at hn
  rcases hn with rfl | rfl | rfl
  · rfl
  · rfl
  · rfl

theorem lookup_upstream (table : Table) {n : Text} (hn : n ≠ pingPeriod) :
    Table.lookup (upstreamPing :: table) n = table.lookup n :=
  lookup_append [upstreamPing] (by simpa [upstreamPing] using hn) table

/-- A text that defines the periods as integers has no number sign in their definitions. -/
theorem Defines.defined {env : Text → Option Int} {others : Table} {s : Text}
    (h : Defines env others s) : ∀ n ∈ periods, ∃ body, Defined n s body := by
  intro n hn
  obtain ⟨body, hbody⟩ := List.length_eq_one_iff.mp (h.once n hn)
  refine ⟨body, hbody, ?_⟩
  intro t ht hsign
  have hlookup : (macros others s).lookup n = some body := by rw [lookup_macros hn, hbody]; rfl
  by_cases hping : n = pingPeriod
  · subst hping
    have := h.ping
    rw [worth_hash hlookup hsign ht] at this
    cases this
  · have hderived : n ∈ derivedPeriods := by
      simpa [periods, derivedPeriods, hping] using hn
    have := h.derived n hderived
    rw [← lookup_upstream _ hping] at hlookup
    rw [worth_hash hlookup hsign ht] at this
    cases this

theorem patchScale_frame {t t' : Tree} (h : patchScale t = .ok t') {q : Path}
    (hq : q.getLast? ≠ some "Node.cpp") : t'.raw q = t.raw q := by
  unfold patchScale at h
  split at h
  · cases h
  next p hfind =>
    apply edit_frame h
    intro he
    rw [he] at hq
    exact hq (rglob_name hfind)

/-- A script that finishes has put a Constants.hpp through the replacements. -/
theorem patchKeepalive_constants {t t' : Tree} (h : patchKeepalive t = .ok t') :
    ∃ p raw s' n, p.getLast? = some "Constants.hpp" ∧ t.raw p = some (some raw) ∧
      constants p (universalNewlines raw) = .ok (s', n) ∧
      t'.raw p = some (some (if n = 0 then raw else s')) := by
  obtain ⟨t₁, hscale, hconstants⟩ := bind_ok.mp h
  unfold patchConstants at hconstants
  split at hconstants
  · cases hconstants
  next p hfind =>
    have hname := findFile_name hfind
    obtain ⟨raw, hraw, hedit⟩ := edit_ok hconstants
    have hframe := patchScale_frame hscale (q := p) (by rw [hname]; decide)
    rw [hraw] at hframe
    rcases hedit with ⟨hwrite, rfl⟩ | ⟨s', hwrite, rfl⟩
    · obtain ⟨⟨s', n⟩, hdone, hn⟩ := bind_ok.mp hwrite
      refine ⟨p, raw, s', n, hname, hframe.symm, hdone, ?_⟩
      by_cases hzero : n = 0
      · rw [if_pos hzero]
        exact hraw
      · simp [hzero, pure, Except.pure] at hn
    · obtain ⟨⟨s'', n⟩, hdone, hn⟩ := bind_ok.mp hwrite
      refine ⟨p, raw, s'', n, hname, hframe.symm, hdone, ?_⟩
      by_cases hzero : n = 0
      · simp [hzero, pure, Except.pure] at hn
      · rw [if_neg hzero, writeText_raw_self]
        simp only [hzero, if_false, pure, Except.pure, Except.ok.injEq, Option.some.injEq] at hn
        rw [hn]

end SwitchLdnZt.Proofs.KeepaliveCadence
