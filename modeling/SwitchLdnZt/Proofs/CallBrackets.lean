import SwitchLdnZt.Library.CStatements
import SwitchLdnZt.Library.Searching
import SwitchLdnZt.Scripts.LwipThread

namespace SwitchLdnZt.Proofs.CallBrackets
open Library CRegions CStatements Scripts LwipThread
open Preprocess (rows ifdef)
open CTokens (isBlank isWord)

def driver : Text := text "zts_main_lwip_driver_loop"

def isIdentifier (name : Text) : Bool :=
  name.head?.any (fun c => !c.isDigit) && name.all isWord

/-- In a text read from `r` on, a call of that very name begins at this place. -/
def callsAt (r : Region) (name x : Text) (k : Nat) : Bool :=
  let before := x.take k
  let behind := x.drop (k + name.length)
  (read r before).inCode && parted before name && name.isPrefixOf (x.drop k) &&
    parted name behind &&
    ((shown (read r (before ++ name)) behind).dropWhile isLayout).head? == some '('

/-- The first call of a function in the driver loop, and the statement it is in. -/
structure DriverCall (name s : Text) where
  loop : Definition driver s
  items : Items
  parse : items.source = loop.body
  wf : items.wf .statements loop.inside = true
  ident : isIdentifier name = true
  pos : Nat
  call : callsAt loop.inside name loop.body pos = true
  first : ∀ k < pos, callsAt loop.inside name loop.body k = false
  node : Node
  around : items.innermost pos = some node

variable {name s : Text}

/-- Where in the text the statement begins. -/
def DriverCall.offset (c : DriverCall name s) : Nat := c.loop.opening.length + c.node.place

/-- What the script's searches find: on the line behind `u`, the first mention of
the name behind one of the driver's; from there on the first parenthesis, the one
that closes it, and the first semicolon. -/
structure Found (name s u line pre args z v : Text) : Prop where
  text : s = u ++ (line ++ (name ++ (pre ++ '(' :: (args ++ (z ++ ';' :: v)))))
  lineStart : u = [] ∨ u.getLast? = some '\n'
  inline : '\n' ∉ line
  behind : ∃ a b, s = a ++ (driver ++ b) ∧ a.length ≤ (u ++ line).length
  least : ∀ a b a' b', s = a ++ (driver ++ b) → s = a' ++ (name ++ b') →
    a.length ≤ a'.length → (u ++ line).length ≤ a'.length
  opens : '(' ∉ pre
  closes : closing '(' ')' 1 args = some (args, [])
  ends : ';' ∉ z

/-- The text from the line's start to that semicolon. -/
def stretch (name line pre args z : Text) : Text :=
  line ++ (name ++ (pre ++ '(' :: (args ++ (z ++ [';']))))

theorem line_unique {u v x y : Text} (hu : u = [] ∨ u.getLast? = some '\n')
    (hv : v = [] ∨ v.getLast? = some '\n') (hx : '\n' ∉ x) (hy : '\n' ∉ y)
    (h : u ++ x = v ++ y) : u = v ∧ x = y := by
  have shorter {u v x y : Text} (hv : v = [] ∨ v.getLast? = some '\n') (hx : '\n' ∉ x)
      (h : u ++ x = v ++ y) (hl : u.length ≤ v.length) : u = v := by
    obtain ⟨t, rfl, rfl⟩ := append_split h.symm hl
    rcases List.eq_nil_or_concat t with rfl | ⟨t, c, rfl⟩
    · simp
    · rw [List.concat_eq_append] at hv hx
      rcases hv with hv | hv
      · simp at hv
      · rw [← List.append_assoc, List.getLast?_concat, Option.some.injEq] at hv
        exact absurd (by simp [hv]) hx
  have huv : u = v := by
    rcases Nat.le_total u.length v.length with hl | hl
    · exact shorter hv hx h hl
    · exact (shorter hu hy h.symm hl).symm
  subst huv
  exact ⟨rfl, List.append_cancel_left h⟩

theorem Found.unique {u line pre args z v u' line' pre' args' z' v' : Text}
    (h : Found name s u line pre args z v) (h' : Found name s u' line' pre' args' z' v') :
    u = u' ∧ v = v' ∧ stretch name line pre args z = stretch name line' pre' args' z' := by
  have least {u line pre args z v u' line' pre' args' z' v' : Text}
      (h : Found name s u line pre args z v) (h' : Found name s u' line' pre' args' z' v') :
      (u ++ line).length ≤ (u' ++ line').length := by
    obtain ⟨a, b, hs, hle⟩ := h'.behind
    exact h.least a b (u' ++ line') _ hs (by rw [h'.text, List.append_assoc]) hle
  have htext := h.text.symm.trans h'.text
  rw [← List.append_assoc u, ← List.append_assoc u'] at htext
  obtain ⟨hline, hrest⟩ := List.append_inj htext (Nat.le_antisymm (least h h') (least h' h))
  obtain ⟨rfl, rfl⟩ := line_unique h.lineStart h'.lineStart h.inline h'.inline hline
  have hopen := List.append_cancel_left hrest
  rw [List.append_cons pre, List.append_cons pre'] at hopen
  obtain ⟨rfl, hargs⟩ := closed_unique h.opens h'.opens hopen
  have hclose := closing_behind h.closes (z ++ ';' :: v)
  rw [hargs, closing_behind h'.closes, Option.some.injEq, Prod.mk.injEq] at hclose
  obtain ⟨rfl, hz⟩ := hclose
  rw [List.append_cons z, List.append_cons z'] at hz
  obtain ⟨rfl, rfl⟩ := closed_unique h'.ends h.ends hz
  exact ⟨rfl, rfl, rfl⟩

def beforeCall (indent : Text) (label : String) : List Text :=
  diag indent ("DRIVER: BEFORE_" ++ label)

def afterCall (indent : Text) (label : String) : List Text :=
  diag indent ("DRIVER: AFTER_" ++ label)

/-- The text with a block before the stretch `t` and one behind it. -/
def wrapped (label : String) (indent : Text) (w : Work) (u t v : Text) : Work :=
  (w.put (.before u (beforeCall indent label) [] (t ++ v))).put
    (.behind (u ++ (Preprocess.guarded switch (beforeCall indent label) ++ '\n' :: t))
      (afterCall indent label) v)

/-- The statement is one of a list and begins its line, and the searches end at its
last character. -/
def DriverCall.Fits (c : DriverCall name s) : Prop :=
  c.node.listed = true ∧ ∃ u lead h pre args z v, Found name s u (lead ++ h) pre args z v ∧
    (∀ d ∈ lead, isBlank d = true) ∧ (u ++ lead).length = c.offset ∧
    c.node.stmt.source = stretch name h pre args z

/-- The statement stands at its place, in code, and closes the braces it opens. -/
theorem DriverCall.placed (c : DriverCall name s) : ∃ x v, s = x ++ (c.node.stmt.source ++ v) ∧
    x.length = c.offset ∧ (read start x).inCode = true ∧
      Sound (read start x) c.node.stmt.source := by
  obtain ⟨⟨u, v, hitems, hplace, hcode, hwf⟩, -⟩ := Items.innermost_spec c.wf c.around
  rw [Definition.inside, ← read_append] at hcode hwf
  refine ⟨c.loop.opening ++ u, v ++ '\x7d' :: c.loop.after, ?_, ?_, hcode,
    c.node.stmt.sound hcode hwf⟩
  · refine c.loop.text_opening.trans ?_
    rw [← c.parse, hitems]
    simp
  · have hu : c.node.place = u.length := by simpa using hplace
    rw [DriverCall.offset, hu, List.length_append]

theorem traced_guarded (label : String) (a b indent : Text) :
    traced label (a ++ (Preprocess.guarded switch (diag indent label) ++ b)) = true := by
  apply occurs_iff.mpr
  refine ⟨a ++ (rows [ifdef switch] ++ (indent ++ text "printf(\"")),
    text "\\n\");" ++ ('\n' :: (rows [update indent] ++ text "#endif") ++ b), ?_⟩
  have hprint : text "printf(\"[SWITCH-DIAG] " = text "printf(\"" ++ text "[SWITCH-DIAG] " := rfl
  simp [Preprocess.guarded, rows, diag, printDiag, hprint]

end SwitchLdnZt.Proofs.CallBrackets
