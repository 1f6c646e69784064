import SlotLang.Proofs.Capacity
import SlotLang.Proofs.Layout
import SlotLang.Proofs.Literals

/-!
# Outlines lose nothing

An outline shows a program as a tree, and the indentation of its lines is all that says which line
stands under which. That is enough: two programs with the same outline are equal up to spans,
however deep their calls are nested and however many arguments these have, as long as variables are
named by identifiers.

A node of the tree is a `Label`, which is what its line says, and the expressions under it. A label
can be read off its line (`Label.text_inj`), since no name has a character in it that stands behind
names. The lines under a node end where one of a lower level comes, or none: `Shallow` says so of
the text behind them, and `Expr.outline_inj` is an induction over the tree with such a text behind
it.
-/

namespace SlotLang

/-! ### Trees of labels -/

/-- What a line of an outline says about the node that it stands for. -/
inductive Label where
  /-- A declaration, with its value under it. -/
  | declaration (name : String) (var : Variable)
  /-- A number. -/
  | int (value : Int32)
  /-- A variable that is read. -/
  | read (name : String) (var : Variable)
  /-- A call, with its arguments under it. -/
  | call (builtin : Builtin)

namespace Label

/-- The word that a line begins with. -/
def kind : Label → String
  | declaration .. => "Assignation"
  | int _ => "Int"
  | read .. => "VariableRead"
  | call _ => "FunctionCall"

/-- What stands between the parentheses of a line. -/
def body : Label → String
  | declaration name v => name ++ ": " ++ v.type.keyword ++ ", slot " ++ Decimal.ofNat v.slot
  | int value => Decimal.ofInt32 value
  | read name v => name ++ ", slot " ++ Decimal.ofNat v.slot
  | call builtin => builtin.name

/-- The line of a label, without its indentation. -/
def text (l : Label) : String := l.kind ++ "(" ++ l.body ++ ")"

/-- The name in the label, if it has one, is an identifier. -/
def Named : Label → Prop
  | declaration name _ | read name _ => isName name = true
  | int _ | call _ => True

end Label

namespace Expr

/-- The expression without its places. -/
def unplaced (e : Expr) : Expr := e.relocate fun _ ↦ .nowhere

/-- What the first line of the expression says. -/
def label : Expr → Label
  | int value _ => .int value
  | read name v _ => .read name v
  | call builtin _ _ => .call builtin

/-- The expressions one level under the expression. -/
def under : Expr → List Expr
  | int .. | read .. => []
  | call _ args _ => args

theorem sizeOf_under_lt (e : Expr) : sizeOf e.under < sizeOf e := by
  rcases e with ⟨value, ⟨⟩⟩ | ⟨name, v, ⟨⟩⟩ | ⟨builtin, args, span⟩ <;> simp [under] <;> omega

theorem outline_eq (level : Nat) (e : Expr) :
    e.outline level = outlineLine level e.label.text ++ outlineList (level + 1) e.under := by
  cases e <;> simp [outline, outlineList, label, under, Label.text, Label.kind, Label.body,
    String.append_assoc]

/-- A label, and what is under it up to spans, are all of an expression up to spans. -/
theorem unplaced_eq {e e' : Expr} (hlabel : e.label = e'.label)
    (hunder : e.under.map unplaced = e'.under.map unplaced) : e.unplaced = e'.unplaced := by
  cases e <;> cases e' <;> cases hlabel
  case int.int | read.read => rfl
  case call.call =>
    simp only [unplaced, relocate, relocateList_eq_map]
    exact congrArg (call _ · _) hunder

end Expr

namespace Stmt

/-- The statement without its places. -/
def unplaced (s : Stmt) : Stmt := s.relocate fun _ ↦ .nowhere

/-- What the first line of the statement says. -/
def label : Stmt → Label
  | declaration name v _ _ => .declaration name v
  | expr e => e.label

/-- The expressions one level under the statement. -/
def under : Stmt → List Expr
  | declaration _ _ value _ => [value]
  | expr e => e.under

theorem outline_eq (s : Stmt) :
    s.outline = outlineLine 1 s.label.text ++ Expr.outlineList 2 s.under := by
  cases s with
  | declaration name v value span =>
    simp [outline, Expr.outlineList, label, under, Label.text, Label.kind, Label.body,
      String.append_assoc]
  | expr e => exact e.outline_eq 1

/-- No expression has the label of a declaration. -/
theorem label_expr_ne (e : Expr) (name : String) (v : Variable) :
    e.label ≠ .declaration name v := by
  cases e <;> exact fun h ↦ by cases h

theorem unplaced_eq {s s' : Stmt} (hlabel : s.label = s'.label)
    (hunder : s.under.map Expr.unplaced = s'.under.map Expr.unplaced) :
    s.unplaced = s'.unplaced := by
  cases s with
  | declaration name v value span =>
    cases s' with
    | declaration name' v' value' span' =>
      cases hlabel
      exact congrArg (declaration name v · _) (List.cons.inj hunder).1
    | expr e => exact absurd hlabel.symm (label_expr_ne e name v)
  | expr e =>
    cases s' with
    | declaration name' v' value' span' => exact absurd hlabel (label_expr_ne e name' v')
    | expr e' => exact congrArg expr (Expr.unplaced_eq hlabel hunder)

end Stmt

/-! ### Names that are identifiers -/

/-- Every variable in the expression goes by an identifier, however deep it stands. -/
inductive Expr.Named : Expr → Prop
  | int (value : Int32) (span : Span) : Expr.Named (.int value span)
  | read {name : String} (v : Variable) (span : Span) (h : isName name = true) :
      Expr.Named (.read name v span)
  | call (builtin : Builtin) {args : List Expr} (span : Span) (h : ∀ e ∈ args, Expr.Named e) :
      Expr.Named (.call builtin args span)

/-- Every variable in the statement goes by an identifier. -/
inductive Stmt.Named : Stmt → Prop
  | declaration {name : String} (v : Variable) {value : Expr} (span : Span)
      (h : isName name = true) (hvalue : value.Named) :
      Stmt.Named (.declaration name v value span)
  | expr {e : Expr} (h : e.Named) : Stmt.Named (.expr e)

theorem Expr.Named.label {e : Expr} (h : e.Named) : e.label.Named := by
  cases h with
  | int | call => trivial
  | read v span hname => exact hname

theorem Expr.Named.under {e : Expr} (h : e.Named) : ∀ a ∈ e.under, a.Named := by
  cases h with
  | int | read => exact List.forall_mem_nil _
  | call builtin span hargs => exact hargs

theorem Stmt.Named.label {s : Stmt} (h : s.Named) : s.label.Named := by
  cases h with
  | declaration v span hname => exact hname
  | expr he => exact he.label

theorem Stmt.Named.under {s : Stmt} (h : s.Named) : ∀ a ∈ s.under, a.Named := by
  cases h with
  | declaration v span _ hvalue => exact List.forall_mem_singleton.2 hvalue
  | expr he => exact he.under

/-- Tokens spell variables by identifiers. -/
theorem Token.Atom.named {earlier : List Stmt} {t : Token} {e : Expr} (h : t.Atom earlier e) :
    e.Named := by
  cases h with
  | name hident hv =>
    rw [isIdentifier, Bool.and_eq_true] at hident
    exact .read _ _ hident.2
  | number => exact .int _ _

namespace Stmt

theorem Spelled.named {earlier : List Stmt} {ts : List Token} {s : Stmt}
    (h : Spelled earlier ts s) : s.Named := by
  cases h with
  | declaration hname hcolon htype hint hequals hvalue =>
    rw [Token.isIdentifier, Bool.and_eq_true] at hname
    exact .declaration _ _ hname.2 hvalue.named
  | print hword hprint hparen harg hclose =>
    exact .expr (.call _ _ (List.forall_mem_singleton.2 harg.named))
  | value hatom => exact .expr hatom.named

theorem SpelledAll.named {earlier : List Stmt} {cut : List (List Token)} {ss : List Stmt}
    (h : SpelledAll earlier cut ss) : ∀ s ∈ ss, s.Named := by
  induction h with
  | nil => exact List.forall_mem_nil _
  | cons h _ ih => exact List.forall_mem_cons.2 ⟨h.named, ih⟩

end Stmt

/-! ### A label can be read off its line -/

/-- The first of a certain character is where a text is cut. -/
theorem eq_of_append_cons {c : Char} {x x' y y' : List Char} (hx : c ∉ x) (hx' : c ∉ x')
    (h : x ++ c :: y = x' ++ c :: y') : x = x' ∧ y = y' := by
  induction x generalizing x' with
  | nil =>
    cases x' with
    | nil => exact ⟨rfl, (List.cons.inj h).2⟩
    | cons d x' => exact absurd ((List.cons.inj h).1 ▸ List.mem_cons_self) hx'
  | cons d x ih =>
    cases x' with
    | nil => exact absurd ((List.cons.inj h).1 ▸ List.mem_cons_self) hx
    | cons d' x' =>
      obtain ⟨rfl, htail⟩ := List.cons.inj h
      obtain ⟨rfl, hy⟩ :=
        ih (mt (List.mem_cons_of_mem d) hx) (mt (List.mem_cons_of_mem d) hx') htail
      exact ⟨rfl, hy⟩

/-- A name is made of the characters of literals. -/
theorem word_of_isName {text : String} (h : isName text = true) :
    ∀ c ∈ text.toList, IsWordChar c := by
  have hstart : ∀ c, isNameStart c = true → isNameChar c = true := by
    simp only [isNameStart, isNameChar, Char.isAlphanum, Bool.or_eq_true]
    rintro c (halpha | hline)
    · exact .inl (.inl halpha)
    · exact .inr hline
  have hchar : ∀ c, isNameChar c = true → IsWordChar c := by
    intro c hc
    have hliteral : isLiteralChar c = (isNameChar c || decide (c = '-')) := rfl
    rw [← isLiteralChar_iff, hliteral, hc, Bool.true_or]
  rw [isName] at h
  split at h
  · cases h
  · rename_i c cs htext
    rw [Bool.and_eq_true, List.all_eq_true] at h
    rw [htext, List.forall_mem_cons]
    exact ⟨hchar c (hstart c h.1), fun d hd ↦ hchar d (h.2 d hd)⟩

namespace Decimal

theorem ofNat_inj {n n' : Nat} (h : ofNat n = ofNat n') : n = n' := by
  rw [← value_digits n, ← value_digits n', ← toList_ofNat, ← toList_ofNat, h]

theorem ofInt32_inj {v v' : Int32} (h : ofInt32 v = ofInt32 v') : v = v' :=
  Int32.toInt_inj.1 ((written_ofInt32 v).unique (h ▸ written_ofInt32 v'))

end Decimal

namespace Label

variable {l l' : Label}

/-- A label is one line. -/
theorem newline_text (h : l.Named) : '\n' ∉ l.text.toList := by
  have hword : ∀ {text : String}, (∀ c ∈ text.toList, IsWordChar c) → '\n' ∉ text.toList :=
    fun hall hmem ↦ absurd (hall _ hmem) (by decide)
  have hkind : '\n' ∉ l.kind.toList := by cases l <;> simp [kind]
  have hbody : '\n' ∉ l.body.toList := by
    cases l with
    | declaration name v =>
      have hkeyword : '\n' ∉ v.type.keyword.toList := by cases v.type; decide
      simp [body, hword (word_of_isName h), hword (Decimal.written_ofNat v.slot).word.2, hkeyword]
    | int value => exact hword (Decimal.written_ofInt32 value).word.2
    | read name v =>
      simp [body, hword (word_of_isName h), hword (Decimal.written_ofNat v.slot).word.2]
    | call builtin => cases builtin; decide
  simp [text, hkind, hbody]

/-- A name ends where a character comes that no name has, and the number behind it can be read. -/
theorem name_slot_inj {name name' sep : String} {c : Char} {cs : List Char} {n n' : Nat}
    (hname : isName name = true) (hname' : isName name' = true) (hsep : sep.toList = c :: cs)
    (hc : ¬ IsWordChar c)
    (h : name ++ sep ++ Decimal.ofNat n = name' ++ sep ++ Decimal.ofNat n') :
    name = name' ∧ n = n' := by
  have hchars : name.toList ++ c :: (cs ++ (Decimal.ofNat n).toList) =
      name'.toList ++ c :: (cs ++ (Decimal.ofNat n').toList) := by
    simpa [hsep] using congrArg String.toList h
  obtain ⟨hnames, hrest⟩ := eq_of_append_cons (fun hmem ↦ hc (word_of_isName hname c hmem))
    (fun hmem ↦ hc (word_of_isName hname' c hmem)) hchars
  exact ⟨String.toList_inj.1 hnames,
    Decimal.ofNat_inj (String.toList_inj.1 (List.append_cancel_left hrest))⟩

/-- **A label can be read off its line.** -/
theorem text_inj (h : l.Named) (h' : l'.Named) (heq : l.text = l'.text) : l = l' := by
  have hparen : ∀ l : Label, '(' ∉ l.kind.toList := fun l ↦ by cases l <;> simp [kind]
  have hchars : l.kind.toList ++ '(' :: (l.body.toList ++ [')']) =
      l'.kind.toList ++ '(' :: (l'.body.toList ++ [')']) := by
    simpa [text] using congrArg String.toList heq
  obtain ⟨hkinds, hrest⟩ := eq_of_append_cons (hparen l) (hparen l') hchars
  have hbody : l.body = l'.body := String.toList_inj.1 (List.append_cancel_right hrest)
  -- the word in front settles what kind of label it is, and the rest is read as its kind asks
  cases l <;> cases l' <;> simp [kind] at hkinds
  case declaration.declaration name v name' v' =>
    obtain ⟨slot, ⟨⟩⟩ := v
    obtain ⟨slot', ⟨⟩⟩ := v'
    have hsep : (": " ++ ValueType.int.keyword ++ ", slot ").toList = ':' :: " int, slot ".toList :=
      rfl
    obtain ⟨rfl, rfl⟩ := name_slot_inj h h' hsep (by decide)
      (by simpa only [body, String.append_assoc] using hbody)
    rfl
  case int.int value value' => exact congrArg int (Decimal.ofInt32_inj hbody)
  case read.read name v name' v' =>
    obtain ⟨slot, ⟨⟩⟩ := v
    obtain ⟨slot', ⟨⟩⟩ := v'
    have hsep : ", slot ".toList = ',' :: " slot ".toList := rfl
    obtain ⟨rfl, rfl⟩ := name_slot_inj h h' hsep (by decide) hbody
    rfl
  case call.call builtin builtin' =>
    cases builtin
    cases builtin'
    rfl

end Label

/-! ### Where the lines under a node end -/

/-- No line of a level, or of a deeper one, stands first in the text. -/
def Shallow (level : Nat) (text : List Char) : Prop :=
  ¬ List.replicate (4 * level) ' ' <+: text

section Lines

variable {level : Nat} {rest rest' : List Char}

theorem toList_outlineLine (level : Nat) (node : String) :
    (outlineLine level node).toList =
      List.replicate (4 * level) ' ' ++ ("-> ".toList ++ (node.toList ++ ['\n'])) := by
  have hblanks : ∀ level, (List.replicate level "    ").flatMap String.toList =
      List.replicate (4 * level) ' ' := by
    intro level
    induction level with
    | zero => rfl
    | succ level ih =>
      rw [List.replicate_succ, List.flatMap_cons, ih, Nat.mul_succ, Nat.add_comm,
        ← List.replicate_append_replicate]
      rfl
  simp only [outlineLine, String.toList_append, String.toList_join, hblanks, List.append_assoc]
  rfl

theorem shallow_nil (level : Nat) : Shallow (level + 1) [] := by
  simp [Shallow]

theorem Shallow.succ (h : Shallow level rest) : Shallow (level + 1) rest := by
  intro hdeep
  refine h (List.IsPrefix.trans ?_ hdeep)
  rw [Nat.mul_succ, ← List.replicate_append_replicate]
  exact List.prefix_append ..

/-- A line is not one of the next level. -/
theorem shallow_line (level : Nat) (node : String) (rest : List Char) :
    Shallow (level + 1) ((outlineLine level node).toList ++ rest) := by
  rw [Shallow, toList_outlineLine, Nat.mul_succ, ← List.replicate_append_replicate,
    List.append_assoc, List.prefix_append_right_inj]
  rintro ⟨tail, htail⟩
  exact absurd (List.cons.inj htail).1 (by decide)

theorem not_shallow_line (level : Nat) (node : String) (rest : List Char) :
    ¬ Shallow level ((outlineLine level node).toList ++ rest) := by
  rw [Shallow, toList_outlineLine, List.append_assoc, not_not]
  exact List.prefix_append ..

/-- The first lines of two texts tell their labels if they are of one level. -/
theorem outlineLine_inj {l l' : Label} (h : l.Named) (h' : l'.Named)
    (heq : (outlineLine level l.text).toList ++ rest =
      (outlineLine level l'.text).toList ++ rest') : l = l' ∧ rest = rest' := by
  simp only [toList_outlineLine, List.append_assoc, List.append_cancel_left_eq] at heq
  obtain ⟨htext, hrest⟩ := eq_of_append_cons (Label.newline_text h) (Label.newline_text h') heq
  exact ⟨Label.text_inj h h' (String.toList_inj.1 htext), hrest⟩

end Lines

namespace Expr

/-- Behind the lines of some expressions, the next line is of their level or a lower one. -/
theorem shallow_outlineList {level : Nat} {rest : List Char} (es : List Expr)
    (h : Shallow level rest) : Shallow (level + 1) ((outlineList level es).toList ++ rest) := by
  cases es with
  | nil => exact h.succ
  | cons e es =>
    rw [outlineList, outline_eq, String.append_assoc, String.toList_append, List.append_assoc]
    exact shallow_line level _ _

/-- If there is an expression, its line is of its level. -/
theorem not_shallow_outlineList {level : Nat} (e : Expr) (es : List Expr) (rest : List Char) :
    ¬ Shallow level ((outlineList level (e :: es)).toList ++ rest) := by
  rw [outlineList, outline_eq, String.append_assoc, String.toList_append, List.append_assoc]
  exact not_shallow_line level _ _

mutual

/-- **The lines of an expression tell the expression**, whatever comes behind them at its level or
a lower one. -/
theorem outline_inj {level : Nat} {rest rest' : List Char} (e e' : Expr) (he : e.Named)
    (he' : e'.Named) (hrest : Shallow (level + 1) rest) (hrest' : Shallow (level + 1) rest')
    (h : (e.outline level).toList ++ rest = (e'.outline level).toList ++ rest') :
    e.unplaced = e'.unplaced ∧ rest = rest' := by
  simp only [outline_eq, String.toList_append, List.append_assoc] at h
  obtain ⟨hlabel, hlines⟩ := outlineLine_inj he.label he'.label h
  obtain ⟨hunder, heq⟩ :=
    outlineList_inj e.under e'.under he.under he'.under hrest hrest' hlines
  exact ⟨unplaced_eq hlabel hunder, heq⟩
termination_by sizeOf e
decreasing_by exact sizeOf_under_lt e

/-- The lines of expressions that stand side by side tell the expressions, and how many these
are. -/
theorem outlineList_inj {level : Nat} {rest rest' : List Char} (es es' : List Expr)
    (hes : ∀ e ∈ es, e.Named) (hes' : ∀ e ∈ es', e.Named) (hrest : Shallow level rest)
    (hrest' : Shallow level rest')
    (h : (outlineList level es).toList ++ rest = (outlineList level es').toList ++ rest') :
    es.map unplaced = es'.map unplaced ∧ rest = rest' := by
  match es, es' with
  | [], [] => exact ⟨rfl, h⟩
  | [], e' :: es' =>
    rw [show rest = _ from h] at hrest
    exact absurd hrest (not_shallow_outlineList e' es' rest')
  | e :: es, [] =>
    rw [show rest' = _ from h.symm] at hrest'
    exact absurd hrest' (not_shallow_outlineList e es rest)
  | e :: es, e' :: es' =>
    rw [List.forall_mem_cons] at hes hes'
    simp only [outlineList, String.toList_append, List.append_assoc] at h
    obtain ⟨hhead, htail⟩ := outline_inj e e' hes.1 hes'.1 (shallow_outlineList es hrest)
      (shallow_outlineList es' hrest') h
    obtain ⟨hmap, heq⟩ := outlineList_inj es es' hes.2 hes'.2 hrest hrest' htail
    exact ⟨by rw [List.map_cons, List.map_cons, hhead, hmap], heq⟩
termination_by sizeOf es

end

end Expr

namespace Stmt

/-- The lines of statements, one after the other. -/
def lines (ss : List Stmt) : List Char := ss.flatMap fun s ↦ s.outline.toList

theorem lines_cons (s : Stmt) (ss : List Stmt) :
    lines (s :: ss) =
      (outlineLine 1 s.label.text).toList ++ ((Expr.outlineList 2 s.under).toList ++ lines ss) := by
  rw [lines, List.flatMap_cons, outline_eq, String.toList_append, List.append_assoc]
  rfl

/-- A statement stands at the first level. -/
theorem shallow_lines (ss : List Stmt) : Shallow 2 (lines ss) := by
  cases ss with
  | nil => exact shallow_nil 1
  | cons s ss =>
    rw [lines_cons]
    exact shallow_line 1 _ _

/-- **The lines of statements tell the statements.** -/
theorem lines_inj {ss ss' : List Stmt} (hss : ∀ s ∈ ss, s.Named) (hss' : ∀ s ∈ ss', s.Named)
    (h : lines ss = lines ss') : ss.map unplaced = ss'.map unplaced := by
  have hcons : ∀ s ss, lines (s :: ss) ≠ [] := fun s ss ↦ by
    simp [lines_cons, toList_outlineLine]
  induction ss generalizing ss' with
  | nil =>
    cases ss' with
    | nil => rfl
    | cons s' ss' => exact absurd h.symm (hcons s' ss')
  | cons s ss ih =>
    cases ss' with
    | nil => exact absurd h (hcons s ss)
    | cons s' ss' =>
      rw [List.forall_mem_cons] at hss hss'
      rw [lines_cons, lines_cons] at h
      obtain ⟨hlabel, hlines⟩ := outlineLine_inj hss.1.label hss'.1.label h
      obtain ⟨hunder, hrest⟩ := Expr.outlineList_inj s.under s'.under hss.1.under hss'.1.under
        (shallow_lines ss) (shallow_lines ss') hlines
      rw [List.map_cons, List.map_cons, unplaced_eq hlabel hunder, ih hss.2 hss'.2 hrest]

theorem declared?_unplaced (s : Stmt) : s.unplaced.declared? = s.declared? := by
  cases s <;> rfl

end Stmt

/-! ### Whole programs -/

namespace Module

variable {m m' : Module}

/-- Every variable in the program goes by an identifier. -/
def Named (m : Module) : Prop := ∀ s ∈ m.statements, s.Named

/-- The program is what a reader made of some tokens, from a text or not, for a table of some
capacity. -/
def Accepted (m : Module) : Prop :=
  ∃ (capacity : Nat) (ts : List Token),
    (readTokens? capacity ts).map Reading.module = some (.ok m)

theorem statements_unplaced (m : Module) : m.unplaced.statements = m.statements.map Stmt.unplaced :=
  rfl

theorem toList_outline (m : Module) :
    m.outline.toList = "Entrypoint\n".toList ++ Stmt.lines m.statements := by
  rw [outline, String.toList_append, String.toList_join, List.flatMap_map]
  rfl

/-- An outline shows the statements, without their places. -/
theorem outline_congr (h : m.unplaced.statements = m'.unplaced.statements) :
    m.outline = m'.outline := by
  rw [← outline_relocate (fun _ ↦ .nowhere) m, ← outline_relocate (fun _ ↦ .nowhere) m']
  show m.unplaced.outline = m'.unplaced.outline
  rw [outline, outline, h]

theorem outline_inj (hm : m.Named) (hm' : m'.Named) (h : m.outline = m'.outline) :
    m.unplaced.statements = m'.unplaced.statements := by
  have hlines := congrArg String.toList h
  rw [toList_outline, toList_outline] at hlines
  exact Stmt.lines_inj hm hm' (List.append_cancel_left hlines)

/-- A program that is accepted is spelled by tokens, and has a slot for each declaration. -/
theorem Accepted.spelledAll (h : m.Accepted) :
    (∃ cut, Stmt.SpelledAll [] cut m.statements) ∧
      m.slotCount = (m.statements.filterMap Stmt.declared?).length := by
  obtain ⟨capacity, ts, hread⟩ := h
  obtain ⟨x, hx, hmodule⟩ := Option.map_eq_some_iff.1 hread
  obtain ⟨hfault, rfl⟩ := Reading.module_eq_ok_iff.1 hmodule
  have hchecked := readStatements_checked (.empty capacity) (.ofTokens ts)
  simp only [readTokens?] at hx
  split at hx
  · rename_i hends
    obtain rfl := Option.some.inj hx
    have hfinish : (Feed.ofTokens ts).finish.kind = .eof := by simpa [hfault] using hends
    obtain ⟨cut, -, hall⟩ := spelledAll_of_readStatements (.nil _) hfinish hfault
    exact ⟨⟨cut, hall⟩, hchecked.slotCount_eq⟩
  · split at hx
    · obtain rfl := Option.some.inj hx
      cases hfault
    · cases hx

theorem Accepted.named (h : m.Accepted) : m.Named :=
  let ⟨⟨_, hall⟩, _⟩ := h.spelledAll
  hall.named

/-- Slots are counted by the statements. -/
theorem Accepted.slotCount_eq (h : m.Accepted) :
    m.slotCount = (m.unplaced.statements.filterMap Stmt.declared?).length := by
  rw [h.spelledAll.2, statements_unplaced, List.filterMap_map]
  exact congrArg (List.length <| List.filterMap · m.statements)
    (funext fun s ↦ s.declared?_unplaced.symm)

theorem accepted_of_compileFor {source : String} {capacity : Nat}
    (h : compileFor source capacity = .ok m) : m.Accepted := by
  obtain ⟨x, hx, rfl⟩ := Completes.of_compileFor h
  have hmodule := hx.compileFor_eq
  obtain ⟨ts, -, hread⟩ := hx
  refine ⟨capacity, ts, ?_⟩
  rw [hread, Option.map_some, ← hmodule, h]

/-- **Outlines lose nothing.**

Take any two programs, checked or made by hand, with calls nested to any depth and any number of
arguments, in which variables go by identifiers. They have the same outline if and only if their
statements are equal up to spans.

If a reader accepted both, they have the same outline if and only if they are equal up to spans,
with the number of their slots. -/
theorem outline_loses_nothing :
    (∀ m m' : Module, m.Named → m'.Named →
      (m.outline = m'.outline ↔ m.unplaced.statements = m'.unplaced.statements)) ∧
    ∀ m m' : Module, m.Accepted → m'.Accepted →
      (m.outline = m'.outline ↔ m.unplaced = m'.unplaced) := by
  refine ⟨fun m m' hm hm' ↦ ⟨outline_inj hm hm', outline_congr⟩, fun m m' hm hm' ↦ ⟨?_, ?_⟩⟩
  · intro h
    have hstatements := outline_inj hm.named hm'.named h
    have hcount : m.slotCount = m'.slotCount := by
      rw [hm.slotCount_eq, hm'.slotCount_eq, hstatements]
    exact Module.mk.injEq .. ▸ ⟨hstatements, hcount⟩
  · exact fun h ↦ outline_congr (congrArg statements h)

end Module

namespace Nesting

/-- A call of a call with two arguments. -/
def inner : Module where
  statements :=
    [.expr (.call .print [.call .print [.int 1 .nowhere, .read "x" ⟨0, .int⟩ .nowhere] .nowhere]
      .nowhere)]
  slotCount := 0

/-- The same words, with the second argument one level up. -/
def outer : Module where
  statements :=
    [.expr (.call .print [.call .print [.int 1 .nowhere] .nowhere, .read "x" ⟨0, .int⟩ .nowhere]
      .nowhere)]
  slotCount := 0

theorem named_inner : inner.Named := by
  refine List.forall_mem_singleton.2 (.expr (.call _ _ (List.forall_mem_singleton.2 ?_)))
  exact .call _ _ (List.forall_mem_cons.2 ⟨.int _ _, List.forall_mem_singleton.2 (.read _ _ rfl)⟩)

theorem named_outer : outer.Named := by
  refine List.forall_mem_singleton.2 (.expr (.call _ _ (List.forall_mem_cons.2 ⟨?_, ?_⟩)))
  · exact .call _ _ (List.forall_mem_singleton.2 (.int _ _))
  · exact List.forall_mem_singleton.2 (.read _ _ rfl)

/-- The program `Redeclaration.source` on one line, checked. -/
def oneLine : Module where
  statements :=
    [.declaration "x" ⟨0, .int⟩ (.int 5 ⟨1, 10, 9, 1⟩) ⟨1, 1, 0, 1⟩,
     .declaration "x" ⟨1, .int⟩ (.read "x" ⟨0, .int⟩ ⟨1, 21, 20, 1⟩) ⟨1, 12, 11, 1⟩,
     .expr (.call .print [.read "x" ⟨1, .int⟩ ⟨1, 29, 28, 1⟩] ⟨1, 23, 22, 5⟩)]
  slotCount := 2

theorem compileFor_oneLine : compileFor "x: int = 5 x: int = x print(x)" 2 = .ok oneLine := by
  decide +kernel

end Nesting

/-- Moving an argument from one call to another shows in the outline. Writing a program on one line
does not, and so it is the same program. -/
theorem nesting_shows_in_outline :
    Nesting.inner.Named ∧ Nesting.outer.Named ∧ Nesting.inner.outline ≠ Nesting.outer.outline ∧
      Redeclaration.checked.Accepted ∧ Nesting.oneLine.Accepted ∧
      Redeclaration.checked.outline = Nesting.oneLine.outline ∧
      Redeclaration.checked.unplaced = Nesting.oneLine.unplaced := by
  obtain ⟨hstatements, hmodules⟩ := Module.outline_loses_nothing
  have hmoved : Nesting.inner.unplaced.statements ≠ Nesting.outer.unplaced.statements := by
    decide +kernel
  have hsame : Redeclaration.checked.outline = Nesting.oneLine.outline := by decide +kernel
  have haccepted := Module.accepted_of_compileFor Redeclaration.compileFor_source
  have haccepted' := Module.accepted_of_compileFor Nesting.compileFor_oneLine
  exact ⟨Nesting.named_inner, Nesting.named_outer,
    mt (hstatements _ _ Nesting.named_inner Nesting.named_outer).1 hmoved, haccepted, haccepted',
    hsame, (hmodules _ _ haccepted haccepted').1 hsame⟩

end SlotLang
