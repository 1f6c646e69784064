import SlotLang.Proofs.Culprits
import SlotLang.Proofs.Layout

/-!
# Capacity is a threshold

How many slots there are matters to the reader in one place: where a declaration that is otherwise
complete asks for a slot. Everything before that, its own type and value included, is read without a
look at the number of slots, so two readers of one text that differ in it go together until the
smaller table is full.

* **One statement.** `Feed.Reads` says what a statement is for all tables at once: a fault, an
  expression, or a declaration, and only the last can tell the tables apart.
* **A program.** `readStatements_resize` is the case in which two readers never part, and
  `readStatements_resize_of_full` the other one, in which the declaration that is one too many is
  refused at its name. Which of them it is, the reading for the larger table tells, by the number of
  its declarations.
-/

namespace SlotLang

/-- The same declarations, for a table of another size. -/
def Registry.resize (r : Registry) (capacity : Nat) : Registry := { r with capacity }

/-- The same reading, for a table of another size. -/
def Reading.resize (x : Reading) (capacity : Nat) : Reading :=
  { x with registry := x.registry.resize capacity }

theorem Registry.resize_self (r : Registry) : r.resize r.capacity = r := rfl

theorem Reading.module_resize (x : Reading) (capacity : Nat) :
    (x.resize capacity).module = x.module :=
  rfl

/-- A declaration takes the next slot of any table that has one. -/
theorem Registry.declare?_resize (r : Registry) (name : String) (type : ValueType) :
    ∃ r' : Registry, r'.slotCount = r.slotCount + 1 ∧ ∀ capacity,
      (r.resize capacity).declare? name type =
        if r.slotCount < capacity then some (⟨r.slotCount, type⟩, r'.resize capacity) else none :=
  ⟨⟨put name ⟨r.slotCount, type⟩ r.bindings, r.slotCount + 1, 0⟩, rfl, fun _ ↦ rfl⟩

/-! ### One statement -/

namespace Feed

theorem expression_resize_of_arguments (r : Registry) (capacity : Nat) (asValue : Bool) (f : Feed)
    (hargs : f.atCall = true → ∀ c : OpenCall,
      f.advance.advance.arguments (r.resize capacity) c [] = f.advance.advance.arguments r c []) :
    f.expression (r.resize capacity) asValue = f.expression r asValue := by
  have hatom : f.peek.atom (r.resize capacity) = f.peek.atom r := rfl
  unfold expression
  by_cases hcall : f.atCall = true
  · simp only [hargs hcall, hatom]
  · simp only [hcall, hatom, Bool.false_eq_true, if_false]

/-- **Values are read without a look at the number of slots.** -/
theorem arguments_resize (r : Registry) (capacity : Nat) (c : OpenCall) (args : List Expr)
    (f : Feed) : f.arguments (r.resize capacity) c args = f.arguments r c args := by
  induction c, args, f using arguments_induction (r := r) with
  | step c args f inner next =>
    rw [arguments_eq, arguments_eq r c args f,
      expression_resize_of_arguments r capacity true f inner]
    rcases hrest : f.expression r true with e | ⟨value, rest⟩
    · rfl
    · rcases hmore : c.goesOn rest with e | - | -
      · simp only [hmore]
      · simp only [hmore]
      · simp only [hmore, next value rest hrest hmore]

theorem expression_resize (r : Registry) (capacity : Nat) (asValue : Bool) (f : Feed) :
    f.expression (r.resize capacity) asValue = f.expression r asValue :=
  expression_resize_of_arguments r capacity asValue f fun _ c ↦ arguments_resize r capacity c [] _

/-- What stands next, whatever the number of slots: only a declaration asks for one, and when it
does it is otherwise complete. -/
inductive Reads (r : Registry) (f : Feed) : Prop
  | fault (e : CompileError) (h : ∀ capacity, f.statement (r.resize capacity) = .error e)
  | expr (e : Expr) (rest : Feed)
      (h : ∀ capacity, f.statement (r.resize capacity) = .ok (.expr e, r.resize capacity, rest))
  | declaration (name : String) (v : Variable) (value : Expr) (span : Span) (r' : Registry)
      (rest : Feed) (hcount : r'.slotCount = r.slotCount + 1)
      (h : ∀ capacity, f.statement (r.resize capacity) =
        if r.slotCount < capacity then
          .ok (.declaration name v value span, r'.resize capacity, rest)
        else .error (.tooManyVariables capacity span))

theorem reads_declaration {r : Registry} {f : Feed} (hliteral : f.peek.kind = .literal)
    (hcolon : f.second.kind = .colon) : f.Reads r := by
  have hstatement : ∀ capacity, f.statement (r.resize capacity) =
      f.declaration (r.resize capacity) := fun _ ↦ statement_of_colon hliteral hcolon
  simp only [declaration] at hstatement
  split at hstatement
  · exact .fault _ hstatement
  rcases htype : f.advance.advance.declaredType with e | ⟨type, rest⟩
  · simp only [htype] at hstatement
    exact .fault e hstatement
  simp only [htype, expression_resize] at hstatement
  rcases hvalue : rest.expression r true with e | ⟨value, rest'⟩
  · simp only [hvalue] at hstatement
    exact .fault e hstatement
  obtain ⟨r', hcount, hdeclare⟩ := r.declare?_resize f.peek.lexeme type
  refine .declaration f.peek.lexeme ⟨r.slotCount, type⟩ value f.peek.span r' rest' hcount
    fun capacity ↦ ?_
  rw [hstatement capacity]
  by_cases hroom : r.slotCount < capacity
  · simp only [hvalue, hdeclare, if_pos hroom]
  · simp only [hvalue, hdeclare, if_neg hroom]
    rfl

/-- **What a statement can be**, for all tables at once. -/
theorem reads (r : Registry) (f : Feed) : f.Reads r := by
  by_cases hliteral : f.peek.kind = .literal
  · by_cases hcolon : f.second.kind = .colon
    · exact reads_declaration hliteral hcolon
    · have hexpression : ∀ capacity, f.expression (r.resize capacity) false =
          f.expression r false := fun capacity ↦ expression_resize r capacity false f
      rcases he : f.expression r false with e | ⟨e, rest⟩
      · refine .fault e fun capacity ↦ ?_
        simp only [statement, hliteral, hcolon, hexpression, he]
        rfl
      · exact .expr e rest fun capacity ↦
          statement_of_expression hliteral hcolon ((hexpression capacity).trans he)
  · exact .fault _ fun _ ↦ if_pos hliteral

variable {r r' : Registry} {f f' : Feed} {e : CompileError} {s : Stmt} {capacity : Nat}

/-- Two readers go together with a statement, if the declarations it leaves fit into both tables. -/
theorem statement_resize (h : f.statement r = .ok (s, r', f')) (hfits : r'.slotCount ≤ capacity) :
    f.statement (r.resize capacity) = .ok (s, r'.resize capacity, f') := by
  rw [← r.resize_self] at h
  cases f.reads r with
  | fault e hread => cases (hread _).symm.trans h
  | expr e rest hread =>
    cases (hread _).symm.trans h
    exact hread capacity
  | declaration name v value span r₁ rest hcount hread =>
    rw [hread] at h
    split at h <;> cases h
    have hroom : r.slotCount < capacity := by
      rw [← Nat.succ_le_iff, ← Nat.add_one, ← hcount]
      exact hfits
    rw [hread, if_pos hroom]
    rfl

/-- They go together with a fault, also if one of the tables is full, as long as the fault itself is
not that the other one is. -/
theorem statement_resize_of_error (h : f.statement r = .error e)
    (hroom : r.slotCount < r.capacity) : f.statement (r.resize capacity) = .error e := by
  rw [← r.resize_self] at h
  cases f.reads r with
  | fault e' hread =>
    cases (hread _).symm.trans h
    exact hread capacity
  | expr e' rest hread => cases (hread _).symm.trans h
  | declaration name v value span r₁ rest hcount hread =>
    rw [hread, if_pos hroom] at h
    cases h

/-- They part at a declaration for which only one of the tables has a slot. -/
theorem statement_resize_of_full {name : String} {v : Variable} {value : Expr} {span : Span}
    (h : f.statement r = .ok (.declaration name v value span, r', f'))
    (hfull : capacity ≤ r.slotCount) :
    f.statement (r.resize capacity) = .error (.tooManyVariables capacity span) := by
  rw [← r.resize_self] at h
  cases f.reads r with
  | fault e hread => cases (hread _).symm.trans h
  | expr e rest hread => cases (hread _).symm.trans h
  | declaration name' v' value' span' r₁ rest hcount hread =>
    rw [hread] at h
    split at h <;> cases h
    rw [hread, if_neg (Nat.not_lt.2 hfull)]

end Feed

/-! ### A program -/

section Program

variable {r : Registry} {f : Feed} {capacity : Nat}

/-- **If all declarations fit into the smaller table, the two readings are the same.** -/
theorem readStatements_resize (hcapacity : capacity < r.capacity)
    (hfits : (readStatements r f).registry.slotCount ≤ capacity) :
    readStatements (r.resize capacity) f = (readStatements r f).resize capacity := by
  fun_induction readStatements r f with
  | case1 r f hlength e he =>
    have hroom : r.slotCount < r.capacity := Nat.lt_of_le_of_lt hfits hcapacity
    exact readStatements_of_error hlength (Feed.statement_resize_of_error he hroom)
  | case2 r f hlength s r' rest hs reading ih =>
    have hle : r'.slotCount ≤ reading.registry.slotCount :=
      (readStatements_checked r' rest).slotCount_le
    have hsame : r'.capacity = r.capacity :=
      (Stmt.CheckedAll.cons (Feed.statement_checked hs) (.nil r')).capacity_eq
    have hread := Feed.statement_resize hs (Nat.le_trans hle hfits)
    rw [readStatements_of_ok hlength hread, ih (hsame ▸ hcapacity) hfits]
    rfl
  | case3 r f hlength =>
    rw [readStatements, dif_neg hlength]
    rfl

/-- A declaration has the slot behind those that the statements before it take. -/
theorem Stmt.CheckedAll.slot_eq {r' : Registry} {pre post : List Stmt} {name : String}
    {v : Variable} {value : Expr} {span : Span}
    (h : Stmt.CheckedAll r (pre ++ .declaration name v value span :: post) r') :
    ∃ r₁, Stmt.CheckedAll r pre r₁ ∧ v.slot = r₁.slotCount := by
  obtain ⟨r₁, r₂, hpre, hs, -⟩ := h.split
  cases hs with
  | declaration _ hvalue hv =>
    obtain ⟨rfl, -⟩ := Registry.declare?_eq_some hv
    exact ⟨r₁, hpre, rfl⟩

/-- **Otherwise the declaration that has the smaller capacity for its slot is refused at its name,**
and what stands before it is accepted. -/
theorem readStatements_resize_of_full {pre post : List Stmt} {name : String} {v : Variable}
    {value : Expr} {span : Span}
    (hstatements : (readStatements r f).statements = pre ++ .declaration name v value span :: post)
    (hslot : v.slot = capacity) :
    (readStatements (r.resize capacity) f).statements = pre ∧
      (readStatements (r.resize capacity) f).fault = some (.tooManyVariables capacity span) := by
  fun_induction readStatements r f generalizing pre with
  | case1 => simp at hstatements
  | case2 r f hlength s r' rest hs reading =>
    rename_i ih
    rcases pre with - | ⟨p, pre⟩
    · obtain ⟨rfl, -⟩ := List.cons.inj hstatements
      have hchecked : Stmt.CheckedAll r ([] ++ .declaration name v value span :: _) _ :=
        .cons (Feed.statement_checked hs) (readStatements_checked r' rest)
      obtain ⟨r₁, hpre, hslot'⟩ := hchecked.slot_eq
      cases hpre
      have hfull : capacity ≤ r.slotCount := Nat.le_of_eq (hslot.symm.trans hslot')
      rw [readStatements_of_error hlength (Feed.statement_resize_of_full hs hfull)]
      exact ⟨rfl, rfl⟩
    · obtain ⟨rfl, hrest⟩ := List.cons.inj hstatements
      have hchecked := readStatements_checked r' rest
      rw [hrest] at hchecked
      obtain ⟨r₁, hpre, hslot'⟩ := hchecked.slot_eq
      have hfits : r'.slotCount ≤ capacity := by
        rw [← hslot, hslot']
        exact hpre.slotCount_le
      obtain ⟨hstatements', hfault⟩ := ih hrest
      rw [readStatements_of_ok hlength (Feed.statement_resize hs hfits)]
      exact ⟨congrArg (_ :: ·) hstatements', hfault⟩
  | case3 => simp at hstatements

end Program

/-! ### Texts -/

/-- The name of the declaration with number `k`, counted from 0, stands at `span`. -/
def Stmt.DeclaresAt (ss : List Stmt) (k : Nat) (span : Span) : Prop :=
  ∃ pre name v value post, ss = pre ++ .declaration name v value span :: post ∧
    (pre.filterMap declared?).length = k

/-- A reading has every declaration up to the number of slots it takes. -/
theorem exists_declaration {c k : Nat} {f : Feed}
    (h : k < (readStatements (.empty c) f).registry.slotCount) :
    ∃ pre name v value span post, (readStatements (.empty c) f).statements =
        pre ++ .declaration name v value span :: post ∧
      v.slot = k ∧ (pre.filterMap Stmt.declared?).length = k := by
  have hchecked := readStatements_checked (.empty c) f
  generalize hss : (readStatements (.empty c) f).statements = ss at hchecked ⊢
  have hk : k ∈ (ss.filterMap Stmt.declared?).map Variable.slot := by
    rw [hchecked.slots_eq, List.mem_range'_1]
    exact ⟨Nat.zero_le k, by simpa [Registry.empty] using h⟩
  obtain ⟨v, hv, rfl⟩ := List.mem_map.1 hk
  obtain ⟨s, hs, hdeclared⟩ := List.mem_filterMap.1 hv
  obtain ⟨pre, post, rfl⟩ := List.append_of_mem hs
  cases s with
  | expr e => cases hdeclared
  | declaration name w value span =>
    obtain rfl := Option.some.inj hdeclared
    obtain ⟨r₁, hpre, hslot⟩ := hchecked.slot_eq
    exact ⟨pre, name, w, value, span, post, rfl, rfl, by rw [hslot, hpre.slotCount_eq]⟩

/-- A text that is cut into tokens is read to an end. -/
theorem readTokens?_of_tokenize {source : String} {tokens : List Token}
    (h : tokenize source = .ok tokens) (c : Nat) :
    readTokens? c tokens = some (readStatements (.empty c) (.ofTokens tokens)) := by
  obtain ⟨words, last, htokens, hlast, -, -, hwords⟩ := (lossless_of_tokenize h).ends
  have hmarks : ∀ t ∈ words, t.kind ≠ .eof := fun t ht ↦ (hwords t ht).1
  rw [htokens, readTokens?_append hmarks hlast, Feed.ofTokens_append hmarks hlast]

/-- What the reader for a table of `c` slots completes of a text, if the text can be cut. -/
def Completes (source : String) (c : Nat) (x : Reading) : Prop :=
  ∃ tokens, tokenize source = .ok tokens ∧ readTokens? c tokens = some x

namespace Completes

variable {source : String} {c c' : Nat} {x : Reading} {m : Module}

theorem eq_readStatements (h : Completes source c x) :
    ∃ tokens, tokenize source = .ok tokens ∧
      x = readStatements (.empty c) (.ofTokens tokens) := by
  obtain ⟨tokens, htokens, hx⟩ := h
  rw [readTokens?_of_tokenize htokens] at hx
  exact ⟨tokens, htokens, (Option.some.inj hx).symm⟩

theorem compileFor_eq (h : Completes source c x) : compileFor source c = x.module := by
  obtain ⟨tokens, htokens, rfl⟩ := h.eq_readStatements
  rw [compileFor, compilation, htokens]

/-- As many slots are taken as declarations are completed. -/
theorem slotCount_eq (h : Completes source c x) :
    x.registry.slotCount = (x.statements.filterMap Stmt.declared?).length := by
  obtain ⟨tokens, -, rfl⟩ := h.eq_readStatements
  exact (readStatements_checked _ _).slotCount_eq

/-- All that is completed of a text that compiles is the program. -/
theorem of_compileFor (h : compileFor source c = .ok m) :
    ∃ x, Completes source c x ∧ m = ⟨x.statements, x.registry.slotCount⟩ := by
  cases htokens : tokenize source with
  | error e =>
    rw [compileFor, compilation, htokens] at h
    cases h
  | ok tokens =>
    have hx : Completes source c _ := ⟨tokens, htokens, readTokens?_of_tokenize htokens c⟩
    rw [hx.compileFor_eq, Reading.module_eq_ok_iff] at h
    exact ⟨_, hx, h.2⟩

/-- A text whose declarations fit into the smaller table compiles alike for both. -/
theorem compileFor_of_fits (h : Completes source c' x) (hle : c ≤ c')
    (hfits : x.registry.slotCount ≤ c) : compileFor source c = compileFor source c' := by
  rcases Nat.eq_or_lt_of_le hle with rfl | hlt
  · rfl
  obtain ⟨tokens, htokens, rfl⟩ := h.eq_readStatements
  have hread : readStatements (.empty c) (.ofTokens tokens) =
      (readStatements (.empty c') (.ofTokens tokens)).resize c :=
    readStatements_resize (r := .empty c') hlt hfits
  rw [compileFor, compilation, htokens, h.compileFor_eq, ← Reading.module_resize _ c, ← hread]

/-- A text with more declarations is refused at the first that does not fit. -/
theorem compileFor_of_full (h : Completes source c' x) (hfull : c < x.registry.slotCount) :
    ∃ span, Stmt.DeclaresAt x.statements c span ∧
      compileFor source c = .error (.tooManyVariables c span) := by
  obtain ⟨tokens, htokens, rfl⟩ := h.eq_readStatements
  obtain ⟨pre, name, v, value, span, post, hstatements, hslot, hcount⟩ := exists_declaration hfull
  obtain ⟨-, hfault⟩ := readStatements_resize_of_full hstatements hslot
  have hfault' : (readStatements (.empty c) (.ofTokens tokens)).fault =
      some (.tooManyVariables c span) := hfault
  refine ⟨span, ⟨pre, name, v, value, post, hstatements, hcount⟩, ?_⟩
  rw [compileFor, compilation, htokens]
  simp only [Reading.module, hfault']

end Completes

/-- A text that cannot be cut is refused alike for every table. -/
theorem compileFor_eq_of_not_completes {source : String} {c' : Nat}
    (h : ¬ ∃ x, Completes source c' x) (c : Nat) : compileFor source c = compileFor source c' := by
  cases htokens : tokenize source with
  | error e => simp only [compileFor, compilation, htokens]
  | ok tokens => exact absurd ⟨_, tokens, htokens, readTokens?_of_tokenize htokens c'⟩ h

/-- A program is the same for every table that has room for it. -/
theorem compileFor_eq_ok_iff_of_le {source : String} {c c' : Nat} (hle : c ≤ c') {m : Module} :
    compileFor source c = .ok m ↔ compileFor source c' = .ok m ∧ m.slotCount ≤ c := by
  constructor
  · intro hm
    obtain ⟨r, hchecked, hcount⟩ := checked_of_compileFor hm
    refine ⟨?_, hcount ▸ hchecked.slotCount_le_capacity (Nat.zero_le c)⟩
    rw [← hm]
    by_cases hsome : ∃ x, Completes source c' x
    · obtain ⟨x, hx⟩ := hsome
      refine (hx.compileFor_of_fits hle (Nat.not_lt.1 fun hfull ↦ ?_)).symm
      obtain ⟨span, -, herror⟩ := hx.compileFor_of_full hfull
      cases herror.symm.trans hm
    · exact (compileFor_eq_of_not_completes hsome c).symm
  · rintro ⟨hm, hfits⟩
    obtain ⟨x, hx, rfl⟩ := Completes.of_compileFor hm
    rw [hx.compileFor_of_fits hle hfits]
    exact hm

/-- **Capacity is a pure threshold.** Compare what a text compiles to for two tables.

It compiles for the smaller one to the program it compiles to for the larger one, if that takes no
more slots than there are. If it takes more, the error for the smaller table is that it is full, and
is reported at the name of the declaration that has its capacity for a number. If the text does not
compile for the larger table either, the same happens if that declaration is completed before the
reader stops; and otherwise, also where the fault is in that declaration itself, behind its name,
the error is the same for both. -/
theorem capacity_is_a_threshold (source : String) {c c' : Nat} (h : c ≤ c') :
    (∀ m, compileFor source c = .ok m ↔ compileFor source c' = .ok m ∧ m.slotCount ≤ c) ∧
      (∀ m, compileFor source c' = .ok m → c < m.slotCount →
        ∃ span, Stmt.DeclaresAt m.statements c span ∧
          compileFor source c = .error (.tooManyVariables c span)) ∧
      ∀ e, c < c' → compileFor source c' = .error e →
        (∀ x, Completes source c' x → c + 1 ≤ (x.statements.filterMap Stmt.declared?).length →
          ∃ span, Stmt.DeclaresAt x.statements c span ∧
            compileFor source c = .error (.tooManyVariables c span)) ∧
        ((¬ ∃ x, Completes source c' x ∧
            c + 1 ≤ (x.statements.filterMap Stmt.declared?).length) →
          compileFor source c = .error e) := by
  refine ⟨fun m ↦ compileFor_eq_ok_iff_of_le h, fun m hm hfull ↦ ?_, fun e hlt he ↦ ⟨?_, ?_⟩⟩
  · obtain ⟨x, hx, rfl⟩ := Completes.of_compileFor hm
    exact hx.compileFor_of_full hfull
  · intro x hx hmany
    exact hx.compileFor_of_full (hx.slotCount_eq ▸ hmany)
  · intro hfew
    rw [← he]
    by_cases hsome : ∃ x, Completes source c' x
    · obtain ⟨x, hx⟩ := hsome
      refine hx.compileFor_of_fits h (Nat.not_lt.1 fun hfull ↦ hfew ⟨x, hx, ?_⟩)
      rw [← hx.slotCount_eq]
      exact hfull
    · exact compileFor_eq_of_not_completes hsome c

namespace UnknownValue

/-- A program with two declarations, the second of which has a value that does not exist. -/
def source : String := "x: int = 1\ny: int = z"

/-- Its tokens. -/
def tokens : List Token :=
  [⟨.literal, "x", 1, 1, 0, 1⟩, ⟨.colon, ":", 1, 2, 1, 1⟩, ⟨.literal, "int", 1, 4, 3, 3⟩,
    ⟨.equals, "=", 1, 8, 7, 1⟩, ⟨.literal, "1", 1, 10, 9, 1⟩, ⟨.literal, "y", 2, 1, 11, 1⟩,
    ⟨.colon, ":", 2, 2, 12, 1⟩, ⟨.literal, "int", 2, 4, 14, 3⟩, ⟨.equals, "=", 2, 8, 18, 1⟩,
    ⟨.literal, "z", 2, 10, 20, 1⟩, ⟨.eof, "", 2, 11, 21, 0⟩]

/-- Only the first declaration is completed, however many slots there are. -/
theorem not_completes : ¬ ∃ x, Completes source 2 x ∧
    2 ≤ (x.statements.filterMap Stmt.declared?).length := by
  rintro ⟨x, ⟨ts, hts, hx⟩, hmany⟩
  have htokens : tokenize source = .ok tokens := by decide +kernel
  obtain rfl := Except.ok.inj (htokens.symm.trans hts)
  have hone : (readTokens? 2 tokens).map (fun x ↦ (x.statements.filterMap Stmt.declared?).length) =
      some 1 := by
    decide +kernel
  rw [hx, Option.map_some] at hone
  have hcount := Option.some.inj hone
  omega

end UnknownValue

/-- A table of one slot is full when the second declaration of `x` comes, and the error names it.
But a second declaration with a fault of its own is refused for that fault, which stands to the
right of its name. -/
theorem second_declaration_finds_table_full :
    1 ≤ 256 ∧ 1 ≤ 2 ∧
      (∃ span, Stmt.DeclaresAt Redeclaration.checked.statements 1 span ∧
        compileFor Redeclaration.source 1 = .error (.tooManyVariables 1 span)) ∧
      compileFor UnknownValue.source 1 = .error (.undefinedVariable "z" ⟨2, 10, 20, 1⟩) := by
  refine ⟨by decide, by decide, ?_, ?_⟩
  · exact (capacity_is_a_threshold Redeclaration.source (by decide)).2.1 _
      Redeclaration.compileFor_source (by decide)
  · have herror : compileFor UnknownValue.source 2 =
        .error (.undefinedVariable "z" ⟨2, 10, 20, 1⟩) := by
      decide +kernel
    obtain ⟨-, -, hthird⟩ := capacity_is_a_threshold UnknownValue.source (show 1 ≤ 2 by decide)
    exact (hthird _ (by decide) herror).2 UnknownValue.not_completes

end SlotLang
