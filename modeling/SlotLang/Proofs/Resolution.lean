import SlotLang.Module.Parse

/-!
# Resolved programs

What reading a program guarantees about it, said without the reader: `Stmt.Checked r s r'` holds
when statement `s` is well formed under the declarations `r` and leaves the declarations `r'`. Names
in it stand for what `r` says, a declaration takes the next free slot of `r`, and the value of a
declaration is resolved in `r` and not in `r'`, so `x: int = x` reads the earlier `x`.

`checked_of_compileFor` is the only contact with the reader. The arguments of a call are read one
after the other, each as a value (`arguments_eq_append`), and since no function yields one
(`OpenCall.hasValue_expr`) no call is among them: a checked program has calls only as whole
statements.

Two facts about declarations carry the run-time arguments: a name stands for a slot that has been
given out already (`Registry.Bounded`), and a new declaration never takes such a slot.
-/

namespace SlotLang

/-- An expression that yields a value, with every name in it standing for what `r` says. -/
inductive Expr.Resolved (r : Registry) : Expr → Prop
  | int (v : Int32) (span : Span) : Expr.Resolved r (.int v span)
  | read {name : String} {v : Variable} (span : Span) (h : r.resolve? name = some v) :
      Expr.Resolved r (.read name v span)

/-- A statement that is well formed under the declarations `r` and leaves the declarations `r'`. -/
inductive Stmt.Checked (r : Registry) : Stmt → Registry → Prop
  | declaration {name : String} {type : ValueType} {v : Variable} {value : Expr} {r' : Registry}
      (span : Span) (hvalue : value.Resolved r) (hv : r.declare? name type = some (v, r')) :
      Stmt.Checked r (.declaration name v value span) r'
  | call {builtin : Builtin} {args : List Expr} (span : Span)
      (harity : args.length = builtin.arity) (hargs : ∀ e ∈ args, e.Resolved r) :
      Stmt.Checked r (.expr (.call builtin args span)) r
  | value {e : Expr} (he : e.Resolved r) : Stmt.Checked r (.expr e) r

/-- Statements that are well formed one after the other. -/
inductive Stmt.CheckedAll : Registry → List Stmt → Registry → Prop
  | nil (r : Registry) : Stmt.CheckedAll r [] r
  | cons {r r' r'' : Registry} {s : Stmt} {ss : List Stmt} (h : s.Checked r r')
      (hs : Stmt.CheckedAll r' ss r'') : Stmt.CheckedAll r (s :: ss) r''

/-! ### The reader checks what it reads -/

theorem Token.atom_resolved {t : Token} {r : Registry} {e : Expr} (h : t.atom r = .ok e) :
    e.Resolved r := by
  unfold atom at h
  split at h
  · split at h
    · rename_i v hv
      cases h
      exact .read t.span hv
    · cases h
  · split at h
    · cases h
    · rename_i v _
      cases h
      exact .int v t.span

namespace OpenCall

variable {c : OpenCall} {args args' : List Expr} {rest rest' : Feed}

/-- **No function yields a value.** -/
theorem hasValue_expr (c : OpenCall) (args : List Expr) : (c.expr args).hasValue = false := by
  show c.builtin.returnsValue = false
  cases c.builtin
  rfl

/-- A call that is completed has the arguments its function takes, and no one needs its value. -/
theorem length_of_close (h : c.close args rest = .ok (args', rest')) :
    args.length = c.builtin.arity ∧ c.asValue = false := by
  unfold close at h
  split at h
  · cases h
  · rename_i hlen
    split at h
    · cases h
    · rename_i hvalue
      exact ⟨by simpa using hlen, by simpa [hasValue_expr] using hvalue⟩

theorem asValue_ofName {name : Token} {paren : Span} {asValue : Bool}
    (h : ofName name paren asValue = .ok c) : c.asValue = asValue := by
  unfold ofName at h
  split at h <;> cases h
  rfl

end OpenCall

namespace Feed

variable {r r' : Registry} {f f' : Feed}

/-- **The arguments of a call** are those that were there and at least one more, each an expression
read as a value, unless there is none at all; and the call is complete. -/
theorem arguments_eq_append {c : OpenCall} {args args' : List Expr}
    (h : f.arguments r c args = .ok (args', f')) :
    c.close args' f' = .ok (args', f') ∧ ∃ values, args' = args ++ values ∧
      (args ≠ [] → values ≠ []) ∧
      ∀ e ∈ values, ∃ g rest : Feed, g.expression r true = .ok (e, rest) := by
  induction c, args, f using arguments_induction (r := r) with
  | step c args f _ next =>
    rw [arguments_eq] at h
    split at h
    · rename_i hnone
      rw [Bool.and_eq_true, List.isEmpty_iff] at hnone
      obtain ⟨rfl, rfl⟩ := OpenCall.close_eq_ok h
      exact ⟨h, [], (List.append_nil _).symm, absurd hnone.1, by simp⟩
    · split at h
      · cases h
      · split at h
        · cases h
        · rename_i value rest hvalue
          split at h
          · cases h
          · obtain ⟨rfl, rfl⟩ := OpenCall.close_eq_ok h
            exact ⟨h, [value], rfl, by simp, by simpa using ⟨f, rest, hvalue⟩⟩
          · rename_i hmore
            obtain ⟨hclose, values, rfl, -, hvalues⟩ := next value rest hvalue hmore h
            refine ⟨hclose, value :: values, (List.append_cons ..).symm, by simp, ?_⟩
            exact List.forall_mem_cons.2 ⟨⟨f, rest, hvalue⟩, hvalues⟩

/-- **No call is read as a value**, since such a call is refused when it is complete. -/
theorem asValue_of_arguments {c : OpenCall} {args args' : List Expr}
    (h : f.arguments r c args = .ok (args', f')) : c.asValue = false :=
  (OpenCall.length_of_close (arguments_eq_append h).1).2

/-- What is read as a value is an atom. -/
theorem expression_true_eq_ok {e : Expr} (h : f.expression r true = .ok (e, f')) :
    f.peek.kind = .literal ∧ f.atCall = false ∧ f.peek.atom r = .ok e ∧ f' = f.advance := by
  unfold expression at h
  split at h
  · cases h
  · rename_i hliteral
    split at h
    · split at h
      · cases h
      · rename_i c hc
        split at h
        · cases h
        · rename_i args rest hargs
          have hvalue := OpenCall.asValue_ofName hc
          rw [asValue_of_arguments hargs] at hvalue
          cases hvalue
    · rename_i hcall
      split at h
      · cases h
      · rename_i value hatom
        cases h
        exact ⟨Decidable.not_not.1 hliteral, Bool.eq_false_iff.2 hcall, hatom, rfl⟩

/-- The arguments of a call are resolved values, as many as the function takes. -/
theorem arguments_resolved {c : OpenCall} {args : List Expr}
    (h : f.arguments r c [] = .ok (args, f')) :
    args.length = c.builtin.arity ∧ ∀ e ∈ args, e.Resolved r := by
  obtain ⟨hclose, values, rfl, -, hvalues⟩ := arguments_eq_append h
  refine ⟨(OpenCall.length_of_close hclose).1, fun e he ↦ ?_⟩
  obtain ⟨g, rest, hg⟩ := hvalues e he
  exact Token.atom_resolved (expression_true_eq_ok hg).2.2.1

/-- An expression is a resolved value, or a complete call where no value is needed. -/
theorem expression_checked {asValue : Bool} {e : Expr}
    (h : f.expression r asValue = .ok (e, f')) :
    e.Resolved r ∨ asValue = false ∧ Stmt.Checked r (.expr e) r := by
  unfold expression at h
  split at h
  · cases h
  · split at h
    · split at h
      · cases h
      · rename_i c hc
        split at h
        · cases h
        · rename_i args rest hargs
          cases h
          obtain ⟨hlen, hres⟩ := arguments_resolved hargs
          refine .inr ⟨?_, .call c.name hlen hres⟩
          rw [← OpenCall.asValue_ofName hc]
          exact asValue_of_arguments hargs
    · split at h
      · cases h
      · rename_i value hvalue
        cases h
        exact .inl (Token.atom_resolved hvalue)

theorem declaration_checked {s : Stmt} (h : f.declaration r = .ok (s, r', f')) :
    s.Checked r r' := by
  unfold declaration at h
  split at h
  · cases h
  · split at h
    · cases h
    · split at h
      · cases h
      · rename_i value rest hvalue
        split at h
        · cases h
        · rename_i v r'' hdeclare
          cases h
          rcases expression_checked hvalue with hres | ⟨hfalse, -⟩
          · exact .declaration f.peek.span hres hdeclare
          · cases hfalse

theorem statement_checked {s : Stmt} (h : f.statement r = .ok (s, r', f')) : s.Checked r r' := by
  unfold statement at h
  split at h
  · cases h
  · split at h
    · exact declaration_checked h
    · split at h
      · cases h
      · rename_i e rest he
        cases h
        rcases expression_checked he with hres | ⟨-, hcall⟩
        · exact .value hres
        · exact hcall

end Feed

/-- Whatever stops the reading, the statements accepted before are well formed. -/
theorem readStatements_checked (r : Registry) (f : Feed) :
    Stmt.CheckedAll r (readStatements r f).statements (readStatements r f).registry := by
  fun_induction readStatements r f with
  | case1 => exact .nil _
  | case2 r f _ s r' rest hs reading ih => exact .cons (Feed.statement_checked hs) ih
  | case3 => exact .nil _

/-- **A program that compiles is checked**, from no declarations on, and its slots are those its
declarations have taken. -/
theorem checked_of_compileFor {source : String} {capacity : Nat} {m : Module}
    (h : compileFor source capacity = .ok m) :
    ∃ r, Stmt.CheckedAll (.empty capacity) m.statements r ∧ r.slotCount = m.slotCount := by
  unfold compileFor compilation at h
  split at h
  · cases h
  · rename_i tokens _
    have hchecked := readStatements_checked (.empty capacity) (.ofTokens tokens)
    generalize readStatements (.empty capacity) (.ofTokens tokens) = reading at h hchecked
    simp only [Reading.module] at h
    split at h
    · cases h
      exact ⟨_, hchecked, rfl⟩
    · cases h

theorem compileFor_eq_ok_iff {source : String} {capacity : Nat} {m : Module} :
    compileFor source capacity = .ok m ↔ (compileFor source capacity).toOption = some m := by
  rcases compileFor source capacity with e | m' <;> simp [Except.toOption]

/-- Whether a text compiles to a given program can be found out by compiling it. -/
instance (source : String) (capacity : Nat) (m : Module) :
    Decidable (compileFor source capacity = .ok m) :=
  decidable_of_iff _ compileFor_eq_ok_iff.symm

/-! ### Declarations take slots in order -/

namespace Registry

variable {r r' : Registry}

/-- Every name stands for a slot that has been given out. -/
def Bounded (r : Registry) : Prop :=
  ∀ ⦃name : String⦄ ⦃v : Variable⦄, r.resolve? name = some v → v.slot < r.slotCount

theorem bounded_empty (capacity : Nat) : (empty capacity).Bounded := by
  intro name v h
  cases h

/-- What a declaration does: the variable gets the next slot, and only its name is bound anew. -/
theorem declare?_eq_some {name : String} {type : ValueType} {v : Variable}
    (h : r.declare? name type = some (v, r')) :
    v = ⟨r.slotCount, type⟩ ∧ r'.slotCount = r.slotCount + 1 ∧ r.slotCount < r.capacity ∧
      r'.capacity = r.capacity ∧ r'.resolve? name = some v ∧
      ∀ other, other ≠ name → r'.resolve? other = r.resolve? other := by
  unfold declare? at h
  split at h
  · rename_i hlt
    cases h
    exact ⟨rfl, rfl, hlt, rfl, find?_put_self .., fun other hne ↦ find?_put_of_ne hne ..⟩
  · cases h

theorem Bounded.declare {name : String} {type : ValueType} {v : Variable} (hr : r.Bounded)
    (h : r.declare? name type = some (v, r')) : r'.Bounded := by
  obtain ⟨rfl, hcount, -, -, hself, hother⟩ := declare?_eq_some h
  intro other w hw
  rw [hcount]
  by_cases hname : other = name
  · subst hname
    obtain rfl := Option.some.inj (hself.symm.trans hw)
    exact Nat.lt_succ_self _
  · rw [hother other hname] at hw
    exact Nat.lt_succ_of_lt (hr hw)

end Registry

theorem Stmt.Checked.bounded {r r' : Registry} {s : Stmt} (hr : r.Bounded)
    (h : s.Checked r r') : r'.Bounded := by
  cases h with
  | declaration span hvalue hv => exact hr.declare hv
  | call => exact hr
  | value => exact hr

theorem Stmt.Checked.slotCount_le {r r' : Registry} {s : Stmt} (h : s.Checked r r') :
    r.slotCount ≤ r'.slotCount := by
  cases h with
  | declaration span hvalue hv =>
    obtain ⟨-, hcount, -⟩ := Registry.declare?_eq_some hv
    omega
  | call => exact Nat.le_refl _
  | value => exact Nat.le_refl _

theorem Stmt.CheckedAll.slotCount_le {r r' : Registry} {ss : List Stmt}
    (h : Stmt.CheckedAll r ss r') : r.slotCount ≤ r'.slotCount := by
  induction h with
  | nil => exact Nat.le_refl _
  | cons h _ ih => exact Nat.le_trans h.slotCount_le ih

theorem Stmt.Checked.slotCount_le_capacity {r r' : Registry} {s : Stmt} (h : s.Checked r r')
    (hr : r.slotCount ≤ r.capacity) : r'.slotCount ≤ r'.capacity ∧ r'.capacity = r.capacity := by
  cases h with
  | declaration span hvalue hv =>
    obtain ⟨-, hcount, hlt, hcapacity, -⟩ := Registry.declare?_eq_some hv
    omega
  | call => exact ⟨hr, rfl⟩
  | value => exact ⟨hr, rfl⟩

theorem Stmt.CheckedAll.slotCount_le_capacity {r r' : Registry} {ss : List Stmt}
    (h : Stmt.CheckedAll r ss r') (hr : r.slotCount ≤ r.capacity) :
    r'.slotCount ≤ r.capacity := by
  induction h with
  | nil => exact hr
  | cons h _ ih =>
    obtain ⟨hle, hcapacity⟩ := h.slotCount_le_capacity hr
    exact hcapacity ▸ ih hle

/-! ### A program to try things on -/

namespace Redeclaration

/-- A program that reads a name while it declares that name again. -/
def source : String := "x: int = 5\nx: int = x\nprint(x)\n"

/-- The program, checked: the second `x` takes a slot of its own and reads the first. -/
def checked : Module where
  statements :=
    [.declaration "x" ⟨0, .int⟩ (.int 5 ⟨1, 10, 9, 1⟩) ⟨1, 1, 0, 1⟩,
     .declaration "x" ⟨1, .int⟩ (.read "x" ⟨0, .int⟩ ⟨2, 10, 20, 1⟩) ⟨2, 1, 11, 1⟩,
     .expr (.call .print [.read "x" ⟨1, .int⟩ ⟨3, 7, 28, 1⟩] ⟨3, 1, 22, 5⟩)]
  slotCount := 2

theorem compileFor_source : compileFor source 256 = .ok checked := by
  decide +kernel

end Redeclaration

end SlotLang
