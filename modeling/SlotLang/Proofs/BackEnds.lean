import SlotLang.Proofs.CBody
import SlotLang.Proofs.Interface
import SlotLang.Proofs.Safety

/-!
# The two back ends agree

A program is compiled in two ways that share nothing behind the checked program: to instructions,
which `execute` runs, and to C text. Here the C is given a meaning of its own, and both are shown to
print the same, to end with the same exit code and to release the same slots.

* **C.** `C.run` carries out statements over the table functions of `SlotLang.Abi`. A null pointer
  that is followed, an access behind the end of a buffer and an integer that is no `int` are traps.
  Statuses are ignored, as the emitted program ignores them, so all that it learns about a refused
  slot is that there is no pointer to it.
* **In step.** `Stmt.Checked.in_step` takes both sides over one statement. They go on with the same
  table and the same text, or both stop at a slot that is refused, the one with an error and the
  other by way of its own cleanup. `Table.Filled` is the invariant: the slots given out so far hold
  integers, which makes every access sound, and the others are empty, which is why a refused slot
  has no pointer.

Since the allocator is any allocator, the agreement includes every way in which memory can run out.
-/

namespace SlotLang

/-! ### Running C -/

namespace C

/-- What C leaves undefined. -/
inductive Trap where
  /-- A null pointer is followed. -/
  | nullPointer
  /-- An `int` is read or written where there is no room for one. -/
  | outOfBounds
  /-- A literal or a result is no `int`. -/
  | overflow
deriving DecidableEq, Repr

/-- A running C program. -/
structure Process where
  /-- What the table functions keep. -/
  state : Abi.State
  /-- The text printed so far. -/
  printed : String
  /-- The number of slots that cleaning up has released so far. -/
  released : Nat
deriving DecidableEq, Repr

/-- A program in which nothing has happened. -/
def Process.fresh : Process := ⟨.fresh, "", 0⟩

/-- Release every live slot. -/
def Process.cleanup (q : Process) : Process :=
  let state := (q.state.cleanup true).2.2
  ⟨state, q.printed, q.released + (q.state.table.liveCount - state.table.liveCount)⟩

/-- An integer as an `int`. -/
def int (z : Int) : Except Trap Int32 :=
  match Decimal.int32? z with
  | some v => .ok v
  | none => .error .overflow

/-- Read the `int` that the pointer to a slot leads to: the first four bytes of the buffer. -/
def loadInt (p : Abi.State) (i : Nat) : Except Trap Int32 :=
  match p.pointer i with
  | none => .error .nullPointer
  | some b => if b.length < Word.size then .error .outOfBounds else .ok (Word.decode b)

/-- Write the `int` that the pointer to a slot leads to. -/
def storeInt (p : Abi.State) (i : Nat) (v : Int32) : Except Trap Abi.State :=
  match p.pointer i with
  | none => .error .nullPointer
  | some b =>
    if b.length < Word.size then .error .outOfBounds
    else .ok { p with table := (p.table.poke i (Word.encode v)).table }

/-- The value of an expression. Every literal and every result must be an `int`. -/
def Expr.eval (p : Abi.State) : Expr → Except Trap Int32
  | .number n => int n
  | .negative n => (int n).bind fun v ↦ int (-v.toInt)
  | .difference m n =>
    (int m).bind fun v ↦ (int (-v.toInt)).bind fun v ↦
      (int n).bind fun w ↦ int (v.toInt - w.toInt)
  | .slot i => loadInt p i

/-- Carry out a statement. A code says that it leaves the program. -/
def Stmt.exec (a : Allocator) (stdout : Writer) (q : Process) :
    Stmt → Except Trap (Option Nat × Process)
  | .create i size => .ok (none, { q with state := (q.state.create a i size).2 })
  | .bail i code =>
    match q.state.pointer i with
    | some _ => .ok (none, q)
    | none => .ok (some code, q.cleanup)
  | .store i value =>
    (value.eval q.state).bind fun v ↦
      (storeInt q.state i v).map fun p ↦ (none, { q with state := p })
  | .print value =>
    (value.eval q.state).map fun v ↦
      let (_, out, p) := q.state.print stdout v
      (none, ⟨p, q.printed ++ out.text, q.released⟩)
  | .eval value => (value.eval q.state).map fun _ ↦ (none, q)
  | .cleanup => .ok (none, q.cleanup)
  | .leave code => .ok (some code, q)

/-- Carry out statements up to the one that leaves the program. Behind the last, a program is left
with code 0. -/
def run (a : Allocator) (stdout : Writer) : List Stmt → Process → Except Trap (Nat × Process)
  | [], q => .ok (0, q)
  | s :: ss, q =>
    match s.exec a stdout q with
    | .error trap => .error trap
    | .ok (some code, q) => .ok (code, q)
    | .ok (none, q) => run a stdout ss q

section Run

variable {a : Allocator} {stdout : Writer} {q q' : Process} {s : Stmt} {ss : List Stmt}

theorem run_cons_of_next (h : s.exec a stdout q = .ok (none, q')) :
    run a stdout (s :: ss) q = run a stdout ss q' := by
  rw [run, h]

theorem run_cons_of_leave {code : Nat} (h : s.exec a stdout q = .ok (some code, q')) :
    run a stdout (s :: ss) q = .ok (code, q') := by
  rw [run, h]

end Run

/-! ### Literals -/

theorem int_toInt (v : Int32) : int v.toInt = .ok v := by
  have hlt := v.toInt_lt
  have hge := v.le_toInt
  rw [int, Decimal.int32?, if_pos (by omega), Int32.ofInt_toInt]

theorem int_of_le {n : Nat} (h : n ≤ 2147483647) : ∃ w, int n = .ok w ∧ w.toInt = n := by
  refine ⟨Int32.ofInt n, ?_, ?_⟩
  · rw [int, Decimal.int32?, if_pos (by omega)]
  · exact Int32.toInt_ofInt_of_le (by omega) (by omega)

/-- **A constant has the value it was written for**, the least one and other negative ones too. -/
theorem Expr.eval_ofInt32 (p : Abi.State) (v : Int32) : (Expr.ofInt32 v).eval p = .ok v := by
  have hlt := v.toInt_lt
  rcases Expr.ofInt32_cases v with ⟨rfl, hform⟩ | ⟨hneg, hform⟩ | ⟨hpos, hform⟩
  · rw [hform]
    rfl
  · obtain ⟨x, hx, hxint⟩ := int_of_le (show v.toInt.natAbs ≤ 2147483647 by omega)
    rw [hform]
    show (int v.toInt.natAbs).bind (fun v ↦ int (-v.toInt)) = _
    rw [hx]
    show int (-x.toInt) = _
    rw [hxint, show -(v.toInt.natAbs : Int) = v.toInt by omega, int_toInt]
  · rw [hform]
    show int v.toInt.toNat = _
    rw [show (v.toInt.toNat : Int) = v.toInt by omega, int_toInt]

end C

/-! ### In step -/

/-- The first `n` slots hold integers and the others are empty. -/
structure Table.Filled (t : Table) (n : Nat) : Prop where
  ints : t.HoldsInts n
  vacant : ∀ i, n ≤ i → t.buffer? i = none

theorem Table.Filled.declared {t : Table} {n size : Nat} (ht : t.Filled n) (hn : n < t.capacity)
    (hsize : Word.size ≤ size) (old : Nat) (v : Int32) :
    ((t.created n size old).writeInt n v).table.Filled (n + 1) := by
  refine ⟨(ht.ints.created hn hsize old).writeInt n v, fun i hi ↦ ?_⟩
  have hne : n ≠ i := by omega
  rw [table_writeInt, buffer?_rewrite_of_ne _ hne, buffer?_created_of_ne old hne]
  exact ht.vacant i (by omega)

/-- A value is the same in C as in the instructions. -/
theorem Expr.Resolved.eval_cExpr {r : Registry} {e : Expr} (he : e.Resolved r) {t : Table}
    {n : Nat} (hbelow : e.operand.Below n) (ht : t.HoldsInts n) :
    ∃ v, e.operand.eval t = .ok v ∧ e.cExpr.eval (.calm t) = .ok v := by
  cases he with
  | int v span => exact ⟨v, rfl, C.Expr.eval_ofInt32 _ v⟩
  | @read name v span hv =>
    obtain ⟨b, hb, hlen⟩ := ht v.slot hbelow
    refine ⟨Word.decode b, Table.readInt_of_buffer? hb hlen, ?_⟩
    show C.loadInt (.calm t) v.slot = _
    rw [C.loadInt, Abi.State.pointer_calm, hb]
    exact if_neg (by omega)

theorem C.storeInt_calm {t : Table} {i : Nat} {b : List UInt8} (hb : t.buffer? i = some b)
    (hlen : Word.size ≤ b.length) (v : Int32) :
    C.storeInt (.calm t) i v = .ok (.calm (t.writeInt i v).table) := by
  unfold C.storeInt Table.writeInt
  rw [Abi.State.pointer_calm, hb, Table.bytes_eq_ok_iff.2 hb]
  simp only [if_neg (show ¬ b.length < Word.size by omega)]
  rfl

theorem C.Process.cleanup_calm (t : Table) (printed : String) (k : Nat) :
    C.Process.cleanup ⟨.calm t, printed, k⟩ = ⟨.calm t.emptied, printed, k + t.liveCount⟩ := by
  unfold C.Process.cleanup
  simp only [Abi.State.cleanup_calm]
  show (⟨_, _, k + (t.liveCount - t.emptied.liveCount)⟩ : C.Process) = _
  rw [Table.liveCount_emptied, Nat.sub_zero]

section Agreement

variable {a : Allocator} {w stdout : Writer} {r r' : Registry} {t : Table}

/-- **A declaration whose slot is refused** stops the instructions, and takes the C program to its
cleanup and out with code 1: the slot was empty, so there is no pointer to it. -/
theorem declaration_refused {i size : Nat} {op : Operand} {value : C.Expr} {e : TableError}
    (he : (t.create a i size).result = .error e) (hempty : t.buffer? i = none)
    (w stdout : Writer) (out : Output) (k : Nat) (rest : List C.Stmt) :
    (runInstrs a w [.alloc i size, .store i op] t out).Stops t out ∧
      C.run a stdout (.create i size :: .bail i 1 :: .store i value :: rest)
          ⟨.calm t, out.text, k⟩ =
        .ok (1, ⟨.calm t.emptied, out.text, k + t.liveCount⟩) := by
  refine ⟨(stops_alloc he).andThen _, ?_⟩
  have hcreate : C.Stmt.exec a stdout ⟨.calm t, out.text, k⟩ (.create i size) =
      .ok (none, ⟨.calm t, out.text, k⟩) := by
    rw [C.Stmt.exec, Abi.State.create_calm, (Table.create_of_error he).1]
  have hbail : C.Stmt.exec a stdout ⟨.calm t, out.text, k⟩ (.bail i 1) =
      .ok (some 1, ⟨.calm t.emptied, out.text, k + t.liveCount⟩) := by
    rw [C.Stmt.exec, Abi.State.pointer_calm, hempty, C.Process.cleanup_calm]
  rw [C.run_cons_of_next hcreate, C.run_cons_of_leave hbail]

/-- **A declaration whose slot is had** stores the same value into the same slot. -/
theorem declaration_stores {i size : Nat} {op : Operand} {value : C.Expr} {h : Handle}
    {v : Int32} {b : List UInt8} (hr : (t.create a i size).result = .ok h)
    (hb : (t.create a i size).table.buffer? i = some b) (hlen : Word.size ≤ b.length)
    (hop : op.eval (t.create a i size).table = .ok v)
    (hvalue : value.eval (.calm (t.create a i size).table) = .ok v) (w stdout : Writer)
    (out : Output) (k : Nat) (rest : List C.Stmt) :
    (runInstrs a w [.alloc i size, .store i op] t out).Ends
        ((t.create a i size).table.writeInt i v).table out ∧
      C.run a stdout (.create i size :: .bail i 1 :: .store i value :: rest)
          ⟨.calm t, out.text, k⟩ =
        C.run a stdout rest
          ⟨.calm ((t.create a i size).table.writeInt i v).table, out.text, k⟩ := by
  constructor
  · rw [Table.table_writeInt]
    exact ends_runInstrs_cons (ends_alloc_of_ok hr)
      (ends_runInstrs_cons (ends_store hop hb hlen) ends_runInstrs_nil)
  · have hcreate : C.Stmt.exec a stdout ⟨.calm t, out.text, k⟩ (.create i size) =
        .ok (none, ⟨.calm (t.create a i size).table, out.text, k⟩) := by
      rw [C.Stmt.exec, Abi.State.create_calm]
    have hbail : C.Stmt.exec a stdout ⟨.calm (t.create a i size).table, out.text, k⟩
        (.bail i 1) = .ok (none, ⟨.calm (t.create a i size).table, out.text, k⟩) := by
      rw [C.Stmt.exec, Abi.State.pointer_calm, hb]
    have hstore : C.Stmt.exec a stdout ⟨.calm (t.create a i size).table, out.text, k⟩
        (.store i value) =
          .ok (none, ⟨.calm ((t.create a i size).table.writeInt i v).table, out.text, k⟩) := by
      rw [C.Stmt.exec, hvalue]
      show (C.storeInt (.calm (t.create a i size).table) i v).map _ = _
      rw [C.storeInt_calm hb hlen v]
      rfl
    rw [C.run_cons_of_next hcreate, C.run_cons_of_next hbail, C.run_cons_of_next hstore]

/-- **One statement.** Both sides come to the same table and the same text, or both stop where a
slot is refused. -/
theorem Stmt.Checked.in_step {s : Stmt} (hs : s.Checked r r') (hr : r.Bounded)
    (ht : t.Filled r.slotCount) (a : Allocator) (hw : w.Accepts) (hstdout : stdout.Accepts)
    (out : Output) (k : Nat) (rest : List C.Stmt) :
    (∃ t' out', (runInstrs a w s.instrs t out).Ends t' out' ∧ t'.Filled r'.slotCount ∧
        C.run a stdout (s.cStmts ++ rest) ⟨.calm t, out.text, k⟩ =
          C.run a stdout rest ⟨.calm t', out'.text, k⟩) ∨
      (runInstrs a w s.instrs t out).Stops t out ∧
        C.run a stdout (s.cStmts ++ rest) ⟨.calm t, out.text, k⟩ =
          .ok (1, ⟨.calm t.emptied, out.text, k + t.liveCount⟩) := by
  cases hs with
  | @declaration name type v value r' span hvalue hv =>
    obtain ⟨rfl, hcount, -⟩ := Registry.declare?_eq_some hv
    have hsize : Word.size ≤ type.slotSize := by cases type; decide
    rcases hcreate : (t.create a r.slotCount type.slotSize).result with e | h
    · have hempty := ht.vacant r.slotCount (Nat.le_refl _)
      exact .inr (declaration_refused hcreate hempty w stdout out k rest)
    · -- both sides evaluate the value behind the allocation, in the table it has left
      obtain ⟨old, hold, -, -, htable⟩ := Table.create_of_ok hcreate
      have hlt : r.slotCount < t.capacity := (List.getElem?_eq_some_iff.1 hold).1
      have hints := ht.ints.created hlt hsize old.size
      obtain ⟨b, hb, hlen⟩ := hints r.slotCount (Nat.lt_succ_self _)
      obtain ⟨x, hop, hx⟩ := hvalue.eval_cExpr (hvalue.below_operand hr).succ hints
      have hfilled := ht.declared hlt hsize old.size x
      rw [← htable] at hb hop hx hfilled
      obtain ⟨hends, hrun⟩ := declaration_stores hcreate hb hlen hop hx w stdout out k rest
      exact .inl ⟨_, out, hends, hcount ▸ hfilled, hrun⟩
  | @call builtin args span harity hargs =>
    cases builtin
    obtain ⟨e, rfl⟩ := List.length_eq_one_iff.1 harity
    have he := hargs e (by simp)
    obtain ⟨x, hop, hx⟩ := he.eval_cExpr (he.below_operand hr) ht.ints
    obtain ⟨out', hwrite, htext⟩ := hw.write out (printedLine x)
    obtain ⟨line, hprint, hline⟩ := Abi.State.print_calm t hstdout x
    refine .inl ⟨t, out', ends_runInstrs_cons (ends_print hop hwrite) ends_runInstrs_nil, ht, ?_⟩
    have hexec : C.Stmt.exec a stdout ⟨.calm t, out.text, k⟩ (.print e.cExpr) =
        .ok (none, ⟨.calm t, out'.text, k⟩) := by
      rw [C.Stmt.exec, hx, htext, ← hline]
      simp only [Except.map, hprint]
    exact C.run_cons_of_next hexec
  | @value e he =>
    obtain ⟨x, hop, hx⟩ := he.eval_cExpr (he.below_operand hr) ht.ints
    have hexec : C.Stmt.exec a stdout ⟨.calm t, out.text, k⟩ (.eval e.cExpr) =
        .ok (none, ⟨.calm t, out.text, k⟩) := by
      rw [C.Stmt.exec, hx]
      rfl
    refine .inl ⟨t, out, ?_, ht, ?_⟩
    · cases he <;> exact ends_runInstrs_cons (ends_eval hop) ends_runInstrs_nil
    · cases he <;> exact C.run_cons_of_next hexec

/-- **A whole program**, from any point of its run on: the C program comes to an end, and what it
has printed, its exit code and the slots it releases are those of the instructions. -/
theorem Stmt.CheckedAll.in_step {ss : List Stmt} (hs : Stmt.CheckedAll r ss r') (hr : r.Bounded)
    (ht : t.Filled r.slotCount) (a : Allocator) (hw : w.Accepts) (hstdout : stdout.Accepts)
    (out : Output) :
    ∃ code q, C.run a stdout (ss.flatMap Stmt.cStmts ++ [.cleanup, .leave 0])
          ⟨.calm t, out.text, 0⟩ = .ok (code, q) ∧
      q.printed = (runInstrs a w (ss.flatMap Stmt.instrs) t out).output.text ∧
      q.released = (runInstrs a w (ss.flatMap Stmt.instrs) t out).table.liveCount ∧
      (code = 0 ∧ (runInstrs a w (ss.flatMap Stmt.instrs) t out).result = .ok () ∨
        code = 1 ∧ ∃ e, (runInstrs a w (ss.flatMap Stmt.instrs) t out).result = .error e) := by
  induction hs generalizing t out with
  | nil r =>
    have hcleanup : C.Stmt.exec a stdout ⟨.calm t, out.text, 0⟩ .cleanup =
        .ok (none, ⟨.calm t.emptied, out.text, 0 + t.liveCount⟩) := by
      rw [C.Stmt.exec, C.Process.cleanup_calm]
    refine ⟨0, ⟨.calm t.emptied, out.text, 0 + t.liveCount⟩, ?_, rfl, Nat.zero_add _,
      .inl ⟨rfl, rfl⟩⟩
    rw [List.flatMap_nil, List.nil_append, C.run_cons_of_next hcleanup]
    rfl
  | @cons r r₁ r' s ss hs hss ih =>
    rw [List.flatMap_cons, List.flatMap_cons, runInstrs_append, List.append_assoc]
    rcases hs.in_step hr ht a hw hstdout out 0 (ss.flatMap Stmt.cStmts ++ [.cleanup, .leave 0]) with
      ⟨t₁, out₁, hends, ht₁, hrun⟩ | ⟨hstops, hrun⟩
    · obtain ⟨code, q, hcode, hprinted, hreleased, hresult⟩ := ih (hs.bounded hr) ht₁ out₁
      obtain ⟨hok, rfl, rfl⟩ := hends
      rw [hrun, Ran.andThen, hok]
      exact ⟨code, q, hcode, hprinted, hreleased, hresult⟩
    · obtain ⟨herror, htable, hout⟩ := hstops.andThen (runInstrs a w (ss.flatMap Stmt.instrs))
      refine ⟨1, _, hrun, ?_, ?_, .inr ⟨rfl, herror⟩⟩
      · rw [hout]
      · rw [htable]
        exact Nat.zero_add _

end Agreement

/-! ### Compiled programs -/

theorem Table.filled_fresh (config : TableConfig) : (Table.fresh config).Filled 0 := by
  refine ⟨fun i hi ↦ absurd hi (Nat.not_lt_zero i), fun i _ ↦ ?_⟩
  rw [Table.buffer?, Table.fresh, List.getElem?_replicate]
  split <;> rfl

/-- **The back ends agree.** The C file of a compiled program is the standard template around the
program's body. The body reads as the C statements of the program, with no literal above the
greatest `int`, and reads so with the end of the template behind it. Run as C, with any allocator,
these statements follow no null pointer and meet no other trap, and they print the text, return the
exit code and release the number of slots that executing the lowered program does. -/
theorem c_run_agrees_with_execute {source : String} {m : Module}
    (hm : compileFor source TableConfig.defaultCapacity = .ok m) (a : Allocator)
    {w stdout : Writer} (hw : w.Accepts) (hstdout : stdout.Accepts) :
    m.toC Template.standard =
        Template.opening ++ m.cBody ++ Template.closing ++ "\x7d\n" ∧
      (∃ tokens, C.lex m.cBody = some tokens ∧ C.readAll tokens = some m.cStmts ∧
        ∀ n, C.Token.number n ∈ tokens → n ≤ 2147483647) ∧
      C.parse (m.cBody ++ Template.closing) = some (m.cStmts ++ [.cleanup, .leave 0]) ∧
      ∃ code q, C.run a stdout (m.cStmts ++ [.cleanup, .leave 0]) .fresh = .ok (code, q) ∧
        q.printed = (m.lower.execute a w .standard).output.text ∧
        code = (m.lower.execute a w .standard).exitCode ∧
        q.released = (m.lower.execute a w .standard).released := by
  obtain ⟨r, hchecked, -⟩ := checked_of_compileFor hm
  have hbounded := Registry.bounded_empty TableConfig.defaultCapacity
  have hcount : r.slotCount ≤ 256 := hchecked.slotCount_le_capacity (Nat.zero_le _)
  refine ⟨Template.fill_standard _, ?_, ?_, ?_⟩
  · exact ⟨_, hchecked.lex_cBody, C.readAll_flatMap_tokens _,
      fun n hn ↦ hchecked.le_of_mem_tokens hbounded (by omega) hn⟩
  · rw [C.parse, hchecked.lex_cBody_closing]
    exact C.readAll_flatMap_tokens _
  · obtain ⟨code, q, hrun, hprinted, hreleased, hcode⟩ :=
      hchecked.in_step hbounded (Table.filled_fresh {}) a hw hstdout {}
    refine ⟨code, q, hrun, hprinted, ?_, hreleased⟩
    unfold Report.exitCode Report.isOk
    rcases hcode with ⟨rfl, hok⟩ | ⟨rfl, e, herror⟩
    · rw [show (m.lower.execute a w .standard).result = _ from hok]
      rfl
    · rw [show (m.lower.execute a w .standard).result = _ from herror]
      rfl

/-- When only the first slot can be had, the program prints nothing, cleans up that slot and leaves
with code 1, in C too. -/
theorem redeclaration_out_of_memory :
    compileFor Redeclaration.source 256 = .ok Redeclaration.checked ∧
      ∃ q, C.run ⟨fun inUse _ ↦ inUse < 8⟩ .buffer
          (Redeclaration.checked.cStmts ++ [.cleanup, .leave 0]) .fresh = .ok (1, q) ∧
        q.printed = "" ∧ q.released = 1 := by
  refine ⟨Redeclaration.compileFor_source, ?_⟩
  obtain ⟨-, -, -, code, q, hrun, hprinted, hcode, hreleased⟩ :=
    c_run_agrees_with_execute Redeclaration.compileFor_source ⟨fun inUse _ ↦ inUse < 8⟩
      Writer.accepts_buffer Writer.accepts_buffer
  have hcode' : code = 1 := hcode.trans (by decide +kernel)
  subst hcode'
  exact ⟨q, hrun, hprinted.trans (by decide +kernel), hreleased.trans (by decide +kernel)⟩

end SlotLang
