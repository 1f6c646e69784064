import SlotLang.Proofs.Resolution
import SlotLang.Proofs.Runs

/-!
# Lowered programs do not go wrong

A discipline on instruction lists that lowering keeps and running needs. `Instr.Safe n i n'` says
that instruction `i` is fit to run when the first `n` slots hold integers, and that `n'` of them do
afterwards: it loads and stores below `n` only, and an allocation takes exactly slot `n`.

* `Stmt.Checked.safeAll_instrs` is the static half: the instructions of a checked statement keep the
  discipline, counting with the registry.
* `Instr.Safe.run` is the dynamic half, for any table at all: whatever was live before, and whatever
  the policy, the limit, the allocator and the writer do, an instruction that keeps the discipline
  succeeds or has one of the failures in `Instr.Fault`.

What is live beyond the first `n` slots never matters, so nothing is asked of the table a program
starts on.
-/

namespace SlotLang

/-! ### The discipline -/

/-- The operand reads none but the first `n` slots. -/
def Operand.Below (n : Nat) : Operand → Prop
  | .const _ => True
  | .load slot => slot < n

namespace Instr

/-- The operands an instruction evaluates, in order. -/
def operands : Instr → List Operand
  | .alloc .. => []
  | .store _ value => [value]
  | .call _ args => args
  | .eval value => [value]

/-- An instruction fit to run when the first `n` slots hold integers; `n'` of them do afterwards. -/
inductive Safe (n : Nat) : Instr → Nat → Prop
  | alloc {size : Nat} (h : Word.size ≤ size) : Safe n (.alloc n size) (n + 1)
  | store {slot : Nat} {value : Operand} (h : slot < n) (hvalue : value.Below n) :
      Safe n (.store slot value) n
  | call {builtin : Builtin} {args : List Operand} (h : ∀ op ∈ args, op.Below n) :
      Safe n (.call builtin args) n
  | eval {value : Operand} (h : value.Below n) : Safe n (.eval value) n

/-- Instructions fit to run one after the other. -/
inductive SafeAll : Nat → List Instr → Nat → Prop
  | nil (n : Nat) : SafeAll n [] n
  | cons {n n' n'' : Nat} {i : Instr} {is : List Instr} (h : i.Safe n n')
      (hs : SafeAll n' is n'') : SafeAll n (i :: is) n''

/-- The failures left to an instruction that keeps the discipline, on a table of `capacity` slots:
an allocation that cannot be had, and a line that the writer refuses. -/
inductive Fault (w : Writer) (capacity : Nat) : Instr → RuntimeError → Prop
  | indexOutOfRange (slot size : Nat) :
      Fault w capacity (.alloc slot size) (.table (.indexOutOfRange slot capacity))
  | alreadyInitialized (slot size : Nat) :
      Fault w capacity (.alloc slot size) (.table (.alreadyInitialized slot))
  | outOfMemory (slot size : Nat) :
      Fault w capacity (.alloc slot size) (.table (.outOfMemory size))
  | refused (args : List Operand) {reason : String} {calls : Nat} {line : String}
      (h : w.refusal calls line = some reason) :
      Fault w capacity (.call .print args) (.output reason)

theorem SafeAll.append {n n' n'' : Nat} {is js : List Instr} (h : SafeAll n is n')
    (h' : SafeAll n' js n'') : SafeAll n (is ++ js) n'' := by
  induction h with
  | nil => exact h'
  | cons h _ ih => exact .cons h (ih h')

end Instr

/-! ### Lowering keeps it -/

theorem Expr.Resolved.below_operand {r : Registry} (hr : r.Bounded) {e : Expr}
    (h : e.Resolved r) : e.operand.Below r.slotCount := by
  cases h with
  | int v span => trivial
  | read span h => exact hr h

theorem Operand.Below.succ {n : Nat} {op : Operand} (h : op.Below n) : op.Below (n + 1) := by
  cases op with
  | const => trivial
  | load slot => exact Nat.lt_succ_of_lt h

/-- The instructions of a checked statement keep the discipline. -/
theorem Stmt.Checked.safeAll_instrs {r r' : Registry} {s : Stmt} (hr : r.Bounded)
    (h : s.Checked r r') : Instr.SafeAll r.slotCount s.instrs r'.slotCount := by
  cases h with
  | @declaration name type v value r' span hvalue hv =>
    obtain ⟨rfl, hcount, -⟩ := Registry.declare?_eq_some hv
    rw [hcount]
    have hsize : Word.size ≤ type.slotSize := by cases type; decide
    exact .cons (.alloc hsize) (.cons (.store (Nat.lt_succ_self _) (hvalue.below_operand hr).succ)
      (.nil _))
  | call span _ hargs =>
    refine .cons (.call fun op hop ↦ ?_) (.nil _)
    obtain ⟨e, he, rfl⟩ := List.mem_map.1 hop
    exact (hargs e he).below_operand hr
  | value he =>
    have hbelow := he.below_operand hr
    cases he with
    | int => exact .cons (.eval hbelow) (.nil _)
    | read => exact .cons (.eval hbelow) (.nil _)

/-- So do those of a whole program, from the first slot on. -/
theorem Stmt.CheckedAll.safeAll_instrs {r r' : Registry} {ss : List Stmt} (hr : r.Bounded)
    (h : Stmt.CheckedAll r ss r') :
    Instr.SafeAll r.slotCount (ss.flatMap Stmt.instrs) r'.slotCount := by
  induction h with
  | nil => exact .nil _
  | cons h _ ih => exact (h.safeAll_instrs hr).append (ih (h.bounded hr))

theorem safeAll_of_compileFor {source : String} {capacity : Nat} {m : Module}
    (h : compileFor source capacity = .ok m) :
    Instr.SafeAll 0 m.lower.instrs m.slotCount := by
  obtain ⟨r, hchecked, hcount⟩ := checked_of_compileFor h
  rw [← hcount]
  exact hchecked.safeAll_instrs (Registry.bounded_empty capacity)

/-! ### Running needs no more -/

/-- The first `n` slots hold buffers with room for an `int`. -/
def Table.HoldsInts (t : Table) (n : Nat) : Prop :=
  ∀ i < n, ∃ b, t.buffer? i = some b ∧ Word.size ≤ b.length

theorem Operand.Below.eval {t : Table} {n : Nat} (ht : t.HoldsInts n) {op : Operand}
    (h : op.Below n) : ∃ v, op.eval t = .ok v := by
  cases op with
  | const v => exact ⟨v, rfl⟩
  | load slot =>
    obtain ⟨b, hb, hlen⟩ := ht slot h
    exact ⟨_, Table.readInt_of_buffer? hb hlen⟩

/-- Storing an `int` leaves room for one wherever there was. -/
theorem Table.HoldsInts.writeInt {t : Table} {n : Nat} (ht : t.HoldsInts n) (slot : Nat)
    (v : Int32) : (t.writeInt slot v).table.HoldsInts n := by
  intro i hi
  obtain ⟨b, hb, hlen⟩ := ht i hi
  rw [table_writeInt]
  by_cases hslot : slot = i
  · subst hslot
    exact ⟨storeInt v b, by rw [buffer?_rewrite_edit, hb]; rfl, by rwa [length_storeInt]⟩
  · exact ⟨b, by rw [buffer?_rewrite_of_ne _ hslot, hb], hlen⟩

/-- A new slot behind the first `n` is the next that holds an `int`. -/
theorem Table.HoldsInts.created {t : Table} {n size : Nat} (ht : t.HoldsInts n)
    (hn : n < t.capacity) (hsize : Word.size ≤ size) (old : Nat) :
    (t.created n size old).HoldsInts (n + 1) := by
  intro i hi
  by_cases hni : n = i
  · subst hni
    exact ⟨_, buffer?_created_self old hn, by simpa using hsize⟩
  · obtain ⟨b, hb, hlen⟩ := ht i (by omega)
    exact ⟨b, by rw [buffer?_created_of_ne old hni, hb], hlen⟩

/-- A piece is refused for the reason the writer gives. -/
theorem Writer.refusal_of_write {w : Writer} {out : Output} {piece reason : String}
    (h : (w.write out piece).1 = .error reason) : w.refusal out.calls piece = some reason := by
  unfold Writer.write at h
  split at h
  · cases h
  · split at h
    · cases h
    · rename_i hr
      cases h
      exact hr

/-- Printing fails only where the writer refuses a line: every operand can be read. -/
theorem printOperands_result {w : Writer} {t : Table} {n : Nat} (ht : t.HoldsInts n)
    (out : Output) {args : List Operand} (h : ∀ op ∈ args, op.Below n) :
    (printOperands w t out args).1 = .ok () ∨
      ∃ reason calls line, w.refusal calls line = some reason ∧
        (printOperands w t out args).1 = .error (.output reason) := by
  induction args generalizing out with
  | nil => exact .inl rfl
  | cons op args ih =>
    obtain ⟨v, hv⟩ := (h op (by simp)).eval ht
    rw [printOperands, hv]
    rcases hw : w.write out (printedLine v) with ⟨reason | _, out'⟩
    · exact .inr ⟨reason, _, _, Writer.refusal_of_write (by rw [hw]), by simp only [hw]⟩
    · simp only [hw]
      exact ih out' fun op' hop ↦ h op' (by simp [hop])

namespace Instr

variable {a : Allocator} {w : Writer} {t : Table} {out : Output}

/-- **One instruction.** It succeeds, and the slots it counts on hold integers afterwards, or it has
one of the failures left to it. -/
theorem Safe.run {n n' : Nat} {i : Instr} (h : i.Safe n n') (ht : t.HoldsInts n)
    (a : Allocator) (w : Writer) (out : Output) :
    (i.run a w t out).result = .ok () ∧ (i.run a w t out).table.HoldsInts n' ∧
        (i.run a w t out).table.capacity = t.capacity ∨
      ∃ e, (i.run a w t out).result = .error e ∧ i.Fault w t.capacity e := by
  cases h with
  | @alloc size hsize =>
    simp only [Instr.run, Ran.ofStep]
    rcases hr : (t.create a n size).result with e | handle
    · refine .inr ⟨.table e, rfl, ?_⟩
      rcases (Table.create_of_error hr).2 with ⟨rfl, -⟩ | ⟨rfl, -⟩ | rfl
      · exact .indexOutOfRange n size
      · exact .alreadyInitialized n size
      · exact .outOfMemory n size
    · obtain ⟨s, hs, -, -, htable⟩ := Table.create_of_ok hr
      have hn : n < t.capacity := (List.getElem?_eq_some_iff.1 hs).1
      rw [htable]
      exact .inl ⟨rfl, ht.created hn hsize _, Table.capacity_created _⟩
  | @store slot value hslot hvalue =>
    obtain ⟨v, hv⟩ := hvalue.eval ht
    obtain ⟨b, hb, hlen⟩ := ht slot hslot
    simp only [Instr.run, hv, Ran.ofStep, Table.writeInt_of_buffer? hb hlen]
    refine .inl ⟨rfl, ht.writeInt slot v, ?_⟩
    rw [Table.table_writeInt, Table.capacity_rewrite]
  | @call builtin args hargs =>
    cases builtin
    simp only [Instr.run]
    rcases printOperands_result ht out hargs with hok | ⟨reason, calls, line, href, herr⟩
    · exact .inl ⟨hok, ht, trivial⟩
    · exact .inr ⟨.output reason, herr, .refused args href⟩
  | @eval value hvalue =>
    obtain ⟨v, hv⟩ := hvalue.eval ht
    simp only [Instr.run, hv]
    exact .inl ⟨trivial, ht, trivial⟩

theorem Safe.below_operands {n n' : Nat} {i : Instr} (h : i.Safe n n') :
    ∀ op ∈ i.operands, op.Below n := by
  cases h with
  | alloc => simp [operands]
  | store _ hvalue => simpa [operands] using hvalue
  | call h => exact h
  | eval h => simpa [operands] using h

/-- An allocation takes the next slot, so it never takes one below it. -/
theorem Safe.slot_eq {n n' slot size : Nat} (h : (Instr.alloc slot size).Safe n n') :
    slot = n ∧ n' = n + 1 := by
  cases h
  exact ⟨rfl, rfl⟩

theorem Safe.le {n n' : Nat} {i : Instr} (h : i.Safe n n') : n ≤ n' := by
  cases h <;> omega

/-- **Up to any instruction of a run.** If the instructions before `i` succeed, then `i` finds the
slots it counts on, and all slots allocated before it are among them. -/
theorem SafeAll.reach {n n'' : Nat} {pre post : List Instr} {i : Instr}
    (h : SafeAll n (pre ++ i :: post) n'') (ht : t.HoldsInts n)
    (hok : (runInstrs a w pre t out).result = .ok ()) :
    ∃ k k', i.Safe k k' ∧ n ≤ k ∧ (runInstrs a w pre t out).table.HoldsInts k ∧
      (runInstrs a w pre t out).table.capacity = t.capacity ∧
      ∀ slot size, Instr.alloc slot size ∈ pre → slot < k := by
  induction pre generalizing n t out with
  | nil =>
    cases h with
    | cons hi _ => exact ⟨n, _, hi, Nat.le_refl n, ht, rfl, by simp⟩
  | cons j pre ih =>
    cases h with
    | @cons _ n' _ _ _ hj hs =>
      rcases hj.run ht a w out with ⟨hresult, hholds, hcap⟩ | ⟨e, hresult, -⟩
      · -- the head has run; what is left is a shorter run on the table it leaves
        rw [runInstrs_cons_of_ok hresult] at hok ⊢
        obtain ⟨k, k', hi, hle, hk, hkcap, hslots⟩ := ih hs hholds hok
        refine ⟨k, k', hi, Nat.le_trans hj.le hle, hk, hkcap.trans hcap, fun slot size hmem ↦ ?_⟩
        rcases List.mem_cons.1 hmem with rfl | hmem
        · obtain ⟨rfl, rfl⟩ := hj.slot_eq
          omega
        · exact hslots slot size hmem
      · rw [runInstrs_cons_of_error hresult, hresult] at hok
        cases hok

end Instr

/-! ### Compiled programs -/

/-- **Compiled programs do not go wrong**, on any table and with any writer.

Whatever instruction of the program is reached, all its operands can be read, it fails only in a way
that `Instr.Fault` lists, and if it allocates, then a slot that nothing before it has allocated. So
a run that fails, fails at an allocation or at a line that is refused. -/
theorem lowered_fails_only_at_alloc_or_print {source : String} {capacity : Nat} {m : Module}
    (hm : compileFor source capacity = .ok m) (a : Allocator) (w : Writer) (t : Table) :
    (∀ pre i post, m.lower.instrs = pre ++ i :: post →
        (runInstrs a w pre t {}).result = .ok () →
        (∀ op ∈ i.operands, ∃ v, op.eval (runInstrs a w pre t {}).table = .ok v) ∧
        (∀ e, (i.run a w (runInstrs a w pre t {}).table (runInstrs a w pre t {}).output).result =
            .error e → i.Fault w t.capacity e) ∧
        ∀ slot size, i = .alloc slot size → ∀ size', Instr.alloc slot size' ∉ pre) ∧
      ∀ e, (m.lower.execute a w t).result = .error e →
        ∃ pre i post, m.lower.instrs = pre ++ i :: post ∧
          (runInstrs a w pre t {}).result = .ok () ∧
          (i.run a w (runInstrs a w pre t {}).table (runInstrs a w pre t {}).output).result =
            .error e ∧ i.Fault w t.capacity e := by
  have hsafe := safeAll_of_compileFor hm
  have hempty : t.HoldsInts 0 := fun i hi ↦ absurd hi (Nat.not_lt_zero i)
  have hfault : ∀ pre i post, m.lower.instrs = pre ++ i :: post →
      (runInstrs a w pre t {}).result = .ok () → ∀ e,
      (i.run a w (runInstrs a w pre t {}).table (runInstrs a w pre t {}).output).result =
        .error e → i.Fault w t.capacity e := by
    intro pre i post heq hok e he
    obtain ⟨k, k', hi, -, hk, hcap, -⟩ := Instr.SafeAll.reach (heq ▸ hsafe) hempty hok
    rcases hi.run hk a w (runInstrs a w pre t {}).output with ⟨hresult, -⟩ | ⟨e', he', hf⟩
    · rw [hresult] at he
      cases he
    · obtain rfl := Except.error.inj (he'.symm.trans he)
      exact hcap ▸ hf
  refine ⟨fun pre i post heq hok ↦ ⟨?_, hfault pre i post heq hok, ?_⟩, fun e he ↦ ?_⟩
  · obtain ⟨k, k', hi, -, hk, -⟩ := Instr.SafeAll.reach (heq ▸ hsafe) hempty hok
    exact fun op hop ↦ (hi.below_operands op hop).eval hk
  · obtain ⟨k, k', hi, -, -, -, hslots⟩ := Instr.SafeAll.reach (heq ▸ hsafe) hempty hok
    rintro slot size rfl size' hmem
    have hlt := hslots slot size' hmem
    obtain ⟨rfl, -⟩ := hi.slot_eq
    exact Nat.lt_irrefl _ hlt
  · obtain ⟨pre, i, post, heq, hok, hi⟩ := exists_failing_instr he
    exact ⟨pre, i, post, heq, hok, hi, hfault pre i post heq hok e hi⟩

/-- With room for one slot only, the second declaration of a name is where its program stops. -/
theorem redeclaration_fails_at_second_alloc :
    compileFor Redeclaration.source 256 = .ok Redeclaration.checked ∧
      ∃ pre i post, Redeclaration.checked.lower.instrs = pre ++ i :: post ∧
        (runInstrs .system .buffer pre (Table.fresh { capacity := 1 }) {}).result = .ok () ∧
        (i.run .system .buffer
            (runInstrs .system .buffer pre (Table.fresh { capacity := 1 }) {}).table
            (runInstrs .system .buffer pre (Table.fresh { capacity := 1 }) {}).output).result =
          .error (.table (.indexOutOfRange 1 1)) ∧
        i.Fault .buffer 1 (.table (.indexOutOfRange 1 1)) :=
  ⟨Redeclaration.compileFor_source,
    (lowered_fails_only_at_alloc_or_print Redeclaration.compileFor_source .system .buffer
      (Table.fresh { capacity := 1 })).2 _ rfl⟩

end SlotLang
