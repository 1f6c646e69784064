import SlotLang.Proofs.InitialMemory

/-!
# The overwrite policy

The overwrite policy is asked for by a creation that finds its slot live, and by nothing else. A
compiled program allocates every slot once, so on a table whose first slots are empty no creation of
its finds one live, and the policy is never asked for.

`Table.under p` is the table with another policy. Whatever does not ask for the policy commutes with
the change: doing it under `p` gives what doing it gives, with the table under `p`.

* `create_under` is the one place where a condition is needed: the slot is empty, or not there.
* `Instr.Safe.run_under` is the step. An instruction that keeps the discipline allocates at most the
  next slot, so it is enough that this one is empty.
* `Instr.SafeAll.run_under` is the run. The slots that the program has not reached yet stay as they
  are, so the next one is empty when its turn comes.
-/

namespace SlotLang

/-! ### Another policy -/

/-- The table with the policy `p`. -/
def Table.under (p : OverwritePolicy) (t : Table) : Table :=
  { t with config := { t.config with overwrite := p } }

/-- The log record made on the table with the policy `p`. -/
def LogPoint.under (p : OverwritePolicy) (point : LogPoint) : LogPoint :=
  { point with table := point.table.under p }

/-- The step with the policy `p` in the table it leaves and in those that its records see. -/
def Step.under {α : Type} (p : OverwritePolicy) (s : Step α) : Step α :=
  { s with table := s.table.under p, log := s.log.map (LogPoint.under p) }

/-- The run with the policy `p` in the table it leaves. -/
def Ran.under {ε : Type} (p : OverwritePolicy) (r : Ran ε) : Ran ε :=
  { r with table := r.table.under p }

namespace Table

variable {t : Table} {i : Nat} {p : OverwritePolicy}

@[simp]
theorem slots_under (p : OverwritePolicy) (t : Table) : (t.under p).slots = t.slots :=
  rfl

/-- **Creating a slot that is not live** does not ask for the policy. -/
theorem create_under (hdead : t.isInitialized i = false) (a : Allocator) (n : Nat)
    (p : OverwritePolicy) : (t.under p).create a i n = (t.create a i n).under p := by
  rcases hs : t.slots[i]? with - | s
  · simp only [create, slot, slots_under, hs]
    rfl
  · have hlive : s.isLive = false := by
      rw [isInitialized, hs] at hdead
      exact hdead
    have hs' : (t.under p).slots[i]? = some s := hs
    have hfree : ∀ q : OverwritePolicy, ¬ (s.isLive = true ∧ q = .reject) := by
      intro q hq
      rw [hlive] at hq
      exact Bool.false_ne_true hq.1
    rw [create_of_getElem? hs, create_of_getElem? hs', if_neg (hfree _), if_neg (hfree _)]
    -- the limit and the allocator are asked the same on both sides
    by_cases hmemory : t.config.admits (t.allocatedBytes - s.size + n) = true ∧
        a.grants t.allocatedBytes n = true
    · rw [if_pos hmemory]
      refine (if_pos hmemory).trans ?_
      rw [hlive]
      rfl
    · rw [if_neg hmemory]
      exact if_neg hmemory

theorem editBytes_under (edit : List UInt8 → List UInt8) (i : Nat) :
    (t.under p).editBytes i edit = (t.editBytes i edit).under p := by
  simp only [editBytes, slot, slots_under]
  rcases t.slots[i]? with - | ⟨_ | b, generation⟩ <;> rfl

theorem writeInt_under (i : Nat) (v : Int32) :
    (t.under p).writeInt i v = (t.writeInt i v).under p := by
  have hbytes : (t.under p).bytes i = t.bytes i := rfl
  rw [writeInt, writeInt, hbytes]
  split
  · rfl
  · split
    · rfl
    · simp only [poke, editBytes_under]
      rfl

end Table

/-! ### One instruction -/

variable {t : Table} {n n' : Nat}

theorem Operand.eval_under (p : OverwritePolicy) (t : Table) (op : Operand) :
    op.eval (t.under p) = op.eval t := by
  cases op <;> rfl

theorem printOperands_under (p : OverwritePolicy) (w : Writer) (t : Table) (out : Output)
    (args : List Operand) : printOperands w (t.under p) out args = printOperands w t out args := by
  induction args generalizing out with
  | nil => rfl
  | cons op args ih => simp only [printOperands, op.eval_under, ih]

/-- A record says the same whatever the policy. -/
theorem Step.events_under {α : Type} (p : OverwritePolicy) (s : Step α) :
    (s.under p).events = s.events := by
  simp only [Step.under, Step.events, List.map_map]
  rfl

theorem Ran.ofStep_under {α ε : Type} (p : OverwritePolicy) (s : Step α) (out : Output)
    (error : TableError → ε) :
    Ran.ofStep (s.under p) out error = (Ran.ofStep s out error).under p := by
  simp only [Ran.ofStep, Step.events_under]
  rfl

namespace Instr

/-- **One instruction** that keeps the discipline, on a table whose next slot is not live. -/
theorem Safe.run_under {i : Instr} (hi : i.Safe n n') (hdead : n < n' → t.isInitialized n = false)
    (a : Allocator) (w : Writer) (out : Output) (p : OverwritePolicy) :
    i.run a w (t.under p) out = (i.run a w t out).under p := by
  cases hi with
  | alloc hsize =>
    rw [Instr.run, Table.create_under (hdead (Nat.lt_succ_self n)), Ran.ofStep_under]
    rfl
  | @store slot value =>
    simp only [Instr.run, value.eval_under]
    split
    · rfl
    · rw [Table.writeInt_under, Ran.ofStep_under]
  | @call builtin args =>
    cases builtin
    simp only [Instr.run, printOperands_under]
    rfl
  | @eval value =>
    simp only [Instr.run, value.eval_under]
    split <;> rfl

/-- The discipline cut in two. -/
theorem SafeAll.split {is js : List Instr} {n n'' : Nat} (h : SafeAll n (is ++ js) n'') :
    ∃ n', SafeAll n is n' ∧ SafeAll n' js n'' := by
  induction is generalizing n with
  | nil => exact ⟨n, .nil n, h⟩
  | cons i is ih =>
    cases h with
    | cons hi hs =>
      obtain ⟨n', his, hjs⟩ := ih hs
      exact ⟨n', .cons hi his, hjs⟩

end Instr

theorem Ran.andThen_under {ε : Type} {r : Ran ε} {next : Table → Output → Ran ε}
    {p : OverwritePolicy} (hnext : ∀ out, next (r.table.under p) out = (next r.table out).under p) :
    (r.under p).andThen next = (r.andThen next).under p := by
  rcases r with ⟨_ | _, t, out, events⟩
  · rfl
  · show (next (t.under p) out).after events = _
    rw [hnext]
    rfl

/-- **A run** of instructions that keep the discipline, on a table whose slots from the next one on,
as far as the instructions get, are not live. -/
theorem Instr.SafeAll.run_under {is : List Instr} (his : Instr.SafeAll n is n')
    (hdead : ∀ j, n ≤ j → j < n' → t.isInitialized j = false) (a : Allocator) (w : Writer)
    (out : Output) (p : OverwritePolicy) :
    runInstrs a w is (t.under p) out = (runInstrs a w is t out).under p := by
  induction his generalizing t out with
  | nil => rfl
  | @cons n k n' i is hi his ih =>
    rw [runInstrs, runInstrs,
      hi.run_under fun hlt ↦ hdead n (Nat.le_refl n) (hlt.trans_le his.le)]
    refine Ran.andThen_under fun out' ↦ ih (fun j hj hjn ↦ ?_) out'
    -- the instruction has left the slots behind its own alone
    rw [Table.isInitialized, hi.getElem?_slots hj a w t out]
    exact hdead j (hi.le.trans hj) hjn

/-! ### Compiled programs -/

/-- A body that asks for no policy is executed the same under every one, up to the policy in the
table that it leaves. -/
theorem execute_under {ε : Type} {body : Table → Output → Ran ε} {p : OverwritePolicy}
    (h : body (t.under p) {} = (body t {}).under p) (w : Writer) (message : ε → String) :
    execute w message body (t.under p) =
      { execute w message body t with table := (execute w message body t).table.under p } := by
  simp only [execute, h]
  rfl

/-- **The overwrite policy is irrelevant to compiled programs.**

Run a compiled program on a table none of whose first slots is live, as many as the program
declares; what is live behind them, the number of slots, the limit, the allocator and the writer can
be anything. At every point of the run the table under one policy is the table under the other, but
for the policy itself, and so are the result, the output and the log so far. So the two executions
end in the same way, whether in success or in failure, with the same text after the same number of
calls, release the same number of slots, and leave the same slots, generations and bytes. -/
theorem policy_is_never_asked_for {source : String} {capacity : Nat} {m : Module}
    (hm : compileFor source capacity = .ok m)
    (hdead : ∀ i < m.slotCount, t.isInitialized i = false) (a : Allocator) (w : Writer) :
    let rejecting := m.lower.execute a w (t.under .reject)
    let replacing := m.lower.execute a w (t.under .replace)
    (∀ reached, reached <+: m.lower.instrs →
        runInstrs a w reached (t.under .replace) {} =
          (runInstrs a w reached (t.under .reject) {}).under .replace) ∧
      rejecting.result = replacing.result ∧ rejecting.exitCode = replacing.exitCode ∧
      rejecting.output = replacing.output ∧ rejecting.released = replacing.released ∧
      rejecting.events = replacing.events ∧
      rejecting.table.slots = replacing.table.slots ∧
      rejecting.table.allocatedBytes = replacing.table.allocatedBytes := by
  intro rejecting replacing
  have hsafe := safeAll_of_compileFor hm
  have hrun : ∀ reached, reached <+: m.lower.instrs → ∀ p,
      runInstrs a w reached (t.under p) {} = (runInstrs a w reached t {}).under p := by
    rintro reached ⟨rest, hrest⟩ p
    obtain ⟨k, hreached, hk⟩ := Instr.SafeAll.split (hrest ▸ hsafe)
    exact hreached.run_under (fun j _ hj ↦ hdead j (hj.trans_le hk.le)) a w {} p
  have hboth : ∀ reached, reached <+: m.lower.instrs →
      runInstrs a w reached (t.under .replace) {} =
        (runInstrs a w reached (t.under .reject) {}).under .replace := by
    intro reached hreached
    rw [hrun reached hreached, hrun reached hreached]
    rfl
  have hreports : replacing = { rejecting with table := rejecting.table.under .replace } :=
    execute_under (t := t.under .reject) (hboth m.lower.instrs List.prefix_rfl) w
      RuntimeError.message
  rw [hreports]
  exact ⟨hboth, rfl, rfl, rfl, rfl, rfl, rfl, rfl⟩

/-- The slot behind those of the program is live, and there is memory for the first of its two
variables only. Under both policies the second cannot be had; both slots that are live by then are
released, and the slot that the program had stays one release ahead. -/
theorem second_variable_is_refused_under_both :
    let t := (Table.fresh { capacity := 3, memoryLimit := some 20 }).performAll .system
      [.create 2 8, .poke 2 [1, 2, 3]]
    let rejecting := Redeclaration.checked.lower.execute .system .buffer (t.under .reject)
    let replacing := Redeclaration.checked.lower.execute .system .buffer (t.under .replace)
    compileFor Redeclaration.source 256 = .ok Redeclaration.checked ∧
      (∀ i < 2, t.isInitialized i = false) ∧ t.isInitialized 2 = true ∧
      rejecting.result = .error (.table (.outOfMemory 8)) ∧
      replacing.result = .error (.table (.outOfMemory 8)) ∧
      rejecting.released = 2 ∧ replacing.released = 2 ∧
      replacing.table.slots.map Slot.generation = [1, 0, 1] := by
  intro t rejecting replacing
  have hdead : ∀ i < Redeclaration.checked.slotCount, t.isInitialized i = false := by decide
  obtain ⟨-, hresult, -, -, hreleased, -, hslots, -⟩ :=
    policy_is_never_asked_for Redeclaration.compileFor_source hdead .system .buffer
  have hrejecting : rejecting.result = .error (.table (.outOfMemory 8)) ∧
      rejecting.released = 2 ∧ rejecting.table.slots.map Slot.generation = [1, 0, 1] := by
    decide +kernel
  refine ⟨Redeclaration.compileFor_source, hdead, by decide, hrejecting.1,
    hresult.symm.trans hrejecting.1, hrejecting.2.1, hreleased.symm.trans hrejecting.2.1, ?_⟩
  rw [← hslots]
  exact hrejecting.2.2

end SlotLang
