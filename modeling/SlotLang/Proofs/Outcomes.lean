import SlotLang.Proofs.Atomicity
import SlotLang.Proofs.Conservation
import SlotLang.Proofs.Limits

/-!
# What executing instructions comes to

What any instruction list does to any table, with any writer, told without the interpreter.

`Instr.Does a t i t' lines` says that instruction `i` can be carried out on `t`, leaves `t'` and
prints `lines`; `Instr.Fails` that it cannot, with the lines it prints before it fails. A print
takes part in both: it does its work if all its operands can be read and all their lines are taken,
and it fails at the first operand of which one of the two is not true. The writer has no other part
in a run than to take lines (`Writer.Takes`).

* `Instr.run_cases` is the step: an instruction does its work or fails, as the relations say.
* `runInstrs_cases` is the run: the instructions up to the first that fails do their work, and the
  run is told by them and by that one.

What the cleanup finds is read off the instructions that did their work. A slot is live if it was or
if one of them has allocated it (`DoesAll.isInitialized_eq`), and each allocation, as well as being
live in the beginning, is one buffer that the slot has released in the end
(`DoesAll.generation_release`).
-/

namespace SlotLang

/-! ### Lines -/

/-- The writer, called `calls` times before, takes these lines in a row. -/
def Writer.Takes (w : Writer) (calls : Nat) (lines : List String) : Prop :=
  ∀ k line, lines[k]? = some line → w.refusal (calls + k) line = none

/-- The output after lines that were taken, and `missed` that were not. -/
def Output.add (out : Output) (lines : List String) (missed : Nat) : Output :=
  ⟨out.text ++ String.join lines, out.calls + lines.length + missed⟩

theorem Output.add_nil (out : Output) : out.add [] 0 = out := by
  simp [add]

theorem Output.add_add (out : Output) (lines more : List String) (missed : Nat) :
    (out.add lines 0).add more missed = out.add (lines ++ more) missed := by
  simp only [add, String.join_append, String.append_assoc, List.length_append, Nat.add_zero,
    Nat.add_assoc]

theorem Output.add_start (lines : List String) (missed : Nat) :
    ({} : Output).add lines missed = ⟨String.join lines, lines.length + missed⟩ := by
  simp [add]

namespace Writer

variable {w : Writer} {calls : Nat} {line : String} {lines more : List String}

theorem takes_nil (w : Writer) (calls : Nat) : w.Takes calls [] :=
  fun k line h ↦ by cases k <;> cases h

theorem Takes.cons (h : w.refusal calls line = none) (hs : w.Takes (calls + 1) lines) :
    w.Takes calls (line :: lines) := by
  rintro (- | k) line' hk
  · obtain rfl := Option.some.inj hk
    exact h
  · have htail := hs k line' hk
    rwa [Nat.add_right_comm] at htail

theorem Takes.append (h : w.Takes calls lines) (hs : w.Takes (calls + lines.length) more) :
    w.Takes calls (lines ++ more) := by
  induction lines generalizing calls with
  | nil => exact hs
  | cons line lines ih =>
    refine .cons (h 0 line rfl) (ih (fun k line' hk ↦ ?_) ?_)
    · rw [Nat.add_right_comm]
      exact h (k + 1) line' hk
    · rwa [List.length_cons, ← Nat.add_assoc, Nat.add_right_comm] at hs

end Writer

/-! ### Instructions that do their work, and instructions that fail -/

namespace Instr

/-- Instruction `i` can be carried out on `t`. It leaves the table `t'` and prints these lines. -/
inductive Does (a : Allocator) (t : Table) : Instr → Table → List String → Prop
  | alloc {slot size : Nat} {h : Handle} (hr : (t.create a slot size).result = .ok h) :
      Does a t (.alloc slot size) (t.create a slot size).table []
  | store {slot : Nat} {value : Operand} {v : Int32} (hv : value.eval t = .ok v)
      (hr : (t.writeInt slot v).result = .ok ()) :
      Does a t (.store slot value) (t.writeInt slot v).table []
  | print {args : List Operand} (vs : List Int32)
      (hvs : args.map (Operand.eval t) = vs.map Except.ok) :
      Does a t (.call .print args) t (vs.map printedLine)
  | eval {value : Operand} {v : Int32} (hv : value.eval t = .ok v) : Does a t (.eval value) t []

/-- Instruction `i` fails on `t` with the error `e`, and prints these lines before it does; the
writer was called `calls` times before. -/
inductive Fails (a : Allocator) (w : Writer) (t : Table) (calls : Nat) :
    Instr → List String → RuntimeError → Prop
  | alloc {slot size : Nat} {e : TableError} (hr : (t.create a slot size).result = .error e) :
      Fails a w t calls (.alloc slot size) [] (.table e)
  | value (slot : Nat) {value : Operand} {e : TableError} (hv : value.eval t = .error e) :
      Fails a w t calls (.store slot value) [] (.table e)
  | store {slot : Nat} {value : Operand} {v : Int32} {e : TableError} (hv : value.eval t = .ok v)
      (hr : (t.writeInt slot v).result = .error e) :
      Fails a w t calls (.store slot value) [] (.table e)
  /-- An operand of a print cannot be read. -/
  | unreadable (printed : List Operand) {op : Operand} (rest : List Operand) (vs : List Int32)
      {e : TableError} (hvs : printed.map (Operand.eval t) = vs.map Except.ok)
      (hop : op.eval t = .error e) :
      Fails a w t calls (.call .print (printed ++ op :: rest)) (vs.map printedLine) (.table e)
  /-- A line of a print is refused. -/
  | refused (printed : List Operand) {op : Operand} (rest : List Operand) (vs : List Int32)
      {v : Int32} {reason : String} (hvs : printed.map (Operand.eval t) = vs.map Except.ok)
      (hop : op.eval t = .ok v)
      (hw : w.refusal (calls + vs.length) (printedLine v) = some reason) :
      Fails a w t calls (.call .print (printed ++ op :: rest)) (vs.map printedLine)
        (.output reason)
  | eval {value : Operand} {e : TableError} (hv : value.eval t = .error e) :
      Fails a w t calls (.eval value) [] (.table e)

/-- Instructions that do their work one after the other. -/
inductive DoesAll (a : Allocator) : Table → List Instr → Table → List String → Prop
  | nil (t : Table) : DoesAll a t [] t []
  | cons {t t' t'' : Table} {i : Instr} {is : List Instr} {lines more : List String}
      (h : i.Does a t t' lines) (hs : DoesAll a t' is t'' more) :
      DoesAll a t (i :: is) t'' (lines ++ more)

end Instr

/-! ### One instruction -/

variable {a : Allocator} {w : Writer} {t t' : Table} {out : Output}

/-- The run failed with this error and left this table and this output. -/
structure Ran.FailsWith {ε : Type} (r : Ran ε) (e : ε) (t : Table) (out : Output) : Prop where
  result : r.result = .error e
  table : r.table = t
  output : r.output = out

theorem Writer.write_of_refusal {piece reason : String}
    (h : w.refusal out.calls piece = some reason) (hp : piece ≠ "") :
    w.write out piece = (.error reason, ⟨out.text, out.calls + 1⟩) := by
  rw [Writer.write, if_neg hp, h]

namespace Instr

section Operands

variable {op : Operand} {args : List Operand} {v : Int32} {lines : List String}
  (hop : op.eval t = .ok v)
include hop

/-- A print does the work of its first operand, then that of the others. -/
theorem Does.print_cons (h : (Instr.call .print args).Does a t t lines) :
    (Instr.call .print (op :: args)).Does a t t (printedLine v :: lines) := by
  cases h with
  | print vs hvs => exact .print (v :: vs) (by rw [List.map_cons, List.map_cons, hop, hvs])

/-- A print that fails behind its first operand has printed that one too. -/
theorem Fails.print_cons {calls : Nat} {e : RuntimeError}
    (h : (Instr.call .print args).Fails a w t (calls + 1) lines e) :
    (Instr.call .print (op :: args)).Fails a w t calls (printedLine v :: lines) e := by
  cases h with
  | unreadable printed rest vs hvs hop' =>
    exact .unreadable (op :: printed) rest (v :: vs)
      (by rw [List.map_cons, List.map_cons, hop, hvs]) hop'
  | refused printed rest vs hvs hop' hw =>
    refine .refused (op :: printed) rest (v :: vs)
      (by rw [List.map_cons, List.map_cons, hop, hvs]) hop' ?_
    rwa [List.length_cons, ← Nat.add_assoc, Nat.add_right_comm]

end Operands

end Instr

/-- **A print** takes its operands in order, and stops at the first that cannot be read or whose
line is refused. -/
theorem printOperands_cases (a : Allocator) (w : Writer) (t : Table) (out : Output)
    (args : List Operand) :
    (∃ lines, (Instr.call .print args).Does a t t lines ∧ w.Takes out.calls lines ∧
        printOperands w t out args = (.ok (), out.add lines 0)) ∨
      ∃ lines e, (Instr.call .print args).Fails a w t out.calls lines e ∧
        w.Takes out.calls lines ∧
        printOperands w t out args = (.error e, out.add lines e.attempts) := by
  induction args generalizing out with
  | nil => exact .inl ⟨[], .print [] rfl, w.takes_nil _, by rw [out.add_nil]; rfl⟩
  | cons op args ih =>
    rcases hop : op.eval t with e | v
    · refine .inr ⟨[], .table e, .unreadable [] args [] rfl hop, w.takes_nil _, ?_⟩
      simp only [printOperands, hop]
      exact congrArg _ out.add_nil.symm
    · rcases hw : w.refusal out.calls (printedLine v) with - | reason
      · -- the line is taken, and the rest goes on with it in the output
        have hwrite : w.write out (printedLine v) = (.ok (), out.add [printedLine v] 0) := by
          rw [w.write_of_accepts hw (printedLine_ne_empty v)]
          simp [Output.add, String.join_cons]
        simp only [printOperands, hop, hwrite]
        rcases ih (out.add [printedLine v] 0) with
          ⟨lines, hdoes, htakes, hrun⟩ | ⟨lines, e, hfails, htakes, hrun⟩
        · refine .inl ⟨printedLine v :: lines, hdoes.print_cons hop, .cons hw htakes, ?_⟩
          rw [hrun, out.add_add]
          rfl
        · refine .inr ⟨printedLine v :: lines, e, hfails.print_cons hop, .cons hw htakes, ?_⟩
          rw [hrun, out.add_add]
          rfl
      · refine .inr ⟨[], .output reason, .refused [] args [] rfl hop hw, w.takes_nil _, ?_⟩
        simp only [printOperands, hop, Writer.write_of_refusal hw (printedLine_ne_empty v)]
        simp [Output.add, RuntimeError.attempts]

/-- **One instruction** does its work or fails. -/
theorem Instr.run_cases (a : Allocator) (w : Writer) (t : Table) (out : Output) (i : Instr) :
    (∃ t' lines, i.Does a t t' lines ∧ w.Takes out.calls lines ∧
        (i.run a w t out).Ends t' (out.add lines 0)) ∨
      ∃ lines e, i.Fails a w t out.calls lines e ∧ w.Takes out.calls lines ∧
        (i.run a w t out).FailsWith e t (out.add lines e.attempts) := by
  have hsilent := w.takes_nil out.calls
  cases i with
  | alloc slot size =>
    rcases hr : (t.create a slot size).result with e | h
    · refine .inr ⟨[], .table e, .alloc hr, hsilent, ?_, (Table.create_of_error hr).1,
        out.add_nil.symm⟩
      simp only [Instr.run, Ran.ofStep, hr]
      rfl
    · refine .inl ⟨_, [], .alloc hr, hsilent, ?_⟩
      rw [out.add_nil]
      exact ends_alloc_of_ok hr
  | store slot value =>
    rcases hv : value.eval t with e | v
    · refine .inr ⟨[], .table e, .value slot hv, hsilent, ?_⟩
      simp only [Instr.run, hv]
      exact ⟨rfl, rfl, out.add_nil.symm⟩
    · rcases hr : (t.writeInt slot v).result with e | _
      · refine .inr ⟨[], .table e, .store hv hr, hsilent, ?_⟩
        simp only [Instr.run, hv]
        refine ⟨?_, (Table.atomic_writeInt t slot v hr).1, out.add_nil.symm⟩
        simp only [Ran.ofStep, hr]
        rfl
      · refine .inl ⟨_, [], .store hv hr, hsilent, ?_⟩
        simp only [Instr.run, hv]
        refine ⟨?_, rfl, out.add_nil.symm⟩
        simp only [Ran.ofStep, hr]
        rfl
  | call builtin args =>
    cases builtin
    rcases printOperands_cases a w t out args with
      ⟨lines, hdoes, htakes, hrun⟩ | ⟨lines, e, hfails, htakes, hrun⟩
    · refine .inl ⟨t, lines, hdoes, htakes, ?_⟩
      simp only [Instr.run, hrun]
      exact ⟨rfl, rfl, rfl⟩
    · refine .inr ⟨lines, e, hfails, htakes, ?_⟩
      simp only [Instr.run, hrun]
      exact ⟨rfl, rfl, rfl⟩
  | eval value =>
    rcases hv : value.eval t with e | v
    · refine .inr ⟨[], .table e, .eval hv, hsilent, ?_⟩
      simp only [Instr.run, hv]
      exact ⟨rfl, rfl, out.add_nil.symm⟩
    · refine .inl ⟨t, [], .eval hv, hsilent, ?_⟩
      rw [out.add_nil]
      exact ends_eval hv

/-! ### A run -/

/-- **A run** does the work of its instructions up to the first that fails, and what is behind that
one makes no difference. The table is the one that the instructions before it leave. -/
theorem runInstrs_cases (a : Allocator) (w : Writer) (is : List Instr) (t : Table) (out : Output) :
    ∃ done t' lines, Instr.DoesAll a t done t' lines ∧ w.Takes out.calls lines ∧
      (is = done ∧ (runInstrs a w is t out).Ends t' (out.add lines 0) ∨
        ∃ i rest more e, is = done ++ i :: rest ∧
          i.Fails a w t' (out.calls + lines.length) more e ∧
          w.Takes (out.calls + lines.length) more ∧
          runInstrs a w is t out = runInstrs a w (done ++ [i]) t out ∧
          (runInstrs a w is t out).FailsWith e t' (out.add (lines ++ more) e.attempts)) := by
  induction is generalizing t out with
  | nil =>
    refine ⟨[], t, [], .nil t, w.takes_nil _, .inl ⟨rfl, ?_⟩⟩
    rw [out.add_nil]
    exact ends_runInstrs_nil
  | cons i is ih =>
    rcases i.run_cases a w t out with
      ⟨t₁, first, hdoes, htakes, hrun⟩ | ⟨lines, e, hfails, htakes, hrun⟩
    · -- the run goes on behind this instruction, with its lines in the output
      obtain ⟨done, t', lines, hall, htakes', hrest⟩ := ih t₁ (out.add first 0)
      have hstate : ∀ js, runInstrs a w (i :: js) t out =
          (runInstrs a w js t₁ (out.add first 0)).after (i.run a w t out).events := by
        intro js
        rw [runInstrs_cons_of_ok hrun.result, hrun.table, hrun.output]
      refine ⟨i :: done, t', first ++ lines, .cons hdoes hall, htakes.append htakes', ?_⟩
      rw [hstate, List.length_append, ← Nat.add_assoc]
      rcases hrest with ⟨rfl, hends⟩ | ⟨i', rest, more, e, rfl, hfails, htakes'', hcut, hstops⟩
      · refine .inl ⟨rfl, hends.result, hends.table, ?_⟩
        rw [← out.add_add]
        exact hends.output
      · refine .inr ⟨i', rest, more, e, rfl, hfails, htakes'', ?_, hstops.result, hstops.table, ?_⟩
        · rw [hcut, List.cons_append, hstate]
        · rw [List.append_assoc, ← out.add_add]
          exact hstops.output
    · refine ⟨[], t, [], .nil t, w.takes_nil _,
        .inr ⟨i, is, lines, e, rfl, hfails, htakes, ?_, ?_⟩⟩
      · rw [runInstrs_cons_of_error hrun.result, List.nil_append,
          runInstrs_cons_of_error hrun.result]
      · rw [runInstrs_cons_of_error hrun.result]
        exact hrun

/-! ### Slots -/

/-- The slot that the instruction allocates, if it allocates one. -/
def Instr.slot? : Instr → Option Nat
  | .alloc slot _ => some slot
  | _ => none

/-- The slots that instructions allocate, each as often as they do. -/
def Instr.allocated (is : List Instr) : List Nat := is.filterMap Instr.slot?

/-- The slots of the table that are live. -/
def Table.live (t : Table) : Finset Nat := (t.liveSlots.map (·.1)).toFinset

/-- How many buffers slot `j` of `t` holds in the course of these instructions: the one that is
there before, if there is one, and one for each allocation. -/
def Table.held (t : Table) (is : List Instr) (j : Nat) : Nat :=
  (if t.isInitialized j then 1 else 0) + (Instr.allocated is).count j

theorem Table.mem_live {j : Nat} : j ∈ t.live ↔ t.isInitialized j = true := by
  rw [live, List.mem_toFinset, mem_liveSlots_iff]

theorem Table.card_live (t : Table) : t.live.card = t.liveCount := by
  have hnodup : (t.liveSlots.map (·.1)).Nodup := t.pairwise_liveSlots.imp Nat.ne_of_lt
  rw [live, List.toFinset_card_of_nodup hnodup, List.length_map, length_liveSlots]

theorem Slot.generation_release_edit (f : List UInt8 → List UInt8) (s : Slot) :
    (s.edit f).release.generation = s.release.generation := by
  rw [generation_release, generation_release, isLive_edit]
  rfl

namespace Instr

variable {i : Instr} {is : List Instr} {lines : List String}

/-- What an instruction that does its work makes of the slots: an allocation puts a new buffer into
its slot, and every other instruction edits at most one buffer in place. -/
theorem Does.slots_eq (h : i.Does a t t' lines) :
    (∃ slot size s, i.slot? = some slot ∧ t.slots[slot]? = some s ∧
        t'.slots = (t.rewrite slot (Slot.renew size)).slots) ∨
      ∃ slot f, i.slot? = none ∧ t'.slots = (t.rewrite slot (Slot.edit f)).slots := by
  have hsame : t.slots = (t.rewrite 0 (Slot.edit id)).slots := by
    rw [Slot.edit_id, Table.rewrite_id]
  cases h with
  | @alloc slot size h hr =>
    obtain ⟨s, hs, -, -, htable⟩ := Table.create_of_ok hr
    exact .inl ⟨slot, size, s, rfl, hs, by rw [htable]; rfl⟩
  | @store slot value v hv hr =>
    exact .inr ⟨slot, Table.storeInt v, rfl, by rw [Table.table_writeInt]⟩
  | print vs hvs => exact .inr ⟨0, id, rfl, hsame⟩
  | eval hv => exact .inr ⟨0, id, rfl, hsame⟩

theorem Does.isInitialized_eq (h : i.Does a t t' lines) (j : Nat) :
    t'.isInitialized j = (t.isInitialized j || decide (i.slot? = some j)) := by
  rcases h.slots_eq with ⟨slot, size, s, hi, hs, hslots⟩ | ⟨slot, f, hi, hslots⟩
  · rw [Table.isInitialized, Table.isInitialized, hslots, Table.getElem?_slots_rewrite, hi]
    by_cases hj : slot = j
    · subst hj
      simp [hs, Slot.renew, Slot.install, Slot.isLive]
    · cases t.slots[j]? <;> simp [hj]
  · rw [Table.isInitialized, Table.isInitialized, hslots, Table.getElem?_slots_rewrite, hi]
    by_cases hj : slot = j
    · cases t.slots[j]? <;> simp [hj]
    · cases t.slots[j]? <;> simp [hj]

/-- An allocation is one more buffer that the slot will have released. -/
theorem Does.generation_release (h : i.Does a t t' lines) (j : Nat) :
    t'.slots[j]?.map (·.release.generation) =
      t.slots[j]?.map fun s ↦
        s.release.generation + UInt32.ofNat (if i.slot? = some j then 1 else 0) := by
  have hzero : ∀ g : UInt32, g + UInt32.ofNat 0 = g := UInt32.add_zero
  rcases h.slots_eq with ⟨slot, size, s, hi, hs, hslots⟩ | ⟨slot, f, hi, hslots⟩
  · rw [hslots, Table.getElem?_slots_rewrite, hi, Option.map_map]
    refine congrArg (fun g ↦ t.slots[j]?.map g) (funext fun s ↦ ?_)
    by_cases hj : slot = j
    · rw [if_pos hj, if_pos (congrArg some hj)]
      rfl
    · rw [if_neg hj, if_neg fun h ↦ hj (Option.some.inj h), hzero]
      rfl
  · rw [hslots, Table.getElem?_slots_rewrite, hi, Option.map_map]
    refine congrArg (fun g ↦ t.slots[j]?.map g) (funext fun s ↦ ?_)
    rw [if_neg (Option.some_ne_none j).symm, hzero]
    by_cases hj : slot = j
    · rw [if_pos hj]
      exact s.generation_release_edit f
    · rw [if_neg hj]
      rfl

theorem allocated_cons (i : Instr) (is : List Instr) :
    allocated (i :: is) = i.slot?.toList ++ allocated is := by
  rcases hi : i.slot? with - | slot <;> simp [allocated, hi]

/-- **A slot is live behind instructions that do their work** if it was live before or one of them
has allocated it. -/
theorem DoesAll.isInitialized_eq (h : DoesAll a t is t' lines) (j : Nat) :
    t'.isInitialized j = (t.isInitialized j || decide (j ∈ allocated is)) := by
  induction h with
  | nil t => simp [allocated]
  | @cons t t₁ t' i is first more hi his ih =>
    rw [ih, hi.isInitialized_eq, allocated_cons, Bool.or_assoc, ← Bool.decide_or]
    congr 2
    rw [List.mem_append, Option.mem_toList]

/-- **What it will have released** is counted by the allocations. -/
theorem DoesAll.generation_release (h : DoesAll a t is t' lines) (j : Nat) :
    t'.slots[j]?.map (·.release.generation) =
      t.slots[j]?.map fun s ↦ s.release.generation + UInt32.ofNat ((allocated is).count j) := by
  induction h with
  | nil t =>
    refine congrArg (fun g ↦ t.slots[j]?.map g) (funext fun s ↦ ?_)
    exact (UInt32.add_zero _).symm
  | @cons t t₁ t' i is first more hi his ih =>
    have hcount : (allocated (i :: is)).count j =
        (if i.slot? = some j then 1 else 0) + (allocated is).count j := by
      rcases hslot : i.slot? with - | slot
      · simp [allocated_cons, hslot]
      · simp [allocated_cons, hslot, List.count_cons, Nat.add_comm]
    have hnext := congrArg (Option.map (· + UInt32.ofNat ((allocated is).count j)))
      (hi.generation_release j)
    rw [Option.map_map, Option.map_map] at hnext
    rw [ih, hcount]
    refine hnext.trans (congrArg (fun g ↦ t.slots[j]?.map g) (funext fun s ↦ ?_))
    rw [UInt32.ofNat_add, ← UInt32.add_assoc]
    rfl

end Instr

/-- The slots that are live behind instructions that do their work. -/
theorem Instr.DoesAll.live_eq {is : List Instr} {lines : List String}
    (h : Instr.DoesAll a t is t' lines) : t'.live = t.live ∪ (Instr.allocated is).toFinset := by
  ext j
  rw [Finset.mem_union, List.mem_toFinset, Table.mem_live, Table.mem_live, h.isInitialized_eq,
    Bool.or_eq_true, decide_eq_true_iff]

/-- A slot once everything is cleaned up. -/
theorem Instr.DoesAll.getElem?_slots_emptied {is : List Instr} {lines : List String}
    (h : Instr.DoesAll a t is t' lines) (j : Nat) :
    t'.emptied.slots[j]? =
      t.slots[j]?.map fun s ↦ ⟨none, s.generation + UInt32.ofNat (t.held is j)⟩ := by
  have hrelease : ∀ s : Slot, s.release = ⟨none, s.release.generation⟩ := fun s ↦ by
    rw [← s.data_release]
  have hcleaned : t'.emptied.slots[j]? =
      (t'.slots[j]?.map (·.release.generation)).map fun g ↦ ⟨none, g⟩ := by
    rw [Table.emptied, List.getElem?_map, Option.map_map]
    exact congrArg (fun g ↦ t'.slots[j]?.map g) (funext hrelease)
  rw [hcleaned, h.generation_release, Option.map_map]
  rcases hs : t.slots[j]? with - | s
  · rfl
  · refine congrArg (fun g ↦ some (Slot.mk none g)) ?_
    show s.release.generation + _ = _
    rw [Table.held, Table.isInitialized_of_getElem? hs, UInt32.ofNat_add, ← UInt32.add_assoc,
      Slot.generation_release]
    split
    · rfl
    · exact congrArg (· + _) (UInt32.add_zero _).symm

/-! ### Executions -/

theorem Report.exitCode_of_ok {ε : Type} {r : Report ε} (h : r.result = .ok ()) :
    r.exitCode = 0 := by
  rw [exitCode, isOk, h]
  rfl

theorem Report.exitCode_of_error {ε : Type} {r : Report ε} {e : ε} (h : r.result = .error e) :
    r.exitCode = 1 := by
  rw [exitCode, isOk, h]
  rfl

/-- A counter that does not wrap shows by how much it has grown. -/
theorem toNat_add_ofNat {g : UInt32} {n : Nat} (h : g.toNat + n < UInt32.size) :
    (g + UInt32.ofNat n).toNat = g.toNat + n := by
  rw [UInt32.toNat_add, UInt32.toNat_ofNat', Nat.add_mod_mod, Nat.mod_eq_of_lt h]

/-- **Executing any instruction list.**

Of any instructions, on any table and with any writer that takes or refuses each line as a whole,
those up to the first that fails do their work in order. If none fails, the execution succeeds with
exit code 0. Otherwise its result is the error of that one, the exit code is 1, and it would be the
same with nothing behind that one.

The text is made of the lines of all prints, in order, also of those that the failing instruction
printed before it failed; the writer took each of them, and was called for these, and once more if
the failure is a line refused. The cleanup releases the slots that were live or have been allocated.
Afterwards all slots are empty, no bytes are taken, and the generation of a slot has grown by the
number of buffers that it held, up to the width of the counter. -/
theorem execution_stops_at_first_failure (a : Allocator) (w : Writer) (is : List Instr)
    (t : Table) :
    let report := executeInstrs a w is t
    ∃ done t' lines, Instr.DoesAll a t done t' lines ∧ w.Takes 0 lines ∧
      (is = done ∧ report.result = .ok () ∧ report.exitCode = 0 ∧
          report.output = ⟨String.join lines, lines.length⟩ ∨
        ∃ i rest more e, is = done ++ i :: rest ∧ i.Fails a w t' lines.length more e ∧
          w.Takes lines.length more ∧ report.result = .error e ∧ report.exitCode = 1 ∧
          report.output = ⟨String.join (lines ++ more), (lines ++ more).length + e.attempts⟩ ∧
          report = executeInstrs a w (done ++ [i]) t) ∧
      report.released = (t.live ∪ (Instr.allocated done).toFinset).card ∧
      report.table.config = t.config ∧ report.table.allocatedBytes = 0 ∧
      ∀ j, report.table.slots[j]? =
          t.slots[j]?.map (fun s ↦ ⟨none, s.generation + UInt32.ofNat (t.held done j)⟩) ∧
        ∀ s s', t.slots[j]? = some s → report.table.slots[j]? = some s' →
          s.generation.toNat + t.held done j < UInt32.size →
          s'.generation.toNat = s.generation.toNat + t.held done j := by
  intro report
  obtain ⟨done, t', lines, hall, htakes, hends⟩ := runInstrs_cases a w is t {}
  have htable : (runInstrs a w is t {}).table = t' := by
    rcases hends with ⟨-, hends⟩ | ⟨i, rest, more, e, -, -, -, -, hstops⟩
    · exact hends.table
    · exact hstops.table
  have hslots : ∀ j, report.table.slots[j]? =
      t.slots[j]?.map fun s ↦ Slot.mk none (s.generation + UInt32.ofNat (t.held done j)) := by
    intro j
    show (runInstrs a w is t {}).table.emptied.slots[j]? = _
    rw [htable, hall.getElem?_slots_emptied]
  refine ⟨done, t', lines, hall, htakes, ?_, ?_, ?_, rfl, fun j ↦ ⟨hslots j, ?_⟩⟩
  · rcases hends with ⟨rfl, hends⟩ | ⟨i, rest, more, e, rfl, hfails, htakes', hcut, hstops⟩
    · exact .inl ⟨rfl, hends.result, Report.exitCode_of_ok hends.result,
        hends.output.trans (Output.add_start lines 0)⟩
    · rw [Nat.zero_add] at hfails htakes'
      refine .inr ⟨i, rest, more, e, rfl, hfails, htakes', hstops.result,
        Report.exitCode_of_error hstops.result,
        hstops.output.trans (Output.add_start (lines ++ more) e.attempts), ?_⟩
      simp only [report, executeInstrs, execute, hcut]
  · show (runInstrs a w is t {}).table.liveCount = _
    rw [htable, ← Table.card_live, hall.live_eq]
  · exact (Table.reaches_runInstrs a w is t {}).settings.1
  · intro s s' hs hs' hlt
    rw [hslots, hs] at hs'
    obtain rfl := Option.some.inj hs'
    exact toNat_add_ofNat hlt

/-- Slot 0 is live and is allocated twice, and the third number of the print cannot be read: the
first two are printed, slot 2 is never allocated, and slot 0 has released three buffers. -/
example :
    let t := (Table.fresh { capacity := 3, overwrite := .replace }).performAll .system
      [.create 0 1, .create 1 4]
    let report := executeInstrs .system .buffer [.alloc 0 8, .alloc 0 4, .store 0 (.const 7),
      .call .print [.load 0, .const 5, .load 2], .alloc 2 8] t
    report.result = .error (.table (.useAfterFree 2)) ∧ report.output = ⟨"7\n5\n", 2⟩ ∧
      report.released = 2 ∧ report.table.slots.map Slot.generation = [3, 1, 0] := by
  decide +kernel

end SlotLang
