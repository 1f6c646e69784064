import SlotLang.Program.Run
import SlotLang.Proofs.Buffers

/-!
# Runs of instruction lists

What holds of every run, whatever the instructions are. A run goes on behind an instruction that
succeeds and stops at one that fails; `exists_failing_instr` finds the instruction at which a failed
run stopped. `Ran.Ends` says how a run that succeeded ended, without its log, and composes along
`Ran.andThen`.
-/

namespace SlotLang

/-! ### One instruction after the other -/

section Cons

variable {a : Allocator} {w : Writer} {t : Table} {out : Output} {i : Instr} {e : RuntimeError}

theorem runInstrs_cons_of_ok (h : (i.run a w t out).result = .ok ()) {is : List Instr} :
    runInstrs a w (i :: is) t out =
      (runInstrs a w is (i.run a w t out).table (i.run a w t out).output).after
        (i.run a w t out).events := by
  simp only [runInstrs, Ran.andThen, h]

theorem runInstrs_cons_of_error (h : (i.run a w t out).result = .error e) {is : List Instr} :
    runInstrs a w (i :: is) t out = i.run a w t out := by
  simp only [runInstrs, Ran.andThen, h]

/-- **A run that fails, fails at one instruction**, and those before it have succeeded. -/
theorem exists_failing_instr {is : List Instr} (h : (runInstrs a w is t out).result = .error e) :
    ∃ pre i post, is = pre ++ i :: post ∧ (runInstrs a w pre t out).result = .ok () ∧
      (i.run a w (runInstrs a w pre t out).table (runInstrs a w pre t out).output).result =
        .error e := by
  induction is generalizing t out with
  | nil => cases h
  | cons j is ih =>
    rcases hj : (j.run a w t out).result with e' | _
    · rw [runInstrs_cons_of_error hj] at h
      exact ⟨[], j, is, rfl, rfl, h⟩
    · rw [runInstrs_cons_of_ok hj] at h
      obtain ⟨pre, i, post, rfl, hpre, hi⟩ := ih h
      refine ⟨j :: pre, i, post, rfl, ?_⟩
      rw [runInstrs_cons_of_ok hj]
      exact ⟨hpre, hi⟩

end Cons

/-! ### Runs that succeed -/

/-- The run succeeded and left this table and this output. -/
structure Ran.Ends {ε : Type} (r : Ran ε) (t : Table) (out : Output) : Prop where
  result : r.result = .ok ()
  table : r.table = t
  output : r.output = out

section Ends

variable {a : Allocator} {w : Writer} {t t' : Table} {out out' : Output}

theorem Ran.Ends.andThen {ε : Type} {r : Ran ε} {next : Table → Output → Ran ε}
    (h : r.Ends t out) (h' : (next t out).Ends t' out') : (r.andThen next).Ends t' out' := by
  obtain ⟨hresult, rfl, rfl⟩ := h
  rw [Ran.andThen, hresult]
  exact ⟨h'.result, h'.table, h'.output⟩

theorem ends_runInstrs_cons {i : Instr} {is : List Instr} {t'' : Table} {out'' : Output}
    (h : (i.run a w t out).Ends t' out') (h' : (runInstrs a w is t' out').Ends t'' out'') :
    (runInstrs a w (i :: is) t out).Ends t'' out'' :=
  h.andThen h'

theorem ends_runInstrs_append {is js : List Instr} {t'' : Table} {out'' : Output}
    (h : (runInstrs a w is t out).Ends t' out') (h' : (runInstrs a w js t' out').Ends t'' out'') :
    (runInstrs a w (is ++ js) t out).Ends t'' out'' := by
  rw [runInstrs_append]
  exact h.andThen h'

theorem ends_runInstrs_nil : (runInstrs a w [] t out).Ends t out :=
  ⟨rfl, rfl, rfl⟩

theorem ends_alloc_of_ok {i n : Nat} {h : Handle} (hr : (t.create a i n).result = .ok h) :
    ((Instr.alloc i n).run a w t out).Ends (t.create a i n).table out := by
  refine ⟨?_, rfl, rfl⟩
  simp only [Instr.run, Ran.ofStep, hr]
  rfl

/-- An allocation in an empty slot ends with zero bytes there. -/
theorem ends_alloc {i n : Nat} (hi : i < t.capacity) (hdead : t.buffer? i = none)
    (hlimit : t.config.admits (t.allocatedBytes + n) = true)
    (hgrants : a.grants t.allocatedBytes n = true) :
    ((Instr.alloc i n).run a w t out).Ends (t.created i n 0) out := by
  obtain ⟨h, hr⟩ := Table.create_succeeds hi hdead hlimit hgrants
  obtain ⟨s, hs, -, -, htable⟩ := Table.create_of_ok hr
  rw [← Table.created_of_dead hs hdead, ← htable]
  exact ends_alloc_of_ok hr

/-- A store into a slot with room for an `int` ends with the operand's value there. -/
theorem ends_store {i : Nat} {op : Operand} {v : Int32} {b : List UInt8}
    (hv : op.eval t = .ok v) (hb : t.buffer? i = some b) (hlen : Word.size ≤ b.length) :
    ((Instr.store i op).run a w t out).Ends (t.rewrite i (Slot.edit (Table.storeInt v))) out := by
  simp only [Instr.run, hv]
  refine ⟨?_, Table.table_writeInt v, rfl⟩
  simp only [Ran.ofStep, Table.writeInt_of_buffer? hb hlen]
  rfl

theorem ends_eval {op : Operand} {v : Int32} (hv : op.eval t = .ok v) :
    ((Instr.eval op).run a w t out).Ends t out := by
  simp only [Instr.run, hv]
  exact ⟨rfl, rfl, rfl⟩

/-- Printing one value ends with its line in the output, if the writer takes it. -/
theorem ends_print {op : Operand} {v : Int32} (hv : op.eval t = .ok v)
    (hw : w.write out (printedLine v) = (.ok (), out')) :
    ((Instr.call .print [op]).run a w t out).Ends t out' := by
  simp only [Instr.run, printOperands, hv, hw]
  exact ⟨rfl, rfl, rfl⟩

end Ends

/-! ### Runs that fail -/

/-- The run failed and left this table and this output. -/
structure Ran.Stops {ε : Type} (r : Ran ε) (t : Table) (out : Output) : Prop where
  result : ∃ e, r.result = .error e
  table : r.table = t
  output : r.output = out

section Stops

variable {a : Allocator} {w : Writer} {t : Table} {out : Output}

theorem Ran.Stops.andThen {ε : Type} {r : Ran ε} (h : r.Stops t out)
    (next : Table → Output → Ran ε) : (r.andThen next).Stops t out := by
  obtain ⟨⟨e, he⟩, ht, hout⟩ := h
  rw [Ran.andThen, he]
  exact ⟨⟨e, he⟩, ht, hout⟩

/-- An allocation that is refused stops the run and changes nothing. -/
theorem stops_alloc {i n : Nat} {e : TableError} (h : (t.create a i n).result = .error e) :
    ((Instr.alloc i n).run a w t out).Stops t out := by
  refine ⟨⟨.table e, ?_⟩, (Table.create_of_error h).1, rfl⟩
  simp only [Instr.run, Ran.ofStep, h]
  rfl

end Stops

/-! ### Writers that take everything -/

/-- A line is never empty, so it is always offered to the writer. -/
theorem printedLine_ne_empty (v : Int32) : printedLine v ≠ "" := by
  intro h
  have hlength := congrArg String.length h
  rw [printedLine, String.length_append] at hlength
  cases hlength

/-- A piece that the writer does not refuse is added to its text. -/
theorem Writer.write_of_accepts (w : Writer) {out : Output} {piece : String}
    (h : w.refusal out.calls piece = none) (hp : piece ≠ "") :
    w.write out piece = (.ok (), ⟨out.text ++ piece, out.calls + 1⟩) := by
  rw [Writer.write, if_neg hp, h]

/-- A writer that refuses no piece. -/
def Writer.Accepts (w : Writer) : Prop := ∀ calls piece, w.refusal calls piece = none

theorem Writer.accepts_buffer : Writer.buffer.Accepts := fun _ _ ↦ rfl

/-- What is offered to such a writer is added to its text. -/
theorem Writer.Accepts.write {w : Writer} (hw : w.Accepts) (out : Output) (piece : String) :
    ∃ out', w.write out piece = (.ok (), out') ∧ out'.text = out.text ++ piece := by
  unfold Writer.write
  by_cases hp : piece = ""
  · rw [if_pos hp]
    exact ⟨out, rfl, by simp [hp]⟩
  · rw [if_neg hp, hw out.calls piece]
    exact ⟨_, rfl, rfl⟩

end SlotLang
