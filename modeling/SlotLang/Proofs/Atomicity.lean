import SlotLang.Proofs.Operations
import SlotLang.Proofs.Runs

/-!
# Failures change nothing

An operation that fails leaves the whole table as it was: every slot with its buffer and its
generation, the byte counter and the settings. It makes no log record either. `Step.Atomic` says so
of one step, and `atomic_perform` of every operation.

It rests on the order of things inside an operation. A creation has passed the range check, the
policy, the limit and the allocator before it lets go of the buffer that it replaces. A handle and
the length of a buffer are looked at before anything is written. What follows the last check cannot
fail: the release behind a live handle finds a buffer, and so does the write behind the length.

Instructions inherit it, since an instruction makes at most one change and makes it last. So a run
that fails leaves the table that the instructions before the failing one have left.
-/

namespace SlotLang

namespace Step

variable {α β : Type} {t : Table} {s : Step α}

/-- A step from `t` that leaves `t` as it was, and makes no record, if it fails. -/
def Atomic (t : Table) (s : Step α) : Prop :=
  ∀ ⦃e : TableError⦄, s.result = .error e → s.table = t ∧ s.events = []

theorem atomic_of_ok {v : α} (h : s.result = .ok v) : s.Atomic t := by
  intro e he
  rw [h] at he
  cases he

theorem atomic_refuse (t : Table) (e : TableError) : (t.refuse e : Step α).Atomic t :=
  fun _ _ ↦ ⟨rfl, rfl⟩

theorem atomic_look (t : Table) (result : Except TableError α) : (look t result).Atomic t :=
  fun _ _ ↦ ⟨rfl, rfl⟩

/-- The form of a value has no part in it. -/
theorem Atomic.map (h : s.Atomic t) (f : α → β) : (s.map f).Atomic t := by
  intro e he
  rcases hr : s.result with e' | v
  · exact h hr
  · simp only [Step.map, hr] at he
    cases he

end Step

/-! ### Operations -/

namespace Table

variable {a : Allocator} {t : Table}

/-- A creation changes the table only when nothing can stop it any more. -/
theorem atomic_create (a : Allocator) (t : Table) (i n : Nat) : (t.create a i n).Atomic t := by
  rcases hs : t.slots[i]? with - | s
  · simp only [create, slot, hs]
    exact Step.atomic_refuse t _
  · rw [create_of_getElem? hs]
    split
    · exact Step.atomic_refuse t _
    · split
      · exact Step.atomic_of_ok rfl
      · exact Step.atomic_refuse t _

theorem atomic_free (t : Table) (i : Nat) : (t.free i).Atomic t := by
  unfold free
  split
  · exact Step.atomic_refuse t _
  · split
    · exact Step.atomic_of_ok rfl
    · exact Step.atomic_of_ok rfl

/-- Behind a live handle there is a buffer to release. -/
theorem atomic_release (t : Table) (h : Handle) : (t.release h).Atomic t := by
  by_cases hl : t.isLive h = true
  · exact Step.atomic_of_ok (release_of_isLive hl)
  · simp only [release, hl]
    cases t.slot h.index with
    | error e => exact Step.atomic_refuse t e
    | ok s => exact Step.atomic_refuse t _

theorem atomic_editBytes (t : Table) (i : Nat) (edit : List UInt8 → List UInt8) :
    (t.editBytes i edit).Atomic t := by
  unfold editBytes
  split
  · exact Step.atomic_refuse t _
  · split
    · exact Step.atomic_refuse t _
    · exact Step.atomic_of_ok rfl

theorem atomic_pokeHandle (t : Table) (h : Handle) (bytes : List UInt8) :
    (t.pokeHandle h bytes).Atomic t := by
  unfold pokeHandle
  split
  · exact Step.atomic_refuse t _
  · exact atomic_editBytes t h.index _

/-- Behind the check of the length there is a buffer to write to. -/
theorem atomic_writeInt (t : Table) (i : Nat) (v : Int32) : (t.writeInt i v).Atomic t := by
  rcases hb : t.bytes i with e | b
  · simp only [writeInt, hb]
    exact Step.atomic_refuse t e
  · by_cases hlen : b.length < Word.size
    · simp only [writeInt, hb, if_pos hlen]
      exact Step.atomic_refuse t _
    · exact Step.atomic_of_ok (writeInt_of_buffer? (bytes_eq_ok_iff.1 hb) (by omega) v)

/-- A scope fails only where it creates its buffer. -/
theorem atomic_scoped (a : Allocator) (t : Table) (i n : Nat) (steps : List GuardStep)
    (ending : GuardEnd) : (t.scoped a i n steps ending).Atomic t := by
  rcases hr : (t.create a i n).result with e | h
  · intro e' _
    simp only [Table.scoped, hr]
    exact atomic_create a t i n hr
  · obtain ⟨-, scope, hscope, -⟩ := slots_scoped_of_ok hr steps ending
    exact Step.atomic_of_ok hscope

/-- **Every operation is atomic.** -/
theorem atomic_perform (a : Allocator) (t : Table) (op : Operation) :
    (t.perform a op).Atomic t := by
  cases op with
  | create index size => exact (atomic_create a t index size).map _
  | free index => exact (atomic_free t index).map _
  | release h => exact (atomic_release t h).map _
  | poke index bytes => exact (atomic_editBytes t index _).map _
  | pokeHandle h bytes => exact (atomic_pokeHandle t h bytes).map _
  | writeInt index value => exact (atomic_writeInt t index value).map _
  | cleanup => exact Step.atomic_of_ok rfl
  | «scoped» index size steps ending => exact (atomic_scoped a t index size steps ending).map _
  | handle | isInitialized | isLive | sizeOf | bytes | get | readInt | capacity | config
  | liveSlots => exact Step.atomic_look t _

end Table

/-- So is every step through a guard: of those that change the table only a store can fail. -/
theorem Guard.table_step_of_error {g : Guard} {s : GuardStep} {e : TableError}
    (h : (g.step s).1 = .error e) : (g.step s).2 = g.table := by
  cases s with
  | writeInt v =>
    rcases hr : (g.table.writeInt g.handle.index v).result with e' | _
    · exact (Table.atomic_writeInt g.table g.handle.index v hr).1
    · simp only [step, hr] at h
      cases h
  | poke bytes => cases h
  | readInt | bytes | length | index | handle => rfl

/-! ### Instructions -/

section Instructions

variable {a : Allocator} {w : Writer} {t : Table} {out : Output} {i : Instr} {e : RuntimeError}

/-- A table operation that makes an instruction fail has changed nothing. -/
theorem Ran.table_ofStep_of_error {α : Type} {s : Step α} (hs : s.Atomic t)
    (h : (Ran.ofStep s out RuntimeError.table).result = .error e) :
    (Ran.ofStep s out RuntimeError.table).table = t := by
  rcases hr : s.result with e' | v
  · exact (hs hr).1
  · simp only [ofStep, hr] at h
    cases h

/-- **An instruction that fails leaves the table as it was.** -/
theorem Instr.table_run_of_error (h : (i.run a w t out).result = .error e) :
    (i.run a w t out).table = t := by
  cases i with
  | alloc slot size => exact Ran.table_ofStep_of_error (Table.atomic_create a t slot size) h
  | store slot value =>
    rcases hv : value.eval t with e' | v
    · simp only [run, hv]
    · simp only [run, hv] at h ⊢
      exact Ran.table_ofStep_of_error (Table.atomic_writeInt t slot v) h
  | call builtin args =>
    cases builtin
    rfl
  | eval value => cases hv : value.eval t <;> simp only [run, hv]

/-- An instruction that fails behind others that succeed ends the run, on the table that those have
left. -/
theorem runInstrs_stops_at {pre : List Instr} (hpre : (runInstrs a w pre t out).result = .ok ())
    (hi : (i.run a w (runInstrs a w pre t out).table (runInstrs a w pre t out).output).result =
      .error e) (post : List Instr) :
    (runInstrs a w (pre ++ i :: post) t out).result = .error e ∧
      (runInstrs a w (pre ++ i :: post) t out).table = (runInstrs a w pre t out).table := by
  rw [runInstrs_append, Ran.andThen, hpre]
  simp only [Ran.after, runInstrs_cons_of_error hi]
  exact ⟨hi, Instr.table_run_of_error hi⟩

end Instructions

/-! ### Tables and programs -/

/-- **A failure changes nothing.**

An operation that fails leaves the table as it was, and the log too; a step through a guard that
fails leaves the table as it was. So a creation that memory does not allow keeps the buffer that it
was to replace, and every handle is worth what it was worth before. An instruction that fails ends
the run, on the table that the instructions before it have left. -/
theorem failure_changes_nothing (a : Allocator) (t : Table) :
    (∀ op e, (t.perform a op).result = .error e →
        (t.perform a op).table = t ∧ (t.perform a op).events = []) ∧
      (∀ h step e, (Guard.step ⟨t, h⟩ step).1 = .error e → (Guard.step ⟨t, h⟩ step).2 = t) ∧
      (∀ i n, t.config.overwrite = .replace →
        (t.create a i n).result = .error (.outOfMemory n) →
        (t.create a i n).table.bytes i = t.bytes i ∧
          ∀ h, (t.create a i n).table.isLive h = t.isLive h ∧
            (t.create a i n).table.get h = t.get h) ∧
      ∀ w pre i post out e, (runInstrs a w pre t out).result = .ok () →
        (i.run a w (runInstrs a w pre t out).table (runInstrs a w pre t out).output).result =
          .error e →
        (runInstrs a w (pre ++ i :: post) t out).result = .error e ∧
          (runInstrs a w (pre ++ i :: post) t out).table = (runInstrs a w pre t out).table := by
  refine ⟨fun op e he ↦ Table.atomic_perform a t op he, fun h step e ↦ Guard.table_step_of_error,
    fun i n _ he ↦ ?_, fun w pre i post out e hpre hi ↦ runInstrs_stops_at hpre hi post⟩
  rw [(Table.atomic_create a t i n he).1]
  exact ⟨rfl, fun h ↦ ⟨rfl, rfl⟩⟩

/-- A table with one buffer of four bytes, in a slot that has released five, and a limit of eight
bytes. -/
def Table.oneBuffer : Table := ⟨⟨1, .replace, some 8⟩, [⟨some [1, 2, 3, 4], 5⟩], 4⟩

/-- Nine bytes are one too many for it. The four bytes and their handle are still there; and behind
an instruction that has stored 7 in them, the 7 is. -/
theorem replacement_refused_keeps_buffer :
    (Table.oneBuffer.create .system 0 9).result = .error (.outOfMemory 9) ∧
      (Table.oneBuffer.create .system 0 9).table.get ⟨0, 5⟩ = .ok [1, 2, 3, 4] ∧
      (runInstrs .system .buffer ([.store 0 (.const 7)] ++ .alloc 0 9 :: [.eval (.load 0)])
        Table.oneBuffer {}).table.get ⟨0, 5⟩ = .ok [7, 0, 0, 0] := by
  obtain ⟨-, -, hkeeps, hruns⟩ := failure_changes_nothing .system Table.oneBuffer
  obtain ⟨-, hhandles⟩ := hkeeps 0 9 rfl rfl
  obtain ⟨-, htable⟩ := hruns .buffer [.store 0 (.const 7)] (.alloc 0 9) [.eval (.load 0)] {}
    (.table (.outOfMemory 9)) rfl rfl
  refine ⟨rfl, (hhandles ⟨0, 5⟩).2, ?_⟩
  rw [htable]
  rfl

end SlotLang
