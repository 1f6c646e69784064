import SlotLang.Abi
import SlotLang.Proofs.Atomicity

/-!
# The C interface is the table

As long as nothing panics, the functions that C programs call do to their table what the operations
of a table do, and say so in status codes. `State.calm t` is a process with table `t` in which no
call has panicked and none will, and `call_calm` is the step: a call answers with the reply that
`Call.reply` makes of the operation's result, and leaves the process calm, with the table that the
operation leaves. `callAll_calm` is the run.

What the codes can tell apart is then read off the operations. Three calls show whether a slot is
live, each with checks of its own: a pointer that is not null, a cell with a 1 in it, a size. They
agree on every index, also where the buffer has no bytes and where there is no slot, because each of
them comes down to whether the slot shows a buffer.
-/

namespace SlotLang

/-- What is written to a caller's cell for a value. -/
def Value.cell? : Value → Option Nat
  | .flag b => some (if b then 1 else 0)
  | .number n => some n
  | _ => none

/-! ### Faults -/

namespace Table

variable {t : Table} {i : Nat} {e : TableError}

theorem slot_eq_error (h : t.slot i = .error e) : e = .indexOutOfRange i t.capacity := by
  unfold slot at h
  split at h <;> cases h
  rfl

theorem bytes_eq_error (h : t.bytes i = .error e) :
    e = .indexOutOfRange i t.capacity ∨ e = .useAfterFree i := by
  unfold bytes at h
  split at h
  · rename_i e' hs
    cases h
    exact .inl (slot_eq_error hs)
  · split at h <;> cases h
    exact .inr rfl

theorem free_eq_error (h : (t.free i).result = .error e) : e = .indexOutOfRange i t.capacity := by
  unfold free at h
  split at h
  · rename_i e' hs
    cases h
    exact slot_eq_error hs
  · split at h <;> cases h

end Table

namespace Abi

/-! ### What a call asks, and what it answers -/

namespace Call

/-- The operation of the table that a call asks for. -/
def operation? : Call → Option Operation
  | .create index n => some (.create index n)
  | .free index => some (.free index)
  | .pointer index => some (.bytes index)
  | .isInitialized index _ => some (.isInitialized index)
  | .size index _ => some (.sizeOf index)
  | .cleanup _ => some .cleanup
  | _ => none

/-- Whether the caller gives a cell to write to. -/
def hasCell : Call → Bool
  | .isInitialized _ null | .size _ null | .cleanup null => !null
  | _ => false

/-- Whether a cell is needed and not there. -/
def lacksCell : Call → Bool
  | .isInitialized _ null | .size _ null => null
  | _ => false

/-- What the table says to a call. The table answers for every index whether it is initialized; the
call insists that there is such a slot. -/
def verdict (a : Allocator) (t : Table) (op : Operation) : Call → Except TableError Value
  | .isInitialized index _ => (t.slot index).bind fun _ ↦ (t.perform a op).result
  | _ => (t.perform a op).result

/-- The reply to a call when the table says this to it. -/
def reply (verdict : Except TableError Value) : Call → Reply
  | .pointer _ => .pointer verdict.toOption.isNone
  | .create .. | .free .. => .status (.ofResult verdict)
  | c =>
    if c.lacksCell then .cell .invalidArgument none
    else .cell (.ofResult verdict) (if c.hasCell then verdict.toOption.bind Value.cell? else none)

end Call

namespace Reply

/-- The code that a reply carries. -/
def code? : Reply → Option Int
  | .status s | .cell s _ | .printed s _ => some s.code
  | _ => none

/-- What was written to the caller's cell. -/
def written? : Reply → Option Nat
  | .cell _ written => written
  | _ => none

end Reply

theorem Status.code_ofResult {α : Type} (r : Except TableError α) :
    (Status.ofResult r).code = 0 ↔ ∃ v, r = .ok v := by
  rcases r with e | v
  · cases e <;> simp [Status.ofResult, Status.ofFault, Status.code]
  · simp [Status.ofResult, Status.code]

/-! ### Processes in which nothing panics -/

namespace State

/-- A process with this table, in which no call has panicked and none will. -/
def calm (t : Table) : State := ⟨t, false, "", none⟩

variable {a : Allocator} {t : Table} {c : Call} {op : Operation}

theorem pointer_calm (i : Nat) : (calm t).pointer i = t.buffer? i := by
  show (t.bytes i).toOption = _
  rcases hb : t.bytes i with e | b
  · rcases hbuffer : t.buffer? i with - | b
    · rfl
    · rw [Table.bytes_eq_ok_iff.2 hbuffer] at hb
      cases hb
  · rw [Table.bytes_eq_ok_iff.1 hb]
    rfl

theorem panicking?_calm {ρ : Type} (records : List ρ) : (calm t).panicking? records = none := by
  cases records <;> rfl

theorem locked_calm {α : Type} (operation : Table → Step α) :
    (calm t).locked operation =
      (.ofResult (operation t).result, (operation t).result.toOption,
        calm (operation t).table) := by
  unfold locked
  simp only [panicking?_calm]
  rfl

theorem create_calm (a : Allocator) (i n : Nat) :
    ((calm t).create a i n).2 = calm (t.create a i n).table := by
  rw [create, locked_calm]

theorem cleanup_calm (null : Bool) : ((calm t).cleanup null).2.2 = calm t.emptied := by
  rw [cleanup, locked_calm]
  rfl

/-- A standard output that takes everything takes the line, whether or not it can be flushed. -/
theorem print_calm (t : Table) {stdout : Writer} (h : stdout.Accepts) (v : Int32) :
    ∃ out, (calm t).print stdout v = (.ok, out, calm t) ∧ out.text = printedLine v := by
  obtain ⟨out, hwrite, htext⟩ := h.write {} (printedLine v)
  refine ⟨out, ?_, by simpa using htext⟩
  have hprinted : (printLogged stdout {} v).1 = out := by
    simp only [printLogged, hwrite]
    split <;> rfl
  unfold print
  simp only [panicking?_calm, hprinted]

theorem ofResult_map {α β : Type} (r : Except TableError α) (f : α → β) :
    Status.ofResult (r.map f) = Status.ofResult r := by
  cases r <;> rfl

/-- **One call.** It replies with what the table says, and the table goes on as the operation
leaves it. -/
theorem call_calm (hop : c.operation? = some op) :
    (calm t).call a c = (c.reply (c.verdict a t op), calm (t.perform a op).table) := by
  cases c with
  | create | free =>
    cases hop
    simp only [call, create, free, locked_calm, Call.reply, Call.verdict, Table.perform, Step.map,
      ofResult_map]
  | pointer index =>
    cases hop
    show (Reply.pointer ((t.bytes index).toOption).isNone, calm t) = _
    simp only [Call.reply, Call.verdict, Table.perform, Step.look]
    cases t.bytes index <;> rfl
  | isInitialized index null =>
    cases hop
    cases null with
    | true => rfl
    | false =>
      show (Reply.cell (.ofResult ((t.slot index).map _)) ((t.slot index).map _).toOption, _) = _
      simp only [Call.reply, Call.verdict, Table.perform, Step.look, Table.slot,
        Table.isInitialized]
      cases t.slots[index]? <;> rfl
  | size index null =>
    cases hop
    cases null with
    | true => rfl
    | false =>
      show (Reply.cell (.ofResult (t.sizeOf index)) (t.sizeOf index).toOption, _) = _
      simp only [Call.reply, Call.verdict, Table.perform, Step.look]
      cases t.sizeOf index <;> rfl
  | cleanup null =>
    cases hop
    simp only [call, cleanup, locked_calm]
    cases null <;> rfl
  | print | load | store | lastPanic | arm => cases hop

/-- **Any number of calls.** -/
theorem callAll_calm {cs : List Call} (h : ∀ c ∈ cs, c.operation?.isSome = true) (a : Allocator)
    (t : Table) :
    ((calm t).callAll a cs).2 = calm (t.performAll a (cs.filterMap Call.operation?)) := by
  induction cs generalizing t with
  | nil => rfl
  | cons c cs ih =>
    obtain ⟨op, hop⟩ := Option.isSome_iff_exists.1 (h c (by simp))
    show (callAll a ((calm t).call a c).2 cs).2 = _
    rw [call_calm hop, ih (fun c' hc' ↦ h c' (by simp [hc'])), List.filterMap_cons_some hop]
    rfl

end State

/-! ### What the codes tell -/

section Codes

theorem eq_error_of_map {α β : Type} {r : Except TableError α} {f : α → β} {e : TableError}
    (h : r.map f = .error e) : r = .error e := by
  cases r <;> cases h
  rfl

variable {a : Allocator} {t : Table} {c : Call} {op : Operation}

/-- The faults that are left to calls: a stale handle and a short buffer are not among them, since
calls name no buffer and read no integer. -/
theorem Call.fault_of_verdict {e : TableError} (hop : c.operation? = some op)
    (h : c.verdict a t op = .error e) :
    Status.ofFault e ≠ .doubleFree ∧ Status.ofFault e ≠ .bufferTooSmall := by
  cases c with
  | create index n =>
    cases hop
    rcases (Table.create_of_error (eq_error_of_map h)).2 with ⟨rfl, -⟩ | ⟨rfl, -⟩ | rfl <;>
      simp [Status.ofFault]
  | free index =>
    cases hop
    obtain rfl := Table.free_eq_error (eq_error_of_map h)
    simp [Status.ofFault]
  | pointer index =>
    cases hop
    rcases Table.bytes_eq_error (eq_error_of_map h) with rfl | rfl <;> simp [Status.ofFault]
  | isInitialized index null =>
    cases hop
    simp only [Call.verdict] at h
    rcases hs : t.slot index with e' | s
    · rw [hs] at h
      cases h
      obtain rfl := Table.slot_eq_error hs
      simp [Status.ofFault]
    · rw [hs] at h
      cases h
  | size index null =>
    cases hop
    have hsize := eq_error_of_map h
    unfold Table.sizeOf at hsize
    split at hsize
    · rename_i e' hb
      cases hsize
      rcases Table.bytes_eq_error hb with rfl | rfl <;> simp [Status.ofFault]
    · cases hsize
  | cleanup null => cases hop; cases h
  | print | load | store | lastPanic | arm => cases hop

theorem Call.code?_reply (hop : c.operation? = some op) (hc : ∀ i, c ≠ .pointer i)
    (r : Except TableError Value) :
    (c.reply r).code? = some (if c.lacksCell then -7 else (Status.ofResult r).code) := by
  cases c with
  | create | free | cleanup => rfl
  | pointer index => exact absurd rfl (hc index)
  | isInitialized index null | size index null => cases null <;> rfl
  | print | load | store | lastPanic | arm => cases hop

/-- The cell gets the table's value, if there is a cell. -/
theorem Call.written?_reply (hop : c.operation? = some op) (r : Except TableError Value) :
    (c.reply r).written? = if c.hasCell then r.toOption.bind Value.cell? else none := by
  cases c with
  | create | free | pointer => rfl
  | isInitialized index null | size index null | cleanup null => cases null <;> rfl
  | print | load | store | lastPanic | arm => cases hop

/-- What the table says to a call with a cell can be written to it. -/
theorem Call.cell?_of_verdict {v : Value} (hop : c.operation? = some op)
    (hcell : c.hasCell = true) (h : c.verdict a t op = .ok v) : ∃ n, v.cell? = some n := by
  cases c with
  | isInitialized index null =>
    cases hop
    simp only [Call.verdict] at h
    rcases hs : t.slot index with e | s <;> rw [hs] at h <;> cases h
    exact ⟨_, rfl⟩
  | size index null =>
    cases hop
    rcases hs : t.sizeOf index with e | n <;>
      simp only [Call.verdict, Table.perform, Step.look, hs] at h <;> cases h
    exact ⟨n, rfl⟩
  | cleanup null =>
    cases hop
    cases h
    exact ⟨_, rfl⟩
  | create | free | pointer | print | load | store | lastPanic | arm => cases hcell

theorem Call.lacksCell_of_hasCell (h : c.hasCell = true) : c.lacksCell = false := by
  cases c with
  | isInitialized index null | size index null =>
    cases null with
    | false => rfl
    | true => cases h
  | create | free | pointer | cleanup | print | load | store | lastPanic | arm => rfl

/-- **The cell is written exactly when all went well and there is one.** -/
theorem Call.written?_reply_isSome (hop : c.operation? = some op) :
    (c.reply (c.verdict a t op)).written?.isSome = true ↔
      (c.reply (c.verdict a t op)).code? = some 0 ∧ c.hasCell = true := by
  rw [Call.written?_reply hop]
  by_cases hcell : c.hasCell = true
  · have hcode : (c.reply (c.verdict a t op)).code? =
        some (Status.ofResult (c.verdict a t op)).code := by
      have hnot : ∀ i, c ≠ .pointer i := by rintro i rfl; cases hcell
      rw [Call.code?_reply hop hnot, lacksCell_of_hasCell hcell]
      rfl
    rw [hcode, Option.some_inj, Status.code_ofResult]
    rcases hv : c.verdict a t op with e | v
    · simp [hcell, Except.toOption]
    · obtain ⟨n, hn⟩ := Call.cell?_of_verdict hop hcell hv
      simp [hcell, Except.toOption, hn]
  · simp [hcell]

/-- A call that does not succeed leaves the table as it was. -/
theorem Call.table_of_code_neg {code : Int} (hop : c.operation? = some op)
    (hcode : (c.reply (c.verdict a t op)).code? = some code) (hneg : code < 0) :
    (t.perform a op).table = t := by
  have hfails : ∀ r : Except TableError Value, (Status.ofResult r).code = code →
      ∃ e, r = .error e := by
    intro r hr
    rcases r with e | v
    · exact ⟨e, rfl⟩
    · subst hr
      cases hneg
  cases c with
  | create index n =>
    cases hop
    obtain ⟨e, he⟩ := hfails _ (Option.some.inj hcode)
    exact (Table.atomic_perform a t _ he).1
  | free index =>
    cases hop
    obtain ⟨e, he⟩ := hfails _ (Option.some.inj hcode)
    exact (Table.atomic_perform a t _ he).1
  | pointer | isInitialized | size => cases hop; rfl
  | cleanup null =>
    cases hop
    obtain ⟨e, he⟩ := hfails _ (Option.some.inj hcode)
    cases he
  | print | load | store | lastPanic | arm => cases hop

/-- Two of the codes are not for calls. -/
theorem Call.code_ne_of_reply {code : Int} (hop : c.operation? = some op)
    (hcode : (c.reply (c.verdict a t op)).code? = some code) : code ≠ -4 ∧ code ≠ -6 := by
  by_cases hc : ∃ i, c = .pointer i
  · obtain ⟨i, rfl⟩ := hc
    cases hcode
  · rw [Call.code?_reply hop (fun i hi ↦ hc ⟨i, hi⟩), Option.some_inj] at hcode
    subst hcode
    split
    · decide
    · rcases hv : c.verdict a t op with e | v
      · have hfault := Call.fault_of_verdict hop hv
        cases e <;> simp_all [Status.ofResult, Status.ofFault, Status.code]
      · simp [Status.ofResult, Status.code]

namespace State

theorem call_pointer_iff (a : Allocator) (t : Table) (i : Nat) :
    ((calm t).call a (.pointer i)).1 = .pointer false ↔ (t.buffer? i).isSome = true := by
  show Reply.pointer ((calm t).pointer i).isNone = _ ↔ _
  rw [pointer_calm]
  cases t.buffer? i <;> simp

theorem call_isInitialized_iff (a : Allocator) (t : Table) (i : Nat) :
    ((calm t).call a (.isInitialized i false)).1.written? = some 1 ↔
      (t.buffer? i).isSome = true := by
  show ((t.slot i).map fun s ↦ if s.isLive then 1 else 0).toOption = some 1 ↔ _
  unfold Table.slot Table.buffer?
  rcases t.slots[i]? with - | ⟨- | b, g⟩ <;> simp [Except.map, Except.toOption, Slot.isLive]

theorem call_size_iff (a : Allocator) (t : Table) (i : Nat) :
    ((calm t).call a (.size i false)).1.code? = some 0 ↔ (t.buffer? i).isSome = true := by
  show some (Status.ofResult (t.sizeOf i)).code = some 0 ↔ _
  rw [Option.some_inj, Status.code_ofResult]
  unfold Table.sizeOf Table.bytes Table.slot Table.buffer?
  rcases t.slots[i]? with - | ⟨- | b, g⟩ <;> simp

end State

end Codes

/-! ### Runs of calls -/

/-- **The interface refines the table.**

Make any calls on the table of a process, starting afresh and with nothing panicking. The table is
then the one that the same operations leave. Every further call does to it what its operation does,
and its code is 0 if the table has a value for it, -7 if it needs a cell and has none, and otherwise
that of the fault; a pointer is null if there is a fault. The cell is written when the code is 0 and
there is one, and never else. A negative code means that nothing has changed, and -4 and -6 are no
codes of these calls. And a pointer, a 1 and a size are to be had for the same indices. -/
theorem interface_refines_table (a : Allocator) (calls : List Call)
    (hcalls : ∀ c ∈ calls, c.operation?.isSome = true) :
    let p := (State.fresh.callAll a calls).2
    let t := Table.standard.performAll a (calls.filterMap Call.operation?)
    p.table = t ∧
      (∀ c op, c.operation? = some op →
        let reply := (p.call a c).1
        let p' := (p.call a c).2
        p'.table = (t.perform a op).table ∧
          ((∃ i, c = .pointer i) →
            reply = .pointer (c.verdict a t op).toOption.isNone ∧ reply.code? = none) ∧
          ((∀ i, c ≠ .pointer i) → reply.code? =
            some (if c.lacksCell then -7 else (Status.ofResult (c.verdict a t op)).code)) ∧
          (reply.written?.isSome = true ↔ reply.code? = some 0 ∧ c.hasCell = true) ∧
          (∀ n, reply.written? = some n →
            ∃ v, c.verdict a t op = .ok v ∧ v.cell? = some n) ∧
          ∀ code, reply.code? = some code →
            (code < 0 → p' = p) ∧ code ≠ -4 ∧ code ≠ -6) ∧
      ∀ i,
        ((p.call a (.pointer i)).1 = .pointer false ↔
          (p.call a (.isInitialized i false)).1.written? = some 1) ∧
        ((p.call a (.isInitialized i false)).1.written? = some 1 ↔
          (p.call a (.size i false)).1.code? = some 0) := by
  intro p t
  have hp : p = .calm t := State.callAll_calm hcalls a .standard
  rw [hp]
  refine ⟨rfl, fun c op hop ↦ ?_, fun i ↦ ⟨?_, ?_⟩⟩
  · simp only [State.call_calm hop]
    refine ⟨rfl, ?_, ?_, ?_, ?_, fun code hcode ↦ ⟨fun hneg ↦ ?_, ?_⟩⟩
    · rintro ⟨i, rfl⟩
      exact ⟨rfl, rfl⟩
    · exact fun hc ↦ Call.code?_reply hop hc _
    · exact Call.written?_reply_isSome hop
    · intro n hn
      rw [Call.written?_reply hop] at hn
      split at hn
      · obtain ⟨v, hv, hcell⟩ := Option.bind_eq_some_iff.1 hn
        rcases hr : c.verdict a t op with e | v'
        · rw [hr] at hv
          cases hv
        · rw [hr] at hv
          obtain rfl := Option.some.inj hv
          exact ⟨v', rfl, hcell⟩
      · cases hn
    · rw [Call.table_of_code_neg hop hcode hneg]
    · exact Call.code_ne_of_reply hop hcode
  · rw [State.call_pointer_iff, State.call_isInitialized_iff]
  · rw [State.call_isInitialized_iff, State.call_size_iff]

/-- A slot with no bytes in it is as live as any: it has a pointer, a 1 and a size, and is not
created again. -/
theorem slot_without_bytes_is_live :
    (∀ c ∈ [Call.create 0 0, .create 256 8, .free 7], c.operation?.isSome = true) ∧
      let p := (State.fresh.callAll .system [.create 0 0, .create 256 8, .free 7]).2
      (p.call .system (.pointer 0)).1 = .pointer false ∧
        (p.call .system (.isInitialized 0 false)).1.written? = some 1 ∧
        (p.call .system (.size 0 false)).1.code? = some 0 ∧
        (p.call .system (.create 0 8)).1.code? = some (-3) ∧
        (p.call .system (.create 0 8)).2 = p := by
  have hcalls : ∀ c ∈ [Call.create 0 0, .create 256 8, .free 7], c.operation?.isSome = true := by
    decide
  obtain ⟨-, hcall, hviews⟩ :=
    interface_refines_table .system [.create 0 0, .create 256 8, .free 7] hcalls
  obtain ⟨hpointer, hsize⟩ := hviews 0
  obtain ⟨-, -, -, -, -, hcodes⟩ := hcall (.create 0 8) (.create 0 8) rfl
  have hlive := hpointer.1 rfl
  exact ⟨hcalls, rfl, hlive, hsize.1 hlive, rfl, (hcodes (-3) rfl).1 (by decide)⟩

end Abi

end SlotLang
