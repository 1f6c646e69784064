import SlotLang.Proofs.Accounting
import SlotLang.Proofs.Interface

/-!
# Panics are contained

A log record can panic, and calls of the C interface make records while they hold the lock. A
process is then a small machine: the table, whether the lock is poisoned, the message kept, and the
panic that the next record is armed with. `State.records` says which records a call makes and
`State.panic?` whether one of them panics; neither looks at what the call answers. A run is the
calls of one thread, whose message it is.

* A record that panics leaves the table as it is at that record. `Step.LogsAtEnd` says that a step
  makes one record at most and makes it when all is done, and `Call.logsAtEnd` that all calls which
  hold the lock are of that kind on a table that rejects overwriting, as that of a process does. On
  one that replaces, a creation makes its first record halfway, when the books are wrong
  (`books_of_replaced`).
* `call_of_panic` and `call_of_quiet` are the two ways a call can go, and by
  `table_call_of_panic` the panicking one has done all of its work.
* `reaches_call` makes every call, panicking or not, a sequence of changes to the table, so what
  holds along all changes holds behind a poisoned lock as well.
* `call_of_poisoned` keeps a poisoned lock poisoned, and `Refuses` says what can be had from such a
  process.
* `call_withMessage` compares two processes that differ in their message: no call looks at it but
  the one that asks for it. So a panic away from the lock changes nothing else.
-/

namespace SlotLang

/-! ### Bytes of a message -/

theorem length_toList (bytes : ByteArray) : bytes.toList.length = bytes.size := by
  have hloop : ∀ (i : Nat) (acc : List UInt8),
      (ByteArray.toList.loop bytes i acc).length = acc.length + (bytes.size - i) := by
    intro i acc
    fun_induction ByteArray.toList.loop bytes i acc with
    | case1 i acc hi ih => rw [ih, List.length_cons]; omega
    | case2 i acc hi => rw [List.length_reverse]; omega
  exact (hloop 0 []).trans (Nat.zero_add _)

theorem length_toUTF8 (s : String) : s.toUTF8.toList.length = s.utf8ByteSize :=
  length_toList s.toUTF8

/-! ### Where a step makes its records -/

/-- Whether a step makes no record, or one when all is done. -/
def Step.LogsAtEnd {α : Type} (s : Step α) : Prop :=
  s.log = [] ∨ ∃ event, s.log = [⟨event, s.table⟩]

namespace Step

variable {α β : Type} {s : Step α}

theorem LogsAtEnd.map (h : s.LogsAtEnd) (f : α → β) : (s.map f).LogsAtEnd := h

theorem LogsAtEnd.length_events_le (h : s.LogsAtEnd) : s.events.length ≤ 1 := by
  rcases h with h | ⟨event, h⟩ <;> simp [events, h]

/-- The records of such a step see the table that the step leaves. -/
theorem LogsAtEnd.table_eq (h : s.LogsAtEnd) {point : LogPoint} (hpoint : point ∈ s.log) :
    point.table = s.table := by
  rcases h with h | ⟨event, h⟩
  · rw [h] at hpoint
    cases hpoint
  · rw [h, List.mem_singleton] at hpoint
    rw [hpoint]

end Step

namespace Table

variable {a : Allocator} {t : Table} {config : TableConfig} {i n : Nat}

/-- Where overwriting is rejected there is no buffer to let go of on the way. -/
theorem logsAtEnd_create (hreject : t.config.overwrite = .reject) (i n : Nat) :
    (t.create a i n).LogsAtEnd := by
  rcases hs : t.slots[i]? with - | s
  · left
    simp only [create, slot, hs]
    rfl
  · rw [create_of_getElem? hs]
    split
    · exact .inl rfl
    · rename_i hfree
      have hempty : s.isLive = false := by simpa [hreject] using hfree
      split
      · exact .inr ⟨.created i n s.release.generation, by simp [hempty]⟩
      · exact .inl rfl

theorem logsAtEnd_free (t : Table) (i : Nat) : (t.free i).LogsAtEnd := by
  unfold free
  split
  · exact .inl rfl
  · split
    · exact .inr ⟨_, rfl⟩
    · exact .inl rfl

theorem logsAtEnd_cleanup (t : Table) : t.cleanup.LogsAtEnd := by
  unfold cleanup cleanupEvents
  split
  · exact .inr ⟨_, rfl⟩
  · exact .inl rfl

/-- **Where overwriting replaces, the first record of a creation comes halfway.** The old buffer has
been let go of by then, and its bytes are still counted: were the record to panic, the books would
be wrong by so many bytes. -/
theorem books_of_replaced {s : Slot} {h : Handle} (ht : t.Accounts config)
    (hs : t.slots[i]? = some s) (hlive : s.isLive = true)
    (hr : (t.create a i n).result = .ok h) :
    ∃ point, (t.create a i n).log.head? = some point ∧ point.event = .replaced i s.size ∧
      point.table.allocatedBytes = (point.table.liveSlots.map (·.2)).sum + s.size := by
  have hset : t.setSlot i s.release = t.rewrite i Slot.release :=
    setSlot_eq_rewrite hs Slot.release
  refine ⟨⟨.replaced i s.size, t.setSlot i s.release⟩, ?_, rfl, ?_⟩
  · rw [create_of_getElem? hs] at hr ⊢
    split at hr
    · cases hr
    · rename_i hfree
      split at hr
      · rename_i hmemory
        rw [if_neg hfree, if_pos hmemory]
        simp [hlive]
      · cases hr
  · have hmove := sum_size_rewrite hs Slot.release
    rw [Slot.size_release, Nat.add_zero, ← ht.bytes_eq] at hmove
    show (t.setSlot i s.release).allocatedBytes = _
    rw [sum_liveSlots, hset, hmove, allocatedBytes_rewrite]

end Table

namespace Abi

theorem Status.code_ofResult_ne {α : Type} (r : Except TableError α) :
    (Status.ofResult r).code ≠ -128 := by
  rcases r with e | v
  · cases e <;> simp [Status.ofResult, Status.ofFault, Status.code]
  · simp [Status.ofResult, Status.code]

theorem Status.code_internalError_ne : Status.internalError.code ≠ -128 := by decide

/-! ### Which calls can panic -/

namespace Call

/-- Whether a call changes the table with the lock held. -/
def locks : Call → Bool
  | .create .. | .free _ | .cleanup _ => true
  | _ => false

/-- Whether a call answers with a code and has to hold the lock for it. -/
def needsLock : Call → Bool
  | .isInitialized _ null | .size _ null => !null
  | c => c.locks

/-- The reply of a call that changes the table. -/
def answer (status : Status) (value : Option Value) : Call → Reply
  | .cleanup null => .cell status (if null then none else value.bind Value.cell?)
  | _ => .status status

/-- The table after a call that gets to its end. -/
def effect (a : Allocator) (t : Table) (c : Call) : Table :=
  match c.operation? with
  | some op => (t.perform a op).table
  | none => t

theorem code?_answer {c : Call} (status : Status) (value : Option Value) :
    (c.answer status value).code? = some status.code := by
  cases c <;> rfl

theorem written?_answer {c : Call} (status : Status) : (c.answer status none).written? = none := by
  cases c with
  | cleanup null => cases null <;> rfl
  | create | free | pointer | isInitialized | size | print | load | store | lastPanic | arm => rfl

/-- **The calls that hold the lock** make their record when all is done, on a table that rejects
overwriting. -/
theorem logsAtEnd {a : Allocator} {t : Table} {c : Call} {op : Operation}
    (hreject : t.config.overwrite = .reject) (hl : c.locks = true)
    (hop : c.operation? = some op) : (t.perform a op).LogsAtEnd := by
  cases c with
  | create index n => cases hop; exact (Table.logsAtEnd_create hreject index n).map _
  | free index => cases hop; exact (Table.logsAtEnd_free t index).map _
  | cleanup null => cases hop; exact (Table.logsAtEnd_cleanup t).map _
  | pointer | isInitialized | size | print | load | store | lastPanic | arm => cases hl

end Call

namespace State

variable {a : Allocator} {p : State} {c : Call} {payload : Payload} {point : LogPoint}

/-- The log records that a call makes. -/
def records (a : Allocator) (p : State) : Call → List Event
  | .print value full => (printLogged (if full then .full else .buffer) {} value).2
  | c =>
    match c.operation? with
    | some op => if p.poisoned then [] else (p.table.perform a op).events
    | none => []

/-- The panic that a call is hit by. -/
def panic? (a : Allocator) (p : State) (c : Call) : Option Payload :=
  (p.panicking? (p.records a c)).map Prod.fst

/-- The panics caught along some calls. -/
def panics (a : Allocator) (p : State) : List Call → List Payload
  | [] => []
  | c :: cs => (p.panic? a c).toList ++ (p.call a c).2.panics a cs

/-! ### Under the lock -/

section Locked

variable {α : Type} {s : Step α} {operation : Table → Step α}

theorem panicking?_of_unarmed {ρ : Type} (h : p.armed = none) (records : List ρ) :
    p.panicking? records = none := by
  cases records with
  | nil => rfl
  | cons first rest => rw [panicking?, h, Option.map_none]

theorem mem_of_panicking? {ρ : Type} {records : List ρ} {record : ρ}
    (h : p.panicking? records = some (payload, record)) : record ∈ records := by
  cases records with
  | nil => cases h
  | cons first rest =>
    obtain ⟨_, -, hpair⟩ := Option.map_eq_some_iff.1 h
    cases hpair
    exact List.mem_cons_self

/-- A panic hits a record whether or not the table at that moment is looked at. -/
theorem panicking?_events (p : State) (s : Step α) :
    (p.panicking? s.events).map Prod.fst = (p.panicking? s.log).map Prod.fst := by
  unfold Step.events
  rcases s.log with - | ⟨point, points⟩
  · rfl
  · simp only [List.map_cons, panicking?, Option.map_map, Function.comp_def]

theorem exists_point_of_panic (h : (p.panicking? s.events).map Prod.fst = some payload) :
    ∃ point ∈ s.log, p.panicking? s.log = some (payload, point) := by
  rw [panicking?_events] at h
  obtain ⟨⟨payload', point⟩, hpoint, rfl⟩ := Option.map_eq_some_iff.1 h
  exact ⟨point, mem_of_panicking? hpoint, hpoint⟩

theorem panicking?_log_of_quiet (h : (p.panicking? s.events).map Prod.fst = none) :
    p.panicking? s.log = none := by
  rw [panicking?_events] at h
  exact Option.map_eq_none_iff.1 h

theorem locked_of_poisoned (h : p.poisoned = true) :
    p.locked operation = (.internalError, none, p) := by
  rw [locked, if_pos h]

theorem locked_of_panic (hopen : p.poisoned = false)
    (h : p.panicking? (operation p.table).log = some (payload, point)) :
    p.locked operation = (.panicked, none, ⟨point.table, true, payload.message, none⟩) := by
  simp only [locked, hopen, h, Bool.false_eq_true, if_false]

theorem locked_of_quiet (hopen : p.poisoned = false)
    (h : p.panicking? (operation p.table).log = none) :
    p.locked operation =
      (.ofResult (operation p.table).result, (operation p.table).result.toOption,
        { p with table := (operation p.table).table }) := by
  simp only [locked, hopen, h, Bool.false_eq_true, if_false]

theorem locked_map {β : Type} (p : State) (operation : Table → Step α) (f : α → β) :
    p.locked (fun t ↦ (operation t).map f) =
      ((p.locked operation).1, (p.locked operation).2.1.map f, (p.locked operation).2.2) := by
  unfold locked
  split
  · rfl
  · simp only [Step.map]
    split
    · rfl
    · cases (operation p.table).result <;> rfl

end Locked

/-- **A call that changes the table** does its operation under the lock, whatever the process. -/
theorem call_of_locks (a : Allocator) (hl : c.locks = true) :
    ∃ op, c.operation? = some op ∧ ∀ p : State,
      p.call a c =
          (c.answer (p.locked (·.perform a op)).1 (p.locked (·.perform a op)).2.1,
            (p.locked (·.perform a op)).2.2) ∧
        p.records a c = if p.poisoned then [] else (p.table.perform a op).events := by
  cases c with
  | create | free =>
    refine ⟨_, rfl, fun p ↦ ⟨?_, rfl⟩⟩
    simp only [Table.perform, locked_map]
    rfl
  | cleanup null =>
    refine ⟨_, rfl, fun p ↦ ⟨?_, rfl⟩⟩
    simp only [Table.perform, locked_map]
    show (Reply.cell (p.locked Table.cleanup).1
      (if null then none else (p.locked Table.cleanup).2.1), _) = _
    cases (p.locked Table.cleanup).2.1 <;> rfl
  | pointer | isInitialized | size | print | load | store | lastPanic | arm => cases hl

theorem records_of_not_locks (h : c.locks = false) (hprint : ∀ v full, c ≠ .print v full) :
    p.records a c = [] := by
  cases c with
  | create | free | cleanup => cases h
  | print value full => exact absurd rfl (hprint value full)
  | pointer index | isInitialized index null | size index null => exact ite_self []
  | load | store | lastPanic | arm => rfl

/-- A panic hits a call that holds the lock, or a print. -/
theorem locks_or_print (h : p.panic? a c = some payload) :
    c.locks = true ∨ ∃ v full, c = .print v full := by
  by_contra hother
  rw [not_or, Bool.not_eq_true] at hother
  rw [panic?, records_of_not_locks hother.1 fun v full hc ↦ hother.2 ⟨v, full, hc⟩] at h
  cases h

/-! ### Printing -/

/-- Standard output takes the line or, when it is full, nothing; only then there is a record. -/
theorem printLogged_stdout (full : Bool) (v : Int32) :
    (printLogged (if full then .full else .buffer) {} v).1.text =
        (if full then "" else printedLine v) ∧
      (printLogged (if full then .full else .buffer) {} v).2.length = if full then 1 else 0 := by
  cases full with
  | true => simp [printLogged, Writer.write, Writer.full, printedLine_ne_empty]
  | false => simp [printLogged, Writer.write, Writer.buffer, Writer.flush, printedLine_ne_empty]

theorem call_print (a : Allocator) (p : State) (v : Int32) (full : Bool) :
    p.call a (.print v full) =
      match p.panic? a (.print v full) with
      | some payload =>
        (.printed .panicked (if full then "" else printedLine v),
          { p with lastPanic := payload.message, armed := none })
      | none => (.printed .ok (if full then "" else printedLine v), p) := by
  rw [← (printLogged_stdout full v).1]
  show (Reply.printed (p.print _ v).1 (p.print _ v).2.1.text, (p.print _ v).2.2) = _
  simp only [print, panic?, records]
  rcases p.panicking? (printLogged (if full then .full else .buffer) {} v).2 with - | ⟨payload, _⟩
  · rfl
  · rfl

/-! ### One call -/

/-- **A call that is hit by a panic** says so, writes to no cell, and leaves the message and, if it
held the lock, a poisoned lock. -/
theorem call_of_panic (h : p.panic? a c = some payload) :
    (p.call a c).1.code? = some (-128) ∧ (p.call a c).1.written? = none ∧
      ∃ table, (p.call a c).2 = ⟨table, p.poisoned || c.locks, payload.message, none⟩ := by
  rcases locks_or_print h with hl | ⟨v, full, rfl⟩
  · obtain ⟨op, -, hcall⟩ := call_of_locks a hl
    rw [panic?, (hcall p).2] at h
    split at h
    · cases h
    · rename_i hopen
      obtain ⟨point, -, hpoint⟩ := exists_point_of_panic h
      rw [(hcall p).1, locked_of_panic (Bool.eq_false_iff.2 hopen) hpoint]
      refine ⟨Call.code?_answer _ _, Call.written?_answer _, point.table, ?_⟩
      simp only [hl, Bool.or_true]
  · rw [call_print, h]
    simp only [Call.locks, Bool.or_false]
    exact ⟨rfl, rfl, p.table, rfl⟩

/-- **It has done all of its work**, if the table rejects overwriting. -/
theorem table_call_of_panic (hreject : p.table.config.overwrite = .reject)
    (h : p.panic? a c = some payload) : (p.call a c).2.table = c.effect a p.table := by
  rcases locks_or_print h with hl | ⟨v, full, rfl⟩
  · obtain ⟨op, hop, hcall⟩ := call_of_locks a hl
    rw [panic?, (hcall p).2] at h
    split at h
    · cases h
    · rename_i hopen
      obtain ⟨point, hmem, hpoint⟩ := exists_point_of_panic h
      rw [(hcall p).1, locked_of_panic (Bool.eq_false_iff.2 hopen) hpoint]
      simp only [Call.effect, hop]
      exact (Call.logsAtEnd hreject hl hop).table_eq hmem
  · rw [call_print, h]
    rfl

theorem code_locking_ne {α : Type} (p : State) (query : Table → Except TableError α) :
    (p.locking query).1.code ≠ -128 := by
  unfold locking
  split
  · exact Status.code_internalError_ne
  · exact Status.code_ofResult_ne _

/-- A call that is not hit by a panic does not say that it was, and leaves lock and message as they
are. -/
theorem call_of_quiet (h : p.panic? a c = none) :
    (p.call a c).1.code? ≠ some (-128) ∧ (p.call a c).2.poisoned = p.poisoned ∧
      (p.call a c).2.lastPanic = p.lastPanic := by
  by_cases hl : c.locks = true
  · obtain ⟨op, -, hcall⟩ := call_of_locks a hl
    rw [(hcall p).1, Call.code?_answer, Ne, Option.some_inj]
    rw [panic?, (hcall p).2] at h
    split at h
    · rename_i hpoisoned
      rw [locked_of_poisoned hpoisoned]
      exact ⟨Status.code_internalError_ne, rfl, rfl⟩
    · rename_i hopen
      rw [locked_of_quiet (Bool.eq_false_iff.2 hopen) (panicking?_log_of_quiet h)]
      exact ⟨Status.code_ofResult_ne _, rfl, rfl⟩
  · cases c with
    | create | free | cleanup => exact absurd rfl hl
    | isInitialized index null | size index null =>
      refine ⟨fun hcode ↦ ?_, rfl, rfl⟩
      cases null with
      | true => cases hcode
      | false =>
        simp only [call, isInitialized, size, Bool.false_eq_true, if_false, Reply.code?,
          Option.some_inj] at hcode
        exact code_locking_ne p _ hcode
    | print value full =>
      rw [call_print, h]
      exact ⟨by simp [Reply.code?, Status.code], rfl, rfl⟩
    | store index value =>
      refine ⟨by simp [call, Reply.code?], ?_⟩
      simp only [call, store]
      split
      · split <;> exact ⟨rfl, rfl⟩
      · exact ⟨rfl, rfl⟩
    | pointer | load | lastPanic | arm => exact ⟨by simp [call, Reply.code?], rfl, rfl⟩

/-- So the code says exactly which calls were hit by a panic. -/
theorem code?_call_iff : (p.call a c).1.code? = some (-128) ↔ (p.panic? a c).isSome = true := by
  rcases h : p.panic? a c with - | payload
  · simpa using (call_of_quiet h).1
  · simpa using (call_of_panic h).1

/-! ### The table -/

/-- **One call changes the table as its operations do**, if the table rejects overwriting: what a
panic leaves is then the table at the end of the operation. -/
theorem reaches_call (hreject : p.table.config.overwrite = .reject) (a : Allocator) (c : Call) :
    p.table.Reaches a (p.call a c).2.table := by
  by_cases hl : c.locks = true
  · obtain ⟨op, hop, hcall⟩ := call_of_locks a hl
    rw [(hcall p).1]
    show p.table.Reaches a (p.locked (·.perform a op)).2.2.table
    unfold locked
    split
    · exact Table.reaches_refl a p.table
    · dsimp only
      split
      · rename_i payload point hpoint
        rw [(Call.logsAtEnd hreject hl hop).table_eq (mem_of_panicking? hpoint)]
        exact Table.reaches_perform a p.table op
      · exact Table.reaches_perform a p.table op
  · cases c with
    | create | free | cleanup => exact absurd rfl hl
    | print value full =>
      rw [call_print]
      split <;> exact Table.reaches_refl a p.table
    | store index value =>
      simp only [call, store]
      split
      · split
        · exact Table.reaches_poke a p.table index _
        · exact Table.reaches_refl a p.table
      · exact Table.reaches_refl a p.table
    | pointer | isInitialized | size | load | lastPanic | arm =>
      exact Table.reaches_refl a p.table

/-- **So the books stay right through any number of calls**, whichever of them panic. -/
theorem accounts_callAll {config : TableConfig} (hreject : config.overwrite = .reject)
    (h : p.table.Accounts config) (a : Allocator) (cs : List Call) :
    (p.callAll a cs).2.table.Accounts config := by
  induction cs generalizing p with
  | nil => exact h
  | cons c cs ih =>
    have hrejects : p.table.config.overwrite = .reject := by rw [h.config_eq, hreject]
    exact ih ((reaches_call hrejects a c).accounts h)

/-- A table that rejects overwriting makes one record at most in a call, so which records panic is
for the arming between calls to say. -/
theorem length_records_le (h : p.table.config.overwrite = .reject) (a : Allocator) (c : Call) :
    (p.records a c).length ≤ 1 := by
  by_cases hl : c.locks = true
  · obtain ⟨op, hop, hcall⟩ := call_of_locks a hl
    rw [(hcall p).2]
    split
    · exact Nat.zero_le 1
    · exact (Call.logsAtEnd h hl hop).length_events_le
  · by_cases hprint : ∃ v full, c = .print v full
    · obtain ⟨v, full, rfl⟩ := hprint
      show (printLogged _ {} v).2.length ≤ 1
      rw [(printLogged_stdout full v).2]
      split <;> decide
    · rw [records_of_not_locks (Bool.eq_false_iff.2 hl) fun v full hc ↦ hprint ⟨v, full, hc⟩]
      exact Nat.zero_le 1

/-! ### Behind a poisoned lock -/

/-- What a process is like once a panic has hit the lock. -/
structure Refuses (a : Allocator) (p : State) : Prop where
  /-- A call that has to hold the lock fails, writes to no cell and changes nothing. -/
  locked : ∀ c, c.needsLock = true →
    (p.call a c).1.code? = some (-8) ∧ (p.call a c).1.written? = none ∧ (p.call a c).2 = p
  /-- That a cell is missing is still found first. -/
  noCell : ∀ c, c.lacksCell = true →
    (p.call a c).1.code? = some (-7) ∧ (p.call a c).1.written? = none ∧ (p.call a c).2 = p
  /-- Every pointer is null. -/
  pointer : ∀ index, p.call a (.pointer index) = (.pointer true, p)
  /-- Numbers are printed. -/
  print : ∀ value, p.call a (.print value false) = (.printed .ok (printedLine value), p)
  /-- That standard output is full is still not reported. -/
  printFull : p.armed = none → ∀ value, p.call a (.print value true) = (.printed .ok "", p)

theorem locking_of_poisoned {α : Type} (h : p.poisoned = true)
    (query : Table → Except TableError α) : p.locking query = (.internalError, none) := by
  rw [locking, if_pos h]

theorem refuses_of_poisoned (h : p.poisoned = true) (a : Allocator) : p.Refuses a where
  locked c hc := by
    by_cases hl : c.locks = true
    · obtain ⟨op, -, hcall⟩ := call_of_locks a hl
      rw [(hcall p).1, locked_of_poisoned h]
      exact ⟨Call.code?_answer _ _, Call.written?_answer _, rfl⟩
    · cases c with
      | create | free | cleanup => exact absurd rfl hl
      | isInitialized index null =>
        cases null with
        | true => cases hc
        | false =>
          simp only [call, isInitialized, locking_of_poisoned h, Bool.false_eq_true, if_false]
          exact ⟨rfl, rfl, trivial⟩
      | size index null =>
        cases null with
        | true => cases hc
        | false =>
          simp only [call, size, locking_of_poisoned h, Bool.false_eq_true, if_false]
          exact ⟨rfl, rfl, trivial⟩
      | pointer | print | load | store | lastPanic | arm => cases hc
  noCell c hc := by
    cases c with
    | isInitialized index null | size index null =>
      cases null with
      | true => exact ⟨rfl, rfl, rfl⟩
      | false => cases hc
    | create | free | pointer | cleanup | print | load | store | lastPanic | arm => cases hc
  pointer index := by
    simp only [call, State.pointer, locking_of_poisoned h]
    rfl
  print value := by
    have hquiet : p.panic? a (.print value false) = none := by
      have hnone := (printLogged_stdout false value).2
      show (p.panicking? (printLogged _ {} value).2).map Prod.fst = none
      rw [List.eq_nil_of_length_eq_zero hnone]
      rfl
    rw [call_print, hquiet]
    rfl
  printFull harmed value := by
    have hquiet : p.panic? a (.print value true) = none := by
      rw [panic?, panicking?_of_unarmed harmed]
      rfl
    rw [call_print, hquiet]
    rfl

/-- Behind a poisoned lock nothing happens to the table, and the lock stays poisoned. -/
theorem call_of_poisoned (h : p.poisoned = true) (a : Allocator) (c : Call) :
    (p.call a c).2.poisoned = true ∧ (p.call a c).2.table = p.table := by
  by_cases hn : c.needsLock = true
  · rw [((refuses_of_poisoned h a).locked c hn).2.2]
    exact ⟨h, rfl⟩
  · cases c with
    | create | free | cleanup => exact absurd rfl hn
    | print value full =>
      rw [call_print]
      split <;> exact ⟨h, rfl⟩
    | store index value =>
      simp only [call, store, size, locking_of_poisoned h, Bool.false_eq_true, if_false]
      exact ⟨h, trivial⟩
    | pointer | isInitialized | size | load | lastPanic | arm => exact ⟨h, rfl⟩

/-- **So it is for the rest of the run.** -/
theorem callAll_of_poisoned (h : p.poisoned = true) (a : Allocator) (cs : List Call) :
    (p.callAll a cs).2.poisoned = true ∧ (p.callAll a cs).2.table = p.table := by
  induction cs generalizing p with
  | nil => exact ⟨h, rfl⟩
  | cons c cs ih =>
    obtain ⟨hpoisoned, htable⟩ := call_of_poisoned h a c
    rw [← htable]
    exact ih hpoisoned

/-! ### The message -/

theorem lastPanic_call (a : Allocator) (p : State) (c : Call) :
    (p.call a c).2.lastPanic = ((p.panic? a c).map Payload.message).getD p.lastPanic := by
  rcases h : p.panic? a c with - | payload
  · exact (call_of_quiet h).2.2
  · obtain ⟨-, -, table, hstate⟩ := call_of_panic h
    rw [hstate]
    rfl

/-- **The message kept is that of the latest panic.** -/
theorem lastPanic_callAll (a : Allocator) (p : State) (cs : List Call) :
    (p.callAll a cs).2.lastPanic =
      ((p.panics a cs).getLast?.map Payload.message).getD p.lastPanic := by
  induction cs generalizing p with
  | nil => rfl
  | cons c cs ih =>
    show ((p.call a c).2.callAll a cs).2.lastPanic = _
    rw [ih, lastPanic_call, panics, List.getLast?_append]
    rcases ((p.call a c).2.panics a cs).getLast? with - | payload
    · cases p.panic? a c <;> rfl
    · rfl

/-- A buffer that is not empty gets the start of the message and a zero byte, and keeps the rest of
what it held. -/
theorem copyLastPanic_eq (p : State) {buffer : List UInt8} (h : buffer ≠ []) :
    p.copyLastPanic buffer =
      p.lastPanic.toUTF8.toList.take (buffer.length - 1) ++
        0 :: buffer.drop (min p.lastPanic.utf8ByteSize (buffer.length - 1) + 1) := by
  have hpos := List.length_pos_iff.2 h
  have hlength : (p.lastPanic.toUTF8.toList.take (buffer.length - 1) ++ [0]).length =
      min p.lastPanic.utf8ByteSize (buffer.length - 1) + 1 := by
    rw [List.length_append, List.length_take, length_toUTF8, Nat.min_comm]
    rfl
  rw [copyLastPanic, if_neg (by simpa using h), overwriteStart, List.take_of_length_le, hlength,
    List.append_assoc]
  · rfl
  · rw [hlength]
    omega

/-! ### Processes that differ in their message -/

/-- The process with another message kept. -/
def withMessage (p : State) (message : String) : State := { p with lastPanic := message }

theorem locked_withMessage {α : Type} (p : State) (message : String)
    (operation : Table → Step α) :
    ((p.withMessage message).locked operation).1 = (p.locked operation).1 ∧
      ((p.withMessage message).locked operation).2.1 = (p.locked operation).2.1 ∧
      ∃ message', ((p.withMessage message).locked operation).2.2 =
        (p.locked operation).2.2.withMessage message' := by
  rcases hpoisoned : p.poisoned with - | -
  · rcases hp : p.panicking? (operation p.table).log with - | ⟨payload, point⟩
    · rw [locked_of_quiet (p := p) hpoisoned hp,
        locked_of_quiet (p := p.withMessage message) hpoisoned hp]
      exact ⟨rfl, rfl, message, rfl⟩
    · rw [locked_of_panic (p := p) hpoisoned hp,
        locked_of_panic (p := p.withMessage message) hpoisoned hp]
      exact ⟨rfl, rfl, payload.message, rfl⟩
  · rw [locked_of_poisoned (p := p) hpoisoned,
      locked_of_poisoned (p := p.withMessage message) hpoisoned]
    exact ⟨rfl, rfl, message, rfl⟩

/-- **The message is for reading only**: a call does the same whatever the message is, unless it
asks for it. -/
theorem call_withMessage (a : Allocator) (p : State) (message : String) (c : Call) :
    (∃ message', ((p.withMessage message).call a c).2 = (p.call a c).2.withMessage message') ∧
      ((∀ buffer, c ≠ .lastPanic buffer) →
        ((p.withMessage message).call a c).1 = (p.call a c).1) := by
  by_cases hl : c.locks = true
  · obtain ⟨op, -, hcall⟩ := call_of_locks a hl
    obtain ⟨hstatus, hvalue, hstate⟩ := locked_withMessage p message (·.perform a op)
    rw [(hcall p).1, (hcall (p.withMessage message)).1, hstatus, hvalue]
    exact ⟨hstate, fun _ ↦ rfl⟩
  · cases c with
    | create | free | cleanup => exact absurd rfl hl
    | print value full =>
      have hsame : (p.withMessage message).panic? a (.print value full) =
          p.panic? a (.print value full) := rfl
      rw [call_print, call_print, hsame]
      rcases p.panic? a (.print value full) with - | payload
      · exact ⟨⟨message, rfl⟩, fun _ ↦ rfl⟩
      · exact ⟨⟨payload.message, rfl⟩, fun _ ↦ rfl⟩
    | store index value =>
      have hsame : (p.withMessage message).size index false = p.size index false := rfl
      simp only [call, store, hsame]
      split
      · split <;> exact ⟨⟨message, rfl⟩, fun _ ↦ rfl⟩
      · exact ⟨⟨message, rfl⟩, fun _ ↦ rfl⟩
    | lastPanic buffer => exact ⟨⟨message, rfl⟩, fun h ↦ absurd rfl (h buffer)⟩
    | pointer | isInitialized | size | load | arm => exact ⟨⟨message, rfl⟩, fun _ ↦ rfl⟩

theorem callAll_withMessage (a : Allocator) (p : State) (message : String) (cs : List Call) :
    ∃ message', ((p.withMessage message).callAll a cs).2 =
      (p.callAll a cs).2.withMessage message' := by
  induction cs generalizing p message with
  | nil => exact ⟨message, rfl⟩
  | cons c cs ih =>
    obtain ⟨message', hnext⟩ := (call_withMessage a p message c).1
    show ∃ m, (callAll a ((p.withMessage message).call a c).2 cs).2 = _
    rw [hnext]
    exact ih (p.call a c).2 message'

/-- A panic that does not hit the lock leaves a process that differs in the message only from one
in which the record was made. -/
theorem call_of_panic_unlocked (h : p.panic? a c = some payload) (hl : c.locks = false) :
    (p.call a c).2 = ({ p with armed := none }.call a c).2.withMessage payload.message := by
  rcases locks_or_print h with hlocks | ⟨v, full, rfl⟩
  · rw [hl] at hlocks
    cases hlocks
  · have hquiet : ({ p with armed := none } : State).panic? a (.print v full) = none := by
      rw [panic?, panicking?_of_unarmed rfl]
      rfl
    rw [call_print, call_print, h, hquiet]
    rfl

end State

/-! ### Runs of calls -/

/-- **Panics are contained.**

Make any calls from a fresh process, all on one thread, with any arming in between. A call makes one
log record at most, so that arming a process just before a call, or not, is all there is to choose.
At every moment the books of the table are right, and the message to be had is the text of the
latest panic caught, of no length if there is none, cut to leave room for the zero byte that ends
it.

A call that a panic hits, and no other, answers -128. It has written to no cell and done all of its
work. If it held the lock, then for the rest of the run the table stays as it is and the process
refuses what needs the lock. If it did not, all later calls but those that ask for the message
answer and do what they would have done without the panic. -/
theorem panics_are_contained (a : Allocator) (calls : List Call) :
    let p := (State.fresh.callAll a calls).2
    let text := ((State.fresh.panics a calls).getLast?.map Payload.message).getD ""
    let length := min text.utf8ByteSize 2147483647
    p.table.allocatedBytes = (p.table.liveSlots.map (·.2)).sum ∧
      (∀ c, (p.records a c).length ≤ 1) ∧
      (∀ c, (p.call a c).1.code? = some (-128) ↔ (p.panic? a c).isSome = true) ∧
      (∀ c payload, p.panic? a c = some payload →
        (p.call a c).1.written? = none ∧ (p.call a c).2.table = c.effect a p.table ∧
          (c.locks = true → ∀ later,
            let q := ((p.call a c).2.callAll a later).2
            q.table = (p.call a c).2.table ∧ q.Refuses a) ∧
          (c.locks = false → ∀ later d,
            let q := ((p.call a c).2.callAll a later).2
            let q' := (({ p with armed := none }.call a c).2.callAll a later).2
            (q.call a d).2.table = (q'.call a d).2.table ∧
              ((∀ buffer, d ≠ .lastPanic buffer) → (q.call a d).1 = (q'.call a d).1))) ∧
      p.call a (.lastPanic none) = (.message length none, p) ∧
      p.call a (.lastPanic (some [])) = (.message length (some []), p) ∧
      ∀ buffer, buffer ≠ [] → p.call a (.lastPanic (some buffer)) =
        (.message length (some (text.toUTF8.toList.take (buffer.length - 1) ++
          0 :: buffer.drop (min text.utf8ByteSize (buffer.length - 1) + 1))), p) := by
  intro p text length
  have hp : p.table.Accounts {} := State.accounts_callAll rfl (Table.accounts_fresh {}) a calls
  have hreject : p.table.config.overwrite = .reject := by rw [hp.config_eq]
  have htext : p.lastPanic = text := State.lastPanic_callAll a State.fresh calls
  have hlength : p.lastPanicLength = length := by rw [State.lastPanicLength, htext]
  refine ⟨hp.bytes_eq.trans (Table.sum_liveSlots p.table).symm, ?_, fun c ↦ State.code?_call_iff,
    fun c payload h ↦ ?_, ?_, ?_, ?_⟩
  · exact State.length_records_le hreject a
  · obtain ⟨-, hwritten, table, hstate⟩ := State.call_of_panic h
    refine ⟨hwritten, State.table_call_of_panic hreject h, fun hl later ↦ ?_, fun hl later d ↦ ?_⟩
    · have hpoisoned : (p.call a c).2.poisoned = true := by
        rw [hstate, hl]
        exact Bool.or_true _
      obtain ⟨hlater, htable⟩ := State.callAll_of_poisoned hpoisoned a later
      exact ⟨htable, State.refuses_of_poisoned hlater a⟩
    · intro q q'
      obtain ⟨message, hq⟩ : ∃ message, q = q'.withMessage message := by
        show ∃ message, ((p.call a c).2.callAll a later).2 = _
        rw [State.call_of_panic_unlocked h hl]
        exact State.callAll_withMessage a _ payload.message later
      obtain ⟨⟨message', hstate⟩, hreply⟩ := State.call_withMessage a q' message d
      rw [hq, hstate]
      exact ⟨rfl, hreply⟩
  · rw [← hlength]
    rfl
  · rw [← hlength]
    rfl
  · intro buffer hbuffer
    rw [← hlength, ← htext, ← State.copyLastPanic_eq p hbuffer]
    rfl

/-- A process is armed and creates a slot. The slot is there, with its eight bytes, and never to be
had again; numbers are still printed, and the message is read into three bytes. -/
theorem panic_in_create_poisons :
    let p := (State.fresh.callAll .system [.arm (.text "boom")]).2
    let q := (p.call .system (.create 0 8)).2
    p.panic? .system (.create 0 8) = some (.text "boom") ∧
      (p.call .system (.create 0 8)).1.code? = some (-128) ∧ q.table.allocatedBytes = 8 ∧
      (∀ later,
        let r := (q.callAll .system later).2
        r.table.allocatedBytes = 8 ∧ (r.call .system (.free 0)).1.code? = some (-8) ∧
          (r.call .system (.size 0 true)).1.code? = some (-7) ∧
          r.call .system (.print 5 false) = (.printed .ok (printedLine 5), r)) ∧
      q.call .system (.lastPanic (some [255, 255, 255])) = (.message 4 (some [98, 111, 0]), q) := by
  intro p q
  have hpanic : p.panic? .system (.create 0 8) = some (.text "boom") := rfl
  obtain ⟨-, -, hcode, hcontained, -⟩ := panics_are_contained .system [.arm (.text "boom")]
  obtain ⟨-, -, hlocked, -⟩ := hcontained (.create 0 8) (.text "boom") hpanic
  obtain ⟨-, -, -, -, -, -, hmessage⟩ :=
    panics_are_contained .system [.arm (.text "boom"), .create 0 8]
  refine ⟨hpanic, (hcode (.create 0 8)).2 rfl, rfl, fun later ↦ ?_, ?_⟩
  · obtain ⟨htable, hrefuses⟩ := hlocked rfl later
    exact ⟨congrArg Table.allocatedBytes htable, (hrefuses.locked (.free 0) rfl).1,
      (hrefuses.noCell (.size 0 true) rfl).1, hrefuses.print 5⟩
  · refine (hmessage [255, 255, 255] (by simp)).trans ?_
    have hbytes : "boom".toUTF8.toList.take 2 = [98, 111] := by decide +kernel
    show (Reply.message _ (some ("boom".toUTF8.toList.take 2 ++ _)), q) = _
    rw [hbytes]
    rfl

end Abi

end SlotLang
