import SlotLang.Execution.Body
import SlotLang.Proofs.Isolation
import SlotLang.Proofs.Runs

/-!
# Running a program again

A table that a program has been executed on is as good as a new one. The cleanup at the end leaves
the settings, the empty slots and a counter of zero; all that tells the table from a new one is how
many buffers its slots have released.

`Table.Alike` relates two tables that differ in these generations only. No instruction looks at a
generation, so the relation is kept by each of them, also by one that replaces a buffer and by one
that fails, and along any run:

* `Instr.run_alike` is the step, `runInstrs_alike` the run: results and outputs are the same, and
  the tables stay alike;
* `alike_emptied` is where the relation comes from: whatever a program did to a table, the cleanup
  makes it alike to a new one with the same settings.
-/

namespace SlotLang

/-- The record without the generation in it. -/
def Event.ageless : Event → Event
  | .created slot size _ => .created slot size 0
  | e => e

namespace Table

/-! ### Tables that differ in generations only -/

/-- Two tables that differ in the generations of their slots at most. -/
structure Alike (t t' : Table) : Prop where
  /-- They have the same settings. -/
  config : t.config = t'.config
  /-- They hold the same buffers in the same slots. -/
  data : t.slots.map Slot.data = t'.slots.map Slot.data
  /-- They count the same number of bytes. -/
  allocatedBytes : t.allocatedBytes = t'.allocatedBytes

variable {a : Allocator} {t t' : Table} {config : TableConfig}

section Alike

variable (h : t.Alike t')
include h

theorem Alike.capacity : t.capacity = t'.capacity := by
  simpa [Table.capacity] using congrArg List.length h.data

theorem Alike.data_getElem? (i : Nat) :
    t.slots[i]?.map Slot.data = t'.slots[i]?.map Slot.data := by
  rw [← List.getElem?_map, ← List.getElem?_map, h.data]

/-- A slot is there on both sides or on none, and holds the same. -/
theorem Alike.slots (i : Nat) :
    t.slots[i]? = none ∧ t'.slots[i]? = none ∨
      ∃ s s', t.slots[i]? = some s ∧ t'.slots[i]? = some s' ∧ s.data = s'.data := by
  have hdata := h.data_getElem? i
  rcases hs : t.slots[i]? with - | s <;> rcases hs' : t'.slots[i]? with - | s' <;>
    rw [hs, hs'] at hdata
  · exact .inl ⟨rfl, rfl⟩
  · cases hdata
  · cases hdata
  · exact .inr ⟨s, s', rfl, rfl, Option.some.inj hdata⟩

theorem Alike.bytes (i : Nat) : t.bytes i = t'.bytes i := by
  rcases h.slots i with ⟨hs, hs'⟩ | ⟨s, s', hs, hs', hdata⟩
  · simp only [Table.bytes, Table.slot, hs, hs', h.capacity]
  · simp only [Table.bytes, Table.slot, hs, hs', hdata]

theorem Alike.readInt (i : Nat) : t.readInt i = t'.readInt i := by
  rw [Table.readInt, Table.readInt, h.bytes]

theorem Alike.liveCount : t.liveCount = t'.liveCount := by
  have hcount : ∀ t : Table, t.liveCount = (t.slots.map Slot.data).countP Option.isSome := by
    intro t
    rw [List.countP_map]
    rfl
  rw [hcount, hcount, h.data]

/-- Rewriting a slot in a way that does not look at its generation keeps two tables alike. -/
theorem Alike.rewrite {f : Slot → Slot} {g : Option (List UInt8) → Option (List UInt8)}
    (hf : ∀ s, (f s).data = g s.data) (i : Nat) : (t.rewrite i f).Alike (t'.rewrite i f) where
  config := h.config
  data := by
    refine List.ext_getElem? fun j ↦ ?_
    rw [List.getElem?_map, List.getElem?_map]
    by_cases hij : i = j
    · subst hij
      have hmap : ∀ o : Option Slot, (o.map f).map Slot.data = (o.map Slot.data).map g := by
        rintro (- | s)
        · rfl
        · exact congrArg some (hf s)
      rw [getElem?_slots_rewrite_self, getElem?_slots_rewrite_self, hmap, hmap, h.data_getElem?]
    · rw [getElem?_slots_rewrite_of_ne f hij, getElem?_slots_rewrite_of_ne f hij,
        h.data_getElem?]
  allocatedBytes := h.allocatedBytes

theorem Alike.created (i n old : Nat) : (t.created i n old).Alike (t'.created i n old) := by
  have hrewrite := h.rewrite (f := Slot.renew n) (g := fun _ ↦ some (List.replicate n 0))
    (fun _ ↦ rfl) i
  exact ⟨hrewrite.config, hrewrite.data, by simp only [allocatedBytes_created, h.allocatedBytes]⟩

/-- A creation is refused on both sides for the same reason, or on none. The handle is the only part
of its result that a generation goes into. -/
theorem Alike.create (a : Allocator) (i n : Nat) :
    (t.create a i n).result.map (fun _ ↦ ()) = (t'.create a i n).result.map (fun _ ↦ ()) ∧
      (t.create a i n).table.Alike (t'.create a i n).table ∧
      (t.create a i n).events.map Event.ageless = (t'.create a i n).events.map Event.ageless := by
  rcases h.slots i with ⟨hs, hs'⟩ | ⟨s, s', hs, hs', hdata⟩
  · simp only [Table.create, Table.slot, hs, hs', h.capacity]
    exact ⟨rfl, h, rfl⟩
  · have hlive : s.isLive = s'.isLive := by rw [Slot.isLive, Slot.isLive, hdata]
    have hsize : s.size = s'.size := by simp only [Slot.size, Slot.size?, hdata]
    rw [create_of_getElem? hs, create_of_getElem? hs', hlive, hsize, h.config, h.allocatedBytes]
    split
    · exact ⟨rfl, h, rfl⟩
    · split
      · exact ⟨rfl, h.created i n s'.size, by cases s'.isLive <;> rfl⟩
      · exact ⟨rfl, h, rfl⟩

theorem Alike.editBytes (edit : List UInt8 → List UInt8) (i : Nat) :
    (t.editBytes i edit).result = (t'.editBytes i edit).result ∧
      (t.editBytes i edit).table.Alike (t'.editBytes i edit).table ∧
      (t.editBytes i edit).events = (t'.editBytes i edit).events := by
  have htable : (t.editBytes i edit).table.Alike (t'.editBytes i edit).table := by
    rw [table_editBytes, table_editBytes]
    exact h.rewrite (g := Option.map edit) (fun _ ↦ rfl) i
  refine ⟨?_, htable, ?_⟩ <;> rcases h.slots i with ⟨hs, hs'⟩ | ⟨s, s', hs, hs', hdata⟩
  · simp only [Table.editBytes, Table.slot, hs, hs', h.capacity]
    rfl
  · simp only [Table.editBytes, Table.slot, hs, hs', hdata]
    split <;> rfl
  · simp only [Table.editBytes, Table.slot, hs, hs']
    rfl
  · simp only [Table.editBytes, Table.slot, hs, hs', hdata]
    split <;> rfl

theorem Alike.writeInt (i : Nat) (v : Int32) :
    (t.writeInt i v).result = (t'.writeInt i v).result ∧
      (t.writeInt i v).table.Alike (t'.writeInt i v).table ∧
      (t.writeInt i v).events = (t'.writeInt i v).events := by
  obtain ⟨hresult, htable, hevents⟩ := h.editBytes (overwriteStart (Word.encode v)) i
  rw [Table.writeInt, Table.writeInt, h.bytes]
  split
  · exact ⟨rfl, h, rfl⟩
  · split
    · exact ⟨rfl, h, rfl⟩
    · exact ⟨congrArg (Except.map fun _ ↦ ()) hresult, htable, hevents⟩

end Alike

/-- **A cleanup leaves tables alike**, whatever they held: only their settings and the number of
their slots remain. -/
theorem alike_emptied (hconfig : t.config = t'.config) (hcapacity : t.capacity = t'.capacity) :
    t.emptied.Alike t'.emptied where
  config := hconfig
  data := by
    have hdata : ∀ t : Table, t.emptied.slots.map Slot.data = List.replicate t.capacity none := by
      intro t
      rw [emptied, List.map_map, capacity, ← List.map_const']
      exact List.map_congr_left fun s _ ↦ s.data_release
    rw [hdata, hdata, hcapacity]
  allocatedBytes := rfl

/-- A new table has nothing to clean up. -/
theorem emptied_fresh (config : TableConfig) : (fresh config).emptied = fresh config := by
  simp only [emptied, fresh, List.map_replicate]
  rfl

end Table

/-! ### One instruction -/

variable {a : Allocator} {w : Writer} {t t' : Table} {out : Output} {config : TableConfig}

/-- Two runs that differ in generations at most. -/
structure Ran.Alike {ε : Type} (r r' : Ran ε) : Prop where
  result : r.result = r'.result
  output : r.output = r'.output
  table : r.table.Alike r'.table
  events : r.events.map Event.ageless = r'.events.map Event.ageless

theorem Ran.Alike.andThen {ε : Type} {r r' : Ran ε} {next : Table → Output → Ran ε}
    (h : r.Alike r') (hnext : ∀ out, (next r.table out).Alike (next r'.table out)) :
    (r.andThen next).Alike (r'.andThen next) := by
  rw [Ran.andThen, Ran.andThen, ← h.result, ← h.output]
  split
  · have hrest := hnext r.output
    refine ⟨hrest.result, hrest.output, hrest.table, ?_⟩
    simp only [Ran.after, List.map_append, h.events, hrest.events]
  · exact h

theorem Operand.eval_alike (h : t.Alike t') (op : Operand) : op.eval t = op.eval t' := by
  cases op with
  | const v => rfl
  | load slot => exact h.readInt slot

theorem printOperands_alike (h : t.Alike t') (w : Writer) (out : Output) (args : List Operand) :
    printOperands w t out args = printOperands w t' out args := by
  induction args generalizing out with
  | nil => rfl
  | cons op args ih => simp only [printOperands, op.eval_alike h, ih]

/-- **One instruction** answers and prints the same on tables that are alike, and keeps them so,
whether it succeeds or fails. -/
theorem Instr.run_alike (h : t.Alike t') (a : Allocator) (w : Writer) (out : Output) (i : Instr) :
    (i.run a w t out).Alike (i.run a w t' out) := by
  cases i with
  | alloc slot size =>
    obtain ⟨hresult, htable, hevents⟩ := h.create a slot size
    refine ⟨?_, rfl, htable, hevents⟩
    have hunit : ∀ r : Except TableError Handle, (r.mapError RuntimeError.table).map (fun _ ↦ ()) =
        (r.map fun _ ↦ ()).mapError RuntimeError.table := by
      rintro (e | handle) <;> rfl
    simp only [Instr.run, Ran.ofStep, hunit, hresult]
  | store slot value =>
    simp only [Instr.run, value.eval_alike h]
    split
    · exact ⟨rfl, rfl, h, rfl⟩
    · rename_i v _
      obtain ⟨hresult, htable, hevents⟩ := h.writeInt slot v
      exact ⟨by simp only [Ran.ofStep, hresult], rfl, htable, by simp only [Ran.ofStep, hevents]⟩
  | call builtin args =>
    cases builtin
    simp only [Instr.run, printOperands_alike h]
    exact ⟨rfl, rfl, h, rfl⟩
  | eval value =>
    simp only [Instr.run, value.eval_alike h]
    split <;> exact ⟨rfl, rfl, h, rfl⟩

/-! ### Runs and executions -/

/-- **A run** of any instructions. -/
theorem runInstrs_alike (h : t.Alike t') (a : Allocator) (w : Writer) (is : List Instr)
    (out : Output) : (runInstrs a w is t out).Alike (runInstrs a w is t' out) := by
  induction is generalizing t t' out with
  | nil => exact ⟨rfl, rfl, h, rfl⟩
  | cons i is ih =>
    have hi := i.run_alike h a w out
    exact hi.andThen fun out ↦ ih hi.table out

/-- Two reports that differ in generations at most. -/
structure Report.Alike {ε : Type} (r r' : Report ε) : Prop where
  result : r.result = r'.result
  released : r.released = r'.released
  output : r.output = r'.output
  table : r.table.Alike r'.table
  events : r.events.map Event.ageless = r'.events.map Event.ageless

/-- A body that runs alike on two tables is executed alike on them. -/
theorem execute_alike {ε : Type} {body : Table → Output → Ran ε}
    (h : (body t {}).Alike (body t' {})) (w : Writer) (message : ε → String) :
    (execute w message body t).Alike (execute w message body t') where
  result := h.result
  released := h.table.liveCount
  output := h.output
  table := Table.alike_emptied h.table.config h.table.capacity
  events := by
    simp only [execute, Table.cleanupEvents, List.map_append, h.events, h.result, h.output,
      h.table.liveCount]

/-- What executing an instruction list `n` times on one table gives, each time with a new output. -/
def executions (a : Allocator) (w : Writer) (instrs : List Instr) :
    Nat → Table → List (Report RuntimeError)
  | 0, _ => []
  | n + 1, t =>
    let report := executeInstrs a w instrs t
    report :: executions a w instrs n report.table

theorem length_executions (a : Allocator) (w : Writer) (instrs : List Instr) (n : Nat)
    (t : Table) : (executions a w instrs n t).length = n := by
  induction n generalizing t with
  | zero => rfl
  | succ n ih => exact congrArg Nat.succ (ih _)

/-- **Executions in a row** on a table that is alike to a new one: each leaves such a table to the
next. -/
theorem executions_alike (h : t.Alike (.fresh config)) (a : Allocator) (w : Writer)
    (instrs : List Instr) (n : Nat) :
    ∀ r ∈ executions a w instrs n t, r.Alike (executeInstrs a w instrs (.fresh config)) := by
  induction n generalizing t with
  | zero => exact fun r hr ↦ absurd hr List.not_mem_nil
  | succ n ih =>
    have hrun := runInstrs_alike h a w instrs {}
    have hnext : (executeInstrs a w instrs t).table.Alike (.fresh config) := by
      have hsettings := (Table.reaches_runInstrs a w instrs (.fresh config) {}).settings
      rw [← Table.emptied_fresh config]
      exact Table.alike_emptied (hrun.table.config.trans hsettings.1)
        (hrun.table.capacity.trans hsettings.2)
    intro r hr
    rcases List.mem_cons.1 hr with rfl | hr
    · exact execute_alike hrun w RuntimeError.message
    · exact ih hnext r hr

/-! ### Bodies work through the operations of the table -/

namespace Table

theorem reaches_declareSlots (a : Allocator) (index count : Nat) (t : Table) :
    t.Reaches a (declareSlots a index count t).table := by
  induction count generalizing index t with
  | zero => exact reaches_refl a t
  | succ count ih =>
    have hmade := reaches_create a t index ValueType.int.slotSize
    rw [declareSlots]
    split
    · exact hmade
    · exact hmade.trans (ih _ _)

theorem reaches_directCall (a : Allocator) (w : Writer) (t : Table) (out : Output)
    (c : DirectCall) : t.Reaches a (c.run a w t out).table := by
  cases c with
  | create index size => exact reaches_create a t index size
  | free index => exact (Change.free index).reaches
  | write index value => exact reaches_writeInt a t index value
  | print index =>
    rw [DirectCall.run]
    split <;> exact reaches_refl a t
  | fail message => exact reaches_refl a t

theorem reaches_runCalls (a : Allocator) (w : Writer) (cs : List DirectCall) (t : Table)
    (out : Output) : t.Reaches a (runCalls a w cs t out).table := by
  induction cs generalizing t out with
  | nil => exact reaches_refl a t
  | cons c cs ih =>
    have hhead := reaches_directCall a w t out c
    rw [runCalls, Ran.andThen]
    split
    · exact hhead.trans (ih _ _)
    · exact hhead

/-- Whatever a body does to a table, it does by what can happen to a table. -/
theorem reaches_body (a : Allocator) (w : Writer) (b : Body) (t : Table) (out : Output) :
    t.Reaches a (b.run a w t out).table := by
  cases b with
  | leaky count | failing count => exact reaches_declareSlots a 0 count t
  | calls cs => exact reaches_runCalls a w cs t out
  | instrs is => exact reaches_runInstrs a w is t out

end Table

/-- **Executing again is as good as executing on a new table.**

Take a table at any point of its life, and execute any body on it that works through the operations
of the table, with any writer, whether the body succeeds or fails. From then on an instruction list
can be executed on the table as often as one likes: each time, with a writer of the same kind, it
ends in the same way, with the same exit code, leaves the same text after the same number of calls,
and has as many slots released, as on a new table with the same settings. The log and the table
afterwards are the same too, up to the generations of the slots. This holds with every writer, also
with one that refuses a certain piece at a certain call, and every allocator. -/
theorem reexecution_is_as_good_as_new {start : Table} (hstart : Table.ofConfig config = .ok start)
    (hreach : start.Reaches a t) {ε : Type} {body : Table → Output → Ran ε}
    (hbody : t.Reaches a (body t {}).table) (w' : Writer) (message : ε → String) (w : Writer)
    (instrs : List Instr) (n : Nat) :
    let used := (execute w' message body t).table
    let new := executeInstrs a w instrs start
    (executions a w instrs n used).length = n ∧
      ∀ r ∈ executions a w instrs n used,
        r.result = new.result ∧ r.exitCode = new.exitCode ∧ r.output = new.output ∧
          r.released = new.released ∧
          r.events.map Event.ageless = new.events.map Event.ageless ∧ r.table.Alike new.table := by
  intro used new
  obtain rfl := Table.ofConfig_eq_ok hstart
  have hused : used.Alike (.fresh config) := by
    have hran : (Table.fresh config).Reaches a (body t {}).table := hreach.trans hbody
    have hsettings := hran.settings
    rw [← Table.emptied_fresh config]
    exact Table.alike_emptied hsettings.1 hsettings.2
  refine ⟨length_executions a w instrs n used, fun r hr ↦ ?_⟩
  have h : r.Alike new := executions_alike hused a w instrs n r hr
  have hcode : r.exitCode = new.exitCode := by
    rw [Report.exitCode, Report.exitCode, Report.isOk, Report.isOk, h.result]
  exact ⟨h.result, hcode, h.output, h.released, h.events, h.table⟩

/-- A table that has replaced a buffer, and then a body that fails in the middle. The three
executions behind it each replace a buffer themselves, print two numbers and run into the limit, as
on a new table; the generations that the first of them meets are not those of a new table. -/
theorem failed_body_leaves_no_trace :
    let config : TableConfig := { capacity := 2, overwrite := .replace, memoryLimit := some 12 }
    let t := (Table.fresh config).actAll .system
      [.operation (.create 0 8), .operation (.create 0 4), .operation (.poke 0 [9, 9])]
    let used := ((Body.failing 2).execute .system .buffer t).table
    let instrs : List Instr := [.alloc 0 8, .store 0 (.const 5), .alloc 0 4,
      .call .print [.load 0, .const 7], .alloc 1 9]
    Table.ofConfig config = .ok (.fresh config) ∧ (Table.fresh config).Reaches .system t ∧
      t.Reaches .system ((Body.failing 2).run .system .buffer t {}).table ∧
      used.slots.map Slot.generation = [3, 0] ∧
      ∀ r ∈ executions .system (.limited 2) instrs 3 used,
        r.result = .error (.table (.outOfMemory 9)) ∧ r.output = ⟨"0\n7\n", 2⟩ ∧
          r.released = 1 := by
  intro config t used instrs
  have hstart : Table.ofConfig config = .ok (.fresh config) := rfl
  have hreach : (Table.fresh config).Reaches .system t := Table.reaches_actAll _ _ _
  have hbody := Table.reaches_body .system .buffer (.failing 2) t {}
  have hnew : (executeInstrs .system (.limited 2) instrs (.fresh config)).result =
        .error (.table (.outOfMemory 9)) ∧
      (executeInstrs .system (.limited 2) instrs (.fresh config)).output = ⟨"0\n7\n", 2⟩ ∧
      (executeInstrs .system (.limited 2) instrs (.fresh config)).released = 1 := by
    decide +kernel
  refine ⟨hstart, hreach, hbody, by decide +kernel, fun r hr ↦ ?_⟩
  obtain ⟨hresult, -, houtput, hreleased, -, -⟩ := (reexecution_is_as_good_as_new hstart
    hreach hbody .buffer BodyError.message (.limited 2) instrs 3).2 r hr
  exact ⟨hresult.trans hnew.1, houtput.trans hnew.2.1, hreleased.trans hnew.2.2⟩

end SlotLang
