import Mathlib
import SlotLang.Program.Run
import SlotLang.Proofs.Operations

/-!
# The byte counter is right

A table keeps the number of bytes its buffers take as a counter, which four operations move each in
its own way: creating subtracts what it replaces and adds what it makes, freeing subtracts, and
cleaning up just writes zero. The truth is the sum of the sizes of the live slots.

`Table.Change` lists all that can happen to a table in one step, and `Table.Reaches` the tables that
come of any number of them. Every operation, every instruction and every execution is a sequence of
changes, whether it succeeds or fails (`reaches_perform`, `reaches_runInstrs`, `reaches_act`), so an
invariant is shown for the four changes and holds along every history.

* `Change.accounts` is the step: the settings and the number of slots stay, the counter is the sum,
  and it keeps within the limit.
* `Accounts.size_le` and `Accounts.retained_add_lt` say what the counter's arithmetic rests on: what
  is subtracted was counted, and what is added fits a 64-bit word.
-/

namespace SlotLang

/-! ### What can happen to a table -/

@[simp]
theorem length_overwriteStart (bytes buffer : List UInt8) :
    (overwriteStart bytes buffer).length = buffer.length := by
  simp only [overwriteStart, List.length_append, List.length_take, List.length_drop]
  omega

theorem GuardStep.length_edit (s : GuardStep) (b : List UInt8) :
    (s.edit b).length = b.length := by
  cases s with
  | writeInt v => exact Table.length_storeInt v b
  | poke bytes => exact length_overwriteStart bytes b
  | readInt | bytes | length | index | handle => rfl

theorem GuardStep.length_editAll (ss : List GuardStep) (b : List UInt8) :
    (GuardStep.editAll ss b).length = b.length := by
  induction ss generalizing b with
  | nil => rfl
  | cons s ss ih => exact (ih (s.edit b)).trans (s.length_edit b)

namespace Table

/-- One step of a table's life. -/
inductive Change (a : Allocator) (t : Table) : Table → Prop
  /-- A slot gets a new buffer. -/
  | create {i n : Nat} {h : Handle} (hr : (t.create a i n).result = .ok h) :
      Change a t (t.create a i n).table
  /-- A buffer is written to, and keeps its length. -/
  | edit (i : Nat) {f : List UInt8 → List UInt8} (hf : ∀ b, (f b).length = b.length) :
      Change a t (t.rewrite i (Slot.edit f))
  /-- A slot is freed. -/
  | free (i : Nat) : Change a t (t.free i).table
  /-- All slots are released. -/
  | empty : Change a t t.emptied

/-- The tables that come of a table by any number of changes. -/
def Reaches (a : Allocator) : Table → Table → Prop := Relation.ReflTransGen (Change a)

variable {a : Allocator} {t t' : Table} {i n : Nat} {h : Handle}

theorem Change.reaches (hc : Change a t t') : t.Reaches a t' := .single hc

theorem reaches_refl (a : Allocator) (t : Table) : t.Reaches a t := .refl

theorem reaches_create (a : Allocator) (t : Table) (i n : Nat) :
    t.Reaches a (t.create a i n).table := by
  rcases hr : (t.create a i n).result with e | h
  · rw [(create_of_error hr).1]
    exact reaches_refl a t
  · exact (Change.create hr).reaches

theorem reaches_poke (a : Allocator) (t : Table) (i : Nat) (bytes : List UInt8) :
    t.Reaches a (t.poke i bytes).table := by
  rw [poke, table_editBytes]
  exact (Change.edit i (length_overwriteStart bytes)).reaches

theorem reaches_pokeHandle (a : Allocator) (t : Table) (h : Handle) (bytes : List UInt8) :
    t.Reaches a (t.pokeHandle h bytes).table := by
  rw [table_pokeHandle]
  split
  · exact (Change.edit h.index (length_overwriteStart bytes)).reaches
  · exact reaches_refl a t

theorem reaches_writeInt (a : Allocator) (t : Table) (i : Nat) (v : Int32) :
    t.Reaches a (t.writeInt i v).table := by
  rw [table_writeInt]
  exact (Change.edit i (length_storeInt v)).reaches

theorem reaches_release (a : Allocator) (t : Table) (h : Handle) :
    t.Reaches a (t.release h).table := by
  by_cases hl : t.isLive h = true
  · have hfree : (t.release h).table = (t.free h.index).table := by
      simp only [release, hl, if_true]
    rw [hfree]
    exact (Change.free h.index).reaches
  · have hsame : (t.release h).table = t := by
      simp only [release, hl]
      cases t.slot h.index <;> rfl
    rw [hsame]
    exact reaches_refl a t

/-- A scope is a creation, an edit and an end. -/
theorem reaches_scoped (a : Allocator) (t : Table) (i n : Nat) (steps : List GuardStep)
    (ending : GuardEnd) : t.Reaches a (t.scoped a i n steps ending).table := by
  rcases hr : (t.create a i n).result with e | h
  · rw [(table_scoped_of_error hr steps ending).1]
    exact reaches_refl a t
  · have hmade : t.Reaches a (t.create a i n).table := reaches_create a t i n
    have hrun : (t.create a i n).table.Reaches a
        (Guard.run ⟨(t.create a i n).table, h⟩ steps).2 := by
      rw [Guard.table_run (isLive_of_create hr).1]
      exact (Change.edit _ (GuardStep.length_editAll steps)).reaches
    have hend : (Guard.run ⟨(t.create a i n).table, h⟩ steps).2.Reaches a
        (t.scoped a i n steps ending).table := by
      simp only [Table.scoped, hr]
      cases ending with
      | keep => exact reaches_refl a _
      | release | drop => exact reaches_release a _ h
    exact hmade.trans (hrun.trans hend)

/-- **Every operation is a sequence of changes**, one that fails included. -/
theorem reaches_perform (a : Allocator) (t : Table) (op : Operation) :
    t.Reaches a (t.perform a op).table := by
  cases op with
  | create index size => exact reaches_create a t index size
  | free index => exact (Change.free index).reaches
  | release h => exact reaches_release a t h
  | poke index bytes => exact reaches_poke a t index bytes
  | pokeHandle h bytes => exact reaches_pokeHandle a t h bytes
  | writeInt index value => exact reaches_writeInt a t index value
  | cleanup => exact Change.empty.reaches
  | «scoped» index size steps ending => exact reaches_scoped a t index size steps ending
  | handle | isInitialized | isLive | sizeOf | bytes | get | readInt | capacity | config
  | liveSlots => exact reaches_refl a t

/-! ### Programs -/

theorem reaches_instr (a : Allocator) (w : Writer) (t : Table) (out : Output) (i : Instr) :
    t.Reaches a (i.run a w t out).table := by
  cases i with
  | alloc slot size => exact reaches_create a t slot size
  | store slot value =>
    rw [Instr.run]
    split
    · exact reaches_refl a t
    · exact reaches_writeInt a t slot _
  | call builtin args =>
    cases builtin
    exact reaches_refl a t
  | eval value =>
    rw [Instr.run]
    split <;> exact reaches_refl a t

/-- **So is a run of any instructions**, wherever it stops. -/
theorem reaches_runInstrs (a : Allocator) (w : Writer) (is : List Instr) (t : Table)
    (out : Output) : t.Reaches a (runInstrs a w is t out).table := by
  induction is generalizing t out with
  | nil => exact reaches_refl a t
  | cons i is ih =>
    have hhead : t.Reaches a (i.run a w t out).table := reaches_instr a w t out i
    rw [runInstrs, Ran.andThen]
    split
    · exact hhead.trans (ih (i.run a w t out).table (i.run a w t out).output)
    · exact hhead

end Table

/-- Something done to a table: one operation, or a list of instructions executed to its end. -/
inductive Act where
  | operation (op : Operation)
  | execute (writer : Writer) (instrs : List Instr)

namespace Table

variable {a : Allocator} {t t' : Table} {i n : Nat} {s : Slot} {h : Handle}

/-- The table after something was done to it. -/
def act (a : Allocator) (t : Table) : Act → Table
  | .operation op => (t.perform a op).table
  | .execute w instrs => (executeInstrs a w instrs t).table

/-- The table after a history. -/
def actAll (a : Allocator) (t : Table) (history : List Act) : Table := history.foldl (act a) t

theorem reaches_act (a : Allocator) (t : Table) (x : Act) : t.Reaches a (t.act a x) := by
  cases x with
  | operation op => exact reaches_perform a t op
  | execute w instrs =>
    have hrun : t.Reaches a (runInstrs a w instrs t {}).table := reaches_runInstrs a w instrs t {}
    exact hrun.trans Change.empty.reaches

theorem reaches_actAll (a : Allocator) (t : Table) (history : List Act) :
    t.Reaches a (t.actAll a history) := by
  induction history generalizing t with
  | nil => exact reaches_refl a t
  | cons x history ih => exact (reaches_act a t x).trans (ih (t.act a x))

/-! ### The live slots -/

/-- The sizes that the live slots report add up to the sizes of all slots: an empty one takes no
bytes. -/
theorem sum_liveSlots (t : Table) :
    (t.liveSlots.map (·.2)).sum = (t.slots.map Slot.size).sum := by
  have hfrom : ∀ (slots : List Slot) (k : Nat),
      (((slots.zipIdx k).filterMap fun x ↦ x.1.size?.map fun n ↦ (x.2, n)).map (·.2)).sum =
        (slots.map Slot.size).sum := by
    intro slots
    induction slots with
    | nil => intro k; rfl
    | cons s slots ih =>
      intro k
      rcases hs : s.size? with - | n <;> simp [List.zipIdx_cons, Slot.size, hs, ih (k + 1)]
  exact hfrom t.slots 0

theorem length_liveSlots (t : Table) : t.liveSlots.length = t.liveCount := by
  have hlive : ∀ x : Slot × Nat,
      (x.1.size?.map fun n ↦ (x.2, n)).isSome = x.1.isLive := by
    intro x
    simp [Slot.size?, Slot.isLive]
  calc t.liveSlots.length
      = t.slots.zipIdx.countP (fun x ↦ x.1.isLive) := by
        rw [liveSlots, List.length_filterMap_eq_countP]
        exact List.countP_congr fun x _ ↦ by rw [hlive x]
    _ = (t.slots.zipIdx.map Prod.fst).countP Slot.isLive := by rw [List.countP_map]; rfl
    _ = t.liveCount := by rw [List.zipIdx_map_fst, liveCount]

/-- The live slots are listed from the lowest index up. -/
theorem pairwise_liveSlots (t : Table) : (t.liveSlots.map (·.1)).Pairwise (· < ·) := by
  have hindex : t.slots.zipIdx.Pairwise fun x y ↦ x.2 < y.2 := by
    rw [← List.pairwise_map (f := Prod.snd) (R := (· < ·)), List.zipIdx_map_snd]
    exact List.pairwise_lt_range'
  rw [List.pairwise_map]
  refine hindex.filterMap _ ?_
  intro x y hlt b hb b' hb'
  obtain ⟨n, -, rfl⟩ := Option.map_eq_some_iff.1 hb
  obtain ⟨n', -, rfl⟩ := Option.map_eq_some_iff.1 hb'
  exact hlt

theorem lt_of_mem_liveSlots {x : Nat × Nat} (hx : x ∈ t.liveSlots) : x.1 < t.slots.length := by
  obtain ⟨y, hy, hyx⟩ := List.mem_filterMap.1 hx
  obtain ⟨n, -, rfl⟩ := Option.map_eq_some_iff.1 hyx
  exact List.snd_lt_of_mem_zipIdx hy

/-! ### Sums of sizes -/

/-- The slots around one that is rewritten. -/
theorem slots_rewrite_eq (hs : t.slots[i]? = some s) (f : Slot → Slot) :
    ∃ l r : List Slot, l.length = i ∧ t.slots = l ++ s :: r ∧
      (t.rewrite i f).slots = l ++ f s :: r := by
  obtain ⟨hi, rfl⟩ := List.getElem?_eq_some_iff.1 hs
  refine ⟨t.slots.take i, t.slots.drop (i + 1), List.length_take_of_le hi.le, ?_, ?_⟩
  · rw [← List.drop_eq_getElem_cons hi, List.take_append_drop]
  · exact List.modify_eq_take_cons_drop hi

/-- Rewriting a slot moves the sum by the difference of its sizes. -/
theorem sum_size_rewrite (hs : t.slots[i]? = some s) (f : Slot → Slot) :
    ((t.rewrite i f).slots.map Slot.size).sum + s.size =
      (t.slots.map Slot.size).sum + (f s).size := by
  obtain ⟨l, r, -, hold, hnew⟩ := slots_rewrite_eq hs f
  simp only [hold, hnew, List.map_append, List.map_cons, List.sum_append, List.sum_cons]
  omega

theorem size_le_sum (hs : t.slots[i]? = some s) : s.size ≤ (t.slots.map Slot.size).sum :=
  List.le_sum_of_mem (List.mem_map_of_mem (List.mem_of_getElem? hs))

theorem size_edit {f : List UInt8 → List UInt8} (hf : ∀ b, (f b).length = b.length) (s : Slot) :
    (s.edit f).size = s.size := by
  rcases s with ⟨_ | b, _⟩
  · rfl
  · exact hf b

@[simp]
theorem length_slots_rewrite (f : Slot → Slot) :
    (t.rewrite i f).slots.length = t.slots.length :=
  List.length_modify ..

/-- Writing to buffers in place leaves the sum as it is. -/
theorem sum_size_edit {f : List UInt8 → List UInt8} (hf : ∀ b, (f b).length = b.length) :
    ((t.rewrite i (Slot.edit f)).slots.map Slot.size).sum = (t.slots.map Slot.size).sum := by
  rcases hs : t.slots[i]? with - | s
  · rw [rewrite_eq_self (by simp [hs])]
  · have hmove := sum_size_rewrite hs (Slot.edit f)
    rw [size_edit hf] at hmove
    omega

theorem sum_size_emptied (t : Table) : (t.emptied.slots.map Slot.size).sum = 0 := by
  have hzero : t.emptied.slots.map Slot.size = t.slots.map fun _ ↦ 0 := by
    simp [emptied, Function.comp_def]
  rw [hzero]
  simp

/-! ### The invariant -/

/-- A table with these settings whose books are right. -/
structure Accounts (config : TableConfig) (t : Table) : Prop where
  /-- The settings are those it was made with. -/
  config_eq : t.config = config
  /-- It has the slots it was made with. -/
  length_eq : t.slots.length = config.capacity
  /-- The counter is the sum of the sizes of its slots. -/
  bytes_eq : t.allocatedBytes = (t.slots.map Slot.size).sum
  /-- The counter keeps within the limit. -/
  le_limit : ∀ limit, config.memoryLimit = some limit → t.allocatedBytes ≤ limit

variable {config : TableConfig}

theorem accounts_fresh (config : TableConfig) : (fresh config).Accounts config where
  config_eq := rfl
  length_eq := List.length_replicate
  bytes_eq := by
    have hsize : ({} : Slot).size = 0 := rfl
    simp [fresh, hsize]
  le_limit limit _ := Nat.zero_le limit

/-- Of a table whose books are right, the slots are all there is to know. -/
theorem Accounts.eq_of_slots (ht : t.Accounts config) (ht' : t'.Accounts config)
    (h : t.slots = t'.slots) : t = t' := by
  have hconfig : t.config = t'.config := ht.config_eq.trans ht'.config_eq.symm
  have hbytes : t.allocatedBytes = t'.allocatedBytes := by rw [ht.bytes_eq, ht'.bytes_eq, h]
  rcases t with ⟨_, _, _⟩
  rcases t' with ⟨_, _, _⟩
  obtain rfl := hconfig
  obtain rfl := h
  obtain rfl := hbytes
  rfl

/-- What is subtracted from the counter was counted. -/
theorem Accounts.size_le (ht : t.Accounts config) (hs : t.slots[i]? = some s) :
    s.size ≤ t.allocatedBytes := by
  rw [ht.bytes_eq]
  exact size_le_sum hs

/-- A creation succeeds only within the limit and with the allocator's consent. -/
theorem memory_of_create (hs : t.slots[i]? = some s) (hr : (t.create a i n).result = .ok h) :
    t.config.admits (t.allocatedBytes - s.size + n) = true ∧
      a.grants t.allocatedBytes n = true := by
  rw [create_of_getElem? hs] at hr
  split at hr
  · cases hr
  · split at hr
    · assumption
    · cases hr

theorem Accounts.create (ht : t.Accounts config) (hr : (t.create a i n).result = .ok h) :
    (t.create a i n).table.Accounts config := by
  obtain ⟨s, hs, -, -, htable⟩ := create_of_ok hr
  obtain ⟨hadmits, -⟩ := memory_of_create hs hr
  have hsize := ht.size_le hs
  have hmove := sum_size_rewrite hs (Slot.renew n)
  have hrenew : (s.renew n).size = n := Slot.size_install s.release n
  rw [htable]
  refine ⟨ht.config_eq, (length_slots_rewrite _).trans ht.length_eq, ?_, ?_⟩
  · show t.allocatedBytes - s.size + n = ((t.rewrite i (Slot.renew n)).slots.map Slot.size).sum
    rw [hrenew, ← ht.bytes_eq] at hmove
    omega
  · intro limit hlimit
    rw [ht.config_eq, TableConfig.admits, hlimit] at hadmits
    exact of_decide_eq_true hadmits

theorem Accounts.edit (ht : t.Accounts config) {f : List UInt8 → List UInt8}
    (hf : ∀ b, (f b).length = b.length) : (t.rewrite i (Slot.edit f)).Accounts config where
  config_eq := ht.config_eq
  length_eq := (length_slots_rewrite _).trans ht.length_eq
  bytes_eq := by rw [sum_size_edit hf]; exact ht.bytes_eq
  le_limit := ht.le_limit

/-- Freeing takes the size of the slot off the counter; an empty slot has none. -/
theorem allocatedBytes_free (hs : t.slots[i]? = some s) :
    (t.free i).table.allocatedBytes = t.allocatedBytes - s.size := by
  by_cases hlive : s.isLive = true
  · simp only [free, slot, hs, hlive, if_true]
  · have hsize : s.size = 0 := by
      rw [Bool.not_eq_true] at hlive
      rw [← Slot.release_of_not_isLive hlive, Slot.size_release]
    simp [free, slot, hs, hlive, hsize]

theorem config_free (t : Table) (i : Nat) : (t.free i).table.config = t.config := by
  rw [free]
  split
  · rfl
  · split <;> rfl

theorem Accounts.free (ht : t.Accounts config) (i : Nat) : (t.free i).table.Accounts config := by
  rcases hs : t.slots[i]? with - | s
  · have hsame : (t.free i).table = t := by
      simp only [Table.free, slot, hs]
      rfl
    rwa [hsame]
  · have hsize := ht.size_le hs
    have hmove := sum_size_rewrite hs Slot.release
    have hbytes := allocatedBytes_free hs
    rw [Slot.size_release, ← ht.bytes_eq] at hmove
    refine ⟨(config_free t i).trans ht.config_eq, ?_, ?_, ?_⟩
    · rw [slots_free, length_slots_rewrite, ht.length_eq]
    · rw [hbytes, slots_free]
      omega
    · intro limit hlimit
      rw [hbytes]
      exact (Nat.sub_le _ _).trans (ht.le_limit limit hlimit)

/-- Cleaning up writes zero, and zero is right. -/
theorem Accounts.emptied (ht : t.Accounts config) : t.emptied.Accounts config where
  config_eq := ht.config_eq
  length_eq := (List.length_map _).trans ht.length_eq
  bytes_eq := (sum_size_emptied t).symm
  le_limit limit _ := Nat.zero_le limit

/-- **One change keeps the books right.** -/
theorem Change.accounts (hc : Change a t t') (ht : t.Accounts config) : t'.Accounts config := by
  cases hc with
  | create hr => exact ht.create hr
  | edit i hf => exact ht.edit hf
  | free i => exact ht.free i
  | empty => exact ht.emptied

/-- **So does a life of changes.** -/
theorem Reaches.accounts (hr : t.Reaches a t') (ht : t.Accounts config) : t'.Accounts config := by
  induction hr with
  | refl => exact ht
  | tail _ hc ih => exact hc.accounts ih

/-! ### The counter's arithmetic -/

/-- What a successful creation writes into the counter fits a 64-bit word: under a limit because the
limit is one, and otherwise because the allocator never lets that many bytes be live at once. -/
theorem Accounts.retained_add_lt (ht : t.Accounts config)
    (hlimit : ∀ limit, config.memoryLimit = some limit → limit < UInt64.size)
    (hgrants : config.memoryLimit = none →
      ∀ inUse size, a.grants inUse size = true → inUse + size < UInt64.size)
    (hs : t.slots[i]? = some s) (hr : (t.create a i n).result = .ok h) :
    t.allocatedBytes - s.size + n < UInt64.size := by
  obtain ⟨hadmits, hgrant⟩ := memory_of_create hs hr
  rw [ht.config_eq, TableConfig.admits] at hadmits
  rcases hl : config.memoryLimit with - | limit
  · have hlive := hgrants hl t.allocatedBytes n hgrant
    omega
  · rw [hl] at hadmits
    have hle : t.allocatedBytes - s.size + n ≤ limit := of_decide_eq_true hadmits
    exact hle.trans_lt (hlimit limit hl)

/-! ### Making a table -/

/-- A table is made if the settings are sound and there is memory for the slots. -/
theorem ofConfig_eq_ok_iff {start : Table} :
    ofConfig config a = .ok start ↔
      (0 < config.capacity ∧ config.capacity ≤ TableConfig.maxCapacity) ∧
        a.grants 0 (config.capacity * Slot.width) = true ∧ start = fresh config := by
  rw [← TableConfig.validate_eq_ok_iff, ofConfig]
  rcases config.validate with e | ⟨⟩
  · simp
  · rcases a.grants 0 (config.capacity * Slot.width) with - | - <;> simp [eq_comm]

/-- It is made in one way, whatever the allocator. -/
theorem ofConfig_eq_ok {start : Table} (hstart : ofConfig config a = .ok start) :
    start = fresh config :=
  (ofConfig_eq_ok_iff.1 hstart).2.2

/-- The system has memory for the slots of all sound settings, so a table that any allocator lets be
made is one that the system makes. -/
theorem ofConfig_system_of_ok {start : Table} (hstart : ofConfig config a = .ok start) :
    ofConfig config = .ok start := by
  obtain ⟨hsound, -, rfl⟩ := ofConfig_eq_ok_iff.1 hstart
  refine ofConfig_eq_ok_iff.2 ⟨hsound, decide_eq_true ?_, rfl⟩
  have hle := hsound.2
  simp only [Slot.width, TableConfig.maxCapacity] at hle ⊢
  omega

/-! ### Every moment of its life -/

/-- **The books of a table are right at every moment of its life.**

Make a table, let any history of operations and executions follow, and then any further
instructions, so that the moments inside an execution count too; those inside a scope are the ends
of scopes that are kept. Settings and slots are those it was made with. The counter is the sum of
what the live slots report, their number is right, they come in the order of their indices, and the
limit is kept. So no subtraction from the counter goes below zero, and no sum written into it is too
large for 64 bits: not under a limit, which is such a word itself, and not without one if the
allocator never has 2⁶⁴ bytes live at once. -/
theorem allocatedBytes_counts_live_bytes {start : Table} (hstart : ofConfig config = .ok start)
    (a : Allocator) (history : List Act) (w : Writer) (instrs : List Instr) (out : Output) :
    let t := (runInstrs a w instrs (start.actAll a history) out).table
    t.config = config ∧ t.slots.length = config.capacity ∧
      t.allocatedBytes = (t.liveSlots.map (·.2)).sum ∧
      t.liveCount = t.liveSlots.length ∧
      (t.liveSlots.map (·.1)).Pairwise (· < ·) ∧
      (∀ x ∈ t.liveSlots, x.1 < config.capacity) ∧
      (∀ limit, config.memoryLimit = some limit → t.allocatedBytes ≤ limit) ∧
      (∀ (i : Nat) (s : Slot), t.slots[i]? = some s → s.size ≤ t.allocatedBytes) ∧
      ((∀ limit, config.memoryLimit = some limit → limit < UInt64.size) →
        (config.memoryLimit = none →
          ∀ inUse size, a.grants inUse size = true → inUse + size < UInt64.size) →
        ∀ (i n : Nat) (s : Slot) (h : Handle), t.slots[i]? = some s →
          (t.create a i n).result = .ok h →
          t.allocatedBytes - s.size + n < UInt64.size) := by
  intro t
  have hreach : start.Reaches a t :=
    (reaches_actAll a start history).trans (reaches_runInstrs a w instrs _ out)
  have ht : t.Accounts config := by
    refine hreach.accounts ?_
    rw [ofConfig_eq_ok hstart]
    exact accounts_fresh config
  refine ⟨ht.config_eq, ht.length_eq, ht.bytes_eq.trans (sum_liveSlots t).symm,
    (length_liveSlots t).symm, pairwise_liveSlots t, ?_, ht.le_limit, fun i s ↦ ht.size_le, ?_⟩
  · intro x hx
    rw [← ht.length_eq]
    exact lt_of_mem_liveSlots hx
  · intro hlimit hgrants i n s h hs hr
    exact ht.retained_add_lt hlimit hgrants hs hr

end Table

/-- An allocator that has `total` bytes to give out. -/
def Allocator.ofTotal (total : Nat) : Allocator := ⟨fun inUse size ↦ inUse + size ≤ total⟩

namespace Table

/-- A slot replaced by a shorter buffer, a creation that is refused, and a program stopped before
its end: twelve bytes are counted, and twelve are there. -/
theorem replaced_slot_is_counted_once :
    ofConfig { capacity := 2, overwrite := .replace } =
        .ok (fresh { capacity := 2, overwrite := .replace }) ∧
      let t' := (fresh { capacity := 2, overwrite := .replace }).actAll (.ofTotal 100)
        [.operation (.create 0 8), .operation (.create 0 4), .operation (.create 1 200)]
      let t := (runInstrs (.ofTotal 100) .buffer [.alloc 1 8, .store 1 (.load 0)] t' {}).table
      t.liveSlots = [(0, 4), (1, 8)] ∧ t.allocatedBytes = ([4, 8] : List Nat).sum ∧
        ∀ n h, (t.create (.ofTotal 100) 0 n).result = .ok h → 12 - 4 + n < UInt64.size := by
  have hstart : ofConfig { capacity := 2, overwrite := .replace } =
      .ok (fresh { capacity := 2, overwrite := .replace }) := rfl
  obtain ⟨-, -, hbytes, -, -, -, -, -, hfits⟩ :=
    allocatedBytes_counts_live_bytes hstart (.ofTotal 100)
      [.operation (.create 0 8), .operation (.create 0 4), .operation (.create 1 200)] .buffer
      [.alloc 1 8, .store 1 (.load 0)] {}
  refine ⟨hstart, rfl, hbytes, fun n h hr ↦ ?_⟩
  refine hfits (fun _ hl ↦ by cases hl) (fun _ inUse size hgrant ↦ ?_) 0 n _ h rfl hr
  have hle : inUse + size ≤ 100 := of_decide_eq_true hgrant
  exact hle.trans_lt (by decide)

end Table

end SlotLang
