import SlotLang.Proofs.Isolation
import SlotLang.Proofs.Safety

/-!
# What was in the table before

A compiled program run on two tables whose slots hold whatever they hold. On tables that take every
allocation (`Table.Open`) the runs cannot be told apart: a program reads a slot only after it has
put a buffer of its own there, and the buffer is new and the same on both sides.

`Table.Agree n` is what two tables have in common while a program owns their first `n` slots: the
same buffers there, and the same number of slots. The discipline of `Instr.Safe` is what keeps it.

* `Instr.Safe.agree` is the step: an instruction that keeps the discipline answers and prints the
  same on tables that agree, and leaves tables that agree on what the program owns by then.
* `Instr.SafeAll.agree` is the run, by induction on the discipline.
* `Instr.SafeAll.getElem?_slots` is the frame: the slots that a program never owns stay as they are,
  so the cleanup finds there what was there before.
-/

namespace SlotLang

namespace Table

variable {a : Allocator} {t t' : Table} {i n : Nat}

/-! ### Tables that take every allocation -/

/-- Live slots may be replaced, and there is no limit to the bytes. -/
structure Open (t : Table) : Prop where
  /-- A buffer can be made in a live slot. -/
  replaces : t.config.overwrite = .replace
  /-- There is no limit. -/
  unlimited : t.config.memoryLimit = none

theorem Open.of_config_eq (ht : t.Open) (h : t'.config = t.config) : t'.Open := by
  refine ⟨?_, ?_⟩
  · rw [h, ht.replaces]
  · rw [h, ht.unlimited]

/-- Such a table refuses a buffer only where it has no slot. -/
theorem Open.create (ht : t.Open) (hgrants : ∀ inUse, a.grants inUse n = true) (i : Nat) :
    (i < t.capacity ∧ ∃ h old, (t.create a i n).result = .ok h ∧
        (t.create a i n).table = t.created i n old) ∨
      t.capacity ≤ i ∧ (t.create a i n).result = .error (.indexOutOfRange i t.capacity) := by
  rcases hs : t.slots[i]? with - | s
  · refine .inr ⟨List.getElem?_eq_none_iff.1 hs, ?_⟩
    simp only [Table.create, slot, hs]
    rfl
  · have hreplaces : ¬ (s.isLive = true ∧ t.config.overwrite = .reject) := by
      rw [ht.replaces]
      rintro ⟨-, h⟩
      cases h
    have hadmits : t.config.admits (t.allocatedBytes - s.size + n) = true := by
      rw [TableConfig.admits, ht.unlimited]
    refine .inl ⟨(List.getElem?_eq_some_iff.1 hs).1, ?_⟩
    rw [create_of_getElem? hs, if_neg hreplaces, if_pos ⟨hadmits, hgrants _⟩]
    exact ⟨_, _, rfl, rfl⟩

/-! ### Tables that agree -/

/-- Two tables with the same buffers in the first `n` slots, and with room for an `int` in each. -/
structure Agree (n : Nat) (t t' : Table) : Prop where
  /-- They have the same number of slots. -/
  capacity_eq : t.capacity = t'.capacity
  /-- There is room for an `int` in each of the first slots. -/
  holds : t.HoldsInts n
  /-- These hold the same. -/
  buffer?_eq : ∀ i < n, t.buffer? i = t'.buffer? i

theorem Agree.holds_right (h : t.Agree n t') : t'.HoldsInts n := by
  intro i hi
  rw [← h.buffer?_eq i hi]
  exact h.holds i hi

/-- A program that owns no slot yet has seen nothing. -/
theorem agree_zero (h : t.capacity = t'.capacity) : t.Agree 0 t' where
  capacity_eq := h
  holds i hi := absurd hi (Nat.not_lt_zero i)
  buffer?_eq i hi := absurd hi (Nat.not_lt_zero i)

/-- The next slot is new on both sides. -/
theorem Agree.created (h : t.Agree n t') {size : Nat} (hn : n < t.capacity)
    (hsize : Word.size ≤ size) (old old' : Nat) :
    (t.created n size old).Agree (n + 1) (t'.created n size old') where
  capacity_eq := by rw [capacity_created, capacity_created, h.capacity_eq]
  holds := h.holds.created hn hsize old
  buffer?_eq i hi := by
    by_cases hni : n = i
    · subst hni
      rw [buffer?_created_self old hn, buffer?_created_self old' (h.capacity_eq ▸ hn)]
    · rw [buffer?_created_of_ne old hni, buffer?_created_of_ne old' hni, h.buffer?_eq i (by omega)]

/-- Storing the same `int` keeps two tables alike. -/
theorem Agree.writeInt (h : t.Agree n t') (slot : Nat) (v : Int32) :
    (t.rewrite slot (Slot.edit (storeInt v))).Agree n
      (t'.rewrite slot (Slot.edit (storeInt v))) where
  capacity_eq := by rw [capacity_rewrite, capacity_rewrite, h.capacity_eq]
  holds := by
    rw [← table_writeInt]
    exact h.holds.writeInt slot v
  buffer?_eq i hi := by
    by_cases hslot : slot = i
    · subst hslot
      rw [buffer?_rewrite_edit, buffer?_rewrite_edit, h.buffer?_eq slot hi]
    · rw [buffer?_rewrite_of_ne _ hslot, buffer?_rewrite_of_ne _ hslot, h.buffer?_eq i hi]

end Table

/-! ### One instruction -/

variable {a : Allocator} {w : Writer} {t t' : Table} {out : Output} {n n' : Nat}

theorem Operand.Below.eval_eq (h : t.Agree n t') {op : Operand} (hop : op.Below n) :
    op.eval t = op.eval t' := by
  cases op with
  | const v => rfl
  | load slot =>
    obtain ⟨b, hb, hlen⟩ := h.holds slot hop
    show t.readInt slot = t'.readInt slot
    rw [Table.readInt_of_buffer? hb hlen,
      Table.readInt_of_buffer? ((h.buffer?_eq slot hop).symm.trans hb) hlen]

theorem printOperands_eq (h : t.Agree n t') (w : Writer) (out : Output) {args : List Operand}
    (hargs : ∀ op ∈ args, op.Below n) :
    printOperands w t out args = printOperands w t' out args := by
  induction args generalizing out with
  | nil => rfl
  | cons op args ih =>
    have hrest := fun out ↦ ih out fun op' hop ↦ hargs op' (List.mem_cons_of_mem op hop)
    simp only [printOperands, (hargs op List.mem_cons_self).eval_eq h, hrest]

namespace Instr

/-- The allocator grants what the instruction asks for. -/
def Granted (a : Allocator) : Instr → Prop
  | .alloc _ size => ∀ inUse, a.grants inUse size = true
  | _ => True

/-- **One instruction** answers and prints the same on tables that agree. If it succeeds, they agree
on the slots that the program owns then. -/
theorem Safe.agree {i : Instr} (hi : i.Safe n n') (hgranted : i.Granted a) (h : t.Agree n t')
    (ht : t.Open) (ht' : t'.Open) (w : Writer) (out : Output) :
    (i.run a w t out).result = (i.run a w t' out).result ∧
      (i.run a w t out).output = (i.run a w t' out).output ∧
      ((i.run a w t out).result = .ok () →
        (i.run a w t out).table.Agree n' (i.run a w t' out).table) := by
  cases hi with
  | @alloc size hsize =>
    simp only [Instr.run, Ran.ofStep]
    rcases ht.create hgranted n with ⟨hn, handle, old, hr, htable⟩ | ⟨hn, hr⟩
    · rcases ht'.create hgranted n with ⟨-, handle', old', hr', htable'⟩ | ⟨hn', -⟩
      · rw [hr, hr', htable, htable']
        exact ⟨rfl, trivial, fun _ ↦ h.created hn hsize old old'⟩
      · exact absurd (h.capacity_eq ▸ hn) (Nat.not_lt.2 hn')
    · rcases ht'.create hgranted n with ⟨hn', -⟩ | ⟨-, hr'⟩
      · exact absurd (h.capacity_eq ▸ hn') (Nat.not_lt.2 hn)
      · rw [hr, hr', h.capacity_eq]
        refine ⟨rfl, trivial, fun hok ↦ ?_⟩
        cases hok
  | @store slot value hslot hvalue =>
    obtain ⟨v, hv⟩ := hvalue.eval h.holds
    obtain ⟨b, hb, hlen⟩ := h.holds slot hslot
    have hleft : ((Instr.store slot value).run a w t out).Ends _ out := ends_store hv hb hlen
    have hright : ((Instr.store slot value).run a w t' out).Ends _ out :=
      ends_store ((hvalue.eval_eq h).symm.trans hv) ((h.buffer?_eq slot hslot).symm.trans hb) hlen
    rw [hleft.result, hright.result, hleft.output, hright.output, hleft.table, hright.table]
    exact ⟨rfl, rfl, fun _ ↦ h.writeInt slot v⟩
  | @call builtin args hargs =>
    cases builtin
    simp only [Instr.run, printOperands_eq h w out hargs]
    exact ⟨trivial, trivial, fun _ ↦ h⟩
  | @eval value hvalue =>
    obtain ⟨v, hv⟩ := hvalue.eval h.holds
    have hleft : ((Instr.eval value).run a w t out).Ends t out := ends_eval hv
    have hright : ((Instr.eval value).run a w t' out).Ends t' out :=
      ends_eval ((hvalue.eval_eq h).symm.trans hv)
    rw [hleft.result, hright.result, hleft.output, hright.output, hleft.table, hright.table]
    exact ⟨rfl, rfl, fun _ ↦ h⟩

/-- A slot beyond those that the program owns stays as it is. -/
theorem Safe.getElem?_slots {i : Instr} (hi : i.Safe n n') {j : Nat} (hj : n' ≤ j) (a : Allocator)
    (w : Writer) (t : Table) (out : Output) :
    (i.run a w t out).table.slots[j]? = t.slots[j]? := by
  cases hi with
  | @alloc size =>
    show (t.perform a (.create n size)).table.slots[j]? = _
    rw [Table.slots_perform_of_address? rfl, Table.getElem?_slots_rewrite_of_ne _ (by omega)]
  | @store slot value hslot =>
    rw [Instr.run]
    split
    · rfl
    · show (t.writeInt slot _).table.slots[j]? = _
      rw [Table.table_writeInt, Table.getElem?_slots_rewrite_of_ne _ (by omega)]
  | @call builtin =>
    cases builtin
    rfl
  | eval =>
    rw [Instr.run]
    split <;> rfl

/-! ### A run -/

theorem SafeAll.le {is : List Instr} (h : SafeAll n is n') : n ≤ n' := by
  induction h with
  | nil => exact Nat.le_refl _
  | cons hi _ ih => exact Nat.le_trans hi.le ih

/-- **A run** of instructions that keep the discipline. -/
theorem SafeAll.agree {is : List Instr} (his : SafeAll n is n') (hgranted : ∀ i ∈ is, i.Granted a)
    (h : t.Agree n t') (ht : t.Open) (ht' : t'.Open) (w : Writer) (out : Output) :
    (runInstrs a w is t out).result = (runInstrs a w is t' out).result ∧
      (runInstrs a w is t out).output = (runInstrs a w is t' out).output ∧
      ((runInstrs a w is t out).result = .ok () →
        (runInstrs a w is t out).table.Agree n' (runInstrs a w is t' out).table) := by
  induction his generalizing t t' out with
  | nil n => exact ⟨rfl, rfl, fun _ ↦ h⟩
  | @cons n k n' i is hi _ ih =>
    obtain ⟨hresult, houtput, hagree⟩ :=
      hi.agree (hgranted i List.mem_cons_self) h ht ht' w out
    rcases hr : (i.run a w t out).result with e | _
    · rw [runInstrs_cons_of_error hr, runInstrs_cons_of_error (hresult.symm.trans hr)]
      refine ⟨hresult, houtput, fun hok ↦ ?_⟩
      rw [hr] at hok
      cases hok
    · rw [runInstrs_cons_of_ok hr, runInstrs_cons_of_ok (hresult.symm.trans hr), ← houtput]
      -- the instruction has kept the settings of both tables
      have hopen := ht.of_config_eq (Table.reaches_instr a w t out i).settings.1
      have hopen' := ht'.of_config_eq (Table.reaches_instr a w t' out i).settings.1
      exact ih (fun j hj ↦ hgranted j (List.mem_cons_of_mem i hj)) (hagree hr) hopen hopen' _

theorem SafeAll.getElem?_slots {is : List Instr} (his : SafeAll n is n') {j : Nat} (hj : n' ≤ j)
    (a : Allocator) (w : Writer) (t : Table) (out : Output) :
    (runInstrs a w is t out).table.slots[j]? = t.slots[j]? := by
  induction his generalizing t out with
  | nil => rfl
  | @cons n k n' i is hi his ih =>
    have hhead := hi.getElem?_slots (his.le.trans hj) a w t out
    rcases hr : (i.run a w t out).result with e | _
    · rw [runInstrs_cons_of_error hr, hhead]
    · rw [runInstrs_cons_of_ok hr, ← hhead]
      exact ih hj _ _

end Instr

/-! ### Compiled programs -/

/-- A table whose first `n` slots are live counts these and what is live behind them. -/
theorem Table.HoldsInts.liveCount_eq (h : t.HoldsInts n) :
    t.liveCount = n + (t.slots.drop n).countP Slot.isLive := by
  have hlive : ∀ i < n, ∃ s, t.slots[i]? = some s ∧ s.isLive = true := by
    intro i hi
    obtain ⟨b, hb, -⟩ := h i hi
    obtain ⟨s, hs, hdata⟩ := buffer?_eq_some_iff.1 hb
    exact ⟨s, hs, by rw [Slot.isLive, hdata]; rfl⟩
  have hlength : (t.slots.take n).length = n := by
    refine List.length_take_of_le (Nat.not_lt.1 fun hlt ↦ ?_)
    obtain ⟨s, hs, -⟩ := hlive t.slots.length hlt
    exact absurd (List.getElem?_eq_some_iff.1 hs).1 (Nat.lt_irrefl _)
  have htake : (t.slots.take n).countP Slot.isLive = n := by
    refine (List.countP_eq_length.2 fun s hs ↦ ?_).trans hlength
    obtain ⟨i, hi⟩ := List.mem_iff_getElem?.1 hs
    obtain ⟨hn, -⟩ := List.getElem?_eq_some_iff.1 hi
    rw [hlength] at hn
    rw [List.getElem?_take_of_lt hn] at hi
    obtain ⟨s', hs', hlive'⟩ := hlive i hn
    obtain rfl : s = s' := Option.some.inj (hi.symm.trans hs')
    exact hlive'
  nth_rewrite 1 [liveCount, ← List.take_append_drop n t.slots]
  rw [List.countP_append, htake]

theorem Module.granted_lower (m : Module) (hgrants : ∀ inUse, a.grants inUse 8 = true) :
    ∀ i ∈ m.lower.instrs, i.Granted a := by
  intro i hi
  obtain ⟨s, -, hs⟩ := List.mem_flatMap.1 hi
  rcases s with ⟨name, ⟨slot, ⟨⟩⟩, value, span⟩ |
    (⟨v, span⟩ | ⟨name, v, span⟩ | ⟨builtin, args, span⟩)
  · rcases List.mem_pair.1 hs with rfl | rfl
    · exact hgrants
    · trivial
  all_goals
    obtain rfl := List.mem_singleton.1 hs
    trivial

/-- **Initial memory does not leak into compiled programs.**

Run a compiled program on two tables of one capacity that may be replaced in and have no limit,
whatever slots of theirs are live, and whatever is in them. With any writer, and an allocator that
grants the eight bytes of a variable, the two runs end the same way, in success or with the same
error, and they leave the same text after the same number of calls. As that goes for every writer,
also for one that refuses a certain piece at a certain call, the calls are the same too.

The program leaves its own slots live. So after a successful run the cleanup releases these and the
slots behind them that were live before. -/
theorem initial_memory_does_not_leak {source : String} {capacity : Nat} {m : Module}
    (hm : compileFor source capacity = .ok m) (hcapacity : t.capacity = t'.capacity) (ht : t.Open)
    (ht' : t'.Open) (hgrants : ∀ inUse, a.grants inUse 8 = true) (w : Writer) :
    (m.lower.execute a w t).result = (m.lower.execute a w t').result ∧
      (m.lower.execute a w t).output = (m.lower.execute a w t').output ∧
      ((m.lower.execute a w t).result = .ok () →
        (m.lower.execute a w t).released =
            m.slotCount + (t.slots.drop m.slotCount).countP Slot.isLive ∧
          (m.lower.execute a w t').released =
            m.slotCount + (t'.slots.drop m.slotCount).countP Slot.isLive) := by
  have hsafe := safeAll_of_compileFor hm
  obtain ⟨hresult, houtput, hagree⟩ :=
    hsafe.agree (m.granted_lower hgrants) (Table.agree_zero hcapacity) ht ht' w {}
  have hframe : ∀ t : Table, (runInstrs a w m.lower.instrs t {}).table.slots.drop m.slotCount =
      t.slots.drop m.slotCount := by
    intro t
    refine List.ext_getElem? fun j ↦ ?_
    rw [List.getElem?_drop, List.getElem?_drop]
    exact hsafe.getElem?_slots (Nat.le_add_right _ j) a w t {}
  refine ⟨hresult, houtput, fun hok ↦ ⟨?_, ?_⟩⟩
  · rw [← hframe t]
    exact (hagree hok).holds.liveCount_eq
  · rw [← hframe t']
    exact (hagree hok).holds_right.liveCount_eq

/-- A table whose first slot is too short for an `int`, and one whose second holds another number:
the program that declares `x` twice prints the same on both, and only the slot behind its own two
makes a difference to what is released. -/
theorem redeclaration_prints_the_same :
    let dirty := (Table.fresh { capacity := 3, overwrite := .replace }).performAll .system
      [.create 0 2, .create 2 16, .poke 2 [1, 2, 3]]
    let other := (Table.fresh { capacity := 3, overwrite := .replace }).performAll .system
      [.create 1 4, .free 1, .create 1 8, .writeInt 1 99]
    compileFor Redeclaration.source 256 = .ok Redeclaration.checked ∧
      dirty.capacity = other.capacity ∧ dirty.Open ∧ other.Open ∧
      (Redeclaration.checked.lower.execute .system .buffer dirty).output =
        (Redeclaration.checked.lower.execute .system .buffer other).output ∧
      (Redeclaration.checked.lower.execute .system .buffer dirty).released = 2 + 1 ∧
      (Redeclaration.checked.lower.execute .system .buffer other).released = 2 + 0 := by
  intro dirty other
  have hcapacity : dirty.capacity = other.capacity := by decide
  have hdirty : dirty.Open := ⟨rfl, rfl⟩
  have hother : other.Open := ⟨rfl, rfl⟩
  obtain ⟨-, houtput, hreleased⟩ := initial_memory_does_not_leak Redeclaration.compileFor_source
    hcapacity hdirty hother (a := .system) (fun _ ↦ rfl) .buffer
  obtain ⟨hleft, hright⟩ := hreleased (by decide +kernel)
  exact ⟨Redeclaration.compileFor_source, hcapacity, hdirty, hother, houtput, hleft, hright⟩

end SlotLang
