import SlotLang.Proofs.Accounting

/-!
# Slots do not interfere

Without a memory limit, what happens to one slot of a table shows nowhere else. An operation that
addresses slot `i` answers from slot `i`, the settings and the number of slots, and changes slot `i`
only; the byte counter, which all operations share, is read for the limit alone.

`Table.SameAt i` relates two tables that agree in what an operation on slot `i` may look at. Two
facts about it carry everything:

* `SameAt.result_perform` and `SameAt.perform` (locality): an operation that addresses slot `i`
  gets the same result on both tables, and leaves tables that agree again;
* `SameAt.skip` (frame): an operation that does not bear on slot `i` leaves a table that agrees with
  the one before.

`SameAt.project` takes them along a history: the operations that bear on slot `i` are kept, and all
others dropped. That two operations on different slots can change places then needs no argument of
its own, since no slot can tell the two orders apart (`performAll_swap`).
-/

namespace SlotLang

/-- Whether an operation bears on slot `i`: it addresses the slot, or it cleans up. -/
def Operation.concerns (i : Nat) (op : Operation) : Bool := op.address? = some i || op = .cleanup

/-- An allocator that looks at the size of a request and at nothing else. -/
def Allocator.DecidesBySize (a : Allocator) : Prop :=
  ∀ inUse inUse' size, a.grants inUse size = a.grants inUse' size

theorem Allocator.decidesBySize_system : Allocator.system.DecidesBySize := fun _ _ _ ↦ rfl

namespace Table

variable {a : Allocator} {t t' : Table} {i j n : Nat} {h : Handle} {op : Operation}

/-! ### The settings stay -/

theorem Change.settings (hc : Change a t t') : t'.config = t.config ∧ t'.capacity = t.capacity := by
  rcases hc with hr | ⟨i, hf⟩ | i | _
  · obtain ⟨s, -, -, -, htable⟩ := create_of_ok hr
    rw [htable]
    exact ⟨config_created _, capacity_created _⟩
  · exact ⟨config_rewrite _, capacity_rewrite _⟩
  · refine ⟨config_free t i, ?_⟩
    rw [capacity, slots_free]
    exact capacity_rewrite _
  · exact ⟨rfl, List.length_map _⟩

theorem Reaches.settings (hr : t.Reaches a t') :
    t'.config = t.config ∧ t'.capacity = t.capacity := by
  induction hr with
  | refl => exact ⟨rfl, rfl⟩
  | tail _ hc ih => exact ⟨hc.settings.1.trans ih.1, hc.settings.2.trans ih.2⟩

theorem settings_perform (a : Allocator) (t : Table) (op : Operation) :
    (t.perform a op).table.config = t.config ∧ (t.perform a op).table.capacity = t.capacity :=
  (reaches_perform a t op).settings

theorem reaches_performAll (a : Allocator) (t : Table) (ops : List Operation) :
    t.Reaches a (t.performAll a ops) := by
  induction ops generalizing t with
  | nil => exact reaches_refl a t
  | cons op ops ih => exact (reaches_perform a t op).trans (ih (t.perform a op).table)

/-! ### What an operation on one slot looks at -/

/-- Two tables without a limit that agree in all that an operation on slot `i` looks at. -/
structure SameAt (i : Nat) (t t' : Table) : Prop where
  unlimited : t.config.memoryLimit = none
  config : t.config = t'.config
  capacity : t.capacity = t'.capacity
  slots : t.slots[i]? = t'.slots[i]?

theorem sameAt_refl (hlimit : t.config.memoryLimit = none) (i : Nat) : SameAt i t t :=
  ⟨hlimit, rfl, rfl, rfl⟩

section Index

variable (hsame : SameAt i t t')
include hsame

theorem SameAt.slot : t.slot i = t'.slot i := by
  rw [Table.slot, Table.slot, hsame.slots, hsame.capacity]

theorem SameAt.bytes : t.bytes i = t'.bytes i := by
  rw [Table.bytes, Table.bytes, hsame.slot]

theorem SameAt.isInitialized : t.isInitialized i = t'.isInitialized i := by
  rw [Table.isInitialized, Table.isInitialized, hsame.slots]

theorem SameAt.handle : t.handle i = t'.handle i := by
  rw [Table.handle, Table.handle, hsame.slot]

theorem SameAt.sizeOf : t.sizeOf i = t'.sizeOf i := by
  rw [Table.sizeOf, Table.sizeOf, hsame.bytes]

theorem SameAt.readInt : t.readInt i = t'.readInt i := by
  rw [Table.readInt, Table.readInt, hsame.bytes]

theorem SameAt.free : (t.free i).result = (t'.free i).result := by
  rw [Table.free, Table.free, hsame.slot]
  split
  · rfl
  · split <;> rfl

theorem SameAt.editBytes (edit : List UInt8 → List UInt8) :
    (t.editBytes i edit).result = (t'.editBytes i edit).result := by
  rw [Table.editBytes, Table.editBytes, hsame.slot]
  split
  · rfl
  · split <;> rfl

theorem SameAt.writeInt (v : Int32) : (t.writeInt i v).result = (t'.writeInt i v).result := by
  rw [Table.writeInt, Table.writeInt, hsame.bytes]
  split
  · rfl
  · split
    · rfl
    · exact congrArg (Except.map fun _ ↦ ()) (hsame.editBytes _)

/-- A creation reads the byte counter for the limit and for the allocator. Without a limit, and with
an allocator that does not look at the bytes in use, its result does not depend on it. -/
theorem SameAt.create (ha : a.DecidesBySize) (n : Nat) :
    (t.create a i n).result = (t'.create a i n).result := by
  have hadmits : ∀ total, t.config.admits total = true := fun total ↦ by
    rw [TableConfig.admits, hsame.unlimited]
  rcases hs : t.slots[i]? with - | s
  · have hs' : t'.slots[i]? = none := hsame.slots ▸ hs
    simp only [Table.create, Table.slot, hs, hs', hsame.capacity]
    rfl
  · have hs' : t'.slots[i]? = some s := hsame.slots ▸ hs
    rw [create_of_getElem? hs, create_of_getElem? hs', ← hsame.config, hadmits, hadmits,
      ha t.allocatedBytes t'.allocatedBytes n]
    split
    · rfl
    · split <;> rfl

end Index

section ByHandle

variable (hsame : SameAt h.index t t')
include hsame

theorem SameAt.isLive : t.isLive h = t'.isLive h := by
  rw [Table.isLive, Table.isLive, hsame.slots]

theorem SameAt.get : t.get h = t'.get h := by
  rw [Table.get, Table.get, hsame.slot, hsame.bytes]

theorem SameAt.release : (t.release h).result = (t'.release h).result := by
  rw [Table.release, Table.release, hsame.isLive, hsame.slot]
  split
  · exact congrArg (Except.map fun _ ↦ ()) hsame.free
  · split <;> rfl

theorem SameAt.pokeHandle (bytes : List UInt8) :
    (t.pokeHandle h bytes).result = (t'.pokeHandle h bytes).result := by
  rw [Table.pokeHandle, Table.pokeHandle, hsame.get]
  split
  · rfl
  · exact hsame.editBytes _

end ByHandle

/-! ### What an operation does to one slot -/

/-- What an operation does to slot `i` it does on both tables. -/
theorem SameAt.effect (hsame : SameAt i t t') (ha : a.DecidesBySize) (op : Operation) :
    t.effect a i op = t'.effect a i op := by
  have hcreate : ∀ index size, (index = i ∧ (t.create a index size).result.isOk = true) =
      (index = i ∧ (t'.create a index size).result.isOk = true) := by
    intro index size
    refine propext (and_congr_right ?_)
    rintro rfl
    rw [hsame.create ha]
  have hlive : ∀ h : Handle, (h.index = i ∧ t.isLive h = true) =
      (h.index = i ∧ t'.isLive h = true) := by
    intro h
    refine propext (and_congr_right ?_)
    rintro rfl
    rw [hsame.isLive]
  cases op <;> simp only [Table.effect, hcreate, hlive]

/-- **Locality**, the table: operations keep two tables that agree at slot `i` so. -/
theorem SameAt.perform (hsame : SameAt i t t') (ha : a.DecidesBySize) (op : Operation) :
    SameAt i (t.perform a op).table (t'.perform a op).table := by
  obtain ⟨hconfig, hcapacity⟩ := settings_perform a t op
  obtain ⟨hconfig', hcapacity'⟩ := settings_perform a t' op
  refine ⟨hconfig ▸ hsame.unlimited, ?_, ?_, ?_⟩
  · rw [hconfig, hconfig', hsame.config]
  · rw [hcapacity, hcapacity', hsame.capacity]
  · rw [getElem?_slots_perform, getElem?_slots_perform, hsame.slots, hsame.effect ha]

/-- **Frame**: an operation that does not bear on slot `i` can be skipped. -/
theorem SameAt.skip (hsame : SameAt i t t') (hop : op.concerns i = false) :
    SameAt i (t.perform a op).table t' := by
  obtain ⟨haddress, hcleanup⟩ : op.address? ≠ some i ∧ op ≠ .cleanup := by
    simpa [Operation.concerns] using hop
  obtain ⟨hconfig, hcapacity⟩ := settings_perform a t op
  refine ⟨hconfig ▸ hsame.unlimited, hconfig.trans hsame.config,
    hcapacity.trans hsame.capacity, ?_⟩
  rw [getElem?_slots_perform, effect_of_address?_ne haddress hcleanup, Option.map_id]
  exact hsame.slots

/-! ### Guards -/

/-- A step through a guard is an operation on the guarded slot. -/
theorem SameAt.guardStep (hsame : SameAt h.index t t') (ha : a.DecidesBySize) (s : GuardStep) :
    (Guard.step ⟨t, h⟩ s).1 = (Guard.step ⟨t', h⟩ s).1 ∧
      SameAt h.index (Guard.step ⟨t, h⟩ s).2 (Guard.step ⟨t', h⟩ s).2 := by
  have hview : ∀ {u u' : Table}, SameAt h.index u u' → Guard.view ⟨u, h⟩ = Guard.view ⟨u', h⟩ := by
    intro u u' hu
    rw [Guard.view, Guard.view, hu.get]
  cases s with
  | readInt => exact ⟨congrArg (Except.map GuardValue.int) hsame.readInt, hsame⟩
  | writeInt v =>
    exact ⟨congrArg (Except.map fun _ ↦ GuardValue.nothing) (hsame.writeInt v),
      hsame.perform ha (.writeInt h.index v)⟩
  | poke bytes =>
    have hpoked := hsame.perform ha (.pokeHandle h bytes)
    exact ⟨congrArg (fun view ↦ Except.ok (GuardValue.bytes view)) (hview hpoked), hpoked⟩
  | bytes => exact ⟨congrArg (fun view ↦ Except.ok (GuardValue.bytes view)) (hview hsame), hsame⟩
  | length =>
    exact ⟨congrArg (fun view : List UInt8 ↦ Except.ok (GuardValue.number view.length))
      (hview hsame), hsame⟩
  | index | handle => exact ⟨rfl, hsame⟩

theorem SameAt.guardRun (hsame : SameAt h.index t t') (ha : a.DecidesBySize)
    (ss : List GuardStep) :
    (Guard.run ⟨t, h⟩ ss).1 = (Guard.run ⟨t', h⟩ ss).1 ∧
      SameAt h.index (Guard.run ⟨t, h⟩ ss).2 (Guard.run ⟨t', h⟩ ss).2 := by
  induction ss generalizing t t' with
  | nil => exact ⟨rfl, hsame⟩
  | cons s ss ih =>
    obtain ⟨hvalue, hstep⟩ := hsame.guardStep ha s
    obtain ⟨hvalues, hrun⟩ := ih hstep
    exact ⟨congrArg₂ List.cons hvalue hvalues, hrun⟩

theorem SameAt.guardFinish (hsame : SameAt h.index t t') (ending : GuardEnd) :
    (Guard.finish ⟨t, h⟩ ending).1 = (Guard.finish ⟨t', h⟩ ending).1 := by
  cases ending with
  | release => exact congrArg GuardEnding.released hsame.release
  | keep | drop => rfl

/-- A scope is a creation, steps and an end, all on one slot. -/
theorem SameAt.scoped (hsame : SameAt i t t') (ha : a.DecidesBySize) (n : Nat)
    (steps : List GuardStep) (ending : GuardEnd) :
    (t.scoped a i n steps ending).result = (t'.scoped a i n steps ending).result := by
  have hmade : SameAt i (t.create a i n).table (t'.create a i n).table :=
    hsame.perform ha (.create i n)
  have hresult := hsame.create ha n
  rcases hr : (t.create a i n).result with e | h
  · have hr' : (t'.create a i n).result = .error e := hresult ▸ hr
    rw [(table_scoped_of_error hr steps ending).2, (table_scoped_of_error hr' steps ending).2]
  · have hr' : (t'.create a i n).result = .ok h := hresult ▸ hr
    obtain rfl := (isLive_of_create hr).2
    obtain ⟨hvalues, hrun⟩ := hmade.guardRun ha steps
    simp only [Table.scoped, hr, hr', hvalues, hrun.guardFinish ending]

/-! ### Every operation -/

/-- **Locality**, the result: an operation that addresses slot `i` cannot tell the tables apart. -/
theorem SameAt.result_perform (hsame : SameAt i t t') (ha : a.DecidesBySize)
    (hop : op.address? = some i) : (t.perform a op).result = (t'.perform a op).result := by
  have hat : ∀ j, op.address? = some j → SameAt j t t' := by
    intro j hj
    obtain rfl := Option.some.inj (hop.symm.trans hj)
    exact hsame
  cases op with
  | create index size => exact congrArg (Except.map Value.handle) ((hat _ rfl).create ha size)
  | free index => exact congrArg (Except.map Value.flag) (hat _ rfl).free
  | release h => exact congrArg (Except.map fun _ ↦ Value.nothing) (hat _ rfl).release
  | handle index => exact congrArg (Except.map Value.handle) (hat _ rfl).handle
  | isInitialized index =>
    exact congrArg (fun b ↦ Except.ok (Value.flag b)) (hat _ rfl).isInitialized
  | isLive h => exact congrArg (fun b ↦ Except.ok (Value.flag b)) (hat _ rfl).isLive
  | sizeOf index => exact congrArg (Except.map Value.number) (hat _ rfl).sizeOf
  | bytes index => exact congrArg (Except.map Value.bytes) (hat _ rfl).bytes
  | get h => exact congrArg (Except.map Value.bytes) (hat _ rfl).get
  | poke index bytes => exact congrArg (Except.map Value.bytes) ((hat _ rfl).editBytes _)
  | pokeHandle h bytes => exact congrArg (Except.map Value.bytes) ((hat _ rfl).pokeHandle bytes)
  | readInt index => exact congrArg (Except.map Value.int) (hat _ rfl).readInt
  | writeInt index value =>
    exact congrArg (Except.map fun _ ↦ Value.nothing) ((hat _ rfl).writeInt value)
  | «scoped» index size steps ending =>
    exact congrArg (Except.map Value.scope) ((hat _ rfl).scoped ha size steps ending)
  | capacity | config | liveSlots | cleanup => exact absurd hop.symm (Option.some_ne_none i)

/-! ### Histories -/

/-- The operations of a history, each with the result it gets. -/
def answers (a : Allocator) (t : Table) :
    List Operation → List (Operation × Except TableError Value)
  | [] => []
  | op :: ops => (op, (t.perform a op).result) :: (t.perform a op).table.answers a ops

theorem answers_append (a : Allocator) (t : Table) (ops ops' : List Operation) :
    t.answers a (ops ++ ops') = t.answers a ops ++ (t.performAll a ops).answers a ops' := by
  induction ops generalizing t with
  | nil => rfl
  | cons op ops ih => exact congrArg (List.cons _) (ih _)

/-- **Projection.** On tables that agree at slot `i`, a history and the operations of it that bear
on the slot give the same results there and leave the same slot. -/
theorem SameAt.project (hsame : SameAt i t t') (ha : a.DecidesBySize) (ops : List Operation) :
    (t.answers a ops).filter (fun x ↦ x.1.address? = some i) =
        (t'.answers a (ops.filter (Operation.concerns i))).filter
          (fun x ↦ x.1.address? = some i) ∧
      SameAt i (t.performAll a ops) (t'.performAll a (ops.filter (Operation.concerns i))) := by
  induction ops generalizing t t' with
  | nil => exact ⟨rfl, hsame⟩
  | cons op ops ih =>
    by_cases hop : op.concerns i = true
    · -- both histories make this step, and its result counts if it addresses the slot
      obtain ⟨hanswers, hslots⟩ := ih (hsame.perform ha op)
      rw [List.filter_cons_of_pos hop]
      refine ⟨?_, hslots⟩
      by_cases hi : op.address? = some i
      · simp only [answers, List.filter_cons, hi, decide_true, if_true, hanswers,
          hsame.result_perform ha hi]
      · simp only [answers, List.filter_cons, hi, decide_false, Bool.false_eq_true, if_false,
          hanswers]
    · have hi : op.address? ≠ some i := fun hi ↦ hop (by simp [Operation.concerns, hi])
      obtain ⟨hanswers, hslots⟩ := ih (hsame.skip (a := a) (Bool.not_eq_true _ ▸ hop))
      rw [List.filter_cons_of_neg hop]
      refine ⟨?_, hslots⟩
      simp only [answers, List.filter_cons, hi, decide_false, Bool.false_eq_true, if_false,
        hanswers]

theorem concerns_of_address? (hi : op.address? = some i) (k : Nat) :
    op.concerns k = decide (i = k) := by
  have hop : op ≠ .cleanup := by
    rintro rfl
    exact absurd hi.symm (Option.some_ne_none i)
  simp [Operation.concerns, hi, hop]

/-- **Two operations on different slots can change places.** Each slot sees at most one of them, so
all slots are the same afterwards, and with them the byte counter, which is their sum. -/
theorem performAll_swap {config : TableConfig} {op' : Operation} (ht : t.Accounts config)
    (hlimit : t.config.memoryLimit = none) (ha : a.DecidesBySize) (hi : op.address? = some i)
    (hj : op'.address? = some j) (hij : i ≠ j) :
    t.performAll a [op, op'] = t.performAll a [op', op] := by
  have hbooks := fun ops ↦ (reaches_performAll a t ops).accounts ht
  refine (hbooks [op, op']).eq_of_slots (hbooks [op', op]) (List.ext_getElem? fun k ↦ ?_)
  have hown : [op, op'].filter (Operation.concerns k) =
      [op', op].filter (Operation.concerns k) := by
    by_cases hk : i = k
    · have hjk : j ≠ k := fun h ↦ hij (hk.trans h.symm)
      simp [concerns_of_address? hi, concerns_of_address? hj, hk, hjk]
    · simp [List.filter_cons, concerns_of_address? hi, concerns_of_address? hj, hk]
  have hproject := fun ops ↦ ((sameAt_refl hlimit k).project ha ops).2.slots
  rw [hproject [op, op'], hproject [op', op], hown]

/-- And neither gets another result for it. -/
theorem result_perform_swap {op' : Operation} (hlimit : t.config.memoryLimit = none)
    (ha : a.DecidesBySize) (hi : op.address? = some i) (hj : op'.address? = some j) (hij : i ≠ j) :
    ((t.perform a op').table.perform a op).result = (t.perform a op).result := by
  have hskip : op'.concerns i = false := by
    rw [concerns_of_address? hj]
    exact decide_eq_false (Ne.symm hij)
  exact ((sameAt_refl hlimit i).skip hskip).result_perform ha hi

/-- **Slots do not interfere.**

Take a table without a limit at any point of its life, and an allocator that goes by the size of a
request. Of any history, the operations that address slot `i` get the results, and leave the slot
with the liveness, bytes and generation, that they would with nothing but the cleanups between them.
And two operations on different slots that stand next to each other can change places: each gets the
result that it got, as does everything before and behind, and the table is the same in the end. -/
theorem slots_do_not_interfere {config : TableConfig} {start : Table}
    (hstart : ofConfig config = .ok start) (hlimit : config.memoryLimit = none) {a : Allocator}
    (ha : a.DecidesBySize) (earlier : List Act) :
    let t := start.actAll a earlier
    (∀ (i : Nat) (ops : List Operation),
      let own := ops.filter (Operation.concerns i)
      (t.answers a ops).filter (fun x ↦ x.1.address? = some i) =
          (t.answers a own).filter (fun x ↦ x.1.address? = some i) ∧
        (t.performAll a ops).slots[i]? = (t.performAll a own).slots[i]?) ∧
      ∀ (before behind : List Operation) (op op' : Operation) (i j : Nat),
        op.address? = some i → op'.address? = some j → i ≠ j →
        t.performAll a (before ++ op :: op' :: behind) =
            t.performAll a (before ++ op' :: op :: behind) ∧
          ∃ r r' rest,
            t.answers a (before ++ op :: op' :: behind) =
              t.answers a before ++ (op, r) :: (op', r') :: rest ∧
            t.answers a (before ++ op' :: op :: behind) =
              t.answers a before ++ (op', r') :: (op, r) :: rest := by
  intro t
  have hreach := reaches_actAll a start earlier
  have ht : t.Accounts config := by
    refine hreach.accounts ?_
    rw [ofConfig_eq_ok hstart]
    exact accounts_fresh config
  refine ⟨fun i ops ↦ ?_, fun before behind op op' i j hi hj hij ↦ ?_⟩
  · have hproject := (sameAt_refl (ht.config_eq ▸ hlimit) i).project ha ops
    exact ⟨hproject.1, hproject.2.slots⟩
  · -- the two operations meet the table `u` that the ones before them have left
    have hu : (t.performAll a before).Accounts config :=
      (reaches_performAll a t before).accounts ht
    have happend : ∀ ops, t.performAll a (before ++ ops) =
        (t.performAll a before).performAll a ops := fun ops ↦ List.foldl_append
    simp only [happend, answers_append]
    generalize t.performAll a before = u at hu
    have hnone : u.config.memoryLimit = none := hu.config_eq ▸ hlimit
    have hswap : ((u.perform a op).table.perform a op').table =
        ((u.perform a op').table.perform a op).table := performAll_swap hu hnone ha hi hj hij
    have hop := result_perform_swap hnone ha hi hj hij
    have hop' := result_perform_swap hnone ha hj hi (Ne.symm hij)
    refine ⟨congrArg (fun u ↦ u.performAll a behind) hswap, (u.perform a op).result,
      (u.perform a op').result, ((u.perform a op).table.perform a op').table.answers a behind,
      ?_, ?_⟩
    · simp only [answers, hop']
    · simp only [answers, hop, hswap]

/-- Slot 1 is live when slot 0 is written to, replaced and cleaned up, and is freed and created
itself in between. Slot 0 answers as if it were alone, also where it refuses; and freeing slot 1
before the write comes to the same as freeing it behind. -/
theorem neighbour_leaves_no_trace :
    ofConfig { capacity := 2, overwrite := .replace } =
        .ok (fresh { capacity := 2, overwrite := .replace }) ∧
      let t := (fresh { capacity := 2, overwrite := .replace }).actAll .system
        [.operation (.create 1 8), .operation (.create 0 4)]
      (t.answers .system [.writeInt 0 7, .free 1, .create 0 2, .readInt 0, .cleanup, .create 1 3,
            .get ⟨0, 1⟩]).filter (fun x ↦ x.1.address? = some 0) =
          [(.writeInt 0 7, .ok .nothing), (.create 0 2, .ok (.handle ⟨0, 1⟩)),
            (.readInt 0, .error (.bufferTooSmall 0 4 2)), (.get ⟨0, 1⟩, .error (.useAfterFree 0))] ∧
        t.performAll .system [.writeInt 0 7, .free 1, .readInt 0] =
          t.performAll .system [.free 1, .writeInt 0 7, .readInt 0] := by
  have hstart : ofConfig { capacity := 2, overwrite := .replace } =
      .ok (fresh { capacity := 2, overwrite := .replace }) := rfl
  obtain ⟨hproject, hswap⟩ := slots_do_not_interfere hstart rfl Allocator.decidesBySize_system
    [.operation (.create 1 8), .operation (.create 0 4)]
  exact ⟨hstart, (hproject 0 _).1, (hswap [] [.readInt 0] _ _ 0 1 rfl rfl (by decide)).1⟩

end Table

end SlotLang
