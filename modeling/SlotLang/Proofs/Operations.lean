import SlotLang.Proofs.Buffers

/-!
# What an operation does to one slot

`Table.effect a t i op` is the change that operation `op` makes to slot `i` of the table `t`, as a
function of that slot alone, and `getElem?_slots_perform` says that this is all it does. An
operation that fails, that only looks, or that concerns another slot has the effect `id`. Histories
of a table are reasoned about through effects only.

A guard is what takes work: its steps address the buffer partly by index and partly by handle, and
its end releases by handle. `Guard.run` stays on the guarded buffer because that buffer is live from
its creation to the guard's end, and the steps in between change neither its slot's generation nor
that it is live.
-/

namespace SlotLang

namespace Table

variable {a : Allocator} {t : Table} {i j n : Nat} {h : Handle}

/-! ### Handles -/

/-- A handle is live when its slot is and has not released a buffer since. -/
theorem isLive_iff :
    t.isLive h = true ↔
      ∃ s, t.slots[h.index]? = some s ∧ s.isLive = true ∧ s.generation = h.generation := by
  unfold isLive
  rcases t.slots[h.index]? with - | s <;> simp

/-- The two checks for a live handle agree: what is live can be looked at. -/
theorem get_of_isLive (hl : t.isLive h = true) : t.get h = t.bytes h.index := by
  obtain ⟨s, hs, hlive, hgen⟩ := isLive_iff.1 hl
  simp only [get, slot, hs, hlive, hgen, decide_true, Bool.and_true, if_true]

/-- And what is stale cannot. -/
theorem get_of_stale {s : Slot} (hs : t.slots[h.index]? = some s) (hl : t.isLive h = false) :
    t.get h = .error (.useAfterFree h.index) := by
  have hstale : ¬ (s.isLive && s.generation = h.generation) = true := by
    simpa [isLive, hs] using hl
  simp only [get, slot, hs, if_neg hstale]

theorem release_of_stale {s : Slot} (hs : t.slots[h.index]? = some s) (hl : t.isLive h = false) :
    t.release h = t.refuse (.doubleFree h.index) := by
  simp only [release, hl, slot, hs]
  rfl

theorem pokeHandle_of_error {e : TableError} (hg : t.get h = .error e) (bytes : List UInt8) :
    t.pokeHandle h bytes = t.refuse e := by
  rw [pokeHandle, hg]

/-- Freeing releases the slot; on an empty slot this does nothing. -/
theorem slots_free : (t.free i).table.slots = (t.rewrite i Slot.release).slots := by
  unfold free slot
  rcases hs : t.slots[i]? with - | s
  · show t.slots = _
    rw [rewrite_eq_self (by simp [hs])]
  · by_cases hlive : s.isLive = true
    · simp only [hlive, if_true]
      rw [setSlot_eq_rewrite hs Slot.release]
    · simp only [hlive]
      show t.slots = _
      rw [rewrite_eq_self fun s' hs' ↦ ?_]
      obtain rfl : s = s' := Option.some.inj (hs.symm.trans hs')
      exact Slot.release_of_not_isLive (by simpa using hlive)

theorem free_of_isLive {s : Slot} (hs : t.slots[i]? = some s) (hlive : s.isLive = true) :
    (t.free i).result = .ok true := by
  simp only [free, slot, hs, hlive, if_true]

theorem release_of_isLive (hl : t.isLive h = true) : (t.release h).result = .ok () := by
  obtain ⟨s, hs, hlive, -⟩ := isLive_iff.1 hl
  simp only [release, hl, if_true, free_of_isLive hs hlive]
  rfl

/-- Releasing by handle frees the slot if the handle is live, and does nothing otherwise. -/
theorem slots_release :
    (t.release h).table.slots =
      if t.isLive h = true then (t.rewrite h.index Slot.release).slots else t.slots := by
  by_cases hl : t.isLive h = true
  · simp only [release, hl, if_true]
    exact slots_free
  · simp only [release, hl]
    cases t.slot h.index <;> rfl

/-- Writing by handle changes the buffer if the handle is live, and does nothing otherwise. -/
theorem table_pokeHandle (bytes : List UInt8) :
    (t.pokeHandle h bytes).table =
      if t.isLive h = true then t.rewrite h.index (Slot.edit (overwriteStart bytes)) else t := by
  by_cases hl : t.isLive h = true
  · obtain ⟨s, hs, hlive, -⟩ := isLive_iff.1 hl
    obtain ⟨b, hdata⟩ := Option.isSome_iff_exists.1 hlive
    have hget : t.get h = .ok b := by
      rw [get_of_isLive hl, bytes_eq_ok_iff]
      exact buffer?_eq_some_iff.2 ⟨s, hs, hdata⟩
    rw [if_pos hl, pokeHandle, hget]
    exact table_editBytes _
  · rw [if_neg hl]
    rcases hs : t.slots[h.index]? with - | s
    · simp only [pokeHandle, get, slot, hs]
      rfl
    · rw [pokeHandle_of_error (get_of_stale hs (by simpa using hl))]
      rfl

theorem isLive_rewrite_edit (f : List UInt8 → List UInt8) :
    (t.rewrite i (Slot.edit f)).isLive h = t.isLive h := by
  unfold isLive
  by_cases hi : i = h.index
  · subst hi
    rw [getElem?_slots_rewrite_self]
    rcases t.slots[h.index]? with - | s
    · rfl
    · show ((s.edit f).isLive && _) = (s.isLive && _)
      rw [Slot.isLive_edit]
      rfl
  · rw [getElem?_slots_rewrite_of_ne _ hi]

/-- The handle given out for a new buffer is live. -/
theorem isLive_of_create (hr : (t.create a i n).result = .ok h) :
    (t.create a i n).table.isLive h = true ∧ h.index = i := by
  obtain ⟨s, hs, -, rfl, htable⟩ := create_of_ok hr
  refine ⟨isLive_iff.2 ⟨s.renew n, ?_, rfl, rfl⟩, rfl⟩
  rw [htable]
  show (t.rewrite i (Slot.renew n)).slots[i]? = _
  rw [getElem?_slots_rewrite_self, hs]
  rfl

end Table

/-! ### Guards -/

/-- What a step through a guard does to the guarded buffer. -/
def GuardStep.edit : GuardStep → List UInt8 → List UInt8
  | .writeInt v => Table.storeInt v
  | .poke b => overwriteStart b
  | _ => id

/-- What steps through a guard do to the guarded buffer one after the other. -/
def GuardStep.editAll : List GuardStep → List UInt8 → List UInt8
  | [] => id
  | s :: ss => editAll ss ∘ s.edit

/-- What the end of a guard does to the guarded slot. -/
def GuardEnd.effect : GuardEnd → Slot → Slot
  | .keep => id
  | .release | .drop => Slot.release

namespace Guard

variable {g : Guard}

/-- A step through a guard whose buffer is there edits that buffer, and nothing else. -/
theorem table_step (hl : g.table.isLive g.handle = true) (s : GuardStep) :
    (g.step s).2 = g.table.rewrite g.handle.index (Slot.edit s.edit) := by
  cases s with
  | writeInt v => exact Table.table_writeInt v
  | poke bytes =>
    show (g.table.pokeHandle g.handle bytes).table = _
    rw [Table.table_pokeHandle, if_pos hl]
    rfl
  | readInt | bytes | length | index | handle =>
    show g.table = g.table.rewrite g.handle.index (Slot.edit id)
    rw [Slot.edit_id, Table.rewrite_id]

/-- So the buffer stays there, and the steps of a scope all edit it. -/
theorem table_run (hl : g.table.isLive g.handle = true) (ss : List GuardStep) :
    (g.run ss).2 = g.table.rewrite g.handle.index (Slot.edit (GuardStep.editAll ss)) := by
  induction ss generalizing g with
  | nil =>
    show g.table = g.table.rewrite g.handle.index (Slot.edit id)
    rw [Slot.edit_id, Table.rewrite_id]
  | cons s ss ih =>
    -- an edit keeps the handle live, so the next step finds the buffer as this one did
    show (run ⟨(g.step s).2, g.handle⟩ ss).2 = _
    have hstep := table_step hl s
    have hl' : (g.step s).2.isLive g.handle = true := by rwa [hstep, Table.isLive_rewrite_edit]
    rw [ih hl']
    simp only [hstep, Table.rewrite_rewrite, Slot.edit_comp, GuardStep.editAll]

/-- The end of a guard whose buffer is there releases it, unless it is kept. -/
theorem slots_finish (hl : g.table.isLive g.handle = true) (ending : GuardEnd) :
    (g.finish ending).2.1.slots = (g.table.rewrite g.handle.index ending.effect).slots := by
  cases ending with
  | keep =>
    show g.table.slots = (g.table.rewrite g.handle.index id).slots
    rw [Table.rewrite_id]
  | release | drop =>
    show (g.table.release g.handle).table.slots = _
    rw [Table.slots_release, if_pos hl]
    rfl

end Guard

namespace Table

variable {a : Allocator} {t : Table} {i n : Nat}

/-- What a scope on slot `i` does to it. -/
def scopeEffect (n : Nat) (steps : List GuardStep) (ending : GuardEnd) (s : Slot) : Slot :=
  ending.effect ((s.renew n).edit (GuardStep.editAll steps))

theorem table_scoped_of_error {e : TableError} (hr : (t.create a i n).result = .error e)
    (steps : List GuardStep) (ending : GuardEnd) :
    (t.scoped a i n steps ending).table = t ∧
      (t.scoped a i n steps ending).result = .error e := by
  simp only [Table.scoped, hr]
  exact ⟨(create_of_error hr).1, trivial⟩

theorem slots_scoped_of_ok {h : Handle} (hr : (t.create a i n).result = .ok h)
    (steps : List GuardStep) (ending : GuardEnd) :
    (t.scoped a i n steps ending).table.slots =
        (t.rewrite i (scopeEffect n steps ending)).slots ∧
      ∃ x, (t.scoped a i n steps ending).result = .ok x ∧ x.handle = h := by
  obtain ⟨hl, rfl⟩ := isLive_of_create hr
  obtain ⟨s, -, -, -, htable⟩ := create_of_ok hr
  have hrun : (Guard.run ⟨(t.create a h.index n).table, h⟩ steps).2 =
      (t.create a h.index n).table.rewrite h.index (Slot.edit (GuardStep.editAll steps)) :=
    Guard.table_run hl steps
  have hl' : (Guard.run ⟨(t.create a h.index n).table, h⟩ steps).2.isLive h = true := by
    rwa [hrun, isLive_rewrite_edit]
  simp only [Table.scoped, hr]
  refine ⟨?_, _, rfl, rfl⟩
  rw [Guard.slots_finish hl' ending]
  show ((Guard.run ⟨(t.create a h.index n).table, h⟩ steps).2.rewrite h.index _).slots = _
  -- three rewrites of one slot: the creation, the steps and the end
  rw [hrun, rewrite_rewrite, htable]
  show ((t.rewrite h.index (Slot.renew n)).rewrite h.index _).slots = _
  rw [rewrite_rewrite]
  rfl

/-! ### Every operation -/

/-- What an operation on `t` does to slot `i`. -/
def effect (a : Allocator) (t : Table) (i : Nat) : Operation → Slot → Slot
  | .create index size =>
    if index = i ∧ (t.create a index size).result.isOk then Slot.renew size else id
  | .free index => if index = i then Slot.release else id
  | .release h => if h.index = i ∧ t.isLive h then Slot.release else id
  | .poke index bytes => if index = i then Slot.edit (overwriteStart bytes) else id
  | .pokeHandle h bytes =>
    if h.index = i ∧ t.isLive h then Slot.edit (overwriteStart bytes) else id
  | .writeInt index value => if index = i then Slot.edit (storeInt value) else id
  | .cleanup => Slot.release
  | .scoped index size steps ending =>
    if index = i ∧ (t.create a index size).result.isOk then scopeEffect size steps ending else id
  | _ => id

/-- Rewriting one slot, seen from any slot. -/
theorem getElem?_slots_rewrite (f : Slot → Slot) (j : Nat) :
    (t.rewrite j f).slots[i]? = t.slots[i]?.map (if j = i then f else id) := by
  by_cases hj : j = i
  · subst hj
    rw [getElem?_slots_rewrite_self, if_pos rfl]
  · rw [getElem?_slots_rewrite_of_ne f hj, if_neg hj, Option.map_id]
    rfl

/-- **An operation does to slot `i` what its effect says**, and the same goes for all slots. -/
theorem getElem?_slots_perform (op : Operation) :
    (t.perform a op).table.slots[i]? = t.slots[i]?.map (t.effect a i op) := by
  have hlook : t.slots[i]? = t.slots[i]?.map id := by rw [Option.map_id]; rfl
  cases op with
  | create index size =>
    show (t.create a index size).table.slots[i]? = _
    rcases hr : (t.create a index size).result with e | h
    · rw [(create_of_error hr).1, effect, if_neg (by simp [hr, Except.isOk, Except.toBool])]
      exact hlook
    · obtain ⟨s, -, -, -, htable⟩ := create_of_ok hr
      rw [htable]
      show (t.rewrite index (Slot.renew size)).slots[i]? = _
      rw [getElem?_slots_rewrite, effect]
      simp [hr, Except.isOk, Except.toBool]
  | free index =>
    show (t.free index).table.slots[i]? = _
    rw [slots_free, getElem?_slots_rewrite]
    rfl
  | release h =>
    show (t.release h).table.slots[i]? = _
    rw [slots_release]
    by_cases hl : t.isLive h = true
    · rw [if_pos hl, getElem?_slots_rewrite, effect]
      simp [hl]
    · rw [if_neg hl, effect, if_neg (by simp [hl])]
      exact hlook
  | poke index bytes =>
    show (t.poke index bytes).table.slots[i]? = _
    rw [poke, table_editBytes, getElem?_slots_rewrite]
    rfl
  | pokeHandle h bytes =>
    show (t.pokeHandle h bytes).table.slots[i]? = _
    rw [table_pokeHandle]
    by_cases hl : t.isLive h = true
    · rw [if_pos hl, getElem?_slots_rewrite, effect]
      simp [hl]
    · rw [if_neg hl, effect, if_neg (by simp [hl])]
      exact hlook
  | writeInt index value =>
    show (t.writeInt index value).table.slots[i]? = _
    rw [table_writeInt, getElem?_slots_rewrite]
    rfl
  | cleanup => exact List.getElem?_map
  | «scoped» index size steps ending =>
    show (t.scoped a index size steps ending).table.slots[i]? = _
    rcases hr : (t.create a index size).result with e | h
    · rw [(table_scoped_of_error hr steps ending).1, effect,
        if_neg (by simp [hr, Except.isOk, Except.toBool])]
      exact hlook
    · rw [(slots_scoped_of_ok hr steps ending).1, getElem?_slots_rewrite, effect]
      simp [hr, Except.isOk, Except.toBool]
  | handle | isInitialized | isLive | sizeOf | bytes | get | readInt | capacity | config
  | liveSlots => exact hlook

end Table

/-! ### Where an operation acts -/

/-- The slot that an operation addresses, by index or by handle. -/
def Operation.address? : Operation → Option Nat
  | .create i _ | .free i | .handle i | .isInitialized i | .sizeOf i | .bytes i | .poke i _
  | .readInt i | .writeInt i _ | .scoped i _ _ _ => some i
  | .release h | .isLive h | .get h | .pokeHandle h _ => some h.index
  | .capacity | .config | .liveSlots | .cleanup => none

namespace Table

variable {a : Allocator} {t : Table} {i : Nat} {op : Operation}

/-- **A slot that is not addressed is left alone**, unless all slots are cleaned up. -/
theorem effect_of_address?_ne (hi : op.address? ≠ some i) (hop : op ≠ .cleanup) :
    t.effect a i op = id := by
  cases op with
  | create index size => exact if_neg fun h ↦ hi (congrArg some h.1)
  | free index => exact if_neg fun h ↦ hi (congrArg some h)
  | release h => exact if_neg fun hh ↦ hi (congrArg some hh.1)
  | poke index bytes => exact if_neg fun h ↦ hi (congrArg some h)
  | pokeHandle h bytes => exact if_neg fun hh ↦ hi (congrArg some hh.1)
  | writeInt index value => exact if_neg fun h ↦ hi (congrArg some h)
  | cleanup => exact absurd rfl hop
  | «scoped» index size steps ending => exact if_neg fun h ↦ hi (congrArg some h.1)
  | handle | isInitialized | isLive | sizeOf | bytes | get | readInt | capacity | config
  | liveSlots => rfl

/-- So an operation that addresses a slot rewrites that slot and no other. -/
theorem slots_perform_of_address? (hi : op.address? = some i) :
    (t.perform a op).table.slots = (t.rewrite i (t.effect a i op)).slots := by
  have hop : op ≠ .cleanup := by
    rintro rfl
    cases hi
  refine List.ext_getElem? fun j ↦ ?_
  rw [getElem?_slots_perform, getElem?_slots_rewrite]
  by_cases hij : i = j
  · subst hij
    rw [if_pos rfl]
  · have hj : op.address? ≠ some j := by
      rw [hi]
      exact fun h ↦ hij (Option.some.inj h)
    rw [if_neg hij, effect_of_address?_ne hj hop]

end Table

end SlotLang
