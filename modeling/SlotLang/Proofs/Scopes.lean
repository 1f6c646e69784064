import SlotLang.Proofs.Atomicity
import SlotLang.Proofs.Creation

/-!
# Guards are balanced

A scope makes a buffer, works on it through a guard, and ends. Three things in it could go wrong
unseen. The guard shows an empty buffer where its handle leads nowhere. A guard that is dropped
ignores the fault of its release. And a guard that is released leaves its scope like any other, so
that it could be released again there.

None of them does, and one invariant says why: `Table.Held` describes the table inside a scope by
the table `t` the scope began with. It is there when the buffer is made, each step through the guard
keeps it (`Held.step`), and so do all (`Held.run`). It makes the handle live, so the guard shows the
buffer that it guards and a release succeeds (`Held.finish`). What the release leaves is
`Table.Closed`, in which the handle is stale and a second release has nothing to act on.

That the table inside is the one that plain operations would give is a matter of the writes alone
(`performAll_writes`): by index or by handle, they reach the same buffer as long as it is held.
-/

namespace SlotLang

/-- The writes of a step through a guard on slot `i`, as operations on the table. -/
def GuardStep.writes (i : Nat) : GuardStep → List Operation
  | .writeInt v => [.writeInt i v]
  | .poke b => [.poke i b]
  | _ => []

/-- What the end of a guard answers if it meets no fault. -/
def GuardEnd.answer (h : Handle) : GuardEnd → GuardEnding
  | .keep => .kept h
  | .release => .released (.ok ())
  | .drop => .dropped

namespace Table

/-- In the table `u`, which was `t` when the scope began, a guard holds the `n` bytes that `h`
names. -/
structure Held (t : Table) (n : Nat) (h : Handle) (u : Table) : Prop where
  /-- The handle is live. -/
  live : u.isLive h = true
  /-- Its buffer has the size that was asked for. -/
  sized : ∃ b, u.buffer? h.index = some b ∧ b.length = n
  /-- No other slot has been touched. -/
  others_eq : ∀ j, j ≠ h.index → u.slots[j]? = t.slots[j]?
  /-- The buffer is counted in the place of the one that was in the slot before. -/
  bytes_eq : u.allocatedBytes = t.allocatedBytes - t.sizeAt h.index + n
  /-- The settings stay. -/
  config_eq : u.config = t.config

/-- In the table `u`, which was `t` when the scope began, the buffer that `h` names is gone. -/
structure Closed (t : Table) (h : Handle) (u : Table) : Prop where
  /-- Its slot is empty, and has released that buffer and none after it. -/
  slot_eq : u.slots[h.index]? = some ⟨none, h.generation + 1⟩
  /-- No other slot has been touched. -/
  others_eq : ∀ j, j ≠ h.index → u.slots[j]? = t.slots[j]?
  /-- Nothing is counted in the place of the buffer that was in the slot before. -/
  bytes_eq : u.allocatedBytes + t.sizeAt h.index = t.allocatedBytes
  /-- The settings stay. -/
  config_eq : u.config = t.config

variable {a : Allocator} {config : TableConfig} {start t u : Table} {i n : Nat} {h : Handle}

/-! ### Inside a scope -/

/-- A new buffer is held. -/
theorem held_create (hr : (t.create a i n).result = .ok h) : t.Held n h (t.create a i n).table := by
  obtain ⟨hl, rfl⟩ := isLive_of_create hr
  obtain ⟨s, hs, -, -, htable⟩ := create_of_ok hr
  refine ⟨hl, ⟨List.replicate n 0, ?_, List.length_replicate⟩, fun j hj ↦ ?_, ?_, ?_⟩
  · rw [htable]
    exact buffer?_created_self _ (List.getElem?_eq_some_iff.1 hs).1
  · rw [htable]
    exact getElem?_slots_rewrite_of_ne _ hj.symm
  · rw [htable, allocatedBytes_created, sizeAt_of_getElem? hs]
  · rw [htable, config_created]

/-- It stays held while it is written to. -/
theorem Held.edit (hu : t.Held n h u) {f : List UInt8 → List UInt8}
    (hf : ∀ b, (f b).length = b.length) : t.Held n h (u.rewrite h.index (Slot.edit f)) where
  live := by rw [isLive_rewrite_edit, hu.live]
  sized := by
    obtain ⟨b, hb, hlen⟩ := hu.sized
    refine ⟨f b, ?_, (hf b).trans hlen⟩
    rw [buffer?_rewrite_edit, hb]
    rfl
  others_eq j hj := by rw [getElem?_slots_rewrite_of_ne _ hj.symm, hu.others_eq j hj]
  bytes_eq := hu.bytes_eq
  config_eq := hu.config_eq

/-- **The step.** Nothing that is done through the guard takes its buffer away. -/
theorem Held.step (hu : t.Held n h u) (s : GuardStep) : t.Held n h (Guard.step ⟨u, h⟩ s).2 := by
  rw [Guard.table_step hu.live]
  exact hu.edit s.length_edit

/-- **The run.** -/
theorem Held.run (hu : t.Held n h u) (ss : List GuardStep) :
    t.Held n h (Guard.run ⟨u, h⟩ ss).2 := by
  induction ss generalizing u with
  | nil => exact hu
  | cons s ss ih => exact ih (hu.step s)

/-- What is held is what the guard shows, and can be written to. -/
theorem Held.slice (hu : t.Held n h u) :
    ∃ b, b.length = n ∧ u.get h = .ok b ∧ Guard.view ⟨u, h⟩ = b ∧
      ∀ bytes, (u.pokeHandle h bytes).result = .ok (overwriteStart bytes b) := by
  obtain ⟨b, hb, hlen⟩ := hu.sized
  have hget : u.get h = .ok b := (get_of_isLive hu.live).trans (bytes_eq_ok_iff.2 hb)
  refine ⟨b, hlen, hget, ?_, fun bytes ↦ ?_⟩
  · simp only [Guard.view, hget]
  · simp only [pokeHandle, hget]
    exact editBytes_of_buffer? hb _

/-! ### The writes -/

theorem performAll_append (ops ops' : List Operation) :
    t.performAll a (ops ++ ops') = (t.performAll a ops).performAll a ops' :=
  List.foldl_append

/-- The writes of a step edit the buffer in the slot as the step does. -/
theorem performAll_writes_step (s : GuardStep) :
    t.performAll a (s.writes i) = t.rewrite i (Slot.edit s.edit) := by
  cases s with
  | writeInt v => exact table_writeInt v
  | poke bytes => exact table_editBytes _
  | readInt | bytes | length | index | handle =>
    show t = t.rewrite i (Slot.edit id)
    rw [Slot.edit_id, rewrite_id]

theorem performAll_writes (ss : List GuardStep) :
    t.performAll a (ss.flatMap (GuardStep.writes i)) =
      t.rewrite i (Slot.edit (GuardStep.editAll ss)) := by
  induction ss generalizing t with
  | nil =>
    show t = t.rewrite i (Slot.edit id)
    rw [Slot.edit_id, rewrite_id]
  | cons s ss ih =>
    rw [List.flatMap_cons, performAll_append, ih, performAll_writes_step, rewrite_rewrite,
      Slot.edit_comp]
    rfl

/-- Inside a scope the table is the one that a creation and the writes give. -/
theorem table_run_create (hr : (t.create a i n).result = .ok h) (ss : List GuardStep) :
    (Guard.run ⟨(t.create a i n).table, h⟩ ss).2 =
      t.performAll a (.create i n :: ss.flatMap (GuardStep.writes i)) := by
  obtain ⟨hl, rfl⟩ := isLive_of_create hr
  exact (Guard.table_run hl ss).trans (performAll_writes ss).symm

/-! ### The end of a scope -/

/-- The slot of what is held. -/
theorem Held.slot (hu : t.Held n h u) :
    ∃ s, u.slots[h.index]? = some s ∧ s.isLive = true ∧ s.generation = h.generation ∧
      s.size = n := by
  obtain ⟨s, hs, hlive, hgen⟩ := isLive_iff.1 hu.live
  obtain ⟨b, hb, hlen⟩ := hu.sized
  have hdata : s.data = some b := by simpa [buffer?, hs] using hb
  refine ⟨s, hs, hlive, hgen, ?_⟩
  simpa [Slot.size, Slot.size?, hdata] using hlen

/-- What is held can be released, and is freed by that. -/
theorem Held.release (hu : t.Held n h u) :
    u.release h =
      ⟨.ok (), (u.free h.index).table, [⟨.freed h.index n, (u.free h.index).table⟩]⟩ := by
  obtain ⟨s, hs, hlive, -, hsize⟩ := hu.slot
  simp only [Table.release, hu.live, free, Table.slot, hs, hlive, hsize, if_true]
  rfl

/-- **The end.** It answers without a fault, and a guard that is not kept frees its slot once. -/
theorem Held.finish (hu : t.Held n h u) (ending : GuardEnd) :
    Guard.finish ⟨u, h⟩ ending =
      (ending.answer h,
        if ending = .keep then (u, [])
        else ((u.free h.index).table, [⟨.freed h.index n, (u.free h.index).table⟩])) := by
  cases ending with
  | keep => rfl
  | release =>
    simp only [Guard.finish, Guard.leave, hu.release]
    rfl
  | drop =>
    simp only [Guard.finish, Guard.leave, hu.release]
    rfl

theorem Held.closed (hu : t.Held n h u) (hsize : t.sizeAt h.index ≤ t.allocatedBytes) :
    t.Closed h (u.free h.index).table := by
  obtain ⟨s, hs, hlive, hgen, hsize'⟩ := hu.slot
  refine ⟨?_, fun j hj ↦ ?_, ?_, (config_free u h.index).trans hu.config_eq⟩
  · rw [getElem?_slots_free hs, Slot.release, if_pos hlive, hgen]
  · rw [slots_free, getElem?_slots_rewrite_of_ne _ hj.symm, hu.others_eq j hj]
  · rw [allocatedBytes_free hs, hsize', hu.bytes_eq]
    omega

/-- A handle whose buffer is gone cannot be released again, and leaving a scope with it does
nothing, were the guard still armed. -/
theorem Closed.release (hu : t.Closed h u) :
    u.release h = u.refuse (.doubleFree h.index) ∧
      ∀ armed, Guard.leave ⟨u, h⟩ armed = (u, []) := by
  have hstale : u.isLive h = false := by rw [isLive, hu.slot_eq]; rfl
  have hrefuse := release_of_stale hu.slot_eq hstale
  refine ⟨hrefuse, fun armed ↦ ?_⟩
  cases armed with
  | false => rfl
  | true =>
    simp only [Guard.leave, hrefuse]
    rfl

/-! ### Whole scopes -/

/-- A scope that succeeds is a creation, the steps and an end. -/
theorem scoped_of_ok {steps : List GuardStep} {ending : GuardEnd} {x : Scope}
    (hx : (t.scoped a i n steps ending).result = .ok x) :
    (t.create a i n).result = .ok x.handle ∧
      let inside := (Guard.run ⟨(t.create a i n).table, x.handle⟩ steps).2
      let ended := Guard.finish ⟨inside, x.handle⟩ ending
      x.ending = ended.1 ∧ (t.scoped a i n steps ending).table = ended.2.1 ∧
        (t.scoped a i n steps ending).events =
          (t.create a i n).events ++ ended.2.2.map LogPoint.event := by
  rcases hr : (t.create a i n).result with e | h
  · rw [(table_scoped_of_error hr steps ending).2] at hx
    cases hx
  · simp only [Table.scoped, hr] at hx ⊢
    cases hx
    exact ⟨rfl, rfl, rfl, List.map_append⟩

/-- **Guards are balanced.**

Open a scope for `n` bytes in slot `i` of any table that a history can lead to. If that fails, the
table is as it was. Otherwise, take any steps through the guard. After each of them the guard's
handle is live, and reading and writing through the guard find its `n` bytes, so that neither falls
back on an empty buffer; a release would succeed, so that a dropped guard has no fault to ignore;
nothing but those bytes has changed, and the table is the one that a creation and the writes give.

A guard that is released or dropped leaves the table that a creation, the writes and freeing the
slot give: the slot is empty, the others are as they were, and the bytes that the slot took at first
are no longer counted. It is released once: the log has one record of it, the slot counts one
buffer more than the handle does, and a second release finds nothing to act on. A guard that is kept
leaves the table that a creation and the writes give, and a handle that is live. -/
theorem guards_are_balanced (hstart : ofConfig config = .ok start) (hreach : start.Reaches a t)
    (i n : Nat) (steps : List GuardStep) (ending : GuardEnd) :
    let made := t.create a i n
    let done := t.scoped a i n steps ending
    let writes := fun ss : List GuardStep ↦ ss.flatMap (GuardStep.writes i)
    (∀ e, done.result = .error e → done.table = t ∧ done.events = []) ∧
      ∀ x, done.result = .ok x →
        x.handle.index = i ∧ x.ending = ending.answer x.handle ∧
        (∀ ss, ss <+: steps →
          let now := (Guard.run ⟨made.table, x.handle⟩ ss).2
          t.Held n x.handle now ∧ now = t.performAll a (.create i n :: writes ss) ∧
            (∃ b, b.length = n ∧ now.get x.handle = .ok b ∧ Guard.view ⟨now, x.handle⟩ = b ∧
              ∀ bytes, (now.pokeHandle x.handle bytes).result = .ok (overwriteStart bytes b)) ∧
            (now.release x.handle).result = .ok ()) ∧
        (ending ≠ .keep →
          done.table = t.performAll a (.create i n :: writes steps ++ [.free i]) ∧
            t.Closed x.handle done.table ∧ done.events = made.events ++ [.freed i n] ∧
            done.table.release x.handle = done.table.refuse (.doubleFree i) ∧
            ∀ armed, Guard.leave ⟨done.table, x.handle⟩ armed = (done.table, [])) ∧
        (ending = .keep →
          done.table = t.performAll a (.create i n :: writes steps) ∧
            done.table.isLive x.handle = true ∧ done.events = made.events) := by
  intro made done writes
  have ht : t.Accounts config := hreach.accounts (ofConfig_eq_ok hstart ▸ accounts_fresh config)
  refine ⟨fun e he ↦ atomic_scoped a t i n steps ending he, fun x hx ↦ ?_⟩
  obtain ⟨hr, hending, htable, hevents⟩ := scoped_of_ok hx
  obtain ⟨-, rfl⟩ := isLive_of_create hr
  have hheld : ∀ ss, t.Held n x.handle (Guard.run ⟨made.table, x.handle⟩ ss).2 :=
    (held_create hr).run
  rw [(hheld steps).finish] at hending htable hevents
  refine ⟨rfl, hending, fun ss _ ↦ ?_, fun hend ↦ ?_, fun hend ↦ ?_⟩
  · exact ⟨hheld ss, table_run_create hr ss, (hheld ss).slice, release_of_isLive (hheld ss).live⟩
  · rw [if_neg hend] at htable hevents
    have hsize : t.sizeAt x.handle.index ≤ t.allocatedBytes := by
      obtain ⟨s, hs, -⟩ := create_of_ok hr
      rw [sizeAt_of_getElem? hs]
      exact ht.size_le hs
    have hclosed : t.Closed x.handle done.table := htable ▸ (hheld steps).closed hsize
    refine ⟨?_, hclosed, hevents, hclosed.release⟩
    rw [htable, performAll_append, table_run_create hr]
    rfl
  · rw [if_pos hend] at htable hevents
    refine ⟨htable.trans (table_run_create hr steps), htable ▸ (hheld steps).live, ?_⟩
    rw [hevents, List.map_nil, List.append_nil]

/-- A table with eight bytes in one slot and an `int` in the other. -/
def eightAndFour : Table :=
  (fresh { capacity := 2, overwrite := .replace }).performAll .system
    [.create 0 8, .create 1 4, .writeInt 1 6]

/-- A scope of three bytes over the eight: bytes are written to them, an `int` does not fit, and
they are read. The guard is dropped. -/
def overEight : Step Scope :=
  eightAndFour.scoped .system 0 3 [.poke [7, 8, 9, 10], .writeInt 5, .bytes] .drop

/-- Of the twelve bytes that were counted four are left, and the other slot has them. -/
theorem dropped_guard_leaves_four_bytes :
    ofConfig { capacity := 2, overwrite := .replace } =
        .ok (fresh { capacity := 2, overwrite := .replace }) ∧
      (fresh { capacity := 2, overwrite := .replace }).Reaches .system eightAndFour ∧
      ∃ x, overEight.result = .ok x ∧ x.ending = .dropped ∧
        x.values = [.ok (.bytes [7, 8, 9]), .error (.bufferTooSmall 0 4 3),
          .ok (.bytes [7, 8, 9])] ∧
        overEight.table.allocatedBytes + 8 = 12 ∧
        overEight.table.slots[1]? = some ⟨some [6, 0, 0, 0], 0⟩ ∧
        overEight.table = eightAndFour.performAll .system
          [.create 0 3, .poke 0 [7, 8, 9, 10], .writeInt 0 5, .free 0] := by
  have hstart : ofConfig { capacity := 2, overwrite := .replace } =
      .ok (fresh { capacity := 2, overwrite := .replace }) := rfl
  have hreach : (fresh { capacity := 2, overwrite := .replace }).Reaches .system eightAndFour :=
    reaches_performAll ..
  obtain ⟨-, hscope⟩ := guards_are_balanced hstart hreach 0 3
    [.poke [7, 8, 9, 10], .writeInt 5, .bytes] .drop
  obtain ⟨x, hx, hvalues⟩ : ∃ x, overEight.result = .ok x ∧
      x.values = [.ok (.bytes [7, 8, 9]), .error (.bufferTooSmall 0 4 3),
        .ok (.bytes [7, 8, 9])] := ⟨_, rfl, rfl⟩
  obtain ⟨hindex, hending, -, hclosed, -⟩ := hscope x hx
  obtain ⟨htable, hclosed, -⟩ := hclosed (by decide)
  have hbytes := hclosed.bytes_eq
  rw [hindex] at hbytes
  refine ⟨hstart, hreach, x, hx, hending, hvalues, hbytes, ?_, htable⟩
  exact hclosed.others_eq 1 (by rw [hindex]; decide)

end Table

end SlotLang
