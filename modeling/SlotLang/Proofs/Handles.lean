import SlotLang.Proofs.Operations

/-!
# Handles never alias

A handle names one buffer. It is a slot and a generation, and the claim on the generation is that it
tells the buffer from all others its slot ever holds, although it is a counter that wraps.

`Table.releases` counts how often an operation releases the buffer of a slot, from the operation's
answer and from whether the slot was live before, and never from a generation: an operation can do
so in six ways (freeing, releasing by handle, the end of a guard that is not kept, cleaning up, and
creating or opening a scope over a live slot that may be replaced), and a scope can do so twice.

Two facts about one operation carry everything:

* `generation_effect`: the generation grows by exactly the releases, and
* `effect_of_releases_eq_zero`: a live slot that is not released is edited in place.

`slot_performAll` takes them along a history, and `handle_names_one_buffer` reads off what a handle
can be used for at its end. The bound of 2³² releases is what the wrapping counter needs; nothing
else in the argument is finite.
-/

namespace SlotLang

/-! ### Counting releases -/

/-- How often the end of a guard releases the guarded buffer. -/
def GuardEnd.releases : GuardEnd → Nat
  | .keep => 0
  | .release | .drop => 1

namespace Table

variable {a : Allocator} {t : Table} {i : Nat} {s : Slot}

/-- How often an operation on `t` releases a buffer of slot `i`. -/
def releases (a : Allocator) (t : Table) (i : Nat) : Operation → Nat
  | .create index size =>
    if index = i ∧ (t.create a index size).result.isOk ∧ t.isInitialized i then 1 else 0
  | .free index => if index = i ∧ (t.free index).result matches .ok true then 1 else 0
  | .release h => if h.index = i ∧ (t.release h).result.isOk then 1 else 0
  | .cleanup => if t.isInitialized i then 1 else 0
  | .scoped index size _ ending =>
    if index = i ∧ (t.create a index size).result.isOk then
      (if t.isInitialized i then 1 else 0) + ending.releases
    else 0
  | _ => 0

/-- How often a history that begins with `t` releases a buffer of slot `i`. -/
def releasesAll (a : Allocator) (t : Table) (i : Nat) : List Operation → Nat
  | [] => 0
  | op :: ops => t.releases a i op + (t.perform a op).table.releasesAll a i ops

/-- What an operation on `t` writes into the buffer of slot `i`, if it leaves it there. -/
def edits (t : Table) (i : Nat) : Operation → List UInt8 → List UInt8
  | .poke index bytes => if index = i then overwriteStart bytes else id
  | .pokeHandle h bytes => if h.index = i ∧ t.isLive h then overwriteStart bytes else id
  | .writeInt index value => if index = i then storeInt value else id
  | _ => id

/-- What a history that begins with `t` writes into the buffer of slot `i`. -/
def editsAll (a : Allocator) (t : Table) (i : Nat) : List Operation → List UInt8 → List UInt8
  | [] => id
  | op :: ops => (t.perform a op).table.editsAll a i ops ∘ t.edits i op

/-! ### One operation -/

theorem isInitialized_of_getElem? (hs : t.slots[i]? = some s) : t.isInitialized i = s.isLive := by
  rw [isInitialized, hs]

/-- **The generation counts the releases.** -/
theorem generation_effect (hs : t.slots[i]? = some s) (op : Operation) :
    (t.effect a i op s).generation = s.generation + UInt32.ofNat (t.releases a i op) := by
  have hinit := isInitialized_of_getElem? hs
  have hzero : s.generation = s.generation + UInt32.ofNat 0 := (UInt32.add_zero _).symm
  have hrelease : s.release.generation =
      s.generation + UInt32.ofNat (if s.isLive = true then 1 else 0) := by
    rw [Slot.generation_release]
    split
    · rfl
    · exact hzero
  cases op with
  | create index size =>
    rw [effect, releases]
    by_cases hc : index = i ∧ (t.create a index size).result.isOk = true
    · -- the old buffer is released on the way, if there is one
      obtain ⟨rfl, hok⟩ := hc
      rw [if_pos ⟨rfl, hok⟩, Slot.generation_renew, hrelease, hinit]
      simp only [hok, true_and]
    · rw [if_neg hc, if_neg fun h ↦ hc ⟨h.1, h.2.1⟩]
      exact hzero
  | free index =>
    rw [effect, releases]
    by_cases hi : index = i
    · subst hi
      rw [if_pos rfl, hrelease]
      by_cases hlive : s.isLive = true
      · simp [free_of_isLive hs hlive, hlive]
      · simp [free, slot, hs, hlive]
    · rw [if_neg hi, if_neg fun h ↦ hi h.1]
      exact hzero
  | release h =>
    rw [effect, releases]
    by_cases hi : h.index = i
    · subst hi
      by_cases hl : t.isLive h = true
      · obtain ⟨s', hs', hlive, -⟩ := isLive_iff.1 hl
        obtain rfl : s = s' := Option.some.inj (hs.symm.trans hs')
        rw [if_pos ⟨rfl, hl⟩, hrelease, release_of_isLive hl]
        simp [hlive, Except.isOk, Except.toBool]
      · rw [if_neg (by simp [hl]), release_of_stale hs (by simpa using hl), if_neg]
        · exact hzero
        · exact fun h ↦ Bool.false_ne_true h.2
    · rw [if_neg fun h ↦ hi h.1, if_neg fun h ↦ hi h.1]
      exact hzero
  | cleanup =>
    rw [effect, releases, hrelease, hinit]
  | «scoped» index size steps ending =>
    rw [effect, releases]
    by_cases hc : index = i ∧ (t.create a index size).result.isOk = true
    · -- what the scope replaces is released first, then what it made unless that is kept
      rw [if_pos hc, if_pos hc, hinit, UInt32.ofNat_add, ← UInt32.add_assoc, ← hrelease]
      cases ending with
      | keep => exact (UInt32.add_zero _).symm
      | release | drop => rfl
    · rw [if_neg hc, if_neg hc]
      exact hzero
  | poke index bytes =>
    rw [effect]
    split <;> exact hzero
  | pokeHandle h bytes =>
    rw [effect]
    split <;> exact hzero
  | writeInt index value =>
    rw [effect]
    split <;> exact hzero
  | handle | isInitialized | isLive | sizeOf | bytes | get | readInt | capacity | config
  | liveSlots => exact hzero

/-- **A live slot that is not released stays live**, and its buffer is edited in place. -/
theorem effect_of_releases_eq_zero (hs : t.slots[i]? = some s) (hlive : s.isLive = true)
    {op : Operation} (h0 : t.releases a i op = 0) :
    t.effect a i op s = s.edit (t.edits i op) := by
  have hinit : t.isInitialized i = true := (isInitialized_of_getElem? hs).trans hlive
  have hid : s = s.edit id := by rw [Slot.edit_id]; rfl
  cases op with
  | create index size =>
    -- a creation that succeeds on a live slot releases it
    rw [effect, if_neg]
    · exact hid
    · intro hc
      rw [releases, if_pos ⟨hc.1, hc.2, hinit⟩] at h0
      cases h0
  | free index =>
    rw [effect, if_neg]
    · exact hid
    · rintro rfl
      rw [releases, free_of_isLive hs hlive, if_pos (by simp)] at h0
      cases h0
  | release h =>
    rw [effect, if_neg]
    · exact hid
    · rintro ⟨rfl, hl⟩
      rw [releases, release_of_isLive hl, if_pos (by simp [Except.isOk, Except.toBool])] at h0
      cases h0
  | cleanup =>
    rw [releases, if_pos hinit] at h0
    cases h0
  | «scoped» index size steps ending =>
    rw [effect, if_neg]
    · exact hid
    · intro hc
      rw [releases, if_pos hc, if_pos hinit] at h0
      omega
  | poke index bytes =>
    rw [effect, edits]
    split
    · rfl
    · exact hid
  | pokeHandle h bytes =>
    rw [effect, edits]
    split
    · rfl
    · exact hid
  | writeInt index value =>
    rw [effect, edits]
    split
    · rfl
    · exact hid
  | handle | isInitialized | isLive | sizeOf | bytes | get | readInt | capacity | config
  | liveSlots => exact hid

/-! ### A history -/

/-- **A slot along a history**: its generation grows by the releases, and as long as there is none
its buffer stays, changed only by what is written to it. -/
theorem slot_performAll (hs : t.slots[i]? = some s) (ops : List Operation) :
    ∃ s', (t.performAll a ops).slots[i]? = some s' ∧
      s'.generation = s.generation + UInt32.ofNat (t.releasesAll a i ops) ∧
      ∀ b, s.data = some b → t.releasesAll a i ops = 0 →
        s'.data = some (t.editsAll a i ops b) := by
  induction ops generalizing t s with
  | nil => exact ⟨s, hs, (UInt32.add_zero _).symm, fun b hb _ ↦ hb⟩
  | cons op ops ih =>
    have hstep : (t.perform a op).table.slots[i]? = some (t.effect a i op s) := by
      rw [getElem?_slots_perform, hs]
      rfl
    obtain ⟨s', hs', hgen, hdata⟩ := ih hstep
    refine ⟨s', hs', ?_, fun b hb h0 ↦ ?_⟩
    · rw [hgen, generation_effect hs, UInt32.add_assoc, ← UInt32.ofNat_add]
      rfl
    · have h0' : t.releases a i op + (t.perform a op).table.releasesAll a i ops = 0 := h0
      have hlive : s.isLive = true := by rw [Slot.isLive, hb]; rfl
      refine hdata (t.edits i op b) ?_ (by omega)
      rw [effect_of_releases_eq_zero hs hlive (by omega), Slot.edit, hb]
      rfl

end Table

/-! ### Where handles come from -/

/-- The handle in a value, if it has one. -/
def Value.handle? : Value → Option Handle
  | .handle h => some h
  | .scope x => some x.handle
  | _ => none

/-- The handle that an operation gives out, if it gives one. -/
def Step.handle? (x : Step Value) : Option Handle := x.result.toOption.bind Value.handle?

theorem Step.handle?_map {α : Type} (x : Step α) (f : α → Value) :
    (x.map f).handle? = x.result.toOption.bind fun v ↦ (f v).handle? := by
  rcases x with ⟨_ | _, _, _⟩ <;> rfl

theorem Step.handle?_look {α : Type} (t : Table) (r : Except TableError α) (f : α → Value) :
    (Step.look t (r.map f)).handle? = r.toOption.bind fun v ↦ (f v).handle? := by
  cases r <;> rfl

/-- How often an operation releases the buffer whose handle it has just given out: a scope does so
at its end. -/
def Operation.closing : Operation → Nat
  | .scoped _ _ _ ending => ending.releases
  | _ => 0

namespace Table

variable {a : Allocator} {t : Table} {h : Handle}

theorem handle_eq_ok {i : Nat} (hr : t.handle i = .ok h) :
    ∃ s, t.slots[i]? = some s ∧ s.isLive = true ∧ h = ⟨i, s.generation⟩ := by
  unfold handle slot at hr
  rcases hs : t.slots[i]? with - | s
  · rw [hs] at hr
    cases hr
  · simp only [hs] at hr
    split at hr
    · cases hr
      exact ⟨s, rfl, ‹_›, rfl⟩
    · cases hr

/-- **A handle when it is given out**: its slot has its generation, but for the release at the end
of the very scope it comes from, and without such a release it is live. -/
theorem slot_of_handle? {op : Operation} (hop : (t.perform a op).handle? = some h) :
    ∃ s, (t.perform a op).table.slots[h.index]? = some s ∧
      s.generation = h.generation + UInt32.ofNat op.closing ∧
      (op.closing = 0 → s.isLive = true) := by
  cases op with
  | create index size =>
    rw [perform, Step.handle?_map] at hop
    rcases hr : (t.create a index size).result with e | h'
    · rw [hr] at hop
      cases hop
    · rw [hr] at hop
      obtain rfl := Option.some.inj hop
      obtain ⟨s, hs, hlive, hgen⟩ := isLive_iff.1 (isLive_of_create hr).1
      exact ⟨s, hs, hgen.trans (UInt32.add_zero _).symm, fun _ ↦ hlive⟩
  | handle index =>
    rw [perform, Step.handle?_look] at hop
    rcases hr : t.handle index with e | h'
    · rw [hr] at hop
      cases hop
    · rw [hr] at hop
      obtain rfl := Option.some.inj hop
      obtain ⟨s, hs, hlive, rfl⟩ := handle_eq_ok hr
      exact ⟨s, hs, (UInt32.add_zero _).symm, fun _ ↦ hlive⟩
  | «scoped» index size steps ending =>
    rw [perform, Step.handle?_map] at hop
    rcases hr : (t.create a index size).result with e | h'
    · rw [(table_scoped_of_error hr steps ending).2] at hop
      cases hop
    · obtain ⟨hslots, x, hx, rfl⟩ := slots_scoped_of_ok hr steps ending
      rw [hx] at hop
      obtain rfl := Option.some.inj hop
      obtain ⟨s, hs, -, hh, -⟩ := create_of_ok hr
      have hindex : x.handle.index = index := (isLive_of_create hr).2
      have hgen : x.handle.generation = s.release.generation := by rw [hh]
      refine ⟨scopeEffect size steps ending s, ?_, ?_, ?_⟩
      · show (t.scoped a index size steps ending).table.slots[x.handle.index]? = _
        rw [hslots, hindex, getElem?_slots_rewrite_self, hs]
        rfl
      · rw [hgen]
        cases ending with
        | keep => exact (UInt32.add_zero _).symm
        | release | drop => rfl
      · cases ending with
        | keep => exact fun _ ↦ rfl
        | release | drop => exact fun h0 ↦ absurd h0 Nat.one_ne_zero
  | isInitialized | isLive | capacity | config | liveSlots => cases hop
  | _ =>
    simp only [perform, Step.handle?_map, Step.handle?_look, Value.handle?, Option.bind_fun_none,
      reduceCtorEq] at hop

/-! ### What a handle is good for -/

/-- A counter modulo 2³² that has moved fewer than 2³² times shows whether it has moved. -/
theorem generation_add_ne {n : Nat} (hn : n ≠ 0) (hlt : n < UInt32.size) (g : UInt32) :
    g + UInt32.ofNat n ≠ g := by
  intro heq
  have hnat := congrArg UInt32.toNat heq
  have hg := g.toNat_lt
  have hn' : n < 4294967296 := hlt
  rw [UInt32.toNat_add, UInt32.toNat_ofNat'] at hnat
  omega

section Moved

variable {s : Slot} {n : Nat} (hs : t.slots[h.index]? = some s)
  (hgen : s.generation = h.generation + UInt32.ofNat n) (hlive : n = 0 → s.isLive = true)
include hs hgen hlive

/-- A handle whose slot has moved on by `n` releases is live exactly if `n` is zero. -/
theorem isLive_iff_of_generation (hlt : n < UInt32.size) : t.isLive h = true ↔ n = 0 := by
  rw [isLive_iff]
  constructor
  · rintro ⟨s', hs', -, hgen'⟩
    obtain rfl : s = s' := Option.some.inj (hs.symm.trans hs')
    exact Decidable.byContradiction fun h0 ↦
      generation_add_ne h0 hlt h.generation (hgen.symm.trans hgen')
  · rintro rfl
    exact ⟨s, hs, hlive rfl, hgen.trans (UInt32.add_zero _)⟩

/-- A buffer created in the slot of a handle has a generation above it, so it gets another handle
unless the releases have gone round. -/
theorem ne_of_create {index size : Nat} {h' : Handle}
    (hr : (t.create a index size).result = .ok h')
    (hlt : n + t.releases a h.index (.create index size) < UInt32.size) : h' ≠ h := by
  rintro rfl
  obtain ⟨s', hs', -, hh, -⟩ := create_of_ok hr
  obtain rfl : index = h'.index := by rw [hh]
  obtain rfl : s = s' := Option.some.inj (hs.symm.trans hs')
  have hok : (t.create a h'.index size).result.isOk = true := by rw [hr]; rfl
  have heq : s.generation + UInt32.ofNat (t.releases a h'.index (.create h'.index size)) =
      h'.generation := by
    rw [← generation_effect hs, effect, if_pos ⟨rfl, hok⟩, Slot.generation_renew, hh]
  rw [hgen, UInt32.add_assoc, ← UInt32.ofNat_add] at heq
  refine generation_add_ne (fun h0 ↦ ?_) hlt h'.generation heq
  -- nothing was released before, so the slot was live and the creation has released it
  have hinit := (isInitialized_of_getElem? hs).trans (hlive (by omega))
  rw [releases, if_pos ⟨rfl, hok, hinit⟩] at h0
  omega

end Moved

/-- **The slot of a handle at the end of a history.** Its generation is off the handle's by the
releases since, and without any it holds the handle's buffer, as the writes have left it. -/
theorem slot_of_handle {op : Operation} (hop : (t.perform a op).handle? = some h)
    (later : List Operation) :
    ∃ s, ((t.perform a op).table.performAll a later).slots[h.index]? = some s ∧
      s.generation = h.generation +
        UInt32.ofNat (op.closing + (t.perform a op).table.releasesAll a h.index later) ∧
      (op.closing + (t.perform a op).table.releasesAll a h.index later = 0 →
        ∃ b, (t.perform a op).table.bytes h.index = .ok b ∧
          s.data = some ((t.perform a op).table.editsAll a h.index later b)) := by
  obtain ⟨s₁, hs₁, hgen₁, hlive₁⟩ := slot_of_handle? hop
  obtain ⟨s, hs, hgen, hdata⟩ := slot_performAll (a := a) hs₁ later
  refine ⟨s, hs, ?_, fun h0 ↦ ?_⟩
  · rw [hgen, hgen₁, UInt32.add_assoc, ← UInt32.ofNat_add]
  · obtain ⟨b, hb⟩ := Option.isSome_iff_exists.1 (hlive₁ (by omega))
    refine ⟨b, bytes_eq_ok_iff.2 (buffer?_eq_some_iff.2 ⟨s₁, hs₁, hb⟩), ?_⟩
    exact hdata b hb (by omega)

/-- A moment inside a scope is the end of the scope of the steps made so far, kept. So histories of
whole operations reach every table there ever is. -/
theorem table_scoped_keep {i n : Nat} (hr : (t.create a i n).result = .ok h)
    (steps : List GuardStep) :
    (t.scoped a i n steps .keep).table = (Guard.run ⟨(t.create a i n).table, h⟩ steps).2 := by
  simp only [Table.scoped, hr]
  rfl

/-- **Handles never alias.** Take a handle from any operation on any table, and let any history
follow in which its slot is released fewer than 2³² times. The handle is live exactly if its slot
has not been released since. If so, it leads to the buffer it was given out for, with what has been
written to it since, and can be released; if not, every use of it fails and changes nothing,
whatever its slot holds by now. And no buffer created then, under the same bound, gets this handle
again. -/
theorem handle_names_one_buffer {op : Operation} (hop : (t.perform a op).handle? = some h)
    (later : List Operation)
    (hbound : op.closing + (t.perform a op).table.releasesAll a h.index later < UInt32.size) :
    let start := (t.perform a op).table
    let now := start.performAll a later
    let released := op.closing + start.releasesAll a h.index later
    (now.isLive h = true ↔ released = 0) ∧
      (released = 0 → ∃ b, start.bytes h.index = .ok b ∧
        now.get h = .ok (start.editsAll a h.index later b) ∧
        (∀ bytes, (now.pokeHandle h bytes).result =
          .ok (overwriteStart bytes (start.editsAll a h.index later b))) ∧
        (now.release h).result = .ok ()) ∧
      (released ≠ 0 → now.get h = .error (.useAfterFree h.index) ∧
        (∀ bytes, now.pokeHandle h bytes = now.refuse (.useAfterFree h.index)) ∧
        now.release h = now.refuse (.doubleFree h.index)) ∧
      ∀ index size h', (now.create a index size).result = .ok h' →
        released + now.releases a h.index (.create index size) < UInt32.size → h' ≠ h := by
  intro start now released
  obtain ⟨s, hs, hgen, hdata⟩ : ∃ s, now.slots[h.index]? = some s ∧
      s.generation = h.generation + UInt32.ofNat released ∧ (released = 0 →
        ∃ b, start.bytes h.index = .ok b ∧ s.data = some (start.editsAll a h.index later b)) :=
    slot_of_handle hop later
  have hlive : released = 0 → s.isLive = true := by
    intro h0
    obtain ⟨b, -, hb⟩ := hdata h0
    rw [Slot.isLive, hb]
    rfl
  have hiff : now.isLive h = true ↔ released = 0 := isLive_iff_of_generation hs hgen hlive hbound
  refine ⟨hiff, fun h0 ↦ ?_, fun h0 ↦ ?_, fun index size h' hr hlt ↦ ?_⟩
  · obtain ⟨b, hb, hnow⟩ := hdata h0
    have hbuffer := buffer?_eq_some_iff.2 ⟨s, hs, hnow⟩
    have hget := (get_of_isLive (hiff.2 h0)).trans (bytes_eq_ok_iff.2 hbuffer)
    refine ⟨b, hb, hget, fun bytes ↦ ?_, release_of_isLive (hiff.2 h0)⟩
    rw [pokeHandle, hget]
    exact editBytes_of_buffer? hbuffer _
  · have hstale : now.isLive h = false := by
      rw [← Bool.not_eq_true, hiff]
      exact h0
    have hget := get_of_stale hs hstale
    exact ⟨hget, pokeHandle_of_error hget, release_of_stale hs hstale⟩
  · exact ne_of_create hs hgen hlive hr hlt

/-- The handle of a buffer that was written to and then replaced: its slot is live again, and the
handle is of no use. -/
theorem replaced_handle_is_stale :
    ((Table.fresh { capacity := 1, overwrite := .replace }).perform .system
        (.create 0 4)).handle? = some ⟨0, 0⟩ ∧
      let now := ((Table.fresh { capacity := 1, overwrite := .replace }).perform .system
        (.create 0 4)).table.performAll .system [.writeInt 0 7, .create 0 8]
      now.isInitialized 0 = true ∧ now.get ⟨0, 0⟩ = .error (.useAfterFree 0) ∧
        now.release ⟨0, 0⟩ = now.refuse (.doubleFree 0) := by
  have hop : ((Table.fresh { capacity := 1, overwrite := .replace }).perform .system
      (.create 0 4)).handle? = some ⟨0, 0⟩ := rfl
  obtain ⟨-, -, hstale, -⟩ :=
    handle_names_one_buffer hop [.writeInt 0 7, .create 0 8] (by decide)
  obtain ⟨hget, -, hrelease⟩ := hstale (by decide)
  exact ⟨hop, rfl, hget, hrelease⟩

end Table

end SlotLang
