import SlotLang.Proofs.Handles
import SlotLang.Proofs.Isolation

/-!
# No leak and no double release

The books of a table over its whole life, as two lists of buffers, each buffer given by its slot and
its size: those that were made and those that were released. `Table.made` and `Table.released` keep
them, operation by operation, and go by the answers: a creation or a scope that succeeds makes a
buffer, and a buffer is released where freeing answers that it has, where releasing by handle
succeeds, at the end of a guard that is not kept, where a successful creation or scope finds its
slot live, and for every live slot where all are cleaned up.

What is made is then live or released, as lists up to their order: `perm_perform` for one operation,
`perm_performAll` for a history. Nothing is released that was not made or was released before, and
nothing is lost. Numbers and bytes are read off, and so is the generation of a slot, which counts
the buffers released from it (`count_released`).

The step is shown for one slot (`perm_entry_effect`), through the effect that the operation has on
it; the rest of the table takes no part (`perm_liveSlots_rewrite`).
-/

namespace SlotLang

/-- The buffer of slot `i`, if the slot has one. -/
def Slot.entry (i : Nat) (s : Slot) : List (Nat × Nat) := if s.isLive then [(i, s.size)] else []

namespace Table

/-! ### The books -/

/-- The number of bytes that a slot takes. -/
def sizeAt (t : Table) (i : Nat) : Nat := (t.slots[i]?.map Slot.size).getD 0

/-- The buffers that an operation on `t` makes. -/
def made (a : Allocator) (t : Table) : Operation → List (Nat × Nat)
  | .create i n => if (t.create a i n).result.isOk then [(i, n)] else []
  | .scoped i n steps ending =>
    if (t.scoped a i n steps ending).result.isOk then [(i, n)] else []
  | _ => []

/-- The buffers that an operation on `t` releases. -/
def released (a : Allocator) (t : Table) : Operation → List (Nat × Nat)
  | .create i n =>
    if (t.create a i n).result.isOk ∧ t.isInitialized i then [(i, t.sizeAt i)] else []
  | .free i => if (t.free i).result matches .ok true then [(i, t.sizeAt i)] else []
  | .release h => if (t.release h).result.isOk then [(h.index, t.sizeAt h.index)] else []
  | .cleanup => t.liveSlots
  | .scoped i n steps ending =>
    if (t.scoped a i n steps ending).result.isOk then
      (if t.isInitialized i then [(i, t.sizeAt i)] else []) ++ List.replicate ending.releases (i, n)
    else []
  | _ => []

/-- The buffers that a history that begins with `t` makes. -/
def madeAll (a : Allocator) (t : Table) : List Operation → List (Nat × Nat)
  | [] => []
  | op :: ops => t.made a op ++ (t.perform a op).table.madeAll a ops

/-- The buffers that a history that begins with `t` releases. -/
def releasedAll (a : Allocator) (t : Table) : List Operation → List (Nat × Nat)
  | [] => []
  | op :: ops => t.released a op ++ (t.perform a op).table.releasedAll a ops

variable {a : Allocator} {t : Table} {i n : Nat} {s : Slot} {op : Operation}

/-! ### One slot -/

theorem entry_of_isLive (hlive : s.isLive = true) : s.entry i = [(i, s.size)] := if_pos hlive

theorem entry_of_dead (hdead : s.isLive = false) : s.entry i = [] := by
  rw [Slot.entry, hdead]
  rfl

@[simp]
theorem entry_renew (i n : Nat) (s : Slot) : (s.renew n).entry i = [(i, n)] := by
  rw [entry_of_isLive rfl, Slot.renew, Slot.size_install]

@[simp]
theorem entry_release (i : Nat) (s : Slot) : s.release.entry i = [] :=
  entry_of_dead s.isLive_release

theorem entry_edit {f : List UInt8 → List UInt8} (hf : ∀ b, (f b).length = b.length) (i : Nat)
    (s : Slot) : (s.edit f).entry i = s.entry i := by
  rw [Slot.entry, Slot.entry, Slot.isLive_edit, size_edit hf]

theorem sizeAt_of_getElem? (hs : t.slots[i]? = some s) : t.sizeAt i = s.size := by
  rw [sizeAt, hs]
  rfl

theorem isOk_scoped (steps : List GuardStep) (ending : GuardEnd) :
    (t.scoped a i n steps ending).result.isOk = (t.create a i n).result.isOk := by
  rcases hr : (t.create a i n).result with e | h
  · rw [(table_scoped_of_error hr steps ending).2]
    rfl
  · obtain ⟨-, x, hx, -⟩ := slots_scoped_of_ok hr steps ending
    rw [hx]
    rfl

/-- A scope leaves its buffer in the slot, unless the guard's end releases it. -/
theorem entry_scopeEffect_append (i n : Nat) (steps : List GuardStep) (ending : GuardEnd)
    (s : Slot) :
    (scopeEffect n steps ending s).entry i ++ List.replicate ending.releases (i, n) = [(i, n)] := by
  cases ending with
  | keep =>
    show (((s.renew n).edit (GuardStep.editAll steps)).entry i) ++ [] = _
    rw [entry_edit (GuardStep.length_editAll steps), entry_renew, List.append_nil]
  | release | drop =>
    show (((s.renew n).edit (GuardStep.editAll steps)).release.entry i) ++ [(i, n)] = _
    rw [entry_release, List.nil_append]

/-- **One slot**, and an operation that addresses it: what was in it and what is made are what is in
it afterwards and what is released. -/
theorem perm_entry_effect (hs : t.slots[i]? = some s) (hop : op.address? = some i) :
    ((t.effect a i op s).entry i ++ t.released a op).Perm (s.entry i ++ t.made a op) := by
  have hentry : (if t.isInitialized i = true then [(i, t.sizeAt i)] else []) = s.entry i := by
    rw [isInitialized_of_getElem? hs, sizeAt_of_getElem? hs, Slot.entry]
  cases op with
  | create index size =>
    obtain rfl := Option.some.inj hop
    by_cases hok : (t.create a index size).result.isOk = true
    · -- what was in the slot is released, and the new buffer takes its place
      simp only [effect, released, made, hok, true_and, if_true, entry_renew, hentry]
      exact List.perm_append_comm
    · simp only [effect, released, made, hok]
      exact .refl _
  | free index =>
    obtain rfl := Option.some.inj hop
    by_cases hlive : s.isLive = true
    · simp [effect, released, made, free_of_isLive hs hlive, entry_of_isLive hlive,
        sizeAt_of_getElem? hs]
    · simp [effect, released, made, free, slot, hs, hlive, Slot.entry]
  | release h =>
    obtain rfl := Option.some.inj hop
    by_cases hl : t.isLive h = true
    · obtain ⟨s', hs', hlive, -⟩ := isLive_iff.1 hl
      obtain rfl : s = s' := Option.some.inj (hs.symm.trans hs')
      simp [effect, released, made, hl, release_of_isLive hl, entry_of_isLive hlive,
        sizeAt_of_getElem? hs, Except.isOk, Except.toBool]
    · simp [effect, released, made, hl, release_of_stale hs, refuse, Except.isOk, Except.toBool]
  | poke index bytes =>
    obtain rfl := Option.some.inj hop
    simp [effect, released, made, entry_edit (length_overwriteStart bytes)]
  | pokeHandle h bytes =>
    obtain rfl := Option.some.inj hop
    by_cases hl : t.isLive h = true
    · simp [effect, released, made, hl, entry_edit (length_overwriteStart bytes)]
    · simp [effect, released, made, hl]
  | writeInt index value =>
    obtain rfl := Option.some.inj hop
    simp [effect, released, made, entry_edit (length_storeInt value)]
  | «scoped» index size steps ending =>
    obtain rfl := Option.some.inj hop
    by_cases hok : (t.create a index size).result.isOk = true
    · simp only [effect, released, made, isOk_scoped, hok, true_and, if_true, hentry]
      -- what was in the slot is released first, as in a creation, and the new buffer at the end
      refine (List.perm_append_comm_assoc ..).trans ?_
      rw [entry_scopeEffect_append]
    · simp only [effect, released, made, isOk_scoped, hok]
      exact .refl _
  | handle | isInitialized | isLive | sizeOf | bytes | get | readInt => exact .refl _
  | capacity | config | liveSlots | cleanup => exact absurd hop.symm (Option.some_ne_none i)

/-! ### One operation -/

theorem liveSlots_eq_flatMap (t : Table) :
    t.liveSlots = t.slots.zipIdx.flatMap fun x ↦ x.1.entry x.2 := by
  rw [liveSlots, List.filterMap_eq_flatMap_toList]
  refine List.flatMap_congr fun x _ ↦ ?_
  rcases x with ⟨⟨_ | b, _⟩, _⟩ <;> rfl

/-- Rewriting a slot exchanges its buffer in the list of the live slots. -/
theorem perm_liveSlots_rewrite (hs : t.slots[i]? = some s) (f : Slot → Slot) :
    ((t.rewrite i f).liveSlots ++ s.entry i).Perm (t.liveSlots ++ (f s).entry i) := by
  obtain ⟨l, r, rfl, hold, hnew⟩ := slots_rewrite_eq hs f
  simp only [liveSlots_eq_flatMap, hold, hnew, List.zipIdx_append, List.zipIdx_cons,
    List.flatMap_append, List.flatMap_cons, Nat.zero_add]
  refine List.perm_iff_count.2 fun x ↦ ?_
  simp only [List.count_append]
  omega

/-- On a slot that does not exist, nothing is made and nothing released. -/
theorem made_and_released_of_none (hs : t.slots[i]? = none) (hop : op.address? = some i) :
    t.made a op = [] ∧ t.released a op = [] := by
  have hslot : t.slot i = .error (.indexOutOfRange i t.capacity) := by rw [slot, hs]
  have hcreate : ∀ n, (t.create a i n).result.isOk = false := fun n ↦ by rw [create, hslot]; rfl
  cases op with
  | create index size =>
    obtain rfl := Option.some.inj hop
    simp [made, released, hcreate]
  | free index =>
    obtain rfl := Option.some.inj hop
    simp [made, released, free, hslot, refuse]
  | release h =>
    obtain rfl := Option.some.inj hop
    simp [made, released, release, isLive, hs, hslot, refuse, Except.isOk, Except.toBool]
  | «scoped» index size steps ending =>
    obtain rfl := Option.some.inj hop
    simp [made, released, isOk_scoped, hcreate]
  | cleanup => exact absurd hop.symm (Option.some_ne_none i)
  | _ => exact ⟨rfl, rfl⟩

theorem liveSlots_eq_nil (h : ∀ s ∈ t.slots, s.isLive = false) : t.liveSlots = [] := by
  rw [liveSlots_eq_flatMap, List.flatMap_eq_nil_iff]
  exact fun x hx ↦ entry_of_dead (h x.1 (List.fst_mem_of_mem_zipIdx hx))

theorem liveSlots_fresh (config : TableConfig) : (fresh config).liveSlots = [] :=
  liveSlots_eq_nil fun _ hs ↦ by rw [List.eq_of_mem_replicate hs]; rfl

theorem liveSlots_emptied (t : Table) : t.emptied.liveSlots = [] := by
  refine liveSlots_eq_nil fun s hs ↦ ?_
  obtain ⟨s', -, rfl⟩ := List.mem_map.1 hs
  exact s'.isLive_release

/-- **One operation**: what was live and what it makes are what is live afterwards and what it
releases. -/
theorem perm_perform (a : Allocator) (t : Table) (op : Operation) :
    ((t.perform a op).table.liveSlots ++ t.released a op).Perm (t.liveSlots ++ t.made a op) := by
  rcases hop : op.address? with - | i
  · cases op with
    | cleanup =>
      show (t.emptied.liveSlots ++ t.liveSlots).Perm (t.liveSlots ++ [])
      rw [liveSlots_emptied]
      exact List.perm_append_comm
    | capacity | config | liveSlots => exact .refl _
    | _ => cases hop
  · have hlive : (t.perform a op).table.liveSlots = (t.rewrite i (t.effect a i op)).liveSlots := by
      rw [liveSlots, slots_perform_of_address? hop]
      rfl
    rw [hlive]
    rcases hs : t.slots[i]? with - | s
    · obtain ⟨hmade, hreleased⟩ := made_and_released_of_none (a := a) hs hop
      rw [rewrite_eq_self (by simp [hs]), hmade, hreleased]
    · -- the slot's own balance, with the same buffers added on both sides
      refine List.perm_iff_count.2 fun x ↦ ?_
      have hslot := List.perm_iff_count.1 (perm_entry_effect (a := a) hs hop) x
      have hrest := List.perm_iff_count.1 (perm_liveSlots_rewrite hs (t.effect a i op)) x
      simp only [List.count_append] at hslot hrest ⊢
      omega

/-! ### A history -/

theorem perm_performAll (a : Allocator) (t : Table) (ops : List Operation) :
    ((t.performAll a ops).liveSlots ++ t.releasedAll a ops).Perm
      (t.liveSlots ++ t.madeAll a ops) := by
  induction ops generalizing t with
  | nil => exact .refl _
  | cons op ops ih =>
    refine List.perm_iff_count.2 fun x ↦ ?_
    have hstep := List.perm_iff_count.1 (perm_perform a t op) x
    have hrest := List.perm_iff_count.1 (ih (t.perform a op).table) x
    simp only [performAll, List.foldl_cons, releasedAll, madeAll, List.count_append] at *
    omega

theorem releasedAll_append (t : Table) (ops ops' : List Operation) :
    t.releasedAll a (ops ++ ops') =
      t.releasedAll a ops ++ (t.performAll a ops).releasedAll a ops' := by
  induction ops generalizing t with
  | nil => rfl
  | cons op ops ih =>
    show t.released a op ++ (t.perform a op).table.releasedAll a (ops ++ ops') = _
    rw [ih, ← List.append_assoc]
    rfl

/-! ### Releases, slot by slot -/

theorem mem_liveSlots_iff : i ∈ t.liveSlots.map (·.1) ↔ t.isInitialized i = true := by
  rw [liveSlots_eq_flatMap, isInitialized]
  constructor
  · intro hi
    obtain ⟨x, hx, rfl⟩ := List.mem_map.1 hi
    obtain ⟨y, hy, hxy⟩ := List.mem_flatMap.1 hx
    rw [Slot.entry] at hxy
    split at hxy
    · obtain rfl := List.mem_singleton.1 hxy
      rw [List.mem_zipIdx_iff_getElem?.1 hy]
      assumption
    · cases hxy
  · intro hi
    split at hi
    · rename_i s hs
      refine List.mem_map.2 ⟨(i, s.size), List.mem_flatMap.2 ⟨(s, i), ?_, ?_⟩, rfl⟩
      · exact List.mem_zipIdx_iff_getElem?.2 hs
      · rw [entry_of_isLive hi]
        exact List.mem_singleton_self _
    · cases hi

theorem count_liveSlots (t : Table) (i : Nat) :
    (t.liveSlots.map (·.1)).count i = if t.isInitialized i then 1 else 0 := by
  have hnodup : (t.liveSlots.map (·.1)).Nodup := t.pairwise_liveSlots.imp Nat.ne_of_lt
  rw [hnodup.count]
  simp only [mem_liveSlots_iff]

theorem count_ite (c : Prop) [Decidable c] (i j n : Nat) :
    ((if c then [(j, n)] else []).map (·.1)).count i = if j = i ∧ c then 1 else 0 := by
  by_cases hc : c <;> by_cases hj : j = i <;> simp [hc, hj]

/-- The two ways to count the releases of a slot agree. -/
theorem count_released (a : Allocator) (t : Table) (i : Nat) (op : Operation) :
    ((t.released a op).map (·.1)).count i = t.releases a i op := by
  cases op with
  | create index size =>
    rw [released, releases, count_ite]
    exact if_congr (and_congr_right fun hi ↦ by rw [hi]) rfl rfl
  | free index => exact count_ite ..
  | release h => exact count_ite ..
  | «scoped» index size steps ending =>
    simp only [released, releases, isOk_scoped]
    by_cases hok : (t.create a index size).result.isOk = true
    · rw [if_pos hok, List.map_append, List.count_append, count_ite, List.map_replicate,
        List.count_replicate]
      by_cases hi : index = i
      · subst hi
        simp [hok]
      · simp [hi]
    · rw [if_neg hok, if_neg fun h ↦ hok h.2]
      rfl
  | cleanup => exact count_liveSlots t i
  | _ => rfl

theorem count_releasedAll (a : Allocator) (t : Table) (i : Nat) (ops : List Operation) :
    ((t.releasedAll a ops).map (·.1)).count i = t.releasesAll a i ops := by
  induction ops generalizing t with
  | nil => rfl
  | cons op ops ih =>
    rw [releasedAll, releasesAll, List.map_append, List.count_append, count_released, ih]

theorem generation_performAll_fresh {config : TableConfig} {ops : List Operation}
    (hs : ((fresh config).performAll a ops).slots[i]? = some s) :
    s.generation = UInt32.ofNat ((fresh config).releasesAll a i ops) := by
  have hi : i < config.capacity := by
    rw [← ((reaches_performAll a _ ops).accounts (accounts_fresh config)).length_eq]
    exact (List.getElem?_eq_some_iff.1 hs).1
  have hstart : (fresh config).slots[i]? = some {} := List.getElem?_replicate_of_lt hi
  obtain ⟨s', hs', hgen, -⟩ := slot_performAll (a := a) hstart ops
  obtain rfl : s = s' := Option.some.inj (hs.symm.trans hs')
  exact hgen.trans (UInt32.zero_add _)

/-- **No leak and no double release.** Let any history follow on an empty table. The buffers made so
far are those that are live and those that were released, each once, with slots and sizes; so they
agree in number and in bytes, where the table's own counters stand for the live ones. A slot's
generation is the number of buffers released from it, up to the width of the counter. Cleaning up
answers with the number that it releases, and with that everything made is released: nothing is
live, and no bytes are taken.

A moment inside a scope is the end of a scope that is kept, so that it is covered too. -/
theorem buffers_are_live_or_released_once (a : Allocator) (config : TableConfig)
    (history : List Operation) :
    let start := fresh config
    let now := start.performAll a history
    let made := start.madeAll a history
    let released := start.releasedAll a history
    made.Perm (now.liveSlots ++ released) ∧
      made.length = now.liveCount + released.length ∧
      (made.map (·.2)).sum = now.allocatedBytes + (released.map (·.2)).sum ∧
      (∀ (i : Nat) (s : Slot), now.slots[i]? = some s →
        s.generation = UInt32.ofNat ((released.map (·.1)).count i) ∧
        ((released.map (·.1)).count i < UInt32.size →
          s.generation.toNat = (released.map (·.1)).count i)) ∧
      now.cleanup.result = .ok (now.released a .cleanup).length ∧
      (start.releasedAll a (history ++ [.cleanup])).Perm made ∧
      now.cleanup.table.liveCount = 0 ∧ now.cleanup.table.allocatedBytes = 0 := by
  intro start now made released
  have hall : made.Perm (now.liveSlots ++ released) := by
    have hrun := perm_performAll a start history
    rw [liveSlots_fresh, List.nil_append] at hrun
    exact hrun.symm
  have hbooks : now.Accounts config :=
    (reaches_performAll a start history).accounts (accounts_fresh config)
  refine ⟨hall, ?_, ?_, fun i s hs ↦ ?_, ?_, ?_, liveCount_emptied, rfl⟩
  · rw [hall.length_eq, List.length_append, length_liveSlots]
  · rw [(hall.map (·.2)).sum_eq, List.map_append, List.sum_append, sum_liveSlots, hbooks.bytes_eq]
  · have hgen : s.generation = UInt32.ofNat ((released.map (·.1)).count i) := by
      rw [count_releasedAll]
      exact generation_performAll_fresh hs
    refine ⟨hgen, fun hlt ↦ ?_⟩
    rw [hgen]
    exact UInt32.toNat_ofNat_of_lt' hlt
  · exact congrArg Except.ok now.length_liveSlots.symm
  · rw [releasedAll_append]
    show (released ++ (now.liveSlots ++ [])).Perm made
    rw [List.append_nil]
    exact List.perm_append_comm.trans hall.symm

/-- A life with every way to release a buffer: slot 0 is replaced and then freed, slot 1 is left by
a guard that is dropped and released by the handle that a kept one gave out, and the buffers made
last are cleaned up. -/
theorem six_buffers_end_released :
    let start := fresh { capacity := 2, overwrite := .replace }
    let history : List Operation := [.create 0 4, .create 0 8, .free 0, .free 0,
      .scoped 1 4 [.writeInt 7] .drop, .scoped 1 16 [] .keep, .release ⟨1, 1⟩, .release ⟨1, 1⟩,
      .create 0 8, .create 1 2]
    let now := start.performAll .system history
    now.slots[1]? = some ⟨some [0, 0], 2⟩ ∧
      start.releasedAll .system history = [(0, 4), (0, 8), (1, 4), (1, 16)] ∧
      (start.madeAll .system history).length = now.liveCount + 4 ∧
      ((start.madeAll .system history).map (·.2)).sum = now.allocatedBytes + 32 ∧
      (2 : UInt32).toNat = ((start.releasedAll .system history).map (·.1)).count 1 ∧
      (start.releasedAll .system (history ++ [.cleanup])).Perm (start.madeAll .system history) := by
  intro start history now
  have hslot : now.slots[1]? = some ⟨some [0, 0], 2⟩ := by decide
  have hreleased : start.releasedAll .system history = [(0, 4), (0, 8), (1, 4), (1, 16)] := by
    decide
  obtain ⟨-, hcount, hbytes, hgen, -, hall, -, -⟩ :=
    buffers_are_live_or_released_once .system { capacity := 2, overwrite := .replace } history
  have hgen := (hgen 1 _ hslot).2 (by decide)
  rw [hreleased] at hcount hbytes
  exact ⟨hslot, hreleased, hcount, hbytes, hgen, hall⟩

end Table

end SlotLang
