import SlotLang.Proofs.Conservation

/-!
# When a slot can be created

Whether a creation succeeds is decided by four checks, in this order: the slot has to exist, it has
to be empty or replaceable, the bytes have to be within the limit, and the allocator has to grant
them. The limit is checked against the table's byte counter less the old size of the slot. What the
limit is about is another number, the bytes of all other live slots (`Table.others`); that the two
are the same is what the books of the table are for (`Accounts.others_add_size`).

A replacement is one step where freeing and creating are two. Both ask the same questions, since
what freeing takes off the counter is what replacing leaves out (`create_free`); they differ only in
what a refusal leaves behind.
-/

namespace SlotLang

theorem Slot.release_release (s : Slot) : s.release.release = s.release :=
  Slot.release_of_not_isLive s.isLive_release

namespace Table

variable {a : Allocator} {config : TableConfig} {start t : Table} {i n : Nat} {s : Slot}
  {h : Handle}

/-- The bytes of the live slots other than slot `i`. -/
def others (t : Table) (i : Nat) : Nat := ((t.liveSlots.filter (·.1 ≠ i)).map (·.2)).sum

/-- There is no memory for `n` bytes in slot `i`: with the bytes of the other slots they are more
than the limit, or the allocator refuses them. -/
def NoMemory (a : Allocator) (t : Table) (i n : Nat) : Prop :=
  (∃ limit, t.config.memoryLimit = some limit ∧ limit < t.others i + n) ∨
    a.grants t.allocatedBytes n = false

/-- The slot holds a buffer that may not be replaced. -/
def Taken (t : Table) (s : Slot) : Prop := s.isLive = true ∧ t.config.overwrite = .reject

/-- The table `t'` is `t` with `n` zero bytes in slot `i`, which was `s`, and `h` names them. -/
structure Installed (t : Table) (i n : Nat) (s : Slot) (h : Handle) (t' : Table) : Prop where
  /-- The handle has the generation of the slot, which counts the buffer that was there. -/
  handle_eq : h = ⟨i, if s.isLive then s.generation + 1 else s.generation⟩
  /-- The slot holds the bytes and has that generation. -/
  slot_eq : t'.slots[i]? = some ⟨some (List.replicate n 0), h.generation⟩
  /-- No other slot is touched. -/
  slots_eq : ∀ j, j ≠ i → t'.slots[j]? = t.slots[j]?
  /-- The counter is right. -/
  bytes_eq : t'.allocatedBytes = t.others i + n
  /-- The settings stay. -/
  config_eq : t'.config = t.config

/-! ### The bytes of the other slots -/

theorem filter_entry (s : Slot) (i j : Nat) :
    (s.entry j).filter (·.1 ≠ i) = if j = i then [] else s.entry j := by
  rw [Slot.entry]
  by_cases hj : j = i <;> by_cases hlive : s.isLive <;> simp [hj, hlive]

/-- A slot that is released is taken off the list of the live ones. -/
theorem liveSlots_rewrite_release (hs : t.slots[i]? = some s) :
    (t.rewrite i Slot.release).liveSlots = t.liveSlots.filter (·.1 ≠ i) := by
  obtain ⟨l, r, rfl, hold, hnew⟩ := slots_rewrite_eq hs Slot.release
  have hleft : ∀ x ∈ l.zipIdx, x.2 ≠ l.length := fun x hx ↦
    (List.snd_lt_of_mem_zipIdx hx).ne
  have hright : ∀ x ∈ r.zipIdx (l.length + 1), x.2 ≠ l.length := fun x hx ↦
    (Nat.lt_of_succ_le (List.le_snd_of_mem_zipIdx hx)).ne'
  have hkeep : ∀ slots : List (Slot × Nat), (∀ x ∈ slots, x.2 ≠ l.length) →
      slots.flatMap (fun x ↦ if x.2 = l.length then [] else x.1.entry x.2) =
        slots.flatMap fun x ↦ x.1.entry x.2 := fun slots hslots ↦
    List.flatMap_congr fun x hx ↦ if_neg (hslots x hx)
  rw [liveSlots_eq_flatMap, liveSlots_eq_flatMap, List.filter_flatMap, hold, hnew]
  simp only [filter_entry, List.zipIdx_append, List.zipIdx_cons, List.flatMap_append,
    List.flatMap_cons, Nat.zero_add, hkeep _ hleft, hkeep _ hright, if_pos]
  rw [entry_of_dead s.isLive_release]

/-- **The counter is the bytes of the other slots and those of the slot itself.** -/
theorem Accounts.others_add_size (ht : t.Accounts config) (hs : t.slots[i]? = some s) :
    t.others i + s.size = t.allocatedBytes := by
  have hmove := sum_size_rewrite hs Slot.release
  rw [Slot.size_release, Nat.add_zero, ← ht.bytes_eq, ← sum_liveSlots,
    liveSlots_rewrite_release hs] at hmove
  exact hmove

/-- So the check that a creation makes is about the other slots. -/
theorem Accounts.memory_iff (ht : t.Accounts config) (hs : t.slots[i]? = some s) :
    (t.config.admits (t.allocatedBytes - s.size + n) = true ∧
      a.grants t.allocatedBytes n = true) ↔ ¬ t.NoMemory a i n := by
  have hothers : t.allocatedBytes - s.size = t.others i := by
    rw [← ht.others_add_size hs, Nat.add_sub_cancel]
  rw [hothers, NoMemory, TableConfig.admits]
  rcases t.config.memoryLimit with - | limit <;> simp

/-! ### Creating -/

theorem create_of_none (hs : t.slots[i]? = none) :
    (t.create a i n).result = .error (.indexOutOfRange i t.capacity) := by
  rw [create, slot, hs]
  rfl

/-- **What creating a slot that exists can give**, and when. -/
theorem Accounts.create_cases (ht : t.Accounts config) (hs : t.slots[i]? = some s)
    (a : Allocator) (n : Nat) :
    t.Taken s ∧ (t.create a i n).result = .error (.alreadyInitialized i) ∨
      ¬ t.Taken s ∧ t.NoMemory a i n ∧ (t.create a i n).result = .error (.outOfMemory n) ∨
      ¬ t.Taken s ∧ ¬ t.NoMemory a i n ∧
        (t.create a i n).result = .ok ⟨i, s.release.generation⟩ ∧
        (t.create a i n).table = t.created i n s.size := by
  by_cases htaken : s.isLive = true ∧ t.config.overwrite = .reject
  · left
    rw [create_of_getElem? hs, if_pos htaken]
    exact ⟨htaken, rfl⟩
  · right
    by_cases hmemory : t.NoMemory a i n
    · left
      rw [create_of_getElem? hs, if_neg htaken,
        if_neg (mt (ht.memory_iff hs).1 (not_not_intro hmemory))]
      exact ⟨htaken, hmemory, rfl⟩
    · right
      rw [create_of_getElem? hs, if_neg htaken, if_pos ((ht.memory_iff hs).2 hmemory)]
      exact ⟨htaken, hmemory, rfl, rfl⟩

/-- What a creation makes of the table is told by the table it began with. -/
theorem Accounts.installed (ht : t.Accounts config) (hs : t.slots[i]? = some s) :
    t.Installed i n s ⟨i, s.release.generation⟩ (t.created i n s.size) where
  handle_eq := by rw [Slot.generation_release]
  slot_eq := by
    show (t.rewrite i (Slot.renew n)).slots[i]? = _
    rw [getElem?_slots_rewrite_self, hs]
    rfl
  slots_eq j hj := getElem?_slots_rewrite_of_ne _ hj.symm
  bytes_eq := by
    rw [allocatedBytes_created, ← ht.others_add_size hs, Nat.add_sub_cancel]
  config_eq := config_created s.size

theorem Accounts.indexOutOfRange_iff (ht : t.Accounts config) :
    (t.create a i n).result = .error (.indexOutOfRange i config.capacity) ↔
      config.capacity ≤ i := by
  rcases hs : t.slots[i]? with - | s
  · rw [create_of_none hs, capacity, ht.length_eq]
    exact iff_of_true rfl (ht.length_eq ▸ List.getElem?_eq_none_iff.1 hs)
  · have hlt : i < config.capacity := ht.length_eq ▸ (List.getElem?_eq_some_iff.1 hs).1
    refine iff_of_false ?_ hlt.not_ge
    rcases ht.create_cases hs a n with ⟨-, h⟩ | ⟨-, -, h⟩ | ⟨-, -, h, -⟩ <;> rw [h] <;> simp

theorem Accounts.alreadyInitialized_iff (ht : t.Accounts config) (hs : t.slots[i]? = some s) :
    (t.create a i n).result = .error (.alreadyInitialized i) ↔ t.Taken s := by
  rcases ht.create_cases hs a n with ⟨htaken, h⟩ | ⟨htaken, -, h⟩ | ⟨htaken, -, h, -⟩ <;>
    rw [h] <;> simp [htaken]

theorem Accounts.outOfMemory_iff (ht : t.Accounts config) (hs : t.slots[i]? = some s)
    (htaken : ¬ t.Taken s) :
    (t.create a i n).result = .error (.outOfMemory n) ↔ t.NoMemory a i n := by
  rcases ht.create_cases hs a n with ⟨htaken', -⟩ | ⟨-, hno, h⟩ | ⟨-, hyes, h, -⟩
  · exact absurd htaken' htaken
  · exact iff_of_true h hno
  · rw [h]
    exact iff_of_false (fun h ↦ by cases h) hyes

theorem Accounts.exists_installed (ht : t.Accounts config) (hs : t.slots[i]? = some s)
    (htaken : ¬ t.Taken s) (hmemory : ¬ t.NoMemory a i n) :
    ∃ h, (t.create a i n).result = .ok h ∧ t.Installed i n s h (t.create a i n).table := by
  rcases ht.create_cases hs a n with ⟨htaken', -⟩ | ⟨-, hno, -⟩ | ⟨-, -, hresult, htable⟩
  · exact absurd htaken' htaken
  · exact absurd hno hmemory
  · exact ⟨_, hresult, htable ▸ ht.installed hs⟩

/-- The new sum fits a 64-bit word: under a limit because the limit does, and otherwise because the
buffers that are live while the new one is made do. -/
theorem Accounts.others_add_lt (ht : t.Accounts config) (hs : t.slots[i]? = some s)
    (hlimit : ∀ limit, config.memoryLimit = some limit → limit < UInt64.size)
    (hgrants : config.memoryLimit = none → a.grants t.allocatedBytes n = true →
      t.allocatedBytes + n < UInt64.size)
    (hr : (t.create a i n).result = .ok h) : t.others i + n < UInt64.size := by
  obtain ⟨hadmits, hgrant⟩ := memory_of_create hs hr
  have hsum := ht.others_add_size hs
  rw [ht.config_eq, TableConfig.admits] at hadmits
  rcases hl : config.memoryLimit with - | limit
  · -- the old buffer is still there when the allocator is asked
    have hlive := hgrants hl hgrant
    omega
  · have hword := hlimit limit hl
    rw [hl] at hadmits
    have hle : t.allocatedBytes - s.size + n ≤ limit := of_decide_eq_true hadmits
    omega

/-! ### The sum as a word -/

/-- The sum of two 64-bit words, unless it is too large for one. -/
def checkedAdd (x y : UInt64) : Option UInt64 :=
  if x.toNat + y.toNat < UInt64.size then some (x + y) else none

theorem toNat_checkedAdd {x y total : UInt64} (h : checkedAdd x y = some total) :
    total.toNat = x.toNat + y.toNat := by
  unfold checkedAdd at h
  split at h
  · rename_i hlt
    cases h
    rw [UInt64.toNat_add]
    exact Nat.mod_eq_of_lt hlt
  · cases h

/-- **The limit is checked as with words.** A sum that is too large for a word is more than any
limit that is a word, so nothing is lost by adding numbers. -/
theorem Accounts.admits_eq_checkedAdd (ht : t.Accounts config) {limit size : UInt64}
    (hlimit : config.memoryLimit = some limit.toNat) (s : Slot) :
    t.config.admits (t.allocatedBytes - s.size + size.toNat) =
      match checkedAdd (UInt64.ofNat (t.allocatedBytes - s.size)) size with
      | some total => decide (total ≤ limit)
      | none => false := by
  have hle : t.allocatedBytes ≤ limit.toNat := ht.le_limit _ hlimit
  have hword : limit.toNat < UInt64.size := limit.toNat_lt_size
  have hretained : (UInt64.ofNat (t.allocatedBytes - s.size)).toNat = t.allocatedBytes - s.size :=
    UInt64.toNat_ofNat_of_lt' (by omega)
  rw [ht.config_eq, TableConfig.admits, hlimit]
  rcases hsum : checkedAdd (UInt64.ofNat (t.allocatedBytes - s.size)) size with - | total
  · have hlarge : ¬ t.allocatedBytes - s.size + size.toNat < UInt64.size := by
      intro hlt
      rw [checkedAdd, hretained, if_pos hlt] at hsum
      cases hsum
    exact decide_eq_false (by omega)
  · have htotal := toNat_checkedAdd hsum
    rw [hretained] at htotal
    show decide (t.allocatedBytes - s.size + size.toNat ≤ limit.toNat) = decide (total ≤ limit)
    rw [← htotal]
    exact decide_eq_decide.2 UInt64.le_iff_toNat_le.symm

/-! ### Freeing first -/

theorem getElem?_slots_free (hs : t.slots[i]? = some s) :
    (t.free i).table.slots[i]? = some s.release := by
  rw [slots_free, getElem?_slots_rewrite_self, hs]
  rfl

/-- Freeing a slot changes nothing about the memory that there is for it. -/
theorem Accounts.noMemory_free_iff (ht : t.Accounts config) (ha : a.DecidesBySize)
    (hs : t.slots[i]? = some s) : (t.free i).table.NoMemory a i n ↔ t.NoMemory a i n := by
  have hfreed := (ht.free i).others_add_size (getElem?_slots_free hs)
  have hbefore := ht.others_add_size hs
  have hothers : (t.free i).table.others i = t.others i := by
    rw [Slot.size_release, allocatedBytes_free hs] at hfreed
    omega
  rw [NoMemory, NoMemory, config_free, hothers,
    ha (t.free i).table.allocatedBytes t.allocatedBytes n]

theorem slots_created_free (old : Nat) :
    ((t.free i).table.created i n 0).slots = (t.created i n old).slots := by
  have hrenew : Slot.renew n ∘ Slot.release = Slot.renew n := by
    funext s
    simp only [Function.comp_apply, Slot.renew, Slot.release_release]
  show (t.free i).table.slots.modify i _ = t.slots.modify i _
  rw [slots_free, rewrite, List.modify_modify_eq, hrenew]

/-- **Replacing is freeing and creating in one step.** Whether it succeeds, and with what handle and
what table, is the same. -/
theorem Accounts.create_free (ht : t.Accounts config) (ha : a.DecidesBySize)
    (hs : t.slots[i]? = some s) (htaken : ¬ t.Taken s) :
    ((t.free i).table.create a i n).result = (t.create a i n).result ∧
      ((t.create a i n).result = .ok h →
        ((t.free i).table.create a i n).table = (t.create a i n).table) := by
  have hmemory := ht.noMemory_free_iff (n := n) ha hs
  rcases (ht.free i).create_cases (getElem?_slots_free hs) a n with
    ⟨htaken', -⟩ | ⟨-, hno', hresult'⟩ | ⟨-, hyes', hresult', htable'⟩
  · -- a slot that has been freed is empty
    exact absurd htaken'.1 (by simp)
  all_goals rcases ht.create_cases hs a n with
    ⟨htaken', -⟩ | ⟨-, hno, hresult⟩ | ⟨-, hyes, hresult, htable⟩
  · exact absurd htaken' htaken
  · rw [hresult, hresult']
    exact ⟨rfl, fun hok ↦ by cases hok⟩
  · exact absurd (hmemory.1 hno') hyes
  · exact absurd htaken' htaken
  · exact absurd (hmemory.2 hno) hyes'
  · refine ⟨by rw [hresult, hresult', Slot.release_release], fun _ ↦ ?_⟩
    -- the counters need no argument of their own, both are the sums of the same slots
    refine ((ht.free i).create hresult').eq_of_slots (ht.create hresult) ?_
    rw [htable, htable', Slot.size_release]
    exact slots_created_free s.size

/-! ### Exactly when, and with what result -/

/-- **Creating is exact.**

Take any table that a history can lead to and an allocator that looks at sizes only. A creation is
refused because there is no such slot, because the slot is taken, or because there is no memory,
each exactly when it is so and none of the earlier reasons holds; the bytes that count for the limit
are those of the other live slots, as a sum that has no bound. Otherwise it succeeds, and all of the
table afterwards is told. That sum then fits a 64-bit word, if limits are such words and the buffers
that are live at one time are fewer bytes than those words can count.

Where a live slot may be replaced, creating succeeds exactly if freeing the slot and creating it
would, and gives the same handle and the same table. -/
theorem create_is_exact (hstart : ofConfig config = .ok start) (hreach : start.Reaches a t)
    (ha : a.DecidesBySize) (i n : Nat) :
    t.config = config ∧
      ((t.create a i n).result = .error (.indexOutOfRange i config.capacity) ↔
        config.capacity ≤ i) ∧
      (i < config.capacity → ∃ s, t.slots[i]? = some s ∧
        ((t.create a i n).result = .error (.alreadyInitialized i) ↔ t.Taken s) ∧
        (¬ t.Taken s →
          ((t.create a i n).result = .error (.outOfMemory n) ↔ t.NoMemory a i n) ∧
          (¬ t.NoMemory a i n → ∃ h, (t.create a i n).result = .ok h ∧
            t.Installed i n s h (t.create a i n).table)) ∧
        ((∀ limit, config.memoryLimit = some limit → limit < UInt64.size) →
          (config.memoryLimit = none → a.grants t.allocatedBytes n = true →
            t.allocatedBytes + n < UInt64.size) →
          ∀ h, (t.create a i n).result = .ok h → t.others i + n < UInt64.size) ∧
        (s.isLive = true → config.overwrite = .replace →
          (t.free i).result = .ok true ∧
          (∀ h, (t.create a i n).result = .ok h ↔
            ((t.free i).table.create a i n).result = .ok h) ∧
          ∀ h, (t.create a i n).result = .ok h →
            ((t.free i).table.create a i n).table = (t.create a i n).table)) := by
  have ht : t.Accounts config := hreach.accounts (ofConfig_eq_ok hstart ▸ accounts_fresh config)
  refine ⟨ht.config_eq, ht.indexOutOfRange_iff, fun hi ↦ ?_⟩
  obtain ⟨s, hs⟩ : ∃ s, t.slots[i]? = some s :=
    ⟨_, List.getElem?_eq_getElem (ht.length_eq.symm ▸ hi)⟩
  refine ⟨s, hs, ht.alreadyInitialized_iff hs, fun htaken ↦ ⟨ht.outOfMemory_iff hs htaken,
    ht.exists_installed hs htaken⟩, fun hlimit hgrants h ↦ ht.others_add_lt hs hlimit hgrants,
    fun hlive hreplace ↦ ⟨free_of_isLive hs hlive, fun h ↦ ?_, fun h hok ↦ ?_⟩⟩
  all_goals
    have htaken : ¬ t.Taken s := by
      rw [Taken, ht.config_eq, hreplace]
      simp
    obtain ⟨hresult, htable⟩ := ht.create_free (n := n) (h := h) ha hs htaken
  · rw [hresult]
  · exact htable hok

/-- Two slots of eight bytes take all that the limit allows. One of them can be replaced by as many
bytes, in one step or in two, and not by one more. -/
theorem full_table_replaces_by_as_many :
    let config : TableConfig := { capacity := 2, overwrite := .replace, memoryLimit := some 16 }
    let t := (fresh config).performAll .system [.create 0 8, .create 1 8]
    ofConfig config = .ok (fresh config) ∧ t.allocatedBytes = 16 ∧
      (t.create .system 0 9).result = .error (.outOfMemory 9) ∧
      ∃ s h, t.slots[0]? = some s ∧ s.isLive = true ∧ (t.create .system 0 8).result = .ok h ∧
        t.Installed 0 8 s h (t.create .system 0 8).table ∧
        ((t.free 0).table.create .system 0 8).result = .ok h := by
  intro config t
  have hstart : ofConfig config = .ok (fresh config) := rfl
  have hreach : (fresh config).Reaches .system t := reaches_performAll ..
  have hexact := fun n ↦
    (create_is_exact hstart hreach Allocator.decidesBySize_system 0 n).2.2 (by decide)
  obtain ⟨s, hs, -, hmemory, -, hfree⟩ := hexact 8
  obtain ⟨s', hs', -, hmemory', -⟩ := hexact 9
  have hslot : t.slots[0]? = some ⟨some (List.replicate 8 0), 0⟩ := by decide
  obtain rfl := Option.some.inj (hslot.symm.trans hs)
  obtain rfl := Option.some.inj (hslot.symm.trans hs')
  have htaken : ¬ t.Taken ⟨some (List.replicate 8 0), 0⟩ := fun h ↦ absurd h.2 (by decide)
  have hroom : ¬ t.NoMemory .system 0 8 := by
    rintro (⟨limit, hlimit, hlt⟩ | hrefused)
    · obtain rfl := Option.some.inj hlimit
      exact absurd hlt (by decide)
    · exact absurd hrefused (by decide)
  obtain ⟨h, hok, hinstalled⟩ := (hmemory htaken).2 hroom
  exact ⟨hstart, by decide, (hmemory' htaken).1.2 (.inl ⟨16, rfl, by decide⟩), _, h, hslot, rfl,
    hok, hinstalled, ((hfree rfl rfl).2.1 h).1 hok⟩

end Table

end SlotLang
