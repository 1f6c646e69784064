import SlotLang.Proofs.Creation

/-!
# Cleaning up is freeing every slot

Cleaning up goes over all slots in a loop of its own, counts the live ones and writes zero into the
byte counter. Freeing takes one slot and subtracts its size. Any way of freeing that leaves out no
live slot comes to the same.

* **The slots.** A slot that is freed twice is released once, so the order of the indices does not
  matter and neither do repetitions (`getElem?_slots_freeAll`); one that is left out is empty, and
  releasing it would do nothing.
* **The counter.** Both ways keep the books right, and of a table whose books are right the slots
  are all there is to know (`Accounts.eq_of_slots`).
* **The answers.** Freeing answers with `true` exactly if there is one live slot less afterwards
  (`liveCount_free`).
-/

namespace SlotLang.Table

variable {a : Allocator} {config : TableConfig} {start t : Table}

/-- The table after the slots of some indices have been freed, one after the other. -/
def freeAll (t : Table) (indices : List Nat) : Table :=
  indices.foldl (fun t i ↦ (t.free i).table) t

/-- The answers to freeing the slots of some indices, one after the other. -/
def freeAnswers (t : Table) : List Nat → List (Except TableError Bool)
  | [] => []
  | i :: indices => (t.free i).result :: (t.free i).table.freeAnswers indices

/-! ### The slots -/

/-- **Freeing in turn releases the slots of the indices**, each once. -/
theorem getElem?_slots_freeAll (t : Table) (indices : List Nat) (j : Nat) :
    (t.freeAll indices).slots[j]? =
      t.slots[j]?.map fun s ↦ if j ∈ indices then s.release else s := by
  induction indices generalizing t with
  | nil => simp [freeAll]
  | cons i indices ih =>
    have hstep : t.freeAll (i :: indices) = (t.free i).table.freeAll indices := rfl
    rw [hstep, ih, slots_free, getElem?_slots_rewrite, Option.map_map]
    refine congrArg (Option.map · t.slots[j]?) (funext fun s ↦ ?_)
    by_cases hi : i = j
    · subst hi
      simp [Slot.release_release]
    · simp [hi, Ne.symm hi]

/-- If no live slot is left out, all slots are released. -/
theorem slots_freeAll {indices : List Nat} (hlive : ∀ i, t.isInitialized i = true → i ∈ indices) :
    (t.freeAll indices).slots = t.emptied.slots := by
  refine List.ext_getElem? fun j ↦ ?_
  rw [getElem?_slots_freeAll, emptied, List.getElem?_map]
  rcases hs : t.slots[j]? with - | s
  · rfl
  · by_cases hj : j ∈ indices
    · simp [hj]
    · have hdead : s.isLive = false := by
        have hleft := mt (hlive j) hj
        rwa [isInitialized, hs, Bool.not_eq_true] at hleft
      simp [hj, Slot.release_of_not_isLive hdead]

theorem Accounts.freeAll (ht : t.Accounts config) (indices : List Nat) :
    (t.freeAll indices).Accounts config := by
  induction indices generalizing t with
  | nil => exact ht
  | cons i indices ih => exact ih (ht.free i)

/-! ### The answers -/

/-- Freeing says `true` exactly if it takes away a live slot. -/
theorem liveCount_free (t : Table) (i : Nat) :
    (if (t.free i).result = .ok true then 1 else 0) + (t.free i).table.liveCount =
      t.liveCount := by
  rcases hs : t.slots[i]? with - | s
  · have hfree : t.free i = t.refuse (.indexOutOfRange i t.capacity) := by
      simp only [free, slot, hs]
    rw [hfree]
    exact Nat.zero_add _
  · by_cases hlive : s.isLive = true
    · obtain ⟨l, r, -, hold, hnew⟩ := slots_rewrite_eq hs Slot.release
      rw [if_pos (free_of_isLive hs hlive), liveCount, slots_free, hnew, liveCount, hold]
      simp only [List.countP_append, List.countP_cons, Slot.isLive_release, hlive]
      simp only [Bool.false_eq_true, if_false, if_true]
      omega
    · have hfree : t.free i = ⟨.ok false, t, []⟩ := by
        simp only [free, slot, hs, hlive]
        rfl
      rw [hfree]
      exact Nat.zero_add _

/-- The live slots are those that freeing has taken away and those that are left. -/
theorem count_freeAnswers (t : Table) (indices : List Nat) :
    (t.freeAnswers indices).count (.ok true) + (t.freeAll indices).liveCount = t.liveCount := by
  induction indices generalizing t with
  | nil => exact Nat.zero_add _
  | cons i indices ih =>
    have hstep := t.liveCount_free i
    have hrest := ih (t.free i).table
    have hall : t.freeAll (i :: indices) = (t.free i).table.freeAll indices := rfl
    rw [hall, freeAnswers, List.count_cons]
    simp only [beq_iff_eq]
    omega

/-! ### Cleaning up -/

theorem emptied_emptied (t : Table) : t.emptied.emptied = t.emptied := by
  simp [emptied, Function.comp_def, Slot.release_release]

/-- There is nothing to clean up twice. -/
theorem cleanup_emptied (t : Table) : t.emptied.cleanup = ⟨.ok 0, t.emptied, []⟩ := by
  rw [cleanup, cleanupEvents, liveCount_emptied, emptied_emptied]
  rfl

/-- **Cleaning up is freeing every slot.**

Take any table that a history can lead to, and any indices, in any order, repeated or beyond the
last slot, as long as every live slot is among them. Freeing them one after the other gives the
table that cleaning up gives, down to the generations of its slots and the byte counter. It answers
with `true` as often as there were live slots, which is what cleaning up answers. Cleaning up a
second time finds nothing, changes nothing and leaves no record. -/
theorem cleanup_is_freeing_all (hstart : ofConfig config = .ok start) (hreach : start.Reaches a t)
    {indices : List Nat} (hlive : ∀ i, t.isInitialized i = true → i ∈ indices) :
    t.freeAll indices = t.cleanup.table ∧
      t.cleanup.result = .ok ((t.freeAnswers indices).count (.ok true)) ∧
      (t.freeAnswers indices).count (.ok true) = t.liveCount ∧
      t.cleanup.table.cleanup = ⟨.ok 0, t.cleanup.table, []⟩ := by
  have ht : t.Accounts config := hreach.accounts (ofConfig_eq_ok hstart ▸ accounts_fresh config)
  have htable : t.freeAll indices = t.emptied :=
    (ht.freeAll indices).eq_of_slots ht.emptied (slots_freeAll hlive)
  have hcount : (t.freeAnswers indices).count (.ok true) = t.liveCount := by
    rw [← t.count_freeAnswers indices, htable, liveCount_emptied, Nat.add_zero]
  exact ⟨htable, congrArg Except.ok hcount.symm, hcount, t.cleanup_emptied⟩

/-- A table of three slots: the first has eight bytes, the last the second buffer of its life. -/
def outerTwo : Table :=
  (fresh { capacity := 3 }).performAll .system [.create 2 4, .free 2, .create 0 8, .create 2 6]

/-- The live slots are freed from the last to the first; the last is freed again, and so are an
empty one and one that does not exist. -/
theorem two_of_five_frees_find_a_buffer :
    ofConfig { capacity := 3 } = .ok (fresh { capacity := 3 }) ∧
      (fresh { capacity := 3 }).Reaches .system outerTwo ∧
      (∀ i, outerTwo.isInitialized i = true → i ∈ [2, 7, 0, 2, 1]) ∧
      outerTwo.allocatedBytes = 14 ∧
      outerTwo.freeAnswers [2, 7, 0, 2, 1] =
        [.ok true, .error (.indexOutOfRange 7 3), .ok true, .ok false, .ok false] ∧
      outerTwo.freeAll [2, 7, 0, 2, 1] = outerTwo.cleanup.table ∧
      outerTwo.cleanup.table =
        ⟨{ capacity := 3 }, [⟨none, 1⟩, ⟨none, 0⟩, ⟨none, 2⟩], 0⟩ ∧
      outerTwo.cleanup.result = .ok 2 ∧
      outerTwo.cleanup.table.cleanup = ⟨.ok 0, outerTwo.cleanup.table, []⟩ := by
  have hstart : ofConfig { capacity := 3 } = .ok (fresh { capacity := 3 }) := rfl
  have hreach : (fresh { capacity := 3 }).Reaches .system outerTwo := reaches_performAll ..
  have hlive : ∀ i, outerTwo.isInitialized i = true → i ∈ [2, 7, 0, 2, 1] := by
    intro i hi
    rw [← mem_liveSlots_iff, show outerTwo.liveSlots = [(0, 8), (2, 6)] from rfl] at hi
    obtain rfl | rfl : i = 0 ∨ i = 2 := by simpa using hi
    · decide
    · decide
  obtain ⟨htable, hresult, -, htwice⟩ := cleanup_is_freeing_all hstart hreach hlive
  exact ⟨hstart, hreach, hlive, rfl, rfl, htable, rfl, hresult, htwice⟩

end SlotLang.Table
