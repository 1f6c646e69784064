import SlotLang.Table.Operation

/-!
# What table operations do to slots

A table is changed in three ways only: one slot is rewritten in place (`rewrite`), all slots are
released (`emptied`), or nothing happens. Each operation is described here once in these terms, and
nothing later opens an operation again.

* **Creating.** `create_of_error` gives every fault a refusal can have, and says that a refusal
  changes nothing; `create_of_ok` gives the table and the handle of a success, and `create_succeeds`
  a condition for one.
* **Writing.** `table_editBytes` holds whether or not there is a buffer to write to: a slot that is
  empty or missing is rewritten to itself.
* **Looking.** `buffer?` is the view the theorems are about. `readInt_of_buffer?` and
  `writeInt_of_buffer?` say that four bytes are all that reading and writing an `int` ask for.
-/

namespace SlotLang

namespace Slot

/-- The slot with its buffer changed by `f`; an empty slot stays empty. -/
def edit (f : List UInt8 → List UInt8) (s : Slot) : Slot := { s with data := s.data.map f }

@[simp]
theorem isLive_edit (f : List UInt8 → List UInt8) (s : Slot) : (s.edit f).isLive = s.isLive := by
  simp [edit, isLive]

@[simp]
theorem edit_id : edit id = id := by
  funext s
  simp [edit]

theorem edit_comp (f g : List UInt8 → List UInt8) : edit g ∘ edit f = edit (g ∘ f) := by
  funext s
  simp [edit, Function.comp_apply]

theorem edit_of_data_eq_none {s : Slot} (h : s.data = none) (f : List UInt8 → List UInt8) :
    s.edit f = s := by
  rcases s with ⟨_, _⟩
  cases h
  rfl

theorem release_of_not_isLive {s : Slot} (h : s.isLive = false) : s.release = s := by
  simp [release, h]

theorem generation_release (s : Slot) :
    s.release.generation = if s.isLive then s.generation + 1 else s.generation := by
  unfold release
  split <;> rfl

/-- The slot with a buffer of `n` zero bytes in the place of the old one. -/
def renew (n : Nat) (s : Slot) : Slot := s.release.install n

@[simp]
theorem generation_renew (n : Nat) (s : Slot) : (s.renew n).generation = s.release.generation :=
  rfl

end Slot

namespace Table

variable {a : Allocator} {t : Table} {i j n : Nat}

/-! ### The view -/

/-- The buffer in a slot, if the slot exists and is live. -/
def buffer? (t : Table) (i : Nat) : Option (List UInt8) := t.slots[i]?.bind Slot.data

theorem buffer?_eq_some_iff {b : List UInt8} :
    t.buffer? i = some b ↔ ∃ s, t.slots[i]? = some s ∧ s.data = some b :=
  Option.bind_eq_some_iff

/-- A slot shows its buffer exactly when it is live. -/
theorem bytes_eq_ok_iff {b : List UInt8} : t.bytes i = .ok b ↔ t.buffer? i = some b := by
  unfold bytes slot buffer?
  rcases t.slots[i]? with _ | ⟨_ | _, _⟩ <;> simp

/-- Slots that are live exactly below `n` are `n` in number. -/
theorem countP_isLive_eq {slots : List Slot}
    (h : ∀ i, (slots[i]?.bind Slot.data).isSome = true ↔ i < n) :
    slots.countP Slot.isLive = n := by
  induction slots generalizing n with
  | nil =>
    have hn : ¬ 0 < n := fun hn ↦ by simpa using (h 0).2 hn
    rw [List.countP_nil]
    omega
  | cons s slots ih =>
    -- the head is slot 0; seen from the tail, every index is one less
    have hhead : s.isLive = true ↔ 0 < n := by simpa [Slot.isLive] using h 0
    have htail : slots.countP Slot.isLive = n - 1 := by
      refine ih fun i ↦ ?_
      have hi := h (i + 1)
      rw [List.getElem?_cons_succ] at hi
      rw [hi]
      omega
    rw [List.countP_cons, htail]
    by_cases hs : s.isLive = true
    · have hn := hhead.1 hs
      rw [if_pos hs]
      omega
    · have hn := mt hhead.2 hs
      rw [if_neg hs]
      omega

theorem liveCount_eq_of_buffer? (h : ∀ i, (t.buffer? i).isSome = true ↔ i < n) :
    t.liveCount = n :=
  countP_isLive_eq h

@[simp]
theorem liveCount_emptied : t.emptied.liveCount = 0 := by
  rw [liveCount, emptied, List.countP_eq_zero]
  intro s hs
  obtain ⟨s', -, rfl⟩ := List.mem_map.1 hs
  simp

/-! ### Rewriting one slot -/

/-- The table with slot `i` rewritten by `f`; without a slot `i` it stays as it is. -/
def rewrite (t : Table) (i : Nat) (f : Slot → Slot) : Table :=
  { t with slots := t.slots.modify i f }

@[simp]
theorem config_rewrite (f : Slot → Slot) : (t.rewrite i f).config = t.config :=
  rfl

@[simp]
theorem allocatedBytes_rewrite (f : Slot → Slot) :
    (t.rewrite i f).allocatedBytes = t.allocatedBytes :=
  rfl

@[simp]
theorem capacity_rewrite (f : Slot → Slot) : (t.rewrite i f).capacity = t.capacity := by
  simp [capacity, rewrite]

@[simp]
theorem rewrite_id : t.rewrite i id = t := by
  simp [rewrite]

theorem rewrite_rewrite (f g : Slot → Slot) :
    (t.rewrite i f).rewrite i g = t.rewrite i (g ∘ f) := by
  simp only [rewrite, List.modify_modify_eq]

theorem getElem?_slots_rewrite_self (f : Slot → Slot) :
    (t.rewrite i f).slots[i]? = t.slots[i]?.map f :=
  List.getElem?_modify_eq ..

theorem getElem?_slots_rewrite_of_ne (f : Slot → Slot) (h : i ≠ j) :
    (t.rewrite i f).slots[j]? = t.slots[j]? :=
  List.getElem?_modify_ne _ _ h

/-- Setting a slot is rewriting it. -/
theorem setSlot_eq_rewrite {s : Slot} (h : t.slots[i]? = some s) (f : Slot → Slot) :
    t.setSlot i (f s) = t.rewrite i f := by
  unfold setSlot rewrite
  congr 1
  refine List.ext_getElem? fun j ↦ ?_
  rw [List.getElem?_set, List.getElem?_modify]
  by_cases hij : i = j
  · subst hij
    obtain ⟨hlt, rfl⟩ := List.getElem?_eq_some_iff.1 h
    simp [hlt]
  · simp [hij]

/-- Rewriting a slot that is not there, or to what it is, changes nothing. -/
theorem rewrite_eq_self {f : Slot → Slot} (h : ∀ s, t.slots[i]? = some s → f s = s) :
    t.rewrite i f = t := by
  unfold rewrite
  congr 1
  refine List.ext_getElem? fun j ↦ ?_
  rw [List.getElem?_modify]
  by_cases hij : i = j
  · subst hij
    rcases hs : t.slots[i]? with - | s
    · rfl
    · simp [h s hs]
  · simp [hij]

theorem buffer?_rewrite_self (f : Slot → Slot) :
    (t.rewrite i f).buffer? i = t.slots[i]?.bind fun s ↦ (f s).data := by
  rw [buffer?, getElem?_slots_rewrite_self]
  cases t.slots[i]? <;> rfl

theorem buffer?_rewrite_of_ne (f : Slot → Slot) (h : i ≠ j) :
    (t.rewrite i f).buffer? j = t.buffer? j := by
  rw [buffer?, getElem?_slots_rewrite_of_ne f h]
  rfl

theorem buffer?_rewrite_edit (f : List UInt8 → List UInt8) :
    (t.rewrite i (Slot.edit f)).buffer? i = (t.buffer? i).map f := by
  rw [buffer?_rewrite_self, buffer?]
  cases t.slots[i]? <;> rfl

/-! ### Creating -/

/-- The table with a buffer of `n` zero bytes in slot `i`, which took `old` bytes before. -/
def created (t : Table) (i n old : Nat) : Table :=
  { t.rewrite i (Slot.renew n) with allocatedBytes := t.allocatedBytes - old + n }

@[simp]
theorem config_created (old : Nat) : (t.created i n old).config = t.config :=
  rfl

@[simp]
theorem allocatedBytes_created (old : Nat) :
    (t.created i n old).allocatedBytes = t.allocatedBytes - old + n :=
  rfl

@[simp]
theorem capacity_created (old : Nat) : (t.created i n old).capacity = t.capacity :=
  capacity_rewrite _

/-- A slot that exists holds zero bytes after it has been created. -/
theorem buffer?_created_self (old : Nat) (h : i < t.capacity) :
    (t.created i n old).buffer? i = some (List.replicate n 0) := by
  show (t.rewrite i (Slot.renew n)).buffer? i = _
  rw [buffer?_rewrite_self, List.getElem?_eq_getElem h]
  rfl

/-- Creating a slot leaves every other one as it was. -/
theorem buffer?_created_of_ne (old : Nat) (h : i ≠ j) :
    (t.created i n old).buffer? j = t.buffer? j :=
  buffer?_rewrite_of_ne _ h

/-- Creating a slot that exists: the policy decides first, then the limit and the allocator. -/
theorem create_of_getElem? {s : Slot} (hs : t.slots[i]? = some s) :
    t.create a i n =
      if s.isLive = true ∧ t.config.overwrite = .reject then t.refuse (.alreadyInitialized i)
      else if t.config.admits (t.allocatedBytes - s.size + n) = true ∧
          a.grants t.allocatedBytes n = true then
        { result := .ok ⟨i, s.release.generation⟩
          table := t.created i n s.size
          log := (if s.isLive then [⟨.replaced i s.size, t.setSlot i s.release⟩] else []) ++
            [⟨.created i n s.release.generation, t.created i n s.size⟩] }
      else t.refuse (.outOfMemory n) := by
  have hset : t.setSlot i (s.release.install n) = t.rewrite i (Slot.renew n) :=
    setSlot_eq_rewrite hs (Slot.renew n)
  simp only [create, slot, hs, hset]
  cases s.isLive <;> cases t.config.overwrite <;>
    cases t.config.admits (t.allocatedBytes - s.size + n) <;>
    cases a.grants t.allocatedBytes n <;> rfl

/-- **A refused creation** changes nothing, and its fault is one of three. -/
theorem create_of_error {e : TableError} (h : (t.create a i n).result = .error e) :
    (t.create a i n).table = t ∧
      (e = .indexOutOfRange i t.capacity ∧ t.capacity ≤ i ∨
        e = .alreadyInitialized i ∧ t.isInitialized i = true ∧ t.config.overwrite = .reject ∨
        e = .outOfMemory n) := by
  rcases hs : t.slots[i]? with - | s
  · have hrefuse : t.create a i n = t.refuse (.indexOutOfRange i t.capacity) := by
      simp only [create, slot, hs]
    rw [hrefuse] at h ⊢
    cases h
    exact ⟨rfl, .inl ⟨rfl, List.getElem?_eq_none_iff.1 hs⟩⟩
  · rw [create_of_getElem? hs] at h ⊢
    split at h
    · rename_i hlive
      cases h
      rw [if_pos hlive]
      refine ⟨rfl, .inr (.inl ⟨rfl, ?_, hlive.2⟩)⟩
      rw [isInitialized, hs]
      exact hlive.1
    · rename_i hlive
      rw [if_neg hlive]
      split at h
      · cases h
      · rename_i hmemory
        cases h
        rw [if_neg hmemory]
        exact ⟨rfl, .inr (.inr rfl)⟩

/-- **A successful creation** puts zero bytes into a slot that was empty or could be replaced, and
names them by the slot and the number of buffers it has released. -/
theorem create_of_ok {h : Handle} (hr : (t.create a i n).result = .ok h) :
    ∃ s, t.slots[i]? = some s ∧ (s.isLive = true → t.config.overwrite = .replace) ∧
      h = ⟨i, s.release.generation⟩ ∧ (t.create a i n).table = t.created i n s.size := by
  rcases hs : t.slots[i]? with - | s
  · simp only [create, slot, hs] at hr
    cases hr
  · rw [create_of_getElem? hs] at hr ⊢
    split at hr
    · cases hr
    · rename_i hlive
      rw [if_neg hlive]
      split at hr
      · rename_i hmemory
        cases hr
        rw [if_pos hmemory]
        refine ⟨s, rfl, fun h ↦ ?_, rfl, rfl⟩
        cases hp : t.config.overwrite with
        | reject => exact absurd ⟨h, hp⟩ hlive
        | replace => rfl
      · cases hr

/-- An empty slot can be created whenever the limit and the allocator allow it. -/
theorem create_succeeds (hi : i < t.capacity) (hdead : t.buffer? i = none)
    (hlimit : t.config.admits (t.allocatedBytes + n) = true)
    (hgrants : a.grants t.allocatedBytes n = true) : ∃ h, (t.create a i n).result = .ok h := by
  have hs : t.slots[i]? = some (t.slots.get ⟨i, hi⟩) := List.getElem?_eq_getElem hi
  generalize t.slots.get ⟨i, hi⟩ = s at hs
  have hdata : s.data = none := by simpa [buffer?, hs] using hdead
  have hsize : s.size = 0 := by simp [Slot.size, Slot.size?, hdata]
  refine ⟨⟨i, (s.release.install n).generation⟩, ?_⟩
  simp [create, slot, hs, Slot.isLive, hdata, hsize, hlimit, hgrants]

/-- What an empty slot took before it was created. -/
theorem created_of_dead {s : Slot} (hs : t.slots[i]? = some s) (hdead : t.buffer? i = none) :
    t.created i n s.size = t.created i n 0 := by
  have hdata : s.data = none := by simpa [buffer?, hs] using hdead
  have hsize : s.size = 0 := by simp [Slot.size, Slot.size?, hdata]
  rw [hsize]

/-! ### Writing -/

/-- The buffer with an `int` at its start; one too short for it stays as it is. -/
def storeInt (v : Int32) (b : List UInt8) : List UInt8 :=
  if b.length < Word.size then b else overwriteStart (Word.encode v) b

theorem storeInt_eq {v : Int32} {b : List UInt8} (h : Word.size ≤ b.length) :
    storeInt v b = Word.encode v ++ b.drop Word.size := by
  rw [storeInt, if_neg (by omega), overwriteStart, Word.length_encode]
  congr 1
  exact List.take_of_length_le h

@[simp]
theorem length_storeInt (v : Int32) (b : List UInt8) : (storeInt v b).length = b.length := by
  by_cases h : Word.size ≤ b.length
  · rw [storeInt_eq h, List.length_append, Word.length_encode, List.length_drop]
    omega
  · rw [storeInt, if_pos (by omega)]

/-- What is stored into a buffer that is long enough is read back. -/
theorem decode_storeInt {v : Int32} {b : List UInt8} (h : Word.size ≤ b.length) :
    Word.decode (storeInt v b) = v := by
  rw [storeInt_eq h]
  exact Word.decode_encode v _

/-- Editing a buffer rewrites its slot, and only that. -/
theorem table_editBytes (edit : List UInt8 → List UInt8) :
    (t.editBytes i edit).table = t.rewrite i (Slot.edit edit) := by
  unfold editBytes slot
  rcases hs : t.slots[i]? with - | s
  · show t = _
    exact (rewrite_eq_self (by simp [hs])).symm
  · rcases hdata : s.data with - | b
    · simp only [hdata]
      show t = _
      refine (rewrite_eq_self fun s' hs' ↦ ?_).symm
      obtain rfl : s = s' := Option.some.inj (hs.symm.trans hs')
      exact Slot.edit_of_data_eq_none hdata edit
    · simp only [hdata]
      rw [← setSlot_eq_rewrite hs (Slot.edit edit), Slot.edit, hdata]
      rfl

theorem editBytes_of_buffer? {b : List UInt8} (h : t.buffer? i = some b)
    (edit : List UInt8 → List UInt8) : (t.editBytes i edit).result = .ok (edit b) := by
  obtain ⟨s, hs, hdata⟩ := buffer?_eq_some_iff.1 h
  simp only [editBytes, slot, hs, hdata]

/-- Four bytes are enough to read an `int`. -/
theorem readInt_of_buffer? {b : List UInt8} (h : t.buffer? i = some b) (hb : Word.size ≤ b.length) :
    t.readInt i = .ok (Word.decode b) := by
  unfold readInt
  rw [bytes_eq_ok_iff.2 h]
  exact if_neg (by omega)

theorem readInt_eq_ok_iff {x : Int32} :
    t.readInt i = .ok x ↔ ∃ b, t.buffer? i = some b ∧ Word.size ≤ b.length ∧ Word.decode b = x := by
  constructor
  · intro h
    rcases hb : t.bytes i with e | b
    · rw [readInt, hb] at h
      cases h
    · simp only [readInt, hb] at h
      split at h
      · cases h
      · exact ⟨b, bytes_eq_ok_iff.1 hb, by omega, Except.ok.inj h⟩
  · rintro ⟨b, hb, hlen, rfl⟩
    exact readInt_of_buffer? hb hlen

/-- Four bytes are enough to store an `int`. -/
theorem writeInt_of_buffer? {b : List UInt8} (h : t.buffer? i = some b)
    (hb : Word.size ≤ b.length) (v : Int32) : (t.writeInt i v).result = .ok () := by
  unfold writeInt
  rw [bytes_eq_ok_iff.2 h]
  simp only [if_neg (show ¬ b.length < Word.size by omega), poke, editBytes_of_buffer? h]
  rfl

/-- Storing an `int` rewrites the slot, if there is room for it. -/
theorem table_writeInt (v : Int32) :
    (t.writeInt i v).table = t.rewrite i (Slot.edit (storeInt v)) := by
  unfold writeInt
  rcases hb : t.bytes i with e | b
  · show t = _
    refine (rewrite_eq_self fun s hs ↦ Slot.edit_of_data_eq_none ?_ _).symm
    rcases hdata : s.data with - | b
    · rfl
    · rw [bytes_eq_ok_iff.2 (buffer?_eq_some_iff.2 ⟨s, hs, hdata⟩)] at hb
      cases hb
  · obtain ⟨s, hs, hdata⟩ := buffer?_eq_some_iff.1 (bytes_eq_ok_iff.1 hb)
    -- two edits that agree on the buffer that is there give the same table
    have hedit : ∀ f : List UInt8 → List UInt8, f b = storeInt v b →
        t.rewrite i (Slot.edit f) = t.rewrite i (Slot.edit (storeInt v)) := by
      intro f hf
      rw [← setSlot_eq_rewrite hs, ← setSlot_eq_rewrite hs]
      simp only [Slot.edit, hdata, Option.map_some, hf]
    by_cases hlen : b.length < Word.size
    · simp only [if_pos hlen]
      show t = _
      rw [← hedit id (by simp [storeInt, hlen]), Slot.edit_id, rewrite_id]
    · simp only [if_neg hlen]
      show (t.poke i (Word.encode v)).table = _
      rw [poke, table_editBytes]
      exact hedit _ (by simp [storeInt, hlen])

end Table

end SlotLang
