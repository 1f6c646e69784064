import Mathlib
import SlotLang.Proofs.Handles

/-!
# Reads return the last write

What a slot reads as is decided by its history alone. `Table.marks` lists what an operation does
that bears on it, in order: a buffer is made for the slot, or an `int` is written to it, directly or
through a guard. A write is listed when it is asked for, whether or not it can be done. Freeing is
not listed, since an empty slot reads as nothing.

The law needs that nothing but `int`s is written to the slot. `Table.Spares` asks for no more than
that: a write of bytes is allowed wherever it leaves the bytes of the slot as they were, so one that
is refused is, and one to another slot.

* `Shows marks b` relates a buffer to the marks: behind the last creation there are only writes, and
  the buffer is the encoding of the last of them, or of zero, and zeros behind it.
* `Recorded.perform` is the step and `Recorded.performAll` the run. A creation sets the relation up
  anew, so nothing of an earlier buffer survives it, and a write moves it on.
-/

namespace SlotLang

/-! ### Marks -/

/-- What decides the `int` in a slot. -/
inductive Mark where
  /-- A buffer is made for the slot. -/
  | made
  /-- An `int` is written to the slot. -/
  | wrote (value : Int32)
deriving DecidableEq, Repr

/-- The marks that a step through a guard leaves on the guarded slot. -/
def GuardStep.marks : GuardStep → List Mark
  | .writeInt value => [.wrote value]
  | _ => []

/-- A step through a guard that leaves the guarded bytes as they were, if it writes bytes. -/
def Guard.SparesStep (g : Guard) : GuardStep → Prop
  | .poke bytes =>
    (g.step (.poke bytes)).2.bytes g.handle.index = g.table.bytes g.handle.index
  | _ => True

/-- Steps through a guard of which those that write bytes leave them as they were. -/
def Guard.Spares (g : Guard) : List GuardStep → Prop
  | [] => True
  | s :: ss => g.SparesStep s ∧ Spares ⟨(g.step s).2, g.handle⟩ ss

namespace Table

/-- The marks that an operation on `t` leaves on slot `i`. -/
def marks (a : Allocator) (t : Table) (i : Nat) : Operation → List Mark
  | .create index size =>
    if index = i ∧ (t.create a index size).result.isOk then [.made] else []
  | .writeInt index value => if index = i then [.wrote value] else []
  | .scoped index size steps _ =>
    if index = i ∧ (t.create a index size).result.isOk then
      .made :: steps.flatMap GuardStep.marks
    else []
  | _ => []

/-- The marks that a history that begins with `t` leaves on slot `i`. -/
def marksAll (a : Allocator) (t : Table) (i : Nat) : List Operation → List Mark
  | [] => []
  | op :: ops => t.marks a i op ++ (t.perform a op).table.marksAll a i ops

/-- An operation on `t` that leaves the bytes of slot `i` as they were, if it writes bytes to it. -/
def Spares (a : Allocator) (t : Table) (i : Nat) : Operation → Prop
  | .poke index bytes => index = i → (t.poke index bytes).table.bytes i = t.bytes i
  | .pokeHandle h bytes => h.index = i → (t.pokeHandle h bytes).table.bytes i = t.bytes i
  | .scoped index size steps _ =>
    index = i → ∀ h, (t.create a index size).result = .ok h →
      Guard.Spares ⟨(t.create a index size).table, h⟩ steps
  | _ => True

/-- A history that begins with `t` and changes the bytes of slot `i` by writing `int`s only. -/
def SparesAll (a : Allocator) (t : Table) (i : Nat) : List Operation → Prop
  | [] => True
  | op :: ops => t.Spares a i op ∧ (t.perform a op).table.SparesAll a i ops

end Table

/-! ### Buffers and marks -/

/-- A buffer that is what the marks say: behind the last creation there are only writes, and it
holds the last value written, or zero, and zeros behind it. -/
def Shows (marks : List Mark) (b : List UInt8) : Prop :=
  ∃ (earlier : List Mark) (values : List Int32), marks = earlier ++ .made :: values.map .wrote ∧
    (Word.size ≤ b.length →
      b = Word.encode (values.getLast?.getD 0) ++ List.replicate (b.length - Word.size) 0)

/-- A new buffer shows zero. -/
theorem shows_made (marks : List Mark) (n : Nat) :
    Shows (marks ++ [.made]) (List.replicate n 0) := by
  refine ⟨marks, [], rfl, fun hlen ↦ ?_⟩
  rw [List.length_replicate] at hlen ⊢
  show List.replicate n 0 = List.replicate Word.size 0 ++ List.replicate (n - Word.size) 0
  rw [List.replicate_append_replicate, Nat.add_sub_cancel' hlen]

/-- A write makes it show what is written. -/
theorem Shows.wrote {marks : List Mark} {b : List UInt8} (h : Shows marks b) (v : Int32) :
    Shows (marks ++ [.wrote v]) (Table.storeInt v b) := by
  obtain ⟨earlier, values, rfl, hb⟩ := h
  refine ⟨earlier, values ++ [v], by simp, fun hlen ↦ ?_⟩
  rw [Table.length_storeInt] at hlen ⊢
  -- the four bytes in front are exchanged, and behind them nothing changes
  have hrest : b.drop Word.size = List.replicate (b.length - Word.size) 0 := by
    rw [hb hlen]
    simp [List.drop_left' (Word.length_encode _)]
  rw [Table.storeInt_eq hlen, hrest, List.getLast?_concat]
  rfl

namespace Table

variable {a : Allocator} {t t' : Table} {i : Nat} {ms : List Mark}

/-- The buffer of slot `i`, if there is one, is what the marks say. -/
def Recorded (ms : List Mark) (t : Table) (i : Nat) : Prop :=
  ∀ b, t.buffer? i = some b → Shows ms b

/-! ### One step -/

theorem recorded_of_none (h : t.buffer? i = none) : Recorded ms t i := by
  intro b hb
  rw [h] at hb
  cases hb

theorem Recorded.of_bytes_eq (h : Recorded ms t i) (hb : t'.bytes i = t.bytes i) :
    Recorded ms t' i := by
  intro b hb'
  refine h b (bytes_eq_ok_iff.1 ?_)
  rw [← hb]
  exact bytes_eq_ok_iff.2 hb'

theorem recorded_create {n : Nat} {h : Handle} (hr : (t.create a i n).result = .ok h) :
    Recorded (ms ++ [.made]) (t.create a i n).table i := by
  obtain ⟨s, hs, -, -, htable⟩ := create_of_ok hr
  intro b hb
  rw [htable, buffer?_created_self _ (List.getElem?_eq_some_iff.1 hs).1] at hb
  obtain rfl := Option.some.inj hb
  exact shows_made ms n

theorem Recorded.writeInt (h : Recorded ms t i) (v : Int32) :
    Recorded (ms ++ [.wrote v]) (t.writeInt i v).table i := by
  intro b hb
  rw [table_writeInt, buffer?_rewrite_edit] at hb
  obtain ⟨b', hb', rfl⟩ := Option.map_eq_some_iff.1 hb
  exact (h b' hb').wrote v

/-- A step through a guard moves the relation on by its mark. -/
theorem Recorded.guardStep {g : Guard} {s : GuardStep} (h : Recorded ms g.table g.handle.index)
    (hs : g.SparesStep s) :
    Recorded (ms ++ s.marks) (g.step s).2 g.handle.index := by
  cases s with
  | writeInt v => exact h.writeInt v
  | poke bytes => exact (List.append_nil ms).symm ▸ h.of_bytes_eq hs
  | readInt | bytes | length | index | handle => exact (List.append_nil ms).symm ▸ h

theorem Recorded.guardRun {g : Guard} {ss : List GuardStep}
    (h : Recorded ms g.table g.handle.index) (hss : g.Spares ss) :
    Recorded (ms ++ ss.flatMap GuardStep.marks) (g.run ss).2 g.handle.index := by
  induction ss generalizing g ms with
  | nil =>
    rw [List.flatMap_nil, List.append_nil]
    exact h
  | cons s ss ih =>
    rw [List.flatMap_cons, ← List.append_assoc]
    exact ih (g := ⟨(g.step s).2, g.handle⟩) (h.guardStep hss.1) hss.2

/-- A scope leaves the marks of its creation and of its steps, and its buffer only if it is kept. -/
theorem recorded_scoped {n : Nat} {h : Handle} (hr : (t.create a i n).result = .ok h)
    {steps : List GuardStep} (hs : Guard.Spares ⟨(t.create a i n).table, h⟩ steps)
    (ending : GuardEnd) :
    Recorded (ms ++ .made :: steps.flatMap GuardStep.marks)
      (t.scoped a i n steps ending).table i := by
  cases ending with
  | keep =>
    obtain rfl := (isLive_of_create hr).2
    rw [table_scoped_keep hr, ← List.singleton_append, ← List.append_assoc]
    exact (recorded_create hr).guardRun hs
  | release | drop =>
    refine recorded_of_none ?_
    rw [buffer?, (slots_scoped_of_ok hr steps _).1, getElem?_slots_rewrite_self, Option.bind_map]
    refine Option.bind_eq_none_iff.2 fun s _ ↦ ?_
    exact Slot.data_release _

/-! ### Every operation -/

theorem ok_of_isOk {ε α : Type} {r : Except ε α} (h : r.isOk = true) : ∃ v, r = .ok v := by
  cases r with
  | error e => cases h
  | ok v => exact ⟨v, rfl⟩

/-- An operation that leaves no mark, and leaves the slot alone or empty. -/
theorem Recorded.quiet (h : Recorded ms t i) {op : Operation} (hmarks : t.marks a i op = [])
    (heffect : t.effect a i op = id ∨ t.effect a i op = Slot.release) :
    Recorded (ms ++ t.marks a i op) (t.perform a op).table i := by
  rw [hmarks, List.append_nil]
  intro b hb
  rw [buffer?, getElem?_slots_perform] at hb
  rcases heffect with heffect | heffect
  · rw [heffect, Option.map_id] at hb
    exact h b hb
  · obtain ⟨s, hs, hdata⟩ := Option.bind_eq_some_iff.1 hb
    obtain ⟨s', -, rfl⟩ := Option.map_eq_some_iff.1 hs
    rw [heffect, Slot.data_release] at hdata
    cases hdata

/-- **The step.** An operation moves the relation between buffer and marks on by its own marks. -/
theorem Recorded.perform (h : Recorded ms t i) {op : Operation} (hop : t.Spares a i op) :
    Recorded (ms ++ t.marks a i op) (t.perform a op).table i := by
  cases op with
  | create index size =>
    by_cases hc : index = i ∧ (t.create a index size).result.isOk = true
    · obtain ⟨rfl, hok⟩ := hc
      obtain ⟨handle, hr⟩ := ok_of_isOk hok
      rw [marks, if_pos ⟨rfl, hok⟩]
      exact recorded_create hr
    · exact h.quiet (if_neg hc) (.inl (if_neg hc))
  | free index =>
    refine h.quiet rfl ?_
    rw [effect]
    split
    · exact .inr rfl
    · exact .inl rfl
  | release handle =>
    refine h.quiet rfl ?_
    rw [effect]
    split
    · exact .inr rfl
    · exact .inl rfl
  | poke index bytes =>
    by_cases hi : index = i
    · exact (List.append_nil ms).symm ▸ h.of_bytes_eq (hop hi)
    · exact h.quiet rfl (.inl (if_neg hi))
  | pokeHandle handle bytes =>
    by_cases hi : handle.index = i
    · exact (List.append_nil ms).symm ▸ h.of_bytes_eq (hop hi)
    · exact h.quiet rfl (.inl (if_neg fun hc ↦ hi hc.1))
  | writeInt index value =>
    by_cases hi : index = i
    · subst hi
      rw [marks, if_pos rfl]
      exact h.writeInt value
    · exact h.quiet (if_neg hi) (.inl (if_neg hi))
  | «scoped» index size steps ending =>
    by_cases hc : index = i ∧ (t.create a index size).result.isOk = true
    · obtain ⟨rfl, hok⟩ := hc
      obtain ⟨handle, hr⟩ := ok_of_isOk hok
      rw [marks, if_pos ⟨rfl, hok⟩]
      exact recorded_scoped hr (hop rfl handle hr) ending
    · exact h.quiet (if_neg hc) (.inl (if_neg hc))
  | cleanup => exact h.quiet rfl (.inr rfl)
  | handle | isInitialized | isLive | sizeOf | bytes | get | readInt | capacity | config
  | liveSlots => exact h.quiet rfl (.inl rfl)

/-- **The run.** -/
theorem Recorded.performAll (h : Recorded ms t i) {ops : List Operation}
    (hops : t.SparesAll a i ops) :
    Recorded (ms ++ t.marksAll a i ops) (t.performAll a ops) i := by
  induction ops generalizing t ms with
  | nil =>
    rw [marksAll, List.append_nil]
    exact h
  | cons op ops ih =>
    rw [marksAll, ← List.append_assoc]
    exact ih (h.perform hops.1) hops.2

/-! ### What can be read -/

theorem bytes_of_isInitialized (h : t.isInitialized i = true) : ∃ b, t.bytes i = .ok b := by
  rcases hs : t.slots[i]? with - | s
  · rw [isInitialized, hs] at h
    cases h
  · rw [isInitialized_of_getElem? hs] at h
    obtain ⟨b, hdata⟩ := Option.isSome_iff_exists.1 h
    exact ⟨b, bytes_eq_ok_iff.2 (buffer?_eq_some_iff.2 ⟨s, hs, hdata⟩)⟩

/-- An empty slot that exists has no bytes to show. -/
theorem bytes_of_empty (hi : i < t.capacity) (h : t.isInitialized i = false) :
    t.bytes i = .error (.useAfterFree i) := by
  have hs : t.slots[i]? = some (t.slots.get ⟨i, hi⟩) := List.getElem?_eq_getElem hi
  generalize t.slots.get ⟨i, hi⟩ = s at hs
  have hdata : s.data = none := by simpa [isInitialized, hs, Slot.isLive] using h
  simp only [bytes, slot, hs, hdata]

/-- Without bytes an `int` can neither be read nor written, and the fault is the same. -/
theorem int_of_bytes_error {e : TableError} (h : t.bytes i = .error e) :
    t.readInt i = .error e ∧ ∀ v, t.writeInt i v = t.refuse e := by
  refine ⟨?_, fun v ↦ ?_⟩
  · rw [readInt, h]
  · rw [Table.writeInt, h]

/-- Nor with too few of them. -/
theorem int_of_short {b : List UInt8} (h : t.bytes i = .ok b) (hlen : b.length < Word.size) :
    t.readInt i = .error (.bufferTooSmall i Word.size b.length) ∧
      ∀ v, t.writeInt i v = t.refuse (.bufferTooSmall i Word.size b.length) := by
  refine ⟨?_, fun v ↦ ?_⟩
  · simp only [readInt, h, if_pos hlen]
  · simp only [Table.writeInt, h, if_pos hlen]

end Table

/-- The unsigned reading of an `int` is its remainder modulo 2³². -/
theorem Word.toNat_toUInt32 (v : Int32) : v.toUInt32.toNat = (v.toInt % 2 ^ 32).toNat := by
  have hlt := v.toBitVec.isLt
  rw [← Int32.toInt_toBitVec, BitVec.toInt_eq_toNat_cond]
  show v.toBitVec.toNat = _
  split <;> omega

/-- Its bytes are the digits of that remainder to the base 256, the lowest first. -/
theorem Word.encode_eq_digits (v : Int32) :
    Word.encode v =
      (List.range 4).map fun k ↦ UInt8.ofNat ((v.toInt % 2 ^ 32).toNat / 256 ^ k) := by
  rw [Word.encode, Word.toNat_toUInt32]
  simp [List.range, List.range.loop]

namespace Table

variable {start : Table} {i : Nat}

/-- **Reads return the last write.**

Let any history follow on a table whose slot `i` is empty, and let the bytes of that slot be changed
by writing `int`s only, directly or through guards. If the slot is live in the end, its marks end
with a creation and writes behind it. With four bytes or more it reads as the last of these writes,
or as zero if there are none; its first four bytes are that value modulo 2³², the lowest byte first,
and the others are zero. With fewer, and also if the slot is empty, reading and writing fail, each
with the same fault, and change nothing.

A moment inside a scope is the end of a scope that is kept, so that it is covered too. -/
theorem reads_return_last_write (hempty : start.isInitialized i = false) (a : Allocator)
    (history : List Operation) (hspares : start.SparesAll a i history) :
    let now := start.performAll a history
    (now.isInitialized i = true →
      ∃ b earlier values, now.bytes i = .ok b ∧
        start.marksAll a i history = earlier ++ .made :: List.map .wrote values ∧
        (4 ≤ b.length →
          let v := values.getLast?.getD 0
          now.readInt i = .ok v ∧
            b.take 4 =
              (List.range 4).map (fun k ↦ UInt8.ofNat ((v.toInt % 2 ^ 32).toNat / 256 ^ k)) ∧
            ∀ x ∈ b.drop 4, x = 0) ∧
        (b.length < 4 →
          now.readInt i = .error (.bufferTooSmall i 4 b.length) ∧
            ∀ v, now.writeInt i v = now.refuse (.bufferTooSmall i 4 b.length))) ∧
      (i < now.capacity → now.isInitialized i = false →
        now.readInt i = .error (.useAfterFree i) ∧
          ∀ v, now.writeInt i v = now.refuse (.useAfterFree i)) := by
  intro now
  refine ⟨fun hlive ↦ ?_, fun hi hdead ↦ int_of_bytes_error (bytes_of_empty hi hdead)⟩
  obtain ⟨b, hb⟩ := bytes_of_isInitialized hlive
  have hstart : Recorded [] start i := by
    intro b hb
    obtain ⟨s, hs, hdata⟩ := buffer?_eq_some_iff.1 hb
    rw [isInitialized_of_getElem? hs, Slot.isLive, hdata] at hempty
    cases hempty
  obtain ⟨earlier, values, hmarks, hshows⟩ := hstart.performAll hspares b (bytes_eq_ok_iff.1 hb)
  refine ⟨b, earlier, values, hb, hmarks, fun hlen ↦ ?_, int_of_short hb⟩
  have hb' := hshows hlen
  generalize values.getLast?.getD 0 = v at hb'
  have hlength : (Word.encode v).length = 4 := rfl
  refine ⟨?_, ?_, ?_⟩
  · rw [readInt_of_buffer? (bytes_eq_ok_iff.1 hb) hlen, hb', Word.decode_encode]
  · rw [hb', List.take_left' hlength, Word.encode_eq_digits]
  · rw [hb', List.drop_left' hlength]
    exact fun x ↦ List.eq_of_mem_replicate

/-- Two empty slots that can be replaced. -/
def twoSlots : Table := fresh { capacity := 2, overwrite := .replace }

/-- A history in which slot 0 is written to while it is empty, created, written to, replaced, and
replaced again by a scope that writes twice and is kept. Bytes are written to slot 1, and in vain to
slot 0 with a handle that is stale by then. -/
def twiceReplaced : List Operation :=
  [.writeInt 0 9, .create 0 4, .writeInt 0 7, .create 1 2, .poke 1 [1, 2], .create 0 8,
    .pokeHandle ⟨0, 0⟩ [5], .writeInt 1 3,
    .scoped 0 6 [.writeInt 5, .readInt, .writeInt (-2)] .keep]

/-- Of its four writes to slot 0 the last one is read, a negative number. -/
theorem negative_int_is_read_back :
    twoSlots.isInitialized 0 = false ∧ twoSlots.SparesAll .system 0 twiceReplaced ∧
      twoSlots.marksAll .system 0 twiceReplaced =
        [.wrote 9, .made, .wrote 7, .made, .made, .wrote 5, .wrote (-2)] ∧
      (twoSlots.performAll .system twiceReplaced).bytes 0 = .ok [254, 255, 255, 255, 0, 0] ∧
      (twoSlots.performAll .system twiceReplaced).readInt 0 = .ok (-2) := by
  have hempty : twoSlots.isInitialized 0 = false := rfl
  have hspares : twoSlots.SparesAll .system 0 twiceReplaced := by
    refine ⟨trivial, trivial, trivial, trivial, fun h ↦ absurd h Nat.one_ne_zero, trivial,
      fun _ ↦ ?_, trivial, fun _ _ _ ↦ ⟨trivial, trivial, trivial, trivial⟩, trivial⟩
    rfl
  have hmarks : twoSlots.marksAll .system 0 twiceReplaced =
      [.wrote 9, .made, .wrote 7, .made, .made, .wrote 5, .wrote (-2)] := by decide
  have hnow : (twoSlots.performAll .system twiceReplaced).bytes 0 =
      .ok [254, 255, 255, 255, 0, 0] := rfl
  obtain ⟨hlive, -⟩ := reads_return_last_write hempty .system twiceReplaced hspares
  obtain ⟨b, earlier, values, hb, hends, hint, -⟩ := hlive rfl
  obtain rfl := Except.ok.inj (hnow.symm.trans hb)
  have hlast : values.getLast? = some (-2) := by
    have hmark := congrArg List.getLast? (hmarks.symm.trans hends)
    rcases values.eq_nil_or_concat with rfl | ⟨values, v, rfl⟩
    · simp at hmark
    · rw [List.concat_eq_append] at hmark ⊢
      rw [List.map_append, ← List.cons_append, ← List.append_assoc] at hmark
      obtain rfl := Mark.wrote.inj (Option.some.inj (hmark.trans List.getLast?_concat))
      exact List.getLast?_concat
  have hread := (hint (by decide)).1
  rw [hlast] at hread
  exact ⟨hempty, hspares, hmarks, hnow, hread⟩

end Table

end SlotLang
