import SlotLang.Table.Word

/-!
# Slots

A slot is empty or holds a buffer. It counts the buffers it has released; the count tells a buffer
from the one that held the slot before it.
-/

namespace SlotLang

/-- One place of a table. -/
structure Slot where
  /-- The buffer, if the slot is live. -/
  data : Option (List UInt8) := none
  /-- The number of buffers released from the slot, modulo 2³². -/
  generation : UInt32 := 0
deriving DecidableEq, Repr, Inhabited

namespace Slot

/-- The number of bytes that a slot takes in its table, empty or not: where its buffer is, how long
that is, and the generation. -/
def width : Nat := 24

/-- Whether the slot holds a buffer. -/
def isLive (s : Slot) : Bool := s.data.isSome

/-- The length of the buffer, if the slot holds one. -/
def size? (s : Slot) : Option Nat := s.data.map List.length

/-- The number of bytes the slot takes; an empty one takes none. -/
def size (s : Slot) : Nat := s.size?.getD 0

/-- Put a buffer of `size` zero bytes into the slot. -/
def install (s : Slot) (size : Nat) : Slot := { s with data := some (List.replicate size 0) }

/-- Let go of the buffer and count it. An empty slot stays as it is. -/
def release (s : Slot) : Slot :=
  if s.isLive then { data := none, generation := s.generation + 1 } else s

@[simp]
theorem data_release (s : Slot) : s.release.data = none := by
  rcases s with ⟨_ | _, _⟩ <;> rfl

@[simp]
theorem isLive_release (s : Slot) : s.release.isLive = false := by
  simp [isLive]

@[simp]
theorem size_install (s : Slot) (n : Nat) : (s.install n).size = n := by
  simp [install, size, size?]

@[simp]
theorem size_release (s : Slot) : s.release.size = 0 := by
  simp [size, size?]

end Slot

end SlotLang
