import SlotLang.Event
import SlotLang.Table.Config
import SlotLang.Table.Fault
import SlotLang.Table.Slot

/-!
# The variable table

A table has a fixed number of slots. A slot is reached by its index, or by a `Handle`, which names
one buffer and goes stale when that buffer is released.

An operation that can change the table answers with a `Step`: its result, the table afterwards and
the log records made, each with the table as it is at that moment. Freeing an empty slot is no
fault; releasing a stale handle is.

Whether a buffer can be had is the allocator's decision, which may depend on the bytes in use. One
that goes by all it was ever asked comes to the same, since a refused request leaves no trace
(`Table.performEach_eq`).
-/

namespace SlotLang

/-- What grants or refuses buffers. -/
structure Allocator where
  /-- Whether `size` bytes are granted while `inUse` bytes are taken. -/
  grants (inUse size : Nat) : Bool

/-- The allocator of a 64-bit machine: it grants every request below 2⁶² bytes. -/
def Allocator.system : Allocator := ⟨fun _ size ↦ size < 4611686018427387904⟩

/-- The name of one buffer: its slot, and how many buffers that slot had released before. -/
structure Handle where
  /-- The slot the buffer was put into. -/
  index : Nat
  /-- The generation of the slot at that time. -/
  generation : UInt32
deriving DecidableEq, Repr, Inhabited

/-- A handle as text. -/
def Handle.text (h : Handle) : String :=
  "VariableHandle(slot=" ++ Decimal.ofNat h.index ++ ", gen=" ++
    Decimal.ofNat h.generation.toNat ++ ")"

/-- A variable table. -/
structure Table where
  /-- The settings, which never change. -/
  config : TableConfig
  /-- The slots in index order. -/
  slots : List Slot
  /-- The bytes taken by all live buffers together. -/
  allocatedBytes : Nat
deriving DecidableEq, Repr, Inhabited

/-- A log record that an operation makes on its way. -/
structure LogPoint where
  /-- The record. -/
  event : Event
  /-- The table at the moment the record is made, with as much changed as has been changed by
  then. -/
  table : Table
deriving DecidableEq, Repr

/-- What an operation on a table gives. -/
structure Step (α : Type) where
  /-- The value, or why there is none. -/
  result : Except TableError α
  /-- The table afterwards. -/
  table : Table
  /-- The log records made, in order, each with the table at that moment. -/
  log : List LogPoint

/-- The log records made, in order. -/
def Step.events {α : Type} (s : Step α) : List Event := s.log.map LogPoint.event

/-- The first bytes of `buffer` replaced by as many of `bytes` as fit. -/
def overwriteStart (bytes buffer : List UInt8) : List UInt8 :=
  bytes.take buffer.length ++ buffer.drop bytes.length

namespace Table

/-- A table with all slots empty. -/
def fresh (config : TableConfig) : Table := ⟨config, List.replicate config.capacity {}, 0⟩

/-- A table with the given settings, if they are sound and there is memory for the slots. -/
def ofConfig (config : TableConfig) (a : Allocator := .system) : Except ConfigError Table :=
  match config.validate with
  | .error e => .error e
  | .ok () =>
    if a.grants 0 (config.capacity * Slot.width) then .ok (fresh config)
    else .error (.outOfMemory config.capacity)

/-- A table with the default settings. -/
def standard : Table := fresh {}

/-! ### Looking -/

/-- The number of slots. -/
def capacity (t : Table) : Nat := t.slots.length

/-- The number of live slots. -/
def liveCount (t : Table) : Nat := t.slots.countP Slot.isLive

/-- Index and size of every live slot, in index order. -/
def liveSlots (t : Table) : List (Nat × Nat) :=
  t.slots.zipIdx.filterMap fun (s, i) ↦ s.size?.map fun n ↦ (i, n)

/-- A slot, if it exists. -/
def slot (t : Table) (index : Nat) : Except TableError Slot :=
  match t.slots[index]? with
  | some s => .ok s
  | none => .error (.indexOutOfRange index t.capacity)

/-- Whether a slot is live; one that does not exist is not. -/
def isInitialized (t : Table) (index : Nat) : Bool :=
  match t.slots[index]? with
  | some s => s.isLive
  | none => false

/-- Whether a handle's buffer is still there. -/
def isLive (t : Table) (h : Handle) : Bool :=
  match t.slots[h.index]? with
  | some s => s.isLive && s.generation = h.generation
  | none => false

/-- The handle of the buffer in a slot. -/
def handle (t : Table) (index : Nat) : Except TableError Handle :=
  match t.slot index with
  | .error e => .error e
  | .ok s => if s.isLive then .ok ⟨index, s.generation⟩ else .error (.useAfterFree index)

/-- The buffer in a slot. -/
def bytes (t : Table) (index : Nat) : Except TableError (List UInt8) :=
  match t.slot index with
  | .error e => .error e
  | .ok s =>
    match s.data with
    | some buffer => .ok buffer
    | none => .error (.useAfterFree index)

/-- The size of the buffer in a slot. -/
def sizeOf (t : Table) (index : Nat) : Except TableError Nat :=
  match t.bytes index with
  | .error e => .error e
  | .ok buffer => .ok buffer.length

/-- The buffer a handle names. -/
def get (t : Table) (h : Handle) : Except TableError (List UInt8) :=
  match t.slot h.index with
  | .error e => .error e
  | .ok s =>
    if s.isLive && s.generation = h.generation then t.bytes h.index
    else .error (.useAfterFree h.index)

/-- The `int` in a slot. -/
def readInt (t : Table) (index : Nat) : Except TableError Int32 :=
  match t.bytes index with
  | .error e => .error e
  | .ok buffer =>
    if buffer.length < Word.size then .error (.bufferTooSmall index Word.size buffer.length)
    else .ok (Word.decode buffer)

/-! ### Changing -/

/-- Fail and leave everything as it is. -/
def refuse {α : Type} (t : Table) (e : TableError) : Step α := ⟨.error e, t, []⟩

/-- The table with another slot in the place of slot `index`. -/
def setSlot (t : Table) (index : Nat) (s : Slot) : Table :=
  { t with slots := t.slots.set index s }

/-- Put a buffer of `size` zero bytes into a slot.

The new buffer is had before the old one is let go, so that a refusal leaves the old one there.
Letting go of the old one is logged at once: at that moment its bytes are still counted. -/
def create (a : Allocator) (t : Table) (index size : Nat) : Step Handle :=
  match t.slot index with
  | .error e => t.refuse e
  | .ok s =>
    if s.isLive && t.config.overwrite = .reject then t.refuse (.alreadyInitialized index)
    else
      let retained := t.allocatedBytes - s.size
      if !t.config.admits (retained + size) then t.refuse (.outOfMemory size)
      else if !a.grants t.allocatedBytes size then t.refuse (.outOfMemory size)
      else
        let s' := s.release.install size
        let t' := { t.setSlot index s' with allocatedBytes := retained + size }
        { result := .ok ⟨index, s'.generation⟩
          table := t'
          log := (if s.isLive then [⟨.replaced index s.size, t.setSlot index s.release⟩] else []) ++
            [⟨.created index size s'.generation, t'⟩] }

/-- Release the buffer in a slot; the answer says whether there was one. -/
def free (t : Table) (index : Nat) : Step Bool :=
  match t.slot index with
  | .error e => t.refuse e
  | .ok s =>
    if s.isLive then
      let t' := { t.setSlot index s.release with allocatedBytes := t.allocatedBytes - s.size }
      ⟨.ok true, t', [⟨.freed index s.size, t'⟩]⟩
    else ⟨.ok false, t, []⟩

/-- Release the buffer a handle names. -/
def release (t : Table) (h : Handle) : Step Unit :=
  if t.isLive h then
    let step := t.free h.index
    ⟨step.result.map fun _ ↦ (), step.table, step.log⟩
  else
    match t.slot h.index with
    | .error e => t.refuse e
    | .ok _ => t.refuse (.doubleFree h.index)

/-- Replace the buffer in a slot by `edit` of it; the answer is the new buffer. -/
def editBytes (t : Table) (index : Nat) (edit : List UInt8 → List UInt8) : Step (List UInt8) :=
  match t.slot index with
  | .error e => t.refuse e
  | .ok s =>
    match s.data with
    | none => t.refuse (.useAfterFree index)
    | some buffer => ⟨.ok (edit buffer), t.setSlot index { s with data := some (edit buffer) }, []⟩

/-- Overwrite the start of the buffer in a slot. -/
def poke (t : Table) (index : Nat) (bytes : List UInt8) : Step (List UInt8) :=
  t.editBytes index (overwriteStart bytes)

/-- Overwrite the start of the buffer a handle names. -/
def pokeHandle (t : Table) (h : Handle) (bytes : List UInt8) : Step (List UInt8) :=
  match t.get h with
  | .error e => t.refuse e
  | .ok _ => t.poke h.index bytes

/-- Store an `int` into a slot. -/
def writeInt (t : Table) (index : Nat) (value : Int32) : Step Unit :=
  match t.bytes index with
  | .error e => t.refuse e
  | .ok buffer =>
    if buffer.length < Word.size then t.refuse (.bufferTooSmall index Word.size buffer.length)
    else
      let step := t.poke index (Word.encode value)
      ⟨step.result.map fun _ ↦ (), step.table, step.log⟩

/-- Release every live slot. -/
def emptied (t : Table) : Table :=
  { t with slots := t.slots.map Slot.release, allocatedBytes := 0 }

/-- The records that releasing every live slot leaves in the log. -/
def cleanupEvents (t : Table) : List Event :=
  if 0 < t.liveCount then [.cleaned t.liveCount] else []

/-- Release every live slot; the answer is their number. The record is made when all is done. -/
def cleanup (t : Table) : Step Nat :=
  ⟨.ok t.liveCount, t.emptied, t.cleanupEvents.map (⟨·, t.emptied⟩)⟩

end Table

end SlotLang
