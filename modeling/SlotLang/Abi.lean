import SlotLang.Execution

/-!
# The C interface

Generated C programs work on one table per process, behind a lock, through calls that answer with a
status code. A call that panics is caught: it answers `panicked`, its message is kept, and a lock
that was held at the time stays poisoned, so that every later call that needs it is refused.

A panic is made by arming the process: the next log record, whichever call makes it, panics once.
What stays behind a poisoned lock is the table as it is at that record.

All calls come from one thread. The table and its lock belong to the process, but a message is kept
for each thread, and a `State` holds the message of the thread that makes the calls.
-/

namespace SlotLang.Abi

/-- What a call reports. -/
inductive Status where
  | ok
  | indexOutOfRange
  | outOfMemory
  | alreadyInitialized
  | doubleFree
  | useAfterFree
  | bufferTooSmall
  /-- A pointer to write to is null. -/
  | invalidArgument
  /-- The lock is poisoned. -/
  | internalError
  /-- The call panicked. -/
  | panicked
deriving DecidableEq, Repr, Inhabited

namespace Status

/-- The number that stands for a status. -/
def code : Status → Int
  | .ok => 0
  | .indexOutOfRange => -1
  | .outOfMemory => -2
  | .alreadyInitialized => -3
  | .doubleFree => -4
  | .useAfterFree => -5
  | .bufferTooSmall => -6
  | .invalidArgument => -7
  | .internalError => -8
  | .panicked => -128

/-- The status for a fault of the table. -/
def ofFault : TableError → Status
  | .indexOutOfRange .. => .indexOutOfRange
  | .outOfMemory .. => .outOfMemory
  | .alreadyInitialized .. => .alreadyInitialized
  | .doubleFree .. => .doubleFree
  | .useAfterFree .. => .useAfterFree
  | .bufferTooSmall .. => .bufferTooSmall

/-- The status for the result of a table operation. -/
def ofResult {α : Type} : Except TableError α → Status
  | .ok _ => .ok
  | .error e => ofFault e

end Status

/-- What a panic carries. -/
inductive Payload where
  | text (message : String)
  /-- Something that is no text. -/
  | other
deriving DecidableEq, Repr

/-- The message kept for a panic. -/
def Payload.message : Payload → String
  | .text message => message
  | .other => "unknown panic payload"

/-- The state a process keeps between calls. -/
structure State where
  /-- The table behind the lock. -/
  table : Table
  /-- Whether a call has panicked while it held the lock. -/
  poisoned : Bool
  /-- The message of the latest panic caught on the thread that makes the calls; empty before the
  first. -/
  lastPanic : String
  /-- The panic that the next log record makes. -/
  armed : Option Payload
deriving DecidableEq, Repr

namespace State

/-- A process in which nothing has been called. -/
def fresh : State := ⟨.standard, false, "", none⟩

/-- Let the next log record panic. -/
def arm (p : State) (payload : Payload) : State := { p with armed := some payload }

/-- The panic that is set off while these log records are made, and the record that it hits: the
first of them. -/
def panicking? {ρ : Type} (p : State) : List ρ → Option (Payload × ρ)
  | [] => none
  | record :: _ => p.armed.map fun payload ↦ (payload, record)

/-- Do something to the table under the lock. The value is there only when all went well; a panic
stops the operation at the record that it hits, and what it had changed by then stays changed. -/
def locked {α : Type} (p : State) (operation : Table → Step α) : Status × Option α × State :=
  if p.poisoned then (.internalError, none, p)
  else
    let step := operation p.table
    match p.panicking? step.log with
    | some (payload, point) => (.panicked, none, ⟨point.table, true, payload.message, none⟩)
    | none => (.ofResult step.result, step.result.toOption, { p with table := step.table })

/-- Look at the table under the lock. -/
def locking {α : Type} (p : State) (query : Table → Except TableError α) : Status × Option α :=
  if p.poisoned then (.internalError, none)
  else (.ofResult (query p.table), (query p.table).toOption)

/-! ### The calls -/

/-- Put a buffer of zero bytes into a slot. -/
def create (a : Allocator) (p : State) (index size : Nat) : Status × State :=
  let (status, _, p) := p.locked (·.create a index size)
  (status, p)

/-- Release a slot. -/
def free (p : State) (index : Nat) : Status × State :=
  let (status, _, p) := p.locked (·.free index)
  (status, p)

/-- The buffer that the pointer to a slot leads to; none for a null pointer. -/
def pointer (p : State) (index : Nat) : Option (List UInt8) := (p.locking (·.bytes index)).2

/-- Whether a slot is live. `null` says that there is no cell to write the answer to; the second
part is what is written to the cell, if anything is. -/
def isInitialized (p : State) (index : Nat) (null : Bool) : Status × Option Nat :=
  if null then (.invalidArgument, none)
  else
    p.locking fun t ↦ (t.slot index).map fun s ↦ if s.isLive then 1 else 0

/-- The size of a live slot, with the cell to write it to as in `isInitialized`. -/
def size (p : State) (index : Nat) (null : Bool) : Status × Option Nat :=
  if null then (.invalidArgument, none) else p.locking (·.sizeOf index)

/-- Release every live slot. The number of slots released is written to the cell, if there is
one. -/
def cleanup (p : State) (null : Bool) : Status × Option Nat × State :=
  let (status, released, p) := p.locked Table.cleanup
  (status, if null then none else released, p)

/-- Print a number to standard output; no lock is needed. -/
def print (w : Writer) (p : State) (value : Int32) : Status × Output × State :=
  let (out, events) := printLogged w {} value
  match p.panicking? events with
  | some (payload, _) => (.panicked, out, { p with lastPanic := payload.message, armed := none })
  | none => (.ok, out, p)

/-- Read the buffer of a slot: ask for its size, then follow the pointer. -/
def load (p : State) (index : Nat) : Option (List UInt8) :=
  match p.size index false with
  | (.ok, _) => p.pointer index
  | _ => none

/-- Write an `int` through the pointer to a slot that is long enough for it. -/
def store (p : State) (index : Nat) (value : Int32) : Bool × State :=
  match p.size index false with
  | (.ok, some n) =>
    if Word.size ≤ n then
      (true, { p with table := (p.table.poke index (Word.encode value)).table })
    else (false, p)
  | _ => (false, p)

/-- The length of the latest panic message in bytes. -/
def lastPanicLength (p : State) : Nat := min p.lastPanic.utf8ByteSize 2147483647

/-- Copy the latest panic message into a buffer: as much of it as leaves room for the zero byte
that closes it. An empty buffer stays empty. -/
def copyLastPanic (p : State) (buffer : List UInt8) : List UInt8 :=
  if buffer.isEmpty then buffer
  else
    let message := p.lastPanic.toUTF8.toList.take (buffer.length - 1)
    overwriteStart (message ++ [0]) buffer

end State

/-! ### Calls as data -/

/-- A call of the interface. -/
inductive Call where
  | create (index size : Nat)
  | free (index : Nat)
  | pointer (index : Nat)
  | isInitialized (index : Nat) (null : Bool)
  | size (index : Nat) (null : Bool)
  | cleanup (null : Bool)
  /-- Print a number; `full` says that standard output has no room left. -/
  | print (value : Int32) (full : Bool)
  | load (index : Nat)
  | store (index : Nat) (value : Int32)
  | lastPanic (buffer : Option (List UInt8))
  | arm (payload : Payload)
deriving DecidableEq, Repr

/-- What a call gives back. -/
inductive Reply where
  | status (status : Status)
  /-- A status, and what was written to the caller's cell. -/
  | cell (status : Status) (written : Option Nat)
  | pointer (isNull : Bool)
  | printed (status : Status) (text : String)
  | bytes (bytes : Option (List UInt8))
  | stored (done : Bool)
  | message (length : Nat) (buffer : Option (List UInt8))
  | armed
deriving DecidableEq, Repr

namespace State

/-- Make a call. -/
def call (a : Allocator) (p : State) : Call → Reply × State
  | .create index size =>
    let (status, p) := p.create a index size
    (.status status, p)
  | .free index =>
    let (status, p) := p.free index
    (.status status, p)
  | .pointer index => (.pointer (p.pointer index).isNone, p)
  | .isInitialized index null =>
    let (status, written) := p.isInitialized index null
    (.cell status written, p)
  | .size index null =>
    let (status, written) := p.size index null
    (.cell status written, p)
  | .cleanup null =>
    let (status, written, p) := p.cleanup null
    (.cell status written, p)
  | .print value full =>
    let (status, out, p) := p.print (if full then .full else .buffer) value
    (.printed status out.text, p)
  | .load index => (.bytes (p.load index), p)
  | .store index value =>
    let (done, p) := p.store index value
    (.stored done, p)
  | .lastPanic buffer => (.message p.lastPanicLength (buffer.map p.copyLastPanic), p)
  | .arm payload => (.armed, p.arm payload)

/-- Make calls one after the other, all from one thread. -/
def callAll (a : Allocator) (p : State) : List Call → List Reply × State
  | [] => ([], p)
  | c :: cs =>
    let (reply, p) := p.call a c
    let (replies, p) := p.callAll a cs
    (reply :: replies, p)

end State

end SlotLang.Abi
