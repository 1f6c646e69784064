import SlotLang.Table.Basic

/-!
# Guarded buffers

A guard owns one buffer for the length of a scope. Inside the scope the buffer can be read and
written through the guard; at its end the guard is kept, released or dropped, and only a kept one
leaves its buffer in the table.
-/

namespace SlotLang

/-- Something done through a guard. -/
inductive GuardStep where
  | readInt
  | writeInt (value : Int32)
  | bytes
  | poke (bytes : List UInt8)
  | length
  | index
  | handle
deriving DecidableEq, Repr

/-- The value of something done through a guard. -/
inductive GuardValue where
  | nothing
  | int (value : Int32)
  | bytes (bytes : List UInt8)
  | number (value : Nat)
  | handle (handle : Handle)
deriving DecidableEq, Repr

/-- How a guard ends. -/
inductive GuardEnd where
  /-- The buffer stays in the table. -/
  | keep
  /-- The buffer is released, and a fault in doing so would be reported. -/
  | release
  /-- The buffer is released, and a fault in doing so would be ignored. -/
  | drop
deriving DecidableEq, Repr

/-- What the end of a guard gives. -/
inductive GuardEnding where
  | kept (handle : Handle)
  | released (result : Except TableError Unit)
  | dropped
deriving Repr

/-- A table one of whose buffers is guarded. -/
structure Guard where
  /-- The table. -/
  table : Table
  /-- The guarded buffer. -/
  handle : Handle
deriving DecidableEq, Repr

namespace Guard

/-- The guarded buffer as seen through the guard. -/
def view (g : Guard) : List UInt8 :=
  match g.table.get g.handle with
  | .ok buffer => buffer
  | .error _ => []

/-- Do one thing through the guard. -/
def step (g : Guard) : GuardStep → Except TableError GuardValue × Table
  | .readInt => ((g.table.readInt g.handle.index).map .int, g.table)
  | .writeInt value =>
    let step := g.table.writeInt g.handle.index value
    (step.result.map fun _ ↦ .nothing, step.table)
  | .bytes => (.ok (.bytes g.view), g.table)
  | .poke bytes =>
    let table := (g.table.pokeHandle g.handle bytes).table
    (.ok (.bytes (view ⟨table, g.handle⟩)), table)
  | .length => (.ok (.number g.view.length), g.table)
  | .index => (.ok (.number g.handle.index), g.table)
  | .handle => (.ok (.handle g.handle), g.table)

/-- Do things through the guard one after the other. -/
def run (g : Guard) : List GuardStep → List (Except TableError GuardValue) × Table
  | [] => ([], g.table)
  | s :: ss =>
    let (value, table) := g.step s
    let (values, table) := run ⟨table, g.handle⟩ ss
    (value :: values, table)

/-- Leave the scope of the guard. One that is still armed releases its buffer, and a fault in doing
so is ignored. -/
def leave (g : Guard) (armed : Bool) : Table × List LogPoint :=
  if armed then
    let step := g.table.release g.handle
    (step.table, step.log)
  else (g.table, [])

/-- End the guard. To keep or to release the buffer disarms the guard first, so that leaving the
scope does nothing more. -/
def finish (g : Guard) : GuardEnd → GuardEnding × Table × List LogPoint
  | .keep => (.kept g.handle, g.leave false)
  | .release =>
    let step := g.table.release g.handle
    let (table, log) := leave ⟨step.table, g.handle⟩ false
    (.released step.result, table, step.log ++ log)
  | .drop => (.dropped, g.leave true)

end Guard

/-- What happened in a scope. -/
structure Scope where
  /-- The guarded buffer. -/
  handle : Handle
  /-- The values of the things done through the guard. -/
  values : List (Except TableError GuardValue)
  /-- How the guard ended. -/
  ending : GuardEnding

/-- Create a buffer, do things to it through a guard, and end the guard. -/
def Table.scoped (a : Allocator) (t : Table) (index size : Nat) (steps : List GuardStep)
    (ending : GuardEnd) : Step Scope :=
  let made := t.create a index size
  match made.result with
  | .error e => ⟨.error e, made.table, made.log⟩
  | .ok handle =>
    let (values, table) := Guard.run ⟨made.table, handle⟩ steps
    let (ended, table, log) := Guard.finish ⟨table, handle⟩ ending
    ⟨.ok ⟨handle, values, ended⟩, table, made.log ++ log⟩

end SlotLang
