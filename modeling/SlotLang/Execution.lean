import SlotLang.Table.Basic
import SlotLang.Writer

/-!
# Running a program to its end

A program body works on a table and an output. `execute` runs a body, flushes the output and then
releases every slot that is still live, whether the body succeeded or not.
-/

namespace SlotLang

/-- What running a body gives. -/
structure Ran (ε : Type) where
  /-- Whether the body succeeded, and if not why. -/
  result : Except ε Unit
  /-- The table afterwards. -/
  table : Table
  /-- The output afterwards. -/
  output : Output
  /-- The log records made, in order. -/
  events : List Event

namespace Ran

/-- A run with records made before it. -/
def after {ε : Type} (events : List Event) (r : Ran ε) : Ran ε :=
  { r with events := events ++ r.events }

/-- A step on the table, seen as a run. -/
def ofStep {α ε : Type} (s : Step α) (out : Output) (error : TableError → ε) : Ran ε :=
  ⟨(s.result.mapError error).map fun _ ↦ (), s.table, out, s.events⟩

/-- Go on with `next` if the run so far succeeded. -/
def andThen {ε : Type} (r : Ran ε) (next : Table → Output → Ran ε) : Ran ε :=
  match r.result with
  | .ok () => (next r.table r.output).after r.events
  | .error _ => r

@[simp]
theorem after_nil {ε : Type} (r : Ran ε) : r.after [] = r := rfl

/-- Going on twice is going on once with the two in a row. -/
theorem andThen_andThen {ε : Type} (r : Ran ε) (f g : Table → Output → Ran ε) :
    (r.andThen f).andThen g = r.andThen fun t out ↦ (f t out).andThen g := by
  rcases r with ⟨_ | _, t, out, events⟩
  · rfl
  · cases h : (f t out).result <;> simp [andThen, after, h]

end Ran

/-- What executing a program gives. -/
structure Report (ε : Type) where
  /-- Whether the body succeeded, and if not why. -/
  result : Except ε Unit
  /-- The number of slots the final cleanup released. -/
  released : Nat
  /-- The output. -/
  output : Output
  /-- The table afterwards. -/
  table : Table
  /-- The log records made, in order. -/
  events : List Event

namespace Report

/-- Whether the body succeeded. -/
def isOk {ε : Type} (r : Report ε) : Bool :=
  match r.result with
  | .ok () => true
  | .error _ => false

/-- The exit code of the program: 0 if the body succeeded, 1 otherwise. -/
def exitCode {ε : Type} (r : Report ε) : Nat := if r.isOk then 0 else 1

end Report

/-- Run a body on a table and a new output, then flush the output and release every live slot. -/
def execute {ε : Type} (w : Writer) (message : ε → String) (body : Table → Output → Ran ε)
    (t : Table) : Report ε :=
  let ran := body t {}
  let failed := match ran.result with
    | .ok () => []
    | .error e => [.bodyFailed (message e)]
  let unflushed := match w.flush ran.output with
    | none => []
    | some reason => [.flushFailed reason]
  let released := ran.table.liveCount
  { result := ran.result
    released := released
    output := ran.output
    table := ran.table.emptied
    events := ran.events ++ failed ++ unflushed ++ ran.table.cleanupEvents ++ [.finished released] }

/-- The line printed for a number. -/
def printedLine (value : Int32) : String := Decimal.ofInt32 value ++ "\n"

/-- Print a number on a line of its own, then flush. A failure is only logged. -/
def printLogged (w : Writer) (out : Output) (value : Int32) : Output × List Event :=
  match w.write out (printedLine value) with
  | (.error reason, out) => (out, [.printFailed value reason])
  | (.ok (), out) =>
    match w.flush out with
    | some reason => (out, [.printFailed value reason])
    | none => (out, [])

/-- Print numbers one after the other. -/
def printAllLogged (w : Writer) (out : Output) : List Int32 → Output × List Event
  | [] => (out, [])
  | value :: values =>
    let (out, events) := printLogged w out value
    let (out, more) := printAllLogged w out values
    (out, events ++ more)

end SlotLang
