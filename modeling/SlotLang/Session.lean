import SlotLang.Execution.Body
import SlotLang.Table.Operation
import SlotLang.Table.Setup

/-!
# Sessions

A session is a table being worked on, together with all handles it has given out, numbered in the
order they appeared. A request names a handle by its number, so a handle stays usable, stale or
not, also after the table has been replaced.
-/

namespace SlotLang

/-- Something asked in a session. -/
inductive Request where
  /-- An operation that names no handle. -/
  | operation (op : Operation)
  /-- An operation on the handle with a number. -/
  | onHandle (number : Nat) (op : Handle → Operation)
  /-- Execute a body, on a limited writer if a budget is given. -/
  | execute (body : Body) (budget : Option Nat)
  /-- Drop the table and start again with a default one, or with one that is built. -/
  | renew (setup : Option Setup)

/-- The answer to a request. -/
inductive Reply where
  | value (value : Value)
  /-- A handle, with its number. -/
  | handle (number : Nat) (handle : Handle)
  /-- A scope, with the number of its handle. -/
  | scope (number : Nat) (scope : Scope)
  | report (report : Report BodyError)
  | fault (error : TableError)
  | setupFault (error : SetupError)
  | noSuchHandle

/-- A table and the handles it has given out. -/
structure Session where
  /-- The table. -/
  table : Table
  /-- The handles in order of appearance. -/
  handles : List Handle := []

namespace Session

/-- Number a new handle. -/
def addHandle (s : Session) (h : Handle) : Session := { s with handles := s.handles ++ [h] }

/-- Do an operation on the table. -/
def operate (a : Allocator) (s : Session) (op : Operation) : Reply × Session × List Event :=
  let step := s.table.perform a op
  let s := { s with table := step.table }
  match step.result with
  | .error e => (.fault e, s, step.events)
  | .ok (.handle h) => (.handle s.handles.length h, s.addHandle h, step.events)
  | .ok (.scope scope) => (.scope s.handles.length scope, s.addHandle scope.handle, step.events)
  | .ok value => (.value value, s, step.events)

/-- Answer a request. -/
def answer (a : Allocator) (s : Session) : Request → Reply × Session × List Event
  | .operation op => s.operate a op
  | .onHandle number op =>
    match s.handles[number]? with
    | none => (.noSuchHandle, s, [])
    | some h => s.operate a (op h)
  | .execute body budget =>
    let report := body.execute a (.ofBudget budget) s.table
    (.report report, { s with table := report.table }, report.events)
  | .renew none => (.value .nothing, { s with table := .standard }, s.table.cleanupEvents)
  | .renew (some setup) =>
    let (built, events) := setup.build a
    let events := s.table.cleanupEvents ++ events
    match built with
    | .error e => (.setupFault e, { s with table := .standard }, events)
    | .ok t => (.value .nothing, { s with table := t }, events)

end Session

end SlotLang
