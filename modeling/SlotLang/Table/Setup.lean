import SlotLang.Table.Basic
import SlotLang.Vocabulary

/-!
# Tables with something in them

A table described by its settings and the integers to put into it before use.
-/

namespace SlotLang

/-- A table to build. -/
structure Setup where
  /-- The settings. -/
  config : TableConfig := {}
  /-- The integers to store, each in a slot of its own, in this order. -/
  ints : List (Nat × Int32) := []
deriving DecidableEq, Repr, Inhabited

/-- Why a table cannot be built. -/
inductive SetupError where
  | config (error : ConfigError)
  | table (error : TableError)
deriving DecidableEq, Repr

namespace Table

/-- Put an integer into a slot of its own. -/
def preload (a : Allocator) (t : Table) (index : Nat) (value : Int32) : Step Unit :=
  let made := t.create a index ValueType.int.slotSize
  match made.result with
  | .error e => ⟨.error e, made.table, made.log⟩
  | .ok _ =>
    let stored := made.table.writeInt index value
    ⟨stored.result, stored.table, made.log ++ stored.log⟩

/-- Put integers into slots, up to the first that fails. -/
def preloadAll (a : Allocator) (t : Table) : List (Nat × Int32) → Step Unit
  | [] => ⟨.ok (), t, []⟩
  | (index, value) :: ints =>
    let first := t.preload a index value
    match first.result with
    | .error e => ⟨.error e, first.table, first.log⟩
    | .ok () =>
      let rest := first.table.preloadAll a ints
      ⟨rest.result, rest.table, first.log ++ rest.log⟩

end Table

/-- Build a table. If an integer cannot be stored, what was built is emptied again, and the log
says so. -/
def Setup.build (a : Allocator) (s : Setup) : Except SetupError Table × List Event :=
  match Table.ofConfig s.config a with
  | .error e => (.error (.config e), [])
  | .ok t =>
    let step := t.preloadAll a s.ints
    match step.result with
    | .error e => (.error (.table e), step.events ++ step.table.cleanupEvents)
    | .ok () => (.ok step.table, step.events)

end SlotLang
