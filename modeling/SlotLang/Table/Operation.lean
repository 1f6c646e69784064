import SlotLang.Table.Guard

/-!
# Operations as data

Everything that can be asked of a table, as a value, so that a history of a table is a list.
`Table.perform` does one operation and `Table.performAll` a history.
-/

namespace SlotLang

/-- Something asked of a table. -/
inductive Operation where
  | create (index size : Nat)
  | free (index : Nat)
  | release (handle : Handle)
  | handle (index : Nat)
  | isInitialized (index : Nat)
  | isLive (handle : Handle)
  | sizeOf (index : Nat)
  | bytes (index : Nat)
  | get (handle : Handle)
  | poke (index : Nat) (bytes : List UInt8)
  | pokeHandle (handle : Handle) (bytes : List UInt8)
  | readInt (index : Nat)
  | writeInt (index : Nat) (value : Int32)
  | capacity
  | config
  | liveSlots
  | cleanup
  | scoped (index size : Nat) (steps : List GuardStep) (ending : GuardEnd)
deriving DecidableEq, Repr

/-- The value of an operation. -/
inductive Value where
  | nothing
  | flag (value : Bool)
  | number (value : Nat)
  | int (value : Int32)
  | bytes (bytes : List UInt8)
  | handle (handle : Handle)
  | config (config : TableConfig)
  | slots (slots : List (Nat × Nat))
  | scope (scope : Scope)

namespace Step

/-- The step with its value in another form. -/
def map {α β : Type} (f : α → β) (s : Step α) : Step β := ⟨s.result.map f, s.table, s.log⟩

/-- The step of only looking at a table. -/
def look {α : Type} (t : Table) (result : Except TableError α) : Step α := ⟨result, t, []⟩

end Step

namespace Table

/-- Do one operation. -/
def perform (a : Allocator) (t : Table) : Operation → Step Value
  | .create index size => (t.create a index size).map .handle
  | .free index => (t.free index).map .flag
  | .release h => (t.release h).map fun _ ↦ .nothing
  | .handle index => .look t ((t.handle index).map .handle)
  | .isInitialized index => .look t (.ok (.flag (t.isInitialized index)))
  | .isLive h => .look t (.ok (.flag (t.isLive h)))
  | .sizeOf index => .look t ((t.sizeOf index).map .number)
  | .bytes index => .look t ((t.bytes index).map .bytes)
  | .get h => .look t ((t.get h).map .bytes)
  | .poke index bytes => (t.poke index bytes).map .bytes
  | .pokeHandle h bytes => (t.pokeHandle h bytes).map .bytes
  | .readInt index => .look t ((t.readInt index).map .int)
  | .writeInt index value => (t.writeInt index value).map fun _ ↦ .nothing
  | .capacity => .look t (.ok (.number t.capacity))
  | .config => .look t (.ok (.config t.config))
  | .liveSlots => .look t (.ok (.slots t.liveSlots))
  | .cleanup => t.cleanup.map .number
  | .scoped index size steps ending => (t.scoped a index size steps ending).map .scope

/-- The table after a history of operations. -/
def performAll (a : Allocator) (t : Table) (history : List Operation) : Table :=
  history.foldl (fun t op ↦ (t.perform a op).table) t

end Table

end SlotLang
