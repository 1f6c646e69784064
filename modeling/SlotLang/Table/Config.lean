import SlotLang.Text.Decimal

/-!
# Table settings

How many slots a table has, what happens when a live slot is created again, and how many bytes
its buffers may take together.
-/

namespace SlotLang

/-- What creating a slot that is live already does. -/
inductive OverwritePolicy where
  /-- It fails, and the slot stays as it is. -/
  | reject
  /-- It releases the old buffer. -/
  | replace
deriving DecidableEq, Repr, Inhabited

namespace OverwritePolicy

/-- The name a policy is chosen by. -/
def name : OverwritePolicy → String
  | .reject => "reject"
  | .replace => "replace"

/-- The policy that goes by a name. -/
def ofName? : String → Option OverwritePolicy
  | "reject" => some .reject
  | "replace" => some .replace
  | _ => none

end OverwritePolicy

/-- Why settings are refused. -/
inductive ConfigError where
  /-- The table would have no slot. -/
  | zeroCapacity
  /-- The table would have more slots than any table may have. -/
  | capacityTooLarge (capacity max : Nat)
  /-- There is no memory for the slots themselves. -/
  | outOfMemory (capacity : Nat)
deriving DecidableEq, Repr

/-- The wording of the refusal. -/
def ConfigError.message : ConfigError → String
  | .zeroCapacity => "table capacity must be at least 1"
  | .capacityTooLarge capacity max =>
    "table capacity " ++ Decimal.ofNat capacity ++ " exceeds the maximum of " ++ Decimal.ofNat max
  | .outOfMemory capacity => "cannot allocate a table of " ++ Decimal.ofNat capacity ++ " slots"

/-- The settings of a table. -/
structure TableConfig where
  /-- The number of slots. -/
  capacity : Nat := 256
  /-- What creating a live slot does. -/
  overwrite : OverwritePolicy := .reject
  /-- The most bytes all live buffers may take together. -/
  memoryLimit : Option Nat := none
deriving DecidableEq, Repr, Inhabited

namespace TableConfig

/-- The number of slots a generated program counts on. -/
def defaultCapacity : Nat := 256

/-- The most slots a table may have. -/
def maxCapacity : Nat := 1048576

/-- Check the number of slots. -/
def validate (c : TableConfig) : Except ConfigError Unit :=
  if c.capacity = 0 then .error .zeroCapacity
  else if c.capacity > maxCapacity then .error (.capacityTooLarge c.capacity maxCapacity)
  else .ok ()

/-- Whether live buffers may take `total` bytes together. -/
def admits (c : TableConfig) (total : Nat) : Bool :=
  match c.memoryLimit with
  | none => true
  | some limit => total ≤ limit

theorem validate_eq_ok_iff {c : TableConfig} :
    c.validate = .ok () ↔ 0 < c.capacity ∧ c.capacity ≤ maxCapacity := by
  unfold validate
  grind

end TableConfig

end SlotLang
