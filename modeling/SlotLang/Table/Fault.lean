import SlotLang.Text.Decimal

/-!
# Why a table operation fails

Every fault is local to the call that met it.
-/

namespace SlotLang

/-- The reason a table operation fails. -/
inductive TableError where
  /-- There is no such slot. -/
  | indexOutOfRange (index capacity : Nat)
  /-- The buffer would break the memory limit, or the allocator refused it. -/
  | outOfMemory (requested : Nat)
  /-- The slot is live already and may not be replaced. -/
  | alreadyInitialized (index : Nat)
  /-- The buffer a handle names has been released already. -/
  | doubleFree (index : Nat)
  /-- The slot is empty, or no longer holds the buffer a handle names. -/
  | useAfterFree (index : Nat)
  /-- The buffer is too short for the value. -/
  | bufferTooSmall (index required actual : Nat)
deriving DecidableEq, Repr

namespace TableError

/-- The slot concerned, if the fault concerns one. -/
def index? : TableError → Option Nat
  | indexOutOfRange i _ | alreadyInitialized i | doubleFree i | useAfterFree i
  | bufferTooSmall i _ _ => some i
  | outOfMemory _ => none

/-- The wording of the fault. -/
def message : TableError → String
  | indexOutOfRange index capacity =>
    "index " ++ Decimal.ofNat index ++ " out of range for table of " ++ Decimal.ofNat capacity ++
      " slots"
  | outOfMemory requested =>
    "out of memory: could not allocate " ++ Decimal.ofNat requested ++ " bytes"
  | alreadyInitialized index => "slot " ++ Decimal.ofNat index ++ " is already initialized"
  | doubleFree index => "slot " ++ Decimal.ofNat index ++ " was already freed"
  | useAfterFree index =>
    "slot " ++ Decimal.ofNat index ++ " is not initialized (use after free)"
  | bufferTooSmall index required actual =>
    "slot " ++ Decimal.ofNat index ++ " holds " ++ Decimal.ofNat actual ++
      " bytes, access needs " ++ Decimal.ofNat required

end TableError

end SlotLang
