import SlotLang.Vocabulary

/-!
# The registry of declarations

While a program is read, every declaration takes the next free slot, also when its name is in use
already; a name then stands for the variable of its latest declaration. The registry keeps the
names in the order in which they were first declared.

`find?_put_self` and `find?_put_of_ne` say how a declaration changes what names stand for,
`map_fst_put` that it never moves a name.
-/

namespace SlotLang

/-- A declared variable: its slot in the table and its type. -/
structure Variable where
  /-- The slot that holds the value. -/
  slot : Nat
  /-- The declared type. -/
  type : ValueType
deriving DecidableEq, Repr, Inhabited

namespace Registry

/-- Bind `name` to `v`: in place if the name is bound already, else behind all others. -/
def put (name : String) (v : Variable) : List (String × Variable) → List (String × Variable)
  | [] => [(name, v)]
  | b :: bs => if b.1 = name then (name, v) :: bs else b :: put name v bs

/-- The variable a name is bound to. -/
def find? (name : String) (bindings : List (String × Variable)) : Option Variable :=
  (bindings.find? (·.1 = name)).map (·.2)

end Registry

/-- The declarations made so far, for a table of `capacity` slots. -/
structure Registry where
  /-- The latest variable of each name, in the order of first declaration. -/
  bindings : List (String × Variable)
  /-- The number of declarations made, which is the next free slot. -/
  slotCount : Nat
  /-- The number of slots there are to give out. -/
  capacity : Nat
deriving DecidableEq, Repr

namespace Registry

/-- The registry before the first declaration. -/
def empty (capacity : Nat) : Registry := ⟨[], 0, capacity⟩

/-- Declare a variable: it takes the next free slot, unless none is left. -/
def declare? (r : Registry) (name : String) (type : ValueType) : Option (Variable × Registry) :=
  if r.slotCount < r.capacity then
    let v : Variable := ⟨r.slotCount, type⟩
    some (v, { r with bindings := put name v r.bindings, slotCount := r.slotCount + 1 })
  else none

/-- The variable a name stands for. -/
def resolve? (r : Registry) (name : String) : Option Variable := find? name r.bindings

/-! ### Bindings -/

@[simp]
theorem find?_nil (name : String) : find? name [] = none := rfl

theorem find?_cons (name : String) (b : String × Variable) (bs : List (String × Variable)) :
    find? name (b :: bs) = if b.1 = name then some b.2 else find? name bs := by
  by_cases h : b.1 = name <;> simp [find?, h]

/-- The name just bound stands for its new variable. -/
theorem find?_put_self (name : String) (v : Variable) (bs : List (String × Variable)) :
    find? name (put name v bs) = some v := by
  induction bs with
  | nil => simp [put, find?_cons]
  | cons b bs ih => by_cases h : b.1 = name <;> simp [put, h, find?_cons, ih]

/-- Every other name stands for what it stood for before. -/
theorem find?_put_of_ne {name other : String} (h : other ≠ name) (v : Variable)
    (bs : List (String × Variable)) : find? other (put name v bs) = find? other bs := by
  induction bs with
  | nil => simp [put, find?_cons, Ne.symm h]
  | cons b bs ih =>
    by_cases hb : b.1 = name
    · subst hb
      simp [put, find?_cons, Ne.symm h]
    · simp [put, hb, find?_cons, ih]

/-- Binding keeps the names in their order and adds a new one at the end. -/
theorem map_fst_put (name : String) (v : Variable) (bs : List (String × Variable)) :
    (put name v bs).map (·.1) =
      if name ∈ bs.map (·.1) then bs.map (·.1) else bs.map (·.1) ++ [name] := by
  induction bs with
  | nil => simp [put]
  | cons b bs ih =>
    by_cases hb : b.1 = name
    · simp [put, hb]
    · by_cases hm : name ∈ bs.map (·.1) <;> simp_all [put, Ne.symm hb]

end Registry

end SlotLang
