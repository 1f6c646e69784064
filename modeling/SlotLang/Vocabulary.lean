/-!
# The words of the language

The types a variable can have and the functions a program can call. There is one of each: `int`
and `print`.
-/

namespace SlotLang

/-- The type of a variable. -/
inductive ValueType where
  | int
deriving DecidableEq, Repr, Inhabited

namespace ValueType

/-- The keyword that names the type. -/
def keyword : ValueType → String
  | .int => "int"

/-- The type a keyword names. -/
def ofKeyword? : String → Option ValueType
  | "int" => some .int
  | _ => none

/-- The bytes a declaration reserves for a variable of the type. -/
def slotSize : ValueType → Nat
  | .int => 8

/-- The bytes a value of the type takes within its slot. -/
def valueSize : ValueType → Nat
  | .int => 4

end ValueType

/-- A function a program can call. -/
inductive Builtin where
  | print
deriving DecidableEq, Repr, Inhabited

namespace Builtin

/-- The name a program calls the function by. -/
def name : Builtin → String
  | .print => "print"

/-- The function that goes by a name. -/
def ofName? : String → Option Builtin
  | "print" => some .print
  | _ => none

/-- The number of arguments a call must have. -/
def arity : Builtin → Nat
  | .print => 1

/-- Whether a call yields a value. -/
def returnsValue : Builtin → Bool
  | .print => false

/-- The C function that does the work in a generated program. -/
def cSymbol : Builtin → String
  | .print => "pysq_print"

theorem ofName?_name (b : Builtin) : ofName? b.name = some b := by cases b; rfl

end Builtin

end SlotLang
