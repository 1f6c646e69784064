import SlotLang.Table.Setup

/-!
# Sample programs

Small programs with the output they print and the slots they use, a program of any size, and the
tables used to measure the runtime.
-/

namespace SlotLang

/-- A program with what is known about it. -/
structure Sample where
  /-- The name of the sample. -/
  name : String
  /-- The source text. -/
  source : String
  /-- What the program prints. -/
  output : String
  /-- The number of slots it uses. -/
  slots : Nat
deriving DecidableEq, Repr

namespace Sample

/-- The samples. -/
def all : List Sample :=
  [⟨"empty", "", "", 0⟩,
   ⟨"print_literal", "print(42)\n", "42\n", 0⟩,
   ⟨"declare_and_print", "x: int = 5\nprint(x)\n", "5\n", 1⟩,
   ⟨"redeclare", "x: int = 1\nprint(x)\nx: int = 2\nprint(x)\n", "1\n2\n", 2⟩,
   ⟨"negative", "# extremes\nlow: int = -2147483648\nhigh: int = 2147483647\nprint(low)\n" ++
      "print(high)\n", "-2147483648\n2147483647\n", 2⟩,
   ⟨"copy_chain", "a: int = 7\nb: int = a\nc: int = b\nprint(c)\nprint(a)\n", "7\n7\n", 3⟩]

/-- The declaration of the variable with a number, and a line that prints it. -/
def declareAndPrint (i : Nat) : String :=
  "v" ++ Decimal.ofNat i ++ ": int = " ++ Decimal.ofNat i ++ "\nprint(v" ++ Decimal.ofNat i ++ ")\n"

/-- A program that declares and prints `count` variables. -/
def manyDeclarations (count : Nat) : String :=
  String.join ((List.range count).map declareAndPrint)

/-- What that program prints. -/
def manyDeclarationsOutput (count : Nat) : String :=
  String.join ((List.range count).map fun i ↦ Decimal.ofNat i ++ "\n")

/-- Buffer sizes that go round the powers of two from 4 to 512. -/
def mixedSizes (count : Nat) : List Nat := (List.range count).map fun i ↦ 4 <<< (i % 8)

/-- A default table with every slot holding its own index. -/
def fullTable (a : Allocator) : Step Unit :=
  Table.standard.preloadAll a
    ((List.range TableConfig.defaultCapacity).map fun i ↦ (i, Int32.ofNat i))

end Sample

end SlotLang
