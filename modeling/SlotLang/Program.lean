import SlotLang.Module
import SlotLang.Text.Decimal

/-!
# Instruction lists

A checked program lowered to a flat list of instructions over table slots. A declaration becomes
an allocation and a store, a call an instruction of its own, any other expression an evaluation
whose value is dropped.
-/

namespace SlotLang

/-- Where an instruction takes a value from. -/
inductive Operand where
  /-- The number itself. -/
  | const (value : Int32)
  /-- The `int` in a slot. -/
  | load (slot : Nat)
deriving DecidableEq, Repr, Inhabited

/-- One step of a program. -/
inductive Instr where
  /-- Make a buffer of `size` bytes in a slot. -/
  | alloc (slot size : Nat)
  /-- Store an `int` into a slot. -/
  | store (slot : Nat) (value : Operand)
  /-- Call a function. -/
  | call (builtin : Builtin) (args : List Operand)
  /-- Evaluate an operand and drop the value. -/
  | eval (value : Operand)
deriving DecidableEq, Repr, Inhabited

/-- A lowered program. -/
structure Program where
  /-- The instructions in order. -/
  instrs : List Instr
  /-- The number of slots the program uses. -/
  slotCount : Nat
deriving DecidableEq, Repr, Inhabited

/-- The operand for an expression. A call has no value; no checked program has one here, and it
counts as zero. -/
def Expr.operand : Expr → Operand
  | .int value _ => .const value
  | .read _ v _ => .load v.slot
  | .call .. => .const 0

/-- The instructions of a statement. -/
def Stmt.instrs : Stmt → List Instr
  | .declaration _ v value _ => [.alloc v.slot v.type.slotSize, .store v.slot value.operand]
  | .expr (.call builtin args _) => [.call builtin (args.map Expr.operand)]
  | .expr e => [.eval e.operand]

/-- The instructions of a program. -/
def Module.lower (m : Module) : Program := ⟨m.statements.flatMap Stmt.instrs, m.slotCount⟩

/-! ### Listings -/

/-- An operand in a listing: the number, or the slot in brackets. -/
def Operand.text : Operand → String
  | .const value => Decimal.ofInt32 value
  | .load slot => "[" ++ Decimal.ofNat slot ++ "]"

/-- The arguments of a call in a listing. -/
def Operand.listText : List Operand → String
  | [] => ""
  | args => " " ++ ", ".intercalate (args.map Operand.text)

/-- An instruction in a listing. -/
def Instr.text : Instr → String
  | .alloc slot size => "alloc [" ++ Decimal.ofNat slot ++ "], " ++ Decimal.ofNat size
  | .store slot value => "store [" ++ Decimal.ofNat slot ++ "], " ++ value.text
  | .call builtin args => "call " ++ builtin.name ++ Operand.listText args
  | .eval value => "eval " ++ value.text

/-- The listing of a program, one instruction a line. -/
def Program.listing (p : Program) : String := String.join (p.instrs.map fun i ↦ i.text ++ "\n")

end SlotLang
