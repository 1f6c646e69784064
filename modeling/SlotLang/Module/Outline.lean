import SlotLang.Module
import SlotLang.Text.Decimal

/-!
# The outline of a program

A checked program as an indented tree, one node a line: the value of a declaration stands one
level under it, the arguments of a call one level under the call.
-/

namespace SlotLang

/-- A line of an outline: four blanks for each level, an arrow, then the node. -/
def outlineLine (level : Nat) (node : String) : String :=
  String.join (List.replicate level "    ") ++ "-> " ++ node ++ "\n"

namespace Expr

mutual

/-- The lines of an expression that stands at a level. -/
def outline (level : Nat) : Expr → String
  | int value _ => outlineLine level ("Int(" ++ Decimal.ofInt32 value ++ ")")
  | read name v _ =>
    outlineLine level ("VariableRead(" ++ name ++ ", slot " ++ Decimal.ofNat v.slot ++ ")")
  | call builtin args _ =>
    outlineLine level ("FunctionCall(" ++ builtin.name ++ ")") ++ outlineList (level + 1) args

/-- The lines of expressions that stand side by side at a level. -/
def outlineList (level : Nat) : List Expr → String
  | [] => ""
  | e :: es => outline level e ++ outlineList level es

end

end Expr

/-- The lines of a statement. -/
def Stmt.outline : Stmt → String
  | .declaration name v value _ =>
    outlineLine 1 ("Assignation(" ++ name ++ ": " ++ v.type.keyword ++ ", slot " ++
      Decimal.ofNat v.slot ++ ")") ++ value.outline 2
  | .expr e => e.outline 1

/-- The outline of a program. -/
def Module.outline (m : Module) : String :=
  "Entrypoint\n" ++ String.join (m.statements.map Stmt.outline)

end SlotLang
