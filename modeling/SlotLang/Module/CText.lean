import SlotLang.Module
import SlotLang.Text.Decimal

/-!
# Programs as C

The C text of a checked program. Each statement becomes C statements over the table functions of
`SlotLang.Abi`, one a line; together they replace the marker line in a template that supplies the
rest of the C file, the final cleanup included.

A negative number stands in parentheses. The least one is spelled as a difference, because in C
its magnitude is not an `int`.
-/

namespace SlotLang

/-- What begins a new line inside the body. -/
def bodyBreak : String := "\n    "

/-- An `int` constant as a C expression. -/
def cInt (v : Int32) : String :=
  if v = Int32.minValue then "(-2147483647 - 1)"
  else if v < 0 then "(" ++ Decimal.ofInt32 v ++ ")"
  else Decimal.ofInt32 v

/-- The `int` in a slot as a C lvalue. -/
def cSlot (slot : Nat) : String := "*((int*)pysq_variable_ptr(" ++ Decimal.ofNat slot ++ "))"

namespace Expr

mutual

/-- An expression in C. -/
def toC : Expr → String
  | int value _ => cInt value
  | read _ v _ => "(" ++ cSlot v.slot ++ ")"
  | call builtin args _ => builtin.cSymbol ++ "(" ++ ", ".intercalate (listToC args) ++ ")"

/-- The expressions of a list in C. -/
def listToC : List Expr → List String
  | [] => []
  | e :: es => toC e :: listToC es

end

end Expr

/-- A statement in C. A declaration makes its slot, leaves the program with exit code 1 if that
failed, and stores the value. -/
def Stmt.toC : Stmt → String
  | .declaration _ v value _ =>
    "pysq_create_variable(" ++ Decimal.ofNat v.slot ++ ", " ++ Decimal.ofNat v.type.slotSize ++
      ");" ++ bodyBreak ++
    "if (pysq_variable_ptr(" ++ Decimal.ofNat v.slot ++
      ") == NULL) \x7b pysq_cleanup(NULL); return (1); \x7d" ++ bodyBreak ++
    cSlot v.slot ++ " = " ++ value.toC ++ ";"
  | .expr e => e.toC ++ ";"

/-- The statements of a program in C. -/
def Module.cBody (m : Module) : String :=
  if m.statements.isEmpty then "// (empty program)"
  else bodyBreak.intercalate (m.statements.map Stmt.toC)

namespace Template

/-- The text that a template has in the place of the body. -/
def marker : String := "// %main"

/-- The template used when none is given. -/
def standard : String :=
  "// Default main for py-squared programs.\n" ++
  "// Link against the pysq-ffi library; pysq.h is generated by its build.\n" ++
  "#include <stddef.h>\n" ++
  "#include \"pysq.h\"\n" ++
  "\n" ++
  "int main(void) \x7b\n" ++
  "    // %main\n" ++
  "    pysq_cleanup(NULL);\n" ++
  "    return (0);\n" ++
  "\x7d\n"

/-- Put `body` in the place of every marker, taken from the left without overlap. -/
def splice (body cs : List Char) : List Char :=
  match cs with
  | [] => []
  | c :: cs =>
    if marker.toList.isPrefixOf (c :: cs) then
      body ++ splice body (cs.drop (marker.length - 1))
    else c :: splice body cs
termination_by cs.length
decreasing_by
  all_goals simp only [List.length_cons, List.length_drop]; omega

/-- Put `body` in the place of every marker of a template. -/
def fill (template body : String) : String :=
  String.ofList (splice body.toList template.toList)

/-- Whether the marker stands somewhere in a text. -/
def occurs : List Char → Bool
  | [] => false
  | c :: cs => marker.toList.isPrefixOf (c :: cs) || occurs cs

/-- Whether a text has the marker somewhere in it. -/
def hasMarker (text : String) : Bool := occurs text.toList

end Template

/-- The C file of a program: the template with the body in it. -/
def Module.toC (m : Module) (template : String) : String := Template.fill template m.cBody

end SlotLang
