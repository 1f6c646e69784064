import SlotLang.Span
import SlotLang.Text.Quoted

/-!
# Why a source text is rejected

One constructor per cause, each with the place it is reported at. `message` words the cause,
`report` puts the place in front.
-/

namespace SlotLang

/-- The reason a source text does not compile. -/
inductive CompileError where
  /-- A character that belongs to no token. -/
  | unexpectedChar (char : Char) (span : Span)
  /-- A token where something else had to stand; `found` is its text, empty at the end. -/
  | unexpectedToken (found expected : String) (span : Span)
  /-- An argument list that runs into the end of the text; the span is that of its `(`. -/
  | unclosedParen (span : Span)
  /-- A literal that is neither a name nor a number. -/
  | invalidLiteral (lexeme : String) (span : Span)
  /-- A number outside the 32-bit range. -/
  | integerOutOfRange (lexeme : String) (span : Span)
  /-- A declaration with a type that does not exist. -/
  | unknownType (name : String) (span : Span)
  /-- A read of a name that no earlier statement declares. -/
  | undefinedVariable (name : String) (span : Span)
  /-- A call of a function that does not exist. -/
  | unknownFunction (name : String) (span : Span)
  /-- A call with the wrong number of arguments. -/
  | wrongArity (name : String) (expected found : Nat) (span : Span)
  /-- A call that yields nothing where a value is needed. -/
  | voidValue (name : String) (span : Span)
  /-- A declaration after every slot of the table has been given out. -/
  | tooManyVariables (capacity : Nat) (span : Span)
deriving DecidableEq, Repr

namespace CompileError

/-- The place the error is reported at. -/
def span : CompileError → Span
  | unexpectedChar _ s | unexpectedToken _ _ s | unclosedParen s | invalidLiteral _ s
  | integerOutOfRange _ s | unknownType _ s | undefinedVariable _ s | unknownFunction _ s
  | wrongArity _ _ _ s | voidValue _ s | tooManyVariables _ s => s

/-- The wording of the error without its place. -/
def message : CompileError → String
  | unexpectedChar c _ => "unexpected character " ++ Text.quoted c
  | unexpectedToken found expected _ =>
    if found = "" then "expected " ++ expected ++ ", found end of input"
    else "expected " ++ expected ++ ", found `" ++ found ++ "`"
  | unclosedParen _ => "parenthesis is never closed"
  | invalidLiteral lexeme _ => "invalid literal `" ++ lexeme ++ "`"
  | integerOutOfRange lexeme _ => "integer `" ++ lexeme ++ "` does not fit in an int"
  | unknownType name _ => "unknown type `" ++ name ++ "`"
  | undefinedVariable name _ => "undefined variable `" ++ name ++ "`"
  | unknownFunction name _ => "unknown function `" ++ name ++ "`"
  | wrongArity name expected found _ =>
    "`" ++ name ++ "` takes " ++ Decimal.ofNat expected ++ " argument(s), " ++
      Decimal.ofNat found ++ " given"
  | voidValue name _ => "`" ++ name ++ "` does not produce a value"
  | tooManyVariables capacity _ =>
    "too many variables: the runtime table holds " ++ Decimal.ofNat capacity

/-- The error as it is shown: `line:column: message`. -/
def report (e : CompileError) : String := e.span.place ++ ": " ++ e.message

end CompileError

end SlotLang
