import SlotLang.Text.Decimal

/-!
# Places in a source text

A `Span` names a stretch of a source text twice: by line and column for the reader, and by byte
offset and byte length for the machine. `slice?` cuts the stretch out of a text; it answers only
when both ends fall between two characters.
-/

namespace SlotLang

/-- The number of bytes a list of characters takes in UTF-8. -/
def byteLength (cs : List Char) : Nat := cs.foldr (fun c n ↦ c.utf8Size + n) 0

/-- What is left of `cs` behind its first `n` bytes, unless they end inside a character. -/
def dropBytes? (n : Nat) (cs : List Char) : Option (List Char) :=
  match n, cs with
  | 0, cs => some cs
  | _ + 1, [] => none
  | n + 1, c :: cs => if c.utf8Size ≤ n + 1 then dropBytes? (n + 1 - c.utf8Size) cs else none

/-- The first `n` bytes of `cs`, unless they end inside a character. -/
def takeBytes? (n : Nat) (cs : List Char) : Option (List Char) :=
  match n, cs with
  | 0, _ => some []
  | _ + 1, [] => none
  | n + 1, c :: cs =>
    if c.utf8Size ≤ n + 1 then (takeBytes? (n + 1 - c.utf8Size) cs).map (c :: ·) else none

/-- A stretch of source text. -/
structure Span where
  /-- The line of the first character, from 1. -/
  line : Nat
  /-- The column of the first character, from 1, counted in characters. -/
  column : Nat
  /-- The number of bytes before the stretch. -/
  offset : Nat
  /-- The length of the stretch in bytes. -/
  length : Nat
deriving DecidableEq, Repr, Inhabited

namespace Span

/-- The span of a token that was not read from a text. -/
def nowhere : Span := ⟨0, 0, 0, 0⟩

/-- The place as messages give it: `line:column`. -/
def place (s : Span) : String := Decimal.ofNat s.line ++ ":" ++ Decimal.ofNat s.column

/-- The text a span covers, if both its ends fall between two characters of `source`. -/
def slice? (s : Span) (source : String) : Option String := do
  let behind ← dropBytes? s.offset source.toList
  let covered ← takeBytes? s.length behind
  return String.ofList covered

end Span

end SlotLang
