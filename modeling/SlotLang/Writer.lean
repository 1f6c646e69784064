/-!
# Writers

Where a program's output goes. A writer takes text piece by piece and accepts or refuses each piece
as a whole; it is given by its answers, the output so far by what it accepted. An empty piece is
not offered to it at all.

What answers by all that it was given before, or takes a piece in part, is a `Sink`. Writers are
enough to speak of those too (`writers_stand_for_sinks`).
-/

namespace SlotLang

/-- How a writer answers. -/
structure Writer where
  /-- Why the call after `calls` earlier ones is refused this piece, if it is. -/
  refusal (calls : Nat) (piece : String) : Option String
  /-- Why flushing after `calls` calls fails, if it does. -/
  flushRefusal (calls : Nat) : Option String

/-- What a writer has been given. -/
structure Output where
  /-- The text it accepted. -/
  text : String := ""
  /-- The number of times it was called. -/
  calls : Nat := 0
deriving DecidableEq, Repr, Inhabited

namespace Writer

/-- A buffer that grows as needed. -/
def buffer : Writer := ⟨fun _ _ ↦ none, fun _ ↦ none⟩

/-- A writer that accepts only the first `budget` pieces, and cannot be flushed once it has been
offered more. -/
def limited (budget : Nat) : Writer where
  refusal calls _ := if budget ≤ calls then some "deliberate write failure" else none
  flushRefusal calls := if budget < calls then some "deliberate flush failure" else none

/-- The writer for a budget; without one, a growing buffer. -/
def ofBudget : Option Nat → Writer
  | none => buffer
  | some budget => limited budget

/-- A standard output with no room left on its device. -/
def full : Writer := ⟨fun _ _ ↦ some "No space left on device (os error 28)", fun _ ↦ none⟩

/-- Offer a piece of text. -/
def write (w : Writer) (out : Output) (piece : String) : Except String Unit × Output :=
  if piece = "" then (.ok (), out)
  else
    match w.refusal out.calls piece with
    | none => (.ok (), ⟨out.text ++ piece, out.calls + 1⟩)
    | some message => (.error message, { out with calls := out.calls + 1 })

/-- Offer pieces of text up to the first that is refused. -/
def writeAll (w : Writer) (out : Output) : List String → Except String Unit × Output
  | [] => (.ok (), out)
  | piece :: pieces =>
    match w.write out piece with
    | (.ok (), out) => w.writeAll out pieces
    | (.error message, out) => (.error message, out)

/-- Why flushing fails, if it does. -/
def flush (w : Writer) (out : Output) : Option String := w.flushRefusal out.calls

end Writer

end SlotLang
