import SlotLang.CompileError
import SlotLang.Token

/-!
# Cutting a text into tokens

`tokenize` walks a text once, from the left. Blanks and comments separate tokens, a punctuation
mark is a token by itself, and a literal extends as far as its characters go. The first character
that fits nowhere is the error; otherwise the list closes with an end mark.

A comment runs from `#` to the end of its line. It moves the byte offset but not the column: only
the end mark can follow a comment on its line.
-/

namespace SlotLang

/-- Whether `c` belongs to a literal: an ASCII letter or digit, an underscore or a dash. -/
def isLiteralChar (c : Char) : Bool := c.isAlphanum || c = '_' || c = '-'

/-- Whether `c` belongs to a comment that has begun. -/
def isCommentChar (c : Char) : Bool := c != '\n'

/-- A place between two characters of a text. -/
structure Place where
  /-- The line, from 1. -/
  line : Nat
  /-- The column, from 1. -/
  column : Nat
  /-- The number of bytes before the place. -/
  offset : Nat
deriving DecidableEq, Repr

namespace Place

/-- The beginning of a text. -/
def start : Place := ⟨1, 1, 0⟩

/-- The place behind a line feed. -/
def newline (p : Place) : Place := ⟨p.line + 1, 1, p.offset + 1⟩

/-- The place behind `cs`, which holds no line feed. -/
def past (p : Place) (cs : List Char) : Place :=
  ⟨p.line, p.column + cs.length, p.offset + byteLength cs⟩

/-- The place behind a comment `cs`. -/
def behindComment (p : Place) (cs : List Char) : Place :=
  ⟨p.line, p.column, p.offset + byteLength cs⟩

/-- The span of the characters `cs` that begin at `p`. -/
def span (p : Place) (cs : List Char) : Span := ⟨p.line, p.column, p.offset, byteLength cs⟩

end Place

theorem length_dropWhile_le (p : Char → Bool) (cs : List Char) :
    (cs.dropWhile p).length ≤ cs.length :=
  (List.dropWhile_sublist p).length_le

/-- The tokens of the characters `cs` that begin at place `p`. -/
def scan (p : Place) (cs : List Char) : Except CompileError (List Token) :=
  match cs with
  | [] => .ok [⟨.eof, "", p.span []⟩]
  | c :: cs =>
    if c = '\n' then
      scan p.newline cs
    else if Text.isBlank c then
      scan (p.past [c]) cs
    else if c = '#' then
      scan (p.behindComment (c :: cs.takeWhile isCommentChar)) (cs.dropWhile isCommentChar)
    else match TokenKind.ofPunctuation? c with
    | some kind =>
      match scan (p.past [c]) cs with
      | .error e => .error e
      | .ok tokens => .ok (⟨kind, String.singleton c, p.span [c]⟩ :: tokens)
    | none =>
      if isLiteralChar c then
        let word := c :: cs.takeWhile isLiteralChar
        match scan (p.past word) (cs.dropWhile isLiteralChar) with
        | .error e => .error e
        | .ok tokens => .ok (⟨.literal, String.ofList word, p.span word⟩ :: tokens)
      else
        .error (.unexpectedChar c (p.span [c]))
termination_by cs.length
decreasing_by
  all_goals simp only [List.length_cons]
  all_goals first
    | exact Nat.lt_succ_self _
    | exact Nat.lt_succ_of_le (length_dropWhile_le _ _)

/-- The tokens of a source text, the last of them its end mark. -/
def tokenize (source : String) : Except CompileError (List Token) := scan .start source.toList

end SlotLang
