import SlotLang.CompileError
import SlotLang.Token

/-!
# Tokens being read

A reader of tokens looks at the next one or two and moves on. What it has before it is a `Feed`:
the tokens up to the first end mark, and the token it sees when those are used up. That is the end
mark itself; a list that has none shows its last token again and again. A position in the list
shows the same tokens (`Cursor.feed`).
-/

namespace SlotLang

/-- The tokens a reader has before it. -/
structure Feed where
  /-- The tokens not read yet. -/
  unread : List Token
  /-- The token seen when no other is left. -/
  finish : Token
deriving DecidableEq, Repr

namespace Feed

/-- Everything a reader can see of a list of tokens. -/
def ofTokens (tokens : List Token) : Feed where
  unread := tokens.takeWhile (·.kind ≠ .eof)
  finish := ((tokens.find? (·.kind = .eof)).or tokens.getLast?).getD .nowhere

/-- The next token. -/
def peek (f : Feed) : Token := f.unread.headD f.finish

/-- What is left behind the next token. -/
def advance (f : Feed) : Feed := { f with unread := f.unread.tail }

/-- The token behind the next one. -/
def second (f : Feed) : Token := f.advance.peek

/-- The complaint that `expected` had to stand where the next token stands. -/
def unexpected (f : Feed) (expected : String) : CompileError :=
  .unexpectedToken f.peek.lexeme expected f.peek.span

/-- Take the next token, which has to be of the given kind. -/
def expect (f : Feed) (kind : TokenKind) (expected : String) : Except CompileError (Token × Feed) :=
  if f.peek.kind = kind then .ok (f.peek, f.advance) else .error (f.unexpected expected)

/-! ### How much is left -/

/-- The number of tokens not read yet. -/
abbrev length (f : Feed) : Nat := f.unread.length

@[simp]
theorem length_advance (f : Feed) : f.advance.length = f.length - 1 := by
  simp [length, advance]

/-- Two tokens of different kinds are not both the repeated last one, so one is there to read. -/
theorem length_pos_of_kind_ne {f : Feed} (h : f.second.kind ≠ f.peek.kind) : 0 < f.length := by
  rcases f with ⟨_ | ⟨t, ts⟩, finish⟩
  · exact absurd rfl h
  · simp [length]

theorem length_expect {f f' : Feed} {kind : TokenKind} {expected : String} {t : Token}
    (h : f.expect kind expected = .ok (t, f')) : f'.length = f.length - 1 := by
  unfold expect at h
  split at h
  · cases h
    exact length_advance f
  · cases h

end Feed

end SlotLang
