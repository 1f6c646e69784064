import Mathlib.Logic.Function.Iterate
import Mathlib.Logic.Relation
import SlotLang.Proofs.Progress

/-!
# Reading with a cursor

A list of tokens can be read in place: a `Cursor` keeps the whole list and a position in it. Beyond
the end it shows the last token, and it never moves past the end. `Cursor.feed` is what a reader can
still come to see from a position, and it is a simulation:

* `feed_start` says that a cursor at the start shows what `Feed.ofTokens` does;
* `peek_feed` and `second_feed` that cursor and feed show the same next two tokens;
* `feed_advance` is the step, and `feed_iterate_advance` the run: moving on does the same to both.

An end mark hides what stands behind it from a feed but not from a cursor, so the last three ask
that the token to be passed, or looked past, is none. Readers keep to that. `exists_feed_eq` follows
one statement, and `exists_feed_of_turns` finds every turn of a reading at a position that is reached
without passing an end mark.
-/

namespace SlotLang

/-- A position in a list of tokens. -/
structure Cursor where
  /-- All tokens. -/
  tokens : List Token
  /-- The number of tokens passed. -/
  position : Nat
deriving DecidableEq, Repr

namespace Cursor

/-- The token `ahead` places behind the next one. Beyond the end that is the last token, and an end
mark if there is no token at all. -/
def peekAt (c : Cursor) (ahead : Nat) : Token :=
  (c.tokens[c.position + ahead]?.or c.tokens.getLast?).getD .nowhere

/-- The next token. -/
def peek (c : Cursor) : Token := c.peekAt 0

/-- Move on by a token, unless all have been passed. -/
def advance (c : Cursor) : Cursor :=
  if c.position < c.tokens.length then { c with position := c.position + 1 } else c

/-- Everything a reader can still see. -/
def feed (c : Cursor) : Feed where
  unread := (c.tokens.drop c.position).takeWhile (·.kind ≠ .eof)
  finish := (((c.tokens.drop c.position).find? (·.kind = .eof)).or c.tokens.getLast?).getD .nowhere

theorem feed_start (tokens : List Token) : feed ⟨tokens, 0⟩ = .ofTokens tokens := rfl

variable {c : Cursor}

/-- A cursor stands before a token, or at the end, where it stays. -/
theorem cases_position (c : Cursor) :
    (∃ t rest, c.tokens.drop c.position = t :: rest ∧ c.peek = t ∧
      c.advance = ⟨c.tokens, c.position + 1⟩ ∧ c.tokens.drop (c.position + 1) = rest) ∨
    c.tokens.drop c.position = [] ∧ c.peek = c.tokens.getLast?.getD .nowhere ∧ c.advance = c := by
  by_cases hlt : c.position < c.tokens.length
  · left
    refine ⟨c.tokens[c.position], _, List.drop_eq_getElem_cons hlt, ?_, if_pos hlt, rfl⟩
    rw [peek, peekAt, Nat.add_zero, List.getElem?_eq_getElem hlt]
    rfl
  · right
    have hle := Nat.le_of_not_lt hlt
    refine ⟨List.drop_eq_nil_of_le hle, ?_, if_neg hlt⟩
    rw [peek, peekAt, Nat.add_zero, List.getElem?_eq_none hle]
    rfl

/-! ### The simulation -/

/-- **Cursor and feed show the same token.** -/
theorem peek_feed (c : Cursor) : c.feed.peek = c.peek := by
  rcases c.cases_position with ⟨t, rest, hdrop, hpeek, -, -⟩ | ⟨hdrop, hpeek, -⟩
  · rw [hpeek, Feed.peek, feed, hdrop]
    by_cases ht : t.kind = .eof <;> simp [ht]
  · rw [hpeek, Feed.peek, feed, hdrop]
    rfl

/-- **Moving past a token that is no end mark does the same to both.** -/
theorem feed_advance (h : c.peek.kind ≠ .eof) : c.advance.feed = c.feed.advance := by
  rcases c.cases_position with ⟨t, rest, hdrop, hpeek, hadvance, hrest⟩ | ⟨hdrop, -, hadvance⟩
  · rw [hpeek] at h
    simp only [hadvance, feed, Feed.advance, hdrop, hrest]
    simp [h]
  · simp only [hadvance, feed, Feed.advance, hdrop]
    rfl

theorem peek_advance (c : Cursor) : c.advance.peek = c.peekAt 1 := by
  by_cases hlt : c.position < c.tokens.length
  · rw [advance, if_pos hlt]
    rfl
  · have hle := Nat.le_of_not_lt hlt
    rw [advance, if_neg hlt, peek, peekAt, peekAt, Nat.add_zero, List.getElem?_eq_none hle,
      List.getElem?_eq_none (Nat.le_succ_of_le hle)]

/-- So both show the same token behind one that is no end mark. -/
theorem second_feed (h : c.peek.kind ≠ .eof) : c.feed.second = c.peekAt 1 := by
  rw [Feed.second, ← feed_advance h, peek_feed, peek_advance]

/-- **So it is for any number of moves.** -/
theorem feed_iterate_advance {n : Nat}
    (h : ∀ k < n, (advance^[k] c).peek.kind ≠ .eof) :
    (advance^[n] c).feed = Feed.advance^[n] c.feed := by
  induction n with
  | zero => rfl
  | succ n ih =>
    rw [Function.iterate_succ_apply', Function.iterate_succ_apply',
      feed_advance (h n (Nat.lt_succ_self n)), ih fun k hk ↦ h k (Nat.lt_succ_of_lt hk)]

/-! ### Readings -/

/-- What is left of a feed is before the cursor after as many moves as tokens were read, and no end
mark has been passed. -/
theorem feed_of_append {ts : List Token} {f : Feed} (h : c.feed = ⟨ts ++ f.unread, f.finish⟩) :
    f = (advance^[ts.length] c).feed ∧
      ∀ k < ts.length, (advance^[k] c).peek.kind ≠ .eof := by
  induction ts generalizing c with
  | nil => exact ⟨h.symm, fun k hk ↦ absurd hk (Nat.not_lt_zero k)⟩
  | cons t ts ih =>
    have hpeek : c.peek = t := by rw [← peek_feed, h]; rfl
    have hmark : t.kind ≠ .eof := by
      have hmem : t ∈ c.feed.unread := by rw [h]; exact List.mem_cons_self
      exact of_decide_eq_true (List.all_eq_true.1 List.all_takeWhile t hmem)
    have hfeed : c.advance.feed = ⟨ts ++ f.unread, f.finish⟩ := by
      rw [feed_advance (by rw [hpeek]; exact hmark), h]
      rfl
    obtain ⟨hleft, hmarks⟩ := ih hfeed
    refine ⟨by rw [List.length_cons, Function.iterate_succ_apply, ← hleft], ?_⟩
    rintro (- | k) hk
    · rw [Function.iterate_zero_apply, hpeek]
      exact hmark
    · rw [Function.iterate_succ_apply]
      exact hmarks k (Nat.lt_of_succ_lt_succ hk)

/-- **A statement that is read moves the cursor** past tokens none of which is an end mark. -/
theorem exists_feed_eq {capacity : Nat} {r r' : Registry} {s : Stmt} {f : Feed}
    (hunder : Underway capacity r c.feed) (h : c.feed.statement r = .ok (s, r', f)) :
    ∃ n, f = (advance^[n] c).feed ∧ ∀ k < n, (advance^[k] c).peek.kind ≠ .eof := by
  by_cases hlength : 0 < c.feed.length
  · obtain ⟨earlier, hchecked⟩ := hunder.checked
    obtain ⟨ts, hts, -⟩ := Feed.statement_spelled hchecked (hunder.closed hlength) h
    exact ⟨ts.length, feed_of_append hts⟩
  · -- the last token is a statement by itself, and the cursor stays behind it
    have hspent := Feed.eq_spent hlength
    rw [hspent] at h
    obtain ⟨-, e, -, -, -, rfl⟩ := Feed.statement_spent_iff.1 h
    exact ⟨0, hspent.symm, fun k hk ↦ absurd hk (Nat.not_lt_zero k)⟩

/-- From one turn of a reading to the next: a statement is accepted. -/
def Turn (x y : Registry × Feed) : Prop := ∃ s, x.2.statement x.1 = .ok (s, y.1, y.2)

/-- **So is every turn of a reading** at a position of the cursor that started it, with no end mark
passed. -/
theorem exists_feed_of_turns {capacity : Nat} {tokens : List Token} {x : Registry × Feed}
    (h : Relation.ReflTransGen Turn (.empty capacity, .ofTokens tokens) x) :
    Underway capacity x.1 x.2 ∧ ∃ n, x.2 = (advance^[n] ⟨tokens, 0⟩).feed ∧
      ∀ k < n, (advance^[k] ⟨tokens, 0⟩).peek.kind ≠ .eof := by
  induction h with
  | refl =>
    exact ⟨underway_ofTokens capacity tokens, 0, (feed_start tokens).symm,
      fun k hk ↦ absurd hk (Nat.not_lt_zero k)⟩
  | tail _ hturn ih =>
    obtain ⟨hunder, n, hfeed, hmarks⟩ := ih
    obtain ⟨s, hs⟩ := hturn
    refine ⟨(hunder.statement hs).1, ?_⟩
    rw [hfeed] at hunder hs
    obtain ⟨m, hnext, hpassed⟩ := exists_feed_eq hunder hs
    refine ⟨m + n, by rw [Function.iterate_add_apply, hnext], fun k hk ↦ ?_⟩
    by_cases hkn : k < n
    · exact hmarks k hkn
    · obtain ⟨j, rfl⟩ := Nat.exists_eq_add_of_le' (Nat.le_of_not_lt hkn)
      rw [Function.iterate_add_apply]
      exact hpassed j (Nat.lt_of_add_lt_add_right hk)

end Cursor

end SlotLang
