import SlotLang.Proofs.Grammar

/-!
# Whether reading ends

The reader takes turns: it stops at an end mark or at a fault, and reads a statement otherwise.
Each statement takes tokens away, as long as there are any. A list without an end mark shows its
last token again and again, so what happens at its end depends on what that token is.

* **One turn.** `Underway` holds at every turn, and `Feed.statement_spent_iff` says what a turn does
  when the tokens are used up: nothing but accept the last token as a statement, or refuse it.
* **All turns.** `readFrom?` gives the answer at once, if there is one. A turn stops with the answer
  or leads on to it (`Underway.turn`), so there is one exactly if the turns come to an end, and
  where there is none, every turn accepts one more statement.
* **When there is none.** The token lists on which reading never ends are described by the grammar
  alone (`Endless`): programs without an end mark whose last token is a literal.
-/

namespace SlotLang

/-! ### Taking turns -/

/-- One statement more at the beginning. -/
def Reading.cons (s : Stmt) (x : Reading) : Reading := { x with statements := s :: x.statements }

/-- What the reader has done after some turns. -/
structure Stage where
  /-- What it has read. -/
  reading : Reading
  /-- Whether it has stopped, at an end mark or at a fault. -/
  stopped : Bool

/-- The first `n` turns of the reader. -/
def readFor : Nat → Registry → Feed → Stage
  | 0, r, _ => ⟨⟨[], r, none⟩, false⟩
  | n + 1, r, f =>
    if f.peek.kind = .eof then ⟨⟨[], r, none⟩, true⟩
    else
      match f.statement r with
      | .error e => ⟨⟨[], r, some e⟩, true⟩
      | .ok (s, r', rest) => ⟨(readFor n r' rest).reading.cons s, (readFor n r' rest).stopped⟩

/-- What reading gives in the end. When the tokens are used up without an end mark, the last of them
is read as a statement again. -/
def readFrom? (r : Registry) (f : Feed) : Option Reading :=
  let reading := readStatements r f
  if reading.fault.isSome || f.finish.kind = .eof then some reading
  else
    match Feed.statement reading.registry ⟨[], f.finish⟩ with
    | .error e => some { reading with fault := some e }
    | .ok _ => none

theorem readTokens?_eq (capacity : Nat) (tokens : List Token) :
    readTokens? capacity tokens = readFrom? (.empty capacity) (.ofTokens tokens) := rfl

/-! ### One turn -/

namespace Feed

variable {r r' : Registry} {f f' : Feed} {s : Stmt}

theorem peek_kind_of_statement (h : f.statement r = .ok (s, r', f')) : f.peek.kind = .literal := by
  rw [statement] at h
  split at h
  · cases h
  · rename_i hkind
    exact Decidable.not_not.1 hkind

theorem peek_mem (h : 0 < f.length) : f.peek ∈ f.unread := by
  rcases f with ⟨- | ⟨t, ts⟩, finish⟩
  · cases h
  · exact List.mem_cons_self

theorem eq_spent (h : ¬ 0 < f.length) : f = ⟨[], f.finish⟩ := by
  rw [← List.length_eq_zero_iff.1 (Nat.eq_zero_of_not_pos h)]

/-- When the tokens are used up, a literal is seen behind a literal, so this is no declaration and
no call. -/
theorem statement_of_spent {finish : Token} (hkind : finish.kind = .literal) :
    statement r ⟨[], finish⟩ = (finish.atom r).map fun e ↦ (.expr e, r, ⟨[], finish⟩) := by
  have hpeek : peek ⟨[], finish⟩ = finish := rfl
  have hsecond : second ⟨[], finish⟩ = finish := rfl
  have hcall : atCall ⟨[], finish⟩ = false := by simp [atCall, hsecond, hkind]
  simp only [statement, expression, hpeek, hsecond, hkind, hcall]
  cases finish.atom r <;> rfl

/-- The only statement there can be then is the last token by itself, and reading it changes
nothing. -/
theorem statement_spent_iff {finish : Token} :
    statement r ⟨[], finish⟩ = .ok (s, r', f') ↔
      finish.kind = .literal ∧
        ∃ e, finish.atom r = .ok e ∧ s = .expr e ∧ r' = r ∧ f' = ⟨[], finish⟩ := by
  constructor
  · intro h
    have hkind : finish.kind = .literal := peek_kind_of_statement h
    rw [statement_of_spent hkind] at h
    cases hatom : finish.atom r with
    | error e =>
      rw [hatom] at h
      cases h
    | ok e =>
      rw [hatom] at h
      cases h
      exact ⟨hkind, e, rfl, rfl, rfl, rfl⟩
  · rintro ⟨hkind, e, hatom, rfl, rfl, rfl⟩
    rw [statement_of_spent hkind, hatom]
    rfl

end Feed

/-- Statements are read until the tokens are used up. -/
theorem readStatements_spent (r : Registry) (finish : Token) :
    readStatements r ⟨[], finish⟩ = ⟨[], r, none⟩ := by
  rw [readStatements]
  simp [Feed.length]

/-- Reading has no end if the tokens are used up without a fault and the last of them is a
statement by itself. -/
theorem readFrom?_eq_none_iff {r : Registry} {f : Feed} :
    readFrom? r f = none ↔ (readStatements r f).fault = none ∧
      ∃ x, Feed.statement (readStatements r f).registry ⟨[], f.finish⟩ = .ok x := by
  rw [readFrom?]
  split
  · rename_i hstop
    refine iff_of_false (by simp) ?_
    rintro ⟨hfault, ⟨s, r', f'⟩, hs⟩
    obtain ⟨hkind, -⟩ := Feed.statement_spent_iff.1 hs
    simp [hfault, hkind] at hstop
  · rename_i hstop
    simp only [Bool.or_eq_true, not_or, Option.not_isSome_iff_eq_none] at hstop
    split
    · rename_i hs
      simp [hs]
    · rename_i x hs
      simp [hs, hstop.1]

theorem readFrom?_spent {r : Registry} {finish : Token} {x : Stmt × Registry × Feed}
    (h : Feed.statement r ⟨[], finish⟩ = .ok x) : readFrom? r ⟨[], finish⟩ = none := by
  rw [readFrom?_eq_none_iff, readStatements_spent]
  exact ⟨rfl, x, h⟩

theorem readFrom?_of_error {r : Registry} {f : Feed} {e : CompileError}
    (heof : f.peek.kind ≠ .eof) (he : f.statement r = .error e) :
    readFrom? r f = some ⟨[], r, some e⟩ := by
  by_cases hlength : 0 < f.length
  · rw [readFrom?, readStatements_of_error hlength he]
    rfl
  · rw [Feed.eq_spent hlength] at heof he ⊢
    have hfinish : f.finish.kind ≠ .eof := heof
    rw [readFrom?, readStatements_spent]
    simp [hfinish, he]

/-- A turn the reader can come to: declarations are those of some statements, no end mark is among
the unread tokens, and what follows them is not taken for one more. -/
structure Underway (capacity : Nat) (r : Registry) (f : Feed) : Prop where
  /-- The declarations have been made by the statements before. -/
  checked : ∃ earlier, Stmt.CheckedAll (.empty capacity) earlier r
  /-- There are no end marks among the unread tokens. -/
  marks : ∀ t ∈ f.unread, t.kind ≠ .eof
  /-- The token behind them is an end mark or the last of them. -/
  closed : 0 < f.length → f.Closed

/-- A list without an end mark has its last token behind it. -/
theorem Feed.ofTokens_of_no_mark {tokens : List Token} (h : ∀ t ∈ tokens, t.kind ≠ .eof) :
    Feed.ofTokens tokens = ⟨tokens, tokens.getLast?.getD .nowhere⟩ := by
  have hunread : tokens.takeWhile (·.kind ≠ .eof) = tokens := by
    simpa using @List.takeWhile_append_of_pos _ _ tokens [] fun t ht ↦ decide_eq_true (h t ht)
  have hfind : tokens.find? (·.kind = .eof) = none := by simpa using h
  rw [Feed.ofTokens, hunread, hfind, Option.none_or]

/-- Behind the tokens stands an end mark, or the last of them if none is an end mark. -/
theorem Feed.ofTokens_cases (tokens : List Token) :
    (Feed.ofTokens tokens).finish.kind = .eof ∨
      (∀ t ∈ tokens, t.kind ≠ .eof) ∧
        ∃ last, tokens.getLast? = some last ∧ Feed.ofTokens tokens = ⟨tokens, last⟩ := by
  cases hfind : tokens.find? (·.kind = .eof) with
  | some finish =>
    have hmark := List.find?_some hfind
    rw [Feed.ofTokens, hfind]
    exact .inl (of_decide_eq_true hmark)
  | none =>
    have hmarks : ∀ t ∈ tokens, t.kind ≠ .eof := by simpa using hfind
    rw [Feed.ofTokens_of_no_mark hmarks]
    cases hlast : tokens.getLast? with
    | none => exact .inl rfl
    | some last => exact .inr ⟨hmarks, last, rfl, rfl⟩

theorem underway_ofTokens (capacity : Nat) (tokens : List Token) :
    Underway capacity (.empty capacity) (.ofTokens tokens) where
  checked := ⟨[], .nil _⟩
  marks := by
    intro t ht
    have hmark := List.all_eq_true.1 List.all_takeWhile t ht
    exact of_decide_eq_true hmark
  closed := by
    intro _
    rcases Feed.ofTokens_cases tokens with hmark | ⟨-, last, hlast, heq⟩
    · exact .mark hmark
    · rw [heq]
      exact .last hlast

namespace Underway

variable {capacity : Nat} {r r' : Registry} {f f' : Feed} {s : Stmt} {x : Reading}

/-- **Every turn leads to a turn**, with the same token at the end. -/
theorem statement (h : Underway capacity r f) (hs : f.statement r = .ok (s, r', f')) :
    Underway capacity r' f' ∧ f'.finish = f.finish := by
  by_cases hlength : 0 < f.length
  · obtain ⟨earlier, hr⟩ := h.checked
    obtain ⟨ts, rfl, -⟩ := Feed.statement_spelled hr (h.closed hlength) hs
    exact ⟨⟨⟨_, hr.concat (Feed.statement_checked hs)⟩,
      fun t ht ↦ h.marks t (List.mem_append_right ts ht), (h.closed hlength).of_append⟩, rfl⟩
  · rw [Feed.eq_spent hlength] at hs h ⊢
    obtain ⟨-, e, -, -, rfl, rfl⟩ := Feed.statement_spent_iff.1 hs
    exact ⟨h, rfl⟩

theorem readFrom?_of_eof (h : Underway capacity r f) (heof : f.peek.kind = .eof) :
    readFrom? r f = some ⟨[], r, none⟩ := by
  have hlength : ¬ 0 < f.length := fun hlength ↦ h.marks _ (Feed.peek_mem hlength) heof
  rw [Feed.eq_spent hlength] at heof ⊢
  have hfinish : f.finish.kind = .eof := heof
  rw [readFrom?, readStatements_spent]
  simp [hfinish]

theorem readFrom?_of_ok (h : Underway capacity r f) (hs : f.statement r = .ok (s, r', f')) :
    readFrom? r f = (readFrom? r' f').map (Reading.cons s) := by
  by_cases hlength : 0 < f.length
  · rw [readFrom?, readStatements_of_ok hlength hs, readFrom?, (h.statement hs).2]
    dsimp only
    split
    · rfl
    · split <;> rfl
  · rw [Feed.eq_spent hlength] at hs ⊢
    have hnone := readFrom?_spent hs
    obtain ⟨-, e, -, -, rfl, rfl⟩ := Feed.statement_spent_iff.1 hs
    rw [hnone]
    rfl

/-- **What a turn can be.** The reader stops with the answer, or reads a statement and goes on to
the answer from there. -/
theorem turn (h : Underway capacity r f) :
    (∃ x, readFrom? r f = some x ∧ ∀ n, readFor (n + 1) r f = ⟨x, true⟩) ∨
      ∃ s r' f', f.statement r = .ok (s, r', f') ∧ Underway capacity r' f' ∧
        readFrom? r f = (readFrom? r' f').map (Reading.cons s) ∧
        ∀ n, readFor (n + 1) r f =
          ⟨(readFor n r' f').reading.cons s, (readFor n r' f').stopped⟩ := by
  by_cases heof : f.peek.kind = .eof
  · exact .inl ⟨_, h.readFrom?_of_eof heof, fun n ↦ by rw [readFor, if_pos heof]⟩
  cases hs : f.statement r with
  | error e =>
    exact .inl ⟨_, readFrom?_of_error heof hs, fun n ↦ by rw [readFor, if_neg heof, hs]⟩
  | ok y =>
    exact .inr ⟨_, _, _, rfl, (h.statement hs).1, h.readFrom?_of_ok hs,
      fun n ↦ by rw [readFor, if_neg heof, hs]⟩

/-! ### All turns -/

/-- What the reader has read when it stops is the answer. -/
theorem readFrom?_of_stopped (h : Underway capacity r f) {n : Nat}
    (hstop : (readFor n r f).stopped = true) : readFrom? r f = some (readFor n r f).reading := by
  induction n generalizing r f with
  | zero => cases hstop
  | succ n ih =>
    rcases h.turn with ⟨x, hx, hturn⟩ | ⟨s, r', f', -, h', hx, hturn⟩
    · rw [hx, hturn]
    · rw [hturn] at hstop ⊢
      rw [hx, ih h' hstop]
      rfl

/-- If there is an answer, the reader comes to it: every statement takes tokens away, or the tokens
are used up and there is no answer. -/
theorem exists_readFor_eq (h : Underway capacity r f) (hx : readFrom? r f = some x) :
    ∃ n, readFor n r f = ⟨x, true⟩ := by
  induction hn : f.length using Nat.strongRecOn generalizing r f x with
  | ind n ih =>
    rcases h.turn with ⟨y, hy, hturn⟩ | ⟨s, r', f', hs, h', hy, hturn⟩
    · obtain rfl := Option.some.inj (hy.symm.trans hx)
      exact ⟨1, hturn 0⟩
    · have hlength : 0 < f.length := by
        refine Decidable.byContradiction fun hspent ↦ ?_
        rw [Feed.eq_spent hspent] at hs hx
        rw [readFrom?_spent hs] at hx
        cases hx
      have hlt := Feed.length_lt_of_statement hlength hs
      obtain ⟨x', hx', rfl⟩ := Option.map_eq_some_iff.1 (hy.symm.trans hx)
      obtain ⟨m, hm⟩ := ih _ (hn ▸ hlt) h' hx' rfl
      exact ⟨m + 1, by rw [hturn, hm]⟩

/-- If there is no answer, every turn accepts one more statement. -/
theorem readFor_of_none (h : Underway capacity r f) (hnone : readFrom? r f = none) (n : Nat) :
    (readFor n r f).stopped = false ∧ (readFor n r f).reading.statements.length = n := by
  induction n generalizing r f with
  | zero => exact ⟨rfl, rfl⟩
  | succ n ih =>
    rcases h.turn with ⟨x, hx, -⟩ | ⟨s, r', f', -, h', hx, hturn⟩
    · cases hnone.symm.trans hx
    · obtain ⟨hstopped, hlength⟩ := ih h' (Option.map_eq_none_iff.1 (hx.symm.trans hnone))
      rw [hturn]
      exact ⟨hstopped, congrArg (· + 1) hlength⟩

end Underway

/-! ### How much is read -/

/-- Every statement that is read takes a token away. -/
theorem length_readStatements_le (r : Registry) (f : Feed) :
    (readStatements r f).statements.length ≤ f.length := by
  fun_induction readStatements r f with
  | case1 => exact Nat.zero_le _
  | case2 r f hlength s r' rest hs reading ih =>
    have hlt := Feed.length_lt_of_statement hlength hs
    exact Nat.lt_of_le_of_lt ih hlt
  | case3 => exact Nat.zero_le _

theorem length_readFrom?_le {r : Registry} {f : Feed} {x : Reading} (h : readFrom? r f = some x) :
    x.statements.length ≤ f.length := by
  have hle := length_readStatements_le r f
  rw [readFrom?] at h
  split at h
  · obtain rfl := Option.some.inj h
    exact hle
  · split at h
    · obtain rfl := Option.some.inj h
      exact hle
    · cases h

/-! ### Programs without an end mark -/

/-- What is an atom stays one behind further statements, if only as the read of a later variable. -/
theorem Token.Atom.append {earlier : List Stmt} {t : Token} {e : Expr} (h : t.Atom earlier e)
    (later : List Stmt) : ∃ e', t.Atom (earlier ++ later) e' := by
  cases h with
  | number hkind hname hv => exact ⟨_, .number hkind hname hv⟩
  | name hname hv =>
    cases hlater : Stmt.latest? t.lexeme later with
    | some v => exact ⟨_, .name hname (by rw [Stmt.latest?_append, hlater, Option.some_or])⟩
    | none => exact ⟨_, .name hname (by rw [Stmt.latest?_append, hlater, Option.none_or, hv])⟩

namespace Stmt

variable {earlier : List Stmt} {last : Token}

/-- A statement that ends with a literal ends with an atom. -/
theorem Spelled.atom_last {ts : List Token} {s : Stmt} (h : Spelled earlier ts s)
    (hlast : ts.getLast? = some last) (hkind : last.kind = .literal) :
    ∃ e, last.Atom earlier e := by
  cases h with
  | declaration _ _ _ _ _ hvalue =>
    obtain rfl := Option.some.inj hlast
    exact ⟨_, hvalue⟩
  | print _ _ _ _ hclose =>
    obtain rfl := Option.some.inj hlast
    cases hclose.symm.trans hkind
  | value hatom =>
    obtain rfl := Option.some.inj hlast
    exact ⟨_, hatom⟩

/-- And a program that ends with a literal ends with one that is an atom behind the program. -/
theorem SpelledAll.atom_last {cut : List (List Token)} {ss : List Stmt}
    (h : SpelledAll earlier cut ss) (hlast : cut.flatten.getLast? = some last)
    (hkind : last.kind = .literal) : ∃ e, last.Atom (earlier ++ ss) e := by
  induction h with
  | nil => cases hlast
  | @cons earlier ts cut s ss hs hss ih =>
    rw [List.flatten_cons, List.getLast?_append] at hlast
    cases hrest : cut.flatten.getLast? with
    | some t =>
      rw [hrest, Option.some_or] at hlast
      obtain ⟨e, he⟩ := ih (hrest.trans hlast)
      exact ⟨e, by simpa using he⟩
    | none =>
      rw [hrest, Option.none_or] at hlast
      obtain ⟨e, he⟩ := hs.atom_last hlast hkind
      exact he.append (s :: ss)

end Stmt

/-- The tokens are a program for a table of `capacity` slots, but there is no end mark behind it and
its last token is a literal. -/
structure Endless (capacity : Nat) (tokens : List Token) : Prop where
  /-- There is no end mark. -/
  marks : ∀ t ∈ tokens, t.kind ≠ .eof
  /-- The last token is a literal. -/
  last : ∃ t, tokens.getLast? = some t ∧ t.kind = .literal
  /-- The tokens can be cut into statements, for which there are enough slots. -/
  program : ∃ cut ss, cut.flatten = tokens ∧ Stmt.SpelledAll [] cut ss ∧
    (ss.filterMap Stmt.declared?).length ≤ capacity

theorem readTokens?_eq_none_iff {capacity : Nat} {tokens : List Token} :
    readTokens? capacity tokens = none ↔ Endless capacity tokens := by
  have hchecked := readStatements_checked (.empty capacity) (.ofTokens tokens)
  rw [readTokens?_eq, readFrom?_eq_none_iff]
  constructor
  · rintro ⟨hfault, ⟨s, r', f'⟩, hs⟩
    obtain ⟨hkind, -⟩ := Feed.statement_spent_iff.1 hs
    have hclosed := (underway_ofTokens capacity tokens).closed
    obtain ⟨cut, hcut, hall⟩ := spelledAll_of_closed (.nil _) hclosed hfault
    have hslots := hchecked.slotCount_le_capacity (Nat.zero_le _)
    rw [hchecked.slotCount_eq] at hslots
    rcases Feed.ofTokens_cases tokens with hmark | ⟨hmarks, last, hlast, heq⟩
    · cases hkind.symm.trans hmark
    · rw [heq] at hkind hcut
      exact ⟨hmarks, ⟨last, hlast, hkind⟩, cut, _, hcut, hall, hslots⟩
  · rintro ⟨hmarks, ⟨last, hlast, hkind⟩, cut, ss, rfl, hall, hslots⟩
    have hfeed : Feed.ofTokens cut.flatten = ⟨cut.flatten, last⟩ := by
      rw [Feed.ofTokens_of_no_mark hmarks, hlast, Option.getD_some]
    rw [hfeed] at hchecked ⊢
    obtain ⟨hstatements, hfault⟩ := readStatements_of_cut (.nil _) (.inl hkind) hall hslots
    obtain ⟨e, hatom⟩ := hall.atom_last hlast hkind
    rw [hstatements] at hchecked
    have hread := (Token.atom_eq_ok_iff hchecked.resolve?_eq_latest? hkind).2 hatom
    exact ⟨hfault, _, Feed.statement_spent_iff.2 ⟨hkind, e, hread, rfl, rfl, rfl⟩⟩

/-- A statement takes tokens away, or there are none and nothing changes. -/
theorem Feed.length_lt_or_eq {r r' : Registry} {f f' : Feed} {s : Stmt}
    (h : f.statement r = .ok (s, r', f')) :
    f'.length < f.length ∨ f.length = 0 ∧ f' = f ∧ r' = r := by
  by_cases hlength : 0 < f.length
  · exact .inl (length_lt_of_statement hlength h)
  · rw [eq_spent hlength] at h ⊢
    obtain ⟨-, e, -, -, rfl, rfl⟩ := statement_spent_iff.1 h
    exact .inr ⟨rfl, rfl, rfl⟩

/-- **Reading ends, except on a program without an end mark that ends with a literal.**

On every list of tokens, with or without end marks, the reader stops after finitely many turns
unless the list is `Endless`. What it has read then is the answer, and it has no more statements
than there are tokens, since each of them has taken tokens away. On an `Endless` list the last token
is accepted as a statement for ever. -/
theorem reading_ends_iff (capacity : Nat) (tokens : List Token) :
    ((∃ n, (readFor n (.empty capacity) (.ofTokens tokens)).stopped = true) ↔
      ¬ Endless capacity tokens) ∧
    (∀ x, readTokens? capacity tokens = some x ↔
      ∃ n, readFor n (.empty capacity) (.ofTokens tokens) = ⟨x, true⟩) ∧
    (∀ x, readTokens? capacity tokens = some x → x.statements.length ≤ tokens.length) ∧
    (Endless capacity tokens → ∀ n,
      (readFor n (.empty capacity) (.ofTokens tokens)).reading.statements.length = n) ∧
    ∀ (r r' : Registry) (f f' : Feed) (s : Stmt), f.statement r = .ok (s, r', f') →
      f'.length < f.length ∨ f.length = 0 ∧ f' = f ∧ r' = r := by
  have hunder := underway_ofTokens capacity tokens
  have hread : ∀ x, readTokens? capacity tokens = some x ↔
      ∃ n, readFor n (.empty capacity) (.ofTokens tokens) = ⟨x, true⟩ := by
    intro x
    constructor
    · exact hunder.exists_readFor_eq
    · rintro ⟨n, hn⟩
      rw [readTokens?_eq, hunder.readFrom?_of_stopped (congrArg Stage.stopped hn), hn]
  refine ⟨?_, hread, ?_, ?_, fun _ _ _ _ _ ↦ Feed.length_lt_or_eq⟩
  · rw [← readTokens?_eq_none_iff, ← ne_eq, Option.ne_none_iff_exists']
    constructor
    · rintro ⟨n, hn⟩
      exact ⟨_, hunder.readFrom?_of_stopped hn⟩
    · rintro ⟨x, hx⟩
      obtain ⟨n, hn⟩ := (hread x).1 hx
      exact ⟨n, congrArg Stage.stopped hn⟩
  · intro x hx
    have hle : (Feed.ofTokens tokens).length ≤ tokens.length :=
      (List.takeWhile_sublist _).length_le
    exact Nat.le_trans (length_readFrom?_le hx) hle
  · intro hendless n
    exact (hunder.readFor_of_none (readTokens?_eq_none_iff.2 hendless) n).2

/-- A call without an end mark behind it: the reader stops at its closing parenthesis, which is seen
once more and begins no statement. -/
theorem call_without_mark_stops :
    ¬ Endless 4 [⟨.literal, "print", .nowhere⟩, ⟨.parenOpen, "(", .nowhere⟩,
      ⟨.literal, "1", .nowhere⟩, ⟨.parenClose, ")", .nowhere⟩] ∧
    ∃ n, (readFor n (.empty 4) (.ofTokens [⟨.literal, "print", .nowhere⟩,
      ⟨.parenOpen, "(", .nowhere⟩, ⟨.literal, "1", .nowhere⟩,
      ⟨.parenClose, ")", .nowhere⟩])).stopped = true := by
  have hendless : ¬ Endless 4 [⟨.literal, "print", .nowhere⟩, ⟨.parenOpen, "(", .nowhere⟩,
      ⟨.literal, "1", .nowhere⟩, ⟨.parenClose, ")", .nowhere⟩] := by
    rintro ⟨-, ⟨t, ht, hkind⟩, -⟩
    obtain rfl := Option.some.inj ht
    cases hkind
  exact ⟨hendless, (reading_ends_iff 4 _).1.2 hendless⟩

/-- A number by itself: the reader accepts it again and again, and so more statements than there are
tokens. -/
theorem lone_number_never_ends :
    ¬ (∃ n, (readFor n (.empty 256) (.ofTokens [⟨.literal, "5", .nowhere⟩])).stopped = true) ∧
    ∃ n, 1 < (readFor n (.empty 256)
      (.ofTokens [⟨.literal, "5", .nowhere⟩])).reading.statements.length := by
  have hnone : readTokens? 256 [⟨.literal, "5", .nowhere⟩] = none := by decide +kernel
  have hturns := (underway_ofTokens 256 _).readFor_of_none hnone
  refine ⟨?_, 2, ?_⟩
  · rintro ⟨n, hn⟩
    cases hn.symm.trans (hturns n).1
  · rw [(hturns 2).2]
    decide

end SlotLang
