import SlotLang.Proofs.Culprits
import SlotLang.Proofs.Layout
import SlotLang.Proofs.Outcomes
import SlotLang.Proofs.Relexing

/-!
# Programs one behind the other

Two texts with a line feed between them are one text, and if the first of them compiles, its program
is the beginning of what the whole compiles to. Statements have nothing between them, so this has to
be looked at wherever the first text can end.

* **The scanner at the seam.** The line feed ends whatever is underway there: a literal, a comment
  or nothing. So the tokens of the first text stay what they are, with their places, and the scanner
  begins anew behind the line feed (`scan_append_newline`).
* **The reader at the seam.** The reader looks ahead, and a colon or a parenthesis behind a name
  would make something else of it. But the second text begins with a literal, or has no token, so
  the first statement that the reader does not know from the first text begins where the second text
  does (`readStatements_append`).
* **The run.** Output is only ever added to (`exists_text_runInstrs`).
-/

namespace SlotLang

/-! ### The scanner at the seam -/

section LineFeed

variable {q : Char → Bool}

/-- Characters are taken up to the line feed at most, whatever stands behind it. -/
theorem takeWhile_append_newline (hq : q '\n' = false) (cs ds : List Char) :
    (cs ++ '\n' :: ds).takeWhile q = cs.takeWhile q := by
  induction cs with
  | nil => simp [hq]
  | cons c cs ih => by_cases hc : q c = true <;> simp [hc, ih]

theorem dropWhile_append_newline (hq : q '\n' = false) (cs ds : List Char) :
    (cs ++ '\n' :: ds).dropWhile q = cs.dropWhile q ++ '\n' :: ds := by
  induction cs with
  | nil => simp [hq]
  | cons c cs ih => by_cases hc : q c = true <;> simp [hc, ih]

end LineFeed

/-- **A line feed parts a text.** The tokens before it are those of the text before it, the end mark
left out, and behind it the scanner begins anew. -/
theorem scan_append_newline {p : Place} {cs : List Char} {tokens : List Token}
    (h : scan p cs = .ok tokens) :
    ∃ words last place, tokens = words ++ [last] ∧ place.offset = last.span.offset + 1 ∧
      ∀ ds, scan p (cs ++ '\n' :: ds) = (scan place ds).map (words ++ ·) := by
  fun_induction scan p cs generalizing tokens with
  | case1 p =>
    -- the end mark of the first text stood where the line feed stands now
    obtain rfl := Except.ok.inj h
    refine ⟨[], _, p.newline, rfl, rfl, fun ds ↦ ?_⟩
    rw [List.nil_append, scan, if_pos rfl]
    cases scan p.newline ds <;> rfl
  | case2 p cs ih =>
    obtain ⟨words, last, place, rfl, hplace, hscan⟩ := ih h
    refine ⟨words, last, place, rfl, hplace, fun ds ↦ ?_⟩
    rw [List.cons_append, scan, if_pos rfl, hscan]
  | case3 p c cs hline hblank ih =>
    obtain ⟨words, last, place, rfl, hplace, hscan⟩ := ih h
    refine ⟨words, last, place, rfl, hplace, fun ds ↦ ?_⟩
    rw [List.cons_append, scan, if_neg hline, if_pos hblank, hscan]
  | case4 p cs hline hblank ih =>
    obtain ⟨words, last, place, rfl, hplace, hscan⟩ := ih h
    refine ⟨words, last, place, rfl, hplace, fun ds ↦ ?_⟩
    -- a comment that ran to the end of the first text now runs to the line feed
    rw [List.cons_append, scan, if_neg hline, if_neg hblank, if_pos rfl,
      takeWhile_append_newline rfl, dropWhile_append_newline rfl, hscan]
  | case5 => cases h
  | case6 p c cs hline hblank hhash kind hkind tokens' htokens ih =>
    obtain rfl := Except.ok.inj h
    obtain ⟨words, last, place, rfl, hplace, hscan⟩ := ih htokens
    refine ⟨_ :: words, last, place, rfl, hplace, fun ds ↦ ?_⟩
    rw [List.cons_append, scan, if_neg hline, if_neg hblank, if_neg hhash, hkind]
    simp only [hscan]
    cases scan place ds <;> rfl
  | case7 => cases h
  | case8 p c cs hline hblank hhash hkind hliteral word tokens' htokens =>
    rename_i ih
    obtain rfl := Except.ok.inj h
    obtain ⟨words, last, place, rfl, hplace, hscan⟩ := ih htokens
    refine ⟨_ :: words, last, place, rfl, hplace, fun ds ↦ ?_⟩
    rw [List.cons_append, scan, if_neg hline, if_neg hblank, if_neg hhash, hkind]
    simp only [hliteral, takeWhile_append_newline (q := isLiteralChar) rfl,
      dropWhile_append_newline (q := isLiteralChar) rfl, if_true]
    rw [hscan]
    cases scan place ds <;> rfl
  | case9 => cases h

/-- The words of a text do not depend on the place it begins at. -/
theorem word_scan {p : Place} {cs : List Char} {tokens : List Token}
    (h : scan p cs = .ok tokens) (p' : Place) :
    ∃ tokens', scan p' cs = .ok tokens' ∧ tokens'.map Token.word = tokens.map Token.word := by
  fun_induction scan p cs generalizing tokens p' with
  | case1 p =>
    obtain rfl := Except.ok.inj h
    exact ⟨[⟨.eof, "", p'.span []⟩], by rw [scan], rfl⟩
  | case2 p cs ih =>
    obtain ⟨tokens', hscan, hwords⟩ := ih h p'.newline
    exact ⟨tokens', by rw [scan, if_pos rfl, hscan], hwords⟩
  | case3 p c cs hline hblank ih =>
    obtain ⟨tokens', hscan, hwords⟩ := ih h (p'.past [c])
    exact ⟨tokens', by rw [scan, if_neg hline, if_pos hblank, hscan], hwords⟩
  | case4 p cs hline hblank ih =>
    obtain ⟨tokens', hscan, hwords⟩ :=
      ih h (p'.behindComment ('#' :: cs.takeWhile isCommentChar))
    exact ⟨tokens', by rw [scan, if_neg hline, if_neg hblank, if_pos rfl, hscan], hwords⟩
  | case5 => cases h
  | case6 p c cs hline hblank hhash kind hkind tokens htokens ih =>
    obtain rfl := Except.ok.inj h
    obtain ⟨tokens', hscan, hwords⟩ := ih htokens (p'.past [c])
    refine ⟨⟨kind, String.singleton c, p'.span [c]⟩ :: tokens', ?_, ?_⟩
    · rw [scan, if_neg hline, if_neg hblank, if_neg hhash, hkind]
      simp only [hscan]
    · exact congrArg ((kind, String.singleton c) :: ·) hwords
  | case7 => cases h
  | case8 p c cs hline hblank hhash hkind hliteral word tokens htokens =>
    rename_i ih
    obtain rfl := Except.ok.inj h
    obtain ⟨tokens', hscan, hwords⟩ := ih htokens (p'.past word)
    refine ⟨⟨.literal, String.ofList word, p'.span word⟩ :: tokens', ?_, ?_⟩
    · simp only [word] at hscan ⊢
      rw [scan, if_neg hline, if_neg hblank, if_neg hhash, hkind]
      simp only [hliteral, hscan, if_true]
    · exact congrArg ((TokenKind.literal, String.ofList word) :: ·) hwords
  | case9 => cases h

/-- The tokens of two texts with a line feed between them: those of the first without its end mark,
and behind them the words of the second, further on in the text. -/
theorem tokenize_append_newline {source source' : String} {words tokens : List Token} {last : Token}
    (h : tokenize source = .ok (words ++ [last]))
    (h' : tokenize (source ++ "\n" ++ source') = .ok tokens) :
    ∃ (f : Feed) (tokens' : List Token), tokens = words ++ f.tokens ∧ f.finish.kind = .eof ∧
      (∀ t ∈ f.unread, t.kind ≠ .eof) ∧ (∀ t ∈ f.tokens, source.utf8ByteSize < t.span.offset) ∧
      tokenize source' = .ok tokens' ∧ tokens'.map Token.word = f.tokens.map Token.word := by
  obtain ⟨words', last', place, heq, hplace, hscan⟩ := scan_append_newline h
  obtain ⟨rfl, rfl⟩ := List.append_singleton_inj.1 heq
  obtain ⟨words', last', heq, -, hoffset, -⟩ := (lossless_of_tokenize h).ends
  obtain ⟨rfl, rfl⟩ := List.append_singleton_inj.1 heq
  have hlist : (source ++ "\n" ++ source').toList = source.toList ++ '\n' :: source'.toList := by
    simp
  rw [tokenize, hlist, hscan] at h'
  cases hrest : scan place source'.toList with
  | error e =>
    rw [hrest] at h'
    cases h'
  | ok rest =>
    rw [hrest] at h'
    obtain rfl := Except.ok.inj h'
    obtain ⟨ps, hcut, -, rfl⟩ := cutsInto_of_scan hrest
    obtain ⟨unread, line, column, hps, hunread⟩ := hcut.finish_last
    obtain ⟨tokens', htokens', hwords⟩ := word_scan hrest .start
    have hle := hcut.le_offset
    rw [hps] at hwords hle ⊢
    refine ⟨⟨unread, _⟩, tokens', rfl, rfl, fun t ht ↦ (hunread t ht).1.kind_ne_eof, ?_, htokens',
      hwords⟩
    intro t ht
    have := hle t ht
    omega

/-! ### The reader at the seam -/

/-- If the text can be cut into tokens, the first of them is a literal or the end mark. -/
def BeginsStatement (source : String) : Prop :=
  ∀ t ∈ (tokenize source).toOption.bind List.head?, t.kind = .literal ∨ t.kind = .eof

instance (source : String) : Decidable (BeginsStatement source) :=
  inferInstanceAs (Decidable (∀ t ∈ (tokenize source).toOption.bind List.head?, _))

/-- **The first program is read and then the second text**, from the declarations of the first on,
whose tokens all stand behind the line feed. -/
theorem compileFor_append_newline {source source' : String} {capacity : Nat} {m : Module}
    {tokens : List Token} (hm : compileFor source capacity = .ok m)
    (hbegin : BeginsStatement source')
    (htokens : tokenize (source ++ "\n" ++ source') = .ok tokens) :
    ∃ (r : Registry) (f : Feed), (∀ t ∈ f.tokens, source.utf8ByteSize < t.span.offset) ∧
      compileFor (source ++ "\n" ++ source') capacity =
        Reading.module ⟨m.statements ++ (readStatements r f).statements,
          (readStatements r f).registry, (readStatements r f).fault⟩ := by
  obtain ⟨cut, last, hfirst, hlast, hall⟩ := spelledAll_of_compileFor hm
  obtain ⟨f, tokens', rfl, hfinish, hunread, hoffset, htokens', hwords⟩ :=
    tokenize_append_newline hfirst htokens
  obtain ⟨hcount, hfits⟩ := slotCount_of_compileFor hm
  -- the first token behind the seam is the first of the second text, at another place
  have hnext : f.peek.kind = .literal ∨ f.peek.kind = .eof := by
    obtain ⟨behind, hbehind⟩ := f.exists_tokens
    rw [hbehind] at hwords
    obtain ⟨t, behind', rfl, hword, -⟩ := List.map_eq_cons_iff.1 hwords
    rw [← show t.kind = f.peek.kind from congrArg Prod.fst hword]
    exact hbegin t (by rw [htokens']; rfl)
  obtain ⟨r, -, hread⟩ := readStatements_append f.unread (.nil _) hnext hall (hcount ▸ hfits)
  refine ⟨r, f, hoffset, ?_⟩
  have hmarks : ∀ t ∈ cut.flatten ++ f.unread, t.kind ≠ .eof :=
    List.forall_mem_append.2 ⟨hall.kind_ne_eof, hunread⟩
  rw [compileFor, compilation, htokens]
  simp only
  rw [Feed.tokens, ← List.append_assoc, Feed.ofTokens_append hmarks hfinish, hread]

/-! ### The run -/

section Output

variable (a : Allocator) (w : Writer)

/-- Output is only added to. -/
theorem exists_text_runInstrs (is : List Instr) (t : Table) (out : Output) :
    ∃ more, (runInstrs a w is t out).output.text = out.text ++ more := by
  obtain ⟨done, t', lines, -, -, ⟨-, hends⟩ | ⟨i, rest, more, e, -, -, -, -, hfails⟩⟩ :=
    runInstrs_cases a w is t out
  · exact ⟨String.join lines, by rw [hends.output, Output.add]⟩
  · exact ⟨String.join (lines ++ more), by rw [hfails.output, Output.add]⟩

/-- More instructions only add to the output. -/
theorem exists_text_runInstrs_append (is js : List Instr) (t : Table) (out : Output) :
    ∃ more, (runInstrs a w (is ++ js) t out).output.text =
      (runInstrs a w is t out).output.text ++ more := by
  rw [runInstrs_append, Ran.andThen]
  split
  · exact exists_text_runInstrs a w js _ _
  · exact ⟨"", String.append_empty.symm⟩

end Output

/-! ### Two texts -/

/-- **Programs compose by concatenation.** Let a text compile, and put a second text behind it, on a
new line, that begins with a literal or has no token.

If the whole compiles, its program begins with the first one, statement by statement, with the same
slots and places. It has as many slots more as it has declarations more, and its instructions begin
with those of the first. Run on any table and with any writer, it prints all that the first prints,
and then possibly more.

If the whole can be cut into tokens but does not compile, the error is not in the first text, nor in
the line feed behind it. -/
theorem programs_compose {source source' : String} {capacity : Nat} {m₁ : Module}
    (hm₁ : compileFor source capacity = .ok m₁) (hbegin : BeginsStatement source') :
    (∀ m, compileFor (source ++ "\n" ++ source') capacity = .ok m →
      ∃ rest, m.statements = m₁.statements ++ rest ∧
        m.slotCount = m₁.slotCount + (rest.filterMap Stmt.declared?).length ∧
        m₁.lower.instrs <+: m.lower.instrs ∧
        ∀ (a : Allocator) (w : Writer) (t : Table), ∃ more,
          (m.lower.execute a w t).output.text = (m₁.lower.execute a w t).output.text ++ more) ∧
      ∀ tokens e, tokenize (source ++ "\n" ++ source') = .ok tokens →
        compileFor (source ++ "\n" ++ source') capacity = .error e →
        source.utf8ByteSize < e.span.offset := by
  refine ⟨fun m hm ↦ ?_, fun tokens e htokens he ↦ ?_⟩
  · obtain ⟨cut, last, htokens, -⟩ := spelledAll_of_compileFor hm
    obtain ⟨r, f, -, hread⟩ := compileFor_append_newline hm₁ hbegin htokens
    obtain ⟨-, hmodule⟩ := Reading.module_eq_ok_iff.1 (hread.symm.trans hm)
    have hstatements : m.statements = m₁.statements ++ (readStatements r f).statements :=
      congrArg Module.statements hmodule
    have hinstrs : m.lower.instrs =
        m₁.lower.instrs ++ (readStatements r f).statements.flatMap Stmt.instrs := by
      rw [Module.lower, hstatements, List.flatMap_append]
      rfl
    refine ⟨_, hstatements, ?_, hinstrs ▸ List.prefix_append .., fun a w t ↦ ?_⟩
    · rw [(slotCount_of_compileFor hm).1, (slotCount_of_compileFor hm₁).1, hstatements,
        List.filterMap_append, List.length_append]
    · rw [Program.execute, hinstrs]
      exact exists_text_runInstrs_append a w _ _ t {}
  · obtain ⟨r, f, hoffset, hread⟩ := compileFor_append_newline hm₁ hbegin htokens
    have hfault := Reading.module_eq_error_iff.1 (hread.symm.trans he)
    obtain ⟨t, ht, hspan⟩ := List.mem_map.1 (span_mem_of_fault (r := r) (f := f) hfault)
    exact hspan ▸ hoffset t ht

namespace Seam

/-- A program that ends in a comment. -/
def source : String := "x: int = 1 # one"

/-- The program, checked. -/
def checked : Module where
  statements := [.declaration "x" ⟨0, .int⟩ (.int 1 ⟨1, 10, 9, 1⟩) ⟨1, 1, 0, 1⟩]
  slotCount := 1

/-- The program with a second declaration behind it. -/
def extended : Module where
  statements := [.declaration "x" ⟨0, .int⟩ (.int 1 ⟨1, 10, 9, 1⟩) ⟨1, 1, 0, 1⟩,
    .declaration "y" ⟨1, .int⟩ (.read "x" ⟨0, .int⟩ ⟨2, 10, 26, 1⟩) ⟨2, 1, 17, 1⟩]
  slotCount := 2

end Seam

/-- The comment ends at the line feed: what stands behind it is a second declaration, or an error in
the second text. -/
theorem comment_ends_at_seam :
    compileFor Seam.source 2 = .ok Seam.checked ∧ BeginsStatement "y: int = x" ∧
      BeginsStatement "y" ∧
      (compileFor (Seam.source ++ "\n" ++ "y: int = x") 2 = .ok Seam.extended ∧
        Seam.checked.lower.instrs <+: Seam.extended.lower.instrs) ∧
      ∃ tokens e, tokenize (Seam.source ++ "\n" ++ "y") = .ok tokens ∧
        compileFor (Seam.source ++ "\n" ++ "y") 2 = .error e ∧
        Seam.source.utf8ByteSize < e.span.offset := by
  have hchecked : compileFor Seam.source 2 = .ok Seam.checked := by decide +kernel
  have hbegin : BeginsStatement "y: int = x" := by decide +kernel
  have hbegin' : BeginsStatement "y" := by decide +kernel
  have hextended : compileFor (Seam.source ++ "\n" ++ "y: int = x") 2 = .ok Seam.extended := by
    decide +kernel
  have htokens : tokenize (Seam.source ++ "\n" ++ "y") = .ok
      [⟨.literal, "x", 1, 1, 0, 1⟩, ⟨.colon, ":", 1, 2, 1, 1⟩, ⟨.literal, "int", 1, 4, 3, 3⟩,
        ⟨.equals, "=", 1, 8, 7, 1⟩, ⟨.literal, "1", 1, 10, 9, 1⟩, ⟨.literal, "y", 2, 1, 17, 1⟩,
        ⟨.eof, "", 2, 2, 18, 0⟩] := by
    decide +kernel
  have herror : compileFor (Seam.source ++ "\n" ++ "y") 2 =
      .error (.undefinedVariable "y" ⟨2, 1, 17, 1⟩) := by
    decide +kernel
  obtain ⟨rest, -, -, hinstrs, -⟩ := (programs_compose hchecked hbegin).1 _ hextended
  exact ⟨hchecked, hbegin, hbegin', ⟨hextended, hinstrs⟩, _, _, htokens, herror,
    (programs_compose hchecked hbegin').2 _ _ htokens herror⟩

end SlotLang
