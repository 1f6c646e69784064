import SlotLang.Proofs.Lexemes

/-!
# Printed tokens are read back

Words can be written down with any gaps between them, as long as two literals do not touch.
Lexing returns the same words, whatever the gaps are, and each stands where the text before it ends.

The scanner is taken through such a text with any text behind it. `scan_gap` says that a gap only
moves the place: the bytes of the gap are counted, and the comment that has to be closed is closed
by the gap itself. `scan_word` says that a word is taken whole: a mark always, a literal if no
character that would belong to it follows, which is what `Printing.stop` finds behind every literal.
The text as a whole is then an induction over its pieces.
-/

namespace SlotLang

/-! ### Runs of characters -/

section Runs

variable {q : Char → Bool} {run rest : List Char}

theorem takeWhile_run (hrun : ∀ c ∈ run, q c = true) (hstop : ∀ c ∈ rest.head?, q c = false) :
    (run ++ rest).takeWhile q = run := by
  rw [List.takeWhile_append_of_pos hrun]
  cases rest with
  | nil => simp
  | cons c rest => simp [hstop c rfl]

theorem dropWhile_run (hrun : ∀ c ∈ run, q c = true) (hstop : ∀ c ∈ rest.head?, q c = false) :
    (run ++ rest).dropWhile q = rest := by
  rw [List.dropWhile_append_of_pos hrun]
  cases rest with
  | nil => rfl
  | cons c rest => simp [hstop c rfl]

end Runs

/-! ### The scanner on a gap -/

theorem scan_blank {c : Char} (hc : Text.isBlank c = true) (p : Place) (rest : List Char) :
    ∃ p' : Place, p'.offset = p.offset + c.utf8Size ∧ scan p (c :: rest) = scan p' rest := by
  by_cases hline : c = '\n'
  · subst hline
    exact ⟨p.newline, rfl, by rw [scan, if_pos rfl]⟩
  · exact ⟨p.past [c], rfl, by rw [scan, if_neg hline, if_pos hc]⟩

/-- A comment is passed over up to the line feed or the end of the text behind it. -/
theorem scan_comment {body rest : List Char} (hbody : '\n' ∉ body)
    (hstop : ∀ c ∈ rest.head?, c = '\n') (p : Place) :
    scan p ('#' :: body ++ rest) = scan (p.behindComment ('#' :: body)) rest := by
  have hrun : ∀ c ∈ body, isCommentChar c = true := by
    intro c hc
    rw [isCommentChar, bne_iff_ne]
    rintro rfl
    exact hbody hc
  have hend : ∀ c ∈ rest.head?, isCommentChar c = false := by
    intro c hc
    rw [hstop c hc]
    rfl
  rw [List.cons_append, scan, if_neg (by decide), if_neg (by decide), if_pos rfl,
    takeWhile_run hrun hend, dropWhile_run hrun hend]

/-- **A gap only moves the place.** Nothing follows a gap whose last comment is still open. -/
theorem scan_gap {final : Prop} {gap : List Char} (h : Gap final gap) (rest : List Char)
    (hrest : final → rest = []) (p : Place) :
    ∃ p' : Place, p'.offset = p.offset + byteLength gap ∧ scan p (gap ++ rest) = scan p' rest := by
  induction h generalizing p with
  | nil => exact ⟨p, rfl, rfl⟩
  | @blank c gap hc _ ih =>
    obtain ⟨p₁, hoffset₁, hscan₁⟩ := scan_blank hc p (gap ++ rest)
    obtain ⟨p₂, hoffset₂, hscan₂⟩ := ih p₁
    refine ⟨p₂, ?_, hscan₁.trans hscan₂⟩
    rw [hoffset₂, hoffset₁, byteLength_cons, Nat.add_assoc]
  | @comment body gap hbody _ hstop ih =>
    have hend : ∀ c ∈ (gap ++ rest).head?, c = '\n' := by
      intro c hc
      rcases hstop with hline | ⟨rfl, hfinal⟩
      · rw [List.head?_append, hline, Option.some_or, Option.mem_some] at hc
        exact hc.symm
      · rw [hrest hfinal] at hc
        cases hc
    obtain ⟨p', hoffset, hscan⟩ := ih (p.behindComment ('#' :: body))
    refine ⟨p', ?_, ?_⟩
    · rw [hoffset, byteLength_append, ← Nat.add_assoc]
      rfl
    · rw [List.append_assoc, scan_comment hbody hend, hscan]

/-! ### The scanner on a word -/

/-- The word characters lie between `-` and `z`, where there is no blank. -/
theorem IsWordChar.not_isBlank {c : Char} (h : IsWordChar c) : ¬ Text.isBlank c = true := by
  have hcode : '-'.toNat ≤ c.toNat ∧ c.toNat ≤ 'z'.toNat := by
    simp only [IsWordChar, Char.le_def, UInt32.le_iff_toNat_le] at h
    rcases h with h | h | h | rfl | rfl
    · exact ⟨Nat.le_trans (by decide) h.1, Nat.le_trans h.2 (by decide)⟩
    · exact ⟨Nat.le_trans (by decide) h.1, h.2⟩
    · exact ⟨Nat.le_trans (by decide) h.1, Nat.le_trans h.2 (by decide)⟩
    · decide
    · decide
  intro hblank
  obtain ⟨r, hr, hin⟩ := List.any_eq_true.1 hblank
  have hapart : ∀ r ∈ Text.blankRanges, r.2 < '-'.toNat ∨ 'z'.toNat < r.1 := by decide
  have hrange := hapart r hr
  simp only [Bool.and_eq_true, decide_eq_true_eq] at hin
  omega

/-- A mark is a mark only. -/
theorem not_isWordChar_of_punctuation {c : Char} {kind : TokenKind} (h : (c, kind) ∈ punctuation) :
    ¬ IsWordChar c ∧ ¬ Text.isBlank c = true ∧ c ≠ '#' := by
  have hall : ∀ mark ∈ punctuation,
      ¬ IsWordChar mark.1 ∧ ¬ Text.isBlank mark.1 = true ∧ mark.1 ≠ '#' := by decide
  exact hall (c, kind) h

theorem ofPunctuation?_eq_none {c : Char} (h : IsWordChar c) :
    TokenKind.ofPunctuation? c = none := by
  cases hkind : TokenKind.ofPunctuation? c with
  | none => rfl
  | some kind =>
    exact absurd h (not_isWordChar_of_punctuation (ofPunctuation?_eq_some_iff.1 hkind)).1

theorem scan_mark {c : Char} {kind : TokenKind} (h : (c, kind) ∈ punctuation) {p : Place}
    {rest : List Char} {tokens : List Token} (hrest : scan (p.past [c]) rest = .ok tokens) :
    scan p (c :: rest) = .ok (⟨kind, String.ofList [c], p.span [c]⟩ :: tokens) := by
  obtain ⟨-, hblank, hhash⟩ := not_isWordChar_of_punctuation h
  have hline : c ≠ '\n' := by
    rintro rfl
    exact hblank (by decide)
  rw [scan, if_neg hline, if_neg hblank, if_neg hhash, ofPunctuation?_eq_some_iff.2 h]
  simp only [hrest, String.singleton_eq_ofList]

/-- A literal goes on up to the first character that does not belong to it. -/
theorem scan_literal {c : Char} {word rest : List Char} (hword : ∀ d ∈ c :: word, IsWordChar d)
    (hstop : ∀ d ∈ rest.head?, ¬ IsWordChar d) {p : Place} {tokens : List Token}
    (hrest : scan (p.past (c :: word)) rest = .ok tokens) :
    scan p (c :: word ++ rest) =
      .ok (⟨.literal, String.ofList (c :: word), p.span (c :: word)⟩ :: tokens) := by
  have hc := hword c List.mem_cons_self
  have hline : c ≠ '\n' := by
    rintro rfl
    exact absurd hc (by decide)
  have hhash : c ≠ '#' := by
    rintro rfl
    exact absurd hc (by decide)
  have hrun : ∀ d ∈ word, isLiteralChar d = true := fun d hd ↦
    isLiteralChar_iff.2 (hword d (List.mem_cons_of_mem c hd))
  have hend : ∀ d ∈ rest.head?, isLiteralChar d = false := fun d hd ↦
    Bool.eq_false_iff.2 (mt isLiteralChar_iff.1 (hstop d hd))
  rw [List.cons_append, scan, if_neg hline, if_neg hc.not_isBlank, if_neg hhash,
    ofPunctuation?_eq_none hc]
  simp only [isLiteralChar_iff.2 hc, takeWhile_run hrun hend, dropWhile_run hrun hend, hrest,
    if_true]

/-- A literal stops before a character that is not its own. -/
theorem stop_cons {c : Char} (h : ¬ IsWordChar c) (rest : List Char) :
    ∀ d ∈ (c :: rest).head?, ¬ IsWordChar d := by
  rintro d ⟨⟩
  exact h

/-- **A word is taken whole**, unless it is a literal and its characters go on. -/
theorem scan_word {t : Token} (h : t.IsWord) {rest : List Char}
    (hstop : t.kind = .literal → ∀ c ∈ rest.head?, ¬ IsWordChar c) {p : Place}
    {tokens : List Token} (hrest : scan (p.past t.lexeme.toList) rest = .ok tokens) :
    scan p (t.lexeme.toList ++ rest) =
      .ok (⟨t.kind, t.lexeme, p.span t.lexeme.toList⟩ :: tokens) := by
  obtain ⟨kind, lexeme, span⟩ := t
  rw [← lexeme.ofList_toList]
  rcases h with ⟨c, hc, hlex⟩ | ⟨rfl, hne, hword⟩
  · simp only [hlex, String.toList_ofList] at hrest ⊢
    exact scan_mark hc hrest
  · obtain ⟨c, word, hlex⟩ := List.exists_cons_of_ne_nil hne
    simp only [hlex, String.toList_ofList] at hrest hword ⊢
    exact scan_literal hword (hstop rfl) hrest

/-! ### Printing -/

/-- A gap begins with a blank or with a comment. -/
theorem Gap.head {final : Prop} {gap : List Char} (h : Gap final gap) :
    ∀ c ∈ gap.head?, ¬ IsWordChar c := by
  intro c hc hword
  cases h with
  | nil => cases hc
  | blank hblank _ =>
    obtain rfl := Option.some.inj hc
    exact hword.not_isBlank hblank
  | comment _ _ _ =>
    obtain rfl := Option.some.inj hc
    exact absurd hword (by decide)

/-- Words written down one behind the other, each behind a gap, and a last gap. Two literals do not
touch. -/
structure Printing (pieces : List Piece) (last : List Char) : Prop where
  /-- What is written down are marks and literals. -/
  word : ∀ p ∈ pieces, p.token.IsWord
  /-- Every comment before a word is closed. -/
  gap : ∀ p ∈ pieces, Gap False p.gap
  /-- The last comment may run to the end of the text. -/
  last : Gap True last
  /-- There is a gap between two literals. -/
  apart : ∀ pre p q post, pieces = pre ++ p :: q :: post → p.token.kind = .literal →
    q.token.kind = .literal → q.gap ≠ []

namespace Printing

variable {p : Piece} {ps : List Piece} {last : List Char}

theorem tail (h : Printing (p :: ps) last) : Printing ps last where
  word := fun q hq ↦ h.word q (List.mem_cons_of_mem p hq)
  gap := fun q hq ↦ h.gap q (List.mem_cons_of_mem p hq)
  last := h.last
  apart := fun pre q r post hps ↦ h.apart (p :: pre) q r post (by rw [hps]; rfl)

/-- Behind a literal, no character follows that would belong to it. -/
theorem stop (h : Printing (p :: ps) last) (hp : p.token.kind = .literal) :
    ∀ c ∈ (textOf ps ++ last).head?, ¬ IsWordChar c := by
  cases ps with
  | nil => exact h.last.head
  | cons q ps =>
    intro c hc
    rw [textOf_cons, Piece.text, List.append_assoc, List.append_assoc, List.head?_append] at hc
    cases hgap : q.gap with
    | cons d gap =>
      rw [hgap, List.head?_cons, Option.some_or] at hc
      exact (h.gap q (by simp)).head c (hgap ▸ hc)
    | nil =>
      -- a literal would have a gap before it, so the next word is a mark
      rcases h.word q (by simp) with ⟨d, hd, hlex⟩ | ⟨hq, -, -⟩
      · rw [hgap, hlex] at hc
        obtain rfl : d = c := Option.some.inj hc
        exact (not_isWordChar_of_punctuation hd).1
      · exact absurd hgap (h.apart [] p q ps rfl hp hq)

end Printing

/-! ### Reading back -/

/-- The tokens are the words of the pieces, whose text begins at byte `n`. -/
structure ReadBack (n : Nat) (pieces : List Piece) (tokens : List Token) : Prop where
  /-- The kinds are the same. -/
  kinds : tokens.map Token.kind = pieces.map (·.token.kind)
  /-- The lexemes are the same. -/
  lexemes : tokens.map Token.lexeme = pieces.map (·.token.lexeme)
  /-- A token stands where the text before it ends. -/
  places : ∀ pre p post, pieces = pre ++ p :: post →
    tokens[pre.length]?.map (·.span.offset) = some (n + byteLength (textOf pre ++ p.gap))

theorem readBack_nil (n : Nat) : ReadBack n [] [] where
  kinds := rfl
  lexemes := rfl
  places := by simp

theorem ReadBack.cons {n : Nat} {p : Piece} {ps : List Piece} {tokens : List Token}
    (h : ReadBack (n + byteLength p.text) ps tokens) (span : Span)
    (hspan : span.offset = n + byteLength p.gap) :
    ReadBack n (p :: ps) (⟨p.token.kind, p.token.lexeme, span⟩ :: tokens) where
  kinds := congrArg (p.token.kind :: ·) h.kinds
  lexemes := congrArg (p.token.lexeme :: ·) h.lexemes
  places := by
    intro pre q post heq
    cases pre with
    | nil =>
      obtain ⟨rfl, rfl⟩ := List.cons.inj heq
      exact congrArg some hspan
    | cons p' pre =>
      obtain ⟨rfl, rfl⟩ := List.cons.inj heq
      rw [List.length_cons, List.getElem?_cons_succ, h.places pre q post rfl, textOf_cons,
        List.append_assoc, byteLength_append p.text, Nat.add_assoc]

/-- **The scanner reads a printed text back**, wherever the text begins. -/
theorem Printing.scan_eq {pieces : List Piece} {last : List Char} (h : Printing pieces last)
    (place : Place) :
    ∃ tokens line column, ReadBack place.offset pieces tokens ∧
      scan place (textOf pieces ++ last) = .ok (tokens ++
        [⟨.eof, "", line, column, place.offset + byteLength (textOf pieces ++ last), 0⟩]) := by
  induction pieces generalizing place with
  | nil =>
    obtain ⟨place', hoffset, hscan⟩ := scan_gap h.last [] (fun _ ↦ rfl) place
    refine ⟨[], place'.line, place'.column, readBack_nil _, ?_⟩
    rw [List.append_nil] at hscan
    rw [textOf, List.flatMap_nil, List.nil_append, hscan, ← hoffset, scan]
    rfl
  | cons p ps ih =>
    obtain ⟨place', hoffset, hscan⟩ := scan_gap (h.gap p List.mem_cons_self)
      (p.token.lexeme.toList ++ (textOf ps ++ last)) False.elim place
    obtain ⟨tokens, line, column, hback, hrest⟩ := ih h.tail (place'.past p.token.lexeme.toList)
    have hpast : (place'.past p.token.lexeme.toList).offset = place.offset + byteLength p.text := by
      rw [Piece.text, byteLength_append, ← Nat.add_assoc, ← hoffset]
      rfl
    rw [hpast] at hback hrest
    refine ⟨_, line, column, hback.cons (place'.span p.token.lexeme.toList) hoffset, ?_⟩
    rw [textOf_cons, Piece.text, List.append_assoc, List.append_assoc, hscan,
      scan_word (h.word p List.mem_cons_self) h.stop hrest, ← List.append_assoc p.gap,
      byteLength_append (p.gap ++ _), ← Nat.add_assoc]
    rfl

/-- **Lexing undoes printing.**

Whatever the gaps are, the tokens of the text are the words that were written down, in their order
and each where the text before it ends, and then one end mark. -/
theorem tokenize_printing {pieces : List Piece} {last : List Char} (h : Printing pieces last) :
    ∃ tokens line column, ReadBack 0 pieces tokens ∧
      tokenize (String.ofList (textOf pieces ++ last)) =
        .ok (tokens ++ [⟨.eof, "", line, column, byteLength (textOf pieces ++ last), 0⟩]) := by
  obtain ⟨tokens, line, column, hback, hscan⟩ := h.scan_eq .start
  refine ⟨tokens, line, column, hback, ?_⟩
  rw [tokenize, String.toList_ofList, hscan, Place.start, Nat.zero_add]

/-- Two literals with only a comment between them, a wide blank, a mark that touches its neighbours,
and a comment that is never closed. -/
theorem comment_parts_literals : ∃ pieces : List Piece,
    textOf pieces ++ "# )".toList = "x#é\n-1\u3000(y# )".toList ∧
    pieces.map (·.token.lexeme) = ["x", "-1", "(", "y"] ∧
    Printing pieces "# )".toList ∧
    ∃ tokens line column, ReadBack 0 pieces tokens ∧
      tokenize "x#é\n-1\u3000(y# )" = .ok (tokens ++ [⟨.eof, "", line, column, 15, 0⟩]) := by
  have hprinting : Printing
      [⟨[], .literal, "x", .nowhere⟩, ⟨"#é\n".toList, .literal, "-1", .nowhere⟩,
        ⟨"\u3000".toList, .parenOpen, "(", .nowhere⟩, ⟨[], .literal, "y", .nowhere⟩]
      "# )".toList := by
    have hlast : Gap True ('#' :: " )".toList ++ []) :=
      .comment (by decide) .nil (.inr ⟨rfl, trivial⟩)
    have hcomment : Gap False ('#' :: ['é'] ++ ['\n']) :=
      .comment (by decide) (.blank (by decide) .nil) (.inl rfl)
    refine ⟨?_, ?_, hlast, ?_⟩
    · simp only [List.forall_mem_cons]
      exact ⟨@isWord_literal 'x' [] _ (by decide), @isWord_literal '-' ['1'] _ (by decide),
        isWord_punctuation (c := '(') rfl, @isWord_literal 'y' [] _ (by decide), by simp⟩
    · simp only [List.forall_mem_cons]
      exact ⟨.nil, hcomment, .blank (by decide) .nil, .nil, by simp⟩
    · rintro (_ | ⟨_, _ | ⟨_, _ | ⟨_, _ | ⟨_, pre⟩⟩⟩⟩) p q post heq hp hq <;> simp at heq
      · simp [← heq.2.1]
      · simp [← heq.2.2.1] at hq
      · simp [← heq.2.2.1] at hp
  exact ⟨_, by decide +kernel, rfl, hprinting, tokenize_printing hprinting⟩

end SlotLang
