import SlotLang.Command
import SlotLang.Proofs.Culprits
import SlotLang.Proofs.Layout

/-!
# Line and column

A span names a place twice, by line and column and by bytes. Whether the two agree is decided by
what the scanner has counted on its way there.

* **What is counted.** `Place.Between` says what the scanner knows at a place: the lines and bytes
  of the text before it, and the characters of that text's last line *without its comment*. That
  a comment is not counted goes unnoticed as long as a line feed follows, since a new line begins at
  column 1 anyway. `Place.Between` is kept by every branch of the scanner.
* **Where it matters.** Only the end of the text can stand behind a comment without a line feed
  between, so every token but the end mark names one place, and an error does unless it is reported
  at the end of a text whose last line has a comment.
-/

namespace SlotLang

/-! ### Lines -/

/-- The characters behind the last line feed. -/
def lastLine (cs : List Char) : List Char := (cs.reverse.takeWhile (· ≠ '\n')).reverse

theorem lastLine_newline (cs : List Char) : lastLine (cs ++ ['\n']) = [] := by
  simp [lastLine]

theorem lastLine_append {cs word : List Char} (h : '\n' ∉ word) :
    lastLine (cs ++ word) = lastLine cs ++ word := by
  have hword : ∀ c ∈ word.reverse, decide (c ≠ '\n') = true := by
    intro c hc
    rw [decide_eq_true_eq]
    rintro rfl
    exact h (List.mem_reverse.1 hc)
  rw [lastLine, List.reverse_append, List.takeWhile_append_of_pos hword, List.reverse_append,
    List.reverse_reverse, lastLine]

theorem count_newline_append {cs word : List Char} (h : '\n' ∉ word) :
    (cs ++ word).count '\n' = cs.count '\n' := by
  rw [List.count_append, List.count_eq_zero_of_not_mem h, Nat.add_zero]

/-- What a line has before its comment. -/
def uncommented (line : List Char) : List Char := line.takeWhile (· ≠ '#')

theorem uncommented_append {line : List Char} (h : '#' ∉ line) (cs : List Char) :
    uncommented (line ++ cs) = line ++ uncommented cs := by
  refine List.takeWhile_append_of_pos fun c hc ↦ ?_
  rw [decide_eq_true_eq]
  rintro rfl
  exact h hc

theorem uncommented_comment (body : List Char) : uncommented ('#' :: body) = [] := by
  simp [uncommented]

theorem uncommented_of_not_mem {line : List Char} (h : '#' ∉ line) : uncommented line = line := by
  simpa [uncommented] using uncommented_append h []

theorem length_uncommented_lt {line : List Char} (h : '#' ∈ line) :
    (uncommented line).length < line.length := by
  obtain ⟨before, behind, rfl, hbefore⟩ := List.eq_append_cons_of_mem h
  rw [uncommented_append hbefore, uncommented_comment]
  simp

/-! ### Where the scanner stands -/

/-- The place is the one the scanner has counted up to behind `before`. -/
structure Place.Behind (p : Place) (before : List Char) : Prop where
  /-- Every line feed has been counted. -/
  line : p.line = 1 + before.count '\n'
  /-- The characters of the line have been counted, but those of its comment have not. -/
  column : p.column = 1 + (uncommented (lastLine before)).length
  /-- Every byte has been counted. -/
  offset : p.offset = byteLength before

/-- The scanner stands at `p` between `before` and `behind`. -/
structure Place.Between (p : Place) (before behind : List Char) : Prop extends
    Place.Behind p before where
  /-- If a comment has been passed over, the line ends here. -/
  closed : '#' ∈ lastLine before → ∀ c ∈ behind.head?, c = '\n'

namespace Place

variable {p : Place} {before behind word body : List Char} {c : Char}

theorem between_start (cs : List Char) : start.Between [] cs where
  line := rfl
  column := rfl
  offset := rfl
  closed := fun h ↦ absurd h (by decide)

namespace Between

/-- Nothing but a line feed follows a comment. -/
theorem outside (h : p.Between before (c :: behind)) (hc : c ≠ '\n') : '#' ∉ lastLine before :=
  fun hhash ↦ hc (h.closed hhash c rfl)

theorem newline (h : p.Between before ('\n' :: behind)) :
    p.newline.Between (before ++ ['\n']) behind where
  line := by simp [Place.newline, h.line, Nat.add_assoc]
  column := by simp [Place.newline, lastLine_newline, uncommented]
  offset := by
    rw [byteLength_append, ← h.offset]
    rfl
  closed := by simp [lastLine_newline]

/-- Characters that neither end the line nor begin a comment. -/
theorem past (h : p.Between before (c :: word ++ behind)) (hline : '\n' ∉ c :: word)
    (hhash : '#' ∉ c :: word) : (p.past (c :: word)).Between (before ++ c :: word) behind := by
  have houtside := h.outside fun hc ↦ hline (hc ▸ List.mem_cons_self)
  have hnone : '#' ∉ lastLine (before ++ c :: word) := by
    rw [lastLine_append hline, List.mem_append]
    exact fun hmem ↦ hmem.elim houtside hhash
  refine ⟨⟨?_, ?_, ?_⟩, fun hmem ↦ absurd hmem hnone⟩
  · rw [count_newline_append hline]
    exact h.line
  · rw [uncommented_of_not_mem hnone, lastLine_append hline, List.length_append, ← Nat.add_assoc,
      ← uncommented_of_not_mem houtside, ← h.column]
    rfl
  · rw [byteLength_append, ← h.offset]
    rfl

theorem pastChar (h : p.Between before (c :: behind)) (hline : c ≠ '\n') (hhash : c ≠ '#') :
    (p.past [c]).Between (before ++ [c]) behind := by
  refine past ?_ (by simpa using Ne.symm hline) (by simpa using Ne.symm hhash)
  exact h

theorem pastLiteral {cs : List Char} (h : p.Between before (c :: cs))
    (hc : isLiteralChar c = true) :
    (p.past (c :: cs.takeWhile isLiteralChar)).Between (before ++ c :: cs.takeWhile isLiteralChar)
      (cs.dropWhile isLiteralChar) := by
  have hword : ∀ d ∈ c :: cs.takeWhile isLiteralChar, IsWordChar d := fun _ ↦
    isWordChar_of_mem_literal hc
  refine past ?_ (fun hmem ↦ absurd (hword _ hmem) (by decide))
    fun hmem ↦ absurd (hword _ hmem) (by decide)
  rwa [List.cons_append, List.takeWhile_append_dropWhile]

theorem behindComment (h : p.Between before ('#' :: body ++ behind)) (hbody : '\n' ∉ body)
    (hstop : ∀ c ∈ behind.head?, c = '\n') :
    (p.behindComment ('#' :: body)).Between (before ++ '#' :: body) behind := by
  have houtside := h.outside (by decide)
  have hline : '\n' ∉ '#' :: body := by simpa using hbody
  refine ⟨⟨?_, ?_, ?_⟩, fun _ ↦ hstop⟩
  · rw [count_newline_append hline]
    exact h.line
  · rw [lastLine_append hline, uncommented_append houtside, uncommented_comment, List.append_nil,
      ← uncommented_of_not_mem houtside]
    exact h.column
  · rw [byteLength_append, ← h.offset]
    rfl

end Between

end Place

/-! ### Spans of a text -/

/-- The span is the one the scanner gives to `word` where it stands in `source`. Only the end of the
text can stand behind a comment. -/
def Span.Marks (s : Span) (source word : List Char) : Prop :=
  ∃ p : Place, ∃ before behind, source = before ++ word ++ behind ∧ p.Behind before ∧
    ('#' ∈ lastLine before → word ++ behind = []) ∧ s = p.span word

/-- Every span in what scanning gives is that of a stretch of `source`: of a token or of the
character that is refused. -/
def Located (source : List Char) : Except CompileError (List Token) → Prop
  | .ok tokens => ∀ t ∈ tokens, t.span.Marks source t.lexeme.toList
  | .error e => ∃ c, e.span.Marks source [c]

theorem Place.Behind.marks {p : Place} {before : List Char} (h : p.Behind before)
    (houtside : '#' ∉ lastLine before) (word behind : List Char) :
    (p.span word).Marks (before ++ word ++ behind) word :=
  ⟨p, before, behind, rfl, h, fun hhash ↦ absurd hhash houtside, rfl⟩

/-- One token more, which stands where the scanner does. -/
theorem Located.cons {p : Place} {before word cs : List Char} (h : p.Behind before)
    (houtside : '#' ∉ lastLine before) {tokens : List Token}
    (hrest : Located (before ++ word ++ cs) (.ok tokens)) (kind : TokenKind) :
    Located (before ++ word ++ cs) (.ok (⟨kind, String.ofList word, p.span word⟩ :: tokens)) := by
  refine List.forall_mem_cons.2 ⟨?_, hrest⟩
  rw [String.toList_ofList]
  exact h.marks houtside word cs

/-- **The scanner knows where it stands**, whatever it has passed over. -/
theorem located_scan {p : Place} {before cs : List Char} (h : p.Between before cs) :
    Located (before ++ cs) (scan p cs) := by
  fun_induction scan p cs generalizing before with
  | case1 p =>
    exact List.forall_mem_singleton.2 ⟨p, before, [], by simp, h.toBehind, fun _ ↦ rfl, rfl⟩
  | case2 p cs ih => simpa using ih h.newline
  | case3 p c cs hline hblank ih =>
    have hhash : c ≠ '#' := by
      rintro rfl
      exact absurd hblank (by decide)
    simpa using ih (h.pastChar hline hhash)
  | case4 p cs _ _ ih =>
    rw [← List.takeWhile_append_dropWhile (p := isCommentChar) (l := cs)] at h
    have hrest := ih (h.behindComment (newline_not_mem_takeWhile cs) fun _ ↦
      eq_newline_of_mem_dropWhile)
    simpa [List.takeWhile_append_dropWhile] using hrest
  | case5 p c cs hline _ hhash kind _ e he ih =>
    have hrest := ih (h.pastChar hline hhash)
    simpa [he] using hrest
  | case6 p c cs hline _ hhash kind _ tokens htokens ih =>
    have hrest := ih (h.pastChar hline hhash)
    rw [htokens] at hrest
    rw [String.singleton_eq_ofList]
    simpa using hrest.cons h.toBehind (h.outside hline) kind
  | case7 p c cs _ _ _ _ hliteral word e he =>
    rename_i ih
    have hrest := ih (h.pastLiteral hliteral)
    rw [he] at hrest
    simpa [word, List.takeWhile_append_dropWhile] using hrest
  | case8 p c cs hline _ _ _ hliteral word tokens htokens =>
    rename_i ih
    have hrest := ih (h.pastLiteral hliteral)
    rw [htokens] at hrest
    simpa [word, List.takeWhile_append_dropWhile] using
      hrest.cons h.toBehind (h.outside hline) .literal
  | case9 p c cs hline _ _ _ _ =>
    refine ⟨c, ?_⟩
    simpa [CompileError.span] using h.toBehind.marks (h.outside hline) [c] cs

/-- An error is reported where a token stands, or a character that is refused. -/
theorem marks_of_compileFor {source : String} {capacity : Nat} {e : CompileError}
    (h : compileFor source capacity = .error e) : ∃ word, e.span.Marks source.toList word := by
  have hscan : Located source.toList (tokenize source) := located_scan (Place.between_start _)
  rw [compileFor, compilation] at h
  cases htokens : tokenize source with
  | error e' =>
    rw [htokens] at h hscan
    obtain rfl := Except.error.inj h
    obtain ⟨c, hc⟩ := hscan
    exact ⟨[c], hc⟩
  | ok tokens =>
    rw [htokens] at h hscan
    obtain ⟨t, ht, hspan⟩ := List.mem_map.1 (span_mem_of_error (ne_nil_of_tokenize htokens) h)
    exact ⟨t.lexeme.toList, hspan ▸ hscan t ht⟩

/-! ### One place or two -/

/-- What a span says of the text before it, and when a comment is part of that. -/
theorem Span.Marks.place {s : Span} {source word : List Char} (h : s.Marks source word) :
    ∃ before behind, source = before ++ behind ∧ s.offset = byteLength before ∧
      s.line = 1 + before.count '\n' ∧
      s.column = 1 + (uncommented (lastLine before)).length ∧
      ('#' ∈ lastLine before ↔ s.offset = byteLength source ∧ '#' ∈ lastLine source) := by
  obtain ⟨p, before, behind, rfl, hp, hend, rfl⟩ := h
  have hoffset : (p.span word).offset = byteLength before := hp.offset
  refine ⟨before, word ++ behind, List.append_assoc .., hoffset, hp.line, hp.column,
    fun hhash ↦ ?_, fun ⟨hlast, hhash⟩ ↦ ?_⟩
  · rw [List.append_assoc, hend hhash, List.append_nil]
    exact ⟨hoffset, hhash⟩
  · rw [List.append_assoc] at hlast hhash
    have hnil : word ++ behind = [] := by
      refine Decidable.byContradiction fun hne ↦ ?_
      have hpos := byteLength_pos hne
      rw [hoffset, byteLength_append before] at hlast
      omega
    rwa [hnil, List.append_nil] at hhash

/-- Line and column name the place that the bytes name. -/
def Span.NamesOnePlace (s : Span) (source : String) : Prop :=
  ∃ before, takeBytes? s.offset source.toList = some before ∧
    s.line = 1 + before.count '\n' ∧ s.column = 1 + (lastLine before).length

/-- The span of a word names one place: a comment before the word is on another line. -/
theorem Span.Marks.namesOnePlace {s : Span} {source : String} {word : List Char}
    (h : s.Marks source.toList word) (hword : word ≠ []) : s.NamesOnePlace source := by
  obtain ⟨p, before, behind, hsource, hp, hend, rfl⟩ := h
  have houtside : '#' ∉ lastLine before := fun hhash ↦
    hword (List.append_eq_nil_iff.1 (hend hhash)).1
  refine ⟨before, ?_, hp.line, ?_⟩
  · rw [hsource, List.append_assoc, show (p.span word).offset = byteLength before from hp.offset,
      takeBytes?_append]
  · rw [← uncommented_of_not_mem houtside]
    exact hp.column

/-- **Tokens and strays name one place.** The line of a token other than the end mark, and of a
character that is refused, is one more than the line feeds before it, and its column one more than
the characters between the last of these, or the beginning of the text, and its place in bytes. What
else stands before it makes no difference: blanks of several bytes, carriage returns, other line
separators, or comments with any text. -/
theorem tokens_name_one_place (source : String) :
    (∀ tokens, tokenize source = .ok tokens →
        ∀ t ∈ tokens, t.kind ≠ .eof → t.span.NamesOnePlace source) ∧
      (∀ e, tokenize source = .error e → e.span.NamesOnePlace source) ∧
      ∀ capacity c span, compileFor source capacity = .error (.unexpectedChar c span) →
        span.NamesOnePlace source := by
  have hscan : Located source.toList (tokenize source) := located_scan (Place.between_start _)
  have herror : ∀ e, tokenize source = .error e → e.span.NamesOnePlace source := by
    intro e he
    rw [he] at hscan
    obtain ⟨c, hmarks⟩ := hscan
    exact hmarks.namesOnePlace (List.cons_ne_nil c [])
  refine ⟨fun tokens htokens t ht hkind ↦ ?_, herror, fun capacity c span h ↦ ?_⟩
  · rw [htokens] at hscan
    obtain ⟨words, last, hends, hlast, -, -, hwords⟩ := (lossless_of_tokenize htokens).ends
    have hword : t ∈ words := by
      rw [hends, List.mem_append, List.mem_singleton] at ht
      exact ht.resolve_right fun heq ↦ hkind (heq ▸ hlast)
    exact (hscan t ht).namesOnePlace (hwords t hword).2.1.ne_nil
  · -- the reader has no error of this kind
    rcases blames_of_compileFor h with hfails | ⟨_, _, _, _, _, _, _, hblames⟩
    · exact herror _ hfails
    · cases hblames

/-- Behind a comment and a carriage return, on a line with a wide blank and a line separator that
does not end it, `y` is the fourth character, and so is the stray that stands in its place. -/
theorem separator_takes_a_column :
    (∃ tokens t, tokenize "# é\r\n\u3000x\u2028y" = .ok tokens ∧ t ∈ tokens ∧
      t = ⟨.literal, "y", 2, 4, 13, 1⟩ ∧ t.span.NamesOnePlace "# é\r\n\u3000x\u2028y") ∧
    ∃ e : CompileError, compileFor "# é\r\n\u3000x\u2028é" 256 = .error e ∧
      e = .unexpectedChar 'é' ⟨2, 4, 13, 2⟩ ∧ e.span.NamesOnePlace "# é\r\n\u3000x\u2028é" := by
  have htokens : tokenize "# é\r\n\u3000x\u2028y" = .ok [⟨.literal, "x", 2, 2, 9, 1⟩,
      ⟨.literal, "y", 2, 4, 13, 1⟩, ⟨.eof, "", 2, 5, 14, 0⟩] := by
    decide +kernel
  have herror : compileFor "# é\r\n\u3000x\u2028é" 256 =
      .error (.unexpectedChar 'é' ⟨2, 4, 13, 2⟩) := by
    decide +kernel
  refine ⟨⟨_, _, htokens, ?_, rfl, ?_⟩, _, herror, rfl, (tokens_name_one_place _).2.2 _ _ _ herror⟩
  · exact List.mem_cons_of_mem _ List.mem_cons_self
  · exact (tokens_name_one_place _).1 _ htokens _
      (List.mem_cons_of_mem _ List.mem_cons_self) (by decide)

/-- **An error names one place, unless it is reported behind a comment.**

The line is always right, and the column counts the characters of the line that stand before its
comment. So line and column agree with the bytes that the command line points at, for every error
but one at the end of a text whose last line has a comment, and there they never do. -/
theorem namesOnePlace_iff {source : String} {capacity : Nat} {e : CompileError}
    (h : compileFor source capacity = .error e) :
    (e.span.NamesOnePlace source ↔
      ¬ (e.span.offset = source.utf8ByteSize ∧ '#' ∈ lastLine source.toList)) ∧
    ∃ before, takeBytes? e.span.offset source.toList = some before ∧
      ∀ path, (CommandError.compile path source e).labels =
          [("here", byteLength before, e.span.length)] ∧
        (CommandError.compile path source e).message =
          Decimal.ofNat (1 + before.count '\n') ++ ":" ++
            Decimal.ofNat (1 + (uncommented (lastLine before)).length) ++ ": " ++ e.message := by
  obtain ⟨word, hmarks⟩ := marks_of_compileFor h
  obtain ⟨before, behind, hsource, hoffset, hline, hcolumn, hcomment⟩ := hmarks.place
  have hbefore : takeBytes? e.span.offset source.toList = some before := by
    rw [hsource, hoffset, takeBytes?_append]
  refine ⟨?_, before, hbefore, fun path ↦ ⟨?_, ?_⟩⟩
  · rw [utf8ByteSize_eq_byteLength, ← hcomment]
    constructor
    · rintro ⟨before', hbefore', -, hcolumn'⟩ hhash
      obtain rfl : before = before' := Option.some.inj (hbefore.symm.trans hbefore')
      have hlt := length_uncommented_lt hhash
      omega
    · intro hhash
      exact ⟨before, hbefore, hline, by rw [hcolumn, uncommented_of_not_mem hhash]⟩
  · rw [← hoffset]
    rfl
  · rw [← hline, ← hcolumn]
    rfl

/-- The value is missing at the end of a line with a wide blank, behind a line with a comment. -/
theorem missing_value_names_one_place : ∃ e : CompileError,
    compileFor "# é\nx:\u3000int =" 256 = .error e ∧
    e.report = "2:9: expected expression, found end of input" ∧
    e.span.NamesOnePlace "# é\nx:\u3000int =" := by
  have herror : compileFor "# é\nx:\u3000int =" 256 =
      .error (.unexpectedToken "" "expression" ⟨2, 9, 15, 0⟩) := by
    decide +kernel
  have hline : '#' ∉ lastLine "# é\nx:\u3000int =".toList := by decide +kernel
  exact ⟨_, herror, by decide +kernel, (namesOnePlace_iff herror).1.2 fun h ↦ hline h.2⟩

/-- The value is missing behind a comment. The message names the column of the `#`, and the label
points behind the last character of the comment, which stands in column 12. -/
theorem missing_value_behind_comment : ∃ e : CompileError,
    compileFor "x: int = # c" 256 = .error e ∧
    e.report = "1:10: expected expression, found end of input" ∧
    ¬ e.span.NamesOnePlace "x: int = # c" := by
  refine ⟨.unexpectedToken "" "expression" ⟨1, 10, 12, 0⟩, by decide +kernel, by decide +kernel, ?_⟩
  rintro ⟨before, hbefore, -, hcolumn⟩
  have hall : takeBytes? 12 "x: int = # c".toList = some "x: int = # c".toList := by decide +kernel
  obtain rfl := Option.some.inj (hall.symm.trans hbefore)
  exact absurd hcolumn (by decide +kernel)

end SlotLang
