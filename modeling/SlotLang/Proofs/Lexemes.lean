import SlotLang.Token.Scan

/-!
# Lexing loses nothing

A text that is cut into tokens is its tokens and the gaps between them, and nothing else.

* **What is kept.** `Cut` says what a cut of a text is: gaps of blanks and comments, and between
  them words that go as far as their characters do. `cutsInto_of_scan` is the only induction over
  the scanner for texts that are accepted. Places, slices, order and disjointness of the tokens are
  then facts about cuts: a cut can be entered at any of its pieces (`Cut.drop`), and a token stands
  where the text before it ends.
* **What is refused.** A character is a stray if it stands outside comments and belongs to no token
  and no gap. `Clean` is the absence of strays. It is compositional (`Clean.append`), so a text that
  can be cut is clean because its gaps and words are. `reportsFirst_of_scan` finds the first stray:
  what the scanner has passed over is clean and leaves no comment open.
-/

namespace SlotLang

/-! ### Bytes -/

@[simp]
theorem byteLength_nil : byteLength [] = 0 := rfl

@[simp]
theorem byteLength_cons (c : Char) (cs : List Char) :
    byteLength (c :: cs) = c.utf8Size + byteLength cs := rfl

@[simp]
theorem byteLength_append (cs cs' : List Char) :
    byteLength (cs ++ cs') = byteLength cs + byteLength cs' := by
  induction cs with
  | nil => simp
  | cons c cs ih => simp [ih, Nat.add_assoc]

theorem byteLength_pos {cs : List Char} (h : cs ≠ []) : 0 < byteLength cs := by
  obtain ⟨c, cs', rfl⟩ := List.exists_cons_of_ne_nil h
  have hc := c.utf8Size_pos
  rw [byteLength_cons]
  omega

/-- The bytes of a text are those of its characters. -/
theorem utf8ByteSize_eq_byteLength (s : String) : s.utf8ByteSize = byteLength s.toList := by
  have hlist : ∀ cs : List Char, (String.ofList cs).utf8ByteSize = byteLength cs := by
    intro cs
    induction cs with
    | nil => rfl
    | cons c cs ih =>
      have hcons : String.ofList (c :: cs) = String.singleton c ++ String.ofList cs := by
        rw [String.singleton_eq_ofList, ← String.ofList_append]
        rfl
      rw [hcons, String.utf8ByteSize_append, String.utf8ByteSize_singleton, ih, byteLength_cons]
  rw [← hlist, String.ofList_toList]

theorem dropBytes?_append (cs cs' : List Char) :
    dropBytes? (byteLength cs) (cs ++ cs') = some cs' := by
  induction cs with
  | nil => cases cs' <;> rfl
  | cons c cs ih =>
    obtain ⟨n, hn⟩ : ∃ n, byteLength (c :: cs) = n + 1 :=
      Nat.exists_eq_add_of_lt (byteLength_pos (List.cons_ne_nil c cs)) |>.imp fun n h ↦ by omega
    rw [hn, List.cons_append, dropBytes?, ← hn, byteLength_cons, if_pos (Nat.le_add_right _ _),
      Nat.add_sub_cancel_left, ih]

theorem takeBytes?_append (cs cs' : List Char) :
    takeBytes? (byteLength cs) (cs ++ cs') = some cs := by
  induction cs with
  | nil => cases cs' <;> rfl
  | cons c cs ih =>
    obtain ⟨n, hn⟩ : ∃ n, byteLength (c :: cs) = n + 1 :=
      Nat.exists_eq_add_of_lt (byteLength_pos (List.cons_ne_nil c cs)) |>.imp fun n h ↦ by omega
    rw [hn, List.cons_append, takeBytes?, ← hn, byteLength_cons, if_pos (Nat.le_add_right _ _),
      Nat.add_sub_cancel_left, ih]
    rfl

/-- A span covers what stands between what stands before it and what stands behind it. -/
theorem Span.slice?_eq_some {s : Span} {source : String} {before covered behind : List Char}
    (h : source.toList = before ++ covered ++ behind) (hoffset : s.offset = byteLength before)
    (hlength : s.length = byteLength covered) : s.slice? source = some (String.ofList covered) := by
  rw [List.append_assoc] at h
  rw [Span.slice?, h, hoffset, dropBytes?_append, hlength]
  show (takeBytes? (byteLength covered) (covered ++ behind)).bind _ = _
  rw [takeBytes?_append]
  rfl

/-! ### The classes of characters -/

/-- `[A-Za-z0-9_-]`. -/
def IsWordChar (c : Char) : Prop :=
  'A' ≤ c ∧ c ≤ 'Z' ∨ 'a' ≤ c ∧ c ≤ 'z' ∨ '0' ≤ c ∧ c ≤ '9' ∨ c = '_' ∨ c = '-'

instance : DecidablePred IsWordChar := fun _ ↦ inferInstanceAs (Decidable (_ ∨ _))

theorem isLiteralChar_iff {c : Char} : isLiteralChar c = true ↔ IsWordChar c := by
  have hclasses : isLiteralChar c =
      (decide ('A' ≤ c ∧ c ≤ 'Z') || (decide ('a' ≤ c) && decide (c ≤ 'z')) ||
        (decide ('0' ≤ c) && decide (c ≤ '9')) || decide (c = '_') || decide (c = '-')) := rfl
  rw [hclasses]
  simp only [Bool.or_eq_true, Bool.and_eq_true, decide_eq_true_eq, or_assoc, IsWordChar]

/-- The punctuation marks with their kinds. -/
def punctuation : List (Char × TokenKind) :=
  [('(', .parenOpen), (')', .parenClose), (':', .colon), ('=', .equals), (',', .comma)]

theorem ofPunctuation?_eq_some_iff {c : Char} {kind : TokenKind} :
    TokenKind.ofPunctuation? c = some kind ↔ (c, kind) ∈ punctuation := by
  constructor
  · intro h
    rw [TokenKind.ofPunctuation?.eq_def] at h
    split at h <;> cases h
    all_goals decide
  · intro h
    simp only [punctuation, List.mem_cons, Prod.mk.injEq, List.not_mem_nil, or_false] at h
    rcases h with ⟨rfl, rfl⟩ | ⟨rfl, rfl⟩ | ⟨rfl, rfl⟩ | ⟨rfl, rfl⟩ | ⟨rfl, rfl⟩ <;> rfl

/-- A character that may stand outside comments. -/
def Fits (c : Char) : Prop :=
  Text.isBlank c = true ∨ c = '#' ∨ c ∈ punctuation.map Prod.fst ∨ IsWordChar c

instance : DecidablePred Fits := fun _ ↦ inferInstanceAs (Decidable (_ ∨ _))

/-! ### Gaps and words -/

/-- Blanks and comments. A comment goes up to a line feed, or up to the end of the text if the gap
is the final one. -/
inductive Gap (final : Prop) : List Char → Prop
  | nil : Gap final []
  | blank {c : Char} {cs : List Char} (hc : Text.isBlank c = true) (h : Gap final cs) :
      Gap final (c :: cs)
  | comment {body cs : List Char} (hbody : '\n' ∉ body) (h : Gap final cs)
      (hstop : cs.head? = some '\n' ∨ cs = [] ∧ final) : Gap final ('#' :: body ++ cs)

theorem Gap.mono {final final' : Prop} {cs : List Char} (h : Gap final cs) (hf : final → final') :
    Gap final' cs := by
  induction h with
  | nil => exact .nil
  | blank hc _ ih => exact .blank hc ih
  | comment hbody _ hstop ih => exact .comment hbody ih (hstop.imp_right (And.imp_right hf))

/-- A punctuation mark of its kind, or a literal, which has only word characters. -/
def Token.IsWord (t : Token) : Prop :=
  (∃ c, (c, t.kind) ∈ punctuation ∧ t.lexeme.toList = [c]) ∨
    t.kind = .literal ∧ t.lexeme.toList ≠ [] ∧ ∀ c ∈ t.lexeme.toList, IsWordChar c

namespace Token.IsWord

variable {t : Token}

theorem ne_nil (h : t.IsWord) : t.lexeme.toList ≠ [] := by
  rcases h with ⟨c, -, hc⟩ | ⟨-, hne, -⟩
  · simp [hc]
  · exact hne

theorem kind_ne_eof (h : t.IsWord) : t.kind ≠ .eof := by
  rcases h with ⟨c, hc, -⟩ | ⟨hkind, -, -⟩
  · intro heof
    rw [heof] at hc
    simp [punctuation] at hc
  · simp [hkind]

theorem isWordChar (h : t.IsWord) (hkind : t.kind = .literal) :
    ∀ c ∈ t.lexeme.toList, IsWordChar c := by
  rcases h with ⟨c, hc, -⟩ | ⟨-, -, hall⟩
  · rw [hkind] at hc
    simp [punctuation] at hc
  · exact hall

/-- The characters of a word belong to a token, so a word contains neither a `#` nor a blank. -/
theorem fits (h : t.IsWord) {c : Char} (hc : c ∈ t.lexeme.toList) :
    c ∈ punctuation.map Prod.fst ∨ IsWordChar c := by
  rcases h with ⟨d, hd, hlex⟩ | ⟨-, -, hall⟩
  · rw [hlex, List.mem_singleton] at hc
    exact .inl (hc ▸ List.mem_map_of_mem hd)
  · exact .inr (hall c hc)

end Token.IsWord

/-! ### Cuts -/

/-- A token with the gap before it. -/
structure Piece where
  /-- The characters between the token before and this one. -/
  gap : List Char
  /-- The token. -/
  token : Token

/-- The characters of the gap and of the token. -/
def Piece.text (p : Piece) : List Char := p.gap ++ p.token.lexeme.toList

/-- The text the pieces make up. -/
def textOf (pieces : List Piece) : List Char := pieces.flatMap Piece.text

@[simp]
theorem textOf_cons (p : Piece) (ps : List Piece) : textOf (p :: ps) = p.text ++ textOf ps := rfl

@[simp]
theorem textOf_append (ps qs : List Piece) : textOf (ps ++ qs) = textOf ps ++ textOf qs :=
  List.flatMap_append

/-- The pieces of a text that begins at byte `n`: words with their gaps, then the end mark. No word
could be longer. -/
inductive Cut : Nat → List Piece → Prop
  | finish {n line column : Nat} {gap : List Char} (hgap : Gap True gap) :
      Cut n [⟨gap, .eof, "", line, column, n + byteLength gap, 0⟩]
  | word {n : Nat} {p : Piece} {ps : List Piece} (hgap : Gap False p.gap) (hword : p.token.IsWord)
      (hoffset : p.token.span.offset = n + byteLength p.gap)
      (hlength : p.token.span.length = byteLength p.token.lexeme.toList)
      (hlongest : p.token.kind = .literal → ∀ c ∈ (textOf ps).head?, ¬ IsWordChar c)
      (hrest : Cut (n + byteLength p.text) ps) : Cut n (p :: ps)

namespace Cut

variable {n : Nat} {p : Piece} {ps : List Piece}

/-- What holds of a piece wherever it stands in a cut. -/
theorem head (h : Cut n (p :: ps)) :
    Gap (ps = []) p.gap ∧ p.token.span.offset = n + byteLength p.gap ∧
      p.token.span.length = byteLength p.token.lexeme.toList := by
  cases h with
  | finish hgap => exact ⟨hgap.mono fun _ ↦ rfl, rfl, rfl⟩
  | word hgap _ hoffset hlength _ _ => exact ⟨hgap.mono False.elim, hoffset, hlength⟩

/-- Every piece that is not the last one has a word. -/
theorem tail (h : Cut n (p :: ps)) (hne : ps ≠ []) :
    p.token.IsWord ∧ (p.token.kind = .literal → ∀ c ∈ (textOf ps).head?, ¬ IsWordChar c) ∧
      Cut (n + byteLength p.text) ps := by
  cases h with
  | finish _ => exact absurd rfl hne
  | word _ hword _ _ hlongest hrest => exact ⟨hword, hlongest, hrest⟩

/-- A cut can be entered at any of its pieces. -/
theorem drop {pre : List Piece} (h : Cut n (pre ++ p :: ps)) :
    Cut (n + byteLength (textOf pre)) (p :: ps) := by
  induction pre generalizing n with
  | nil => exact h
  | cons q pre ih =>
    obtain ⟨-, -, hrest⟩ := h.tail (by simp)
    rw [textOf_cons, byteLength_append, ← Nat.add_assoc]
    exact ih hrest

/-- A cut ends with the end mark and has no other. -/
theorem finish_last (h : Cut n ps) :
    ∃ words line column, ps.map Piece.token =
        words ++ [⟨.eof, "", line, column, n + byteLength (textOf ps), 0⟩] ∧
      ∀ t ∈ words, t.IsWord ∧ t.span.length = byteLength t.lexeme.toList := by
  induction h with
  | @finish n line column gap _ => exact ⟨[], line, column, by simp [textOf, Piece.text], by simp⟩
  | @word n p ps _ hword _ hlength _ _ ih =>
    obtain ⟨words, line, column, hlast, hwords⟩ := ih
    refine ⟨p.token :: words, line, column, ?_, ?_⟩
    · rw [List.map_cons, hlast, textOf_cons, byteLength_append, Nat.add_assoc]
      rfl
    · simpa using ⟨⟨hword, hlength⟩, hwords⟩

/-- Nothing of a cut stands before its beginning. -/
theorem le_offset (h : Cut n ps) : ∀ t ∈ ps.map Piece.token, n ≤ t.span.offset := by
  induction h with
  | finish _ => simp
  | @word n p ps _ _ hoffset _ _ _ ih =>
    rw [List.map_cons, List.forall_mem_cons]
    refine ⟨by omega, fun t ht ↦ ?_⟩
    have := ih t ht
    omega

/-- Each token ends before the next one begins. -/
theorem pairwise (h : Cut n ps) :
    (ps.map Piece.token).Pairwise fun t u ↦
      t.span.offset < u.span.offset ∧ t.span.offset + t.span.length ≤ u.span.offset := by
  induction h with
  | finish _ => simp
  | @word n p ps _ hword hoffset hlength _ hrest ih =>
    rw [List.map_cons, List.pairwise_cons]
    refine ⟨fun u hu ↦ ?_, ih⟩
    have hle := hrest.le_offset u hu
    have hpos := byteLength_pos hword.ne_nil
    rw [Piece.text, byteLength_append] at hle
    omega

theorem ne_nil (h : Cut n ps) : ps ≠ [] := by
  cases h <;> simp

/-- The first gap can be extended to the left. -/
theorem widen {g : List Char} (h : Cut (n + byteLength g) (p :: ps))
    (hgap : Gap (ps = []) (g ++ p.gap)) : Cut n (⟨g ++ p.gap, p.token⟩ :: ps) := by
  cases h with
  | finish _ =>
    rw [Nat.add_assoc, ← byteLength_append]
    exact .finish (hgap.mono fun _ ↦ trivial)
  | word _ hword hoffset hlength hlongest hrest =>
    refine .word (hgap.mono hrest.ne_nil) hword ?_ hlength hlongest ?_
    · rw [hoffset, byteLength_append, Nat.add_assoc]
    · have htext : n + byteLength (Piece.text ⟨g ++ p.gap, p.token⟩) =
          n + byteLength g + byteLength p.text := by
        rw [Piece.text, List.append_assoc, byteLength_append, Nat.add_assoc]
        rfl
      rwa [htext]

/-- A line feed belongs to a gap, and so does the end of the text. -/
theorem gap_stop (h : Cut n (p :: ps)) (hstop : ∀ c ∈ (textOf (p :: ps)).head?, c = '\n') :
    p.gap.head? = some '\n' ∨ p.gap = [] ∧ ps = [] := by
  rw [textOf_cons, Piece.text] at hstop
  cases hgap : p.gap with
  | cons c gap =>
    left
    rw [List.head?_cons, hstop c (by simp [hgap])]
  | nil =>
    by_cases hne : ps = []
    · exact .inr ⟨rfl, hne⟩
    exfalso
    -- a word begins with a character of its own
    obtain ⟨hword, -, -⟩ := h.tail hne
    obtain ⟨c, cs, hc⟩ := List.exists_cons_of_ne_nil hword.ne_nil
    obtain rfl : c = '\n' := hstop c (by simp [hgap, hc])
    exact absurd (hword.fits (hc ▸ List.mem_cons_self)) (by decide)

end Cut

/-! ### The scanner cuts -/

/-- The tokens are those of a cut of `cs`, which begins at byte `n`. -/
def CutsInto (n : Nat) (cs : List Char) (tokens : List Token) : Prop :=
  ∃ ps, Cut n ps ∧ textOf ps = cs ∧ ps.map Piece.token = tokens

namespace CutsInto

variable {n : Nat} {cs : List Char} {tokens : List Token}

/-- What stands before the first gap becomes part of it. -/
theorem widen {g : List Char} (h : CutsInto (n + byteLength g) cs tokens)
    (hgap : ∀ p ps, Cut (n + byteLength g) (p :: ps) → textOf (p :: ps) = cs →
      Gap (ps = []) (g ++ p.gap)) : CutsInto n (g ++ cs) tokens := by
  obtain ⟨qs, hcut, htext, htokens⟩ := h
  obtain ⟨p, ps, rfl⟩ := List.exists_cons_of_ne_nil hcut.ne_nil
  refine ⟨⟨g ++ p.gap, p.token⟩ :: ps, hcut.widen (hgap p ps hcut htext), ?_, htokens⟩
  rw [← htext, textOf_cons, textOf_cons, Piece.text, Piece.text]
  simp

theorem blank {c : Char} (hc : Text.isBlank c = true)
    (h : CutsInto (n + c.utf8Size) cs tokens) : CutsInto n (c :: cs) tokens :=
  widen h (g := [c]) fun _ _ hcut _ ↦ .blank hc hcut.head.1

theorem comment {body : List Char} (hbody : '\n' ∉ body) (hstop : ∀ c ∈ cs.head?, c = '\n')
    (h : CutsInto (n + byteLength ('#' :: body)) cs tokens) :
    CutsInto n ('#' :: body ++ cs) tokens := by
  refine h.widen fun p ps hcut htext ↦ .comment hbody hcut.head.1 (hcut.gap_stop ?_)
  rwa [htext]

/-- A word with nothing before it. -/
theorem word {p : Place} {kind : TokenKind} {word : List Char}
    (hword : Token.IsWord ⟨kind, String.ofList word, p.span word⟩)
    (hlongest : kind = .literal → ∀ c ∈ cs.head?, ¬ IsWordChar c)
    (h : CutsInto (p.past word).offset cs tokens) :
    CutsInto p.offset (word ++ cs) (⟨kind, String.ofList word, p.span word⟩ :: tokens) := by
  obtain ⟨ps, hcut, rfl, rfl⟩ := h
  refine ⟨⟨[], kind, String.ofList word, p.span word⟩ :: ps,
    .word .nil hword rfl ?_ hlongest ?_, ?_, rfl⟩
  · exact congrArg byteLength String.toList_ofList.symm
  · simpa [Piece.text, Place.past] using hcut
  · simp [Piece.text]

end CutsInto

theorem newline_not_mem_takeWhile (cs : List Char) : '\n' ∉ cs.takeWhile isCommentChar := by
  intro h
  have := List.all_eq_true.1 List.all_takeWhile '\n' h
  revert this
  decide

theorem head_dropWhile {q : Char → Bool} {cs : List Char} {c : Char}
    (hc : c ∈ (cs.dropWhile q).head?) : q c = false := by
  have := List.head?_dropWhile_not q cs
  rw [Option.mem_def.1 hc] at this
  simpa using this

theorem eq_newline_of_mem_dropWhile {cs : List Char} {c : Char}
    (hc : c ∈ (cs.dropWhile isCommentChar).head?) : c = '\n' := by
  simpa [isCommentChar] using head_dropWhile hc

theorem isWord_punctuation {c : Char} {kind : TokenKind} {span : Span}
    (h : TokenKind.ofPunctuation? c = some kind) :
    Token.IsWord ⟨kind, String.ofList [c], span⟩ :=
  .inl ⟨c, ofPunctuation?_eq_some_iff.1 h, String.toList_ofList⟩

theorem isWordChar_of_mem_literal {c d : Char} {cs : List Char} (h : isLiteralChar c = true)
    (hd : d ∈ c :: cs.takeWhile isLiteralChar) : IsWordChar d := by
  rw [← isLiteralChar_iff]
  rcases List.mem_cons.1 hd with rfl | hd
  · exact h
  · exact List.all_eq_true.1 List.all_takeWhile d hd

theorem isWord_literal {c : Char} {cs : List Char} {span : Span} (h : isLiteralChar c = true) :
    Token.IsWord ⟨.literal, String.ofList (c :: cs.takeWhile isLiteralChar), span⟩ := by
  refine .inr ⟨rfl, ?_⟩
  rw [String.toList_ofList]
  exact ⟨List.cons_ne_nil _ _, fun _ ↦ isWordChar_of_mem_literal h⟩

/-- **What the scanner returns is a cut.** One case for each branch of the scanner. -/
theorem cutsInto_of_scan {p : Place} {cs : List Char} {tokens : List Token}
    (h : scan p cs = .ok tokens) : CutsInto p.offset cs tokens := by
  fun_induction scan p cs generalizing tokens with
  | case1 p =>
    obtain rfl := Except.ok.inj h
    exact ⟨_, .finish .nil, rfl, rfl⟩
  | case2 p cs ih => exact (ih h).blank (by decide)
  | case3 p c cs _ hblank ih => exact (ih h).blank hblank
  | case4 p cs _ _ ih =>
    have hrest := (ih h).comment (newline_not_mem_takeWhile cs) fun _ ↦ eq_newline_of_mem_dropWhile
    rwa [List.cons_append, List.takeWhile_append_dropWhile] at hrest
  | case5 => cases h
  | case6 p c cs _ _ _ kind hkind tokens' htokens ih =>
    obtain rfl := Except.ok.inj h
    rw [String.singleton_eq_ofList]
    have hne : kind ≠ .literal := by
      rintro rfl
      simp [ofPunctuation?_eq_some_iff, punctuation] at hkind
    exact (ih htokens).word (isWord_punctuation hkind) (absurd · hne)
  | case7 => cases h
  | case8 p c cs _ _ _ _ hliteral _ tokens' htokens =>
    rename_i ih
    obtain rfl := Except.ok.inj h
    have hlongest : ∀ d ∈ (cs.dropWhile isLiteralChar).head?, ¬ IsWordChar d := by
      intro d hd hword
      rw [← isLiteralChar_iff, head_dropWhile hd] at hword
      cases hword
    have hrest := (ih htokens).word (p := p) (isWord_literal hliteral) fun _ ↦ hlongest
    rwa [List.cons_append, List.takeWhile_append_dropWhile] at hrest
  | case9 => cases h

/-! ### Strays -/

/-- What stands behind `pre` belongs to a comment: a `#` stands before it on its line. -/
def InComment (pre : List Char) : Prop := ∃ before body, pre = before ++ '#' :: body ∧ '\n' ∉ body

theorem InComment.behind {pre : List Char} (h : InComment pre) (cs : List Char) :
    InComment (cs ++ pre) := by
  obtain ⟨before, body, rfl, hbody⟩ := h
  exact ⟨cs ++ before, body, by simp, hbody⟩

/-- A comment has to begin somewhere. -/
theorem inComment_append {cs pre : List Char} (h : InComment (cs ++ pre)) :
    InComment pre ∨ '#' ∈ cs ∧ '\n' ∉ pre := by
  obtain ⟨before, body, heq, hbody⟩ := h
  rcases List.append_eq_append_iff.1 heq with ⟨mid, rfl, hpre⟩ | ⟨mid, rfl, hmid⟩
  · exact .inl ⟨mid, body, hpre, hbody⟩
  · cases mid with
    | nil => exact .inl ⟨[], body, by simpa using hmid.symm, hbody⟩
    | cons c mid =>
      obtain ⟨rfl, rfl⟩ := List.cons.inj hmid
      exact .inr ⟨by simp, fun hmem ↦ hbody (List.mem_append_right mid hmem)⟩

/-- The character `c` behind `pre` stands outside comments and belongs to no token and no gap. -/
def Stray (pre : List Char) (c : Char) : Prop := ¬ InComment pre ∧ ¬ Fits c

/-- There is no stray among `cs`. -/
def Clean (cs : List Char) : Prop := ∀ pre c post, cs = pre ++ c :: post → ¬ Stray pre c

theorem clean_nil : Clean [] := fun pre c post h ↦ by simp at h

/-- A comment that `cs` leaves open can only hide strays of `cs'`. -/
theorem Clean.append {cs cs' : List Char} (h : Clean cs) (h' : Clean cs') : Clean (cs ++ cs') := by
  intro pre c post heq hstray
  rcases List.append_eq_append_iff.1 heq with ⟨mid, rfl, hcs'⟩ | ⟨mid, rfl, hmid⟩
  · exact h' mid c post hcs' ⟨fun hmid ↦ hstray.1 (hmid.behind cs), hstray.2⟩
  · cases mid with
    | nil =>
      refine h' [] c post (by simpa using hmid.symm) ⟨fun hnil ↦ ?_, hstray.2⟩
      obtain ⟨before, body, hnil, -⟩ := hnil
      simp at hnil
    | cons d mid =>
      obtain ⟨rfl, rfl⟩ := List.cons.inj hmid
      exact h pre c mid rfl hstray

theorem clean_of_fits {cs : List Char} (h : ∀ c ∈ cs, Fits c) : Clean cs := by
  rintro pre c post rfl hstray
  exact hstray.2 (h c (by simp))

theorem clean_comment {body : List Char} (hbody : '\n' ∉ body) : Clean ('#' :: body) := by
  intro pre c post heq hstray
  cases pre with
  | nil =>
    obtain ⟨rfl, -⟩ := List.cons.inj heq
    exact hstray.2 (.inr (.inl rfl))
  | cons d pre =>
    obtain ⟨rfl, rfl⟩ := List.cons.inj heq
    exact hstray.1 ⟨[], pre, rfl, fun hmem ↦ hbody (List.mem_append_left _ hmem)⟩

theorem Gap.clean {final : Prop} {cs : List Char} (h : Gap final cs) : Clean cs := by
  induction h with
  | nil => exact clean_nil
  | blank hc _ ih =>
    have hfits : Clean [_] := clean_of_fits (List.forall_mem_singleton.2 (.inl hc))
    exact hfits.append ih
  | comment hbody _ _ ih => exact (clean_comment hbody).append ih

theorem Token.IsWord.clean {t : Token} (h : t.IsWord) : Clean t.lexeme.toList :=
  clean_of_fits fun _ hc ↦ .inr (.inr (h.fits hc))

/-- A text that can be cut has no stray. -/
theorem Cut.clean {n : Nat} {ps : List Piece} (h : Cut n ps) : Clean (textOf ps) := by
  induction h with
  | finish hgap => exact (hgap.clean.append clean_nil).append clean_nil
  | word hgap hword _ _ _ _ ih => exact (hgap.clean.append hword.clean).append ih

/-- The error reports the first stray of `cs`, which begins at byte `n`. -/
def ReportsFirst (n : Nat) (cs : List Char) (e : CompileError) : Prop :=
  ∃ pre c post line column, cs = pre ++ c :: post ∧ Stray pre c ∧ Clean pre ∧
    e = .unexpectedChar c ⟨line, column, n + byteLength pre, c.utf8Size⟩

namespace ReportsFirst

variable {n : Nat} {cs : List Char} {e : CompileError}

/-- What has no stray and leaves no comment open does not change which stray is the first. -/
theorem behind {skipped : List Char} (hclean : Clean skipped)
    (hopen : '#' ∈ skipped → ∀ c ∈ cs.head?, c = '\n')
    (h : ReportsFirst (n + byteLength skipped) cs e) : ReportsFirst n (skipped ++ cs) e := by
  obtain ⟨pre, c, post, line, column, rfl, hstray, hpre, rfl⟩ := h
  refine ⟨skipped ++ pre, c, post, line, column, by simp, ⟨fun hcomment ↦ ?_, hstray.2⟩,
    hclean.append hpre, by rw [byteLength_append, Nat.add_assoc]⟩
  rcases inComment_append hcomment with hpre | ⟨hhash, hline⟩
  · exact hstray.1 hpre
  · cases pre with
    | nil =>
      -- the stray itself would be the line feed
      obtain rfl := hopen hhash c (by simp)
      exact hstray.2 (.inl (by decide))
    | cons d pre =>
      obtain rfl := hopen hhash d (by simp)
      exact hline List.mem_cons_self

/-- A character of a gap or of a token is passed over. -/
theorem cons {c : Char} (hfits : Fits c) (hhash : c ≠ '#')
    (h : ReportsFirst (n + c.utf8Size) cs e) : ReportsFirst n (c :: cs) e := by
  refine behind (clean_of_fits (List.forall_mem_singleton.2 hfits)) (fun hmem ↦ ?_) h
  exact absurd (List.mem_singleton.1 hmem).symm hhash

end ReportsFirst

/-- **What the scanner reports is the first stray.** -/
theorem reportsFirst_of_scan {p : Place} {cs : List Char} {e : CompileError}
    (h : scan p cs = .error e) : ReportsFirst p.offset cs e := by
  fun_induction scan p cs with
  | case1 p => cases h
  | case2 p cs ih => exact (ih h).cons (.inl (by decide)) (by decide)
  | case3 p c cs _ hblank ih =>
    refine (ih h).cons (.inl hblank) ?_
    rintro rfl
    exact absurd hblank (by decide)
  | case4 p cs _ _ ih =>
    have hrest := (ih h).behind (n := p.offset) (clean_comment (newline_not_mem_takeWhile cs))
      fun _ _ ↦ eq_newline_of_mem_dropWhile
    rwa [List.cons_append, List.takeWhile_append_dropWhile] at hrest
  | case5 p c cs _ _ hhash kind hkind e' he ih =>
    obtain rfl := Except.error.inj h
    have hmark := List.mem_map_of_mem (f := Prod.fst) (ofPunctuation?_eq_some_iff.1 hkind)
    exact (ih he).cons (.inr (.inr (.inl hmark))) hhash
  | case6 => cases h
  | case7 p c cs _ _ _ _ hliteral word e' he =>
    rename_i ih
    have hword : ∀ d ∈ word, IsWordChar d := fun _ ↦ isWordChar_of_mem_literal hliteral
    have hrest := (ih (he.trans h)).behind (n := p.offset)
      (clean_of_fits fun d hd ↦ .inr (.inr (.inr (hword d hd))))
      fun hhash ↦ absurd (hword _ hhash) (by decide)
    rwa [List.cons_append, List.takeWhile_append_dropWhile] at hrest
  | case8 => cases h
  | case9 p c cs _ hblank hhash hnone hliteral =>
    obtain rfl := Except.error.inj h
    have hfits : ¬ Fits c := by
      rintro (hc | rfl | hmark | hc)
      · exact hblank hc
      · exact hhash rfl
      · obtain ⟨⟨_, kind⟩, hkind, rfl⟩ := List.mem_map.1 hmark
        rw [← ofPunctuation?_eq_some_iff, hnone] at hkind
        cases hkind
      · exact hliteral (isLiteralChar_iff.2 hc)
    refine ⟨[], c, cs, p.line, p.column, rfl, ⟨?_, hfits⟩, clean_nil, rfl⟩
    rintro ⟨before, body, hnil, -⟩
    simp at hnil

/-! ### Texts and their tokens -/

/-- The tokens are all there is to a text, gaps apart. -/
structure Lossless (source : String) (tokens : List Token) : Prop where
  /-- The last token is the end mark, at the end of the text, and it is the only one. -/
  ends : ∃ words last, tokens = words ++ [last] ∧ last.kind = .eof ∧
    last.span.offset = source.utf8ByteSize ∧ last.span.length = 0 ∧
      ∀ t ∈ words, t.kind ≠ .eof ∧ t.IsWord ∧ 0 < t.span.length
  /-- A token is what stands at its place, which begins and ends between two characters. -/
  slice : ∀ t ∈ tokens, t.span.slice? source = some t.lexeme
  /-- The tokens stand one behind the other. -/
  ordered : tokens.Pairwise fun t u ↦
    t.span.offset < u.span.offset ∧ t.span.offset + t.span.length ≤ u.span.offset
  /-- The text is its gaps and tokens. What lies between two tokens is a gap, and there is one
  between two literals. -/
  pieces : ∃ ps : List Piece, ps.map Piece.token = tokens ∧ textOf ps = source.toList ∧
    (∀ pre p post, ps = pre ++ p :: post →
      p.token.span.offset = byteLength (textOf pre ++ p.gap) ∧ Gap (post = []) p.gap) ∧
    ∀ pre p q post, ps = pre ++ p :: q :: post → p.token.kind = .literal →
      q.token.kind = .literal → q.gap ≠ []

namespace Cut

variable {ps : List Piece}

/-- The characters of a literal after a literal would belong to that one. -/
theorem gap_ne_nil {n : Nat} {p q : Piece} (h : Cut n (p :: q :: ps))
    (hp : p.token.kind = .literal) (hq : q.token.kind = .literal) : q.gap ≠ [] := by
  intro hgap
  obtain ⟨-, hlongest, hrest⟩ := h.tail (by simp)
  cases hrest with
  | finish _ => simp at hq
  | word _ hword _ _ _ _ =>
    obtain ⟨c, cs, hc⟩ := List.exists_cons_of_ne_nil hword.ne_nil
    have hhead : c ∈ (textOf (q :: ps)).head? := by simp [Piece.text, hgap, hc]
    exact hlongest hp c hhead (hword.isWordChar hq c (by simp [hc]))

theorem lossless {source : String} {ps : List Piece} (h : Cut 0 ps)
    (htext : textOf ps = source.toList) : Lossless source (ps.map Piece.token) where
  ends := by
    obtain ⟨words, line, column, hlast, hwords⟩ := h.finish_last
    refine ⟨words, _, hlast, rfl, ?_, rfl, fun t ht ↦ ?_⟩
    · rw [utf8ByteSize_eq_byteLength, ← htext, Nat.zero_add]
    · obtain ⟨hword, hlength⟩ := hwords t ht
      exact ⟨hword.kind_ne_eof, hword, hlength ▸ byteLength_pos hword.ne_nil⟩
  slice := by
    intro t ht
    obtain ⟨p, hp, rfl⟩ := List.mem_map.1 ht
    obtain ⟨pre, post, rfl⟩ := List.append_of_mem hp
    obtain ⟨-, hoffset, hlength⟩ := h.drop.head
    have hsource : source.toList =
        (textOf pre ++ p.gap) ++ p.token.lexeme.toList ++ textOf post := by
      simp [← htext, Piece.text]
    rw [Nat.zero_add, ← byteLength_append] at hoffset
    rw [Span.slice?_eq_some hsource hoffset hlength, String.ofList_toList]
  ordered := h.pairwise
  pieces := by
    refine ⟨ps, rfl, htext, ?_, ?_⟩
    · rintro pre p post rfl
      obtain ⟨hgap, hoffset, -⟩ := h.drop.head
      rw [hoffset, byteLength_append, Nat.zero_add]
      exact ⟨rfl, hgap⟩
    · rintro pre p q post rfl hp hq
      exact h.drop.gap_ne_nil hp hq

end Cut

theorem tokenize_eq_ok_iff {source : String} {tokens : List Token} :
    tokenize source = .ok tokens ↔ (tokenize source).toOption = some tokens := by
  rcases tokenize source with e | tokens' <;> simp [Except.toOption]

/-- Whether a text has given tokens can be found out by cutting it. -/
instance (source : String) (tokens : List Token) : Decidable (tokenize source = .ok tokens) :=
  decidable_of_iff _ tokenize_eq_ok_iff.symm

/-- **Lexing loses nothing and refuses exactly the texts with strays.**

A text that is cut into tokens is these tokens and the gaps between them. A text that is refused has
a stray, and the error names the first one, with the bytes before it and the bytes it takes. A text
that has a stray anywhere is refused. -/
theorem tokenize_loses_nothing (source : String) :
    (∀ tokens, tokenize source = .ok tokens → Lossless source tokens) ∧
      (∀ e, tokenize source = .error e → ∃ pre c post line column,
        source.toList = pre ++ c :: post ∧ Stray pre c ∧ Clean pre ∧
          e = .unexpectedChar c ⟨line, column, byteLength pre, c.utf8Size⟩) ∧
      (∀ pre c post, source.toList = pre ++ c :: post → Stray pre c →
        ∃ e, tokenize source = .error e) := by
  refine ⟨fun tokens h ↦ ?_, fun e h ↦ ?_, fun pre c post hsource hstray ↦ ?_⟩
  · obtain ⟨ps, hcut, htext, rfl⟩ := cutsInto_of_scan h
    exact hcut.lossless htext
  · obtain ⟨pre, c, post, line, column, hsource, hstray, hclean, rfl⟩ := reportsFirst_of_scan h
    exact ⟨pre, c, post, line, column, hsource, hstray, hclean, by simp [Place.start]⟩
  · cases h : tokenize source with
    | error e => exact ⟨e, rfl⟩
    | ok tokens =>
      obtain ⟨ps, hcut, htext, -⟩ := cutsInto_of_scan h
      exact absurd hstray (hcut.clean pre c post (htext.trans hsource))

/-- A wide blank and a comment that runs to the end; then the same text with a stray on a line of
its own, where the comment does not hide it. -/
theorem stray_behind_comment :
    (∃ tokens, tokenize "x\u3000(-1 #é" = .ok tokens ∧ tokens.length = 4 ∧
      Lossless "x\u3000(-1 #é" tokens) ∧
    Stray "x\u3000(-1 #é\n".toList 'é' ∧
    ∃ e, tokenize "x\u3000(-1 #é\né" = .error e ∧ ∃ pre c post line column,
      "x\u3000(-1 #é\né".toList = pre ++ c :: post ∧ Stray pre c ∧ Clean pre ∧
        e = .unexpectedChar c ⟨line, column, byteLength pre, c.utf8Size⟩ := by
  have hok : tokenize "x\u3000(-1 #é" = .ok
      [⟨.literal, "x", 1, 1, 0, 1⟩, ⟨.parenOpen, "(", 1, 3, 4, 1⟩, ⟨.literal, "-1", 1, 4, 5, 2⟩,
        ⟨.eof, "", 1, 7, 11, 0⟩] := by
    decide +kernel
  have hstray : Stray "x\u3000(-1 #é\n".toList 'é' := by
    refine ⟨fun hcomment ↦ ?_, by decide⟩
    have hsplit : InComment ("x\u3000(-1 #é".toList ++ ['\n']) := hcomment
    rcases inComment_append hsplit with ⟨before, body, heq, -⟩ | ⟨-, hline⟩
    · have hhash : '#' ∈ ['\n'] := heq ▸ by simp
      simp at hhash
    · exact hline List.mem_cons_self
  obtain ⟨e, he⟩ := (tokenize_loses_nothing "x\u3000(-1 #é\né").2.2 _ _ [] rfl hstray
  exact ⟨⟨_, hok, rfl, (tokenize_loses_nothing _).1 _ hok⟩, hstray, e, he,
    (tokenize_loses_nothing _).2.1 e he⟩

end SlotLang
