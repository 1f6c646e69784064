import SlotLang.Proofs.Grammar
import SlotLang.Proofs.Lexemes

/-!
# Errors point at their culprit

Every error of the reader is about one token, the one it points at, and what the error says of that
token can be checked against the tokens before and behind it. `CompileError.Blames` says so, with
one constructor for each cause. The reader is followed function by function; each lemma finds the
culprit among the tokens that the function was given, and the caller puts its own tokens in front
(`BlamesIn.prepend`).

Two causes look further than the next token.

* **An open call.** A fault in a call can be about the call itself, whose name and parenthesis have
  been read long before. `Feed.arguments_blames` therefore begins at the name, and keeps the
  arguments that have been passed over.
* **An unknown name.** That a name is not in the registry has to become a statement about tokens: no
  complete declaration of it stands before the culprit. Statements that have been read are cut into
  their tokens, and in a cut the colons belong to declarations (`SpelledAll.latest?_of_colon`). The
  statement that is being read has a colon too, but its value is not complete yet (`Unclosed`).
-/

namespace SlotLang

/-! ### Declarations among tokens -/

/-- The tokens hold a complete declaration of a name: its value is a literal that no parenthesis
follows, or a call that is closed. -/
def DeclaredIn (name : String) (ts : List Token) : Prop :=
  ∃ (before : List Token) (word colon type equals value : Token) (behind : List Token),
    ts = before ++ word :: colon :: type :: equals :: value :: behind ∧
      word.kind = .literal ∧ word.lexeme = name ∧ colon.kind = .colon ∧ type.kind = .literal ∧
      equals.kind = .equals ∧ value.kind = .literal ∧
      ∀ paren ∈ behind.head?, paren.kind = .parenOpen → ∃ close ∈ behind, close.kind = .parenClose

/-- A colon does not stand among tokens that have none behind the first. -/
theorem colon_beyond {tokens ts before behind : List Token} {word colon : Token}
    (htokens : ∀ t ∈ tokens.tail, t.kind ≠ .colon) (hts : ∀ t ∈ ts.head?, t.kind ≠ .colon)
    (hcolon : colon.kind = .colon) (heq : tokens ++ ts = before ++ word :: colon :: behind) :
    ∃ before', ts = before' ++ word :: colon :: behind := by
  induction tokens generalizing before with
  | nil => exact ⟨before, heq⟩
  | cons t tokens ih =>
    rcases before with - | ⟨u, before⟩ <;>
      simp only [List.nil_append, List.cons_append, List.cons.injEq] at heq
    · -- the word would be the first token, and the colon the next
      exfalso
      rcases tokens with - | ⟨u, tokens⟩
      · rw [List.nil_append] at heq
        exact hts colon (heq.2 ▸ rfl) hcolon
      · obtain ⟨-, rfl, -⟩ := List.cons_append ▸ heq
        exact htokens _ List.mem_cons_self hcolon
    · exact ih (fun t ht ↦ htokens t (List.mem_of_mem_tail ht)) heq.2

/-- The tokens are none, or those of a call that has not been closed. -/
structure Unclosed (ts : List Token) : Prop where
  /-- No parenthesis is closed, and no declaration begins. -/
  kinds : ∀ t ∈ ts, t.kind ≠ .colon ∧ t.kind ≠ .parenClose
  /-- They begin with the name of the function and the parenthesis. -/
  opens : ts = [] ∨ ∃ name paren args, ts = name :: paren :: args ∧ paren.kind = .parenOpen

theorem unclosed_nil : Unclosed [] := ⟨fun _ h ↦ (nomatch h), .inl rfl⟩

/-- A literal or a comma. -/
def Token.IsArgument (t : Token) : Prop := t.kind = .literal ∨ t.kind = .comma

theorem unclosed_call {name paren : Token} {args : List Token} (hname : name.kind = .literal)
    (hparen : paren.kind = .parenOpen) (hargs : ∀ t ∈ args, t.IsArgument) :
    Unclosed (name :: paren :: args) := by
  refine ⟨fun t ht ↦ ?_, .inr ⟨name, paren, args, rfl, hparen⟩⟩
  rcases List.mem_cons.1 ht with rfl | ht
  · simp [hname]
  rcases List.mem_cons.1 ht with rfl | ht
  · simp [hparen]
  rcases hargs t ht with h | h <;> simp [h]

/-- A call in an argument of a call. -/
theorem Unclosed.append {ts ts' : List Token} (h : Unclosed ts) (hne : ts ≠ [])
    (h' : Unclosed ts') : Unclosed (ts ++ ts') := by
  refine ⟨fun t ht ↦ (List.mem_append.1 ht).elim (h.kinds t) (h'.kinds t), .inr ?_⟩
  obtain ⟨name, paren, args, rfl, hparen⟩ := h.opens.resolve_left hne
  exact ⟨name, paren, args ++ ts', rfl, hparen⟩

theorem Unclosed.not_declaredIn {ts : List Token} (h : Unclosed ts) (name : String) :
    ¬ DeclaredIn name ts := by
  rintro ⟨before, word, colon, type, equals, value, behind, rfl, -, -, hcolon, -⟩
  exact (h.kinds colon (by simp)).1 hcolon

/-- A declaration is not complete before its value is. -/
theorem Unclosed.not_declaredIn_declaration {word colon type equals : Token} {ts : List Token}
    (h : Unclosed ts) (htype : type.kind = .literal) (hequals : equals.kind = .equals)
    (name : String) : ¬ DeclaredIn name (word :: colon :: type :: equals :: ts) := by
  rintro ⟨- | ⟨a, before⟩, word', colon', type', equals', value, behind, heq, -, -, hcolon, -, -, -,
    hclose⟩
  · -- the colon is that of the declaration, and its value is the call
    obtain ⟨-, -, -, -, rfl⟩ : _ ∧ _ ∧ _ ∧ _ ∧ ts = value :: behind := by simpa using heq
    obtain hnil | ⟨_, paren, args, hcall, hparen⟩ := h.opens
    · cases hnil
    cases hcall
    obtain ⟨close, hmem, hkind⟩ := hclose paren rfl hparen
    exact (h.kinds close (List.mem_cons_of_mem _ hmem)).2 hkind
  · have hts : ∀ t ∈ ts.head?, t.kind ≠ .colon := fun t ht ↦ (h.kinds t (List.mem_of_head? ht)).1
    have heq' : [colon, type, equals] ++ ts = before ++ word' :: colon' :: _ :=
      (List.cons.inj heq).2
    obtain ⟨before', rfl⟩ := colon_beyond (by simp [htype, hequals]) hts hcolon heq'
    exact (h.kinds colon' (by simp)).1 hcolon

/-! ### Declarations in a cut -/

namespace Stmt

variable {earlier : List Stmt} {tokens ts before behind : List Token} {word colon : Token}
  {s : Stmt} {cut : List (List Token)} {ss : List Stmt}

/-- A colon among the tokens of a statement, or behind the last of them, stands behind the name that
the statement declares, or else further on. -/
theorem Spelled.binds?_of_colon (h : s.Spelled earlier tokens)
    (hts : ∀ t ∈ ts.head?, t.kind ≠ .colon) (hcolon : colon.kind = .colon)
    (heq : tokens ++ ts = before ++ word :: colon :: behind) :
    (s.binds? word.lexeme).isSome ∨ ∃ before', ts = before' ++ word :: colon :: behind := by
  cases h with
  | @declaration name colon' type equals value e _ _ htype _ hequals hvalue =>
    rcases before with - | ⟨a, before⟩
    · obtain ⟨rfl, -⟩ := List.cons.inj heq
      exact .inl (by simp [binds?])
    · have heq' : [colon', type, equals, value] ++ ts = before ++ word :: colon :: behind :=
        (List.cons.inj heq).2
      exact .inr (colon_beyond (by simp [htype, hequals, hvalue.kind]) hts hcolon heq')
  | print _ _ hparen harg hclose =>
    exact .inr (colon_beyond (by simp [hparen, harg.kind, hclose]) hts hcolon heq)
  | value => exact .inr (colon_beyond (by simp) hts hcolon heq)

/-- A statement begins with a literal, so another token can stand first only behind them all. -/
theorem SpelledAll.head_ne (h : SpelledAll earlier cut ss) {kind : TokenKind}
    (hkind : kind ≠ .literal) (hts : ∀ t ∈ ts.head?, t.kind ≠ kind) :
    ∀ t ∈ (cut.flatten ++ ts).head?, t.kind ≠ kind := by
  cases h with
  | nil => exact hts
  | cons h _ =>
    obtain ⟨t, rest, rfl, ht⟩ := h.exists_literal
    intro u hu
    obtain rfl := Option.some.inj hu
    rw [ht]
    exact hkind.symm

/-- **In a cut, the colons belong to declarations**: what stands before a colon is declared by one
of the statements, or the colon stands behind them all. -/
theorem SpelledAll.latest?_of_colon (h : SpelledAll earlier cut ss)
    (hts : ∀ t ∈ ts.head?, t.kind ≠ .colon) (hcolon : colon.kind = .colon)
    (heq : cut.flatten ++ ts = before ++ word :: colon :: behind) :
    (latest? word.lexeme ss).isSome ∨ ∃ before', ts = before' ++ word :: colon :: behind := by
  induction h generalizing before with
  | nil => exact .inr ⟨before, heq⟩
  | @cons earlier tokens cut s ss hs hss ih =>
    rw [List.flatten_cons, List.append_assoc] at heq
    rw [latest?_cons, Option.isSome_or, Bool.or_eq_true]
    rcases hs.binds?_of_colon (hss.head_ne (by decide) hts) hcolon heq with hbinds | ⟨before', heq'⟩
    · exact .inl (.inr hbinds)
    · exact (ih heq').imp .inl id

/-- A name that no statement declares is declared in no part of their tokens. -/
theorem SpelledAll.not_declaredIn (h : SpelledAll earlier cut ss) {name : String}
    (hname : latest? name ss = none) (hts : ∀ t ∈ ts.head?, t.kind ≠ .colon)
    (hdeclared : ¬ DeclaredIn name ts) : ¬ DeclaredIn name (cut.flatten ++ ts) := by
  rintro ⟨before, word, colon, type, equals, value, behind, heq, hword, rfl, hcolon, hrest⟩
  rcases h.latest?_of_colon hts hcolon heq with hsome | ⟨before', heq'⟩
  · rw [hname] at hsome
    cases hsome
  · exact hdeclared ⟨before', word, colon, type, equals, value, behind, heq', hword, rfl, hcolon,
      hrest⟩

theorem SpelledAll.concat (h : SpelledAll earlier cut ss) (hs : s.Spelled (earlier ++ ss) tokens) :
    SpelledAll earlier (cut ++ [tokens]) (ss ++ [s]) := by
  induction h with
  | nil => exact .cons (by simpa using hs) (.nil _)
  | cons h _ ih => exact .cons h (ih (by simpa using hs))

end Stmt

/-! ### Blame -/

/-- The error is about the token `t`, which stands between the tokens `before` and `behind`. That a
name is unknown to the reader is said by `Unknown`. -/
inductive CompileError.Blames (Unknown : List Token → Token → Prop) (before : List Token)
    (t : Token) (behind : List Token) : CompileError → Prop
  | unexpected (expected : String) :
      Blames Unknown before t behind (.unexpectedToken t.lexeme expected t.span)
  /-- The call's arguments run into the end mark. -/
  | unclosed {front args rest : List Token} {name finish : Token}
      (hbefore : before = front ++ [name]) (hname : name.isIdentifier = true)
      (hparen : t.kind = .parenOpen) (hbehind : behind = args ++ finish :: rest)
      (hargs : ∀ u ∈ args, u.IsArgument) (hfinish : finish.kind = .eof) :
      Blames Unknown before t behind (.unclosedParen t.span)
  | invalid : Blames Unknown before t behind (.invalidLiteral t.lexeme t.span)
  | outOfRange : Blames Unknown before t behind (.integerOutOfRange t.lexeme t.span)
  | unknownType : Blames Unknown before t behind (.unknownType t.lexeme t.span)
  | undefined (hname : t.isIdentifier = true) (hunknown : Unknown before t) :
      Blames Unknown before t behind (.undefinedVariable t.lexeme t.span)
  | unknownFunction {paren : Token} {rest : List Token} (hbehind : behind = paren :: rest)
      (hparen : paren.kind = .parenOpen) :
      Blames Unknown before t behind (.unknownFunction t.lexeme t.span)
  | wrongArity (expected found : Nat) :
      Blames Unknown before t behind (.wrongArity t.lexeme expected found t.span)
  | voidValue : Blames Unknown before t behind (.voidValue t.lexeme t.span)
  /-- The token is the name that is being declared. -/
  | tooMany (capacity : Nat) {colon : Token} {rest : List Token} (hname : t.isIdentifier = true)
      (hbehind : behind = colon :: rest) (hcolon : colon.kind = .colon) :
      Blames Unknown before t behind (.tooManyVariables capacity t.span)

/-- The error is about one of the tokens. -/
def CompileError.BlamesIn (Unknown : List Token → Token → Prop) (ts : List Token)
    (e : CompileError) : Prop :=
  ∃ before t behind, ts = before ++ t :: behind ∧ e.Blames Unknown before t behind

namespace CompileError

variable {Unknown Unknown' : List Token → Token → Prop} {before behind ts : List Token} {t : Token}
  {e : CompileError}

theorem Blames.span_eq (h : e.Blames Unknown before t behind) : e.span = t.span := by
  cases h <;> rfl

/-- With more tokens in front, the error is about the same one. -/
theorem BlamesIn.prepend (h : e.BlamesIn Unknown ts) (front : List Token)
    (hunknown : ∀ before t, Unknown before t → Unknown' (front ++ before) t) :
    e.BlamesIn Unknown' (front ++ ts) := by
  obtain ⟨before, t, behind, rfl, h⟩ := h
  refine ⟨front ++ before, t, behind, (List.append_assoc ..).symm, ?_⟩
  cases h with
  | unexpected expected => exact .unexpected expected
  | unclosed hbefore hname hparen hbehind hargs hfinish =>
    rw [hbefore, ← List.append_assoc]
    exact .unclosed rfl hname hparen hbehind hargs hfinish
  | invalid => exact .invalid
  | outOfRange => exact .outOfRange
  | unknownType => exact .unknownType
  | undefined hname h => exact .undefined hname (hunknown _ _ h)
  | unknownFunction hbehind hparen => exact .unknownFunction hbehind hparen
  | wrongArity expected found => exact .wrongArity expected found
  | voidValue => exact .voidValue
  | tooMany capacity hname hbehind hcolon => exact .tooMany capacity hname hbehind hcolon

end CompileError

/-! ### The reader -/

section Words

variable {Unknown : List Token → Token → Prop} {before behind : List Token} {t : Token}
  {r : Registry} {e : CompileError}

theorem Token.integer_blames (h : t.integer = .error e) : e.Blames Unknown before t behind := by
  rw [Token.integer] at h
  split at h
  · cases h
  · have hrefused : ∀ digits : List Char,
        (if (Decimal.natural? digits).isSome then
          Except.error (CompileError.integerOutOfRange t.lexeme t.span)
        else .error (.invalidLiteral t.lexeme t.span)) = (.error e : Except CompileError Int32) →
          e.Blames Unknown before t behind := by
      intro digits h
      split at h <;> cases h
      · exact .outOfRange
      · exact .invalid
    exact hrefused _ h

theorem Token.atom_blames (h : t.atom r = .error e)
    (hunknown : r.resolve? t.lexeme = none → Unknown before t) :
    e.Blames Unknown before t behind := by
  rw [Token.atom] at h
  split at h
  · rename_i hname
    split at h
    · cases h
    · rename_i hnone
      cases h
      exact .undefined hname (hunknown hnone)
  · split at h
    · rename_i herror
      cases h
      exact Token.integer_blames herror
    · cases h

theorem OpenCall.ofName_blames {paren : Token} {asValue : Bool}
    (h : ofName t paren.span asValue = .error e) (hparen : paren.kind = .parenOpen) :
    e.Blames Unknown before t (paren :: behind) := by
  rw [ofName] at h
  split at h
  · cases h
  · cases h
    exact .unknownFunction rfl hparen

theorem OpenCall.paren_of_ofName {paren : Span} {asValue : Bool} {c : OpenCall}
    (hc : ofName t paren asValue = .ok c) : c.paren = paren := by
  rw [(OpenCall.ofName_eq_ok hc).2]

theorem OpenCall.close_blames {paren : Span} {asValue : Bool} {c : OpenCall}
    (hc : ofName t paren asValue = .ok c) {args : List Expr} {rest : Feed}
    (h : c.close args rest = .error e) : e.Blames Unknown before t behind := by
  obtain ⟨hprint, rfl⟩ := OpenCall.ofName_eq_ok hc
  have hname : Builtin.print.name = t.lexeme := hprint.symm
  rw [close] at h
  split at h
  · cases h
    rw [hname]
    exact .wrongArity _ _
  · split at h <;> cases h
    rw [hname]
    exact .voidValue

end Words

namespace Feed

variable {Unknown : List Token → Token → Prop} {r : Registry} {f : Feed} {e : CompileError}

/-- The tokens of a feed, with the one that ends it. -/
def tokens (f : Feed) : List Token := f.unread ++ [f.finish]

theorem exists_tokens (f : Feed) : ∃ behind, f.tokens = f.peek :: behind := by
  rcases f with ⟨- | ⟨t, ts⟩, finish⟩ <;> exact ⟨_, rfl⟩

theorem tokens_eq_cons (hf : f.finish.kind = .eof) (h : f.peek.kind ≠ .eof) :
    f.tokens = f.peek :: f.advance.tokens := by
  rcases f with ⟨- | ⟨t, ts⟩, finish⟩
  · exact absurd hf h
  · rfl

theorem tokens_eq_cons_cons (hf : f.finish.kind = .eof) (h : f.peek.kind ≠ .eof)
    (h' : f.second.kind ≠ .eof) : f.tokens = f.peek :: f.second :: f.advance.advance.tokens := by
  rw [tokens_eq_cons hf h, tokens_eq_cons (f := f.advance) hf h']
  rfl

theorem unexpected_blames (f : Feed) (expected : String) (front : List Token) :
    (f.unexpected expected).BlamesIn Unknown (front ++ f.tokens) := by
  obtain ⟨behind, htokens⟩ := f.exists_tokens
  exact ⟨front, f.peek, behind, congrArg (front ++ ·) htokens, .unexpected expected⟩

theorem isIdentifier_of_atCall (h : f.atCall = true) : f.peek.isIdentifier = true := by
  rw [atCall, Bool.and_eq_true] at h
  exact h.1

/-- What is said of a name that an expression reads: the registry does not have it, and the
expression is not complete. -/
def Unresolved (r : Registry) (before : List Token) (t : Token) : Prop :=
  r.resolve? t.lexeme = none ∧ Unclosed before

/-- **Reading an expression.** If it is a call, then what is wrong behind its parenthesis is found
there. -/
theorem expression_blames_of_arguments {asValue : Bool} (hf : f.finish.kind = .eof)
    (hargs : f.atCall = true → ∀ c, OpenCall.ofName f.peek f.second.span asValue = .ok c →
      f.advance.advance.arguments r c [] = .error e →
      e.BlamesIn (Unresolved r) (f.peek :: f.second :: f.advance.advance.tokens))
    (h : f.expression r asValue = .error e) : e.BlamesIn (Unresolved r) f.tokens := by
  rw [expression] at h
  split at h
  · cases h
    exact f.unexpected_blames _ []
  rename_i hkind
  have hliteral : f.peek.kind = .literal := Decidable.not_not.1 hkind
  split at h
  · rename_i hcall
    have hsecond := second_kind_of_atCall hcall
    rw [tokens_eq_cons_cons hf (by simp [hliteral]) (by simp [hsecond])]
    split at h
    · rename_i hname
      cases h
      exact ⟨[], f.peek, _, rfl, OpenCall.ofName_blames hname hsecond⟩
    · rename_i c hc
      split at h
      · rename_i herror
        cases h
        exact hargs hcall c hc herror
      · cases h
  · split at h
    · rename_i hatom
      cases h
      obtain ⟨behind, htokens⟩ := f.exists_tokens
      exact ⟨[], f.peek, behind, htokens,
        Token.atom_blames hatom fun hnone ↦ ⟨hnone, unclosed_nil⟩⟩
    · cases h

/-- A call whose arguments run into the end mark is to blame with its parenthesis. -/
theorem unclosed_blames {name paren : Token} {mid : List Token} (hname : name.isIdentifier = true)
    (hparen : paren.kind = .parenOpen) (hmid : ∀ t ∈ mid, t.IsArgument)
    (heof : f.peek.kind = .eof) :
    (CompileError.unclosedParen paren.span).BlamesIn Unknown
      (name :: paren :: mid ++ f.tokens) := by
  obtain ⟨rest, htokens⟩ := f.exists_tokens
  rw [htokens]
  exact ⟨[name], paren, _, rfl, .unclosed (List.nil_append _).symm hname hparen rfl hmid heof⟩

/-- What stands behind an argument can be to blame, or the parenthesis of the call that it should
have closed. -/
theorem goesOn_blames {c : OpenCall} (h : c.goesOn f = .error e) {name paren : Token}
    {mid : List Token} (hname : name.isIdentifier = true) (hparen : paren.kind = .parenOpen)
    (hc : c.paren = paren.span) (hmid : ∀ t ∈ mid, t.IsArgument) :
    e.BlamesIn Unknown (name :: paren :: mid ++ f.tokens) := by
  unfold OpenCall.goesOn at h
  split at h
  · cases h
  · cases h
  · rename_i heof
    cases h
    rw [hc]
    exact unclosed_blames hname hparen hmid heof
  · cases h
    exact f.unexpected_blames _ _

/-- **Reading the rest of a call**, along the recursion of the reader. The call itself can be to
blame, so its name and its parenthesis are among the tokens, with the arguments `mid` that have been
read. -/
theorem arguments_blames {c : OpenCall} {args : List Expr} (hf : f.finish.kind = .eof)
    (h : f.arguments r c args = .error e) {name paren : Token} {asValue : Bool} {mid : List Token}
    (hname : name.isIdentifier = true) (hparen : paren.kind = .parenOpen)
    (hc : OpenCall.ofName name paren.span asValue = .ok c) (hmid : ∀ t ∈ mid, t.IsArgument) :
    e.BlamesIn (Unresolved r) (name :: paren :: mid ++ f.tokens) := by
  induction c, args, f using arguments_induction (r := r) generalizing name paren asValue mid with
  | step c args f inner next =>
    have hopen := unclosed_call (Token.kind_of_isIdentifier hname) hparen hmid
    rw [arguments_eq] at h
    split at h
    · exact ⟨[], name, _, rfl, OpenCall.close_blames hc h⟩
    split at h
    · rename_i heof
      cases h
      rw [OpenCall.paren_of_ofName hc]
      exact unclosed_blames hname hparen hmid heof
    rename_i heof
    split at h
    · rename_i hvalue
      cases h
      -- what is wrong inside the argument is its own fault, and the call around it stays open
      have hblame := expression_blames_of_arguments hf (fun hcall c' hc' herror ↦
        inner hcall c' hf herror (isIdentifier_of_atCall hcall) (second_kind_of_atCall hcall) hc'
          (List.forall_mem_nil _)) hvalue
      exact hblame.prepend _ fun before t hunknown ↦
        ⟨hunknown.1, hopen.append (List.cons_ne_nil _ _) hunknown.2⟩
    rename_i value rest hvalue
    obtain ⟨hliteral, -, -, rfl⟩ := expression_true_eq_ok hvalue
    split at h
    · rename_i hbehind
      cases h
      have hmid' : ∀ t ∈ mid ++ [f.peek], t.IsArgument := by
        simpa [or_imp, forall_and] using ⟨hmid, .inl hliteral⟩
      rw [tokens_eq_cons hf heof, List.append_cons]
      exact goesOn_blames hbehind hname hparen (OpenCall.paren_of_ofName hc) hmid'
    · exact ⟨[], name, _, rfl, OpenCall.close_blames hc h⟩
    · rename_i hmore
      have hsecond : f.second.kind = .comma := OpenCall.goesOn_eq_ok_iff.1 hmore
      have hmid' : ∀ t ∈ mid ++ [f.peek, f.second], t.IsArgument := by
        simpa [or_imp, forall_and] using ⟨hmid, .inl hliteral, .inr hsecond⟩
      have hblame := next value f.advance hvalue hmore hf h hname hparen hc hmid'
      rw [tokens_eq_cons_cons hf heof (by simp [hsecond])]
      simpa using hblame

theorem expression_blames {asValue : Bool} (hf : f.finish.kind = .eof)
    (h : f.expression r asValue = .error e) : e.BlamesIn (Unresolved r) f.tokens :=
  expression_blames_of_arguments hf (fun hcall _ hc hargs ↦
    arguments_blames (f := f.advance.advance) hf hargs (isIdentifier_of_atCall hcall)
      (second_kind_of_atCall hcall) hc (List.forall_mem_nil _)) h

theorem expect_eq_error {kind : TokenKind} {expected : String}
    (h : f.expect kind expected = .error e) : e = f.unexpected expected := by
  rw [expect] at h
  split at h <;> cases h
  rfl

theorem declaredType_blames (hf : f.finish.kind = .eof) (h : f.declaredType = .error e)
    (front : List Token) : e.BlamesIn Unknown (front ++ f.tokens) := by
  rw [declaredType] at h
  split at h
  · rename_i hword
    cases h
    rw [expect_eq_error hword]
    exact f.unexpected_blames _ front
  rename_i word rest hword
  obtain ⟨hliteral, rfl, rfl⟩ := expect_eq_ok hword
  rw [tokens_eq_cons hf (by simp [hliteral])]
  split at h
  · cases h
    exact ⟨front, f.peek, _, rfl, .unknownType⟩
  split at h
  · rename_i hequals
    cases h
    rw [expect_eq_error hequals, List.append_cons]
    exact f.advance.unexpected_blames _ _
  · cases h

/-- What is said of a name that a statement reads: the registry does not have it, and the statement
is not a complete declaration of it, nor does it go on a declaration that began before it. -/
def Undeclared (r : Registry) (before : List Token) (t : Token) : Prop :=
  r.resolve? t.lexeme = none ∧ ¬ DeclaredIn t.lexeme before ∧
    ∀ u ∈ before.head?, u.kind ≠ .colon

theorem declaration_blames (hf : f.finish.kind = .eof) (hliteral : f.peek.kind = .literal)
    (hcolon : f.second.kind = .colon) (h : f.declaration r = .error e) :
    e.BlamesIn (Undeclared r) f.tokens := by
  rw [tokens_eq_cons_cons hf (by simp [hliteral]) (by simp [hcolon])]
  rw [declaration] at h
  split at h
  · cases h
    exact ⟨[], f.peek, _, rfl, .unexpected _⟩
  rename_i hname
  rw [Bool.not_eq_true', Bool.not_eq_false] at hname
  split at h
  · rename_i htype
    cases h
    exact declaredType_blames (f := f.advance.advance) hf htype [f.peek, f.second]
  rename_i type rest htype
  have hclosed : f.advance.advance.Closed := .mark hf
  obtain ⟨word, equals, hrest, -, hword, -, hequals, -⟩ := declaredType_eq_ok hclosed htype
  split at h
  · rename_i hvalue
    cases h
    have hfinish : rest.finish.kind = .eof := by
      rw [← hf, show f.finish = f.advance.advance.finish from rfl, hrest]
    have hblame := expression_blames hfinish hvalue
    rw [hrest]
    refine hblame.prepend [f.peek, f.second, word, equals] fun before t hunknown ↦ ?_
    refine ⟨hunknown.1, hunknown.2.not_declaredIn_declaration hword hequals t.lexeme, ?_⟩
    simp [hliteral]
  split at h
  · cases h
    exact ⟨[], f.peek, _, rfl, .tooMany _ hname rfl hcolon⟩
  · cases h

/-- **Reading a statement.** -/
theorem statement_blames (hf : f.finish.kind = .eof) (h : f.statement r = .error e) :
    e.BlamesIn (Undeclared r) f.tokens := by
  rw [statement] at h
  split at h
  · cases h
    exact f.unexpected_blames _ []
  rename_i hkind
  have hliteral : f.peek.kind = .literal := Decidable.not_not.1 hkind
  split at h
  · rename_i hcolon
    exact declaration_blames hf hliteral hcolon h
  split at h
  · rename_i hvalue
    cases h
    refine (expression_blames hf hvalue).prepend [] fun before t hunknown ↦ ?_
    exact ⟨hunknown.1, hunknown.2.not_declaredIn t.lexeme, fun u hu ↦
      (hunknown.2.kinds u (List.mem_of_head? hu)).1⟩
  · cases h

end Feed

/-- **Reading a program**, behind the statements `earlier` that the tokens `cut` are. -/
theorem readStatements_blames {capacity : Nat} {r : Registry} {f : Feed} {e : CompileError}
    {earlier : List Stmt} {cut : List (List Token)} (hf : f.finish.kind = .eof)
    (hr : Stmt.CheckedAll (.empty capacity) earlier r) (hcut : Stmt.SpelledAll [] cut earlier)
    (h : (readStatements r f).fault = some e) :
    e.BlamesIn (fun before t ↦ ¬ DeclaredIn t.lexeme before) (cut.flatten ++ f.tokens) := by
  fun_induction readStatements r f generalizing earlier cut with
  | case1 r f hlength e' herror =>
    cases h
    refine (Feed.statement_blames hf herror).prepend cut.flatten fun before t hunknown ↦ ?_
    have hlatest : Stmt.latest? t.lexeme earlier = none := by
      rw [← hr.resolve?_eq_latest?, hunknown.1]
    exact hcut.not_declaredIn hlatest hunknown.2.2 hunknown.2.1
  | case2 r f hlength s r' rest hok reading =>
    rename_i ih
    obtain ⟨ts, rfl, hspelled⟩ := Feed.statement_spelled hr (.mark hf) hok
    have hblame := ih hf (hr.concat (Feed.statement_checked hok)) (hcut.concat hspelled) h
    simpa [Feed.tokens] using hblame
  | case3 => cases h

/-! ### The text at the place -/

/-- What an error says that the text at its place is. -/
def CompileError.Names : CompileError → String → Prop
  | unexpectedChar c _, text => text = String.singleton c
  | unexpectedToken found _ _, text => text = found
  | unclosedParen _, text => text = "("
  | invalidLiteral lexeme _, text | integerOutOfRange lexeme _, text => text = lexeme
  | unknownType name _, text | undefinedVariable name _, text | unknownFunction name _, text
  | wrongArity name _ _ _, text | voidValue name _, text => text = name
  | tooManyVariables _ _, text => isName text = true

theorem lossless_of_tokenize {source : String} {tokens : List Token}
    (h : tokenize source = .ok tokens) : Lossless source tokens := by
  obtain ⟨ps, hcut, htext, rfl⟩ := cutsInto_of_scan h
  exact hcut.lossless htext

namespace Lossless

variable {source : String} {tokens : List Token} {t : Token}

/-- The end mark is the only token without text, and the only one without bytes. -/
theorem lexeme_eq_empty_iff (h : Lossless source tokens) (ht : t ∈ tokens) :
    t.lexeme = "" ↔ t.span.offset = source.utf8ByteSize ∧ t.span.length = 0 := by
  obtain ⟨words, last, rfl, -, hoffset, hlength, hwords⟩ := h.ends
  rcases List.mem_append.1 ht with hword | hlast
  · obtain ⟨-, hword, hpos⟩ := hwords t hword
    refine iff_of_false (fun hempty ↦ hword.ne_nil ?_) fun hend ↦ Nat.ne_of_gt hpos hend.2
    rw [hempty]
    rfl
  · obtain rfl := List.mem_singleton.1 hlast
    have hsource : source.toList = source.toList ++ [] ++ [] := by simp
    have hend : t.span.slice? source = some (String.ofList []) :=
      Span.slice?_eq_some hsource (hoffset.trans (utf8ByteSize_eq_byteLength source)) hlength
    rw [h.slice t ht] at hend
    exact iff_of_true (Option.some.inj hend) ⟨hoffset, hlength⟩

theorem lexeme_of_parenOpen (h : Lossless source tokens) (ht : t ∈ tokens)
    (hkind : t.kind = .parenOpen) : t.lexeme = "(" := by
  obtain ⟨words, last, rfl, hlast, -, -, hwords⟩ := h.ends
  rcases List.mem_append.1 ht with hword | hend
  · obtain ⟨-, ⟨c, hc, hlexeme⟩ | ⟨hliteral, -⟩, -⟩ := hwords t hword
    · rw [hkind] at hc
      obtain rfl : c = '(' := by simpa [punctuation] using hc
      rw [← String.ofList_toList (s := t.lexeme), hlexeme]
    · cases hkind.symm.trans hliteral
  · obtain rfl := List.mem_singleton.1 hend
    cases hkind.symm.trans hlast

end Lossless

theorem CompileError.Blames.names {Unknown : List Token → Token → Prop} {before behind : List Token}
    {t : Token} {e : CompileError} (h : e.Blames Unknown before t behind)
    (hparen : t.kind = .parenOpen → t.lexeme = "(") : e.Names t.lexeme := by
  cases h with
  | unclosed _ _ hkind => exact hparen hkind
  | tooMany _ hname =>
    rw [Token.isIdentifier, Bool.and_eq_true] at hname
    exact hname.2
  | _ => rfl

theorem Reading.module_eq_error_iff {x : Reading} {e : CompileError} :
    x.module = .error e ↔ x.fault = some e := by
  rcases x with ⟨statements, registry, - | e'⟩ <;> simp [Reading.module]

/-- **A text that compiles is spelled**: it is cut into the tokens of its statements, one statement
behind the other, and an end mark. -/
theorem spelledAll_of_compileFor {source : String} {capacity : Nat} {m : Module}
    (h : compileFor source capacity = .ok m) :
    ∃ cut last, tokenize source = .ok (cut.flatten ++ [last]) ∧ last.kind = .eof ∧
      Stmt.SpelledAll [] cut m.statements := by
  rw [compileFor, compilation] at h
  cases htokens : tokenize source with
  | error e =>
    rw [htokens] at h
    cases h
  | ok tokens =>
    rw [htokens] at h
    obtain ⟨words, last, rfl, hlast, -, -, hwords⟩ := (lossless_of_tokenize htokens).ends
    have hmarks : ∀ t ∈ words, t.kind ≠ .eof := fun t ht ↦ (hwords t ht).1
    obtain ⟨hfault, rfl⟩ := Reading.module_eq_ok_iff.1 h
    rw [Feed.ofTokens_append hmarks hlast] at hfault ⊢
    obtain ⟨cut, rfl, hall⟩ := spelledAll_of_readStatements (.nil _) hlast hfault
    exact ⟨cut, last, rfl, hlast, hall⟩

/-- An error is that of the scanner, or it is about a token. -/
theorem blames_of_compileFor {source : String} {capacity : Nat} {e : CompileError}
    (h : compileFor source capacity = .error e) :
    tokenize source = .error e ∨ ∃ tokens, tokenize source = .ok tokens ∧
      Lossless source tokens ∧ e.BlamesIn (fun before t ↦ ¬ DeclaredIn t.lexeme before) tokens := by
  cases htokens : tokenize source with
  | error e' =>
    simp only [compileFor, compilation, htokens] at h
    exact .inl (congrArg Except.error (Except.error.inj h))
  | ok tokens =>
    simp only [compileFor, compilation, htokens] at h
    right
    have hlossless := lossless_of_tokenize htokens
    obtain ⟨words, last, heq, hlast, -, -, hwords⟩ := hlossless.ends
    have hfault := Reading.module_eq_error_iff.1 h
    rw [heq, Feed.ofTokens_append (fun t ht ↦ (hwords t ht).1) hlast] at hfault
    refine ⟨tokens, rfl, hlossless, ?_⟩
    rw [heq]
    exact readStatements_blames hlast (.nil _) (.nil _) hfault

/-- Whether a text is refused for a given reason can be found out by compiling it. -/
instance (source : String) (capacity : Nat) (e : CompileError) :
    Decidable (compileFor source capacity = .error e) :=
  match compileFor source capacity with
  | .error e' => decidable_of_iff (e' = e) (by simp)
  | .ok _ => isFalse (by simp)

/-- **Errors point at their culprit.** Let a text be refused, for a table of any capacity.

The place of the error begins and ends between two characters of the text, and the text there is
what the error says it is. A token that is reported as the end of the input is the end mark, behind
the last byte.

Some errors are about more than that text. A name is undefined only if no complete declaration of it
stands before it. An unknown function is followed by a parenthesis. A parenthesis that is never
closed is that of a call whose arguments run into the end mark. The variable that is one too many is
the one that is being declared. -/
theorem errors_point_at_culprit {source : String} {capacity : Nat} {e : CompileError}
    (h : compileFor source capacity = .error e) :
    (∃ text, e.span.slice? source = some text ∧ e.Names text) ∧
      (∀ found expected span, e = .unexpectedToken found expected span →
        (found = "" ↔ span.offset = source.utf8ByteSize ∧ span.length = 0)) ∧
      (∀ name span, e = .undefinedVariable name span → ∃ before t behind,
        tokenize source = .ok (before ++ t :: behind) ∧ t.lexeme = name ∧ t.span = span ∧
          ¬ DeclaredIn name before) ∧
      (∀ name span, e = .unknownFunction name span → ∃ before t paren behind,
        tokenize source = .ok (before ++ t :: paren :: behind) ∧ t.lexeme = name ∧
          t.span = span ∧ paren.kind = .parenOpen) ∧
      (∀ span, e = .unclosedParen span → ∃ before name paren args finish behind,
        tokenize source = .ok (before ++ name :: paren :: (args ++ finish :: behind)) ∧
          name.isIdentifier = true ∧ paren.kind = .parenOpen ∧ paren.span = span ∧
          (∀ t ∈ args, t.kind = .literal ∨ t.kind = .comma) ∧ finish.kind = .eof) ∧
      ∀ capacity' span, e = .tooManyVariables capacity' span → ∃ before t colon behind,
        tokenize source = .ok (before ++ t :: colon :: behind) ∧ t.isIdentifier = true ∧
          t.span = span ∧ colon.kind = .colon := by
  rcases blames_of_compileFor h with hscan |
    ⟨tokens, htokens, hlossless, before, t, behind, rfl, hblames⟩
  · obtain ⟨pre, c, post, line, column, hsource, -, -, rfl⟩ := reportsFirst_of_scan hscan
    refine ⟨⟨String.ofList [c], ?_, ?_⟩, ?_⟩
    · refine Span.slice?_eq_some (by simpa using hsource) ?_ ?_
      · simp [CompileError.span, Place.start]
      · simp [CompileError.span]
    · exact (String.singleton_eq_ofList ..).symm
    · simp
  · have ht : t ∈ before ++ t :: behind := by simp
    refine ⟨⟨t.lexeme, hblames.span_eq ▸ hlossless.slice t ht,
      hblames.names (hlossless.lexeme_of_parenOpen ht)⟩, ?_, ?_, ?_, ?_, ?_⟩
    · rintro found expected span rfl
      cases hblames
      exact hlossless.lexeme_eq_empty_iff ht
    · rintro name span rfl
      cases hblames with
      | undefined _ hunknown => exact ⟨before, t, behind, htokens, rfl, rfl, hunknown⟩
    · rintro name span rfl
      cases hblames with
      | unknownFunction hbehind hparen =>
        subst hbehind
        exact ⟨before, t, _, _, htokens, rfl, rfl, hparen⟩
    · rintro span rfl
      cases hblames with
      | unclosed hbefore hname hparen hbehind hargs hfinish =>
        subst hbefore hbehind
        rw [List.append_assoc] at htokens
        exact ⟨_, _, t, _, _, _, htokens, hname, hparen, rfl, hargs, hfinish⟩
    · rintro capacity' span rfl
      cases hblames with
      | tooMany _ hname hbehind hcolon =>
        subst hbehind
        exact ⟨before, t, _, _, htokens, hname, rfl, hcolon⟩

/-- A variable is read in its own declaration, inside a call that is not closed yet when the name is
looked up. The function has its name from an earlier variable as well. -/
theorem own_declaration_comes_too_late :
    let source := "print: int = 1\nx: int = print(x)"
    let e := CompileError.undefinedVariable "x" ⟨2, 16, 30, 1⟩
    compileFor source 2 = .error e ∧
      (∃ text, e.span.slice? source = some text ∧ text = "x") ∧
      ∃ before t behind, tokenize source = .ok (before ++ t :: behind) ∧ t.lexeme = "x" ∧
        t.span = e.span ∧ ¬ DeclaredIn "x" before := by
  intro source e
  have herror : compileFor source 2 = .error e := by decide +kernel
  obtain ⟨hslice, -, hundefined, -⟩ := errors_point_at_culprit herror
  exact ⟨herror, hslice, hundefined "x" _ rfl⟩

end SlotLang
