import SlotLang.Proofs.Declarations

/-!
# The language of programs

The token lists that are programs, said without the reader: a program is cut into statements, each
five, four or one token long.

```text
NAME ':' int '=' atom
print '(' atom ')'
atom
```

An atom is a name that an earlier statement declares, or a number. `Stmt.Spelled` is one statement,
with the program text it stands for, and `Stmt.SpelledAll` a cut of a whole program.

* **Soundness**, `spelledAll_of_closed`: what the reader accepts is cut in this way.
* **Completeness**, `readStatements_append`: what is cut in this way is accepted, as the statements
  of the cut, and the reader goes on behind them. There is nothing between two statements, so the
  reader has to find the seams by looking one or two tokens ahead; what it needs is that every
  statement begins with a literal (`Stmt.SpelledAll.kind_peek`).
* **Unambiguity** needs no argument of its own. The reader is a function and accepts the statements
  of every cut, so two cuts of one list have the same statements, and a statement says how many
  tokens it was cut from (`Stmt.width`).
-/

namespace SlotLang

/-! ### Numbers -/

/-- One or more decimal digits. -/
def Digits (ds : List Char) : Prop := ds ≠ [] ∧ ∀ c ∈ ds, '0' ≤ c ∧ c ≤ '9'

/-- A text that spells an integer: digits, possibly behind a sign. -/
inductive Numeral : List Char → Int → Prop
  | plain {ds : List Char} (h : Digits ds) : Numeral ds (Decimal.value ds)
  | plus {ds : List Char} (h : Digits ds) : Numeral ('+' :: ds) (Decimal.value ds)
  | minus {ds : List Char} (h : Digits ds) : Numeral ('-' :: ds) (-(Decimal.value ds : Int))

namespace Decimal

theorem natural?_eq_some_iff {cs : List Char} {n : Nat} :
    natural? cs = some n ↔ Digits cs ∧ value cs = n := by
  have hiff : (cs.isEmpty || !cs.all isDigit) = false ↔ Digits cs := by
    simp [Digits, isDigit]
  rw [natural?]
  by_cases hdigits : Digits cs
  · rw [hiff.2 hdigits]
    simp [hdigits]
  · rw [← hiff, Bool.not_eq_false] at hdigits
    rw [hdigits, ← hiff, hdigits]
    simp

theorem integer?_plus (ds : List Char) :
    integer? ('+' :: ds) = (natural? ds).map fun n : Nat ↦ Int.ofNat n := by
  cases h : natural? ds <;> simp [integer?, h]

theorem integer?_minus (ds : List Char) :
    integer? ('-' :: ds) = (natural? ds).map fun n : Nat ↦ -Int.ofNat n := by
  cases h : natural? ds <;> simp [integer?, h]

theorem integer?_plain {ds : List Char} (hplus : ds.head? ≠ some '+')
    (hminus : ds.head? ≠ some '-') :
    integer? ds = (natural? ds).map fun n : Nat ↦ Int.ofNat n := by
  have hnatural : integer? ds = (natural? ds).map fun n ↦ (n : Int) := by
    rw [integer?.eq_def]
    split
    · exact absurd rfl hplus
    · exact absurd rfl hminus
    · rfl
  rw [hnatural]
  cases natural? ds <;> rfl

/-- A text is read as an integer exactly if it spells that integer. -/
theorem integer?_eq_some_iff {cs : List Char} {z : Int} : integer? cs = some z ↔ Numeral cs z := by
  constructor
  · intro h
    by_cases hplus : cs.head? = some '+'
    · obtain ⟨ds, rfl⟩ := List.head?_eq_some_iff.1 hplus
      rw [integer?_plus] at h
      obtain ⟨n, hn, rfl⟩ := Option.map_eq_some_iff.1 h
      obtain ⟨hds, rfl⟩ := natural?_eq_some_iff.1 hn
      exact .plus hds
    · by_cases hminus : cs.head? = some '-'
      · obtain ⟨ds, rfl⟩ := List.head?_eq_some_iff.1 hminus
        rw [integer?_minus] at h
        obtain ⟨n, hn, rfl⟩ := Option.map_eq_some_iff.1 h
        obtain ⟨hds, rfl⟩ := natural?_eq_some_iff.1 hn
        exact .minus hds
      · rw [integer?_plain hplus hminus] at h
        obtain ⟨n, hn, rfl⟩ := Option.map_eq_some_iff.1 h
        obtain ⟨hds, rfl⟩ := natural?_eq_some_iff.1 hn
        exact .plain hds
  · intro h
    cases h with
    | plus hds => rw [integer?_plus, natural?_eq_some_iff.2 ⟨hds, rfl⟩]; rfl
    | minus hds => rw [integer?_minus, natural?_eq_some_iff.2 ⟨hds, rfl⟩]; rfl
    | plain hds =>
      -- a digit is not a sign
      have hsign : ∀ c, ¬ ('0' ≤ c ∧ c ≤ '9') → cs.head? ≠ some c := by
        intro c hc hhead
        exact hc (hds.2 c (List.mem_of_head? hhead))
      rw [integer?_plain (hsign '+' (by decide)) (hsign '-' (by decide)),
        natural?_eq_some_iff.2 ⟨hds, rfl⟩]
      rfl

theorem int32?_eq_some_iff {z : Int} {v : Int32} : int32? z = some v ↔ v.toInt = z := by
  rw [int32?]
  constructor
  · intro h
    split at h
    · rename_i hrange
      obtain rfl := Option.some.inj h
      exact Int32.toInt_ofInt_of_le hrange.1 (by omega)
    · cases h
  · rintro rfl
    have hlow := v.le_toInt
    have hhigh := v.toInt_lt
    rw [if_pos (by omega), Int32.ofInt_toInt]

end Decimal

/-- A token is read as a number exactly if it spells one of 32 bits. -/
theorem Token.integer_eq_ok_iff {t : Token} {v : Int32} :
    t.integer = .ok v ↔ Numeral t.lexeme.toList v.toInt := by
  have hbind : (Decimal.integer? t.lexeme.toList).bind Decimal.int32? = some v ↔
      Numeral t.lexeme.toList v.toInt := by
    rw [Option.bind_eq_some_iff, ← Decimal.integer?_eq_some_iff]
    constructor
    · rintro ⟨z, hz, hv⟩
      rw [hz, Decimal.int32?_eq_some_iff.1 hv]
    · intro h
      exact ⟨v.toInt, h, Decimal.int32?_eq_some_iff.2 rfl⟩
  rw [← hbind, Token.integer]
  split
  · rename_i w hw
    rw [hw]
    simp
  · rename_i hnone
    have hrefused : ∀ digits : List Char,
        (if (Decimal.natural? digits).isSome then
          Except.error (CompileError.integerOutOfRange t.lexeme t.span)
        else .error (.invalidLiteral t.lexeme t.span)) ≠ Except.ok v := by
      intro digits
      split <;> exact fun h ↦ by cases h
    rw [hnone]
    exact iff_of_false (hrefused _) (by simp)

/-! ### The grammar -/

/-- A token that is an expression by itself, behind the statements `earlier`: a name declared by
one of them, or a number. -/
inductive Token.Atom (earlier : List Stmt) (t : Token) : Expr → Prop
  | name {v : Variable} (h : t.isIdentifier = true)
      (hv : Stmt.latest? t.lexeme earlier = some v) :
      Token.Atom earlier t (.read t.lexeme v t.span)
  | number {v : Int32} (hkind : t.kind = .literal) (hname : isName t.lexeme = false)
      (hv : Numeral t.lexeme.toList v.toInt) : Token.Atom earlier t (.int v t.span)

namespace Stmt

/-- The tokens of a statement that stands behind the statements `earlier`. A declaration takes the
slot behind those that they take. -/
inductive Spelled (earlier : List Stmt) : List Token → Stmt → Prop
  | declaration {name colon type equals value : Token} {e : Expr} (hname : name.isIdentifier = true)
      (hcolon : colon.kind = .colon) (htype : type.kind = .literal) (hint : type.lexeme = "int")
      (hequals : equals.kind = .equals) (hvalue : value.Atom earlier e) :
      Spelled earlier [name, colon, type, equals, value]
        (.declaration name.lexeme ⟨(earlier.filterMap declared?).length, .int⟩ e name.span)
  | print {word paren arg close : Token} {e : Expr} (hword : word.kind = .literal)
      (hprint : word.lexeme = "print") (hparen : paren.kind = .parenOpen)
      (harg : arg.Atom earlier e) (hclose : close.kind = .parenClose) :
      Spelled earlier [word, paren, arg, close] (.expr (.call .print [e] word.span))
  | value {atom : Token} {e : Expr} (hatom : atom.Atom earlier e) :
      Spelled earlier [atom] (.expr e)

/-- A cut of a program into the tokens of its statements. -/
inductive SpelledAll : List Stmt → List (List Token) → List Stmt → Prop
  | nil (earlier : List Stmt) : SpelledAll earlier [] []
  | cons {earlier : List Stmt} {ts : List Token} {cut : List (List Token)} {s : Stmt}
      {ss : List Stmt} (h : Spelled earlier ts s) (hs : SpelledAll (earlier ++ [s]) cut ss) :
      SpelledAll earlier (ts :: cut) (s :: ss)

end Stmt

/-! ### Atoms -/

section Atoms

variable {r : Registry} {earlier : List Stmt} {t : Token} {e : Expr}

theorem Token.kind_of_isIdentifier (h : t.isIdentifier = true) : t.kind = .literal := by
  rw [Token.isIdentifier, Bool.and_eq_true] at h
  exact of_decide_eq_true h.1

theorem Token.Atom.kind (h : t.Atom earlier e) : t.kind = .literal := by
  cases h with
  | name hname _ => exact kind_of_isIdentifier hname
  | number hkind _ _ => exact hkind

/-- A literal is read as an atom exactly if it is one. -/
theorem Token.atom_eq_ok_iff (hr : ∀ name, r.resolve? name = Stmt.latest? name earlier)
    (hkind : t.kind = .literal) : t.atom r = .ok e ↔ t.Atom earlier e := by
  have hident : t.isIdentifier = isName t.lexeme := by simp [Token.isIdentifier, hkind]
  constructor
  · intro h
    rw [Token.atom] at h
    split at h
    · rename_i hname
      split at h
      · rename_i v hv
        obtain rfl := Except.ok.inj h
        exact .name hname (by rw [← hr, hv])
      · cases h
    · rename_i hname
      split at h
      · cases h
      · rename_i v hv
        obtain rfl := Except.ok.inj h
        exact .number hkind (by simpa [hident] using hname) (Token.integer_eq_ok_iff.1 hv)
  · intro h
    cases h with
    | name hname hv => simp only [Token.atom, hname, if_true, hr, hv]
    | number _ hname hv =>
      have hno : t.isIdentifier = false := hident.trans hname
      simp only [Token.atom, hno, Token.integer_eq_ok_iff.2 hv]
      rfl

end Atoms

theorem ValueType.ofKeyword?_eq_some {word : String} {type : ValueType}
    (h : ofKeyword? word = some type) : word = "int" ∧ type = .int := by
  rw [ofKeyword?.eq_def] at h
  split at h
  · exact ⟨rfl, (Option.some.inj h).symm⟩
  · cases h

theorem Builtin.ofName?_eq_some {word : String} {builtin : Builtin}
    (h : ofName? word = some builtin) : word = "print" ∧ builtin = .print := by
  rw [ofName?.eq_def] at h
  split at h
  · exact ⟨rfl, (Option.some.inj h).symm⟩
  · cases h

/-- The only calls are those of `print`. -/
theorem OpenCall.ofName_eq_ok {word : Token} {paren : Span} {asValue : Bool} {c : OpenCall}
    (h : ofName word paren asValue = .ok c) :
    word.lexeme = "print" ∧ c = ⟨.print, word.span, paren, asValue⟩ := by
  rw [ofName] at h
  split at h
  · rename_i builtin hname
    obtain ⟨hprint, rfl⟩ := Builtin.ofName?_eq_some hname
    exact ⟨hprint, (Except.ok.inj h).symm⟩
  · cases h

/-! ### What the reader takes -/

namespace Feed

variable {r r' : Registry} {f f' : Feed}

/-- The token shown when none is left is not taken for one more: it is an end mark, it is the last
of the tokens that are there, or none is there and it is no literal. -/
inductive Closed (f : Feed) : Prop
  | mark (h : f.finish.kind = .eof)
  | last (h : f.unread.getLast? = some f.finish)
  | spent (h : f.unread = []) (hkind : f.finish.kind ≠ .literal)

/-- A literal is there to be read. -/
theorem eq_peek_cons (hf : f.Closed) (h : f.peek.kind = .literal) :
    f = ⟨f.peek :: f.advance.unread, f.advance.finish⟩ := by
  rcases f with ⟨- | ⟨t, ts⟩, finish⟩
  · exfalso
    have hliteral : finish.kind = .literal := h
    cases hf with
    | mark heof => cases hliteral.symm.trans heof
    | last hlast => cases hlast
    | spent _ hkind => exact hkind hliteral
  · rfl

/-- A literal is there to be read, and so is a mark behind it. -/
theorem eq_peek_cons_second {kind : TokenKind} (hf : f.Closed) (h : f.peek.kind = .literal)
    (h' : f.second.kind = kind) (hne : kind ≠ .literal) (hne' : kind ≠ .eof) :
    f = ⟨f.peek :: f.second :: f.advance.advance.unread, f.advance.advance.finish⟩ ∧
      f.advance.advance.Closed := by
  rcases f with ⟨- | ⟨t, - | ⟨u, ts⟩⟩, finish⟩
  · exact absurd (h'.symm.trans h) hne
  · exfalso
    cases hf with
    | mark heof => exact hne' (h'.symm.trans heof)
    | last hlast =>
      obtain rfl : t = finish := Option.some.inj hlast
      exact hne (h'.symm.trans h)
    | spent hnil => cases hnil
  · refine ⟨rfl, ?_⟩
    cases hf with
    | mark heof => exact .mark heof
    | spent hnil => cases hnil
    | last hlast =>
      cases ts with
      | nil =>
        obtain rfl : u = finish := Option.some.inj hlast
        exact .spent rfl fun hliteral ↦ hne (h'.symm.trans hliteral)
      | cons v ts => exact .last (by simpa [advance] using hlast)

theorem expect_eq_ok {kind : TokenKind} {expected : String} {t : Token}
    (h : f.expect kind expected = .ok (t, f')) :
    f.peek.kind = kind ∧ t = f.peek ∧ f' = f.advance := by
  rw [expect] at h
  split at h
  · rename_i hkind
    cases h
    exact ⟨hkind, rfl, rfl⟩
  · cases h

/-- A type is read from two tokens: its keyword and the equals sign. -/
theorem declaredType_eq_ok (hf : f.Closed) {type : ValueType}
    (h : f.declaredType = .ok (type, f')) :
    ∃ word equals, f = ⟨word :: equals :: f'.unread, f'.finish⟩ ∧ f'.Closed ∧
      word.kind = .literal ∧ word.lexeme = "int" ∧ equals.kind = .equals ∧ type = .int := by
  rw [declaredType] at h
  split at h
  · cases h
  rename_i word rest hword
  obtain ⟨hliteral, rfl, rfl⟩ := expect_eq_ok hword
  split at h
  · cases h
  rename_i type' htype
  obtain ⟨hint, rfl⟩ := ValueType.ofKeyword?_eq_some htype
  split at h
  · cases h
  rename_i equals rest' hequals
  obtain ⟨hkind, rfl, rfl⟩ := expect_eq_ok hequals
  cases h
  obtain ⟨heq, hclosed⟩ := eq_peek_cons_second hf hliteral hkind (by decide) (by decide)
  exact ⟨f.peek, f.second, heq, hclosed, hliteral, hint, hkind, rfl⟩

/-- The arguments of a call that is accepted are one atom and the closing parenthesis: without an
argument, with two, or with a call among them it is refused. -/
theorem arguments_eq_ok (hf : f.Closed) {c : OpenCall} {args : List Expr}
    (h : f.arguments r c [] = .ok (args, f')) :
    ∃ arg close e, f = ⟨arg :: close :: f'.unread, f'.finish⟩ ∧ arg.kind = .literal ∧
      arg.atom r = .ok e ∧ close.kind = .parenClose ∧ args = [e] := by
  have harity : c.builtin.arity = 1 := by cases c.builtin; rfl
  have hlength : args.length = 1 := harity ▸ (arguments_resolved h).1
  rw [arguments_eq] at h
  split at h
  · obtain ⟨rfl, -⟩ := OpenCall.close_eq_ok h
    cases hlength
  split at h
  · cases h
  split at h
  · cases h
  rename_i value rest hvalue
  obtain ⟨hliteral, -, hatom, rfl⟩ := expression_true_eq_ok hvalue
  split at h
  · cases h
  · rename_i hend
    have hclose : f.second.kind = .parenClose := OpenCall.goesOn_eq_ok_iff.1 hend
    obtain ⟨rfl, rfl⟩ := OpenCall.close_eq_ok h
    have heq : f = _ := (eq_peek_cons_second hf hliteral hclose (by decide) (by decide)).1
    exact ⟨f.peek, f.second, value, heq, hliteral, hatom, hclose, rfl⟩
  · obtain ⟨-, values, rfl, hvalues, -⟩ := arguments_eq_append h
    have hpos : 0 < values.length := List.length_pos_iff.2 (hvalues (by simp))
    simp only [List.nil_append, List.length_append, List.length_singleton] at hlength
    omega

/-- An expression that is accepted is an atom, or a call of `print` where no value is needed. -/
theorem expression_eq_ok (hf : f.Closed) {asValue : Bool} {e : Expr}
    (h : f.expression r asValue = .ok (e, f')) :
    (∃ t, f = ⟨t :: f'.unread, f'.finish⟩ ∧ t.kind = .literal ∧ t.atom r = .ok e) ∨
      asValue = false ∧ ∃ word paren arg close e',
        f = ⟨word :: paren :: arg :: close :: f'.unread, f'.finish⟩ ∧ word.kind = .literal ∧
          word.lexeme = "print" ∧ paren.kind = .parenOpen ∧ arg.kind = .literal ∧
          arg.atom r = .ok e' ∧ close.kind = .parenClose ∧ e = .call .print [e'] word.span := by
  rw [expression] at h
  split at h
  · cases h
  rename_i hkind
  have hliteral : f.peek.kind = .literal := Decidable.not_not.1 hkind
  split at h
  · rename_i hcall
    right
    have hparen : f.second.kind = .parenOpen := second_kind_of_atCall hcall
    obtain ⟨heq, hclosed⟩ := eq_peek_cons_second hf hliteral hparen (by decide) (by decide)
    split at h
    · cases h
    rename_i c hc
    split at h
    · cases h
    rename_i args rest hargs
    cases h
    have hvalue : asValue = false := by
      rw [← OpenCall.asValue_ofName hc, asValue_of_arguments hargs]
    obtain ⟨arg, close, e', hrest, harg, hatom, hclose, rfl⟩ :=
      arguments_eq_ok hclosed hargs
    obtain ⟨hprint, rfl⟩ := OpenCall.ofName_eq_ok hc
    rw [hrest] at heq
    exact ⟨hvalue, f.peek, f.second, arg, close, e', heq, hliteral, hprint, hparen, harg, hatom,
      hclose, rfl⟩
  · left
    split at h
    · cases h
    rename_i value hvalue
    cases h
    exact ⟨f.peek, eq_peek_cons hf hliteral, hliteral, hvalue⟩

section Spelled

variable {capacity : Nat} {earlier : List Stmt} {s : Stmt}
  (hr : Stmt.CheckedAll (.empty capacity) earlier r) (hf : f.Closed)
include hr hf

theorem declaration_spelled (hliteral : f.peek.kind = .literal) (hcolon : f.second.kind = .colon)
    (h : f.declaration r = .ok (s, r', f')) :
    ∃ ts, f = ⟨ts ++ f'.unread, f'.finish⟩ ∧ s.Spelled earlier ts := by
  obtain ⟨heq, hclosed⟩ := eq_peek_cons_second hf hliteral hcolon (by decide) (by decide)
  rw [declaration] at h
  split at h
  · cases h
  rename_i hname
  split at h
  · cases h
  rename_i type rest htype
  obtain ⟨word, equals, hrest, hclosed', hword, hint, hequals, rfl⟩ :=
    declaredType_eq_ok hclosed htype
  split at h
  · cases h
  rename_i value rest' hvalue
  split at h
  · cases h
  rename_i v r'' hdeclare
  cases h
  obtain ⟨rfl, -⟩ := Registry.declare?_eq_some hdeclare
  rcases expression_eq_ok hclosed' hvalue with ⟨t, hrest', ht, hatom⟩ | ⟨hfalse, -⟩
  · have hvalue' : t.Atom earlier value :=
      (Token.atom_eq_ok_iff hr.resolve?_eq_latest? ht).1 hatom
    rw [hrest, hrest'] at heq
    refine ⟨[f.peek, f.second, word, equals, t], heq, ?_⟩
    rw [hr.slotCount_eq]
    exact .declaration (by simpa using hname) hcolon hword hint hequals hvalue'
  · cases hfalse

/-- **A statement that is accepted is spelled by the tokens it was read from.** -/
theorem statement_spelled (h : f.statement r = .ok (s, r', f')) :
    ∃ ts, f = ⟨ts ++ f'.unread, f'.finish⟩ ∧ s.Spelled earlier ts := by
  rw [statement] at h
  split at h
  · cases h
  rename_i hkind
  have hliteral : f.peek.kind = .literal := Decidable.not_not.1 hkind
  split at h
  · rename_i hcolon
    exact declaration_spelled hr hf hliteral hcolon h
  split at h
  · cases h
  rename_i e rest he
  cases h
  have hatom' := fun {t : Token} {e : Expr} (ht : t.kind = .literal) ↦
    (Token.atom_eq_ok_iff (e := e) hr.resolve?_eq_latest? ht).1
  rcases expression_eq_ok hf he with ⟨t, heq, ht, hatom⟩ |
    ⟨-, word, paren, arg, close, e', heq, hword, hprint, hparen, harg, hatom, hclose, rfl⟩
  · exact ⟨[t], heq, .value (hatom' ht hatom)⟩
  · exact ⟨[word, paren, arg, close], heq,
      .print hword hprint hparen (hatom' harg hatom) hclose⟩

end Spelled

end Feed

theorem Stmt.CheckedAll.concat {r r' r'' : Registry} {s : Stmt} {ss : List Stmt}
    (h : CheckedAll r ss r') (hs : s.Checked r' r'') : CheckedAll r (ss ++ [s]) r'' := by
  induction h with
  | nil => exact .cons hs (.nil _)
  | cons h _ ih => exact .cons h (ih hs)

/-- What is left of a feed is closed as the feed was, as long as something is left. -/
theorem Feed.Closed.of_append {ts : List Token} {f : Feed} (h : Closed ⟨ts ++ f.unread, f.finish⟩)
    (hf : 0 < f.length) : f.Closed := by
  have hne : f.unread ≠ [] := List.ne_nil_of_length_pos hf
  cases h with
  | mark heof => exact .mark heof
  | last hlast =>
    rw [List.getLast?_append, List.getLast?_eq_some_getLast hne, Option.some_or] at hlast
    exact .last ((List.getLast?_eq_some_getLast hne).trans hlast)
  | spent hnil => exact absurd (List.append_eq_nil_iff.1 hnil).2 hne

/-- **Soundness.** Tokens that are read without a fault are those of a program, whatever a reader
sees when they are used up, as long as this is not taken for one more token. -/
theorem spelledAll_of_closed {capacity : Nat} {earlier : List Stmt} {r : Registry} {f : Feed}
    (hr : Stmt.CheckedAll (.empty capacity) earlier r) (hf : 0 < f.length → f.Closed)
    (hfault : (readStatements r f).fault = none) :
    ∃ cut, cut.flatten = f.unread ∧
      Stmt.SpelledAll earlier cut (readStatements r f).statements := by
  fun_induction readStatements r f generalizing earlier with
  | case1 => cases hfault
  | case2 r f hlength s r' rest hs reading =>
    rename_i ih
    obtain ⟨ts, rfl, hspelled⟩ := Feed.statement_spelled hr (hf hlength) hs
    obtain ⟨cut, hcut, hall⟩ := ih (hr.concat (Feed.statement_checked hs))
      (hf hlength).of_append hfault
    exact ⟨ts :: cut, by rw [List.flatten_cons, hcut], .cons hspelled hall⟩
  | case3 r f hlength =>
    have hnil : f.unread = [] := List.length_eq_zero_iff.1 (Nat.eq_zero_of_not_pos hlength)
    exact ⟨[], hnil.symm, .nil _⟩

/-- A list of tokens with an end mark that is read without a fault is a program. -/
theorem spelledAll_of_readStatements {capacity : Nat} {earlier : List Stmt} {r : Registry}
    {f : Feed} (hr : Stmt.CheckedAll (.empty capacity) earlier r) (hf : f.finish.kind = .eof)
    (hfault : (readStatements r f).fault = none) :
    ∃ cut, cut.flatten = f.unread ∧
      Stmt.SpelledAll earlier cut (readStatements r f).statements :=
  spelledAll_of_closed hr (fun _ ↦ .mark hf) hfault

/-! ### What the reader accepts -/

namespace Feed

variable {r : Registry} {rest : List Token} {finish : Token}

theorem expression_of_atom {t : Token} {e : Expr} (asValue : Bool) (ht : t.kind = .literal)
    (hatom : t.atom r = .ok e) (hnext : (second ⟨t :: rest, finish⟩).kind ≠ .parenOpen) :
    expression r asValue ⟨t :: rest, finish⟩ = .ok (e, ⟨rest, finish⟩) := by
  have hpeek : peek ⟨t :: rest, finish⟩ = t := rfl
  have hcall : atCall ⟨t :: rest, finish⟩ = false := by simp [atCall, hnext]
  simp only [expression, hpeek, ht, hcall, hatom]
  rfl

theorem arguments_of_atom {arg close : Token} {e : Expr} (c : OpenCall)
    (harg : arg.kind = .literal) (hatom : arg.atom r = .ok e) (hclose : close.kind = .parenClose) :
    arguments r c [] ⟨arg :: close :: rest, finish⟩ = c.close [e] ⟨rest, finish⟩ := by
  have hpeek : peek ⟨arg :: close :: rest, finish⟩ = arg := rfl
  have hsecond : (second ⟨arg :: close :: rest, finish⟩).kind = .parenClose := hclose
  have hvalue : expression r true ⟨arg :: close :: rest, finish⟩ =
      .ok (e, ⟨close :: rest, finish⟩) := expression_of_atom true harg hatom (by simp [hsecond])
  have hend : c.goesOn ⟨close :: rest, finish⟩ = .ok false := OpenCall.goesOn_eq_ok_iff.2 hclose
  rw [arguments_eq, hpeek, if_neg (by simp [harg]), if_neg (by simp [harg]), hvalue]
  simp only [hend]
  rfl

theorem expression_of_print {word paren arg close : Token} {e : Expr} (hword : word.kind = .literal)
    (hprint : word.lexeme = "print") (hparen : paren.kind = .parenOpen)
    (harg : arg.kind = .literal) (hatom : arg.atom r = .ok e) (hclose : close.kind = .parenClose) :
    expression r false ⟨word :: paren :: arg :: close :: rest, finish⟩ =
      .ok (.call .print [e] word.span, ⟨rest, finish⟩) := by
  have hpeek : peek ⟨word :: paren :: arg :: close :: rest, finish⟩ = word := rfl
  have hcall : atCall ⟨word :: paren :: arg :: close :: rest, finish⟩ = true := by
    have hname : word.isIdentifier = true := by
      rw [Token.isIdentifier, hword, hprint]
      decide
    simp only [atCall, hpeek, hname, Bool.true_and, decide_eq_true_eq]
    exact hparen
  have hopen : ∀ span, OpenCall.ofName word span false = .ok ⟨.print, word.span, span, false⟩ := by
    intro span
    rw [OpenCall.ofName, hprint]
    rfl
  have hadvance : advance (advance ⟨word :: paren :: arg :: close :: rest, finish⟩) =
      ⟨arg :: close :: rest, finish⟩ := rfl
  simp only [expression, hpeek, hword, hcall, hopen, hadvance,
    arguments_of_atom _ harg hatom hclose]
  rfl

theorem declaredType_of_int {word equals : Token} (hword : word.kind = .literal)
    (hint : word.lexeme = "int") (hequals : equals.kind = .equals) :
    declaredType ⟨word :: equals :: rest, finish⟩ = .ok (.int, ⟨rest, finish⟩) := by
  have hfirst : expect ⟨word :: equals :: rest, finish⟩ .literal "type name" =
      .ok (word, ⟨equals :: rest, finish⟩) := if_pos hword
  have hsecond : expect ⟨equals :: rest, finish⟩ .equals "`=`" = .ok (equals, ⟨rest, finish⟩) :=
    if_pos hequals
  have hkeyword : ValueType.ofKeyword? word.lexeme = some .int := by rw [hint]; rfl
  simp only [declaredType, hfirst, hkeyword, hsecond]

theorem declaration_of_spelled {name colon type equals value : Token} {e : Expr} {v : Variable}
    {r' : Registry} (hname : name.isIdentifier = true) (htype : type.kind = .literal)
    (hint : type.lexeme = "int") (hequals : equals.kind = .equals) (hvalue : value.kind = .literal)
    (hatom : value.atom r = .ok e) (hnext : (peek ⟨rest, finish⟩).kind ≠ .parenOpen)
    (hv : r.declare? name.lexeme .int = some (v, r')) :
    declaration r ⟨name :: colon :: type :: equals :: value :: rest, finish⟩ =
      .ok (.declaration name.lexeme v e name.span, r', ⟨rest, finish⟩) := by
  have hpeek : peek ⟨name :: colon :: type :: equals :: value :: rest, finish⟩ = name := rfl
  have hadvance : advance (advance ⟨name :: colon :: type :: equals :: value :: rest, finish⟩) =
      ⟨type :: equals :: value :: rest, finish⟩ := rfl
  simp only [declaration, hpeek, hname, hadvance, declaredType_of_int htype hint hequals,
    expression_of_atom true hvalue hatom hnext, hv]
  rfl

theorem statement_of_colon {f : Feed} (hpeek : f.peek.kind = .literal)
    (hcolon : f.second.kind = .colon) : f.statement r = f.declaration r := by
  rw [statement, if_neg (not_not_intro hpeek), if_pos hcolon]

theorem statement_of_expression {f f' : Feed} {e : Expr} (hpeek : f.peek.kind = .literal)
    (hcolon : f.second.kind ≠ .colon) (he : f.expression r false = .ok (e, f')) :
    f.statement r = .ok (.expr e, r, f') := by
  rw [statement, if_neg (not_not_intro hpeek), if_neg hcolon, he]

/-- **A statement that is spelled is accepted**, if the token behind its tokens can follow it and
there is a slot for it. -/
theorem statement_of_spelled {capacity : Nat} {earlier : List Stmt} {s : Stmt} {ts : List Token}
    (hr : Stmt.CheckedAll (.empty capacity) earlier r) (hs : s.Spelled earlier ts)
    (hnext : (peek ⟨rest, finish⟩).kind = .literal ∨ (peek ⟨rest, finish⟩).kind = .eof)
    (hslots : ((earlier ++ [s]).filterMap Stmt.declared?).length ≤ capacity) :
    ∃ r', statement r ⟨ts ++ rest, finish⟩ = .ok (s, r', ⟨rest, finish⟩) := by
  have hatom : ∀ {t : Token} {e : Expr}, t.Atom earlier e → t.atom r = .ok e :=
    fun h ↦ (Token.atom_eq_ok_iff hr.resolve?_eq_latest? h.kind).2 h
  have hcolon' : (peek ⟨rest, finish⟩).kind ≠ .colon := by
    rcases hnext with h | h <;> rw [h] <;> decide
  have hopen : (peek ⟨rest, finish⟩).kind ≠ .parenOpen := by
    rcases hnext with h | h <;> rw [h] <;> decide
  cases hs with
  | @declaration name colon type equals value e hname hcolon htype hint hequals hvalue =>
    have hliteral : name.kind = .literal := Token.kind_of_isIdentifier hname
    have hlt : r.slotCount < r.capacity := by
      rw [List.filterMap_append, List.length_append] at hslots
      rw [hr.slotCount_eq, hr.capacity_eq]
      exact hslots
    obtain ⟨r', hv⟩ : ∃ r', r.declare? name.lexeme .int = some (⟨r.slotCount, .int⟩, r') := by
      rw [Registry.declare?, if_pos hlt]
      exact ⟨_, rfl⟩
    have hstep := statement_of_colon (r := r)
      (f := ⟨name :: colon :: type :: equals :: value :: rest, finish⟩) hliteral hcolon
    have hread := hstep.trans
      (declaration_of_spelled hname htype hint hequals hvalue.kind (hatom hvalue) hopen hv)
    rw [← hr.slotCount_eq]
    exact ⟨r', hread⟩
  | @print word paren arg close e hword hprint hparen harg hclose =>
    have hsecond : paren.kind ≠ .colon := by rw [hparen]; decide
    exact ⟨r, statement_of_expression hword hsecond
      (expression_of_print hword hprint hparen harg.kind (hatom harg) hclose)⟩
  | @value atom e h =>
    exact ⟨r, statement_of_expression h.kind hcolon'
      (expression_of_atom false h.kind (hatom h) hopen)⟩

end Feed

namespace Stmt

theorem Spelled.exists_literal {earlier : List Stmt} {ts : List Token} {s : Stmt}
    (h : Spelled earlier ts s) : ∃ t ts', ts = t :: ts' ∧ t.kind = .literal := by
  cases h with
  | declaration hname => exact ⟨_, _, rfl, Token.kind_of_isIdentifier hname⟩
  | print hword => exact ⟨_, _, rfl, hword⟩
  | value hatom => exact ⟨_, _, rfl, hatom.kind⟩

/-- Every statement begins with a literal, so what can follow the last of some statements can follow
each of them, as far as the kind of the next token goes. -/
theorem SpelledAll.kind_peek {earlier : List Stmt} {cut : List (List Token)} {ss : List Stmt}
    (h : SpelledAll earlier cut ss) {rest : List Token} {finish : Token}
    (hnext : (Feed.peek ⟨rest, finish⟩).kind = .literal ∨
      (Feed.peek ⟨rest, finish⟩).kind = .eof) :
    (Feed.peek ⟨cut.flatten ++ rest, finish⟩).kind = .literal ∨
      (Feed.peek ⟨cut.flatten ++ rest, finish⟩).kind = .eof := by
  cases h with
  | nil => exact hnext
  | cons h _ =>
    obtain ⟨t, ts, rfl, ht⟩ := h.exists_literal
    exact .inl ht

/-- No statement has an end mark in it. -/
theorem SpelledAll.kind_ne_eof {earlier : List Stmt} {cut : List (List Token)} {ss : List Stmt}
    (h : SpelledAll earlier cut ss) : ∀ t ∈ cut.flatten, t.kind ≠ .eof := by
  induction h with
  | nil => simp
  | cons h _ ih =>
    rw [List.flatten_cons]
    refine List.forall_mem_append.2 ⟨?_, ih⟩
    cases h with
    | declaration hname hcolon htype _ hequals hvalue =>
      simp [Token.kind_of_isIdentifier hname, hcolon, htype, hequals, hvalue.kind]
    | print hword _ hparen harg hclose => simp [hword, hparen, harg.kind, hclose]
    | value hatom => simp [hatom.kind]

/-- The number of tokens a statement is spelled with. -/
def width : Stmt → Nat
  | .declaration .. => 5
  | .expr (.call ..) => 4
  | .expr _ => 1

theorem Spelled.length_eq {earlier : List Stmt} {ts : List Token} {s : Stmt}
    (h : Spelled earlier ts s) : ts.length = s.width := by
  cases h with
  | declaration => rfl
  | print => rfl
  | value hatom => cases hatom <;> rfl

theorem SpelledAll.map_length {earlier : List Stmt} {cut : List (List Token)} {ss : List Stmt}
    (h : SpelledAll earlier cut ss) : cut.map List.length = ss.map width := by
  induction h with
  | nil => rfl
  | cons h _ ih => rw [List.map_cons, List.map_cons, h.length_eq, ih]

end Stmt

theorem readStatements_of_ok {r r' : Registry} {f f' : Feed} {s : Stmt} (hf : 0 < f.length)
    (h : f.statement r = .ok (s, r', f')) :
    readStatements r f =
      { readStatements r' f' with statements := s :: (readStatements r' f').statements } := by
  rw [readStatements, dif_pos hf]
  split
  · rename_i hfault
    cases h.symm.trans hfault
  · rename_i hread
    cases h.symm.trans hread
    rfl

theorem readStatements_of_error {r : Registry} {f : Feed} {e : CompileError} (hf : 0 < f.length)
    (h : f.statement r = .error e) : readStatements r f = ⟨[], r, some e⟩ := by
  rw [readStatements, dif_pos hf]
  split
  · rename_i hfault
    cases h.symm.trans hfault
    rfl
  · rename_i hread
    cases h.symm.trans hread

/-- **Completeness.** The statements of a cut are read one after the other, whatever stands behind
them, if it can follow a statement; and then the reader is at what stands behind them. -/
theorem readStatements_append {capacity : Nat} {earlier : List Stmt} {r : Registry}
    {cut : List (List Token)} {ss : List Stmt} (rest : List Token) {finish : Token}
    (hr : Stmt.CheckedAll (.empty capacity) earlier r)
    (hnext : (Feed.peek ⟨rest, finish⟩).kind = .literal ∨
      (Feed.peek ⟨rest, finish⟩).kind = .eof)
    (hall : Stmt.SpelledAll earlier cut ss)
    (hslots : ((earlier ++ ss).filterMap Stmt.declared?).length ≤ capacity) :
    ∃ r', Stmt.CheckedAll (.empty capacity) (earlier ++ ss) r' ∧
      readStatements r ⟨cut.flatten ++ rest, finish⟩ =
        { readStatements r' ⟨rest, finish⟩ with
          statements := ss ++ (readStatements r' ⟨rest, finish⟩).statements } := by
  induction hall generalizing r with
  | nil earlier => exact ⟨r, by simpa using hr, rfl⟩
  | @cons earlier ts cut s ss hs hss ih =>
    have hslots' : ((earlier ++ [s]).filterMap Stmt.declared?).length ≤ capacity := by
      have hmore : earlier ++ s :: ss = (earlier ++ [s]) ++ ss := by simp
      rw [hmore, List.filterMap_append, List.length_append] at hslots
      omega
    have hlength : 0 < (Feed.mk (ts ++ (cut.flatten ++ rest)) finish).length := by
      cases hs <;> simp [Feed.length]
    obtain ⟨r₁, hread⟩ := Feed.statement_of_spelled hr hs (hss.kind_peek hnext) hslots'
    obtain ⟨r', hr', hrest⟩ := ih (hr.concat (Feed.statement_checked hread)) (by simpa using hslots)
    refine ⟨r', by simpa using hr', ?_⟩
    rw [List.flatten_cons, List.append_assoc, readStatements_of_ok hlength hread, hrest]
    rfl

/-- A program is read without a fault, as the statements it is cut into, if what is seen when its
tokens are used up can follow a statement. -/
theorem readStatements_of_cut {capacity : Nat} {earlier : List Stmt} {r : Registry}
    {cut : List (List Token)} {ss : List Stmt} {finish : Token}
    (hr : Stmt.CheckedAll (.empty capacity) earlier r)
    (hfinish : finish.kind = .literal ∨ finish.kind = .eof)
    (hall : Stmt.SpelledAll earlier cut ss)
    (hslots : ((earlier ++ ss).filterMap Stmt.declared?).length ≤ capacity) :
    (readStatements r ⟨cut.flatten, finish⟩).statements = ss ∧
      (readStatements r ⟨cut.flatten, finish⟩).fault = none := by
  obtain ⟨r', -, hread⟩ := readStatements_append [] hr hfinish hall hslots
  have hspent : readStatements r' ⟨[], finish⟩ = ⟨[], r', none⟩ := by
    rw [readStatements]
    simp [Feed.length]
  rw [List.append_nil, hspent] at hread
  rw [hread]
  exact ⟨List.append_nil ss, rfl⟩

/-- A program with an end mark behind it is read without a fault. -/
theorem readStatements_of_spelledAll {capacity : Nat} {earlier : List Stmt} {r : Registry}
    {cut : List (List Token)} {ss : List Stmt} {finish : Token}
    (hr : Stmt.CheckedAll (.empty capacity) earlier r) (hfinish : finish.kind = .eof)
    (hall : Stmt.SpelledAll earlier cut ss)
    (hslots : ((earlier ++ ss).filterMap Stmt.declared?).length ≤ capacity) :
    (readStatements r ⟨cut.flatten, finish⟩).statements = ss ∧
      (readStatements r ⟨cut.flatten, finish⟩).fault = none :=
  readStatements_of_cut hr (.inr hfinish) hall hslots

/-- **Unambiguity.** A list of tokens is cut into statements in one way at most: the reader finds
the statements of both cuts, and these say where the seams are. -/
theorem Stmt.SpelledAll.unique {cut cut' : List (List Token)} {ss ss' : List Stmt}
    (h : SpelledAll [] cut ss) (h' : SpelledAll [] cut' ss') (heq : cut.flatten = cut'.flatten) :
    cut = cut' ∧ ss = ss' := by
  have hread : ∀ {cut ss}, SpelledAll [] cut ss → ∀ capacity,
      (ss.filterMap declared?).length ≤ capacity →
      (readStatements (.empty capacity) ⟨cut.flatten, .nowhere⟩).statements = ss :=
    fun h capacity hslots ↦ (readStatements_of_spelledAll (.nil _) rfl h hslots).1
  have hss : ss = ss' := by
    rw [← hread h _ (Nat.le_max_left _ (ss'.filterMap declared?).length), heq]
    exact hread h' _ (Nat.le_max_right _ _)
  refine ⟨List.eq_iff_flatten_eq.2 ⟨heq, ?_⟩, hss⟩
  rw [h.map_length, h'.map_length, hss]

/-! ### The reader and its language -/

theorem Feed.ofTokens_append {before behind : List Token} {finish : Token}
    (hbefore : ∀ t ∈ before, t.kind ≠ .eof) (hfinish : finish.kind = .eof) :
    Feed.ofTokens (before ++ finish :: behind) = ⟨before, finish⟩ := by
  have hunread : (before ++ finish :: behind).takeWhile (·.kind ≠ .eof) = before := by
    rw [List.takeWhile_append_of_pos fun t ht ↦ decide_eq_true (hbefore t ht),
      List.takeWhile_cons_of_neg (by simp [hfinish]), List.append_nil]
  have hfind : (before ++ finish :: behind).find? (·.kind = .eof) = some finish := by
    have hnone : before.find? (·.kind = .eof) = none := by simpa using hbefore
    rw [List.find?_append, hnone, List.find?_cons_of_pos (by simp [hfinish])]
    rfl
  rw [Feed.ofTokens, hunread, hfind]
  rfl

theorem readTokens?_append {before behind : List Token} {finish : Token}
    (hbefore : ∀ t ∈ before, t.kind ≠ .eof) (hfinish : finish.kind = .eof) (capacity : Nat) :
    readTokens? capacity (before ++ finish :: behind) =
      some (readStatements (.empty capacity) ⟨before, finish⟩) := by
  rw [readTokens?, Feed.ofTokens_append hbefore hfinish]
  simp [hfinish]

theorem Reading.module_eq_ok_iff {x : Reading} {m : Module} :
    x.module = .ok m ↔ x.fault = none ∧ m = ⟨x.statements, x.registry.slotCount⟩ := by
  rw [Reading.module]
  split
  · rename_i hnone
    rw [hnone]
    exact ⟨fun h ↦ ⟨rfl, (Except.ok.inj h).symm⟩, fun h ↦ by rw [h.2]⟩
  · rename_i e hsome
    rw [hsome]
    constructor
    · intro h
      cases h
    · rintro ⟨h, -⟩
      cases h

/-- A text compiles if its tokens can be cut into statements and there are slots for them. -/
theorem compileFor_of_spelledAll {source : String} {capacity : Nat} {cut : List (List Token)}
    {ss : List Stmt} {last : Token} (htokens : tokenize source = .ok (cut.flatten ++ [last]))
    (hlast : last.kind = .eof) (hall : Stmt.SpelledAll [] cut ss)
    (hslots : (ss.filterMap Stmt.declared?).length ≤ capacity) :
    compileFor source capacity = .ok ⟨ss, (ss.filterMap Stmt.declared?).length⟩ := by
  obtain ⟨hstatements, hfault⟩ := readStatements_of_spelledAll (.nil _) hlast hall hslots
  have hread := readStatements_checked (.empty capacity) ⟨cut.flatten, last⟩
  rw [compileFor, compilation, htokens]
  simp only
  rw [Feed.ofTokens_append hall.kind_ne_eof hlast, Reading.module_eq_ok_iff]
  refine ⟨hfault, ?_⟩
  rw [hread.slotCount_eq, hstatements]

/-- **The reader accepts exactly the programs.**

Take any list of tokens with an end mark in it. It is read as the program `m` if and only if the
tokens before the first end mark can be cut into the statements of `m`, and no more of these are
declarations than there are slots. There is then no other cut, into these or any other statements.
What stands behind the end mark makes no difference to the answer, be it a program or an error. -/
theorem readTokens?_accepts_iff {before behind : List Token} {finish : Token}
    (hbefore : ∀ t ∈ before, t.kind ≠ .eof) (hfinish : finish.kind = .eof) (capacity : Nat) :
    (∀ m, (readTokens? capacity (before ++ finish :: behind)).map Reading.module = some (.ok m) ↔
      ∃ cut, cut.flatten = before ∧ Stmt.SpelledAll [] cut m.statements ∧
        m.slotCount = (m.statements.filterMap Stmt.declared?).length ∧ m.slotCount ≤ capacity) ∧
      (∀ cut cut' ss ss', cut.flatten = before → cut'.flatten = before →
        Stmt.SpelledAll [] cut ss → Stmt.SpelledAll [] cut' ss' → cut = cut' ∧ ss = ss') ∧
      ∀ behind', readTokens? capacity (before ++ finish :: behind) =
        readTokens? capacity (before ++ finish :: behind') := by
  have hread : ∀ behind, readTokens? capacity (before ++ finish :: behind) =
      some (readStatements (.empty capacity) ⟨before, finish⟩) :=
    fun _ ↦ readTokens?_append hbefore hfinish capacity
  refine ⟨fun m ↦ ?_, ?_, fun behind' ↦ (hread behind).trans (hread behind').symm⟩
  · rw [hread, Option.map_some, Option.some.injEq, Reading.module_eq_ok_iff]
    have hchecked := readStatements_checked (.empty capacity) ⟨before, finish⟩
    constructor
    · rintro ⟨hfault, rfl⟩
      obtain ⟨cut, hcut, hall⟩ := spelledAll_of_readStatements (.nil _) hfinish hfault
      exact ⟨cut, hcut, hall, hchecked.slotCount_eq,
        hchecked.slotCount_le_capacity (Nat.zero_le _)⟩
    · rintro ⟨cut, rfl, hall, hcount, hle⟩
      obtain ⟨hstatements, hfault⟩ :=
        readStatements_of_spelledAll (.nil _) hfinish hall (hcount ▸ hle)
      refine ⟨hfault, ?_⟩
      rw [hchecked.slotCount_eq, hstatements, ← hcount]
  · intro cut cut' ss ss' hcut hcut' hall hall'
    exact hall.unique hall' (hcut.trans hcut'.symm)

namespace PrintOfPrint

/-- The tokens of a program that declares a variable `print` and prints it. -/
def cut : List (List Token) :=
  [[⟨.literal, "print", .nowhere⟩, ⟨.colon, ":", .nowhere⟩, ⟨.literal, "int", .nowhere⟩,
      ⟨.equals, "=", .nowhere⟩, ⟨.literal, "+7", .nowhere⟩],
    [⟨.literal, "print", .nowhere⟩, ⟨.parenOpen, "(", .nowhere⟩, ⟨.literal, "print", .nowhere⟩,
      ⟨.parenClose, ")", .nowhere⟩]]

/-- The program, checked. -/
def checked : Module where
  statements :=
    [.declaration "print" ⟨0, .int⟩ (.int 7 .nowhere) .nowhere,
     .expr (.call .print [.read "print" ⟨0, .int⟩ .nowhere] .nowhere)]
  slotCount := 1

theorem spelledAll_cut : Stmt.SpelledAll [] cut checked.statements := by
  have hread : Decimal.natural? ['7'] = some 7 := by decide
  have hseven : Digits ['7'] := (Decimal.natural?_eq_some_iff.1 hread).1
  exact .cons (.declaration rfl rfl rfl rfl rfl (.number rfl rfl (.plus hseven)))
    (.cons (.print rfl rfl rfl (.name rfl rfl) rfl) (.nil _))

end PrintOfPrint

/-- Names mean what their place says: a function can share its name with a variable. A parenthesis
behind the end mark goes unseen. -/
theorem print_of_print_is_accepted :
    (∀ t ∈ PrintOfPrint.cut.flatten, t.kind ≠ .eof) ∧ Token.nowhere.kind = .eof ∧
      (readTokens? 1 (PrintOfPrint.cut.flatten ++ .nowhere :: [⟨.parenOpen, "(", .nowhere⟩])).map
        Reading.module = some (.ok PrintOfPrint.checked) := by
  have hbefore : ∀ t ∈ PrintOfPrint.cut.flatten, t.kind ≠ .eof := by decide
  exact ⟨hbefore, rfl, ((readTokens?_accepts_iff hbefore rfl 1).1 _).2
    ⟨PrintOfPrint.cut, rfl, PrintOfPrint.spelledAll_cut, rfl, Nat.le_refl 1⟩⟩

end SlotLang
