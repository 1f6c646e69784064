import SlotLang.Event
import SlotLang.Module
import SlotLang.Token.Feed
import SlotLang.Token.Scan

/-!
# From tokens to a checked program

```text
program    := statement*
statement  := NAME ':' TYPE '=' expression | expression
expression := INT | NAME | NAME '(' [expression (',' expression)*] ')'
```

A name is resolved as soon as it is read, against the declarations before it; the value of a
declaration is read before its name is bound, so that `x: int = x` reads the earlier `x`.

A call in the place of a value is read like any other. When it is complete, and so after any fault
inside it, it is refused unless its function yields a value (`Expr.hasValue`).

`arguments` reads the rest of a call, and those of the calls inside it. It goes on behind an inner
call only if that has left fewer tokens than there were; `arguments_eq` shows that it always has,
and says in one equation how the arguments of a call are read.

`readStatements` gives the statements accepted and the fault that stopped it, if any;
`length_lt_of_statement` is why it ends.
-/

namespace SlotLang

/-- The number a literal token spells. A sign other than `-` never makes a number out of range. -/
def Token.integer (t : Token) : Except CompileError Int32 :=
  match (Decimal.integer? t.lexeme.toList).bind Decimal.int32? with
  | some v => .ok v
  | none =>
    let digits := match t.lexeme.toList with
      | '-' :: ds => ds
      | ds => ds
    if (Decimal.natural? digits).isSome then .error (.integerOutOfRange t.lexeme t.span)
    else .error (.invalidLiteral t.lexeme t.span)

/-- The expression a literal token is by itself: a declared name or a number. -/
def Token.atom (t : Token) (r : Registry) : Except CompileError Expr :=
  if t.isIdentifier then
    match r.resolve? t.lexeme with
    | some v => .ok (.read t.lexeme v t.span)
    | none => .error (.undefinedVariable t.lexeme t.span)
  else
    match t.integer with
    | .error e => .error e
    | .ok v => .ok (.int v t.span)

/-- A call whose arguments are being read. -/
structure OpenCall where
  /-- The function called. -/
  builtin : Builtin
  /-- The place of the function's name. -/
  name : Span
  /-- The place of the opening parenthesis. -/
  paren : Span
  /-- Whether the call stands where a value is needed. -/
  asValue : Bool
deriving DecidableEq, Repr

namespace OpenCall

/-- Begin the call of the function that a token names. -/
def ofName (name : Token) (paren : Span) (asValue : Bool) : Except CompileError OpenCall :=
  match Builtin.ofName? name.lexeme with
  | some builtin => .ok ⟨builtin, name.span, paren, asValue⟩
  | none => .error (.unknownFunction name.lexeme name.span)

/-- The call with its arguments. -/
def expr (c : OpenCall) (args : List Expr) : Expr := .call c.builtin args c.name

/-- Complete a call, with `rest` behind it: it must have as many arguments as the function takes,
and must yield a value where one is needed. -/
def close (c : OpenCall) (args : List Expr) (rest : Feed) :
    Except CompileError (List Expr × Feed) :=
  if args.length ≠ c.builtin.arity then
    .error (.wrongArity c.builtin.name c.builtin.arity args.length c.name)
  else if c.asValue && !(c.expr args).hasValue then .error (.voidValue c.builtin.name c.name)
  else .ok (args, rest)

/-- Whether the call goes on behind an argument, with a comma, or ends there. -/
def goesOn (c : OpenCall) (f : Feed) : Except CompileError Bool :=
  match f.peek.kind with
  | .comma => .ok true
  | .parenClose => .ok false
  | .eof => .error (.unclosedParen c.paren)
  | _ => .error (f.unexpected "`,` or `)`")

theorem close_eq_ok {c : OpenCall} {args args' : List Expr} {rest rest' : Feed}
    (h : c.close args rest = .ok (args', rest')) : args' = args ∧ rest' = rest := by
  unfold close at h
  split at h
  · cases h
  · split at h <;> cases h
    exact ⟨rfl, rfl⟩

theorem goesOn_eq_ok_iff {c : OpenCall} {f : Feed} {more : Bool} :
    c.goesOn f = .ok more ↔ f.peek.kind = if more then .comma else .parenClose := by
  constructor
  · intro h
    unfold goesOn at h
    split at h <;> cases h <;> assumption
  · intro h
    cases more <;> simp only [goesOn, h] <;> rfl

end OpenCall

namespace Feed

/-- Whether a call stands next: a name and an opening parenthesis. -/
def atCall (f : Feed) : Bool := f.peek.isIdentifier && f.second.kind = .parenOpen

theorem length_advance_advance_lt {f : Feed} (hp : f.peek.kind = .literal)
    (hs : f.second.kind ≠ .literal) : f.advance.advance.length < f.length := by
  have h := length_pos_of_kind_ne (f := f) (by rw [hp]; exact hs)
  simp only [length_advance]
  omega

theorem second_kind_of_atCall {f : Feed} (h : f.atCall) : f.second.kind = .parenOpen := by
  simp only [atCall, Bool.and_eq_true, decide_eq_true_eq] at h
  exact h.2

theorem length_advance_advance_lt_of_atCall {f : Feed} (h : f.atCall) :
    f.advance.advance.length < f.length := by
  have hliteral : f.peek.kind = .literal := by
    simp only [atCall, Token.isIdentifier, Bool.and_eq_true, decide_eq_true_eq] at h
    exact h.1.1
  refine length_advance_advance_lt hliteral ?_
  simp [second_kind_of_atCall h]

/-- Read the rest of a call behind its opening parenthesis, after the arguments `args`. -/
def arguments (r : Registry) (c : OpenCall) (args : List Expr) (f : Feed) :
    Except CompileError (List Expr × Feed) :=
  if args.isEmpty && f.peek.kind = .parenClose then c.close args f.advance
  else if f.peek.kind = .eof then .error (.unclosedParen c.paren)
  else if _ : f.peek.kind = .literal then
    if _ : f.atCall then
      match OpenCall.ofName f.peek f.second.span true with
      | .error e => .error e
      | .ok inner =>
        match f.advance.advance.arguments r inner [] with
        | .error e => .error e
        | .ok (values, rest) =>
          match c.goesOn rest with
          | .error e => .error e
          | .ok false => c.close (args ++ [inner.expr values]) rest.advance
          | .ok true =>
            if _ : rest.length < f.length then
              rest.advance.arguments r c (args ++ [inner.expr values])
            else .error (.unclosedParen c.paren)
    else
      match f.peek.atom r with
      | .error e => .error e
      | .ok value =>
        match _ : c.goesOn f.advance with
        | .error e => .error e
        | .ok false => c.close (args ++ [value]) f.advance.advance
        | .ok true => f.advance.advance.arguments r c (args ++ [value])
  else .error (f.unexpected "expression")
termination_by f.length
decreasing_by
  · exact length_advance_advance_lt_of_atCall ‹_›
  · rw [length_advance]
    omega
  · refine length_advance_advance_lt ‹f.peek.kind = .literal› ?_
    simp [second, OpenCall.goesOn_eq_ok_iff.1 ‹c.goesOn f.advance = .ok true›]

/-- Read an expression; `asValue` says that a value is needed. -/
def expression (r : Registry) (asValue : Bool) (f : Feed) : Except CompileError (Expr × Feed) :=
  if f.peek.kind ≠ .literal then .error (f.unexpected "expression")
  else if f.atCall then
    match OpenCall.ofName f.peek f.second.span asValue with
    | .error e => .error e
    | .ok c =>
      match f.advance.advance.arguments r c [] with
      | .error e => .error e
      | .ok (args, rest) => .ok (c.expr args, rest)
  else
    match f.peek.atom r with
    | .error e => .error e
    | .ok value => .ok (value, f.advance)

/-- Read the type of a declaration and the equals sign behind it. -/
def declaredType (f : Feed) : Except CompileError (ValueType × Feed) :=
  match f.expect .literal "type name" with
  | .error e => .error e
  | .ok (word, rest) =>
    match ValueType.ofKeyword? word.lexeme with
    | none => .error (.unknownType word.lexeme word.span)
    | some type =>
      match rest.expect .equals "`=`" with
      | .error e => .error e
      | .ok (_, rest) => .ok (type, rest)

/-- Read a declaration; a literal and a colon stand next. -/
def declaration (r : Registry) (f : Feed) : Except CompileError (Stmt × Registry × Feed) :=
  if !f.peek.isIdentifier then .error (f.unexpected "variable name")
  else
    match f.advance.advance.declaredType with
    | .error e => .error e
    | .ok (type, rest) =>
      match rest.expression r true with
      | .error e => .error e
      | .ok (value, rest) =>
        match r.declare? f.peek.lexeme type with
        | none => .error (.tooManyVariables r.capacity f.peek.span)
        | some (v, r') => .ok (.declaration f.peek.lexeme v value f.peek.span, r', rest)

/-- Read a statement. -/
def statement (r : Registry) (f : Feed) : Except CompileError (Stmt × Registry × Feed) :=
  if f.peek.kind ≠ .literal then .error (f.unexpected "statement")
  else if f.second.kind = .colon then f.declaration r
  else
    match f.expression r false with
    | .error e => .error e
    | .ok (e, rest) => .ok (.expr e, r, rest)

/-! ### Reading uses tokens up -/

/-- **Reading gives no token back.** -/
theorem length_arguments {r : Registry} {c : OpenCall} {args args' : List Expr} {f f' : Feed}
    (h : f.arguments r c args = .ok (args', f')) : f'.length ≤ f.length := by
  fun_induction arguments r c args f generalizing args' f' with
  | case1 =>
    rw [(OpenCall.close_eq_ok h).2, length_advance]
    omega
  | case6 c args f _ _ _ _ inner _ values rest hvalues _ ih =>
    have hrest := ih hvalues
    rw [(OpenCall.close_eq_ok h).2]
    simp only [length_advance] at hrest ⊢
    omega
  | case7 c args f _ _ _ _ inner _ values rest hvalues _ hlt _ ih =>
    have hleft := ih h
    simp only [length_advance] at hleft
    omega
  | case11 =>
    rw [(OpenCall.close_eq_ok h).2]
    simp only [length_advance]
    omega
  | case12 c args f _ _ _ _ value _ _ ih =>
    have hleft := ih h
    simp only [length_advance] at hleft
    omega
  | _ => cases h

theorem length_expression {r : Registry} {asValue : Bool} {f f' : Feed} {e : Expr}
    (h : f.expression r asValue = .ok (e, f')) : f'.length ≤ f.length - 1 := by
  unfold expression at h
  repeat' split at h
  all_goals try cases h
  · have := length_arguments ‹_›
    simp only [length_advance] at this
    omega
  · simp

/-- **How the arguments of a call are read**: each is an expression that has to yield a value, and
what stands behind it says whether another one follows. -/
theorem arguments_eq (r : Registry) (c : OpenCall) (args : List Expr) (f : Feed) :
    f.arguments r c args =
      if args.isEmpty && f.peek.kind = .parenClose then c.close args f.advance
      else if f.peek.kind = .eof then .error (.unclosedParen c.paren)
      else
        match f.expression r true with
        | .error e => .error e
        | .ok (value, rest) =>
          match c.goesOn rest with
          | .error e => .error e
          | .ok false => c.close (args ++ [value]) rest.advance
          | .ok true => rest.advance.arguments r c (args ++ [value]) := by
  rw [arguments, expression]
  by_cases hliteral : f.peek.kind = .literal
  · by_cases hcall : f.atCall = true
    · have hlt : f.advance.advance.length < f.length := length_advance_advance_lt_of_atCall hcall
      simp only [hliteral, hcall, dif_pos, ne_eq, not_true_eq_false, if_true, if_false]
      rcases OpenCall.ofName f.peek f.second.span true with e | inner
      · rfl
      · rcases hvalues : f.advance.advance.arguments r inner [] with e | ⟨values, rest⟩
        · simp only [hvalues]
        · have hrest : rest.length < f.length := Nat.lt_of_le_of_lt (length_arguments hvalues) hlt
          simp only [hvalues, hrest, dif_pos]
    · simp only [hliteral, hcall, dif_pos, ne_eq, not_true_eq_false, Bool.false_eq_true, if_false,
        dite_false]
      rcases f.peek.atom r with e | value
      · rfl
      · rcases hmore : c.goesOn f.advance with e | - | - <;> simp only [hmore]
  · simp only [hliteral, dite_false, ne_eq, not_false_eq_true, if_true]

/-- A comma behind an expression leaves fewer tokens than there were. -/
theorem length_lt_of_goesOn {r : Registry} {c : OpenCall} {asValue : Bool} {f rest : Feed}
    {e : Expr} (h : f.expression r asValue = .ok (e, rest)) (hmore : c.goesOn rest = .ok true) :
    rest.advance.length < f.length := by
  have hle := length_expression h
  rw [length_advance]
  rcases f with ⟨- | ⟨t, ts⟩, finish⟩
  · -- the last token is shown again and again, and it is no comma
    have hcomma := OpenCall.goesOn_eq_ok_iff.1 hmore
    simp only [expression, peek, atCall, second, advance, List.headD_nil, List.tail_nil] at h
    grind [peek]
  · simp only [length, List.length_cons] at hle ⊢
    omega

/-- **Induction along the reading of a call**: through the call that stands next, if there is one,
and through what comes behind the next argument. -/
@[elab_as_elim]
theorem arguments_induction {r : Registry} {motive : OpenCall → List Expr → Feed → Prop}
    (step : ∀ (c : OpenCall) (args : List Expr) (f : Feed),
      (f.atCall = true → ∀ inner, motive inner [] f.advance.advance) →
      (∀ value rest, f.expression r true = .ok (value, rest) → c.goesOn rest = .ok true →
        motive c (args ++ [value]) rest.advance) → motive c args f)
    (c : OpenCall) (args : List Expr) (f : Feed) : motive c args f :=
  step c args f (fun _ inner ↦ arguments_induction step inner [] f.advance.advance)
    fun value rest _ _ ↦ arguments_induction step c (args ++ [value]) rest.advance
termination_by f.length
decreasing_by
  · exact length_advance_advance_lt_of_atCall ‹_›
  · exact length_lt_of_goesOn ‹_› ‹_›

theorem length_declaredType {f f' : Feed} {t : ValueType}
    (h : f.declaredType = .ok (t, f')) : f'.length ≤ f.length := by
  unfold declaredType at h
  repeat' split at h
  all_goals cases h
  have h₁ := length_expect ‹f.expect _ _ = _›
  have h₂ := length_expect ‹Feed.expect _ .equals _ = _›
  omega

/-- A statement read from a feed with unread tokens uses at least one of them up. -/
theorem length_lt_of_statement {r r' : Registry} {f f' : Feed} {s : Stmt} (hf : 0 < f.length)
    (h : f.statement r = .ok (s, r', f')) : f'.length < f.length := by
  unfold statement declaration at h
  repeat' split at h
  all_goals try cases h
  · have h₁ := length_declaredType ‹_›
    have h₂ := length_expression ‹_›
    simp only [length_advance] at h₁
    omega
  · have := length_expression ‹_›
    omega

end Feed

/-! ### Whole programs -/

/-- How far reading a program came. -/
structure Reading where
  /-- The statements accepted, in order. -/
  statements : List Stmt
  /-- The declarations made by them. -/
  registry : Registry
  /-- The fault in the statement behind them, if one stopped the reading. -/
  fault : Option CompileError
deriving DecidableEq, Repr

namespace Reading

/-- The program, if no fault stopped the reading. -/
def module (x : Reading) : Except CompileError Module :=
  match x.fault with
  | none => .ok ⟨x.statements, x.registry.slotCount⟩
  | some e => .error e

/-- The record a statement leaves in the log. -/
def event? : Stmt → Option Event
  | .declaration name v _ _ => some (.declared name v.slot)
  | .expr _ => none

/-- The log of the reading: a record per declaration. -/
def events (x : Reading) : List Event := x.statements.filterMap event?

end Reading

/-- Read statements until the unread tokens are used up or a fault is met. -/
def readStatements (r : Registry) (f : Feed) : Reading :=
  if _ : 0 < f.length then
    match _ : f.statement r with
    | .error e => ⟨[], r, some e⟩
    | .ok (s, r', rest) =>
      let reading := readStatements r' rest
      { reading with statements := s :: reading.statements }
  else ⟨[], r, none⟩
termination_by f.length
decreasing_by exact Feed.length_lt_of_statement ‹_› ‹_›

/-- Read a list of tokens as a program for a table of `capacity` slots.

A list without an end mark shows its last token for ever. If that token is no statement the
reading stops there with a fault; if it is one, the reading never ends and there is no answer. -/
def readTokens? (capacity : Nat) (tokens : List Token) : Option Reading :=
  let f := Feed.ofTokens tokens
  let reading := readStatements (.empty capacity) f
  if reading.fault.isSome || f.finish.kind = .eof then some reading
  else
    match Feed.statement reading.registry ⟨[], f.finish⟩ with
    | .error e => some { reading with fault := some e }
    | .ok _ => none

/-- What compiling a source text gives: a checked program or an error, and the log. -/
structure Compilation where
  /-- The checked program, or why there is none. -/
  result : Except CompileError Module
  /-- The records made on the way. -/
  events : List Event

/-- Compile a source text for a table of `capacity` slots, keeping the log. -/
def compilation (source : String) (capacity : Nat) : Compilation :=
  match tokenize source with
  | .error e => ⟨.error e, []⟩
  | .ok tokens =>
    let reading := readStatements (.empty capacity) (.ofTokens tokens)
    ⟨reading.module, reading.events⟩

/-- Compile a source text for a table of `capacity` slots. -/
def compileFor (source : String) (capacity : Nat) : Except CompileError Module :=
  (compilation source capacity).result

end SlotLang
