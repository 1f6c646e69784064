import SlotLang.Module.CText
import SlotLang.Module.Outline
import SlotLang.Program.Run
import SlotLang.Proofs.Grammar
import SlotLang.Proofs.Lexemes

/-!
# Layout carries no meaning

Where the words of a program stand has no influence on what it means. The reader carries spans
along, into the program or into an error, and never looks at one.

To say so, `relocate g` sends every span in a token, a program or an error through a function `g`.
Reading commutes with that, function by function of the reader and in its failures too
(`Feed.arguments_relocate`, `Feed.statement_relocate`, `readStatements_relocate`).

Two texts with the same words are then two relocations of one list of tokens, the one in which each
token stands at its own number. What becomes of that list decides both. It also says where an error
is reported: a span that is no token's could be moved without moving a token (`span_mem_of_fault`).

What becomes of a program depends on even less: a back end sees neither places nor names, but only
`Module.bare`.
-/

namespace SlotLang

/-! ### Relocating -/

/-- The token at another place. -/
def Token.relocate (g : Span → Span) (t : Token) : Token := { t with span := g t.span }

/-- The tokens at other places. -/
def Feed.relocate (g : Span → Span) (f : Feed) : Feed :=
  ⟨f.unread.map (Token.relocate g), f.finish.relocate g⟩

/-- The error at another place. -/
def CompileError.relocate (g : Span → Span) : CompileError → CompileError
  | unexpectedChar c s => unexpectedChar c (g s)
  | unexpectedToken found expected s => unexpectedToken found expected (g s)
  | unclosedParen s => unclosedParen (g s)
  | invalidLiteral lexeme s => invalidLiteral lexeme (g s)
  | integerOutOfRange lexeme s => integerOutOfRange lexeme (g s)
  | unknownType name s => unknownType name (g s)
  | undefinedVariable name s => undefinedVariable name (g s)
  | unknownFunction name s => unknownFunction name (g s)
  | wrongArity name expected found s => wrongArity name expected found (g s)
  | voidValue name s => voidValue name (g s)
  | tooManyVariables capacity s => tooManyVariables capacity (g s)

namespace Expr

mutual

/-- The expression at other places. -/
def relocate (g : Span → Span) : Expr → Expr
  | int value s => int value (g s)
  | read name v s => read name v (g s)
  | call builtin args s => call builtin (relocateList g args) (g s)

/-- The expressions of a list at other places. -/
def relocateList (g : Span → Span) : List Expr → List Expr
  | [] => []
  | e :: es => relocate g e :: relocateList g es

end

theorem relocateList_eq_map (g : Span → Span) (es : List Expr) :
    relocateList g es = es.map (relocate g) := by
  induction es with
  | nil => rfl
  | cons e es ih => rw [relocateList, ih, List.map_cons]

end Expr

/-- The statement at other places. -/
def Stmt.relocate (g : Span → Span) : Stmt → Stmt
  | declaration name v value s => declaration name v (value.relocate g) (g s)
  | expr e => expr (e.relocate g)

/-- The program at other places. -/
def Module.relocate (g : Span → Span) (m : Module) : Module :=
  { m with statements := m.statements.map (Stmt.relocate g) }

/-- The program without its places: two programs that agree without them are equal up to spans. -/
def Module.unplaced (m : Module) : Module := m.relocate fun _ ↦ .nowhere

/-- The error without its place. -/
def CompileError.unplaced (e : CompileError) : CompileError := e.relocate fun _ ↦ .nowhere

/-- The open call at other places. -/
def OpenCall.relocate (g : Span → Span) (c : OpenCall) : OpenCall :=
  { c with name := g c.name, paren := g c.paren }

/-- The reading at other places. -/
def Reading.relocate (g : Span → Span) (x : Reading) : Reading where
  statements := x.statements.map (Stmt.relocate g)
  registry := x.registry
  fault := x.fault.map (CompileError.relocate g)

/-- A result at other places, where `f` relocates a value. -/
def relocated {α β : Type} (g : Span → Span) (f : α → β) :
    Except CompileError α → Except CompileError β
  | .error e => .error (e.relocate g)
  | .ok x => .ok (f x)

variable (g g' : Span → Span)

@[simp]
theorem relocated_error {α β : Type} (f : α → β) (e : CompileError) :
    relocated g f (.error e) = .error (e.relocate g) :=
  rfl

@[simp]
theorem relocated_ok {α β : Type} (f : α → β) (x : α) : relocated g f (.ok x) = .ok (f x) :=
  rfl

/-! ### What back ends see -/

namespace Expr

mutual

/-- The expression without its names and places, which is what a back end sees of it. -/
def bare : Expr → Expr
  | int value _ => int value .nowhere
  | read _ v _ => read "" v .nowhere
  | call builtin args _ => call builtin (bareList args) .nowhere

/-- The expressions of a list without their names and places. -/
def bareList : List Expr → List Expr
  | [] => []
  | e :: es => bare e :: bareList es

end

theorem bareList_eq_map (es : List Expr) : bareList es = es.map bare := by
  induction es with
  | nil => rfl
  | cons e es ih => rw [bareList, ih, List.map_cons]

mutual

theorem toC_bare : ∀ e : Expr, e.bare.toC = e.toC
  | int .. | read .. => rfl
  | call builtin args s => by rw [bare, toC, toC, listToC_bareList args]

theorem listToC_bareList : ∀ es : List Expr, listToC (bareList es) = listToC es
  | [] => rfl
  | e :: es => by rw [bareList, listToC, listToC, toC_bare e, listToC_bareList es]

end

theorem operand_bare (e : Expr) : e.bare.operand = e.operand := by
  cases e <;> rfl

end Expr

namespace Stmt

/-- The statement without its names and places. -/
def bare : Stmt → Stmt
  | declaration _ v value _ => declaration "" v value.bare .nowhere
  | expr e => expr e.bare

theorem toC_bare (s : Stmt) : s.bare.toC = s.toC := by
  cases s with
  | declaration name v value span =>
    unfold bare toC
    simp only [Expr.toC_bare]
  | expr e => exact congrArg (· ++ ";") e.toC_bare

theorem instrs_bare (s : Stmt) : s.bare.instrs = s.instrs := by
  rcases s with ⟨name, v, value, span⟩ | (⟨v, span⟩ | ⟨name, v, span⟩ | ⟨builtin, args, span⟩)
  · simp only [bare, instrs, Expr.operand_bare]
  · rfl
  · rfl
  · simp only [bare, Expr.bare, instrs, Expr.bareList_eq_map, List.map_map]
    exact congrArg (fun ops ↦ [Instr.call builtin ops])
      (List.map_congr_left fun e _ ↦ e.operand_bare)

end Stmt

namespace Module

/-- The program without its names and places. -/
def bare (m : Module) : Module := { m with statements := m.statements.map Stmt.bare }

/-- **Lowering sees neither names nor places.** -/
theorem lower_bare (m : Module) : m.bare.lower = m.lower := by
  simp only [lower, bare, List.flatMap_map, Stmt.instrs_bare]

/-- **Nor does the C text.** -/
theorem cBody_bare (m : Module) : m.bare.cBody = m.cBody := by
  have hmap : (m.statements.map Stmt.bare).map Stmt.toC = m.statements.map Stmt.toC := by
    rw [List.map_map]
    exact List.map_congr_left fun s _ ↦ s.toC_bare
  rw [cBody, cBody, bare, List.isEmpty_map, hmap]

end Module

/-! ### Programs do not show their places -/

namespace Expr

mutual

theorem outline_relocate (level : Nat) : ∀ e : Expr, (e.relocate g).outline level = e.outline level
  | int .. | read .. => rfl
  | call builtin args s => by
    rw [relocate, outline, outline, outlineList_relocateList (level + 1) args]

theorem outlineList_relocateList (level : Nat) :
    ∀ es : List Expr, outlineList level (relocateList g es) = outlineList level es
  | [] => rfl
  | e :: es => by
    rw [relocateList, outlineList, outlineList, outline_relocate level e,
      outlineList_relocateList level es]

end

mutual

theorem bare_relocate : ∀ e : Expr, (e.relocate g).bare = e.bare
  | int .. | read .. => rfl
  | call builtin args s => by rw [relocate, bare, bare, bareList_relocateList args]

theorem bareList_relocateList : ∀ es : List Expr, bareList (relocateList g es) = bareList es
  | [] => rfl
  | e :: es => by
    rw [relocateList, bareList, bareList, bare_relocate e, bareList_relocateList es]

end

mutual

theorem relocate_relocate : ∀ e : Expr, (e.relocate g).relocate g' = e.relocate (g' ∘ g)
  | int .. | read .. => rfl
  | call builtin args s => by
    rw [relocate, relocate, relocate, relocateList_relocateList args]
    rfl

theorem relocateList_relocateList :
    ∀ es : List Expr, relocateList g' (relocateList g es) = relocateList (g' ∘ g) es
  | [] => rfl
  | e :: es => by
    rw [relocateList, relocateList, relocateList, relocate_relocate e,
      relocateList_relocateList es]

end

end Expr

namespace Stmt

theorem relocate_relocate (s : Stmt) : (s.relocate g).relocate g' = s.relocate (g' ∘ g) := by
  cases s <;> simp only [relocate, Expr.relocate_relocate, Function.comp_apply]

theorem outline_relocate (s : Stmt) : (s.relocate g).outline = s.outline := by
  cases s <;> simp only [relocate, outline, Expr.outline_relocate]

theorem bare_relocate (s : Stmt) : (s.relocate g).bare = s.bare := by
  cases s <;> simp only [relocate, bare, Expr.bare_relocate]

end Stmt

namespace Module

variable (m : Module)

theorem unplaced_relocate : (m.relocate g).unplaced = m.unplaced := by
  simp only [unplaced, relocate, List.map_map]
  exact congrArg (Module.mk · m.slotCount) (List.map_congr_left fun s _ ↦ s.relocate_relocate g _)

theorem bare_relocate : (m.relocate g).bare = m.bare := by
  simp only [bare, relocate, List.map_map]
  exact congrArg (Module.mk · m.slotCount) (List.map_congr_left fun s _ ↦ s.bare_relocate g)

theorem lower_relocate : (m.relocate g).lower = m.lower := by
  rw [← lower_bare, bare_relocate, lower_bare]

theorem cBody_relocate : (m.relocate g).cBody = m.cBody := by
  rw [← cBody_bare, bare_relocate, cBody_bare]

theorem outline_relocate : (m.relocate g).outline = m.outline := by
  have hmap : (m.statements.map (Stmt.relocate g)).map Stmt.outline =
      m.statements.map Stmt.outline := by
    rw [List.map_map]
    exact List.map_congr_left fun s _ ↦ s.outline_relocate g
  rw [outline, outline, relocate, hmap]

end Module

namespace CompileError

variable (e : CompileError)

theorem unplaced_relocate : (e.relocate g).unplaced = e.unplaced := by
  cases e <;> rfl

theorem span_relocate : (e.relocate g).span = g e.span := by
  cases e <;> rfl

end CompileError

/-! ### Reading commutes -/

namespace Token

variable (t : Token)

@[simp]
theorem kind_relocate : (t.relocate g).kind = t.kind :=
  rfl

@[simp]
theorem lexeme_relocate : (t.relocate g).lexeme = t.lexeme :=
  rfl

@[simp]
theorem span_relocate : (t.relocate g).span = g t.span :=
  rfl

@[simp]
theorem isIdentifier_relocate : (t.relocate g).isIdentifier = t.isIdentifier :=
  rfl

end Token

namespace Feed

variable (f : Feed)

@[simp]
theorem peek_relocate : (f.relocate g).peek = f.peek.relocate g := by
  rcases f with ⟨_ | ⟨t, ts⟩, finish⟩ <;> rfl

@[simp]
theorem advance_relocate : (f.relocate g).advance = f.advance.relocate g := by
  rcases f with ⟨_ | ⟨t, ts⟩, finish⟩ <;> rfl

theorem length_relocate : (f.relocate g).length = f.length :=
  List.length_map ..

@[simp]
theorem second_relocate : (f.relocate g).second = f.second.relocate g := by
  rw [second, advance_relocate, peek_relocate, second]

@[simp]
theorem atCall_relocate : (f.relocate g).atCall = f.atCall := by
  rw [atCall, peek_relocate, second_relocate]
  rfl

@[simp]
theorem unexpected_relocate (expected : String) :
    (f.relocate g).unexpected expected = (f.unexpected expected).relocate g := by
  rw [unexpected, peek_relocate]
  rfl

theorem expect_relocate (kind : TokenKind) (expected : String) :
    (f.relocate g).expect kind expected =
      relocated g (fun x ↦ (x.1.relocate g, x.2.relocate g)) (f.expect kind expected) := by
  simp only [expect, peek_relocate, advance_relocate, unexpected_relocate]
  show (if f.peek.kind = kind then _ else _) = _
  split <;> rfl

end Feed

theorem Token.integer_relocate (t : Token) :
    (t.relocate g).integer = relocated g id t.integer := by
  simp only [Token.integer, Token.relocate]
  cases (Decimal.integer? t.lexeme.toList).bind Decimal.int32? with
  | some v => rfl
  | none =>
    rw [apply_ite (relocated g id)]
    rfl

theorem Token.atom_relocate (t : Token) (r : Registry) :
    (t.relocate g).atom r = relocated g (Expr.relocate g) (t.atom r) := by
  simp only [Token.atom, isIdentifier_relocate, lexeme_relocate, span_relocate,
    Token.integer_relocate]
  split
  · rcases r.resolve? t.lexeme with - | v <;> rfl
  · rcases t.integer with e | v <;> rfl

namespace OpenCall

theorem ofName_relocate (name : Token) (paren : Span) (asValue : Bool) :
    ofName (name.relocate g) (g paren) asValue =
      relocated g (relocate g) (ofName name paren asValue) := by
  simp only [ofName, Token.lexeme_relocate, Token.span_relocate]
  rcases Builtin.ofName? name.lexeme with - | builtin <;> rfl

theorem expr_relocate (c : OpenCall) (args : List Expr) :
    (c.relocate g).expr (args.map (Expr.relocate g)) = (c.expr args).relocate g := by
  rw [expr, expr, Expr.relocate, Expr.relocateList_eq_map]
  rfl

theorem close_relocate (c : OpenCall) (args : List Expr) (rest : Feed) :
    (c.relocate g).close (args.map (Expr.relocate g)) (rest.relocate g) =
      relocated g (fun x ↦ (x.1.map (Expr.relocate g), x.2.relocate g)) (c.close args rest) := by
  rw [close, close, List.length_map]
  show (if args.length ≠ c.builtin.arity then _
    else if (c.asValue && !(c.expr args).hasValue) = true then _ else _) = _
  split
  · rfl
  · split <;> rfl

theorem goesOn_relocate (c : OpenCall) (f : Feed) :
    (c.relocate g).goesOn (f.relocate g) = relocated g id (c.goesOn f) := by
  simp only [goesOn, Feed.peek_relocate, Token.kind_relocate, Feed.unexpected_relocate]
  cases f.peek.kind <;> rfl

end OpenCall

namespace Feed

/-- Reading an expression commutes, if reading behind the parenthesis of a call does. -/
theorem expression_relocate_of_arguments (r : Registry) (asValue : Bool) (f : Feed)
    (hargs : f.atCall = true → ∀ c : OpenCall,
      (f.advance.advance.relocate g).arguments r (c.relocate g) [] =
        relocated g (fun x ↦ (x.1.map (Expr.relocate g), x.2.relocate g))
          (f.advance.advance.arguments r c [])) :
    (f.relocate g).expression r asValue =
      relocated g (fun x ↦ (x.1.relocate g, x.2.relocate g)) (f.expression r asValue) := by
  unfold expression
  simp only [peek_relocate, second_relocate, advance_relocate, atCall_relocate,
    unexpected_relocate, Token.kind_relocate, Token.span_relocate, OpenCall.ofName_relocate,
    Token.atom_relocate]
  split
  · rfl
  · split
    · rename_i hcall
      rcases OpenCall.ofName f.peek f.second.span asValue with e | c
      · rfl
      · simp only [relocated_ok, hargs hcall c]
        rcases f.advance.advance.arguments r c [] with e | ⟨args, rest⟩
        · rfl
        · simp only [relocated_ok, OpenCall.expr_relocate]
    · rcases f.peek.atom r with e | value <;> rfl

/-- **Reading the rest of a call**, along the recursion of the reader. -/
theorem arguments_relocate (r : Registry) (c : OpenCall) (args : List Expr) (f : Feed) :
    (f.relocate g).arguments r (c.relocate g) (args.map (Expr.relocate g)) =
      relocated g (fun x ↦ (x.1.map (Expr.relocate g), x.2.relocate g)) (f.arguments r c args) := by
  induction c, args, f using arguments_induction (r := r) with
  | step c args f inner next =>
    have hvalue := expression_relocate_of_arguments g r true f inner
    rw [arguments_eq, arguments_eq r c args f]
    simp only [peek_relocate, advance_relocate, Token.kind_relocate, List.isEmpty_map, hvalue]
    split
    · exact OpenCall.close_relocate g c args f.advance
    · split
      · rfl
      · rcases hrest : f.expression r true with e | ⟨value, rest⟩
        · rfl
        · simp only [relocated_ok, OpenCall.goesOn_relocate]
          rcases hmore : c.goesOn rest with e | - | -
          · rfl
          · simpa using OpenCall.close_relocate g c (args ++ [value]) rest.advance
          · simpa using next value rest hrest hmore

theorem expression_relocate (r : Registry) (asValue : Bool) (f : Feed) :
    (f.relocate g).expression r asValue =
      relocated g (fun x ↦ (x.1.relocate g, x.2.relocate g)) (f.expression r asValue) :=
  expression_relocate_of_arguments g r asValue f fun _ c ↦
    arguments_relocate g r c [] f.advance.advance

theorem declaredType_relocate (f : Feed) :
    (f.relocate g).declaredType = relocated g (fun x ↦ (x.1, x.2.relocate g)) f.declaredType := by
  unfold declaredType
  rw [expect_relocate]
  rcases f.expect .literal "type name" with e | ⟨word, rest⟩
  · rfl
  · simp only [relocated_ok, Token.lexeme_relocate, expect_relocate]
    cases ValueType.ofKeyword? word.lexeme with
    | none => rfl
    | some type => rcases rest.expect .equals "`=`" with e | ⟨sign, rest⟩ <;> rfl

theorem declaration_relocate (r : Registry) (f : Feed) :
    (f.relocate g).declaration r =
      relocated g (fun x ↦ (x.1.relocate g, x.2.1, x.2.2.relocate g)) (f.declaration r) := by
  unfold declaration
  simp only [peek_relocate, advance_relocate, unexpected_relocate, Token.isIdentifier_relocate,
    Token.lexeme_relocate, Token.span_relocate, declaredType_relocate]
  split
  · rfl
  · rcases f.advance.advance.declaredType with e | ⟨type, rest⟩
    · rfl
    · simp only [relocated_ok, expression_relocate]
      rcases rest.expression r true with e | ⟨value, rest⟩
      · rfl
      · simp only [relocated_ok]
        rcases r.declare? f.peek.lexeme type with - | ⟨v, r'⟩ <;> rfl

/-- **Reading a statement.** -/
theorem statement_relocate (r : Registry) (f : Feed) :
    (f.relocate g).statement r =
      relocated g (fun x ↦ (x.1.relocate g, x.2.1, x.2.2.relocate g)) (f.statement r) := by
  unfold statement
  simp only [peek_relocate, second_relocate, unexpected_relocate, Token.kind_relocate,
    declaration_relocate, expression_relocate]
  split
  · rfl
  · split
    · rfl
    · rcases f.expression r false with e | ⟨e, rest⟩ <;> rfl

end Feed

/-- **Reading a program**, statement by statement. -/
theorem readStatements_relocate (r : Registry) (f : Feed) :
    readStatements r (f.relocate g) = (readStatements r f).relocate g := by
  fun_induction readStatements r f with
  | case1 r f hlength e herror =>
    rw [readStatements_of_error (by rwa [Feed.length_relocate])]
    · rfl
    · rw [Feed.statement_relocate, herror, relocated_error]
  | case2 r f hlength s r' rest hok reading ih =>
    rw [readStatements_of_ok (by rwa [Feed.length_relocate])]
    · rw [ih]
      rfl
    · rw [Feed.statement_relocate, hok, relocated_ok]
  | case3 r f hlength =>
    rw [readStatements, dif_neg (by rwa [Feed.length_relocate])]
    rfl

/-- A list of tokens that has one shows the same words wherever they stand. -/
theorem Feed.ofTokens_relocate {ts : List Token} (h : ts ≠ []) :
    Feed.ofTokens (ts.map (Token.relocate g)) = (Feed.ofTokens ts).relocate g := by
  obtain ⟨t, ht⟩ : ∃ t, (ts.find? (·.kind = .eof)).or ts.getLast? = some t := by
    rw [List.getLast?_eq_some_getLast h]
    exact ⟨_, Option.or_some⟩
  have hfinish : ((ts.map (Token.relocate g)).find? (·.kind = .eof)).or
      (ts.map (Token.relocate g)).getLast? = some (t.relocate g) := by
    rw [List.find?_map, List.getLast?_map, ← Option.map_or]
    exact congrArg (Option.map (Token.relocate g)) ht
  rw [ofTokens, ofTokens, hfinish, ht, List.takeWhile_map]
  rfl

theorem Reading.module_relocate (x : Reading) :
    (x.relocate g).module = relocated g (Module.relocate g) x.module := by
  rcases x with ⟨statements, r, - | e⟩ <;> rfl

/-- The program that a list of tokens is, for a table of `capacity` slots. -/
def readModule (capacity : Nat) (ts : List Token) : Except CompileError Module :=
  (readStatements (.empty capacity) (.ofTokens ts)).module

/-- **Reading commutes with relocating**: the places of the tokens go into the places of what is
read, and have no other influence. -/
theorem readModule_relocate {ts : List Token} (h : ts ≠ []) (capacity : Nat) :
    readModule capacity (ts.map (Token.relocate g)) =
      relocated g (Module.relocate g) (readModule capacity ts) := by
  rw [readModule, Feed.ofTokens_relocate g h, readStatements_relocate, Reading.module_relocate]
  rfl

/-- A fault is reported at a token. If its span were no token's, the fault could be moved while all
tokens stay, and the same tokens would have two readings. -/
theorem span_mem_of_fault {r : Registry} {f : Feed} {e : CompileError}
    (h : (readStatements r f).fault = some e) :
    e.span ∈ (f.unread ++ [f.finish]).map Token.span := by
  refine Decidable.byContradiction fun hspan ↦ ?_
  let g : Span → Span := fun s ↦ if s = e.span then { s with line := s.line + 1 } else s
  have hstay : ∀ t ∈ f.unread ++ [f.finish], t.relocate g = t := by
    intro t ht
    have hne : t.span ≠ e.span := fun heq ↦ hspan (heq ▸ List.mem_map_of_mem ht)
    show { t with span := g t.span } = t
    rw [show g t.span = t.span from if_neg hne]
  have hfeed : f.relocate g = f := by
    have hunread : f.unread.map (Token.relocate g) = f.unread :=
      (List.map_congr_left fun t ht ↦ hstay t (List.mem_append_left _ ht)).trans (List.map_id _)
    rw [Feed.relocate, hunread, hstay f.finish (by simp)]
  have hmove : some (e.relocate g) = some e := by
    have hread := congrArg Reading.fault (readStatements_relocate g r f)
    rw [hfeed, Reading.relocate, h] at hread
    exact hread.symm
  have hline : e.span.line + 1 = e.span.line := by
    have hspan := congrArg CompileError.span (Option.some.inj hmove)
    rw [CompileError.span_relocate, show g e.span = _ from if_pos rfl] at hspan
    exact congrArg Span.line hspan
  omega

/-- What a reader sees of a list of tokens is in the list, unless the list is empty. -/
theorem Feed.mem_of_mem_ofTokens {ts : List Token} (hne : ts ≠ []) {t : Token}
    (h : t ∈ (Feed.ofTokens ts).unread ++ [(Feed.ofTokens ts).finish]) : t ∈ ts := by
  rcases List.mem_append.1 h with hunread | hfinish
  · exact (List.takeWhile_sublist _).subset hunread
  · obtain rfl := List.mem_singleton.1 hfinish
    rw [Feed.ofTokens]
    cases hmark : ts.find? (·.kind = .eof) with
    | some last => exact List.mem_of_find?_eq_some hmark
    | none =>
      rw [Option.none_or, List.getLast?_eq_some_getLast hne]
      exact List.getLast_mem hne

/-- An error is reported at a token. -/
theorem span_mem_of_error {ts : List Token} (hne : ts ≠ []) {capacity : Nat} {e : CompileError}
    (h : readModule capacity ts = .error e) : e.span ∈ ts.map Token.span := by
  have hfault : (readStatements (.empty capacity) (.ofTokens ts)).fault = some e := by
    rw [readModule, Reading.module] at h
    split at h
    · cases h
    · rename_i heq
      rw [heq, Except.error.inj h]
  obtain ⟨t, ht, hspan⟩ := List.mem_map.1 (span_mem_of_fault hfault)
  exact List.mem_map.2 ⟨t, Feed.mem_of_mem_ofTokens hne ht, hspan⟩

/-! ### Numbered tokens -/

/-- What a token is, without its place. -/
def Token.word (t : Token) : TokenKind × String := (t.kind, t.lexeme)

/-- Words as tokens, each with its number for a place. -/
def numbered (words : List (TokenKind × String)) : List Token :=
  words.mapIdx fun k x ↦ ⟨x.1, x.2, 0, 0, k, 0⟩

/-- The place of the token with the number that a span gives. -/
def placeIn (ts : List Token) (s : Span) : Span := (ts[s.offset]?.map Token.span).getD .nowhere

theorem placeIn_of_getElem? {ts : List Token} {k : Nat} {t : Token} (h : ts[k]? = some t) :
    placeIn ts ⟨0, 0, k, 0⟩ = t.span := by
  rw [placeIn, h]
  rfl

/-- A list of tokens is made of its numbered words by putting them in their places. -/
theorem numbered_relocate (ts : List Token) :
    (numbered (ts.map Token.word)).map (Token.relocate (placeIn ts)) = ts := by
  refine List.ext_getElem? fun k ↦ ?_
  rw [List.getElem?_map, numbered, List.getElem?_mapIdx, List.getElem?_map]
  rcases hk : ts[k]? with - | t
  · rfl
  · show some { t with span := placeIn ts ⟨0, 0, k, 0⟩ } = some t
    rw [placeIn_of_getElem? hk]

theorem numbered_ne_nil {ts : List Token} (h : ts ≠ []) : numbered (ts.map Token.word) ≠ [] := by
  rw [numbered, Ne, List.mapIdx_eq_nil_iff, List.map_eq_nil_iff]
  exact h

theorem exists_of_mem_span_numbered {words : List (TokenKind × String)} {s : Span}
    (h : s ∈ (numbered words).map Token.span) : ∃ k < words.length, s = ⟨0, 0, k, 0⟩ := by
  obtain ⟨t, ht, rfl⟩ := List.mem_map.1 h
  obtain ⟨k, hk, rfl⟩ := List.mem_mapIdx.1 ht
  exact ⟨k, hk, rfl⟩

/-! ### Texts with the same words -/

theorem ne_nil_of_tokenize {source : String} {ts : List Token} (h : tokenize source = .ok ts) :
    ts ≠ [] := by
  obtain ⟨ps, hcut, -, rfl⟩ := cutsInto_of_scan h
  exact fun hnil ↦ hcut.ne_nil (List.map_eq_nil_iff.1 hnil)

/-- What a text compiles to is what its numbered words are read as, put in place. -/
theorem compileFor_eq_relocated {source : String} {ts : List Token}
    (h : tokenize source = .ok ts) (capacity : Nat) :
    compileFor source capacity = relocated (placeIn ts) (Module.relocate (placeIn ts))
      (readModule capacity (numbered (ts.map Token.word))) := by
  rw [← readModule_relocate _ (numbered_ne_nil (ne_nil_of_tokenize h)), numbered_relocate,
    compileFor, compilation, h]
  rfl

/-- **Layout carries no meaning.** Take two texts that are cut into the same words, wherever these
stand and whatever blanks, line breaks and comments are between them, and any capacity. Either both
compile, to programs that are equal up to spans and so are lowered, written in C, outlined and run
in the same way; or both are refused, for the same reason, and each error is reported at one token
of its text, which has the same number in both. -/
theorem layout_carries_no_meaning {source source' : String} {ts ts' : List Token}
    (hs : tokenize source = .ok ts) (hs' : tokenize source' = .ok ts')
    (hsame : ts.map Token.word = ts'.map Token.word) (capacity : Nat) :
    (∃ m m' : Module, compileFor source capacity = .ok m ∧ compileFor source' capacity = .ok m' ∧
        m.unplaced = m'.unplaced ∧ m.lower = m'.lower ∧ m.cBody = m'.cBody ∧
        m.outline = m'.outline ∧
        ∀ (a : Allocator) (w : Writer) (t : Table),
          m.lower.execute a w t = m'.lower.execute a w t) ∨
      ∃ e e' : CompileError, compileFor source capacity = .error e ∧
        compileFor source' capacity = .error e' ∧ e.unplaced = e'.unplaced ∧
        ∃ (k : Nat) (t t' : Token), ts[k]? = some t ∧ ts'[k]? = some t' ∧
          e.span = t.span ∧ e'.span = t'.span := by
  rw [compileFor_eq_relocated hs, compileFor_eq_relocated hs', ← hsame]
  rcases hread : readModule capacity (numbered (ts.map Token.word)) with e | m
  · have hne : numbered (ts.map Token.word) ≠ [] := numbered_ne_nil (ne_nil_of_tokenize hs)
    obtain ⟨k, hk, hspan⟩ := exists_of_mem_span_numbered (span_mem_of_error hne hread)
    obtain ⟨t, ht⟩ : ∃ t, ts[k]? = some t :=
      ⟨_, List.getElem?_eq_getElem (List.length_map Token.word ▸ hk)⟩
    obtain ⟨t', ht'⟩ : ∃ t', ts'[k]? = some t' :=
      ⟨_, List.getElem?_eq_getElem (List.length_map Token.word ▸ hsame ▸ hk)⟩
    refine .inr ⟨_, _, rfl, rfl, ?_, k, t, t', ht, ht', ?_, ?_⟩
    · rw [CompileError.unplaced_relocate, CompileError.unplaced_relocate]
    · rw [CompileError.span_relocate, hspan, placeIn_of_getElem? ht]
    · rw [CompileError.span_relocate, hspan, placeIn_of_getElem? ht']
  · have hlower : (m.relocate (placeIn ts)).lower = (m.relocate (placeIn ts')).lower := by
      rw [Module.lower_relocate, Module.lower_relocate]
    refine .inl ⟨_, _, rfl, rfl, ?_, hlower, ?_, ?_, fun a w t ↦ by rw [hlower]⟩
    · rw [Module.unplaced_relocate, Module.unplaced_relocate]
    · rw [Module.cBody_relocate, Module.cBody_relocate]
    · rw [Module.outline_relocate, Module.outline_relocate]

/-- A parenthesis that is never closed, on one line and behind a comment: both errors name the
second token. -/
theorem unclosed_paren_behind_comment :
    ∃ ts ts' : List Token, tokenize "print(1" = .ok ts ∧ tokenize "print # one\n  (1 " = .ok ts' ∧
      ts.map Token.word = ts'.map Token.word ∧
      ∃ e e' : CompileError, compileFor "print(1" 4 = .error e ∧
        compileFor "print # one\n  (1 " 4 = .error e' ∧ e.unplaced = e'.unplaced ∧
        ∃ (k : Nat) (t t' : Token), ts[k]? = some t ∧ ts'[k]? = some t' ∧
          e.span = t.span ∧ e'.span = t'.span := by
  have hline : tokenize "print(1" = .ok
      [⟨.literal, "print", 1, 1, 0, 5⟩, ⟨.parenOpen, "(", 1, 6, 5, 1⟩, ⟨.literal, "1", 1, 7, 6, 1⟩,
        ⟨.eof, "", 1, 8, 7, 0⟩] := by
    decide +kernel
  have hcomment : tokenize "print # one\n  (1 " = .ok
      [⟨.literal, "print", 1, 1, 0, 5⟩, ⟨.parenOpen, "(", 2, 3, 14, 1⟩,
        ⟨.literal, "1", 2, 4, 15, 1⟩, ⟨.eof, "", 2, 6, 17, 0⟩] := by
    decide +kernel
  refine ⟨_, _, hline, hcomment, rfl, ?_⟩
  rcases layout_carries_no_meaning hline hcomment rfl 4 with ⟨m, -, hm, -⟩ | herror
  · have hfails : (compileFor "print(1" 4).toOption = none := by decide +kernel
    rw [hm] at hfails
    cases hfails
  · exact herror

end SlotLang
