import Mathlib.Logic.Embedding.Basic
import Mathlib.Logic.Equiv.Basic
import SlotLang.Proofs.Culprits
import SlotLang.Proofs.Layout

/-!
# Names do not reach the back ends

Variables can be given other names, as long as two of them never get the same one. The new name may
be that of a function or of a type, since what a word means depends on its place: a word behind a
colon is a type, a word before a parenthesis is a function, and any other is a variable.

`renameTokens` goes by these places and knows nothing of the program. That it finds the variables of
a program, and only them, is shown along the cut of the program into statements
(`Stmt.SpelledAll.rename`). Reading the renamed tokens then needs no second look at the reader: a
cut is all that it asks for.

A name is looked up among the declarations before it. Since the new names are as different as the
old ones were, the new name finds the declaration that the old one found (`Stmt.latest?_rename`).
-/

namespace SlotLang

/-! ### Renaming -/

/-- A text that can name a variable. -/
structure Name where
  /-- The characters of the name. -/
  text : String
  /-- They are those of a name. -/
  valid : isName text = true
deriving DecidableEq

/-- What a text becomes under a renaming: another name if it is a name, and itself if it is not. -/
def respell (r : Name ↪ Name) (text : String) : String :=
  if h : isName text = true then (r ⟨text, h⟩).text else text

/-- The token with its name replaced. -/
def Token.rename (r : Name ↪ Name) (t : Token) : Token :=
  if t.kind = .literal then { t with lexeme := respell r t.lexeme } else t

/-- The tokens with their variables renamed, behind a token of the kind `before`. A literal behind a
colon is a type, and one before a parenthesis is a function: these keep their names. -/
def renameTokens (r : Name ↪ Name) (before : Option TokenKind) : List Token → List Token
  | [] => []
  | t :: ts =>
    (if before = some .colon ∨ ts.head?.map Token.kind = some .parenOpen then t else t.rename r) ::
      renameTokens r (some t.kind) ts

namespace Expr

mutual

/-- The expression with its variables renamed. -/
def rename (r : Name ↪ Name) : Expr → Expr
  | int value s => int value s
  | read name v s => read (respell r name) v s
  | call builtin args s => call builtin (renameList r args) s

/-- The expressions of a list with their variables renamed. -/
def renameList (r : Name ↪ Name) : List Expr → List Expr
  | [] => []
  | e :: es => rename r e :: renameList r es

end

end Expr

/-- The statement with its variables renamed. -/
def Stmt.rename (r : Name ↪ Name) : Stmt → Stmt
  | declaration name v value s => declaration (respell r name) v (value.rename r) s
  | expr e => expr (e.rename r)

/-- The program with its variables renamed. -/
def Module.rename (r : Name ↪ Name) (m : Module) : Module :=
  { m with statements := m.statements.map (Stmt.rename r) }

variable (r : Name ↪ Name)

/-! ### Back ends do not see it -/

namespace Expr

mutual

theorem bare_rename : ∀ e : Expr, (e.rename r).bare = e.bare
  | int .. | read .. => rfl
  | call builtin args s => by rw [rename, bare, bare, bareList_renameList args]

theorem bareList_renameList : ∀ es : List Expr, bareList (renameList r es) = bareList es
  | [] => rfl
  | e :: es => by rw [renameList, bareList, bareList, bare_rename e, bareList_renameList es]

end

end Expr

theorem Stmt.bare_rename (s : Stmt) : (s.rename r).bare = s.bare := by
  cases s <;> simp only [rename, bare, Expr.bare_rename]

theorem Module.bare_rename (m : Module) : (m.rename r).bare = m.bare := by
  simp only [bare, rename, List.map_map]
  exact congrArg (Module.mk · m.slotCount) (List.map_congr_left fun s _ ↦ s.bare_rename r)

/-! ### New names are as different as the old ones -/

theorem isName_respell (text : String) : isName (respell r text) = isName text := by
  rw [respell]
  split
  · rename_i h
    rw [h, Name.valid]
  · rfl

/-- Two texts that become the same were the same: names go to names, and no two to the same. -/
theorem respell_inj {text text' : String} : respell r text = respell r text' ↔ text = text' := by
  refine ⟨fun heq ↦ ?_, congrArg _⟩
  have hname : isName text = isName text' := by
    rw [← isName_respell r text, heq, isName_respell]
  by_cases h : isName text = true
  · have h' : isName text' = true := hname ▸ h
    rw [respell, respell, dif_pos h, dif_pos h'] at heq
    have hsame : r ⟨text, h⟩ = r ⟨text', h'⟩ := by
      rcases hr : r ⟨text, h⟩ with ⟨a, ha⟩
      rcases hr' : r ⟨text', h'⟩ with ⟨b, hb⟩
      rw [hr, hr'] at heq
      obtain rfl : a = b := heq
      rfl
    exact congrArg Name.text (r.injective hsame)
  · rwa [respell, respell, dif_neg h, dif_neg (hname ▸ h)] at heq

namespace Stmt

theorem declared?_rename (s : Stmt) : (s.rename r).declared? = s.declared? := by
  cases s <;> rfl

theorem filterMap_declared?_rename (ss : List Stmt) :
    (ss.map (rename r)).filterMap declared? = ss.filterMap declared? := by
  rw [List.filterMap_map]
  exact congrArg (List.filterMap · ss) (funext (declared?_rename r))

theorem binds?_rename (name : String) (s : Stmt) :
    (s.rename r).binds? (respell r name) = s.binds? name := by
  cases s with
  | declaration other v value span => simp only [rename, binds?, respell_inj]
  | expr e => rfl

/-- **The new name finds what the old one found.** -/
theorem latest?_rename (name : String) (ss : List Stmt) :
    latest? (respell r name) (ss.map (rename r)) = latest? name ss := by
  induction ss with
  | nil => rfl
  | cons s ss ih => rw [List.map_cons, latest?_cons, latest?_cons, ih, binds?_rename]

end Stmt

/-! ### Tokens of variables -/

namespace Token

variable (t : Token)

@[simp]
theorem kind_rename : (t.rename r).kind = t.kind := by
  rw [rename]
  split <;> rfl

@[simp]
theorem span_rename : (t.rename r).span = t.span := by
  rw [rename]
  split <;> rfl

variable {t}

theorem lexeme_rename (h : t.kind = .literal) : (t.rename r).lexeme = respell r t.lexeme := by
  rw [rename, if_pos h]

theorem rename_of_ne (h : t.kind ≠ .literal) : t.rename r = t := if_neg h

theorem isIdentifier_rename (h : t.isIdentifier = true) : (t.rename r).isIdentifier = true := by
  have hliteral := kind_of_isIdentifier h
  rw [isIdentifier, Bool.and_eq_true] at h ⊢
  rw [kind_rename, lexeme_rename r hliteral, isName_respell]
  exact h

/-- An atom that is renamed is the expression renamed: a name finds its declaration, and a number
is no name. -/
theorem Atom.rename {earlier : List Stmt} {e : Expr} (h : t.Atom earlier e) :
    (t.rename r).Atom (earlier.map (Stmt.rename r)) (e.rename r) := by
  cases h with
  | @name v hname hv =>
    have hlexeme := lexeme_rename r (kind_of_isIdentifier hname)
    have hlatest : Stmt.latest? (t.rename r).lexeme (earlier.map (Stmt.rename r)) = some v := by
      rw [hlexeme, Stmt.latest?_rename, hv]
    have hatom := Atom.name (isIdentifier_rename r hname) hlatest
    rwa [hlexeme, span_rename] at hatom
  | number hkind hname hv =>
    have hstay : t.rename r = t := by
      rw [Token.rename, if_pos hkind, respell, dif_neg (by simp [hname])]
    rw [hstay]
    exact .number hkind hname hv

end Token

/-! ### Programs -/

section Cuts

variable {before : Option TokenKind} {earlier : List Stmt}

theorem renameTokens_of_variable {t : Token} {ts : List Token} (hbefore : before ≠ some .colon)
    (hts : ∀ u ∈ ts.head?, u.kind ≠ .parenOpen) :
    renameTokens r before (t :: ts) = t.rename r :: renameTokens r (some t.kind) ts := by
  rw [renameTokens, if_neg]
  rintro (h | h)
  · exact hbefore h
  · obtain ⟨u, hu, hkind⟩ := Option.map_eq_some_iff.1 h
    exact hts u hu hkind

/-- **The places tell which words of a statement are variables.** The token behind the statement
matters too: with a parenthesis there, a variable at its end would be a function. -/
theorem Stmt.Spelled.rename {s : Stmt} {ts rest : List Token} (h : s.Spelled earlier ts)
    (hbefore : before ≠ some .colon) (hrest : ∀ u ∈ rest.head?, u.kind ≠ .parenOpen) :
    ∃ ts' before', renameTokens r before (ts ++ rest) = ts' ++ renameTokens r before' rest ∧
      before' ≠ some .colon ∧ (s.rename r).Spelled (earlier.map (Stmt.rename r)) ts' := by
  cases h with
  | @declaration name colon type equals value e hname hcolon htype hint hequals hvalue =>
    have hslot : (earlier.filterMap declared?).length =
        ((earlier.map (Stmt.rename r)).filterMap declared?).length := by
      rw [filterMap_declared?_rename]
    refine ⟨[name.rename r, colon, type, equals, value.rename r], some value.kind, ?_, ?_, ?_⟩
    · have hfirst : ∀ u ∈ (colon :: type :: equals :: value :: rest).head?,
          u.kind ≠ .parenOpen := by
        simp [hcolon]
      simp only [List.cons_append, List.nil_append]
      -- of the five words, the colon protects the third
      rw [renameTokens_of_variable r hbefore hfirst, renameTokens, renameTokens, renameTokens,
        renameTokens_of_variable r (by simp [hequals]) hrest]
      simp [hcolon, htype, hequals, hvalue.kind, Token.rename_of_ne]
    · simp [hvalue.kind]
    · have hspelled := Spelled.declaration (Token.isIdentifier_rename r hname) hcolon htype hint
        hequals (hvalue.rename r)
      rwa [← hslot, Token.lexeme_rename r (Token.kind_of_isIdentifier hname),
        Token.span_rename] at hspelled
  | @print word paren arg close e hword hprint hparen harg hclose =>
    refine ⟨[word, paren, arg.rename r, close], some close.kind, ?_, ?_, ?_⟩
    · -- the parenthesis behind the first word keeps it what it is
      simp [renameTokens, hword, hparen, harg.kind, hclose, Token.rename_of_ne]
    · simp [hclose]
    · exact .print hword hprint hparen (harg.rename r) hclose
  | @value atom e hatom =>
    refine ⟨[atom.rename r], some atom.kind, ?_, ?_, .value (hatom.rename r)⟩
    · exact renameTokens_of_variable r hbefore hrest
    · simp [hatom.kind]

/-- **Along a whole program.** -/
theorem Stmt.SpelledAll.rename {cut : List (List Token)} {ss : List Stmt}
    (h : SpelledAll earlier cut ss) {last : Token} (hlast : last.kind = .eof)
    (hbefore : before ≠ some .colon) :
    ∃ cut', renameTokens r before (cut.flatten ++ [last]) = cut'.flatten ++ [last] ∧
      SpelledAll (earlier.map (Stmt.rename r)) cut' (ss.map (Stmt.rename r)) := by
  induction h generalizing before with
  | nil earlier =>
    refine ⟨[], ?_, .nil _⟩
    simp [renameTokens, Token.rename_of_ne, hlast]
  | @cons earlier ts cut s ss hs hss ih =>
    have hnext : ∀ u ∈ (cut.flatten ++ [last]).head?, u.kind ≠ .parenOpen :=
      hss.head_ne (by decide) (by simp [hlast])
    obtain ⟨ts', before', hts, hbefore', hspelled⟩ := hs.rename r hbefore hnext
    obtain ⟨cut', hcut, hall⟩ := ih hbefore'
    refine ⟨ts' :: cut', ?_, .cons hspelled (by simpa using hall)⟩
    rw [List.flatten_cons, List.append_assoc, hts, hcut, List.flatten_cons, List.append_assoc]

end Cuts

/-- **Names do not reach the back ends.** Take a text that compiles, and any renaming: a map of
names to names under which no two become the same. Replace every name in the tokens of the text, but
not the types behind colons and not the functions before parentheses.

The new tokens are accepted for the same table, as the program with its variables renamed. Lowering
it gives the same instructions and writing it in C gives the same text. A new name may be that of a
function or of a type. -/
theorem renaming_is_invisible {source : String} {capacity : Nat} {m : Module}
    (h : compileFor source capacity = .ok m) (r : Name ↪ Name) :
    ∃ ts, tokenize source = .ok ts ∧
      (readTokens? capacity (renameTokens r none ts)).map Reading.module =
        some (.ok (m.rename r)) ∧
      (m.rename r).lower = m.lower ∧ (m.rename r).cBody = m.cBody := by
  obtain ⟨cut, last, htokens, hlast, hall⟩ := spelledAll_of_compileFor h
  obtain ⟨hcount, hfits⟩ := slotCount_of_compileFor h
  have hslots : ((m.rename r).statements.filterMap Stmt.declared?).length = m.slotCount := by
    rw [hcount, Module.rename, Stmt.filterMap_declared?_rename]
  obtain ⟨cut', hcut', hall'⟩ := hall.rename r hlast (show none ≠ some TokenKind.colon by simp)
  refine ⟨_, htokens, ?_, ?_, ?_⟩
  · obtain ⟨hstatements, hfault⟩ :=
      readStatements_of_spelledAll (.nil _) hlast hall' (Nat.le_trans (Nat.le_of_eq hslots) hfits)
    have hread := readStatements_checked (.empty capacity) ⟨cut'.flatten, last⟩
    rw [hcut', readTokens?_append hall'.kind_ne_eof hlast, Option.map_some, Option.some.injEq,
      Reading.module_eq_ok_iff]
    refine ⟨hfault, ?_⟩
    rw [hread.slotCount_eq, hstatements]
    exact congrArg (Module.mk _) hslots.symm
  · rw [← Module.lower_bare, Module.bare_rename, Module.lower_bare]
  · rw [← Module.cBody_bare, Module.bare_rename, Module.cBody_bare]

namespace KeywordNames

/-- A program that copies a variable and prints the copy. -/
def source : String := "a: int = 5\nb: int = a\nprint(b)"

/-- The program, checked. -/
def checked : Module where
  statements :=
    [.declaration "a" ⟨0, .int⟩ (.int 5 ⟨1, 10, 9, 1⟩) ⟨1, 1, 0, 1⟩,
     .declaration "b" ⟨1, .int⟩ (.read "a" ⟨0, .int⟩ ⟨2, 10, 20, 1⟩) ⟨2, 1, 11, 1⟩,
     .expr (.call .print [.read "b" ⟨1, .int⟩ ⟨3, 7, 28, 1⟩] ⟨3, 1, 22, 5⟩)]
  slotCount := 2

/-- Its tokens. -/
def tokens : List Token :=
  [⟨.literal, "a", 1, 1, 0, 1⟩, ⟨.colon, ":", 1, 2, 1, 1⟩, ⟨.literal, "int", 1, 4, 3, 3⟩,
    ⟨.equals, "=", 1, 8, 7, 1⟩, ⟨.literal, "5", 1, 10, 9, 1⟩, ⟨.literal, "b", 2, 1, 11, 1⟩,
    ⟨.colon, ":", 2, 2, 12, 1⟩, ⟨.literal, "int", 2, 4, 14, 3⟩, ⟨.equals, "=", 2, 8, 18, 1⟩,
    ⟨.literal, "a", 2, 10, 20, 1⟩, ⟨.literal, "print", 3, 1, 22, 5⟩, ⟨.parenOpen, "(", 3, 6, 27, 1⟩,
    ⟨.literal, "b", 3, 7, 28, 1⟩, ⟨.parenClose, ")", 3, 8, 29, 1⟩, ⟨.eof, "", 3, 9, 30, 0⟩]

/-- The first variable trades names with the type, the second with the function. -/
def trade : Name ↪ Name :=
  ((Equiv.swap ⟨"a", by decide⟩ ⟨"int", by decide⟩).trans
    (Equiv.swap ⟨"b", by decide⟩ ⟨"print", by decide⟩)).toEmbedding

end KeywordNames

/-- A variable called `int` and one called `print`, in a program that uses the type and the
function. -/
theorem variables_called_int_and_print :
    compileFor KeywordNames.source 2 = .ok KeywordNames.checked ∧
      tokenize KeywordNames.source = .ok KeywordNames.tokens ∧
      (renameTokens KeywordNames.trade none KeywordNames.tokens).map Token.lexeme =
        ["int", ":", "int", "=", "5", "print", ":", "int", "=", "int", "print", "(", "print", ")",
          ""] ∧
      (readTokens? 2 (renameTokens KeywordNames.trade none KeywordNames.tokens)).map
        Reading.module = some (.ok (KeywordNames.checked.rename KeywordNames.trade)) ∧
      (KeywordNames.checked.rename KeywordNames.trade).lower = KeywordNames.checked.lower ∧
      (KeywordNames.checked.rename KeywordNames.trade).cBody = KeywordNames.checked.cBody := by
  have hchecked : compileFor KeywordNames.source 2 = .ok KeywordNames.checked := by decide +kernel
  have htokens : tokenize KeywordNames.source = .ok KeywordNames.tokens := by decide +kernel
  obtain ⟨ts, hts, hread, hlower, hbody⟩ := renaming_is_invisible hchecked KeywordNames.trade
  obtain rfl := Except.ok.inj (htokens.symm.trans hts)
  exact ⟨hchecked, htokens, by decide +kernel, hread, hlower, hbody⟩

end SlotLang
