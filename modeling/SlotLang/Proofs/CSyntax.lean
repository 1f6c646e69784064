import SlotLang.Text.Decimal

/-!
# C statements as text

The part of C that program bodies are written in, given as a reader: `lex` cuts a text into tokens
and `readAll` reads statements off them. Nothing here knows how bodies are emitted.

* **Tokens.** `Mode.step` is an automaton with one character of look-ahead at most, kept in the
  mode: a word ends at the first character that cannot belong to it, `=` waits for a second one, and
  a comment runs to the end of its line. A word of digits is a decimal number, and one with a
  leading zero is refused, since C reads it in octal.
* **Statements.** Seven forms, and four of expressions, each with the tokens it is made of
  (`Stmt.tokens`, `Expr.tokens`). `readAll_flatMap_tokens` says that reading inverts them.

`Scans text ts` is what the emitted texts are shown to satisfy: read from between two tokens, the
text gives `ts` and ends between two tokens. It composes along `++`, and `Scans.number` puts the
digits of a number before a text that no word can run into.
-/

namespace SlotLang.C

/-! ### Tokens -/

/-- The words that have a meaning. -/
inductive Name where
  | create
  | pointer
  | cleanup
  | print
  | null
  | int
  /-- The word that begins a conditional. -/
  | cond
  /-- The word that leaves a function. -/
  | leave
deriving DecidableEq, Repr

namespace Name

/-- How a word is spelled. -/
def spelling : Name → String
  | .create => "pysq_create_variable"
  | .pointer => "pysq_variable_ptr"
  | .cleanup => "pysq_cleanup"
  | .print => "pysq_print"
  | .null => "NULL"
  | .int => "int"
  | .cond => "if"
  | .leave => "return"

/-- Every word. -/
def all : List Name := [.create, .pointer, .cleanup, .print, .null, .int, .cond, .leave]

/-- The word that some letters spell. -/
def ofLetters? (letters : List Char) : Option Name := all.find? (·.spelling.toList = letters)

end Name

/-- A token. -/
inductive Token where
  | name (name : Name)
  /-- An integer literal. -/
  | number (value : Nat)
  /-- A punctuation mark of one character. -/
  | mark (c : Char)
  /-- The mark `==`. -/
  | equality
deriving DecidableEq, Repr

/-- Whether `c` is a mark that stands for itself. -/
def isMark (c : Char) : Bool :=
  c ∈ ['(', ')', '\x7b', '\x7d', ';', ',', '*', '-']

/-- Whether `c` belongs to a word. -/
def isWordChar (c : Char) : Bool := Decimal.isDigit c || c.isAlpha || c = '_'

/-- The token of a word: a decimal number without leading zeros, or a name. -/
def Token.ofWord? (letters : List Char) : Option Token :=
  -- C would take a longer word that begins with `0` for an octal number
  if letters.head? = some '0' ∧ letters ≠ ['0'] then none
  else
    match Decimal.natural? letters with
    | some n => some (.number n)
    | none => (Name.ofLetters? letters).map .name

/-- Where the reading of a text stands. -/
inductive Mode where
  /-- Between two tokens. -/
  | between
  /-- Behind the first letters of a word. -/
  | word (letters : List Char)
  /-- Behind a `=` that may begin a longer mark. -/
  | equal
  /-- Behind a `/`. -/
  | slash
  | comment
deriving DecidableEq, Repr

namespace Mode

/-- Read a character between two tokens. -/
def start (c : Char) : Option (List Token × Mode) :=
  if c = ' ' ∨ c = '\n' then some ([], .between)
  else if isWordChar c then some ([], .word [c])
  else if c = '=' then some ([], .equal)
  else if c = '/' then some ([], .slash)
  else if isMark c then some ([.mark c], .between)
  else none

/-- Read a character; the tokens are those that it completes. -/
def step : Mode → Char → Option (List Token × Mode)
  | .between, c => start c
  | .word letters, c =>
    if isWordChar c then some ([], .word (letters ++ [c]))
    else
      match Token.ofWord? letters, start c with
      | some t, some (ts, m) => some (t :: ts, m)
      | _, _ => none
  | .equal, c =>
    if c = '=' then some ([.equality], .between)
    else (start c).map fun (ts, m) ↦ (.mark '=' :: ts, m)
  | .slash, c => if c = '/' then some ([], .comment) else none
  | .comment, c => some ([], if c = '\n' then .between else .comment)

/-- The token that the end of the text completes, if there is one. -/
def finish : Mode → Option (List Token)
  | .between => some []
  | .word letters => (Token.ofWord? letters).map ([·])
  | .equal => some [.mark '=']
  | .slash => none
  | .comment => some []

end Mode

/-- Read characters one after the other. -/
def scan (m : Mode) : List Char → Option (List Token × Mode)
  | [] => some ([], m)
  | c :: cs =>
    match m.step c with
    | none => none
    | some (ts, m) => (scan m cs).map fun (ts', m) ↦ (ts ++ ts', m)

/-- The tokens of a text. -/
def lex (text : String) : Option (List Token) :=
  match scan .between text.toList with
  | none => none
  | some (ts, m) => m.finish.map (ts ++ ·)

/-! ### Forms -/

/-- The forms of expressions. -/
inductive Expr where
  /-- A literal. -/
  | number (n : Nat)
  /-- A literal with its sign changed. -/
  | negative (n : Nat)
  /-- A literal with its sign changed, less another. -/
  | difference (m n : Nat)
  /-- The `int` that the pointer to a slot leads to. -/
  | slot (i : Nat)
deriving DecidableEq, Repr

/-- The forms of statements. -/
inductive Stmt where
  /-- Create a slot. -/
  | create (i size : Nat)
  /-- Clean up and leave the program if there is no pointer to a slot. -/
  | bail (i code : Nat)
  /-- Assign to the `int` that the pointer to a slot leads to. -/
  | store (i : Nat) (value : Expr)
  | print (value : Expr)
  | eval (value : Expr)
  | cleanup
  | leave (code : Nat)
deriving DecidableEq, Repr

/-- The tokens of the `int` that the pointer to a slot leads to. -/
def slotTokens (i : Nat) : List Token :=
  [.mark '*', .mark '(', .mark '(', .name .int, .mark '*', .mark ')', .name .pointer, .mark '(',
    .number i, .mark ')', .mark ')']

/-- The tokens of an expression. -/
def Expr.tokens : Expr → List Token
  | .number n => [.number n]
  | .negative n => [.mark '(', .mark '-', .number n, .mark ')']
  | .difference m n => [.mark '(', .mark '-', .number m, .mark '-', .number n, .mark ')']
  | .slot i => .mark '(' :: slotTokens i ++ [.mark ')']

namespace Stmt

/-- The tokens that clean up. -/
def cleanupTokens : List Token :=
  [.name .cleanup, .mark '(', .name .null, .mark ')', .mark ';']

/-- The tokens that leave with an exit code. -/
def leaveTokens (code : Nat) : List Token :=
  [.name .leave, .mark '(', .number code, .mark ')', .mark ';']

/-- The tokens of a statement. -/
def tokens : Stmt → List Token
  | .create i size =>
    [.name .create, .mark '(', .number i, .mark ',', .number size, .mark ')', .mark ';']
  | .bail i code =>
    [.name .cond, .mark '(', .name .pointer, .mark '(', .number i, .mark ')', .equality,
      .name .null, .mark ')', .mark '\x7b'] ++ cleanupTokens ++ leaveTokens code ++ [.mark '\x7d']
  | .store i value => slotTokens i ++ [.mark '='] ++ value.tokens ++ [.mark ';']
  | .print value => [.name .print, .mark '('] ++ value.tokens ++ [.mark ')', .mark ';']
  | .eval value => value.tokens ++ [.mark ';']
  | .cleanup => cleanupTokens
  | .leave code => leaveTokens code

end Stmt

/-! ### Reading -/

/-- Read the `int` that the pointer to a slot leads to, at the start of some tokens. -/
def readSlot : List Token → Option (Nat × List Token)
  | .mark '*' :: .mark '(' :: .mark '(' :: .name .int :: .mark '*' :: .mark ')' :: .name .pointer ::
      .mark '(' :: .number i :: .mark ')' :: .mark ')' :: ts => some (i, ts)
  | _ => none

/-- Read an expression at the start of some tokens. -/
def readExpr : List Token → Option (Expr × List Token)
  | .number n :: ts => some (.number n, ts)
  | .mark '(' :: .mark '-' :: .number n :: .mark ')' :: ts => some (.negative n, ts)
  | .mark '(' :: .mark '-' :: .number m :: .mark '-' :: .number n :: .mark ')' :: ts =>
    some (.difference m n, ts)
  | .mark '(' :: ts =>
    match readSlot ts with
    | some (i, .mark ')' :: ts) => some (.slot i, ts)
    | _ => none
  | _ => none

/-- Read a statement at the start of some tokens. -/
def readStmt : List Token → Option (Stmt × List Token)
  | .name .create :: .mark '(' :: .number i :: .mark ',' :: .number size :: .mark ')' ::
      .mark ';' :: ts => some (.create i size, ts)
  | .name .cond :: .mark '(' :: .name .pointer :: .mark '(' :: .number i :: .mark ')' ::
      .equality :: .name .null :: .mark ')' :: .mark '\x7b' ::
      .name .cleanup :: .mark '(' :: .name .null :: .mark ')' :: .mark ';' ::
      .name .leave :: .mark '(' :: .number code :: .mark ')' :: .mark ';' :: .mark '\x7d' :: ts =>
    some (.bail i code, ts)
  | .name .print :: .mark '(' :: ts =>
    match readExpr ts with
    | some (e, .mark ')' :: .mark ';' :: ts) => some (.print e, ts)
    | _ => none
  | .name .cleanup :: .mark '(' :: .name .null :: .mark ')' :: .mark ';' :: ts =>
    some (.cleanup, ts)
  | .name .leave :: .mark '(' :: .number code :: .mark ')' :: .mark ';' :: ts =>
    some (.leave code, ts)
  | ts =>
    -- no expression begins as a slot does, so looking for a slot first misses none
    match readSlot ts with
    | some (i, .mark '=' :: ts) =>
      match readExpr ts with
      | some (e, .mark ';' :: ts) => some (.store i e, ts)
      | _ => none
    | _ =>
      match readExpr ts with
      | some (e, .mark ';' :: ts) => some (.eval e, ts)
      | _ => none

theorem length_of_readSlot {ts rest : List Token} {i : Nat} (h : readSlot ts = some (i, rest)) :
    rest.length < ts.length := by
  unfold readSlot at h
  split at h
  · cases h
    simp only [List.length_cons]
    omega
  · cases h

theorem length_of_readExpr {ts rest : List Token} {e : Expr} (h : readExpr ts = some (e, rest)) :
    rest.length < ts.length := by
  unfold readExpr at h
  split at h
  · cases h
    simp
  · cases h
    simp only [List.length_cons]
    omega
  · cases h
    simp only [List.length_cons]
    omega
  · split at h
    · rename_i hslot
      cases h
      have hlt := length_of_readSlot hslot
      simp only [List.length_cons] at hlt ⊢
      omega
    · cases h
  · cases h

/-- Every statement takes a token at least. -/
theorem length_of_readStmt {ts rest : List Token} {s : Stmt} (h : readStmt ts = some (s, rest)) :
    rest.length < ts.length := by
  unfold readStmt at h
  split at h
  · cases h
    simp only [List.length_cons]
    omega
  · cases h
    simp only [List.length_cons]
    omega
  · split at h
    · rename_i hexpr
      cases h
      have hlt := length_of_readExpr hexpr
      simp only [List.length_cons] at hlt ⊢
      omega
    · cases h
  · cases h
    simp only [List.length_cons]
    omega
  · cases h
    simp only [List.length_cons]
    omega
  · split at h
    · rename_i hslot
      have hlt := length_of_readSlot hslot
      split at h
      · rename_i hexpr
        cases h
        have hlt' := length_of_readExpr hexpr
        simp only [List.length_cons] at hlt hlt'
        omega
      · cases h
    · split at h
      · rename_i hexpr
        cases h
        have hlt := length_of_readExpr hexpr
        simp only [List.length_cons] at hlt
        omega
      · cases h

/-- Read statements up to the end of the tokens. -/
def readAll (ts : List Token) : Option (List Stmt) :=
  match _h : readStmt ts with
  | some (s, rest) => (readAll rest).map (s :: ·)
  | none => if ts.isEmpty then some [] else none
termination_by ts.length
decreasing_by exact length_of_readStmt ‹_›

/-- The statements of a text. -/
def parse (text : String) : Option (List Stmt) := (lex text).bind readAll

theorem readAll_of_readStmt {ts rest : List Token} {s : Stmt}
    (h : readStmt ts = some (s, rest)) : readAll ts = (readAll rest).map (s :: ·) := by
  rw [readAll]
  split
  · rename_i h'
    cases h.symm.trans h'
    rfl
  · rename_i h'
    cases h.symm.trans h'

theorem readStmt_tokens (s : Stmt) (ts : List Token) :
    readStmt (s.tokens ++ ts) = some (s, ts) := by
  cases s with
  | store i value => cases value <;> rfl
  | print value => cases value <;> rfl
  | eval value => cases value <;> rfl
  | _ => rfl

/-- **Reading inverts writing**, for any number of statements. -/
theorem readAll_flatMap_tokens (ss : List Stmt) : readAll (ss.flatMap Stmt.tokens) = some ss := by
  induction ss with
  | nil =>
    rw [readAll]
    rfl
  | cons s ss ih =>
    rw [List.flatMap_cons, readAll_of_readStmt (readStmt_tokens s _), ih]
    rfl

/-! ### Texts made of tokens -/

/-- Read from between two tokens, the text gives the tokens `ts` and ends between two tokens. -/
def Scans (text : List Char) (ts : List Token) : Prop := scan .between text = some (ts, .between)

instance (text : List Char) (ts : List Token) : Decidable (Scans text ts) :=
  inferInstanceAs (Decidable (_ = _))

theorem scan_append (m : Mode) (text text' : List Char) :
    scan m (text ++ text') =
      (scan m text).bind fun (ts, m) ↦ (scan m text').map fun (ts', m) ↦ (ts ++ ts', m) := by
  induction text generalizing m with
  | nil => simp [scan]
  | cons c text ih =>
    rw [List.cons_append, scan, scan]
    cases hc : m.step c with
    | none => rfl
    | some next =>
      obtain ⟨ts, m'⟩ := next
      simp only [ih]
      cases scan m' text with
      | none => rfl
      | some read =>
        obtain ⟨ts', m''⟩ := read
        simp only [Option.bind_some, Option.map_some, Option.map_map]
        congr 1
        funext last
        simp

theorem scan_cons {m m' m'' : Mode} {c : Char} {cs : List Char} {ts ts' : List Token}
    (hc : m.step c = some (ts, m')) (hcs : scan m' cs = some (ts', m'')) :
    scan m (c :: cs) = some (ts ++ ts', m'') := by
  rw [scan, hc]
  simp only [hcs]
  rfl

namespace Scans

variable {text text' : List Char} {ts ts' : List Token}

theorem append (h : Scans text ts) (h' : Scans text' ts') : Scans (text ++ text') (ts ++ ts') := by
  show scan .between (text ++ text') = _
  rw [scan_append, show scan .between text = _ from h]
  show (scan .between text').map _ = _
  rw [show scan .between text' = _ from h']
  rfl

theorem lex {text : String} (h : Scans text.toList ts) : lex text = some ts := by
  rw [C.lex, show scan .between text.toList = _ from h]
  simp [Mode.finish]

end Scans

end SlotLang.C

namespace SlotLang.Decimal

theorem isDigit_digit {d : Nat} (h : d < 10) : isDigit (digit d) = true := by
  have hall : ∀ d < 10, isDigit (digit d) = true := by decide
  exact hall d h

theorem all_isDigit_digits (n : Nat) : (digits n).all isDigit = true := by
  fun_induction digits n with
  | case1 n h => simp [isDigit_digit h]
  | case2 n h ih => simp [ih, isDigit_digit (Nat.mod_lt n (by decide))]

theorem digits_ne_nil (n : Nat) : digits n ≠ [] := by
  rw [digits]
  split <;> simp

/-- A number is read back from its digits. -/
theorem natural?_digits (n : Nat) : natural? (digits n) = some n := by
  simp [natural?, digits_ne_nil, all_isDigit_digits, value_digits]

/-- The digits of a number other than zero begin with another digit than zero. -/
theorem head?_digits_ne {n : Nat} (h : n ≠ 0) : (digits n).head? ≠ some '0' := by
  fun_induction digits n with
  | case1 n hn =>
    have hall : ∀ d < 10, d ≠ 0 → digit d ≠ '0' := by decide
    simpa using hall n hn h
  | case2 n hn ih =>
    obtain ⟨c, cs, hc⟩ := List.exists_cons_of_ne_nil (digits_ne_nil (n / 10))
    have hhead := ih (by omega)
    rw [hc] at hhead ⊢
    exact hhead

/-- The digits of a number have no zero in front that could be left out. -/
theorem digits_unpadded (n : Nat) : ¬ ((digits n).head? = some '0' ∧ digits n ≠ ['0']) := by
  rintro ⟨hhead, hne⟩
  by_cases hn : n = 0
  · subst hn
    exact hne (by rw [digits]; rfl)
  · exact head?_digits_ne hn hhead

end SlotLang.Decimal

namespace SlotLang.C

theorem isWordChar_of_isDigit {c : Char} (h : Decimal.isDigit c = true) : isWordChar c = true := by
  simp [isWordChar, h]

/-- The letters of a word are collected. -/
theorem scan_word {letters text : List Char} (h : text.all isWordChar = true) :
    scan (.word letters) text = some ([], .word (letters ++ text)) := by
  induction text generalizing letters with
  | nil => simp [scan]
  | cons c text ih =>
    rw [List.all_cons, Bool.and_eq_true] at h
    rw [scan, Mode.step, if_pos h.1]
    simp [ih h.2]

theorem ofWord?_digits (n : Nat) : Token.ofWord? (Decimal.digits n) = some (.number n) := by
  rw [Token.ofWord?, if_neg (Decimal.digits_unpadded n), Decimal.natural?_digits]

theorem scan_digits (n : Nat) :
    scan .between (Decimal.digits n) = some ([], .word (Decimal.digits n)) := by
  have hall := Decimal.all_isDigit_digits n
  obtain ⟨d, ds, hds⟩ := List.exists_cons_of_ne_nil (Decimal.digits_ne_nil n)
  rw [hds, List.all_cons, Bool.and_eq_true] at hall
  -- the first digit opens a word, which the others join
  have hstart : Mode.step .between d = some ([], .word [d]) := by
    have hblank : ¬ (d = ' ' ∨ d = '\n') := by
      rintro (rfl | rfl) <;> exact absurd hall.1 (by decide)
    rw [Mode.step, Mode.start, if_neg hblank, if_pos (isWordChar_of_isDigit hall.1)]
  have hword : ds.all isWordChar = true :=
    List.all_eq_true.2 fun c hc ↦ isWordChar_of_isDigit (List.all_eq_true.1 hall.2 c hc)
  rw [hds]
  exact scan_cons hstart (scan_word hword)

/-- The text begins, and with a character that ends a word. -/
def Breaks (text : List Char) : Prop := text.head?.any (fun c ↦ !isWordChar c) = true

/-- Behind the digits of a number, a character that does not belong to a word completes it. -/
theorem scan_word_digits (n : Nat) {text : List Char} (h : Breaks text) :
    scan (.word (Decimal.digits n)) text =
      (scan .between text).map fun (ts, m) ↦ (.number n :: ts, m) := by
  cases text with
  | nil => cases h
  | cons c cs =>
    have hc : isWordChar c = false := by simpa [Breaks] using h
    have hstep : Mode.step (.word (Decimal.digits n)) c =
        (Mode.start c).map fun (ts, m) ↦ (.number n :: ts, m) := by
      simp only [Mode.step, hc, Bool.false_eq_true, if_false, ofWord?_digits]
      cases Mode.start c <;> rfl
    rw [scan, scan, hstep, Mode.step]
    cases Mode.start c with
    | none => rfl
    | some next =>
      simp only [Option.map_some, Option.map_map]
      rfl

/-- **A number** may stand before any text that its digits do not run into. -/
theorem Scans.number (n : Nat) {text : List Char} {ts : List Token} (h : Scans text ts)
    (hbreak : Breaks text) : Scans (Decimal.digits n ++ text) (.number n :: ts) := by
  show scan .between (Decimal.digits n ++ text) = _
  rw [scan_append, scan_digits]
  show (scan (.word (Decimal.digits n)) text).map _ = _
  rw [scan_word_digits n hbreak, show scan .between text = _ from h]
  rfl

example : lex "0" = some [.number 0] ∧ lex "10" = some [.number 10] ∧ lex "010" = none := by decide

end SlotLang.C
