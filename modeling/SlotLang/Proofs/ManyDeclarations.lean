import SlotLang.Proofs.Capacity
import SlotLang.Proofs.Literals
import SlotLang.Proofs.Meaning
import SlotLang.Proofs.Outcomes
import SlotLang.Sample

/-!
# The program of any size

`Sample.manyDeclarations` writes a program with as many variables as wanted, each declared on one
line and printed on the next. It compiles if there is a slot for each of them, and then prints their
numbers; otherwise it is refused at the first name for which there is no slot.

Everything about the program is said line by line. `lineStart i` is where the two lines of variable
`i` begin, and `cut` and `statements` are the tokens and the statements of all lines, with their
places. The scanner goes from `lineStart i` to `lineStart (i + 1)` (`scan_lines`), and takes the two
lines apart as tokens that spell their statements (`spelled_declaration`, `spelled_print`).

The scanner has no idea of numbers, so the text is cut into tokens for every size. A number is a
value only as long as it fits into 32 bits, but no table has so many slots.
-/

namespace SlotLang

namespace ManyDeclarations

/-! ### The lines of a variable -/

/-- The name of the variable with a number. -/
def name (i : Nat) : String := "v" ++ Decimal.ofNat i

/-- The place where the lines of a variable begin. -/
def lineStart (i : Nat) : Place := ⟨2 * i + 1, 1, byteLength (Sample.manyDeclarations i).toList⟩

/-- The place behind the name that is declared. -/
def colon (i : Nat) : Place := (lineStart i).past (name i).toList

/-- The place of the type. -/
def type (i : Nat) : Place := ((colon i).past [':']).past [' ']

/-- The place of the equals sign. -/
def equals (i : Nat) : Place := ((type i).past "int".toList).past [' ']

/-- The place of the value. -/
def value (i : Nat) : Place := ((equals i).past ['=']).past [' ']

/-- The place where the second line begins. -/
def word (i : Nat) : Place := ((value i).past (Decimal.ofNat i).toList).newline

/-- The place of the parenthesis that opens. -/
def paren (i : Nat) : Place := (word i).past "print".toList

/-- The place of the name that is printed. -/
def arg (i : Nat) : Place := (paren i).past ['(']

/-- The place of the parenthesis that closes. -/
def close (i : Nat) : Place := (arg i).past (name i).toList

/-- The tokens of the line that declares a variable. -/
def declarationTokens (i : Nat) : List Token :=
  [⟨.literal, name i, (lineStart i).span (name i).toList⟩, ⟨.colon, ":", (colon i).span [':']⟩,
    ⟨.literal, "int", (type i).span "int".toList⟩, ⟨.equals, "=", (equals i).span ['=']⟩,
    ⟨.literal, Decimal.ofNat i, (value i).span (Decimal.ofNat i).toList⟩]

/-- The tokens of the line that prints it. -/
def printTokens (i : Nat) : List Token :=
  [⟨.literal, "print", (word i).span "print".toList⟩, ⟨.parenOpen, "(", (paren i).span ['(']⟩,
    ⟨.literal, name i, (arg i).span (name i).toList⟩, ⟨.parenClose, ")", (close i).span [')']⟩]

/-- The declaration of a variable. -/
def declaration (i : Nat) : Stmt :=
  .declaration (name i) ⟨i, .int⟩ (.int (Int32.ofNat i) ((value i).span (Decimal.ofNat i).toList))
    ((lineStart i).span (name i).toList)

/-- The statement that prints it. -/
def print (i : Nat) : Stmt :=
  .expr (.call .print [.read (name i) ⟨i, .int⟩ ((arg i).span (name i).toList)]
    ((word i).span "print".toList))

/-- The tokens of the lines of some variables, line by line. -/
def tokensOf (is : List Nat) : List (List Token) :=
  is.flatMap fun i ↦ [declarationTokens i, printTokens i]

/-- The statements on these lines. -/
def statementsOf (is : List Nat) : List Stmt := is.flatMap fun i ↦ [declaration i, print i]

/-- The tokens of a program. -/
def cut (count : Nat) : List (List Token) := tokensOf (List.range count)

/-- The statements of a program. -/
def statements (count : Nat) : List Stmt := statementsOf (List.range count)

theorem cut_succ (count : Nat) :
    cut (count + 1) = cut count ++ [declarationTokens count] ++ [printTokens count] := by
  simp [cut, tokensOf, List.range_succ]

theorem statements_succ (count : Nat) :
    statements (count + 1) = statements count ++ [declaration count] ++ [print count] := by
  simp [statements, statementsOf, List.range_succ]

theorem length_declared (count : Nat) :
    ((statements count).filterMap Stmt.declared?).length = count := by
  induction count with
  | zero => rfl
  | succ count ih =>
    rw [statements_succ, List.filterMap_append, List.filterMap_append, List.length_append,
      List.length_append, ih]
    rfl

/-! ### Scanning -/

theorem manyDeclarations_succ (count : Nat) :
    (Sample.manyDeclarations (count + 1)).toList =
      (Sample.manyDeclarations count).toList ++ (Sample.declareAndPrint count).toList := by
  simp [Sample.manyDeclarations, List.range_succ]

theorem toList_declareAndPrint (i : Nat) :
    (Sample.declareAndPrint i).toList = (name i).toList ++ ':' :: ' ' :: ("int".toList ++ ' ' ::
      '=' :: ' ' :: ((Decimal.ofNat i).toList ++ '\n' :: ("print".toList ++ '(' ::
        ((name i).toList ++ [')', '\n'])))) := by
  simp [Sample.declareAndPrint, name]

theorem toList_name (i : Nat) : (name i).toList = 'v' :: Decimal.digits i := by
  simp [name, Decimal.toList_ofNat]

theorem word_name (i : Nat) : (name i).toList ≠ [] ∧ ∀ c ∈ (name i).toList, IsWordChar c := by
  have hdigits := (Decimal.written_ofNat i).word.2
  rw [Decimal.toList_ofNat] at hdigits
  rw [toList_name]
  exact ⟨List.cons_ne_nil _ _, List.forall_mem_cons.2 ⟨by decide, hdigits⟩⟩

theorem scan_space (p : Place) (rest : List Char) :
    scan p (' ' :: rest) = scan (p.past [' ']) rest := by
  rw [scan, if_neg (by decide), if_pos (by decide)]

theorem scan_newline (p : Place) (rest : List Char) :
    scan p ('\n' :: rest) = scan p.newline rest := by
  rw [scan, if_pos rfl]

theorem scan_declaration {i : Nat} {rest : List Char} {tokens : List Token}
    (hrest : scan (word i) rest = .ok tokens) :
    scan (lineStart i) ((name i).toList ++ ':' :: ' ' :: ("int".toList ++ ' ' :: '=' :: ' ' ::
      ((Decimal.ofNat i).toList ++ '\n' :: rest))) = .ok (declarationTokens i ++ tokens) := by
  have hname : Token.IsWord ⟨.literal, name i, .nowhere⟩ := .inr ⟨rfl, word_name i⟩
  have hint : Token.IsWord ⟨.literal, "int", .nowhere⟩ :=
    .inr ⟨rfl, by decide, by simp [IsWordChar]⟩
  have hvalue : Token.IsWord ⟨.literal, Decimal.ofNat i, .nowhere⟩ :=
    .inr ⟨rfl, (Decimal.written_ofNat i).word⟩
  have hcolon : (':', TokenKind.colon) ∈ punctuation := by decide
  have hequals : ('=', TokenKind.equals) ∈ punctuation := by decide
  refine scan_word hname (fun _ ↦ stop_cons (by decide) _) (scan_mark hcolon ?_)
  rw [scan_space]
  refine scan_word hint (fun _ ↦ stop_cons (by decide) _) ?_
  rw [scan_space]
  refine scan_mark hequals ?_
  rw [scan_space]
  refine scan_word hvalue (fun _ ↦ stop_cons (by decide) _) ?_
  rwa [scan_newline]

theorem scan_print {i : Nat} {rest : List Char} {tokens : List Token}
    (hrest : scan ((close i).past [')']).newline rest = .ok tokens) :
    scan (word i) ("print".toList ++ '(' :: ((name i).toList ++ ')' :: '\n' :: rest)) =
      .ok (printTokens i ++ tokens) := by
  have hprint : Token.IsWord ⟨.literal, "print", .nowhere⟩ :=
    .inr ⟨rfl, by decide, by simp [IsWordChar]⟩
  have hname : Token.IsWord ⟨.literal, name i, .nowhere⟩ := .inr ⟨rfl, word_name i⟩
  have hopen : ('(', TokenKind.parenOpen) ∈ punctuation := by decide
  have hclose : (')', TokenKind.parenClose) ∈ punctuation := by decide
  refine scan_word hprint (fun _ ↦ stop_cons (by decide) _) (scan_mark hopen ?_)
  refine scan_word hname (fun _ ↦ stop_cons (by decide) _) (scan_mark hclose ?_)
  rwa [scan_newline]

/-- The lines of the next variable begin behind the second line. -/
theorem newline_close (i : Nat) : ((close i).past [')']).newline = lineStart (i + 1) := by
  have hbreak : '\n'.utf8Size = 1 := rfl
  simp only [close, arg, paren, word, value, equals, type, colon, lineStart, Place.past,
    Place.newline, Place.mk.injEq, manyDeclarations_succ, toList_declareAndPrint,
    byteLength_append, byteLength_cons, byteLength_nil, hbreak]
  refine ⟨?_, trivial, ?_⟩ <;> omega

/-- **The two lines of a variable.** -/
theorem scan_lines {i : Nat} {rest : List Char} {tokens : List Token}
    (hrest : scan (lineStart (i + 1)) rest = .ok tokens) :
    scan (lineStart i) ((Sample.declareAndPrint i).toList ++ rest) =
      .ok (declarationTokens i ++ (printTokens i ++ tokens)) := by
  rw [← newline_close] at hrest
  have hlines := scan_declaration (scan_print hrest)
  rw [toList_declareAndPrint]
  simpa using hlines

/-- **A program, and any text behind it.** -/
theorem scan_manyDeclarations {count : Nat} {rest : List Char} {tokens : List Token}
    (hrest : scan (lineStart count) rest = .ok tokens) :
    scan .start ((Sample.manyDeclarations count).toList ++ rest) =
      .ok ((cut count).flatten ++ tokens) := by
  induction count generalizing rest tokens with
  | zero => exact hrest
  | succ count ih =>
    rw [manyDeclarations_succ, List.append_assoc, ih (scan_lines hrest), cut_succ]
    simp

theorem tokenize_manyDeclarations (count : Nat) :
    tokenize (Sample.manyDeclarations count) =
      .ok ((cut count).flatten ++ [⟨.eof, "", (lineStart count).span []⟩]) := by
  have hend : scan (lineStart count) [] = .ok [⟨.eof, "", (lineStart count).span []⟩] := by
    rw [scan]
  have hscan := scan_manyDeclarations hend
  rwa [List.append_nil] at hscan

/-! ### Reading -/

theorem isName_name (i : Nat) : isName (name i) = true := by
  have hchar : ∀ c, Decimal.isDigit c = true → isNameChar c = true := by
    intro c hc
    simp only [isNameChar, Char.isAlphanum, Bool.or_eq_true]
    exact .inl (.inr hc)
  have hrest : (Decimal.digits i).all isNameChar = true :=
    List.all_eq_true.2 fun c hc ↦ hchar c (List.all_eq_true.1 (Decimal.all_isDigit_digits i) c hc)
  simp only [isName, toList_name, hrest]
  rfl

theorem atom_value {i : Nat} (h : i < 2147483648) (earlier : List Stmt) (span : Span) :
    Token.Atom earlier ⟨.literal, Decimal.ofNat i, span⟩ (.int (Int32.ofNat i) span) := by
  have hwritten : Written (Decimal.ofNat i).toList (Int32.ofNat i).toInt := by
    rw [Int32.toInt_ofNat_of_lt h]
    exact Decimal.written_ofNat i
  exact .number rfl hwritten.isName_eq_false hwritten.numeral

/-- A variable takes the slot of its number. -/
theorem spelled_declaration {i : Nat} (h : i < 2147483648) :
    (declaration i).Spelled (statements i) (declarationTokens i) := by
  have hspelled : Stmt.Spelled (statements i) (declarationTokens i)
      (.declaration (name i) ⟨((statements i).filterMap Stmt.declared?).length, .int⟩ _ _) :=
    .declaration (isName_name i) rfl rfl rfl rfl (atom_value h _ _)
  rwa [length_declared] at hspelled

/-- The declaration right before it is the latest of its name. -/
theorem spelled_print (i : Nat) :
    (print i).Spelled (statements i ++ [declaration i]) (printTokens i) := by
  have hlatest : Stmt.latest? (name i) (statements i ++ [declaration i]) = some ⟨i, .int⟩ := by
    have hone : Stmt.latest? (name i) [declaration i] = some ⟨i, .int⟩ := by
      simp [Stmt.latest?, Stmt.binds?, declaration]
    rw [Stmt.latest?_append, hone, Option.some_or]
  exact .print rfl rfl rfl (.name (isName_name i) hlatest) rfl

/-- **The tokens spell the statements**, as long as the numbers fit into 32 bits. -/
theorem spelledAll_cut {count : Nat} (h : count ≤ 2147483648) :
    Stmt.SpelledAll [] (cut count) (statements count) := by
  induction count with
  | zero => exact .nil _
  | succ count ih =>
    rw [cut_succ, statements_succ]
    exact ((ih (Nat.le_of_succ_le h)).concat (spelled_declaration h)).concat (spelled_print count)

/-- The number of a slot fits into 32 bits. -/
theorem lt_of_le_maxCapacity {i capacity : Nat} (hcapacity : capacity ≤ TableConfig.maxCapacity)
    (h : i ≤ capacity) : i < 2147483648 :=
  Nat.lt_of_le_of_lt (Nat.le_trans h hcapacity) (by decide)

/-- Enough slots, and the program compiles. -/
theorem compileFor_eq_ok {count capacity : Nat} (hcapacity : capacity ≤ TableConfig.maxCapacity)
    (h : count ≤ capacity) :
    compileFor (Sample.manyDeclarations count) capacity = .ok ⟨statements count, count⟩ := by
  have hslots : ((statements count).filterMap Stmt.declared?).length ≤ capacity := by
    rwa [length_declared]
  have hok := compileFor_of_spelledAll (tokenize_manyDeclarations count) rfl
    (spelledAll_cut (Nat.le_of_lt (lt_of_le_maxCapacity hcapacity h))) hslots
  rwa [length_declared] at hok

/-! ### Too many variables -/

theorem kind_ne_eof (count : Nat) : ∀ t ∈ (cut count).flatten, t.kind ≠ .eof := by
  intro t ht
  obtain ⟨ts, hts, ht⟩ := List.mem_flatten.1 ht
  obtain ⟨i, -, hts⟩ := List.mem_flatMap.1 hts
  simp only [List.mem_cons, List.not_mem_nil, or_false] at hts
  rcases hts with rfl | rfl
  · simp only [declarationTokens, List.mem_cons, List.not_mem_nil, or_false] at ht
    rcases ht with rfl | rfl | rfl | rfl | rfl <;> simp
  · simp only [printTokens, List.mem_cons, List.not_mem_nil, or_false] at ht
    rcases ht with rfl | rfl | rfl | rfl <;> simp

/-- The lines of a variable can follow those of another one. -/
theorem kind_peek (is : List Nat) {finish : Token} (h : finish.kind = .eof) :
    (Feed.peek ⟨(tokensOf is).flatten, finish⟩).kind = .literal ∨
      (Feed.peek ⟨(tokensOf is).flatten, finish⟩).kind = .eof := by
  cases is with
  | nil => exact .inr h
  | cons i is => exact .inl rfl

/-- With one slot more, the reader gets past the variable that is one too many, whatever the
variables behind it are. -/
theorem exists_statements {count capacity : Nat} (hcapacity : capacity < 2147483648)
    (h : capacity < count) {finish : Token} (hfinish : finish.kind = .eof) :
    ∃ post, (readStatements (.empty (capacity + 1)) ⟨(cut count).flatten, finish⟩).statements =
      statements capacity ++ declaration capacity :: post := by
  obtain ⟨more, rfl⟩ := Nat.exists_eq_add_of_le h
  have hcut : cut (capacity.succ + more) =
      cut (capacity + 1) ++ tokensOf ((List.range more).map (capacity.succ + ·)) := by
    rw [cut, List.range_add, tokensOf, List.flatMap_append]
    rfl
  have hslots : (([] ++ statements (capacity + 1)).filterMap Stmt.declared?).length ≤
      capacity + 1 := by
    rw [List.nil_append, length_declared]
  obtain ⟨r, -, hread⟩ := readStatements_append _ (.nil _) (kind_peek _ hfinish)
    (spelledAll_cut hcapacity) hslots
  rw [hcut, List.flatten_append, hread, statements_succ, List.append_assoc, List.append_assoc]
  exact ⟨_, rfl⟩

/-- **One variable too many**, and the program is refused at its name. -/
theorem compileFor_eq_error {count capacity : Nat} (hcapacity : capacity ≤ TableConfig.maxCapacity)
    (h : capacity < count) :
    compileFor (Sample.manyDeclarations count) capacity =
      .error (.tooManyVariables capacity ((lineStart capacity).span (name capacity).toList)) := by
  have hsmall := lt_of_le_maxCapacity hcapacity (Nat.le_refl capacity)
  have hfinish : (Token.mk .eof "" ((lineStart count).span [])).kind = .eof := rfl
  obtain ⟨post, hstatements⟩ := exists_statements hsmall h hfinish
  obtain ⟨-, hfault⟩ := readStatements_resize_of_full hstatements rfl
  have hfault' : (readStatements (.empty capacity) _).fault = _ := hfault
  rw [compileFor, compilation, tokenize_manyDeclarations]
  simp only
  rw [Feed.ofTokens_append (kind_ne_eof count) hfinish, Reading.module, hfault']

/-- The name of a variable stands where its lines begin. -/
theorem slice?_name {i count : Nat} (h : i < count) :
    ((lineStart i).span (name i).toList).slice? (Sample.manyDeclarations count) =
      some (name i) := by
  obtain ⟨more, rfl⟩ := Nat.exists_eq_add_of_le h
  have hmore : (Sample.manyDeclarations (i.succ + more)).toList =
      (Sample.manyDeclarations (i + 1)).toList ++
        (String.join (((List.range more).map (i.succ + ·)).map Sample.declareAndPrint)).toList := by
    rw [Sample.manyDeclarations, List.range_add, List.map_append, String.join_append,
      String.toList_append]
    rfl
  rw [manyDeclarations_succ, toList_declareAndPrint, ← List.append_assoc, List.append_assoc]
    at hmore
  rw [Span.slice?_eq_some hmore rfl rfl, String.ofList_toList]

/-! ### Running -/

theorem ofInt32_ofNat {i : Nat} (h : i < 2147483648) :
    Decimal.ofInt32 (Int32.ofNat i) = Decimal.ofNat i := by
  rw [Decimal.ofInt32, Int32.toInt_ofNat_of_lt h]
  rfl

/-- **Every variable prints its number**, whatever has been declared before. -/
theorem meaningAll?_statementsOf {is : List Nat} (h : ∀ i ∈ is, i < 2147483648) (env : Env) :
    Stmt.meaningAll? env (statementsOf is) =
      some (String.join (is.map fun i ↦ Decimal.ofNat i ++ "\n")) := by
  induction is generalizing env with
  | nil => rfl
  | cons i is ih =>
    rw [List.forall_mem_cons] at h
    have hlines : statementsOf (i :: is) = declaration i :: print i :: statementsOf is := rfl
    rw [hlines]
    simp [Stmt.meaningAll?, Stmt.meaning?, declaration, print, Expr.value?, ih h.2,
      ofInt32_ofNat h.1]

theorem meaning?_checked {count : Nat} (h : count < 2147483648) :
    Module.meaning? ⟨statements count, count⟩ = some (Sample.manyDeclarationsOutput count) :=
  meaningAll?_statementsOf (fun _ hi ↦ Nat.lt_trans (List.mem_range.1 hi) h) .empty

/-- **The program prints the numbers of its variables**, if there is a slot for each of them. -/
theorem execute_checked {count capacity : Nat} (hcapacity : capacity ≤ TableConfig.maxCapacity)
    (h : count ≤ capacity) {a : Allocator} (ha : ∀ inUse, a.grants inUse 8 = true) {w : Writer}
    (hw : w.Accepts) {t : Table} (ht : t.Empty) (hslots : t.capacity = capacity)
    (hlimit : t.config.memoryLimit = none) :
    let report := (Module.mk (statements count) count).lower.execute a w t
    report.output.text = Sample.manyDeclarationsOutput count ∧ report.exitCode = 0 ∧
      report.released = count := by
  obtain ⟨r, hchecked, hcount⟩ := checked_of_compileFor (compileFor_eq_ok hcapacity h)
  have hadmits : t.config.admits (8 * r.slotCount) = true := by rw [TableConfig.admits, hlimit]
  have hroom : r.slotCount ≤ t.capacity := by rwa [hcount, hslots]
  obtain ⟨env, text, t', out, hmeaning, hends, htext, hsim⟩ :=
    (simulates_empty ht capacity).run ha hw hchecked hroom hadmits {}
  have hprinted : text = Sample.manyDeclarationsOutput count :=
    Option.some.inj (hmeaning.symm.trans (meaning?_checked (lt_of_le_maxCapacity hcapacity h)))
  refine ⟨?_, Report.exitCode_of_ok hends.result, ?_⟩
  · show (runInstrs a w ((statements count).flatMap Stmt.instrs) t {}).output.text = _
    rw [hends.output, htext, hprinted]
    exact String.empty_append
  · show (runInstrs a w ((statements count).flatMap Stmt.instrs) t {}).table.liveCount = _
    rw [hends.table, Table.liveCount_eq_of_buffer? hsim.live, hcount]

end ManyDeclarations

/-- **The program of any size does what it announces.** Take any number of variables, and any
capacity that a table may have.

If there is a slot for each variable, the program compiles and takes as many slots as there are
variables. On an empty table of that capacity, without a limit on memory and with an allocator that
grants eight bytes, it prints exactly the numbers of its variables, exits with 0 and releases their
slots.

If there are more variables than slots, the error is that there are too many, and it names the
variable that has the capacity for its number, at the beginning of the line that declares it. -/
theorem many_declarations_run_or_are_refused {capacity : Nat}
    (hcapacity : capacity ≤ TableConfig.maxCapacity) (count : Nat) :
    (count ≤ capacity →
      ∃ m, compileFor (Sample.manyDeclarations count) capacity = .ok m ∧ m.slotCount = count ∧
        ∀ (a : Allocator) (w : Writer) (t : Table), (∀ inUse, a.grants inUse 8 = true) →
          w.Accepts → t.Empty → t.capacity = capacity → t.config.memoryLimit = none →
          (m.lower.execute a w t).output.text = Sample.manyDeclarationsOutput count ∧
            (m.lower.execute a w t).exitCode = 0 ∧ (m.lower.execute a w t).released = count) ∧
    (capacity < count →
      ∃ span, compileFor (Sample.manyDeclarations count) capacity =
          .error (.tooManyVariables capacity span) ∧
        span.line = 2 * capacity + 1 ∧ span.column = 1 ∧
        span.slice? (Sample.manyDeclarations count) = some ("v" ++ Decimal.ofNat capacity)) := by
  refine ⟨fun h ↦ ⟨_, ManyDeclarations.compileFor_eq_ok hcapacity h, rfl, ?_⟩, fun h ↦
    ⟨_, ManyDeclarations.compileFor_eq_error hcapacity h, rfl, rfl, ?_⟩⟩
  · intro a w t ha hw ht hslots hlimit
    exact ManyDeclarations.execute_checked hcapacity h ha hw ht hslots hlimit
  · exact ManyDeclarations.slice?_name h

namespace ManyDeclarations

/-- An empty table of three slots, two of which were used before. -/
def threeSlots : Table := ⟨⟨3, .reject, none⟩, [⟨none, 7⟩, ⟨none, 0⟩, ⟨none, 2⟩], 0⟩

end ManyDeclarations

/-- Three variables fill a table of three slots, and are one too many for a table of two: the error
stands at `v2`, on the fifth line. -/
theorem three_declarations_fill_three_slots :
    3 ≤ TableConfig.maxCapacity ∧ 2 ≤ TableConfig.maxCapacity ∧
      ManyDeclarations.threeSlots.Empty ∧ ManyDeclarations.threeSlots.capacity = 3 ∧
      (∃ m, compileFor (Sample.manyDeclarations 3) 3 = .ok m ∧ m.slotCount = 3 ∧
        let report := m.lower.execute .system .buffer ManyDeclarations.threeSlots
        report.output.text = "0\n1\n2\n" ∧ report.exitCode = 0 ∧ report.released = 3) ∧
      ∃ span, compileFor (Sample.manyDeclarations 3) 2 = .error (.tooManyVariables 2 span) ∧
        span.line = 5 ∧ span.column = 1 ∧
        span.slice? (Sample.manyDeclarations 3) = some "v2" := by
  have hthree : 3 ≤ TableConfig.maxCapacity := by decide
  have htwo : 2 ≤ TableConfig.maxCapacity := by decide
  have hempty : ManyDeclarations.threeSlots.Empty := ⟨rfl, rfl⟩
  obtain ⟨m, hm, hcount, hrun⟩ :=
    (many_declarations_run_or_are_refused hthree 3).1 (Nat.le_refl 3)
  have houtput : Sample.manyDeclarationsOutput 3 = "0\n1\n2\n" := by decide +kernel
  have hname : "v" ++ Decimal.ofNat 2 = "v2" := by decide +kernel
  rw [houtput] at hrun
  have hrefused := (many_declarations_run_or_are_refused htwo 3).2 (by decide)
  rw [hname] at hrefused
  exact ⟨hthree, htwo, hempty, rfl,
    ⟨m, hm, hcount, hrun .system .buffer _ (fun _ ↦ rfl) Writer.accepts_buffer hempty rfl rfl⟩,
    hrefused⟩

end SlotLang
