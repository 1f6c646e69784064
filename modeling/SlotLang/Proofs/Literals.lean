import Mathlib.Data.List.Induction
import Mathlib.Data.Nat.Digits.Defs
import SlotLang.Proofs.CBody
import SlotLang.Proofs.Grammar
import SlotLang.Proofs.Relexing
import SlotLang.Proofs.Runs

/-!
# Integer literals are read exactly

A literal that is no name is an integer, an integer that does not fit, or neither. `Written` says
what an integer is and which one, without the reader: digits, possibly behind a minus sign, each
digit counting for its place. How many zeros stand in front makes no difference.

Two recognizers decide the matter. The first reads a number of 32 bits or gives up, and knows a plus
sign, which no literal of a text can have. The second sees only what the first gave up on, and tells
a number that is too large from a text that is no number. `Token.integer_cases` says that together
they split all literals into three classes, and `Token.integer_eq_iff` that the answer tells the
class.

Numbers are printed as their decimals, so what is printed is a literal of the same value
(`Decimal.written_ofInt32`), and a literal that is printed comes out without its padding
(`execute_print`).
-/

namespace SlotLang

/-! ### Digits and their values -/

/-- The number that digits stand for: the last of them counts ones, the one before it tens. -/
def positional (ds : List Char) : Nat :=
  Nat.ofDigits 10 (ds.reverse.map fun c ↦ c.toNat - '0'.toNat)

/-- A literal that is an integer: one or more digits, with a minus sign before them or none. -/
inductive Written : List Char → Int → Prop
  | plain {ds : List Char} (h : Digits ds) : Written ds (positional ds)
  | minus {ds : List Char} (h : Digits ds) : Written ('-' :: ds) (-(positional ds : Int))

/-- An integer that fits into 32 bits. -/
def InRange (z : Int) : Prop := -2 ^ 31 ≤ z ∧ z < 2 ^ 31

instance (z : Int) : Decidable (InRange z) := inferInstanceAs (Decidable (_ ∧ _))

theorem inRange_toInt (v : Int32) : InRange v.toInt := ⟨v.le_toInt, v.toInt_lt⟩

theorem InRange.toInt_ofInt {z : Int} (h : InRange z) : (Int32.ofInt z).toInt = z :=
  Int32.toInt_ofInt_of_le h.1 h.2

namespace Decimal

/-- Digits read from the left have the value that their places give them. -/
theorem value_eq_positional (ds : List Char) : value ds = positional ds := by
  induction ds using List.reverseRecOn with
  | nil => rfl
  | append_singleton ds c ih =>
    rw [value_append_singleton, ih, positional, positional, List.reverse_append,
      List.reverse_singleton, List.singleton_append, List.map_cons, Nat.ofDigits_cons, Nat.add_comm]

theorem digits_eq_toDigits (n : Nat) : digits n = Nat.toDigits 10 n := by
  have hdigit : ∀ d < 10, digit d = d.digitChar := by decide
  fun_induction digits n with
  | case1 n h => rw [Nat.toDigits_of_lt_base h, hdigit n h]
  | case2 n h ih =>
    rw [Nat.toDigits_of_base_le (by decide) (Nat.not_lt.1 h), ih,
      hdigit _ (Nat.mod_lt n (by decide))]

theorem ofNat_eq_toString (n : Nat) : ofNat n = toString n := by
  rw [ofNat, digits_eq_toDigits, Nat.toString_eq_ofList_toDigits]

theorem ofInt32_eq_toString (v : Int32) : ofInt32 v = toString v.toInt := by
  rw [ofInt32]
  cases v.toInt with
  | ofNat n => exact ofNat_eq_toString n
  | negSucc n => exact congrArg ("-" ++ ·) (ofNat_eq_toString (n + 1))

/-- The digits of a number are digits, and stand for it. -/
theorem digits_positional (n : Nat) : Digits (digits n) ∧ positional (digits n) = n := by
  rw [← value_eq_positional]
  exact natural?_eq_some_iff.1 (natural?_digits n)

theorem isSome_natural?_iff {cs : List Char} : (natural? cs).isSome = true ↔ Digits cs := by
  rw [Option.isSome_iff_exists]
  simp only [natural?_eq_some_iff, exists_and_left, exists_eq', and_true]

end Decimal

/-! ### Integers among the literals -/

section Integers

variable {cs : List Char} {z z' : Int}

theorem Written.numeral (h : Written cs z) : Numeral cs z := by
  cases h with
  | plain hds => exact Decimal.value_eq_positional _ ▸ .plain hds
  | minus hds => exact Decimal.value_eq_positional _ ▸ .minus hds

/-- A plus sign is no character of a literal, so only these numerals are left. -/
theorem written_of_numeral (hword : ∀ c ∈ cs, IsWordChar c) (h : Numeral cs z) : Written cs z := by
  cases h with
  | plain hds => exact Decimal.value_eq_positional _ ▸ .plain hds
  | minus hds => exact Decimal.value_eq_positional _ ▸ .minus hds
  | plus _ => exact absurd (hword '+' List.mem_cons_self) (by decide)

/-- A literal is one integer at most. -/
theorem Written.unique (h : Written cs z) (h' : Written cs z') : z = z' :=
  Option.some.inj ((Decimal.integer?_eq_some_iff.2 h.numeral).symm.trans
    (Decimal.integer?_eq_some_iff.2 h'.numeral))

theorem Written.word (h : Written cs z) : cs ≠ [] ∧ ∀ c ∈ cs, IsWordChar c := by
  have hdigit : ∀ c : Char, '0' ≤ c ∧ c ≤ '9' → IsWordChar c := fun c hc ↦ .inr (.inr (.inl hc))
  cases h with
  | plain hds => exact ⟨hds.1, fun c hc ↦ hdigit c (hds.2 c hc)⟩
  | minus hds =>
    exact ⟨List.cons_ne_nil _ _,
      List.forall_mem_cons.2 ⟨by decide, fun c hc ↦ hdigit c (hds.2 c hc)⟩⟩

/-- No name begins with a digit or a dash. -/
theorem isNameStart_eq_false {c : Char} (h : ('0' ≤ c ∧ c ≤ '9') ∨ c = '-') :
    isNameStart c = false := by
  have hclasses : isNameStart c = (decide ('A' ≤ c ∧ c ≤ 'Z') ||
      (decide ('a' ≤ c) && decide (c ≤ 'z')) || decide (c = '_')) := rfl
  rcases h with h | rfl
  · have hupper : ¬ 'A' ≤ c := fun hc ↦ absurd (Char.le_trans hc h.2) (by decide)
    have hlower : ¬ 'a' ≤ c := fun hc ↦ absurd (Char.le_trans hc h.2) (by decide)
    have hline : c ≠ '_' := by
      rintro rfl
      exact absurd h.2 (by decide)
    simp [hclasses, hupper, hlower, hline]
  · decide

theorem Written.isName_eq_false {text : String} (h : Written text.toList z) :
    isName text = false := by
  obtain ⟨c, cs, htext, hc⟩ : ∃ c cs, text.toList = c :: cs ∧
      (('0' ≤ c ∧ c ≤ '9') ∨ c = '-') := by
    generalize text.toList = l at h
    cases h with
    | plain hds =>
      obtain ⟨c, cs, rfl⟩ := List.exists_cons_of_ne_nil hds.1
      exact ⟨c, cs, rfl, .inl (hds.2 c List.mem_cons_self)⟩
    | minus hds => exact ⟨'-', _, rfl, .inr rfl⟩
  simp only [isName, htext, isNameStart_eq_false hc, Bool.false_and]

end Integers

/-! ### The three classes -/

namespace Token

variable {t : Token}

/-- What the second recognizer makes of a literal that the first gave up on. -/
theorem integer_of_none (h : (Decimal.integer? t.lexeme.toList).bind Decimal.int32? = none) :
    (∃ z, Written t.lexeme.toList z) ∧
        t.integer = .error (.integerOutOfRange t.lexeme t.span) ∨
      (¬ ∃ z, Written t.lexeme.toList z) ∧
        t.integer = .error (.invalidLiteral t.lexeme t.span) := by
  rw [integer, h]
  simp only
  generalize t.lexeme.toList = cs
  split
  · rename_i ds
    split
    · rename_i hds
      exact .inl ⟨⟨_, .minus (Decimal.isSome_natural?_iff.1 hds)⟩, rfl⟩
    · rename_i hds
      refine .inr ⟨?_, rfl⟩
      rintro ⟨z, hz⟩
      cases hz with
      | plain h => exact absurd (h.2 '-' List.mem_cons_self) (by decide)
      | minus h => exact hds (Decimal.isSome_natural?_iff.2 h)
  · rename_i hminus
    split
    · rename_i hds
      exact .inl ⟨⟨_, .plain (Decimal.isSome_natural?_iff.1 hds)⟩, rfl⟩
    · rename_i hds
      refine .inr ⟨?_, rfl⟩
      rintro ⟨z, hz⟩
      cases hz with
      | plain h => exact hds (Decimal.isSome_natural?_iff.2 h)
      | minus h => exact hminus _ rfl

variable (hword : ∀ c ∈ t.lexeme.toList, IsWordChar c)
include hword

/-- **A literal is in one of three classes**, and is answered for its class. -/
theorem integer_cases :
    (∃ v : Int32, Written t.lexeme.toList v.toInt ∧ t.integer = .ok v) ∨
      (∃ z, Written t.lexeme.toList z ∧ ¬ InRange z ∧
        t.integer = .error (.integerOutOfRange t.lexeme t.span)) ∨
      (¬ ∃ z, Written t.lexeme.toList z) ∧
        t.integer = .error (.invalidLiteral t.lexeme t.span) := by
  cases h : (Decimal.integer? t.lexeme.toList).bind Decimal.int32? with
  | some v =>
    have hv : t.integer = .ok v := by rw [integer, h]
    exact .inl ⟨v, written_of_numeral hword (integer_eq_ok_iff.1 hv), hv⟩
  | none =>
    rcases integer_of_none h with ⟨⟨z, hz⟩, hrefused⟩ | hrefused
    · -- a number that fits would not have been given up on
      refine .inr (.inl ⟨z, hz, fun hrange ↦ ?_, hrefused⟩)
      have hok : t.integer = .ok (Int32.ofInt z) :=
        integer_eq_ok_iff.2 (hrange.toInt_ofInt.symm ▸ hz.numeral)
      cases hok.symm.trans hrefused
    · exact .inr (.inr hrefused)

/-- **The answer tells the class.** -/
theorem integer_eq_iff :
    (∀ z, (∃ v : Int32, v.toInt = z ∧ t.integer = .ok v) ↔
        Written t.lexeme.toList z ∧ InRange z) ∧
      (t.integer = .error (.integerOutOfRange t.lexeme t.span) ↔
        ∃ z, Written t.lexeme.toList z ∧ ¬ InRange z) ∧
      (t.integer = .error (.invalidLiteral t.lexeme t.span) ↔
        ¬ ∃ z, Written t.lexeme.toList z) := by
  rcases integer_cases hword with ⟨v, hv, hread⟩ | ⟨z, hz, hrange, hread⟩ | ⟨hno, hread⟩
  · refine ⟨fun z ↦ ⟨?_, ?_⟩, iff_of_false (by simp [hread]) ?_, iff_of_false (by simp [hread]) ?_⟩
    · rintro ⟨v', rfl, hread'⟩
      obtain rfl := Except.ok.inj (hread.symm.trans hread')
      exact ⟨hv, inRange_toInt v⟩
    · rintro ⟨hz, -⟩
      exact ⟨v, hv.unique hz, hread⟩
    · rintro ⟨z, hz, hout⟩
      exact hout (hv.unique hz ▸ inRange_toInt v)
    · exact fun hno ↦ hno ⟨_, hv⟩
  · refine ⟨fun z' ↦ iff_of_false (by simp [hread]) ?_, iff_of_true hread ⟨z, hz, hrange⟩,
      iff_of_false (by simp [hread]) fun hno ↦ hno ⟨z, hz⟩⟩
    rintro ⟨hz', hin⟩
    exact hrange (hz.unique hz' ▸ hin)
  · exact ⟨fun z ↦ iff_of_false (by simp [hread]) fun h ↦ hno ⟨z, h.1⟩,
      iff_of_false (by simp [hread]) fun ⟨z, hz, _⟩ ↦ hno ⟨z, hz⟩, iff_of_true hread hno⟩

end Token

/-- A literal that is no name is an expression if it is a number, whatever stands behind it. -/
theorem Feed.expression_eq_iff {f : Feed} (r : Registry) (asValue : Bool)
    (hkind : f.peek.kind = .literal) (hname : isName f.peek.lexeme = false) :
    (∀ v, f.expression r asValue = .ok (.int v f.peek.span, f.advance) ↔
        f.peek.integer = .ok v) ∧
      ∀ e, f.expression r asValue = .error e ↔ f.peek.integer = .error e := by
  have hident : f.peek.isIdentifier = false := by rw [Token.isIdentifier, hname, Bool.and_false]
  have hcall : f.atCall = false := by rw [atCall, hident, Bool.false_and]
  have hread : f.expression r asValue =
      f.peek.integer.map fun v ↦ (.int v f.peek.span, f.advance) := by
    simp only [expression, hkind, hcall, Token.atom, hident]
    cases f.peek.integer <;> rfl
  rw [hread]
  cases f.peek.integer <;> simp [Except.map]

/-! ### Numbers that are printed -/

/-- **The decimal of a number is a literal of its value.** -/
theorem Decimal.written_ofInt32 (v : Int32) : Written (ofInt32 v).toList v.toInt := by
  by_cases hneg : v < 0
  · obtain ⟨hdigits, hvalue⟩ := digits_positional v.toInt.natAbs
    have hz : -(v.toInt.natAbs : Int) = v.toInt := by
      have := lt_zero_iff_toInt.1 hneg
      omega
    have hwritten := Written.minus hdigits
    rwa [hvalue, hz, ← toList_ofInt32_of_neg hneg] at hwritten
  · obtain ⟨hdigits, hvalue⟩ := digits_positional v.toInt.toNat
    have hz : (v.toInt.toNat : Int) = v.toInt := by
      have := mt lt_zero_iff_toInt.2 hneg
      omega
    have hwritten := Written.plain hdigits
    rwa [hvalue, hz, ← toList_ofInt32_of_not_neg hneg] at hwritten

theorem Decimal.written_ofNat (n : Nat) : Written (ofNat n).toList n := by
  obtain ⟨hdigits, hvalue⟩ := digits_positional n
  have hwritten := Written.plain hdigits
  rwa [hvalue, ← toList_ofNat] at hwritten

theorem tokenize_print {literal : String} (hne : literal.toList ≠ [])
    (hword : ∀ c ∈ literal.toList, IsWordChar c) :
    ∃ word paren arg close last, tokenize ("print(" ++ literal ++ ")") =
      .ok ([[⟨.literal, "print", word⟩, ⟨.parenOpen, "(", paren⟩, ⟨.literal, literal, arg⟩,
        ⟨.parenClose, ")", close⟩]].flatten ++ [⟨.eof, "", last⟩]) := by
  have hopen : ('(', TokenKind.parenOpen) ∈ punctuation := by decide
  have hclose : (')', TokenKind.parenClose) ∈ punctuation := by decide
  have hprint : Token.IsWord ⟨.literal, "print", .nowhere⟩ :=
    .inr ⟨rfl, by decide, by simp [IsWordChar]⟩
  have hliteral : Token.IsWord ⟨.literal, literal, .nowhere⟩ := .inr ⟨rfl, hne, hword⟩
  have hend : ∀ p, scan p [] = .ok [⟨.eof, "", p.span []⟩] := fun p ↦ by rw [scan]
  have htext : ("print(" ++ literal ++ ")").toList =
      "print".toList ++ '(' :: (literal.toList ++ [')']) := by simp
  rw [tokenize, htext]
  exact ⟨_, _, _, _, _, scan_word hprint (fun _ ↦ stop_cons (by decide) _)
    (scan_mark hopen (scan_word hliteral (fun _ ↦ stop_cons (by decide) _)
      (scan_mark hclose (hend _))))⟩

/-- **Printing a literal prints its value**, on any table. -/
theorem execute_print {literal : String} {v : Int32} (h : Written literal.toList v.toInt)
    (capacity : Nat) :
    ∃ m, compileFor ("print(" ++ literal ++ ")") capacity = .ok m ∧
      ∀ (a : Allocator) (w : Writer) (t : Table), w.Accepts →
        (m.lower.execute a w t).result = .ok () ∧
          (m.lower.execute a w t).output.text = printedLine v := by
  obtain ⟨hne, hword⟩ := h.word
  obtain ⟨word, paren, arg, close, last, htokens⟩ := tokenize_print hne hword
  have hspelled : Stmt.SpelledAll []
      [[⟨.literal, "print", word⟩, ⟨.parenOpen, "(", paren⟩, ⟨.literal, literal, arg⟩,
        ⟨.parenClose, ")", close⟩]] [.expr (.call .print [.int v arg] word)] :=
    .cons (.print rfl rfl rfl (.number rfl h.isName_eq_false h.numeral) rfl) (.nil _)
  refine ⟨_, compileFor_of_spelledAll htokens rfl hspelled (Nat.zero_le capacity), ?_⟩
  intro a w t hw
  obtain ⟨out, hwrite, htext⟩ := hw.write {} (printedLine v)
  have hends : (runInstrs a w [.call .print [.const v]] t {}).Ends t out :=
    ends_runInstrs_cons (ends_print rfl hwrite) ends_runInstrs_nil
  refine ⟨hends.result, ?_⟩
  show (runInstrs a w [.call .print [.const v]] t {}).output.text = _
  rw [hends.output, htext]
  exact String.empty_append

/-- **Integer literals are read exactly.** Take a literal that is no name, of any length, where an
expression is expected.

It is read as the integer `z` if and only if it is written as `z` and `z` fits into 32 bits; it is
refused as out of range if and only if it is written as an integer that does not fit; and it is
refused as invalid if and only if it is not written as an integer at all.

What is printed for a number is its decimal, and this is read back as that number. So a program that
prints a literal prints the decimal of the literal's value, without the zeros in front. -/
theorem literals_are_read_exactly :
    (∀ (f : Feed) (r : Registry) (asValue : Bool), f.peek.kind = .literal →
      (∀ c ∈ f.peek.lexeme.toList, IsWordChar c) → isName f.peek.lexeme = false →
      (∀ z, (∃ v : Int32, v.toInt = z ∧
          f.expression r asValue = .ok (.int v f.peek.span, f.advance)) ↔
        Written f.peek.lexeme.toList z ∧ InRange z) ∧
      (f.expression r asValue = .error (.integerOutOfRange f.peek.lexeme f.peek.span) ↔
        ∃ z, Written f.peek.lexeme.toList z ∧ ¬ InRange z) ∧
      (f.expression r asValue = .error (.invalidLiteral f.peek.lexeme f.peek.span) ↔
        ¬ ∃ z, Written f.peek.lexeme.toList z)) ∧
    (∀ v : Int32, printedLine v = toString v.toInt ++ "\n" ∧
      ∀ (f : Feed) (r : Registry) (asValue : Bool), f.peek.kind = .literal →
        f.peek.lexeme = toString v.toInt →
        f.expression r asValue = .ok (.int v f.peek.span, f.advance)) ∧
    ∀ (literal : String) (z : Int), Written literal.toList z → InRange z → ∀ capacity,
      ∃ m, compileFor ("print(" ++ literal ++ ")") capacity = .ok m ∧
        ∀ (a : Allocator) (w : Writer) (t : Table), w.Accepts →
          (m.lower.execute a w t).result = .ok () ∧
            (m.lower.execute a w t).output.text = toString z ++ "\n" := by
  refine ⟨fun f r asValue hkind hword hname ↦ ?_, fun v ↦ ⟨?_, ?_⟩, ?_⟩
  · obtain ⟨hok, herror⟩ := Feed.expression_eq_iff r asValue hkind hname
    simp only [hok, herror]
    exact Token.integer_eq_iff hword
  · rw [printedLine, Decimal.ofInt32_eq_toString]
  · intro f r asValue hkind hlexeme
    have hwritten : Written f.peek.lexeme.toList v.toInt := by
      rw [hlexeme, ← Decimal.ofInt32_eq_toString]
      exact Decimal.written_ofInt32 v
    rw [(Feed.expression_eq_iff r asValue hkind hwritten.isName_eq_false).1]
    exact Token.integer_eq_ok_iff.2 hwritten.numeral
  · intro literal z hz hrange capacity
    obtain ⟨m, hm, hrun⟩ := execute_print (hrange.toInt_ofInt.symm ▸ hz) capacity
    refine ⟨m, hm, fun a w t hw ↦ ?_⟩
    rw [← hrange.toInt_ofInt, ← Decimal.ofInt32_eq_toString]
    exact hrun a w t hw

namespace LoneLiteral

/-- A literal with nothing behind it. -/
def feed (lexeme : String) : Feed := ⟨[⟨.literal, lexeme, .nowhere⟩], .nowhere⟩

end LoneLiteral

/-- Zeros in front are read and not printed, one more than the largest number is out of range, and
the decimal of the least number is read back. -/
theorem padded_literal_is_printed_bare :
    (LoneLiteral.feed "-007").peek.kind = .literal ∧ (∀ c ∈ "-007".toList, IsWordChar c) ∧
      isName "-007" = false ∧ Written "-007".toList (-7) ∧ InRange (-7) ∧
      (∃ v : Int32, v.toInt = -7 ∧
        (LoneLiteral.feed "-007").expression (.empty 0) true =
          .ok (.int v .nowhere, (LoneLiteral.feed "-007").advance)) ∧
      (LoneLiteral.feed "2147483648").expression (.empty 0) true =
        .error (.integerOutOfRange "2147483648" .nowhere) ∧
      (LoneLiteral.feed "-2147483648").expression (.empty 0) true =
        .ok (.int Int32.minValue .nowhere, (LoneLiteral.feed "-2147483648").advance) ∧
      ∃ m, compileFor "print(-007)" 0 = .ok m ∧
        (m.lower.execute .system .buffer .standard).output.text = "-7\n" := by
  obtain ⟨hread, hback, hprint⟩ := literals_are_read_exactly
  have hdigits : Digits "007".toList := ⟨by decide, by simp⟩
  have hdigits' : Digits "2147483648".toList := ⟨by decide, by simp⟩
  have hwritten : Written "-007".toList (-7) := .minus hdigits
  have hlarge : Written "2147483648".toList 2147483648 := .plain hdigits'
  have hrange : InRange (-7) := by decide
  obtain ⟨hok, -⟩ := hread (LoneLiteral.feed "-007") (.empty 0) true rfl hwritten.word.2 rfl
  obtain ⟨-, hout, -⟩ :=
    hread (LoneLiteral.feed "2147483648") (.empty 0) true rfl hlarge.word.2 rfl
  obtain ⟨m, hm, hrun⟩ := hprint "-007" (-7) hwritten hrange 0
  exact ⟨rfl, hwritten.word.2, rfl, hwritten, hrange, (hok (-7)).2 ⟨hwritten, hrange⟩,
    hout.2 ⟨_, hlarge, by decide⟩, (hback Int32.minValue).2 _ _ _ rfl (by decide), m, hm,
    (hrun .system .buffer .standard Writer.accepts_buffer).2⟩

end SlotLang
