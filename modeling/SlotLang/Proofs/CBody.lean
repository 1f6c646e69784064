import SlotLang.Module.CText
import SlotLang.Proofs.CSyntax
import SlotLang.Proofs.Resolution

/-!
# What emitted bodies read as

`Module.cStmts` is the body of a program as a list of C statements, and the texts of
`SlotLang.Module.CText` are shown to be read as just that: `lex_cBody` for the body alone and
`lex_cBody_closing` with the end of the standard template behind it. The second is not a matter of
course, since the body of an empty program is a comment, which would swallow what follows it on its
line.

A text is taken apart at its numbers. What stands between two numbers is a fixed text, whose tokens
are computed; `Scans.number` joins the pieces, from the last to the first, because where a number
ends is decided by what follows it.

`fill_standard` cuts the file made from the standard template into the part before the body, the
body and the part behind it. `le_of_mem_tokens` bounds the literals: slots by the number of
declarations, constants because the least `int` is written as a difference.
-/

namespace SlotLang

/-! ### The forms of a program -/

/-- The form of an `int` constant. -/
def C.Expr.ofInt32 (v : Int32) : C.Expr :=
  if v = Int32.minValue then .difference 2147483647 1
  else if v < 0 then .negative v.toInt.natAbs
  else .number v.toInt.toNat

/-- The form of an expression. A call has none; no checked program has one here, and it counts as
zero. -/
def Expr.cExpr : Expr → C.Expr
  | .int v _ => .ofInt32 v
  | .read _ v _ => .slot v.slot
  | .call .. => .number 0

/-- The forms of a statement. -/
def Stmt.cStmts : Stmt → List C.Stmt
  | .declaration _ v value _ =>
    [.create v.slot v.type.slotSize, .bail v.slot 1, .store v.slot value.cExpr]
  | .expr (.call .print args _) => args.map fun e ↦ .print e.cExpr
  | .expr e => [.eval e.cExpr]

/-- The forms of a program. -/
def Module.cStmts (m : Module) : List C.Stmt := m.statements.flatMap Stmt.cStmts

/-! ### Numbers -/

theorem lt_zero_iff_toInt {v : Int32} : v < 0 ↔ v.toInt < 0 := by
  rw [Int32.lt_iff_toInt_lt, Int32.toInt_zero]

/-- The three forms of an `int` constant: the least one, one whose sign can be changed, and one that
is a literal by itself. -/
theorem C.Expr.ofInt32_cases (v : Int32) :
    v = Int32.minValue ∧ ofInt32 v = .difference 2147483647 1 ∨
      (-2147483647 ≤ v.toInt ∧ v.toInt < 0) ∧ ofInt32 v = .negative v.toInt.natAbs ∨
      0 ≤ v.toInt ∧ ofInt32 v = .number v.toInt.toNat := by
  have hge := v.le_toInt
  unfold ofInt32
  split
  · rename_i hmin
    exact .inl ⟨hmin, rfl⟩
  · rename_i hmin
    have hmin' : v.toInt ≠ -2147483648 := fun heq ↦ hmin (Int32.toInt_inj.1 heq)
    split
    · rename_i hneg
      have hneg' := lt_zero_iff_toInt.1 hneg
      exact .inr (.inl ⟨by omega, rfl⟩)
    · rename_i hneg
      have hneg' := mt lt_zero_iff_toInt.2 hneg
      exact .inr (.inr ⟨by omega, rfl⟩)

namespace Decimal

theorem toList_ofNat (n : Nat) : (ofNat n).toList = digits n :=
  String.toList_ofList

theorem toList_ofInt32_of_neg {v : Int32} (h : v < 0) :
    (ofInt32 v).toList = '-' :: digits v.toInt.natAbs := by
  have hneg := lt_zero_iff_toInt.1 h
  rw [ofInt32]
  cases hv : v.toInt with
  | ofNat n =>
    rw [hv] at hneg
    cases hneg
  | negSucc n =>
    show ("-" ++ ofNat (n + 1)).toList = _
    rw [String.toList_append, toList_ofNat]
    rfl

theorem toList_ofInt32_of_not_neg {v : Int32} (h : ¬ v < 0) :
    (ofInt32 v).toList = digits v.toInt.toNat := by
  have hneg := mt lt_zero_iff_toInt.2 h
  rw [ofInt32]
  cases hv : v.toInt with
  | ofNat n => exact toList_ofNat n
  | negSucc n =>
    rw [hv] at hneg
    exact absurd (Int.negSucc_lt_zero n) hneg

end Decimal

/-! ### The text of a statement -/

section Text

open C (Scans Breaks)

variable {text : List Char} {ts : List C.Token}

theorem scans_cInt (v : Int32) (h : Scans text ts) (hbreak : Breaks text) :
    Scans ((cInt v).toList ++ text) ((C.Expr.ofInt32 v).tokens ++ ts) := by
  unfold cInt C.Expr.ofInt32
  split
  · have hleast : Scans "(-2147483647 - 1)".toList (C.Expr.difference 2147483647 1).tokens := by
      decide +kernel
    exact hleast.append h
  · split
    · rename_i hneg
      simp only [String.toList_append, Decimal.toList_ofInt32_of_neg hneg]
      have hopen : Scans ['(', '-'] [.mark '(', .mark '-'] := by decide
      have hclose : Scans [')'] [.mark ')'] := by decide
      exact (hopen.append (hclose.number v.toInt.natAbs rfl)).append h
    · rename_i hneg
      rw [Decimal.toList_ofInt32_of_not_neg hneg]
      exact h.number v.toInt.toNat hbreak

theorem scans_cSlot (i : Nat) : Scans (cSlot i).toList (C.slotTokens i) := by
  unfold cSlot
  simp only [String.append_assoc, String.toList_append, Decimal.toList_ofNat]
  have hopen : Scans "*((int*)pysq_variable_ptr(".toList
      [.mark '*', .mark '(', .mark '(', .name .int, .mark '*', .mark ')', .name .pointer,
        .mark '('] := by decide
  have hclose : Scans "))".toList [.mark ')', .mark ')'] := by decide
  exact hopen.append (hclose.number i rfl)

/-- The text of a value may stand before any text that a number does not run into. -/
theorem Expr.Resolved.scans_toC {r : Registry} {e : Expr} (he : e.Resolved r)
    (h : Scans text ts) (hbreak : Breaks text) :
    Scans (e.toC.toList ++ text) (e.cExpr.tokens ++ ts) := by
  cases he with
  | int v span => exact scans_cInt v h hbreak
  | @read name v span hv =>
    show Scans (("(" ++ cSlot v.slot ++ ")").toList ++ text) _
    simp only [String.toList_append]
    have hopen : Scans "(".toList [.mark '('] := by decide
    have hclose : Scans ")".toList [.mark ')'] := by decide
    exact ((hopen.append (scans_cSlot v.slot)).append hclose).append h

theorem scans_bodyBreak : Scans bodyBreak.toList [] := by decide

theorem Stmt.Checked.scans_toC {r r' : Registry} {s : Stmt} (hs : s.Checked r r') :
    Scans s.toC.toList (s.cStmts.flatMap C.Stmt.tokens) := by
  have hend : Scans ";".toList [.mark ';'] := by decide
  cases hs with
  | @declaration name type v value r' span hvalue hv =>
    unfold Stmt.toC
    simp only [String.append_assoc, String.toList_append, Decimal.toList_ofNat]
    have hopen : Scans "pysq_create_variable(".toList [.name .create, .mark '('] := by decide
    have hcomma : Scans ", ".toList [.mark ','] := by decide
    have hclose : Scans ");".toList [.mark ')', .mark ';'] := by decide
    have hif : Scans "if (pysq_variable_ptr(".toList
        [.name .cond, .mark '(', .name .pointer, .mark '('] := by decide
    have hbail : Scans ") == NULL) \x7b pysq_cleanup(NULL); return (1); \x7d".toList
        ([.mark ')', .equality, .name .null, .mark ')', .mark '\x7b'] ++ C.Stmt.cleanupTokens ++
          C.Stmt.leaveTokens 1 ++ [.mark '\x7d']) := by decide +kernel
    have hassign : Scans " = ".toList [.mark '='] := by decide
    -- the three lines, the last of them first
    have hstore := (scans_cSlot v.slot).append (hassign.append (hvalue.scans_toC hend rfl))
    have hcheck := hif.append ((hbail.append (scans_bodyBreak.append hstore)).number v.slot rfl)
    have hcreate := hopen.append ((hcomma.append ((hclose.append
      (scans_bodyBreak.append hcheck)).number v.type.slotSize rfl)).number v.slot rfl)
    simpa [Stmt.cStmts, C.Stmt.tokens] using hcreate
  | @call builtin args span harity hargs =>
    cases builtin
    obtain ⟨e, rfl⟩ := List.length_eq_one_iff.1 harity
    have htext : (Expr.call .print [e] span).toC ++ ";" = "pysq_print(" ++ (e.toC ++ ");") := by
      show "pysq_print" ++ "(" ++ e.toC ++ ")" ++ ";" = _
      simp only [String.append_assoc]
      rfl
    have hopen : Scans "pysq_print(".toList [.name .print, .mark '('] := by decide
    have hclose : Scans ");".toList [.mark ')', .mark ';'] := by decide
    show Scans ((Expr.call .print [e] span).toC ++ ";").toList _
    rw [htext, String.toList_append, String.toList_append]
    have hall := hopen.append ((hargs e (by simp)).scans_toC hclose rfl)
    simpa [Stmt.cStmts, C.Stmt.tokens] using hall
  | @value e he =>
    have htokens : (Stmt.expr e).cStmts = [.eval e.cExpr] := by
      cases he <;> rfl
    show Scans (e.toC ++ ";").toList _
    rw [htokens, String.toList_append]
    simpa [C.Stmt.tokens] using he.scans_toC hend rfl

theorem Stmt.CheckedAll.scans_intercalate {r r' : Registry} {ss : List Stmt}
    (hs : Stmt.CheckedAll r ss r') (hne : ss ≠ []) :
    Scans (bodyBreak.intercalate (ss.map Stmt.toC)).toList
      ((ss.flatMap Stmt.cStmts).flatMap C.Stmt.tokens) := by
  induction hs with
  | nil => exact absurd rfl hne
  | @cons r r₁ r' s ss hs hss ih =>
    cases ss with
    | nil => simpa [String.intercalate_singleton] using hs.scans_toC
    | cons s' ss =>
      have hrest := scans_bodyBreak.append (ih (by simp))
      have hall := hs.scans_toC.append hrest
      simpa [String.intercalate_cons_cons] using hall

end Text

/-! ### The standard template -/

namespace Template

/-- The standard template up to its marker. -/
def opening : String :=
  "// Default main for py-squared programs.\n" ++
  "// Link against the pysq-ffi library; pysq.h is generated by its build.\n" ++
  "#include <stddef.h>\n" ++
  "#include \"pysq.h\"\n" ++
  "\n" ++
  "int main(void) \x7b\n" ++
  "    "

/-- What the standard template does behind its marker. -/
def closing : String := "\n    pysq_cleanup(NULL);\n    return (0);\n"

theorem standard_eq : standard = opening ++ (marker ++ (closing ++ "\x7d\n")) := by
  decide +kernel

/-- A text without a `%` has no marker and stays as it is. -/
theorem splice_of_not_mem (body : List Char) {cs : List Char} (h : '%' ∉ cs) :
    splice body cs = cs := by
  induction cs with
  | nil => rw [splice]
  | cons c cs ih =>
    have hc : ¬ marker.toList.isPrefixOf (c :: cs) = true := by
      intro hprefix
      exact h ((List.isPrefixOf_iff_prefix.1 hprefix).subset (by decide))
    rw [splice, if_neg hc, ih fun hmem ↦ h (List.mem_cons_of_mem c hmem)]

/-- A marker behind a text without a `%` is the first, and it is replaced. -/
theorem splice_append_marker (body : List Char) {pre rest : List Char} (h : '%' ∉ pre) :
    splice body (pre ++ (marker.toList ++ rest)) = pre ++ (body ++ splice body rest) := by
  induction pre with
  | nil =>
    have hhead : marker.toList = '/' :: "/ %main".toList := by decide
    have hlen : marker.length - 1 = "/ %main".toList.length := by decide
    have hprefix : marker.toList.isPrefixOf ('/' :: ("/ %main".toList ++ rest)) = true := by
      rw [← List.cons_append, ← hhead, List.isPrefixOf_iff_prefix]
      exact List.prefix_append ..
    rw [List.nil_append, hhead, List.cons_append, splice, if_pos hprefix, hlen, List.drop_left]
    rfl
  | cons c pre ih =>
    -- a marker that began here would have its `%` before that of the next one
    have hc : ¬ marker.toList.isPrefixOf (c :: (pre ++ (marker.toList ++ rest))) = true := by
      intro hprefix
      have hsign : ['/', '/', ' ', '%'] <+: marker.toList := by decide
      have hbefore : ['/', '/', ' '] <+: marker.toList := by decide
      have hpart : c :: pre ++ ['/', '/', ' '] <+: c :: pre ++ (marker.toList ++ rest) :=
        (List.prefix_append_right_inj (c :: pre)).2 (hbefore.trans (List.prefix_append ..))
      have hearly := List.prefix_of_prefix_length_le
        (hsign.trans (List.isPrefixOf_iff_prefix.1 hprefix)) hpart (by simp)
      rcases List.mem_append.1 (hearly.subset (show '%' ∈ _ by decide)) with hmem | hmem
      · exact h hmem
      · exact absurd hmem (by decide)
    rw [List.cons_append, splice, if_neg hc, ih fun hmem ↦ h (List.mem_cons_of_mem c hmem)]
    rfl

/-- The one marker of the standard template is where the body goes. -/
theorem fill_standard (body : String) :
    fill standard body = opening ++ body ++ closing ++ "\x7d\n" := by
  have hopening : '%' ∉ opening.toList := by
    unfold opening
    simp only [String.toList_append, List.mem_append]
    decide +kernel
  have hclosing : '%' ∉ (closing ++ "\x7d\n").toList := by decide +kernel
  apply String.toList_inj.1
  rw [fill, String.toList_ofList, standard_eq, String.toList_append, String.toList_append,
    splice_append_marker _ hopening, splice_of_not_mem _ hclosing]
  simp only [String.toList_append, List.append_assoc]

end Template

/-! ### Whole bodies -/

section Whole

variable {m : Module} {r r' : Registry}

theorem scans_closing :
    C.Scans Template.closing.toList ([C.Stmt.cleanup, .leave 0].flatMap C.Stmt.tokens) := by
  decide +kernel

/-- The body of a checked program is made of the tokens of its forms. -/
theorem Stmt.CheckedAll.lex_cBody (hs : Stmt.CheckedAll r m.statements r') :
    C.lex m.cBody = some (m.cStmts.flatMap C.Stmt.tokens) := by
  unfold Module.cBody Module.cStmts
  by_cases hempty : m.statements = []
  · rw [hempty]
    decide +kernel
  · rw [if_neg (by simpa using hempty)]
    exact (hs.scans_intercalate hempty).lex

/-- So it is with the end of the template behind it; the comment of an empty body ends in time. -/
theorem Stmt.CheckedAll.lex_cBody_closing (hs : Stmt.CheckedAll r m.statements r') :
    C.lex (m.cBody ++ Template.closing) =
      some ((m.cStmts ++ [C.Stmt.cleanup, .leave 0]).flatMap C.Stmt.tokens) := by
  unfold Module.cBody Module.cStmts
  by_cases hempty : m.statements = []
  · rw [hempty]
    decide +kernel
  · rw [if_neg (by simpa using hempty), List.flatMap_append]
    apply C.Scans.lex
    rw [String.toList_append]
    exact (hs.scans_intercalate hempty).append scans_closing

/-- A literal of an `int` constant is at most the greatest `int`. -/
theorem C.Expr.le_of_mem_ofInt32 {v : Int32} {n : Nat}
    (h : C.Token.number n ∈ (C.Expr.ofInt32 v).tokens) : n ≤ 2147483647 := by
  have hlt := v.toInt_lt
  rcases C.Expr.ofInt32_cases v with ⟨-, hform⟩ | ⟨hneg, hform⟩ | ⟨hpos, hform⟩
  · have hn : n = 2147483647 ∨ n = 1 := by simpa [hform, C.Expr.tokens] using h
    omega
  · have hn : n = v.toInt.natAbs := by simpa [hform, C.Expr.tokens] using h
    omega
  · have hn : n = v.toInt.toNat := by simpa [hform, C.Expr.tokens] using h
    omega

theorem Expr.Resolved.le_of_mem_tokens {e : Expr} (he : e.Resolved r) (hr : r.Bounded)
    (hcount : r.slotCount ≤ 2147483647) {n : Nat} (h : C.Token.number n ∈ e.cExpr.tokens) :
    n ≤ 2147483647 := by
  cases he with
  | int v span => exact C.Expr.le_of_mem_ofInt32 h
  | @read name v span hv =>
    have hn : n = v.slot := by simpa [Expr.cExpr, C.Expr.tokens, C.slotTokens] using h
    have hlt := hr hv
    omega

theorem Stmt.Checked.le_of_mem_tokens {s : Stmt} (hs : s.Checked r r') (hr : r.Bounded)
    (hcount : r.slotCount ≤ 2147483647) {n : Nat}
    (h : C.Token.number n ∈ s.cStmts.flatMap C.Stmt.tokens) : n ≤ 2147483647 := by
  cases hs with
  | @declaration name type v value r' span hvalue hv =>
    obtain ⟨rfl, -⟩ := Registry.declare?_eq_some hv
    have hsize : type.slotSize = 8 := by cases type; rfl
    -- the numbers of the three lines in order; the slot stands in each
    have hn : n = r.slotCount ∨ n = type.slotSize ∨ n = r.slotCount ∨ n = 1 ∨ n = r.slotCount ∨
        .number n ∈ value.cExpr.tokens := by
      simpa [Stmt.cStmts, C.Stmt.tokens, C.slotTokens, C.Stmt.cleanupTokens,
        C.Stmt.leaveTokens] using h
    rcases hn with hn | hn | hn | hn | hn | hn
    · omega
    · omega
    · omega
    · omega
    · omega
    · exact hvalue.le_of_mem_tokens hr hcount hn
  | @call builtin args span harity hargs =>
    cases builtin
    obtain ⟨e, he, hn⟩ : ∃ e ∈ args, .number n ∈ e.cExpr.tokens := by
      simpa [Stmt.cStmts, C.Stmt.tokens, List.flatMap_map] using h
    exact (hargs e he).le_of_mem_tokens hr hcount hn
  | @value e he =>
    have hn : .number n ∈ e.cExpr.tokens := by
      cases he <;> simpa [Stmt.cStmts, C.Stmt.tokens] using h
    exact he.le_of_mem_tokens hr hcount hn

/-- **Every literal of a program fits in an `int`**, as long as its slots do. -/
theorem Stmt.CheckedAll.le_of_mem_tokens {ss : List Stmt} (hs : Stmt.CheckedAll r ss r')
    (hr : r.Bounded) (hcount : r'.slotCount ≤ 2147483647) {n : Nat}
    (h : C.Token.number n ∈ (ss.flatMap Stmt.cStmts).flatMap C.Stmt.tokens) :
    n ≤ 2147483647 := by
  induction hs with
  | nil => cases h
  | @cons r r₁ r' s ss hs hss ih =>
    have hle := hs.slotCount_le
    have hle' := hss.slotCount_le
    rw [List.flatMap_cons, List.flatMap_append, List.mem_append] at h
    rcases h with h | h
    · exact hs.le_of_mem_tokens hr (by omega) h
    · exact ih (hs.bounded hr) hcount h

end Whole

end SlotLang
