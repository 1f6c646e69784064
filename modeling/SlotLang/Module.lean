import SlotLang.Registry
import SlotLang.Span

/-!
# Checked programs

A `Module` is a program after its names have been resolved: every read and every declaration
carries the variable it stands for, and every call the function.
-/

namespace SlotLang

/-- An expression. -/
inductive Expr where
  /-- An integer literal. -/
  | int (value : Int32) (span : Span)
  /-- A read of a declared variable. -/
  | read (name : String) (var : Variable) (span : Span)
  /-- A call, with its arguments in order; the span is that of the function's name. -/
  | call (builtin : Builtin) (args : List Expr) (span : Span)
deriving Repr, Inhabited

namespace Expr

mutual

/-- Equality of expressions is decided node by node. -/
def decEq : (a b : Expr) → Decidable (a = b)
  | int v s, int w t => decidable_of_iff (v = w ∧ s = t) (by simp)
  | read n v s, read m w t => decidable_of_iff (n = m ∧ v = w ∧ s = t) (by simp)
  | call f as s, call g bs t =>
    match decEqList as bs with
    | .isTrue h => decidable_of_iff (f = g ∧ s = t) (by simp [h])
    | .isFalse h => .isFalse (by simp [h])
  | int .., read .. | int .., call .. | read .., int .. | read .., call .. | call .., int ..
  | call .., read .. => .isFalse (by simp)

/-- Equality of argument lists is decided argument by argument. -/
def decEqList : (as bs : List Expr) → Decidable (as = bs)
  | [], [] => .isTrue rfl
  | a :: as, b :: bs =>
    match decEq a b, decEqList as bs with
    | .isTrue h, .isTrue k => .isTrue (by rw [h, k])
    | .isFalse h, _ => .isFalse (by simp [h])
    | _, .isFalse k => .isFalse (by simp [k])
  | [], _ :: _ | _ :: _, [] => .isFalse (by simp)

end

instance : DecidableEq Expr := decEq

/-- The place of the expression's first token. -/
def span : Expr → Span
  | int _ s | read _ _ s | call _ _ s => s

/-- Whether evaluating the expression yields a value. -/
def hasValue : Expr → Bool
  | int .. | read .. => true
  | call builtin .. => builtin.returnsValue

end Expr

/-- A statement. -/
inductive Stmt where
  /-- `name: type = value`; the span is that of the name. -/
  | declaration (name : String) (var : Variable) (value : Expr) (span : Span)
  /-- An expression evaluated for its effect. -/
  | expr (expr : Expr)
deriving Repr, Inhabited, DecidableEq

/-- A whole program. -/
structure Module where
  /-- The statements in source order. -/
  statements : List Stmt
  /-- The number of slots the program uses. -/
  slotCount : Nat
deriving Repr, Inhabited, DecidableEq

end SlotLang
