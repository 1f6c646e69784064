/-!
# Decimal numerals

How numbers are written: digits from the most significant down, no leading zero, a minus sign
in front of a negative value. `Decimal.value` reads a run of digits, and `value_digits` says
that it reads back what `Decimal.digits` writes.
-/

namespace SlotLang.Decimal

/-- The numeral of a number below ten. -/
def digit (d : Nat) : Char := Char.ofNat ('0'.toNat + d)

/-- The digits of `n`, most significant first; zero has the single digit `0`. -/
def digits (n : Nat) : List Char :=
  if n < 10 then [digit n] else digits (n / 10) ++ [digit (n % 10)]

/-- Whether `c` is one of the ten ASCII digits. -/
def isDigit (c : Char) : Bool := '0' ≤ c && c ≤ '9'

/-- The number a run of digits stands for; leading zeros do not count. -/
def value (cs : List Char) : Nat := cs.foldl (fun n c ↦ 10 * n + (c.toNat - '0'.toNat)) 0

/-- The number a text spells if it is one or more digits. -/
def natural? (cs : List Char) : Option Nat :=
  if cs.isEmpty || !cs.all isDigit then none else some (value cs)

/-- The number a text spells if it is one or more digits, possibly behind a sign. -/
def integer? (cs : List Char) : Option Int :=
  match cs with
  | '+' :: ds => (natural? ds).map fun n ↦ (n : Int)
  | '-' :: ds => (natural? ds).map fun n ↦ -(n : Int)
  | ds => (natural? ds).map fun n ↦ (n : Int)

/-- The 32-bit integer equal to `z`, if there is one. -/
def int32? (z : Int) : Option Int32 :=
  if -2147483648 ≤ z ∧ z ≤ 2147483647 then some (Int32.ofInt z) else none

/-- A natural number in decimal. -/
def ofNat (n : Nat) : String := String.ofList (digits n)

/-- An integer in decimal. -/
def ofInt : Int → String
  | .ofNat n => ofNat n
  | .negSucc n => "-" ++ ofNat (n + 1)

/-- A 32-bit integer in decimal. -/
def ofInt32 (v : Int32) : String := ofInt v.toInt

/-! ### Reading back -/

theorem toNat_digit {d : Nat} (h : d < 10) : (digit d).toNat = '0'.toNat + d := by
  have hd : d = 0 ∨ d = 1 ∨ d = 2 ∨ d = 3 ∨ d = 4 ∨ d = 5 ∨ d = 6 ∨ d = 7 ∨ d = 8 ∨ d = 9 := by
    omega
  rcases hd with rfl | rfl | rfl | rfl | rfl | rfl | rfl | rfl | rfl | rfl <;> rfl

/-- One more digit at the end multiplies what stands before it by ten. -/
theorem value_append_singleton (cs : List Char) (c : Char) :
    value (cs ++ [c]) = 10 * value cs + (c.toNat - '0'.toNat) := by
  simp [value]

/-- The digits of a number are read back as that number. -/
theorem value_digits (n : Nat) : value (digits n) = n := by
  fun_induction digits n with
  | case1 n h => simp [value, toNat_digit h]
  | case2 n h ih =>
    rw [value_append_singleton, ih, toNat_digit (Nat.mod_lt n (by decide))]
    omega

end SlotLang.Decimal
