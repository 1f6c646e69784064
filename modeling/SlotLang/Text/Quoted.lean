import SlotLang.Text.Blank
import SlotLang.Text.Combining
import SlotLang.Text.Unprintable

/-!
# A character in quotes

How a message shows a character that a reader may not be able to see: between single quotes,
the common control characters, the quote and the backslash by a two-character escape, any other
character that cannot stand alone by its code point.
-/

namespace SlotLang.Text

/-- The lower-case hexadecimal digit of a number below sixteen. -/
def hexDigit (d : Nat) : Char :=
  if d < 10 then Char.ofNat ('0'.toNat + d) else Char.ofNat ('a'.toNat + (d - 10))

/-- The hexadecimal digits of `n`, most significant first and without leading zeros. -/
def hexDigits (n : Nat) : List Char :=
  if n < 16 then [hexDigit n] else hexDigits (n / 16) ++ [hexDigit (n % 16)]

/-- Whether a character standing alone between quotes would be invisible. -/
def isHidden (c : Char) : Bool :=
  inRanges combiningRanges c.toNat || inRanges unprintableRanges c.toNat

/-- The form of `c` between the quotes. -/
def escape (c : Char) : String :=
  if c = '\x00' then "\\0"
  else if c = '\t' then "\\t"
  else if c = '\r' then "\\r"
  else if c = '\n' then "\\n"
  else if c = '\x27' then "\\'"
  else if c = '\\' then "\\\\"
  else if isHidden c then "\\u\x7b" ++ String.ofList (hexDigits c.toNat) ++ "\x7d"
  else String.singleton c

/-- A character between single quotes. -/
def quoted (c : Char) : String := "'" ++ escape c ++ "'"

end SlotLang.Text
