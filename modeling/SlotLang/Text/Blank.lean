/-!
# Blank characters

The characters that separate tokens and carry no meaning: the Unicode property `White_Space`.
-/

namespace SlotLang.Text

/-- The inclusive code point ranges of `White_Space`. -/
def blankRanges : List (Nat × Nat) :=
  [(0x09, 0x0d), (0x20, 0x20), (0x85, 0x85), (0xa0, 0xa0), (0x1680, 0x1680), (0x2000, 0x200a),
   (0x2028, 0x2029), (0x202f, 0x202f), (0x205f, 0x205f), (0x3000, 0x3000)]

/-- Whether a code point lies in one of the ranges. -/
def inRanges (ranges : List (Nat × Nat)) (code : Nat) : Bool :=
  ranges.any fun r ↦ r.1 ≤ code && code ≤ r.2

/-- Whether `c` is white space; a line feed is. -/
def isBlank (c : Char) : Bool := inRanges blankRanges c.toNat

end SlotLang.Text
