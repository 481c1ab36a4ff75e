/-! White space is a set of 25 code points, and trimming removes it at both ends of a text. -/

namespace HashTabs.Text

/-- The ranges of code points with the White_Space property, both ends included. -/
def blankRanges : List (Nat × Nat) :=
  [(0x0009, 0x000D), (0x0020, 0x0020), (0x0085, 0x0085), (0x00A0, 0x00A0), (0x1680, 0x1680),
    (0x2000, 0x200A), (0x2028, 0x2029), (0x202F, 0x202F), (0x205F, 0x205F), (0x3000, 0x3000)]

/-- A character is blank when it has the White_Space property. -/
def isBlank (c : Char) : Bool :=
  blankRanges.any fun r => decide (r.1 ≤ c.toNat ∧ c.toNat ≤ r.2)

/-- A text without its blank characters at either end. -/
def trim (s : List Char) : List Char :=
  ((s.dropWhile isBlank).reverse.dropWhile isBlank).reverse

/-- Holds of a text that is empty or made of blank characters only. -/
def allBlank (s : String) : Bool :=
  s.toList.all isBlank

example : (blankRanges.map fun r => r.2 - r.1 + 1).sum = 25 := by decide

example : isBlank '\u200b' = false ∧ isBlank '\ufeff' = false ∧ isBlank '\u001c' = false := by
  decide

end HashTabs.Text
