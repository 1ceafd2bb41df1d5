/-! Blank characters, those with the property `White_Space`, and text without blanks at its ends. -/
namespace FaultBench.Text

/-- The ranges of the property, both ends included. -/
def blankRanges : List (Nat × Nat) :=
  [(0x09, 0x0D), (0x20, 0x20), (0x85, 0x85), (0xA0, 0xA0), (0x1680, 0x1680), (0x2000, 0x200A),
    (0x2028, 0x2029), (0x202F, 0x202F), (0x205F, 0x205F), (0x3000, 0x3000)]

def isBlank (c : Char) : Bool := blankRanges.any fun r => r.1 ≤ c.toNat && c.toNat ≤ r.2

def stripLeft (s : List Char) : List Char := s.dropWhile isBlank

def strip (s : List Char) : List Char := (stripLeft (stripLeft s).reverse).reverse

/-- The property holds of 25 characters. -/
example : (blankRanges.map fun r => r.2 - r.1 + 1).sum = 25 := by decide

end FaultBench.Text
