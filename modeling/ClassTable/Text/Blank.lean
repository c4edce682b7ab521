/-!
White space as the Unicode property `White_Space` has it, and texts freed of it at both ends.
-/

namespace ClassTable.Text

/-- The ranges of code points that carry the property `White_Space`, both ends included. -/
def blankRanges : List (Nat × Nat) :=
  [(0x9, 0xD), (0x20, 0x20), (0x85, 0x85), (0xA0, 0xA0), (0x1680, 0x1680), (0x2000, 0x200A),
    (0x2028, 0x2029), (0x202F, 0x202F), (0x205F, 0x205F), (0x3000, 0x3000)]

def isBlank (char : Char) : Bool :=
  blankRanges.any fun (first, last) => decide (first ≤ char.toNat) && decide (char.toNat ≤ last)

def trimList (chars : List Char) : List Char :=
  ((chars.dropWhile isBlank).reverse.dropWhile isBlank).reverse

end ClassTable.Text
