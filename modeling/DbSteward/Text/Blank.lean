/-!
# Blank characters

The characters with the Unicode property `White_Space`, and texts with the
blanks at both ends removed.
-/

namespace DbSteward
namespace Text

/-- The ranges of the property `White_Space`, both ends included. -/
def blankRanges : List (Nat × Nat) :=
  [(0x0009, 0x000D), (0x0020, 0x0020), (0x0085, 0x0085), (0x00A0, 0x00A0),
    (0x1680, 0x1680), (0x2000, 0x200A), (0x2028, 0x2029), (0x202F, 0x202F),
    (0x205F, 0x205F), (0x3000, 0x3000)]

def isBlank (c : Char) : Bool :=
  blankRanges.any fun (first, last) => first ≤ c.toNat && c.toNat ≤ last

def dropBlanks (cs : List Char) : List Char :=
  cs.dropWhile isBlank

def trimBlanks (cs : List Char) : List Char :=
  (dropBlanks (dropBlanks cs).reverse).reverse

end Text
end DbSteward
