/-!
# Blank space and letter case

Names reported by a host are compared without the space around them and without regard to the
case of ASCII letters.  This file holds the set of blank characters (the Unicode property
`White_Space`) and the two foldings.
-/

namespace NativeLaunch

namespace Text

/-- The Unicode property `White_Space`, as closed ranges of code points. -/
def blankRanges : List (Nat × Nat) :=
  [(0x09, 0x0D), (0x20, 0x20), (0x85, 0x85), (0xA0, 0xA0), (0x1680, 0x1680), (0x2000, 0x200A),
    (0x2028, 0x2029), (0x202F, 0x202F), (0x205F, 0x205F), (0x3000, 0x3000)]

/-- Whether a character is blank. -/
def isBlank (c : Char) : Bool :=
  blankRanges.any fun (low, high) => low ≤ c.toNat && c.toNat ≤ high

/-- A text without the blank characters at its two ends. -/
def trim (text : List Char) : List Char :=
  ((text.dropWhile isBlank).reverse.dropWhile isBlank).reverse

/-- A text with its ASCII capitals made small; all other characters stay. -/
def foldCase (text : List Char) : List Char :=
  text.map Char.toLower

/-- The form in which reported names are compared. -/
def normalize (text : String) : List Char :=
  foldCase (trim text.toList)

end Text

end NativeLaunch
