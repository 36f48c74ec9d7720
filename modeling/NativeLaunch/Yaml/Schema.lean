/-!
# Typed readings of plain text

A plain scalar may be read as null, a truth value or a number instead of text.  This file says which
texts have such a reading; a text that has one, and zero-padded digits, which other readers take
for numbers, are written in quotes.
-/

namespace NativeLaunch

namespace Yaml

namespace Schema

/-- The words for null. -/
def nullWords : List (List Char) := ["null", "Null", "NULL", "~"].map String.toList

/-- The words for truth values. -/
def truthWords : List (List Char) :=
  ["true", "True", "TRUE", "false", "False", "FALSE"].map String.toList

/-- Whether a text is a word for null. -/
def isNull (text : List Char) : Bool := nullWords.contains text

/-! ## Integers -/

/-- The value of a digit in a radix of at most sixteen. -/
def digitValue? (radix : Nat) (c : Char) : Option Nat :=
  let value? : Option Nat :=
    if c.isDigit then some (c.toNat - '0'.toNat)
    else if 'a' ≤ c && c ≤ 'f' then some (c.toNat - 'a'.toNat + 10)
    else if 'A' ≤ c && c ≤ 'F' then some (c.toNat - 'A'.toNat + 10)
    else none
  value?.filter (· < radix)

/-- The number that one or more digits spell. -/
def number? (radix : Nat) (digits : List Char) : Option Nat :=
  if digits = [] then none
  else digits.foldlM (fun value c => (digitValue? radix c).map (value * radix + ·)) 0

/-- The radix that a text starts with, and what follows its mark. -/
def radixMark? : List Char → Option (Nat × List Char)
  | '0' :: 'x' :: rest => some (16, rest)
  | '0' :: 'o' :: rest => some (8, rest)
  | '0' :: 'b' :: rest => some (2, rest)
  | _ => none

/-- Whether digits with a mark of their radix, or decimal ones, spell a number below a bound. -/
def isNumberBelow (bound : Nat) (text : List Char) : Bool :=
  let marked := match radixMark? text with
    | some (radix, digits) => (number? radix digits).any (· < bound)
    | none => false
  marked || (number? 10 text).any (· < bound)

/-- Whether a text is a zero with more digits after it, signed or not. -/
def isZeroPadded (text : List Char) : Bool :=
  let digits := match text with
    | '-' :: rest => rest
    | '+' :: rest => rest
    | _ => text
  match digits with
  | '0' :: d :: rest => (d :: rest).all Char.isDigit
  | _ => false

/-- Whether a text is an integer: at most 128 bits, with a sign or not. -/
def isInteger (text : List Char) : Bool :=
  !isZeroPadded text &&
    match text with
    | '-' :: magnitude => isNumberBelow ((1 <<< 127) + 1) magnitude
    | '+' :: magnitude => isNumberBelow (1 <<< 128) magnitude
    | _ => isNumberBelow (1 <<< 128) text

/-! ## Floating point -/

/-- A decimal number: its digits as one number, and the power of ten it is multiplied by. -/
structure Decimal where
  digits : Nat
  exponent : Int
deriving DecidableEq, Repr

namespace Decimal

/-- The least number that is too large for a double, once rounded. -/
def overflow : Nat := (1 <<< 1024) - (1 <<< 970)

/-- Whether a decimal number is finite as a double.  A power of ten beyond 400 is too large for any
digits but zeros, and one that takes all digits away is small enough. -/
def isFinite (number : Decimal) : Bool :=
  if number.digits = 0 then true
  else
    match number.exponent with
    | .ofNat power => power ≤ 400 && number.digits * Nat.pow 10 power < overflow
    | .negSucc power =>
      (Nat.toDigits 10 number.digits).length ≤ power + 1 ||
        number.digits < overflow * Nat.pow 10 (power + 1)

/-- Reads decimal digits. -/
def readDigits (text : List Char) : List Char × List Char :=
  (text.takeWhile Char.isDigit, text.dropWhile Char.isDigit)

/-- Reads an exponent up to the end of the text. -/
def readExponent? : List Char → Option Int
  | [] => some 0
  | c :: rest =>
    if c = 'e' || c = 'E' then
      match rest with
      | '-' :: digits => (number? 10 digits).map fun n => -(n : Int)
      | '+' :: digits => (number? 10 digits).map fun n => (n : Int)
      | digits => (number? 10 digits).map fun n => (n : Int)
    else none

/-- Reads an unsigned decimal number: digits with a point anywhere among them or none, and an
exponent if there is one. -/
def read? (text : List Char) : Option Decimal :=
  let (whole, afterWhole) := readDigits text
  let (fraction, rest) := match afterWhole with
    | '.' :: more => readDigits more
    | _ => ([], afterWhole)
  (number? 10 (whole ++ fraction)).bind fun digits =>
    (readExponent? rest).map fun power => ⟨digits, power - fraction.length⟩

end Decimal

/-- The words for infinity, without a sign. -/
def infinityWords : List (List Char) := [".inf", ".Inf", ".INF"].map String.toList

/-- The words for what is no number. -/
def notANumberWords : List (List Char) := [".nan", ".NaN", ".NAN"].map String.toList

/-- Whether a text is a floating point number: finite, or one of the words. -/
def isFloat (text : List Char) : Bool :=
  let isFinite (magnitude : List Char) : Bool := (Decimal.read? magnitude).any Decimal.isFinite
  notANumberWords.contains text ||
    match text with
    | '-' :: magnitude => infinityWords.contains magnitude || isFinite magnitude
    | '+' :: magnitude => infinityWords.contains magnitude || isFinite magnitude
    | _ => infinityWords.contains text || isFinite text

/-- Whether a plain text would be read as anything but text, or be taken for a number. -/
def isTyped (text : List Char) : Bool :=
  text = [] || isNull text || truthWords.contains text || isZeroPadded text || isInteger text ||
    isFloat text

end Schema

end Yaml

end NativeLaunch
