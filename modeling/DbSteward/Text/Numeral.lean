import DbSteward.Text.Blank

/-!
# Decimal numerals in a machine range

Integers written in decimal digits, read into the range of a machine word. The
reading goes digit by digit, so the first digit at fault decides which error is
reported.
-/

namespace DbSteward
namespace Text

inductive NumeralError where
  | empty
  | invalidDigit
  | tooLarge
  | tooSmall
  deriving DecidableEq, Repr

def NumeralError.message : NumeralError → String
  | .empty => "cannot parse integer from empty string"
  | .invalidDigit => "invalid digit found in string"
  | .tooLarge => "number too large to fit in target type"
  | .tooSmall => "number too small to fit in target type"

def digitValue? (c : Char) : Option Nat :=
  if c.isDigit then some (c.toNat - '0'.toNat) else none

/-- Reads digits onto the value read so far. A value above `limit` is reported
as `excess`, unless the digit that would exceed it is no digit at all. -/
def magnitude (limit : Nat) (excess : NumeralError) :
    Nat → List Char → Except NumeralError Nat
  | value, [] => .ok value
  | value, c :: cs =>
      match digitValue? c with
      | none => .error .invalidDigit
      | some digit =>
          if limit < value * 10 + digit then .error excess
          else magnitude limit excess (value * 10 + digit) cs

/-- The digits of a numeral after its sign; a sign alone is not a numeral. -/
def digitsOnly (limit : Nat) (excess : NumeralError) (cs : List Char) :
    Except NumeralError Nat :=
  if cs.isEmpty then .error .invalidDigit else magnitude limit excess 0 cs

def unsignedLimit : Nat := UInt64.size - 1

/-- The greatest signed 64-bit word; the least one is one further from zero. -/
def signedLimit : Nat := UInt64.size / 2 - 1

def unsigned : List Char → Except NumeralError Nat
  | [] => .error .empty
  | '+' :: cs => digitsOnly unsignedLimit .tooLarge cs
  | cs => digitsOnly unsignedLimit .tooLarge cs

def signed : List Char → Except NumeralError Int
  | [] => .error .empty
  | '+' :: cs => (digitsOnly signedLimit .tooLarge cs).map Int.ofNat
  | '-' :: cs => (digitsOnly (signedLimit + 1) .tooSmall cs).map fun n => -Int.ofNat n
  | cs => (digitsOnly signedLimit .tooLarge cs).map Int.ofNat

def decimal (n : Nat) : List Char :=
  Nat.toDigits 10 n

def decimalPadded (width n : Nat) : List Char :=
  List.replicate (width - (decimal n).length) '0' ++ decimal n

def decimalInt (i : Int) : List Char :=
  if i < 0 then '-' :: decimal i.natAbs else decimal i.natAbs

end Text
end DbSteward
