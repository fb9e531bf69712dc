import DbSteward.Json.Basic

/-!
# Number literals

The value of a number literal from its digits.  A literal without fraction and
exponent is an integer as far as a 64-bit word holds it.  Any other is a real
number: its leading digits are taken as an integer of 64 bits, the digits past
that are dropped, and the result is multiplied or divided by a power of ten in
double precision.
-/

namespace DbSteward
namespace Json

/-- A number literal, its digits as values below ten. -/
structure NumberLiteral where
  negative : Bool
  whole : List Nat
  fraction : List Nat
  /-- The exponent: whether it is negative, and its digits. -/
  exponent : Option (Bool × List Nat)
  /-- A point was written, so the literal is real whatever follows. -/
  pointed : Bool

def wordLimit : Nat := UInt64.size - 1

/-- Takes digits onto a value for as long as the value fits in 64 bits, and gives
the digits left over. -/
def absorb : Nat → List Nat → Nat × List Nat
  | value, [] => (value, [])
  | value, digit :: digits =>
      if wordLimit < value * 10 + digit then (value, digit :: digits)
      else absorb (value * 10 + digit) digits

def greatestPower : Nat := 308

/-- Divides by the greatest power of ten as long as the power left is less than
its negative. -/
def lowered : Nat → Binary64 → Int → Option Binary64
  | 0, x, _ => some x
  | steps + 1, x, power =>
      if power.natAbs ≤ greatestPower then
        if 0 ≤ power then
          let product := x.mul (Binary64.powerOfTen power.natAbs)
          if product.isFinite then some product else none
        else some (x.div (Binary64.powerOfTen power.natAbs))
      else if x.isZero then some x
      else if 0 ≤ power then none
      else lowered steps (x.div (Binary64.powerOfTen greatestPower)) (power + greatestPower)

/-- An integer times a power of ten; nothing when it is past the finite range. -/
def scaled (significand : Nat) (power : Int) : Option Binary64 :=
  lowered (power.natAbs / greatestPower + 1) (Binary64.ofNat false significand) power

def signed (negative : Bool) : Option Binary64 → Json
  | none => .malformed
  | some x => .real (if negative then x.negate else x)

def exponentLimit : Nat := UInt32.size / 2 - 1

def exponentValue? : Nat → List Nat → Option Nat
  | value, [] => some value
  | value, digit :: digits =>
      if exponentLimit < value * 10 + digit then none
      else exponentValue? (value * 10 + digit) digits

def NumberLiteral.value (literal : NumberLiteral) : Json :=
  let (whole, dropped) := absorb 0 literal.whole
  let (significand, unread) := absorb whole literal.fraction
  let power : Int := dropped.length - (literal.fraction.length - unread.length : Nat)
  match literal.exponent with
  | some (negativeExponent, digits) =>
      match exponentValue? 0 digits with
      | some exponent =>
          signed literal.negative
            (scaled significand (if negativeExponent then power - exponent else power + exponent))
      | none =>
          if significand ≠ 0 && !negativeExponent then .malformed
          else .real (Binary64.zero literal.negative)
  | none =>
      if literal.pointed || !dropped.isEmpty then
        signed literal.negative (scaled significand power)
      else if !literal.negative then .integer whole
      else if whole = 0 || UInt64.size / 2 < whole then
        .real (Binary64.ofNat true whole)
      else .integer (-whole)

end Json
end DbSteward
