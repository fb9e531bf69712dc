/-!
# Binary floating point numbers of 64 bits

A number is its bit pattern: a sign bit, eleven exponent bits and 52 fraction
bits.  Only what the library does with such numbers is defined here, which is to
tell them apart, to round an exact ratio to the nearest of them, and to multiply
and divide by that rounding.
-/

namespace DbSteward

structure Binary64 where
  bits : UInt64
  deriving DecidableEq

namespace Binary64

def fractionBits : Nat := Nat.pow 2 52

def signBit : Nat := Nat.pow 2 63

def exponentField (x : Binary64) : Nat :=
  x.bits.toNat / fractionBits % Nat.pow 2 11

def fractionField (x : Binary64) : Nat :=
  x.bits.toNat % fractionBits

def isNegative (x : Binary64) : Bool :=
  signBit ≤ x.bits.toNat

def isFinite (x : Binary64) : Bool :=
  x.exponentField < 2047

def isNaN (x : Binary64) : Bool :=
  x.exponentField == 2047 && x.fractionField != 0

def isZero (x : Binary64) : Bool :=
  x.bits.toNat % signBit == 0

/-- Equality of numbers: the two zeros are equal, and so are any two patterns
that are no number. -/
def same (x y : Binary64) : Bool :=
  x == y || (x.isNaN && y.isNaN) || (x.isZero && y.isZero)

@[simp] theorem same_self (x : Binary64) : x.same x = true := by
  simp [same]

theorem same_comm (x y : Binary64) : x.same y = y.same x := by
  unfold same
  rw [Bool.and_comm x.isNaN, Bool.and_comm x.isZero, BEq.comm]

def withSign (negative : Bool) (magnitude : Nat) : Binary64 :=
  ⟨UInt64.ofNat (if negative then signBit + magnitude else magnitude)⟩

def zero (negative : Bool) : Binary64 :=
  withSign negative 0

def infinity (negative : Bool) : Binary64 :=
  withSign negative (2047 * fractionBits)

def notANumber : Binary64 :=
  withSign false (2047 * fractionBits + fractionBits / 2)

/-- The integer that the fraction of a finite number stands for, its leading bit
included. -/
def significand (x : Binary64) : Nat :=
  if x.exponentField = 0 then x.fractionField else fractionBits + x.fractionField

/-- The power of two that scales the significand, offset by 1074. -/
def scale (x : Binary64) : Nat :=
  x.exponentField - 1

def ratio (x : Binary64) : Nat × Nat :=
  (x.significand * Nat.pow 2 x.scale, Nat.pow 2 1074)

/-- The quotient rounded to the nearest integer, a half to the even one. -/
def roundDiv (num den : Nat) : Nat :=
  let quotient := num / den
  let rest := 2 * (num % den)
  if den < rest || (rest == den && quotient % 2 == 1) then quotient + 1 else quotient

/-- The scale at which a ratio has a significand of 53 bits, or the least scale
when the ratio is too small for that. -/
def scaleOf (num den : Nat) : Nat :=
  let guess := num.log2 + 1074 - den.log2 - 53
  if Nat.pow 2 53 * den * Nat.pow 2 guess ≤ num * Nat.pow 2 1074 then guess + 1 else guess

/-- The number nearest to a ratio, of two the one with the even significand.
Ratios past the finite range give an infinity. -/
def ofRatio (negative : Bool) (num den : Nat) : Binary64 :=
  if num = 0 then zero negative
  else
    let scale := scaleOf num den
    let significand := roundDiv (num * Nat.pow 2 1074) (den * Nat.pow 2 scale)
    let magnitude := scale * fractionBits + significand
    if 2047 * fractionBits ≤ magnitude then infinity negative
    else withSign negative magnitude

def ofNat (negative : Bool) (n : Nat) : Binary64 :=
  ofRatio negative n 1

def ofInt (i : Int) : Binary64 :=
  ofNat (i < 0) i.natAbs

/-- The magnitude of a product of finite numbers. -/
def mul (x y : Binary64) : Binary64 :=
  ofRatio false (x.ratio.1 * y.ratio.1) (x.ratio.2 * y.ratio.2)

/-- The magnitude of a quotient of finite numbers, the second of them not zero. -/
def div (x y : Binary64) : Binary64 :=
  ofRatio false (x.ratio.1 * y.ratio.2) (x.ratio.2 * y.ratio.1)

/-- The power of ten as a number; it is exact up to the twenty-second. -/
def powerOfTen (k : Nat) : Binary64 :=
  ofNat false (Nat.pow 10 k)

def negate (x : Binary64) : Binary64 :=
  withSign (!x.isNegative) (x.bits.toNat % signBit)

end Binary64
end DbSteward
