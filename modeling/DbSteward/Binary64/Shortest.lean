import DbSteward.Binary64.Basic
import DbSteward.Text.Numeral

/-!
# Shortest decimals

The decimal of fewest digits that rounds to a given number, found in exact
integer arithmetic: for a growing count of digits, the two neighbours of the
number on that decimal grid are tried against the interval of reals that round to
it.
-/

namespace DbSteward

structure Decimal where
  coefficient : Nat
  exponent : Int
  deriving DecidableEq, Repr

namespace Binary64

/-- The interval of reals that round to a positive finite number, and the number
itself, in quarters of the unit of its last place. -/
structure Rounding where
  low : Nat
  value : Nat
  high : Nat
  /-- Whether the ends of the interval round to the number too. -/
  closed : Bool

def rounding (x : Binary64) : Rounding :=
  let m := x.significand
  let narrow := m == fractionBits && 0 < x.scale
  ⟨if narrow then 4 * m - 1 else 4 * m - 2, 4 * m, 4 * m + 2, m % 2 == 0⟩

/-- Places enough to bring every positive number above one. -/
def liftedPlaces : Nat := 330

/-- The power of ten of the leading digit of a positive finite number. -/
def leadingPower (x : Binary64) : Int :=
  let lifted := x.ratio.1 * Nat.pow 10 liftedPlaces / x.ratio.2
  (Text.decimal lifted).length - 1 - liftedPlaces

/-- The multiple of ten to `power` nearest to the number among those that round to
it, if one of its two neighbours on that grid does. -/
def onGrid? (x : Binary64) (power : Int) : Option Nat :=
  let num := Nat.pow 2 x.scale * Nat.pow 10 (-power).toNat
  let den := Nat.pow 2 1076 * Nat.pow 10 power.toNat
  let r := x.rounding
  let within := fun c : Nat =>
    if r.closed then r.low * num ≤ c * den && c * den ≤ r.high * num
    else r.low * num < c * den && c * den < r.high * num
  let below := r.value * num / den
  let rest := 2 * (r.value * num % den)
  let nearer := if rest < den || (rest == den && below % 2 == 0) then below else below + 1
  let further := if nearer == below then below + 1 else below
  if within nearer then some nearer
  else if within further then some further
  else none

/-- Tries grids of growing fineness, `places` of them at most. -/
def firstOnGrid (x : Binary64) : Nat → Int → Decimal
  | 0, power =>
      ⟨x.rounding.value * (Nat.pow 2 x.scale * Nat.pow 10 (-power).toNat) / Nat.pow 2 1076,
        power⟩
  | places + 1, power =>
      match x.onGrid? power with
      | some coefficient => ⟨coefficient, power⟩
      | none => firstOnGrid x places (power - 1)

/-- The shortest decimal that rounds to the magnitude of a finite number that is
not zero. -/
def shortest (x : Binary64) : Decimal :=
  firstOnGrid x 17 x.leadingPower

end Binary64

namespace Decimal

def trimZeros (digits : List Char) : List Char × Nat :=
  let trimmed := (digits.reverse.dropWhile (· == '0')).reverse
  (trimmed, digits.length - trimmed.length)

structure Layout where
  /-- The most digits before the point of a text without an exponent. -/
  mostWhole : Int
  /-- The most zeros after the point of a text without an exponent. -/
  mostZeros : Int

def exponentText (exponent : Int) : List Char :=
  'e' :: (if exponent < 0 then '-' else '+') :: Text.decimal exponent.natAbs

/-- The text of a positive decimal.  It always has a point or an exponent. -/
def text (layout : Layout) (d : Decimal) : List Char :=
  let (digits, zeros) := trimZeros (Text.decimal d.coefficient)
  let exponent := d.exponent + zeros
  let point := digits.length + exponent
  if 0 ≤ exponent && point ≤ layout.mostWhole then
    digits ++ List.replicate exponent.toNat '0' ++ ['.', '0']
  else if 0 < point && point ≤ layout.mostWhole then
    digits.take point.toNat ++ '.' :: digits.drop point.toNat
  else if point ≤ 0 && -point ≤ layout.mostZeros then
    '0' :: '.' :: List.replicate (-point).toNat '0' ++ digits
  else
    match digits with
    | [digit] => digit :: exponentText (point - 1)
    | digit :: others => digit :: '.' :: others ++ exponentText (point - 1)
    | [] => exponentText (point - 1)

end Decimal
end DbSteward
