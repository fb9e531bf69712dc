import DbSteward.Moment.Basic
import DbSteward.Text.Numeral

/-!
# Writing moments

Moments in universal time with the mark `Z`, with no fraction or the first of
three, six and nine places that loses nothing.
-/

namespace DbSteward
namespace Moment

/-- A year in four digits; one that needs more, or a negative one, has its sign. -/
def yearText (year : Int) : List Char :=
  if 0 ≤ year && year ≤ 9999 then Text.decimalPadded 4 year.natAbs
  else (if year < 0 then '-' else '+') :: Text.decimalPadded 4 year.natAbs

def fractionText (nanos : Nat) : List Char :=
  if nanos == 0 then []
  else if nanos % 1000000 == 0 then '.' :: Text.decimalPadded 3 (nanos / 1000000)
  else if nanos % 1000 == 0 then '.' :: Text.decimalPadded 6 (nanos / 1000)
  else '.' :: Text.decimalPadded 9 nanos

def text (m : Moment) : String :=
  let day := m.day
  let second := (m.seconds % secondsPerDay).toNat
  let leap := 1000000000 ≤ m.nanos
  let pair := Text.decimalPadded 2
  String.ofList <|
    yearText day.year ++ '-' :: pair day.month ++ '-' :: pair day.day
      ++ 'T' :: pair (second / 3600) ++ ':' :: pair (second / 60 % 60)
      ++ ':' :: pair (second % 60 + if leap then 1 else 0)
      ++ fractionText (if leap then m.nanos - 1000000000 else m.nanos) ++ ['Z']

end Moment
end DbSteward
