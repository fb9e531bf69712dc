import DbSteward.Moment.Basic
import DbSteward.Text.Blank
import DbSteward.Text.Parts

/-!
# Reading moments

Dates with a time and an offset, in a relaxed form of the internet date format:
the letters may be small, a space may stand for the `T`, numbers may be short, and
blanks may stand before each number, mark and offset.  The moment is given in
universal time.
-/

namespace DbSteward
namespace Moment

def number? (most : Nat) (cs : List Char) : Option (Nat × List Char) :=
  let digits := (cs.take most).takeWhile Char.isDigit
  if digits.isEmpty then none
  else
    some (digits.foldl (fun n c => 10 * n + (c.toNat - '0'.toNat)) 0, cs.drop digits.length)

/-- A year: up to four digits, or a sign and any number of digits. -/
def year? (cs : List Char) : Option (Int × List Char) :=
  match Text.dropBlanks cs with
  | '-' :: cs => (number? cs.length cs).map fun (n, rest) => (-Int.ofNat n, rest)
  | '+' :: cs => (number? cs.length cs).map fun (n, rest) => (Int.ofNat n, rest)
  | cs => (number? 4 cs).map fun (n, rest) => (Int.ofNat n, rest)

/-- A number of up to two digits, blanks before it skipped. -/
def pair? (cs : List Char) : Option (Nat × List Char) :=
  number? 2 (Text.dropBlanks cs)

def mark? (mark : Char) (cs : List Char) : Option (List Char) :=
  Text.after? [mark] (Text.dropBlanks cs)

/-- Nanoseconds after a point, if there is one; digits past the ninth are
dropped. -/
def nanos? : List Char → Option (Nat × List Char)
  | '.' :: cs => do
      let (n, rest) ← number? 9 cs
      let places := (cs.takeWhile Char.isDigit).length
      return (n * Nat.pow 10 (9 - places), rest.dropWhile Char.isDigit)
  | cs => some (0, cs)

def isOffsetGap (c : Char) : Bool :=
  c == ':' || Text.isBlank c

/-- An offset of hours and minutes, in seconds. -/
def clock? (cs : List Char) : Option (Int × List Char) :=
  match cs with
  | a :: b :: cs =>
      if a.isDigit && b.isDigit then do
        let (hours, _) ← number? 2 [a, b]
        match cs.dropWhile isOffsetGap with
        | c :: d :: rest =>
            if '0' ≤ c && c ≤ '5' && d.isDigit then do
              let (minutes, _) ← number? 2 [c, d]
              return (hours * 3600 + minutes * 60, rest)
            else none
        | _ => none
      else none
  | _ => none

def offset? (cs : List Char) : Option (Int × List Char) :=
  match cs with
  | 'Z' :: cs => some (0, cs)
  | 'z' :: cs => some (0, cs)
  | '+' :: cs => clock? cs
  | '-' :: cs => (clock? cs).map fun (n, rest) => (-n, rest)
  | '\u2212' :: cs => (clock? cs).map fun (n, rest) => (-n, rest)
  | u :: t :: c :: cs =>
      if u.toLower == 'u' && t.toLower == 't' && c.toLower == 'c' then some (0, cs) else none
  | _ => none

def ofText? (text : String) : Option Moment := do
  let (year, cs) ← year? text.toList
  let (month, cs) ← pair? (← mark? '-' cs)
  let (dayOfMonth, cs) ← pair? (← mark? '-' cs)
  let cs ← match cs with
    | 'T' :: cs => some cs
    | 't' :: cs => some cs
    | ' ' :: cs => some cs
    | _ => none
  let (hour, cs) ← pair? cs
  let (minute, cs) ← pair? (← mark? ':' cs)
  let (second, cs) ← pair? (← mark? ':' cs)
  let (nanos, cs) ← nanos? cs
  let (offset, cs) ← offset? (Text.dropBlanks cs)
  let day : CalendarDay := ⟨year, month, dayOfMonth⟩
  let localSeconds := day.toDays * secondsPerDay + hour * 3600 + minute * 60 + min second 59
  let moment : Moment :=
    ⟨localSeconds - offset, if second == 60 then nanos + 1000000000 else nanos⟩
  if (Text.dropBlanks cs).isEmpty && day.isValid && inRange day && hour ≤ 23 && minute ≤ 59
      && second ≤ 60 && offset.natAbs < 86400 && inRange moment.day then
    some moment
  else none

end Moment
end DbSteward
