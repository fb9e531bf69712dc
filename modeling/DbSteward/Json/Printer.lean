import DbSteward.Json.Basic
import DbSteward.Binary64.Shortest

/-!
# Writing JSON text

Compact text on one line, and text spread over lines with two spaces per level.
-/

namespace DbSteward
namespace Json

/-- Real numbers are written without an exponent from a hundred-thousandth up to
sixteen digits before the point. -/
def realLayout : Decimal.Layout :=
  ⟨16, 4⟩

def hexDigit (n : Nat) : Char :=
  (Nat.toDigits 16 n).headD '0'

def escape (c : Char) : List Char :=
  if c == '"' then ['\\', '"']
  else if c == '\\' then ['\\', '\\']
  else if c == '\n' then ['\\', 'n']
  else if c == '\r' then ['\\', 'r']
  else if c == '\t' then ['\\', 't']
  else if c == '\x08' then ['\\', 'b']
  else if c == '\x0c' then ['\\', 'f']
  else if c.toNat < 0x20 then
    ['\\', 'u', '0', '0', hexDigit (c.toNat / 16), hexDigit (c.toNat % 16)]
  else [c]

def quoted (s : String) : List Char :=
  '"' :: s.toList.flatMap escape ++ ['"']

def realText (x : Binary64) : List Char :=
  if !x.isFinite then "null".toList
  else
    let magnitude := if x.isZero then ['0', '.', '0'] else x.shortest.text realLayout
    if x.isNegative then '-' :: magnitude else magnitude

def leafText : Json → List Char
  | .flag true => "true".toList
  | .flag false => "false".toList
  | .integer i => Text.decimalInt i
  | .real x => realText x
  | .text s => quoted s
  | _ => "null".toList

mutual
def compactChars : Json → List Char
  | .array items => '[' :: compactItems items ++ [']']
  | .object members => '\x7b' :: compactMembers members ++ ['\x7d']
  | leaf => leafText leaf

def compactItems : List Json → List Char
  | [] => []
  | [item] => compactChars item
  | item :: items => compactChars item ++ ',' :: compactItems items

def compactMembers : List (String × Json) → List Char
  | [] => []
  | [member] => quoted member.1 ++ ':' :: compactChars member.2
  | member :: members =>
      quoted member.1 ++ ':' :: compactChars member.2 ++ ',' :: compactMembers members
end

def lineBreak (level : Nat) : List Char :=
  '\n' :: List.replicate (2 * level) ' '

mutual
def spreadChars (level : Nat) : Json → List Char
  | .array [] => ['[', ']']
  | .array items =>
      '[' :: spreadItems (level + 1) items ++ lineBreak level ++ [']']
  | .object [] => ['\x7b', '\x7d']
  | .object members =>
      '\x7b' :: spreadMembers (level + 1) members ++ lineBreak level ++ ['\x7d']
  | leaf => leafText leaf

def spreadItems (level : Nat) : List Json → List Char
  | [] => []
  | [item] => lineBreak level ++ spreadChars level item
  | item :: items =>
      lineBreak level ++ spreadChars level item ++ ',' :: spreadItems level items

def spreadMembers (level : Nat) : List (String × Json) → List Char
  | [] => []
  | [member] =>
      lineBreak level ++ quoted member.1 ++ ':' :: ' ' :: spreadChars level member.2
  | member :: members =>
      lineBreak level ++ quoted member.1 ++ ':' :: ' ' :: spreadChars level member.2
        ++ ',' :: spreadMembers level members
end

def compact (j : Json) : String :=
  String.ofList (compactChars j)

def spread (j : Json) : String :=
  String.ofList (spreadChars 0 j)

end Json
end DbSteward
