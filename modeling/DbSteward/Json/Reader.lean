import DbSteward.Json.Number

/-!
# Reading JSON text

A reader for the whole grammar of JSON.  Texts with unpaired surrogates, objects
with a key of that kind and numbers past the range of doubles are read as
`Json.malformed`; anything outside the grammar is refused.
-/

namespace DbSteward
namespace Json

def isSpace (c : Char) : Bool :=
  c == ' ' || c == '\n' || c == '\t' || c == '\r'

def skipSpace (cs : List Char) : List Char :=
  cs.dropWhile isSpace

/-- What a text literal is made of: characters as such, and code units written as
escapes. -/
inductive Piece where
  | char (c : Char)
  | unit (n : Nat)

def isHighSurrogate (n : Nat) : Bool :=
  0xD800 ≤ n && n < 0xDC00

def isLowSurrogate (n : Nat) : Bool :=
  0xDC00 ≤ n && n < 0xE000

/-- Spells out the pieces of a literal; each surrogate needs its partner right
beside it. -/
def spell : List Piece → Option (List Char)
  | [] => some []
  | .char c :: pieces => (spell pieces).map (c :: ·)
  | .unit high :: .unit low :: pieces =>
      if isHighSurrogate high then
        if isLowSurrogate low then
          (spell pieces).map
            (Char.ofNat (0x10000 + (high - 0xD800) * 0x400 + (low - 0xDC00)) :: ·)
        else none
      else if isLowSurrogate high then none
      else (spell (.unit low :: pieces)).map (Char.ofNat high :: ·)
  | .unit n :: pieces =>
      if isHighSurrogate n || isLowSurrogate n then none
      else (spell pieces).map (Char.ofNat n :: ·)

def hexDigit? (c : Char) : Option Nat :=
  if c.isDigit then some (c.toNat - '0'.toNat)
  else if 'a' ≤ c && c ≤ 'f' then some (c.toNat - 'a'.toNat + 10)
  else if 'A' ≤ c && c ≤ 'F' then some (c.toNat - 'A'.toNat + 10)
  else none

def codeUnit? (a b c d : Char) : Option Nat := do
  return ((← hexDigit? a) * 16 + (← hexDigit? b)) * 256 + (← hexDigit? c) * 16 + (← hexDigit? d)

def escaped? : Char → Option Char
  | '"' => some '"'
  | '\\' => some '\\'
  | '/' => some '/'
  | 'b' => some '\x08'
  | 'f' => some '\x0c'
  | 'n' => some '\n'
  | 'r' => some '\r'
  | 't' => some '\t'
  | _ => none

def pieces? : List Char → Option (List Piece × List Char)
  | [] => none
  | '"' :: cs => some ([], cs)
  | '\\' :: 'u' :: a :: b :: c :: d :: cs => do
      let unit ← codeUnit? a b c d
      let (pieces, rest) ← pieces? cs
      return (.unit unit :: pieces, rest)
  | '\\' :: c :: cs => do
      let char ← escaped? c
      let (pieces, rest) ← pieces? cs
      return (.char char :: pieces, rest)
  | c :: cs =>
      if c.toNat < 0x20 || c == '\\' then none
      else do
        let (pieces, rest) ← pieces? cs
        return (.char c :: pieces, rest)

def digits (cs : List Char) : List Nat × List Char :=
  ((cs.takeWhile Char.isDigit).map fun c => c.toNat - '0'.toNat, cs.dropWhile Char.isDigit)

/-- The digits before the point; a zero stands alone. -/
def wholeDigits? (cs : List Char) : Option (List Nat × List Char) :=
  match digits cs with
  | ([], _) => none
  | (0 :: _ :: _, _) => none
  | (found, rest) => some (found, rest)

def someDigits? (cs : List Char) : Option (List Nat × List Char) :=
  match digits cs with
  | ([], _) => none
  | (found, rest) => some (found, rest)

def fraction? : List Char → Option (Bool × List Nat × List Char)
  | '.' :: cs => (someDigits? cs).map fun (found, rest) => (true, found, rest)
  | cs => some (false, [], cs)

def exponent? (cs : List Char) : Option (Option (Bool × List Nat) × List Char) :=
  match cs with
  | [] => some (none, [])
  | c :: rest =>
      if c == 'e' || c == 'E' then
        match rest with
        | '-' :: rest => (someDigits? rest).map fun (found, rest) => (some (true, found), rest)
        | '+' :: rest => (someDigits? rest).map fun (found, rest) => (some (false, found), rest)
        | rest => (someDigits? rest).map fun (found, rest) => (some (false, found), rest)
      else some (none, cs)

def number? (cs : List Char) : Option (Json × List Char) := do
  let (negative, cs) := match cs with
    | '-' :: cs => (true, cs)
    | cs => (false, cs)
  let (whole, cs) ← wholeDigits? cs
  let (pointed, fraction, cs) ← fraction? cs
  let (exponent, cs) ← exponent? cs
  return (NumberLiteral.value ⟨negative, whole, fraction, exponent, pointed⟩, cs)

/-- An object of members some of whose keys may be malformed. -/
def ofMembers (members : List (Option String × Json)) : Json :=
  match members.mapM fun member => member.1.map fun key => (key, member.2) with
  | some members => .object members
  | none => .malformed

def ofSpelling : Option (List Char) → Json
  | some cs => .text (String.ofList cs)
  | none => .malformed

mutual
/-- A value at the head of the text, spaces before it skipped.  Every call uses
up one unit of `fuel`; the length of the text is always enough. -/
def value? : Nat → List Char → Option (Json × List Char)
  | 0, _ => none
  | fuel + 1, cs =>
      match skipSpace cs with
      | 'n' :: 'u' :: 'l' :: 'l' :: cs => some (.null, cs)
      | 't' :: 'r' :: 'u' :: 'e' :: cs => some (.flag true, cs)
      | 'f' :: 'a' :: 'l' :: 's' :: 'e' :: cs => some (.flag false, cs)
      | '"' :: cs => do
          let (pieces, cs) ← pieces? cs
          return (ofSpelling (spell pieces), cs)
      | '[' :: cs =>
          match skipSpace cs with
          | ']' :: cs => some (.array [], cs)
          | cs => do
              let (items, cs) ← items? fuel cs
              return (.array items, cs)
      | '\x7b' :: cs =>
          match skipSpace cs with
          | '\x7d' :: cs => some (.object [], cs)
          | cs => do
              let (members, cs) ← members? fuel cs
              return (ofMembers members, cs)
      | cs => number? cs

def items? : Nat → List Char → Option (List Json × List Char)
  | 0, _ => none
  | fuel + 1, cs => do
      let (item, cs) ← value? fuel cs
      match skipSpace cs with
      | ',' :: cs =>
          let (items, cs) ← items? fuel cs
          return (item :: items, cs)
      | ']' :: cs => some ([item], cs)
      | _ => none

def members? : Nat → List Char → Option (List (Option String × Json) × List Char)
  | 0, _ => none
  | fuel + 1, cs =>
      match skipSpace cs with
      | '"' :: cs => do
          let (pieces, cs) ← pieces? cs
          let key := (spell pieces).map String.ofList
          match skipSpace cs with
          | ':' :: cs =>
              let (value, cs) ← value? fuel cs
              match skipSpace cs with
              | ',' :: cs =>
                  let (members, cs) ← members? fuel cs
                  return ((key, value) :: members, cs)
              | '\x7d' :: cs => some ([(key, value)], cs)
              | _ => none
          | _ => none
      | _ => none
end

def ofText? (text : String) : Option Json := do
  let cs := text.toList
  let (value, rest) ← value? (2 * cs.length + 2) cs
  if (skipSpace rest).isEmpty then some value else none

end Json
end DbSteward
