import DbSteward.Binary64.Basic

/-!
# JSON values

A value as a text gives it.  Members of an object keep their order and may repeat
a name.  `malformed` stands for what follows the grammar but denotes nothing, such
as a number beyond the range of doubles or a text with half of a surrogate pair;
whoever looks at it refuses it, and whoever passes it over does not notice.
-/

namespace DbSteward

inductive Json where
  | null
  | flag (b : Bool)
  | integer (i : Int)
  | real (x : Binary64)
  | text (s : String)
  | array (items : List Json)
  | object (members : List (String × Json))
  | malformed
  deriving Inhabited

namespace Json

mutual
/-- Nothing in the value is malformed, and arrays and objects nest at most
`depth` deep. -/
def plainWithin : Nat → Json → Bool
  | 0, .array _ => false
  | 0, .object _ => false
  | depth + 1, .array items => itemsPlainWithin depth items
  | depth + 1, .object members => membersPlainWithin depth members
  | _, .malformed => false
  | _, .null => true
  | _, .flag _ => true
  | _, .integer _ => true
  | _, .real _ => true
  | _, .text _ => true

def itemsPlainWithin : Nat → List Json → Bool
  | _, [] => true
  | depth, item :: items => plainWithin depth item && itemsPlainWithin depth items

def membersPlainWithin : Nat → List (String × Json) → Bool
  | _, [] => true
  | depth, member :: members =>
      plainWithin depth member.2 && membersPlainWithin depth members
end

def ofTexts (texts : List String) : Json :=
  .array (texts.map .text)

def ofOption {α : Type} (write : α → Json) : Option α → Json
  | none => .null
  | some a => write a

/-- A real number as a value; one that is not finite has no JSON text and becomes
null. -/
def ofReal (x : Binary64) : Json :=
  if x.isFinite then .real x else .null

end Json
end DbSteward
