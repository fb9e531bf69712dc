import DbSteward.Change.Tag
import DbSteward.Change.Overrides

/-!
# Attribute values

The value of a named attribute of a resource, and when two values of it disagree.
Each kind of value has its own comparison: lists are compared in order, sets
without order and repetition, tags by key, and objects field by field, where a
field that is missing on one side is compared with the absent value of its kind.
-/

namespace DbSteward

inductive Scalar where
  | flag (b : Bool)
  | integer (i : Int64)
  | real (x : Binary64)
  | text (s : String)
  deriving DecidableEq

namespace Scalar

/-- Equality of scalars.  Scalars of different types are never equal, and a real
number that is no number equals itself. -/
def same : Scalar → Scalar → Bool
  | .flag a, .flag b => a == b
  | .integer a, .integer b => a == b
  | .real a, .real b => a.same b
  | .text a, .text b => a == b
  | _, _ => false

@[simp] theorem same_self (s : Scalar) : s.same s = true := by
  cases s <;> simp [same]

/-- The scalar a JSON value stands for, if any.  A number is an integer when it is
written as one and a 64-bit word holds it. -/
def read? : Json → Option Scalar
  | .flag b => some (.flag b)
  | .text s => some (.text s)
  | .real x => some (.real x)
  | .integer i =>
      match Word.ofInt? i with
      | some word => some (.integer word)
      | none => some (.real (Binary64.ofInt i))
  | _ => none

def toJson : Scalar → Json
  | .flag b => .flag b
  | .integer i => .integer i.toInt
  | .real x => Json.ofReal x
  | .text s => .text s

end Scalar

/-- The value of an attribute, by the way it is compared. -/
inductive Value where
  | scalar (s : Option Scalar)
  | list (items : List Scalar)
  | set (items : List String)
  | tags (items : List Tag)
  | map (entries : Overrides)
  | object (fields : Option (List (String × Value)))

abbrev Attribute := String × Value

namespace Value

def ofText (v : Option String) : Value :=
  .scalar (v.map .text)

def ofInteger (v : Option Int64) : Value :=
  .scalar (v.map .integer)

def ofFlag (v : Option Bool) : Value :=
  .scalar (v.map .flag)

def ofReal (v : Option Binary64) : Value :=
  .scalar (v.map .real)

/-- An optional list of texts as an ordered list; an absent one is empty. -/
def ofTexts (v : Option (List String)) : Value :=
  .list ((v.getD []).map .text)

def absent : Value → Value
  | .scalar _ => .scalar none
  | .list _ => .list []
  | .set _ => .set []
  | .tags _ => .tags []
  | .map _ => .map Table.empty
  | .object _ => .object none

def isPresent : Value → Bool
  | .scalar s => s.isSome
  | .list items => !items.isEmpty
  | .set items => !items.isEmpty
  | .tags items => !items.isEmpty
  | .map entries => !entries.isEmpty
  | .object fields => fields.isSome

end Value

def oneMissing {α : Type} (a b : Option α) : Bool :=
  a.isSome != b.isSome

def optionDisagrees {α : Type} (same : α → α → Bool) : Option α → Option α → Bool
  | none, none => false
  | some a, some b => !same a b
  | _, _ => true

def listDisagrees {α : Type} (same : α → α → Bool) (a b : List α) : Bool :=
  a.length != b.length || (a.zip b).any fun pair => !same pair.1 pair.2

def setDisagrees (a b : List String) : Bool :=
  a.any (fun item => !b.contains item) || b.any fun item => !a.contains item

namespace Value

/-- Some attribute of the second list has no attribute of its name in the first
list and holds something. -/
def surplus (a b : List Attribute) : Bool :=
  b.any fun field => !a.any (·.1 == field.1) && field.2.isPresent

mutual
def disagrees : Value → Value → Bool
  | .scalar a, .scalar b => optionDisagrees Scalar.same a b
  | .list a, .list b => listDisagrees Scalar.same a b
  | .set a, .set b => setDisagrees a b
  | .tags a, .tags b => !Tag.settled a b
  | .map a, .map b => a != b
  | .object none, .object none => false
  | .object (some a), .object (some b) => matchedDisagree a b || surplus a b
  | _, _ => true

/-- Some attribute of the first list disagrees with the first attribute of its
name in the second list, or holds something when there is none. -/
def matchedDisagree : List Attribute → List Attribute → Bool
  | [], _ => false
  | (name, value) :: rest, b =>
      (match b.lookup name with
        | some other => value.disagrees other
        | none => value.isPresent)
        || matchedDisagree rest b
end

def fieldsDisagree (a b : List Attribute) : Bool :=
  matchedDisagree a b || surplus a b

mutual
/-- The value as JSON.  Fields of an object come in the order of their names, and
of fields with one name the last one counts. -/
def toJson : Value → Json
  | .scalar none => .null
  | .scalar (some s) => s.toJson
  | .list items => .array (items.map Scalar.toJson)
  | .set items => Json.ofTexts items
  | .tags items => .array (items.map Tag.toJson)
  | .map entries => Json.ofTable (Json.ofOption .text) entries
  | .object none => .null
  | .object (some fields) => Json.ofTable id (Table.ofList (fieldsToJson fields))

def fieldsToJson : List Attribute → List (String × Json)
  | [] => []
  | (name, value) :: rest => (name, value.toJson) :: fieldsToJson rest
end

end Value
end DbSteward
