import DbSteward.Json.Basic
import DbSteward.Table
import DbSteward.Word

/-!
# Looking into JSON values

Readers for the plain types, and the members of a record.  A record is an object
with its fields by name, or an array with its fields by position.
-/

namespace DbSteward
namespace Json

def text? : Json → Option String
  | .text s => some s
  | _ => none

def flag? : Json → Option Bool
  | .flag b => some b
  | _ => none

def word? : Json → Option Int64
  | .integer i => Word.ofInt? i
  | _ => none

def real? : Json → Option Binary64
  | .integer i => some (Binary64.ofInt i)
  | .real x => some x
  | _ => none

/-- Null is the absent value, anything else is read. -/
def optional {α : Type} (read : Json → Option α) : Json → Option (Option α)
  | .null => some none
  | value => (read value).map some

def list? {α : Type} (read : Json → Option α) : Json → Option (List α)
  | .array items => items.mapM read
  | _ => none

/-- An object of any keys as a table; of members with one key the last one
counts. -/
def table? {α : Type} (read : Json → Option α) : Json → Option (Table α)
  | .object members =>
      (members.mapM fun member => (read member.2).map fun value => (member.1, value)).map
        Table.ofList
  | _ => none

def ofTable {α : Type} (write : α → Json) (table : Table α) : Json :=
  .object (table.entries.map fun entry => (entry.1, write entry.2))

abbrev Finder := String → Option Json

/-- Members by name; a repeated name among `names` is refused, and members of
other names are passed over. -/
def named? (names : List String) (members : List (String × Json)) : Option Finder :=
  if names.any fun name => 2 ≤ members.countP (·.1 == name) then none
  else some fun name => members.lookup name

def record? (names : List String) : Json → Option Finder
  | .object members => named? names members
  | .array items =>
      if names.length < items.length then none
      else some fun name => items[names.idxOf name]?
  | _ => none

/-- How deep the values of an open record may nest. -/
def openDepth : Nat := 125

/-- The fields of a record that shares its object with others.  It has no form by
position, and all that is not one of `own` is looked at, so it must be plain. -/
def openRecord? (own shared : List String) : Json → Option Finder
  | .object members =>
      if members.all fun member =>
          own.contains member.1 || member.2.plainWithin openDepth then
        named? (own ++ shared) members
      else none
  | _ => none

/-- Stands for nothing where nothing else can stand: null, and in an open record also
the object without members. -/
def isNothing (inOpen : Bool) : Json → Bool
  | .null => true
  | .object [] => inOpen
  | _ => false

def Finder.required {α : Type} (find : Finder) (name : String) (read : Json → Option α) :
    Option α :=
  (find name).bind read

def Finder.withDefault {α : Type} (find : Finder) (name : String) (absent : α)
    (read : Json → Option α) : Option α :=
  match find name with
  | none => some absent
  | some value => read value

end Json
end DbSteward
