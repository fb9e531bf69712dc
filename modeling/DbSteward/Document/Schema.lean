import DbSteward.Change.Changes
import DbSteward.Document.Secret

/-!
# Schemas

The spec of a resource is a record over a schema: a list of fields, each with the
name it has in documents, the name it has in attribute paths, and a type.  Reading
and writing a spec, and the attributes by which two specs are compared, follow from
the schema alone.
-/

namespace DbSteward

structure Scaling where
  most : Option Binary64
  least : Option Binary64
  deriving DecidableEq

namespace Scaling

def read? (j : Json) : Option Scaling := do
  let find ← j.record? ["maxCapacity", "minCapacity"]
  return { most := ← find.withDefault "maxCapacity" none (Json.optional Json.real?)
           least := ← find.withDefault "minCapacity" none (Json.optional Json.real?) }

def toJson (s : Scaling) : Json :=
  .object [("maxCapacity", Json.ofOption Json.ofReal s.most),
    ("minCapacity", Json.ofOption Json.ofReal s.least)]

def attributes (s : Scaling) : List Attribute :=
  [("MaxCapacity", .ofReal s.most), ("MinCapacity", .ofReal s.least)]

end Scaling

inductive FieldType where
  | text
  | integer
  | flag
  | texts
  | tags
  | secret
  | scaling
  | overrides
  deriving DecidableEq, Repr

namespace FieldType

@[reducible] def Content : FieldType → Type
  | .text => Option String
  | .integer => Option Int64
  | .flag => Option Bool
  | .texts => Option (List String)
  | .tags => List Tag
  | .secret => Option SecretRef
  | .scaling => Option Scaling
  | .overrides => Option Overrides

def absent : (t : FieldType) → t.Content
  | .text => none
  | .integer => none
  | .flag => none
  | .texts => none
  | .tags => []
  | .secret => none
  | .scaling => none
  | .overrides => none

instance (t : FieldType) : Inhabited t.Content :=
  ⟨t.absent⟩

def isAbsent : (t : FieldType) → t.Content → Bool
  | .text, v => v.isNone
  | .integer, v => v.isNone
  | .flag, v => v.isNone
  | .texts, v => v.isNone
  | .tags, v => v.isEmpty
  | .secret, v => v.isNone
  | .scaling, v => v.isNone
  | .overrides, v => v.isNone

def read? : (t : FieldType) → Json → Option t.Content
  | .text, j => Json.optional Json.text? j
  | .integer, j => Json.optional Json.word? j
  | .flag, j => Json.optional Json.flag? j
  | .texts, j => Json.optional (Json.list? Json.text?) j
  | .tags, j => Json.list? Tag.read? j
  | .secret, j => Json.optional SecretRef.read? j
  | .scaling, j => Json.optional Scaling.read? j
  | .overrides, j => Json.optional (Json.table? (Json.optional Json.text?)) j

def toJson : (t : FieldType) → t.Content → Json
  | .text, v => Json.ofOption .text v
  | .integer, v => Json.ofOption (fun i => .integer i.toInt) v
  | .flag, v => Json.ofOption .flag v
  | .texts, v => Json.ofOption Json.ofTexts v
  | .tags, v => .array (v.map Tag.toJson)
  | .secret, v => Json.ofOption SecretRef.toJson v
  | .scaling, v => Json.ofOption Scaling.toJson v
  | .overrides, v => Json.ofOption (Json.ofTable (Json.ofOption .text)) v

/-- The attribute value of a field's content.  Lists of texts are compared as sets.
A secret is compared by the text of its reference, which is empty when there is
none. -/
def value : (t : FieldType) → t.Content → Value
  | .text, v => .ofText v
  | .integer, v => .ofInteger v
  | .flag, v => .ofFlag v
  | .texts, v => .set (v.getD [])
  | .tags, v => .tags v
  | .secret, v => .ofText (some (SecretRef.textOf v))
  | .scaling, v => .object (v.map Scaling.attributes)
  | .overrides, v => .map (v.getD Table.empty)

end FieldType

structure Column where
  /-- The name of the field in documents. -/
  key : String
  /-- The name of the field in attribute paths. -/
  label : String
  type : FieldType
  deriving DecidableEq, Repr

structure Schema where
  Field : Type
  [decideField : DecidableEq Field]
  /-- All fields, in the order in which a record without names lists them. -/
  fields : List Field
  column : Field → Column
  /-- The fields that are compared as they stand, in the order of comparison. -/
  compared : List Field

attribute [instance] Schema.decideField

namespace Schema

@[reducible] def key (S : Schema) (f : S.Field) : String :=
  (S.column f).key

@[reducible] def label (S : Schema) (f : S.Field) : String :=
  (S.column f).label

@[reducible] def type (S : Schema) (f : S.Field) : FieldType :=
  (S.column f).type

abbrev Record (S : Schema) : Type :=
  (f : S.Field) → (S.type f).Content

variable {S : Schema}

def path (S : Schema) (f : S.Field) : String :=
  Path.below Path.root (S.label f)

def blank (S : Schema) : S.Record :=
  fun f => (S.type f).absent

namespace Record

def set (r : S.Record) (f : S.Field) (content : (S.type f).Content) : S.Record :=
  fun g => if h : f = g then h ▸ content else r g

@[simp] theorem set_self (r : S.Record) (f : S.Field) (content : (S.type f).Content) :
    set r f content f = content := by
  simp [set]

theorem set_of_ne (r : S.Record) {f g : S.Field} (content : (S.type f).Content)
    (hne : f ≠ g) : set r f content g = r g := by
  simp [set, hne]

def value (r : S.Record) (f : S.Field) : Value :=
  (S.type f).value (r f)

def attributesOf (r : S.Record) (fields : List S.Field) : List Attribute :=
  fields.map fun f => (S.label f, value r f)

def attributes (r : S.Record) : List Attribute :=
  attributesOf r S.compared

def toJson (r : S.Record) : Json :=
  .object (S.fields.map fun f => (S.key f, (S.type f).toJson (r f)))

end Record

def field? (S : Schema) (find : Json.Finder) (f : S.Field) : Option (S.type f).Content :=
  find.withDefault (S.key f) (S.type f).absent (S.type f).read?

/-- A spec from a record in which any field may be missing. -/
def read? (S : Schema) (j : Json) : Option S.Record := do
  let find ← j.record? (S.fields.map S.key)
  if S.fields.all fun f => (S.field? find f).isSome then
    some fun f => (S.field? find f).getD (S.type f).absent
  else none

end Schema
end DbSteward
