import DbSteward.Json.Members

/-!
# Tags

Tags on a resource, and the edit that takes the tags it has to the tags it should
have.  An absent value counts as the empty one.
-/

namespace DbSteward

structure Tag where
  key : String
  value : Option String
  deriving DecidableEq, Repr

namespace Tag

/-- The value, the empty text when it is absent. -/
def content (tag : Tag) : String :=
  tag.value.getD ""

/-- The tag that counts for a key in a list: the last one with that key. -/
def last? (tags : List Tag) (key : String) : Option Tag :=
  tags.reverse.find? (·.key == key)

structure Edit where
  writes : List Tag
  removals : List String
  deriving DecidableEq, Repr

def Edit.isEmpty (edit : Edit) : Bool :=
  edit.writes.isEmpty && edit.removals.isEmpty

/-- The edit from the observed tags to the desired ones.  Writes keep the order of
the desired tags, removals that of the observed ones. -/
def edit (desired observed : List Tag) : Edit where
  writes := desired.filter fun tag =>
    (last? observed tag.key).map content != some tag.content
  removals := (observed.filter fun tag => !desired.any (·.key == tag.key)).map (·.key)

def settled (desired observed : List Tag) : Bool :=
  (edit desired observed).isEmpty

/-- Overwrites the value of the first tag with the key of `tag`, or adds the tag at
the end. -/
def write (tag : Tag) : List Tag → List Tag
  | [] => [tag]
  | other :: rest =>
      if other.key == tag.key then { other with value := tag.value } :: rest
      else other :: write tag rest

def writeAll (live writes : List Tag) : List Tag :=
  writes.foldl (fun tags tag => write tag tags) live

def removeAll (live : List Tag) (keys : List String) : List Tag :=
  live.filter fun tag => !keys.contains tag.key

def read? (j : Json) : Option Tag := do
  let find ← j.record? ["key", "value"]
  return { key := ← find.required "key" Json.text?
           value := ← find.withDefault "value" none (Json.optional Json.text?) }

def toJson (tag : Tag) : Json :=
  .object <| ("key", .text tag.key) ::
    match tag.value with
    | none => []
    | some value => [("value", .text value)]

end Tag
end DbSteward
