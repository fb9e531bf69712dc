import DbSteward.Change.Value
import DbSteward.Change.Path

/-!
# Changes

The differences between a desired and an observed list of attributes, in order and
each with its path.  A difference at the empty path says that the whole resource
appeared or went away; it counts as a change at every path.
-/

namespace DbSteward

structure Difference where
  path : String
  old : Value
  new : Value

structure Changes where
  differences : List Difference

namespace Changes

def empty : Changes :=
  ⟨[]⟩

/-- Puts a difference in the place of the one with its path, or at the end. -/
def place (d : Difference) : List Difference → List Difference
  | [] => [d]
  | e :: rest => if e.path == d.path then d :: rest else e :: place d rest

def record (changes : Changes) (path : String) (old new : Value) : Changes :=
  ⟨place ⟨path, old, new⟩ changes.differences⟩

def size (changes : Changes) : Nat :=
  changes.differences.length

def isEmpty (changes : Changes) : Bool :=
  changes.differences.isEmpty

def at? (changes : Changes) (path : String) : Option Difference :=
  changes.differences.find? (·.path == path)

def paths (changes : Changes) : List String :=
  changes.differences.map (·.path)

/-- The resource appeared or went away as a whole. -/
def isWholesale (changes : Changes) : Bool :=
  changes.differences.any (·.path.isEmpty)

def touches (changes : Changes) (path : String) : Bool :=
  changes.differences.any fun d => d.path.isEmpty || Path.covers path d.path

/-- Something changed that is not at or below one of the paths. -/
def touchesBeyond (changes : Changes) (paths : List String) : Bool :=
  changes.differences.any fun d =>
    d.path.isEmpty || !paths.any fun path => Path.covers path d.path

def note (changes : Changes) (path : String) (observed desired : Value) : Changes :=
  if desired.disagrees observed then changes.record path observed desired else changes

/-- Adds the attributes that are observed and not named among the desired ones. -/
def withSurplus (path : String) (desired observed : List Attribute) (changes : Changes) :
    Changes :=
  observed.foldl
    (fun changes field =>
      if desired.any (·.1 == field.1) then changes
      else changes.note (Path.below path field.1) field.2 field.2.absent)
    changes

mutual
/-- Adds the differences of a desired and an observed value at a path.  Objects
that are there on both sides are entered. -/
def withValue (path : String) : Value → Value → Changes → Changes
  | .object (some desired), .object (some observed), changes =>
      withSurplus path desired observed (withMatched path desired observed changes)
  | desired, observed, changes => changes.note path observed desired

/-- Adds the differences of the desired attributes from the observed ones. -/
def withMatched (path : String) :
    List Attribute → List Attribute → Changes → Changes
  | [], _, changes => changes
  | (name, desired) :: rest, observed, changes =>
      withMatched path rest observed <|
        withValue (Path.below path name) desired
          ((observed.lookup name).getD desired.absent) changes
end

def between (desired observed : List Attribute) : Changes :=
  withSurplus Path.root desired observed (withMatched Path.root desired observed empty)

def ofSpecs : Option (List Attribute) → Option (List Attribute) → Changes
  | none, none => empty
  | some desired, some observed => between desired observed
  | desired, observed => empty.record "" (.object observed) (.object desired)

end Changes

namespace Difference

def toJson (d : Difference) : Json :=
  .object [("path", .text d.path), ("old", d.old.toJson), ("new", d.new.toJson)]

end Difference

def Changes.toJson (changes : Changes) : Json :=
  .array (changes.differences.map Difference.toJson)

end DbSteward
