import DbSteward.Table

/-!
# Parameter overrides

The overrides of a parameter group: parameter names with optional values, where an
absent value and an empty one differ.  `Overrides.edit` splits the desired and the
observed overrides into what is written, what stays and what is reset.
-/

namespace DbSteward

abbrev Overrides := Table (Option String)

namespace Overrides

structure Edit where
  /-- New or changed overrides, with their desired values. -/
  writes : Overrides
  /-- Overrides that already have their desired value. -/
  kept : Overrides
  /-- Overrides that are observed and not desired, with their observed values. -/
  resets : Overrides
  deriving DecidableEq

def Edit.isEmpty (edit : Edit) : Bool :=
  edit.writes.isEmpty && edit.resets.isEmpty

def edit (desired observed : Overrides) : Edit where
  writes := desired.filter fun name value => observed.get? name != some value
  kept := desired.filter fun name value => observed.get? name == some value
  resets := observed.filter fun name _ => !desired.contains name

end Overrides

/-- Batches of at most `limit` items in order, a limit of zero counting as one.
Every call uses up one unit of fuel; the length of the list is always enough. -/
def batchesWithin {α : Type} (limit : Nat) : Nat → List α → List (List α)
  | 0, _ => []
  | _, [] => []
  | fuel + 1, items =>
      items.take (max limit 1) :: batchesWithin limit fuel (items.drop (max limit 1))

def batches {α : Type} (limit : Nat) (items : List α) : List (List α) :=
  batchesWithin limit items.length items

end DbSteward
