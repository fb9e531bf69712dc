import DbSteward.Pass.Listing

/-!
# Parameter traits

Traits are looked up in the defaults of a family, which are loaded as a whole and then
remembered.  A load that fails leaves nothing to remember.
-/

namespace DbSteward

namespace Remembered

def withMiss (r : Remembered) : Remembered :=
  { r with misses := r.misses + 1 }

def withHit (r : Remembered) : Remembered :=
  { r with hits := r.hits + 1 }

def withFamily (r : Remembered) (scope : Scope) (family : String) (traits : Table Traits) :
    Remembered :=
  { r with
    families := fun otherScope otherFamily =>
      if otherScope = scope ∧ otherFamily = family then some traits
      else r.families otherScope otherFamily }

def knows (r : Remembered) (scope : Scope) (family : String) : Bool :=
  (r.families scope family).isSome

end Remembered

namespace Pass

def modifyRemembered (revise : Remembered → Remembered) : Pass Unit :=
  modify fun world => { world with remembered := revise world.remembered }

def loadFamily (scope : Scope) (family : String) : Pass (Table Traits) := do
  modifyRemembered Remembered.withMiss
  let descriptions ← entries (.defaults scope family)
  modifyRemembered fun r => r.withFamily scope family (Traits.ofListing descriptions)
  pure (Traits.ofListing descriptions)

def family (scope : Scope) (familyName : String) : Pass (Table Traits) := do
  let world ← get
  match world.remembered.families scope familyName with
  | some traits => do
      modifyRemembered Remembered.withHit
      pure traits
  | none => loadFamily scope familyName

def traitsAmong (traits : Table Traits) (name : String) : Except Failure Traits :=
  match traits.get? name with
  | none => .error (.obstacle (.unknownParameter name))
  | some found => .ok found

def traitsIn (scope : Scope) (familyName name : String) : Pass Traits := do
  let traits ← family scope familyName
  liftExcept (traitsAmong traits name)

/-- The traits of a parameter of clusters.  One that the defaults for clusters do not
have is looked up in those for instances. -/
def traitsOfCluster (familyName name : String) : Pass Traits := do
  let traits ← family .cluster familyName
  match traits.get? name with
  | some found => pure found
  | none => traitsIn .dbInstance familyName name

def traitsFor (scope : Scope) (familyName name : String) : Pass Traits :=
  match scope with
  | .cluster => traitsOfCluster familyName name
  | .dbInstance => traitsIn .dbInstance familyName name

end Pass
end DbSteward
