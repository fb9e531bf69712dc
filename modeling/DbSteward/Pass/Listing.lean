import DbSteward.Pass.Basic

/-!
# Reading listings

A listing is read page after page.  If any page fails, nothing of the listing is
given out.
-/

namespace DbSteward
namespace Pass

/-- The entries of the page at a marker and of all later ones, `fuel` pages at most. -/
def entriesFrom (listing : Listing) : Nat → Option String → Pass (List ParameterDescription)
  | 0, _ => pure []
  | fuel + 1, marker => do
      let page ← call (.list listing marker) .readMany listing.operation
      match page.next with
      | none => pure page.entries
      | some next => do
          let rest ← entriesFrom listing fuel (some next)
          pure (page.entries ++ rest)

/-- All entries of a listing.  Every page but the last holds an entry, so there are at
most as many pages as entries, or one. -/
def entries (listing : Listing) : Pass (List ParameterDescription) := do
  let world ← get
  entriesFrom listing (world.service.listingSize listing + 1) none

def fetchOverrides (scope : Scope) (group : String) : Pass Overrides := do
  let descriptions ← entries (.overrides scope group)
  pure (Overrides.ofListing descriptions)

end Pass
end DbSteward
