import DbSteward.Proofs.Reading
import DbSteward.Proofs.Table

/-!
# Looks at families

A pass that wants the traits in a family has them remembered, or loads the whole listing and
remembers it from then on, or is interrupted while it loads.  What is remembered after any
number of such looks is a ledger of them, and one more look adds a line to it.
-/

namespace DbSteward

/-! ## What the service describes -/

/-- The traits in the last description of a parameter. -/
def Traits.described? (descriptions : List ParameterDescription) (name : String) : Option Traits :=
  (descriptions.reverse.find? fun d => d.name == name).map ofDescription

theorem Traits.get?_ofListing (descriptions : List ParameterDescription) (name : String) :
    (ofListing descriptions).get? name = described? descriptions name :=
  Table.get?_ofList_map ParameterDescription.name ofDescription descriptions name

/-- The defaults that a service lists, by scope and family. -/
abbrev Defaults := Scope → String → List ParameterDescription

/-- The service has these defaults, on pages that are not empty.  Nothing is said of the calls
that it refuses. -/
structure World.Offers (world : World) (defaults : Defaults) : Prop where
  listing_eq : ∀ scope familyName,
    world.service.listing (.defaults scope familyName) = defaults scope familyName
  hasPages : world.service.HasPages

/-! ## Errors that end a pass -/

/-- The errors of the service that lie behind a failure. -/
def Failure.apiErrors : Failure → List ApiError
  | .api e => [e]
  | _ => []

namespace Event

/-- The errors that the service answered with. -/
def refusals (events : List Event) : List ApiError :=
  events.filterMap Event.error

@[simp] theorem refusals_append (first second : List Event) :
    refusals (first ++ second) = refusals first ++ refusals second :=
  List.filterMap_append

end Event

namespace Pass

variable {α β : Type}

/-- What the service refuses to the pass is what the pass fails with, and it says that it was
cancelled only if it was. -/
def Reports (pass : Pass α) : Prop :=
  ∀ world, ∃ events, (runIn world pass).2.log = world.log ++ events ∧
    match (runIn world pass).1 with
    | .ok _ => Event.refusals events = []
    | .error failure => Event.refusals events = failure.apiErrors ∧
        (failure = .cancelled → (runIn world pass).2.cancelled = true)

theorem reports_pure (a : α) : Reports (pure a : Pass α) :=
  fun _ => ⟨[], (List.append_nil _).symm, rfl⟩

theorem reports_call (c : Call) : Reports (call c) := by
  intro world
  cases hcancelled : world.cancelled with
  | true =>
      rw [runIn_call_of_cancelled hcancelled]
      exact ⟨[], (List.append_nil _).symm, rfl, fun _ => hcancelled⟩
  | false =>
      rw [runIn_call_of_active hcancelled]
      refine ⟨_, rfl, ?_⟩
      cases hperform : (world.service.perform c).1 with
      | ok value => rfl
      | error e => exact ⟨rfl, Failure.noConfusion⟩

theorem reports_bind {pass : Pass α} {next : α → Pass β} (hpass : Reports pass)
    (hnext : ∀ a, Reports (next a)) : Reports (pass >>= next) := by
  intro world
  obtain ⟨first, hfirst, hreported⟩ := hpass world
  rw [runIn_bind]
  cases hrun : runIn world pass with
  | mk outcome middle =>
      rw [hrun] at hfirst hreported
      cases outcome with
      | error failure => exact ⟨first, hfirst, hreported⟩
      | ok a =>
          obtain ⟨second, hsecond, hreported'⟩ := hnext a middle
          -- The first pass went through, so nothing was refused to it.
          have hquiet : Event.refusals first = [] := hreported
          have hmiddle : middle.log = world.log ++ first := hfirst
          refine ⟨first ++ second, ?_, ?_⟩
          · rw [← List.append_assoc, ← hmiddle]
            exact hsecond
          · rw [Event.refusals_append, hquiet, List.nil_append]
            exact hreported'

theorem reports_entriesFrom (listing : Listing) (fuel : Nat) (marker : Option String) :
    Reports (entriesFrom listing fuel marker) := by
  induction fuel generalizing marker with
  | zero => exact reports_pure []
  | succ fuel ih =>
      refine reports_bind (reports_call _) fun page => ?_
      cases page.next with
      | none => exact reports_pure _
      | some next => exact reports_bind (ih (some next)) fun rest => reports_pure _

theorem reports_entries (listing : Listing) : Reports (entries listing) :=
  fun world => reports_entriesFrom listing _ none world

theorem remembered_entries (listing : Listing) (world : World) :
    (runIn world (entries listing)).2.remembered = world.remembered := by
  have hpages : ∀ fuel marker, Yields (fun after => after.remembered = world.remembered)
      (fun _ => True) (entriesFrom listing fuel marker) := by
    intro fuel
    induction fuel with
    | zero => exact fun marker => yields_pure trivial
    | succ fuel ih =>
        intro marker
        refine yields_bind (yields_call (fun _ hkept => hkept) fun _ _ _ _ => trivial) ?_
        intro page _
        cases page.next with
        | none => exact yields_pure trivial
        | some next => exact yields_bind (ih _) fun rest _ => yields_pure trivial
  exact (hpages _ none world rfl).1

end Pass

/-! ## One look at a family -/

inductive Visit.Ending where
  | remembered
  | loaded
  | failed (failure : Failure)

structure Visit where
  scope : Scope
  familyName : String
  ending : Visit.Ending

namespace Visit

/-- How a look ends that found nothing remembered. -/
def Ending.ofLoad {α : Type} : Except Failure α → Ending
  | .ok _ => .loaded
  | .error failure => .failed failure

/-- Someone set out to load the family. -/
def attempts (v : Visit) : Bool :=
  match v.ending with
  | .remembered => false
  | _ => true

/-- The whole of this family was loaded. -/
def loads (scope : Scope) (familyName : String) (v : Visit) : Bool :=
  match v.ending with
  | .loaded => decide (v.scope = scope ∧ v.familyName = familyName)
  | _ => false

def failure? (v : Visit) : Option Failure :=
  match v.ending with
  | .failed failure => some failure
  | _ => none

/-- The errors of the service that the look met. -/
def refusals (v : Visit) : List ApiError :=
  v.failure?.elim [] Failure.apiErrors

/-- The call reads a page of the family, which the look set out to load. -/
def Reads (v : Visit) (c : Call) : Prop :=
  v.attempts = true ∧ ∃ marker, c = .list (.defaults v.scope v.familyName) marker

end Visit

namespace Pass

/-- The look that a pass takes at a family in a world. -/
def visit (world : World) (scope : Scope) (familyName : String) : Visit where
  scope := scope
  familyName := familyName
  ending :=
    if world.remembered.knows scope familyName then .remembered
    else .ofLoad (runIn world (family scope familyName)).1

theorem attempts_visit {world : World} {scope : Scope} {familyName : String}
    (hnew : world.remembered.families scope familyName = none) :
    (visit world scope familyName).attempts = true := by
  rw [visit, Remembered.knows, hnew, Visit.attempts]
  cases (runIn world (family scope familyName)).1 <;> rfl

/-- All that a look at a family can do. -/
inductive Visited (defaults : Defaults) (scope : Scope) (familyName : String) (world : World) :
    Visit → Except Failure (Table Traits) → World → Prop where
  | remembered {traits : Table Traits}
      (hknown : world.remembered.families scope familyName = some traits) :
      Visited defaults scope familyName world ⟨scope, familyName, .remembered⟩ (.ok traits)
        { world with remembered := world.remembered.withHit }
  | loaded {after : World} {events : List Event}
      (hnew : world.remembered.families scope familyName = none)
      (hlog : after.log = world.log ++ events)
      (hread : ∀ event ∈ events, ∃ marker,
        event.call = .list (.defaults scope familyName) marker)
      (hrefusals : Event.refusals events = [])
      (hremembered : after.remembered = world.remembered.withMiss.withFamily scope familyName
        (Traits.ofListing (defaults scope familyName))) :
      Visited defaults scope familyName world ⟨scope, familyName, .loaded⟩
        (.ok (Traits.ofListing (defaults scope familyName))) after
  | failed {after : World} {events : List Event} {failure : Failure}
      (hnew : world.remembered.families scope familyName = none)
      (hinterruption : failure.isInterruption = true)
      (hlog : after.log = world.log ++ events)
      (hread : ∀ event ∈ events, ∃ marker,
        event.call = .list (.defaults scope familyName) marker)
      (hrefusals : Event.refusals events = failure.apiErrors)
      (hcancelled : failure = .cancelled → after.cancelled = true)
      (hremembered : after.remembered = world.remembered.withMiss) :
      Visited defaults scope familyName world ⟨scope, familyName, .failed failure⟩
        (.error failure) after

variable {defaults : Defaults} {world : World}

theorem runIn_loadFamily (scope : Scope) (familyName : String) (world : World) :
    runIn world (loadFamily scope familyName) =
      match runIn { world with remembered := world.remembered.withMiss }
          (entries (.defaults scope familyName)) with
      | (.ok descriptions, after) =>
          (.ok (Traits.ofListing descriptions),
            { after with
              remembered := after.remembered.withFamily scope familyName
                (Traits.ofListing descriptions) })
      | (.error failure, after) => (.error failure, after) := by
  rw [loadFamily, runIn_bind]
  simp only [modifyRemembered, runIn_modify]
  rw [runIn_bind]
  cases runIn { world with remembered := world.remembered.withMiss }
      (entries (.defaults scope familyName)) with
  | mk outcome after => cases outcome <;> rfl

theorem visited_loadFamily (hoffers : world.Offers defaults) {scope : Scope} {familyName : String}
    (hnew : world.remembered.families scope familyName = none) :
    Visited defaults scope familyName world
      ⟨scope, familyName, .ofLoad (runIn world (loadFamily scope familyName)).1⟩
      (runIn world (loadFamily scope familyName)).1
      (runIn world (loadFamily scope familyName)).2 := by
  obtain ⟨-, hwhole⟩ := yields_entries (.defaults scope familyName)
    { world with remembered := world.remembered.withMiss } ⟨rfl, hoffers.hasPages⟩
  have hkept := remembered_entries (.defaults scope familyName)
    { world with remembered := world.remembered.withMiss }
  obtain ⟨events, hlog, hreported⟩ := reports_entries (.defaults scope familyName)
    { world with remembered := world.remembered.withMiss }
  have hreads : Makes (fun c => ∃ marker, c = .list (.defaults scope familyName) marker)
      (entries (.defaults scope familyName)) := makes_entries fun marker => ⟨marker, rfl⟩
  obtain ⟨others, hothers, hread⟩ := hreads { world with remembered := world.remembered.withMiss }
  obtain rfl : events = others := List.append_cancel_left (hlog.symm.trans hothers)
  -- The listing is read whole or the reading is interrupted, and only a whole one is remembered.
  rw [runIn_loadFamily]
  cases hrun : runIn { world with remembered := world.remembered.withMiss }
      (entries (.defaults scope familyName)) with
  | mk outcome after =>
      rw [hrun] at hwhole hkept hlog hreported
      cases outcome with
      | ok descriptions =>
          obtain rfl : descriptions = defaults scope familyName :=
            hwhole.trans (hoffers.listing_eq scope familyName)
          refine .loaded hnew hlog hread hreported ?_
          exact congrArg (Remembered.withFamily · scope familyName _) hkept
      | error failure => exact .failed hnew hwhole hlog hread hreported.1 hreported.2 hkept

theorem visited_family (hoffers : world.Offers defaults) (scope : Scope) (familyName : String) :
    Visited defaults scope familyName world (visit world scope familyName)
      (runIn world (family scope familyName)).1 (runIn world (family scope familyName)).2 := by
  rw [visit, Remembered.knows, runIn_family]
  cases hfamily : world.remembered.families scope familyName with
  | some traits => exact .remembered hfamily
  | none => exact visited_loadFamily hoffers hfamily

theorem offers_family (hoffers : world.Offers defaults) (scope : Scope) (familyName : String) :
    (runIn world (family scope familyName)).2.Offers defaults := by
  have hheld := (yields_family scope familyName world ⟨rfl, hoffers.hasPages⟩).1
  refine ⟨fun otherScope otherName => ?_, hheld.hasPages⟩
  rw [← hoffers.listing_eq, hheld.listing_eq]
  rfl

end Pass

namespace Visit

variable {defaults : Defaults} {scope : Scope} {familyName : String} {world after : World}
  {v : Visit} {result : Except Failure (Table Traits)}

/-- The calls of a look read the family that it sets out to load, and the service refuses one
exactly if this is how the look fails. -/
theorem exists_log_of_visited
    (hvisited : Pass.Visited defaults scope familyName world v result after) :
    ∃ events, after.log = world.log ++ events ∧ (∀ event ∈ events, v.Reads event.call) ∧
      Event.refusals events = v.refusals ∧
      (v.failure? = some .cancelled → after.cancelled = true) := by
  cases hvisited with
  | remembered hknown => exact ⟨[], (List.append_nil _).symm, by simp, rfl, nofun⟩
  | loaded hnew hlog hread hrefusals hremembered =>
      exact ⟨_, hlog, fun event hmem => ⟨rfl, hread event hmem⟩, hrefusals, nofun⟩
  | failed hnew hinterruption hlog hread hrefusals hcancelled hremembered =>
      exact ⟨_, hlog, fun event hmem => ⟨rfl, hread event hmem⟩, hrefusals, fun hsome =>
        hcancelled (Option.some.inj hsome)⟩

end Visit

/-! ## The ledger of looks -/

theorem Remembered.families_withFamily (r : Remembered) (scope otherScope : Scope)
    (familyName otherName : String) (traits : Table Traits) :
    (r.withFamily scope familyName traits).families otherScope otherName =
      if otherScope = scope ∧ otherName = familyName then some traits
      else r.families otherScope otherName :=
  rfl

/-- What is remembered after some looks: the families of which one has loaded the whole, and how
many looks there were that had or had not to be loaded. -/
structure Ledger (defaults : Defaults) (visits : List Visit) (remembered : Remembered) : Prop where
  families : ∀ scope familyName, remembered.families scope familyName =
    if visits.any (Visit.loads scope familyName) then
      some (Traits.ofListing (defaults scope familyName))
    else none
  looks : remembered.hits + remembered.misses = visits.length
  misses : remembered.misses = visits.countP Visit.attempts
  /-- No family is loaded twice. -/
  once : ∀ scope familyName, visits.countP (Visit.loads scope familyName) ≤ 1
  /-- A look sets out to load a family exactly if none before it has loaded the family. -/
  attempts_iff : ∀ before v later, visits = before ++ v :: later →
    (v.attempts = true ↔ before.any (Visit.loads v.scope v.familyName) = false)

namespace Ledger

variable {defaults : Defaults} {scope : Scope} {familyName : String} {world after : World}
  {visits : List Visit} {remembered : Remembered} {v : Visit}
  {result : Except Failure (Table Traits)}

theorem nil (defaults : Defaults) : Ledger defaults [] .nothing where
  families _ _ := rfl
  looks := rfl
  misses := rfl
  once _ _ := Nat.zero_le _
  attempts_iff before v later hsplit := absurd hsplit (by simp)

theorem families_eq_none_iff (hledger : Ledger defaults visits remembered) :
    remembered.families scope familyName = none ↔
      visits.any (Visit.loads scope familyName) = false := by
  rw [hledger.families]
  split
  · rename_i hloaded
    simp [hloaded]
  · rename_i hnew
    simp [hnew]

theorem eq_of_families_eq_some (hledger : Ledger defaults visits remembered)
    {traits : Table Traits} (hknown : remembered.families scope familyName = some traits) :
    traits = Traits.ofListing (defaults scope familyName) := by
  rw [hledger.families] at hknown
  split at hknown
  · exact (Option.some.inj hknown).symm
  · exact absurd hknown (by simp)

theorem attempts_of_visited (hledger : Ledger defaults visits world.remembered)
    (hvisited : Pass.Visited defaults scope familyName world v result after) :
    v.attempts = true ↔ visits.any (Visit.loads v.scope v.familyName) = false := by
  rw [← hledger.families_eq_none_iff]
  cases hvisited with
  | remembered hknown => simp [Visit.attempts, hknown]
  | loaded hnew hlog hread hrefusals hremembered => simp [Visit.attempts, hnew]
  | failed hnew hinterruption hlog hread hrefusals hcancelled hremembered =>
      simp [Visit.attempts, hnew]

theorem families_of_visited (hledger : Ledger defaults visits world.remembered)
    (hvisited : Pass.Visited defaults scope familyName world v result after)
    (otherScope : Scope) (otherName : String) :
    after.remembered.families otherScope otherName =
      if (visits ++ [v]).any (Visit.loads otherScope otherName) then
        some (Traits.ofListing (defaults otherScope otherName))
      else none := by
  have hbefore := hledger.families otherScope otherName
  rw [List.any_append, List.any_cons, List.any_nil, Bool.or_false]
  cases hvisited with
  | remembered hknown =>
      rw [Visit.loads, Bool.or_false]
      exact hbefore
  | failed hnew hinterruption hlog hread hrefusals hcancelled hremembered =>
      rw [Visit.loads, Bool.or_false, hremembered]
      exact hbefore
  | loaded hnew hlog hread hrefusals hremembered =>
      rw [hremembered, Visit.loads]
      by_cases hsame : otherScope = scope ∧ otherName = familyName
      · obtain ⟨rfl, rfl⟩ := hsame
        simp [Remembered.families_withFamily]
      · have hother : ¬ (scope = otherScope ∧ familyName = otherName) := fun h =>
          hsame ⟨h.1.symm, h.2.symm⟩
        rw [decide_eq_false hother, Bool.or_false, Remembered.families_withFamily, if_neg hsame]
        exact hbefore

theorem append (hledger : Ledger defaults visits world.remembered)
    (hvisited : Pass.Visited defaults scope familyName world v result after) :
    Ledger defaults (visits ++ [v]) after.remembered where
  families := hledger.families_of_visited hvisited
  looks := by
    have hbefore := hledger.looks
    rw [List.length_append, List.length_singleton]
    cases hvisited with
    | remembered hknown =>
        simp only [Remembered.withHit]
        omega
    | loaded hnew hlog hread hrefusals hremembered =>
        simp only [hremembered, Remembered.withFamily, Remembered.withMiss]
        omega
    | failed hnew hinterruption hlog hread hrefusals hcancelled hremembered =>
        simp only [hremembered, Remembered.withMiss]
        omega
  misses := by
    have hbefore := hledger.misses
    rw [List.countP_append, List.countP_singleton, ← hbefore]
    cases hvisited with
    | remembered hknown => rfl
    | loaded hnew hlog hread hrefusals hremembered => rw [hremembered]; rfl
    | failed hnew hinterruption hlog hread hrefusals hcancelled hremembered =>
        rw [hremembered]; rfl
  once otherScope otherName := by
    rw [List.countP_append, List.countP_singleton]
    split
    · rename_i hloads
      -- It is loaded now, so it was not there before.
      have hsubject : v.attempts = true ∧ v.scope = otherScope ∧ v.familyName = otherName := by
        obtain ⟨vscope, vname, ending⟩ := v
        cases ending with
        | loaded => exact ⟨rfl, of_decide_eq_true hloads⟩
        | _ => exact absurd hloads Bool.false_ne_true
      obtain ⟨hattempts, rfl, rfl⟩ := hsubject
      have hnew := (hledger.attempts_of_visited hvisited).1 hattempts
      have hcount : visits.countP (Visit.loads v.scope v.familyName) = 0 :=
        List.countP_eq_zero.2 fun u hmem => by simpa using List.any_eq_false.1 hnew u hmem
      omega
    · exact hledger.once otherScope otherName
  attempts_iff before u later hsplit := by
    -- The look in question is the new one, or the ledger knew of it before.
    rcases List.eq_nil_or_concat later with rfl | ⟨rest, last, rfl⟩
    · obtain ⟨rfl, hlast⟩ := List.append_inj' hsplit rfl
      obtain rfl := List.singleton_inj.1 hlast
      exact hledger.attempts_of_visited hvisited
    · have hsplit' : visits ++ [v] = (before ++ u :: rest) ++ [last] := by simpa using hsplit
      obtain ⟨hvisits, -⟩ := List.append_inj' hsplit' rfl
      exact hledger.attempts_iff before u rest hvisits

theorem whole_of_visited (hledger : Ledger defaults visits world.remembered)
    {table : Table Traits}
    (hvisited : Pass.Visited defaults scope familyName world v (.ok table) after) :
    v.failure? = none ∧ table = Traits.ofListing (defaults scope familyName) := by
  cases hvisited with
  | remembered hknown => exact ⟨rfl, hledger.eq_of_families_eq_some hknown⟩
  | loaded hnew hlog hread hrefusals hremembered => exact ⟨rfl, rfl⟩

end Ledger
end DbSteward
