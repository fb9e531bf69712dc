import DbSteward.Pass.Overrides
import DbSteward.Proofs.Memory
import DbSteward.Proofs.Numeral
import DbSteward.Proofs.Trace
import Mathlib.Data.List.Forall2

/-!
# Reading listings and traits

A service in memory keeps its listings whatever it is called for.  Read from the first page
to the last, a listing comes out whole or not at all, so the traits that a lookup gives are
known beforehand: they are those remembered, or else those of the listing.  Where they are
known, nothing but an interruption keeps a pass from finding them.
-/

namespace DbSteward

namespace Pass

variable {α β : Type}

/-! ## The calls of a reading pass -/

/-- The call reads a page of a listing. -/
def IsListing (c : Call) : Prop :=
  ∃ listing marker, c = .list listing marker

theorem IsListing.quiet {c : Call} (hlisting : IsListing c) : c.isMutating = false := by
  obtain ⟨listing, marker, rfl⟩ := hlisting
  rfl

theorem makes_modifyRemembered {allowed : Call → Prop} (revise : Remembered → Remembered) :
    Makes allowed (modifyRemembered revise) :=
  makes_of_same_log fun _ => rfl

theorem makes_entriesFrom {allowed : Call → Prop} {listing : Listing}
    (hread : ∀ marker, allowed (.list listing marker)) (fuel : Nat) (marker : Option String) :
    Makes allowed (entriesFrom listing fuel marker) := by
  induction fuel generalizing marker with
  | zero => exact makes_pure []
  | succ fuel ih =>
      refine makes_bind (makes_call (hread marker)) fun page => ?_
      cases page.next with
      | none => exact makes_pure _
      | some next => exact makes_bind (ih (some next)) fun rest => makes_pure _

theorem makes_entries {allowed : Call → Prop} {listing : Listing}
    (hread : ∀ marker, allowed (.list listing marker)) : Makes allowed (entries listing) := by
  intro world
  exact makes_entriesFrom hread _ none world

theorem runIn_family (scope : Scope) (familyName : String) (world : World) :
    runIn world (family scope familyName) =
      match world.remembered.families scope familyName with
      | some traits =>
          (.ok traits, { world with remembered := world.remembered.withHit })
      | none => runIn world (loadFamily scope familyName) := by
  rw [family, runIn_bind, runIn_get]
  cases hfamily : world.remembered.families scope familyName with
  | some traits =>
      simp only [hfamily]
      rfl
  | none => simp only [hfamily]

section Defaults

variable {allowed : Call → Prop} {familyName : String}

theorem makes_family {scope : Scope}
    (hread : ∀ marker, allowed (.list (.defaults scope familyName) marker)) :
    Makes allowed (family scope familyName) := by
  have hload : Makes allowed (loadFamily scope familyName) :=
    makes_bind (makes_modifyRemembered _) fun _ =>
      makes_bind (makes_entries hread) fun _ =>
        makes_bind (makes_modifyRemembered _) fun _ => makes_pure _
  intro world
  rw [runIn_family]
  cases world.remembered.families scope familyName with
  | some traits => exact ⟨[], by simp, by simp⟩
  | none => exact hload world

theorem makes_traitsIn {scope : Scope}
    (hread : ∀ marker, allowed (.list (.defaults scope familyName) marker)) (name : String) :
    Makes allowed (traitsIn scope familyName name) :=
  makes_bind (makes_family hread) fun _ => makes_liftExcept _

/-- The traits of a parameter are read off the defaults of its family, for clusters also off
those for instances. -/
theorem makes_traitsFor
    (hread : ∀ scope marker, allowed (.list (.defaults scope familyName) marker))
    (scope : Scope) (name : String) : Makes allowed (traitsFor scope familyName name) := by
  cases scope with
  | dbInstance => exact makes_traitsIn (hread _) name
  | cluster =>
      refine makes_bind (makes_family (hread _)) fun traits => ?_
      cases traits.get? name with
      | some found => exact makes_pure found
      | none => exact makes_traitsIn (hread _) name

theorem makes_entriesOf {group : ParameterGroup}
    (hread : ∀ scope marker, allowed (.list (.defaults scope group.family) marker))
    (items : List (String × Option String)) : Makes allowed (entriesOf group items) := by
  induction items with
  | nil => exact makes_pure []
  | cons item rest ih =>
      exact makes_bind (makes_traitsFor hread _ _) fun _ =>
        makes_bind (makes_liftExcept _) fun _ => makes_bind ih fun _ => makes_pure _

end Defaults

theorem makes_listings_entriesOf (group : ParameterGroup)
    (items : List (String × Option String)) : Makes IsListing (entriesOf group items) :=
  makes_entriesOf (fun _ _ => ⟨_, _, rfl⟩) items

theorem entriesOf_ok {group : ParameterGroup} {items : List (String × Option String)}
    {found : List ParameterEntry} {world after : World}
    (hrun : runIn world (entriesOf group items) = (.ok found, after)) :
    found.map (fun entry => (entry.name, entry.value)) = items := by
  induction items generalizing found world after with
  | nil =>
      obtain ⟨hfound, -⟩ := Prod.mk.inj hrun
      rw [← Except.ok.inj hfound]
      rfl
  | cons item rest ih =>
      obtain ⟨traits, middle, -, hafterTraits⟩ := runIn_bind_eq_ok hrun
      obtain ⟨entry, hentry, hafterEntry⟩ := runIn_liftExcept_bind_eq_ok hafterTraits
      obtain ⟨others, last, hothers, hpure⟩ := runIn_bind_eq_ok hafterEntry
      obtain ⟨hfound, -⟩ := Prod.mk.inj hpure
      have hitem : (entry.name, entry.value) = item := by
        unfold entryOf at hentry
        split at hentry
        · rw [← Except.ok.inj hentry]
        · simp at hentry
      rw [← Except.ok.inj hfound, List.map_cons, hitem, ih hothers]

end Pass

/-! ## Passes that only an interruption can stop -/

/-- The service refused a call, or the pass was cancelled. -/
def Failure.isInterruption : Failure → Bool
  | .api _ => true
  | .cancelled => true
  | _ => false

namespace Pass

variable {α β : Type} {holds : World → Prop}

/-- Where something holds the pass keeps it, and unless it is interrupted it gives a value as
promised. -/
def Yields (holds : World → Prop) (promised : α → Prop) (pass : Pass α) : Prop :=
  ∀ world, holds world → holds (runIn world pass).2 ∧
    match (runIn world pass).1 with
    | .ok a => promised a
    | .error failure => failure.isInterruption = true

theorem yields_pure {promised : α → Prop} {a : α} (ha : promised a) :
    Yields holds promised (pure a) :=
  fun _ hworld => ⟨hworld, ha⟩

theorem yields_liftExcept {promised : α → Prop} {outcome : Except Failure α} {a : α}
    (houtcome : outcome = .ok a) (ha : promised a) :
    Yields holds promised (liftExcept outcome) := by
  intro world hworld
  rw [runIn_liftExcept, houtcome]
  exact ⟨hworld, ha⟩

theorem yields_modifyRemembered {revise : Remembered → Remembered}
    (hkeep : ∀ world, holds world →
      holds { world with remembered := revise world.remembered }) :
    Yields holds (fun _ => True) (modifyRemembered revise) :=
  fun world hworld => ⟨hkeep world hworld, trivial⟩

theorem yields_bind {first : α → Prop} {promised : β → Prop} {pass : Pass α} {next : α → Pass β}
    (hpass : Yields holds first pass)
    (hnext : ∀ a, first a → Yields holds promised (next a)) :
    Yields holds promised (pass >>= next) := by
  intro world hworld
  have hmiddle := hpass world hworld
  rw [runIn_bind]
  cases hrun : runIn world pass with
  | mk outcome middle =>
      rw [hrun] at hmiddle
      cases outcome with
      | error failure => exact hmiddle
      | ok a => exact hnext a hmiddle.2 middle hmiddle.1

theorem yields_call {c : Call} {promised : c.Answer → Prop}
    (hkeep : ∀ world, holds world → holds
      (afterCall world c (world.service.perform c).1 (world.service.perform c).2))
    (hanswer : ∀ world, holds world →
      ∀ value, (world.service.perform c).1 = .ok value → promised value) :
    Yields holds promised (call c) := by
  intro world hworld
  cases hcancelled : world.cancelled with
  | true =>
      rw [runIn_call_of_cancelled hcancelled]
      exact ⟨hworld, rfl⟩
  | false =>
      rw [runIn_call_of_active hcancelled]
      refine ⟨hkeep world hworld, ?_⟩
      cases hperform : (world.service.perform c).1 with
      | ok value => exact hanswer world hworld value hperform
      | error e => rfl

end Pass

/-! ## What there is to be found -/

/-- The traits in a family: those remembered, or else those that the service lists. -/
def World.traits (world : World) (scope : Scope) (familyName : String) : Table Traits :=
  (world.remembered.families scope familyName).getD
    (Traits.ofListing (world.service.listing (.defaults scope familyName)))

/-- Everything there is to be read in a world. -/
structure Library where
  listings : Listing → List ParameterDescription
  traits : Scope → String → Table Traits

/-- The traits of a parameter; one that clusters do not have is looked up among those of
instances. -/
def Library.lookup (library : Library) (scope : Scope) (familyName name : String) :
    Option Traits :=
  match scope with
  | .cluster =>
      ((library.traits .cluster familyName).get? name).or
        ((library.traits .dbInstance familyName).get? name)
  | .dbInstance => (library.traits .dbInstance familyName).get? name

/-- The entry asks for the change of a parameter, at the time that its traits call for. -/
structure Library.Resolves (library : Library) (group : ParameterGroup)
    (item : String × Option String) (entry : ParameterEntry) : Prop where
  name_eq : entry.name = item.1
  value_eq : entry.value = item.2
  traits : ∃ traits, library.lookup group.scope group.family item.1 = some traits ∧
    traits.isModifiable = true ∧ entry.timing = traits.timing

def World.library (world : World) : Library :=
  ⟨world.service.listing, world.traits⟩

/-- The world offers this to be read, and has it on pages that are not empty. -/
structure World.Holds (library : Library) (world : World) : Prop where
  library_eq : world.library = library
  hasPages : world.service.HasPages

theorem World.Holds.listing_eq {world : World} {library : Library}
    (hworld : world.Holds library) : world.service.listing = library.listings :=
  congrArg Library.listings hworld.library_eq

theorem World.Holds.traits_eq {world : World} {library : Library}
    (hworld : world.Holds library) (scope : Scope) (familyName : String) :
    world.traits scope familyName = library.traits scope familyName :=
  congrFun (congrFun (congrArg Library.traits hworld.library_eq) scope) familyName

namespace Memory

/-- A page from a position on is all that is left, or ends at a later position that it names. -/
theorem pageAt_cases {size start : Nat} {entries : List ParameterDescription}
    (hstart : start ≤ entries.length) :
    (entries.length ≤ start + size ∧ (pageAt size start entries).next = none ∧
        (pageAt size start entries).entries = entries.drop start) ∨
      (start + size < entries.length ∧
        (pageAt size start entries).next = some (String.ofList (Text.decimal (start + size))) ∧
        (pageAt size start entries).entries ++ entries.drop (start + size) =
          entries.drop start) := by
  have hend : pageEnd size start entries.length = min (start + size) entries.length :=
    if_pos hstart
  by_cases hlast : entries.length ≤ start + size
  · left
    have hall : pageEnd size start entries.length = entries.length := by
      rw [hend, Nat.min_eq_right hlast]
    refine ⟨hlast, ?_⟩
    simp [pageAt, hall]
  · right
    have hmore : start + size < entries.length := Nat.not_le.1 hlast
    have hstop : pageEnd size start entries.length = start + size := by
      rw [hend, Nat.min_eq_left hmore.le]
    refine ⟨hmore, ?_, ?_⟩
    · simp only [pageAt, hstop]
      rw [if_pos hmore]
    · simp only [pageAt, hstop]
      have hlater : entries.drop (start + size) = (entries.drop start).drop size := by
        rw [List.drop_drop]
      rw [List.drop_take, hlater, Nat.add_sub_cancel_left, List.take_append_drop]

/-- The marker of a page leads back to the position that it was made for. -/
theorem eq_of_position_decimal {stop start : Nat}
    (hread : position (some (String.ofList (Text.decimal stop))) = .ok start) :
    start = stop := by
  rw [position, String.toList_ofList] at hread
  cases hunsigned : Text.unsigned (Text.decimal stop) with
  | error e => simp [hunsigned, Except.mapError] at hread
  | ok value =>
      rw [hunsigned] at hread
      rw [← Except.ok.inj hread]
      exact Text.eq_of_unsigned_decimal hunsigned

theorem page_of_perform {memory : Memory} {listing : Listing} {marker : Option String}
    {page : Page} (hanswer : (memory.perform (.list listing marker)).1 = .ok page) :
    ∃ start, position marker = .ok start ∧
      page = pageAt memory.pageSize start (memory.listings listing) := by
  unfold perform at hanswer
  cases hrefusal : memory.refusal? (.list listing marker) with
  | some e => simp [hrefusal] at hanswer
  | none =>
      simp only [hrefusal, answer] at hanswer
      cases hposition : position marker with
      | error e => simp [hposition, Except.map] at hanswer
      | ok start =>
          simp only [hposition, Except.map] at hanswer
          exact ⟨start, rfl, (Except.ok.inj hanswer).symm⟩

end Memory

namespace Pass

variable {library : Library}

theorem holds_afterCall {world : World} (hworld : world.Holds library) (c : Call) :
    (afterCall world c (world.service.perform c).1 (world.service.perform c).2).Holds
      library := by
  refine ⟨?_, hworld.hasPages.perform c⟩
  rw [← hworld.library_eq, World.library, World.library]
  congr 1
  · exact world.service.listing_perform c
  · funext scope familyName
    simp only [World.traits, afterCall, Service.listing_perform]

theorem yields_any_call (c : Call) :
    Yields (World.Holds library) (fun _ => True) (call c) :=
  yields_call (fun _ hworld => holds_afterCall hworld c) fun _ _ _ _ => trivial

theorem holds_of_families {world : World} {remembered : Remembered}
    (hfamilies : remembered.families = world.remembered.families)
    (hworld : world.Holds library) :
    ({ world with remembered := remembered } : World).Holds library := by
  refine ⟨?_, hworld.hasPages⟩
  rw [← hworld.library_eq, World.library, World.library]
  congr 1
  funext scope familyName
  simp only [World.traits, hfamilies]

theorem yields_page {listing : Listing} {start : Nat} {marker : Option String}
    (hmarker : ∀ position, Memory.position marker = .ok position → position = start) :
    Yields (World.Holds library)
      (fun page => ∃ size, 0 < size ∧
        page = Memory.pageAt size start (library.listings listing))
      (call (.list listing marker)) := by
  refine yields_call (fun world hworld => holds_afterCall hworld _) ?_
  intro world hworld page hanswer
  have hlistings := hworld.listing_eq
  have hpages := hworld.hasPages
  cases hservice : world.service with
  | unreachable =>
      rw [hservice] at hanswer
      simp [Service.perform] at hanswer
  | memory memory =>
      rw [hservice] at hanswer hlistings hpages
      obtain ⟨position, hposition, rfl⟩ := Memory.page_of_perform hanswer
      refine ⟨memory.pageSize, hpages, ?_⟩
      rw [hmarker position hposition, ← hlistings]
      rfl

/-- The invariant is the position: what is still to be read begins there, and the fuel is more
than what is still to be read. -/
theorem yields_entriesFrom {listing : Listing} {fuel start : Nat} {marker : Option String}
    (hmarker : ∀ position, Memory.position marker = .ok position → position = start)
    (hstart : start ≤ (library.listings listing).length)
    (hfuel : (library.listings listing).length - start < fuel) :
    Yields (World.Holds library) (· = (library.listings listing).drop start)
      (entriesFrom listing fuel marker) := by
  induction fuel generalizing start marker with
  | zero => omega
  | succ fuel ih =>
      refine yields_bind (yields_page hmarker) ?_
      rintro page ⟨size, hsize, rfl⟩
      rcases Memory.pageAt_cases hstart with ⟨-, hnext, hentries⟩ | ⟨hmore, hnext, hentries⟩
      · rw [hnext]
        exact yields_pure hentries
      · have hless : (library.listings listing).length - (start + size) < fuel := by omega
        rw [hnext]
        refine yields_bind (ih (fun _ => Memory.eq_of_position_decimal) hmore.le hless) ?_
        rintro rest rfl
        exact yields_pure hentries

theorem yields_entries (listing : Listing) :
    Yields (World.Holds library) (· = library.listings listing) (entries listing) := by
  intro world hworld
  have hsize : world.service.listingSize listing = (library.listings listing).length := by
    rw [Service.listingSize_eq, hworld.listing_eq]
  have hfirst : ∀ position, Memory.position none = .ok position → position = 0 := by
    intro position hread
    exact (Except.ok.inj hread).symm
  exact yields_entriesFrom hfirst (Nat.zero_le _) (by omega) world hworld

/-! ## Traits -/

theorem yields_loadFamily {scope : Scope} {familyName : String}
    (hlisted : Traits.ofListing (library.listings (.defaults scope familyName)) =
      library.traits scope familyName) :
    Yields (World.Holds library) (· = library.traits scope familyName)
      (loadFamily scope familyName) := by
  have hmiss : Yields (World.Holds library) (fun _ => True)
      (modifyRemembered Remembered.withMiss) :=
    yields_modifyRemembered fun world hworld => holds_of_families rfl hworld
  refine yields_bind hmiss fun _ _ => ?_
  refine yields_bind (yields_entries _) ?_
  rintro descriptions rfl
  refine yields_bind (yields_modifyRemembered ?_) fun _ _ => yields_pure hlisted
  -- What is remembered from now on is what was listed all along.
  intro world hworld
  refine ⟨?_, hworld.hasPages⟩
  rw [← hworld.library_eq, World.library, World.library]
  congr 1
  funext otherScope otherName
  by_cases hsame : otherScope = scope ∧ otherName = familyName
  · obtain ⟨rfl, rfl⟩ := hsame
    rw [hworld.traits_eq, ← hlisted, ← hworld.library_eq]
    simp [World.traits, World.library, Remembered.withFamily]
  · simp [World.traits, Remembered.withFamily, hsame]

theorem yields_family (scope : Scope) (familyName : String) :
    Yields (World.Holds library) (· = library.traits scope familyName)
      (family scope familyName) := by
  intro world hworld
  have hknown := hworld.traits_eq scope familyName
  rw [runIn_family]
  cases hfamily : world.remembered.families scope familyName with
  | some traits =>
      refine ⟨holds_of_families rfl hworld, ?_⟩
      rw [← hknown, World.traits, hfamily]
      rfl
  | none =>
      refine yields_loadFamily ?_ world hworld
      rw [← hknown, World.traits, hfamily, ← hworld.listing_eq]
      rfl

theorem yields_traitsIn {scope : Scope} {familyName name : String} {traits : Traits}
    (hfound : (library.traits scope familyName).get? name = some traits) :
    Yields (World.Holds library) (· = traits) (traitsIn scope familyName name) := by
  refine yields_bind (yields_family scope familyName) ?_
  rintro table rfl
  refine yields_liftExcept ?_ rfl
  rw [traitsAmong, hfound]

theorem yields_traitsFor {scope : Scope} {familyName name : String} {traits : Traits}
    (hfound : library.lookup scope familyName name = some traits) :
    Yields (World.Holds library) (· = traits) (traitsFor scope familyName name) := by
  cases scope with
  | dbInstance => exact yields_traitsIn hfound
  | cluster =>
      refine yields_bind (yields_family .cluster familyName) ?_
      rintro table rfl
      rw [Library.lookup] at hfound
      cases hcluster : (library.traits .cluster familyName).get? name with
      | some found =>
          rw [hcluster] at hfound
          exact yields_pure (Option.some.inj hfound)
      | none =>
          rw [hcluster] at hfound
          exact yields_traitsIn hfound

theorem yields_entriesOf {group : ParameterGroup} {items : List (String × Option String)}
    (hknown : ∀ item ∈ items, ∃ traits,
      library.lookup group.scope group.family item.1 = some traits ∧
        traits.isModifiable = true) :
    Yields (World.Holds library) (List.Forall₂ (library.Resolves group) items)
      (entriesOf group items) := by
  induction items with
  | nil => exact yields_pure .nil
  | cons item rest ih =>
      obtain ⟨traits, hfound, hmodifiable⟩ := hknown item (List.mem_cons_self ..)
      refine yields_bind (yields_traitsFor hfound) ?_
      rintro found rfl
      have hentry : entryOf found item.1 item.2 = .ok ⟨item.1, item.2, found.timing⟩ :=
        if_pos hmodifiable
      have hresolves : library.Resolves group item ⟨item.1, item.2, found.timing⟩ :=
        ⟨rfl, rfl, found, hfound, hmodifiable, rfl⟩
      refine yields_bind (yields_liftExcept hentry hresolves) fun entry hitem => ?_
      have hothers := ih fun other hmem => hknown other (List.mem_cons_of_mem _ hmem)
      exact yields_bind hothers fun others hrest => yields_pure (.cons hitem hrest)

end Pass
end DbSteward
