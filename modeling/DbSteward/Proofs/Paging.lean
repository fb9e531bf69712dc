import DbSteward.Proofs.Batch
import DbSteward.Proofs.Visit

/-!
# Paging

A listing is handed out in pages, and a page that is not the last one carries the marker with
which the next one is asked for.  Whatever the size of the pages, whoever follows the markers
sees every entry once.  So a map that is made of a listing is made of all of it, or the reading
fails with what one of its pages was refused with.
-/

namespace DbSteward

namespace Memory

/-- What a call for the page at a marker is answered with, unless it is refused. -/
def pageFor (memory : Memory) (listing : Listing) (marker : Option String) :
    Except ApiError Page :=
  (memory.answer (.list listing marker)).1

/-- No rule of the service is about the operation. -/
structure LeavesAlone (memory : Memory) (operation : String) : Prop where
  refusals : ∀ rule ∈ memory.refusals, rule.1.operation ≠ operation
  cancellations : ∀ trigger ∈ memory.cancellations, trigger.operation ≠ operation

variable {memory : Memory} {listing : Listing} {marker : Option String} {start stop : Nat}

theorem pageFor_of_position (memory : Memory) (listing : Listing)
    (hmarker : position marker = .ok start) :
    memory.pageFor listing marker =
      .ok (pageAt memory.pageSize start (memory.listings listing)) := by
  rw [pageFor, answer, hmarker]
  rfl

theorem perform_list (hquiet : memory.refusal? (.list listing marker) = none) :
    (memory.perform (.list listing marker)).1 = memory.pageFor listing marker := by
  unfold perform
  rw [hquiet]
  rfl

theorem pageFor_perform (memory : Memory) (c : Call) (listing : Listing) :
    (memory.perform c).2.pageFor listing = memory.pageFor listing := by
  obtain ⟨tags, hafter⟩ := memory.exists_tags_perform c
  rw [hafter]
  rfl

theorem position_decimal (hwords : stop < UInt64.size) :
    position (some (String.ofList (Text.decimal stop))) = .ok stop := by
  have hlimit : stop ≤ Text.unsignedLimit := Nat.le_sub_one_of_lt hwords
  rw [position, String.toList_ofList, Text.unsigned_decimal hlimit]
  rfl

namespace LeavesAlone

variable {c : Call}

theorem refusal?_eq_none (halone : memory.LeavesAlone c.operation) :
    memory.refusal? c = none := by
  rw [refusal?, Option.map_eq_none_iff, List.find?_eq_none]
  intro rule hmem
  have hother := halone.refusals rule hmem
  simp [Trigger.isAbout, hother]

theorem cancelsOn_eq_false (halone : memory.LeavesAlone c.operation) :
    memory.cancelsOn c = false := by
  rw [cancelsOn, List.any_eq_false]
  intro trigger hmem
  have hother := halone.cancellations trigger hmem
  simp [Trigger.isAbout, hother]

theorem perform {operation : String} (halone : memory.LeavesAlone operation) (c : Call) :
    (memory.perform c).2.LeavesAlone operation := by
  obtain ⟨tags, hafter⟩ := memory.exists_tags_perform c
  rw [hafter]
  exact ⟨halone.refusals, halone.cancellations⟩

end LeavesAlone
end Memory

/-! ## From marker to marker -/

/-- A page with the marker that it was asked for with. -/
structure Leaf where
  marker : Option String
  page : Page

namespace Leaf

def allEntries (leaves : List Leaf) : List ParameterDescription :=
  leaves.flatMap fun leaf => leaf.page.entries

def call (listing : Listing) (leaf : Leaf) : Call :=
  .list listing leaf.marker

/-- The leaves that are seen from a marker on: the marker of every page leads to the next one, and
the last one has none. -/
inductive Walk (serve : Option String → Except ApiError Page) :
    Option String → List Leaf → Prop where
  | last {marker : Option String} {page : Page} (hserved : serve marker = .ok page)
      (hlast : page.next = none) : Walk serve marker [⟨marker, page⟩]
  | more {marker : Option String} {page : Page} {next : String} {rest : List Leaf}
      (hserved : serve marker = .ok page) (hnext : page.next = some next)
      (hrest : Walk serve (some next) rest) : Walk serve marker (⟨marker, page⟩ :: rest)

/-- How many pages of a size there are for some entries.  Even without entries there is one. -/
def count (size entries : Nat) : Nat :=
  max 1 (entries ⌈/⌉ size)

variable {size n : Nat}

theorem count_of_le (hsize : 0 < size) (hle : n ≤ size) : count size n = 1 := by
  have hone : n ⌈/⌉ size ≤ 1 := by
    rw [ceilDiv_le_iff_le_mul hsize, Nat.mul_one]
    exact hle
  exact Nat.max_eq_left hone

theorem count_of_lt (hsize : 0 < size) (hlt : size < n) :
    count size n = count size (n - size) + 1 := by
  have hmore : n ⌈/⌉ size = (n - size) ⌈/⌉ size + 1 := by
    rw [← add_ceilDiv hsize, Nat.add_sub_cancel' hlt.le]
  have hrest : 1 ≤ (n - size) ⌈/⌉ size := by
    rw [Nat.one_le_iff_ne_zero, Nat.ceilDiv_eq_add_pred_div, Nat.div_ne_zero_iff]
    omega
  rw [count, count, hmore, Nat.max_eq_right hrest, Nat.max_eq_right (Nat.le_add_left _ _)]

theorem count_le (hsize : 0 < size) (n : Nat) : count size n ≤ n + 1 := by
  have hceil : n ⌈/⌉ size ≤ n := by
    rw [ceilDiv_le_iff_le_mul hsize]
    exact Nat.le_mul_of_pos_left n hsize
  exact max_le (Nat.le_add_left 1 n) (hceil.trans n.le_succ)

/-- From a position on, there are leaves for what is left of the listing. -/
theorem exists_walk (memory : Memory) (listing : Listing) {marker : Option String} {start : Nat}
    (hsize : 0 < memory.pageSize) (hwords : (memory.listings listing).length ≤ UInt64.size)
    (hmarker : Memory.position marker = .ok start)
    (hstart : start ≤ (memory.listings listing).length) :
    ∃ leaves, Walk (memory.pageFor listing) marker leaves ∧
      allEntries leaves = (memory.listings listing).drop start ∧
      leaves.length = count memory.pageSize ((memory.listings listing).length - start) := by
  -- By induction on how much is left.
  induction hleft : (memory.listings listing).length - start using Nat.strongRecOn
    generalizing start marker with
  | ind left ih =>
      have hserved := memory.pageFor_of_position listing hmarker
      rcases Memory.pageAt_cases hstart with ⟨hlast, hnext, hentries⟩ |
        ⟨hmore, hnext, hentries⟩
      · refine ⟨_, .last hserved hnext, ?_, ?_⟩
        · rw [allEntries, List.flatMap_singleton]
          exact hentries
        · have hle : left ≤ memory.pageSize := by omega
          rw [count_of_le hsize hle]
          rfl
      · have hposition := Memory.position_decimal (hmore.trans_le hwords)
        have hless : (memory.listings listing).length - (start + memory.pageSize) < left := by
          omega
        obtain ⟨rest, hrest, hothers, hcount⟩ := ih _ hless hposition hmore.le rfl
        refine ⟨_, .more hserved hnext hrest, ?_, ?_⟩
        · rw [allEntries, List.flatMap_cons, ← allEntries, hothers]
          exact hentries
        · have hlt : memory.pageSize < left := by omega
          have hsame : (memory.listings listing).length - (start + memory.pageSize) =
              left - memory.pageSize := by omega
          rw [List.length_cons, hcount, hsame, count_of_lt hsize hlt]

end Leaf

/-! ## Calls in a row -/

namespace Pass

/-- Makes some calls, one after the other. -/
def callAll : List Call → Pass Unit
  | [] => pure ()
  | c :: rest => do
      let _ ← call c
      callAll rest

theorem callAll_append (first second : List Call) :
    callAll (first ++ second) = (callAll first >>= fun _ => callAll second) := by
  induction first with
  | nil => rfl
  | cons c rest ih =>
      rw [List.cons_append, callAll, callAll, ih, bind_assoc]

theorem runIn_callAll_cons (c : Call) (rest : List Call) (world : World) :
    runIn world (callAll (c :: rest)) =
      match runIn world (call c) with
      | (.ok _, after) => runIn after (callAll rest)
      | (.error failure, after) => (.error failure, after) := by
  rw [callAll, runIn_bind]
  cases runIn world (call c) with
  | mk outcome after =>
      cases outcome with
      | error failure => rfl
      | ok answer => rfl

theorem runIn_call_remembered (c : Call) (world : World) (remembered : Remembered) :
    runIn { world with remembered := remembered } (call c) =
      ((runIn world (call c)).1, { (runIn world (call c)).2 with remembered := remembered }) := by
  obtain ⟨service, cancelled, log, before⟩ := world
  cases cancelled with
  | true => rw [runIn_call_of_cancelled rfl, runIn_call_of_cancelled rfl]
  | false =>
      rw [runIn_call_of_active rfl, runIn_call_of_active rfl]
      rfl

theorem runIn_callAll_remembered (calls : List Call) (world : World) (remembered : Remembered) :
    runIn { world with remembered := remembered } (callAll calls) =
      ((runIn world (callAll calls)).1,
        { (runIn world (callAll calls)).2 with remembered := remembered }) := by
  induction calls generalizing world with
  | nil => rfl
  | cons c rest ih =>
      rw [runIn_callAll_cons, runIn_callAll_cons, runIn_call_remembered]
      cases runIn world (call c) with
      | mk outcome after =>
          cases outcome with
          | error failure => rfl
          | ok answer => exact ih after

theorem remembered_callAll (calls : List Call) (world : World) :
    (runIn world (callAll calls)).2.remembered = world.remembered :=
  congrArg (fun outcome => outcome.2.remembered)
    (runIn_callAll_remembered calls world world.remembered)

theorem makes_callAll (calls : List Call) : Makes (fun _ => True) (callAll calls) := by
  induction calls with
  | nil => exact makes_pure ()
  | cons c rest ih => exact makes_bind (makes_call trivial) fun _ => ih

theorem calls_callAll_of_ok {calls : List Call} {world after : World}
    (hrun : runIn world (callAll calls) = (.ok (), after)) :
    Pass.calls world (callAll calls) = calls := by
  induction calls generalizing world with
  | nil => exact calls_pure world ()
  | cons c rest ih =>
      obtain ⟨answer, middle, hcall, hrest⟩ := runIn_bind_eq_ok hrun
      have hfirst : Pass.calls world (call c) = [c] := by
        rw [calls_eq_map_events, events_call_of_ok hcall]
        rfl
      have hmakes : Makes (fun _ => True) (call c) := makes_call trivial
      rw [callAll, calls_bind_of_ok hmakes (makes_callAll rest) hcall, hfirst, ih hrest]
      rfl

variable {memory : Memory} {listing : Listing} {marker : Option String} {leaves : List Leaf}
  {world after : World}

/-- An answered call for a page gives the page, and the pages are the same after it. -/
theorem page_of_call {page : Page} (hservice : world.service = .memory memory)
    (hrun : runIn world (call (.list listing marker)) = (.ok page, after)) :
    memory.pageFor listing marker = .ok page ∧ ∃ later,
      after.service = .memory later ∧ later.pageFor listing = memory.pageFor listing := by
  obtain ⟨-, hanswer, rfl⟩ := runIn_call_eq_ok hrun
  rw [hservice] at hanswer
  obtain ⟨start, hmarker, rfl⟩ := Memory.page_of_perform hanswer
  have hlater : (world.service.perform (.list listing marker)).2 =
      .memory (memory.perform (.list listing marker)).2 := by
    rw [hservice]
    rfl
  exact ⟨memory.pageFor_of_position listing hmarker, _, hlater,
    memory.pageFor_perform (.list listing marker) listing⟩

theorem runIn_entriesFrom_succ (listing : Listing) (fuel : Nat) (marker : Option String)
    (world : World) :
    runIn world (entriesFrom listing (fuel + 1) marker) =
      match runIn world (call (.list listing marker)) with
      | (.ok page, after) =>
          match page.next with
          | none => (.ok page.entries, after)
          | some next => runIn after ((page.entries ++ ·) <$> entriesFrom listing fuel (some next))
      | (.error failure, after) => (.error failure, after) := by
  have hcall : call (.list listing marker) .readMany listing.operation =
      call (.list listing marker) := rfl
  rw [entriesFrom, hcall, runIn_bind]
  cases runIn world (call (.list listing marker)) with
  | mk outcome after =>
      cases outcome with
      | error failure => rfl
      | ok page =>
          cases hnext : page.next with
          | none =>
              simp only [hnext]
              rfl
          | some next => simp only [hnext, bind_pure_comp]

/-- Reading on from a marker comes to the same as calling for the leaves from there on, if there
is fuel for so many. -/
theorem runIn_entriesFrom {serve : Option String → Except ApiError Page}
    (hwalk : Leaf.Walk serve marker leaves) {fuel : Nat} (hfuel : leaves.length ≤ fuel)
    (hservice : world.service = .memory memory) (hserve : memory.pageFor listing = serve) :
    runIn world (entriesFrom listing fuel marker) =
      ((runIn world (callAll (leaves.map (Leaf.call listing)))).1.map
          fun _ => Leaf.allEntries leaves,
        (runIn world (callAll (leaves.map (Leaf.call listing)))).2) := by
  induction hwalk generalizing fuel world memory with
  | @last marker page hserved hlast =>
      obtain ⟨fuel, rfl⟩ := Nat.exists_eq_add_one.2 (Nat.lt_of_lt_of_le Nat.one_pos hfuel)
      rw [runIn_entriesFrom_succ, List.map_singleton, runIn_callAll_cons, Leaf.call]
      cases hrun : runIn world (call (.list listing marker)) with
      | mk outcome after =>
          cases outcome with
          | error failure => rfl
          | ok found =>
              obtain ⟨hfound, -⟩ := page_of_call hservice hrun
              rw [hserve, hserved] at hfound
              obtain rfl := Except.ok.inj hfound
              simp only [hlast, Leaf.allEntries, List.flatMap_singleton]
              rfl
  | @more marker page next rest hserved hnext hrest ih =>
      obtain ⟨fuel, rfl⟩ := Nat.exists_eq_add_one.2 (Nat.lt_of_lt_of_le (Nat.succ_pos _) hfuel)
      rw [runIn_entriesFrom_succ, List.map_cons, runIn_callAll_cons, Leaf.call]
      cases hrun : runIn world (call (.list listing marker)) with
      | mk outcome after =>
          cases outcome with
          | error failure => rfl
          | ok found =>
              obtain ⟨hfound, later, hlater, hsame⟩ := page_of_call hservice hrun
              rw [hserve, hserved] at hfound
              obtain rfl := Except.ok.inj hfound
              have hstep := ih (Nat.le_of_succ_le_succ hfuel) hlater (hsame.trans hserve)
              simp only [hnext]
              rw [runIn_map, hstep]
              cases (runIn after (callAll (rest.map (Leaf.call listing)))).1 with
              | error failure => rfl
              | ok done => rfl

theorem runIn_entries (hwalk : Leaf.Walk (memory.pageFor listing) none leaves)
    (hfuel : leaves.length ≤ (memory.listings listing).length + 1)
    (hservice : world.service = .memory memory) :
    runIn world (entries listing) =
      ((runIn world (callAll (leaves.map (Leaf.call listing)))).1.map
          fun _ => Leaf.allEntries leaves,
        (runIn world (callAll (leaves.map (Leaf.call listing)))).2) := by
  have hsize : world.service.listingSize listing = (memory.listings listing).length := by
    rw [hservice]
    rfl
  rw [entries, runIn_bind, runIn_get, ← runIn_entriesFrom hwalk (hsize ▸ hfuel) hservice rfl]

/-- Left alone, the service answers a call for a page that there is. -/
theorem exists_runIn_call {page : Page} (hserved : memory.pageFor listing marker = .ok page)
    (hservice : world.service = .memory memory) (hactive : world.cancelled = false)
    (halone : memory.LeavesAlone listing.operation) :
    ∃ after, runIn world (call (.list listing marker)) = (.ok page, after) ∧
      after.service = .memory (memory.perform (.list listing marker)).2 ∧
      after.cancelled = false := by
  have hanswer : (world.service.perform (.list listing marker)).1 = .ok page := by
    have hquiet : memory.refusal? (.list listing marker) = none := halone.refusal?_eq_none
    rw [hservice, ← hserved]
    exact Memory.perform_list hquiet
  have hkept : (world.service.cancelsOn (.list listing marker)) = false := by
    have hquiet : memory.cancelsOn (.list listing marker) = false := halone.cancelsOn_eq_false
    rw [hservice]
    exact hquiet
  rw [runIn_call_of_active hactive, hanswer]
  refine ⟨_, rfl, ?_, ?_⟩
  · rw [hservice]
    rfl
  · rw [afterCall, hactive, hkept]
    rfl

theorem exists_runIn_callAll {serve : Option String → Except ApiError Page}
    (hwalk : Leaf.Walk serve marker leaves) (hserve : memory.pageFor listing = serve)
    (hservice : world.service = .memory memory) (hactive : world.cancelled = false)
    (halone : memory.LeavesAlone listing.operation) :
    ∃ after, runIn world (callAll (leaves.map (Leaf.call listing))) = (.ok (), after) := by
  induction hwalk generalizing world memory with
  | @last marker page hserved hlast =>
      rw [← hserve] at hserved
      obtain ⟨after, hcall, -, -⟩ := exists_runIn_call hserved hservice hactive halone
      refine ⟨after, ?_⟩
      rw [List.map_singleton, runIn_callAll_cons, Leaf.call, hcall]
      rfl
  | @more marker page next rest hserved hnext hrest ih =>
      rw [← hserve] at hserved
      obtain ⟨middle, hcall, hmiddle, hstill⟩ := exists_runIn_call hserved hservice hactive halone
      have hsame := (memory.pageFor_perform (.list listing marker) listing).trans hserve
      obtain ⟨after, hothers⟩ := ih hsame hmiddle hstill (halone.perform _)
      refine ⟨after, ?_⟩
      rw [List.map_cons, runIn_callAll_cons, Leaf.call, hcall]
      exact hothers

end Pass

/-! ## Maps made of a listing -/

/-- What the engine makes of a whole listing: the overrides of a group, or the traits in a
family. -/
inductive Fetch where
  | overrides (scope : Scope) (group : String)
  | family (scope : Scope) (familyName : String)

namespace Fetch

def listing : Fetch → Listing
  | .overrides scope group => .overrides scope group
  | .family scope familyName => .defaults scope familyName

@[reducible] def Value : Fetch → Type
  | .overrides _ _ => Option String
  | .family _ _ => Traits

def value : (fetch : Fetch) → ParameterDescription → fetch.Value
  | .overrides _ _ => ParameterDescription.value
  | .family _ _ => Traits.ofDescription

def pass : (fetch : Fetch) → Pass (Table fetch.Value)
  | .overrides scope group => Pass.fetchOverrides scope group
  | .family scope familyName => Pass.loadFamily scope familyName

def table (fetch : Fetch) (descriptions : List ParameterDescription) : Table fetch.Value :=
  Table.ofList (descriptions.map fun d => (d.name, fetch.value d))

/-- What the last description of a parameter says. -/
def last? (fetch : Fetch) (descriptions : List ParameterDescription) (name : String) :
    Option fetch.Value :=
  (descriptions.reverse.find? fun d => d.name == name).map fetch.value

def calls (fetch : Fetch) (leaves : List Leaf) : List Call :=
  leaves.map (Leaf.call fetch.listing)

theorem get?_table (fetch : Fetch) (descriptions : List ParameterDescription) (name : String) :
    (fetch.table descriptions).get? name = fetch.last? descriptions name :=
  Table.get?_ofList_map ParameterDescription.name fetch.value descriptions name

variable {fetch : Fetch} {memory : Memory} {leaves : List Leaf} {world : World}

theorem exists_runIn_pass (hwalk : Leaf.Walk (memory.pageFor fetch.listing) none leaves)
    (hfuel : leaves.length ≤ (memory.listings fetch.listing).length + 1)
    (hservice : world.service = .memory memory) :
    ∃ remembered,
      Pass.runIn world fetch.pass =
        ((Pass.runIn world (Pass.callAll (fetch.calls leaves))).1.map
            fun _ => fetch.table (Leaf.allEntries leaves),
          { (Pass.runIn world (Pass.callAll (fetch.calls leaves))).2 with
            remembered := remembered }) ∧
      ∀ failure, (Pass.runIn world fetch.pass).1 = .error failure →
        remembered.families = world.remembered.families := by
  have hkept := Pass.remembered_callAll (fetch.calls leaves) world
  cases fetch with
  | overrides scope group =>
      have hpass : Pass.fetchOverrides scope group =
          Overrides.ofListing <$> Pass.entries (.overrides scope group) := by
        rw [← bind_pure_comp, Pass.fetchOverrides]
      have hread : Pass.runIn world (Pass.entries (.overrides scope group)) = _ :=
        Pass.runIn_entries hwalk hfuel hservice
      refine ⟨_, ?_, fun _ _ => congrArg Remembered.families hkept⟩
      rw [pass, hpass, Pass.runIn_map, hread, calls, listing]
      cases (Pass.runIn world (Pass.callAll (leaves.map (Leaf.call (.overrides scope group))))).1
      with
      | error failure => rfl
      | ok done => rfl
  | family scope familyName =>
      have hread : Pass.runIn { world with remembered := world.remembered.withMiss }
          (Pass.entries (.defaults scope familyName)) = _ :=
        Pass.runIn_entries hwalk hfuel hservice
      rw [Pass.runIn_callAll_remembered] at hread
      rw [pass, Pass.runIn_loadFamily, hread, calls, listing]
      cases (Pass.runIn world
        (Pass.callAll (leaves.map (Leaf.call (.defaults scope familyName))))).1 with
      | error failure => exact ⟨_, rfl, fun _ _ => rfl⟩
      | ok done => exact ⟨_, rfl, nofun⟩

/-- The calls for all leaves before this one have been answered, and this is the world that they
leave behind. -/
def Reaches (fetch : Fetch) (leaves : List Leaf) (world : World) (leaf : Leaf)
    (middle : World) : Prop :=
  ∃ before later, leaves = before ++ leaf :: later ∧
    Pass.runIn world (Pass.callAll (fetch.calls before)) = (.ok (), middle)

/-- A fetch that does no more than call for these leaves, one after the other, and gives the table
if all calls are answered. -/
structure Reads (fetch : Fetch) (table : Table fetch.Value) (leaves : List Leaf)
    (memory : Memory) (world : World) : Prop where
  outcome_eq : (Pass.runIn world fetch.pass).1 =
    (Pass.runIn world (Pass.callAll (fetch.calls leaves))).1.map fun _ => table
  calls_eq : Pass.calls world fetch.pass = Pass.calls world (Pass.callAll (fetch.calls leaves))
  /-- The reading comes to an end of its own, however many more pages it would be ready for. -/
  fuel_eq : ∀ fuel, leaves.length ≤ fuel →
    Pass.runIn world (Pass.entriesFrom fetch.listing fuel none) =
      Pass.runIn world (Pass.entries fetch.listing)
  undisturbed : memory.LeavesAlone fetch.listing.operation → world.cancelled = false →
    (Pass.runIn world fetch.pass).1 = .ok table ∧
      Pass.calls world fetch.pass = fetch.calls leaves
  refused : ∀ leaf middle e, fetch.Reaches leaves world leaf middle →
    middle.cancelled = false →
    (middle.service.perform (leaf.call fetch.listing)).1 = .error e →
    (Pass.runIn world fetch.pass).1 = .error (.api e)
  cancelled : ∀ leaf middle, fetch.Reaches leaves world leaf middle → middle.cancelled = true →
    (Pass.runIn world fetch.pass).1 = .error .cancelled
  /-- No part of the table is remembered. -/
  families_eq : ∀ failure, (Pass.runIn world fetch.pass).1 = .error failure →
    (Pass.runIn world fetch.pass).2.remembered.families = world.remembered.families

theorem callAll_fails_of_reaches {leaf : Leaf} {middle : World} {failure : Failure}
    (hreaches : fetch.Reaches leaves world leaf middle)
    (hfails : (Pass.runIn middle (Pass.call (leaf.call fetch.listing))).1 = .error failure) :
    (Pass.runIn world (Pass.callAll (fetch.calls leaves))).1 = .error failure := by
  obtain ⟨before, later, rfl, hbefore⟩ := hreaches
  have hsplit : fetch.calls (before ++ leaf :: later) =
      fetch.calls before ++ leaf.call fetch.listing :: fetch.calls later := by
    rw [calls, List.map_append, List.map_cons]
    rfl
  rw [hsplit, Pass.callAll_append, Pass.runIn_bind, hbefore]
  simp only
  rw [Pass.runIn_callAll_cons]
  cases hcall : Pass.runIn middle (Pass.call (leaf.call fetch.listing)) with
  | mk outcome after =>
      rw [hcall] at hfails
      cases outcome with
      | error other =>
          have hsame : other = failure := Except.error.inj hfails
          rw [hsame]
      | ok answer => exact absurd hfails nofun

theorem reads_of_walk (hwalk : Leaf.Walk (memory.pageFor fetch.listing) none leaves)
    (hfuel : leaves.length ≤ (memory.listings fetch.listing).length + 1)
    (hservice : world.service = .memory memory) :
    fetch.Reads (fetch.table (Leaf.allEntries leaves)) leaves memory world := by
  obtain ⟨remembered, hrun, hfamilies⟩ := exists_runIn_pass hwalk hfuel hservice
  have houtcome : (Pass.runIn world fetch.pass).1 =
      (Pass.runIn world (Pass.callAll (fetch.calls leaves))).1.map
        fun _ => fetch.table (Leaf.allEntries leaves) := by
    rw [hrun]
  have hcalls : Pass.calls world fetch.pass =
      Pass.calls world (Pass.callAll (fetch.calls leaves)) := by
    rw [Pass.calls, Pass.calls, hrun]
  have hfails : ∀ leaf middle failure, fetch.Reaches leaves world leaf middle →
      (Pass.runIn middle (Pass.call (leaf.call fetch.listing))).1 = .error failure →
      (Pass.runIn world fetch.pass).1 = .error failure := by
    intro leaf middle failure hreaches hcall
    rw [houtcome, callAll_fails_of_reaches hreaches hcall]
    rfl
  refine ⟨houtcome, hcalls, ?_, ?_, ?_, ?_, ?_⟩
  · intro fuel hmore
    rw [Pass.runIn_entriesFrom hwalk hmore hservice rfl, Pass.runIn_entries hwalk hfuel hservice]
  · intro halone hactive
    obtain ⟨after, hall⟩ := Pass.exists_runIn_callAll hwalk rfl hservice hactive halone
    have hanswered : Pass.runIn world (Pass.callAll (fetch.calls leaves)) = (.ok (), after) := hall
    rw [houtcome, hcalls, hanswered, Pass.calls_callAll_of_ok hanswered]
    exact ⟨rfl, rfl⟩
  · intro leaf middle e hreaches hactive hrefused
    apply hfails leaf middle (.api e) hreaches
    rw [Pass.runIn_call_of_active hactive, hrefused]
    rfl
  · intro leaf middle hreaches hcancelled
    apply hfails leaf middle .cancelled hreaches
    rw [Pass.runIn_call_of_cancelled hcancelled]
  · intro failure hfailed
    have hkept := hfamilies failure hfailed
    rw [hrun]
    exact hkept

/-- Following the markers from the first page visits every entry of a listing once, in order, and
comes to an end.  So the map made of a listing holds what is listed last under every name, whatever
the size of the pages; and if a page is refused or the pass is cancelled when a page is due, the
fetch fails with just that, and no part of the map is given out or remembered. -/
theorem reads_whole_listing (memory : Memory) (fetch : Fetch)
    (hwords : (memory.listings fetch.listing).length ≤ UInt64.size) :
    (∀ name, (fetch.table (memory.listings fetch.listing)).get? name =
        fetch.last? (memory.listings fetch.listing) name) ∧
      ∀ size, ∃ leaves,
        Leaf.Walk ((memory.withPageSize size).pageFor fetch.listing) none leaves ∧
        Leaf.allEntries leaves = memory.listings fetch.listing ∧
        leaves.length = Leaf.count (max size 1) (memory.listings fetch.listing).length ∧
        ∀ world : World, world.service = .memory (memory.withPageSize size) →
          fetch.Reads (fetch.table (memory.listings fetch.listing)) leaves
            (memory.withPageSize size) world := by
  refine ⟨get?_table fetch _, fun size => ?_⟩
  have hsize : 0 < max size 1 := Nat.lt_of_lt_of_le Nat.one_pos (Nat.le_max_right size 1)
  have hfirst : Memory.position none = .ok 0 := rfl
  obtain ⟨leaves, hwalk, hentries, hcount⟩ :=
    Leaf.exists_walk (memory.withPageSize size) fetch.listing hsize hwords hfirst (Nat.zero_le _)
  refine ⟨leaves, hwalk, hentries, hcount, fun world hservice => ?_⟩
  have hfuel : leaves.length ≤ (memory.listings fetch.listing).length + 1 := by
    rw [hcount]
    exact Leaf.count_le hsize _
  have hreads := reads_of_walk hwalk hfuel hservice
  rw [hentries] at hreads
  exact hreads

end Fetch

/-- A group with three overrides listed, two of them for one parameter. -/
def Memory.sampleOverrides : Memory :=
  Memory.fresh.withListing (.overrides .cluster "tuned")
    [⟨"jobs", some "4", true, none, none⟩, ⟨"trace", none, true, none, none⟩,
      ⟨"jobs", some "8", true, none, none⟩]

/-- On pages of two, the three overrides take two calls, and the later one for the parameter
counts. -/
theorem Fetch.repeated_override_read_in_two_calls :
    ∃ table : Overrides,
      (Pass.runIn (.initial (.memory (Memory.sampleOverrides.withPageSize 2)))
          (Pass.fetchOverrides .cluster "tuned")).1 = .ok table ∧
        table.get? "jobs" = some (some "8") ∧
        (Pass.calls (.initial (.memory (Memory.sampleOverrides.withPageSize 2)))
          (Pass.fetchOverrides .cluster "tuned")).length = 2 := by
  have hwords : (Memory.sampleOverrides.listings (.overrides .cluster "tuned")).length ≤
      UInt64.size := by decide
  obtain ⟨hlast, hpages⟩ :=
    reads_whole_listing Memory.sampleOverrides (.overrides .cluster "tuned") hwords
  obtain ⟨leaves, -, -, hcount, hreads⟩ := hpages 2
  have halone : (Memory.sampleOverrides.withPageSize 2).LeavesAlone
      Scope.cluster.overridesOperation :=
    ⟨List.forall_mem_nil _, List.forall_mem_nil _⟩
  obtain ⟨hread, hcalls⟩ := (hreads (.initial _) rfl).undisturbed halone rfl
  have hlength := congrArg List.length hcalls
  rw [calls, List.length_map, hcount] at hlength
  exact ⟨_, hread, hlast "jobs", hlength⟩

end DbSteward
