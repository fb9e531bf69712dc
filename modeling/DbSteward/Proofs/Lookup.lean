import DbSteward.Proofs.Visit

/-!
# Lookups of parameter traits

What is remembered of earlier lookups does not show in later ones: unless it is interrupted, a
lookup gives what a search of the whole listings gives.  A lookup is one or two looks at
families, so all that it can do follows from what a look can do, and a history of lookups adds
nothing but an induction.
-/

namespace DbSteward

/-! ## Lookups -/

/-- A search for the traits of a parameter. -/
inductive Lookup where
  | within (scope : Scope) (familyName name : String)
  /-- In the defaults for clusters, and after that in those for instances. -/
  | withFallback (familyName name : String)

namespace Lookup

def pass : Lookup → Pass Traits
  | .within scope familyName name => Pass.traitsIn scope familyName name
  | .withFallback familyName name => Pass.traitsOfCluster familyName name

def orUnknown (name : String) : Option Traits → Except Failure Traits
  | some traits => .ok traits
  | none => .error (.obstacle (.unknownParameter name))

/-- What a search of the whole listings gives. -/
def answer (defaults : Defaults) : Lookup → Except Failure Traits
  | .within scope familyName name =>
      orUnknown name (Traits.described? (defaults scope familyName) name)
  | .withFallback familyName name =>
      orUnknown name
        ((Traits.described? (defaults .cluster familyName) name).or
          (Traits.described? (defaults .dbInstance familyName) name))

/-- The family for clusters is there and does not have the parameter. -/
def fallsBack (world : World) (familyName name : String) : Bool :=
  match (Pass.runIn world (Pass.family .cluster familyName)).1 with
  | .ok traits => (traits.get? name).isNone
  | .error _ => false

def visits (world : World) : Lookup → List Visit
  | .within scope familyName _ => [Pass.visit world scope familyName]
  | .withFallback familyName name =>
      if fallsBack world familyName name then
        [Pass.visit world .cluster familyName,
          Pass.visit (Pass.runIn world (Pass.family .cluster familyName)).2 .dbInstance familyName]
      else [Pass.visit world .cluster familyName]

/-- All that a lookup can do. -/
inductive Looked (defaults : Defaults) (world : World) :
    Lookup → List Visit → Except Failure Traits → World → Prop where
  | within {scope : Scope} {familyName name : String} {v : Visit}
      {result : Except Failure (Table Traits)} {after : World}
      (hvisited : Pass.Visited defaults scope familyName world v result after) :
      Looked defaults world (.within scope familyName name) [v]
        (result.bind fun traits => Pass.traitsAmong traits name) after
  | failed {familyName name : String} {v : Visit} {failure : Failure} {after : World}
      (hvisited : Pass.Visited defaults .cluster familyName world v (.error failure) after) :
      Looked defaults world (.withFallback familyName name) [v] (.error failure) after
  | found {familyName name : String} {v : Visit} {table : Table Traits} {traits : Traits}
      {after : World}
      (hvisited : Pass.Visited defaults .cluster familyName world v (.ok table) after)
      (hfound : table.get? name = some traits) :
      Looked defaults world (.withFallback familyName name) [v] (.ok traits) after
  | fallback {familyName name : String} {v w : Visit} {table : Table Traits} {middle : World}
      {result : Except Failure (Table Traits)} {after : World}
      (hfirst : Pass.Visited defaults .cluster familyName world v (.ok table) middle)
      (hmissing : table.get? name = none)
      (hsecond : Pass.Visited defaults .dbInstance familyName middle w result after) :
      Looked defaults world (.withFallback familyName name) [v, w]
        (result.bind fun traits => Pass.traitsAmong traits name) after

variable {defaults : Defaults} {world after : World} {lookup : Lookup} {visits earlier : List Visit}
  {result : Except Failure Traits}

theorem runIn_traitsIn (world : World) (scope : Scope) (familyName name : String) :
    Pass.runIn world (Pass.traitsIn scope familyName name) =
      ((Pass.runIn world (Pass.family scope familyName)).1.bind fun traits =>
          Pass.traitsAmong traits name,
        (Pass.runIn world (Pass.family scope familyName)).2) := by
  rw [Pass.traitsIn, Pass.runIn_bind]
  cases Pass.runIn world (Pass.family scope familyName) with
  | mk outcome after =>
      cases outcome with
      | error failure => rfl
      | ok traits => exact Pass.runIn_liftExcept after _

theorem looked (hoffers : world.Offers defaults) (lookup : Lookup) :
    Looked defaults world lookup (lookup.visits world) (Pass.runIn world lookup.pass).1
      (Pass.runIn world lookup.pass).2 := by
  cases lookup with
  | within scope familyName name =>
      rw [pass, runIn_traitsIn]
      exact .within (Pass.visited_family hoffers scope familyName)
  | withFallback familyName name =>
      have hfirst := Pass.visited_family hoffers .cluster familyName
      have hsecond := Pass.visited_family (Pass.offers_family hoffers .cluster familyName)
        .dbInstance familyName
      rw [pass, Pass.traitsOfCluster, Pass.runIn_bind, Lookup.visits, fallsBack]
      cases hrun : Pass.runIn world (Pass.family .cluster familyName) with
      | mk outcome middle =>
          rw [hrun] at hfirst hsecond
          cases outcome with
          | error failure => exact .failed hfirst
          | ok traits =>
              cases hname : traits.get? name with
              | some found =>
                  simp only [hname]
                  exact .found hfirst hname
              | none =>
                  simp only [hname, runIn_traitsIn]
                  exact .fallback hfirst hname hsecond

theorem Looked.ledger (hlooked : Looked defaults world lookup visits result after)
    (hledger : Ledger defaults earlier world.remembered) :
    Ledger defaults (earlier ++ visits) after.remembered := by
  cases hlooked with
  | within hvisited => exact hledger.append hvisited
  | failed hvisited => exact hledger.append hvisited
  | found hvisited hfound => exact hledger.append hvisited
  | @fallback _ _ v w _ _ _ _ hfirst hmissing hsecond =>
      have hboth := (hledger.append hfirst).append hsecond
      rwa [List.append_assoc] at hboth

theorem Looked.exists_log (hlooked : Looked defaults world lookup visits result after) :
    ∃ events, after.log = world.log ++ events ∧
      (∀ event ∈ events, ∃ v ∈ visits, v.Reads event.call) ∧
      Event.refusals events = visits.flatMap Visit.refusals := by
  have hone : ∀ {scope familyName v table after},
      Pass.Visited defaults scope familyName world v table after →
      ∃ events, after.log = world.log ++ events ∧
        (∀ event ∈ events, ∃ u ∈ [v], u.Reads event.call) ∧
        Event.refusals events = [v].flatMap Visit.refusals := by
    intro scope familyName v table after hvisited
    obtain ⟨events, hlog, hread, hrefusals, -⟩ := Visit.exists_log_of_visited hvisited
    exact ⟨events, hlog, fun event hmem => ⟨v, List.mem_singleton_self v, hread event hmem⟩,
      by simpa using hrefusals⟩
  cases hlooked with
  | within hvisited => exact hone hvisited
  | failed hvisited => exact hone hvisited
  | found hvisited hfound => exact hone hvisited
  | @fallback _ _ v w _ middle _ _ hfirst hmissing hsecond =>
      obtain ⟨first, hlog, hread, hrefusals, -⟩ := Visit.exists_log_of_visited hfirst
      obtain ⟨second, hlog', hread', hrefusals', -⟩ := Visit.exists_log_of_visited hsecond
      refine ⟨first ++ second, by rw [hlog', hlog, List.append_assoc], ?_, ?_⟩
      · intro event hmem
        rcases List.mem_append.1 hmem with h | h
        · exact ⟨v, by simp, hread event h⟩
        · exact ⟨w, by simp, hread' event h⟩
      · rw [Event.refusals_append, hrefusals, hrefusals']
        simp

theorem traitsAmong_ofListing (descriptions : List ParameterDescription) (name : String) :
    Pass.traitsAmong (Traits.ofListing descriptions) name =
      orUnknown name (Traits.described? descriptions name) := by
  rw [Pass.traitsAmong, Traits.get?_ofListing]
  cases Traits.described? descriptions name <;> rfl

/-- How a lookup ends: with the answer, or at the interruption of its last look, of which
nothing is remembered. -/
inductive Ended (defaults : Defaults) (lookup : Lookup) :
    List Visit → Except Failure Traits → World → Prop where
  | answered {visits : List Visit} {after : World} (hquiet : ∀ v ∈ visits, v.failure? = none) :
      Ended defaults lookup visits (lookup.answer defaults) after
  | failed {before : List Visit} {v : Visit} {failure : Failure} {after : World}
      (hquiet : ∀ u ∈ before, u.failure? = none) (hfailure : v.failure? = some failure)
      (hinterruption : failure.isInterruption = true)
      (hcancelled : failure = .cancelled → after.cancelled = true)
      (hnew : after.remembered.families v.scope v.familyName = none) :
      Ended defaults lookup (before ++ [v]) (.error failure) after

theorem ended_of_failed {scope : Scope} {familyName : String} {before : List Visit} {v : Visit}
    {failure : Failure} (hquiet : ∀ u ∈ before, u.failure? = none)
    (hvisited : Pass.Visited defaults scope familyName world v (.error failure) after) :
    Ended defaults lookup (before ++ [v]) (.error failure) after := by
  cases hvisited with
  | failed hnew hinterruption hlog hread hrefusals hcancelled hremembered =>
      refine .failed hquiet rfl hinterruption hcancelled ?_
      rw [hremembered]
      exact hnew

/-- The last look of a lookup decides, if the answer is in its family. -/
theorem ended_of_last {scope : Scope} {familyName name : String} {before : List Visit} {v : Visit}
    {table : Except Failure (Table Traits)} (hledger : Ledger defaults earlier world.remembered)
    (hquiet : ∀ u ∈ before, u.failure? = none)
    (hanswer : lookup.answer defaults =
      orUnknown name (Traits.described? (defaults scope familyName) name))
    (hvisited : Pass.Visited defaults scope familyName world v table after) :
    Ended defaults lookup (before ++ [v])
      (table.bind fun traits => Pass.traitsAmong traits name) after := by
  cases table with
  | error failure => exact ended_of_failed hquiet hvisited
  | ok traits =>
      obtain ⟨hlast, rfl⟩ := hledger.whole_of_visited hvisited
      have hquiet' : ∀ u ∈ before ++ [v], u.failure? = none := by
        intro u hmem
        rcases List.mem_append.1 hmem with h | h
        · exact hquiet u h
        · rw [List.mem_singleton.1 h, hlast]
      have hresult : Pass.traitsAmong (Traits.ofListing (defaults scope familyName)) name =
          lookup.answer defaults := (traitsAmong_ofListing _ name).trans hanswer.symm
      rw [Except.bind, hresult]
      exact .answered hquiet'

theorem Looked.ended (hlooked : Looked defaults world lookup visits result after)
    (hledger : Ledger defaults earlier world.remembered) :
    Ended defaults lookup visits result after := by
  cases hlooked with
  | within hvisited => exact ended_of_last hledger (List.forall_mem_nil _) rfl hvisited
  | failed hvisited => exact ended_of_failed (List.forall_mem_nil _) hvisited
  | @found familyName name v table traits _ hvisited hfound =>
      obtain ⟨hquiet, rfl⟩ := hledger.whole_of_visited hvisited
      rw [Traits.get?_ofListing] at hfound
      have hanswer : answer defaults (.withFallback familyName name) = .ok traits := by
        rw [answer, hfound]
        rfl
      rw [← hanswer]
      exact .answered fun u hmem => (List.mem_singleton.1 hmem) ▸ hquiet
  | @fallback familyName name v w table _ _ _ hfirst hmissing hsecond =>
      obtain ⟨hquiet, rfl⟩ := hledger.whole_of_visited hfirst
      -- Without an entry for clusters, the answer is that for instances.
      rw [Traits.get?_ofListing] at hmissing
      have hanswer : answer defaults (.withFallback familyName name) =
          orUnknown name (Traits.described? (defaults .dbInstance familyName) name) := by
        rw [answer, hmissing, Option.none_or]
      have hbefore : ∀ u ∈ [v], u.failure? = none := fun u hmem =>
        (List.mem_singleton.1 hmem) ▸ hquiet
      exact ended_of_last (hledger.append hfirst) hbefore hanswer hsecond

theorem flatMap_refusals_of_last {before : List Visit} {v : Visit} {failure : Failure}
    (hquiet : ∀ u ∈ before, u.failure? = none) (hfailure : v.failure? = some failure) :
    (before ++ [v]).flatMap Visit.refusals = failure.apiErrors := by
  have hbefore : before.flatMap Visit.refusals = [] :=
    List.flatMap_eq_nil_iff.2 fun u hmem => by rw [Visit.refusals, hquiet u hmem, Option.elim]
  rw [List.flatMap_append, hbefore, List.nil_append, List.flatMap_singleton, Visit.refusals,
    hfailure, Option.elim]

theorem Ended.eq_answer_of_quiet (hended : Ended defaults lookup visits result after)
    (hquiet : ∀ v ∈ visits, v.failure? = none) : result = lookup.answer defaults := by
  cases hended with
  | answered _ => rfl
  | @failed before v failure _ _ hfailure hinterruption hcancelled hnew =>
      have hlast := hquiet v (List.mem_append_right _ (List.mem_singleton_self v))
      rw [hfailure] at hlast
      exact absurd hlast (Option.some_ne_none failure)

theorem Ended.eq_answer (hended : Ended defaults lookup visits result after)
    (hnone : visits.flatMap Visit.refusals = []) (hgoes : result ≠ .error .cancelled) :
    result = lookup.answer defaults := by
  cases hended with
  | answered hquiet => rfl
  | @failed before v failure _ hquiet hfailure hinterruption hcancelled hnew =>
      rw [flatMap_refusals_of_last hquiet hfailure] at hnone
      cases failure with
      | api e => exact absurd hnone (List.cons_ne_nil e [])
      | cancelled => exact absurd rfl hgoes
      | _ => exact absurd hinterruption Bool.false_ne_true

/-- Of the looks of a lookup at most one fails, which is the last one. -/
theorem Ended.failed_of_mem (hended : Ended defaults lookup visits result after) {v : Visit}
    (hmem : v ∈ visits) {failure : Failure} (hfailure : v.failure? = some failure) :
    visits.getLast? = some v ∧ result = .error failure ∧
      visits.flatMap Visit.refusals = failure.apiErrors ∧ failure.isInterruption = true ∧
      (failure = .cancelled → after.cancelled = true) ∧
      after.remembered.families v.scope v.familyName = none := by
  cases hended with
  | answered hquiet => simp [hquiet v hmem] at hfailure
  | @failed before last failure' _ hquiet hlast hinterruption hcancelled hnew =>
      have hsame : v = last := by
        rcases List.mem_append.1 hmem with h | h
        · simp [hquiet v h] at hfailure
        · exact List.mem_singleton.1 h
      subst hsame
      obtain rfl := Option.some.inj (hlast.symm.trans hfailure)
      exact ⟨List.getLast?_concat, rfl, flatMap_refusals_of_last hquiet hlast, hinterruption,
        hcancelled, hnew⟩

/-! ## Histories -/

/-- The looks that were taken, and what is remembered of them, after any lookups one after the
other.  All are against services with the same defaults, which may refuse and cancel what they
like and be called by others in between. -/
inductive History (defaults : Defaults) : List Visit → Remembered → Prop where
  | start : History defaults [] .nothing
  | next {earlier : List Visit} {world : World} (hearlier : History defaults earlier world.remembered)
      (hoffers : world.Offers defaults) (lookup : Lookup) :
      History defaults (earlier ++ lookup.visits world)
        (Pass.runIn world lookup.pass).2.remembered

theorem History.ledger {remembered : Remembered} (hhistory : History defaults visits remembered) :
    Ledger defaults visits remembered := by
  induction hhistory with
  | start => exact .nil defaults
  | next hearlier hoffers lookup ih => exact (looked hoffers lookup).ledger ih

/-- After any history a lookup that nothing interrupts gives what a search of the whole listings
gives.  A look that is interrupted ends the lookup with its failure and leaves nothing of the
family to remember, so that the next look at it sets out to load it again.  All along no family
is loaded twice, no call is made for one that was loaded before, and the counters tell the
looks. -/
theorem history_does_not_show (hhistory : History defaults earlier world.remembered)
    (hoffers : world.Offers defaults) (lookup : Lookup) :
    Ledger defaults (earlier ++ lookup.visits world)
        (Pass.runIn world lookup.pass).2.remembered ∧
      (∀ c ∈ Pass.calls world lookup.pass, ∃ v ∈ lookup.visits world, v.Reads c) ∧
      (Event.refusals (Pass.events world lookup.pass) = [] →
        (Pass.runIn world lookup.pass).1 ≠ .error .cancelled →
        (Pass.runIn world lookup.pass).1 = lookup.answer defaults) ∧
      ((∀ v ∈ lookup.visits world, v.failure? = none) →
        (Pass.runIn world lookup.pass).1 = lookup.answer defaults) ∧
      ∀ v ∈ lookup.visits world, ∀ failure, v.failure? = some failure →
        (lookup.visits world).getLast? = some v ∧
        (Pass.runIn world lookup.pass).1 = .error failure ∧
        Event.refusals (Pass.events world lookup.pass) = failure.apiErrors ∧
        failure.isInterruption = true ∧
        (failure = .cancelled → (Pass.runIn world lookup.pass).2.cancelled = true) ∧
        (Pass.runIn world lookup.pass).2.remembered.families v.scope v.familyName = none ∧
        ∀ later : World, later.remembered = (Pass.runIn world lookup.pass).2.remembered →
          (Pass.visit later v.scope v.familyName).attempts = true := by
  have hledger := hhistory.ledger
  have hlooked := looked hoffers lookup
  have hended := hlooked.ended hledger
  obtain ⟨events, hlog, hread, hrefusals⟩ := hlooked.exists_log
  rw [Pass.events_of_log_eq hlog, hrefusals]
  refine ⟨hlooked.ledger hledger, ?_, hended.eq_answer, hended.eq_answer_of_quiet, ?_⟩
  · intro c hmem
    rw [Pass.calls_of_log_eq hlog] at hmem
    obtain ⟨event, hevent, rfl⟩ := List.mem_map.1 hmem
    exact hread event hevent
  · intro v hmem failure hfailure
    obtain ⟨hlast, hresult, hmet, hinterruption, hcancelled, hnew⟩ :=
      hended.failed_of_mem hmem hfailure
    refine ⟨hlast, hresult, hmet, hinterruption, hcancelled, hnew, fun later hlater => ?_⟩
    exact Pass.attempts_visit (hlater ▸ hnew)

end Lookup

/-- One parameter for clusters, and two for instances, of which one is described twice. -/
def Defaults.sample : Defaults
  | .cluster, _ => [⟨"binlog_format", none, true, some "static", none⟩]
  | .dbInstance, _ =>
      [⟨"slow_query_log", none, true, some "static", none⟩, ⟨"autocommit", none, true, none, none⟩,
        ⟨"slow_query_log", none, true, some "dynamic", none⟩]

/-- A service that gives out one description at a time. -/
def Memory.sample : Memory :=
  { Memory.fresh with
    pageSize := 1
    listings := fun listing =>
      match listing with
      | .defaults scope familyName => Defaults.sample scope familyName
      | .overrides _ _ => [] }

namespace Lookup

/-- The second page of the family for instances is refused.  The next lookup finds the family for
clusters remembered and loads that for instances again, where the last description counts. -/
theorem refused_page_does_not_show :
    ∃ refused world : World,
      (Pass.runIn refused (pass (.withFallback "mysql8.0" "slow_query_log"))).1 =
        .error (.api ⟨"Throttling", "slow down"⟩) ∧
      world.remembered =
        (Pass.runIn refused (pass (.withFallback "mysql8.0" "slow_query_log"))).2.remembered ∧
      Event.refusals (Pass.events world (pass (.withFallback "mysql8.0" "slow_query_log"))) = [] ∧
      (Pass.runIn world (pass (.withFallback "mysql8.0" "slow_query_log"))).1 =
        .ok ⟨true, true⟩ ∧
      (Pass.runIn world (pass (.withFallback "mysql8.0" "slow_query_log"))).2.remembered.misses =
        3 := by
  let refused : World := .initial <| .memory <|
    Memory.sample.withRefusal (.once "DescribeEngineDefaultParameters" 3)
      ⟨"Throttling", "slow down"⟩
  let lookup : Lookup := .withFallback "mysql8.0" "slow_query_log"
  let world : World :=
    { World.initial (.memory .sample) with
      remembered := (Pass.runIn refused lookup.pass).2.remembered }
  have hrefused : refused.Offers .sample := ⟨fun _ _ => rfl, Nat.one_pos⟩
  have hoffers : world.Offers .sample := ⟨fun _ _ => rfl, Nat.one_pos⟩
  have hhistory : History .sample ([] ++ lookup.visits refused) world.remembered :=
    .next .start hrefused lookup
  obtain ⟨hledger, -, hanswer, -⟩ := history_does_not_show hhistory hoffers lookup
  have hnone : Event.refusals (Pass.events world lookup.pass) = [] := by decide +kernel
  have hresult := hanswer hnone (by decide +kernel)
  refine ⟨refused, world, by decide +kernel, rfl, hnone, hresult, ?_⟩
  rw [hledger.misses]
  decide +kernel

end Lookup
end DbSteward
