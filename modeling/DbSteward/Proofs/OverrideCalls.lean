import DbSteward.Proofs.Order
import DbSteward.Proofs.Resumption
import Mathlib.Data.List.Forall2

/-!
# The calls that settle overrides

Settling overrides reads the defaults of the family first and resolves every parameter that is to
change.  A parameter that cannot be changed stops the pass there.  Otherwise the resets go out and
then the writes, each in the order of their names and in batches that are full up to the last.
Whether and how a parameter can be changed is read off what there is to be found in the world, so
all of this is known beforehand.
-/

namespace DbSteward

open Overrides (edit)

/-! ## What is to change -/

namespace Overrides

/-- The names to reset and the parameters to write, each in the order of the names. -/
structure Split (desired observed : Overrides) (removed : List String)
    (changed : List (String × Option String)) : Prop where
  removed_ascending : removed.Pairwise (· < ·)
  mem_removed_iff : ∀ name,
    name ∈ removed ↔ desired.get? name = none ∧ observed.get? name ≠ none
  changed_ascending : (changed.map Prod.fst).Pairwise (· < ·)
  mem_changed_iff : ∀ name value,
    (name, value) ∈ changed ↔ desired.get? name = some value ∧ observed.get? name ≠ some value

theorem split_edit (desired observed : Overrides) :
    Split desired observed ((edit desired observed).resets.entries.map Prod.fst)
      (edit desired observed).writes.entries where
  removed_ascending := List.pairwise_map.2 (edit desired observed).resets.ascending
  mem_removed_iff := by
    intro name
    have hkeys : name ∈ (edit desired observed).resets.entries.map Prod.fst ↔
        ∃ value, (edit desired observed).resets.get? name = some value := by
      simp [Table.get?_eq_some_iff]
    rw [hkeys, get?_resets, ← Option.ne_none_iff_exists']
    cases hdesired : desired.get? name <;> cases observed.get? name <;>
      simp [Table.contains, hdesired]
  changed_ascending := List.pairwise_map.2 (edit desired observed).writes.ascending
  mem_changed_iff := by
    intro name value
    rw [← Table.get?_eq_some_iff, get?_writes, Option.filter_eq_some_iff]
    simp

end Overrides

/-! ## What is in the way -/

namespace Library

variable {library : Library} {group : ParameterGroup}

/-- Why a parameter cannot be changed, if it cannot. -/
def obstacle? (library : Library) (group : ParameterGroup) (name : String) : Option Obstacle :=
  match library.lookup group.scope group.family name with
  | none => some (.unknownParameter name)
  | some traits => if traits.isModifiable then none else some (.unmodifiableParameter name)

theorem obstacle?_of_unknown {name : String}
    (hunknown : library.lookup group.scope group.family name = none) :
    library.obstacle? group name = some (.unknownParameter name) := by
  rw [obstacle?, hunknown]

theorem obstacle?_of_found {name : String} {traits : Traits}
    (hfound : library.lookup group.scope group.family name = some traits) :
    library.obstacle? group name =
      if traits.isModifiable then none else some (.unmodifiableParameter name) := by
  rw [obstacle?, hfound]

theorem obstacle?_eq_none_iff {name : String} :
    library.obstacle? group name = none ↔ ∃ traits,
      library.lookup group.scope group.family name = some traits ∧ traits.isModifiable = true := by
  unfold obstacle?
  cases library.lookup group.scope group.family name with
  | none => simp
  | some traits => simp

/-- There is an entry for every parameter that can be changed. -/
theorem exists_resolves {items : List (String × Option String)}
    (hclear : ∀ item ∈ items, library.obstacle? group item.1 = none) :
    ∃ entries, List.Forall₂ (library.Resolves group) items entries := by
  induction items with
  | nil => exact ⟨[], .nil⟩
  | cons item rest ih =>
      obtain ⟨entries, hentries⟩ := ih fun other hmem => hclear other (List.mem_cons_of_mem _ hmem)
      obtain ⟨traits, hfound, hmodifiable⟩ :=
        obstacle?_eq_none_iff.1 (hclear item (List.mem_cons_self ..))
      exact ⟨⟨item.1, item.2, traits.timing⟩ :: entries,
        .cons ⟨rfl, rfl, traits, hfound, hmodifiable, rfl⟩ hentries⟩

theorem rightUnique_resolves (library : Library) (group : ParameterGroup) :
    Relator.RightUnique (library.Resolves group) := by
  rintro item ⟨name, value, timing⟩ ⟨name', value', timing'⟩
    ⟨hname, hvalue, traits, hfound, -, htiming⟩
    ⟨hname', hvalue', traits', hfound', -, htiming'⟩
  obtain rfl : traits = traits' := Option.some.inj (hfound.symm.trans hfound')
  simp_all

end Library

namespace Pass

variable {α β : Type} {library : Library} {group : ParameterGroup}

/-- Where something holds the pass comes upon the obstacle, unless it is interrupted before. -/
def MeetsObstacle (holds : World → Prop) (obstacle : Obstacle) (pass : Pass α) : Prop :=
  ∀ world, holds world → ∃ failure, (runIn world pass).1 = .error failure ∧
    (failure = .obstacle obstacle ∨ failure.isInterruption = true)

section MeetsObstacle

variable {holds : World → Prop} {obstacle : Obstacle}

theorem meetsObstacle_liftExcept {outcome : Except Failure α}
    (houtcome : outcome = .error (.obstacle obstacle)) :
    MeetsObstacle holds obstacle (liftExcept outcome) := by
  intro world _
  exact ⟨_, by rw [runIn_liftExcept, houtcome], .inl rfl⟩

theorem runIn_bind_of_error {pass : Pass α} {world : World} {failure : Failure}
    (hresult : (runIn world pass).1 = .error failure) (next : α → Pass β) :
    runIn world (pass >>= next) = (.error failure, (runIn world pass).2) := by
  rw [runIn_bind]
  cases hrun : runIn world pass with
  | mk outcome after =>
      rw [hrun] at hresult
      rw [show outcome = .error failure from hresult]

theorem MeetsObstacle.bind {pass : Pass α} (hmeets : MeetsObstacle holds obstacle pass)
    (next : α → Pass β) : MeetsObstacle holds obstacle (pass >>= next) := by
  intro world hworld
  obtain ⟨failure, hresult, hfailure⟩ := hmeets world hworld
  exact ⟨failure, by rw [runIn_bind_of_error hresult next], hfailure⟩

theorem meetsObstacle_bind {first : α → Prop} {pass : Pass α} {next : α → Pass β}
    (hpass : Yields holds first pass)
    (hnext : ∀ a, first a → MeetsObstacle holds obstacle (next a)) :
    MeetsObstacle holds obstacle (pass >>= next) := by
  intro world hworld
  have hmiddle := hpass world hworld
  rw [runIn_bind]
  cases hrun : runIn world pass with
  | mk outcome middle =>
      rw [hrun] at hmiddle
      cases outcome with
      | error failure => exact ⟨failure, rfl, .inr hmiddle.2⟩
      | ok a => exact hnext a hmiddle.2 middle hmiddle.1

end MeetsObstacle

theorem meetsObstacle_traitsIn {scope : Scope} {familyName name : String}
    (hunknown : (library.traits scope familyName).get? name = none) :
    MeetsObstacle (World.Holds library) (.unknownParameter name)
      (traitsIn scope familyName name) := by
  refine meetsObstacle_bind (yields_family scope familyName) ?_
  rintro table rfl
  exact meetsObstacle_liftExcept (by rw [traitsAmong, hunknown])

theorem meetsObstacle_traitsFor {scope : Scope} {familyName name : String}
    (hunknown : library.lookup scope familyName name = none) :
    MeetsObstacle (World.Holds library) (.unknownParameter name)
      (traitsFor scope familyName name) := by
  cases scope with
  | dbInstance => exact meetsObstacle_traitsIn hunknown
  | cluster =>
      obtain ⟨hcluster, hinstance⟩ := Option.or_eq_none_iff.1 hunknown
      refine meetsObstacle_bind (yields_family .cluster familyName) ?_
      rintro table rfl
      rw [hcluster]
      exact meetsObstacle_traitsIn hinstance

/-- The first parameter that cannot be changed is the one that stops the pass: those before it
are found and can be changed. -/
theorem meetsObstacle_entriesOf {obstacle : Obstacle} {items : List (String × Option String)}
    (hfirst : (items.map Prod.fst).findSome? (library.obstacle? group) = some obstacle) :
    MeetsObstacle (World.Holds library) obstacle (entriesOf group items) := by
  induction items with
  | nil => simp at hfirst
  | cons item rest ih =>
      rw [List.map_cons, List.findSome?_cons] at hfirst
      unfold entriesOf
      cases hfound : library.lookup group.scope group.family item.1 with
      | none =>
          rw [Library.obstacle?_of_unknown hfound] at hfirst
          obtain rfl : .unknownParameter item.1 = obstacle := Option.some.inj hfirst
          exact (meetsObstacle_traitsFor hfound).bind _
      | some traits =>
          refine meetsObstacle_bind (yields_traitsFor hfound) ?_
          rintro found rfl
          rw [Library.obstacle?_of_found hfound] at hfirst
          by_cases hmodifiable : found.isModifiable = true
          · have hentry : entryOf found item.1 item.2 = .ok ⟨item.1, item.2, found.timing⟩ :=
              if_pos hmodifiable
            rw [if_pos hmodifiable] at hfirst
            rw [hentry, liftExcept_ok_bind]
            exact (ih hfirst).bind _
          · have hentry : entryOf found item.1 item.2 =
                .error (.obstacle (.unmodifiableParameter item.1)) := if_neg hmodifiable
            rw [if_neg hmodifiable] at hfirst
            obtain rfl : .unmodifiableParameter item.1 = obstacle := Option.some.inj hfirst
            exact (meetsObstacle_liftExcept hentry).bind _

/-! ## Resolving before calling -/

/-- The call reads a page of the defaults of a family. -/
def ReadsDefaults (familyName : String) (c : Call) : Prop :=
  ∃ scope marker, c = .list (.defaults scope familyName) marker

/-- The entries of all calls that an edit takes, resets first. -/
def resolved (group : ParameterGroup) (edit : Overrides.Edit) :
    Pass (List ParameterEntry × List ParameterEntry) := do
  let resets ← entriesOf group (edit.resets.entries.map fun entry => (entry.1, none))
  let writes ← entriesOf group edit.writes.entries
  pure (resets, writes)

def sendBatches (context : Context) (group : ParameterGroup)
    (found : List ParameterEntry × List ParameterEntry) : Pass Unit := do
  resetBatches group (batches context.settings.batchSize found.1)
  modifyBatches group (batches context.settings.batchSize found.2)

/-- Everything is resolved before the first call that changes anything.  This holds of an edit
with nothing in it as well, which takes no call at all. -/
theorem settleOverrides_eq_resolved_bind (context : Context) (group : ParameterGroup)
    (desired observed : Overrides) :
    settleOverrides context group desired observed =
      resolved group (edit desired observed) >>= sendBatches context group := by
  have hbind : applyOverrides context group (edit desired observed) =
      resolved group (edit desired observed) >>= sendBatches context group := by
    simp only [applyOverrides, resolved, sendBatches, bind_assoc, pure_bind]
  unfold settleOverrides
  split
  · rename_i hempty
    obtain ⟨hwrites, hresets⟩ := Bool.and_eq_true_iff.1 hempty
    rw [Table.isEmpty_iff] at hwrites hresets
    rw [resolved, hwrites, hresets]
    rfl
  · exact hbind

theorem makes_resolved (group : ParameterGroup) (edit : Overrides.Edit) :
    Makes (ReadsDefaults group.family) (resolved group edit) :=
  makes_bind (makes_entriesOf (fun _ _ => ⟨_, _, rfl⟩) _) fun _ =>
    makes_bind (makes_entriesOf (fun _ _ => ⟨_, _, rfl⟩) _) fun _ => makes_pure _

theorem yields_resolved {edit : Overrides.Edit}
    (hresets : ∀ item ∈ edit.resets.entries.map fun entry => (entry.1, (none : Option String)),
      library.obstacle? group item.1 = none)
    (hwrites : ∀ item ∈ edit.writes.entries, library.obstacle? group item.1 = none) :
    Yields (World.Holds library)
      (fun found =>
        List.Forall₂ (library.Resolves group)
            (edit.resets.entries.map fun entry => (entry.1, none)) found.1 ∧
          List.Forall₂ (library.Resolves group) edit.writes.entries found.2)
      (resolved group edit) := by
  have hknown {items : List (String × Option String)}
      (hclear : ∀ item ∈ items, library.obstacle? group item.1 = none) :=
    yields_entriesOf fun item hmem => Library.obstacle?_eq_none_iff.1 (hclear item hmem)
  exact yields_bind (hknown hresets) fun _ hfound =>
    yields_bind (hknown hwrites) fun _ hothers => yields_pure ⟨hfound, hothers⟩

theorem meetsObstacle_resolved {edit : Overrides.Edit} {obstacle : Obstacle}
    (hfirst : (edit.resets.entries.map Prod.fst ++ edit.writes.entries.map Prod.fst).findSome?
      (library.obstacle? group) = some obstacle) :
    MeetsObstacle (World.Holds library) obstacle (resolved group edit) := by
  have hnames : (edit.resets.entries.map fun entry => (entry.1, (none : Option String))).map
      Prod.fst = edit.resets.entries.map Prod.fst := by
    rw [List.map_map]
    rfl
  rw [List.findSome?_append, ← hnames] at hfirst
  cases hresets : ((edit.resets.entries.map fun entry => (entry.1, (none : Option String))).map
    Prod.fst).findSome? (library.obstacle? group) with
  | some earlier =>
      rw [hresets] at hfirst
      obtain rfl : earlier = obstacle := Option.some.inj hfirst
      exact (meetsObstacle_entriesOf hresets).bind _
  | none =>
      rw [hresets] at hfirst
      have hclear := List.findSome?_eq_none_iff.1 hresets
      refine meetsObstacle_bind (yields_entriesOf fun item hmem =>
        Library.obstacle?_eq_none_iff.1 (hclear item.1 (List.mem_map_of_mem hmem))) fun _ _ => ?_
      exact (meetsObstacle_entriesOf hfirst).bind _

/-! ## Sending -/

theorem calls_call_bind_of_ok {c : Call} {category : Category} {operation : String}
    {rest : Pass β} {world after : World} {b : β} {allowed : Call → Prop}
    (hrest : Makes allowed rest)
    (hrun : runIn world (call c category operation >>= fun _ => rest) = (.ok b, after)) :
    ∃ middle, runIn middle rest = (.ok b, after) ∧
      calls world (call c category operation >>= fun _ => rest) = c :: calls middle rest := by
  obtain ⟨answer, middle, hcall, hlater⟩ := runIn_bind_eq_ok hrun
  refine ⟨middle, hlater, ?_⟩
  rw [calls_bind_of_ok (makes_call trivial) hrest.any hcall, calls_eq_map_events,
    events_call_of_ok hcall]
  rfl

theorem calls_resetBatches_of_ok {parts : List (List ParameterEntry)} {world after : World}
    (hrun : runIn world (resetBatches group parts) = (.ok (), after)) :
    calls world (resetBatches group parts) =
      parts.map (.resetOverrides group.scope group.name) := by
  induction parts generalizing world with
  | nil => exact calls_pure world ()
  | cons part rest ih =>
      obtain ⟨middle, hrest, hcalls⟩ :=
        calls_call_bind_of_ok (makes_resetBatches group rest) hrun
      rw [List.map_cons, ← ih hrest]
      exact hcalls

theorem calls_modifyBatches_of_ok {parts : List (List ParameterEntry)} {world after : World}
    (hrun : runIn world (modifyBatches group parts) = (.ok (), after)) :
    calls world (modifyBatches group parts) =
      parts.map (.modifyOverrides group.scope group.name) := by
  induction parts generalizing world with
  | nil => exact calls_pure world ()
  | cons part rest ih =>
      obtain ⟨middle, hrest, hcalls⟩ :=
        calls_call_bind_of_ok (makes_modifyBatches group rest) hrun
      rw [List.map_cons, ← ih hrest]
      exact hcalls

theorem makes_sendBatches (context : Context) (group : ParameterGroup)
    (found : List ParameterEntry × List ParameterEntry) :
    Makes (fun _ => True) (sendBatches context group found) :=
  makes_bind (makes_resetBatches _ _).any fun _ => (makes_modifyBatches _ _).any

theorem yields_sendBatches (context : Context) (group : ParameterGroup)
    (found : List ParameterEntry × List ParameterEntry) :
    Yields (World.Holds library) (fun _ => True) (sendBatches context group found) :=
  yields_bind (yields_resetBatches _) fun _ _ => yields_modifyBatches _

theorem calls_sendBatches_of_ok {context : Context}
    {found : List ParameterEntry × List ParameterEntry} {world after : World}
    (hrun : runIn world (sendBatches context group found) = (.ok (), after)) :
    calls world (sendBatches context group found) =
      (batches context.settings.batchSize found.1).map
          (.resetOverrides group.scope group.name) ++
        (batches context.settings.batchSize found.2).map
          (.modifyOverrides group.scope group.name) := by
  obtain ⟨_, middle, hresets, hwrites⟩ := runIn_bind_eq_ok hrun
  rw [sendBatches, calls_bind_of_ok (makes_resetBatches _ _).any (makes_modifyBatches _ _).any
    hresets, calls_resetBatches_of_ok hresets, calls_modifyBatches_of_ok hwrites]

/-! ## Settling -/

section Settling

variable {context : Context} {desired observed : Overrides} {world : World}

theorem runIn_settleOverrides_of_obstacle {obstacle : Obstacle}
    (hfirst : ((edit desired observed).resets.entries.map Prod.fst ++
      (edit desired observed).writes.entries.map Prod.fst).findSome?
        (library.obstacle? group) = some obstacle)
    (hworld : world.Holds library)
    (huninterrupted : Uninterrupted world (settleOverrides context group desired observed)) :
    (runIn world (settleOverrides context group desired observed)).1 =
        .error (.obstacle obstacle) ∧
      ∀ c ∈ calls world (settleOverrides context group desired observed),
        ReadsDefaults group.family c := by
  obtain ⟨failure, hresult, hfailure⟩ := meetsObstacle_resolved hfirst world hworld
  have hsame : runIn world (settleOverrides context group desired observed) =
      (.error failure, (runIn world (resolved group (edit desired observed))).2) := by
    rw [settleOverrides_eq_resolved_bind, runIn_bind_of_error hresult]
  constructor
  · rw [hsame]
    rcases hfailure with rfl | hinterrupted
    · rfl
    · rw [huninterrupted failure (congrArg Prod.fst hsame)] at hinterrupted
      exact absurd hinterrupted (by simp)
  · intro c hmem
    rw [calls_eq_of_runs hsame (Prod.ext hresult rfl)] at hmem
    exact (makes_resolved group (edit desired observed)).of_mem hmem

theorem calls_settleOverrides_of_ok
    (hresets : ∀ item ∈ (edit desired observed).resets.entries.map fun entry =>
      (entry.1, (none : Option String)), library.obstacle? group item.1 = none)
    (hwrites : ∀ item ∈ (edit desired observed).writes.entries,
      library.obstacle? group item.1 = none)
    (hworld : world.Holds library)
    (hok : (runIn world (settleOverrides context group desired observed)).1 = .ok ()) :
    ∃ reads resets writes,
      (∀ c ∈ reads, ReadsDefaults group.family c) ∧
      List.Forall₂ (library.Resolves group)
        ((edit desired observed).resets.entries.map fun entry => (entry.1, none)) resets ∧
      List.Forall₂ (library.Resolves group) (edit desired observed).writes.entries writes ∧
      calls world (settleOverrides context group desired observed) =
        reads ++ ((batches context.settings.batchSize resets).map
            (.resetOverrides group.scope group.name) ++
          (batches context.settings.batchSize writes).map
            (.modifyOverrides group.scope group.name)) := by
  rw [settleOverrides_eq_resolved_bind] at hok ⊢
  obtain ⟨found, middle, hresolved, hsent⟩ := runIn_bind_eq_ok (Prod.ext hok rfl)
  have hfound := (yields_resolved hresets hwrites world hworld).2
  rw [hresolved] at hfound
  refine ⟨calls world (resolved group (edit desired observed)), found.1, found.2,
    fun c hmem => (makes_resolved _ _).of_mem hmem, hfound.1, hfound.2, ?_⟩
  rw [← calls_sendBatches_of_ok hsent]
  exact calls_bind_of_ok (makes_resolved _ _).any (makes_sendBatches context group found) hresolved

end Settling

/-- What settling overrides does is known from the defaults beforehand.  The first name that
cannot be changed, among the names to reset and then those to write, fails the pass before any
parameter is touched.  If there is none, the same entries go out whatever the batch size: all
resets without values, then all writes with the desired ones. -/
theorem settleOverrides_calls (library : Library) (group : ParameterGroup)
    (desired observed : Overrides) :
    ∃ removed changed, Overrides.Split desired observed removed changed ∧
      (∀ obstacle,
        (removed ++ changed.map Prod.fst).findSome? (library.obstacle? group) = some obstacle →
        ∀ context world, world.Holds library →
          Uninterrupted world (settleOverrides context group desired observed) →
          (runIn world (settleOverrides context group desired observed)).1 =
              .error (.obstacle obstacle) ∧
            ∀ c ∈ calls world (settleOverrides context group desired observed),
              ReadsDefaults group.family c) ∧
      ((∀ name ∈ removed ++ changed.map Prod.fst, library.obstacle? group name = none) →
        ∃ resets writes,
          List.Forall₂ (library.Resolves group) (removed.map fun name => (name, none)) resets ∧
          List.Forall₂ (library.Resolves group) changed writes ∧
          ∀ context world, world.Holds library →
            Uninterrupted world (settleOverrides context group desired observed) →
            (runIn world (settleOverrides context group desired observed)).1 = .ok () ∧
              ∃ reads resetParts writeParts,
                calls world (settleOverrides context group desired observed) =
                  reads ++ (resetParts.map (.resetOverrides group.scope group.name) ++
                    writeParts.map (.modifyOverrides group.scope group.name)) ∧
                (∀ c ∈ reads, ReadsDefaults group.family c) ∧
                resetParts.flatten = resets ∧ writeParts.flatten = writes ∧
                Filled context.settings.batchSize resetParts ∧
                Filled context.settings.batchSize writeParts) := by
  refine ⟨_, _, Overrides.split_edit desired observed, fun obstacle hfirst context world hworld =>
    runIn_settleOverrides_of_obstacle hfirst hworld, fun hclear => ?_⟩
  have hresets : ∀ item ∈ (edit desired observed).resets.entries.map fun entry =>
      (entry.1, (none : Option String)), library.obstacle? group item.1 = none := by
    intro item hmem
    obtain ⟨entry, hentry, rfl⟩ := List.mem_map.1 hmem
    exact hclear _ (List.mem_append_left _ (List.mem_map.2 ⟨entry, hentry, rfl⟩))
  have hwrites : ∀ item ∈ (edit desired observed).writes.entries,
      library.obstacle? group item.1 = none := fun item hmem =>
    hclear _ (List.mem_append_right _ (List.mem_map_of_mem hmem))
  obtain ⟨resets, hresolvedResets⟩ := Library.exists_resolves hresets
  obtain ⟨writes, hresolvedWrites⟩ := Library.exists_resolves hwrites
  have hunique := (Library.rightUnique_resolves library group).forall₂
  refine ⟨resets, writes, by rwa [List.map_map], hresolvedWrites,
    fun context world hworld huninterrupted => ?_⟩
  have hok : (runIn world (settleOverrides context group desired observed)).1 = .ok () := by
    have hyields := yields_bind (yields_resolved hresets hwrites) fun found _ =>
      yields_sendBatches context group found
    rw [← settleOverrides_eq_resolved_bind context] at hyields
    obtain ⟨_, hok, -⟩ := hyields.exists_ok hworld huninterrupted
    exact hok
  obtain ⟨reads, resets', writes', hreads, hresets', hwrites', hcalls⟩ :=
    calls_settleOverrides_of_ok hresets hwrites hworld hok
  obtain rfl : resets' = resets := hunique hresets' hresolvedResets
  obtain rfl : writes' = writes := hunique hwrites' hresolvedWrites
  exact ⟨hok, reads, _, _, hcalls, hreads, flatten_batches _ _, flatten_batches _ _,
    filled_batchesWithin _ _ _, filled_batchesWithin _ _ _⟩

end Pass

/-- One of the three parameters is a parameter of instances only, another one takes a reboot. -/
def World.twoLevels : World :=
  .initial <| .memory <|
    (Memory.fresh.withListing (.defaults .cluster "aurora-mysql8.0")
      [⟨"autocommit", none, true, none, none⟩,
        ⟨"max_connections", none, true, some "static", none⟩]).withListing
      (.defaults .dbInstance "aurora-mysql8.0") [⟨"sql_mode", none, true, none, none⟩]

def ParameterGroup.sampleOfCluster : ParameterGroup :=
  ⟨.cluster, "main", "aurora-mysql8.0"⟩

namespace Pass

theorem cluster_changes_one_by_one :
    (∃ reads resetParts writeParts,
      calls .twoLevels (settleOverrides .changeByChange .sampleOfCluster .sampleDesired
          .sampleLive) =
        reads ++ (resetParts.map (.resetOverrides .cluster "main") ++
          writeParts.map (.modifyOverrides .cluster "main")) ∧
      (∀ c ∈ reads, ReadsDefaults "aurora-mysql8.0" c) ∧
      Filled 1 resetParts ∧ Filled 1 writeParts) ∧
    (calls .twoLevels (settleOverrides .changeByChange .sampleOfCluster .sampleDesired
        .sampleLive)).filter Call.isMutating =
      [.resetOverrides .cluster "main" [⟨"max_connections", none, .pendingReboot⟩],
        .modifyOverrides .cluster "main" [⟨"autocommit", some "1", .immediate⟩],
        .modifyOverrides .cluster "main" [⟨"sql_mode", none, .immediate⟩]] := by
  have hclear : ∀ entry ∈ Overrides.sampleLive.entries ++ Overrides.sampleDesired.entries,
      World.twoLevels.library.obstacle? .sampleOfCluster entry.1 = none := by
    decide +kernel
  obtain ⟨removed, changed, hsplit, -, hcalls⟩ := settleOverrides_calls
    World.twoLevels.library .sampleOfCluster .sampleDesired .sampleLive
  have hnames : ∀ name ∈ removed ++ changed.map Prod.fst,
      World.twoLevels.library.obstacle? .sampleOfCluster name = none := by
    intro name hmem
    rcases List.mem_append.1 hmem with hremoved | hchanged
    · obtain ⟨value, hlive⟩ :=
        Option.ne_none_iff_exists'.1 ((hsplit.mem_removed_iff name).1 hremoved).2
      exact hclear _ (List.mem_append_left _ (Table.get?_eq_some_iff.1 hlive))
    · obtain ⟨⟨_, value⟩, hentry, rfl⟩ := List.mem_map.1 hchanged
      have hdesired := ((hsplit.mem_changed_iff _ _).1 hentry).1
      exact hclear _ (List.mem_append_right _ (Table.get?_eq_some_iff.1 hdesired))
  have huninterrupted : Uninterrupted .twoLevels
      (settleOverrides .changeByChange .sampleOfCluster .sampleDesired .sampleLive) := by
    intro failure hfailure
    exact absurd (hfailure.symm.trans (by rfl)) (by simp : Except.error failure ≠ .ok ())
  obtain ⟨resets, writes, -, -, hruns⟩ := hcalls hnames
  obtain ⟨-, reads, resetParts, writeParts, hmade, hreads, -, -, hresets, hwrites⟩ :=
    hruns .changeByChange .twoLevels ⟨rfl, Nat.succ_pos 99⟩ huninterrupted
  exact ⟨⟨reads, resetParts, writeParts, hmade, hreads, hresets, hwrites⟩, rfl⟩

end Pass
end DbSteward
