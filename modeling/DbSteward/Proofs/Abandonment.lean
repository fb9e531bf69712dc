import DbSteward.Proofs.Ending
import DbSteward.Proofs.Order

/-!
# Giving up

A pass gives up when the resource is beyond recovery or when its update meets an obstacle.
Obstacles are met before the resource itself is touched: until then an update has settled the
tags, read what its parameters are by default, or turned the replication of backups on or off,
and nothing else.
-/

namespace DbSteward

/-- The call is one that an update of the kind may make before it knows that nothing is in its
way. -/
def Kind.IsPreliminary : Kind → Call → Prop
  | _, .addTags _ _ => True
  | _, .removeTags _ _ => True
  | .parameterGroup _, .list (.defaults _ _) _ => True
  | .dbInstance, .startReplication _ _ => True
  | .dbInstance, .stopReplication _ _ => True
  | _, _ => False

namespace Pass

variable {α β : Type} {kind : Kind} {allowed : Call → Prop}

/-! ## Obstacles come early -/

/-- Where a run of the pass ends at an obstacle, it has made only calls that are allowed. -/
def Spares (allowed : Call → Prop) (pass : Pass α) : Prop :=
  ∀ world o after, runIn world pass = (.error (.obstacle o), after) →
    ∃ added, after.log = world.log ++ added ∧ ∀ event ∈ added, allowed event.call

theorem Spares.of_mem {pass : Pass α} (hspares : Spares allowed pass) {world after : World}
    {o : Obstacle} (hrun : runIn world pass = (.error (.obstacle o), after)) {c : Call}
    (hmem : c ∈ calls world pass) : allowed c := by
  obtain ⟨added, hlog, hallowed⟩ := hspares world o after hrun
  have hadded : (runIn world pass).2.log = world.log ++ added := by rw [hrun, hlog]
  rw [calls_of_log_eq hadded] at hmem
  obtain ⟨event, hevent, rfl⟩ := List.mem_map.1 hmem
  exact hallowed event hevent

theorem spares_of_makes {pass : Pass α} (hmakes : Makes allowed pass) : Spares allowed pass := by
  intro world o after hrun
  obtain ⟨added, hlog, hallowed⟩ := hmakes world
  rw [hrun] at hlog
  exact ⟨added, hlog, hallowed⟩

theorem spares_of_unobstructed {pass : Pass α} (hpass : Unobstructed pass) :
    Spares allowed pass := by
  intro world o after hrun
  exact absurd (congrArg Prod.fst hrun) (hpass world o)

theorem spares_bind {pass : Pass α} {next : α → Pass β} (hpass : Makes allowed pass)
    (hnext : ∀ a, Spares allowed (next a)) : Spares allowed (pass >>= next) := by
  intro world o after hrun
  rcases runIn_bind_eq_error hrun with hfirst | ⟨a, middle, hfirst, hsecond⟩
  · exact spares_of_makes hpass world o after hfirst
  · obtain ⟨before, hbefore, hbeforeAllowed⟩ := hpass world
    obtain ⟨later, hlater, hlaterAllowed⟩ := hnext a middle o after hsecond
    rw [hfirst] at hbefore
    refine ⟨before ++ later, ?_, ?_⟩
    · rw [hlater, hbefore, List.append_assoc]
    · intro event hmem
      rcases List.mem_append.1 hmem with h | h
      · exact hbeforeAllowed event h
      · exact hlaterAllowed event h

/-- After the last obstacle a pass may make any call. -/
theorem spares_then {pass : Pass α} {next : α → Pass β} (hpass : Spares allowed pass)
    (hnext : ∀ a, Unobstructed (next a)) : Spares allowed (pass >>= next) := by
  intro world o after hrun
  rcases runIn_bind_eq_error hrun with hfirst | ⟨a, middle, -, hsecond⟩
  · exact hpass world o after hfirst
  · exact absurd (congrArg Prod.fst hsecond) (hnext a middle o)

/-- A request is built before it is sent, and only building it can meet an obstacle. -/
theorem spares_send {ρ : Type} (request : Except Failure ρ) (toCall : ρ → Call) (a : α) :
    Spares allowed (liftExcept request >>= fun r => call (toCall r) >>= fun _ => pure a) :=
  spares_bind (makes_liftExcept request) fun _ =>
    spares_of_unobstructed <| unobstructed_bind (unobstructed_call _) fun _ => unobstructed_pure a

/-! ## Updates -/

theorem unobstructed_resetBatches (group : ParameterGroup) (parts : List (List ParameterEntry)) :
    Unobstructed (resetBatches group parts) := by
  induction parts with
  | nil => exact unobstructed_pure ()
  | cons part rest ih => exact unobstructed_bind (unobstructed_call _) fun _ => ih

theorem unobstructed_modifyBatches (group : ParameterGroup)
    (parts : List (List ParameterEntry)) : Unobstructed (modifyBatches group parts) := by
  induction parts with
  | nil => exact unobstructed_pure ()
  | cons part rest ih => exact unobstructed_bind (unobstructed_call _) fun _ => ih

/-- All parameters are looked up before the first of them is changed. -/
theorem spares_settleOverrides (context : Context) {group : ParameterGroup}
    (hread : ∀ scope marker, allowed (.list (.defaults scope group.family) marker))
    (desired observed : Overrides) :
    Spares allowed (settleOverrides context group desired observed) := by
  unfold settleOverrides
  split
  · exact spares_of_unobstructed (unobstructed_pure ())
  · refine spares_bind (makes_entriesOf hread _) fun resets => ?_
    refine spares_bind (makes_entriesOf hread _) fun writes => ?_
    exact spares_of_unobstructed <|
      unobstructed_bind (unobstructed_resetBatches _ _) fun _ => unobstructed_modifyBatches _ _

theorem spares_finishInstance (context : Context) (desired observed : Document .dbInstance)
    (changes : Changes) : Spares allowed (finishInstance context desired observed changes) := by
  unfold finishInstance
  split
  · exact spares_send _ _ _
  · split
    · exact spares_of_unobstructed (unobstructed_pure _)
    · exact spares_of_unobstructed (unobstructed_pure _)

theorem spares_afterTags (context : Context) (arn : String) (desired observed : Document kind)
    (changes : Changes) :
    Spares kind.IsPreliminary (afterTags kind context arn desired observed changes) := by
  cases kind with
  | dbCluster =>
      rw [afterTags]
      split
      · exact spares_send _ _ _
      · exact spares_of_unobstructed (unobstructed_pure _)
  | dbInstance =>
      have hreplication : Makes (Kind.IsPreliminary .dbInstance)
          (settleReplication context.settings (replicationIntent desired)
            (replicationObservation arn observed)) :=
        makes_bind (makes_liftExcept _) fun step =>
          makes_takeStep (fun _ _ => trivial) (fun _ _ => trivial) _ step
      refine spares_bind hreplication fun decision => ?_
      cases decision with
      | retryAfter after reason => exact spares_of_unobstructed (unobstructed_pure _)
      | proceed => exact spares_finishInstance context desired observed changes
      | failTerminal reason => exact spares_finishInstance context desired observed changes
  | parameterGroup scope =>
      refine spares_then ?_ fun _ => unobstructed_pure _
      unfold updateOverrides
      split
      · exact spares_bind (makes_liftExcept _) fun group =>
          spares_settleOverrides context (fun _ _ => trivial) _ _
      · exact spares_of_unobstructed (unobstructed_pure ())
  | subnetGroup =>
      rw [afterTags]
      split
      · exact spares_send _ _ _
      · exact spares_of_unobstructed (unobstructed_pure _)
  | snapshot scope => exact spares_of_unobstructed (unobstructed_pure _)

theorem spares_update (context : Context) (desired observed : Document kind)
    (changes : Changes) :
    Spares kind.IsPreliminary (update kind context desired observed changes) := by
  have hremove : ∀ arn keys, kind.IsPreliminary (.removeTags arn keys) := by
    intro arn keys
    cases kind <;> trivial
  have hadd : ∀ arn tags, kind.IsPreliminary (.addTags arn tags) := by
    intro arn tags
    cases kind <;> trivial
  rw [update_eq_tags_first]
  refine spares_bind (makes_liftExcept _) fun arn => ?_
  exact spares_bind (makes_updateTags (hremove arn) (hadd arn) _ _ _) fun _ =>
    spares_afterTags context arn desired observed changes

/-! ## At most one call for replication -/

theorem countP_eq_zero_of_mem {sort other : Call → Bool} {cs : List Call}
    (hword : cs ∈ anyNumber sort) (hapart : ∀ c, sort c = true → other c = false) :
    cs.countP other = 0 := by
  rw [List.countP_eq_zero]
  intro c hmem
  rw [hapart c (hword c hmem)]
  exact Bool.false_ne_true

theorem countP_isReplication_of_mem_own {cs : List Call} (hword : cs ∈ kind.ownMutations) :
    cs.countP Call.isReplication ≤ 1 := by
  have hmodification : ∀ c, kind.isModification c = true → c.isReplication = false := by
    intro c
    cases kind <;> cases c <;> simp [Kind.isModification, Call.isReplication]
  have hshort {first second : List Call} (hfirst : first ∈ atMostOne Call.isReplication)
      (hsecond : second ∈ atMostOne kind.isModification) :
      (first ++ second).countP Call.isReplication ≤ 1 := by
    rw [List.countP_append, countP_eq_zero_of_mem hsecond.2 hmodification, Nat.add_zero]
    exact List.countP_le_length.trans hfirst.1
  cases kind with
  | parameterGroup scope =>
      obtain ⟨resets, hresets, writes, hwrites, rfl⟩ := Language.mem_mul.1 hword
      have hnoReset : ∀ c : Call, c.isReset = true → c.isReplication = false := by
        intro c
        cases c <;> simp [Call.isReset, Call.isReplication]
      have hnoWrite : ∀ c : Call, c.isWrite = true → c.isReplication = false := by
        intro c
        cases c <;> simp [Call.isWrite, Call.isReplication]
      rw [List.countP_append, countP_eq_zero_of_mem hresets hnoReset,
        countP_eq_zero_of_mem hwrites hnoWrite]
      exact Nat.zero_le 1
  | _ =>
      obtain ⟨first, hfirst, second, hsecond, rfl⟩ := Language.mem_mul.1 hword
      exact hshort hfirst hsecond

theorem countP_isReplication_of_mem_mutations {cs : List Call} (hword : cs ∈ kind.mutations) :
    cs.countP Call.isReplication ≤ 1 := by
  obtain ⟨tags, htags, own, hown, rfl⟩ := Language.mem_mul.1 hword
  obtain ⟨removals, hremovals, additions, hadditions, rfl⟩ := Language.mem_mul.1 htags
  have hnoRemoval : ∀ c : Call, c.isTagRemoval = true → c.isReplication = false := by
    intro c
    cases c <;> simp [Call.isTagRemoval, Call.isReplication]
  have hnoAddition : ∀ c : Call, c.isTagAddition = true → c.isReplication = false := by
    intro c
    cases c <;> simp [Call.isTagAddition, Call.isReplication]
  rw [List.countP_append, List.countP_append, countP_eq_zero_of_mem hremovals.2 hnoRemoval,
    countP_eq_zero_of_mem hadditions.2 hnoAddition, Nat.zero_add]
  simpa using countP_isReplication_of_mem_own hown

theorem countP_isReplication_settle (context : Context) (world : World)
    (desired observed : Document kind) :
    (calls world (settle context desired observed)).countP Call.isReplication ≤ 1 := by
  have hmutating : ∀ c : Call, (c.isReplication && c.isMutating) = c.isReplication := by
    intro c
    cases c <;> rfl
  have hcount := countP_isReplication_of_mem_mutations
    ((speaks_settle context desired observed).mem world)
  rwa [List.countP_filter, List.countP_congr fun c _ => by rw [hmutating c]] at hcount

/-! ## Passes that give up -/

theorem Leaves.decision_ne {context : Context} {observed : Document kind} {changes : Changes}
    {outcome : Outcome kind} (hleaves : Leaves context observed changes outcome)
    (reason : String) : outcome.decision ≠ .failTerminal reason := by
  cases hleaves <;> exact Decision.noConfusion

theorem preliminary_of_failTerminal {context : Context} {world after : World}
    {desired observed : Document kind} {outcome : Outcome kind} {reason : String}
    (hrun : runIn world (settle context desired observed) = (.ok outcome, after))
    (hdecision : outcome.decision = .failTerminal reason) {c : Call}
    (hmem : c ∈ calls world (settle context desired observed)) : kind.IsPreliminary c := by
  cases settle_ended hrun with
  | refused hplan =>
      rw [calls_eq_nil_of_runIn hrun] at hmem
      simp at hmem
  | deferred hplan => exact absurd hdecision Decision.noConfusion
  | idle hplan hnone => exact absurd hdecision Decision.noConfusion
  | updated hplan hchanges hupdate =>
      exact absurd hdecision ((gives_update _ _ _ _ _ _ _ hupdate).decision_ne reason)
  | obstructed hplan hchanges hupdate =>
      rw [calls_eq_of_runs hrun hupdate] at hmem
      exact (spares_update context _ _ _).of_mem hupdate hmem

theorem settle_of_obstacle {context : Context} {world after : World}
    {desired observed : Document kind} {o : Obstacle}
    (hdecision : (Plan.of context.settings desired observed).decision = .proceed)
    (hchanges : (Plan.of context.settings desired observed).changes.isEmpty = false)
    (hupdate : runIn world (plannedUpdate context desired observed) =
      (.error (.obstacle o), after)) :
    runIn world (settle context desired observed) =
      (.ok (.abandoned context.now o.message (givenBack desired observed)), after) := by
  rw [settle_of_update hdecision hchanges, runIn_orAbandon, hupdate]
  rfl

/-- A pass that gives up has made no call beyond the preliminary ones, at most one of them for
replication, and says why in the terminal condition.  No pass fails with an obstacle: every
obstacle that an update meets is given up with its message as the reason. -/
theorem giving_up_spares_resource (context : Context) (world : World)
    (desired observed : Document kind) :
    (∀ outcome after reason,
      runIn world (settle context desired observed) = (.ok outcome, after) →
      outcome.decision = .failTerminal reason →
        (∀ c ∈ calls world (settle context desired observed), kind.IsPreliminary c) ∧
        (calls world (settle context desired observed)).countP Call.isReplication ≤ 1 ∧
        ∃ c, Conditions.find? outcome.document.status.conditions .terminal = some c ∧
          c.status = true ∧ c.message = some reason) ∧
    (∀ failure after,
      runIn world (settle context desired observed) = (.error failure, after) →
        failure.isObstacle = false) ∧
    (∀ failure after,
      (Plan.of context.settings desired observed).decision = .proceed →
      (Plan.of context.settings desired observed).changes.isEmpty = false →
      runIn world (plannedUpdate context desired observed) = (.error failure, after) →
      failure.isObstacle = true →
        ∃ outcome, runIn world (settle context desired observed) = (.ok outcome, after) ∧
          outcome.decision = .failTerminal failure.message) := by
  refine ⟨fun outcome after reason hrun hdecision => ?_, fun failure after hrun => ?_,
    fun failure after hdecision hchanges hupdate hobstacle => ?_⟩
  · have htells := settle_tells hrun
    rw [hdecision] at htells
    exact ⟨fun c hmem => preliminary_of_failTerminal hrun hdecision hmem,
      countP_isReplication_settle context world desired observed,
      htells.terminal_of_failTerminal⟩
  · cases settle_ended hrun with
    | failed hplan hchanges hobstacle hupdate => exact hobstacle
  · cases failure with
    | obstacle o => exact ⟨_, settle_of_obstacle hdecision hchanges hupdate, rfl⟩
    | _ => exact absurd hobstacle Bool.false_ne_true

/-- A parameter that cannot be found: the tag is there by then, and the family has been read. -/
theorem unknown_parameter_spares_group :
    ∃ outcome after,
      runIn (.initial (.memory .fresh))
        (settle .sample
          (.sampleGroup (Table.ofList [("bogus", some "1")]) [⟨"team", some "a"⟩] [])
          (.sampleGroup Table.empty [] [])) = (.ok outcome, after) ∧
      outcome.decision = .failTerminal "unknown parameter: bogus" ∧
      calls (.initial (.memory .fresh))
        (settle .sample
          (.sampleGroup (Table.ofList [("bogus", some "1")]) [⟨"team", some "a"⟩] [])
          (.sampleGroup Table.empty [] [])) =
        [.addTags "arn:main" [⟨"team", some "a"⟩],
          .list (.defaults .dbInstance "mysql8.0") none] ∧
      ∃ c, Conditions.find? outcome.document.status.conditions .terminal = some c ∧
        c.status = true ∧ c.message = some "unknown parameter: bogus" := by
  obtain ⟨outcome, after, hrun, hdecision⟩ : ∃ outcome after,
      runIn (.initial (.memory .fresh))
        (settle .sample
          (.sampleGroup (Table.ofList [("bogus", some "1")]) [⟨"team", some "a"⟩] [])
          (.sampleGroup Table.empty [] [])) = (.ok outcome, after) ∧
      outcome.decision = .failTerminal "unknown parameter: bogus" :=
    ⟨_, _, Prod.ext rfl rfl, rfl⟩
  obtain ⟨-, -, hterminal⟩ :=
    (giving_up_spares_resource _ _ _ _).1 outcome after _ hrun hdecision
  exact ⟨outcome, after, hrun, hdecision, rfl, hterminal⟩

end Pass
end DbSteward
