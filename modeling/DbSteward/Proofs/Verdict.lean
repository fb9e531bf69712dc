import DbSteward.Proofs.Synced
import DbSteward.Proofs.Transition

/-!
# What the conditions say of a decision

Along every run the conditions that a pass leaves tell its decision: there is one synced
condition, the terminal one is there when the pass gave up, and it goes once a pass proceeds
again.  A pass that called for a change of the resource itself does not call it synced, since a
call of that sort is only made where something beyond the tags differs.
-/

namespace DbSteward

/-- After the call the live resource is no longer what was read of it, tags and overrides
apart. -/
def Call.unsettles : Call → Bool
  | .modifyCluster _ => true
  | .modifyInstance _ => true
  | .modifySubnetGroup _ => true
  | .startReplication _ _ => true
  | .stopReplication _ _ => true
  | _ => false

/-! ## Updates that make such a call -/

theorem Document.changes_mapConditions {kind : Kind} (desired observed : Document kind)
    (revise : List Condition → List Condition) :
    desired.changes (observed.mapConditions revise) = desired.changes observed := by
  cases kind <;> rfl

namespace Pass

variable {α : Type} {kind : Kind}

/-- Replication as desired is no change, so a step to take shows among the changes. -/
theorem replication_agrees_of_untouched {desired observed : Document .dbInstance}
    (hnone : (desired.changes observed).touchesBeyond [Kind.tagsPath .dbInstance] = false) :
    Instance.wantsReplication desired.spec = !observed.status.detail.replications.isEmpty := by
  by_contra hdiffers
  have hflagged := (Instance.flagged_replicated_iff desired observed).2 hdiffers
  have hbeyond : (desired.changes observed).touchesBeyond [Kind.tagsPath .dbInstance] = true :=
    (Document.touchesBeyond_paths_iff desired observed [InstanceField.tags]).2
      ⟨.replicated, hflagged, by decide⟩
  rw [hnone] at hbeyond
  exact Bool.false_ne_true hbeyond

/-- Where nothing but the tags differs there is nothing left to do once they are settled. -/
theorem afterTags_of_tags_only (context : Context) (arn : String)
    {desired observed : Document kind} (hlooks : kind.looksBeyondTags = true)
    (hnone : (desired.changes observed).touchesBeyond [kind.tagsPath] = false) :
    afterTags kind context arn desired observed (desired.changes observed) =
      pure (.converged context.now (desired.withStatusOf observed)) := by
  cases kind with
  | dbCluster => rw [afterTags, if_neg (Bool.not_eq_true _ ▸ hnone)]
  | subnetGroup => rw [afterTags, if_neg (Bool.not_eq_true _ ▸ hnone)]
  | parameterGroup scope => exact absurd hlooks Bool.false_ne_true
  | snapshot scope => exact absurd hlooks Bool.false_ne_true
  | dbInstance =>
      have hapart := instanceSchema_lawful.touchesBeyond_iff
        (by decide : InstanceField.tags ≠ .replicated) (desired.changes observed)
      have hneither := mt hapart.2 (Bool.not_eq_true _ ▸ hnone)
      rw [not_or] at hneither
      have hstep := step_of_agreement context.settings arn (replication_agrees_of_untouched hnone)
      rw [afterTags, settleReplication, hstep, liftExcept_ok_bind]
      exact (if_neg hneither.1).trans (if_neg hneither.2)

theorem not_unsettles_afterTags (context : Context) (arn : String)
    (desired observed : Document kind) (changes : Changes)
    (hlooks : kind.looksBeyondTags = false) :
    Makes (fun c => c.unsettles = false) (afterTags kind context arn desired observed changes) := by
  cases kind with
  | snapshot scope => exact makes_pure _
  | parameterGroup scope =>
      have hquiet : ∀ c : Call, c.isMutating = false → c.unsettles = false := by
        intro c
        cases c <;> simp [Call.isMutating, Call.category, Call.unsettles]
      have hreset : ∀ c : Call, c.isReset = true → c.unsettles = false := by
        intro c
        cases c <;> simp [Call.isReset, Call.unsettles]
      have hwrite : ∀ c : Call, c.isWrite = true → c.unsettles = false := by
        intro c
        cases c <;> simp [Call.isWrite, Call.unsettles]
      refine (speaks_afterTags context arn desired observed changes).makes_of_mem hquiet ?_
      exact forall_mem_mul (fun cs hresets c h => hreset c (hresets c h))
        fun cs hwrites c h => hwrite c (hwrites c h)
  | _ => exact absurd hlooks Bool.noConfusion

theorem makes_update_unsettling (context : Context) (desired observed : Document kind) :
    Makes (fun c => c.unsettles = true → kind.looksBeyondTags = true ∧
        (desired.changes observed).touchesBeyond [kind.tagsPath] = true)
      (update kind context desired observed (desired.changes observed)) := by
  rw [update_eq_tags_first]
  refine makes_bind (makes_liftExcept _) fun arn => ?_
  refine makes_bind (makes_updateTags (fun _ => by simp [Call.unsettles])
    (fun _ => by simp [Call.unsettles]) _ _ _) fun _ => ?_
  cases hlooks : kind.looksBeyondTags with
  | false =>
      refine (not_unsettles_afterTags context arn desired observed _ hlooks).mono ?_
      intro c hnot hunsettles
      exact absurd (hnot.symm.trans hunsettles) Bool.false_ne_true
  | true =>
      cases hbeyond : (desired.changes observed).touchesBeyond [kind.tagsPath] with
      | true => exact (speaks_afterTags _ _ _ _ _).makes.mono fun _ _ _ => ⟨rfl, rfl⟩
      | false =>
          rw [afterTags_of_tags_only context arn hlooks hbeyond]
          exact makes_pure _

theorem touchesBeyond_of_unsettles {context : Context} {world : World}
    {desired observed : Document kind} {c : Call}
    (hmem : c ∈ calls world (settle context desired observed)) (hunsettles : c.unsettles = true) :
    kind.looksBeyondTags = true ∧
      ∃ path ∈ (Plan.of context.settings desired observed).changes.paths, path ≠ "Spec.Tags" := by
  have hupdate := makes_update_unsettling context (desired.normal observed)
    (observed.mapConditions Conditions.clearTerminal)
  rw [Document.changes_mapConditions] at hupdate
  obtain ⟨hlooks, hbeyond⟩ := (makes_settle hupdate).of_mem hmem hunsettles
  exact ⟨hlooks, ((desired.normal observed).touchesBeyond_tags_iff observed).1 hbeyond⟩

/-! ## Passes that wait -/

/-- Only the replication of the backups of an instance makes an update wait. -/
theorem gives_update_waiting (context : Context) (desired observed : Document kind)
    (changes : Changes) :
    Gives (fun outcome => outcome.decision = .proceed ∨ kind = .dbInstance)
      (update kind context desired observed changes) := by
  rw [update_eq_tags_first]
  refine gives_bind fun arn => gives_bind fun _ => ?_
  cases kind with
  | dbInstance => exact fun _ _ _ _ => .inr rfl
  | dbCluster =>
      rw [afterTags]
      split
      · exact gives_send (.inl rfl) _ _
      · exact gives_pure (.inl rfl)
  | subnetGroup =>
      rw [afterTags]
      split
      · exact gives_send (.inl rfl) _ _
      · exact gives_pure (.inl rfl)
  | parameterGroup scope => exact gives_bind fun _ => gives_pure (.inl rfl)
  | snapshot scope => exact gives_pure (.inl rfl)

end Pass

/-! ## What a list of conditions says -/

namespace Conditions

/-- The condition of the kind is there, with this status and message. -/
def Says (conditions : List Condition) (kind : ConditionKind) (status : Bool)
    (message : Option String) : Prop :=
  ∃ c, find? conditions kind = some c ∧ c.status = status ∧ c.message = message

theorem says_of_placed {conditions : List Condition} {now : Moment} {kind : ConditionKind}
    {status : Bool} {message reason : Option String} {earlier : Option Condition}
    (hfound : find? conditions kind = some (placed now kind status message reason earlier)) :
    Says conditions kind status message := by
  refine ⟨_, hfound, ?_, ?_⟩
  · cases earlier <;> rfl
  · cases earlier <;> rfl

theorem says_putSynced (now : Moment) (status : Bool) (message : Option String)
    (conditions : List Condition) :
    Says (putSynced now status message conditions) .synced status message :=
  says_of_placed (find?_putSynced_synced ..)

theorem says_putTerminal (now : Moment) (message : String) (conditions : List Condition) :
    Says (putTerminal now message conditions) .terminal true (some message) :=
  says_of_placed (find?_putTerminal_terminal ..)

theorem Says.existsUnique {conditions : List Condition} {kind : ConditionKind} {status : Bool}
    {message : Option String} (htold : Says conditions kind status message)
    (hdistinct : DistinctKinds conditions) : ∃! c, c ∈ conditions ∧ c.kind = kind := by
  obtain ⟨c, hfound, -⟩ := htold
  refine ⟨c, (find?_eq_some_iff hdistinct).1 hfound, fun other hother => ?_⟩
  have hother' := (find?_eq_some_iff hdistinct).2 hother
  exact (Option.some.inj (hfound.symm.trans hother')).symm

end Conditions

namespace Turn

variable {kind : Kind} {turn : Turn kind}

def calls (turn : Turn kind) : List Call :=
  Pass.calls turn.world (Pass.settle turn.context turn.desired turn.observed)

/-! ## One pass -/

/-- A pass comes through the gate or takes over the decision made there. -/
theorem plan_decision (turn : Turn kind) :
    turn.plan.decision = .proceed ∨ turn.plan.decision = turn.outcome.decision := by
  obtain ⟨context, world, desired, observed, outcome, after, hruns⟩ := turn
  cases Pass.settle_ended hruns with
  | refused hplan => exact .inr hplan
  | deferred hplan => exact .inr hplan
  | idle hplan hnone => exact .inl hplan
  | updated hplan hchanges hupdate => exact .inl hplan
  | obstructed hplan hchanges hupdate => exact .inl hplan

theorem conditions_of_failTerminal {reason : String}
    (hdecision : turn.outcome.decision = .failTerminal reason) :
    Conditions.Says turn.conditions .terminal true (some reason) ∧
      Conditions.Says turn.conditions .synced true none := by
  have htells := turn.tells
  rw [hdecision] at htells
  generalize turn.conditions = left at htells ⊢
  cases htells with
  | failTerminal =>
      refine ⟨?_, Conditions.says_putSynced ..⟩
      rw [Conditions.Says, Conditions.find?_putSynced_terminal]
      exact Conditions.says_putTerminal ..

theorem synced_of_retryAfter {delay : Duration} {reason : String}
    (hdecision : turn.outcome.decision = .retryAfter delay reason) :
    Conditions.Says turn.conditions .synced false (some reason) := by
  have htells := turn.tells
  rw [hdecision] at htells
  generalize turn.conditions = left at htells ⊢
  cases htells with
  | retryAfter => exact Conditions.says_putSynced ..

theorem synced_of_proceed (hdecision : turn.outcome.decision = .proceed) :
    ∃ synced, Conditions.Says turn.conditions .synced synced none := by
  have htells := turn.tells
  rw [hdecision] at htells
  generalize turn.conditions = left at htells ⊢
  cases htells with
  | proceed synced => exact ⟨synced, Conditions.says_putSynced ..⟩

/-- Unless the pass gave up, the terminal condition is as it was when the pass had made its
plan: gone where the plan proceeds, and otherwise as it was before. -/
theorem terminal_of_not_failTerminal
    (hdecision : ∀ reason, turn.outcome.decision ≠ .failTerminal reason) :
    Conditions.find? turn.conditions .terminal =
      if turn.plan.decision = .proceed then none
      else Conditions.find? turn.before .terminal := by
  rcases turn.tells.find?_terminal with ⟨-, hkept⟩ | ⟨reason, hreason, -⟩
  · rw [hkept]
    split
    · rename_i hproceed
      rw [Pass.conditionsKept_of_proceed hproceed, Conditions.find?_clearTerminal_terminal]
    · rename_i hstop
      rw [Pass.conditionsKept_of_stop hstop]
  · exact absurd hreason (hdecision reason)

/-- A pass that waits was stopped at the gate, or by the replication of backups. -/
theorem terminal_of_retryAfter {delay : Duration} {reason : String}
    (hdecision : turn.outcome.decision = .retryAfter delay reason) :
    (turn.plan.decision = .retryAfter delay reason ∧
        Conditions.find? turn.conditions .terminal = Conditions.find? turn.before .terminal) ∨
      (turn.plan.decision = .proceed ∧ kind = .dbInstance ∧
        Conditions.find? turn.conditions .terminal = none) := by
  have hterminal := turn.terminal_of_not_failTerminal (by simp [hdecision])
  rcases turn.plan_decision with hproceed | hsame
  · refine .inr ⟨hproceed, ?_, by rw [hterminal, if_pos hproceed]⟩
    obtain ⟨context, world, desired, observed, outcome, after, hruns⟩ := turn
    cases Pass.settle_ended hruns with
    | refused hplan => exact absurd hdecision Decision.noConfusion
    | deferred hplan => exact absurd (hplan.symm.trans hproceed) Decision.noConfusion
    | idle hplan hnone => exact absurd hdecision Decision.noConfusion
    | updated hplan hchanges hupdate =>
        rcases Pass.gives_update_waiting _ _ _ _ _ _ _ hupdate with hgoes | hkind
        · exact absurd (hdecision.symm.trans hgoes) Decision.noConfusion
        · exact hkind
    | obstructed hplan hchanges hupdate => exact absurd hdecision Decision.noConfusion
  · have hplan := hsame.trans hdecision
    exact .inl ⟨hplan, by rw [hterminal, if_neg (by simp [hplan])]⟩

theorem terminal_of_proceed (hdecision : turn.outcome.decision = .proceed) :
    Conditions.find? turn.conditions .terminal = none := by
  have hterminal := turn.terminal_of_not_failTerminal (by simp [hdecision])
  rcases turn.plan_decision with hproceed | hsame
  · rw [hterminal, if_pos hproceed]
  · rw [hterminal, if_pos (hsame.trans hdecision)]

theorem not_synced_of_unsettles (hdecision : turn.outcome.decision = .proceed) {c : Call}
    (hmem : c ∈ turn.calls) (hunsettles : c.unsettles = true) {synced : Bool}
    (htold : Conditions.Says turn.conditions .synced synced none) : synced = false := by
  obtain ⟨hlooks, path, hpath, hother⟩ := Pass.touchesBeyond_of_unsettles hmem hunsettles
  obtain ⟨found, hfound, rfl, -⟩ := htold
  have hreports : turn.outcome.reportsSynced = found.status := congrArg (Option.any _) hfound
  rw [← hreports, ← Bool.not_eq_true]
  intro hsynced
  exact hother ((Pass.reportsSynced_of_proceed turn.runs hlooks hdecision).1 hsynced path hpath)

/-! ## Runs -/

/-- Along a run that begins with at most one condition of each kind, the conditions after each
pass are of distinct kinds, one of them synced, and tell the decision of the pass. -/
theorem conditions_tell_decision {start : List Condition}
    (hstart : Conditions.DistinctKinds start) (hcarried : Carried start turn) :
    Conditions.DistinctKinds turn.conditions ∧
    (∃! c, c ∈ turn.conditions ∧ c.kind = .synced) ∧
    (∀ reason, turn.outcome.decision = .failTerminal reason →
      Conditions.Says turn.conditions .terminal true (some reason) ∧
        Conditions.Says turn.conditions .synced true none) ∧
    (∀ delay reason, turn.outcome.decision = .retryAfter delay reason →
      Conditions.Says turn.conditions .synced false (some reason) ∧
        ((turn.plan.decision = .retryAfter delay reason ∧
            Conditions.find? turn.conditions .terminal =
              Conditions.find? turn.before .terminal) ∨
          (turn.plan.decision = .proceed ∧ kind = .dbInstance ∧
            Conditions.find? turn.conditions .terminal = none))) ∧
    (turn.outcome.decision = .proceed →
      Conditions.find? turn.conditions .terminal = none ∧
        ∃ synced, Conditions.Says turn.conditions .synced synced none ∧
          ∀ c ∈ turn.calls, c.unsettles = true → synced = false) := by
  have hdistinct := turn.distinctKinds_conditions (hcarried.distinctKinds hstart)
  refine ⟨hdistinct, ?_, fun reason => conditions_of_failTerminal, fun delay reason hdecision =>
    ⟨synced_of_retryAfter hdecision, terminal_of_retryAfter hdecision⟩, fun hdecision => ?_⟩
  · cases hdecision : turn.outcome.decision with
    | proceed =>
        obtain ⟨synced, htold⟩ := synced_of_proceed hdecision
        exact htold.existsUnique hdistinct
    | failTerminal reason => exact (conditions_of_failTerminal hdecision).2.existsUnique hdistinct
    | retryAfter delay reason => exact (synced_of_retryAfter hdecision).existsUnique hdistinct
  · obtain ⟨synced, htold⟩ := synced_of_proceed hdecision
    exact ⟨terminal_of_proceed hdecision, synced, htold, fun c hmem hunsettles =>
      not_synced_of_unsettles hdecision hmem hunsettles htold⟩

/-- A cluster that failed and is available again, while another port is desired.  The first pass
gives up, the second asks for the port: it leaves no terminal condition and calls the cluster
not synced. -/
theorem recovered_cluster_conditions :
    ∃ earlier turn : Turn .dbCluster,
      earlier.before = [] ∧ turn.before = earlier.conditions ∧
      earlier.outcome.decision = .failTerminal "DB cluster is in 'failed' status" ∧
      turn.outcome.decision = .proceed ∧ turn.calls.any Call.unsettles = true ∧
      Conditions.Says earlier.conditions .terminal true
        (some "DB cluster is in 'failed' status") ∧
      (∃! c, c ∈ turn.conditions ∧ c.kind = .synced) ∧
      Conditions.find? turn.conditions .terminal = none ∧
      Conditions.Says turn.conditions .synced false none := by
  obtain ⟨earlier, hstart, hfails, hleft⟩ : ∃ earlier : Turn .dbCluster,
      earlier.before = [] ∧
      earlier.outcome.decision = .failTerminal "DB cluster is in 'failed' status" ∧
      earlier.conditions =
        [⟨.terminal, true, some "DB cluster is in 'failed' status", none, ⟨0, 0⟩⟩,
          ⟨.synced, true, none, none, ⟨0, 0⟩⟩] := by
    refine ⟨⟨.sample, .initial (.memory .fresh), .sampleCluster "provisioned" 5433 [] none none,
      .sampleCluster "provisioned" 5432 [] (some "arn:main") (some "failed"),
      _, _, Prod.ext rfl rfl⟩, rfl, ?_, ?_⟩
    · decide +kernel
    · decide +kernel
  obtain ⟨turn, hbefore, hgoes, hasked⟩ : ∃ turn : Turn .dbCluster,
      turn.before = earlier.conditions ∧ turn.outcome.decision = .proceed ∧
      turn.calls.any Call.unsettles = true := by
    rw [hleft]
    refine ⟨⟨{ Context.sample with now := ⟨60, 0⟩ }, .initial (.memory .fresh),
      .sampleCluster "provisioned" 5433 [] none none,
      (Document.sampleCluster "provisioned" 5432 [] (some "arn:main") (some "available")).mapConditions
        fun _ => [⟨.terminal, true, some "DB cluster is in 'failed' status", none, ⟨0, 0⟩⟩,
          ⟨.synced, true, none, none, ⟨0, 0⟩⟩], _, _, Prod.ext rfl rfl⟩, rfl, ?_, ?_⟩
    · decide +kernel
    · decide +kernel
  have hfirst : Carried [] earlier := .first hstart
  obtain ⟨-, -, hgivesUp, -, -⟩ := conditions_tell_decision Conditions.distinctKinds_nil hfirst
  obtain ⟨-, hone, -, -, hproceeds⟩ :=
    conditions_tell_decision Conditions.distinctKinds_nil (.next hfirst hbefore)
  obtain ⟨hnone, synced, htold, hunsettled⟩ := hproceeds hgoes
  obtain ⟨c, hmem, hunsettles⟩ := List.any_eq_true.1 hasked
  obtain rfl := hunsettled c hmem hunsettles
  exact ⟨earlier, turn, hstart, hbefore, hfails, hgoes, hasked, (hgivesUp _ hfails).1, hone, hnone,
    htold⟩

end Turn
end DbSteward
