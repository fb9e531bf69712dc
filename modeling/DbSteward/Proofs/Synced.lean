import DbSteward.Proofs.Effect
import DbSteward.Proofs.Ending
import DbSteward.Proofs.Order
import DbSteward.Proofs.Resumption
import DbSteward.Proofs.Tagging

/-!
# What a resource that is called synced agrees in

The synced condition is set by whatever ends a pass.  This file says what it tells about the
changes that the pass found: an update that looks beyond the tags calls the resource synced
exactly when nothing else differs, and what an update that goes through leaves unmentioned it
has settled by calls that were granted.
-/

namespace DbSteward

open Overrides (edit)

namespace Outcome

variable {kind : Kind}

/-- The document that is given back says that the live state matches the desired one. -/
def reportsSynced (outcome : Outcome kind) : Bool :=
  (Conditions.find? outcome.document.status.conditions .synced).any Condition.status

end Outcome

theorem Conditions.any_status_putSynced (now : Moment) (status : Bool) (message : Option String)
    (conditions : List Condition) :
    (find? (putSynced now status message conditions) .synced).any Condition.status = status := by
  rw [find?_putSynced_synced]
  cases find? conditions .synced <;> rfl

namespace Kind

theorem exists_tagsField (kind : Kind) : ∃ f : kind.schema.Field,
    kind.tagsPath = kind.schema.path f ∧ kind.schema.type f ≠ .scaling := by
  cases kind with
  | dbCluster => exact ⟨ClusterField.tags, rfl, by decide⟩
  | dbInstance => exact ⟨InstanceField.tags, rfl, by decide⟩
  | parameterGroup scope => exact ⟨ParameterGroupField.tags, rfl, FieldType.noConfusion⟩
  | subnetGroup => exact ⟨SubnetGroupField.tags, rfl, by decide⟩
  | snapshot scope => exact ⟨SnapshotField.tags, rfl, FieldType.noConfusion⟩

theorem tagsPath_eq (kind : Kind) : kind.tagsPath = "Spec.Tags" := by
  cases kind with
  | dbCluster => decide
  | dbInstance => decide
  | parameterGroup scope => exact (by decide : parameterGroupSchema.path .tags = "Spec.Tags")
  | subnetGroup => decide
  | snapshot scope => exact (by decide : snapshotSchema.path .tags = "Spec.Tags")

/-- What is desired of the tags is not left to the service. -/
theorem tags_normal (kind : Kind) (desired observed : kind.Spec) :
    kind.tags (kind.normal desired observed) = kind.tags desired := by
  cases kind with
  | dbCluster => exact Cluster.normal_of_ne (by decide)
  | _ => rfl

end Kind

namespace Document

variable {kind : Kind}

theorem touches_tags_iff (desired observed : Document kind) :
    (desired.changes observed).touches kind.tagsPath = true ↔
      "Spec.Tags" ∈ (desired.changes observed).paths := by
  obtain ⟨f, hpath, hplain⟩ := kind.exists_tagsField
  rw [← kind.tagsPath_eq, hpath]
  exact touches_path_iff_mem desired observed hplain

theorem touchesBeyond_tags_iff (desired observed : Document kind) :
    (desired.changes observed).touchesBeyond [kind.tagsPath] = true ↔
      ∃ path ∈ (desired.changes observed).paths, path ≠ "Spec.Tags" := by
  obtain ⟨f, hpath, hplain⟩ := kind.exists_tagsField
  rw [← kind.tagsPath_eq, hpath]
  exact touchesBeyond_path_iff desired observed hplain

end Document

namespace Pass

variable {kind : Kind}

/-! ## What the condition tells -/

theorem Leaves.reportsSynced_iff {context : Context} {observed : Document kind}
    {changes : Changes} {outcome : Outcome kind} (hleaves : Leaves context observed changes outcome)
    (hlooks : kind.looksBeyondTags = true) (hdecision : outcome.decision = .proceed) :
    outcome.reportsSynced = true ↔ changes.touchesBeyond [kind.tagsPath] = false := by
  cases hleaves with
  | converged hstatus hnone =>
      exact iff_of_true (Conditions.any_status_putSynced ..) (hnone hlooks)
  | @modified document hstatus hsome =>
      have hnot : (Outcome.modified context.now document).reportsSynced = false :=
        Conditions.any_status_putSynced ..
      rw [hnot, hsome]
      simp
  | postponed hstatus after reason => exact absurd hdecision Decision.noConfusion

theorem reportsSynced_of_proceed {context : Context} {world after : World}
    {desired observed : Document kind} {outcome : Outcome kind}
    (hrun : runIn world (settle context desired observed) = (.ok outcome, after))
    (hlooks : kind.looksBeyondTags = true) (hdecision : outcome.decision = .proceed) :
    outcome.reportsSynced = true ↔
      ∀ path ∈ (Plan.of context.settings desired observed).changes.paths, path = "Spec.Tags" := by
  have hbeyond : ((desired.normal observed).changes observed).touchesBeyond [kind.tagsPath] =
      false ↔ ∀ path ∈ ((desired.normal observed).changes observed).paths, path = "Spec.Tags" := by
    rw [← Bool.not_eq_true, Document.touchesBeyond_tags_iff]
    simp only [not_exists, not_and, not_not]
  refine Iff.trans ?_ hbeyond
  cases settle_ended hrun with
  | refused hplan => exact absurd hdecision Decision.noConfusion
  | deferred hplan => exact absurd hdecision Decision.noConfusion
  | idle hplan hnone =>
      have hnil : ((desired.normal observed).changes observed).differences = [] :=
        List.isEmpty_iff.1 hnone
      refine iff_of_true (Conditions.any_status_putSynced ..) ?_
      rw [Changes.touchesBeyond, hnil]
      rfl
  | updated hplan hchanges hupdate =>
      exact (gives_update _ _ _ _ _ _ _ hupdate).reportsSynced_iff hlooks hdecision
  | obstructed hplan hchanges hupdate => exact absurd hdecision Decision.noConfusion

theorem Tells.reportsSynced {now : Moment} {kept left : List Condition} {decision : Decision}
    (htells : Tells now kept decision left) :
    (∀ reason, decision = .failTerminal reason →
      (Conditions.find? left .synced).any Condition.status = true) ∧
    ∀ delay reason, decision = .retryAfter delay reason →
      (Conditions.find? left .synced).any Condition.status = false := by
  cases htells with
  | proceed synced => exact ⟨fun _ => Decision.noConfusion, fun _ _ => Decision.noConfusion⟩
  | retryAfter after reason =>
      exact ⟨fun _ => Decision.noConfusion, fun _ _ _ => Conditions.any_status_putSynced ..⟩
  | failTerminal reason =>
      exact ⟨fun _ _ => Conditions.any_status_putSynced .., fun _ _ => Decision.noConfusion⟩

/-! ## What was settled -/

/-- An update that went through has settled the tags before anything else, and has then left
them alone. -/
theorem events_update_of_ok {context : Context} {world after : World}
    {desired observed : Document kind} {changes : Changes} {outcome : Outcome kind}
    (hrun : runIn world (update kind context desired observed changes) = (.ok outcome, after)) :
    ∃ arn later, arnOf observed = .ok arn ∧
      events world (update kind context desired observed changes) =
        granted (tagCalls kind arn desired.spec observed.spec changes) ++ later ∧
      ∀ event ∈ later, event.call.SparesTags := by
  rw [update_eq_tags_first] at hrun ⊢
  obtain ⟨arn, harn, htail⟩ := runIn_liftExcept_bind_eq_ok hrun
  obtain ⟨done, middle, htags, -⟩ := runIn_bind_eq_ok htail
  have hlater := makes_afterTags_sparing context arn desired observed changes
  obtain ⟨later, hlog, hspares⟩ := hlater middle
  refine ⟨arn, later, harn, ?_, hspares⟩
  rw [harn, liftExcept_ok_bind,
    events_bind_of_ok (makes_updateTags (fun _ => trivial) (fun _ => trivial) _ _ _) hlater.any
      htags,
    events_updateTags_of_ok htags, events_of_log_eq hlog]

theorem arn_of_arnOf {observed : Document kind} {arn : String}
    (harn : arnOf observed = .ok arn) : observed.status.arn = some arn := by
  unfold arnOf at harn
  split at harn
  · simp at harn
  · rename_i found hfound
    rw [hfound, Except.ok.inj harn]

/-- A pass that proceeds where something changed has come through its update. -/
theorem update_of_proceed {context : Context} {world after : World}
    {desired observed : Document kind} {outcome : Outcome kind} {path : String}
    (hrun : runIn world (settle context desired observed) = (.ok outcome, after))
    (hdecision : outcome.decision = .proceed)
    (hpath : path ∈ (Plan.of context.settings desired observed).changes.paths) :
    runIn world (plannedUpdate context desired observed) = (.ok outcome, after) := by
  cases settle_ended hrun with
  | refused hplan => exact absurd hdecision Decision.noConfusion
  | deferred hplan => exact absurd hdecision Decision.noConfusion
  | idle hplan hnone =>
      rw [Changes.paths, List.isEmpty_iff.1 hnone] at hpath
      simp at hpath
  | updated hplan hchanges hupdate => exact hupdate
  | obstructed hplan hchanges hupdate => exact absurd hdecision Decision.noConfusion

theorem tags_settled_of_proceed {context : Context} {world after : World}
    {desired observed : Document kind} {outcome : Outcome kind}
    (hrun : runIn world (settle context desired observed) = (.ok outcome, after))
    (hdecision : outcome.decision = .proceed)
    (hpath : "Spec.Tags" ∈ (Plan.of context.settings desired observed).changes.paths) :
    ∃ arn later, observed.status.arn = some arn ∧
      events world (settle context desired observed) =
        granted (editCalls arn (Tag.edit (kind.tags desired.spec) (kind.tags observed.spec))) ++
          later ∧
      (world.tags arn = kind.tags observed.spec →
        after.tags arn = Tag.afterEdit (kind.tags desired.spec) (kind.tags observed.spec)) := by
  have hupdate := update_of_proceed hrun hdecision hpath
  obtain ⟨arn, later, harn, hevents, hspares⟩ := events_update_of_ok hupdate
  have htouches : (Plan.of context.settings desired observed).changes.touches kind.tagsPath =
      true := ((desired.normal observed).touches_tags_iff observed).2 hpath
  have hall : events world (settle context desired observed) =
      granted (editCalls arn (Tag.edit (kind.tags desired.spec) (kind.tags observed.spec))) ++
        later := by
    rw [events_eq_of_runs hrun hupdate, plannedUpdate, hevents, tagCalls, if_pos htouches]
    exact congrArg (fun tags => granted (editCalls arn (Tag.edit tags _)) ++ later)
      (kind.tags_normal desired.spec observed.spec)
  refine ⟨arn, later, arn_of_arnOf harn, hall, fun hlive => ?_⟩
  have htags := (isDialogue_settle context desired observed).tags_eq world arn
  rw [hrun, hall, List.foldl_append, tagsAfter_granted_editCalls,
    tagsAfter_of_sparesTags hspares, hlive] at htags
  exact htags

/-! ## Overrides -/

section Overrides

variable {scope : Scope}

theorem groupOf_eq_ok {desired : Document (.parameterGroup scope)} {group : ParameterGroup}
    (hgroup : groupOf desired = .ok group) :
    ∃ name family, desired.spec .name = some name ∧ desired.spec .family = some family ∧
      group = ⟨scope, name, family⟩ := by
  unfold groupOf at hgroup
  split at hgroup
  · rename_i name family hname hfamily
    exact ⟨name, family, hname, hfamily, (Except.ok.inj hgroup).symm⟩
  · simp [Failure.invalidSpec] at hgroup

/-- An update of a parameter group that went through has carried out all batches of its edit. -/
theorem carriedOut_update_of_ok {context : Context} {world after : World}
    {desired observed : Document (.parameterGroup scope)} {changes : Changes}
    {outcome : Outcome (.parameterGroup scope)}
    (htouches : changes.touches (parameterGroupSchema.path .overrides) = true)
    (hrun : runIn world (updateParameterGroup context desired observed changes) =
      (.ok outcome, after)) :
    ∃ group, groupOf desired = .ok group ∧
      carriedOut group (events world (updateParameterGroup context desired observed changes)) =
        (edit (overridesOf desired) (overridesOf observed)).batches context.settings.batchSize := by
  obtain ⟨arn, harn, htail⟩ := runIn_liftExcept_bind_eq_ok hrun
  obtain ⟨done, middle, -, hrest⟩ := runIn_bind_eq_ok htail
  obtain ⟨settled, last, hoverrides, -⟩ := runIn_bind_eq_ok hrest
  rw [updateOverrides, if_pos htouches] at hoverrides
  obtain ⟨group, hgroup, -⟩ := runIn_liftExcept_bind_eq_ok hoverrides
  refine ⟨group, hgroup, ?_⟩
  have htags : Carries group [] (updateTags arn desired observed changes) := by
    have hmakes : Makes (fun c => c.batch? group = none)
        (updateTags arn desired observed changes) :=
      makes_updateTags (fun _ => rfl) (fun _ => rfl) _ _ _
    exact carries_of_makes hmakes fun _ hapart => hapart
  have hsettle : Carries group
      ((edit (overridesOf desired) (overridesOf observed)).batches context.settings.batchSize)
      (updateOverrides context desired observed changes) := by
    rw [updateOverrides, if_pos htouches, hgroup, liftExcept_ok_bind]
    exact carries_settleOverrides context group _ _
  have hall := carries_bind htags fun _ _ _ _ => carries_bind hsettle fun _ _ _ _ =>
    carries_pure (Outcome.converged context.now (desired.withStatusOf observed))
  have hshape : updateParameterGroup context desired observed changes = (do
      updateTags arn desired observed changes
      updateOverrides context desired observed changes
      pure (.converged context.now (desired.withStatusOf observed))) := by
    rw [updateParameterGroup, harn, liftExcept_ok_bind]
  rw [hshape] at hrun ⊢
  obtain ⟨rest, hplan, hdone⟩ := hall.split world
  rw [hdone outcome (congrArg Prod.fst hrun), List.append_nil] at hplan
  simpa using hplan.symm

theorem overrides_settled_of_proceed {context : Context} {world after : World}
    {desired observed : Document (.parameterGroup scope)}
    {outcome : Outcome (.parameterGroup scope)}
    (hrun : runIn world (settle context desired observed) = (.ok outcome, after))
    (hdecision : outcome.decision = .proceed)
    (hpath : "Spec.ParameterOverrides" ∈
      (Plan.of context.settings desired observed).changes.paths) :
    ∃ name family, desired.spec .name = some name ∧ desired.spec .family = some family ∧
      carriedOut ⟨scope, name, family⟩ (events world (settle context desired observed)) =
        (edit (overridesOf desired) (overridesOf observed)).batches context.settings.batchSize ∧
      (overridesOf observed).after
          (carriedOut ⟨scope, name, family⟩
            (events world (settle context desired observed))).flatten =
        overridesOf desired := by
  have hupdate := update_of_proceed hrun hdecision hpath
  have hlabel : parameterGroupSchema.path .overrides = "Spec.ParameterOverrides" := by decide
  have htouches : ((desired.normal observed).changes observed).touches
      (parameterGroupSchema.path .overrides) = true := by
    refine (Document.touches_path_iff_mem (desired.normal observed) observed
      (f := ParameterGroupField.overrides) FieldType.noConfusion).2 ?_
    exact hlabel ▸ hpath
  obtain ⟨group, hgroup, hcarried⟩ := carriedOut_update_of_ok htouches hupdate
  obtain ⟨name, family, hname, hfamily, rfl⟩ := groupOf_eq_ok hgroup
  have hbatches : carriedOut ⟨scope, name, family⟩
      (events world (settle context desired observed)) =
        (edit (overridesOf desired) (overridesOf observed)).batches
          context.settings.batchSize := by
    rw [events_eq_of_runs hrun hupdate]
    exact hcarried
  refine ⟨name, family, hname, hfamily, hbatches, ?_⟩
  rw [hbatches, Overrides.Edit.flatten_batches]
  exact Overrides.after_changes _ _

end Overrides

/-! ## Passes -/

/-- What the synced condition of a pass tells.  A pass that proceeds over a cluster, an instance
or a subnet group calls it synced exactly when nothing but the tags differs.  Of whatever kind, it
has settled the tags if they differ: where the observed tags were live, those that are live now
have the desired keys and agree with the desired tags, unless these contradict themselves.  Of a
parameter group it has settled the overrides too.  A pass that gives up calls the resource synced
whatever differs, and one that waits does not. -/
theorem synced_tells_what_differs (context : Context) :
    (∀ (kind : Kind) (world after : World) (desired observed : Document kind)
        (outcome : Outcome kind),
      runIn world (settle context desired observed) = (.ok outcome, after) →
        (outcome.decision = .proceed → kind ∈ [.dbCluster, .dbInstance, .subnetGroup] →
          (outcome.reportsSynced = true ↔
            ∀ path ∈ (Plan.of context.settings desired observed).changes.paths,
              path = "Spec.Tags")) ∧
        (outcome.decision = .proceed →
          "Spec.Tags" ∈ (Plan.of context.settings desired observed).changes.paths →
          ∃ arn later, observed.status.arn = some arn ∧
            events world (settle context desired observed) =
              granted (editCalls arn
                (Tag.edit (kind.tags desired.spec) (kind.tags observed.spec))) ++ later ∧
            (world.tags arn = kind.tags observed.spec →
              Tag.DistinctKeys (kind.tags observed.spec) →
                (∀ key, key ∈ (after.tags arn).map Tag.key ↔
                  key ∈ (kind.tags desired.spec).map Tag.key) ∧
                (Tag.settled (kind.tags desired.spec) (after.tags arn) = true ↔
                  Tag.Consistent (kind.tags desired.spec)))) ∧
        (∀ reason, outcome.decision = .failTerminal reason → outcome.reportsSynced = true) ∧
        ∀ delay reason, outcome.decision = .retryAfter delay reason →
          outcome.reportsSynced = false) ∧
    ∀ (scope : Scope) (world after : World) (desired observed : Document (.parameterGroup scope))
        (outcome : Outcome (.parameterGroup scope)),
      runIn world (settle context desired observed) = (.ok outcome, after) →
      outcome.decision = .proceed →
      "Spec.ParameterOverrides" ∈ (Plan.of context.settings desired observed).changes.paths →
        ∃ name family, desired.spec .name = some name ∧ desired.spec .family = some family ∧
          carriedOut ⟨scope, name, family⟩ (events world (settle context desired observed)) =
            (edit (overridesOf desired) (overridesOf observed)).batches
              context.settings.batchSize ∧
          (overridesOf observed).after
              (carriedOut ⟨scope, name, family⟩
                (events world (settle context desired observed))).flatten =
            overridesOf desired := by
  refine ⟨fun kind world after desired observed outcome hrun => ?_,
    fun scope world after desired observed outcome hrun hdecision hpath =>
      overrides_settled_of_proceed hrun hdecision hpath⟩
  have hlooks : ∀ k : Kind, k ∈ [Kind.dbCluster, .dbInstance, .subnetGroup] →
      k.looksBeyondTags = true := by decide
  obtain ⟨hgivenUp, hwaiting⟩ := (settle_tells hrun).reportsSynced
  refine ⟨fun hdecision hkind => reportsSynced_of_proceed hrun (hlooks kind hkind) hdecision,
    fun hdecision hpath => ?_, hgivenUp, hwaiting⟩
  obtain ⟨arn, later, harn, hevents, htags⟩ := tags_settled_of_proceed hrun hdecision hpath
  refine ⟨arn, later, harn, hevents, fun hlive hdistinct => ?_⟩
  rw [htags hlive]
  exact ⟨fun key => Tag.mem_keys_afterEdit_iff hdistinct, Tag.settled_afterEdit_iff hdistinct⟩

end Pass

/-- A service that knows one parameter of a family. -/
def World.listingAutocommit : World :=
  .initial <| .memory <|
    Memory.fresh.withListing (.defaults .dbInstance "mysql8.0")
      [⟨"autocommit", none, true, none, none⟩]

namespace Pass

/-- A parameter group with a tag and a parameter to set: both are settled by the pass that calls
it synced. -/
theorem tag_and_override_settled :
    ∃ outcome after arn later,
      runIn .listingAutocommit
        (settle .sample
          (.sampleGroup (Table.ofList [("autocommit", some "1")]) [⟨"team", some "a"⟩] [])
          (.sampleGroup Table.empty [] [])) = (.ok outcome, after) ∧
      outcome.decision = .proceed ∧ outcome.reportsSynced = true ∧
      events .listingAutocommit
        (settle .sample
          (.sampleGroup (Table.ofList [("autocommit", some "1")]) [⟨"team", some "a"⟩] [])
          (.sampleGroup Table.empty [] [])) =
        granted (editCalls arn (Tag.edit [⟨"team", some "a"⟩] [])) ++ later ∧
      Tag.settled [⟨"team", some "a"⟩] (after.tags arn) = true ∧
      ∃ name family,
        carriedOut ⟨.dbInstance, name, family⟩
          (events .listingAutocommit
            (settle .sample
              (.sampleGroup (Table.ofList [("autocommit", some "1")]) [⟨"team", some "a"⟩] [])
              (.sampleGroup Table.empty [] []))) =
          (edit (Table.ofList [("autocommit", some "1")]) Table.empty).batches 20 ∧
        Overrides.after Table.empty
            (carriedOut ⟨.dbInstance, name, family⟩
              (events .listingAutocommit
                (settle .sample
                  (.sampleGroup (Table.ofList [("autocommit", some "1")]) [⟨"team", some "a"⟩] [])
                  (.sampleGroup Table.empty [] [])))).flatten =
          Table.ofList [("autocommit", some "1")] := by
  obtain ⟨outcome, after, hrun, hdecision, hsynced⟩ : ∃ outcome after,
      runIn .listingAutocommit
        (settle .sample
          (.sampleGroup (Table.ofList [("autocommit", some "1")]) [⟨"team", some "a"⟩] [])
          (.sampleGroup Table.empty [] [])) = (.ok outcome, after) ∧
      outcome.decision = .proceed ∧ outcome.reportsSynced = true :=
    ⟨_, _, Prod.ext rfl rfl, rfl, rfl⟩
  obtain ⟨hsettled, hoverrides⟩ := synced_tells_what_differs .sample
  obtain ⟨-, htags, -, -⟩ := hsettled _ _ after _ _ outcome hrun
  obtain ⟨arn, later, -, hevents, hlive⟩ := htags hdecision (by decide +kernel)
  obtain ⟨name, family, -, -, hcarried, hdone⟩ :=
    hoverrides _ _ after _ _ outcome hrun hdecision (by decide +kernel)
  have hdistinct : Tag.DistinctKeys (Kind.tags (.parameterGroup .dbInstance)
      (Document.sampleGroup Table.empty [] []).spec) := by decide
  have hconsistent : Tag.Consistent [⟨"team", some "a"⟩] := by decide
  exact ⟨outcome, after, arn, later, hrun, hdecision, hsynced, hevents,
    (hlive rfl hdistinct).2.2 hconsistent, name, family, hcarried, hdone⟩

end Pass

/-- A snapshot of the given source. -/
def Document.sampleSnapshot (source : String) : Document (.snapshot .dbInstance) where
  metadata := .blank
  spec
    | .identifier => some "main"
    | .source => some source
    | f => snapshotSchema.blank f
  status := ⟨some "arn:main", some "available", [], ()⟩

namespace Pass

/-- A failed cluster with another port than the desired one, and a snapshot of another source:
both are called synced, the snapshot by a pass that proceeds. -/
theorem synced_though_different :
    (∃ outcome after,
      runIn (.initial (.memory .fresh))
        (settle .sample (.sampleCluster "provisioned" 5433 [] none none)
          (.sampleCluster "provisioned" 5432 [] (some "arn:main") (some "failed"))) =
        (.ok outcome, after) ∧
      outcome.reportsSynced = true ∧
      "Spec.Port" ∈ (Plan.of .standard (.sampleCluster "provisioned" 5433 [] none none)
        (.sampleCluster "provisioned" 5432 [] (some "arn:main") (some "failed"))).changes.paths) ∧
    ∃ outcome after,
      runIn (.initial (.memory .fresh))
        (settle .sample (.sampleSnapshot "orders") (.sampleSnapshot "billing")) =
        (.ok outcome, after) ∧
      outcome.decision = .proceed ∧ outcome.reportsSynced = true ∧
      "Spec.SourceIdentifier" ∈
        (Plan.of .standard (.sampleSnapshot "orders") (.sampleSnapshot "billing")).changes.paths :=
  ⟨⟨_, _, Prod.ext rfl rfl, by decide +kernel, by decide +kernel⟩,
    ⟨_, _, Prod.ext rfl rfl, rfl, by decide +kernel, by decide +kernel⟩⟩

end Pass
end DbSteward
