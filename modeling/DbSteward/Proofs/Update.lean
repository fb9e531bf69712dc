import DbSteward.Proofs.Comparison
import DbSteward.Proofs.Request
import DbSteward.Proofs.Trace

/-!
# The calls of an update

An update of a cluster or an instance settles the tags first and sends a modify request
last.  This file bounds the calls that it makes, in every world, and follows the updates
whose request cannot be built to the decision to give up.
-/

namespace DbSteward
namespace Pass

variable {α β : Type} {kind : Kind} {allowed : Call → Prop}

/-! ## Updates in two parts -/

/-- What is left of an update once the tags are settled. -/
def afterTags : (kind : Kind) → Context → String → Document kind → Document kind → Changes →
    Pass (Outcome kind)
  | .dbCluster, context, _, desired, observed, changes =>
      if changes.touchesBeyond [Kind.tagsPath .dbCluster] then
        modifyCluster context desired observed changes
      else pure (.converged context.now (desired.withStatusOf observed))
  | .dbInstance, context, arn, desired, observed, changes => do
      let decision ←
        settleReplication context.settings (replicationIntent desired)
          (replicationObservation arn observed)
      match decision with
      | .retryAfter after reason =>
          pure (.postponed context.now (.retryAfter after reason) (desired.withStatusOf observed))
      | _ => finishInstance context desired observed changes
  | .parameterGroup _, context, _, desired, observed, changes => do
      updateOverrides context desired observed changes
      pure (.converged context.now (desired.withStatusOf observed))
  | .subnetGroup, context, _, desired, observed, changes =>
      if changes.touchesBeyond [Kind.tagsPath .subnetGroup] then
        modifySubnetGroup context desired observed
      else pure (.converged context.now (desired.withStatusOf observed))
  | .snapshot _, context, _, desired, observed, _ =>
      pure (.converged context.now (desired.withStatusOf observed))

theorem update_eq_tags_first (context : Context) (desired observed : Document kind)
    (changes : Changes) :
    update kind context desired observed changes = (do
      let arn ← liftExcept (arnOf observed)
      updateTags arn desired observed changes
      afterTags kind context arn desired observed changes) := by
  cases kind <;> rfl

/-! ## Bounds on the calls -/

theorem makes_removeTags {arn : String} (hremove : ∀ keys, allowed (.removeTags arn keys))
    (keys : List String) : Makes allowed (removeTags arn keys) := by
  unfold removeTags
  split
  · exact makes_pure ()
  · exact makes_call (hremove keys)

theorem makes_addTags {arn : String} (hadd : ∀ tags, allowed (.addTags arn tags))
    (tags : List Tag) : Makes allowed (addTags arn tags) := by
  unfold addTags
  split
  · exact makes_pure ()
  · exact makes_call (hadd tags)

theorem makes_settleTags {arn : String} (hremove : ∀ keys, allowed (.removeTags arn keys))
    (hadd : ∀ tags, allowed (.addTags arn tags)) (desired observed : List Tag) :
    Makes allowed (settleTags arn desired observed) :=
  makes_bind (makes_removeTags hremove _) fun _ => makes_addTags hadd _

theorem makes_updateTags {arn : String} (hremove : ∀ keys, allowed (.removeTags arn keys))
    (hadd : ∀ tags, allowed (.addTags arn tags)) (desired observed : Document kind)
    (changes : Changes) : Makes allowed (updateTags arn desired observed changes) := by
  unfold updateTags
  split
  · exact makes_settleTags hremove hadd _ _
  · exact makes_pure ()

theorem makes_unlessMentioned {needle : String} {pass : Pass Unit} (hpass : Makes allowed pass) :
    Makes allowed (unlessMentioned needle pass) := by
  refine makes_tryCatch hpass fun failure => ?_
  cases failure with
  | api e =>
      simp only
      split
      · exact makes_pure ()
      · exact makes_throw _
  | _ => exact makes_throw _

theorem makes_takeStep (hstart : ∀ region request, allowed (.startReplication region request))
    (hstop : ∀ region source, allowed (.stopReplication region source)) (settings : Settings)
    (step : Replication.Step) : Makes allowed (takeStep settings step) := by
  cases step with
  | nothing => exact makes_pure _
  | wait reason => exact makes_pure _
  | start region request =>
      exact makes_bind (makes_unlessMentioned (makes_call (hstart _ _))) fun _ => makes_pure _
  | stop region source =>
      exact makes_bind (makes_unlessMentioned (makes_call (hstop _ _))) fun _ => makes_pure _

theorem makes_orAbandon {now : Moment} {doc : Document kind} {pass : Pass (Outcome kind)}
    (hpass : Makes allowed pass) : Makes allowed (orAbandon now doc pass) := by
  refine makes_tryCatch hpass fun failure => ?_
  cases failure with
  | obstacle o => exact makes_pure _
  | _ => exact makes_throw _

theorem makes_settle {context : Context} {desired observed : Document kind}
    (hupdate : Makes allowed (update kind context (desired.normal observed)
      (observed.mapConditions Conditions.clearTerminal)
      ((desired.normal observed).changes observed))) :
    Makes allowed (settle context desired observed) := by
  unfold settle follow
  cases (Plan.of context.settings desired observed).decision with
  | failTerminal reason => exact makes_pure _
  | retryAfter after reason => exact makes_pure _
  | proceed =>
      simp only
      unfold proceed
      split
      · exact makes_pure _
      · exact makes_orAbandon hupdate

/-- The calls that a pass over a cluster may make. -/
def ClusterCall (context : Context) (desired observed : Document .dbCluster)
    (changes : Changes) : Call → Prop
  | .addTags _ _ => True
  | .removeTags _ _ => True
  | .modifyCluster request =>
      changes.touchesBeyond [Kind.tagsPath .dbCluster] = true ∧
        Cluster.modifyForm.request context changes desired.spec observed.spec = .ok request
  | _ => False

theorem makes_updateCluster (context : Context) (desired observed : Document .dbCluster)
    (changes : Changes) :
    Makes (ClusterCall context desired observed changes)
      (updateCluster context desired observed changes) := by
  refine makes_bind (makes_liftExcept _) fun arn => ?_
  refine makes_bind (makes_updateTags (fun _ => trivial) (fun _ => trivial) _ _ _) fun _ => ?_
  split
  · rename_i hbeyond
    refine makes_liftExcept_bind fun request hrequest => ?_
    exact makes_bind (makes_call ⟨hbeyond, hrequest⟩) fun _ => makes_pure _
  · exact makes_pure _

def InstanceCall (context : Context) (desired observed : Document .dbInstance)
    (changes : Changes) : Call → Prop
  | .addTags _ _ => True
  | .removeTags _ _ => True
  | .startReplication _ _ => True
  | .stopReplication _ _ => True
  | .modifyInstance request =>
      changes.touchesBeyond [Kind.tagsPath .dbInstance, Replication.path] = true ∧
        Instance.modifyForm.request context changes desired.spec observed.spec = .ok request
  | _ => False

theorem makes_finishInstance (context : Context) (desired observed : Document .dbInstance)
    (changes : Changes) :
    Makes (InstanceCall context desired observed changes)
      (finishInstance context desired observed changes) := by
  unfold finishInstance
  split
  · rename_i hbeyond
    refine makes_liftExcept_bind fun request hrequest => ?_
    exact makes_bind (makes_call ⟨hbeyond, hrequest⟩) fun _ => makes_pure _
  · split
    · exact makes_pure _
    · exact makes_pure _

theorem makes_updateInstance (context : Context) (desired observed : Document .dbInstance)
    (changes : Changes) :
    Makes (InstanceCall context desired observed changes)
      (updateInstance context desired observed changes) := by
  refine makes_bind (makes_liftExcept _) fun arn => ?_
  refine makes_bind (makes_updateTags (fun _ => trivial) (fun _ => trivial) _ _ _) fun _ => ?_
  refine makes_bind (makes_bind (makes_liftExcept _) fun step =>
    makes_takeStep (fun _ _ => trivial) (fun _ _ => trivial) _ step) fun decision => ?_
  cases decision with
  | retryAfter after reason => exact makes_pure _
  | proceed => exact makes_finishInstance context desired observed changes
  | failTerminal reason => exact makes_finishInstance context desired observed changes

theorem modifyCluster_mem_calls {context : Context} {world : World}
    {desired observed : Document .dbCluster} {request : Modification clusterSchema}
    (hmem : .modifyCluster request ∈ calls world (settle context desired observed)) :
    ((desired.normal observed).changes observed).touchesBeyond [Kind.tagsPath .dbCluster] =
        true ∧
      Cluster.modifyForm.request context ((desired.normal observed).changes observed)
        (desired.normal observed).spec observed.spec = .ok request :=
  (makes_settle (makes_updateCluster context (desired.normal observed) _ _)).of_mem hmem

theorem modifyInstance_mem_calls {context : Context} {world : World}
    {desired observed : Document .dbInstance} {request : Modification instanceSchema}
    (hmem : .modifyInstance request ∈ calls world (settle context desired observed)) :
    ((desired.normal observed).changes observed).touchesBeyond
          [Kind.tagsPath .dbInstance, Replication.path] = true ∧
      Instance.modifyForm.request context ((desired.normal observed).changes observed)
        (desired.normal observed).spec observed.spec = .ok request :=
  (makes_settle (makes_updateInstance context (desired.normal observed) _ _)).of_mem hmem

/-! ## Updates that are given up -/

/-- In no world does the pass meet an obstacle. -/
def Unobstructed (pass : Pass α) : Prop :=
  ∀ world o, (runIn world pass).1 ≠ .error (.obstacle o)

theorem unobstructed_pure (a : α) : Unobstructed (pure a) := by
  intro world o h
  simp at h

theorem unobstructed_call (c : Call) : Unobstructed (call c) := by
  intro world o h
  cases hcancelled : world.cancelled with
  | true => simp [runIn_call_of_cancelled hcancelled] at h
  | false =>
      rw [runIn_call_of_active hcancelled] at h
      cases hanswer : (world.service.perform c).1 <;> simp [hanswer, Except.mapError] at h

theorem unobstructed_bind {pass : Pass α} {next : α → Pass β} (hpass : Unobstructed pass)
    (hnext : ∀ a, Unobstructed (next a)) : Unobstructed (pass >>= next) := by
  intro world o h
  rw [runIn_bind] at h
  cases hrun : runIn world pass with
  | mk outcome middle =>
      rw [hrun] at h
      cases outcome with
      | ok a => exact hnext a middle o h
      | error failure =>
          obtain rfl : failure = .obstacle o := by simpa using h
          exact hpass world o (by rw [hrun])

theorem unobstructed_unlessMentioned {needle : String} {pass : Pass Unit}
    (hpass : Unobstructed pass) : Unobstructed (unlessMentioned needle pass) := by
  intro world o h
  rw [unlessMentioned, runIn_tryCatch] at h
  cases hrun : runIn world pass with
  | mk outcome middle =>
      rw [hrun] at h
      cases outcome with
      | ok a => simp at h
      | error failure =>
          cases failure with
          | obstacle other => exact hpass world other (by rw [hrun])
          | api e =>
              simp only at h
              split at h <;> simp at h
          | secret message => simp at h
          | cancelled => simp at h
          | missingObservation message => simp at h

theorem unobstructed_updateTags (arn : String) (desired observed : Document kind)
    (changes : Changes) : Unobstructed (updateTags arn desired observed changes) := by
  unfold updateTags
  split
  · refine unobstructed_bind ?_ fun _ => ?_
    · unfold removeTags
      split
      · exact unobstructed_pure ()
      · exact unobstructed_call _
    · unfold addTags
      split
      · exact unobstructed_pure ()
      · exact unobstructed_call _
  · exact unobstructed_pure ()

/-- The decision to give up is left to what comes after a pass without obstacles. -/
theorem orAbandon_bind {pass : Pass α} (hpass : Unobstructed pass) (now : Moment)
    (doc : Document kind) (next : α → Pass (Outcome kind)) :
    orAbandon now doc (pass >>= next) = pass >>= fun a => orAbandon now doc (next a) := by
  apply ext_runIn
  intro world
  rw [orAbandon, runIn_tryCatch, runIn_bind, runIn_bind]
  cases hrun : runIn world pass with
  | mk outcome middle =>
      cases outcome with
      | ok a =>
          simp only
          rw [orAbandon, runIn_tryCatch]
      | error failure =>
          cases failure with
          | obstacle o => exact absurd (by rw [hrun]) (hpass world o)
          | _ => rfl

theorem orAbandon_obstacle (now : Moment) (doc : Document kind) (o : Obstacle)
    (next : α → Pass (Outcome kind)) :
    orAbandon now doc ((liftExcept (Except.error (Failure.obstacle o)) : Pass α) >>= next) =
      pure (.abandoned now o.message doc) := by
  apply ext_runIn
  intro world
  rw [orAbandon, runIn_tryCatch, runIn_bind, runIn_liftExcept]

theorem isEmpty_of_touchesBeyond {changes : Changes} {paths : List String}
    (hbeyond : changes.touchesBeyond paths = true) : changes.isEmpty = false := by
  obtain ⟨d, hmem, -⟩ := List.any_eq_true.1 hbeyond
  rw [Changes.isEmpty, List.isEmpty_eq_false_iff]
  exact List.ne_nil_of_mem hmem

/-- The document that a pass gives back when it gives up. -/
def givenBack (desired observed : Document kind) : Document kind :=
  ((desired.normal observed).withStatusOf observed).mapConditions Conditions.clearTerminal

theorem settle_of_changes {context : Context} {desired observed : Document kind}
    (hdecision : (Plan.of context.settings desired observed).decision = .proceed)
    (hchanges : ((desired.normal observed).changes observed).isEmpty = false) :
    settle context desired observed =
      orAbandon context.now (givenBack desired observed)
        (update kind context (desired.normal observed)
          (observed.mapConditions Conditions.clearTerminal)
          ((desired.normal observed).changes observed)) := by
  have hplan : (Plan.of context.settings desired observed).changes.isEmpty = false := hchanges
  rw [settle, follow, hdecision]
  simp only
  rw [proceed, hplan]
  rfl

/-- A cluster whose request cannot be built still has its tags settled. -/
theorem settle_cluster_of_obstacle {context : Context} {desired observed : Document .dbCluster}
    {arn : String} {o : Obstacle}
    (hdecision : (Plan.of context.settings desired observed).decision = .proceed)
    (harn : observed.status.arn = some arn)
    (hbeyond : ((desired.normal observed).changes observed).touchesBeyond
      [Kind.tagsPath .dbCluster] = true)
    (hrequest : Cluster.modifyForm.request context ((desired.normal observed).changes observed)
      (desired.normal observed).spec observed.spec = .error (.obstacle o)) :
    settle context desired observed = (do
      updateTags arn (desired.normal observed) observed
        ((desired.normal observed).changes observed)
      pure (.abandoned context.now o.message (givenBack desired observed))) := by
  have harnOf : arnOf (observed.mapConditions Conditions.clearTerminal) = .ok arn := by
    simp [arnOf, Document.mapConditions, harn]
  rw [settle_of_changes hdecision (isEmpty_of_touchesBeyond hbeyond), update, updateCluster,
    harnOf, liftExcept_ok_bind, orAbandon_bind (unobstructed_updateTags _ _ _ _)]
  refine bind_congr fun _ => ?_
  rw [if_pos hbeyond, modifyCluster]
  exact hrequest ▸ orAbandon_obstacle ..

/-- An instance whose request cannot be built has its tags and the replication of its
backups settled. -/
theorem settle_instance_of_obstacle {context : Context}
    {desired observed : Document .dbInstance} {arn : String} {step : Replication.Step}
    {o : Obstacle}
    (hdecision : (Plan.of context.settings desired observed).decision = .proceed)
    (harn : observed.status.arn = some arn)
    (hstep : Replication.step context.settings (replicationIntent (desired.normal observed))
      (replicationObservation arn observed) = .ok step)
    (hwait : ∀ reason, step ≠ .wait reason)
    (hbeyond : ((desired.normal observed).changes observed).touchesBeyond
      [Kind.tagsPath .dbInstance, Replication.path] = true)
    (hrequest : Instance.modifyForm.request context
      ((desired.normal observed).changes observed) (desired.normal observed).spec
        observed.spec = .error (.obstacle o)) :
    settle context desired observed = (do
      updateTags arn (desired.normal observed) observed
        ((desired.normal observed).changes observed)
      let _ ← takeStep context.settings step
      pure (.abandoned context.now o.message (givenBack desired observed))) := by
  have harnOf : arnOf (observed.mapConditions Conditions.clearTerminal) = .ok arn := by
    simp [arnOf, Document.mapConditions, harn]
  have hstep' : Replication.step context.settings (replicationIntent (desired.normal observed))
      (replicationObservation arn (observed.mapConditions Conditions.clearTerminal)) = .ok step :=
    hstep
  have hfinish : orAbandon context.now (givenBack desired observed)
      (finishInstance context (desired.normal observed)
        (observed.mapConditions Conditions.clearTerminal)
        ((desired.normal observed).changes observed)) =
      pure (.abandoned context.now o.message (givenBack desired observed)) := by
    rw [finishInstance, if_pos hbeyond, modifyInstance]
    exact hrequest ▸ orAbandon_obstacle ..
  rw [settle_of_changes hdecision (isEmpty_of_touchesBeyond hbeyond), update, updateInstance,
    harnOf, liftExcept_ok_bind, orAbandon_bind (unobstructed_updateTags _ _ _ _)]
  refine bind_congr fun _ => ?_
  rw [settleReplication, hstep', liftExcept_ok_bind]
  cases step with
  | wait reason => exact absurd rfl (hwait reason)
  | nothing =>
      simp only [takeStep, pure_bind]
      exact hfinish
  | start region request =>
      simp only [takeStep, bind_assoc, pure_bind]
      rw [orAbandon_bind (unobstructed_unlessMentioned (unobstructed_call _))]
      exact bind_congr fun _ => hfinish
  | stop region source =>
      simp only [takeStep, bind_assoc, pure_bind]
      rw [orAbandon_bind (unobstructed_unlessMentioned (unobstructed_call _))]
      exact bind_congr fun _ => hfinish

end Pass

/-- A context in which no secret is known. -/
def Context.sample : Context :=
  ⟨.standard, fun _ => none, ⟨0, 0⟩⟩

/-- A small cluster, as an operator or the service has it. -/
def Document.sampleCluster (mode : String) (port : Int64) (tags : List Tag)
    (arn live : Option String) : Document .dbCluster where
  metadata := .blank
  spec
    | .identifier => some "main"
    | .engineMode => some mode
    | .port => some port
    | .tags => tags
    | f => clusterSchema.blank f
  status := ⟨arn, live, [], ⟨none, none⟩⟩

end DbSteward
