import DbSteward.Proofs.Channel
import DbSteward.Proofs.Ending
import DbSteward.Proofs.Tag

/-!
# The effect of calls on a live spec

What a resource looks like after a pass is the live spec with the calls of the pass carried
out on it one after the other: tags are written and removed as the service in memory does
it, whatever a modify request carries is written over, and log types are switched off and
then on.
-/

namespace DbSteward

namespace LogExports

/-- The log types of a resource after some were switched off and then others on. -/
def applyTo (exports : LogExports) (live : List String) : List String :=
  live.filter (fun log => !exports.disable.contains log) ++ exports.enable

def after : Option LogExports → Option (List String) → Option (List String)
  | none, live => live
  | some exports, live => some (exports.applyTo (live.getD []))

theorem sameItems_applyTo_between (desired observed : List String) :
    SameItems ((between desired observed).applyTo observed) desired := by
  intro log
  simp only [applyTo, between, List.mem_append, List.mem_filter, Bool.not_eq_true',
    List.contains_eq_mem, decide_eq_false_iff_not, not_and, not_not]
  constructor
  · rintro (⟨hobserved, hwanted⟩ | ⟨hdesired, -⟩)
    · exact hwanted hobserved
    · exact hdesired
  · intro hdesired
    by_cases hobserved : log ∈ observed
    · exact .inl ⟨hobserved, fun _ => hdesired⟩
    · exact .inr ⟨hdesired, hobserved⟩

end LogExports

namespace Modification

variable {S : Schema}

/-- What the request carries, over what is live. -/
def writeOver (request : Modification S) (live : S.Record) : S.Record :=
  fun f => if (S.type f).isAbsent (request.carried f) then live f else request.carried f

end Modification

namespace Channels

/-- The live spec of a resource after a call on it. -/
def afterCall (kind : Kind) (channels : Channels kind.schema) (live : kind.Spec) (c : Call) :
    kind.Spec :=
  match c.request? kind with
  | some request =>
      channels.logs.set (request.writeOver live)
        (LogExports.after request.logs (channels.logs.get live))
  | none =>
      match c with
      | .addTags _ tags => channels.tags.set live (Tag.writeAll (channels.tags.get live) tags)
      | .removeTags _ keys => channels.tags.set live (Tag.removeAll (channels.tags.get live) keys)
      | _ => live

variable {kind : Kind} {channels : Channels kind.schema} {form : ModifyForm kind.schema}
  {toCall : Modification kind.schema → Call} {context : Context} {changes : Changes}
  {desired observed : kind.Spec} {request : Modification kind.schema}

theorem KeepsTo.writeOver_of_delivers (hkeeps : KeepsTo kind channels form toCall)
    (hconveys : form.Conveys context changes desired observed request)
    {f : kind.schema.Field} (hdelivers : channels.Delivers changes desired observed f)
    (live : kind.Spec) : request.writeOver live f = desired f := by
  have hpresent := (hkeeps.present_iff hconveys f).2 hdelivers
  rw [Modification.writeOver, hpresent, if_neg (by simp)]
  exact hconveys.unchanged hpresent

theorem KeepsTo.writeOver_of_not_delivers (hkeeps : KeepsTo kind channels form toCall)
    (hconveys : form.Conveys context changes desired observed request)
    {f : kind.schema.Field} (hnot : ¬ channels.Delivers changes desired observed f)
    (live : kind.Spec) : request.writeOver live f = live f := by
  rw [Modification.writeOver, if_pos]
  rw [← Bool.not_eq_false, hkeeps.present_iff hconveys]
  exact hnot

/-! ## Single calls -/

theorem afterCall_addTags (live : kind.Spec) (arn : String) (tags : List Tag) :
    afterCall kind channels live (.addTags arn tags) =
      channels.tags.set live (Tag.writeAll (channels.tags.get live) tags) :=
  rfl

theorem afterCall_removeTags (live : kind.Spec) (arn : String) (keys : List String) :
    afterCall kind channels live (.removeTags arn keys) =
      channels.tags.set live (Tag.removeAll (channels.tags.get live) keys) :=
  rfl

theorem KeepsTo.afterCall_toCall (hkeeps : KeepsTo kind channels form toCall)
    (live : kind.Spec) (request : Modification kind.schema) :
    afterCall kind channels live (toCall request) =
      channels.logs.set (request.writeOver live)
        (LogExports.after request.logs (channels.logs.get live)) := by
  unfold afterCall
  rw [hkeeps.request_toCall]

end Channels

namespace Pass

variable {α β : Type} {kind : Kind}

/-! ## The calls for tags -/

/-- The calls that carry out an edit of tags. -/
def editCalls (arn : String) (edit : Tag.Edit) : List Call :=
  (if edit.removals.isEmpty then [] else [.removeTags arn edit.removals]) ++
    if edit.writes.isEmpty then [] else [.addTags arn edit.writes]

/-- The log of some calls none of which is refused. -/
def granted (calls : List Call) : List Event :=
  calls.map fun c => .of c none

@[simp] theorem map_call_granted (calls : List Call) :
    (granted calls).map Event.call = calls := by
  simp [granted, Event.of, Function.comp_def]

/-- Tags are settled by the calls of their edit, none of which is refused. -/
theorem events_settleTags_of_ok {world after : World} {arn : String}
    {desired observed : List Tag}
    (hrun : runIn world (settleTags arn desired observed) = (.ok (), after)) :
    events world (settleTags arn desired observed) =
      granted (editCalls arn (Tag.edit desired observed)) := by
  obtain ⟨done, middle, hremove, hadd⟩ := runIn_bind_eq_ok hrun
  have hremovals : Makes (fun _ => True) (removeTags arn (Tag.edit desired observed).removals) :=
    makes_removeTags (fun _ => trivial) _
  have hwrites : Makes (fun _ => True) (addTags arn (Tag.edit desired observed).writes) :=
    makes_addTags (fun _ => trivial) _
  rw [settleTags, events_bind_of_ok hremovals hwrites hremove, editCalls, granted,
    List.map_append]
  congr 1
  · unfold removeTags at hremove ⊢
    split
    · exact events_pure _ _
    · rename_i hsome
      rw [if_neg hsome] at hremove
      exact events_call_of_ok hremove
  · unfold addTags at hadd ⊢
    split
    · exact events_pure _ _
    · rename_i hsome
      rw [if_neg hsome] at hadd
      exact events_call_of_ok hadd

theorem calls_settleTags_of_ok {world after : World} {arn : String} {desired observed : List Tag}
    (hrun : runIn world (settleTags arn desired observed) = (.ok (), after)) :
    calls world (settleTags arn desired observed) =
      editCalls arn (Tag.edit desired observed) := by
  rw [calls_eq_map_events, events_settleTags_of_ok hrun, map_call_granted]

def tagCalls (kind : Kind) (arn : String) (desired observed : kind.Spec) (changes : Changes) :
    List Call :=
  if changes.touches kind.tagsPath then
    editCalls arn (Tag.edit (kind.tags desired) (kind.tags observed))
  else []

theorem events_updateTags_of_ok {world after : World} {arn : String}
    {desired observed : Document kind} {changes : Changes}
    (hrun : runIn world (updateTags arn desired observed changes) = (.ok (), after)) :
    events world (updateTags arn desired observed changes) =
      granted (tagCalls kind arn desired.spec observed.spec changes) := by
  unfold updateTags tagCalls at *
  split
  · rename_i htouches
    rw [if_pos htouches] at hrun
    exact events_settleTags_of_ok hrun
  · exact events_pure _ _

theorem calls_updateTags_of_ok {world after : World} {arn : String}
    {desired observed : Document kind} {changes : Changes}
    (hrun : runIn world (updateTags arn desired observed changes) = (.ok (), after)) :
    calls world (updateTags arn desired observed changes) =
      tagCalls kind arn desired.spec observed.spec changes := by
  rw [calls_eq_map_events, events_updateTags_of_ok hrun, map_call_granted]

/-! ## Passes that proceed -/

/-- A pass that proceeds either found nothing to do, or its update went through. -/
theorem settle_proceeds {context : Context} {world after : World}
    {desired observed : Document kind} {outcome : Outcome kind}
    (hrun : runIn world (settle context desired observed) = (.ok outcome, after))
    (hdecision : outcome.decision = .proceed) :
    (((desired.normal observed).changes observed).isEmpty = true ∧
        calls world (settle context desired observed) = [] ∧
        outcome.document.spec = (desired.normal observed).spec ∧
        outcome.document.metadata = desired.metadata) ∨
      (runIn world (update kind context (desired.normal observed)
          (observed.mapConditions Conditions.clearTerminal)
          ((desired.normal observed).changes observed)) = (.ok outcome, after) ∧
        calls world (settle context desired observed) =
          calls world (update kind context (desired.normal observed)
            (observed.mapConditions Conditions.clearTerminal)
            ((desired.normal observed).changes observed))) := by
  cases settle_ended hrun with
  | refused hplan => exact absurd hdecision Decision.noConfusion
  | deferred hplan => exact absurd hdecision Decision.noConfusion
  | idle hplan hnone => exact .inl ⟨hnone, calls_eq_nil_of_runIn hrun, rfl, rfl⟩
  | updated hplan hchanges hupdate => exact .inr ⟨hupdate, calls_eq_of_runs hrun hupdate⟩
  | obstructed hplan hchanges hupdate => exact absurd hdecision Decision.noConfusion

/-- What an update that went through called and gave back: the calls for the tags, and after
them a modify request unless nothing beyond what has calls of its own changed. -/
inductive Updated (kind : Kind) (form : ModifyForm kind.schema)
    (toCall : Modification kind.schema → Call) (context : Context) (desired : Document kind)
    (observed : kind.Spec) (changes : Changes) (arn : String) (apart : List String) :
    List Call → Document kind → Prop where
  | tagged {document : Document kind} (hbeyond : changes.touchesBeyond apart = false)
      (hspec : document.spec = desired.spec) (hmetadata : document.metadata = desired.metadata) :
      Updated kind form toCall context desired observed changes arn apart
        (tagCalls kind arn desired.spec observed changes) document
  | modified {document : Document kind} {request : Modification kind.schema}
      (hrequest : form.request context changes desired.spec observed = .ok request)
      (hspec : document.spec = desired.spec)
      (hmetadata : document.metadata =
        (desired.withPasswordSent (kind.schema.path form.passwordField)
          (form.password desired.spec) changes).metadata) :
      Updated kind form toCall context desired observed changes arn apart
        (tagCalls kind arn desired.spec observed changes ++ [toCall request]) document

theorem updateCluster_ok {context : Context} {world after : World}
    {desired observed : Document .dbCluster} {changes : Changes} {outcome : Outcome .dbCluster}
    (hrun : runIn world (updateCluster context desired observed changes) = (.ok outcome, after)) :
    ∃ arn, Updated .dbCluster Cluster.modifyForm .modifyCluster context desired observed.spec
      changes arn [Kind.tagsPath .dbCluster]
      (calls world (updateCluster context desired observed changes)) outcome.document := by
  obtain ⟨arn, harn, htail⟩ := runIn_liftExcept_bind_eq_ok hrun
  refine ⟨arn, ?_⟩
  rw [updateCluster, harn, liftExcept_ok_bind]
  obtain ⟨done, middle, htags, hrest⟩ := runIn_bind_eq_ok htail
  have hany : Makes (fun _ => True)
      (if changes.touchesBeyond [Kind.tagsPath .dbCluster] then
        modifyCluster context desired observed changes
      else pure (.converged context.now (desired.withStatusOf observed))) := by
    split
    · exact makes_bind (makes_liftExcept _) fun _ =>
        makes_bind (makes_call trivial) fun _ => makes_pure _
    · exact makes_pure _
  rw [calls_bind_of_ok (makes_updateTags (fun _ => trivial) (fun _ => trivial) _ _ _) hany htags,
    calls_updateTags_of_ok htags]
  cases hbeyond : changes.touchesBeyond [Kind.tagsPath .dbCluster] with
  | false =>
      rw [hbeyond] at hrest
      rw [if_neg (by simp), calls_pure, List.append_nil]
      rw [← Except.ok.inj (congrArg Prod.fst hrest)]
      exact .tagged hbeyond rfl rfl
  | true =>
      rw [hbeyond, if_pos rfl, modifyCluster] at hrest
      obtain ⟨request, hrequest, hevents, houtcome⟩ := send_ok hrest
      rw [if_pos rfl, modifyCluster, calls_eq_map_events, hevents, houtcome]
      exact .modified hrequest (withPasswordSent_spec _ _ _ _) (withPasswordSent_metadata rfl)

/-- Replication is left alone where it is as desired. -/
theorem step_of_agreement (settings : Settings) (arn : String)
    {desired observed : Document .dbInstance}
    (hagree : Instance.wantsReplication desired.spec =
      !observed.status.detail.replications.isEmpty) :
    Replication.step settings (replicationIntent desired) (replicationObservation arn observed) =
      .ok .nothing := by
  have hreplicating : (replicationObservation arn observed).isReplicating =
      !observed.status.detail.replications.isEmpty := by
    simp [Replication.Observation.isReplicating, replicationObservation,
      Instance.Detail.replicationArns]
  have henabled : (replicationIntent desired).enabled =
      Instance.wantsReplication desired.spec := rfl
  rw [Replication.step, henabled, hreplicating, hagree]
  cases observed.status.detail.replications.isEmpty <;> rfl

theorem updateInstance_ok {context : Context} {world after : World}
    {desired observed : Document .dbInstance} {changes : Changes}
    {outcome : Outcome .dbInstance}
    (hstep : ∀ arn, Replication.step context.settings (replicationIntent desired)
      (replicationObservation arn observed) = .ok .nothing)
    (hrun : runIn world (updateInstance context desired observed changes) = (.ok outcome, after)) :
    ∃ arn, Updated .dbInstance Instance.modifyForm .modifyInstance context desired observed.spec
      changes arn [Kind.tagsPath .dbInstance, Replication.path]
      (calls world (updateInstance context desired observed changes)) outcome.document := by
  obtain ⟨arn, harn, htail⟩ := runIn_liftExcept_bind_eq_ok hrun
  refine ⟨arn, ?_⟩
  have hreplication : settleReplication context.settings (replicationIntent desired)
      (replicationObservation arn observed) = pure .proceed := by
    rw [settleReplication, hstep arn, liftExcept_ok_bind]
    rfl
  rw [updateInstance, harn, liftExcept_ok_bind]
  rw [hreplication] at htail ⊢
  simp only [pure_bind] at htail ⊢
  obtain ⟨done, middle, htags, hrest⟩ := runIn_bind_eq_ok htail
  have hany : Makes (InstanceCall context desired observed changes)
      (finishInstance context desired observed changes) :=
    makes_finishInstance context desired observed changes
  rw [calls_bind_of_ok (makes_updateTags (fun _ => trivial) (fun _ => trivial) _ _ _) hany htags,
    calls_updateTags_of_ok htags]
  rw [finishInstance] at hrest ⊢
  cases hbeyond : changes.touchesBeyond [Kind.tagsPath .dbInstance, Replication.path] with
  | false =>
      rw [hbeyond, if_neg (by simp)] at hrest
      rw [if_neg (by simp)]
      split at hrest
      · rename_i htouches
        rw [if_pos htouches, calls_pure, List.append_nil]
        rw [← Except.ok.inj (congrArg Prod.fst hrest)]
        exact .tagged hbeyond rfl rfl
      · rename_i htouches
        rw [if_neg htouches, calls_pure, List.append_nil]
        rw [← Except.ok.inj (congrArg Prod.fst hrest)]
        exact .tagged hbeyond rfl rfl
  | true =>
      rw [hbeyond, if_pos rfl, modifyInstance] at hrest
      obtain ⟨request, hrequest, hevents, houtcome⟩ := send_ok hrest
      rw [if_pos rfl, modifyInstance, calls_eq_map_events, hevents, houtcome]
      exact .modified hrequest (withPasswordSent_spec _ _ _ _) (withPasswordSent_metadata rfl)

/-- A pass that found nothing to do made no call, as if nothing beyond the tags had changed
and the tags had not either. -/
theorem updated_of_isEmpty {form : ModifyForm kind.schema}
    {toCall : Modification kind.schema → Call} {context : Context}
    {desired document : Document kind} {observed : kind.Spec} {changes : Changes} {arn : String}
    {apart : List String} (hempty : changes.isEmpty = true)
    (hspec : document.spec = desired.spec) (hmetadata : document.metadata = desired.metadata) :
    Updated kind form toCall context desired observed changes arn apart [] document := by
  have hnone : changes.differences = [] := List.isEmpty_iff.1 hempty
  have hbeyond : changes.touchesBeyond apart = false := by simp [Changes.touchesBeyond, hnone]
  have hcalls : tagCalls kind arn desired.spec observed changes = [] := by
    simp [tagCalls, Changes.touches, hnone]
  rw [← hcalls]
  exact .tagged hbeyond hspec hmetadata

theorem settle_cluster_updated {context : Context} {world after : World}
    {desired observed : Document .dbCluster} {outcome : Outcome .dbCluster}
    (hrun : runIn world (settle context desired observed) = (.ok outcome, after))
    (hdecision : outcome.decision = .proceed) :
    ∃ arn, Updated .dbCluster Cluster.modifyForm .modifyCluster context
      (desired.normal observed) observed.spec ((desired.normal observed).changes observed) arn
      [Kind.tagsPath .dbCluster] (calls world (settle context desired observed))
      outcome.document := by
  rcases settle_proceeds hrun hdecision with ⟨hempty, hcalls, hspec, hmetadata⟩ |
    ⟨hupdate, hcalls⟩
  · rw [hcalls]
    exact ⟨"", updated_of_isEmpty hempty hspec hmetadata⟩
  · rw [hcalls]
    exact updateCluster_ok hupdate

theorem settle_instance_updated {context : Context} {world after : World}
    {desired observed : Document .dbInstance} {outcome : Outcome .dbInstance}
    (hstep : ∀ arn, Replication.step context.settings (replicationIntent desired)
      (replicationObservation arn observed) = .ok .nothing)
    (hrun : runIn world (settle context desired observed) = (.ok outcome, after))
    (hdecision : outcome.decision = .proceed) :
    ∃ arn, Updated .dbInstance Instance.modifyForm .modifyInstance context
      (desired.normal observed) observed.spec ((desired.normal observed).changes observed) arn
      [Kind.tagsPath .dbInstance, Replication.path]
      (calls world (settle context desired observed)) outcome.document := by
  rcases settle_proceeds hrun hdecision with ⟨hempty, hcalls, hspec, hmetadata⟩ |
    ⟨hupdate, hcalls⟩
  · rw [hcalls]
    exact ⟨"", updated_of_isEmpty hempty hspec hmetadata⟩
  · -- The step looks at nothing that is filled in, and not at the conditions.
    have hnormal : ∀ arn, Replication.step context.settings
        (replicationIntent (desired.normal observed))
        (replicationObservation arn (observed.mapConditions Conditions.clearTerminal)) =
          .ok .nothing := hstep
    rw [hcalls]
    exact updateInstance_ok hnormal hupdate

end Pass
end DbSteward
