import DbSteward.Pass.Deletion
import DbSteward.Proofs.Annotation
import DbSteward.Proofs.Trace

/-!
# Deletions

A cluster or an instance is deleted by one call, which asks for what the annotations of the
observed document say.  There is no call while the resource is being deleted, nor if an annotation
is malformed, nor once the pass is cancelled.  The two kinds differ in one respect: of an instance
in some states no final snapshot can be taken, and then none is asked for.
-/

namespace DbSteward

/-- A resource that can be deleted, as it was observed. -/
inductive Deletable where
  | cluster (observed : Document .dbCluster)
  | dbInstance (observed : Document .dbInstance)

namespace Deletable

open Annotations (skipFinalSnapshotKey finalSnapshotKey deleteAutomatedBackupsKey)

def kind : Deletable → Kind
  | .cluster _ => .dbCluster
  | .dbInstance _ => .dbInstance

def live : Deletable → Option String
  | .cluster observed => observed.status.live
  | .dbInstance observed => observed.status.live

def annotations : Deletable → Annotations
  | .cluster observed => observed.metadata.annotations
  | .dbInstance observed => observed.metadata.annotations

/-- The identifier in the spec, or else the name of the document. -/
def identifier : Deletable → String
  | .cluster observed => (observed.spec .identifier).getD observed.metadata.name
  | .dbInstance observed => (observed.spec .identifier).getD observed.metadata.name

/-- No final snapshot can be taken of an instance that failed or could not be restored. -/
def isSnapshotless : Deletable → Bool
  | .cluster _ => false
  | .dbInstance observed =>
      observed.status.live == some "failed" ||
        observed.status.live == some "incompatible-restore"

theorem isSnapshotless_dbInstance (observed : Document .dbInstance) :
    (dbInstance observed).isSnapshotless = Pass.isSnapshotless observed := by
  rw [Bool.eq_iff_iff, isSnapshotless, Pass.isSnapshotless]
  cases observed.status.live with
  | none => simp
  | some status => simp [Instance.snapshotlessStatuses, or_comm]

def call : Deletable → Deletion → Call
  | .cluster _ => .deleteCluster
  | .dbInstance _ => .deleteInstance

def pass (settings : Settings) : Deletable → Pass Decision
  | .cluster observed => Pass.deleteCluster settings observed
  | .dbInstance observed => Pass.deleteInstance settings observed

/-- What the annotations ask for, less the final snapshot where none can be taken. -/
def request (resource : Deletable) : Deletion where
  identifier := resource.identifier
  skipFinalSnapshot :=
    some (resource.isSnapshotless ||
      (resource.annotations.truth? skipFinalSnapshotKey).getD true)
  finalSnapshot :=
    if resource.isSnapshotless then none else resource.annotations.get? finalSnapshotKey
  deleteAutomatedBackups := resource.annotations.truth? deleteAutomatedBackupsKey

def waits (settings : Settings) (resource : Deletable) : Decision :=
  .retryAfter settings.backoff (Decision.deletingReason resource.kind.noun "deleting")

/-- There is nothing to be called, and this is the result. -/
inductive Rests (settings : Settings) (resource : Deletable) : Except Failure Decision → Prop where
  | underway (hlive : resource.live = some "deleting") :
      Rests settings resource (.ok (resource.waits settings))
  | malformed {key raw : String} (hlive : resource.live ≠ some "deleting")
      (hfirst : resource.annotations.firstMalformed? = some key)
      (hraw : resource.annotations.get? key = some raw) :
      Rests settings resource (.error (DeletionOptions.malformed key raw))

structure IsDue (resource : Deletable) : Prop where
  live_ne : resource.live ≠ some "deleting"
  wellFormed : resource.annotations.firstMalformed? = none

theorem isDue_or_rests (settings : Settings) (resource : Deletable) :
    resource.IsDue ∨ ∃ result, resource.Rests settings result := by
  by_cases hlive : resource.live = some "deleting"
  · exact .inr ⟨_, .underway hlive⟩
  · cases hfirst : resource.annotations.firstMalformed? with
    | none => exact .inl ⟨hlive, hfirst⟩
    | some key =>
        obtain ⟨raw, hraw, -⟩ := DeletionOptions.ofAnnotations_of_malformed hfirst
        exact .inr ⟨_, .malformed hlive hfirst hraw⟩

/-! ## The pass -/

/-- The request that a deletion sends, unless an annotation is malformed. -/
def deletion : Deletable → Except Failure Deletion
  | .cluster observed => Pass.clusterDeletion observed
  | .dbInstance observed => Pass.instanceDeletion observed

theorem pass_eq_pure {settings : Settings} {resource : Deletable}
    (hlive : resource.live = some "deleting") :
    resource.pass settings = pure (resource.waits settings) := by
  cases resource with
  | cluster observed =>
      have hdeleted : Pass.isBeingDeleted observed = true := beq_iff_eq.2 hlive
      rw [pass, Pass.deleteCluster, if_pos hdeleted]
      rfl
  | dbInstance observed =>
      have hdeleted : Pass.isBeingDeleted observed = true := beq_iff_eq.2 hlive
      rw [pass, Pass.deleteInstance, if_pos hdeleted]
      rfl

theorem pass_eq_send {settings : Settings} {resource : Deletable}
    (hlive : resource.live ≠ some "deleting") :
    resource.pass settings =
      (liftExcept resource.deletion >>= fun request =>
        Pass.call (resource.call request) >>= fun _ =>
          pure (resource.waits settings)) := by
  cases resource with
  | cluster observed =>
      have hdeleted : ¬ Pass.isBeingDeleted observed = true := fun h => hlive (beq_iff_eq.1 h)
      rw [pass, Pass.deleteCluster, if_neg hdeleted]
      rfl
  | dbInstance observed =>
      have hdeleted : ¬ Pass.isBeingDeleted observed = true := fun h => hlive (beq_iff_eq.1 h)
      rw [pass, Pass.deleteInstance, if_neg hdeleted]
      rfl

theorem deletion_of_malformed {resource : Deletable} {failure : Failure}
    (hfails : DeletionOptions.ofAnnotations resource.annotations = .error failure) :
    resource.deletion = .error failure := by
  cases resource with
  | cluster observed =>
      rw [annotations] at hfails
      rw [deletion, Pass.clusterDeletion, hfails]
      rfl
  | dbInstance observed =>
      rw [annotations] at hfails
      rw [deletion, Pass.instanceDeletion, Pass.instanceOptions, hfails]
      rfl

theorem deletion_of_wellFormed {resource : Deletable}
    (hnone : resource.annotations.firstMalformed? = none) :
    resource.deletion = .ok resource.request := by
  have hoptions := DeletionOptions.ofAnnotations_of_wellFormed hnone
  cases resource with
  | cluster observed =>
      rw [annotations] at hoptions
      rw [deletion, Pass.clusterDeletion, hoptions]
      rfl
  | dbInstance observed =>
      rw [annotations] at hoptions
      rw [deletion, Pass.instanceDeletion, Pass.instanceOptions, hoptions, request,
        isSnapshotless_dbInstance]
      cases Pass.isSnapshotless observed with
      | true => rfl
      | false => rfl

variable {settings : Settings} {resource : Deletable} {world : World}

theorem runIn_pass_of_rests {result : Except Failure Decision}
    (hrests : resource.Rests settings result) :
    Pass.runIn world (resource.pass settings) = (result, world) := by
  cases hrests with
  | underway hlive => rw [pass_eq_pure hlive, Pass.runIn_pure]
  | malformed hlive hfirst hraw =>
      obtain ⟨raw, hget, hfails⟩ := DeletionOptions.ofAnnotations_of_malformed hfirst
      rw [hraw] at hget
      rw [pass_eq_send hlive, deletion_of_malformed hfails, Option.some.inj hget, Pass.runIn_bind,
        Pass.runIn_liftExcept]

theorem pass_eq_call (hdue : resource.IsDue) :
    resource.pass settings =
      (fun _ => resource.waits settings) <$>
        Pass.call (resource.call resource.request) := by
  rw [pass_eq_send hdue.live_ne, deletion_of_wellFormed hdue.wellFormed, Pass.liftExcept_ok_bind,
    bind_pure_comp]

theorem runIn_pass_of_cancelled (hdue : resource.IsDue) (hcancelled : world.cancelled = true) :
    Pass.runIn world (resource.pass settings) = (.error .cancelled, world) := by
  rw [pass_eq_call hdue, Pass.runIn_map, Pass.runIn_call_of_cancelled hcancelled]
  rfl

theorem runIn_pass_of_active (settings : Settings) (hdue : resource.IsDue)
    (hactive : world.cancelled = false) :
    Pass.runIn world (resource.pass settings) =
      (((world.service.perform (resource.call resource.request)).1.mapError Failure.api).map
          fun _ => resource.waits settings,
        Pass.afterCall world (resource.call resource.request)
          (world.service.perform (resource.call resource.request)).1
          (world.service.perform (resource.call resource.request)).2) := by
  rw [pass_eq_call hdue, Pass.runIn_map, Pass.runIn_call_of_active hactive]

theorem calls_pass_of_active (hdue : resource.IsDue) (hactive : world.cancelled = false) :
    Pass.calls world (resource.pass settings) = [resource.call resource.request] := by
  have hlog := congrArg (fun outcome => outcome.2.log)
    (runIn_pass_of_active settings hdue hactive)
  exact Pass.calls_of_log_eq hlog

theorem eq_request_of_mem_calls {request : Deletion}
    (hsent : resource.call request ∈ Pass.calls world (resource.pass settings)) :
    request = resource.request := by
  rcases isDue_or_rests settings resource with hdue | ⟨result, hrests⟩
  · cases hcancelled : world.cancelled with
    | true =>
        rw [Pass.calls_eq_nil_of_runIn (runIn_pass_of_cancelled hdue hcancelled)] at hsent
        exact absurd hsent List.not_mem_nil
    | false =>
        rw [calls_pass_of_active hdue hcancelled, List.mem_singleton] at hsent
        cases resource with
        | cluster observed => exact Call.deleteCluster.inj hsent
        | dbInstance observed => exact Call.deleteInstance.inj hsent
  · rw [Pass.calls_eq_nil_of_runIn (runIn_pass_of_rests hrests)] at hsent
    exact absurd hsent List.not_mem_nil

/-- A resource is deleted by one call at most.  There is none while it is being deleted, whatever
its annotations are; nor if one of them is malformed, of which the first is reported; nor if the
pass is cancelled.  In every other case there is exactly one, for what the annotations ask for. -/
theorem deleted_by_one_call (settings : Settings) (resource : Deletable) (world : World) :
    (∀ result, resource.Rests settings result →
        Pass.runIn world (resource.pass settings) = (result, world)) ∧
      (resource.IsDue → world.cancelled = true →
        Pass.runIn world (resource.pass settings) = (.error .cancelled, world)) ∧
      (resource.IsDue → world.cancelled = false →
        Pass.calls world (resource.pass settings) = [resource.call resource.request] ∧
          (Pass.runIn world (resource.pass settings)).2.service =
            (world.service.perform (resource.call resource.request)).2 ∧
          (∀ answer, (world.service.perform (resource.call resource.request)).1 = .ok answer →
            (Pass.runIn world (resource.pass settings)).1 =
              .ok (resource.waits settings)) ∧
          ∀ e, (world.service.perform (resource.call resource.request)).1 = .error e →
            (Pass.runIn world (resource.pass settings)).1 = .error (.api e)) ∧
      (resource.IsDue ∨ ∃ result, resource.Rests settings result) := by
  refine ⟨fun result => runIn_pass_of_rests, runIn_pass_of_cancelled, ?_,
    isDue_or_rests settings resource⟩
  intro hdue hactive
  have hrun := runIn_pass_of_active settings hdue hactive
  refine ⟨calls_pass_of_active hdue hactive, ?_, ?_, ?_⟩
  · rw [hrun]
    rfl
  · intro answer hanswer
    rw [hrun, hanswer]
    rfl
  · intro e hanswer
    rw [hrun, hanswer]
    rfl

end Deletable

/-- An instance that failed, with some annotations. -/
def Document.sampleFailed (annotations : List (String × String)) : Document .dbInstance where
  metadata := { Metadata.blank with annotations := Table.ofList annotations }
  spec
    | .identifier => some "main"
    | f => instanceSchema.blank f
  status := ⟨some "arn:main", some "failed", [], ⟨[], none⟩⟩

namespace Deletable

open Annotations (skipFinalSnapshotKey finalSnapshotKey)

/-- An instance that failed is deleted without the final snapshot that its annotations name. -/
theorem failed_instance_deleted :
    IsDue (.dbInstance (.sampleFailed
        [(skipFinalSnapshotKey, "false"), (finalSnapshotKey, "main-final")])) ∧
      Pass.calls (.initial (.memory .fresh)) (pass .standard (.dbInstance (.sampleFailed
        [(skipFinalSnapshotKey, "false"), (finalSnapshotKey, "main-final")]))) =
          [.deleteInstance ⟨"main", some true, none, none⟩] := by
  have hdue : IsDue (.dbInstance (.sampleFailed
      [(skipFinalSnapshotKey, "false"), (finalSnapshotKey, "main-final")])) :=
    ⟨by decide, by decide +kernel⟩
  obtain ⟨-, -, hcalled, -⟩ := deleted_by_one_call .standard (.dbInstance (.sampleFailed
    [(skipFinalSnapshotKey, "false"), (finalSnapshotKey, "main-final")]))
    (.initial (.memory .fresh))
  have hrequest : request (.dbInstance (.sampleFailed
      [(skipFinalSnapshotKey, "false"), (finalSnapshotKey, "main-final")])) =
        ⟨"main", some true, none, none⟩ := by decide +kernel
  refine ⟨hdue, ?_⟩
  rw [(hcalled hdue rfl).1, hrequest]
  rfl

end Deletable

/-! ## The final snapshot -/

/-- The request gives a final snapshot a name and yet does not take it. -/
def Deletion.Contradictory (request : Deletion) : Prop :=
  request.finalSnapshot ≠ none ∧ request.skipFinalSnapshot ≠ some false

/-- A cluster with some annotations. -/
def Document.sampleAnnotated (annotations : List (String × String)) : Document .dbCluster where
  metadata := { Metadata.blank with annotations := Table.ofList annotations }
  spec
    | .identifier => some "main"
    | f => clusterSchema.blank f
  status := ⟨some "arn:main", some "available", [], ⟨none, none⟩⟩

namespace Deletable

open Annotations (skipFinalSnapshotKey finalSnapshotKey)

/-- A deletion contradicts itself exactly if the annotations name a final snapshot without saying
that it is not to be skipped, unless none can be taken anyway. -/
theorem names_skipped_snapshot_iff {settings : Settings} {resource : Deletable} {world : World}
    {request : Deletion}
    (hsent : resource.call request ∈ Pass.calls world (resource.pass settings)) :
    request.Contradictory ↔
      resource.isSnapshotless = false ∧
        resource.annotations.get? finalSnapshotKey ≠ none ∧
        resource.annotations.truth? skipFinalSnapshotKey ≠ some false := by
  have hskips : ∀ said : Option Bool, said.getD true = true ↔ ¬ said = some false := by
    intro said
    cases said with
    | none => simp
    | some b => simp
  rw [eq_request_of_mem_calls hsent, Deletion.Contradictory, Deletable.request]
  cases resource.isSnapshotless with
  | true => simp
  | false => simp [hskips]

theorem calls_sampleAnnotated {annotations : List (String × String)}
    (hnone : Annotations.firstMalformed? (Table.ofList annotations) = none) :
    Pass.calls (.initial (.memory .fresh))
        (pass .standard (.cluster (.sampleAnnotated annotations))) =
      [.deleteCluster (request (.cluster (.sampleAnnotated annotations)))] := by
  have hlive : some "available" ≠ some "deleting" := by decide
  exact calls_pass_of_active ⟨hlive, hnone⟩ rfl

/-- A named snapshot that is not to be skipped is asked for. -/
theorem named_snapshot_is_taken :
    .deleteCluster ⟨"main", some false, some "main-final", none⟩ ∈
        Pass.calls (.initial (.memory .fresh)) (pass .standard (.cluster (.sampleAnnotated
          [(skipFinalSnapshotKey, "False"), (finalSnapshotKey, "main-final")]))) ∧
      ¬ Deletion.Contradictory ⟨"main", some false, some "main-final", none⟩ := by
  have hsent : .deleteCluster ⟨"main", some false, some "main-final", none⟩ ∈
      Pass.calls (.initial (.memory .fresh)) (pass .standard (.cluster (.sampleAnnotated
        [(skipFinalSnapshotKey, "False"), (finalSnapshotKey, "main-final")]))) := by
    have hrequest : request (.cluster (.sampleAnnotated
        [(skipFinalSnapshotKey, "False"), (finalSnapshotKey, "main-final")])) =
          ⟨"main", some false, some "main-final", none⟩ := by decide +kernel
    rw [calls_sampleAnnotated (by decide +kernel), hrequest]
    exact List.mem_singleton_self _
  refine ⟨hsent, fun hcontradicts => ?_⟩
  obtain ⟨-, -, hsaid⟩ := (names_skipped_snapshot_iff hsent).1 hcontradicts
  exact hsaid (by decide +kernel)

/-- A final snapshot that is merely named is skipped. -/
theorem named_snapshot_is_skipped :
    .deleteCluster ⟨"main", some true, some "main-final", none⟩ ∈
        Pass.calls (.initial (.memory .fresh)) (pass .standard (.cluster (.sampleAnnotated
          [(finalSnapshotKey, "main-final")]))) ∧
      Deletion.Contradictory ⟨"main", some true, some "main-final", none⟩ := by
  have hrequest : request (.cluster (.sampleAnnotated [(finalSnapshotKey, "main-final")])) =
      ⟨"main", some true, some "main-final", none⟩ := by decide +kernel
  rw [calls_sampleAnnotated (by decide +kernel), hrequest]
  exact ⟨List.mem_singleton_self _, by simp [Deletion.Contradictory]⟩

end Deletable
end DbSteward
