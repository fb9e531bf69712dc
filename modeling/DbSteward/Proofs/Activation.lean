import DbSteward.Proofs.Closing
import DbSteward.Proofs.Fidelity
import DbSteward.Proofs.Replication

/-!
# Waiting for backups

Backups have to be kept before they can be replicated.  Where replication is wanted and no backups
are kept yet, a pass leaves it to its own modify call to have them kept.  A standalone instance
gets that call.  The call of a member of a cluster never carries the retention, which belongs to
the parent cluster, and so the member waits for good.
-/

namespace DbSteward

namespace Replication

/-- A step that waits for backups neither calls nor fails nor postpones the pass only if they are
desired, are not pending, and everything else that a start takes is known. -/
theorem activation_of_rests {settings : Settings} {intent : Intent} {observed : Observation}
    {decision : Decision} (hwanted : intent.enabled = true) (hidle : observed.arns = [])
    (hoff : observed.backupRetention = some 0)
    (hgoes : ∀ delay reason, decision ≠ .retryAfter delay reason)
    (hrests : Rests settings intent observed (.ok decision)) :
    intent.region ≠ none ∧ Positive intent.backupRetention ∧
      ¬ Positive observed.pendingRetention := by
  cases hrests with
  | agreement hagree => exact absurd hidle (hagree.1 hwanted)
  | unobserved _ _ _ _ hunobserved =>
      have hbelow := hunobserved 0 hoff
      exact absurd hbelow (by decide)
  | pending => exact absurd rfl (hgoes _ _)
  | activation _ _ hregion _ _ hdesired hnotPending => exact ⟨hregion, hdesired, hnotPending⟩

theorem not_due_of_off {settings : Settings} {intent : Intent} {observed : Observation} {c : Call}
    (hwanted : intent.enabled = true) (hoff : observed.backupRetention = some 0) :
    ¬ Due settings intent observed c := by
  intro hdue
  cases hdue with
  | start _ _ _ _ hbackups =>
      obtain ⟨days, hdays, hpositive⟩ := hbackups
      obtain rfl : (0 : Int64) = days := Option.some.inj (hoff.symm.trans hdays)
      exact absurd hpositive (by decide)
  | stop hunwanted =>
      rw [hwanted] at hunwanted
      exact absurd hunwanted (by simp)

end Replication

/-- Replication is wanted, none is active, and no backups are kept. -/
structure AwaitsBackups (desired observed : Document .dbInstance) : Prop where
  wanted : Instance.wantsReplication desired.spec = true
  idle : observed.status.detail.replications = []
  off : observed.spec .backupRetention = some 0

/-- The pass leaves it to its modify call to have backups kept. -/
structure LeavesBackups (desired observed : Document .dbInstance) : Prop
    extends AwaitsBackups desired observed where
  region : desired.spec .replicationRegion ≠ none
  retention : Replication.Positive (desired.spec .backupRetention)
  notPending : ¬ Replication.Positive observed.status.detail.pendingBackupRetention

variable {desired observed : Document .dbInstance}

namespace AwaitsBackups

theorem arns_eq_nil (hawaits : AwaitsBackups desired observed) (arn : String) :
    (Pass.replicationObservation arn observed).arns = [] := by
  rw [Pass.replicationObservation, Instance.Detail.replicationArns, hawaits.idle]
  rfl

theorem flagged (hawaits : AwaitsBackups desired observed) :
    (desired.normal observed).Flagged observed .replicated := by
  rw [Instance.flagged_replicated_iff, hawaits.idle]
  show Instance.wantsReplication desired.spec ≠ false
  rw [hawaits.wanted]
  simp

end AwaitsBackups

namespace LeavesBackups

theorem step_eq (hleaves : LeavesBackups desired observed) (settings : Settings) (arn : String) :
    Replication.step settings (Pass.replicationIntent desired)
      (Pass.replicationObservation arn observed) = .ok .nothing :=
  Replication.step_of_activation hleaves.wanted (hleaves.arns_eq_nil arn) hleaves.region
    (Option.some_ne_none arn) hleaves.off hleaves.retention hleaves.notPending

theorem rests (hleaves : LeavesBackups desired observed) (settings : Settings) (arn : String) :
    Replication.Rests settings (Pass.replicationIntent desired)
      (Pass.replicationObservation arn observed) (.ok .proceed) :=
  .activation hleaves.wanted (hleaves.arns_eq_nil arn) hleaves.region
    (Option.some_ne_none arn) hleaves.off hleaves.retention hleaves.notPending

/-- The retention differs, and it is compared unless a parent cluster owns it. -/
theorem touches_retention_iff (hleaves : LeavesBackups desired observed) :
    ((desired.normal observed).changes observed).touches
        (Kind.dbInstance.schema.path .backupRetention) = true ↔
      desired.spec .cluster = none := by
  have hdiffers : (instanceSchema.type .backupRetention).Differs
      ((desired.normal observed).spec .backupRetention) (observed.spec .backupRetention) := by
    intro hsame
    obtain ⟨days, hdays, hpositive⟩ := hleaves.retention
    obtain rfl : days = 0 := Option.some.inj (hdays.symm.trans (hsame.trans hleaves.off))
    exact absurd hpositive (by decide)
  rw [Document.touches_path_iff, Instance.flagged_iff_of_owned _ _ (by decide)]
  exact and_iff_left hdiffers

end LeavesBackups

/-- An available instance whose backups are to be replicated to another region. -/
def Document.sampleReplicated (cluster : Option String) (retention : Int64) :
    Document .dbInstance where
  metadata := .blank
  spec
    | .identifier => some "main"
    | .cluster => cluster
    | .replicated => some true
    | .replicationRegion => some "us-west-2"
    | .backupRetention => some retention
    | f => instanceSchema.blank f
  status := ⟨some "arn:main", some "available", [], ⟨[], none⟩⟩

namespace Pass

variable {context : Context} {world after : World} {outcome : Outcome .dbInstance}

/-- A pass that waits for backups proceeds only if it leaves them to its modify call. -/
theorem leavesBackups_of_proceeds (hawaits : AwaitsBackups desired observed)
    (hrun : runIn world (settle context desired observed) = (.ok outcome, after))
    (hdecision : outcome.decision = .proceed) : LeavesBackups desired observed := by
  rcases settle_proceeds hrun hdecision with ⟨hempty, -⟩ | ⟨hupdate, -⟩
  · exact absurd hawaits.flagged ((Document.changes_isEmpty_iff _ observed).1 hempty _)
  obtain ⟨arn, -, htail⟩ := runIn_liftExcept_bind_eq_ok hupdate
  obtain ⟨_, middle, -, hrest⟩ := runIn_bind_eq_ok htail
  obtain ⟨decision, last, hsettled, hfinish⟩ := runIn_bind_eq_ok hrest
  have hgoes : ∀ delay reason, decision ≠ .retryAfter delay reason := by
    rintro delay reason rfl
    obtain rfl : Outcome.postponed context.now (.retryAfter delay reason) _ = outcome :=
      Except.ok.inj (congrArg Prod.fst hfinish)
    exact Decision.noConfusion hdecision
  rcases Replication.due_or_rests context.settings (replicationIntent desired)
    (replicationObservation arn observed) with ⟨c, hdue⟩ | ⟨result, hrests⟩
  · exact absurd hdue (Replication.not_due_of_off hawaits.wanted hawaits.off)
  · -- The step looks at nothing that is filled in, and not at the conditions.
    have hsame : runIn middle (settleReplication context.settings (replicationIntent desired)
        (replicationObservation arn observed)) = (.ok decision, last) := hsettled
    rw [runIn_settleReplication_of_rests hrests] at hsame
    obtain rfl : result = .ok decision := congrArg Prod.fst hsame
    obtain ⟨hregion, hretention, hnotPending⟩ := Replication.activation_of_rests hawaits.wanted
      (hawaits.arns_eq_nil arn) hawaits.off hgoes hrests
    exact ⟨hawaits, hregion, hretention, hnotPending⟩

section Leaves

variable (hleaves : LeavesBackups desired observed)
  (hrun : runIn world (settle context desired observed) = (.ok outcome, after))
  (hdecision : outcome.decision = .proceed)

include hleaves hrun hdecision

/-- A standalone instance is asked to keep backups. -/
theorem retention_requested (hstandalone : desired.spec .cluster = none) :
    ∃ request, .modifyInstance request ∈ calls world (settle context desired observed) ∧
      request.carried .backupRetention = desired.spec .backupRetention := by
  have htouches := hleaves.touches_retention_iff.2 hstandalone
  obtain ⟨arn, hupdated⟩ :=
    settle_instance_updated (hleaves.step_eq context.settings) hrun hdecision
  generalize calls world (settle context desired observed) = made at hupdated ⊢
  cases hupdated with
  | tagged hbeyond =>
      have hnot : InstanceField.backupRetention ∉ [.tags, .replicated] := by decide
      exact absurd htouches (Bool.eq_false_iff.1 (Document.touches_eq_false_of_quiet hbeyond hnot))
  | @modified _ request hrequest =>
      refine ⟨request, List.mem_append_right _ (List.mem_singleton_self _), ?_⟩
      rw [(ModifyForm.request_conveys hrequest).carried_eq]
      exact ModifyForm.carried_of_sent ((Instance.sends_iff _ _ _).2 (by decide)) htouches

/-- The retention that an instance shows after the pass. -/
theorem retention_after :
    (instanceAfter observed (calls world (settle context desired observed))).spec
        .backupRetention =
      if desired.spec .cluster = none then desired.spec .backupRetention else some 0 := by
  have hsettled := settled_instance (hleaves.step_eq context.settings) hrun hdecision
  have hapart : InstanceField.backupRetention ≠ .tags ∧
      InstanceField.backupRetention ≠ .logExports := by decide
  have hpresent : (instanceSchema.type .backupRetention).isAbsent
      (desired.spec .backupRetention) = false := by
    obtain ⟨days, hdays, -⟩ := hleaves.retention
    rw [hdays]
    rfl
  split
  · rename_i hstandalone
    have hbrings : Instance.plainlySent.contains .backupRetention = true := by decide
    exact hsettled.delivered .backupRetention
      ⟨hbrings, hleaves.touches_retention_iff.2 hstandalone, hpresent⟩
  · rename_i hmember
    rw [hsettled.kept .backupRetention hapart.1 hapart.2 fun hdelivers =>
      hmember (hleaves.touches_retention_iff.1 hdelivers.2.1)]
    exact hleaves.off

end Leaves

/-- The request that is sent to a member of a cluster leaves the retention out. -/
theorem retention_absent_of_member (hmember : desired.spec .cluster ≠ none)
    {request : Modification instanceSchema}
    (hmem : .modifyInstance request ∈ calls world (settle context desired observed)) :
    request.carried .backupRetention = none := by
  have hsent := (faithful_of_modifyInstance hmem).sent_iff .backupRetention (by decide)
  cases hcarried : request.carried .backupRetention with
  | none => rfl
  | some days =>
      rw [hcarried] at hsent
      exact absurd ((hsent.1 rfl).2.1 (by decide)) hmember

/-- Where replication waits for backups, a pass that proceeds has asked for the desired retention
only if the instance has no parent cluster.  The instance then shows it, and the start of the
replication is due.  A member shows that no backups are kept as before, and the replication waits
for them again. -/
theorem backups_requested_unless_member (hawaits : AwaitsBackups desired observed)
    (hrun : runIn world (settle context desired observed) = (.ok outcome, after))
    (hdecision : outcome.decision = .proceed) :
    ∃ days region, desired.spec .backupRetention = some days ∧ 0 < days ∧
      desired.spec .replicationRegion = some region ∧
      ((desired.spec .cluster = none ∧
          (∃ request, .modifyInstance request ∈ calls world (settle context desired observed) ∧
            request.carried .backupRetention = some days) ∧
          ∀ arn, Replication.Due context.settings (replicationIntent desired)
            (replicationObservation arn
              (instanceAfter observed (calls world (settle context desired observed))))
            (.startReplication (some region)
              { source := arn
                retention := (desired.spec .replicationRetention).getD
                  context.settings.replicationRetention
                kmsKey := desired.spec .replicationKey })) ∨
        (desired.spec .cluster ≠ none ∧
          (∀ request, .modifyInstance request ∈ calls world (settle context desired observed) →
            request.carried .backupRetention = none) ∧
          ∀ arn, Replication.Rests context.settings (replicationIntent desired)
            (replicationObservation arn
              (instanceAfter observed (calls world (settle context desired observed))))
            (.ok .proceed))) := by
  have hleaves := leavesBackups_of_proceeds hawaits hrun hdecision
  have hlater := retention_after hleaves hrun hdecision
  obtain ⟨region, hregion⟩ := Option.ne_none_iff_exists'.1 hleaves.region
  obtain ⟨days, hdays, hpositive⟩ := hleaves.retention
  refine ⟨days, region, hdays, hpositive, hregion, ?_⟩
  by_cases hstandalone : desired.spec .cluster = none
  · rw [if_pos hstandalone, hdays] at hlater
    refine .inl ⟨hstandalone, ?_, fun arn => ?_⟩
    · rw [← hdays]
      exact retention_requested hleaves hrun hdecision hstandalone
    · exact .start hawaits.wanted (hawaits.arns_eq_nil arn) hregion rfl ⟨days, hlater, hpositive⟩
  · rw [if_neg hstandalone] at hlater
    have hagain : LeavesBackups desired
        (instanceAfter observed (calls world (settle context desired observed))) :=
      { hleaves with off := hlater }
    exact .inr ⟨hstandalone, fun request => retention_absent_of_member hstandalone,
      hagain.rests context.settings⟩

/-- A standalone instance is asked to keep backups for seven days. -/
theorem standalone_backups_requested :
    ∃ request, Call.modifyInstance request ∈ calls (.initial (.memory .fresh))
        (settle .sample (.sampleReplicated none 7) (.sampleReplicated none 0)) ∧
      request.carried .backupRetention = some 7 := by
  have hproceeds : ((runIn (.initial (.memory .fresh)) (settle .sample
      (.sampleReplicated none 7) (.sampleReplicated none 0))).1.toOption.map (·.decision)) =
        some .proceed := by
    decide +kernel
  obtain ⟨outcome, hresult, hdecision⟩ := exists_outcome_of_decision hproceeds
  obtain ⟨days, region, hdays, -, -, hcases⟩ :=
    backups_requested_unless_member ⟨rfl, rfl, rfl⟩ (Prod.ext hresult rfl) hdecision
  obtain rfl : (7 : Int64) = days := Option.some.inj hdays
  rcases hcases with ⟨-, hrequested, -⟩ | ⟨hmember, -⟩
  · exact hrequested
  · exact absurd rfl hmember

/-- A member of a cluster is asked for nothing, and the pass proceeds all the same. -/
theorem member_backups_not_requested :
    AwaitsBackups (.sampleReplicated (some "parent") 7) (.sampleReplicated (some "parent") 0) ∧
      calls (.initial (.memory .fresh))
        (settle .sample (.sampleReplicated (some "parent") 7)
          (.sampleReplicated (some "parent") 0)) = [] ∧
      (runIn (.initial (.memory .fresh))
        (settle .sample (.sampleReplicated (some "parent") 7)
          (.sampleReplicated (some "parent") 0))).1.toOption.map (·.decision) = some .proceed :=
  ⟨⟨rfl, rfl, rfl⟩, rfl, rfl⟩

end Pass
end DbSteward
