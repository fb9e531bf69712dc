import DbSteward.Proofs.Fidelity
import DbSteward.Proofs.Gate

/-!
# Instances whose storage is used up

An instance is modified only while it is available, with one exception: one that reports that
its storage is full is given more.  The exception is made for the changes as a whole, so what
a request sent under it has to do with the storage is read off the two documents.
-/

namespace DbSteward
namespace Pass

theorem awaitsStorage_of_letsThrough {status : Option String} {changes : Changes}
    (hlets : Kind.dbInstance.LetsThrough status changes) (hstatus : status ≠ some "available") :
    Kind.dbInstance.AwaitsStorage status changes := by
  rcases hlets with hnone | havailable | hawaits
  · exact absurd hnone (by simp [Kind.vocabulary?])
  · exact absurd havailable hstatus
  · exact hawaits

end Pass

namespace Instance

theorem storage_path_mem_iff (desired observed : Document .dbInstance) :
    "Spec.AllocatedStorage" ∈ (desired.changes observed).paths ↔
      desired.spec .storage ≠ observed.spec .storage := by
  have hpath : instanceSchema.path .storage = "Spec.AllocatedStorage" := by decide
  rw [← hpath]
  exact path_mem_paths_iff_of_compared desired observed (by decide)

/-- Once the storage is among the changes, a request carries what is desired of it. -/
theorem carried_storage {context : Context} {desired observed : Document .dbInstance}
    {request : Modification instanceSchema}
    (hrequest : modifyForm.request context (desired.changes observed) desired.spec
      observed.spec = .ok request)
    (hpath : "Spec.AllocatedStorage" ∈ (desired.changes observed).paths) :
    request.carried .storage = desired.spec .storage := by
  have hplain : InstanceField.storage ∈ plainlySent := by decide
  have hsends := (sends_iff desired.spec observed.spec .storage).2 hplain
  have htouches : (desired.changes observed).touches (instanceSchema.path .storage) = true := by
    have hcompared : InstanceField.storage ∈ instanceSchema.compared := by decide
    rw [Document.touches_path_iff desired observed InstanceField.storage,
      flagged_iff_of_compared desired observed hcompared]
    exact (storage_path_mem_iff desired observed).1 hpath
  rw [(ModifyForm.request_conveys hrequest).carried_eq]
  exact ModifyForm.carried_of_sent hsends htouches

end Instance

/-- A small instance, as an operator or the service has it. -/
def Document.sampleInstance (instanceClass : String) (storage : Option Int64)
    (live : Option String) : Document .dbInstance where
  metadata := .blank
  spec
    | .identifier => some "main"
    | .instanceClass => some instanceClass
    | .storage => storage
    | f => instanceSchema.blank f
  status := ⟨some "arn:main", live, [], ⟨[], none⟩⟩

namespace Pass

/-- An instance that is not available is sent a modify request only if it reports that its
storage is full and the storage is to change.  The request carries the desired storage, that
is, a value if and only if one is desired. -/
theorem modify_request_of_full_storage {context : Context} {world : World}
    {desired observed : Document .dbInstance} {request : Modification instanceSchema}
    (hstatus : observed.status.live ≠ some "available")
    (hmem : .modifyInstance request ∈ calls world (settle context desired observed)) :
    (∃ text, observed.status.live = some text ∧ "storage-full".toList <:+: text.toList) ∧
      "Spec.AllocatedStorage" ∈ (Plan.of context.settings desired observed).changes.paths ∧
      desired.spec .storage ≠ observed.spec .storage ∧
      request.carried .storage = desired.spec .storage := by
  obtain ⟨-, hpath, text, htext, -, hfull⟩ :=
    awaitsStorage_of_letsThrough (letsThrough_of_mem_calls hmem) hstatus
  have hchanged : "Spec.AllocatedStorage" ∈ ((desired.normal observed).changes observed).paths :=
    hpath
  have hnormal : (desired.normal observed).spec .storage = desired.spec .storage := rfl
  have hcarried := Instance.carried_storage (modifyInstance_mem_calls hmem).2 hchanged
  have hdiffers := (Instance.storage_path_mem_iff _ _).1 hchanged
  rw [hnormal] at hcarried hdiffers
  exact ⟨⟨text, htext, hfull⟩, hpath, hdiffers, hcarried⟩

theorem growth_is_requested :
    ∃ request,
      calls (.initial (.memory .fresh))
        (settle .sample (.sampleInstance "db.t3.micro" (some 40) none)
          (.sampleInstance "db.t3.micro" (some 20) (some "storage-full"))) =
        [.modifyInstance request] ∧
      request.carried .storage = some 40 := by
  obtain ⟨request, hcalls⟩ : ∃ request,
      calls (.initial (.memory .fresh))
        (settle .sample (.sampleInstance "db.t3.micro" (some 40) none)
          (.sampleInstance "db.t3.micro" (some 20) (some "storage-full"))) =
        [.modifyInstance request] := ⟨_, rfl⟩
  have hmem : Call.modifyInstance request ∈ calls (.initial (.memory .fresh))
      (settle .sample (.sampleInstance "db.t3.micro" (some 40) none)
        (.sampleInstance "db.t3.micro" (some 20) (some "storage-full"))) :=
    hcalls ▸ List.mem_singleton.2 rfl
  exact ⟨request, hcalls, (modify_request_of_full_storage (by decide) hmem).2.2.2⟩

/-- A desired document that says nothing of the storage opens the gate as well: a change of the
class goes out to an instance with full storage, in a request that carries no storage. -/
theorem class_change_through_full_storage :
    ∃ request,
      calls (.initial (.memory .fresh))
        (settle .sample (.sampleInstance "db.r6g.large" none none)
          (.sampleInstance "db.t3.micro" (some 20) (some "storage-full"))) =
        [.modifyInstance request] ∧
      request.carried .storage = none ∧ request.carried .instanceClass = some "db.r6g.large" :=
  ⟨_, rfl, rfl, rfl⟩

end Pass
end DbSteward
