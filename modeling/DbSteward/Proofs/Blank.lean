import DbSteward.Proofs.Channel

/-!
# Requests that ask for nothing

An update sends a modify request as soon as anything beyond the tags changed, whether or not
there is anything to send.  This file says which requests turn out to ask for nothing: those
for which every field that changed is one that a request cannot express.
-/

namespace DbSteward

namespace Modification

variable {S : Schema}

/-- The request carries nothing but the identifier. -/
def isBlank (request : Modification S) : Bool :=
  (S.fields.all fun f => (S.type f).isAbsent (request.carried f)) &&
    request.password.isNone && request.logs.isNone

theorem isBlank_iff (request : Modification S) :
    request.isBlank = true ↔
      (∀ f ∈ S.fields, (S.type f).isAbsent (request.carried f) = true) ∧
        request.password = none ∧ request.logs = none := by
  simp [isBlank, and_assoc]

end Modification

namespace Channels

/-- There is nothing that a request could say of the field though it changed.  Log types can
always be switched, a password is left out if it is empty, and any other field if a request has
no place for it or nothing is desired. -/
def Withholds {S : Schema} (channels : Channels S) (context : Context)
    (desired observed : S.Record) (f : S.Field) : Prop :=
  f ≠ channels.logs.field ∧
    (f = channels.password.field → ∀ reference text,
      channels.password.get desired = some reference →
      context.secrets reference = some text → text = "") ∧
    (f ≠ channels.password.field →
      channels.brings desired observed f = false ∨ (S.type f).isAbsent (desired f) = true)

section KeepsTo

variable {kind : Kind} {channels : Channels kind.schema} {form : ModifyForm kind.schema}
  {toCall : Modification kind.schema → Call} {context : Context} {changes : Changes}
  {desired observed : kind.Spec} {request : Modification kind.schema}

theorem KeepsTo.withholds_of_isBlank (hkeeps : KeepsTo kind channels form toCall)
    (hconveys : form.Conveys context changes desired observed request)
    (hblank : request.isBlank = true) {f : kind.schema.Field}
    (htouches : changes.touches (kind.schema.path f) = true) :
    channels.Withholds context desired observed f := by
  obtain ⟨hcarried, hpassword, hlogs⟩ := request.isBlank_iff.1 hblank
  refine ⟨?_, ?_, ?_⟩
  · rintro rfl
    rw [← hkeeps.logs_field] at htouches
    rw [hconveys.logs_eq, ModifyForm.logsIfTouched, if_pos htouches] at hlogs
    simp at hlogs
  · rintro rfl reference text hreference hsecret
    rw [← hkeeps.password_field] at htouches
    rw [← hkeeps.password_eq] at hreference
    by_contra hne
    rw [(hconveys.password_iff text).2 ⟨htouches, hne, reference, hreference, hsecret⟩]
      at hpassword
    simp at hpassword
  · intro hne
    by_contra hnot
    rw [not_or, Bool.not_eq_false, Bool.not_eq_true] at hnot
    have hpresent := (hkeeps.present_iff hconveys f).2 ⟨hnot.1, htouches, hnot.2⟩
    rw [hcarried f (kind.schema_lawful.mem_fields f)] at hpresent
    simp at hpresent

theorem KeepsTo.isBlank_of_withholds (hkeeps : KeepsTo kind channels form toCall)
    (hconveys : form.Conveys context changes desired observed request)
    (hwithholds : ∀ f, changes.touches (kind.schema.path f) = true →
      channels.Withholds context desired observed f) : request.isBlank = true := by
  refine request.isBlank_iff.2 ⟨?_, ?_, ?_⟩
  · intro f hmem
    rw [← Bool.not_eq_false, hkeeps.present_iff hconveys]
    rintro ⟨hbrings, htouches, hpresent⟩
    have hne : f ≠ channels.password.field := by
      rintro rfl
      rw [hkeeps.brings_apart _ _ _ (by simp)] at hbrings
      simp at hbrings
    rcases (hwithholds f htouches).2.2 hne with hunsent | habsent
    · rw [hbrings] at hunsent
      simp at hunsent
    · rw [hpresent] at habsent
      simp at habsent
  · rw [Option.eq_none_iff_forall_ne_some]
    intro text hpassword
    obtain ⟨htouches, hne, reference, hreference, hsecret⟩ :=
      (hconveys.password_iff text).1 hpassword
    rw [hkeeps.password_field] at htouches
    rw [hkeeps.password_eq] at hreference
    exact hne ((hwithholds _ htouches).2.1 rfl reference text hreference hsecret)
  · rw [hconveys.logs_eq, ModifyForm.logsIfTouched, if_neg]
    intro htouches
    rw [hkeeps.logs_field] at htouches
    exact (hwithholds _ htouches).1 rfl

/-- A request asks for nothing exactly when it can say nothing of any field that changed. -/
theorem KeepsTo.isBlank_iff (hkeeps : KeepsTo kind channels form toCall)
    (hconveys : form.Conveys context changes desired observed request) :
    request.isBlank = true ↔ ∀ f, changes.touches (kind.schema.path f) = true →
      channels.Withholds context desired observed f :=
  ⟨fun hblank _ htouches => hkeeps.withholds_of_isBlank hconveys hblank htouches,
    hkeeps.isBlank_of_withholds hconveys⟩

end KeepsTo

end Channels

namespace Pass

/-- A pass sends a modify request only if something beyond what has calls of its own changed.
The request asks for nothing exactly when it can say nothing of any field that changed. -/
theorem modify_request_blank_iff (context : Context) (world : World) :
    (∀ desired observed : Document .dbCluster, ∀ request,
      .modifyCluster request ∈ calls world (settle context desired observed) →
      (∃ f, f ≠ .tags ∧ (Plan.of context.settings desired observed).changes.touches
        (clusterSchema.path f) = true) ∧
      (request.isBlank = true ↔
        ∀ f, (Plan.of context.settings desired observed).changes.touches
            (clusterSchema.path f) = true →
          Cluster.channels.Withholds context (desired.normal observed).spec
            observed.spec f)) ∧
    (∀ desired observed : Document .dbInstance, ∀ request,
      .modifyInstance request ∈ calls world (settle context desired observed) →
      (∃ f, f ≠ .tags ∧ f ≠ .replicated ∧
        (Plan.of context.settings desired observed).changes.touches
          (instanceSchema.path f) = true) ∧
      (request.isBlank = true ↔
        ∀ f, (Plan.of context.settings desired observed).changes.touches
            (instanceSchema.path f) = true →
          Instance.channels.Withholds context (desired.normal observed).spec
            observed.spec f)) := by
  constructor
  · intro desired observed request hmem
    obtain ⟨hbeyond, hrequest⟩ := modifyCluster_mem_calls hmem
    have hconveys := ModifyForm.request_conveys hrequest
    constructor
    · obtain ⟨f, hflagged, hnot⟩ := (Document.touchesBeyond_paths_iff
        (desired.normal observed) observed [ClusterField.tags]).1 hbeyond
      exact ⟨f, List.ne_of_not_mem_cons hnot,
        (Document.touches_path_iff (desired.normal observed) observed f).2 hflagged⟩
    · exact Cluster.keepsTo_channels.isBlank_iff hconveys
  · intro desired observed request hmem
    obtain ⟨hbeyond, hrequest⟩ := modifyInstance_mem_calls hmem
    have hconveys := ModifyForm.request_conveys hrequest
    constructor
    · obtain ⟨f, hflagged, hnot⟩ := (Document.touchesBeyond_paths_iff
        (desired.normal observed) observed [InstanceField.tags, .replicated]).1 hbeyond
      rw [List.mem_cons, List.mem_singleton, not_or] at hnot
      exact ⟨f, hnot.1, hnot.2,
        (Document.touches_path_iff (desired.normal observed) observed f).2 hflagged⟩
    · exact Instance.keepsTo_channels.isBlank_iff hconveys

/-- No request can change the engine mode, but one is sent. -/
theorem blank_request_is_sent :
    ∃ request, Call.modifyCluster request ∈ calls (.initial (.memory .fresh))
        (settle .sample
          (.sampleCluster "serverless" 5432 [] none none)
          (.sampleCluster "provisioned" 5432 [] (some "arn:main") (some "available"))) ∧
      request.isBlank = true := by
  have hsent : ((calls (.initial (.memory .fresh)) (settle .sample
      (.sampleCluster "serverless" 5432 [] none none)
      (.sampleCluster "provisioned" 5432 [] (some "arn:main") (some "available")))).any fun c =>
        match c with
        | .modifyCluster request => request.isBlank
        | _ => false) = true := by
    decide +kernel
  obtain ⟨c, hmem, hblank⟩ := List.any_eq_true.1 hsent
  cases c with
  | modifyCluster request => exact ⟨request, hmem, hblank⟩
  | _ => simp at hblank

end Pass
end DbSteward
