import DbSteward.Proofs.Ending
import DbSteward.Proofs.Order
import DbSteward.Proofs.Secret

/-!
# What the recorded reference vouches for

A document records the reference whose value was sent as the master password, so that it is
not sent again.  This file follows the record along runs of passes, some of which fail: where
it is there, the service has granted a modify request that carries the value of a reference
with this text, or no password at all if the value was empty.
-/

namespace DbSteward

/-- The password of a modify request, which may be none. -/
def Call.password? : Call → Option (Option String)
  | .modifyCluster request => some request.password
  | .modifyInstance request => some request.password
  | _ => none

namespace ModifyForm

theorem passwordFor_some_eq_ok_iff {context : Context} {reference : SecretRef}
    {password : Option String} :
    passwordFor context (some reference) = .ok password ↔
      ∃ value, context.secrets reference = some value ∧
        password = if value.isEmpty then none else some value := by
  cases hsecret : context.secrets reference with
  | none => simp [passwordFor, Pass.secret, hsecret, Except.map]
  | some value =>
      simp only [passwordFor, Pass.secret, hsecret, Except.map, Except.ok.injEq, Option.some.injEq,
        exists_eq_left']
      exact eq_comm

theorem passwordFor_of_request {S : Schema} {form : ModifyForm S} {context : Context}
    {changes : Changes} {desired observed : S.Record} {request : Modification S}
    (hrequest : form.request context changes desired observed = .ok request)
    (htouches : changes.touches (S.path form.passwordField) = true) :
    passwordFor context (form.password desired) = .ok request.password := by
  obtain ⟨-, -, hpassword, -⟩ := request_eq_ok hrequest
  rwa [passwordIfTouched, if_pos htouches] at hpassword

end ModifyForm

namespace Pass

variable {α β : Type} {kind : Kind}

/-! ## One pass -/

/-- The service granted a modify request with the password for the reference. -/
def Granted (context : Context) (reference : Option SecretRef) (events : List Event) : Prop :=
  ∃ password, ModifyForm.passwordFor context reference = .ok password ∧
    ∃ event ∈ events, event.error = none ∧ event.call.password? = some password

/-- What the pass gives has the metadata of the desired document, unless it records the reference
to the master password and the service granted the request for it. -/
def Vouches (context : Context) (desired : Document kind) (pass : Pass (Outcome kind)) : Prop :=
  ∀ world outcome after, runIn world pass = (.ok outcome, after) →
    outcome.document.metadata = desired.metadata ∨
      (outcome.document.metadata.annotations =
          desired.metadata.annotations.withLastAppliedSecret desired.masterPassword ∧
        Granted context desired.masterPassword (events world pass))

section Vouches

variable {context : Context} {desired observed : Document kind} {changes : Changes}

theorem vouches_of_gives {pass : Pass (Outcome kind)}
    (hgives : Gives (fun outcome => outcome.document.metadata = desired.metadata) pass) :
    Vouches context desired pass :=
  fun world outcome after hrun => .inl (hgives world outcome after hrun)

theorem vouches_bind {allowed : Call → Prop} {pass : Pass β} {next : β → Pass (Outcome kind)}
    (hpass : Makes allowed pass) (hmakes : ∀ b, Makes allowed (next b))
    (hnext : ∀ b, Vouches context desired (next b)) :
    Vouches context desired (pass >>= next) := by
  intro world outcome after hrun
  obtain ⟨b, middle, hfirst, hrest⟩ := runIn_bind_eq_ok hrun
  rcases hnext b middle outcome after hrest with hsame | ⟨hrecord, password, hpassword, event, hmem,
    hgranted⟩
  · exact .inl hsame
  · refine .inr ⟨hrecord, password, hpassword, event, ?_, hgranted⟩
    rw [events_bind_of_ok hpass (hmakes b) hfirst]
    exact List.mem_append_right _ hmem

/-- A modify call that is answered was granted, and it carries the password if it is to be
recorded. -/
theorem vouches_modify {S : Schema} (form : ModifyForm S) {spec live : S.Record}
    {toCall : Modification S → Call} {category : Category} {operation : String}
    (hcall : ∀ request, (toCall request).password? = some request.password)
    (hform : form.password spec = desired.masterPassword) :
    Vouches context desired (do
      let request ← liftExcept (form.request context changes spec live)
      let _ ← call (toCall request) category operation
      pure (.modified context.now <| (desired.withStatusOf observed).withPasswordSent
        (S.path form.passwordField) desired.masterPassword changes)) := by
  intro world outcome after hrun
  obtain ⟨request, hrequest, hevents, rfl⟩ := send_ok hrun
  by_cases htouches : changes.touches (S.path form.passwordField) = true
  · right
    have hpassword := ModifyForm.passwordFor_of_request hrequest htouches
    rw [hform] at hpassword
    refine ⟨?_, request.password, hpassword, ⟨toCall request, category, operation, none⟩, ?_, rfl,
      hcall request⟩
    · rw [Document.withPasswordSent, if_pos htouches]
      rfl
    · rw [hevents]
      exact List.mem_singleton_self _
  · left
    rw [Document.withPasswordSent, if_neg htouches]
    rfl

end Vouches

theorem vouches_finishInstance (context : Context) (desired observed : Document .dbInstance)
    (changes : Changes) :
    Vouches context desired (finishInstance context desired observed changes) := by
  unfold finishInstance
  split
  · exact vouches_modify Instance.modifyForm (fun request => rfl) rfl
  · split
    · exact vouches_of_gives (gives_pure rfl)
    · exact vouches_of_gives (gives_pure rfl)

theorem vouches_afterTags (context : Context) (arn : String) (desired observed : Document kind)
    (changes : Changes) :
    Vouches context desired (afterTags kind context arn desired observed changes) := by
  cases kind with
  | dbCluster =>
      rw [afterTags]
      split
      · exact vouches_modify Cluster.modifyForm (fun request => rfl) rfl
      · exact vouches_of_gives (gives_pure rfl)
  | dbInstance =>
      refine vouches_bind (makes_bind (makes_liftExcept _) fun step =>
        (speaks_takeStep context.settings step).makes) (fun decision => ?_) fun decision => ?_
      · cases decision with
        | retryAfter delay reason => exact makes_pure _
        | proceed => exact (speaks_finishInstance context desired observed changes).makes
        | failTerminal reason =>
            exact (speaks_finishInstance context desired observed changes).makes
      · cases decision with
        | retryAfter delay reason => exact vouches_of_gives (gives_pure rfl)
        | proceed => exact vouches_finishInstance context desired observed changes
        | failTerminal reason => exact vouches_finishInstance context desired observed changes
  | parameterGroup scope => exact vouches_of_gives (gives_bind fun _ => gives_pure rfl)
  | subnetGroup =>
      rw [afterTags]
      split
      · refine vouches_of_gives (gives_send ?_ _ _)
        rfl
      · exact vouches_of_gives (gives_pure rfl)
  | snapshot scope => exact vouches_of_gives (gives_pure rfl)

theorem vouches_update (context : Context) (desired observed : Document kind)
    (changes : Changes) :
    Vouches context desired (update kind context desired observed changes) := by
  have htags : ∀ arn, Makes (fun _ => True) (updateTags arn desired observed changes) := fun arn =>
    makes_updateTags (fun _ => trivial) (fun _ => trivial) desired observed changes
  have hafter : ∀ arn,
      Makes (fun _ => True) (afterTags kind context arn desired observed changes) :=
    fun arn => (speaks_afterTags context arn desired observed changes).makes
  rw [update_eq_tags_first]
  refine vouches_bind (makes_liftExcept _) (fun arn => makes_bind (htags arn) fun _ => hafter arn)
    fun arn => ?_
  exact vouches_bind (htags arn) (fun _ => hafter arn) fun _ =>
    vouches_afterTags context arn desired observed changes

theorem vouches_settle (context : Context) (desired observed : Document kind) :
    Vouches context desired (settle context desired observed) := by
  intro world outcome after hrun
  -- Apart from an update that goes through, no end touches the metadata.
  cases settle_ended hrun with
  | refused hdecision => exact .inl rfl
  | deferred hdecision => exact .inl rfl
  | idle hdecision hnone => exact .inl rfl
  | obstructed hdecision hchanges hupdate => exact .inl rfl
  | updated hdecision hchanges hupdate =>
      have hvouches := vouches_update _ _ _ _ world outcome after hupdate
      rw [desired.masterPassword_normal] at hvouches
      rw [events_eq_of_runs hrun hupdate]
      exact hvouches

end Pass

/-! ## Runs of passes -/

/-- A pass over a resource, whatever comes of it. -/
structure Round (kind : Kind) where
  context : Context
  world : World
  desired : Document kind
  observed : Document kind

namespace Round

variable {kind : Kind}

def result (round : Round kind) : Except Failure (Outcome kind) :=
  (Pass.runIn round.world (Pass.settle round.context round.desired round.observed)).1

def events (round : Round kind) : List Event :=
  Pass.events round.world (Pass.settle round.context round.desired round.observed)

/-- The metadata to go on with.  A pass that failed gave nothing back. -/
def metadata (round : Round kind) : Metadata :=
  match round.result with
  | .ok outcome => outcome.document.metadata
  | .error _ => round.desired.metadata

/-- Rounds that begin without a record and hand the metadata on, with what the last one left. -/
inductive Run : List (Round kind) → Metadata → Prop where
  | start {metadata : Metadata}
      (hnone : metadata.annotations.get? Annotations.lastAppliedSecretKey = none) :
      Run [] metadata
  | next {rounds : List (Round kind)} {metadata : Metadata} (hearlier : Run rounds metadata)
      (round : Round kind) (hcarried : round.desired.metadata = metadata) :
      Run (rounds ++ [round]) round.metadata

theorem record_cases (round : Round kind) :
    round.metadata = round.desired.metadata ∨
      (round.metadata.annotations.lastAppliedSecret =
          SecretRef.textOf round.desired.masterPassword ∧
        Pass.Granted round.context round.desired.masterPassword round.events) := by
  rw [metadata, result]
  cases hrun : Pass.runIn round.world
      (Pass.settle round.context round.desired round.observed) with
  | mk result after =>
      cases result with
      | error failure => exact .inl rfl
      | ok outcome =>
          rcases Pass.vouches_settle _ _ _ _ _ _ hrun with hsame | ⟨hrecord, hgranted⟩
          · exact .inl hsame
          · refine .inr ⟨?_, hgranted⟩
            simp only
            rw [hrecord, Annotations.lastAppliedSecret_withLastAppliedSecret]

/-- Where a run leaves a reference on record, one of its passes was to send the value of a
reference with this text, and the service granted a modify request that carries the value, or
no password if the value is empty. -/
theorem recorded_reference_was_sent {rounds : List (Round kind)} {metadata : Metadata}
    (hrun : Run rounds metadata) {reference : SecretRef}
    (hrecorded : metadata.annotations.lastAppliedSecret = reference.text) :
    ∃ round ∈ rounds, ∃ sent value, round.desired.masterPassword = some sent ∧
      sent.text = reference.text ∧ round.context.secrets sent = some value ∧
      ∃ event ∈ round.events, event.error = none ∧
        event.call.password? = some (if value.isEmpty then none else some value) := by
  induction hrun with
  | start hnone =>
      rw [Annotations.lastAppliedSecret, hnone] at hrecorded
      exact absurd hrecorded.symm reference.text_ne_empty
  | @next rounds metadata hearlier round hcarried ih =>
      rcases round.record_cases with hsame | ⟨hrecord, password, hpassword, event, hmem, hgranted,
        hcarries⟩
      · rw [hsame, hcarried] at hrecorded
        obtain ⟨earlier, hearlier, hsent⟩ := ih hrecorded
        exact ⟨earlier, List.mem_append_left _ hearlier, hsent⟩
      · rw [hrecord] at hrecorded
        cases hdesired : round.desired.masterPassword with
        | none =>
            rw [hdesired] at hrecorded
            exact absurd hrecorded.symm reference.text_ne_empty
        | some sent =>
            rw [hdesired] at hrecorded hpassword
            obtain ⟨value, hsecret, rfl⟩ := ModifyForm.passwordFor_some_eq_ok_iff.1 hpassword
            exact ⟨round, by simp, sent, value, hdesired, hrecorded, hsecret, event, hmem, hgranted,
              hcarries⟩

/-- A pass over a cluster that is to have a master password and has no record of one. -/
def sample (secrets : SecretRef → Option String) : Round .dbCluster where
  context := { Context.sample with secrets := secrets }
  world := .initial (.memory .fresh)
  desired :=
    { Document.sampleSecured "" ⟨"prod", "orders-master", "password"⟩ with metadata := .blank }
  observed := .sampleCluster "provisioned" 5432 [] (some "arn:main") (some "available")

/-- The secret is not there at first.  The pass that finds it sends it and records the
reference. -/
theorem secret_sent_by_second_round :
    Run [sample fun _ => none, sample fun _ => some "s3cret"]
        (sample fun _ => some "s3cret").metadata ∧
      (sample fun _ => some "s3cret").metadata.annotations.lastAppliedSecret =
        SecretRef.text ⟨"prod", "orders-master", "password"⟩ ∧
      ∃ event ∈ (sample fun _ => some "s3cret").events,
        event.error = none ∧ event.call.password? = some (some "s3cret") := by
  have hrun : Run [sample fun _ => none, sample fun _ => some "s3cret"]
      (sample fun _ => some "s3cret").metadata :=
    .next (.next (.start rfl) (sample fun _ => none) rfl) (sample fun _ => some "s3cret")
      (by decide +kernel)
  have hrecorded : (sample fun _ => some "s3cret").metadata.annotations.lastAppliedSecret =
      SecretRef.text ⟨"prod", "orders-master", "password"⟩ := by decide +kernel
  obtain ⟨round, hmem, sent, value, -, -, hsecret, hevent⟩ :=
    recorded_reference_was_sent hrun hrecorded
  refine ⟨hrun, hrecorded, ?_⟩
  rcases List.mem_pair.1 hmem with rfl | rfl
  · exact absurd hsecret (by simp [sample])
  · obtain rfl : "s3cret" = value := Option.some.inj hsecret
    exact hevent

/-- An empty secret is recorded though no password was sent. -/
theorem empty_secret_recorded :
    Run [sample fun _ => some ""] (sample fun _ => some "").metadata ∧
      (sample fun _ => some "").desired.masterPassword =
        some ⟨"prod", "orders-master", "password"⟩ ∧
      (sample fun _ => some "").metadata.annotations.lastAppliedSecret =
        SecretRef.text ⟨"prod", "orders-master", "password"⟩ ∧
      ∀ event ∈ (sample fun _ => some "").events, event.call.password?.join = none :=
  ⟨.next (.start rfl) (sample fun _ => some "") rfl, rfl, by decide +kernel, by decide +kernel⟩

end Round
end DbSteward
