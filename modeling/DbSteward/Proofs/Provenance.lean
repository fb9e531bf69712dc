import DbSteward.Proofs.Abandonment
import DbSteward.Proofs.Report
import DbSteward.Proofs.Secret

/-!
# Where a returned document comes from

A pass is given two documents with different owners, and gives one back.  Its spec is what the
operator desires, with what is left to the service filled in.  Its metadata is the operator's,
with the secret reference on record once a modify request was granted for it.  Its status is the
service's, and only the conditions are the steward's own.  The other halves, the status of the
desired document and the metadata of the observed one, are never looked at.
-/

namespace DbSteward

/-- The service granted a request to modify the resource as a whole. -/
def Kind.wasModified (kind : Kind) (events : List Event) : Bool :=
  events.any fun event => event.error.isNone && kind.isModification event.call

theorem Kind.wasModified_append (kind : Kind) (first second : List Event) :
    kind.wasModified (first ++ second) = (kind.wasModified first || kind.wasModified second) :=
  List.any_append

theorem Kind.wasModified_eq_false {kind : Kind} {events : List Event}
    (hquiet : ∀ event ∈ events, kind.isModification event.call = false) :
    kind.wasModified events = false := by
  rw [wasModified, List.any_eq_false]
  intro event hmem
  simp [hquiet event hmem]

theorem Kind.IsPreliminary.not_modification {kind : Kind} {c : Call}
    (hpreliminary : kind.IsPreliminary c) : kind.isModification c = false := by
  cases c with
  | modifyCluster request => cases kind <;> exact hpreliminary.elim
  | modifyInstance request => cases kind <;> exact hpreliminary.elim
  | modifySubnetGroup request => cases kind <;> exact hpreliminary.elim
  | _ => cases kind <;> rfl

/-- The metadata once a modify request for the changes was granted. -/
def Document.metadataSent : {kind : Kind} → Document kind → Changes → Metadata
  | .dbCluster, doc, changes =>
      (doc.withPasswordSent (clusterSchema.path .password) (doc.spec .password) changes).metadata
  | .dbInstance, doc, changes =>
      (doc.withPasswordSent (instanceSchema.path .password) (doc.spec .password) changes).metadata
  | .parameterGroup _, doc, _ => doc.metadata
  | .subnetGroup, doc, _ => doc.metadata
  | .snapshot _, doc, _ => doc.metadata

/-- The document is made of the spec and the metadata of one document and the status of
another, and the changes were sent if the resource was modified. -/
structure Returned {kind : Kind} (wish observed : Document kind) (changes : Changes)
    (events : List Event) (document : Document kind) : Prop where
  spec : document.spec = wish.spec
  metadata : document.metadata =
    if kind.wasModified events then wish.metadataSent changes else wish.metadata
  status : ∃ conditions, document.status = { observed.status with conditions := conditions }

namespace Pass

variable {β : Type} {kind : Kind} {wish observed : Document kind} {changes : Changes}

/-! ## What updates return -/

/-- Whatever the pass gives back is put together from the two documents. -/
def Returns (wish observed : Document kind) (changes : Changes) (pass : Pass (Outcome kind)) :
    Prop :=
  ∀ world outcome after, runIn world pass = (.ok outcome, after) →
    Returned wish observed changes (events world pass) outcome.document

theorem returned_of_quiet {events : List Event} (hquiet : kind.wasModified events = false)
    (revise : List Condition → List Condition) :
    Returned wish observed changes events ((wish.withStatusOf observed).mapConditions revise) where
  spec := rfl
  metadata := by
    rw [hquiet]
    rfl
  status := ⟨_, rfl⟩

theorem returns_pure (revise : List Condition → List Condition) (decision : Decision) :
    Returns wish observed changes
      (pure ⟨(wish.withStatusOf observed).mapConditions revise, decision⟩) := by
  intro world outcome after hrun
  rw [← Except.ok.inj (congrArg Prod.fst hrun), events_pure]
  exact returned_of_quiet rfl revise

/-- What comes before the modify request does not count. -/
theorem returns_bind {pass : Pass β} {next : β → Pass (Outcome kind)}
    (hquiet : Makes (fun c => kind.isModification c = false) pass)
    (hmakes : ∀ b, Makes (fun _ => True) (next b))
    (hnext : ∀ b, Returns wish observed changes (next b)) :
    Returns wish observed changes (pass >>= next) := by
  intro world outcome after hrun
  obtain ⟨b, middle, hfirst, hrest⟩ := runIn_bind_eq_ok hrun
  have hreturned := hnext b middle outcome after hrest
  have hnone : kind.wasModified (events world pass) = false := by
    obtain ⟨added, hlog, hadded⟩ := hquiet world
    rw [events_of_log_eq hlog]
    exact Kind.wasModified_eq_false hadded
  have hevents : events world (pass >>= next) = events world pass ++ events middle (next b) :=
    events_bind_of_ok hquiet.any (hmakes b) hfirst
  refine ⟨hreturned.spec, ?_, hreturned.status⟩
  rw [hevents, Kind.wasModified_append, hnone, Bool.false_or]
  exact hreturned.metadata

/-- A modify request is built, sent and granted, or the pass gives nothing back. -/
theorem returns_send {ρ : Type} {request : Except Failure ρ} {toCall : ρ → Call}
    {category : Category} {operation : String} {now : Moment} {document : Document kind}
    (hmodifies : ∀ r, kind.isModification (toCall r) = true)
    (hspec : document.spec = wish.spec)
    (hmetadata : document.metadata = wish.metadataSent changes)
    (hstatus : document.status = observed.status) :
    Returns wish observed changes (liftExcept request >>= fun r =>
      call (toCall r) category operation >>= fun _ => pure (.modified now document)) := by
  intro world outcome after hrun
  obtain ⟨r, -, hevents, rfl⟩ := send_ok hrun
  have hgranted : kind.wasModified [⟨toCall r, category, operation, none⟩] = true := by
    simp [Kind.wasModified, hmodifies]
  refine ⟨hspec, ?_, ?_⟩
  · rw [hevents, hgranted]
    exact hmetadata
  · rw [Outcome.modified, Document.mapConditions, hstatus]
    exact ⟨_, rfl⟩

/-- Where no call modifies resources of the kind as a whole, there is nothing to record. -/
theorem returns_of_gives (hnever : ∀ c, kind.isModification c = false)
    {pass : Pass (Outcome kind)}
    (hgives : Gives (fun outcome =>
      ∃ revise, outcome.document = (wish.withStatusOf observed).mapConditions revise) pass) :
    Returns wish observed changes pass := by
  intro world outcome after hrun
  obtain ⟨revise, hdocument⟩ := hgives world outcome after hrun
  rw [hdocument]
  exact returned_of_quiet (Kind.wasModified_eq_false fun event _ => hnever event.call) revise

theorem returns_finishInstance (context : Context) (wish observed : Document .dbInstance)
    (changes : Changes) :
    Returns wish observed changes (finishInstance context wish observed changes) := by
  unfold finishInstance
  split
  · apply returns_send (fun request => rfl)
    · exact withPasswordSent_spec _ _ _ _
    · exact withPasswordSent_metadata rfl
    · exact withPasswordSent_status _ _ _ _
  · split
    · exact returns_pure _ _
    · exact returns_pure _ _

theorem returns_afterTags (context : Context) (arn : String) (wish observed : Document kind)
    (changes : Changes) :
    Returns wish observed changes (afterTags kind context arn wish observed changes) := by
  cases kind with
  | dbCluster =>
      rw [afterTags]
      split
      · apply returns_send (fun request => rfl)
        · exact withPasswordSent_spec _ _ _ _
        · exact withPasswordSent_metadata rfl
        · exact withPasswordSent_status _ _ _ _
      · exact returns_pure _ _
  | dbInstance =>
      -- Starting or stopping replication does not count as modifying the instance.
      have hreplication : Makes (fun c => Kind.isModification .dbInstance c = false)
          (settleReplication context.settings (replicationIntent wish)
            (replicationObservation arn observed)) :=
        makes_bind (makes_liftExcept _) fun step =>
          makes_takeStep (fun _ _ => rfl) (fun _ _ => rfl) _ step
      have hfinish := (speaks_finishInstance context wish observed changes).makes
      have hreturns := returns_finishInstance context wish observed changes
      apply returns_bind hreplication
      · intro decision
        cases decision with
        | retryAfter delay reason => exact makes_pure _
        | proceed => exact hfinish
        | failTerminal reason => exact hfinish
      · intro decision
        cases decision with
        | retryAfter delay reason => exact returns_pure _ _
        | proceed => exact hreturns
        | failTerminal reason => exact hreturns
  | parameterGroup scope =>
      exact returns_of_gives (fun _ => rfl) (gives_bind fun _ => gives_pure ⟨_, rfl⟩)
  | subnetGroup =>
      rw [afterTags]
      split
      · exact returns_send (fun request => rfl) rfl rfl rfl
      · exact returns_pure _ _
  | snapshot scope => exact returns_pure _ _

theorem returns_update (context : Context) (wish observed : Document kind) (changes : Changes) :
    Returns wish observed changes (update kind context wish observed changes) := by
  have htags : ∀ arn, Makes (fun c => kind.isModification c = false)
      (updateTags arn wish observed changes) := by
    intro arn
    apply makes_updateTags
    · intro keys
      cases kind <;> rfl
    · intro tags
      cases kind <;> rfl
  have hafter : ∀ arn, Makes (fun _ => True) (afterTags kind context arn wish observed changes) :=
    fun arn => (speaks_afterTags context arn wish observed changes).makes
  have hboth : ∀ arn, Makes (fun _ => True) (updateTags arn wish observed changes >>= fun _ =>
      afterTags kind context arn wish observed changes) :=
    fun arn => makes_bind (htags arn).any fun _ => hafter arn
  rw [update_eq_tags_first]
  apply returns_bind (makes_liftExcept _) hboth
  intro arn
  apply returns_bind (htags arn) (fun _ => hafter arn)
  intro tagged
  exact returns_afterTags context arn wish observed changes

/-! ## Passes over a resource -/

theorem mapConditions_mapConditions (document : Document kind)
    (first second : List Condition → List Condition) :
    (document.mapConditions first).mapConditions second =
      document.mapConditions (second ∘ first) :=
  rfl

theorem returned_of_settle {context : Context} {world after : World}
    {desired observed : Document kind} {outcome : Outcome kind}
    (hrun : runIn world (settle context desired observed) = (.ok outcome, after)) :
    Returned (desired.normal observed) observed
      (Plan.of context.settings desired observed).changes
      (events world (settle context desired observed)) outcome.document := by
  have hidle : after = world →
      kind.wasModified (events world (settle context desired observed)) = false := by
    rintro rfl
    have hnone : events after (settle context desired observed) = [] := by
      simp [events, hrun]
    rw [hnone]
    rfl
  cases settle_ended hrun with
  | refused hdecision =>
      simp only [Outcome.abandoned]
      exact returned_of_quiet (hidle rfl) _
  | deferred hdecision =>
      simp only [Outcome.postponed]
      exact returned_of_quiet (hidle rfl) _
  | idle hdecision hnone =>
      simp only [Outcome.converged, givenBack, mapConditions_mapConditions]
      exact returned_of_quiet (hidle rfl) _
  | updated hdecision hchanges hupdate =>
      obtain ⟨hspec, hmetadata, conditions, hstatus⟩ :=
        returns_update _ _ _ _ world outcome after hupdate
      rw [events_eq_of_runs hrun hupdate]
      exact ⟨hspec, hmetadata, conditions, hstatus⟩
  | obstructed hdecision hchanges hupdate =>
      -- An obstacle is met before the resource itself is touched.
      have hquiet : kind.wasModified (events world (settle context desired observed)) = false := by
        apply Kind.wasModified_eq_false
        intro event hmem
        have hcall : event.call ∈ calls world (settle context desired observed) :=
          List.mem_map_of_mem hmem
        exact (preliminary_of_failTerminal hrun rfl hcall).not_modification
      simp only [Outcome.abandoned, givenBack, mapConditions_mapConditions]
      exact returned_of_quiet hquiet _

end Pass

/-! ## The record of the secret -/

namespace Document

variable {kind : Kind}

theorem password_not_mem_paths (hkind : kind.hasPassword = false)
    (desired observed : Document kind) :
    "Spec.MasterUserPassword" ∉ (desired.changes observed).paths := by
  have hnot : "Spec.MasterUserPassword" ∉ kind.reportOrder := by
    cases kind with
    | dbCluster => simp [Kind.hasPassword] at hkind
    | dbInstance => simp [Kind.hasPassword] at hkind
    | parameterGroup scope =>
        exact (by decide +kernel : "Spec.MasterUserPassword" ∉
          parameterGroupSchema.compared.flatMap parameterGroupSchema.reportPaths)
    | subnetGroup =>
        exact (by decide +kernel : "Spec.MasterUserPassword" ∉ Kind.reportOrder .subnetGroup)
    | snapshot scope =>
        exact (by decide +kernel : "Spec.MasterUserPassword" ∉
          snapshotSchema.compared.flatMap snapshotSchema.reportPaths)
  exact fun hmem => hnot ((paths_changes_sublist desired observed).subset hmem)

theorem withPasswordSent_changes (wish observed : Document kind) {f : kind.schema.Field}
    (hplain : kind.schema.type f ≠ .scaling)
    (hpath : kind.schema.path f = "Spec.MasterUserPassword") (secret : Option SecretRef) :
    (wish.withPasswordSent (kind.schema.path f) secret (wish.changes observed)).metadata =
      if "Spec.MasterUserPassword" ∈ (wish.changes observed).paths then
        { wish.metadata with
          annotations := wish.metadata.annotations.withLastAppliedSecret secret }
      else wish.metadata := by
  have htouches := touches_path_iff_mem wish observed hplain
  rw [withPasswordSent]
  by_cases hmem : kind.schema.path f ∈ (wish.changes observed).paths
  · rw [if_pos (htouches.2 hmem), ← hpath, if_pos hmem]
  · rw [if_neg fun h => hmem (htouches.1 h), ← hpath, if_neg hmem]

theorem metadataSent_changes (wish observed : Document kind) :
    wish.metadataSent (wish.changes observed) =
      if "Spec.MasterUserPassword" ∈ (wish.changes observed).paths then
        { wish.metadata with
          annotations := wish.metadata.annotations.withLastAppliedSecret wish.masterPassword }
      else wish.metadata := by
  cases kind with
  | dbCluster =>
      exact withPasswordSent_changes wish observed (f := ClusterField.password) (by decide) rfl _
  | dbInstance =>
      exact withPasswordSent_changes wish observed (f := InstanceField.password) (by decide) rfl _
  | parameterGroup scope => exact (if_neg (password_not_mem_paths rfl wish observed)).symm
  | subnetGroup => exact (if_neg (password_not_mem_paths rfl wish observed)).symm
  | snapshot scope => exact (if_neg (password_not_mem_paths rfl wish observed)).symm

end Document

namespace Pass

variable {kind : Kind}

/-! ## What a pass does not look at -/

section Unread

variable (context : Context) (desired observed : Document kind) (status : Status kind)
  (metadata : Metadata)

theorem plan_of_unread :
    Plan.of context.settings { desired with status := status }
        { observed with metadata := metadata } =
      Plan.of context.settings desired observed := by
  cases kind <;> rfl

theorem afterTags_of_unread (arn : String) (changes : Changes) :
    afterTags kind context arn { desired with status := status }
        { observed with metadata := metadata } changes =
      afterTags kind context arn desired observed changes := by
  cases kind <;> rfl

/-- Only a complaint about a missing resource name mentions the metadata of the observed
document. -/
theorem update_of_unread {arn : String} (harn : observed.status.arn = some arn)
    (changes : Changes) :
    update kind context { desired with status := status }
        { observed with metadata := metadata } changes =
      update kind context desired observed changes := by
  have hother : arnOf { observed with metadata := metadata } = .ok arn := by
    simp [arnOf, harn]
  have hsame : arnOf observed = .ok arn := by
    simp [arnOf, harn]
  rw [update_eq_tags_first, update_eq_tags_first, hother, hsame, liftExcept_ok_bind,
    liftExcept_ok_bind]
  apply bind_congr
  intro tagged
  exact afterTags_of_unread context desired observed status metadata arn changes

theorem runIn_proceed_of_unread (world : World) (changes : Changes) :
    (runIn world (proceed context { desired with status := status }
        { observed with metadata := metadata } changes)).2 =
        (runIn world (proceed context desired observed changes)).2 ∧
      (runIn world (proceed context { desired with status := status }
        { observed with metadata := metadata } changes)).1.toOption =
        (runIn world (proceed context desired observed changes)).1.toOption := by
  cases hchanges : changes.isEmpty with
  | true =>
      rw [proceed, proceed, if_pos hchanges, if_pos hchanges]
      exact ⟨rfl, rfl⟩
  | false =>
      cases harn : observed.status.arn with
      | none =>
          obtain ⟨message, hrun⟩ :=
            runIn_proceed_of_no_arn context world desired observed hchanges harn
          obtain ⟨message', hrun'⟩ := runIn_proceed_of_no_arn context world
            { desired with status := status } { observed with metadata := metadata } hchanges harn
          rw [hrun, hrun']
          exact ⟨rfl, rfl⟩
      | some arn =>
          have hupdate := update_of_unread context desired
            (observed.mapConditions Conditions.clearTerminal) status metadata harn changes
          have hproceed : proceed context { desired with status := status }
              { observed with metadata := metadata } changes =
              proceed context desired observed changes := by
            simp only [proceed, hchanges]
            exact congrArg (orAbandon context.now _) hupdate
          rw [hproceed]
          exact ⟨rfl, rfl⟩

theorem runIn_settle_of_unread (world : World) :
    (runIn world (settle context { desired with status := status }
        { observed with metadata := metadata })).2 =
        (runIn world (settle context desired observed)).2 ∧
      (runIn world (settle context { desired with status := status }
        { observed with metadata := metadata })).1.toOption =
        (runIn world (settle context desired observed)).1.toOption := by
  rw [settle, settle, plan_of_unread, follow, follow]
  cases (Plan.of context.settings desired observed).decision with
  | failTerminal reason => exact ⟨rfl, rfl⟩
  | retryAfter delay reason => exact ⟨rfl, rfl⟩
  | proceed =>
      exact runIn_proceed_of_unread context (desired.normal observed) observed status metadata
        world _

end Unread

/-- A pass returns the right document: the desired spec with what is left to the service filled
in, the desired metadata with the current secret reference on record exactly if a modify
request was granted and the password is among the changes, and the observed status but for the
conditions.  Plan, calls and document are the same whatever the status of the desired document
and the metadata of the observed one. -/
theorem pass_returns_right_document (context : Context) (world : World)
    (desired observed : Document kind) :
    (∀ outcome after, runIn world (settle context desired observed) = (.ok outcome, after) →
      outcome.document.spec = (desired.normal observed).spec ∧
      outcome.document.metadata =
        (if kind.wasModified (events world (settle context desired observed)) = true ∧
            "Spec.MasterUserPassword" ∈
              (Plan.of context.settings desired observed).changes.paths then
          { desired.metadata with
            annotations :=
              desired.metadata.annotations.withLastAppliedSecret desired.masterPassword }
        else desired.metadata) ∧
      ∃ conditions, outcome.document.status = { observed.status with conditions := conditions }) ∧
    ∀ (status : Status kind) (metadata : Metadata),
      Plan.of context.settings { desired with status := status }
          { observed with metadata := metadata } = Plan.of context.settings desired observed ∧
        calls world (settle context { desired with status := status }
          { observed with metadata := metadata }) = calls world (settle context desired observed) ∧
        (runIn world (settle context { desired with status := status }
          { observed with metadata := metadata })).1.toOption =
          (runIn world (settle context desired observed)).1.toOption := by
  constructor
  · intro outcome after hrun
    obtain ⟨hspec, hmetadata, hstatus⟩ := returned_of_settle hrun
    have hsent := (desired.normal observed).metadataSent_changes observed
    rw [desired.masterPassword_normal] at hsent
    refine ⟨hspec, ?_, hstatus⟩
    rw [hmetadata]
    cases kind.wasModified (events world (settle context desired observed)) with
    | true =>
        simp only [true_and, if_true]
        exact hsent
    | false =>
        simp only [Bool.false_eq_true, false_and, if_false]
        rfl
  · intro status metadata
    obtain ⟨hworld, houtcome⟩ :=
      runIn_settle_of_unread context desired observed status metadata world
    refine ⟨plan_of_unread context desired observed status metadata, ?_, houtcome⟩
    rw [calls, calls, hworld]

/-- The document that a cluster's first pass returns holds the record of the secret, and the
resource name that only the service knows. -/
theorem first_password_on_record :
    ∃ outcome after,
      runIn (.initial (.memory .fresh))
          (settle { Context.sample with secrets := fun _ => some "s3cret" }
            { Document.sampleSecured "" ⟨"prod", "orders-master", "password"⟩ with
              metadata := .blank }
            (.sampleCluster "provisioned" 5432 [] (some "arn:main") (some "available"))) =
        (.ok outcome, after) ∧
      outcome.document.metadata.annotations.get? Annotations.lastAppliedSecretKey =
        some "prod/orders-master.password" ∧
      outcome.document.status.arn = some "arn:main" := by
  have hpass := pass_returns_right_document
    { Context.sample with secrets := fun _ => some "s3cret" } (.initial (.memory .fresh))
    { Document.sampleSecured "" ⟨"prod", "orders-master", "password"⟩ with metadata := .blank }
    (.sampleCluster "provisioned" 5432 [] (some "arn:main") (some "available"))
  obtain ⟨outcome, after, hrun⟩ : ∃ outcome after,
      runIn (.initial (.memory .fresh))
          (settle { Context.sample with secrets := fun _ => some "s3cret" }
            { Document.sampleSecured "" ⟨"prod", "orders-master", "password"⟩ with
              metadata := .blank }
            (.sampleCluster "provisioned" 5432 [] (some "arn:main") (some "available"))) =
        (.ok outcome, after) := ⟨_, _, rfl⟩
  obtain ⟨-, hmetadata, conditions, hstatus⟩ := hpass.1 outcome after hrun
  rw [if_pos ⟨by decide +kernel, by decide +kernel⟩] at hmetadata
  refine ⟨outcome, after, hrun, ?_, ?_⟩
  · rw [hmetadata]
    decide +kernel
  · rw [hstatus]
    rfl

end Pass
end DbSteward
