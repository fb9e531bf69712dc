import DbSteward.Proofs.Effect
import DbSteward.Proofs.Ending
import DbSteward.Proofs.Normal

/-!
# Members of a cluster

A parent cluster owns some fields of the instances that are members of it.  What a member says
of these fields, and what is observed in them, makes no difference to a pass whose replication
is as desired: the changes leave them out, a request carries only what changed, and nothing
else reads them.  Replication has to be as desired because its start looks at the retention of
the backups, one of the fields.
-/

namespace DbSteward

namespace Instance

/-! ## Documents that agree but for the fields of a parent cluster -/

/-- The documents of an instance differ at most in fields that belong to a parent cluster. -/
structure SameOwn (left right : Document .dbInstance) : Prop where
  metadata : left.metadata = right.metadata
  status : left.status = right.status
  spec : ∀ f, f ∉ [InstanceField.insightsMode, .logExports, .storageLimit, .backupRetention,
    .backupWindow, .deletionProtection] → left.spec f = right.spec f

section SameOwn

variable {desired desired' observed observed' : Document .dbInstance}

theorem SameOwn.mapConditions (hsame : SameOwn observed observed')
    (revise : List Condition → List Condition) :
    SameOwn (observed.mapConditions revise) (observed'.mapConditions revise) where
  metadata := hsame.metadata
  status := by
    rw [Document.mapConditions, Document.mapConditions, hsame.status]
  spec := hsame.spec

theorem SameOwn.withStatusOf (hdesired : SameOwn desired desired')
    (hobserved : SameOwn observed observed') :
    SameOwn (desired.withStatusOf observed) (desired'.withStatusOf observed') where
  metadata := hdesired.metadata
  status := hobserved.status
  spec := hdesired.spec

/-- Each field is filled in from the two values of that field alone. -/
theorem normal_congr {wish wish' live live' : instanceSchema.Record} {f : InstanceField}
    (hwish : wish f = wish' f) (hlive : live f = live' f) :
    normal wish live f = normal wish' live' f := by
  cases f with
  | zone => rw [normal, normal, hwish, hlive]
  | backupTarget => rw [normal, normal, hwish, hlive]
  | networkType => rw [normal, normal, hwish, hlive]
  | performanceInsights => rw [normal, normal, hwish, hlive]
  | engineVersion => rw [normal, normal, hwish, hlive]
  | _ => exact hwish

theorem SameOwn.normal (hdesired : SameOwn desired desired')
    (hobserved : SameOwn observed observed') :
    SameOwn (desired.normal observed) (desired'.normal observed') where
  metadata := hdesired.metadata
  status := hdesired.status
  spec := fun f hown => normal_congr (hdesired.spec f hown) (hobserved.spec f hown)

theorem SameOwn.observedValue (hdesired : SameOwn desired desired')
    (hobserved : SameOwn observed observed') {f : InstanceField} (hown : f ∉ clusterOwned) :
    desired.observedValue observed f = desired'.observedValue observed' f := by
  have hvalue : Schema.Record.value observed.spec f = Schema.Record.value observed'.spec f :=
    congrArg _ (hobserved.spec f hown)
  simp only [Document.observedValue, Instance.observedValue, hdesired.metadata,
    hobserved.status, hvalue]

/-- The changes of a member leave the fields of its parent cluster out. -/
theorem SameOwn.changes (hdesired : SameOwn desired desired')
    (hobserved : SameOwn observed observed') (hmember : desired.spec .cluster ≠ none) :
    desired.changes observed = desired'.changes observed' := by
  have hcluster : desired.spec .cluster = desired'.spec .cluster :=
    hdesired.spec .cluster (by decide)
  have hfields : desired.comparedFields = desired'.comparedFields := by
    simp only [Document.comparedFields, hcluster]
  have hown : ∀ f ∈ desired.comparedFields, f ∉ clusterOwned := fun f hmem howned =>
    hmember ((owned_mem_comparedFields_iff desired howned).1 hmem)
  rw [Document.changes_eq_overFields, Document.changes_eq_overFields, ← hfields]
  apply Changes.overFields_congr
  · intro f hmem
    exact Document.desiredValue_of_same (hdesired.spec f (hown f hmem))
  · intro f hmem
    exact hdesired.observedValue hobserved (hown f hmem)

theorem untouched_of_owned (hmember : desired.spec .cluster ≠ none) {f : InstanceField}
    (howned : f ∈ clusterOwned) :
    (desired.changes observed).touches (instanceSchema.path f) = false := by
  rw [← Bool.not_eq_true]
  intro htouches
  have hflagged := (Document.touches_path_iff desired observed f).1 htouches
  exact hmember ((flagged_iff_of_owned desired observed howned).1 hflagged).1

/-! ## Requests -/

/-- A request carries a field only if the changes touch it, so fields that they do not touch
may differ. -/
theorem SameOwn.request (hdesired : SameOwn desired desired') {changes : Changes}
    (huntouched : ∀ f ∈ clusterOwned, changes.touches (instanceSchema.path f) = false)
    (context : Context) :
    modifyForm.request context changes desired.spec observed.spec =
      modifyForm.request context changes desired'.spec observed'.spec := by
  have hidentifier : modifyForm.identifier desired.spec = modifyForm.identifier desired'.spec :=
    hdesired.spec .identifier (by decide)
  have hpassword : modifyForm.password desired.spec = modifyForm.password desired'.spec :=
    hdesired.spec .password (by decide)
  have hcarried : modifyForm.carried changes desired.spec observed.spec =
      modifyForm.carried changes desired'.spec observed'.spec := by
    funext f
    -- Neither request carries a field of the parent cluster; the others are the same twice.
    by_cases howned : f ∈ clusterOwned
    · rw [ModifyForm.carried, ModifyForm.carried, huntouched f howned]
      simp
    · rw [ModifyForm.carried, ModifyForm.carried, hdesired.spec f howned]
      rfl
  have hlogs : ∀ wish live, modifyForm.logsIfTouched changes wish live = none := by
    intro wish live
    exact if_neg (by simp [huntouched .logExports (by decide), modifyForm])
  rw [ModifyForm.request, ModifyForm.request, hidentifier, hcarried,
    ModifyForm.passwordIfTouched, ModifyForm.passwordIfTouched, hpassword, hlogs, hlogs]

end SameOwn

end Instance

/-- A member of a cluster, with two of the fields that the cluster owns. -/
def Document.sampleMember (instanceClass : String) (retention : Option Int64)
    (protection : Option Bool) : Document .dbInstance where
  metadata := .blank
  spec
    | .identifier => some "main"
    | .cluster => some "parent"
    | .instanceClass => some instanceClass
    | .backupRetention => retention
    | .deletionProtection => protection
    | f => instanceSchema.blank f
  status := ⟨some "arn:main", some "available", [], ⟨[], none⟩⟩

theorem Document.sameOwn_sampleMember (instanceClass : String) (retention retention' : Option Int64)
    (protection protection' : Option Bool) :
    Instance.SameOwn (sampleMember instanceClass retention protection)
      (sampleMember instanceClass retention' protection') where
  metadata := rfl
  status := rfl
  spec := by
    intro f hown
    cases f with
    | backupRetention => exact absurd (by decide) hown
    | deletionProtection => exact absurd (by decide) hown
    | _ => rfl

/-! ## Passes that cannot be told apart -/

/-- What a pass says beside the document: the decision and the conditions. -/
def Outcome.verdict {kind : Kind} (outcome : Outcome kind) : Decision × List Condition :=
  (outcome.decision, outcome.document.status.conditions)

namespace Pass

variable {β : Type} {kind : Kind}

/-- In every world the passes leave the same world behind, and they fail alike or come to the
same verdict. -/
def Alike (first second : Pass (Outcome kind)) : Prop :=
  ∀ world, (runIn world first).2 = (runIn world second).2 ∧
    (runIn world first).1.map Outcome.verdict = (runIn world second).1.map Outcome.verdict

/-- Every end of a pass revises the conditions of a document and decides. -/
theorem verdict_of_status {doc doc' : Document kind} (hstatus : doc.status = doc'.status)
    (revise : List Condition → List Condition) (decision : Decision) :
    (Outcome.mk (doc.mapConditions revise) decision).verdict =
      (Outcome.mk (doc'.mapConditions revise) decision).verdict := by
  simp only [Outcome.verdict, Document.mapConditions, hstatus]

theorem alike_pure {doc doc' : Document kind} (hstatus : doc.status = doc'.status)
    (revise : List Condition → List Condition) (decision : Decision) :
    Alike (pure ⟨doc.mapConditions revise, decision⟩)
      (pure ⟨doc'.mapConditions revise, decision⟩) := by
  intro world
  exact ⟨rfl, congrArg Except.ok (verdict_of_status hstatus revise decision)⟩

theorem alike_bind {pass : Pass β} {next next' : β → Pass (Outcome kind)}
    (hnext : ∀ b, Alike (next b) (next' b)) : Alike (pass >>= next) (pass >>= next') := by
  intro world
  rw [runIn_bind, runIn_bind]
  cases runIn world pass with
  | mk outcome middle =>
      cases outcome with
      | error failure => exact ⟨rfl, rfl⟩
      | ok b => exact hnext b middle

theorem alike_orAbandon {first second : Pass (Outcome kind)} (halike : Alike first second)
    (now : Moment) {doc doc' : Document kind} (hstatus : doc.status = doc'.status) :
    Alike (orAbandon now doc first) (orAbandon now doc' second) := by
  intro world
  obtain ⟨hworld, hverdict⟩ := halike world
  rw [runIn_orAbandon, runIn_orAbandon]
  refine ⟨hworld, ?_⟩
  simp only
  cases hfirst : (runIn world first).1 with
  | ok outcome =>
      cases hsecond : (runIn world second).1 with
      | ok other => rwa [hfirst, hsecond] at hverdict
      | error failure => simp [hfirst, hsecond, Except.map] at hverdict
  | error failure =>
      cases hsecond : (runIn world second).1 with
      | ok other => simp [hfirst, hsecond, Except.map] at hverdict
      | error other =>
          rw [hfirst, hsecond] at hverdict
          obtain rfl : failure = other := Except.error.inj hverdict
          -- Giving up at an obstacle is the only way that a failure becomes a document.
          cases failure with
          | obstacle o => exact congrArg Except.ok (verdict_of_status hstatus _ _)
          | _ => rfl

/-! ## Passes over a member -/

section Member

variable {context : Context} {desired desired' observed observed' : Document .dbInstance}
  {changes : Changes}

theorem alike_modifyInstance (hdesired : Instance.SameOwn desired desired')
    (hobserved : Instance.SameOwn observed observed')
    (huntouched : ∀ f ∈ Instance.clusterOwned,
      changes.touches (instanceSchema.path f) = false) :
    Alike (modifyInstance context desired observed changes)
      (modifyInstance context desired' observed' changes) := by
  have hrequest :
      Instance.modifyForm.request context changes desired.spec observed.spec =
        Instance.modifyForm.request context changes desired'.spec observed'.spec :=
    hdesired.request huntouched context
  have hstatus : ∀ path secret secret',
      ((desired.withStatusOf observed).withPasswordSent path secret changes).status =
        ((desired'.withStatusOf observed').withPasswordSent path secret' changes).status := by
    intro path secret secret'
    rw [withPasswordSent_status, withPasswordSent_status]
    exact hobserved.status
  rw [modifyInstance, modifyInstance, hrequest]
  apply alike_bind
  intro request
  apply alike_bind
  intro answer
  exact alike_pure (hstatus _ _ _) _ _

theorem alike_finishInstance (hdesired : Instance.SameOwn desired desired')
    (hobserved : Instance.SameOwn observed observed')
    (huntouched : ∀ f ∈ Instance.clusterOwned,
      changes.touches (instanceSchema.path f) = false) :
    Alike (finishInstance context desired observed changes)
      (finishInstance context desired' observed' changes) := by
  have hstatus : (desired.withStatusOf observed).status =
      (desired'.withStatusOf observed').status :=
    hobserved.status
  unfold finishInstance
  split
  · exact alike_modifyInstance hdesired hobserved huntouched
  · split
    · exact alike_pure hstatus _ _
    · exact alike_pure hstatus _ _

theorem alike_updateInstance (hdesired : Instance.SameOwn desired desired')
    (hobserved : Instance.SameOwn observed observed')
    (huntouched : ∀ f ∈ Instance.clusterOwned,
      changes.touches (instanceSchema.path f) = false)
    (hagree : Instance.wantsReplication desired.spec =
      !observed.status.detail.replications.isEmpty) :
    Alike (updateInstance context desired observed changes)
      (updateInstance context desired' observed' changes) := by
  have harn : arnOf observed' = arnOf observed := by
    rw [arnOf, arnOf, hobserved.status, hobserved.metadata]
  have htags : ∀ arn, updateTags arn desired' observed' changes =
      updateTags arn desired observed changes := by
    intro arn
    have hwish : desired.spec .tags = desired'.spec .tags := hdesired.spec .tags (by decide)
    have hlive : observed.spec .tags = observed'.spec .tags := hobserved.spec .tags (by decide)
    rw [updateTags, updateTags, Kind.tags, Kind.tags, Kind.tags, Kind.tags, hwish, hlive]
  have hwants : Instance.wantsReplication desired'.spec =
      Instance.wantsReplication desired.spec := by
    rw [Instance.wantsReplication, Instance.wantsReplication, hdesired.spec .replicated (by decide)]
  have hagree' : Instance.wantsReplication desired'.spec =
      !observed'.status.detail.replications.isEmpty := by
    rw [hwants, ← hobserved.status]
    exact hagree
  -- The start of replication would look at the retention of the backups.
  have hstep := fun arn => step_of_agreement context.settings arn hagree
  have hstep' := fun arn => step_of_agreement context.settings arn hagree'
  rw [updateInstance, updateInstance, harn]
  apply alike_bind
  intro arn
  rw [htags]
  apply alike_bind
  intro tagged
  rw [settleReplication, settleReplication, hstep, hstep']
  exact alike_finishInstance hdesired hobserved huntouched

theorem alike_settle (context : Context) (hdesired : Instance.SameOwn desired desired')
    (hobserved : Instance.SameOwn observed observed') (hmember : desired.spec .cluster ≠ none)
    (hagree : Instance.wantsReplication desired.spec =
      !observed.status.detail.replications.isEmpty) :
    Plan.of context.settings desired observed = Plan.of context.settings desired' observed' ∧
      Alike (settle context desired observed) (settle context desired' observed') := by
  have hnormal := hdesired.normal hobserved
  have hmember' : (desired.normal observed).spec .cluster ≠ none := hmember
  have hchanges := hnormal.changes hobserved hmember'
  have hplan : Plan.of context.settings desired observed =
      Plan.of context.settings desired' observed' := by
    rw [Plan.of, Plan.of, Plan.ofNormal, Plan.ofNormal, hchanges, hobserved.status]
  refine ⟨hplan, ?_⟩
  have hstatus := (hnormal.withStatusOf hobserved).status
  rw [settle, settle, ← hplan, follow, follow]
  cases (Plan.of context.settings desired observed).decision with
  | failTerminal reason => exact alike_pure hstatus _ _
  | retryAfter after reason => exact alike_pure hstatus _ _
  | proceed =>
      have hcleared := ((hnormal.withStatusOf hobserved).mapConditions
        Conditions.clearTerminal).status
      simp only
      unfold proceed
      split
      · exact alike_pure hcleared _ _
      · apply alike_orAbandon _ _ hcleared
        exact alike_updateInstance hnormal (hobserved.mapConditions _)
          (fun f howned => Instance.untouched_of_owned hmember' howned) hagree

/-- Members of a cluster ignore the fields that the cluster owns.  Passes over documents that
differ in nothing else plan the same changes, make the same calls with the same requests and
come to the same verdict or the same failure. -/
theorem member_ignores_owned_fields (context : Context) (world : World)
    (hdesired : Instance.SameOwn desired desired')
    (hobserved : Instance.SameOwn observed observed') (hmember : desired.spec .cluster ≠ none)
    (hagree : Instance.wantsReplication desired.spec =
      !observed.status.detail.replications.isEmpty) :
    Plan.of context.settings desired observed = Plan.of context.settings desired' observed' ∧
      calls world (settle context desired observed) =
        calls world (settle context desired' observed') ∧
      (runIn world (settle context desired observed)).2 =
        (runIn world (settle context desired' observed')).2 ∧
      (runIn world (settle context desired observed)).1.map Outcome.verdict =
        (runIn world (settle context desired' observed')).1.map Outcome.verdict := by
  obtain ⟨hplan, halike⟩ := alike_settle context hdesired hobserved hmember hagree
  obtain ⟨hworld, hverdict⟩ := halike world
  have hcalls : calls world (settle context desired observed) =
      calls world (settle context desired' observed') := by
    rw [calls, calls, hworld]
  exact ⟨hplan, hcalls, hworld, hverdict⟩

end Member

/-- A change of class goes out in one call, however the fields of the cluster look. -/
theorem class_change_of_member :
    ∃ request,
      calls (.initial (.memory .fresh))
          (settle .sample (Document.sampleMember "db.r6g.large" (some 7) (some true))
            (Document.sampleMember "db.t3.micro" (some 1) none)) = [.modifyInstance request] ∧
        calls (.initial (.memory .fresh))
          (settle .sample (Document.sampleMember "db.r6g.large" none (some false))
            (Document.sampleMember "db.t3.micro" (some 30) (some true))) =
          [.modifyInstance request] := by
  have hsame := member_ignores_owned_fields .sample (.initial (.memory .fresh))
    (Document.sameOwn_sampleMember "db.r6g.large" (some 7) none (some true) (some false))
    (Document.sameOwn_sampleMember "db.t3.micro" (some 1) (some 30) none (some true))
    (by decide) (by decide)
  have hcall : ∃ request,
      calls (.initial (.memory .fresh))
        (settle .sample (Document.sampleMember "db.r6g.large" (some 7) (some true))
          (Document.sampleMember "db.t3.micro" (some 1) none)) = [.modifyInstance request] :=
    ⟨_, rfl⟩
  obtain ⟨request, hrequest⟩ := hcall
  exact ⟨request, hrequest, hsame.2.1 ▸ hrequest⟩

end Pass
end DbSteward
