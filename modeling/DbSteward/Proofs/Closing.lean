import DbSteward.Proofs.Agreement
import DbSteward.Proofs.Effect
import DbSteward.Proofs.Normal

/-!
# Closing the loop

A second pass, over the document that the first one gave back and the live spec that its
calls left behind, finds exactly those of the first changes that no request can express.
Everything else is settled: tags, log types and the password by calls of their own kind, and
all other fields because a request carries what is compared.
-/

namespace DbSteward

namespace Document

/-- Where nothing changed beyond some fields, none of the others did. -/
theorem touches_eq_false_of_quiet {kind : Kind} {desired observed : Document kind}
    {fields : List kind.schema.Field}
    (hquiet : (desired.changes observed).touchesBeyond (fields.map kind.schema.path) = false)
    {f : kind.schema.Field} (hnot : f ∉ fields) :
    (desired.changes observed).touches (kind.schema.path f) = false := by
  rw [Bool.eq_false_iff]
  intro htouches
  rw [(touchesBeyond_paths_iff desired observed fields).2
    ⟨f, (touches_path_iff desired observed f).1 htouches, hnot⟩] at hquiet
  simp at hquiet

end Document

namespace Channels

/-! ## How calls show -/

section Compared

variable {S : Schema} (channels : Channels S) (a b : S.Record)

theorem tags_disagree :
    (Schema.Record.value a channels.tags.field).disagrees
        (Schema.Record.value b channels.tags.field) =
      !Tag.settled (channels.tags.get a) (channels.tags.get b) := by
  simp [Slot.value_field, FieldType.value, Value.disagrees]

theorem logs_disagree :
    (Schema.Record.value a channels.logs.field).disagrees
        (Schema.Record.value b channels.logs.field) =
      setDisagrees ((channels.logs.get a).getD []) ((channels.logs.get b).getD []) := by
  simp [Slot.value_field, FieldType.value, Value.disagrees]

end Compared

variable {kind : Kind} {channels : Channels kind.schema} {form : ModifyForm kind.schema}
  {toCall : Modification kind.schema → Call}

theorem tags_editCalls (arn : String) (edit : Tag.Edit) (live : kind.Spec) :
    channels.tags.get ((Pass.editCalls arn edit).foldl (afterCall kind channels) live) =
      Tag.writeAll (Tag.removeAll (channels.tags.get live) edit.removals) edit.writes := by
  unfold Pass.editCalls
  cases hremovals : edit.removals <;> cases hwrites : edit.writes <;>
    simp [afterCall_addTags, afterCall_removeTags, Tag.removeAll, Tag.writeAll]

theorem editCalls_apart {f : kind.schema.Field} (hne : f ≠ channels.tags.field) (arn : String)
    (edit : Tag.Edit) (live : kind.Spec) :
    (Pass.editCalls arn edit).foldl (afterCall kind channels) live f = live f := by
  unfold Pass.editCalls
  cases hremovals : edit.removals <;> cases hwrites : edit.writes <;>
    simp [afterCall_addTags, afterCall_removeTags, Slot.set_of_ne _ _ _ hne]

theorem KeepsTo.tags_tagCalls (hkeeps : KeepsTo kind channels form toCall) (arn : String)
    (desired observed : kind.Spec) (changes : Changes) :
    channels.tags.get
        ((Pass.tagCalls kind arn desired observed changes).foldl (afterCall kind channels)
          observed) =
      if changes.touches (kind.schema.path channels.tags.field) then
        Tag.afterEdit (channels.tags.get desired) (channels.tags.get observed)
      else channels.tags.get observed := by
  rw [Pass.tagCalls, hkeeps.tags_path, hkeeps.tags_eq]
  split
  · rw [tags_editCalls, Tag.afterEdit]
  · rfl

theorem tagCalls_apart {f : kind.schema.Field} (hne : f ≠ channels.tags.field) (arn : String)
    (desired observed : kind.Spec) (changes : Changes) :
    (Pass.tagCalls kind arn desired observed changes).foldl (afterCall kind channels) observed f =
      observed f := by
  unfold Pass.tagCalls
  split
  · rw [editCalls_apart hne]
  · rfl

theorem tags_ne_logs (channels : Channels kind.schema) :
    channels.tags.field ≠ channels.logs.field :=
  channels.tags.field_ne channels.logs FieldType.noConfusion

theorem logs_tagCalls (arn : String) (desired observed : kind.Spec) (changes : Changes) :
    channels.logs.get
        ((Pass.tagCalls kind arn desired observed changes).foldl (afterCall kind channels)
          observed) =
      channels.logs.get observed :=
  channels.logs.get_congr
    (tagCalls_apart channels.tags_ne_logs.symm arn desired observed changes)

theorem KeepsTo.not_delivers (hkeeps : KeepsTo kind channels form toCall)
    {changes : Changes} {desired observed : kind.Spec} {f : kind.schema.Field}
    (hmem : f ∈ [channels.tags.field, channels.password.field, channels.logs.field]) :
    ¬ channels.Delivers changes desired observed f := by
  rintro ⟨hbrings, -⟩
  rw [hkeeps.brings_apart desired observed f hmem] at hbrings
  simp at hbrings

/-! ## After a pass -/

/-- What a pass that went through made of the document and the live spec. -/
structure Settled (kind : Kind) (channels : Channels kind.schema) (desired : Document kind)
    (observed : kind.Spec) (changes : Changes) (document : Document kind) (live : kind.Spec) :
    Prop where
  spec_eq : document.spec = desired.spec
  secret_eq : document.metadata.annotations.lastAppliedSecret =
    if changes.touches (kind.schema.path channels.password.field) then
      SecretRef.textOf (channels.password.get desired.spec)
    else desired.metadata.annotations.lastAppliedSecret
  tags_eq : channels.tags.get live =
    if changes.touches (kind.schema.path channels.tags.field) then
      Tag.afterEdit (channels.tags.get desired.spec) (channels.tags.get observed)
    else channels.tags.get observed
  logs_settled : changes.touches (kind.schema.path channels.logs.field) = true →
    SameItems ((channels.logs.get live).getD []) ((channels.logs.get desired.spec).getD [])
  logs_kept : changes.touches (kind.schema.path channels.logs.field) = false →
    channels.logs.get live = channels.logs.get observed
  delivered : ∀ f, channels.Delivers changes desired.spec observed f → live f = desired.spec f
  kept : ∀ f, f ≠ channels.tags.field → f ≠ channels.logs.field →
    ¬ channels.Delivers changes desired.spec observed f → live f = observed f

/-- No request says anything of the fields that are left aside when a request is due. -/
theorem KeepsTo.settled (hkeeps : KeepsTo kind channels form toCall) {context : Context}
    {desired observed document : Document kind} {arn : String} {calls : List Call}
    {aside : List kind.schema.Field}
    (haside : ∀ f ∈ aside, f ≠ channels.password.field ∧ f ≠ channels.logs.field ∧
      channels.brings desired.spec observed.spec f = false)
    (hupdated : Pass.Updated kind form toCall context desired observed.spec
      (desired.changes observed) arn (aside.map kind.schema.path) calls document) :
    Settled kind channels desired observed.spec (desired.changes observed) document
      (calls.foldl (afterCall kind channels) observed.spec) := by
  cases hupdated with
  | tagged hbeyond hspec hmetadata =>
      have huntouched : ∀ f, f ∉ aside →
          (desired.changes observed).touches (kind.schema.path f) = false :=
        fun f => Document.touches_eq_false_of_quiet hbeyond
      refine
        { spec_eq := hspec
          secret_eq := ?_
          tags_eq := hkeeps.tags_tagCalls arn _ _ _
          logs_settled := ?_
          logs_kept := fun _ => logs_tagCalls arn _ _ _
          delivered := ?_
          kept := fun f htags _ _ => tagCalls_apart htags arn _ _ _ }
      · rw [huntouched _ fun hmem => (haside _ hmem).1 rfl, hmetadata]
        rfl
      · intro htouches
        rw [huntouched _ fun hmem => (haside _ hmem).2.1 rfl] at htouches
        simp at htouches
      · rintro f ⟨hbrings, htouches, -⟩
        rw [huntouched f] at htouches
        · simp at htouches
        · intro hmem
          rw [(haside f hmem).2.2] at hbrings
          simp at hbrings
  | @modified _ request hrequest hspec hmetadata =>
      have hconveys := ModifyForm.request_conveys hrequest
      have hlogs := hconveys.logs_eq
      rw [ModifyForm.logsIfTouched, hkeeps.logs_field, hkeeps.logs_eq] at hlogs
      rw [List.foldl_append, List.foldl_cons, List.foldl_nil, hkeeps.afterCall_toCall]
      refine
        { spec_eq := hspec
          secret_eq := ?_
          tags_eq := ?_
          logs_settled := ?_
          logs_kept := ?_
          delivered := ?_
          kept := ?_ }
      · rw [hmetadata, Document.withPasswordSent, hkeeps.password_field, hkeeps.password_eq]
        split
        · exact Annotations.lastAppliedSecret_withLastAppliedSecret _ _
        · rfl
      · rw [← hkeeps.tags_tagCalls arn desired.spec observed.spec]
        refine channels.tags.get_congr ?_
        rw [Slot.set_of_ne _ _ _ channels.tags_ne_logs,
          hkeeps.writeOver_of_not_delivers hconveys (hkeeps.not_delivers (by simp))]
      · intro htouches
        rw [Slot.get_set, hlogs, if_pos htouches, logs_tagCalls]
        exact LogExports.sameItems_applyTo_between _ _
      · intro htouches
        rw [Slot.get_set, hlogs, htouches, logs_tagCalls]
        rfl
      · intro f hdelivers
        have hne : f ≠ channels.logs.field := by
          rintro rfl
          exact hkeeps.not_delivers (by simp) hdelivers
        rw [Slot.set_of_ne _ _ _ hne]
        exact hkeeps.writeOver_of_delivers hconveys hdelivers _
      · intro f htags hlogsNe hnot
        rw [Slot.set_of_ne _ _ _ hlogsNe, hkeeps.writeOver_of_not_delivers hconveys hnot]
        exact tagCalls_apart htags arn _ _ _

end Channels

/-! ## What is left to a second pass -/

namespace Document

variable {kind : Kind}

theorem agrees_of_untouched {desired observed : Document kind} {f : kind.schema.Field}
    (hmem : f ∈ desired.comparedFields)
    (huntouched : (desired.changes observed).touches (kind.schema.path f) = false) :
    (desired.desiredValue f).disagrees (desired.observedValue observed f) = false := by
  rw [← Bool.not_eq_true]
  intro hdisagrees
  rw [(touches_path_iff desired observed f).2 ⟨hmem, hdisagrees⟩] at huntouched
  simp at huntouched

/-- A second comparison that repeats the first one in some fields and finds nothing in the
others leaves the differences in those fields. -/
theorem differences_eq_filter {first observed second live : Document kind}
    {stays : kind.schema.Field → Bool}
    (hfields : second.comparedFields = first.comparedFields)
    (hstays : ∀ f ∈ first.comparedFields, stays f = true →
      second.desiredValue f = first.desiredValue f ∧
        second.observedValue live f = first.observedValue observed f)
    (hgoes : ∀ f ∈ first.comparedFields, stays f = false →
      (second.desiredValue f).disagrees (second.observedValue live f) = false) :
    (second.changes live).differences =
      (first.changes observed).differences.filter fun d =>
        kind.schema.fields.any fun f => stays f && Path.covers (kind.schema.path f) d.path := by
  rw [changes_differences, changes_differences, hfields, Changes.differencesOver,
    Changes.differencesOver, List.filter_flatMap]
  refine List.flatMap_congr fun f hmem => ?_
  cases hf : stays f with
  | true =>
      obtain ⟨hdesired, hobserved⟩ := hstays f hmem hf
      rw [hdesired, hobserved]
      symm
      rw [List.filter_eq_self]
      intro d hd
      refine List.any_eq_true.2 ⟨f, kind.schema_lawful.mem_fields f, ?_⟩
      rw [hf, Changes.covers_of_mem_differencesAt (paired_values first observed f) hd]
      rfl
  | false =>
      rw [(Changes.differencesAt_eq_nil (paired_values second live f)).2 (hgoes f hmem hf)]
      symm
      rw [List.filter_eq_nil_iff]
      intro d hd hany
      obtain ⟨g, -, hg⟩ := List.any_eq_true.1 hany
      rw [Bool.and_eq_true] at hg
      have hcovers := Changes.covers_of_mem_differencesAt (paired_values first observed f) hd
      rw [kind.schema_lawful.eq_of_covers hg.2 hcovers, hf] at hg
      simp at hg

end Document

namespace Channels

variable {kind : Kind} {channels : Channels kind.schema} {form : ModifyForm kind.schema}
  {toCall : Modification kind.schema → Call}

theorem Settled.eq_or_eq {desired document : Document kind} {observed live : kind.Spec}
    {changes : Changes}
    (hsettled : Settled kind channels desired observed changes document live)
    {f : kind.schema.Field} (htags : f ≠ channels.tags.field)
    (hlogs : f ≠ channels.logs.field) : live f = observed f ∨ live f = desired.spec f := by
  by_cases hdelivers : channels.Delivers changes desired.spec observed f
  · exact .inr (hsettled.delivered f hdelivers)
  · exact .inl (hsettled.kept f htags hlogs hdelivers)

namespace Settled

variable {first observed document second live : Document kind}

section Agree

variable (hsettled : Settled kind channels first observed.spec (first.changes observed) document
  live.spec)

include hsettled

theorem secret_agrees (hmem : channels.password.field ∈ first.comparedFields)
    (hdesired : first.desiredValue channels.password.field =
      .ofText (some (SecretRef.textOf (channels.password.get first.spec))))
    (hobserved : first.observedValue observed channels.password.field =
      .ofText (some first.metadata.annotations.lastAppliedSecret)) :
    SecretRef.textOf (channels.password.get first.spec) =
      document.metadata.annotations.lastAppliedSecret := by
  rw [hsettled.secret_eq]
  split
  · rfl
  · rename_i huntouched
    have hagrees := Document.agrees_of_untouched hmem (Bool.eq_false_iff.2 huntouched)
    rw [hdesired, hobserved, ← Bool.not_eq_true, Value.ofText_disagrees, not_not] at hagrees
    exact Option.some.inj hagrees

theorem tags_agree (hmem : channels.tags.field ∈ first.comparedFields)
    (hdesired : first.desiredValue channels.tags.field =
      Schema.Record.value first.spec channels.tags.field)
    (hobserved : first.observedValue observed channels.tags.field =
      Schema.Record.value observed.spec channels.tags.field)
    (hfirst : Tag.DistinctKeys (channels.tags.get first.spec))
    (hold : Tag.DistinctKeys (channels.tags.get observed.spec)) :
    Tag.settled (channels.tags.get first.spec) (channels.tags.get live.spec) = true := by
  rw [hsettled.tags_eq]
  split
  · exact Tag.settled_afterEdit hfirst hold
  · rename_i huntouched
    have hagrees := Document.agrees_of_untouched hmem (Bool.eq_false_iff.2 huntouched)
    rw [hdesired, hobserved, channels.tags_disagree] at hagrees
    simpa using hagrees

theorem logs_agree (hmem : channels.logs.field ∈ first.comparedFields)
    (hdesired : first.desiredValue channels.logs.field =
      Schema.Record.value first.spec channels.logs.field)
    (hobserved : first.observedValue observed channels.logs.field =
      Schema.Record.value observed.spec channels.logs.field) :
    setDisagrees ((channels.logs.get first.spec).getD [])
      ((channels.logs.get live.spec).getD []) = false := by
  cases hchanged : (first.changes observed).touches (kind.schema.path channels.logs.field) with
  | true =>
      rw [← Bool.not_eq_true, setDisagrees_iff, not_not]
      exact fun log => (hsettled.logs_settled hchanged log).symm
  | false =>
      rw [hsettled.logs_kept hchanged, ← channels.logs_disagree, ← hdesired, ← hobserved]
      exact Document.agrees_of_untouched hmem hchanged

theorem field_agrees {f : kind.schema.Field} (hmem : f ∈ first.comparedFields)
    (htags : f ≠ channels.tags.field) (hlogs : f ≠ channels.logs.field)
    (htype : kind.schema.type f ≠ .tags)
    (hbrings : channels.brings first.spec observed.spec f = true)
    (hpresent : (kind.schema.type f).isAbsent (first.spec f) = false)
    (hdesired : first.desiredValue f = Schema.Record.value first.spec f)
    (hobserved : first.observedValue observed f = Schema.Record.value observed.spec f) :
    (Schema.Record.value first.spec f).disagrees (Schema.Record.value live.spec f) = false := by
  cases hchanged : (first.changes observed).touches (kind.schema.path f) with
  | true =>
      rw [Schema.Record.value, Schema.Record.value,
        hsettled.delivered f ⟨hbrings, hchanged, hpresent⟩]
      exact FieldType.agrees_self htype (first.spec f)
  | false =>
      have hnot : ¬ channels.Delivers (first.changes observed) first.spec observed.spec f := by
        rintro ⟨-, hdelivered, -⟩
        rw [hchanged] at hdelivered
        simp at hdelivered
      have hvalue : Schema.Record.value live.spec f = Schema.Record.value observed.spec f := by
        rw [Schema.Record.value, Schema.Record.value, hsettled.kept f htags hlogs hnot]
      rw [hvalue, ← hdesired, ← hobserved]
      exact Document.agrees_of_untouched hmem hchanged

end Agree

/-- The field is compared as it stands, in both passes. -/
def Plain (first observed second live : Document kind) (f : kind.schema.Field) : Prop :=
  first.desiredValue f = Schema.Record.value first.spec f ∧
    first.observedValue observed f = Schema.Record.value observed.spec f ∧
    second.observedValue live f = Schema.Record.value live.spec f

/-- The second pass finds the differences of the first one in the fields that no request can
express, and no others. -/
theorem differences_eq_filter (hkeeps : KeepsTo kind channels form toCall)
    (hsettled : Settled kind channels first observed.spec (first.changes observed) document
      live.spec)
    (hfirst : Tag.DistinctKeys (channels.tags.get first.spec))
    (hold : Tag.DistinctKeys (channels.tags.get observed.spec))
    (hfields : second.comparedFields = first.comparedFields)
    (hdesired : ∀ f, second.desiredValue f = first.desiredValue f)
    (hsecret : first.desiredValue channels.password.field =
        .ofText (some (SecretRef.textOf (channels.password.get first.spec))) ∧
      first.observedValue observed channels.password.field =
        .ofText (some first.metadata.annotations.lastAppliedSecret) ∧
      second.observedValue live channels.password.field =
        .ofText (some document.metadata.annotations.lastAppliedSecret))
    (hplain : ∀ f, f ≠ channels.password.field →
      Plain first observed second live f ∨
        channels.unsent first.spec observed.spec f = true ∧
          second.observedValue live f = first.observedValue observed f) :
    (second.changes live).differences =
      (first.changes observed).differences.filter fun d =>
        kind.schema.fields.any fun f => channels.unsent first.spec observed.spec f &&
          Path.covers (kind.schema.path f) d.path := by
  refine Document.differences_eq_filter hfields ?_ ?_
  · intro f hmem hunsent
    obtain ⟨htags, hpassword, hlogs, hnothing⟩ := unsent_iff.1 hunsent
    refine ⟨hdesired f, ?_⟩
    rcases hplain f hpassword with ⟨-, hobserved, hlive⟩ | ⟨-, hsame⟩
    · have hnot : ¬ channels.Delivers (first.changes observed) first.spec observed.spec f := by
        rintro ⟨hbrings, -, hpresent⟩
        rcases hnothing with hunsends | habsent
        · rw [hbrings] at hunsends
          simp at hunsends
        · rw [hpresent] at habsent
          simp at habsent
      rw [hlive, hobserved, Schema.Record.value, hsettled.kept f htags hlogs hnot]
      rfl
    · exact hsame
  · intro f hmem hunsent
    rw [hdesired f]
    by_cases hpassword : f = channels.password.field
    · subst hpassword
      rw [hsecret.1, hsecret.2.2, hsettled.secret_agrees hmem hsecret.1 hsecret.2.1,
        ← Bool.not_eq_true, Value.ofText_disagrees, not_not]
    · rcases hplain f hpassword with ⟨hvalue, hobserved, hlive⟩ | ⟨hother, -⟩
      · rw [hvalue, hlive]
        by_cases htags : f = channels.tags.field
        · subst htags
          rw [channels.tags_disagree, hsettled.tags_agree hmem hvalue hobserved hfirst hold]
          rfl
        · by_cases hlogs : f = channels.logs.field
          · subst hlogs
            rw [channels.logs_disagree, hsettled.logs_agree hmem hvalue hobserved]
          · have hboth : channels.brings first.spec observed.spec f = true ∧
                (kind.schema.type f).isAbsent (first.spec f) = false := by
              rw [← Bool.not_eq_true, unsent_iff] at hunsent
              constructor
              · by_contra hbrings
                exact hunsent ⟨htags, hpassword, hlogs, .inl (by simpa using hbrings)⟩
              · by_contra hpresent
                exact hunsent ⟨htags, hpassword, hlogs, .inr (by simpa using hpresent)⟩
            exact hsettled.field_agrees hmem htags hlogs
              (fun htype => htags (hkeeps.tags_only f htype)) hboth.1 hboth.2 hvalue hobserved
      · rw [hother] at hunsent
        simp at hunsent

end Settled

end Channels

/-! ## Two passes -/

/-- An available instance whose backups are replicated, as desired, to one other region. -/
def Document.sampleMirrored (engine instanceClass : String) : Document .dbInstance where
  metadata := .blank
  spec
    | .identifier => some "main"
    | .engine => some engine
    | .instanceClass => some instanceClass
    | .replicated => some true
    | f => instanceSchema.blank f
  status := ⟨some "arn:main", some "available", [], ⟨[some "arn:copy"], none⟩⟩

namespace Pass

def clusterAfter (observed : Document .dbCluster) (calls : List Call) : Document .dbCluster :=
  { observed with
    spec := calls.foldl (Channels.afterCall .dbCluster Cluster.channels) observed.spec }

def instanceAfter (observed : Document .dbInstance) (calls : List Call) :
    Document .dbInstance :=
  { observed with
    spec := calls.foldl (Channels.afterCall .dbInstance Instance.channels) observed.spec }

theorem exists_outcome_of_decision {kind : Kind} {result : Except Failure (Outcome kind)}
    {decision : Decision}
    (hdecision : result.toOption.map (·.decision) = some decision) :
    ∃ outcome, result = .ok outcome ∧ outcome.decision = decision := by
  cases result with
  | error failure => simp [Except.toOption] at hdecision
  | ok outcome => exact ⟨outcome, rfl, Option.some.inj hdecision⟩

theorem cluster_second_pass {context : Context} {world after : World}
    {desired observed : Document .dbCluster} {outcome : Outcome .dbCluster}
    (hrun : runIn world (settle context desired observed) = (.ok outcome, after))
    (hdecision : outcome.decision = .proceed) (hdesired : Tag.DistinctKeys (desired.spec .tags))
    (hobserved : Tag.DistinctKeys (observed.spec .tags)) :
    (Plan.of context.settings outcome.document (clusterAfter observed
        (calls world (settle context desired observed)))).changes.differences =
      (Plan.of context.settings desired observed).changes.differences.filter fun d =>
        clusterSchema.fields.any fun f =>
          Cluster.channels.unsent (desired.normal observed).spec observed.spec f &&
            Path.covers (clusterSchema.path f) d.path := by
  obtain ⟨arn, hupdated⟩ := settle_cluster_updated hrun hdecision
  have haside : ∀ f ∈ [ClusterField.tags], f ≠ .password ∧ f ≠ .logExports ∧
      Cluster.brings (desired.normal observed).spec observed.spec f = false := by
    intro f hmem
    obtain rfl := List.mem_singleton.1 hmem
    exact ⟨by decide, by decide, rfl⟩
  have hsettled := Cluster.keepsTo_channels.settled haside hupdated
  have hversion := hsettled.eq_or_eq (f := ClusterField.engineVersion) (by decide) (by decide)
  have hspec : (outcome.document.normal
      (clusterAfter observed (calls world (settle context desired observed)))).spec =
        (desired.normal observed).spec := by
    show Cluster.normal outcome.document.spec _ = _
    rw [hsettled.spec_eq]
    exact Cluster.normal_normal hversion
  have htags : (desired.normal observed).spec .tags = desired.spec .tags :=
    Cluster.normal_of_ne (by decide)
  refine hsettled.differences_eq_filter Cluster.keepsTo_channels ?_ hobserved rfl ?_
    ⟨rfl, rfl, rfl⟩ ?_
  · show Tag.DistinctKeys ((desired.normal observed).spec .tags)
    rw [htags]
    exact hdesired
  · intro f
    show Schema.Record.value _ f = Schema.Record.value _ f
    rw [hspec]
  · intro f hne
    exact .inl ⟨rfl, if_neg hne, if_neg hne⟩

theorem settled_instance {context : Context} {world after : World}
    {desired observed : Document .dbInstance} {outcome : Outcome .dbInstance}
    (hstep : ∀ arn, Replication.step context.settings (replicationIntent desired)
      (replicationObservation arn observed) = .ok .nothing)
    (hrun : runIn world (settle context desired observed) = (.ok outcome, after))
    (hdecision : outcome.decision = .proceed) :
    Channels.Settled .dbInstance Instance.channels (desired.normal observed) observed.spec
      ((desired.normal observed).changes observed) outcome.document
      (instanceAfter observed (calls world (settle context desired observed))).spec := by
  obtain ⟨arn, hupdated⟩ := settle_instance_updated hstep hrun hdecision
  have haside : ∀ f ∈ [InstanceField.tags, .replicated], f ≠ .password ∧ f ≠ .logExports ∧
      Instance.plainlySent.contains f = false := by decide
  exact Instance.keepsTo_channels.settled haside hupdated

theorem instance_second_pass {context : Context} {world after : World}
    {desired observed : Document .dbInstance} {outcome : Outcome .dbInstance}
    (hagree : Instance.wantsReplication desired.spec =
      !observed.status.detail.replications.isEmpty)
    (hrun : runIn world (settle context desired observed) = (.ok outcome, after))
    (hdecision : outcome.decision = .proceed) (hdesired : Tag.DistinctKeys (desired.spec .tags))
    (hobserved : Tag.DistinctKeys (observed.spec .tags)) :
    (Plan.of context.settings outcome.document (instanceAfter observed
        (calls world (settle context desired observed)))).changes.differences =
      (Plan.of context.settings desired observed).changes.differences.filter fun d =>
        instanceSchema.fields.any fun f =>
          Instance.channels.unsent (desired.normal observed).spec observed.spec f &&
            Path.covers (instanceSchema.path f) d.path := by
  have hsettled := settled_instance (fun arn => step_of_agreement context.settings arn hagree)
    hrun hdecision
  have hfilled : ∀ f ∈ [InstanceField.zone, .backupTarget, .networkType, .performanceInsights,
      .engineVersion], f ≠ .tags ∧ f ≠ .logExports := by decide
  have hspec : (outcome.document.normal
      (instanceAfter observed (calls world (settle context desired observed)))).spec =
        (desired.normal observed).spec := by
    show Instance.normal outcome.document.spec _ = _
    rw [hsettled.spec_eq]
    exact Instance.normal_normal fun f hf =>
      hsettled.eq_or_eq (hfilled f hf).1 (hfilled f hf).2
  refine hsettled.differences_eq_filter Instance.keepsTo_channels hdesired hobserved ?_ ?_
    ⟨rfl, rfl, rfl⟩ ?_
  · simp only [Document.comparedFields, hspec]
  · intro f
    simp only [Document.desiredValue, Instance.desiredValue, hspec]
  · intro f hne
    by_cases hreplicated : f = .replicated
    · subst hreplicated
      exact .inr ⟨rfl, rfl⟩
    · have hvalue (doc live : Document .dbInstance) :
          doc.observedValue live f = Schema.Record.value live.spec f :=
        (if_neg hne).trans (if_neg hreplicated)
      exact .inl ⟨if_neg hreplicated, hvalue _ _, hvalue _ _⟩

/-- A second pass over what the first one gave back and left behind finds exactly those paths
of the first changes that no request can express. -/
theorem second_pass_changes (context : Context) (world : World) :
    (∀ (desired observed : Document .dbCluster) (outcome : Outcome .dbCluster),
      (runIn world (settle context desired observed)).1 = .ok outcome →
      outcome.decision = .proceed →
      Tag.DistinctKeys (desired.spec .tags) → Tag.DistinctKeys (observed.spec .tags) →
      (Plan.of context.settings outcome.document
          (clusterAfter observed (calls world (settle context desired observed)))).changes.paths =
        (Plan.of context.settings desired observed).changes.paths.filter fun path =>
          clusterSchema.fields.any fun f =>
            Cluster.channels.unsent (desired.normal observed).spec observed.spec f &&
              Path.covers (clusterSchema.path f) path) ∧
    (∀ (desired observed : Document .dbInstance) (outcome : Outcome .dbInstance),
      Instance.wantsReplication desired.spec = !observed.status.detail.replications.isEmpty →
      (runIn world (settle context desired observed)).1 = .ok outcome →
      outcome.decision = .proceed →
      Tag.DistinctKeys (desired.spec .tags) → Tag.DistinctKeys (observed.spec .tags) →
      (Plan.of context.settings outcome.document
          (instanceAfter observed (calls world (settle context desired observed)))).changes.paths =
        (Plan.of context.settings desired observed).changes.paths.filter fun path =>
          instanceSchema.fields.any fun f =>
            Instance.channels.unsent (desired.normal observed).spec observed.spec f &&
              Path.covers (instanceSchema.path f) path) := by
  constructor
  · intro desired observed outcome hresult hdecision hdesired hobserved
    have hrun : runIn world (settle context desired observed) =
        (.ok outcome, (runIn world (settle context desired observed)).2) :=
      Prod.ext hresult rfl
    rw [Changes.paths, cluster_second_pass hrun hdecision hdesired hobserved, Changes.paths,
      List.filter_map]
    rfl
  · intro desired observed outcome hagree hresult hdecision hdesired hobserved
    have hrun : runIn world (settle context desired observed) =
        (.ok outcome, (runIn world (settle context desired observed)).2) :=
      Prod.ext hresult rfl
    rw [Changes.paths, instance_second_pass hagree hrun hdecision hdesired hobserved,
      Changes.paths, List.filter_map]
    rfl

/-- The port and the tags of a cluster are settled, and its engine mode stays different.  The
class of an instance that is replicated as desired is settled, and its engine stays different. -/
theorem second_pass_finds_mode_and_engine :
    (∃ outcome, (runIn (.initial (.memory .fresh)) (settle .sample
          (.sampleCluster "serverless" 5433 [⟨"team", some "a"⟩] none none)
          (.sampleCluster "provisioned" 5432 [⟨"old", none⟩] (some "arn:main")
            (some "available")))).1 = .ok outcome ∧
      (Plan.of .standard outcome.document (clusterAfter
          (.sampleCluster "provisioned" 5432 [⟨"old", none⟩] (some "arn:main")
            (some "available"))
          (calls (.initial (.memory .fresh)) (settle .sample
            (.sampleCluster "serverless" 5433 [⟨"team", some "a"⟩] none none)
            (.sampleCluster "provisioned" 5432 [⟨"old", none⟩] (some "arn:main")
              (some "available")))))).changes.paths = ["Spec.EngineMode"]) ∧
    ∃ outcome, (runIn (.initial (.memory .fresh)) (settle .sample
          (.sampleMirrored "mysql" "db.large") (.sampleMirrored "postgres" "db.small"))).1 =
        .ok outcome ∧
      (Plan.of .standard (.sampleMirrored "mysql" "db.large")
        (.sampleMirrored "postgres" "db.small")).changes.paths =
          ["Spec.DBInstanceClass", "Spec.Engine"] ∧
      (Plan.of .standard outcome.document (instanceAfter (.sampleMirrored "postgres" "db.small")
          (calls (.initial (.memory .fresh)) (settle .sample
            (.sampleMirrored "mysql" "db.large")
            (.sampleMirrored "postgres" "db.small"))))).changes.paths = ["Spec.Engine"] := by
  constructor
  · have hproceeds : (runIn (.initial (.memory .fresh)) (settle .sample
        (.sampleCluster "serverless" 5433 [⟨"team", some "a"⟩] none none)
        (.sampleCluster "provisioned" 5432 [⟨"old", none⟩] (some "arn:main")
          (some "available")))).1.toOption.map (·.decision) = some .proceed := by
      decide +kernel
    obtain ⟨outcome, hresult, hdecision⟩ := exists_outcome_of_decision hproceeds
    refine ⟨outcome, hresult, ?_⟩
    refine ((second_pass_changes _ _).1 _ _ outcome hresult hdecision ?_ ?_).trans ?_
    · decide
    · decide
    · decide +kernel
  · have hproceeds : (runIn (.initial (.memory .fresh)) (settle .sample
        (.sampleMirrored "mysql" "db.large")
        (.sampleMirrored "postgres" "db.small"))).1.toOption.map (·.decision) =
          some .proceed := by
      decide +kernel
    obtain ⟨outcome, hresult, hdecision⟩ := exists_outcome_of_decision hproceeds
    refine ⟨outcome, hresult, by decide +kernel, ?_⟩
    refine ((second_pass_changes _ _).2 _ _ outcome rfl hresult hdecision ?_ ?_).trans ?_
    · decide
    · decide
    · decide +kernel

end Pass

end DbSteward
