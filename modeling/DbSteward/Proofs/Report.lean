import DbSteward.Proofs.Comparison
import Mathlib.Data.List.Flatten

/-!
# What a plan reports

A plan reports every attribute in which the desired document, with what it leaves to the
service filled in, differs from the observed one, and nothing else.  The report of a kind has
one fixed order, which no document changes: the fields of the schema as they are compared,
then the password, the fields of a parent cluster and the replication of backups.
-/

namespace DbSteward

namespace Schema

/-- The paths that a field can be reported at.  A capacity range is reported as a whole or
bound by bound. -/
def reportPaths (S : Schema) (f : S.Field) : List String :=
  if S.type f = .scaling then
    [S.path f, Path.below (S.path f) "MaxCapacity", Path.below (S.path f) "MinCapacity"]
  else [S.path f]

end Schema

namespace Kind

/-- The fields that a kind can report, in order. -/
def reportFields : (kind : Kind) → List kind.schema.Field
  | .dbCluster => clusterSchema.compared ++ [.password]
  | .dbInstance =>
      instanceSchema.compared ++ [.password] ++ Instance.clusterOwned ++ [.replicated]
  | .parameterGroup _ => parameterGroupSchema.compared
  | .subnetGroup => subnetGroupSchema.compared
  | .snapshot _ => snapshotSchema.compared

def reportOrder (kind : Kind) : List String :=
  kind.reportFields.flatMap kind.schema.reportPaths

theorem reportOrder_nodup (kind : Kind) : kind.reportOrder.Nodup := by
  cases kind with
  | dbCluster => exact (by decide +kernel : (reportOrder .dbCluster).Nodup)
  | dbInstance => exact (by decide +kernel : (reportOrder .dbInstance).Nodup)
  | parameterGroup scope =>
      exact (by decide +kernel :
        (parameterGroupSchema.compared.flatMap parameterGroupSchema.reportPaths).Nodup)
  | subnetGroup => exact (by decide +kernel : (reportOrder .subnetGroup).Nodup)
  | snapshot scope =>
      exact (by decide +kernel :
        (snapshotSchema.compared.flatMap snapshotSchema.reportPaths).Nodup)

end Kind

/-- A difference between a desired and an observed document that a plan has to report, with
the observed value as the old one and the desired value as the new one. -/
inductive Reported : {kind : Kind} → Document kind → Document kind → Difference → Prop where
  | field {kind : Kind} {desired observed : Document kind} {f : kind.schema.Field}
      (hcompared : f ∈ kind.schema.compared) (htype : kind.schema.type f ≠ .scaling)
      (hdiffers : (kind.schema.type f).Differs (desired.spec f) (observed.spec f)) :
      Reported desired observed
        ⟨kind.schema.path f, Schema.Record.value observed.spec f,
          Schema.Record.value desired.spec f⟩
  /-- A capacity range on one side only is reported as a whole. -/
  | range {desired observed : Document .dbCluster}
      (hmissing : (desired.spec .scaling).isSome ≠ (observed.spec .scaling).isSome) :
      Reported desired observed
        ⟨clusterSchema.path .scaling, Schema.Record.value observed.spec .scaling,
          Schema.Record.value desired.spec .scaling⟩
  | mostCapacity {desired observed : Document .dbCluster} {wish live : Scaling}
      (hdesired : desired.spec .scaling = some wish)
      (hobserved : observed.spec .scaling = some live)
      (hdiffers : ¬ Option.Rel (fun a b => Binary64.same a b = true) wish.most live.most) :
      Reported desired observed
        ⟨Path.below (clusterSchema.path .scaling) "MaxCapacity", .ofReal live.most,
          .ofReal wish.most⟩
  | leastCapacity {desired observed : Document .dbCluster} {wish live : Scaling}
      (hdesired : desired.spec .scaling = some wish)
      (hobserved : observed.spec .scaling = some live)
      (hdiffers : ¬ Option.Rel (fun a b => Binary64.same a b = true) wish.least live.least) :
      Reported desired observed
        ⟨Path.below (clusterSchema.path .scaling) "MinCapacity", .ofReal live.least,
          .ofReal wish.least⟩
  | clusterPassword {desired observed : Document .dbCluster}
      (hdiffers : SecretRef.textOf (desired.spec .password) ≠
        desired.metadata.annotations.lastAppliedSecret) :
      Reported desired observed
        ⟨clusterSchema.path .password,
          .ofText (some desired.metadata.annotations.lastAppliedSecret),
          .ofText (some (SecretRef.textOf (desired.spec .password)))⟩
  | instancePassword {desired observed : Document .dbInstance}
      (hdiffers : SecretRef.textOf (desired.spec .password) ≠
        desired.metadata.annotations.lastAppliedSecret) :
      Reported desired observed
        ⟨instanceSchema.path .password,
          .ofText (some desired.metadata.annotations.lastAppliedSecret),
          .ofText (some (SecretRef.textOf (desired.spec .password)))⟩
  /-- What a parent cluster owns counts only for an instance without one. -/
  | clusterOwned {desired observed : Document .dbInstance} {f : InstanceField}
      (howned : f ∈ Instance.clusterOwned) (hstandalone : desired.spec .cluster = none)
      (hdiffers : (instanceSchema.type f).Differs (desired.spec f) (observed.spec f)) :
      Reported desired observed
        ⟨instanceSchema.path f, Schema.Record.value observed.spec f,
          Schema.Record.value desired.spec f⟩
  | replicated {desired observed : Document .dbInstance}
      (hdiffers : (desired.spec .replicated).getD false ≠
        !observed.status.detail.replications.isEmpty) :
      Reported desired observed
        ⟨instanceSchema.path .replicated,
          .ofFlag (some !observed.status.detail.replications.isEmpty),
          .ofFlag (some ((desired.spec .replicated).getD false))⟩

namespace Changes

/-! ## The entries of one field -/

theorem differencesAt_of_type {S : Schema} {f : S.Field} (htype : S.type f ≠ .scaling)
    (path : String) (desired : S.Record) (observed : Value) :
    differencesAt path (Schema.Record.value desired f) observed =
      plainDifferencesAt path (Schema.Record.value desired f) observed :=
  differencesAt_plain (fun _ _ h => FieldType.value_ne_object htype (desired f) _ h.1) path

theorem mem_differencesAt_of_plain {S : Schema} {desired observed : S.Record} {f : S.Field}
    (htype : S.type f ≠ .scaling) {d : Difference} :
    d ∈ differencesAt (S.path f) (Schema.Record.value desired f)
        (Schema.Record.value observed f) ↔
      (S.type f).Differs (desired f) (observed f) ∧
        d = ⟨S.path f, Schema.Record.value observed f, Schema.Record.value desired f⟩ := by
  rw [differencesAt_of_type htype, mem_plainDifferencesAt, ← FieldType.disagrees_iff]
  rfl

theorem mem_differencesAt_ofText {path : String} {wish live : String} {d : Difference} :
    d ∈ differencesAt path (.ofText (some wish)) (.ofText (some live)) ↔
      wish ≠ live ∧ d = ⟨path, .ofText (some live), .ofText (some wish)⟩ := by
  have hvalues := Value.ofText_disagrees (some wish) (some live)
  rw [Ne, Option.some.injEq] at hvalues
  rw [differencesAt_plain (by simp [Value.ofText]), mem_plainDifferencesAt, hvalues]

theorem mem_differencesAt_ofFlag {path : String} {wish live : Bool} {d : Difference} :
    d ∈ differencesAt path (.ofFlag (some wish)) (.ofFlag (some live)) ↔
      wish ≠ live ∧ d = ⟨path, .ofFlag (some live), .ofFlag (some wish)⟩ := by
  have hvalues := Value.ofFlag_disagrees (some wish) (some live)
  rw [Ne, Option.some.injEq] at hvalues
  rw [differencesAt_plain (by simp [Value.ofFlag]), mem_plainDifferencesAt, hvalues]

theorem mem_plainDifferencesAt_ofReal {path : String} {wish live : Option Binary64}
    {d : Difference} :
    d ∈ plainDifferencesAt path (.ofReal wish) (.ofReal live) ↔
      ¬ Option.Rel (fun a b => Binary64.same a b = true) wish live ∧
        d = ⟨path, .ofReal live, .ofReal wish⟩ := by
  rw [mem_plainDifferencesAt, ← Value.ofReal_disagrees_eq_false, Bool.not_eq_false]

/-- The paths of a field are reported in their order, each at most once. -/
theorem paths_differencesAt_sublist {S : Schema} {f : S.Field} {desired observed : Value}
    (hpaired : Value.Paired desired observed)
    (hrange : ∀ a, desired = .object a → S.type f = .scaling) :
    ((differencesAt (S.path f) desired observed).map Difference.path).Sublist
      (S.reportPaths f) := by
  have hone : ∀ path (left right : Value),
      ((plainDifferencesAt path left right).map Difference.path).Sublist [path] := by
    intro path left right
    unfold plainDifferencesAt
    split <;> simp
  cases hpaired with
  | plain hplain =>
      have hhead : [S.path f].Sublist (S.reportPaths f) := by
        unfold Schema.reportPaths
        split <;> simp
      rw [differencesAt_plain hplain]
      exact (hone _ _ _).trans hhead
  | scaling wish live =>
      have hpaths : S.reportPaths f = [S.path f] ++ ([Path.below (S.path f) "MaxCapacity"] ++
          [Path.below (S.path f) "MinCapacity"]) :=
        if_pos (hrange _ rfl)
      rw [differencesAt_scaling, List.map_append, hpaths]
      exact (((hone _ _ _).append (hone _ _ _)).trans (List.sublist_append_right _ _))

end Changes

namespace Document

variable {kind : Kind}

/-! ## The order of the report -/

theorem comparedFields_sublist (desired : Document kind) :
    desired.comparedFields.Sublist kind.reportFields := by
  cases kind with
  | dbInstance =>
      have howned : (if (desired.spec .cluster).isNone then Instance.clusterOwned else []).Sublist
          Instance.clusterOwned := by
        split
        · exact List.Sublist.refl _
        · exact List.nil_sublist _
      exact ((List.Sublist.refl _).append howned).append (List.Sublist.refl _)
  | _ => exact List.Sublist.refl _

theorem paths_changes_sublist (desired observed : Document kind) :
    (desired.changes observed).paths.Sublist kind.reportOrder := by
  have hfield : ∀ f ∈ desired.comparedFields,
      ((Changes.differencesAt (kind.schema.path f) (desired.desiredValue f)
        (desired.observedValue observed f)).map Difference.path).Sublist
        (kind.schema.reportPaths f) := by
    intro f _
    refine Changes.paths_differencesAt_sublist (paired_values desired observed f) ?_
    intro fields hvalue
    by_contra htype
    exact desired.desiredValue_ne_object htype fields hvalue
  rw [Changes.paths, changes_differences, Changes.differencesOver, List.map_flatMap]
  exact (List.Sublist.flatMap_right _ hfield).trans (desired.comparedFields_sublist.flatMap _)

/-! ## The entries of the report -/

theorem mem_changes_iff (desired observed : Document kind) (d : Difference) :
    d ∈ (desired.changes observed).differences ↔
      ∃ f ∈ desired.comparedFields,
        d ∈ Changes.differencesAt (kind.schema.path f) (desired.desiredValue f)
          (desired.observedValue observed f) := by
  rw [changes_differences, Changes.differencesOver, List.mem_flatMap]

/-- A field of the schema is compared as it stands in the two specs. -/
theorem values_of_compared (desired observed : Document kind) {f : kind.schema.Field}
    (hcompared : f ∈ kind.schema.compared) :
    f ∈ desired.comparedFields ∧ desired.desiredValue f = Schema.Record.value desired.spec f ∧
      desired.observedValue observed f = Schema.Record.value observed.spec f := by
  cases kind with
  | dbCluster =>
      have hplain : ∀ g ∈ clusterSchema.compared, g ≠ .password := by decide
      exact ⟨List.mem_append_left _ hcompared, rfl, if_neg (hplain f hcompared)⟩
  | dbInstance =>
      have hplain : ∀ g ∈ instanceSchema.compared, g ≠ .password ∧ g ≠ .replicated := by decide
      have hmem : f ∈ desired.comparedFields :=
        List.mem_append_left _ (List.mem_append_left _ (List.mem_append_left _ hcompared))
      refine ⟨hmem, if_neg (hplain f hcompared).2, ?_⟩
      simp only [observedValue, Instance.observedValue, if_neg (hplain f hcompared).1,
        if_neg (hplain f hcompared).2]
  | parameterGroup scope => exact ⟨hcompared, rfl, rfl⟩
  | subnetGroup => exact ⟨hcompared, rfl, rfl⟩
  | snapshot scope => exact ⟨hcompared, rfl, rfl⟩

theorem mem_differencesAt_of_compared {desired observed : Document kind}
    {f : kind.schema.Field} (hcompared : f ∈ kind.schema.compared)
    (htype : kind.schema.type f ≠ .scaling) {d : Difference} :
    d ∈ Changes.differencesAt (kind.schema.path f) (desired.desiredValue f)
        (desired.observedValue observed f) ↔
      (kind.schema.type f).Differs (desired.spec f) (observed.spec f) ∧
        d = ⟨kind.schema.path f, Schema.Record.value observed.spec f,
          Schema.Record.value desired.spec f⟩ := by
  obtain ⟨-, hdesired, hobserved⟩ := values_of_compared desired observed hcompared
  rw [hdesired, hobserved, Changes.mem_differencesAt_of_plain htype]

theorem reported_of_plain (desired observed : Document kind) {f : kind.schema.Field}
    (hcompared : f ∈ kind.schema.compared) (htype : kind.schema.type f ≠ .scaling)
    {d : Difference}
    (hmem : d ∈ Changes.differencesAt (kind.schema.path f) (desired.desiredValue f)
      (desired.observedValue observed f)) : Reported desired observed d := by
  obtain ⟨hdiffers, rfl⟩ := (mem_differencesAt_of_compared hcompared htype).1 hmem
  exact .field hcompared htype hdiffers

end Document

namespace Cluster

/-- A capacity range is entered where both sides have one. -/
theorem mem_differencesAt_scaling_iff (desired observed : Document .dbCluster)
    (d : Difference) :
    d ∈ Changes.differencesAt (clusterSchema.path .scaling) (desired.desiredValue .scaling)
        (desired.observedValue observed .scaling) ↔
      ((desired.spec .scaling).isSome ≠ (observed.spec .scaling).isSome ∧
          d = ⟨clusterSchema.path .scaling, Schema.Record.value observed.spec .scaling,
            Schema.Record.value desired.spec .scaling⟩) ∨
        ∃ wish live, desired.spec .scaling = some wish ∧ observed.spec .scaling = some live ∧
          ((¬ Option.Rel (fun a b => Binary64.same a b = true) wish.most live.most ∧
              d = ⟨Path.below (clusterSchema.path .scaling) "MaxCapacity",
                .ofReal live.most, .ofReal wish.most⟩) ∨
            (¬ Option.Rel (fun a b => Binary64.same a b = true) wish.least live.least ∧
              d = ⟨Path.below (clusterSchema.path .scaling) "MinCapacity",
                .ofReal live.least, .ofReal wish.least⟩)) := by
  have hdesired : desired.desiredValue .scaling =
      .object ((desired.spec .scaling).map Scaling.attributes) := rfl
  have hobserved : desired.observedValue observed .scaling =
      .object ((observed.spec .scaling).map Scaling.attributes) := rfl
  have hleft : Schema.Record.value desired.spec .scaling =
      .object ((desired.spec .scaling).map Scaling.attributes) := rfl
  have hright : Schema.Record.value observed.spec .scaling =
      .object ((observed.spec .scaling).map Scaling.attributes) := rfl
  rw [hdesired, hobserved, hleft, hright]
  cases desired.spec .scaling with
  | none =>
      rw [Changes.differencesAt_plain (by simp), Changes.mem_plainDifferencesAt]
      cases observed.spec .scaling <;> simp [Value.disagrees]
  | some wish =>
      cases observed.spec .scaling with
      | none =>
          rw [Changes.differencesAt_plain (by simp), Changes.mem_plainDifferencesAt]
          simp [Value.disagrees]
      | some live =>
          rw [Option.map_some, Option.map_some, Changes.differencesAt_scaling, List.mem_append,
            Changes.mem_plainDifferencesAt_ofReal, Changes.mem_plainDifferencesAt_ofReal]
          constructor
          · intro hbounds
            exact .inr ⟨wish, live, rfl, rfl, hbounds⟩
          · rintro (⟨hmissing, -⟩ | ⟨_, _, hwish, hlive, hbounds⟩)
            · exact absurd rfl hmissing
            · obtain rfl := Option.some.inj hwish
              obtain rfl := Option.some.inj hlive
              exact hbounds

theorem reported_of_mem {desired observed : Document .dbCluster} {f : ClusterField}
    (hcompared : f ∈ desired.comparedFields) {d : Difference}
    (hmem : d ∈ Changes.differencesAt (clusterSchema.path f) (desired.desiredValue f)
      (desired.observedValue observed f)) : Reported desired observed d := by
  rcases List.mem_append.1 hcompared with hschema | hpassword
  · by_cases hscaling : f = .scaling
    · subst hscaling
      rcases (mem_differencesAt_scaling_iff desired observed d).1 hmem with
        ⟨hmissing, rfl⟩ | ⟨wish, live, hwish, hlive, ⟨hdiffers, rfl⟩ | ⟨hdiffers, rfl⟩⟩
      · exact .range hmissing
      · exact .mostCapacity hwish hlive hdiffers
      · exact .leastCapacity hwish hlive hdiffers
    · have htype : clusterSchema.type f ≠ .scaling := by
        revert hscaling
        cases f <;> decide
      exact Document.reported_of_plain desired observed hschema htype hmem
  · obtain rfl := List.mem_singleton.1 hpassword
    obtain ⟨hdiffers, rfl⟩ := Changes.mem_differencesAt_ofText.1 hmem
    exact .clusterPassword hdiffers

end Cluster

namespace Instance

theorem owned_values (desired observed : Document .dbInstance) {f : InstanceField}
    (howned : f ∈ clusterOwned) :
    desired.desiredValue f = Schema.Record.value desired.spec f ∧
      desired.observedValue observed f = Schema.Record.value observed.spec f := by
  have hplain : ∀ g ∈ clusterOwned, g ≠ .password ∧ g ≠ .replicated := by decide
  refine ⟨if_neg (hplain f howned).2, ?_⟩
  simp only [Document.observedValue, observedValue, if_neg (hplain f howned).1,
    if_neg (hplain f howned).2]

theorem reported_of_mem {desired observed : Document .dbInstance} {f : InstanceField}
    (hcompared : f ∈ desired.comparedFields) {d : Difference}
    (hmem : d ∈ Changes.differencesAt (instanceSchema.path f) (desired.desiredValue f)
      (desired.observedValue observed f)) : Reported desired observed d := by
  simp only [Document.comparedFields, List.mem_append, List.mem_singleton] at hcompared
  rcases hcompared with ((hschema | rfl) | hparent) | rfl
  · exact Document.reported_of_plain desired observed hschema (type_ne_scaling f) hmem
  · obtain ⟨hdiffers, rfl⟩ := Changes.mem_differencesAt_ofText.1 hmem
    exact .instancePassword hdiffers
  · cases hcluster : desired.spec .cluster with
    | some parent => simp [hcluster] at hparent
    | none =>
        have howned : f ∈ clusterOwned := by simpa [hcluster] using hparent
        obtain ⟨hdesired, hobserved⟩ := owned_values desired observed howned
        rw [hdesired, hobserved, Changes.mem_differencesAt_of_plain (type_ne_scaling f)] at hmem
        obtain ⟨hdiffers, rfl⟩ := hmem
        exact .clusterOwned howned hcluster hdiffers
  · obtain ⟨hdiffers, rfl⟩ := Changes.mem_differencesAt_ofFlag.1 hmem
    exact .replicated hdiffers

end Instance

namespace Document

variable {kind : Kind}

theorem reported_of_mem_changes {desired observed : Document kind} {d : Difference}
    (hmem : d ∈ (desired.changes observed).differences) : Reported desired observed d := by
  obtain ⟨f, hcompared, hd⟩ := (mem_changes_iff desired observed d).1 hmem
  cases kind with
  | dbCluster => exact Cluster.reported_of_mem hcompared hd
  | dbInstance => exact Instance.reported_of_mem hcompared hd
  | parameterGroup scope =>
      exact reported_of_plain desired observed hcompared (by cases f <;> simp) hd
  | subnetGroup => exact reported_of_plain desired observed hcompared (by cases f <;> simp) hd
  | snapshot scope => exact reported_of_plain desired observed hcompared (by cases f <;> simp) hd

theorem mem_changes_of_reported {desired observed : Document kind} {d : Difference}
    (hreported : Reported desired observed d) :
    d ∈ (desired.changes observed).differences := by
  rw [mem_changes_iff]
  cases hreported with
  | field hcompared htype hdiffers =>
      exact ⟨_, (values_of_compared desired observed hcompared).1,
        (mem_differencesAt_of_compared hcompared htype).2 ⟨hdiffers, rfl⟩⟩
  | range hmissing =>
      refine ⟨.scaling, List.mem_append_left _ (by decide), ?_⟩
      exact (Cluster.mem_differencesAt_scaling_iff _ _ _).2 (.inl ⟨hmissing, rfl⟩)
  | mostCapacity hwish hlive hdiffers =>
      refine ⟨.scaling, List.mem_append_left _ (by decide), ?_⟩
      exact (Cluster.mem_differencesAt_scaling_iff _ _ _).2
        (.inr ⟨_, _, hwish, hlive, .inl ⟨hdiffers, rfl⟩⟩)
  | leastCapacity hwish hlive hdiffers =>
      refine ⟨.scaling, List.mem_append_left _ (by decide), ?_⟩
      exact (Cluster.mem_differencesAt_scaling_iff _ _ _).2
        (.inr ⟨_, _, hwish, hlive, .inr ⟨hdiffers, rfl⟩⟩)
  | clusterPassword hdiffers =>
      exact ⟨.password, List.mem_append_right _ (List.mem_singleton.2 rfl),
        Changes.mem_differencesAt_ofText.2 ⟨hdiffers, rfl⟩⟩
  | instancePassword hdiffers =>
      exact ⟨.password, by simp [comparedFields],
        Changes.mem_differencesAt_ofText.2 ⟨hdiffers, rfl⟩⟩
  | clusterOwned howned hstandalone hdiffers =>
      obtain ⟨hdesired, hobserved⟩ := Instance.owned_values _ _ howned
      refine ⟨_, (Instance.owned_mem_comparedFields_iff _ howned).2 hstandalone, ?_⟩
      rw [hdesired, hobserved]
      exact (Changes.mem_differencesAt_of_plain (Instance.type_ne_scaling _)).2 ⟨hdiffers, rfl⟩
  | replicated hdiffers =>
      exact ⟨.replicated, by simp [comparedFields],
        Changes.mem_differencesAt_ofFlag.2 ⟨hdiffers, rfl⟩⟩

end Document

namespace Plan

variable {kind : Kind}

/-- A plan reports what differs, all of it and nothing else, no path twice and in the order
that its kind fixes for all documents. -/
theorem reports_exactly_what_differs (settings : Settings) (desired observed : Document kind) :
    (Plan.of settings desired observed).changes.paths.Nodup ∧
      kind.reportOrder.Nodup ∧
      (Plan.of settings desired observed).changes.paths.Sublist kind.reportOrder ∧
      ∀ d, d ∈ (Plan.of settings desired observed).changes.differences ↔
        Reported (desired.normal observed) observed d := by
  have hordered := (desired.normal observed).paths_changes_sublist observed
  refine ⟨kind.reportOrder_nodup.sublist hordered, kind.reportOrder_nodup, hordered, ?_⟩
  intro d
  exact ⟨Document.reported_of_mem_changes, Document.mem_changes_of_reported⟩

/-- The end of the report of an instance. -/
example :
    (Kind.reportOrder .dbInstance).drop instanceSchema.compared.length =
      ["Spec.MasterUserPassword", "Spec.DatabaseInsightsMode",
        "Spec.EnableCloudwatchLogsExports", "Spec.MaxAllocatedStorage",
        "Spec.BackupRetentionPeriod", "Spec.PreferredBackupWindow", "Spec.DeletionProtection",
        "Spec.BackupCrossRegionReplication"] := by
  decide +kernel

end Plan
end DbSteward
