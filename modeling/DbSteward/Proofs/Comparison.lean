import DbSteward.Proofs.Changes
import DbSteward.Plan.Basic

/-!
# What a plan compares

The changes between two documents are collected in three places: the schema, the secret of
the master password, and for instances the fields of a parent cluster and the replication
of backups.  Together they are one walk over the fields that are compared, each with a
desired and an observed value.  A field is flagged when its two values disagree, and every
query that an update makes of the changes is answered by the flagged fields.
-/

namespace DbSteward

/-! ## The schemas -/

theorem clusterSchema_lawful : clusterSchema.Lawful :=
  Schema.lawful_of_fields (fun f => by cases f <;> decide) (by decide +kernel) (by decide +kernel)

theorem instanceSchema_lawful : instanceSchema.Lawful :=
  Schema.lawful_of_fields (fun f => by cases f <;> decide) (by decide +kernel) (by decide +kernel)

theorem parameterGroupSchema_lawful : parameterGroupSchema.Lawful :=
  Schema.lawful_of_fields (fun f => by cases f <;> decide) (by decide) (by decide)

theorem subnetGroupSchema_lawful : subnetGroupSchema.Lawful :=
  Schema.lawful_of_fields (fun f => by cases f <;> decide) (by decide) (by decide)

theorem snapshotSchema_lawful : snapshotSchema.Lawful :=
  Schema.lawful_of_fields (fun f => by cases f <;> decide) (by decide) (by decide)

theorem Kind.schema_lawful (kind : Kind) : kind.schema.Lawful := by
  cases kind with
  | dbCluster => exact clusterSchema_lawful
  | dbInstance => exact instanceSchema_lawful
  | parameterGroup scope => exact parameterGroupSchema_lawful
  | subnetGroup => exact subnetGroupSchema_lawful
  | snapshot scope => exact snapshotSchema_lawful

namespace Schema.Record

variable {S : Schema}

theorem lookup_attributesOf (hlawful : S.Lawful) (r : S.Record) {fields : List S.Field}
    {f : S.Field} (hmem : f ∈ fields) :
    (attributesOf r fields).lookup (S.label f) = some (value r f) := by
  induction fields with
  | nil => simp at hmem
  | cons g rest ih =>
      by_cases hlabel : S.label f = S.label g
      · have hfg := hlawful.label_injective f g hlabel
        subst hfg
        simp [attributesOf]
      · have hne : f ≠ g := fun heq => hlabel (heq ▸ rfl)
        have hrest := ih ((List.mem_cons.1 hmem).resolve_left hne)
        simp only [attributesOf, List.map_cons, List.lookup_cons, beq_eq_false_iff_ne.2 hlabel]
          at hrest ⊢
        exact hrest

end Schema.Record

namespace Changes

variable {S : Schema}

theorem withMatched_attributesOf (hlawful : S.Lawful) (desired observed : S.Record)
    {fields all : List S.Field} (hsub : ∀ f ∈ fields, f ∈ all) (changes : Changes) :
    withMatched Path.root (Schema.Record.attributesOf desired fields)
        (Schema.Record.attributesOf observed all) changes =
      overFields fields (Schema.Record.value desired) (Schema.Record.value observed) changes := by
  induction fields generalizing changes with
  | nil => simp [Schema.Record.attributesOf, withMatched, overFields]
  | cons f rest ih =>
      have hlookup := Schema.Record.lookup_attributesOf hlawful observed
        (hsub f (List.mem_cons_self ..))
      have hrest := ih (fun g hmem => hsub g (List.mem_cons_of_mem _ hmem))
        (withValue (S.path f) (Schema.Record.value desired f) (Schema.Record.value observed f)
          changes)
      rw [Schema.Record.attributesOf, List.map_cons, withMatched, hlookup, Option.getD_some]
      exact hrest

theorem withSurplus_of_named {desired observed : List Attribute}
    (hnamed : ∀ field ∈ observed, desired.any (·.1 == field.1) = true) (path : String)
    (changes : Changes) : withSurplus path desired observed changes = changes := by
  unfold withSurplus
  induction observed with
  | nil => rfl
  | cons field rest ih =>
      rw [List.foldl_cons, if_pos (hnamed field (List.mem_cons_self ..))]
      exact ih fun other hmem => hnamed other (List.mem_cons_of_mem _ hmem)

theorem withSurplus_attributesOf (path : String) (desired observed : S.Record)
    (fields : List S.Field) (changes : Changes) :
    withSurplus path (Schema.Record.attributesOf desired fields)
      (Schema.Record.attributesOf observed fields) changes = changes := by
  apply withSurplus_of_named
  intro field hmem
  obtain ⟨f, hf, rfl⟩ := List.mem_map.1 hmem
  refine List.any_eq_true.2 ⟨(S.label f, Schema.Record.value desired f), ?_, by simp⟩
  exact List.mem_map.2 ⟨f, hf, rfl⟩

theorem between_eq_overFields (hlawful : S.Lawful) (desired observed : S.Record) :
    between (Schema.Record.attributes desired) (Schema.Record.attributes observed) =
      overFields S.compared (Schema.Record.value desired) (Schema.Record.value observed)
        empty := by
  unfold between Schema.Record.attributes
  rw [withSurplus_attributesOf, withMatched_attributesOf hlawful]
  exact fun f hmem => hmem

end Changes

/-! ## The fields that two documents are compared by -/

namespace Cluster

/-- What a desired value of a cluster is compared with: the secret with the one that was
applied last, and all else with the live spec. -/
def observedValue (desired observed : Document .dbCluster) (f : ClusterField) : Value :=
  if f = .password then .ofText (some desired.metadata.annotations.lastAppliedSecret)
  else Schema.Record.value observed.spec f

theorem paired_values (desired observed : Document .dbCluster) (f : ClusterField) :
    Value.Paired (Schema.Record.value desired.spec f) (observedValue desired observed f) := by
  unfold observedValue
  split
  · subst f
    exact .plain (by simp [Value.ofText])
  · exact FieldType.paired (t := clusterSchema.type f) _ _

end Cluster

namespace Instance

/-- What is desired in a field of an instance.  Replication that is not mentioned is not
desired. -/
def desiredValue (desired : Document .dbInstance) (f : InstanceField) : Value :=
  if f = .replicated then .ofFlag (some (wantsReplication desired.spec))
  else Schema.Record.value desired.spec f

/-- What a desired value of an instance is compared with.  Whether backups are replicated
shows in the replications there are. -/
def observedValue (desired observed : Document .dbInstance) (f : InstanceField) : Value :=
  if f = .password then .ofText (some desired.metadata.annotations.lastAppliedSecret)
  else if f = .replicated then .ofFlag (some !observed.status.detail.replications.isEmpty)
  else Schema.Record.value observed.spec f

theorem paired_values (desired observed : Document .dbInstance) (f : InstanceField) :
    Value.Paired (desiredValue desired f) (observedValue desired observed f) := by
  unfold desiredValue observedValue
  split
  · exact .plain (by simp [Value.ofFlag])
  · split
    · exact .plain (by simp [Value.ofText])
    · exact FieldType.paired (t := instanceSchema.type f) _ _

end Instance

theorem FieldType.value_ne_object {t : FieldType} (hne : t ≠ .scaling) (content : t.Content)
    (fields : Option (List Attribute)) : t.value content ≠ .object fields := by
  cases t with
  | scaling => exact absurd rfl hne
  | _ => simp [value, Value.ofText, Value.ofInteger, Value.ofFlag]

namespace Document

variable {kind : Kind}

/-- The fields in which documents are compared, in order. -/
def comparedFields : {kind : Kind} → Document kind → List kind.schema.Field
  | .dbCluster, _ => clusterSchema.compared ++ [.password]
  | .dbInstance, desired =>
      instanceSchema.compared ++ [.password]
        ++ (if (desired.spec .cluster).isNone then Instance.clusterOwned else [])
        ++ [.replicated]
  | .parameterGroup _, _ => parameterGroupSchema.compared
  | .subnetGroup, _ => subnetGroupSchema.compared
  | .snapshot _, _ => snapshotSchema.compared

def desiredValue : {kind : Kind} → Document kind → kind.schema.Field → Value
  | .dbCluster, desired => Schema.Record.value desired.spec
  | .dbInstance, desired => Instance.desiredValue desired
  | .parameterGroup _, desired => Schema.Record.value desired.spec
  | .subnetGroup, desired => Schema.Record.value desired.spec
  | .snapshot _, desired => Schema.Record.value desired.spec

def observedValue : {kind : Kind} → Document kind → Document kind → kind.schema.Field → Value
  | .dbCluster, desired, observed => Cluster.observedValue desired observed
  | .dbInstance, desired, observed => Instance.observedValue desired observed
  | .parameterGroup _, _, observed => Schema.Record.value observed.spec
  | .subnetGroup, _, observed => Schema.Record.value observed.spec
  | .snapshot _, _, observed => Schema.Record.value observed.spec

theorem paired_values (desired observed : Document kind) (f : kind.schema.Field) :
    Value.Paired (desired.desiredValue f) (desired.observedValue observed f) := by
  cases kind with
  | dbCluster => exact Cluster.paired_values desired observed f
  | dbInstance => exact Instance.paired_values desired observed f
  | parameterGroup scope => exact FieldType.paired (t := parameterGroupSchema.type f) _ _
  | subnetGroup => exact FieldType.paired (t := subnetGroupSchema.type f) _ _
  | snapshot scope => exact FieldType.paired (t := snapshotSchema.type f) _ _

theorem comparedFields_nodup (desired : Document kind) : desired.comparedFields.Nodup := by
  cases kind with
  | dbCluster => exact (by decide : (clusterSchema.compared ++ [ClusterField.password]).Nodup)
  | dbInstance =>
      simp only [comparedFields]
      cases (desired.spec .cluster).isNone <;> decide
  | parameterGroup scope => exact (by decide : parameterGroupSchema.compared.Nodup)
  | subnetGroup => exact (by decide : subnetGroupSchema.compared.Nodup)
  | snapshot scope => exact (by decide : snapshotSchema.compared.Nodup)

end Document

namespace Changes

variable {S : Schema}

theorem overFields_append (first second : List S.Field) (desired observed : S.Field → Value)
    (changes : Changes) :
    overFields (first ++ second) desired observed changes =
      overFields second desired observed (overFields first desired observed changes) :=
  List.foldl_append

theorem overFields_congr {fields : List S.Field} {desired desired' observed observed' :
    S.Field → Value} (hdesired : ∀ f ∈ fields, desired f = desired' f)
    (hobserved : ∀ f ∈ fields, observed f = observed' f) (changes : Changes) :
    overFields fields desired observed changes = overFields fields desired' observed' changes := by
  induction fields generalizing changes with
  | nil => rfl
  | cons f rest ih =>
      have hrest := ih (fun g hmem => hdesired g (List.mem_cons_of_mem _ hmem))
        fun g hmem => hobserved g (List.mem_cons_of_mem _ hmem)
      unfold overFields at hrest ⊢
      rw [List.foldl_cons, List.foldl_cons, hdesired f (List.mem_cons_self ..),
        hobserved f (List.mem_cons_self ..)]
      exact hrest _

theorem noteFields_eq_overFields {fields : List S.Field} {desired observed : S.Record}
    (hplain : ∀ f ∈ fields, S.type f ≠ .scaling) (changes : Changes) :
    changes.noteFields fields desired observed =
      overFields fields (Schema.Record.value desired) (Schema.Record.value observed)
        changes := by
  induction fields generalizing changes with
  | nil => rfl
  | cons f rest ih =>
      have hrest := ih fun g hmem => hplain g (List.mem_cons_of_mem _ hmem)
      have hvalue := FieldType.value_ne_object (hplain f (List.mem_cons_self ..)) (desired f)
      have hnote := withValue_of_plain (Schema.Record.value desired f)
        (Schema.Record.value observed f) (fun _ _ h => hvalue _ h.1) (S.path f) changes
      unfold noteFields overFields at hrest ⊢
      rw [List.foldl_cons, List.foldl_cons, hrest, hnote]

theorem overFields_singleton (f : S.Field) (desired observed : S.Field → Value)
    (hplain : ∀ a, desired f ≠ .object a) (changes : Changes) :
    overFields [f] desired observed changes =
      changes.note (S.path f) (observed f) (desired f) :=
  (withValue_of_plain _ _ (fun _ _ h => hplain _ h.1) (S.path f) changes).symm

end Changes

namespace Document

variable {kind : Kind}

theorem clusterChanges_eq (desired observed : Document .dbCluster) :
    desired.changes observed =
      Changes.overFields desired.comparedFields desired.desiredValue
        (desired.observedValue observed) .empty := by
  have hplain : ∀ f ∈ clusterSchema.compared, f ≠ .password := by decide
  have hschema : Changes.overFields clusterSchema.compared (Schema.Record.value desired.spec)
      (Schema.Record.value observed.spec) .empty =
      Changes.overFields clusterSchema.compared desired.desiredValue
        (desired.observedValue observed) .empty :=
    Changes.overFields_congr (fun f _ => rfl) (fun f hmem => (if_neg (hplain f hmem)).symm) _
  have hpassword := Changes.overFields_singleton (S := clusterSchema) .password
    desired.desiredValue (desired.observedValue observed)
    (fun a h => by simp [desiredValue, Schema.Record.value, FieldType.value, Value.ofText] at h)
  rw [comparedFields, Changes.overFields_append, hpassword, changes,
    Changes.between_eq_overFields clusterSchema_lawful, hschema]
  rfl

theorem instanceChanges_eq (desired observed : Document .dbInstance) :
    desired.changes observed =
      Changes.overFields desired.comparedFields desired.desiredValue
        (desired.observedValue observed) .empty := by
  have hplain : ∀ f ∈ instanceSchema.compared ++ Instance.clusterOwned,
      f ≠ .password ∧ f ≠ .replicated := by decide
  have hdesired : ∀ f ∈ instanceSchema.compared ++ Instance.clusterOwned,
      Schema.Record.value desired.spec f = desired.desiredValue f :=
    fun f hmem => (if_neg (hplain f hmem).2).symm
  have hobserved : ∀ f ∈ instanceSchema.compared ++ Instance.clusterOwned,
      Schema.Record.value observed.spec f = desired.observedValue observed f := by
    intro f hmem
    simp only [observedValue, Instance.observedValue, if_neg (hplain f hmem).1,
      if_neg (hplain f hmem).2]
  have hschema : Changes.overFields instanceSchema.compared (Schema.Record.value desired.spec)
      (Schema.Record.value observed.spec) .empty =
      Changes.overFields instanceSchema.compared desired.desiredValue
        (desired.observedValue observed) .empty :=
    Changes.overFields_congr (fun f hmem => hdesired f (List.mem_append_left _ hmem))
      (fun f hmem => hobserved f (List.mem_append_left _ hmem)) _
  have hpassword := Changes.overFields_singleton (S := instanceSchema) .password
    desired.desiredValue (desired.observedValue observed)
    (fun a h => by
      simp [desiredValue, Instance.desiredValue, Schema.Record.value, FieldType.value,
        Value.ofText] at h)
  have hreplicated := Changes.overFields_singleton (S := instanceSchema) .replicated
    desired.desiredValue (desired.observedValue observed)
    (fun a h => by simp [desiredValue, Instance.desiredValue, Value.ofFlag] at h)
  have howned : ∀ changes : Changes, Instance.noteClusterOwned desired.spec observed.spec changes =
      Changes.overFields (if (desired.spec .cluster).isNone then Instance.clusterOwned else [])
        desired.desiredValue (desired.observedValue observed) changes := by
    intro changes
    unfold Instance.noteClusterOwned
    split
    · rw [Changes.noteFields_eq_overFields (by decide)]
      exact Changes.overFields_congr (fun f hmem => hdesired f (List.mem_append_right _ hmem))
        (fun f hmem => hobserved f (List.mem_append_right _ hmem)) _
    · rfl
  rw [comparedFields, Changes.overFields_append, Changes.overFields_append,
    Changes.overFields_append, hreplicated, ← howned, hpassword, changes,
    Changes.between_eq_overFields instanceSchema_lawful, hschema]
  rfl

/-- The changes between two documents are one walk over the fields that are compared. -/
theorem changes_eq_overFields (desired observed : Document kind) :
    desired.changes observed =
      Changes.overFields desired.comparedFields desired.desiredValue
        (desired.observedValue observed) .empty := by
  cases kind with
  | dbCluster => exact clusterChanges_eq desired observed
  | dbInstance => exact instanceChanges_eq desired observed
  | parameterGroup scope => exact Changes.between_eq_overFields parameterGroupSchema_lawful _ _
  | subnetGroup => exact Changes.between_eq_overFields subnetGroupSchema_lawful _ _
  | snapshot scope => exact Changes.between_eq_overFields snapshotSchema_lawful _ _

theorem changes_differences (desired observed : Document kind) :
    (desired.changes observed).differences =
      Changes.differencesOver desired.comparedFields desired.desiredValue
        (desired.observedValue observed) := by
  rw [changes_eq_overFields, Changes.overFields_eq_append kind.schema_lawful
    desired.comparedFields_nodup (paired_values desired observed)
    (fun f _ => Changes.freshAt_empty _)]
  rfl

/-! ## Flagged fields -/

/-- The field is compared and its two values disagree. -/
def Flagged (desired observed : Document kind) (f : kind.schema.Field) : Prop :=
  f ∈ desired.comparedFields ∧
    (desired.desiredValue f).disagrees (desired.observedValue observed f) = true

theorem exists_difference_iff (desired observed : Document kind) (f : kind.schema.Field) :
    (∃ d ∈ (desired.changes observed).differences,
        Path.covers (kind.schema.path f) d.path = true) ↔ desired.Flagged observed f := by
  rw [changes_differences]
  constructor
  · rintro ⟨d, hmem, hcovers⟩
    obtain ⟨g, hg, hd⟩ := List.mem_flatMap.1 hmem
    have hpaired := paired_values desired observed g
    have hfg := kind.schema_lawful.eq_of_covers hcovers
      (Changes.covers_of_mem_differencesAt hpaired hd)
    subst hfg
    refine ⟨hg, ?_⟩
    rw [← Bool.not_eq_false, ← Changes.differencesAt_eq_nil hpaired]
    exact List.ne_nil_of_mem hd
  · rintro ⟨hmem, hdisagrees⟩
    have hpaired := paired_values desired observed f
    have hne : Changes.differencesAt (kind.schema.path f) (desired.desiredValue f)
        (desired.observedValue observed f) ≠ [] := by
      rw [Ne, Changes.differencesAt_eq_nil hpaired, hdisagrees]
      simp
    obtain ⟨d, hd⟩ := List.exists_mem_of_ne_nil _ hne
    exact ⟨d, List.mem_flatMap.2 ⟨f, hmem, hd⟩,
      Changes.covers_of_mem_differencesAt hpaired hd⟩

theorem exists_field_of_mem {desired observed : Document kind} {d : Difference}
    (hmem : d ∈ (desired.changes observed).differences) :
    ∃ f, desired.Flagged observed f ∧ Path.covers (kind.schema.path f) d.path = true := by
  have hover := hmem
  rw [changes_differences] at hover
  obtain ⟨f, hf, hd⟩ := List.mem_flatMap.1 hover
  have hcovers := Changes.covers_of_mem_differencesAt (paired_values desired observed f) hd
  exact ⟨f, (exists_difference_iff desired observed f).1 ⟨d, hmem, hcovers⟩, hcovers⟩

theorem touches_path_iff (desired observed : Document kind) (f : kind.schema.Field) :
    (desired.changes observed).touches (kind.schema.path f) = true ↔
      desired.Flagged observed f := by
  rw [← exists_difference_iff, Changes.touches, List.any_eq_true]
  refine exists_congr fun d => and_congr_right fun hmem => ?_
  obtain ⟨g, -, hg⟩ := exists_field_of_mem hmem
  rw [kind.schema_lawful.isEmpty_eq_false_of_covers hg, Bool.false_or]

theorem touchesBeyond_paths_iff (desired observed : Document kind)
    (fields : List kind.schema.Field) :
    (desired.changes observed).touchesBeyond (fields.map kind.schema.path) = true ↔
      ∃ f, desired.Flagged observed f ∧ f ∉ fields := by
  rw [Changes.touchesBeyond, List.any_eq_true]
  constructor
  · rintro ⟨d, hmem, hbeyond⟩
    obtain ⟨f, hflagged, hcovers⟩ := exists_field_of_mem hmem
    refine ⟨f, hflagged, fun hf => ?_⟩
    rw [kind.schema_lawful.isEmpty_eq_false_of_covers hcovers, Bool.false_or,
      Bool.not_eq_true', List.any_eq_false] at hbeyond
    exact hbeyond _ (List.mem_map_of_mem hf) hcovers
  · rintro ⟨f, hflagged, hnot⟩
    obtain ⟨d, hmem, hcovers⟩ := (exists_difference_iff desired observed f).2 hflagged
    refine ⟨d, hmem, ?_⟩
    rw [Bool.or_eq_true, Bool.not_eq_true', List.any_eq_false]
    right
    intro path hpath hother
    obtain ⟨g, hg, rfl⟩ := List.mem_map.1 hpath
    exact hnot (kind.schema_lawful.eq_of_covers hcovers hother ▸ hg)

theorem changes_isEmpty_iff (desired observed : Document kind) :
    (desired.changes observed).isEmpty = true ↔ ∀ f, ¬ desired.Flagged observed f := by
  rw [Changes.isEmpty, List.isEmpty_iff]
  constructor
  · intro hnil f hflagged
    obtain ⟨d, hmem, -⟩ := (exists_difference_iff desired observed f).2 hflagged
    rw [hnil] at hmem
    simp at hmem
  · intro hnone
    rw [List.eq_nil_iff_forall_not_mem]
    intro d hmem
    obtain ⟨f, hflagged, -⟩ := exists_field_of_mem hmem
    exact hnone f hflagged

/-! ## Flags by field -/

theorem desiredValue_ne_object (desired : Document kind) {f : kind.schema.Field}
    (hplain : kind.schema.type f ≠ .scaling) (fields : Option (List Attribute)) :
    desired.desiredValue f ≠ .object fields := by
  cases kind with
  | dbInstance =>
      simp only [desiredValue, Instance.desiredValue]
      split
      · simp [Value.ofFlag]
      · exact FieldType.value_ne_object hplain _ fields
  | dbCluster => exact FieldType.value_ne_object hplain _ fields
  | parameterGroup scope => exact FieldType.value_ne_object hplain _ fields
  | subnetGroup => exact FieldType.value_ne_object hplain _ fields
  | snapshot scope => exact FieldType.value_ne_object hplain _ fields

theorem path_mem_paths_iff (desired observed : Document kind) {f : kind.schema.Field}
    (hplain : kind.schema.type f ≠ .scaling) :
    kind.schema.path f ∈ (desired.changes observed).paths ↔ desired.Flagged observed f := by
  constructor
  · intro hpath
    obtain ⟨d, hmem, hd⟩ := List.mem_map.1 hpath
    refine (exists_difference_iff desired observed f).1 ⟨d, hmem, ?_⟩
    rw [hd]
    exact Path.covers_iff_segments.2 (List.prefix_refl _)
  · rintro ⟨hmem, hdisagrees⟩
    refine List.mem_map.2 ⟨⟨kind.schema.path f, desired.observedValue observed f,
      desired.desiredValue f⟩, ?_, rfl⟩
    rw [changes_differences]
    refine List.mem_flatMap.2 ⟨f, hmem, ?_⟩
    rw [Changes.differencesAt_plain fun _ _ h => desired.desiredValue_ne_object hplain _ h.1,
      Changes.mem_plainDifferencesAt]
    exact ⟨hdisagrees, rfl⟩

/-- The differences of a field that holds no object have one path. -/
theorem path_eq_of_covers {desired observed : Document kind} {f : kind.schema.Field}
    (hplain : kind.schema.type f ≠ .scaling) {d : Difference}
    (hmem : d ∈ (desired.changes observed).differences)
    (hcovers : Path.covers (kind.schema.path f) d.path = true) :
    d.path = kind.schema.path f := by
  rw [changes_differences] at hmem
  obtain ⟨g, -, hd⟩ := List.mem_flatMap.1 hmem
  have hpaired := paired_values desired observed g
  obtain rfl := kind.schema_lawful.eq_of_covers hcovers
    (Changes.covers_of_mem_differencesAt hpaired hd)
  rw [Changes.differencesAt_plain fun _ _ h => desired.desiredValue_ne_object hplain _ h.1,
    Changes.mem_plainDifferencesAt] at hd
  rw [hd.2]

theorem touches_path_iff_mem (desired observed : Document kind) {f : kind.schema.Field}
    (hplain : kind.schema.type f ≠ .scaling) :
    (desired.changes observed).touches (kind.schema.path f) = true ↔
      kind.schema.path f ∈ (desired.changes observed).paths :=
  (touches_path_iff desired observed f).trans (path_mem_paths_iff desired observed hplain).symm

theorem touchesBeyond_path_iff (desired observed : Document kind) {f : kind.schema.Field}
    (hplain : kind.schema.type f ≠ .scaling) :
    (desired.changes observed).touchesBeyond [kind.schema.path f] = true ↔
      ∃ path ∈ (desired.changes observed).paths, path ≠ kind.schema.path f := by
  rw [Changes.touchesBeyond, List.any_eq_true]
  constructor
  · rintro ⟨d, hmem, hbeyond⟩
    refine ⟨d.path, List.mem_map_of_mem hmem, fun heq => ?_⟩
    have hself : Path.covers (kind.schema.path f) d.path = true := by
      rw [heq]
      exact Path.covers_iff_segments.2 (List.prefix_refl _)
    simp [kind.schema_lawful.isEmpty_eq_false_of_covers hself, hself] at hbeyond
  · rintro ⟨path, hpath, hne⟩
    obtain ⟨d, hmem, rfl⟩ := List.mem_map.1 hpath
    have hapart : Path.covers (kind.schema.path f) d.path = false := by
      rw [Bool.eq_false_iff]
      exact fun hcovers => hne (path_eq_of_covers hplain hmem hcovers)
    exact ⟨d, hmem, by simp [hapart]⟩

end Document

/-- A secret is compared with the text of the one that was applied last. -/
theorem SecretRef.disagrees_iff (secret : Option SecretRef) (lastApplied : String) :
    (FieldType.secret.value secret).disagrees (.ofText (some lastApplied)) = true ↔
      SecretRef.textOf secret ≠ lastApplied := by
  have hvalues := Value.ofText_disagrees (some (SecretRef.textOf secret)) (some lastApplied)
  rw [Ne, Option.some.injEq] at hvalues
  exact hvalues

namespace Cluster

theorem flagged_password_iff (desired observed : Document .dbCluster) :
    desired.Flagged observed .password ↔
      SecretRef.textOf (desired.spec .password) ≠
        desired.metadata.annotations.lastAppliedSecret := by
  have hmem : ClusterField.password ∈ desired.comparedFields :=
    List.mem_append_right _ (List.mem_singleton.2 rfl)
  rw [← SecretRef.disagrees_iff]
  exact ⟨fun h => h.2, fun h => ⟨hmem, h⟩⟩

/-- All fields of a cluster but the password are compared as they stand. -/
theorem flagged_iff (desired observed : Document .dbCluster) {f : ClusterField}
    (hne : f ≠ .password) :
    desired.Flagged observed f ↔
      (clusterSchema.type f).Differs (desired.spec f) (observed.spec f) := by
  have hmem : f ∈ desired.comparedFields := by
    refine List.mem_append_left _ ?_
    revert hne
    cases f <;> decide
  have hobserved : desired.observedValue observed f = Schema.Record.value observed.spec f :=
    if_neg hne
  rw [Document.Flagged, hobserved, ← FieldType.disagrees_iff]
  exact ⟨fun h => h.2, fun h => ⟨hmem, h⟩⟩

end Cluster

namespace Instance

theorem flagged_password_iff (desired observed : Document .dbInstance) :
    desired.Flagged observed .password ↔
      SecretRef.textOf (desired.spec .password) ≠
        desired.metadata.annotations.lastAppliedSecret := by
  have hmem : InstanceField.password ∈ desired.comparedFields := by
    simp [Document.comparedFields]
  rw [← SecretRef.disagrees_iff]
  exact ⟨fun h => h.2, fun h => ⟨hmem, h⟩⟩

theorem flagged_replicated_iff (desired observed : Document .dbInstance) :
    desired.Flagged observed .replicated ↔
      wantsReplication desired.spec ≠ !observed.status.detail.replications.isEmpty := by
  have hmem : InstanceField.replicated ∈ desired.comparedFields := by
    simp [Document.comparedFields]
  have hvalues := Value.ofFlag_disagrees (some (wantsReplication desired.spec))
    (some !observed.status.detail.replications.isEmpty)
  rw [Ne, Option.some.injEq] at hvalues
  exact ⟨fun h => hvalues.1 h.2, fun h => ⟨hmem, hvalues.2 h⟩⟩

theorem values_disagree_iff (desired observed : Document .dbInstance) {f : InstanceField}
    (hpassword : f ≠ .password) (hreplicated : f ≠ .replicated) :
    (desired.desiredValue f).disagrees (desired.observedValue observed f) = true ↔
      (instanceSchema.type f).Differs (desired.spec f) (observed.spec f) := by
  have hdesired : desired.desiredValue f = Schema.Record.value desired.spec f :=
    if_neg hreplicated
  have hobserved : desired.observedValue observed f = Schema.Record.value observed.spec f := by
    simp only [Document.observedValue, observedValue, if_neg hpassword, if_neg hreplicated]
  rw [hdesired, hobserved, ← FieldType.disagrees_iff]
  rfl

theorem flagged_iff_of_compared (desired observed : Document .dbInstance) {f : InstanceField}
    (hcompared : f ∈ instanceSchema.compared) :
    desired.Flagged observed f ↔
      (instanceSchema.type f).Differs (desired.spec f) (observed.spec f) := by
  have hplain : ∀ g ∈ instanceSchema.compared, g ≠ .password ∧ g ≠ .replicated := by decide
  have hmem : f ∈ desired.comparedFields :=
    List.mem_append_left _ (List.mem_append_left _ (List.mem_append_left _ hcompared))
  rw [← values_disagree_iff desired observed (hplain f hcompared).1 (hplain f hcompared).2]
  exact ⟨fun h => h.2, fun h => ⟨hmem, h⟩⟩

theorem type_ne_scaling (f : InstanceField) : instanceSchema.type f ≠ .scaling := by
  cases f <;> decide

theorem path_mem_paths_iff_of_compared (desired observed : Document .dbInstance)
    {f : InstanceField} (hcompared : f ∈ instanceSchema.compared) :
    instanceSchema.path f ∈ (desired.changes observed).paths ↔
      (instanceSchema.type f).Differs (desired.spec f) (observed.spec f) :=
  (Document.path_mem_paths_iff desired observed (type_ne_scaling f)).trans
    (flagged_iff_of_compared desired observed hcompared)

/-- The fields of a parent cluster are compared only for instances without one. -/
theorem owned_mem_comparedFields_iff (desired : Document .dbInstance) {f : InstanceField}
    (howned : f ∈ clusterOwned) : f ∈ desired.comparedFields ↔ desired.spec .cluster = none := by
  have hapart : ∀ g ∈ clusterOwned,
      g ≠ .password ∧ g ≠ .replicated ∧ g ∉ instanceSchema.compared := by decide
  obtain ⟨hpassword, hreplicated, hnot⟩ := hapart f howned
  simp only [Document.comparedFields, List.mem_append, List.mem_singleton]
  cases hcluster : desired.spec .cluster with
  | none => simp [howned]
  | some parent => simp [hpassword, hreplicated, hnot]

theorem flagged_iff_of_owned (desired observed : Document .dbInstance) {f : InstanceField}
    (howned : f ∈ clusterOwned) :
    desired.Flagged observed f ↔
      desired.spec .cluster = none ∧
        (instanceSchema.type f).Differs (desired.spec f) (observed.spec f) := by
  have hplain : ∀ g ∈ clusterOwned, g ≠ .password ∧ g ≠ .replicated := by decide
  obtain ⟨hpassword, hreplicated⟩ := hplain f howned
  rw [Document.Flagged, owned_mem_comparedFields_iff desired howned,
    values_disagree_iff desired observed hpassword hreplicated]

end Instance
end DbSteward
