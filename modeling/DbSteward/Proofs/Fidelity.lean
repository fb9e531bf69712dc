import DbSteward.Proofs.Update

/-!
# Faithful requests

A modify request that a pass sends says what the two documents say: each field is there
exactly when it differs and there is something to send, with the desired content.  A pass
that cannot say it that way sends no request and gives up.
-/

namespace DbSteward

namespace Cluster

theorem mem_heldBack_iff {desired observed : clusterSchema.Record} {version : String}
    (hdesired : desired .engineVersion = some version) (f : ClusterField) :
    f ∈ heldBack desired observed ↔
      f = .engineVersion ∧
        Version.mustRequest version ((observed .engineVersion).getD "")
          ((desired .autoMinorUpgrade).getD true) = false := by
  unfold heldBack autoMinor
  rw [hdesired]
  simp only
  split
  · rename_i hmust
    simp [hmust]
  · rename_i hmust
    simp [hmust]

theorem eq_engineVersion_of_mem_heldBack {desired observed : clusterSchema.Record}
    {f : ClusterField} (hmem : f ∈ heldBack desired observed) : f = .engineVersion := by
  cases hdesired : desired .engineVersion with
  | none => simp [heldBack, hdesired] at hmem
  | some version => exact ((mem_heldBack_iff hdesired f).1 hmem).1

/-- The fields that a request carries whenever they differ and are desired. -/
def plainlySent : List ClusterField :=
  [.backtrackWindow, .backupRetention, .copyTags, .parameterGroup, .deletionProtection,
    .httpEndpoint, .iamAuthentication, .port, .backupWindow, .maintenanceWindow,
    .storageType, .securityGroups, .scaling]

/-- What a request to modify a cluster says of the normal desired and the observed spec. -/
structure Faithful (context : Context) (annotations : Annotations)
    (desired observed : clusterSchema.Record) (request : Modification clusterSchema) : Prop where
  identifier : desired .identifier = some request.identifier
  at_once : request.applyImmediately = true
  major_allowed : request.allowMajorUpgrade = true
  sent_iff : ∀ f ∈ plainlySent,
    (clusterSchema.type f).isAbsent (request.carried f) = false ↔
      (clusterSchema.type f).isAbsent (desired f) = false ∧
        (clusterSchema.type f).Differs (desired f) (observed f)
  version_iff : ∀ version, request.carried .engineVersion = some version ↔
    desired .engineVersion = some version ∧
      desired .engineVersion ≠ observed .engineVersion ∧
      Version.mustRequest version ((observed .engineVersion).getD "")
        ((desired .autoMinorUpgrade).getD true) = true
  nothing_else : ∀ f, f ∉ plainlySent → f ≠ .engineVersion →
    (clusterSchema.type f).isAbsent (request.carried f) = true
  unchanged : ∀ f, (clusterSchema.type f).isAbsent (request.carried f) = false →
    request.carried f = desired f
  narrow : ∀ f ∈ [ClusterField.backupRetention, .port], ∀ i,
    (clusterSchema.type f).word? (request.carried f) = some i → i.toInt32.toInt64 = i
  logs_iff : ∀ exports, request.logs = some exports ↔
    ¬ SameItems ((desired .logExports).getD []) ((observed .logExports).getD []) ∧
      exports = .between ((desired .logExports).getD []) ((observed .logExports).getD [])
  password_iff : ∀ text, request.password = some text ↔
    SecretRef.textOf (desired .password) ≠ annotations.lastAppliedSecret ∧ text ≠ "" ∧
      ∃ reference, desired .password = some reference ∧ context.secrets reference = some text

def Blocks (desired observed : clusterSchema.Record) (f : ClusterField) : Prop :=
  (f = .identifier ∧ desired .identifier = none) ∨
    (f ∈ [ClusterField.backupRetention, .port] ∧
      (clusterSchema.type f).Differs (desired f) (observed f) ∧
      ∃ i, (clusterSchema.type f).word? (desired f) = some i ∧
        ¬ (-2147483648 ≤ i.toInt ∧ i.toInt ≤ 2147483647))

theorem sends_of_plainlySent {f : ClusterField} (hplain : f ∈ plainlySent)
    (desired observed : clusterSchema.Record) : modifyForm.sends desired observed f = true := by
  have hfields : ∀ g ∈ plainlySent, g ∈ modifyForm.sendable ∧ g ≠ .engineVersion := by decide
  rw [ModifyForm.sends_iff]
  refine ⟨(hfields f hplain).1, fun hheld => ?_⟩
  exact (hfields f hplain).2 (eq_engineVersion_of_mem_heldBack hheld)

theorem plainlySent_of_sends {f : ClusterField} {desired observed : clusterSchema.Record}
    (hsends : modifyForm.sends desired observed f = true) (hversion : f ≠ .engineVersion) :
    f ∈ plainlySent := by
  have hfields : ∀ g ∈ modifyForm.sendable, g ≠ .engineVersion → g ∈ plainlySent := by decide
  rw [ModifyForm.sends_iff] at hsends
  exact hfields f hsends.1 hversion

theorem sends_engineVersion_iff {desired observed : clusterSchema.Record} {version : String}
    (hdesired : desired .engineVersion = some version) :
    modifyForm.sends desired observed .engineVersion = true ↔
      Version.mustRequest version ((observed .engineVersion).getD "")
        ((desired .autoMinorUpgrade).getD true) = true := by
  have hsendable : ClusterField.engineVersion ∈ modifyForm.sendable := by decide
  have hheld : ClusterField.engineVersion ∈ modifyForm.heldBack desired observed ↔
      Version.mustRequest version ((observed .engineVersion).getD "")
        ((desired .autoMinorUpgrade).getD true) = false :=
    (mem_heldBack_iff hdesired _).trans (and_iff_right rfl)
  rw [ModifyForm.sends_iff, hheld, Bool.not_eq_false]
  exact and_iff_right hsendable

section Document

variable {context : Context} {desired observed : Document .dbCluster}
  {request : Modification clusterSchema}

theorem touches_iff (desired observed : Document .dbCluster) {f : ClusterField}
    (hne : f ≠ .password) :
    (desired.changes observed).touches (clusterSchema.path f) = true ↔
      (clusterSchema.type f).Differs (desired.spec f) (observed.spec f) := by
  rw [← flagged_iff desired observed hne]
  exact Document.touches_path_iff desired observed f

theorem faithful_of_conveys
    (hconveys : modifyForm.Conveys context (desired.changes observed) desired.spec
      observed.spec request) :
    Faithful context desired.metadata.annotations desired.spec observed.spec request where
  identifier := hconveys.identifier_eq
  at_once := hconveys.at_once
  major_allowed := hconveys.major_allowed
  sent_iff := by
    intro f hplain
    have hne : ∀ g ∈ plainlySent, g ≠ .password := by decide
    rw [hconveys.present_iff, touches_iff desired observed (hne f hplain)]
    simp [sends_of_plainlySent hplain, and_comm]
  version_iff := by
    intro version
    have hpresent := hconveys.present_iff .engineVersion
    rw [touches_iff desired observed (by decide)] at hpresent
    constructor
    · intro hcarried
      have hsome : (clusterSchema.type .engineVersion).isAbsent
          (request.carried .engineVersion) = false := by
        rw [hcarried]
        rfl
      obtain ⟨hsends, hdiffers, -⟩ := hpresent.1 hsome
      have hdesired : desired.spec .engineVersion = some version := by
        rw [← hconveys.unchanged hsome, hcarried]
      exact ⟨hdesired, hdiffers, (sends_engineVersion_iff hdesired).1 hsends⟩
    · rintro ⟨hdesired, hdiffers, hmust⟩
      have hsome := hpresent.2 ⟨(sends_engineVersion_iff hdesired).2 hmust, hdiffers, by
        rw [hdesired]
        rfl⟩
      rw [hconveys.unchanged hsome, hdesired]
  nothing_else := by
    intro f hplain hversion
    rw [← Bool.not_eq_false, hconveys.present_iff]
    rintro ⟨hsends, -⟩
    exact hplain (plainlySent_of_sends hsends hversion)
  unchanged := fun f hpresent => hconveys.unchanged hpresent
  narrow := fun f hnarrow i hword => hconveys.survives_narrowing hnarrow hword
  logs_iff := by
    intro exports
    rw [hconveys.logs_iff]
    exact and_congr_left' (touches_iff desired observed (f := .logExports) (by decide))
  password_iff := by
    intro text
    rw [hconveys.password_iff]
    refine and_congr_left' ?_
    rw [← flagged_password_iff desired observed]
    exact Document.touches_path_iff desired observed ClusterField.password

theorem blocks_iff (desired observed : Document .dbCluster) (f : ClusterField) :
    Blocks desired.spec observed.spec f ↔
      modifyForm.Blocks (desired.changes observed) desired.spec observed.spec f := by
  have hfields : ∀ g ∈ modifyForm.narrow, g ∈ plainlySent ∧ g ≠ .password := by decide
  unfold Blocks ModifyForm.Blocks ModifyForm.Misfits
  refine or_congr_right (and_congr_right fun hnarrow => ?_)
  rw [touches_iff desired observed (hfields f hnarrow).2,
    sends_of_plainlySent (hfields f hnarrow).1]
  simp only [true_and]
  refine and_congr_right fun _ => exists_congr fun i => and_congr_right fun _ => ?_
  rw [← ModifyForm.fitsNarrow_iff, Bool.not_eq_true]

end Document

end Cluster

namespace Instance

/-- The fields that a request carries whenever they differ and are desired. -/
def plainlySent : List InstanceField :=
  [.storage, .autoMinorUpgrade, .backupRetention, .caCertificate, .copyTags, .insightsMode,
    .instanceClass, .parameterGroup, .deletionProtection, .engineVersion, .iops,
    .storageLimit, .monitoringInterval, .multiZone, .performanceInsights, .backupWindow,
    .maintenanceWindow, .publiclyAccessible, .storageType, .securityGroups]

/-- A field of a parent cluster differs only for an instance without one. -/
def DiffersIn (desired observed : instanceSchema.Record) (f : InstanceField) : Prop :=
  (f ∈ clusterOwned → desired .cluster = none) ∧
    (instanceSchema.type f).Differs (desired f) (observed f)

/-- What a request to modify an instance says of the normal desired and the observed spec. -/
structure Faithful (context : Context) (annotations : Annotations)
    (desired observed : instanceSchema.Record) (request : Modification instanceSchema) :
    Prop where
  identifier : desired .identifier = some request.identifier
  at_once : request.applyImmediately = true
  major_allowed : request.allowMajorUpgrade = true
  sent_iff : ∀ f ∈ plainlySent,
    (instanceSchema.type f).isAbsent (request.carried f) = false ↔
      (instanceSchema.type f).isAbsent (desired f) = false ∧ DiffersIn desired observed f
  nothing_else : ∀ f, f ∉ plainlySent →
    (instanceSchema.type f).isAbsent (request.carried f) = true
  unchanged : ∀ f, (instanceSchema.type f).isAbsent (request.carried f) = false →
    request.carried f = desired f
  narrow : ∀ f ∈ [InstanceField.storage, .backupRetention, .iops, .storageLimit,
      .monitoringInterval], ∀ i,
    (instanceSchema.type f).word? (request.carried f) = some i → i.toInt32.toInt64 = i
  logs_iff : ∀ exports, request.logs = some exports ↔
    desired .cluster = none ∧
      ¬ SameItems ((desired .logExports).getD []) ((observed .logExports).getD []) ∧
      exports = .between ((desired .logExports).getD []) ((observed .logExports).getD [])
  password_iff : ∀ text, request.password = some text ↔
    SecretRef.textOf (desired .password) ≠ annotations.lastAppliedSecret ∧ text ≠ "" ∧
      ∃ reference, desired .password = some reference ∧ context.secrets reference = some text

def Blocks (desired observed : instanceSchema.Record) (f : InstanceField) : Prop :=
  (f = .identifier ∧ desired .identifier = none) ∨
    (f ∈ [InstanceField.storage, .backupRetention, .iops, .storageLimit,
        .monitoringInterval] ∧
      DiffersIn desired observed f ∧
      ∃ i, (instanceSchema.type f).word? (desired f) = some i ∧
        ¬ (-2147483648 ≤ i.toInt ∧ i.toInt ≤ 2147483647))

theorem sends_iff (desired observed : instanceSchema.Record) (f : InstanceField) :
    modifyForm.sends desired observed f = true ↔ f ∈ plainlySent := by
  rw [ModifyForm.sends_iff]
  exact and_iff_left (List.not_mem_nil (a := f))

section Document

variable {context : Context} {desired observed : Document .dbInstance}
  {request : Modification instanceSchema}

theorem touches_iff (desired observed : Document .dbInstance) {f : InstanceField}
    (hfield : f ∈ plainlySent ∨ f = .logExports) :
    (desired.changes observed).touches (instanceSchema.path f) = true ↔
      DiffersIn desired.spec observed.spec f := by
  have hfields : ∀ g, g ∈ plainlySent ∨ g = .logExports →
      g ∈ clusterOwned ∨ g ∈ instanceSchema.compared ∧ g ∉ clusterOwned := by
    intro g
    cases g <;> decide
  have htouches := Document.touches_path_iff desired observed f
  rcases hfields f hfield with howned | ⟨hcompared, hnot⟩
  · rw [DiffersIn, forall_prop_of_true howned, ← flagged_iff_of_owned desired observed howned]
    exact htouches
  · rw [DiffersIn, forall_prop_of_false hnot, true_and,
      ← flagged_iff_of_compared desired observed hcompared]
    exact htouches

theorem faithful_of_conveys
    (hconveys : modifyForm.Conveys context (desired.changes observed) desired.spec
      observed.spec request) :
    Faithful context desired.metadata.annotations desired.spec observed.spec request where
  identifier := hconveys.identifier_eq
  at_once := hconveys.at_once
  major_allowed := hconveys.major_allowed
  sent_iff := by
    intro f hplain
    rw [hconveys.present_iff, touches_iff desired observed (.inl hplain), sends_iff]
    simp [hplain, and_comm]
  nothing_else := by
    intro f hplain
    rw [← Bool.not_eq_false, hconveys.present_iff, sends_iff]
    rintro ⟨hsends, -⟩
    exact hplain hsends
  unchanged := fun f hpresent => hconveys.unchanged hpresent
  narrow := fun f hnarrow i hword => hconveys.survives_narrowing hnarrow hword
  logs_iff := by
    intro exports
    have howned : InstanceField.logExports ∈ clusterOwned := by decide
    have htouches := touches_iff desired observed (f := .logExports) (.inr rfl)
    rw [DiffersIn, forall_prop_of_true howned] at htouches
    rw [hconveys.logs_iff, ← and_assoc]
    exact and_congr_left' htouches
  password_iff := by
    intro text
    rw [hconveys.password_iff]
    refine and_congr_left' ?_
    rw [← flagged_password_iff desired observed]
    exact Document.touches_path_iff desired observed InstanceField.password

theorem blocks_iff (desired observed : Document .dbInstance) (f : InstanceField) :
    Blocks desired.spec observed.spec f ↔
      modifyForm.Blocks (desired.changes observed) desired.spec observed.spec f := by
  have hfields : ∀ g ∈ modifyForm.narrow, g ∈ plainlySent := by decide
  unfold Blocks ModifyForm.Blocks ModifyForm.Misfits
  refine or_congr_right (and_congr_right fun hnarrow => ?_)
  rw [touches_iff desired observed (.inl (hfields f hnarrow)), sends_iff]
  simp only [hfields f hnarrow, true_and]
  refine and_congr_right fun _ => exists_congr fun i => and_congr_right fun _ => ?_
  rw [← ModifyForm.fitsNarrow_iff, Bool.not_eq_true]

end Document

end Instance

namespace Pass

/-! ## Passes -/

theorem faithful_of_modifyCluster {context : Context} {world : World}
    {desired observed : Document .dbCluster} {request : Modification clusterSchema}
    (hmem : .modifyCluster request ∈ calls world (settle context desired observed)) :
    Cluster.Faithful context desired.metadata.annotations (desired.normal observed).spec
      observed.spec request :=
  Cluster.faithful_of_conveys
    (ModifyForm.request_conveys (modifyCluster_mem_calls hmem).2)

theorem faithful_of_modifyInstance {context : Context} {world : World}
    {desired observed : Document .dbInstance} {request : Modification instanceSchema}
    (hmem : .modifyInstance request ∈ calls world (settle context desired observed)) :
    Instance.Faithful context desired.metadata.annotations (desired.normal observed).spec
      observed.spec request :=
  Instance.faithful_of_conveys
    (ModifyForm.request_conveys (modifyInstance_mem_calls hmem).2)

theorem no_modifyCluster_of_blocks {context : Context} {world : World}
    {desired observed : Document .dbCluster} {f : ClusterField}
    (hblocks : Cluster.Blocks (desired.normal observed).spec observed.spec f)
    (request : Modification clusterSchema) :
    .modifyCluster request ∉ calls world (settle context desired observed) := by
  intro hmem
  have hconveys := ModifyForm.request_conveys (modifyCluster_mem_calls hmem).2
  exact hconveys.not_blocks f ((Cluster.blocks_iff _ observed f).1 hblocks)

theorem no_modifyInstance_of_blocks {context : Context} {world : World}
    {desired observed : Document .dbInstance} {f : InstanceField}
    (hblocks : Instance.Blocks (desired.normal observed).spec observed.spec f)
    (request : Modification instanceSchema) :
    .modifyInstance request ∉ calls world (settle context desired observed) := by
  intro hmem
  have hconveys := ModifyForm.request_conveys (modifyInstance_mem_calls hmem).2
  exact hconveys.not_blocks f ((Instance.blocks_iff _ observed f).1 hblocks)

/-- Every modify request that a pass sends is faithful.  Where none can be built, no modify
call is made, and a pass that would have made one settles what comes before it and gives up,
naming a field to blame. -/
theorem modify_requests_faithful (context : Context) :
    (∀ desired observed : Document .dbCluster,
      (∀ world request, .modifyCluster request ∈ calls world (settle context desired observed) →
        Cluster.Faithful context desired.metadata.annotations (desired.normal observed).spec
          observed.spec request) ∧
      ∀ f, Cluster.Blocks (desired.normal observed).spec observed.spec f →
        (∀ world request,
          .modifyCluster request ∉ calls world (settle context desired observed)) ∧
        ∀ arn, (Plan.of context.settings desired observed).decision = .proceed →
          observed.status.arn = some arn →
          (Plan.of context.settings desired observed).changes.touchesBeyond
            [Kind.tagsPath .dbCluster] = true →
          ∃ g message, Cluster.Blocks (desired.normal observed).spec observed.spec g ∧
            settle context desired observed = (do
              updateTags arn (desired.normal observed) observed
                (Plan.of context.settings desired observed).changes
              pure (.abandoned context.now
                (Obstacle.invalidSpec (clusterSchema.label g) message).message
                (givenBack desired observed)))) ∧
    (∀ desired observed : Document .dbInstance,
      (∀ world request, .modifyInstance request ∈ calls world (settle context desired observed) →
        Instance.Faithful context desired.metadata.annotations (desired.normal observed).spec
          observed.spec request) ∧
      ∀ f, Instance.Blocks (desired.normal observed).spec observed.spec f →
        (∀ world request,
          .modifyInstance request ∉ calls world (settle context desired observed)) ∧
        ∀ arn step, (Plan.of context.settings desired observed).decision = .proceed →
          observed.status.arn = some arn →
          Replication.step context.settings (replicationIntent (desired.normal observed))
            (replicationObservation arn observed) = .ok step →
          (∀ reason, step ≠ .wait reason) →
          (Plan.of context.settings desired observed).changes.touchesBeyond
            [Kind.tagsPath .dbInstance, Replication.path] = true →
          ∃ g message, Instance.Blocks (desired.normal observed).spec observed.spec g ∧
            settle context desired observed = (do
              updateTags arn (desired.normal observed) observed
                (Plan.of context.settings desired observed).changes
              let _ ← takeStep context.settings step
              pure (.abandoned context.now
                (Obstacle.invalidSpec (instanceSchema.label g) message).message
                (givenBack desired observed)))) := by
  refine ⟨fun desired observed => ⟨fun world request hmem => faithful_of_modifyCluster hmem,
    fun f hblocks => ⟨fun world => no_modifyCluster_of_blocks hblocks, ?_⟩⟩,
    fun desired observed => ⟨fun world request hmem => faithful_of_modifyInstance hmem,
    fun f hblocks => ⟨fun world => no_modifyInstance_of_blocks hblocks, ?_⟩⟩⟩
  · intro arn hdecision harn hbeyond
    obtain ⟨g, message, hg, hrequest⟩ := ModifyForm.request_of_blocks context
      ((Cluster.blocks_iff _ observed f).1 hblocks)
    exact ⟨g, message, (Cluster.blocks_iff _ observed g).2 hg,
      settle_cluster_of_obstacle hdecision harn hbeyond hrequest⟩
  · intro arn step hdecision harn hstep hwait hbeyond
    obtain ⟨g, message, hg, hrequest⟩ := ModifyForm.request_of_blocks context
      ((Instance.blocks_iff _ observed f).1 hblocks)
    exact ⟨g, message, (Instance.blocks_iff _ observed g).2 hg,
      settle_instance_of_obstacle hdecision harn hstep hwait hbeyond hrequest⟩

theorem port_request_faithful :
    ∃ request, Call.modifyCluster request ∈ calls (.initial (.memory .fresh))
        (settle .sample
          (.sampleCluster "provisioned" 5433 [] none none)
          (.sampleCluster "provisioned" 5432 [] (some "arn:main") (some "available"))) ∧
      Cluster.Faithful .sample Table.empty
        ((Document.sampleCluster "provisioned" 5433 [] none none).normal
          (.sampleCluster "provisioned" 5432 [] (some "arn:main") (some "available"))).spec
        (Document.sampleCluster "provisioned" 5432 [] (some "arn:main") (some "available")).spec
        request := by
  have hsent : ((calls (.initial (.memory .fresh)) (settle .sample
      (.sampleCluster "provisioned" 5433 [] none none)
      (.sampleCluster "provisioned" 5432 [] (some "arn:main") (some "available")))).any fun c =>
        match c with
        | .modifyCluster _ => true
        | _ => false) = true := by
    decide +kernel
  obtain ⟨c, hmem, hmodify⟩ := List.any_eq_true.1 hsent
  cases c with
  | modifyCluster request =>
      exact ⟨request, hmem, ((modify_requests_faithful _).1 _ _).1 _ request hmem⟩
  | _ => simp at hmodify

end Pass
end DbSteward
