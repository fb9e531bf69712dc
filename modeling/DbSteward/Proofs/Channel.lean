import DbSteward.Proofs.Fidelity

/-!
# Channels

What is desired of a resource reaches it in one of four ways.  Tags are settled by calls of
their own, the password and the log types are parts of their own of a modify request, and of all
other fields a request has a place for some.  Here the ways are written down for each of the two
kinds that are modified, apart from the form by which their requests are built, and the form is
shown to keep to them.
-/

namespace DbSteward

/-- A field with the type of its content. -/
structure Slot (S : Schema) (t : FieldType) where
  field : S.Field
  type_eq : S.type field = t

namespace Slot

variable {S : Schema} {t u : FieldType}

def get (slot : Slot S t) (r : S.Record) : t.Content :=
  slot.type_eq ▸ r slot.field

def set (slot : Slot S t) (r : S.Record) (content : t.Content) : S.Record :=
  Schema.Record.set r slot.field (slot.type_eq.symm ▸ content)

@[simp] theorem get_set (slot : Slot S t) (r : S.Record) (content : t.Content) :
    slot.get (slot.set r content) = content := by
  obtain ⟨field, rfl⟩ := slot
  exact Schema.Record.set_self r field content

theorem set_of_ne (slot : Slot S t) (r : S.Record) (content : t.Content) {f : S.Field}
    (hne : f ≠ slot.field) : slot.set r content f = r f :=
  Schema.Record.set_of_ne r _ hne.symm

theorem get_congr (slot : Slot S t) {a b : S.Record} (heq : a slot.field = b slot.field) :
    slot.get a = slot.get b := by
  rw [get, get, heq]

theorem value_field (slot : Slot S t) (r : S.Record) :
    Schema.Record.value r slot.field = t.value (slot.get r) := by
  obtain ⟨field, rfl⟩ := slot
  rfl

theorem field_ne (a : Slot S t) (b : Slot S u) (hne : t ≠ u) : a.field ≠ b.field := by
  intro heq
  rw [← a.type_eq, ← b.type_eq, heq] at hne
  exact hne rfl

end Slot

/-- The modify request that a call makes, if it is one on resources of the kind. -/
def Call.request? : Call → (kind : Kind) → Option (Modification kind.schema)
  | .modifyCluster request, .dbCluster => some request
  | .modifyInstance request, .dbInstance => some request
  | _, _ => none

/-- How what is desired of a resource reaches it. -/
structure Channels (S : Schema) where
  tags : Slot S .tags
  password : Slot S .secret
  logs : Slot S .texts
  /-- A modify request has a place for the field, given the desired and the observed spec. -/
  brings : S.Record → S.Record → S.Field → Bool

namespace Channels

variable {S : Schema}

/-- The field changed and a request brings what is desired there. -/
def Delivers (channels : Channels S) (changes : Changes) (desired observed : S.Record)
    (f : S.Field) : Prop :=
  channels.brings desired observed f = true ∧ changes.touches (S.path f) = true ∧
    (S.type f).isAbsent (desired f) = false

/-- A difference in the field stays because no request can express it: the field is settled in
no way of its own, and a request has no place for it or there is nothing to put there. -/
def unsent (channels : Channels S) (desired observed : S.Record) (f : S.Field) : Bool :=
  f != channels.tags.field && f != channels.password.field && f != channels.logs.field &&
    (!channels.brings desired observed f || (S.type f).isAbsent (desired f))

theorem unsent_iff {channels : Channels S} {desired observed : S.Record} {f : S.Field} :
    channels.unsent desired observed f = true ↔
      f ≠ channels.tags.field ∧ f ≠ channels.password.field ∧ f ≠ channels.logs.field ∧
        (channels.brings desired observed f = false ∨
          (S.type f).isAbsent (desired f) = true) := by
  simp [unsent, and_assoc]

/-- The updates of a kind, whose modify calls are built by the form, keep to the channels. -/
structure KeepsTo (kind : Kind) (channels : Channels kind.schema)
    (form : ModifyForm kind.schema) (toCall : Modification kind.schema → Call) : Prop where
  tags_eq : kind.tags = channels.tags.get
  tags_path : kind.tagsPath = kind.schema.path channels.tags.field
  tags_only : ∀ f, kind.schema.type f = .tags → f = channels.tags.field
  password_field : form.passwordField = channels.password.field
  password_eq : form.password = channels.password.get
  logs_field : form.logsField = channels.logs.field
  logs_eq : form.logs = channels.logs.get
  sends_eq : ∀ desired observed f, (kind.schema.type f).isAbsent (desired f) = false →
    form.sends desired observed f = channels.brings desired observed f
  brings_apart : ∀ desired observed,
    ∀ f ∈ [channels.tags.field, channels.password.field, channels.logs.field],
      channels.brings desired observed f = false
  request_toCall : ∀ request, (toCall request).request? kind = some request

section KeepsTo

variable {kind : Kind} {channels : Channels kind.schema} {form : ModifyForm kind.schema}
  {toCall : Modification kind.schema → Call} {context : Context} {changes : Changes}
  {desired observed : kind.Spec} {request : Modification kind.schema}

theorem KeepsTo.present_iff (hkeeps : KeepsTo kind channels form toCall)
    (hconveys : form.Conveys context changes desired observed request) (f : kind.schema.Field) :
    (kind.schema.type f).isAbsent (request.carried f) = false ↔
      channels.Delivers changes desired observed f := by
  rw [hconveys.present_iff]
  constructor
  · rintro ⟨hsends, htouches, hpresent⟩
    rw [hkeeps.sends_eq _ _ f hpresent] at hsends
    exact ⟨hsends, htouches, hpresent⟩
  · rintro ⟨hbrings, htouches, hpresent⟩
    rw [← hkeeps.sends_eq _ _ f hpresent] at hbrings
    exact ⟨hbrings, htouches, hpresent⟩

end KeepsTo

end Channels

namespace Cluster

/-- An engine version has a place only if minor upgrades do not reach it by themselves. -/
def brings (desired observed : clusterSchema.Record) (f : ClusterField) : Bool :=
  if f = .engineVersion then
    Version.mustRequest ((desired .engineVersion).getD "") ((observed .engineVersion).getD "")
      ((desired .autoMinorUpgrade).getD true)
  else plainlySent.contains f

def channels : Channels clusterSchema where
  tags := ⟨.tags, rfl⟩
  password := ⟨.password, rfl⟩
  logs := ⟨.logExports, rfl⟩
  brings := brings

theorem sends_eq_brings {desired observed : clusterSchema.Record} {f : ClusterField}
    (hpresent : (clusterSchema.type f).isAbsent (desired f) = false) :
    modifyForm.sends desired observed f = brings desired observed f := by
  rw [Bool.eq_iff_iff, brings]
  split
  · rename_i hversion
    subst hversion
    obtain ⟨version, hdesired⟩ : ∃ version, desired .engineVersion = some version :=
      Option.isSome_iff_exists.1 (by simpa [FieldType.isAbsent] using hpresent)
    rw [sends_engineVersion_iff hdesired, hdesired]
    rfl
  · rename_i hversion
    rw [List.contains_iff_mem]
    exact ⟨fun hsends => plainlySent_of_sends hsends hversion,
      fun hplain => sends_of_plainlySent hplain desired observed⟩

theorem keepsTo_channels : Channels.KeepsTo .dbCluster channels modifyForm .modifyCluster where
  tags_eq := rfl
  tags_path := rfl
  tags_only := fun f => by cases f <;> decide
  password_field := rfl
  password_eq := rfl
  logs_field := rfl
  logs_eq := rfl
  sends_eq := fun _ _ _ hpresent => sends_eq_brings hpresent
  brings_apart := fun _ _ f hmem => by
    have hfields : ∀ f ∈ [ClusterField.tags, .password, .logExports],
        f ≠ .engineVersion ∧ plainlySent.contains f = false := by decide
    exact (if_neg (hfields f hmem).1).trans (hfields f hmem).2
  request_toCall := fun _ => rfl

end Cluster

namespace Instance

def channels : Channels instanceSchema where
  tags := ⟨.tags, rfl⟩
  password := ⟨.password, rfl⟩
  logs := ⟨.logExports, rfl⟩
  brings := fun _ _ f => plainlySent.contains f

theorem keepsTo_channels : Channels.KeepsTo .dbInstance channels modifyForm .modifyInstance where
  tags_eq := rfl
  tags_path := rfl
  tags_only := fun f => by cases f <;> decide
  password_field := rfl
  password_eq := rfl
  logs_field := rfl
  logs_eq := rfl
  sends_eq := fun desired observed f _ => by
    rw [Bool.eq_iff_iff, sends_iff]
    exact List.contains_iff_mem.symm
  brings_apart := fun _ _ f hmem => by
    have hfields : ∀ f ∈ [InstanceField.tags, .password, .logExports],
        plainlySent.contains f = false := by decide
    exact hfields f hmem
  request_toCall := fun _ => rfl

end Instance
end DbSteward
