import DbSteward.Proofs.Codec
import DbSteward.Proofs.Comparison
import DbSteward.Proofs.MomentText
import DbSteward.Proofs.Rounding

/-!
# Documents read back

A document whose real numbers are finite and whose moments have a text is read back from what
it is written as.  Every document read from a value with bounded numbers is of that kind, so
reading, writing and reading again gives the document that was read first.
-/

namespace DbSteward

open Json (RoundTrips)

/-! ## Numbers -/

namespace Json

theorem RoundTrips.real : RoundTrips real? ofReal fun x => x.isFinite = true where
  read_write := by
    intro x hfinite
    rw [ofReal, if_pos hfinite, real?]
  sound_of_read := by
    intro j x hbounded hread
    cases hbounded with
    | integer hlower hupper =>
        obtain rfl := Option.some.inj hread
        exact Binary64.isFinite_ofInt hlower hupper
    | real hfinite =>
        obtain rfl := Option.some.inj hread
        exact hfinite
    | _ => cases hread

theorem RoundTrips.optionalText :
    RoundTrips (Json.optional text?) (ofOption .text) fun _ => True :=
  (RoundTrips.text.optional fun _ _ => Json.noConfusion).congr (by simp)

theorem RoundTrips.optionalWord :
    RoundTrips (Json.optional word?) (ofOption fun i => .integer i.toInt) fun _ => True :=
  (RoundTrips.word.optional fun _ _ => Json.noConfusion).congr (by simp)

theorem RoundTrips.optionalReal :
    RoundTrips (Json.optional real?) (ofOption ofReal) fun v => ∀ x ∈ v, x.isFinite = true :=
  RoundTrips.real.optional fun x hfinite => by
    rw [ofReal, if_pos hfinite]
    exact Json.noConfusion

theorem plainWithin_flag (depth : Nat) (b : Bool) : (flag b).plainWithin depth = true := by
  cases depth <;> rfl

theorem plainWithin_text (depth : Nat) (s : String) : (text s).plainWithin depth = true := by
  cases depth <;> rfl

theorem plainWithin_array {depth : Nat} {items : List Json} :
    (array items).plainWithin (depth + 1) = true ↔
      ∀ item ∈ items, item.plainWithin depth = true := by
  have hitems : itemsPlainWithin depth items = items.all (plainWithin depth) := by
    induction items with
    | nil => rfl
    | cons item items ih => rw [itemsPlainWithin, ih, List.all_cons]
  rw [plainWithin, hitems, List.all_eq_true]

theorem plainWithin_object {depth : Nat} {members : List (String × Json)} :
    (object members).plainWithin (depth + 1) = true ↔
      ∀ member ∈ members, member.2.plainWithin depth = true := by
  have hmembers : membersPlainWithin depth members =
      members.all fun member => plainWithin depth member.2 := by
    induction members with
    | nil => rfl
    | cons member members ih => rw [membersPlainWithin, ih, List.all_cons]
  rw [plainWithin, hmembers, List.all_eq_true]

end Json

/-! ## Fields of a spec -/

theorem Tag.roundTrips : RoundTrips Tag.read? Tag.toJson fun _ => True where
  read_write := by
    rintro ⟨key, value⟩ -
    cases value with
    | none => rfl
    | some value => rfl
  sound_of_read := fun _ _ => trivial

theorem SecretRef.roundTrips : RoundTrips SecretRef.read? SecretRef.toJson fun _ => True where
  read_write := fun _ => rfl
  sound_of_read := fun _ _ => trivial

def Scaling.reals (s : Scaling) : List Binary64 :=
  s.most.toList ++ s.least.toList

theorem Scaling.roundTrips :
    RoundTrips Scaling.read? Scaling.toJson fun s => ∀ x ∈ s.reals, x.isFinite = true where
  read_write := by
    rintro ⟨most, least⟩ hfinite
    have hmost := RoundTrips.optionalReal.read_write (a := most) fun x hmem =>
      hfinite x (List.mem_append_left _ (Option.mem_toList.2 hmem))
    have hleast := RoundTrips.optionalReal.read_write (a := least) fun x hmem =>
      hfinite x (List.mem_append_right _ (Option.mem_toList.2 hmem))
    rw [Scaling.toJson, Scaling.read?,
      Json.record?_object ["maxCapacity", "minCapacity"] (List.Sublist.refl _) (by decide)]
    simp only [Option.bind_eq_bind, Option.bind_some]
    simp only [Json.Finder.withDefault, Named.lookup_cons, String.reduceEq, if_true, if_false]
    simp only [hmost, hleast]
    rfl
  sound_of_read := by
    intro j s hbounded hread
    obtain ⟨find, hfind, hread⟩ := Option.bind_eq_some_iff.1 hread
    obtain ⟨most, hmost, hread⟩ := Option.bind_eq_some_iff.1 hread
    obtain ⟨least, hleast, hreturn⟩ := Option.bind_eq_some_iff.1 hread
    obtain rfl := Option.some.inj hreturn
    have hfinder := hbounded.of_record? hfind
    intro x hmem
    rcases List.mem_append.1 hmem with hmem | hmem
    · exact RoundTrips.optionalReal.sound_of_withDefault hfinder (by simp) hmost x
        (Option.mem_toList.1 hmem)
    · exact RoundTrips.optionalReal.sound_of_withDefault hfinder (by simp) hleast x
        (Option.mem_toList.1 hmem)

namespace FieldType

/-- The real numbers in a field. -/
def reals : (t : FieldType) → t.Content → List Binary64
  | .scaling, v => (v.map Scaling.reals).getD []
  | .text, _ => []
  | .integer, _ => []
  | .flag, _ => []
  | .texts, _ => []
  | .tags, _ => []
  | .secret, _ => []
  | .overrides, _ => []

theorem reals_absent (t : FieldType) : t.reals t.absent = [] := by
  cases t <;> rfl

theorem roundTrips (t : FieldType) :
    RoundTrips t.read? t.toJson fun v => ∀ x ∈ t.reals v, x.isFinite = true := by
  cases t with
  | text => exact RoundTrips.optionalText.congr (by simp [reals])
  | integer => exact RoundTrips.optionalWord.congr (by simp [reals])
  | flag => exact (RoundTrips.flag.optional fun _ _ => Json.noConfusion).congr (by simp [reals])
  | texts =>
      exact (RoundTrips.text.list.optional fun _ _ => Json.noConfusion).congr (by simp [reals])
  | tags => exact Tag.roundTrips.list.congr (by simp [reals])
  | secret =>
      exact (SecretRef.roundTrips.optional fun _ _ => Json.noConfusion).congr (by simp [reals])
  | scaling =>
      refine (Scaling.roundTrips.optional fun _ _ => Json.noConfusion).congr fun v => ?_
      cases v <;> simp [reals]
  | overrides =>
      exact (RoundTrips.optionalText.table.optional fun _ _ => Json.noConfusion).congr
        (by simp [reals])

end FieldType

/-! ## Specs -/

namespace Schema

variable {S : Schema}

/-- The real numbers in all fields. -/
def Record.reals (r : S.Record) : List Binary64 :=
  S.fields.flatMap fun f => (S.type f).reals (r f)

theorem roundTrips (hlawful : S.Lawful) (hkeys : (S.fields.map S.key).Nodup) :
    RoundTrips S.read? Record.toJson fun r => ∀ x ∈ Record.reals r, x.isFinite = true where
  read_write := by
    intro r hfinite
    have hnodup : ((S.fields.map fun f => (S.key f, (S.type f).toJson (r f))).map
        Prod.fst).Nodup := by
      rwa [List.map_map]
    have hfield : ∀ f, S.field? (fun name => (S.fields.map fun f =>
        (S.key f, (S.type f).toJson (r f))).lookup name) f = some (r f) := by
      intro f
      have hmem := List.mem_map_of_mem (f := fun f => (S.key f, (S.type f).toJson (r f)))
        (hlawful.mem_fields f)
      rw [field?, Json.Finder.withDefault, Named.lookup_of_mem hnodup hmem]
      exact (S.type f).roundTrips.read_write fun x hx =>
        hfinite x (List.mem_flatMap.2 ⟨f, hlawful.mem_fields f, hx⟩)
    rw [Record.toJson, read?, Json.record?_object _ (List.Sublist.refl _) hnodup]
    simp [hfield]
  sound_of_read := by
    intro j r hbounded hread x hmem
    obtain ⟨find, hfind, hread⟩ := Option.bind_eq_some_iff.1 hread
    obtain ⟨hall, hreturn⟩ := Option.ite_none_right_eq_some.1 hread
    obtain ⟨f, hf, hx⟩ := List.mem_flatMap.1 hmem
    obtain ⟨content, hcontent⟩ := Option.isSome_iff_exists.1 (List.all_eq_true.1 hall f hf)
    obtain rfl := Option.some.inj hreturn
    beta_reduce at hx
    rw [hcontent, Option.getD_some] at hx
    refine (S.type f).roundTrips.sound_of_withDefault (hbounded.of_record? hfind) ?_ hcontent x hx
    rw [FieldType.reals_absent]
    exact fun _ hnil => absurd hnil List.not_mem_nil

end Schema

theorem Kind.keys_nodup (kind : Kind) : (kind.schema.fields.map kind.schema.key).Nodup := by
  cases kind with
  | dbCluster => decide +kernel
  | dbInstance => decide +kernel
  | parameterGroup scope => cases scope <;> decide
  | subnetGroup => decide
  | snapshot scope => cases scope <;> decide

theorem Kind.spec_roundTrips (kind : Kind) :
    RoundTrips kind.schema.read? Schema.Record.toJson
      fun spec => ∀ x ∈ Schema.Record.reals spec, x.isFinite = true :=
  Schema.roundTrips kind.schema_lawful kind.keys_nodup

/-! ## Metadata and status -/

theorem Metadata.roundTrips : RoundTrips Metadata.read? Metadata.toJson fun _ => True where
  read_write := by
    rintro ⟨name, space, annotations⟩ -
    have hkeys : ∀ value : Json,
        Json.record? ["name", "namespace", "annotations"] (.object
          [("name", .text name), ("namespace", .text space), ("annotations", value)]) = _ :=
      fun value => Json.record?_object ["name", "namespace", "annotations"]
        (List.Sublist.refl _) (by decide)
    rw [Metadata.toJson, Metadata.read?]
    dsimp only
    split
    · rename_i hempty
      rw [Table.isEmpty_iff.1 hempty]
      rfl
    · rw [List.cons_append, List.cons_append, List.nil_append, hkeys]
      simp only [Option.bind_eq_bind, Option.bind_some, Json.Finder.withDefault,
        Json.Finder.required, Named.lookup_cons, String.reduceEq, if_true, if_false, Json.text?,
        RoundTrips.text.table.read_write fun _ _ => trivial]
      rfl
  sound_of_read := fun _ _ => trivial

theorem Instance.Pending.roundTrips :
    RoundTrips Instance.Pending.read? Instance.Pending.toJson fun _ => True where
  read_write := by
    rintro ⟨backupRetention, storage⟩ -
    rw [Instance.Pending.toJson, Instance.Pending.read?,
      Json.record?_object ["backupRetentionPeriod", "allocatedStorage"] (List.Sublist.refl _)
        (by decide)]
    simp only [Option.bind_eq_bind, Option.bind_some]
    simp only [Json.Finder.withDefault, Named.lookup_cons, String.reduceEq, if_true, if_false]
    simp only [RoundTrips.optionalWord.read_write trivial]
    rfl
  sound_of_read := fun _ _ => trivial

theorem Instance.replication_roundTrips :
    RoundTrips Instance.readReplication? Instance.replicationToJson fun _ => True where
  read_write := by
    intro arn _
    cases arn with
    | none => rfl
    | some arn => rfl
  sound_of_read := fun _ _ => trivial

theorem ConditionKind.read?_name (inOpen : Bool) (kind : ConditionKind) :
    read? inOpen (.text kind.name) = some kind := by
  cases kind <;> rfl

namespace Condition

theorem keys_optionalMember (name : String) (v : Option String) :
    ((optionalMember name v).map Prod.fst).Sublist [name] := by
  cases v with
  | none => exact List.nil_sublist _
  | some value => exact List.Sublist.refl _

theorem lookup_optionalMember (name key : String) (v : Option String) :
    (optionalMember name v).lookup key = if key = name then v.map .text else none := by
  cases v with
  | none => simp [optionalMember]
  | some value =>
      rw [optionalMember, Named.lookup_cons]
      rfl

theorem roundTrips (inOpen : Bool) :
    RoundTrips (Condition.read? inOpen) Condition.toJson fun c => c.since.Proper where
  read_write := by
    rintro ⟨kind, status, message, reason, since⟩ hproper
    rw [Condition.toJson, Condition.read?,
      Json.record?_object ["type", "status", "message", "reason", "lastTransitionTime"] ?_
        (by decide)]
    · simp only [Option.bind_eq_bind, Option.bind_some, Json.Finder.required,
        Json.Finder.withDefault, List.append_assoc, List.cons_append, List.nil_append,
        Named.lookup_cons, List.lookup_append, lookup_optionalMember, String.reduceEq, if_true,
        if_false, Option.none_or, Option.or_none, List.lookup_nil]
      simp only [ConditionKind.read?_name, Json.flag?, Json.text?, Option.bind_some,
        Moment.Proper.ofText?_text hproper]
      cases message <;> cases reason <;> rfl
    · simp only [List.map_append]
      exact (((List.Sublist.refl ["type", "status"]).append (keys_optionalMember _ _)).append
        (keys_optionalMember _ _)).append (List.Sublist.refl ["lastTransitionTime"])
  sound_of_read := by
    intro j c _ hread
    simp only [Condition.read?, Option.bind_eq_bind, Option.bind_eq_some_iff] at hread
    obtain ⟨find, -, kind, -, status, -, message, -, reason, -, since, hsince, hreturn⟩ := hread
    obtain rfl := Option.some.inj hreturn
    obtain ⟨value, -, hvalue⟩ := Option.bind_eq_some_iff.1 hsince
    obtain ⟨text, -, htext⟩ := Option.bind_eq_some_iff.1 hvalue
    exact .of_ofText? htext

end Condition

namespace Status

variable {kind : Kind}

/-- Every moment in the conditions has a text. -/
def Dated (s : Status kind) : Prop :=
  ∀ c ∈ s.conditions, c.since.Proper

theorem plainWithin_condition (depth : Nat) (c : Condition) :
    c.toJson.plainWithin (depth + 1) = true := by
  obtain ⟨kind, status, message, reason, since⟩ := c
  have hflag := Json.plainWithin_flag depth
  have htext := Json.plainWithin_text depth
  cases message <;> cases reason <;>
    simp [Condition.toJson, Condition.optionalMember, Json.plainWithin_object, hflag, htext]

theorem plainWithin_conditions (depth : Nat) (conditions : List Condition) :
    (Json.array (conditions.map Condition.toJson)).plainWithin (depth + 2) = true := by
  rw [Json.plainWithin_array]
  intro item hmem
  obtain ⟨c, -, rfl⟩ := List.mem_map.1 hmem
  exact plainWithin_condition depth c

theorem keys_conditionsMember (conditions : List Condition) :
    ((conditionsMember conditions).map Prod.fst).Sublist ["conditions"] := by
  cases conditions with
  | nil => exact List.nil_sublist _
  | cons c conditions => exact List.Sublist.refl _

theorem keys_detailToJson (detail : kind.Detail) :
    (detailToJson kind detail).map Prod.fst = detailNames kind := by
  cases kind <;> rfl

def commonMembers (s : Status kind) : List (String × Json) :=
  Condition.optionalMember "arn" s.arn ++ Condition.optionalMember "status" s.live
    ++ conditionsMember s.conditions

def members (s : Status kind) : List (String × Json) :=
  s.commonMembers ++ detailToJson kind s.detail

theorem keys_commonMembers (s : Status kind) :
    (s.commonMembers.map Prod.fst).Sublist commonNames := by
  simp only [commonMembers, List.map_append]
  exact ((Condition.keys_optionalMember _ _).append (Condition.keys_optionalMember _ _)).append
    (keys_conditionsMember _)

theorem keys_members (s : Status kind) :
    (s.members.map Prod.fst).Sublist (commonNames ++ detailNames kind) := by
  simp only [members, List.map_append, keys_detailToJson]
  exact s.keys_commonMembers.append (List.Sublist.refl _)

theorem names_nodup (kind : Kind) : (commonNames ++ detailNames kind).Nodup := by
  cases kind with
  | dbCluster => decide
  | dbInstance => decide
  | parameterGroup scope => cases scope <;> decide
  | subnetGroup => decide
  | snapshot scope => cases scope <;> decide

theorem members_plain (s : Status kind) {member : String × Json} (hmem : member ∈ s.members) :
    member.1 ∈ detailNames kind ∨ member.2.plainWithin Json.openDepth = true := by
  have htext : ∀ {name : String} {v : Option String},
      member ∈ Condition.optionalMember name v → member.2.plainWithin Json.openDepth = true := by
    intro name v hmem
    cases v with
    | none => cases hmem
    | some value =>
        rw [List.mem_singleton.1 hmem]
        rfl
  rcases List.mem_append.1 hmem with hcommon | hdetail
  · rcases List.mem_append.1 hcommon with hname | hconditions
    · rcases List.mem_append.1 hname with harn | hlive
      · exact .inr (htext harn)
      · exact .inr (htext hlive)
    · refine .inr ?_
      cases hlist : s.conditions with
      | nil => rw [hlist] at hconditions; cases hconditions
      | cons c conditions =>
          rw [hlist] at hconditions
          rw [List.mem_singleton.1 hconditions]
          exact plainWithin_conditions _ _
  · exact .inl (keys_detailToJson s.detail ▸ List.mem_map_of_mem hdetail)

theorem fields?_toJson (s : Status kind) :
    fields? kind s.toJson = some fun name => s.members.lookup name := by
  unfold fields?
  split
  · exact Json.openRecord?_object _ s.keys_members (names_nodup kind) fun _ => s.members_plain
  · exact Json.record?_object _ s.keys_members (names_nodup kind)

/-- A member of the detail has no name of the common ones. -/
theorem lookup_members_of_detail (s : Status kind) {key : String} (hkey : key ∈ detailNames kind) :
    s.members.lookup key = (detailToJson kind s.detail).lookup key := by
  have hcommon : s.commonMembers.lookup key = none := by
    rw [List.lookup_eq_none_iff]
    intro member hmem
    have hname : member.1 ∈ commonNames :=
      s.keys_commonMembers.subset (List.mem_map_of_mem hmem)
    have hne : key ≠ member.1 := fun heq =>
      (List.nodup_append.1 (names_nodup kind)).2.2 member.1 hname key hkey heq.symm
    simpa using hne
  rw [members, List.lookup_append, hcommon, Option.none_or]

theorem lookup_members_of_common (s : Status kind) {key : String} (hkey : key ∈ commonNames) :
    s.members.lookup key = s.commonMembers.lookup key := by
  have hdetail : (detailToJson kind s.detail).lookup key = none := by
    rw [List.lookup_eq_none_iff]
    intro member hmem
    have hname : member.1 ∈ detailNames kind :=
      keys_detailToJson s.detail ▸ List.mem_map_of_mem hmem
    have hne : key ≠ member.1 := (List.nodup_append.1 (names_nodup kind)).2.2 key hkey _ hname
    simpa using hne
  rw [members, List.lookup_append, hdetail, Option.or_none]

theorem readDetail?_members (s : Status kind) :
    readDetail? kind (fun name => s.members.lookup name) = some s.detail := by
  cases kind with
  | dbCluster =>
      simp only [readDetail?, Option.bind_eq_bind, Json.Finder.withDefault]
      rw [s.lookup_members_of_detail (by decide), s.lookup_members_of_detail (by decide)]
      simp only [detailToJson, Named.lookup_cons, String.reduceEq, if_true, if_false]
      simp only [RoundTrips.optionalText.read_write trivial]
      rfl
  | dbInstance =>
      have hreplications := Instance.replication_roundTrips.list.read_write
        (a := s.detail.replications) fun _ _ => trivial
      have hpending := (Instance.Pending.roundTrips.optional fun _ _ => Json.noConfusion).read_write
        (a := s.detail.pending) fun _ _ => trivial
      simp only [readDetail?, Option.bind_eq_bind, Json.Finder.withDefault]
      rw [s.lookup_members_of_detail (by decide), s.lookup_members_of_detail (by decide)]
      simp only [detailToJson, Named.lookup_cons, String.reduceEq, if_true, if_false]
      simp only [hreplications, Option.bind_some, hpending]
      rfl
  | parameterGroup scope => rfl
  | subnetGroup => rfl
  | snapshot scope => rfl

theorem lookup_conditionsMember_of_ne {key : String} (hne : key ≠ "conditions")
    (conditions : List Condition) : (conditionsMember conditions).lookup key = none := by
  cases conditions with
  | nil => rfl
  | cons c conditions => exact (Named.lookup_cons ..).trans (if_neg hne)

theorem withDefault_of_text {members : List (String × Json)} {name : String}
    {v : Option String} (hfind : members.lookup name = v.map .text) :
    Json.Finder.withDefault (fun name => members.lookup name) name none
      (Json.optional Json.text?) = some v := by
  rw [Json.Finder.withDefault, hfind]
  cases v with
  | none => rfl
  | some value => rfl

theorem withDefault_conditions {s : Status kind} (hdated : s.Dated) :
    Json.Finder.withDefault (fun name => s.members.lookup name) "conditions" []
      (Json.list? (Condition.read? (isOpen kind))) = some s.conditions := by
  have hread := (Condition.roundTrips (isOpen kind)).list.read_write hdated
  rw [Json.Finder.withDefault, s.lookup_members_of_common (by decide)]
  simp only [commonMembers, List.lookup_append, Condition.lookup_optionalMember, String.reduceEq,
    if_false, Option.none_or]
  cases hlist : s.conditions with
  | nil => rfl
  | cons c conditions => rw [← hlist, ← hread, hlist]; rfl

theorem roundTrips (kind : Kind) :
    RoundTrips (Status.read? kind) Status.toJson (Dated : Status kind → Prop) where
  read_write := by
    intro s hdated
    have harn : s.members.lookup "arn" = s.arn.map .text := by
      rw [s.lookup_members_of_common (by decide), commonMembers]
      simp only [List.lookup_append, Condition.lookup_optionalMember, String.reduceEq, if_true,
        if_false, Option.or_none,
        lookup_conditionsMember_of_ne (show "arn" ≠ "conditions" by decide)]
    have hlive : s.members.lookup "status" = s.live.map .text := by
      rw [s.lookup_members_of_common (by decide), commonMembers]
      simp only [List.lookup_append, Condition.lookup_optionalMember, String.reduceEq, if_true,
        if_false, Option.or_none, Option.none_or,
        lookup_conditionsMember_of_ne (show "status" ≠ "conditions" by decide)]
    rw [read?, fields?_toJson]
    simp only [Option.bind_eq_bind, Option.bind_some, readDetail?_members,
      withDefault_of_text harn, withDefault_of_text hlive, withDefault_conditions hdated]
    rfl
  sound_of_read := by
    intro j s hbounded hread
    obtain ⟨find, hfind, hread⟩ := Option.bind_eq_some_iff.1 hread
    obtain ⟨detail, -, hread⟩ := Option.bind_eq_some_iff.1 hread
    obtain ⟨arn, -, hread⟩ := Option.bind_eq_some_iff.1 hread
    obtain ⟨live, -, hread⟩ := Option.bind_eq_some_iff.1 hread
    obtain ⟨conditions, hconditions, hreturn⟩ := Option.bind_eq_some_iff.1 hread
    obtain rfl := Option.some.inj hreturn
    have hfinder : find.Bounded := by
      unfold fields? at hfind
      split at hfind
      · exact hbounded.of_openRecord? hfind
      · exact hbounded.of_record? hfind
    exact (Condition.roundTrips (isOpen kind)).list.sound_of_withDefault hfinder
      (fun _ hmem => absurd hmem List.not_mem_nil) hconditions

end Status

namespace Document

variable {kind : Kind}

/-- The real numbers in a document are those in its spec. -/
def reals (doc : Document kind) : List Binary64 :=
  Schema.Record.reals doc.spec

/-- The real numbers in the spec are finite, and the moments in the conditions have a text. -/
structure Representable (doc : Document kind) : Prop where
  finite : ∀ x ∈ doc.reals, x.isFinite = true
  dated : doc.status.Dated

theorem roundTrips (kind : Kind) :
    RoundTrips (Document.read? kind) Document.toJson (Representable : Document kind → Prop) where
  read_write := by
    rintro ⟨metadata, spec, status⟩ ⟨hfinite, hdated⟩
    rw [toJson, read?, Json.record?_object ["metadata", "spec", "status"] (List.Sublist.refl _)
      (by decide)]
    simp only [Option.bind_eq_bind, Option.bind_some]
    simp only [Json.Finder.withDefault, Json.Finder.required, Named.lookup_cons, String.reduceEq,
      if_true, if_false]
    simp only [Metadata.roundTrips.read_write trivial, Option.bind_some,
      kind.spec_roundTrips.read_write hfinite, (Status.roundTrips kind).read_write hdated]
    rfl
  sound_of_read := by
    intro j doc hbounded hread
    obtain ⟨find, hfind, hread⟩ := Option.bind_eq_some_iff.1 hread
    obtain ⟨metadata, -, hread⟩ := Option.bind_eq_some_iff.1 hread
    obtain ⟨spec, hspec, hread⟩ := Option.bind_eq_some_iff.1 hread
    obtain ⟨status, hstatus, hreturn⟩ := Option.bind_eq_some_iff.1 hread
    obtain rfl := Option.some.inj hreturn
    have hfinder := hbounded.of_record? hfind
    exact ⟨kind.spec_roundTrips.sound_of_required hfinder hspec,
      (Status.roundTrips kind).sound_of_withDefault hfinder
        (fun _ hmem => absurd hmem List.not_mem_nil) hstatus⟩

end Document

end DbSteward
