import DbSteward.Proofs.Bounded
import DbSteward.Proofs.JsonText
import DbSteward.Proofs.RoundTrip

/-!
# Documents and their texts

A document is written as compact text and read from it again.  What is written reads back as
the document, and so does what is written of a document that was read.  Of the real numbers in
the document it is assumed that their literals read back.
-/

namespace DbSteward

open Json (Legible RealReadsBack)

/-! ## Written values -/

namespace Json

theorem Legible.ofOption {α : Type} {write : α → Json} {v : Option α}
    (hvalue : ∀ a ∈ v, (write a).Legible) : (Json.ofOption write v).Legible := by
  cases v with
  | none => exact .null
  | some a => exact hvalue a rfl

theorem Legible.list {α : Type} {write : α → Json} {as : List α}
    (hitems : ∀ a ∈ as, (write a).Legible) : (Json.array (as.map write)).Legible := by
  refine .array fun item hmem => ?_
  obtain ⟨a, ha, rfl⟩ := List.mem_map.1 hmem
  exact hitems a ha

theorem Legible.ofTable {α : Type} {write : α → Json} {table : Table α}
    (hentries : ∀ entry ∈ table.entries, (write entry.2).Legible) :
    (Json.ofTable write table).Legible := by
  refine .object fun member hmem => ?_
  obtain ⟨entry, hentry, rfl⟩ := List.mem_map.1 hmem
  exact hentries entry hentry

theorem Legible.optionalText (v : Option String) : (Json.ofOption Json.text v).Legible :=
  .ofOption fun s _ => .text s

theorem Legible.optionalWord (v : Option Int64) :
    (Json.ofOption (fun i : Int64 => Json.integer i.toInt) v).Legible :=
  .ofOption fun i _ => .integer i.le_toInt (Int.lt_of_lt_of_le i.toInt_lt (by decide))

theorem Legible.optionalReal {v : Option Binary64} (hreads : ∀ x ∈ v, RealReadsBack x) :
    (Json.ofOption Json.ofReal v).Legible := by
  refine .ofOption fun x hx => ?_
  unfold Json.ofReal
  split
  · exact .real (hreads x hx)
  · exact .null

end Json

theorem Tag.legible_toJson (tag : Tag) : tag.toJson.Legible := by
  refine .object ?_
  obtain ⟨key, value⟩ := tag
  cases value with
  | none => simpa using Legible.text key
  | some value => simpa using ⟨Legible.text key, Legible.text value⟩

theorem SecretRef.legible_toJson (r : SecretRef) : r.toJson.Legible :=
  .object (by simpa using ⟨Legible.text _, Legible.text _, Legible.text _⟩)

theorem Scaling.legible_toJson {s : Scaling} (hreads : ∀ x ∈ s.reals, RealReadsBack x) :
    s.toJson.Legible := by
  refine .object ?_
  have hmost := Legible.optionalReal (v := s.most) fun x hx =>
    hreads x (List.mem_append_left _ (Option.mem_toList.2 hx))
  have hleast := Legible.optionalReal (v := s.least) fun x hx =>
    hreads x (List.mem_append_right _ (Option.mem_toList.2 hx))
  simpa using ⟨hmost, hleast⟩

theorem FieldType.legible_toJson (t : FieldType) {v : t.Content}
    (hreads : ∀ x ∈ t.reals v, RealReadsBack x) : (t.toJson v).Legible := by
  cases t with
  | text => exact .optionalText v
  | integer => exact .optionalWord v
  | flag => exact .ofOption fun b _ => .flag b
  | texts => exact .ofOption fun texts _ => .list fun s _ => .text s
  | tags => exact .list fun tag _ => tag.legible_toJson
  | secret => exact .ofOption fun r _ => r.legible_toJson
  | scaling =>
      refine .ofOption fun s hs => s.legible_toJson ?_
      obtain rfl := hs
      exact hreads
  | overrides => exact .ofOption fun table _ => .ofTable fun entry _ => .optionalText entry.2

theorem Schema.Record.legible_toJson {S : Schema} {r : S.Record}
    (hreads : ∀ x ∈ reals r, RealReadsBack x) : (toJson r).Legible := by
  refine .object fun member hmem => ?_
  obtain ⟨f, hf, rfl⟩ := List.mem_map.1 hmem
  exact (S.type f).legible_toJson fun x hx => hreads x (List.mem_flatMap.2 ⟨f, hf, hx⟩)

theorem Metadata.legible_toJson (m : Metadata) : m.toJson.Legible := by
  have hannotations : (Json.ofTable .text m.annotations).Legible :=
    .ofTable fun entry _ => .text entry.2
  refine .object ?_
  split
  · simpa using ⟨Legible.text m.name, Legible.text m.space⟩
  · simpa using ⟨Legible.text m.name, Legible.text m.space, hannotations⟩

theorem Condition.legible_optionalMember (name : String) (v : Option String) :
    ∀ member ∈ optionalMember name v, member.2.Legible := by
  cases v with
  | none => simp [optionalMember]
  | some value => simpa [optionalMember] using Legible.text value

theorem Condition.legible_toJson (c : Condition) : c.toJson.Legible := by
  refine .object ?_
  simp only [List.forall_mem_append]
  exact ⟨⟨⟨by simpa using ⟨Legible.text _, Legible.flag _⟩, legible_optionalMember _ _⟩,
    legible_optionalMember _ _⟩, by simpa using Legible.text _⟩

namespace Status

variable {kind : Kind}

theorem legible_conditionsMember (conditions : List Condition) :
    ∀ member ∈ conditionsMember conditions, member.2.Legible := by
  cases conditions with
  | nil => simp [conditionsMember]
  | cons c conditions =>
      exact List.forall_mem_singleton.2 (Legible.list fun c _ => c.legible_toJson)

theorem legible_detailToJson (detail : kind.Detail) :
    ∀ member ∈ detailToJson kind detail, member.2.Legible := by
  cases kind with
  | dbCluster => simpa [detailToJson] using ⟨Legible.optionalText _, Legible.optionalText _⟩
  | dbInstance =>
      have hreplications :
          (Json.array (detail.replications.map Instance.replicationToJson)).Legible :=
        .list fun arn _ => .object (List.forall_mem_singleton.2 (Legible.optionalText arn))
      have hpending : (Json.ofOption Instance.Pending.toJson detail.pending).Legible :=
        .ofOption fun p _ => .object (by
          simpa using ⟨Legible.optionalWord p.backupRetention, Legible.optionalWord p.storage⟩)
      simpa [detailToJson] using ⟨hreplications, hpending⟩
  | parameterGroup scope => simp [detailToJson]
  | subnetGroup => simp [detailToJson]
  | snapshot scope => simp [detailToJson]

theorem legible_toJson (s : Status kind) : s.toJson.Legible := by
  refine .object ?_
  simp only [List.forall_mem_append]
  exact ⟨⟨⟨Condition.legible_optionalMember _ _, Condition.legible_optionalMember _ _⟩,
    legible_conditionsMember _⟩, legible_detailToJson _⟩

end Status

namespace Document

variable {kind : Kind}

theorem legible_toJson {doc : Document kind} (hreads : ∀ x ∈ doc.reals, RealReadsBack x) :
    doc.toJson.Legible :=
  .object (by simpa using ⟨doc.metadata.legible_toJson,
    Schema.Record.legible_toJson hreads, doc.status.legible_toJson⟩)

def ofText? (kind : Kind) (text : String) : Option (Document kind) :=
  (Json.ofText? text).bind (read? kind)

def text (doc : Document kind) : String :=
  doc.toJson.compact

/-- The document is read back from what it is written as, and from its text if the literals of
its real numbers read back. -/
structure Survives (doc : Document kind) : Prop where
  read_toJson : read? kind doc.toJson = some doc
  ofText?_text : (∀ x ∈ doc.reals, RealReadsBack x) → ofText? kind doc.text = some doc

theorem Survives.of_read {doc : Document kind} (hread : read? kind doc.toJson = some doc) :
    doc.Survives where
  read_toJson := hread
  ofText?_text := fun hreads => by
    rw [ofText?, text, Json.ofText?_compact (legible_toJson hreads), Option.bind_some, hread]

/-- Documents survive a round trip: those that can be represented, and those that are read from
a value or from a text, whatever fields the value has besides. -/
theorem survives_round_trip (kind : Kind) :
    (∀ doc : Document kind, doc.Representable → doc.Survives) ∧
      (∀ (j : Json) (doc : Document kind), j.Bounded → read? kind j = some doc → doc.Survives) ∧
      ∀ (text : String) (doc : Document kind), ofText? kind text = some doc → doc.Survives := by
  have hvalue : ∀ (j : Json) (doc : Document kind), j.Bounded → read? kind j = some doc →
      doc.Survives := fun j doc hbounded hread =>
    .of_read ((roundTrips kind).read_write_of_read hbounded hread)
  refine ⟨fun doc hdoc => .of_read ((roundTrips kind).read_write hdoc), hvalue, ?_⟩
  intro text doc hread
  obtain ⟨j, hj, hdoc⟩ := Option.bind_eq_some_iff.1 hread
  exact hvalue j doc (.of_ofText? hj) hdoc

/-- A cluster that scales down to a half, with a tag without a value and a condition from within
a leap second. -/
def scalingCluster : Document .dbCluster where
  metadata := ⟨"main", "prod", Table.empty.insert "owner" "ops"⟩
  spec := Schema.Record.set
    (Schema.Record.set (Schema.blank clusterSchema) .tags [⟨"zone", none⟩])
    .scaling (some ⟨none, some ⟨0x3FE0000000000000⟩⟩)
  status := ⟨none, some "available", [⟨.synced, true, none, none, ⟨86399, 1500000000⟩⟩],
    ⟨some "main.example", none⟩⟩

/-- A parameter group with an override that resets a parameter, and with fields that no document
of its kind has. -/
def resettingGroup : Json :=
  .object [("kind", .text "DBParameterGroup"),
    ("spec", .object [("name", .text "main"), ("color", .malformed),
      ("parameterOverrides", .object [("max_connections", .null)])])]

theorem scaling_cluster_survives :
    (scalingCluster.Representable ∧
      ofText? .dbCluster scalingCluster.text = some scalingCluster) ∧
    ∃ doc : Document (.parameterGroup .dbInstance),
      read? (.parameterGroup .dbInstance) resettingGroup = some doc ∧
        doc.spec .overrides = some (Table.empty.insert "max_connections" none) ∧
        read? (.parameterGroup .dbInstance) doc.toJson = some doc := by
  have hreals : scalingCluster.reals = [⟨0x3FE0000000000000⟩] := by decide
  have hdocument : scalingCluster.Representable := by
    refine ⟨?_, ?_⟩
    · rw [hreals]
      decide
    · exact List.forall_mem_singleton.2 ⟨by decide, by decide, by decide⟩
  have hhalf : RealReadsBack ⟨0x3FE0000000000000⟩ := by
    have htext : Json.realText ⟨0x3FE0000000000000⟩ = ['0', '.', '5'] := by decide +kernel
    have hscaled : Json.scaled 5 (-1) = some ⟨0x3FE0000000000000⟩ := by decide +kernel
    have hnumber : Json.number? ['0', '.', '5'] =
        some (Json.signed false (Json.scaled 5 (-1)), []) := rfl
    rw [RealReadsBack, htext, hnumber, hscaled]
    rfl
  refine ⟨⟨hdocument, ((survives_round_trip .dbCluster).1 _ hdocument).ofText?_text ?_⟩, ?_⟩
  · rw [hreals]
    exact List.forall_mem_singleton.2 hhalf
  · have hoverrides : (read? (.parameterGroup .dbInstance) resettingGroup).map
        (fun doc => doc.spec .overrides) =
          some (some (Table.empty.insert "max_connections" none)) := rfl
    obtain ⟨doc, hread, hspec⟩ := Option.map_eq_some_iff.1 hoverrides
    have hoverride : (Json.object [("max_connections", .null)]).Bounded :=
      .object (List.forall_mem_singleton.2 .null)
    have hvalue : resettingGroup.Bounded := .object (by
      simpa using ⟨Json.Bounded.text _, Json.Bounded.object (by
        simpa using ⟨Json.Bounded.text _, Json.Bounded.malformed, hoverride⟩)⟩)
    have hsurvives := (survives_round_trip _).2.1 resettingGroup doc hvalue hread
    exact ⟨doc, hread, hspec, hsurvives.read_toJson⟩

end Document

end DbSteward
