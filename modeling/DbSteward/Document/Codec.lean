import DbSteward.Document.Basic

/-!
# Documents as JSON

Reading and writing resource documents.  The spec follows the schema of the kind;
the status of clusters and instances shares one object between its common part and
its detail.
-/

namespace DbSteward

namespace Metadata

def read? (j : Json) : Option Metadata := do
  let find ← j.record? ["name", "namespace", "annotations"]
  return { name := ← find.required "name" Json.text?
           space := ← find.withDefault "namespace" "" Json.text?
           annotations :=
             ← find.withDefault "annotations" Table.empty (Json.table? Json.text?) }

def toJson (m : Metadata) : Json :=
  .object <|
    [("name", .text m.name), ("namespace", .text m.space)]
      ++ if m.annotations.isEmpty then []
        else [("annotations", Json.ofTable .text m.annotations)]

end Metadata

namespace Instance

namespace Pending

def read? (j : Json) : Option Pending := do
  let find ← j.record? ["backupRetentionPeriod", "allocatedStorage"]
  return { backupRetention :=
             ← find.withDefault "backupRetentionPeriod" none (Json.optional Json.word?)
           storage := ← find.withDefault "allocatedStorage" none (Json.optional Json.word?) }

def toJson (p : Pending) : Json :=
  .object
    [("backupRetentionPeriod", Json.ofOption (fun i => .integer i.toInt) p.backupRetention),
      ("allocatedStorage", Json.ofOption (fun i => .integer i.toInt) p.storage)]

end Pending

def replicationKey : String := "dbInstanceAutomatedBackupsARN"

def readReplication? (j : Json) : Option (Option String) := do
  let find ← j.record? [replicationKey]
  find.withDefault replicationKey none (Json.optional Json.text?)

def replicationToJson (arn : Option String) : Json :=
  .object [(replicationKey, Json.ofOption .text arn)]

end Instance

namespace Status

variable {kind : Kind}

def commonNames : List String := ["arn", "status", "conditions"]

def detailNames : Kind → List String
  | .dbCluster => ["endpoint", "readerEndpoint"]
  | .dbInstance => ["dbInstanceAutomatedBackupsReplications", "pendingModifiedValues"]
  | .parameterGroup _ => []
  | .subnetGroup => []
  | .snapshot _ => []

def blankDetail : (kind : Kind) → kind.Detail
  | .dbCluster => ⟨none, none⟩
  | .dbInstance => ⟨[], none⟩
  | .parameterGroup _ => ()
  | .subnetGroup => ()
  | .snapshot _ => ()

def blank (kind : Kind) : Status kind :=
  ⟨none, none, [], blankDetail kind⟩

def readDetail? : (kind : Kind) → Json.Finder → Option kind.Detail
  | .dbCluster, find => do
      return { writer := ← find.withDefault "endpoint" none (Json.optional Json.text?)
               reader := ← find.withDefault "readerEndpoint" none (Json.optional Json.text?) }
  | .dbInstance, find => do
      return { replications :=
                 ← find.withDefault "dbInstanceAutomatedBackupsReplications" []
                   (Json.list? Instance.readReplication?)
               pending :=
                 ← find.withDefault "pendingModifiedValues" none
                   (Json.optional Instance.Pending.read?) }
  | .parameterGroup _, _ => some ()
  | .subnetGroup, _ => some ()
  | .snapshot _, _ => some ()

/-- A status with detail is an open record; one without is a record like any other. -/
def isOpen (kind : Kind) : Bool :=
  !(detailNames kind).isEmpty

def fields? (kind : Kind) (j : Json) : Option Json.Finder :=
  if isOpen kind then j.openRecord? (detailNames kind) commonNames
  else j.record? commonNames

def read? (kind : Kind) (j : Json) : Option (Status kind) := do
  let find ← fields? kind j
  let detail ← readDetail? kind find
  return { arn := ← find.withDefault "arn" none (Json.optional Json.text?)
           live := ← find.withDefault "status" none (Json.optional Json.text?)
           conditions :=
             ← find.withDefault "conditions" [] (Json.list? (Condition.read? (isOpen kind)))
           detail := detail }

def detailToJson : (kind : Kind) → kind.Detail → List (String × Json)
  | .dbCluster, d =>
      [("endpoint", Json.ofOption .text d.writer),
        ("readerEndpoint", Json.ofOption .text d.reader)]
  | .dbInstance, d =>
      [("dbInstanceAutomatedBackupsReplications",
          .array (d.replications.map Instance.replicationToJson)),
        ("pendingModifiedValues", Json.ofOption Instance.Pending.toJson d.pending)]
  | .parameterGroup _, _ => []
  | .subnetGroup, _ => []
  | .snapshot _, _ => []

def conditionsMember : List Condition → List (String × Json)
  | [] => []
  | conditions => [("conditions", .array (conditions.map Condition.toJson))]

def toJson (s : Status kind) : Json :=
  .object <|
    Condition.optionalMember "arn" s.arn ++ Condition.optionalMember "status" s.live
      ++ conditionsMember s.conditions ++ detailToJson kind s.detail

end Status

namespace Document

def read? (kind : Kind) (j : Json) : Option (Document kind) := do
  let find ← j.record? ["metadata", "spec", "status"]
  return { metadata := ← find.withDefault "metadata" Metadata.blank Metadata.read?
           spec := ← find.required "spec" kind.schema.read?
           status := ← find.withDefault "status" (Status.blank kind) (Status.read? kind) }

def toJson {kind : Kind} (doc : Document kind) : Json :=
  .object [("metadata", doc.metadata.toJson), ("spec", Schema.Record.toJson doc.spec),
    ("status", doc.status.toJson)]

end Document
end DbSteward
