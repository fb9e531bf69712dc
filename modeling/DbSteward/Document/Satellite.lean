import DbSteward.Document.Schema
import DbSteward.Gate.Phase

/-!
# Groups and snapshots

The specs of the resources that go with clusters and instances: parameter groups,
subnet groups and snapshots.
-/

namespace DbSteward

inductive ParameterGroupField where
  | name
  | family
  | description
  | overrides
  | tags
  deriving DecidableEq, Repr

@[reducible] def ParameterGroupField.column : ParameterGroupField → Column
  | .name => ⟨"name", "Name", .text⟩
  | .family => ⟨"family", "Family", .text⟩
  | .description => ⟨"description", "Description", .text⟩
  | .overrides => ⟨"parameterOverrides", "ParameterOverrides", .overrides⟩
  | .tags => ⟨"tags", "Tags", .tags⟩

@[reducible] def parameterGroupSchema : Schema where
  Field := ParameterGroupField
  fields :=
    [.name, .family, .description, .overrides, .tags]
  column := ParameterGroupField.column
  compared :=
    [.tags, .description, .family, .name, .overrides]

inductive SubnetGroupField where
  | name
  | description
  | subnets
  | tags
  deriving DecidableEq, Repr

@[reducible] def SubnetGroupField.column : SubnetGroupField → Column
  | .name => ⟨"name", "Name", .text⟩
  | .description => ⟨"description", "Description", .text⟩
  | .subnets => ⟨"subnetIDs", "SubnetIDs", .texts⟩
  | .tags => ⟨"tags", "Tags", .tags⟩

@[reducible] def subnetGroupSchema : Schema where
  Field := SubnetGroupField
  fields :=
    [.name, .description, .subnets, .tags]
  column := SubnetGroupField.column
  compared :=
    [.tags, .description, .name, .subnets]

inductive SnapshotField where
  | identifier
  | source
  | tags
  deriving DecidableEq, Repr

@[reducible] def SnapshotField.column : SnapshotField → Column
  | .identifier => ⟨"identifier", "Identifier", .text⟩
  | .source => ⟨"sourceIdentifier", "SourceIdentifier", .text⟩
  | .tags => ⟨"tags", "Tags", .tags⟩

@[reducible] def snapshotSchema : Schema where
  Field := SnapshotField
  fields :=
    [.identifier, .source, .tags]
  column := SnapshotField.column
  compared :=
    [.tags, .identifier, .source]

namespace Snapshot

/-- Statuses a snapshot can report; none of them is terminal. -/
def statuses : List String := ["available", "creating", "deleting", "upgrading"]

def vocabulary (noun : String) : Vocabulary where
  noun := noun
  statuses := statuses
  terminal := []

end Snapshot

end DbSteward
