import DbSteward.Document.Cluster
import DbSteward.Document.Instance
import DbSteward.Document.Satellite
import DbSteward.Scope

/-!
# Kinds of resources

The kinds of resources that are kept, each with its name, the schema of its spec,
the statuses it can report and what its status holds beside the common part.
-/

namespace DbSteward

inductive Kind where
  | dbCluster
  | dbInstance
  | parameterGroup (scope : Scope)
  | subnetGroup
  | snapshot (scope : Scope)
  deriving DecidableEq, Repr

namespace Kind

def all : List Kind :=
  [.dbCluster, .dbInstance, .parameterGroup .dbInstance, .parameterGroup .cluster,
    .subnetGroup, .snapshot .dbInstance, .snapshot .cluster]

def name : Kind → String
  | .dbCluster => "db-cluster"
  | .dbInstance => "db-instance"
  | .parameterGroup .dbInstance => "db-parameter-group"
  | .parameterGroup .cluster => "db-cluster-parameter-group"
  | .subnetGroup => "db-subnet-group"
  | .snapshot .dbInstance => "db-snapshot"
  | .snapshot .cluster => "db-cluster-snapshot"

def ofName? (name : String) : Option Kind :=
  all.find? fun kind => kind.name == name

/-- The statuses of a kind; a kind without any can be changed at all times. -/
def vocabulary? : Kind → Option Vocabulary
  | .dbCluster => some Cluster.vocabulary
  | .dbInstance => some Instance.vocabulary
  | .snapshot .dbInstance => some (Snapshot.vocabulary "DB snapshot")
  | .snapshot .cluster => some (Snapshot.vocabulary "DB cluster snapshot")
  | .parameterGroup _ => none
  | .subnetGroup => none

@[reducible] def schema : Kind → Schema
  | .dbCluster => clusterSchema
  | .dbInstance => instanceSchema
  | .parameterGroup _ => parameterGroupSchema
  | .subnetGroup => subnetGroupSchema
  | .snapshot _ => snapshotSchema

@[reducible] def Detail : Kind → Type
  | .dbCluster => Cluster.Endpoints
  | .dbInstance => Instance.Detail
  | .parameterGroup _ => Unit
  | .subnetGroup => Unit
  | .snapshot _ => Unit

abbrev Spec (kind : Kind) : Type :=
  kind.schema.Record

def tags : (kind : Kind) → kind.Spec → List Tag
  | .dbCluster, spec => spec .tags
  | .dbInstance, spec => spec .tags
  | .parameterGroup _, spec => spec .tags
  | .subnetGroup, spec => spec .tags
  | .snapshot _, spec => spec .tags

end Kind
end DbSteward
