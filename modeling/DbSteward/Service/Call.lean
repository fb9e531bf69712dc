import DbSteward.Document.Cluster
import DbSteward.Document.Instance
import DbSteward.Service.Parameter
import DbSteward.Service.Request

/-!
# Calls

The calls that the steward makes to the database service, the names of their
operations and what each is answered with.
-/

namespace DbSteward

inductive Category where
  | readOne
  | readMany
  | create
  | update
  | delete
  deriving DecidableEq, Repr

namespace Category

def all : List Category :=
  [.readOne, .readMany, .create, .update, .delete]

def name : Category → String
  | .readOne => "READ_ONE"
  | .readMany => "READ_MANY"
  | .create => "CREATE"
  | .update => "UPDATE"
  | .delete => "DELETE"

end Category

namespace Scope

def defaultsOperation : Scope → String
  | .cluster => "DescribeEngineDefaultClusterParameters"
  | .dbInstance => "DescribeEngineDefaultParameters"

def overridesOperation : Scope → String
  | .cluster => "DescribeDBClusterParameters"
  | .dbInstance => "DescribeDBParameters"

def resetOperation : Scope → String
  | .cluster => "ResetDBClusterParameterGroup"
  | .dbInstance => "ResetDBParameterGroup"

def modifyOperation : Scope → String
  | .cluster => "ModifyDBClusterParameterGroup"
  | .dbInstance => "ModifyDBParameterGroup"

end Scope

def Listing.operation : Listing → String
  | .defaults scope _ => scope.defaultsOperation
  | .overrides scope _ => scope.overridesOperation

inductive Call where
  | addTags (arn : String) (tags : List Tag)
  | removeTags (arn : String) (keys : List String)
  | listTags (arn : String)
  | list (listing : Listing) (marker : Option String)
  | resetOverrides (scope : Scope) (group : String) (entries : List ParameterEntry)
  | modifyOverrides (scope : Scope) (group : String) (entries : List ParameterEntry)
  | modifyCluster (request : Modification clusterSchema)
  | modifyInstance (request : Modification instanceSchema)
  | modifySubnetGroup (request : SubnetGroupChange)
  | deleteCluster (request : Deletion)
  | deleteInstance (request : Deletion)
  /-- Sent to the region that the backups are replicated to. -/
  | startReplication (region : Option String) (request : ReplicationStart)
  | stopReplication (region : Option String) (source : String)

namespace Call

def operation : Call → String
  | .addTags _ _ => "AddTagsToResource"
  | .removeTags _ _ => "RemoveTagsFromResource"
  | .listTags _ => "ListTagsForResource"
  | .list listing _ => listing.operation
  | .resetOverrides scope _ _ => scope.resetOperation
  | .modifyOverrides scope _ _ => scope.modifyOperation
  | .modifyCluster _ => "ModifyDBCluster"
  | .modifyInstance _ => "ModifyDBInstance"
  | .modifySubnetGroup _ => "ModifyDBSubnetGroup"
  | .deleteCluster _ => "DeleteDBCluster"
  | .deleteInstance _ => "DeleteDBInstance"
  | .startReplication _ _ => "StartDBInstanceAutomatedBackupsReplication"
  | .stopReplication _ _ => "StopDBInstanceAutomatedBackupsReplication"

def category : Call → Category
  | .listTags _ => .readOne
  | .list _ _ => .readMany
  | .deleteCluster _ => .delete
  | .deleteInstance _ => .delete
  | _ => .update

def isMutating (c : Call) : Bool :=
  match c.category with
  | .readOne => false
  | .readMany => false
  | _ => true

@[reducible] def Answer : Call → Type
  | .listTags _ => List Tag
  | .list _ _ => Page
  | _ => Unit

end Call
end DbSteward
