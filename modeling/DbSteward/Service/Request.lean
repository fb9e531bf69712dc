import DbSteward.Document.Schema
import DbSteward.Document.Annotation

/-!
# Requests

What the larger calls to the database service carry.
-/

namespace DbSteward

structure LogExports where
  enable : List String
  disable : List String
  deriving DecidableEq, Repr

/-- Switches on what is desired and not observed, and off what is observed and not
desired. -/
def LogExports.between (desired observed : List String) : LogExports where
  enable := desired.filter fun log => !observed.contains log
  disable := observed.filter fun log => !desired.contains log

/-- A request to modify a resource.  Fields that are absent from `carried` are left
as they are. -/
structure Modification (S : Schema) where
  identifier : String
  applyImmediately : Bool
  allowMajorUpgrade : Bool
  carried : S.Record
  password : Option String
  logs : Option LogExports

def Modification.blank (S : Schema) (identifier : String) : Modification S where
  identifier := identifier
  applyImmediately := false
  allowMajorUpgrade := false
  carried := S.blank
  password := none
  logs := none

/-- A request to modify a subnet group.  Its subnets are replaced as a whole. -/
structure SubnetGroupChange where
  name : String
  description : Option String
  subnets : List String
  deriving DecidableEq, Repr

structure Deletion where
  identifier : String
  skipFinalSnapshot : Option Bool
  finalSnapshot : Option String
  deleteAutomatedBackups : Option Bool
  deriving DecidableEq, Repr

namespace Deletion

def blank (identifier : String) : Deletion :=
  ⟨identifier, none, none, none⟩

def ofOptions (identifier : String) (options : DeletionOptions) : Deletion where
  identifier := identifier
  skipFinalSnapshot := some options.skipFinalSnapshot
  finalSnapshot := options.finalSnapshot
  deleteAutomatedBackups := options.deleteAutomatedBackups

end Deletion

structure ReplicationStart where
  source : String
  retention : Int64
  kmsKey : Option String
  deriving DecidableEq

end DbSteward
