import DbSteward.Pass.Update

/-!
# Creation and deletion

What becomes of a parameter group right after it was created, and the deletion of
clusters and instances.
-/

namespace DbSteward
namespace Pass

variable {kind : Kind}

def awaitDeletion (settings : Settings) (kind : Kind) : Decision :=
  .retryAfter settings.backoff (Decision.deletingReason kind.noun Vocabulary.deletingStatus)

def isBeingDeleted (observed : Document kind) : Bool :=
  observed.status.live == some Vocabulary.deletingStatus

/-- The identifier in the spec, or else the name of the document. -/
def deletionIdentifier (identifier : Option String) (observed : Document kind) : String :=
  identifier.getD observed.metadata.name

def clusterDeletion (observed : Document .dbCluster) : Except Failure Deletion :=
  (DeletionOptions.ofAnnotations observed.metadata.annotations).map
    (.ofOptions (deletionIdentifier (observed.spec .identifier) observed))

/-- Deletes a cluster unless it is being deleted already. -/
def deleteCluster (settings : Settings) (observed : Document .dbCluster) : Pass Decision :=
  if isBeingDeleted observed then pure (awaitDeletion settings .dbCluster)
  else do
    let request ← liftExcept (clusterDeletion observed)
    call (.deleteCluster request) .delete "DeleteDBCluster"
    pure (awaitDeletion settings .dbCluster)

/-- No final snapshot can be taken of the instance. -/
def isSnapshotless (observed : Document .dbInstance) : Bool :=
  observed.status.live.any Instance.snapshotlessStatuses.contains

def instanceOptions (observed : Document .dbInstance) : Except Failure DeletionOptions :=
  (DeletionOptions.ofAnnotations observed.metadata.annotations).map fun options =>
    if isSnapshotless observed then options.withoutSnapshot else options

def instanceDeletion (observed : Document .dbInstance) : Except Failure Deletion :=
  (instanceOptions observed).map
    (.ofOptions (deletionIdentifier (observed.spec .identifier) observed))

def deleteInstance (settings : Settings) (observed : Document .dbInstance) : Pass Decision :=
  if isBeingDeleted observed then pure (awaitDeletion settings .dbInstance)
  else do
    let request ← liftExcept (instanceDeletion observed)
    call (.deleteInstance request) .delete "DeleteDBInstance"
    pure (awaitDeletion settings .dbInstance)

/-- The decision after a parameter group was created.  The call that creates it cannot
set overrides, so a group that is to have some is visited again soon. -/
def afterCreation (settings : Settings) {scope : Scope}
    (desired : Document (.parameterGroup scope)) : Decision :=
  if (overridesOf desired).isEmpty then .proceed
  else .retryAfter settings.createdDelay "parameter group just got created"

end Pass
end DbSteward
