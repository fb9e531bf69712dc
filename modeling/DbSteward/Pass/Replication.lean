import DbSteward.Document.Instance
import DbSteward.Pass.Basic

/-!
# Replication of backups

Whether the backups of an instance are replicated to another region is not part of a
modify call; it is started and stopped by calls of its own.  Replication can start only
once automated backups are active.
-/

namespace DbSteward
namespace Replication

structure Intent where
  enabled : Bool
  region : Option String
  retention : Option Int64
  kmsKey : Option String
  /-- The desired retention of the backups themselves. -/
  backupRetention : Option Int64
  deriving DecidableEq

structure Observation where
  source : Option String
  arns : List String
  backupRetention : Option Int64
  /-- A retention of the backups that waits to be applied. -/
  pendingRetention : Option Int64
  deriving DecidableEq

/-- The region in a resource name, its fourth part. -/
def regionOf? (arn : String) : Option String :=
  ((Text.parts ':' arn.toList)[3]?.map String.ofList).filter (!·.isEmpty)

namespace Observation

def isReplicating (observed : Observation) : Bool :=
  !observed.arns.isEmpty

/-- The region that the first active replication goes to. -/
def region? (observed : Observation) : Option String :=
  observed.arns.head?.bind regionOf?

end Observation

def path : String := instanceSchema.path .replicated

def unobservedReason : String := "backup retention period not yet observed"

def pendingReason : String := "backup retention period modification pending"

def noRegion : Failure :=
  .invalidSpec (instanceSchema.label .replicationRegion)
    "required when BackupCrossRegionReplication is true"

def noStartSource : Failure :=
  .missingObservation "DB instance ARN is required to enable cross-region backup replication"

def noStopSource : Failure :=
  .missingObservation "DB instance ARN is required to disable cross-region backup replication"

def noStopRegion : Failure :=
  .missingObservation "could not determine destination region for stopping replication"

def noBackups : Failure :=
  .invalidSpec (instanceSchema.label .backupRetention)
    ("automated backups must be enabled (backupRetentionPeriod > 0) before enabling "
      ++ "cross-region backup replication")

inductive Step where
  | nothing
  | wait (reason : String)
  | start (region : String) (request : ReplicationStart)
  | stop (region source : String)

/-- The step for an instance whose automated backups are off.  The modify call of the
same pass switches them on if no earlier one has. -/
def activation (intent : Intent) (observed : Observation) : Except Failure Step :=
  if intent.backupRetention.getD (-1) ≤ 0 then .error noBackups
  else if 0 < observed.pendingRetention.getD (-1) then .ok (.wait pendingReason)
  else .ok .nothing

def starting (settings : Settings) (intent : Intent) (observed : Observation) :
    Except Failure Step :=
  match intent.region, observed.source with
  | none, _ => .error noRegion
  | some _, none => .error noStartSource
  | some region, some source =>
      if observed.backupRetention.getD (-1) < 0 then .ok (.wait unobservedReason)
      else if observed.backupRetention.getD (-1) = 0 then activation intent observed
      else
        .ok <| .start region
          { source := source
            retention := intent.retention.getD settings.replicationRetention
            kmsKey := intent.kmsKey }

def stopping (intent : Intent) (observed : Observation) : Except Failure Step :=
  match observed.source, observed.region? <|> intent.region with
  | none, _ => .error noStopSource
  | some _, none => .error noStopRegion
  | some source, some region => .ok (.stop region source)

def step (settings : Settings) (intent : Intent) (observed : Observation) :
    Except Failure Step :=
  match intent.enabled, observed.isReplicating with
  | true, false => starting settings intent observed
  | false, true => stopping intent observed
  | _, _ => .ok .nothing

end Replication

namespace Pass

/-- Takes a step.  An error that says the replication is already as it should be
counts as success. -/
def takeStep (settings : Settings) : Replication.Step → Pass Decision
  | .nothing => pure .proceed
  | .wait reason => pure (.retryAfter settings.backoff reason)
  | .start region request => do
      unlessMentioned "already replicating"
        (call (.startReplication (some region) request) .update
          "StartDBInstanceAutomatedBackupsReplication")
      pure .proceed
  | .stop region source => do
      unlessMentioned "not replicating"
        (call (.stopReplication (some region) source) .update
          "StopDBInstanceAutomatedBackupsReplication")
      pure .proceed

def settleReplication (settings : Settings) (intent : Replication.Intent)
    (observed : Replication.Observation) : Pass Decision := do
  let step ← liftExcept (Replication.step settings intent observed)
  takeStep settings step

end Pass
end DbSteward
