import DbSteward.Plan.Normal
import DbSteward.Settings

/-!
# Plans

The changes between a desired and an observed document, and the decision that a pass
makes before it calls the service.
-/

namespace DbSteward

namespace Changes

/-- Notes that the secret for the master password is not the one last applied. -/
def notePassword (path : String) (annotations : Annotations) (secret : Option SecretRef)
    (changes : Changes) : Changes :=
  changes.note path (.ofText (some annotations.lastAppliedSecret))
    (.ofText (some (SecretRef.textOf secret)))

def noteFields {S : Schema} (fields : List S.Field) (desired observed : S.Record)
    (changes : Changes) : Changes :=
  fields.foldl
    (fun changes f =>
      changes.note (S.path f) (Schema.Record.value observed f) (Schema.Record.value desired f))
    changes

end Changes

namespace Instance

def wantsReplication (spec : instanceSchema.Record) : Bool :=
  (spec .replicated).getD false

/-- Notes the differences in the fields that belong to a parent cluster, for an
instance that has none. -/
def noteClusterOwned (desired observed : instanceSchema.Record) (changes : Changes) :
    Changes :=
  if (desired .cluster).isNone then changes.noteFields clusterOwned desired observed
  else changes

/-- Notes that the backups are replicated and should not be, or the reverse. -/
def noteReplication (desired : instanceSchema.Record) (observed : Detail)
    (changes : Changes) : Changes :=
  changes.note (instanceSchema.path .replicated)
    (.ofFlag (some !observed.replications.isEmpty))
    (.ofFlag (some (wantsReplication desired)))

end Instance

namespace Document

/-- Adds the differences that do not show between two specs as they stand. -/
def noteBeyondSpec : (kind : Kind) → Document kind → Document kind → Changes → Changes
  | .dbCluster, desired, _, changes =>
      changes.notePassword (clusterSchema.path .password) desired.metadata.annotations
        (desired.spec .password)
  | .dbInstance, desired, observed, changes =>
      Instance.noteReplication desired.spec observed.status.detail <|
        Instance.noteClusterOwned desired.spec observed.spec <|
          changes.notePassword (instanceSchema.path .password) desired.metadata.annotations
            (desired.spec .password)
  | .parameterGroup _, _, _, changes => changes
  | .subnetGroup, _, _, changes => changes
  | .snapshot _, _, _, changes => changes

def changes {kind : Kind} (desired observed : Document kind) : Changes :=
  noteBeyondSpec kind desired observed
    (.between (Schema.Record.attributes desired.spec) (Schema.Record.attributes observed.spec))

end Document

namespace Kind

def phase (kind : Kind) (status : Option String) : Phase :=
  match kind.vocabulary? with
  | none => .available
  | some vocabulary => vocabulary.phase status

def noun (kind : Kind) : String :=
  (kind.vocabulary?.map (·.noun)).getD kind.name

/-- The changes may be made in a status in which the resource is otherwise left alone.
An instance whose storage is used up may be given more. -/
def admits (kind : Kind) (status : String) (changes : Changes) : Bool :=
  match kind with
  | .dbInstance =>
      Text.mentions status Instance.storageFullStatus
        && changes.touches (instanceSchema.path .storage)
  | _ => false

end Kind

structure Plan where
  changes : Changes
  phase : Phase
  decision : Decision

namespace Plan

def decide (kind : Kind) (backoff : Duration) (status : Option String) (changes : Changes) :
    Decision :=
  match Decision.ofPhase backoff (kind.phase status) kind.noun status, status with
  | .retryAfter after reason, some status =>
      if kind.admits status changes then .proceed else .retryAfter after reason
  | decision, _ => decision

def ofNormal {kind : Kind} (settings : Settings) (desired observed : Document kind) :
    Plan where
  changes := desired.changes observed
  phase := kind.phase observed.status.live
  decision := decide kind settings.backoff observed.status.live (desired.changes observed)

def of {kind : Kind} (settings : Settings) (desired observed : Document kind) : Plan :=
  ofNormal settings (desired.normal observed) observed

def toJson (plan : Plan) : Json :=
  .object [("changes", plan.changes.toJson), ("lifecycle", .text plan.phase.name),
    ("decision", plan.decision.toJson)]

end Plan
end DbSteward
