import DbSteward.Pass.Modification
import DbSteward.Pass.Overrides
import DbSteward.Pass.Replication
import DbSteward.Pass.Tags
import DbSteward.Plan.Basic

/-!
# Updates

The calls that take a live resource to its desired document, kind by kind.  Tags have
calls of their own and come first.
-/

namespace DbSteward

/-- What a pass gives back: the document with its new status, and what to do next. -/
structure Outcome (kind : Kind) where
  document : Document kind
  decision : Decision

namespace Kind

def tagsPath : Kind → String
  | .dbCluster => clusterSchema.path .tags
  | .dbInstance => instanceSchema.path .tags
  | .parameterGroup _ => parameterGroupSchema.path .tags
  | .subnetGroup => subnetGroupSchema.path .tags
  | .snapshot _ => snapshotSchema.path .tags

end Kind

namespace Document

variable {kind : Kind}

/-- The document remembers which secret the password was last taken from. -/
def withPasswordSent (path : String) (secret : Option SecretRef) (changes : Changes)
    (doc : Document kind) : Document kind :=
  if changes.touches path then
    { doc with
      metadata :=
        { doc.metadata with
          annotations := doc.metadata.annotations.withLastAppliedSecret secret } }
  else doc

end Document

namespace Outcome

variable {kind : Kind}

def converged (now : Moment) (doc : Document kind) : Outcome kind where
  document := doc.mapConditions (Conditions.putSynced now true none)
  decision := .proceed

def modified (now : Moment) (doc : Document kind) : Outcome kind where
  document := doc.mapConditions (Conditions.putSynced now false none)
  decision := .proceed

def postponed (now : Moment) (decision : Decision) (doc : Document kind) : Outcome kind where
  document := doc.mapConditions (Conditions.putSynced now false decision.reason)
  decision := decision

/-- No pass goes on before the desired document changes. -/
def abandoned (now : Moment) (reason : String) (doc : Document kind) : Outcome kind where
  document :=
    doc.mapConditions fun conditions =>
      Conditions.putSynced now true none (Conditions.putTerminal now reason conditions)
  decision := .failTerminal reason

end Outcome

namespace Pass

variable {kind : Kind}

/-- The resource name of a live resource, without which it cannot be updated. -/
def arnOf (observed : Document kind) : Except Failure String :=
  match observed.status.arn with
  | none =>
      .error (.missingObservation
        ("resource '" ++ observed.metadata.name ++ "' has no ARN yet"))
  | some arn => .ok arn

def updateTags (arn : String) (desired observed : Document kind) (changes : Changes) :
    Pass Unit :=
  if changes.touches kind.tagsPath then
    settleTags arn (kind.tags desired.spec) (kind.tags observed.spec)
  else pure ()

def modifyCluster (context : Context) (desired observed : Document .dbCluster)
    (changes : Changes) : Pass (Outcome .dbCluster) := do
  let request ←
    liftExcept (Cluster.modifyForm.request context changes desired.spec observed.spec)
  call (.modifyCluster request) .update "ModifyDBCluster"
  pure <| .modified context.now <|
    (desired.withStatusOf observed).withPasswordSent (clusterSchema.path .password)
      (desired.spec .password) changes

def updateCluster (context : Context) (desired observed : Document .dbCluster)
    (changes : Changes) : Pass (Outcome .dbCluster) := do
  let arn ← liftExcept (arnOf observed)
  updateTags arn desired observed changes
  if changes.touchesBeyond [Kind.tagsPath .dbCluster] then
    modifyCluster context desired observed changes
  else pure (.converged context.now (desired.withStatusOf observed))

def replicationIntent (desired : Document .dbInstance) : Replication.Intent where
  enabled := Instance.wantsReplication desired.spec
  region := desired.spec .replicationRegion
  retention := desired.spec .replicationRetention
  kmsKey := desired.spec .replicationKey
  backupRetention := desired.spec .backupRetention

def replicationObservation (arn : String) (observed : Document .dbInstance) :
    Replication.Observation where
  source := some arn
  arns := observed.status.detail.replicationArns
  backupRetention := observed.spec .backupRetention
  pendingRetention := observed.status.detail.pendingBackupRetention

def modifyInstance (context : Context) (desired observed : Document .dbInstance)
    (changes : Changes) : Pass (Outcome .dbInstance) := do
  let request ←
    liftExcept (Instance.modifyForm.request context changes desired.spec observed.spec)
  call (.modifyInstance request) .update "ModifyDBInstance"
  pure <| .modified context.now <|
    (desired.withStatusOf observed).withPasswordSent (instanceSchema.path .password)
      (desired.spec .password) changes

/-- What is left to do for an instance once its tags and the replication of its backups
are settled. -/
def finishInstance (context : Context) (desired observed : Document .dbInstance)
    (changes : Changes) : Pass (Outcome .dbInstance) :=
  if changes.touchesBeyond [Kind.tagsPath .dbInstance, Replication.path] then
    modifyInstance context desired observed changes
  else if changes.touches Replication.path then
    pure (.modified context.now (desired.withStatusOf observed))
  else pure (.converged context.now (desired.withStatusOf observed))

def updateInstance (context : Context) (desired observed : Document .dbInstance)
    (changes : Changes) : Pass (Outcome .dbInstance) := do
  let arn ← liftExcept (arnOf observed)
  updateTags arn desired observed changes
  let decision ←
    settleReplication context.settings (replicationIntent desired)
      (replicationObservation arn observed)
  match decision with
  | .retryAfter after reason =>
      pure (.postponed context.now (.retryAfter after reason) (desired.withStatusOf observed))
  | _ => finishInstance context desired observed changes

/-- The group that a document is about, which needs a name and a family. -/
def groupOf {scope : Scope} (desired : Document (.parameterGroup scope)) :
    Except Failure ParameterGroup :=
  match desired.spec .name, desired.spec .family with
  | some name, some family => .ok ⟨scope, name, family⟩
  | _, _ =>
      .error (.invalidSpec (parameterGroupSchema.label .family)
        "name and family are required to sync parameter overrides")

def overridesOf {scope : Scope} (doc : Document (.parameterGroup scope)) : Overrides :=
  (doc.spec .overrides).getD Table.empty

def updateOverrides {scope : Scope} (context : Context)
    (desired observed : Document (.parameterGroup scope)) (changes : Changes) :
    Pass Unit :=
  if changes.touches (parameterGroupSchema.path .overrides) then do
    let group ← liftExcept (groupOf desired)
    settleOverrides context group (overridesOf desired) (overridesOf observed)
  else pure ()

def updateParameterGroup {scope : Scope} (context : Context)
    (desired observed : Document (.parameterGroup scope)) (changes : Changes) :
    Pass (Outcome (.parameterGroup scope)) := do
  let arn ← liftExcept (arnOf observed)
  updateTags arn desired observed changes
  updateOverrides context desired observed changes
  pure (.converged context.now (desired.withStatusOf observed))

def subnetGroupChange (desired : Document .subnetGroup) : Except Failure SubnetGroupChange :=
  match desired.spec .name with
  | none =>
      .error (.invalidSpec (subnetGroupSchema.label .name) "required for ModifyDBSubnetGroup")
  | some name => .ok ⟨name, desired.spec .description, (desired.spec .subnets).getD []⟩

def modifySubnetGroup (context : Context) (desired observed : Document .subnetGroup) :
    Pass (Outcome .subnetGroup) := do
  let request ← liftExcept (subnetGroupChange desired)
  call (.modifySubnetGroup request) .update "ModifyDBSubnetGroup"
  pure (.modified context.now (desired.withStatusOf observed))

def updateSubnetGroup (context : Context) (desired observed : Document .subnetGroup)
    (changes : Changes) : Pass (Outcome .subnetGroup) := do
  let arn ← liftExcept (arnOf observed)
  updateTags arn desired observed changes
  if changes.touchesBeyond [Kind.tagsPath .subnetGroup] then
    modifySubnetGroup context desired observed
  else pure (.converged context.now (desired.withStatusOf observed))

/-- Only the tags of a snapshot can be changed. -/
def updateSnapshot {scope : Scope} (context : Context)
    (desired observed : Document (.snapshot scope)) (changes : Changes) :
    Pass (Outcome (.snapshot scope)) := do
  let arn ← liftExcept (arnOf observed)
  updateTags arn desired observed changes
  pure (.converged context.now (desired.withStatusOf observed))

def update : (kind : Kind) → Context → Document kind → Document kind → Changes →
    Pass (Outcome kind)
  | .dbCluster, context, desired, observed, changes =>
      updateCluster context desired observed changes
  | .dbInstance, context, desired, observed, changes =>
      updateInstance context desired observed changes
  | .parameterGroup _, context, desired, observed, changes =>
      updateParameterGroup context desired observed changes
  | .subnetGroup, context, desired, observed, changes =>
      updateSubnetGroup context desired observed changes
  | .snapshot _, context, desired, observed, changes =>
      updateSnapshot context desired observed changes

end Pass
end DbSteward
