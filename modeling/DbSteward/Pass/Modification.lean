import DbSteward.Pass.Basic
import DbSteward.Plan.Normal

/-!
# Modifications

The request that a modify call carries: of the fields it can carry those that changed,
the password if its secret changed, and the log types to switch on and off.
-/

namespace DbSteward

namespace FieldType

/-- The integer in a field, if its content is one. -/
def word? : (t : FieldType) → t.Content → Option Int64
  | .integer, v => v
  | .text, _ => none
  | .flag, _ => none
  | .texts, _ => none
  | .tags, _ => none
  | .secret, _ => none
  | .scaling, _ => none
  | .overrides, _ => none

end FieldType

/-- What the modify call of a schema can carry. -/
structure ModifyForm (S : Schema) where
  operation : String
  identifier : S.Record → Option String
  identifierField : S.Field
  password : S.Record → Option SecretRef
  passwordField : S.Field
  logs : S.Record → Option (List String)
  logsField : S.Field
  /-- The fields that are sent when they change. -/
  sendable : List S.Field
  /-- The sendable fields that have to fit into 32 bits. -/
  narrow : List S.Field
  /-- The sendable fields that need not be sent though they changed, given the desired
  and the observed spec. -/
  heldBack : S.Record → S.Record → List S.Field

namespace ModifyForm

variable {S : Schema}

def sends (form : ModifyForm S) (desired observed : S.Record) (f : S.Field) : Bool :=
  form.sendable.contains f && !(form.heldBack desired observed).contains f

def carried (form : ModifyForm S) (changes : Changes) (desired observed : S.Record) :
    S.Record :=
  fun f =>
    if form.sends desired observed f && changes.touches (S.path f) then desired f
    else (S.type f).absent

def fitsNarrow (i : Int64) : Bool :=
  Int32.minValue.toInt ≤ i.toInt && i.toInt ≤ Int32.maxValue.toInt

def tooWide (label : String) (i : Int64) : Failure :=
  .invalidSpec label (String.ofList (Text.decimalInt i.toInt) ++ " does not fit in int32")

def checkNarrow (carried : S.Record) : List S.Field → Except Failure Unit
  | [] => .ok ()
  | f :: rest =>
      match (S.type f).word? (carried f) with
      | none => checkNarrow carried rest
      | some i =>
          if fitsNarrow i then checkNarrow carried rest else .error (tooWide (S.label f) i)

/-- The password to send: the one that the reference stands for, unless it is empty. -/
def passwordFor (context : Context) : Option SecretRef → Except Failure (Option String)
  | none => .ok none
  | some reference =>
      (Pass.secret context reference).map fun value =>
        if value.isEmpty then none else some value

def passwordIfTouched (form : ModifyForm S) (context : Context) (changes : Changes)
    (desired : S.Record) : Except Failure (Option String) :=
  if changes.touches (S.path form.passwordField) then
    passwordFor context (form.password desired)
  else .ok none

def logsIfTouched (form : ModifyForm S) (changes : Changes) (desired observed : S.Record) :
    Option LogExports :=
  if changes.touches (S.path form.logsField) then
    some (.between ((form.logs desired).getD []) ((form.logs observed).getD []))
  else none

def identifierMissing (form : ModifyForm S) : Failure :=
  .invalidSpec (S.label form.identifierField) ("required for " ++ form.operation)

def request (form : ModifyForm S) (context : Context) (changes : Changes)
    (desired observed : S.Record) : Except Failure (Modification S) :=
  match form.identifier desired with
  | none => .error form.identifierMissing
  | some identifier => do
      checkNarrow (form.carried changes desired observed) form.narrow
      let password ← form.passwordIfTouched context changes desired
      pure
        { identifier := identifier
          applyImmediately := true
          allowMajorUpgrade := true
          carried := form.carried changes desired observed
          password := password
          logs := form.logsIfTouched changes desired observed }

end ModifyForm

namespace Cluster

/-- An engine version that minor upgrades reach by themselves is not asked for. -/
def heldBack (desired observed : clusterSchema.Record) : List ClusterField :=
  match desired .engineVersion with
  | none => []
  | some version =>
      if Version.mustRequest version ((observed .engineVersion).getD "") (autoMinor desired)
      then []
      else [.engineVersion]

def modifyForm : ModifyForm clusterSchema where
  operation := "ModifyDBCluster"
  identifier := fun spec => spec .identifier
  identifierField := .identifier
  password := fun spec => spec .password
  passwordField := .password
  logs := fun spec => spec .logExports
  logsField := .logExports
  sendable :=
    [.backtrackWindow, .backupRetention, .copyTags, .parameterGroup, .deletionProtection,
      .httpEndpoint, .iamAuthentication, .engineVersion, .port, .backupWindow,
      .maintenanceWindow, .storageType, .securityGroups, .scaling]
  narrow := [.backupRetention, .port]
  heldBack := heldBack

end Cluster

namespace Instance

def modifyForm : ModifyForm instanceSchema where
  operation := "ModifyDBInstance"
  identifier := fun spec => spec .identifier
  identifierField := .identifier
  password := fun spec => spec .password
  passwordField := .password
  logs := fun spec => spec .logExports
  logsField := .logExports
  sendable :=
    [.storage, .autoMinorUpgrade, .backupRetention, .caCertificate, .copyTags,
      .insightsMode, .instanceClass, .parameterGroup, .deletionProtection, .engineVersion,
      .iops, .storageLimit, .monitoringInterval, .multiZone, .performanceInsights,
      .backupWindow, .maintenanceWindow, .publiclyAccessible, .storageType,
      .securityGroups]
  narrow := [.storage, .backupRetention, .iops, .storageLimit, .monitoringInterval]
  heldBack := fun _ _ => []

end Instance
end DbSteward
