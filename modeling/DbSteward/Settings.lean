import DbSteward.Gate.Decision
import DbSteward.Text.Numeral

/-!
# Settings

What an operator can set for all passes, and how it is read from environment
variables.
-/

namespace DbSteward

structure Settings where
  /-- The backoff of every decision to retry. -/
  backoff : Duration
  batchSize : Nat
  /-- The delay before overrides are applied to a group that was just created. -/
  createdDelay : Duration
  /-- Days for which replicated backups are kept when none are asked for. -/
  replicationRetention : Int64
  deriving DecidableEq

structure SettingError where
  variableName : String
  reason : String
  deriving DecidableEq, Repr

def SettingError.message (e : SettingError) : String :=
  "invalid " ++ e.variableName ++ ": " ++ e.reason

namespace Settings

def standard : Settings where
  backoff := Decision.defaultBackoff
  batchSize := 20
  createdDelay := ⟨100⟩
  replicationRetention := 7

def backoffVariable : String := "RDS_RECONCILE_REQUEUE_AFTER_SECS"

def batchSizeVariable : String := "RDS_RECONCILE_PARAMETER_BATCH_SIZE"

def createdDelayVariable : String := "RDS_RECONCILE_CREATED_REQUEUE_MS"

def replicationRetentionVariable : String := "RDS_RECONCILE_REPLICATION_RETENTION_DAYS"

/-- Environment variables by name; one whose value is no text counts as unset. -/
abbrev Environment := String → Option String

/-- The value of a variable without the blanks around it, read as a numeral. -/
def numeral {α : Type} (environment : Environment) (name : String) (unset : α)
    (read : List Char → Except Text.NumeralError α) : Except SettingError α :=
  match environment name with
  | none => .ok unset
  | some raw => (read (Text.trimBlanks raw.toList)).mapError fun e => ⟨name, e.message⟩

def ofEnvironment (environment : Environment) : Except SettingError Settings := do
  let backoffSeconds ←
    numeral environment backoffVariable standard.backoff.seconds Text.unsigned
  let batchSize ← numeral environment batchSizeVariable standard.batchSize Text.unsigned
  if batchSize = 0 then
    throw ⟨batchSizeVariable, "must be greater than zero"⟩
  let createdMillis ←
    numeral environment createdDelayVariable standard.createdDelay.millis Text.unsigned
  let retention ←
    numeral environment replicationRetentionVariable standard.replicationRetention.toInt
      Text.signed
  return { backoff := .ofSeconds backoffSeconds
           batchSize := batchSize
           createdDelay := ⟨createdMillis⟩
           replicationRetention := Int64.ofInt retention }

def withBackoff (settings : Settings) (backoff : Duration) : Settings :=
  { settings with backoff := backoff }

/-- A batch size of zero becomes one. -/
def withBatchSize (settings : Settings) (size : Nat) : Settings :=
  { settings with batchSize := max size 1 }

def withCreatedDelay (settings : Settings) (delay : Duration) : Settings :=
  { settings with createdDelay := delay }

def withReplicationRetention (settings : Settings) (days : Int64) : Settings :=
  { settings with replicationRetention := days }

end Settings
end DbSteward
