import DbSteward.Document.Secret
import DbSteward.Failure

/-!
# Annotations

The annotations on a document that the steward reads or writes: the options for
deletion, and the secret reference whose value was last sent as the master
password.
-/

namespace DbSteward

abbrev Annotations := Table String

namespace Annotations

def lastAppliedSecretKey : String := "rds.services.k8s.aws/last-applied-secret-reference"

def skipFinalSnapshotKey : String := "rds.services.k8s.aws/skip-final-snapshot"

def finalSnapshotKey : String := "rds.services.k8s.aws/final-db-snapshot-identifier"

def deleteAutomatedBackupsKey : String := "rds.services.k8s.aws/delete-automated-backups"

def lastAppliedSecret (annotations : Annotations) : String :=
  (annotations.get? lastAppliedSecretKey).getD ""

def withLastAppliedSecret (annotations : Annotations) (secret : Option SecretRef) :
    Annotations :=
  annotations.insert lastAppliedSecretKey (SecretRef.textOf secret)

theorem lastAppliedSecret_withLastAppliedSecret (annotations : Annotations)
    (secret : Option SecretRef) :
    (annotations.withLastAppliedSecret secret).lastAppliedSecret = SecretRef.textOf secret := by
  simp [lastAppliedSecret, withLastAppliedSecret]

end Annotations

structure DeletionOptions where
  skipFinalSnapshot : Bool
  finalSnapshot : Option String
  deleteAutomatedBackups : Option Bool
  deriving DecidableEq, Repr

namespace DeletionOptions

def trueSpellings : List String := ["1", "t", "T", "true", "TRUE", "True"]

def falseSpellings : List String := ["0", "f", "F", "false", "FALSE", "False"]

/-- A truth value by one of its spellings; `key` names the annotation in the
error. -/
def truth (key raw : String) : Except Failure Bool :=
  if trueSpellings.contains raw then .ok true
  else if falseSpellings.contains raw then .ok false
  else .error (.invalidSpec key ("invalid boolean value '" ++ raw ++ "'"))

def truthAt (annotations : Annotations) (key : String) : Except Failure (Option Bool) :=
  match (annotations.get? key).filter (!·.isEmpty) with
  | none => .ok none
  | some raw => (truth key raw).map some

/-- The options that the annotations ask for.  The final snapshot is skipped unless
they say otherwise. -/
def ofAnnotations (annotations : Annotations) : Except Failure DeletionOptions := do
  let skip ← truthAt annotations Annotations.skipFinalSnapshotKey
  let deleteBackups ← truthAt annotations Annotations.deleteAutomatedBackupsKey
  return { skipFinalSnapshot := skip.getD true
           finalSnapshot := annotations.get? Annotations.finalSnapshotKey
           deleteAutomatedBackups := deleteBackups }

def withoutSnapshot (options : DeletionOptions) : DeletionOptions :=
  { options with skipFinalSnapshot := true, finalSnapshot := none }

end DeletionOptions
end DbSteward
