import DbSteward.Document.Basic
import DbSteward.Plan.Version

/-!
# Normal documents

What a desired document leaves to the service is filled in from the observed document
before the two are compared, so that it does not count as a change.
-/

namespace DbSteward

namespace Cluster

/-- A cluster upgrades to minor versions by itself unless it is told not to. -/
def autoMinor (spec : clusterSchema.Record) : Bool :=
  (spec .autoMinorUpgrade).getD true

def normal (desired observed : clusterSchema.Record) : clusterSchema.Record :=
  if autoMinor desired then
    Schema.Record.set desired .engineVersion
      (Version.settled (desired .engineVersion) (observed .engineVersion))
  else desired

section Normal

variable {desired observed : clusterSchema.Record}

/-- Only the engine version of a cluster is left to the service. -/
theorem normal_of_ne {f : ClusterField} (hother : f ≠ .engineVersion) :
    normal desired observed f = desired f := by
  unfold normal
  split
  · exact Schema.Record.set_of_ne (S := clusterSchema) desired _ hother.symm
  · rfl

theorem normal_engineVersion (hauto : autoMinor desired = true) :
    normal desired observed .engineVersion =
      Version.settled (desired .engineVersion) (observed .engineVersion) := by
  rw [normal, if_pos hauto]
  exact Schema.Record.set_self (S := clusterSchema) desired .engineVersion _

theorem autoMinor_normal : autoMinor (normal desired observed) = autoMinor desired := by
  rw [autoMinor, autoMinor, normal_of_ne (by decide)]

end Normal

end Cluster

namespace Instance

/-- The desired value, or if there is none the observed one where it is acceptable. -/
def orObserved {α : Type} (acceptable : α → Bool) (desired observed : Option α) : Option α :=
  desired <|> observed.filter acceptable

/-- Performance insights that are observed and not wished for are to be switched off. -/
def insightsWish (desired observed : Option Bool) : Option Bool :=
  desired <|> observed.map fun _ => false

def normal (desired observed : instanceSchema.Record) : instanceSchema.Record
  | .zone => orObserved (fun _ => true) (desired .zone) (observed .zone)
  | .backupTarget =>
      orObserved (· == defaultBackupTarget) (desired .backupTarget) (observed .backupTarget)
  | .networkType =>
      orObserved (· == defaultNetworkType) (desired .networkType) (observed .networkType)
  | .performanceInsights =>
      insightsWish (desired .performanceInsights) (observed .performanceInsights)
  | .engineVersion => Version.settled (desired .engineVersion) (observed .engineVersion)
  | field => desired field

end Instance

namespace Kind

def normal : (kind : Kind) → kind.Spec → kind.Spec → kind.Spec
  | .dbCluster, desired, observed => Cluster.normal desired observed
  | .dbInstance, desired, observed => Instance.normal desired observed
  | .parameterGroup _, desired, _ => desired
  | .subnetGroup, desired, _ => desired
  | .snapshot _, desired, _ => desired

end Kind

/-- The desired document with what it leaves to the service filled in. -/
def Document.normal {kind : Kind} (desired observed : Document kind) : Document kind :=
  { desired with spec := kind.normal desired.spec observed.spec }

end DbSteward
