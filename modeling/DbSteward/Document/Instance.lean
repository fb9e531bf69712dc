import DbSteward.Document.Schema
import DbSteward.Gate.Phase

/-!
# Database instances

The spec of a database instance, the statuses it can report and what its status holds
beside the common part.
-/

namespace DbSteward

inductive InstanceField where
  | storage
  | autoMinorUpgrade
  | zone
  | replicated
  | replicationRegion
  | replicationKey
  | replicationRetention
  | backupRetention
  | backupTarget
  | caCertificate
  | copyTags
  | insightsMode
  | cluster
  | instanceClass
  | identifier
  | parameterGroup
  | subnetGroup
  | deletionProtection
  | logExports
  | engine
  | engineVersion
  | iops
  | kmsKey
  | password
  | username
  | storageLimit
  | monitoringInterval
  | multiZone
  | networkType
  | performanceInsights
  | backupWindow
  | maintenanceWindow
  | publiclyAccessible
  | encrypted
  | storageType
  | tags
  | securityGroups
  deriving DecidableEq, Repr

@[reducible] def InstanceField.column : InstanceField → Column
  | .storage => ⟨"allocatedStorage", "AllocatedStorage", .integer⟩
  | .autoMinorUpgrade => ⟨"autoMinorVersionUpgrade", "AutoMinorVersionUpgrade", .flag⟩
  | .zone => ⟨"availabilityZone", "AvailabilityZone", .text⟩
  | .replicated => ⟨"backupCrossRegionReplication", "BackupCrossRegionReplication", .flag⟩
  | .replicationRegion =>
      ⟨"backupCrossRegionReplicationDestinationRegion",
        "BackupCrossRegionReplicationDestinationRegion", .text⟩
  | .replicationKey =>
      ⟨"backupCrossRegionReplicationKMSKeyID",
        "BackupCrossRegionReplicationKMSKeyID", .text⟩
  | .replicationRetention =>
      ⟨"backupCrossRegionReplicationRetentionPeriod",
        "BackupCrossRegionReplicationRetentionPeriod", .integer⟩
  | .backupRetention => ⟨"backupRetentionPeriod", "BackupRetentionPeriod", .integer⟩
  | .backupTarget => ⟨"backupTarget", "BackupTarget", .text⟩
  | .caCertificate => ⟨"caCertificateIdentifier", "CACertificateIdentifier", .text⟩
  | .copyTags => ⟨"copyTagsToSnapshot", "CopyTagsToSnapshot", .flag⟩
  | .insightsMode => ⟨"databaseInsightsMode", "DatabaseInsightsMode", .text⟩
  | .cluster => ⟨"dbClusterIdentifier", "DBClusterIdentifier", .text⟩
  | .instanceClass => ⟨"dbInstanceClass", "DBInstanceClass", .text⟩
  | .identifier => ⟨"dbInstanceIdentifier", "DBInstanceIdentifier", .text⟩
  | .parameterGroup => ⟨"dbParameterGroupName", "DBParameterGroupName", .text⟩
  | .subnetGroup => ⟨"dbSubnetGroupName", "DBSubnetGroupName", .text⟩
  | .deletionProtection => ⟨"deletionProtection", "DeletionProtection", .flag⟩
  | .logExports => ⟨"enableCloudwatchLogsExports", "EnableCloudwatchLogsExports", .texts⟩
  | .engine => ⟨"engine", "Engine", .text⟩
  | .engineVersion => ⟨"engineVersion", "EngineVersion", .text⟩
  | .iops => ⟨"iops", "IOPS", .integer⟩
  | .kmsKey => ⟨"kmsKeyID", "KMSKeyID", .text⟩
  | .password => ⟨"masterUserPassword", "MasterUserPassword", .secret⟩
  | .username => ⟨"masterUsername", "MasterUsername", .text⟩
  | .storageLimit => ⟨"maxAllocatedStorage", "MaxAllocatedStorage", .integer⟩
  | .monitoringInterval => ⟨"monitoringInterval", "MonitoringInterval", .integer⟩
  | .multiZone => ⟨"multiAZ", "MultiAZ", .flag⟩
  | .networkType => ⟨"networkType", "NetworkType", .text⟩
  | .performanceInsights => ⟨"performanceInsightsEnabled", "PerformanceInsightsEnabled", .flag⟩
  | .backupWindow => ⟨"preferredBackupWindow", "PreferredBackupWindow", .text⟩
  | .maintenanceWindow => ⟨"preferredMaintenanceWindow", "PreferredMaintenanceWindow", .text⟩
  | .publiclyAccessible => ⟨"publiclyAccessible", "PubliclyAccessible", .flag⟩
  | .encrypted => ⟨"storageEncrypted", "StorageEncrypted", .flag⟩
  | .storageType => ⟨"storageType", "StorageType", .text⟩
  | .tags => ⟨"tags", "Tags", .tags⟩
  | .securityGroups => ⟨"vpcSecurityGroupIDs", "VPCSecurityGroupIDs", .texts⟩

/-- The password, the replication of backups and the fields that a parent cluster owns
are not compared as they stand. -/
@[reducible] def instanceSchema : Schema where
  Field := InstanceField
  fields :=
    [.storage, .autoMinorUpgrade, .zone, .replicated, .replicationRegion,
      .replicationKey, .replicationRetention, .backupRetention, .backupTarget,
      .caCertificate, .copyTags, .insightsMode, .cluster, .instanceClass, .identifier,
      .parameterGroup, .subnetGroup, .deletionProtection, .logExports, .engine,
      .engineVersion, .iops, .kmsKey, .password, .username, .storageLimit,
      .monitoringInterval, .multiZone, .networkType, .performanceInsights,
      .backupWindow, .maintenanceWindow, .publiclyAccessible, .encrypted, .storageType,
      .tags, .securityGroups]
  column := InstanceField.column
  compared :=
    [.tags, .storage, .autoMinorUpgrade, .zone, .backupTarget, .caCertificate,
      .copyTags, .cluster, .instanceClass, .identifier, .parameterGroup, .subnetGroup,
      .engine, .engineVersion, .iops, .kmsKey, .username, .monitoringInterval,
      .multiZone, .networkType, .performanceInsights, .maintenanceWindow,
      .publiclyAccessible, .encrypted, .storageType, .securityGroups]

namespace Instance

def statuses : List String :=
  ["available", "backing-up", "creating", "deleted", "deleting", "failed", "backtracking",
    "modifying", "upgrading", "rebooting", "resetting-master-credentials", "storage-full",
    "incompatible-credentials", "incompatible-option-group", "incompatible-parameters",
    "incompatible-restore", "incompatible-network", "restore-error", "renaming",
    "inaccessible-encryption-credentials-recoverable",
    "inaccessible-encryption-credentials", "maintenance",
    "configuring-enhanced-monitoring", "stopping", "stopped", "starting", "moving-to-vpc",
    "converting-to-vpc", "configuring-iam-database-auth", "storage-optimization",
    "configuring-log-exports", "configuring-associated-roles",
    "configuring-activity-stream", "insufficient-capacity", "validating-configuration",
    "unsupported-configuration", "automation-paused"]

def vocabulary : Vocabulary where
  noun := "DB instance"
  statuses := statuses
  terminal :=
    ["deleted", "inaccessible-encryption-credentials-recoverable",
      "inaccessible-encryption-credentials", "incompatible-network",
      "incompatible-restore", "failed"]

/-- What every status of an instance whose storage is used up contains. -/
def storageFullStatus : String := "storage-full"

/-- Statuses in which no final snapshot can be taken. -/
def snapshotlessStatuses : List String := ["incompatible-restore", "failed"]

/-- The fields that belong to the parent cluster of an instance.  They are compared
only for an instance without one. -/
def clusterOwned : List InstanceField :=
  [.insightsMode, .logExports, .storageLimit, .backupRetention, .backupWindow,
    .deletionProtection]

def defaultBackupTarget : String := "region"

def defaultNetworkType : String := "IPV4"

structure Pending where
  backupRetention : Option Int64
  storage : Option Int64
  deriving DecidableEq

structure Detail where
  /-- The active replications of its backups, by resource name where it is known. -/
  replications : List (Option String)
  pending : Option Pending
  deriving DecidableEq

def Detail.replicationArns (detail : Detail) : List String :=
  detail.replications.map fun arn => arn.getD ""

def Detail.pendingBackupRetention (detail : Detail) : Option Int64 :=
  detail.pending.bind (·.backupRetention)

end Instance

end DbSteward
