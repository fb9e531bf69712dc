import DbSteward.Document.Schema
import DbSteward.Gate.Phase

/-!
# Database clusters

The spec of a database cluster and the statuses it can report.
-/

namespace DbSteward

inductive ClusterField where
  | storage
  | autoMinorUpgrade
  | zones
  | backtrackWindow
  | backupRetention
  | copyTags
  | identifier
  | parameterGroup
  | subnetGroup
  | databaseName
  | deletionProtection
  | logExports
  | httpEndpoint
  | iamAuthentication
  | engine
  | engineMode
  | engineVersion
  | kmsKey
  | password
  | username
  | port
  | backupWindow
  | maintenanceWindow
  | scaling
  | encrypted
  | storageType
  | tags
  | securityGroups
  deriving DecidableEq, Repr

@[reducible] def ClusterField.column : ClusterField → Column
  | .storage => ⟨"allocatedStorage", "AllocatedStorage", .integer⟩
  | .autoMinorUpgrade => ⟨"autoMinorVersionUpgrade", "AutoMinorVersionUpgrade", .flag⟩
  | .zones => ⟨"availabilityZones", "AvailabilityZones", .texts⟩
  | .backtrackWindow => ⟨"backtrackWindow", "BacktrackWindow", .integer⟩
  | .backupRetention => ⟨"backupRetentionPeriod", "BackupRetentionPeriod", .integer⟩
  | .copyTags => ⟨"copyTagsToSnapshot", "CopyTagsToSnapshot", .flag⟩
  | .identifier => ⟨"dbClusterIdentifier", "DBClusterIdentifier", .text⟩
  | .parameterGroup => ⟨"dbClusterParameterGroupName", "DBClusterParameterGroupName", .text⟩
  | .subnetGroup => ⟨"dbSubnetGroupName", "DBSubnetGroupName", .text⟩
  | .databaseName => ⟨"databaseName", "DatabaseName", .text⟩
  | .deletionProtection => ⟨"deletionProtection", "DeletionProtection", .flag⟩
  | .logExports => ⟨"enableCloudwatchLogsExports", "EnableCloudwatchLogsExports", .texts⟩
  | .httpEndpoint => ⟨"enableHTTPEndpoint", "EnableHTTPEndpoint", .flag⟩
  | .iamAuthentication =>
      ⟨"enableIAMDatabaseAuthentication",
        "EnableIAMDatabaseAuthentication", .flag⟩
  | .engine => ⟨"engine", "Engine", .text⟩
  | .engineMode => ⟨"engineMode", "EngineMode", .text⟩
  | .engineVersion => ⟨"engineVersion", "EngineVersion", .text⟩
  | .kmsKey => ⟨"kmsKeyID", "KMSKeyID", .text⟩
  | .password => ⟨"masterUserPassword", "MasterUserPassword", .secret⟩
  | .username => ⟨"masterUsername", "MasterUsername", .text⟩
  | .port => ⟨"port", "Port", .integer⟩
  | .backupWindow => ⟨"preferredBackupWindow", "PreferredBackupWindow", .text⟩
  | .maintenanceWindow => ⟨"preferredMaintenanceWindow", "PreferredMaintenanceWindow", .text⟩
  | .scaling =>
      ⟨"serverlessV2ScalingConfiguration",
        "ServerlessV2ScalingConfiguration", .scaling⟩
  | .encrypted => ⟨"storageEncrypted", "StorageEncrypted", .flag⟩
  | .storageType => ⟨"storageType", "StorageType", .text⟩
  | .tags => ⟨"tags", "Tags", .tags⟩
  | .securityGroups => ⟨"vpcSecurityGroupIDs", "VPCSecurityGroupIDs", .texts⟩

/-- The password is a reference to a secret and is not compared as it stands. -/
@[reducible] def clusterSchema : Schema where
  Field := ClusterField
  fields :=
    [.storage, .autoMinorUpgrade, .zones, .backtrackWindow, .backupRetention,
      .copyTags, .identifier, .parameterGroup, .subnetGroup, .databaseName,
      .deletionProtection, .logExports, .httpEndpoint, .iamAuthentication, .engine,
      .engineMode, .engineVersion, .kmsKey, .password, .username, .port, .backupWindow,
      .maintenanceWindow, .scaling, .encrypted, .storageType, .tags, .securityGroups]
  column := ClusterField.column
  compared :=
    [.tags, .storage, .autoMinorUpgrade, .zones, .backtrackWindow, .backupRetention,
      .copyTags, .identifier, .parameterGroup, .subnetGroup, .databaseName,
      .deletionProtection, .logExports, .httpEndpoint, .iamAuthentication, .engine,
      .engineMode, .engineVersion, .kmsKey, .username, .port, .backupWindow,
      .maintenanceWindow, .scaling, .encrypted, .storageType, .securityGroups]

namespace Cluster

def statuses : List String :=
  ["available", "backing-up", "creating", "deleting", "failed", "failing-over",
    "inaccessible-encryption-credentials", "backtracking", "maintenance", "migrating",
    "modifying", "migration-failed", "restore-failed", "preparing-data-migration",
    "promoting", "rebooting", "resetting-master-credentials", "renaming",
    "scaling-storage", "scaling-compute", "scaling-capacity", "upgrading",
    "configuring-iam-database-auth", "incompatible-parameters", "starting", "stopping",
    "stopped", "storage-failure", "incompatible-restore", "incompatible-network",
    "insufficient-resource-limits", "insufficient-capacity", "replication-suspended",
    "configuring-activity-stream", "archiving", "archived"]

def vocabulary : Vocabulary where
  noun := "DB cluster"
  statuses := statuses
  terminal :=
    ["inaccessible-encryption-credentials", "incompatible-network", "incompatible-restore",
      "failed"]

structure Endpoints where
  writer : Option String
  reader : Option String
  deriving DecidableEq, Repr

end Cluster

end DbSteward
