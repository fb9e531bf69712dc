import DbSteward.Service.Call

/-!
# Calls as JSON

The form in which calls are shown: the operation, and its body as an object in which
every member is there, null where nothing is sent.
-/

namespace DbSteward

def ParameterEntry.toJson (entry : ParameterEntry) : Json :=
  .object
    [("name", .text entry.name), ("value", Json.ofOption .text entry.value),
      ("apply_method", .text entry.timing.name)]

def LogExports.toJson (logs : LogExports) : Json :=
  .object
    [("enable_log_types", Json.ofTexts logs.enable),
      ("disable_log_types", Json.ofTexts logs.disable)]

def Scaling.bodyJson (s : Scaling) : Json :=
  .object
    [("min_capacity", Json.ofOption Json.ofReal s.least),
      ("max_capacity", Json.ofOption Json.ofReal s.most)]

def FieldType.bodyJson : (t : FieldType) → t.Content → Json
  | .scaling, v => Json.ofOption Scaling.bodyJson v
  | t, v => t.toJson v

/-- A modification, given the name of its identifier and those of the fields that it can
carry. -/
def Modification.bodyJson {S : Schema} (identifier : String)
    (names : List (String × S.Field)) (m : Modification S) : Json :=
  .object <|
    [(identifier, .text m.identifier), ("apply_immediately", .flag m.applyImmediately),
      ("allow_major_version_upgrade", .flag m.allowMajorUpgrade)]
      ++ names.map (fun name => (name.1, (S.type name.2).bodyJson (m.carried name.2)))
      ++ [("master_user_password", Json.ofOption .text m.password),
        ("cloudwatch_logs_export_configuration", Json.ofOption LogExports.toJson m.logs)]

namespace Cluster

def identifierName : String := "db_cluster_identifier"

def bodyNames : List (String × ClusterField) :=
  [("backtrack_window", .backtrackWindow), ("backup_retention_period", .backupRetention),
    ("copy_tags_to_snapshot", .copyTags),
    ("db_cluster_parameter_group_name", .parameterGroup),
    ("deletion_protection", .deletionProtection), ("enable_http_endpoint", .httpEndpoint),
    ("enable_iam_database_authentication", .iamAuthentication),
    ("engine_version", .engineVersion), ("port", .port),
    ("preferred_backup_window", .backupWindow),
    ("preferred_maintenance_window", .maintenanceWindow), ("storage_type", .storageType),
    ("vpc_security_group_ids", .securityGroups), ("serverless_v2_scaling", .scaling)]

def modificationToJson (m : Modification clusterSchema) : Json :=
  m.bodyJson identifierName bodyNames

end Cluster

namespace Instance

def identifierName : String := "db_instance_identifier"

def bodyNames : List (String × InstanceField) :=
  [("allocated_storage", .storage), ("auto_minor_version_upgrade", .autoMinorUpgrade),
    ("backup_retention_period", .backupRetention),
    ("ca_certificate_identifier", .caCertificate), ("copy_tags_to_snapshot", .copyTags),
    ("database_insights_mode", .insightsMode), ("db_instance_class", .instanceClass),
    ("db_parameter_group_name", .parameterGroup),
    ("deletion_protection", .deletionProtection), ("engine_version", .engineVersion),
    ("iops", .iops), ("max_allocated_storage", .storageLimit),
    ("monitoring_interval", .monitoringInterval), ("multi_az", .multiZone),
    ("performance_insights_enabled", .performanceInsights),
    ("preferred_backup_window", .backupWindow),
    ("preferred_maintenance_window", .maintenanceWindow),
    ("publicly_accessible", .publiclyAccessible), ("storage_type", .storageType),
    ("vpc_security_group_ids", .securityGroups)]

def modificationToJson (m : Modification instanceSchema) : Json :=
  m.bodyJson identifierName bodyNames

end Instance

def SubnetGroupChange.toJson (change : SubnetGroupChange) : Json :=
  .object
    [("db_subnet_group_name", .text change.name),
      ("description", Json.ofOption .text change.description),
      ("subnet_ids", Json.ofTexts change.subnets)]

def Deletion.bodyJson (identifier : String) (deletion : Deletion) : Json :=
  .object
    [(identifier, .text deletion.identifier),
      ("skip_final_snapshot", Json.ofOption .flag deletion.skipFinalSnapshot),
      ("final_db_snapshot_identifier", Json.ofOption .text deletion.finalSnapshot),
      ("delete_automated_backups", Json.ofOption .flag deletion.deleteAutomatedBackups)]

def ReplicationStart.toJson (request : ReplicationStart) : Json :=
  .object
    [("source_db_instance_arn", .text request.source),
      ("backup_retention_period", .integer request.retention.toInt),
      ("kms_key_id", Json.ofOption .text request.kmsKey)]

def Listing.bodyJson (listing : Listing) (marker : Option String) : Json :=
  match listing with
  | .defaults scope family =>
      .object
        [("scope", .text scope.name), ("family", .text family),
          ("marker", Json.ofOption .text marker)]
  | .overrides scope group =>
      .object
        [("scope", .text scope.name), ("group_name", .text group),
          ("marker", Json.ofOption .text marker)]

namespace Call

def groupBody (scope : Scope) (group : String) (entries : List ParameterEntry) : Json :=
  .object
    [("scope", .text scope.name), ("group_name", .text group),
      ("parameters", .array (entries.map ParameterEntry.toJson))]

def body : Call → Json
  | .addTags arn tags => .object [("arn", .text arn), ("tags", .array (tags.map Tag.toJson))]
  | .removeTags arn keys => .object [("arn", .text arn), ("keys", Json.ofTexts keys)]
  | .listTags arn => .object [("arn", .text arn)]
  | .list listing marker => listing.bodyJson marker
  | .resetOverrides scope group entries => groupBody scope group entries
  | .modifyOverrides scope group entries => groupBody scope group entries
  | .modifyCluster request => Cluster.modificationToJson request
  | .modifyInstance request => Instance.modificationToJson request
  | .modifySubnetGroup request => request.toJson
  | .deleteCluster request => request.bodyJson Cluster.identifierName
  | .deleteInstance request => request.bodyJson Instance.identifierName
  | .startReplication region request =>
      .object [("region", Json.ofOption .text region), ("request", request.toJson)]
  | .stopReplication region source =>
      .object
        [("region", Json.ofOption .text region), ("source_db_instance_arn", .text source)]

def toJson (c : Call) : Json :=
  .array [.text c.operation, c.body]

end Call
end DbSteward
