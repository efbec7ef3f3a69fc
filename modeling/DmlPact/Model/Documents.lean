/-
DmlPact/Model/Documents.lean

How the data of `model.rs` and `error.rs` is written to JSON and read back:
the derived `Serialize` and `Deserialize` of each type, with its field names in
order.  Types that deny unknown fields are strict.  Documents that are only
printed are given by their rendering alone.
-/
import DmlPact.Lib.Serde
import DmlPact.Lib.Utf8
import DmlPact.Model.Data
import DmlPact.Model.Error

open Json

namespace DmlPact

def StatementKind.codec : Codec StatementKind :=
  .variants [.insert, .update, .delete]
    (fun | .insert => "insert" | .update => "update" | .delete => "delete")
    fun kind => by cases kind <;> rfl

def TransportPolicy.codec : Codec TransportPolicy :=
  .variants [.tlsRequired, .insecureLocalhost]
    (fun | .tlsRequired => "tls_required" | .insecureLocalhost => "insecure_localhost")
    fun policy => by cases policy <;> rfl

def ReceiptState.codec : Codec ReceiptState :=
  .variants [.prepared, .committed, .rolledBack, .refused, .uncertain]
    (fun
      | .prepared => "prepared"
      | .committed => "committed"
      | .rolledBack => "rolled_back"
      | .refused => "refused"
      | .uncertain => "uncertain")
    fun state => by cases state <;> rfl

def Limits.fields : Fields (UInt64 × UInt64 × UInt64 × Unit) :=
  .required "max_rows" .u64 <|
  .required "statement_timeout_ms" .u64 <|
  .required "lock_timeout_ms" .u64 <|
  .nil

def Limits.codec : Codec Limits :=
  .struct true Limits.fields (by decide)
    (fun l => (l.maxRows, l.statementTimeoutMs, l.lockTimeoutMs, ()))
    (fun (maxRows, statementTimeoutMs, lockTimeoutMs, _) =>
      { maxRows, statementTimeoutMs, lockTimeoutMs })
    fun _ => rfl

def DatabaseIdentity.codec : Codec DatabaseIdentity :=
  .struct true
    (.required "database" .string <|
     .required "role" .string <|
     .required "search_path" .string <|
     .required "server_version_num" .i64 <|
     .required "endpoint_sha256" .string <|
     .optional "server_address" .string <|
     .optional "server_port" .i32 <|
     .required "settings" (.map .string) <|
     .nil)
    (by decide)
    (fun d => (d.database, d.role, d.searchPath, d.serverVersionNum, d.endpointSha256,
      d.serverAddress, d.serverPort, d.settings, ()))
    (fun (database, role, searchPath, serverVersionNum, endpointSha256, serverAddress,
        serverPort, settings, _) =>
      { database, role, searchPath, serverVersionNum, endpointSha256, serverAddress,
        serverPort, settings })
    fun _ => rfl

def ColumnEvidence.codec : Codec ColumnEvidence :=
  .struct false
    (.required "position" .i16 <|
     .required "name" .string <|
     .required "data_type" .string <|
     .required "not_null" .bool <|
     .required "has_default" .bool <|
     .optional "default_expression" .string <|
     .required "identity" .string <|
     .required "generated" .string <|
     .nil)
    (by decide)
    (fun c => (c.position, c.name, c.dataType, c.notNull, c.hasDefault, c.defaultExpression,
      c.identity, c.generated, ()))
    (fun (position, name, dataType, notNull, hasDefault, defaultExpression, identity,
        generated, _) =>
      { position, name, dataType, notNull, hasDefault, defaultExpression, identity,
        generated })
    fun _ => rfl

def NamedDefinition.codec : Codec NamedDefinition :=
  .struct false (.required "name" .string <| .required "definition" .string <| .nil)
    (by decide) (fun d => (d.name, d.definition, ()))
    (fun (name, definition, _) => { name, definition }) fun _ => rfl

def TableEvidence.codec : Codec TableEvidence :=
  .struct false
    (.required "schema" .string <|
     .required "table" .string <|
     .required "oid" .i64 <|
     .required "relation_kind" .string <|
     .required "persistence" .string <|
     .required "row_security" .bool <|
     .required "force_row_security" .bool <|
     .required "columns" (.list ColumnEvidence.codec) <|
     .required "constraints" (.list NamedDefinition.codec) <|
     .required "indexes" (.list NamedDefinition.codec) <|
     .required "user_triggers" (.list NamedDefinition.codec) <|
     .required "rewrite_rules" (.list NamedDefinition.codec) <|
     .required "policies" (.list NamedDefinition.codec) <|
     .required "inheritance_relations" (.list .string) <|
     .required "referential_actions" (.list NamedDefinition.codec) <|
     .nil)
    (by decide)
    (fun e => (e.schema, e.table, e.oid, e.relationKind, e.persistence, e.rowSecurity,
      e.forceRowSecurity, e.columns, e.constraints, e.indexes, e.userTriggers,
      e.rewriteRules, e.policies, e.inheritanceRelations, e.referentialActions, ()))
    (fun (schema, table, oid, relationKind, persistence, rowSecurity, forceRowSecurity,
        columns, constraints, indexes, userTriggers, rewriteRules, policies,
        inheritanceRelations, referentialActions, _) =>
      { schema, table, oid, relationKind, persistence, rowSecurity, forceRowSecurity,
        columns, constraints, indexes, userTriggers, rewriteRules, policies,
        inheritanceRelations, referentialActions })
    fun _ => rfl

def PlanPreconditions.codec : Codec PlanPreconditions :=
  .struct true
    (.required "database" DatabaseIdentity.codec <|
     .required "canonical_table" .string <|
     .required "table_schema_sha256" .string <|
     .required "target_count" .u64 <|
     .required "target_set_sha256" .string <|
     .required "relation_kind" .string <|
     .required "user_trigger_count" .u64 <|
     .required "rewrite_rule_count" .u64 <|
     .required "row_security" .bool <|
     .nil)
    (by decide)
    (fun p => (p.database, p.canonicalTable, p.tableSchemaSha256, p.targetCount,
      p.targetSetSha256, p.relationKind, p.userTriggerCount, p.rewriteRuleCount,
      p.rowSecurity, ()))
    (fun (database, canonicalTable, tableSchemaSha256, targetCount, targetSetSha256,
        relationKind, userTriggerCount, rewriteRuleCount, rowSecurity, _) =>
      { database, canonicalTable, tableSchemaSha256, targetCount, targetSetSha256,
        relationKind, userTriggerCount, rewriteRuleCount, rowSecurity })
    fun _ => rfl

def Plan.codec : Codec Plan :=
  .struct true
    (.required "schema_version" .string <|
     .required "tool_version" .string <|
     .required "plan_id" .string <|
     .required "created_at_unix_ms" .u64 <|
     .required "expires_at_unix_ms" .u64 <|
     .required "statement_kind" StatementKind.codec <|
     .required "requested_table" .string <|
     .required "sql_file_sha256" .string <|
     .required "normalized_sql_sha256" .string <|
     .optional "count_query_sha256" .string <|
     .optional "target_query_sha256" .string <|
     .required "explain_sha256" .string <|
     .required "limits" Limits.codec <|
     .required "transport_policy" TransportPolicy.codec <|
     .required "allow_triggers" .bool <|
     .required "allow_row_security" .bool <|
     .required "preconditions" PlanPreconditions.codec <|
     .optional "plan_sha256" .string <|
     .nil)
    (by decide)
    (fun p => (p.schemaVersion, p.toolVersion, p.planId, p.createdAtUnixMs,
      p.expiresAtUnixMs, p.statementKind, p.requestedTable, p.sqlFileSha256,
      p.normalizedSqlSha256, p.countQuerySha256, p.targetQuerySha256, p.explainSha256,
      p.limits, p.transportPolicy, p.allowTriggers, p.allowRowSecurity, p.preconditions,
      p.planSha256, ()))
    (fun (schemaVersion, toolVersion, planId, createdAtUnixMs, expiresAtUnixMs,
        statementKind, requestedTable, sqlFileSha256, normalizedSqlSha256,
        countQuerySha256, targetQuerySha256, explainSha256, limits, transportPolicy,
        allowTriggers, allowRowSecurity, preconditions, planSha256, _) =>
      { schemaVersion, toolVersion, planId, createdAtUnixMs, expiresAtUnixMs,
        statementKind, requestedTable, sqlFileSha256, normalizedSqlSha256,
        countQuerySha256, targetQuerySha256, explainSha256, limits, transportPolicy,
        allowTriggers, allowRowSecurity, preconditions, planSha256 })
    fun _ => rfl

def ReceiptResult.codec : Codec ReceiptResult :=
  .struct true
    (.optional "affected_rows" .u64 <|
     .required "reason_code" .string <|
     .optional "sqlstate" .string <|
     .optional "database" DatabaseIdentity.codec <|
     .optional "table_schema_sha256" .string <|
     .nil)
    (by decide)
    (fun r => (r.affectedRows, r.reasonCode, r.sqlstate, r.database, r.tableSchemaSha256, ()))
    (fun (affectedRows, reasonCode, sqlstate, database, tableSchemaSha256, _) =>
      { affectedRows, reasonCode, sqlstate, database, tableSchemaSha256 })
    fun _ => rfl

def ReceiptEvent.codec : Codec ReceiptEvent :=
  .struct true
    (.required "schema_version" .string <|
     .required "tool_version" .string <|
     .required "receipt_id" .string <|
     .required "sequence" .u32 <|
     .required "timestamp_unix_ms" .u64 <|
     .required "plan_sha256" .string <|
     .required "sql_file_sha256" .string <|
     .optional "previous_event_sha256" .string <|
     .required "state" ReceiptState.codec <|
     .optional "result" ReceiptResult.codec <|
     .optional "event_sha256" .string <|
     .nil)
    (by decide)
    (fun e => (e.schemaVersion, e.toolVersion, e.receiptId, e.sequence, e.timestampUnixMs,
      e.planSha256, e.sqlFileSha256, e.previousEventSha256, e.state, e.result,
      e.eventSha256, ()))
    (fun (schemaVersion, toolVersion, receiptId, sequence, timestampUnixMs, planSha256,
        sqlFileSha256, previousEventSha256, state, result, eventSha256, _) =>
      { schemaVersion, toolVersion, receiptId, sequence, timestampUnixMs, planSha256,
        sqlFileSha256, previousEventSha256, state, result, eventSha256 })
    fun _ => rfl

/-! ### Printed documents -/

def LintReport.ser (r : LintReport) : Value :=
  .obj [
    ("schema_version", .str r.schemaVersion),
    ("tool_version", .str r.toolVersion),
    ("statement_kind", StatementKind.codec.ser r.statementKind),
    ("requested_table", .str r.requestedTable),
    ("sql_file_sha256", .str r.sqlFileSha256),
    ("normalized_sql_sha256", .str r.normalizedSqlSha256),
    ("generated_target_count", Codec.u64.ser r.generatedTargetCount),
    ("count_query_sha256", Codec.string.serOption r.countQuerySha256),
    ("target_query_sha256", Codec.string.serOption r.targetQuerySha256),
    ("policy_checks", .arr (r.policyChecks.map .str)),
    ("executable_sql_emitted", .bool r.executableSqlEmitted)]

def InspectReport.ser (r : InspectReport) : Value :=
  .obj [
    ("schema_version", .str r.schemaVersion),
    ("tool_version", .str r.toolVersion),
    ("database", DatabaseIdentity.codec.ser r.database),
    ("table_schema_sha256", .str r.tableSchemaSha256),
    ("table", TableEvidence.codec.ser r.table),
    ("transport_policy", TransportPolicy.codec.ser r.transportPolicy)]

def ApplyResult.ser (r : ApplyResult) : Value :=
  .obj [
    ("schema_version", .str r.schemaVersion),
    ("receipt_id", .str r.receiptId),
    ("state", ReceiptState.codec.ser r.state),
    ("plan_sha256", .str r.planSha256),
    ("affected_rows", Codec.u64.serOption r.affectedRows),
    ("reason_code", .str r.reasonCode),
    ("receipt_path", .str r.receiptPath)]

def ReceiptVerification.ser (r : ReceiptVerification) : Value :=
  .obj [
    ("schema_version", .str r.schemaVersion),
    ("receipt_id", .str r.receiptId),
    ("integrity_valid", .bool r.integrityValid),
    ("complete", .bool r.complete),
    ("event_count", Codec.u64.ser r.eventCount),
    ("final_state", ReceiptState.codec.ser r.finalState),
    ("plan_sha256", .str r.planSha256),
    ("final_event_sha256", .str r.finalEventSha256)]

def Capabilities.ser (c : Capabilities) : Value :=
  .obj [
    ("schema_version", .str c.schemaVersion),
    ("tool_version", .str c.toolVersion),
    ("database", .str c.database),
    ("statement_kinds", (Codec.list .string).ser c.statementKinds),
    ("transport_policies", (Codec.list .string).ser c.transportPolicies),
    ("safety_defaults", (Codec.map .string).ser c.safetyDefaults),
    ("limitations", (Codec.list .string).ser c.limitations),
    ("supported_platforms", (Codec.list .string).ser c.supportedPlatforms)]

def ContractBrief.ser (c : ContractBrief) : Value :=
  .obj [
    ("schema_version", .str c.schemaVersion),
    ("tool_version", .str c.toolVersion),
    ("commands", (Codec.list .string).ser c.commands),
    ("output_formats", (Codec.list .string).ser c.outputFormats),
    ("data_schemas", (Codec.map .string).ser c.dataSchemas),
    ("exit_codes", (Codec.map .string).ser c.exitCodes),
    ("safety_defaults", (Codec.map .string).ser c.safetyDefaults)]

def ErrorDocument.ser (d : ErrorDocument) : Value :=
  .obj [
    ("schema_version", .str d.schemaVersion),
    ("class", .str d.class_),
    ("code", .str d.code),
    ("message", .str d.message)]

/-- The bytes of a compact document. -/
def toVec (v : Value) : Utf8.Bytes := Utf8.encode v.compact

/-- The bytes of an indented document. -/
def toVecPretty (v : Value) : Utf8.Bytes := Utf8.encode (v.pretty 0)

/-- Read a document from bytes, which must be UTF-8. -/
def fromSlice {α : Type} (c : Codec α) (bytes : Utf8.Bytes) : Option α :=
  (Utf8.decode bytes).bind fun text => (Json.parse text).bind c.de

theorem fromSlice_toVec {α : Type} (c : Codec α) (a : α) (hd : (c.ser a).isDocument) :
    fromSlice c (toVec (c.ser a)) = some a := by
  have hparse := Json.parse_compact (c.ser a) (c.exact_ser a) hd
  rw [fromSlice, toVec, Utf8.decode_encode, Option.bind_some, hparse, Option.bind_some,
    c.de_ser]

theorem toVec_injective {α : Type} (c : Codec α) (hd : ∀ a, (c.ser a).isDocument) :
    Function.Injective fun a => toVec (c.ser a) := by
  intro a b h
  have hcompact := Utf8.encode_injective h
  exact c.ser_injective
    (Json.compact_inj (c.exact_ser a) (c.exact_ser b) (hd a) (hd b) hcompact)

end DmlPact
