/-
DmlPact/Model/Db.lean

Connections, catalog evidence and the table policy of `db.rs`.  The SQL texts
are those of the source, with their line continuations joined.
-/
import DmlPact.Lib.Str
import DmlPact.Model.Integrity

namespace DmlPact

open Effect

def maxConnectionValueBytes : Nat := 16384

structure ConnectedDatabase where
  transportPolicy : TransportPolicy
  endpointSha256 : String
  deriving DecidableEq

def databaseError (code : String) : AppError where
  class_ := .io
  code := code
  message := "the PostgreSQL operation failed; connection details were not emitted"

/-! ### Queries -/

/-- Exactly one row, or nothing. -/
def queryOne (sql : String) (params : List SqlValue) : App (Option Row) := do
  match (← request (Cmd.query sql params) : Rows) with
  | ⟨[row], true⟩ => pure (some row)
  | _ => pure none

/-- At most one row; nothing when the query failed or gave more. -/
def queryOpt (sql : String) (params : List SqlValue) : App (Option (Option Row)) := do
  match (← request (Cmd.query sql params) : Rows) with
  | ⟨[], true⟩ => pure (some none)
  | ⟨[row], true⟩ => pure (some (some row))
  | _ => pure none

/-- All rows, or nothing when the query failed. -/
def queryAll (sql : String) (params : List SqlValue) : App (Option (List Row)) := do
  match (← request (Cmd.query sql params) : Rows) with
  | ⟨rows, true⟩ => pure (some rows)
  | _ => pure none

/-! ### Connecting -/

variable (X : Crates)

def validateEnvironmentName (name : String) : AppResult Unit :=
  let invalid : AppResult Unit := .error {
    class_ := .usage, code := "database_env_name_invalid"
    message := "the database environment variable name is invalid" }
  match name.toList with
  | [] => invalid
  | first :: characters =>
      if (first = '_' || Str.isAsciiAlphabetic first)
          && characters.all (fun c => c = '_' || Str.isAsciiAlphanumeric c) then .ok ()
      else invalid

def Host.isLocal : Host → Bool
  | .tcp hostname =>
      let lower := Str.toAsciiLowercase hostname
      lower = "localhost" || lower = "127.0.0.1" || lower = "::1"
  | .unix _ => true

def allHostsAreLocal (config : Config) : Bool :=
  config.hosts.all Host.isLocal && config.hostaddrs.all Net.IpAddr.isLoopback

def Host.label : Host → String
  | .tcp hostname => "tcp:" ++ hostname
  | .unix path => "unix:" ++ Str.fromUtf8Lossy path

def endpointIdentity (config : Config) : String :=
  "hosts=" ++ Str.join "\n" (config.hosts.map Host.label) ++
    "\naddresses=" ++
      Str.join "\n" (config.hostaddrs.map fun address => String.ofList address.text) ++
    "\nports=" ++ Str.join "," (config.ports.map fun port => toString port.toNat) ++
    "\nuser=" ++ config.user.getD "" ++ "\ndatabase=" ++ config.dbname.getD ""

def endpointSha256 (config : Config) : String :=
  sha256Bytes X (asBytes (endpointIdentity config))

def connectDatabase (environmentName : String) (allowInsecureLocalhost : Bool) :
    App ConnectedDatabase := do
  ofResult (validateEnvironmentName environmentName)
  match (← request (Cmd.var environmentName) : Option String) with
  | none => throw {
      class_ := .usage, code := "database_env_missing"
      message := "database connection environment variable " ++ environmentName ++
        " is not set" }
  | some connectionValue =>
  if maxConnectionValueBytes < (asBytes connectionValue).length then
    throw {
      class_ := .usage, code := "database_env_too_large"
      message := "the database connection value exceeds the 16 KiB contract limit" }
  else
  match X.parseConfig connectionValue with
  | none => throw {
      class_ := .usage, code := "database_config_invalid"
      message := "the database connection value is invalid" }
  | some parsed =>
  let config : Config :=
    { parsed with applicationName := some "dmlpact/0.1", connectTimeoutSecs := some 10 }
  let endpoint := endpointSha256 X config
  if allowInsecureLocalhost then
    if !allHostsAreLocal config then
      throw {
        class_ := .policy, code := "insecure_remote_denied"
        message := "--allow-insecure-localhost is valid only for loopback or " ++
          "Unix-socket connections" }
    else do
    match (← request (Cmd.connect { config with sslMode := .disable } .noTls) : Bool) with
    | false => throw (databaseError "connect_failed")
    | true => pure { transportPolicy := .insecureLocalhost, endpointSha256 := endpoint }
  else do
    match (← request Cmd.nativeCerts : Bool) with
    | false => throw {
        class_ := .io, code := "native_certificates_unavailable"
        message := "no usable native TLS root certificates were found" }
    | true =>
    match (← request (Cmd.connect { config with sslMode := .require } .nativeRoots) : Bool) with
    | false => throw (databaseError "tls_connect_failed")
    | true => pure { transportPolicy := .tlsRequired, endpointSha256 := endpoint }

/-! ### Identity -/

def identitySql : String :=
  "SELECT current_database(), current_user, current_setting('search_path'), " ++
    "current_setting('server_version_num')::bigint, " ++
    "pg_catalog.inet_server_addr()::text, " ++
    "pg_catalog.inet_server_port(), " ++
    "current_setting('TimeZone'), current_setting('DateStyle'), " ++
    "current_setting('IntervalStyle'), " ++
    "current_setting('standard_conforming_strings'), " ++
    "current_setting('client_encoding'), current_setting('lc_numeric'), " ++
    "current_setting('lc_monetary'), current_setting('lc_time')"

def DatabaseIdentity.ofRow (endpointSha256 : String) (row : Row) : Option DatabaseIdentity := do
  return {
    database := ← row.get 0
    role := ← row.get 1
    searchPath := ← row.get 2
    serverVersionNum := ← row.get 3
    endpointSha256
    serverAddress := ← row.get 4
    serverPort := ← row.get 5
    settings := BTreeMap.ofList [
      ("TimeZone", ← row.get 6),
      ("DateStyle", ← row.get 7),
      ("IntervalStyle", ← row.get 8),
      ("standard_conforming_strings", ← row.get 9),
      ("client_encoding", ← row.get 10),
      ("lc_numeric", ← row.get 11),
      ("lc_monetary", ← row.get 12),
      ("lc_time", ← row.get 13)] }

def databaseIdentity (endpointSha256 : String) : App DatabaseIdentity := do
  match ← queryOne identitySql [] with
  | none => throw (databaseError "identity_query_failed")
  | some row => orPanic (DatabaseIdentity.ofRow endpointSha256 row)

/-! ### Table evidence -/

def tableLookupSql : String :=
  "SELECT c.oid::bigint, n.nspname, c.relname, c.relkind::text, " ++
    "c.relpersistence::text, c.relrowsecurity, c.relforcerowsecurity " ++
    "FROM pg_catalog.pg_class AS c " ++
    "JOIN pg_catalog.pg_namespace AS n ON n.oid = c.relnamespace " ++
    "WHERE c.oid = pg_catalog.to_regclass($1)::oid"

def columnSql : String :=
  "SELECT a.attnum::smallint, a.attname, " ++
    "pg_catalog.format_type(a.atttypid, a.atttypmod), " ++
    "a.attnotnull, a.atthasdef, " ++
    "pg_catalog.pg_get_expr(d.adbin, d.adrelid), " ++
    "a.attidentity::text, a.attgenerated::text " ++
    "FROM pg_catalog.pg_attribute AS a " ++
    "LEFT JOIN pg_catalog.pg_attrdef AS d " ++
    "ON d.adrelid = a.attrelid AND d.adnum = a.attnum " ++
    "WHERE a.attrelid = $1::bigint::oid AND a.attnum > 0 AND NOT a.attisdropped " ++
    "ORDER BY a.attnum"

def constraintSql : String :=
  "SELECT conname, pg_catalog.pg_get_constraintdef(oid, true) " ++
    "FROM pg_catalog.pg_constraint WHERE conrelid = $1::bigint::oid ORDER BY conname"

def indexSql : String :=
  "SELECT indexrelid::regclass::text, pg_catalog.pg_get_indexdef(indexrelid) " ++
    "FROM pg_catalog.pg_index WHERE indrelid = $1::bigint::oid " ++
    "ORDER BY indexrelid::regclass::text"

def triggerSql : String :=
  "SELECT tgname, concat(tgenabled::text, ' ', " ++
    "pg_catalog.pg_get_triggerdef(oid, true)) " ++
    "FROM pg_catalog.pg_trigger " ++
    "WHERE tgrelid = $1::bigint::oid AND NOT tgisinternal ORDER BY tgname"

def ruleSql : String :=
  "SELECT rulename, pg_catalog.pg_get_ruledef(oid, true) " ++
    "FROM pg_catalog.pg_rewrite " ++
    "WHERE ev_class = $1::bigint::oid AND rulename <> '_RETURN' ORDER BY rulename"

def policySql : String :=
  "SELECT polname, concat_ws(' ', polcmd, polpermissive::text, " ++
    "polroles::text, " ++
    "pg_catalog.pg_get_expr(polqual, polrelid), " ++
    "pg_catalog.pg_get_expr(polwithcheck, polrelid)) " ++
    "FROM pg_catalog.pg_policy WHERE polrelid = $1::bigint::oid ORDER BY polname"

def inheritanceSql : String :=
  "SELECT relation FROM ( " ++
    "SELECT concat('parent:', inhparent::regclass::text) AS relation " ++
    "FROM pg_catalog.pg_inherits WHERE inhrelid = $1::bigint::oid " ++
    "UNION ALL " ++
    "SELECT concat('child:', inhrelid::regclass::text) AS relation " ++
    "FROM pg_catalog.pg_inherits WHERE inhparent = $1::bigint::oid " ++
    ") AS links ORDER BY relation"

def referentialActionSql : String :=
  "SELECT conname, pg_catalog.pg_get_constraintdef(oid, true) " ++
    "FROM pg_catalog.pg_constraint " ++
    "WHERE confrelid = $1::bigint::oid AND contype = 'f' " ++
    "AND (confupdtype IN ('c', 'n', 'd') OR confdeltype IN ('c', 'n', 'd')) " ++
    "ORDER BY conname"

/-- The queries of `db.rs`. -/
def catalogQueries : List String :=
  [identitySql, tableLookupSql, columnSql, constraintSql, indexSql, triggerSql, ruleSql, policySql,
    inheritanceSql, referentialActionSql]

def ColumnEvidence.ofRow (row : Row) : Option ColumnEvidence := do
  return {
    position := ← row.get 0
    name := ← row.get 1
    dataType := ← row.get 2
    notNull := ← row.get 3
    hasDefault := ← row.get 4
    defaultExpression := ← row.get 5
    identity := ← row.get 6
    generated := ← row.get 7 }

def NamedDefinition.ofRow (row : Row) : Option NamedDefinition := do
  return { name := ← row.get 0, definition := ← row.get 1 }

/-- The rows of a catalog query about one table, each decoded by `decode`. -/
def catalogRows {α : Type} (decode : Row → Option α) (query : String) (oid : Int64)
    (errorCode : String) : App (List α) := do
  match ← queryAll query [.int8 oid] with
  | none => throw (databaseError errorCode)
  | some rows => orPanic (rows.mapM decode)

def namedDefinitions (query : String) (oid : Int64) (errorCode : String) :
    App (List NamedDefinition) :=
  catalogRows NamedDefinition.ofRow query oid errorCode

def tableNotFound : AppError where
  class_ := .policy
  code := "table_not_found"
  message := "the requested table does not resolve in the current database and search path"

def tableEvidence (requestedTable : String) : App TableEvidence := do
  match ← queryOpt tableLookupSql [.text requestedTable] with
  | none => throw (databaseError "table_lookup_failed")
  | some none => throw tableNotFound
  | some (some row) =>
  let oid : Int64 ← orPanic (row.get 0)
  let columns ← catalogRows ColumnEvidence.ofRow columnSql oid "column_evidence_failed"
  let constraints ← namedDefinitions constraintSql oid "constraint_evidence_failed"
  let indexes ← namedDefinitions indexSql oid "index_evidence_failed"
  let userTriggers ← namedDefinitions triggerSql oid "trigger_evidence_failed"
  let rewriteRules ← namedDefinitions ruleSql oid "rule_evidence_failed"
  let policies ← namedDefinitions policySql oid "policy_evidence_failed"
  let inheritanceRelations ←
    catalogRows (fun row => row.get 0) inheritanceSql oid "inheritance_evidence_failed"
  let referentialActions ←
    namedDefinitions referentialActionSql oid "referential_action_evidence_failed"
  orPanic do
    return {
      schema := ← row.get 1
      table := ← row.get 2
      oid
      relationKind := ← row.get 3
      persistence := ← row.get 4
      rowSecurity := ← row.get 5
      forceRowSecurity := ← row.get 6
      columns, constraints, indexes, userTriggers, rewriteRules, policies,
      inheritanceRelations, referentialActions }

def tableSchemaSha256 (evidence : TableEvidence) : AppResult String :=
  sha256Json X TableEvidence.codec evidence

def quoteIdentifier (identifier : String) : String :=
  "\"" ++ Str.replaceChar '"' ['"', '"'] identifier ++ "\""

def canonicalTable (evidence : TableEvidence) : String :=
  quoteIdentifier evidence.schema ++ "." ++ quoteIdentifier evidence.table

/-! ### Policy and session settings -/

def enforceTablePolicy (evidence : TableEvidence) (statementKind : StatementKind)
    (allowTriggers allowRowSecurity : Bool) : AppResult Unit :=
  if evidence.relationKind != "r" || evidence.persistence != "p" then
    .error {
      class_ := .policy, code := "relation_kind_denied"
      message := "v0.1 supports only ordinary permanent PostgreSQL tables" }
  else if !evidence.rewriteRules.isEmpty then
    .error {
      class_ := .policy, code := "rewrite_rules_denied"
      message := "tables with user rewrite rules are not supported" }
  else if !evidence.inheritanceRelations.isEmpty then
    .error {
      class_ := .policy, code := "table_inheritance_denied"
      message := "tables participating in inheritance or partitioning are not supported" }
  else if !evidence.referentialActions.isEmpty then
    .error {
      class_ := .policy, code := "referential_actions_denied"
      message := "tables referenced by cascading or SET NULL/DEFAULT foreign keys are not " ++
        "supported" }
  else if !allowTriggers && !evidence.userTriggers.isEmpty then
    .error {
      class_ := .policy, code := "user_triggers_denied"
      message := "the table has user triggers; acknowledge them with --allow-triggers" }
  else if !allowRowSecurity
      && (evidence.rowSecurity || evidence.forceRowSecurity || !evidence.policies.isEmpty) then
    .error {
      class_ := .policy, code := "row_security_denied"
      message := "the table uses row-level security; acknowledge it with " ++
        "--allow-row-security" }
  else if statementKind = .insert
      && evidence.columns.any (fun column => column.defaultExpression.isSome
        || column.identity != "" || column.generated != "") then
    .error {
      class_ := .policy, code := "insert_implicit_behavior_denied"
      message := "INSERT targets with defaults, identity columns, or generated columns are " ++
        "not supported" }
  else .ok ()

/-- Addition that stops at the largest value. -/
def saturatingAdd (a b : UInt64) : UInt64 :=
  UInt64.ofNat (min (a.toNat + b.toNat) (2 ^ 64 - 1))

def timeoutSettings (limits : Limits) : String :=
  "SET LOCAL statement_timeout = '" ++ toString limits.statementTimeoutMs.toNat ++ "ms'; " ++
    "SET LOCAL lock_timeout = '" ++ toString limits.lockTimeoutMs.toNat ++ "ms'; " ++
    "SET LOCAL idle_in_transaction_session_timeout = '" ++
    toString (saturatingAdd limits.statementTimeoutMs 5000).toNat ++ "ms'"

def applyLocalTimeouts (limits : Limits) : App Unit := do
  match (← request (Cmd.batchExecute (timeoutSettings limits)) : Bool) with
  | false => throw (databaseError "timeout_configuration_failed")
  | true => pure ()

def sqlstate (error : DbError) : Option String := error.code

end DmlPact
