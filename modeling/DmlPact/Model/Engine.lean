/-
DmlPact/Model/Engine.lean

Planning and applying, as in `engine.rs`.

    applyPlan  =  read and check the plan and the SQL, create the receipt,
                  then applyAfterReceipt

`applyAfterReceipt` is one straight line of commands with a refusal at every
step; each refusal, and each of the three other outcomes, ends in one call of
`finalize`.
-/
import DmlPact.Model.Db
import DmlPact.Model.Receipt
import DmlPact.Model.Sql

namespace DmlPact

open Effect Utf8

def minPostgresVersionNum : Int64 := 130000

def maxPlanLifetimeMs : UInt64 := 86400000

def maxTargetEvidenceBytes : Nat := 67108864

structure DatabaseOptions where
  environmentName : String
  allowInsecureLocalhost : Bool

structure PlanOptions where
  sqlPath : Path
  outputPath : Path
  database : DatabaseOptions
  limits : Limits
  lifetimeMs : UInt64
  allowTriggers : Bool
  allowRowSecurity : Bool

structure ApplyOptions where
  sqlPath : Path
  planPath : Path
  receiptPath : Path
  database : DatabaseOptions

def databaseOperationError (code : String) : AppError where
  class_ := .io
  code := code
  message := "the PostgreSQL operation failed; connection details were not emitted"

variable (X : Crates)

/-! ### Checks -/

def validateLimits (limits : Limits) : AppResult Unit :=
  if limits.maxRows = 0 || 1000000 < limits.maxRows then
    .error {
      class_ := .usage, code := "max_rows_invalid"
      message := "max_rows must be between 1 and 1,000,000" }
  else if !(100 ≤ limits.statementTimeoutMs && limits.statementTimeoutMs ≤ 600000)
      || !(1 ≤ limits.lockTimeoutMs && limits.lockTimeoutMs ≤ 60000)
      || limits.statementTimeoutMs < limits.lockTimeoutMs then
    .error {
      class_ := .usage, code := "timeout_invalid"
      message := "statement timeout must be 100ms..10m and lock timeout 1ms..1m, not " ++
        "exceeding it" }
  else .ok ()

def enforcePostgresVersion (identity : DatabaseIdentity) : AppResult Unit :=
  if identity.serverVersionNum < minPostgresVersionNum then
    .error {
      class_ := .policy, code := "postgres_version_unsupported"
      message := "PostgreSQL 13 or newer is required" }
  else .ok ()

def validatePlanBinding (plan : Plan) (analyzed : AnalyzedSql) : AppResult Unit :=
  if plan.statementKind != analyzed.kind || plan.requestedTable != analyzed.requestedTable
      || plan.sqlFileSha256 != analyzed.sqlFileSha256
      || plan.normalizedSqlSha256 != analyzed.normalizedSqlSha256
      || plan.countQuerySha256 != analyzed.countQuerySha256
      || plan.targetQuerySha256 != analyzed.targetQuerySha256 then
    .error (contract "plan_sql_mismatch"
      "the SQL file does not exactly match the approved plan")
  else if plan.limits.maxRows < plan.preconditions.targetCount then
    .error (contract "plan_budget_invalid"
      "the plan target count exceeds its own row budget")
  else .ok ()

/-! ### Target evidence -/

def targetCount (analyzed : AnalyzedSql) : App UInt64 := do
  match analyzed.countSql with
  | none => pure analyzed.insertedRows
  | some query =>
  match ← queryOne query [] with
  | none => throw (databaseOperationError "target_count_failed")
  | some row =>
  let count : Int64 ← orPanic (row.get 0)
  if count < 0 then
    throw (contract "target_count_invalid" "PostgreSQL returned an invalid target count")
  else pure count.toUInt64

/-- Eight bytes, most significant first. -/
def toBeBytes (n : Nat) : Bytes :=
  [56, 48, 40, 32, 24, 16, 8, 0].map fun shift => UInt8.ofNat (n >>> shift)

def targetEvidenceBytesExceeded : AppError where
  class_ := .budget
  code := "target_evidence_bytes_exceeded"
  message := "target evidence exceeds the fixed 64 MiB safety limit"

/-- The loop over the rows: the evidence so far and how many rows it holds.  A
row is its length and then its bytes.  Nothing stands for a panic. -/
def collectEvidence : Bytes → Nat → List Row → Option (AppResult (Bytes × Nat))
  | evidence, observed, [] => some (.ok (evidence, observed))
  | evidence, observed, row :: rows => do
      let value : String ← row.get 0
      let bytes := asBytes value
      if maxTargetEvidenceBytes < evidence.length + 8 + bytes.length then
        return .error targetEvidenceBytesExceeded
      else
        collectEvidence (evidence ++ toBeBytes bytes.length ++ bytes) (observed + 1) rows

def targetSetSha256 (analyzed : AnalyzedSql) (expectedCount : UInt64) : App String := do
  match analyzed.targetRowsSql with
  | none => return sha256Bytes X (asBytes analyzed.normalized)
  | some query =>
  let answer : Rows ← request (Cmd.query query [])
  let (evidence, observedCount) ← ofResult (← orPanic (collectEvidence [] 0 answer.rows))
  if !answer.complete then
    throw (databaseOperationError "target_evidence_query_failed")
  else if UInt64.ofNat observedCount != expectedCount then
    throw (contract "target_evidence_count_mismatch"
      "target evidence count does not match the pre-count in the same transaction")
  else return sha256Bytes X evidence

/-! ### Reading commands -/

def lintSql (path : Path) : App LintReport := do
  let analyzed ← readAndAnalyze X path
  let policyChecks := [
    "exactly_one_statement", "single_named_table",
    "no_functions_subqueries_or_placeholders", "no_returning_joins_or_auxiliary_tables",
    if analyzed.kind != .insert then "explicit_where_clause" else "explicit_values_rows"]
  return {
    schemaVersion := "dmlpact.lint.v1"
    toolVersion
    statementKind := analyzed.kind
    requestedTable := analyzed.requestedTable
    sqlFileSha256 := analyzed.sqlFileSha256
    normalizedSqlSha256 := analyzed.normalizedSqlSha256
    generatedTargetCount := analyzed.insertedRows
    countQuerySha256 := analyzed.countQuerySha256
    targetQuerySha256 := analyzed.targetQuerySha256
    policyChecks
    executableSqlEmitted := false }

def inspectTable (requestedTable : String) (options : DatabaseOptions) : App InspectReport := do
  let database ← connectDatabase X options.environmentName options.allowInsecureLocalhost
  let identity ← databaseIdentity database.endpointSha256
  ofResult (enforcePostgresVersion identity)
  let evidence ← tableEvidence requestedTable
  let schemaHash ← ofResult (tableSchemaSha256 X evidence)
  return {
    schemaVersion := "dmlpact.inspect.v1"
    toolVersion
    database := identity
    tableSchemaSha256 := schemaHash
    table := evidence
    transportPolicy := database.transportPolicy }

/-! ### Planning -/

def explainText (normalized : String) : String :=
  "EXPLAIN (FORMAT JSON, COSTS TRUE, VERBOSE TRUE) " ++ normalized

/-- The hash of the compact text of the server's explanation. -/
def explainSha256 (explain : Json.Value) : String := sha256Bytes X (toVec explain)

def createPlan (options : PlanOptions) : App Plan := do
  ofResult (validateLimits options.limits)
  if options.lifetimeMs = 0 || maxPlanLifetimeMs < options.lifetimeMs then
    throw {
      class_ := .usage, code := "plan_lifetime_invalid"
      message := "plan lifetime must be between 1 millisecond and 24 hours" }
  else do
  let analyzed ← readAndAnalyze X options.sqlPath
  let database ← connectDatabase X options.database.environmentName
    options.database.allowInsecureLocalhost
  match (← request (Cmd.start .repeatableRead true) : Bool) with
  | false => throw (databaseOperationError "plan_transaction_failed")
  | true =>
  applyLocalTimeouts options.limits
  let identity ← databaseIdentity database.endpointSha256
  ofResult (enforcePostgresVersion identity)
  let evidence ← tableEvidence analyzed.requestedTable
  ofResult (enforceTablePolicy evidence analyzed.kind options.allowTriggers
    options.allowRowSecurity)
  let schemaHash ← ofResult (tableSchemaSha256 X evidence)
  let count ← targetCount analyzed
  if options.limits.maxRows < count then
    throw {
      class_ := .budget, code := "row_budget_exceeded"
      message := "the planned target count " ++ toString count.toNat ++
        " exceeds max_rows " ++ toString options.limits.maxRows.toNat }
  else do
  let targetSet ← targetSetSha256 X analyzed count
  match ← queryOne (explainText analyzed.normalized) [] with
  | none => throw (databaseOperationError "explain_failed")
  | some explainRow =>
  let explain : Json.Value ← orPanic (explainRow.get 0)
  match (← request Cmd.commit : Bool) with
  | false => throw (databaseOperationError "plan_transaction_commit_failed")
  | true =>
  let createdAt ← unixMs
  if 2 ^ 64 ≤ createdAt.toNat + options.lifetimeMs.toNat then
    throw {
      class_ := .usage, code := "plan_expiry_overflow"
      message := "plan expiry overflow" }
  else do
  let plan : Plan := {
    schemaVersion := planSchemaVersion
    toolVersion
    planId := sha256Bytes X (asBytes (analyzed.normalizedSqlSha256 ++ ":" ++ schemaHash ++
      ":" ++ toString count.toNat ++ ":" ++ toString createdAt.toNat))
    createdAtUnixMs := createdAt
    expiresAtUnixMs := createdAt + options.lifetimeMs
    statementKind := analyzed.kind
    requestedTable := analyzed.requestedTable
    sqlFileSha256 := analyzed.sqlFileSha256
    normalizedSqlSha256 := analyzed.normalizedSqlSha256
    countQuerySha256 := analyzed.countQuerySha256
    targetQuerySha256 := analyzed.targetQuerySha256
    explainSha256 := explainSha256 X explain
    limits := options.limits
    transportPolicy := database.transportPolicy
    allowTriggers := options.allowTriggers
    allowRowSecurity := options.allowRowSecurity
    preconditions := {
      database := identity
      canonicalTable := canonicalTable evidence
      tableSchemaSha256 := schemaHash
      targetCount := count
      targetSetSha256 := targetSet
      relationKind := evidence.relationKind
      userTriggerCount := UInt64.ofNat evidence.userTriggers.length
      rewriteRuleCount := UInt64.ofNat evidence.rewriteRules.length
      rowSecurity := evidence.rowSecurity || evidence.forceRowSecurity }
    planSha256 := none }
  let plan ← ofResult (sealPlan X plan)
  writePlanNew X options.outputPath plan
  return plan

/-! ### Finishing a receipt -/

def finish (journal : ReceiptJournal) (state : ReceiptState) (result : ReceiptResult) :
    App ApplyResult := do
  let event ← journal.finalize X state result
  return {
    schemaVersion := "dmlpact.apply-result.v1"
    receiptId := journal.receiptId
    state
    planSha256 := event.planSha256
    affectedRows := result.affectedRows
    reasonCode := result.reasonCode
    receiptPath := Str.fromUtf8Lossy journal.path }

def refused (reason : String) (database : Option DatabaseIdentity)
    (tableSchemaSha256 : Option String) : ReceiptResult where
  affectedRows := none
  reasonCode := reason
  sqlstate := none
  database := database
  tableSchemaSha256 := tableSchemaSha256

def finishRefused (journal : ReceiptJournal) (reason : String)
    (database : Option DatabaseIdentity) (tableSchemaSha256 : Option String) :
    App ApplyResult :=
  finish X journal .refused (refused reason database tableSchemaSha256)

def committedReceiptFinalizationUncertain : AppError :=
  contract "committed_receipt_finalization_uncertain"
    ("the database commit succeeded, but durable terminal receipt publication could not be " ++
      "confirmed; do not retry the DML; verify the prepared receipt and reconcile it with the " ++
      "database")

def commitReceiptFinalizationUncertain : AppError :=
  contract "commit_receipt_finalization_uncertain"
    ("the database commit outcome and durable terminal receipt publication could not be " ++
      "confirmed; do not retry the DML; verify the prepared receipt and reconcile it with the " ++
      "database")

/-- Replace whatever error `x` ends in. -/
def mapErr {α : Type} (x : App α) (error : AppError) : App α := do
  match ← attempt x with
  | .ok a => pure a
  | .error (_ : AppError) => throw error

def finishCommitted (journal : ReceiptJournal) (result : ReceiptResult) : App ApplyResult :=
  mapErr (finish X journal .committed result) committedReceiptFinalizationUncertain

def finishUncertain (journal : ReceiptJournal) (result : ReceiptResult) : App ApplyResult :=
  mapErr (finish X journal .uncertain result) commitReceiptFinalizationUncertain

/-! ### Applying -/

def lockText (canonicalTable : String) : String :=
  "LOCK TABLE " ++ canonicalTable ++ " IN SHARE ROW EXCLUSIVE MODE"

/-- The transport the caller asked for. -/
def requestedTransport (options : DatabaseOptions) : TransportPolicy :=
  if options.allowInsecureLocalhost then .insecureLocalhost else .tlsRequired

def applyAfterReceipt (journal : ReceiptJournal) (plan : Plan) (analyzed : AnalyzedSql)
    (databaseOptions : DatabaseOptions) : App ApplyResult := do
  if requestedTransport databaseOptions != plan.transportPolicy then
    finishRefused X journal "transport_policy_drift" none none
  else do
  match ← attempt (connectDatabase X databaseOptions.environmentName
      databaseOptions.allowInsecureLocalhost) with
  | .error (error : AppError) => finish X journal .refused (refused error.code none none)
  | .ok database =>
  if database.transportPolicy != plan.transportPolicy then
    finishRefused X journal "transport_policy_drift" none none
  else do
  match (← request (Cmd.start .repeatableRead false) : Bool) with
  | false => finishRefused X journal "apply_transaction_failed" none none
  | true =>
  match ← attempt (applyLocalTimeouts plan.limits) with
  | .error (_ : AppError) =>
      finishRefused X journal "timeout_configuration_failed" none none
  | .ok _ =>
  match (← request (Cmd.batchExecute (lockText plan.preconditions.canonicalTable)) : Bool) with
  | false => finishRefused X journal "table_lock_failed" none none
  | true =>
  match ← attempt (databaseIdentity database.endpointSha256) with
  | .error (_ : AppError) => finishRefused X journal "identity_query_failed" none none
  | .ok identity =>
  if identity != plan.preconditions.database then
    finishRefused X journal "database_identity_drift" (some identity) none
  else do
  match ← attempt (tableEvidence analyzed.requestedTable) with
  | .error (error : AppError) => finishRefused X journal error.code (some identity) none
  | .ok evidence =>
  match tableSchemaSha256 X evidence with
  | .error _ => finishRefused X journal "table_schema_hash_failed" (some identity) none
  | .ok schemaHash =>
  if canonicalTable evidence != plan.preconditions.canonicalTable
      || schemaHash != plan.preconditions.tableSchemaSha256 then
    finishRefused X journal "table_schema_drift" (some identity) (some schemaHash)
  else
  match enforceTablePolicy evidence analyzed.kind plan.allowTriggers
      plan.allowRowSecurity with
  | .error error => finishRefused X journal error.code (some identity) (some schemaHash)
  | .ok () => do
  match ← attempt (targetCount analyzed) with
  | .error (_ : AppError) =>
      finishRefused X journal "target_count_failed" (some identity) (some schemaHash)
  | .ok count =>
  if count != plan.preconditions.targetCount then
    finishRefused X journal "target_count_drift" (some identity) (some schemaHash)
  else if plan.limits.maxRows < count then
    finishRefused X journal "row_budget_exceeded" (some identity) (some schemaHash)
  else do
  match ← attempt (targetSetSha256 X analyzed count) with
  | .error (error : AppError) =>
      finishRefused X journal error.code (some identity) (some schemaHash)
  | .ok targetSetHash =>
  if targetSetHash != plan.preconditions.targetSetSha256 then
    finishRefused X journal "target_set_drift" (some identity) (some schemaHash)
  else do
  match (← request (Cmd.execute analyzed.normalized) : Except DbError UInt64) with
  | .error error => do
      let _ ← request Cmd.rollback
      finish X journal .rolledBack {
        affectedRows := none
        reasonCode := "statement_execution_failed"
        sqlstate := sqlstate error
        database := some identity
        tableSchemaSha256 := some schemaHash }
  | .ok affected =>
  if affected != count then do
    let _ ← request Cmd.rollback
    finish X journal .rolledBack {
      affectedRows := some affected
      reasonCode := "affected_rows_mismatch"
      sqlstate := none
      database := some identity
      tableSchemaSha256 := some schemaHash }
  else do
  match (← request Cmd.commit : Bool) with
  | false =>
      finishUncertain X journal {
        affectedRows := some affected
        reasonCode := "commit_outcome_uncertain"
        sqlstate := none
        database := some identity
        tableSchemaSha256 := some schemaHash }
  | true =>
      finishCommitted X journal {
        affectedRows := some affected
        reasonCode := "applied"
        sqlstate := none
        database := some identity
        tableSchemaSha256 := some schemaHash }

def planExpired : AppError :=
  contract "plan_expired" "the plan has expired; create a fresh plan"

def applyPlan (options : ApplyOptions) : App ApplyResult := do
  let plan ← readPlan X options.planPath
  ofResult (validateLimits plan.limits)
  let analyzed ← readAndAnalyze X options.sqlPath
  ofResult (validatePlanBinding plan analyzed)
  let now ← unixMs
  if plan.expiresAtUnixMs < now then throw planExpired
  else do
  let journal ← ReceiptJournal.create X options.receiptPath plan analyzed.sqlFileSha256
  applyAfterReceipt X journal plan analyzed options.database

end DmlPact
