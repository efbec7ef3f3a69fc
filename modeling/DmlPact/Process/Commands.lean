/-
DmlPact/Process/Commands.lean

The commands that each function of a process can issue, beyond those of apply,
and the last part of `connectDatabase`, which is the only one that connects.
-/
import DmlPact.Apply.Commands
import DmlPact.Apply.Runs
import DmlPact.Model.Cli

namespace DmlPact

open Effect Utf8

variable (X : Crates)

/-! ### Connecting -/

/-- Connect as `parsed` says, once it has been read. -/
def connectParsed (parsed : Config) (allowInsecureLocalhost : Bool) : App ConnectedDatabase := do
  let config := clientConfig parsed
  let endpoint := endpointSha256 X config
  if allowInsecureLocalhost then
    if !allHostsAreLocal config then
      throw {
        class_ := .policy, code := "insecure_remote_denied"
        message := "--allow-insecure-localhost is valid only for loopback or " ++
          "Unix-socket connections" }
    else do
    match (← request (Cmd.connect { config with sslMode := .disable } .noTls) : Bool) with
    | false => throw (databaseError "connect_failed")
    | true => pure { transportPolicy := .insecureLocalhost, endpointSha256 := endpoint }
  else do
    match (← request Cmd.nativeCerts : Bool) with
    | false => throw {
        class_ := .io, code := "native_certificates_unavailable"
        message := "no usable native TLS root certificates were found" }
    | true =>
    match (← request (Cmd.connect { config with sslMode := .require } .nativeRoots) : Bool) with
    | false => throw (databaseError "tls_connect_failed")
    | true => pure { transportPolicy := .tlsRequired, endpointSha256 := endpoint }

/-- What the value of the variable leads to. -/
def connectValue (environmentName : String) (allowInsecureLocalhost : Bool) :
    Option String → App ConnectedDatabase
  | none => throw {
      class_ := .usage, code := "database_env_missing"
      message := "database connection environment variable " ++ environmentName ++
        " is not set" }
  | some connectionValue =>
      if maxConnectionValueBytes < (asBytes connectionValue).length then
        throw {
          class_ := .usage, code := "database_env_too_large"
          message := "the database connection value exceeds the 16 KiB contract limit" }
      else
        match X.parseConfig connectionValue with
        | none => throw {
            class_ := .usage, code := "database_config_invalid"
            message := "the database connection value is invalid" }
        | some parsed => connectParsed X parsed allowInsecureLocalhost

theorem connectDatabase_eq (environmentName : String) (allowInsecureLocalhost : Bool) :
    connectDatabase X environmentName allowInsecureLocalhost = (do
      ofResult (validateEnvironmentName environmentName)
      let value ← request (Cmd.var environmentName)
      connectValue X environmentName allowInsecureLocalhost value) := by
  refine bind_congr fun _ => bind_congr fun value => ?_
  rcases value with - | value
  · rfl
  show (if _ then _ else _) = if _ then _ else _
  refine ite_congr rfl (fun _ => rfl) fun _ => ?_
  rcases X.parseConfig value with - | parsed <;> rfl

/-! ### Planning -/

/-- The transaction of planning, from its start to its commit: what was read,
and the answer to EXPLAIN. -/
def planSession (options : PlanOptions) (analyzed : AnalyzedSql) (database : ConnectedDatabase) :
    App (Observed × Json.Value) := do
  match (← request (Cmd.start .repeatableRead true) : Bool) with
  | false => throw (databaseOperationError "plan_transaction_failed")
  | true =>
  applyLocalTimeouts options.limits
  let identity ← databaseIdentity database.endpointSha256
  ofResult (enforcePostgresVersion identity)
  let evidence ← tableEvidence analyzed.requestedTable
  ofResult (enforceTablePolicy evidence analyzed.kind options.allowTriggers
    options.allowRowSecurity)
  let schemaHash ← ofResult (tableSchemaSha256 X evidence)
  let count ← targetCount analyzed
  if options.limits.maxRows < count then
    throw {
      class_ := .budget, code := "row_budget_exceeded"
      message := "the planned target count " ++ toString count.toNat ++
        " exceeds max_rows " ++ toString options.limits.maxRows.toNat }
  else do
  let targetSet ← targetSetSha256 X analyzed count
  match ← queryOne (explainText analyzed.normalized) [] with
  | none => throw (databaseOperationError "explain_failed")
  | some explainRow =>
  let explain : Json.Value ← orPanic (explainRow.get 0)
  match (← request Cmd.commit : Bool) with
  | false => throw (databaseOperationError "plan_transaction_commit_failed")
  | true => return ({ identity, evidence, schemaHash, count, targetSet }, explain)

/-- The plan, before its hash is filled in. -/
def planDraft (options : PlanOptions) (analyzed : AnalyzedSql) (database : ConnectedDatabase)
    (observed : Observed) (explain : Json.Value) (createdAt : UInt64) : Plan where
  schemaVersion := planSchemaVersion
  toolVersion := toolVersion
  planId := sha256Bytes X (asBytes (analyzed.normalizedSqlSha256 ++ ":" ++
    observed.schemaHash ++ ":" ++ toString observed.count.toNat ++ ":" ++
    toString createdAt.toNat))
  createdAtUnixMs := createdAt
  expiresAtUnixMs := createdAt + options.lifetimeMs
  statementKind := analyzed.kind
  requestedTable := analyzed.requestedTable
  sqlFileSha256 := analyzed.sqlFileSha256
  normalizedSqlSha256 := analyzed.normalizedSqlSha256
  countQuerySha256 := analyzed.countQuerySha256
  targetQuerySha256 := analyzed.targetQuerySha256
  explainSha256 := explainSha256 X explain
  limits := options.limits
  transportPolicy := database.transportPolicy
  allowTriggers := options.allowTriggers
  allowRowSecurity := options.allowRowSecurity
  preconditions := {
    database := observed.identity
    canonicalTable := canonicalTable observed.evidence
    tableSchemaSha256 := observed.schemaHash
    targetCount := observed.count
    targetSetSha256 := observed.targetSet
    relationKind := observed.evidence.relationKind
    userTriggerCount := UInt64.ofNat observed.evidence.userTriggers.length
    rewriteRuleCount := UInt64.ofNat observed.evidence.rewriteRules.length
    rowSecurity := observed.evidence.rowSecurity || observed.evidence.forceRowSecurity }
  planSha256 := none

/-- The plan is dated, sealed and written. -/
def publishPlan (options : PlanOptions) (draft : UInt64 → Plan) : App Plan := do
  let createdAt ← unixMs
  if 2 ^ 64 ≤ createdAt.toNat + options.lifetimeMs.toNat then
    throw {
      class_ := .usage, code := "plan_expiry_overflow"
      message := "plan expiry overflow" }
  else do
  let plan ← ofResult (sealPlan X (draft createdAt))
  writePlanNew X options.outputPath plan
  return plan

/-- **Planning** in four parts. -/
theorem createPlan_eq (options : PlanOptions) : createPlan X options = (do
    ofResult (validateLimits options.limits)
    if options.lifetimeMs = 0 || maxPlanLifetimeMs < options.lifetimeMs then
      throw {
        class_ := .usage, code := "plan_lifetime_invalid"
        message := "plan lifetime must be between 1 millisecond and 24 hours" }
    else do
    let analyzed ← readAndAnalyze X options.sqlPath
    let database ← connectDatabase X options.database.environmentName
      options.database.allowInsecureLocalhost
    let observed ← planSession X options analyzed database
    publishPlan X options (planDraft X options analyzed database observed.1 observed.2)) := by
  unfold createPlan planSession
  simp only [bind_assoc]
  refine bind_congr fun _ => ite_congr rfl (fun _ => rfl) fun _ => ?_
  refine bind_congr fun analyzed => bind_congr fun database => bind_congr fun started => ?_
  cases started
  · rfl
  dsimp only
  simp only [bind_assoc]
  refine bind_congr fun _ => bind_congr fun identity => bind_congr fun _ => ?_
  refine bind_congr fun evidence => bind_congr fun _ => bind_congr fun schemaHash => ?_
  refine bind_congr fun count => ?_
  split_ifs
  · rfl
  simp only [bind_assoc]
  refine bind_congr fun targetSet => bind_congr fun explained => ?_
  rcases explained with - | explainRow
  · rfl
  dsimp only
  simp only [bind_assoc]
  refine bind_congr fun explain => bind_congr fun committed => ?_
  cases committed <;> rfl

/-! ### Inspecting -/

/-- What inspecting reads, once it is connected. -/
def inspectSession (requestedTable : String) (database : ConnectedDatabase) :
    App InspectReport := do
  let identity ← databaseIdentity database.endpointSha256
  ofResult (enforcePostgresVersion identity)
  let evidence ← tableEvidence requestedTable
  let schemaHash ← ofResult (tableSchemaSha256 X evidence)
  return {
    schemaVersion := "dmlpact.inspect.v1"
    toolVersion
    database := identity
    tableSchemaSha256 := schemaHash
    table := evidence
    transportPolicy := database.transportPolicy }

theorem inspectTable_eq (requestedTable : String) (options : DatabaseOptions) :
    inspectTable X requestedTable options = (do
      let database ← connectDatabase X options.environmentName options.allowInsecureLocalhost
      inspectSession X requestedTable database) := rfl

/-! ### Channels -/

theorem lintSql_uses (path : Path) : Uses [.read] (lintSql X path).run :=
  .bind (readAndAnalyze_uses X path) fun _ => .pure _

theorem verifyReceipt_uses (path : Path) : Uses [.read] (verifyReceipt X path).run := by
  refine .bind (.request rfl) fun found => ?_
  rcases found with - | metadata
  · exact .throw _
  refine .ite (.throw _) (.bind (.request rfl) fun content => ?_)
  rcases content with - | bytes
  · exact .throw _
  · exact .ofResult _

theorem uses_orPanic {α : Type} {cs : List Channel} (o : Option α) : Uses cs (orPanic o).run :=
  within_orPanic o

theorem queries_uses {sql : String} {params : List SqlValue} :
    (Cmd.query sql params).channel ∈ [Channel.query] := List.mem_singleton_self _

theorem uses_of_inspects {α : Type} {analyzed : AnalyzedSql} {p : Prog Cmd Reply α}
    (hp : Within (Inspects analyzed) p) : Uses [.query] p := by
  refine hp.mono fun c hc => ?_
  cases c
  case query => exact queries_uses
  all_goals exact hc.elim

theorem databaseIdentity_uses (endpoint : String) :
    Uses [.query] (databaseIdentity endpoint).run := by
  refine .bind (queryOne_within queries_uses) fun row => ?_
  rcases row with - | row
  · exact .throw _
  · exact uses_orPanic _

theorem catalogRows_uses {α : Type} (decode : Row → Option α) (query : String) (oid : Int64)
    (errorCode : String) : Uses [.query] (catalogRows decode query oid errorCode).run := by
  refine .bind (queryAll_within queries_uses) fun rows => ?_
  rcases rows with - | rows
  · exact .throw _
  · exact uses_orPanic _

theorem tableEvidence_uses (requestedTable : String) :
    Uses [.query] (tableEvidence requestedTable).run := by
  refine .bind (queryOpt_within queries_uses) fun row => ?_
  rcases row with - | - | row
  · exact .throw _
  · exact .throw _
  refine .bind (uses_orPanic _) fun oid => .bind (catalogRows_uses _ _ _ _) fun _ => ?_
  refine .bind (catalogRows_uses _ _ _ _) fun _ => .bind (catalogRows_uses _ _ _ _) fun _ => ?_
  refine .bind (catalogRows_uses _ _ _ _) fun _ => .bind (catalogRows_uses _ _ _ _) fun _ => ?_
  refine .bind (catalogRows_uses _ _ _ _) fun _ => .bind (catalogRows_uses _ _ _ _) fun _ => ?_
  exact .bind (catalogRows_uses _ _ _ _) fun _ => uses_orPanic _

theorem inspectSession_uses (requestedTable : String) (database : ConnectedDatabase) :
    Uses [.query] (inspectSession X requestedTable database).run := by
  refine .bind (databaseIdentity_uses _) fun identity => .bind (.ofResult _) fun _ => ?_
  exact .bind (tableEvidence_uses _) fun evidence => .bind (.ofResult _) fun _ => .pure _

/-- Planning starts one transaction, READ ONLY, and its one batch is its settings. -/
theorem planSession_within {S : Cmd → Prop} {options : PlanOptions} {analyzed : AnalyzedSql}
    {database : ConnectedDatabase} (hstart : S (.start .repeatableRead true))
    (hsettings : S (.batchExecute (timeoutSettings options.limits)))
    (hrest : ∀ c : Cmd, c.channel ∈ [Channel.query, .finish] → S c) :
    Within S (planSession X options analyzed database).run := by
  have hread {α : Type} {x : App α} (hx : Uses [.query] x.run) : Within S x.run :=
    Within.mono hx fun c hc => hrest c (by simp [List.mem_singleton.mp hc])
  refine .run_bind (within_request hstart) fun started => ?_
  cases started
  · exact within_ret _
  refine .run_bind (applyLocalTimeouts_within hsettings) fun _ => ?_
  refine .run_bind (hread (databaseIdentity_uses _)) fun identity => .run_bind (within_ret _) fun _ => ?_
  refine .run_bind (hread (tableEvidence_uses _)) fun evidence => .run_bind (within_ret _) fun _ => ?_
  refine .run_bind (within_ret _) fun schemaHash => ?_
  refine .run_bind (hread (uses_of_inspects (targetCount_within analyzed))) fun count => ?_
  split
  · exact within_ret _
  refine .run_bind (hread (uses_of_inspects (targetSetSha256_within X analyzed count)))
    fun targetSet => ?_
  refine .run_bind (hread (queryOne_within queries_uses)) fun explained => ?_
  rcases explained with - | explainRow
  · exact within_ret _
  refine .run_bind (within_orPanic _) fun explain => ?_
  refine .run_bind (within_request (hrest _ (by simp [Cmd.channel]))) fun committed => ?_
  cases committed
  · exact within_ret _
  · exact within_ret _

theorem planSession_uses (options : PlanOptions) (analyzed : AnalyzedSql)
    (database : ConnectedDatabase) :
    Uses [.start, .batch, .query, .finish] (planSession X options analyzed database).run := by
  have hsub : [Channel.query, .finish] ⊆ [Channel.start, .batch, .query, .finish] := by
    decide
  exact planSession_within X (List.contains_iff_mem.mp rfl) (List.contains_iff_mem.mp rfl)
    fun c hc => hsub hc

theorem publishPlan_uses (options : PlanOptions) (draft : UInt64 → Plan) :
    Uses [.clock, .write] (publishPlan X options draft).run := by
  refine .bind (unixMs_uses.mono (by decide)) fun createdAt => .ite (.throw _) ?_
  refine .bind (.ofResult _) fun plan => .bind ?_ fun _ => .pure _
  refine .bind (.ofResult _) fun _ => .bind (.request rfl) fun created => ?_
  cases created
  · exact .throw _
  refine .bind ((writeDurably_uses _ _).mono (by decide)) fun durable => ?_
  cases durable
  · exact .throw _
  · exact .pure _

theorem emitJson_uses (value : Json.Value) : Uses [.output] (emitJson value).run := by
  refine .bind (.request rfl) fun written => ?_
  cases written
  · exact .throw _
  refine .bind (.request rfl) fun ended => ?_
  cases ended
  · exact .throw _
  · exact .pure _

theorem printOrPanic_uses (bytes : Bytes) : Uses [.output] (printOrPanic bytes) := by
  refine within_call.mpr ⟨List.mem_singleton_self _, fun written => ?_⟩
  cases written
  · exact within_crash
  · exact within_ret _

theorem exitWith_uses (error : AppError) : Uses [.output] (exitWith error) := by
  refine within_call.mpr ⟨List.mem_singleton_self _, fun written => ?_⟩
  cases written
  · exact within_ret _
  · exact within_call.mpr ⟨List.mem_singleton_self _, fun _ => within_ret _⟩

/-- What a process makes of the result of its command. -/
def concluded : Except AppError UInt8 → Prog Cmd Reply UInt8
  | .ok code => .ret code
  | .error error => exitWith error

theorem main_command (command : Command) :
    main X (.command command) = (run X command).run >>= concluded := by
  show (run X command).run >>= _ = _
  refine congrArg ((run X command).run >>= ·) (funext fun result => ?_)
  cases result with
  | ok code => rfl
  | error error => rfl

theorem concluded_uses (result : Except AppError UInt8) : Uses [.output] (concluded result) := by
  cases result with
  | ok code => exact within_ret _
  | error error => exact exitWith_uses error

end DmlPact
