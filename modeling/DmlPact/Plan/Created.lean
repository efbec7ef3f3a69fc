/-
DmlPact/Plan/Created.lean

What has happened when `createPlan` returns a plan.  A `Planning` is one
complete set of answers under which every check of planning passes; its fields
are the answers and the checks, `Planning.history` is the run they make, and
`Planning.plan` is the plan.

    createPlan returns plan after h
        ↔  h and plan are those of a planning          (createPlan_ok)
-/
import DmlPact.Apply.Answers

namespace DmlPact

open Effect Utf8

variable (X : Crates) {h : History}

theorem writePlanNew_ok {path : Path} {plan : Plan} :
    Reaches (writePlanNew X path plan).run h (.ret (.ok ())) ↔
      (∃ hash, verifiedPlanSha256 X plan = .ok hash) ∧
        h = [⟨.createNew path, true⟩,
          ⟨.writeAll path (toVecPretty (Plan.codec.ser plan) ++ asBytes "\n"), .done⟩,
          ⟨.syncAll path, true⟩] := by
  unfold writePlanNew
  rw [ok_ofResult]
  constructor
  · rintro ⟨hash, hverified, hr⟩
    obtain ⟨created, rest, rfl, hcreated⟩ := ok_request.mp hr
    cases created
    · exact (ok_throw.mp hcreated).elim
    obtain ⟨h₁, h₂, durable, rfl, hwritten, hdone⟩ := Reaches.run_bind_ok_iff.mp hcreated
    cases durable
    · exact (ok_throw.mp hdone).elim
    obtain ⟨rfl, -⟩ := ok_pure.mp hdone
    rw [writeDurably_ok.mp hwritten]
    exact ⟨⟨hash, hverified⟩, rfl⟩
  · rintro ⟨⟨hash, hverified⟩, rfl⟩
    exact ⟨hash, hverified, ok_request.mpr ⟨true, _, rfl, Reaches.run_bind_ok_iff.mpr
      ⟨_, [], true, (List.append_nil _).symm, writeDurably_ok.mpr rfl, .refl _⟩⟩⟩

/-- **Planning.**  A complete set of answers under which a plan is created. -/
structure Planning (options : PlanOptions) where
  limits_valid : validateLimits options.limits = .ok ()
  lifetime_valid : ¬ (options.lifetimeMs = 0 || maxPlanLifetimeMs < options.lifetimeMs)
  -- the SQL file
  sqlMetadata : Metadata
  sqlBytes : Bytes
  sqlText : List Char
  analyzed : AnalyzedSql
  sql_file : sqlMetadata.isFile ∧ sqlMetadata.len.toNat ≤ maxSqlBytes
  sql_decoded : decode sqlBytes = some sqlText
  sql_analyzed : analyzeSql X (String.ofList sqlText) = .ok analyzed
  -- the connection
  connectionValue : String
  parsedConfig : Config
  environment_valid : validateEnvironmentName options.database.environmentName = .ok ()
  value_fits : ¬ maxConnectionValueBytes < (asBytes connectionValue).length
  config_parsed : X.parseConfig connectionValue = some parsedConfig
  hosts_local : options.database.allowInsecureLocalhost →
    allHostsAreLocal (clientConfig parsedConfig)
  -- what the server reported
  observed : Observed
  identityRow : Row
  identity_decoded : DatabaseIdentity.ofRow (endpointSha256 X (clientConfig parsedConfig))
    identityRow = some observed.identity
  version_supported : enforcePostgresVersion observed.identity = .ok ()
  evidenceAnswers : EvidenceAnswers
  oid : Int64
  oid_decoded : evidenceAnswers.lookup.get 0 = some oid
  evidence_decoded : evidenceAnswers.decode oid = some observed.evidence
  policy : enforceTablePolicy observed.evidence analyzed.kind options.allowTriggers
    options.allowRowSecurity = .ok ()
  schema_hashed : tableSchemaSha256 X observed.evidence = .ok observed.schemaHash
  countHistory : History
  counted : Reaches (targetCount analyzed).run countHistory (.ret (.ok observed.count))
  budget : ¬ options.limits.maxRows < observed.count
  targetHistory : History
  fingerprinted : Reaches (targetSetSha256 X analyzed observed.count).run targetHistory
    (.ret (.ok observed.targetSet))
  explainRow : Row
  explain : Json.Value
  explain_decoded : explainRow.get 0 = some explain
  -- the clock
  createdAt : UInt64
  expiry_fits : ¬ 2 ^ 64 ≤ createdAt.toNat + options.lifetimeMs.toNat

namespace Planning

variable {X} {options : PlanOptions} (s : Planning X options)

/-- The plan, before its hash is filled in. -/
def draft : Plan where
  schemaVersion := planSchemaVersion
  toolVersion := toolVersion
  planId := sha256Bytes X (asBytes (s.analyzed.normalizedSqlSha256 ++ ":" ++
    s.observed.schemaHash ++ ":" ++ toString s.observed.count.toNat ++ ":" ++
    toString s.createdAt.toNat))
  createdAtUnixMs := s.createdAt
  expiresAtUnixMs := s.createdAt + options.lifetimeMs
  statementKind := s.analyzed.kind
  requestedTable := s.analyzed.requestedTable
  sqlFileSha256 := s.analyzed.sqlFileSha256
  normalizedSqlSha256 := s.analyzed.normalizedSqlSha256
  countQuerySha256 := s.analyzed.countQuerySha256
  targetQuerySha256 := s.analyzed.targetQuerySha256
  explainSha256 := explainSha256 X s.explain
  limits := options.limits
  transportPolicy := requestedTransport options.database
  allowTriggers := options.allowTriggers
  allowRowSecurity := options.allowRowSecurity
  preconditions := {
    database := s.observed.identity
    canonicalTable := canonicalTable s.observed.evidence
    tableSchemaSha256 := s.observed.schemaHash
    targetCount := s.observed.count
    targetSetSha256 := s.observed.targetSet
    relationKind := s.observed.evidence.relationKind
    userTriggerCount := UInt64.ofNat s.observed.evidence.userTriggers.length
    rewriteRuleCount := UInt64.ofNat s.observed.evidence.rewriteRules.length
    rowSecurity := s.observed.evidence.rowSecurity || s.observed.evidence.forceRowSecurity }
  planSha256 := none

/-- The plan that is returned. -/
def plan : Plan := s.draft.sealedBy X

/-- The bytes of the plan file. -/
def fileBytes : Bytes := toVecPretty (Plan.codec.ser s.plan) ++ asBytes "\n"

/-- The whole run. -/
def history : History :=
  [⟨.metadata options.sqlPath, some s.sqlMetadata⟩,
    ⟨.read options.sqlPath, some s.sqlBytes⟩] ++
  (connectHistory options.database.environmentName s.connectionValue
      (clientConfig s.parsedConfig) (requestedTransport options.database) ++
  ([⟨.start .repeatableRead true, true⟩,
    ⟨.batchExecute (timeoutSettings options.limits), true⟩,
    ⟨.query identitySql [], ⟨[s.identityRow], true⟩⟩] ++
  (s.evidenceAnswers.history s.analyzed.requestedTable s.oid ++
  (s.countHistory ++ (s.targetHistory ++
  [⟨.query (explainText s.analyzed.normalized) [], ⟨[s.explainRow], true⟩⟩, ⟨.commit, true⟩,
    ⟨.now, some s.createdAt.toNat⟩, ⟨.createNew options.outputPath, true⟩,
    ⟨.writeAll options.outputPath s.fileBytes, .done⟩, ⟨.syncAll options.outputPath, true⟩])))))

end Planning

/-- **Created plans.**  A run that returns a plan is the history of a planning. -/
theorem planning_of_ok {options : PlanOptions} {plan : Plan}
    (hr : Reaches (createPlan X options).run h (.ret (.ok plan))) :
    ∃ s : Planning X options, h = s.history ∧ plan = s.plan := by
  unfold createPlan at hr
  -- the twenty steps of the source, each of which has to succeed
  obtain ⟨⟨⟩, hlimits, hr1⟩ := ok_ofResult.mp hr
  obtain ⟨hlifetime, hr2⟩ := ok_unless.mp hr1
  obtain ⟨_, _, analyzed, rfl, hsql, hr3⟩ := Reaches.run_bind_ok_iff.mp hr2
  obtain ⟨_, _, database, rfl, hconnect, hr4⟩ := Reaches.run_bind_ok_iff.mp hr3
  obtain ⟨started, _, rfl, hr5⟩ := ok_request.mp hr4
  cases started
  · exact (ok_throw.mp hr5).elim
  obtain ⟨_, _, ⟨⟩, rfl, htimeouts, hr6⟩ := Reaches.run_bind_ok_iff.mp hr5
  obtain ⟨_, _, identity, rfl, hidentity, hr7⟩ := Reaches.run_bind_ok_iff.mp hr6
  obtain ⟨⟨⟩, hversion, hr8⟩ := ok_ofResult.mp hr7
  obtain ⟨_, _, evidence, rfl, hevidence, hr9⟩ := Reaches.run_bind_ok_iff.mp hr8
  obtain ⟨⟨⟩, hpolicy, hr10⟩ := ok_ofResult.mp hr9
  obtain ⟨schemaHash, hschema, hr11⟩ := ok_ofResult.mp hr10
  obtain ⟨countHistory, _, count, rfl, hcount, hr12⟩ := Reaches.run_bind_ok_iff.mp hr11
  obtain ⟨hbudget, hr13⟩ := ok_unless.mp hr12
  obtain ⟨targetHistory, _, targetSet, rfl, htarget, hr14⟩ := Reaches.run_bind_ok_iff.mp hr13
  obtain ⟨_, _, explained, rfl, hexplained, hr15⟩ := Reaches.run_bind_ok_iff.mp hr14
  rcases explained with - | explainRow
  · exact (ok_throw.mp hr15).elim
  obtain ⟨explain, hexplain, hr16⟩ := ok_orPanic.mp hr15
  obtain ⟨committed, _, rfl, hr17⟩ := ok_request.mp hr16
  cases committed
  · exact (ok_throw.mp hr17).elim
  obtain ⟨_, _, createdAt, rfl, hclock, hr18⟩ := Reaches.run_bind_ok_iff.mp hr17
  obtain ⟨hexpiry, hr19⟩ := ok_unless.mp hr18
  obtain ⟨sealed, hsealed, hr20⟩ := ok_ofResult.mp hr19
  obtain ⟨_, _, ⟨⟩, rfl, hwrite, hdone⟩ := Reaches.run_bind_ok_iff.mp hr20
  obtain ⟨rfl, rfl⟩ := ok_pure.mp hdone
  -- what each part of the run has answered
  obtain ⟨sqlMetadata, sqlBytes, sqlText, rfl, hfile, hlen, htext, hanalyzed⟩ :=
    (readAndAnalyze_ok X).mp hsql
  obtain ⟨value, parsed, hname, hfits, hparsed, hlocal, rfl, rfl⟩ :=
    (connectDatabase_ok X).mp hconnect
  obtain ⟨identityRow, hrow, rfl⟩ := databaseIdentity_ok.mp hidentity
  obtain ⟨answers, oid, hoid, hanswers, rfl⟩ := tableEvidence_ok.mp hevidence
  obtain rfl := applyLocalTimeouts_ok.mp htimeouts
  obtain rfl := queryOne_ok.mp hexplained
  obtain rfl := unixMs_ok.mp hclock
  obtain ⟨-, rfl⟩ := (writePlanNew_ok X).mp hwrite
  rw [sealPlan_eq] at hsealed
  cases hsealed
  refine ⟨⟨hlimits, hlifetime, sqlMetadata, sqlBytes, sqlText, analyzed, ⟨hfile, hlen⟩, htext,
    hanalyzed, value, parsed, hname, hfits, hparsed, hlocal,
    ⟨identity, evidence, schemaHash, count, targetSet⟩, identityRow, hrow, hversion, answers, oid,
    hoid, hanswers, hpolicy, hschema, countHistory, hcount, hbudget, targetHistory, htarget,
    explainRow, explain, hexplain, createdAt, hexpiry⟩, ?_, rfl⟩
  simp only [Planning.history, List.cons_append, List.nil_append, List.append_nil]
  rfl

/-- **Every planning is a run.** -/
theorem Planning.reaches {options : PlanOptions} (s : Planning X options) :
    Reaches (createPlan X options).run s.history (.ret (.ok s.plan)) := by
  have hverified : ∃ hash, verifiedPlanSha256 X s.plan = .ok hash :=
    ⟨_, verifiedPlanSha256_sealedBy X rfl rfl⟩
  unfold createPlan
  refine ok_ofResult.mpr ⟨(), s.limits_valid, ok_unless.mpr ⟨s.lifetime_valid, ?_⟩⟩
  refine Reaches.run_bind_ok_iff.mpr ⟨[_, _], _, s.analyzed, rfl, (readAndAnalyze_ok X).mpr
    ⟨_, _, _, rfl, s.sql_file.1, s.sql_file.2, s.sql_decoded, s.sql_analyzed⟩, ?_⟩
  refine Reaches.run_bind_ok_iff.mpr ⟨_, _, _, rfl, (connectDatabase_ok X).mpr
    ⟨s.connectionValue, s.parsedConfig, s.environment_valid, s.value_fits, s.config_parsed,
      s.hosts_local, rfl, rfl⟩, ?_⟩
  refine ok_request.mpr ⟨true, _, rfl, ?_⟩
  refine Reaches.run_bind_ok_iff.mpr ⟨[_], _, (), rfl, applyLocalTimeouts_ok.mpr rfl, ?_⟩
  refine Reaches.run_bind_ok_iff.mpr ⟨[_], _, s.observed.identity, rfl, databaseIdentity_ok.mpr
    ⟨s.identityRow, s.identity_decoded, rfl⟩, ?_⟩
  refine ok_ofResult.mpr ⟨(), s.version_supported, ?_⟩
  refine Reaches.run_bind_ok_iff.mpr ⟨_, _, s.observed.evidence, rfl, tableEvidence_ok.mpr
    ⟨s.evidenceAnswers, s.oid, s.oid_decoded, s.evidence_decoded, rfl⟩, ?_⟩
  refine ok_ofResult.mpr ⟨(), s.policy, ok_ofResult.mpr ⟨_, s.schema_hashed, ?_⟩⟩
  refine Reaches.run_bind_ok_iff.mpr ⟨_, _, _, rfl, s.counted, ok_unless.mpr ⟨s.budget, ?_⟩⟩
  refine Reaches.run_bind_ok_iff.mpr ⟨_, _, _, rfl, s.fingerprinted, ?_⟩
  refine Reaches.run_bind_ok_iff.mpr ⟨[_], _, some s.explainRow, rfl, queryOne_ok.mpr rfl,
    ok_orPanic.mpr ⟨s.explain, s.explain_decoded, ok_request.mpr ⟨true, _, rfl, ?_⟩⟩⟩
  refine Reaches.run_bind_ok_iff.mpr ⟨[_], _, s.createdAt, rfl, unixMs_ok.mpr rfl,
    ok_unless.mpr ⟨s.expiry_fits, ok_ofResult.mpr ⟨s.plan, sealPlan_eq X _, ?_⟩⟩⟩
  exact Reaches.run_bind_ok_iff.mpr ⟨[_, _, _], [], (), rfl,
    (writePlanNew_ok X).mpr ⟨hverified, rfl⟩, ok_pure.mpr ⟨rfl, rfl⟩⟩

/-! ### A small planning -/

namespace Sample

def planOptions : PlanOptions where
  sqlPath := [1]
  outputPath := [2]
  database := options.database
  limits := ⟨1, 1000, 1000⟩
  lifetimeMs := 100
  allowTriggers := false
  allowRowSecurity := false

theorem limits_valid : validateLimits planOptions.limits = .ok () := rfl

theorem lifetime_valid : ¬ (planOptions.lifetimeMs = 0 ||
    maxPlanLifetimeMs < planOptions.lifetimeMs) := by decide

theorem sql_file : (⟨true, 0⟩ : Metadata).isFile ∧
    (⟨true, 0⟩ : Metadata).len.toNat ≤ maxSqlBytes := by decide

theorem environment_valid :
    validateEnvironmentName planOptions.database.environmentName = .ok () := rfl

theorem hosts_local : planOptions.database.allowInsecureLocalhost →
    allHostsAreLocal (clientConfig config) := fun _ => rfl

theorem expiry_fits : ¬ 2 ^ 64 ≤ (0 : UInt64).toNat + planOptions.lifetimeMs.toNat := by
  simp [planOptions]

theorem explain_decoded : Row.get [.json .null] 0 = some Json.Value.null := rfl

/-- The planning of the small set of answers, with any search path. -/
def planning (searchPath : String) : Planning crates planOptions where
  limits_valid
  lifetime_valid
  sqlMetadata := ⟨true, 0⟩
  sqlBytes := encode sql.toList
  sqlText := sql.toList
  analyzed := analysis
  sql_file
  sql_decoded := decode_encode sql.toList
  sql_analyzed := analysis_eq
  connectionValue := "host=localhost"
  parsedConfig := config
  environment_valid
  value_fits := answers.value_fits
  config_parsed := answers.config_parsed
  hosts_local
  observed := { observed with identity := { identity with searchPath } }
  identityRow := identityRow.set 2 (.text searchPath)
  identity_decoded := by rfl
  version_supported := if_neg (show ¬ (150000 : Int64) < minPostgresVersionNum by decide)
  evidenceAnswers
  oid := 1
  oid_decoded := answers.oid_decoded
  evidence_decoded := answers.evidence_decoded
  policy := by rfl
  schema_hashed := rfl
  countHistory := answers.countHistory
  counted := answers.counted
  budget := by show ¬ (1 : UInt64) < 1; decide
  targetHistory := answers.targetHistory
  fingerprinted := answers.fingerprinted
  explainRow := [.json .null]
  explain := .null
  explain_decoded
  createdAt := 0
  expiry_fits

end Sample

end DmlPact
