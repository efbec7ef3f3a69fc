/-
DmlPact/Apply/Answers.lean

No check refuses everything.  Whatever an accepted statement is, and whatever
a server reports about a table the policy accepts, there is a sealed plan that
those answers agree with, and under it the run is approved
(`Answers.approval`).

The last section has one small set of answers, for inputs on which later
theorems are exercised.
-/
import DmlPact.Apply.Approval
import DmlPact.Lib.Sha256Numeral
import DmlPact.Model.Sizes

namespace DmlPact

open Effect Utf8

variable (X : Crates)

/-! ### Sealed plans -/

/-- A plan with its hash filled in. -/
def Plan.sealedBy (plan : Plan) : Plan :=
  { plan with planSha256 := some (sha256Bytes X (toVec (Plan.codec.ser plan.unsigned))) }

theorem sealPlan_eq (plan : Plan) : sealPlan X plan = .ok (plan.sealedBy X) := rfl

/-- A sealed plan of a supported version verifies. -/
theorem verifiedPlanSha256_sealedBy {plan : Plan}
    (hschema : plan.schemaVersion = planSchemaVersion)
    (htool : isSupportedArtifactToolVersion plan.toolVersion) :
    verifiedPlanSha256 X (plan.sealedBy X) =
      .ok (sha256Bytes X (toVec (Plan.codec.ser plan.unsigned))) := by
  have hversion : ¬ (plan.schemaVersion != planSchemaVersion
      || !isSupportedArtifactToolVersion plan.toolVersion) = true := by
    simp [hschema, htool]
  unfold verifiedPlanSha256 Plan.sealedBy
  dsimp only
  rw [if_neg hversion]
  simp [sha256Json, Plan.unsigned, bind, Except.bind, pure, Except.pure]

/-- A verified plan is read back from its rendering. -/
theorem decodePlan_toVec {plan : Plan} {sealHash : String}
    (hverified : verifiedPlanSha256 X plan = .ok sealHash)
    (hsize : (toVec (Plan.codec.ser plan)).length ≤ maxPlanBytes) :
    decodePlan X (toVec (Plan.codec.ser plan)) = .ok plan :=
  (decodePlan_ok X).mpr ⟨hsize, fromSlice_toVec Plan.codec plan rfl, sealHash, hverified⟩

/-! ### The plan that fits a set of answers -/

/-- What the files, the clock, the environment and the server answer, with
what each answer decodes to. -/
structure Answers (options : ApplyOptions) where
  limits : Limits
  limits_valid : validateLimits limits = .ok ()
  sqlText : List Char
  analyzed : AnalyzedSql
  sql_analyzed : analyzeSql X (String.ofList sqlText) = .ok analyzed
  createdAt : UInt64
  expiresAt : UInt64
  checkedAt : UInt64
  unexpired : ¬ expiresAt < checkedAt
  preparedAt : UInt64
  connectionValue : String
  parsedConfig : Config
  environment_valid : validateEnvironmentName options.database.environmentName = .ok ()
  value_fits : ¬ maxConnectionValueBytes < (asBytes connectionValue).length
  config_parsed : X.parseConfig connectionValue = some parsedConfig
  hosts_local : options.database.allowInsecureLocalhost →
    allHostsAreLocal (clientConfig parsedConfig)
  allowTriggers : Bool
  allowRowSecurity : Bool
  observed : Observed
  identityRow : Row
  identity_decoded : DatabaseIdentity.ofRow (endpointSha256 X (clientConfig parsedConfig))
    identityRow = some observed.identity
  evidenceAnswers : EvidenceAnswers
  oid : Int64
  oid_decoded : evidenceAnswers.lookup.get 0 = some oid
  evidence_decoded : evidenceAnswers.decode oid = some observed.evidence
  schema_hashed : tableSchemaSha256 X observed.evidence = .ok observed.schemaHash
  policy : enforceTablePolicy observed.evidence analyzed.kind allowTriggers
    allowRowSecurity = .ok ()
  countHistory : History
  counted : Reaches (targetCount analyzed).run countHistory (.ret (.ok observed.count))
  budget : ¬ limits.maxRows < observed.count
  targetHistory : History
  fingerprinted : Reaches (targetSetSha256 X analyzed observed.count).run targetHistory
    (.ret (.ok observed.targetSet))

namespace Answers

variable {X} {options : ApplyOptions} (s : Answers X options)

/-- The plan that planning would have sealed on these answers, but for the
table it names. -/
def planNaming (table : String) : Plan :=
  Plan.sealedBy X {
    schemaVersion := planSchemaVersion
    toolVersion
    planId := ""
    createdAtUnixMs := s.createdAt
    expiresAtUnixMs := s.expiresAt
    statementKind := s.analyzed.kind
    requestedTable := s.analyzed.requestedTable
    sqlFileSha256 := s.analyzed.sqlFileSha256
    normalizedSqlSha256 := s.analyzed.normalizedSqlSha256
    countQuerySha256 := s.analyzed.countQuerySha256
    targetQuerySha256 := s.analyzed.targetQuerySha256
    explainSha256 := ""
    limits := s.limits
    transportPolicy := requestedTransport options.database
    allowTriggers := s.allowTriggers
    allowRowSecurity := s.allowRowSecurity
    preconditions := {
      database := s.observed.identity
      canonicalTable := table
      tableSchemaSha256 := s.observed.schemaHash
      targetCount := s.observed.count
      targetSetSha256 := s.observed.targetSet
      relationKind := s.observed.evidence.relationKind
      userTriggerCount := UInt64.ofNat s.observed.evidence.userTriggers.length
      rewriteRuleCount := UInt64.ofNat s.observed.evidence.rewriteRules.length
      rowSecurity := s.observed.evidence.rowSecurity || s.observed.evidence.forceRowSecurity }
    planSha256 := none }

/-- The plan that planning would have sealed on these answers. -/
def plan : Plan := s.planNaming (canonicalTable s.observed.evidence)

theorem planNaming_verified (table : String) :
    verifiedPlanSha256 X (s.planNaming table) =
      .ok (sha256Bytes X (toVec (Plan.codec.ser (s.planNaming table).unsigned))) :=
  verifiedPlanSha256_sealedBy X rfl rfl

theorem planNaming_bound (table : String) :
    validatePlanBinding (s.planNaming table) s.analyzed = .ok () := by
  have hbudget : ¬ (s.planNaming table).limits.maxRows <
    (s.planNaming table).preconditions.targetCount := s.budget
  unfold validatePlanBinding
  rw [if_neg (by simp [planNaming, Plan.sealedBy]), if_neg hbudget]

theorem plan_agrees : Agrees X s.plan s.analyzed s.observed where
  identity := rfl
  table := rfl
  schemaHash := s.schema_hashed
  schema := rfl
  policy := s.policy
  count := rfl
  budget := s.budget
  targetSet := rfl

/-- Whatever table the plan names, a run under it goes on to open its session,
if the plan fits in a plan file. -/
def admission {table : String}
    (hfits : (toVec (Plan.codec.ser (s.planNaming table))).length ≤ maxPlanBytes) :
    Admission X options where
  planMetadata := ⟨true, 0⟩
  planBytes := toVec (Plan.codec.ser (s.planNaming table))
  plan := s.planNaming table
  sealHash := sha256Bytes X (toVec (Plan.codec.ser (s.planNaming table).unsigned))
  plan_file := by decide
  plan_decoded := decodePlan_toVec X (s.planNaming_verified table) hfits
  plan_sealed := s.planNaming_verified table
  limits_valid := s.limits_valid
  sqlMetadata := ⟨true, 0⟩
  sqlBytes := encode s.sqlText
  sqlText := s.sqlText
  analyzed := s.analyzed
  sql_file := by decide
  sql_decoded := decode_encode s.sqlText
  sql_analyzed := s.sql_analyzed
  bound := s.planNaming_bound table
  checkedAt := s.checkedAt
  unexpired := s.unexpired
  preparedAt := s.preparedAt
  connectionValue := s.connectionValue
  parsedConfig := s.parsedConfig
  environment_valid := s.environment_valid
  value_fits := s.value_fits
  config_parsed := s.config_parsed
  hosts_local := s.hosts_local
  transport := rfl

/-- **Approvals exist.**  The answers approve the statement under their plan,
if the plan fits in a plan file. -/
def approval (hfits : (toVec (Plan.codec.ser s.plan)).length ≤ maxPlanBytes) :
    Approval X options where
  toAdmission := s.admission hfits
  observed := s.observed
  agrees := s.plan_agrees
  identityRow := s.identityRow
  identity_decoded := s.identity_decoded
  evidenceAnswers := s.evidenceAnswers
  oid := s.oid
  oid_decoded := s.oid_decoded
  evidence_decoded := s.evidence_decoded
  countHistory := s.countHistory
  counted := s.counted
  targetHistory := s.targetHistory
  fingerprinted := s.fingerprinted

end Answers

/-! ### A small set of answers -/

namespace Sample

/-- `DELETE FROM t WHERE a`. -/
def statement : Ast.Statement :=
  .delete {
    optimizerHints := [], tables := []
    from_ := .withFromKeyword [{
      relation := .table ⟨[.identifier ⟨"t", none⟩]⟩ none none [] none false [] none none []
      joins := [] }]
    using_ := none, selection := some (.identifier ⟨"a", none⟩), returning := none
    output := none, orderBy := [], limit := none }

def sql : String := "DELETE FROM t WHERE a"

def config : Config where
  hosts := [.tcp "localhost"]
  hostaddrs := []
  ports := []
  user := none
  dbname := none
  secret := ""
  applicationName := none
  connectTimeoutSecs := none
  sslMode := .prefer

/-- The crates, on this statement and this configuration. -/
def crates : Crates where
  digest := Sha256.digest
  parseSql text := if text = sql then some [statement] else none
  showStatement _ := sql
  showTable _ := "t"
  showExpr _ := "a"
  showName _ := "t"
  showIdent ident := ident.value
  parseConfig value := if value = "host=localhost" then some config else none
  schemaFor _ := .obj [("type", .str "object")]

/-- A byte as two digits, as `hexByte`. -/
def hexPair (n : Nat) : List Char := [Json.hexDigit (n / 16), Json.hexDigit (n % 16)]

/-- A hash, evaluated on numerals. -/
theorem hash_eq {bytes : Bytes} {hash : String}
    (h : (Sha256.Numeral.digest bytes).flatMap hexPair = hash.toList) :
    sha256Bytes crates bytes = hash := by
  have hhex : hexByte = fun b => hexPair b.toNat := rfl
  have hdigest : crates.digest = Sha256.digest := rfl
  rw [sha256Bytes, hdigest, hhex, ← List.flatMap_map, Sha256.Numeral.digest_eq, h,
    String.ofList_toList]

def options : ApplyOptions where
  sqlPath := [1]
  planPath := [2]
  receiptPath := [3]
  database := { environmentName := "U", allowInsecureLocalhost := true }

def details : StatementDetails where
  kind := .delete
  table := "t"
  countSql := some (countText "t" "a")
  targetRowsSql := some (targetRowsText "t" "t" "a")
  insertedRows := 0

def analysis : AnalyzedSql := analyzed crates sql statement details

theorem analysis_eq : analyzeSql crates (String.ofList sql.toList) = .ok analysis := by
  have hparse : crates.parseSql sql = some [statement] := by simp [crates]
  have hlen : ¬ maxSqlBytes < (asBytes sql).length := by decide
  have hblank : ¬ Str.isBlank sql.toList = true := by decide
  rw [String.ofList_toList]
  unfold analyzeSql
  rw [if_neg hlen, if_neg hblank, hparse]
  rfl

def identityRow : Row :=
  [.text "d", .text "r", .text "public", .int8 150000, .null, .null, .text "UTC", .text "ISO",
    .text "postgres", .text "on", .text "UTF8", .text "C", .text "C", .text "C"]

def identity : DatabaseIdentity where
  database := "d"
  role := "r"
  searchPath := "public"
  serverVersionNum := 150000
  endpointSha256 := endpointSha256 crates (clientConfig config)
  serverAddress := none
  serverPort := none
  settings := BTreeMap.ofList [("TimeZone", "UTC"), ("DateStyle", "ISO"),
    ("IntervalStyle", "postgres"), ("standard_conforming_strings", "on"),
    ("client_encoding", "UTF8"), ("lc_numeric", "C"), ("lc_monetary", "C"), ("lc_time", "C")]

def evidenceAnswers : EvidenceAnswers where
  lookup := [.int8 1, .text "public", .text "t", .text "r", .text "p", .bool false, .bool false]
  columns := [[.int2 1, .text "a", .text "boolean", .bool false, .bool false, .null, .text "",
    .text ""]]
  constraints := []
  indexes := []
  userTriggers := []
  rewriteRules := []
  policies := []
  inheritanceRelations := []
  referentialActions := []

def evidence : TableEvidence where
  schema := "public"
  table := "t"
  oid := 1
  relationKind := "r"
  persistence := "p"
  rowSecurity := false
  forceRowSecurity := false
  columns := [⟨1, "a", "boolean", false, false, none, "", ""⟩]
  constraints := []
  indexes := []
  userTriggers := []
  rewriteRules := []
  policies := []
  inheritanceRelations := []
  referentialActions := []

/-- The text of the one row that matches. -/
def rowText : String := "\x7b\"a\": true\x7d"

def observed : Observed where
  identity
  evidence
  schemaHash := sha256Bytes crates (toVec (TableEvidence.codec.ser evidence))
  count := 1
  targetSet := sha256Bytes crates (rowEvidence [rowText])

def answers : Answers crates options where
  limits := ⟨1, 1000, 1000⟩
  limits_valid := by rfl
  sqlText := sql.toList
  analyzed := analysis
  sql_analyzed := analysis_eq
  createdAt := 0
  expiresAt := 100
  checkedAt := 1
  unexpired := by decide
  preparedAt := 2
  connectionValue := "host=localhost"
  parsedConfig := config
  environment_valid := by rfl
  value_fits := by decide
  config_parsed := by simp [crates]
  hosts_local := fun _ => by rfl
  allowTriggers := false
  allowRowSecurity := false
  observed
  identityRow
  identity_decoded := by rfl
  evidenceAnswers
  oid := 1
  oid_decoded := rfl
  evidence_decoded := by rfl
  schema_hashed := rfl
  policy := by rfl
  countHistory := [⟨.query (countText "t" "a") [], ⟨[[.int8 1]], true⟩⟩]
  counted := targetCount_ok.mpr (.inr ⟨_, _, 1, rfl, rfl, by decide, rfl, rfl⟩)
  budget := by show ¬ (1 : UInt64) < 1; decide
  targetHistory := [⟨.query (targetRowsText "t" "t" "a") [], ⟨[[.text rowText]], true⟩⟩]
  fingerprinted := (targetSetSha256_ok _).mpr
    (.inr ⟨_, _, [rowText], rfl, rfl, by decide, rfl, rfl, rfl⟩)

theorem length_hash (bytes : Bytes) : (sha256Bytes crates bytes).toList.length = 64 :=
  length_sha256Bytes crates (Sha256.length_digest bytes)

theorem weight_identity : (DatabaseIdentity.codec.ser identity).weight ≤ 3000 := by
  have hsettings : ((Codec.map Codec.string).ser identity.settings).weight ≤ 1500 := by decide
  have hchars : identity.chars = 72 := by
    rw [DatabaseIdentity.chars, show identity.endpointSha256.toList.length = 64 from
      length_hash _]
    rfl
  have hweight := DatabaseIdentity.weight_le identity
  rw [hchars] at hweight
  linarith

/-- These answers, of a plan with another lifetime. -/
def answersAt (createdAt expiresAt : UInt64) (h : ¬ expiresAt < 1) : Answers crates options :=
  { answers with createdAt, expiresAt, unexpired := h }

/-- A plan of these answers is small, whatever its lifetime and whatever short
text it has in the place of the table's name. -/
theorem weight_planNamingAt (createdAt expiresAt : UInt64) (h : ¬ expiresAt < 1) {table : String}
    (htable : table.toList.length ≤ 1000) :
    (Plan.codec.ser ((answersAt createdAt expiresAt h).planNaming table)).weight ≤ 20000 := by
  have hpreconditions : ((answersAt createdAt expiresAt h).planNaming table).preconditions.chars =
      table.toList.length + 129 := by
    rw [PlanPreconditions.chars,
      show ((answersAt createdAt expiresAt h).planNaming table).preconditions.tableSchemaSha256.toList.length = 64 from
        length_hash _,
      show ((answersAt createdAt expiresAt h).planNaming table).preconditions.targetSetSha256.toList.length = 64 from
        length_hash _,
      show ((answersAt createdAt expiresAt h).planNaming table).preconditions.relationKind = "r" from rfl]
    rfl
  have hplan : ((answersAt createdAt expiresAt h).planNaming table).chars = 341 := by
    rw [Plan.chars,
      show ((answersAt createdAt expiresAt h).planNaming table).schemaVersion = planSchemaVersion from rfl,
      show ((answersAt createdAt expiresAt h).planNaming table).toolVersion = toolVersion from rfl,
      show ((answersAt createdAt expiresAt h).planNaming table).planId = "" from rfl,
      show ((answersAt createdAt expiresAt h).planNaming table).requestedTable = "t" from rfl,
      show ((answersAt createdAt expiresAt h).planNaming table).sqlFileSha256.toList.length = 64 from length_hash _,
      show ((answersAt createdAt expiresAt h).planNaming table).normalizedSqlSha256.toList.length = 64 from length_hash _,
      show (((answersAt createdAt expiresAt h).planNaming table).countQuerySha256.getD "").toList.length = 64 from
        length_hash _,
      show (((answersAt createdAt expiresAt h).planNaming table).targetQuerySha256.getD "").toList.length = 64 from
        length_hash _,
      show ((answersAt createdAt expiresAt h).planNaming table).explainSha256 = "" from rfl,
      show (((answersAt createdAt expiresAt h).planNaming table).planSha256.getD "").toList.length = 64 from
        length_hash _]
    rfl
  have h₁ := Plan.weight_le ((answersAt createdAt expiresAt h).planNaming table)
  have h₂ := PlanPreconditions.weight_le ((answersAt createdAt expiresAt h).planNaming table).preconditions
  have h₃ := weight_identity
  rw [hplan] at h₁
  rw [hpreconditions,
    show ((answersAt createdAt expiresAt h).planNaming table).preconditions.database = identity from rfl] at h₂
  linarith

/-- So it fits in a plan file. -/
theorem planNamingAt_fits (createdAt expiresAt : UInt64) (h : ¬ expiresAt < 1) {table : String}
    (htable : table.toList.length ≤ 1000) :
    (toVec (Plan.codec.ser ((answersAt createdAt expiresAt h).planNaming table))).length ≤
      maxPlanBytes := by
  have hmax : 20000 ≤ maxPlanBytes := by decide
  exact (Json.length_encode_compact _).trans
    ((weight_planNamingAt createdAt expiresAt h htable).trans hmax)

theorem planNaming_fits {table : String} (htable : table.toList.length ≤ 1000) :
    (toVec (Plan.codec.ser (answers.planNaming table))).length ≤ maxPlanBytes :=
  planNamingAt_fits 0 100 answers.unexpired htable

/-- The plan of these answers fits in a plan file. -/
theorem fits : (toVec (Plan.codec.ser answers.plan)).length ≤ maxPlanBytes :=
  planNaming_fits (show (canonicalTable evidence).toList.length ≤ 1000 by decide)

/-- The approved run on these answers. -/
def approval : Approval crates options := answers.approval fits

end Sample

end DmlPact
