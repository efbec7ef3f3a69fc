/-
DmlPact/Plan/ReadBack.lean

Whether a plan that was created can be read.  What is written decodes to the
plan, whatever is in it; but the reader takes 1 MiB at most, and the writer
does not count.  `Planning.fileSize` is the size of the file in terms of what
planning copies into it, and the plan is read back exactly when that size is
within the limit (`createPlan_readable_iff`).
-/
import DmlPact.Lib.JsonPretty
import DmlPact.Plan.Created
import DmlPact.Receipt.Written

namespace DmlPact

open Effect Utf8 Json

variable (X : Crates)

/-! ### What was written decodes -/

theorem fromSlice_toVecPretty {α : Type} (c : Codec α) (a : α) :
    fromSlice c (toVecPretty (c.ser a) ++ asBytes "\n") = some a := by
  have hbytes : toVecPretty (c.ser a) ++ asBytes "\n" = encode ((c.ser a).pretty 0 ++ ['\n']) := by
    rw [encode_append]
    rfl
  have hparse := Json.parse_pretty (c.ser a) (c.exact_ser a) (c := '\n') ⟨rfl, rfl⟩ rfl
  rw [fromSlice, hbytes, decode_encode, Option.bind_some, hparse, Option.bind_some, c.de_ser]

/-! ### Sizes -/

/-- The size of an identity in a plan file, with 66 bytes for the hash of the
endpoint. -/
def DatabaseIdentity.size (d : DatabaseIdentity) : Nat :=
  257 + literalSize d.database + literalSize d.role + literalSize d.searchPath +
    (Codec.i64.ser d.serverVersionNum).size 3 + (Codec.string.serOption d.serverAddress).size 3 +
    (Codec.i32.serOption d.serverPort).size 3 + ((Codec.map Codec.string).ser d.settings).size 3

theorem size_string (level : Nat) (s : String) :
    (Codec.string.ser s).size level = literalSize s := rfl

theorem size_u64 (level : Nat) (n : UInt64) : (Codec.u64.ser n).size level = decimalSize n := rfl

theorem DatabaseIdentity.size_eq {d : DatabaseIdentity}
    (hendpoint : literalSize d.endpointSha256 = 66) :
    (DatabaseIdentity.codec.ser d).size 2 = d.size := by
  have hframe : frameSize 3 ["database", "role", "search_path", "server_version_num",
      "endpoint_sha256", "server_address", "server_port", "settings"] = 185 := by decide
  rw [DatabaseIdentity.codec, Codec.size_struct (by simp [Fields.required, Fields.cons])]
  simp only [Fields.required, Fields.optional, Fields.cons, Fields.nil, List.map_cons,
    List.sum_cons, List.map_nil, List.sum_nil, size_string, Nat.reduceAdd, hendpoint, hframe, size]
  omega

namespace Planning

variable {X} {options : PlanOptions} (s : Planning X options)

/-- The size of the plan file, in terms of what planning copies into it.  The
hashes and the names of the fields make up the constants; an INSERT has `null`
for its two query hashes. -/
def fileSize : Nat :=
  1199 + s.observed.identity.size + literalSize s.analyzed.requestedTable +
    literalSize (canonicalTable s.observed.evidence) +
    literalSize s.observed.evidence.relationKind +
    decimalSize s.createdAt + decimalSize (s.createdAt + options.lifetimeMs) +
    decimalSize options.limits.maxRows + decimalSize options.limits.statementTimeoutMs +
    decimalSize options.limits.lockTimeoutMs + decimalSize s.observed.count +
    decimalSize (UInt64.ofNat s.observed.evidence.userTriggers.length) +
    decimalSize (UInt64.ofNat s.observed.evidence.rewriteRules.length) +
    (StatementKind.codec.ser s.analyzed.kind).size 1 +
    (TransportPolicy.codec.ser (requestedTransport options.database)).size 1 +
    (Codec.bool.ser options.allowTriggers).size 1 +
    (Codec.bool.ser options.allowRowSecurity).size 1 +
    (Codec.bool.ser (s.observed.evidence.rowSecurity ||
      s.observed.evidence.forceRowSecurity)).size 2 +
    (if s.analyzed.countSql.isSome then 66 else 4) +
    (if s.analyzed.targetRowsSql.isSome then 66 else 4)

theorem literalSize_query (hdigest : ∀ bytes, (X.digest bytes).length = 32)
    (query : Option String) (level : Nat) :
    (Codec.string.serOption (query.map fun text => sha256Bytes X (asBytes text))).size level =
      if query.isSome then 66 else 4 := by
  rcases query with - | text
  · rfl
  · exact literalSize_sha256Bytes X (hdigest _)

theorem limits_size (l : Limits) :
    (Limits.codec.ser l).size 1 = 77 + decimalSize l.maxRows + decimalSize l.statementTimeoutMs +
      decimalSize l.lockTimeoutMs := by
  have hframe : frameSize 2 ["max_rows", "statement_timeout_ms", "lock_timeout_ms"] = 73 := by
    decide
  rw [Limits.codec, Codec.size_struct (by simp [Limits.fields, Fields.required, Fields.cons])]
  simp only [Limits.fields, Fields.required, Fields.cons, Fields.nil, List.map_cons,
    List.sum_cons, List.map_nil, List.sum_nil, Nat.reduceAdd, size_u64, hframe]
  omega

variable (hdigest : ∀ bytes, (X.digest bytes).length = 32)

include hdigest

theorem preconditions_size : (PlanPreconditions.codec.ser s.plan.preconditions).size 1 =
    358 + s.observed.identity.size + literalSize (canonicalTable s.observed.evidence) +
      literalSize s.observed.evidence.relationKind + decimalSize s.observed.count +
      decimalSize (UInt64.ofNat s.observed.evidence.userTriggers.length) +
      decimalSize (UInt64.ofNat s.observed.evidence.rewriteRules.length) +
      (Codec.bool.ser (s.observed.evidence.rowSecurity ||
        s.observed.evidence.forceRowSecurity)).size 2 := by
  have hframe : frameSize 2 ["database", "canonical_table", "table_schema_sha256",
      "target_count", "target_set_sha256", "relation_kind", "user_trigger_count",
      "rewrite_rule_count", "row_security"] = 222 := by decide
  have hidentity : (DatabaseIdentity.codec.ser s.observed.identity).size 2 =
      s.observed.identity.size := by
    refine DatabaseIdentity.size_eq ?_
    rw [ofRow_endpoint s.identity_decoded]
    exact literalSize_sha256Bytes X (hdigest _)
  have hschema : literalSize s.observed.schemaHash = 66 := by
    have hhash := s.schema_hashed
    rw [tableSchemaSha256, sha256Json, Except.ok.injEq] at hhash
    rw [← hhash]
    exact literalSize_sha256Bytes X (hdigest _)
  -- a hash in both branches: of the rows, or of the statement
  have htarget : literalSize s.observed.targetSet = 66 := by
    rcases (targetSetSha256_ok X).mp s.fingerprinted with
      ⟨-, -, hhash⟩ | ⟨_, _, _, -, -, -, -, hhash, -⟩
    · rw [hhash]
      exact literalSize_sha256Bytes X (hdigest _)
    · rw [hhash]
      exact literalSize_sha256Bytes X (hdigest _)
  rw [PlanPreconditions.codec, Codec.size_struct (by simp [Fields.required, Fields.cons])]
  simp only [Fields.required, Fields.cons, Fields.nil, List.map_cons, List.sum_cons,
    List.map_nil, List.sum_nil, Nat.reduceAdd, hframe, plan, draft, Plan.sealedBy, hidentity,
    size_string, size_u64, hschema, htarget]
  omega

/-- **Size.**  What planning writes is as long as the formula says. -/
theorem length_fileBytes : s.fileBytes.length = s.fileSize := by
  have hframe : frameSize 1 ["schema_version", "tool_version", "plan_id", "created_at_unix_ms",
      "expires_at_unix_ms", "statement_kind", "requested_table", "sql_file_sha256",
      "normalized_sql_sha256", "count_query_sha256", "target_query_sha256", "explain_sha256",
      "limits", "transport_policy", "allow_triggers", "allow_row_security", "preconditions",
      "plan_sha256"] = 407 := by decide
  have hhash : ∀ bytes, literalSize (sha256Bytes X bytes) = 66 :=
    fun bytes => literalSize_sha256Bytes X (hdigest bytes)
  have hschema : literalSize planSchemaVersion = 17 := by decide
  have htool : literalSize toolVersion = 7 := by decide
  -- the hashes have one length each, the rest is counted
  have hsum : ∀ bytes, (Codec.string.serOption (some (sha256Bytes X bytes))).size 1 = 66 := hhash
  have hpreconditions := s.preconditions_size hdigest
  have hlimits := limits_size options.limits
  obtain ⟨statement, details, -, -, -, hanalyzed⟩ := analyzeSql_ok X s.sql_analyzed
  have hcount : (Codec.string.serOption s.analyzed.countQuerySha256).size 1 =
      if s.analyzed.countSql.isSome then 66 else 4 := by
    rw [hanalyzed]
    exact literalSize_query hdigest details.countSql 1
  have htarget : (Codec.string.serOption s.analyzed.targetQuerySha256).size 1 =
      if s.analyzed.targetRowsSql.isSome then 66 else 4 := by
    rw [hanalyzed]
    exact literalSize_query hdigest details.targetRowsSql 1
  have hfile : literalSize s.analyzed.sqlFileSha256 = 66 := by
    rw [hanalyzed]
    exact hhash _
  have hnormalized : literalSize s.analyzed.normalizedSqlSha256 = 66 := by
    rw [hanalyzed]
    exact hhash _
  have hbytes : s.fileBytes.length = (Plan.codec.ser s.plan).size 0 + 1 := by
    rw [fileBytes, List.length_append, toVecPretty, length_encode_pretty]
    rfl
  rw [hbytes, Plan.codec, Codec.size_struct (by simp [Fields.required, Fields.cons])]
  simp only [Fields.required, Fields.optional, Fields.cons, Fields.nil, List.map_cons,
    List.sum_cons, List.map_nil, List.sum_nil, Nat.reduceAdd, hframe, hpreconditions]
  simp only [plan, draft, Plan.sealedBy, size_string, size_u64, hhash, hschema, htool, hsum,
    hlimits, hcount, htarget, hfile, hnormalized, explainSha256, fileSize]
  omega

end Planning

/-! ### Reading the plan back -/

/-- The bytes that planning writes decode to the plan. -/
theorem Planning.decodes {X : Crates} {options : PlanOptions} (s : Planning X options)
    (hsize : s.fileBytes.length ≤ maxPlanBytes) : decodePlan X s.fileBytes = .ok s.plan := by
  have hread : fromSlice Plan.codec s.fileBytes = some s.plan :=
    fromSlice_toVecPretty Plan.codec s.plan
  have hverified := @verifiedPlanSha256_sealedBy X s.draft rfl rfl
  exact (decodePlan_ok X).mpr ⟨hsize, hread, _, hverified⟩

theorem written_append (path : Path) (h t : History) :
    written path (h ++ t) = written path h ++ written path t := List.flatMap_append

/-- The planning writes nothing else to the plan file. -/
theorem Planning.written_history {X : Crates} {options : PlanOptions} (s : Planning X options) :
    written options.outputPath s.history = s.fileBytes := by
  have hconnect : written options.outputPath (connectHistory options.database.environmentName
      s.connectionValue (clientConfig s.parsedConfig) (requestedTransport options.database)) =
      [] := by
    cases requestedTransport options.database
    · rfl
    · rfl
  have hcount : written options.outputPath s.countHistory = [] := by
    rcases targetCount_ok.mp s.counted with ⟨-, hnone, -⟩ | ⟨_, _, _, -, -, -, -, hquery⟩
    · rw [hnone]
      rfl
    · rw [hquery]
      rfl
  have htarget : written options.outputPath s.targetHistory = [] := by
    rcases (targetSetSha256_ok X).mp s.fingerprinted with
      ⟨-, hnone, -⟩ | ⟨_, _, _, -, -, -, -, -, hquery⟩
    · rw [hnone]
      rfl
    · rw [hquery]
      rfl
  rw [history, written_append, written_append, hconnect, written_append, written_append,
    written_append, hcount, written_append, htarget]
  simp [written, writtenBy, EvidenceAnswers.history]

/-- **Reading back.**  A plan that was created is read back, equal in every
field, exactly when what planning copies into the file leaves it within the
reader's limit. -/
theorem createPlan_readable_iff (hdigest : ∀ bytes, (X.digest bytes).length = 32)
    {options : PlanOptions} {h : History} {plan : Plan}
    (hr : Reaches (createPlan X options).run h (.ret (.ok plan))) {metadata : Metadata}
    (hfile : metadata.isFile)
    (hlen : metadata.len.toNat = (written options.outputPath h).length) :
    ∃ s : Planning X options, h = s.history ∧ plan = s.plan ∧
      (Reaches (readPlan X options.outputPath).run
          [⟨.metadata options.outputPath, some metadata⟩,
            ⟨.read options.outputPath, some (written options.outputPath h)⟩] (.ret (.ok plan)) ↔
        s.fileSize ≤ 1048576) := by
  obtain ⟨s, rfl, rfl⟩ := planning_of_ok X hr
  refine ⟨s, rfl, rfl, ?_⟩
  have hsize := s.length_fileBytes hdigest
  have hmax : maxPlanBytes = 1048576 := rfl
  rw [s.written_history, hsize] at hlen
  rw [s.written_history]
  constructor
  · intro hread
    obtain ⟨_, _, hevents, hallowed, -⟩ := (readPlan_ok X).mp hread
    simp only [List.cons.injEq, Event.mk.injEq, heq_eq_eq, true_and, Option.some.injEq,
      and_true] at hevents
    obtain ⟨rfl, rfl⟩ := hevents
    rw [hfile, hlen, hmax] at hallowed
    simpa using hallowed
  · intro hfits
    have hallowed : ¬ (!metadata.isFile || decide (maxPlanBytes < metadata.len.toNat)) := by
      rw [hfile, hlen, hmax]
      simpa using hfits
    exact (readPlan_ok X).mpr ⟨metadata, s.fileBytes, rfl, hallowed,
      s.decodes (by rw [hsize, hmax]; exact hfits)⟩

/-! ### Small and large plans -/

namespace Sample

/-- With this search path, the plan file is of this size. -/
theorem fileSize_planning (searchPath : String) :
    (planning searchPath).fileSize = 1950 + literalSize searchPath := by
  have hnames : literalSize "d" = 3 ∧ literalSize "r" = 3 ∧ literalSize "t" = 3 ∧
      literalSize (canonicalTable evidence) = 18 := by decide
  have hnumbers : decimalSize 0 = 1 ∧ decimalSize (0 + 100) = 3 ∧ decimalSize 1 = 1 ∧
      decimalSize 1000 = 4 ∧ (Codec.i64.ser 150000).size 3 = 6 := by decide
  have htags : (StatementKind.codec.ser .delete).size 1 = 8 ∧
      (TransportPolicy.codec.ser .insecureLocalhost).size 1 = 20 := by decide
  have hsettings : ((Codec.map Codec.string).ser identity.settings).size 3 = 259 := by decide
  show 1199 + (257 + literalSize "d" + literalSize "r" + literalSize searchPath +
    (Codec.i64.ser 150000).size 3 + 4 + 4 +
    ((Codec.map Codec.string).ser identity.settings).size 3) + literalSize "t" +
    literalSize (canonicalTable evidence) + literalSize "r" + decimalSize 0 +
    decimalSize (0 + 100) + decimalSize 1 + decimalSize 1000 + decimalSize 1000 +
    decimalSize 1 + decimalSize 0 + decimalSize 0 + (StatementKind.codec.ser .delete).size 1 +
    (TransportPolicy.codec.ser .insecureLocalhost).size 1 + 5 + 5 + 5 + 66 + 66 = _
  omega

/-- The file of a planning. -/
def planMetadata (searchPath : String) : Metadata :=
  ⟨true, UInt64.ofNat (planning searchPath).fileSize⟩

theorem planMetadata_len {searchPath : String} (hlen : literalSize searchPath < 2 ^ 63) :
    (planMetadata searchPath).len.toNat =
      (written planOptions.outputPath (planning searchPath).history).length := by
  rw [(planning searchPath).written_history, (planning searchPath).length_fileBytes
    Sha256.length_digest]
  have hsmall : (planning searchPath).fileSize < 2 ^ 64 := by
    rw [fileSize_planning]
    omega
  exact UInt64.toNat_ofNat_of_lt' hsmall

/-- A search path of `n` characters. -/
def longPath (n : Nat) : String := String.ofList (List.replicate n 'a')

theorem literalSize_longPath (n : Nat) : literalSize (longPath n) = n + 2 := by
  have hbody : ∀ m, (List.replicate m 'a').flatMap escapeChar = List.replicate m 'a' := by
    intro m
    induction m with
    | zero => rfl
    | succ m ih =>
        rw [List.replicate_succ, List.flatMap_cons, ih]
        rfl
  have hascii : ∀ c ∈ quoted (longPath n), c.toNat < 0x80 := by
    intro c hc
    simp only [quoted, longPath, String.toList_ofList, hbody, List.cons_append, List.mem_cons,
      List.mem_append, List.mem_replicate, List.not_mem_nil, or_false] at hc
    rcases hc with rfl | ⟨-, rfl⟩ | rfl <;> simp
  rw [literalSize, length_encode_ascii hascii, quoted, longPath, String.toList_ofList, hbody]
  simp

/-- The plan of a planning whose file is too large is not read. -/
theorem not_readable {searchPath : String} (hsmall : literalSize searchPath < 2 ^ 63)
    (hlarge : 1048576 < 1950 + literalSize searchPath) {bytes : Bytes} {plan : Plan} :
    ¬ Reaches (readPlan crates planOptions.outputPath).run
      [⟨.metadata planOptions.outputPath, some (planMetadata searchPath)⟩,
        ⟨.read planOptions.outputPath, some bytes⟩] (.ret (.ok plan)) := by
  intro hread
  obtain ⟨metadata, _, hevents, hallowed, -⟩ := (readPlan_ok crates).mp hread
  have hmetadata : planMetadata searchPath = metadata := by
    simp only [List.cons.injEq, Event.mk.injEq, heq_eq_eq, true_and, Option.some.injEq] at hevents
    exact hevents.1
  have hlen := planMetadata_len hsmall
  rw [(planning searchPath).written_history, (planning searchPath).length_fileBytes
    Sha256.length_digest, fileSize_planning] at hlen
  apply hallowed
  have hmax : maxPlanBytes = 1048576 := rfl
  rw [← hmetadata, hlen, hmax]
  simp [hlarge]

end Sample

/-- With a search path of a megabyte, planning succeeds and the plan cannot be
read. -/
theorem createPlan_unreadable :
    ¬ ∀ (X : Crates) (options : PlanOptions) (h : History) (plan : Plan) (metadata : Metadata),
      (∀ bytes, (X.digest bytes).length = 32) →
      Reaches (createPlan X options).run h (.ret (.ok plan)) → metadata.isFile →
      metadata.len.toNat = (written options.outputPath h).length →
      Reaches (readPlan X options.outputPath).run
        [⟨.metadata options.outputPath, some metadata⟩,
          ⟨.read options.outputPath, some (written options.outputPath h)⟩] (.ret (.ok plan)) := by
  intro hall
  have hpath := Sample.literalSize_longPath 1048576
  have hsmall : literalSize (Sample.longPath 1048576) < 2 ^ 63 := by
    rw [hpath]
    norm_num
  have hlarge : 1048576 < 1950 + literalSize (Sample.longPath 1048576) := by
    rw [hpath]
    norm_num
  exact Sample.not_readable hsmall hlarge (hall Sample.crates Sample.planOptions _ _
    (Sample.planMetadata (Sample.longPath 1048576)) Sha256.length_digest
    (Sample.planning (Sample.longPath 1048576)).reaches rfl (Sample.planMetadata_len hsmall))

/-- With an ordinary search path it can be read. -/
theorem createPlan_readable_sample :
    Reaches (readPlan Sample.crates Sample.planOptions.outputPath).run
      [⟨.metadata Sample.planOptions.outputPath, some (Sample.planMetadata "public")⟩,
        ⟨.read Sample.planOptions.outputPath, some (written Sample.planOptions.outputPath
          (Sample.planning "public").history)⟩] (.ret (.ok (Sample.planning "public").plan)) := by
  have hpath : literalSize "public" = 8 := by decide
  obtain ⟨s, hs, hplan, hiff⟩ := createPlan_readable_iff Sample.crates Sha256.length_digest
    (Sample.planning "public").reaches (by rfl : (Sample.planMetadata "public").isFile = true)
    (Sample.planMetadata_len (by rw [hpath]; norm_num))
  refine hiff.mpr ?_
  have hsize := s.length_fileBytes Sha256.length_digest
  rw [← s.written_history, ← hs, (Sample.planning "public").written_history,
    (Sample.planning "public").length_fileBytes Sha256.length_digest,
    Sample.fileSize_planning, hpath] at hsize
  omega

end DmlPact
