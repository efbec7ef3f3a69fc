/-
DmlPact/Apply/Approval.lean

What has happened when the statement is sent.  An `Approval` is one complete
set of answers under which every check of `applyPlan` passes; its fields are
the answers and the checks, and `Approval.history` is the run they make, up to
the point where the statement is about to be sent.

    the statement is about to be sent after h
        ↔  h is the history of an approval          (execute_iff)

so nothing else leads there, and every approval does.
-/
import DmlPact.Apply.Commands
import DmlPact.Apply.Runs

namespace DmlPact

open Effect Utf8

variable (X : Crates) {h : History}

/-! ### Stages that succeed -/

section Stages

variable {α β : Type} {b : β}

theorem ok_insist {ok : Bool} {outcome : Outcome} {f : Unit → Stage β} :
    Reaches (insist ok outcome >>= f).run h (.ret (.ok b)) ↔
      ok = true ∧ Reaches (f ()).run h (.ret (.ok b)) := by
  rw [run_bind]
  cases ok
  · simp [insist]
  · simp [insist]

theorem ok_orRefuse {x : App α} {g : AppError → Outcome} {a : α} :
    Reaches (orRefuse x g).run h (.ret (.ok a)) ↔ Reaches x.run h (.ret (.ok a)) := by
  show Reaches (x.run >>= _) h _ ↔ _
  rw [Reaches.bind_ret_iff]
  constructor
  · rintro ⟨h₁, h₂, r, rfl, hx, hr⟩
    cases r with
    | error e =>
        obtain ⟨-, hq⟩ := Reaches.ret_iff.mp hr
        cases hq
    | ok a' =>
        obtain ⟨rfl, hq⟩ := Reaches.ret_iff.mp hr
        cases hq
        rwa [List.append_nil]
  · intro hx
    exact ⟨h, [], .ok a, (List.append_nil h).symm, hx, .refl _⟩

end Stages

/-- The commands between the connection and the first comparison. -/
def sessionHistory (plan : Plan) : History :=
  [⟨.start .repeatableRead false, true⟩,
    ⟨.batchExecute (timeoutSettings plan.limits), true⟩,
    ⟨.batchExecute (lockText plan.preconditions.canonicalTable), true⟩]

theorem openSession_ok {plan : Plan} {options : DatabaseOptions}
    {database : ConnectedDatabase} :
    Reaches (openSession X plan options).run h (.ret (.ok database)) ↔
      requestedTransport options = plan.transportPolicy ∧
      database.transportPolicy = plan.transportPolicy ∧
      ∃ connected, Reaches (connectDatabase X options.environmentName
          options.allowInsecureLocalhost).run connected (.ret (.ok database)) ∧
        h = connected ++ sessionHistory plan := by
  unfold openSession
  rw [ok_insist, beq_iff_eq, Reaches.run_bind_ok_iff]
  refine and_congr_right fun _ => ?_
  constructor
  · rintro ⟨connected, _, found, rfl, hc, hpolicy⟩
    obtain ⟨hp, hstart⟩ := ok_insist.mp hpolicy
    obtain ⟨started, _, rfl, hstarted⟩ := ok_request.mp hstart
    obtain ⟨rfl, hconfigure⟩ := ok_insist.mp hstarted
    obtain ⟨_, _, _, rfl, ht, hlock⟩ := Reaches.run_bind_ok_iff.mp hconfigure
    obtain ⟨locked, _, rfl, hlocked⟩ := ok_request.mp hlock
    obtain ⟨rfl, hdone⟩ := ok_insist.mp hlocked
    obtain ⟨rfl, rfl⟩ := ok_pure.mp hdone
    rw [applyLocalTimeouts_ok.mp (ok_orRefuse.mp ht)]
    exact ⟨beq_iff_eq.mp hp, connected, ok_orRefuse.mp hc, rfl⟩
  · rintro ⟨hp, connected, hc, rfl⟩
    refine ⟨connected, sessionHistory plan, database, rfl, ok_orRefuse.mpr hc, ?_⟩
    refine ok_insist.mpr ⟨beq_iff_eq.mpr hp, ok_request.mpr ⟨true, _, rfl, ?_⟩⟩
    refine ok_insist.mpr ⟨rfl, Reaches.run_bind_ok_iff.mpr ⟨[_], _, (), rfl,
      ok_orRefuse.mpr (applyLocalTimeouts_ok.mpr rfl), ?_⟩⟩
    exact ok_request.mpr ⟨true, [], rfl, ok_insist.mpr ⟨rfl, ok_pure.mpr ⟨rfl, rfl⟩⟩⟩

/-- A plan that is bound to an analyzed file is about its statement. -/
theorem validatePlanBinding_ok {plan : Plan} {analyzed : AnalyzedSql}
    (h : validatePlanBinding plan analyzed = .ok ()) :
    plan.statementKind = analyzed.kind ∧ plan.requestedTable = analyzed.requestedTable ∧
      plan.normalizedSqlSha256 = analyzed.normalizedSqlSha256 := by
  unfold validatePlanBinding at h
  split at h
  · cases h
  · rename_i hsame
    simp only [Bool.or_eq_true, bne_iff_ne, not_or, not_not] at hsame
    obtain ⟨⟨⟨⟨⟨hkind, htable⟩, -⟩, hnormalized⟩, -⟩, -⟩ := hsame
    exact ⟨hkind, htable, hnormalized⟩

/-- It is bound to the file itself, too. -/
theorem validatePlanBinding_file {plan : Plan} {analyzed : AnalyzedSql}
    (h : validatePlanBinding plan analyzed = .ok ()) :
    plan.sqlFileSha256 = analyzed.sqlFileSha256 := by
  unfold validatePlanBinding at h
  split at h
  · cases h
  · rename_i hsame
    simp only [Bool.or_eq_true, bne_iff_ne, not_or, not_not] at hsame
    exact hsame.1.1.1.2

/-- What the server reported agrees with the plan. -/
structure Agrees (plan : Plan) (analyzed : AnalyzedSql) (observed : Observed) : Prop where
  identity : observed.identity = plan.preconditions.database
  table : canonicalTable observed.evidence = plan.preconditions.canonicalTable
  schemaHash : tableSchemaSha256 X observed.evidence = .ok observed.schemaHash
  schema : observed.schemaHash = plan.preconditions.tableSchemaSha256
  policy : enforceTablePolicy observed.evidence analyzed.kind plan.allowTriggers
    plan.allowRowSecurity = .ok ()
  count : observed.count = plan.preconditions.targetCount
  budget : ¬ plan.limits.maxRows < observed.count
  targetSet : observed.targetSet = plan.preconditions.targetSetSha256

theorem checkDrift_ok {plan : Plan} {analyzed : AnalyzedSql} {database : ConnectedDatabase}
    {observed : Observed} :
    Reaches (checkDrift X plan analyzed database).run h (.ret (.ok observed)) ↔
      Agrees X plan analyzed observed ∧ ∃ hi he hc ht,
        Reaches (databaseIdentity database.endpointSha256).run hi
          (.ret (.ok observed.identity)) ∧
        Reaches (tableEvidence analyzed.requestedTable).run he
          (.ret (.ok observed.evidence)) ∧
        Reaches (targetCount analyzed).run hc (.ret (.ok observed.count)) ∧
        Reaches (targetSetSha256 X analyzed observed.count).run ht
          (.ret (.ok observed.targetSet)) ∧
        h = hi ++ (he ++ (hc ++ ht)) := by
  unfold checkDrift
  rw [Reaches.run_bind_ok_iff]
  constructor
  · rintro ⟨hi, _, identity, rfl, hidentity, hr₁⟩
    -- each check of the source, after the query that feeds it
    obtain ⟨hsame, hr₂⟩ := ok_insist.mp hr₁
    obtain ⟨he, _, evidence, rfl, hevidence, hr₃⟩ := Reaches.run_bind_ok_iff.mp hr₂
    obtain ⟨_, _, schemaHash, rfl, hschema, hr₄⟩ := Reaches.run_bind_ok_iff.mp hr₃
    obtain ⟨rfl, hhash⟩ := ok_ofResult_last.mp (ok_orRefuse.mp hschema)
    obtain ⟨htable, hr₅⟩ := ok_insist.mp hr₄
    obtain ⟨_, _, _, rfl, hpolicy, hr₆⟩ := Reaches.run_bind_ok_iff.mp hr₅
    obtain ⟨rfl, hallowed⟩ := ok_ofResult_last.mp (ok_orRefuse.mp hpolicy)
    obtain ⟨hc, _, count, rfl, hcount, hr₇⟩ := Reaches.run_bind_ok_iff.mp hr₆
    obtain ⟨hplanned, hr₈⟩ := ok_insist.mp hr₇
    obtain ⟨hbudget, hr₉⟩ := ok_insist.mp hr₈
    obtain ⟨ht, _, targetSet, rfl, htarget, hr₁₀⟩ := Reaches.run_bind_ok_iff.mp hr₉
    obtain ⟨hset, hdone⟩ := ok_insist.mp hr₁₀
    obtain ⟨rfl, rfl⟩ := ok_pure.mp hdone
    rw [Bool.and_eq_true, beq_iff_eq, beq_iff_eq] at htable
    refine ⟨⟨beq_iff_eq.mp hsame, htable.1, hhash, htable.2, hallowed,
      beq_iff_eq.mp hplanned, by simpa using hbudget, beq_iff_eq.mp hset⟩, hi, he, hc, ht,
      ok_orRefuse.mp hidentity, ok_orRefuse.mp hevidence, ok_orRefuse.mp hcount,
      ok_orRefuse.mp htarget, ?_⟩
    simp
  · obtain ⟨identity, evidence, schemaHash, count, targetSet⟩ := observed
    rintro ⟨⟨hsame, htable, hschema, hplanned, hpolicy, hcounted, hbudget, hset⟩, hi, he, hc,
      ht, hidentity, hevidence, hcount, htarget, rfl⟩
    refine ⟨hi, _, identity, rfl, ok_orRefuse.mpr hidentity,
      ok_insist.mpr ⟨beq_iff_eq.mpr hsame, ?_⟩⟩
    refine Reaches.run_bind_ok_iff.mpr ⟨he, _, evidence, rfl, ok_orRefuse.mpr hevidence, ?_⟩
    refine Reaches.run_bind_ok_iff.mpr ⟨[], _, schemaHash, rfl,
      ok_orRefuse.mpr (ok_ofResult_last.mpr ⟨rfl, hschema⟩), ok_insist.mpr ⟨?_, ?_⟩⟩
    · rw [Bool.and_eq_true, beq_iff_eq, beq_iff_eq]
      exact ⟨htable, hplanned⟩
    refine Reaches.run_bind_ok_iff.mpr ⟨[], _, (), rfl,
      ok_orRefuse.mpr (ok_ofResult_last.mpr ⟨rfl, hpolicy⟩), ?_⟩
    refine Reaches.run_bind_ok_iff.mpr ⟨hc, ht, count, rfl, ok_orRefuse.mpr hcount,
      ok_insist.mpr ⟨beq_iff_eq.mpr hcounted, ok_insist.mpr ⟨by simpa using hbudget, ?_⟩⟩⟩
    refine Reaches.run_bind_ok_iff.mpr ⟨ht, [], targetSet, (List.append_nil _).symm,
      ok_orRefuse.mpr htarget, ok_insist.mpr ⟨beq_iff_eq.mpr hset, ok_pure.mpr ⟨rfl, rfl⟩⟩⟩

/-! ### Approvals -/

/-- **Admission.**  What the files, the clock and the environment answer when a
run goes on to open its session. -/
structure Admission (options : ApplyOptions) where
  -- the plan file, its seal and its limits
  planMetadata : Metadata
  planBytes : Bytes
  plan : Plan
  sealHash : String
  plan_file : ¬ (!planMetadata.isFile || decide (maxPlanBytes < planMetadata.len.toNat))
  plan_decoded : decodePlan X planBytes = .ok plan
  plan_sealed : verifiedPlanSha256 X plan = .ok sealHash
  limits_valid : validateLimits plan.limits = .ok ()
  -- the SQL file and its binding to the plan
  sqlMetadata : Metadata
  sqlBytes : Bytes
  sqlText : List Char
  analyzed : AnalyzedSql
  sql_file : sqlMetadata.isFile ∧ sqlMetadata.len.toNat ≤ maxSqlBytes
  sql_decoded : decode sqlBytes = some sqlText
  sql_analyzed : analyzeSql X (String.ofList sqlText) = .ok analyzed
  bound : validatePlanBinding plan analyzed = .ok ()
  -- the clock, when the expiry was checked and when the receipt was prepared
  checkedAt : UInt64
  unexpired : ¬ plan.expiresAtUnixMs < checkedAt
  preparedAt : UInt64
  -- the connection
  connectionValue : String
  parsedConfig : Config
  environment_valid : validateEnvironmentName options.database.environmentName = .ok ()
  value_fits : ¬ maxConnectionValueBytes < (asBytes connectionValue).length
  config_parsed : X.parseConfig connectionValue = some parsedConfig
  hosts_local : options.database.allowInsecureLocalhost →
    allHostsAreLocal (clientConfig parsedConfig)
  transport : requestedTransport options.database = plan.transportPolicy

/-- **Approval.**  A complete set of answers under which every check passes: an
admission, and what the server reported under the lock. -/
structure Approval (options : ApplyOptions) extends Admission X options where
  observed : Observed
  agrees : Agrees X plan analyzed observed
  identityRow : Row
  identity_decoded : DatabaseIdentity.ofRow (endpointSha256 X (clientConfig parsedConfig))
    identityRow = some observed.identity
  evidenceAnswers : EvidenceAnswers
  oid : Int64
  oid_decoded : evidenceAnswers.lookup.get 0 = some oid
  evidence_decoded : evidenceAnswers.decode oid = some observed.evidence
  countHistory : History
  counted : Reaches (targetCount analyzed).run countHistory (.ret (.ok observed.count))
  targetHistory : History
  fingerprinted : Reaches (targetSetSha256 X analyzed observed.count).run targetHistory
    (.ret (.ok observed.targetSet))

namespace Admission

variable {X} {options : ApplyOptions} (a : Admission X options)

/-- The prepared event of the run. -/
def prepared : ReceiptEvent :=
  sealedWith X (preparedEvent X a.sealHash a.analyzed.sqlFileSha256 a.preparedAt)

/-- Reading the plan and the SQL file, and the clock. -/
def admissionHistory : History :=
  [⟨.metadata options.planPath, some a.planMetadata⟩,
    ⟨.read options.planPath, some a.planBytes⟩,
    ⟨.metadata options.sqlPath, some a.sqlMetadata⟩,
    ⟨.read options.sqlPath, some a.sqlBytes⟩,
    ⟨.now, some a.checkedAt.toNat⟩]

/-- Creating the receipt and writing the prepared event durably. -/
def receiptHistory : History :=
  [⟨.now, some a.preparedAt.toNat⟩, ⟨.createNew options.receiptPath, true⟩,
    ⟨.writeAll options.receiptPath (eventLine a.prepared), .done⟩,
    ⟨.syncAll options.receiptPath, true⟩]

/-- Opening the connection the plan asks for. -/
def connectionHistory : History :=
  connectHistory options.database.environmentName a.connectionValue
    (clientConfig a.parsedConfig) a.plan.transportPolicy

end Admission

namespace Approval

variable {X} {options : ApplyOptions} (a : Approval X options)

/-- The queries whose answers were compared with the plan. -/
def driftHistory : History :=
  ⟨.query identitySql [], ⟨[a.identityRow], true⟩⟩ ::
    (a.evidenceAnswers.history a.analyzed.requestedTable a.oid ++
      (a.countHistory ++ a.targetHistory))

/-- The whole run, up to the statement. -/
def history : History :=
  a.admissionHistory ++ (a.receiptHistory ++
    (a.connectionHistory ++ sessionHistory a.plan ++ a.driftHistory))

end Approval

/-! ### From the statement back to the approval -/

/-- The rest of a settled run is inside the deciding part, as long as the
command it is about to issue is not one that publishing issues. -/
theorem settle_call {journal : ReceiptJournal} {x : Stage Outcome} {c : Cmd}
    {k : Reply c → Prog Cmd Reply (Except AppError ApplyResult)}
    (hc : c.channel ∉ [Channel.clock, .write])
    (hr : Reaches (settle X journal x).run h (.call c k)) :
    ∃ k', Reaches x.run h (.call c k') := by
  rcases Reaches.of_bind hr with ⟨p, hp, hq⟩ | ⟨h₁, h₂, r, rfl, hx, hfinish⟩
  · cases p with
    | call d k' =>
        cases hq
        exact ⟨k', hp⟩
    | ret r =>
        have huses : Uses [.clock, .write] (.call c k) := by
          rw [hq]
          cases r <;> exact finishOutcome_uses X journal _
        exact absurd (within_call.mp huses).1 hc
    | crash => cases hq
  · have huses : Uses [.clock, .write] (.call c k) := by
      cases r <;> exact Within.of_reaches (finishOutcome_uses X journal _) hfinish
    exact absurd (within_call.mp huses).1 hc

/-- A run of the deciding part that is past the session and the comparisons. -/
theorem transact_call {plan : Plan} {analyzed : AnalyzedSql} {options : DatabaseOptions}
    {c : Cmd} {k : Reply c → Prog Cmd Reply (Except Outcome Outcome)}
    (hc : c.channel ∉ [Channel.environment, .connect, .start, .batch, .query])
    (hr : Reaches (transact X plan analyzed options).run h (.call c k)) :
    ∃ database observed h₁ h₂ h₃, h = h₁ ++ h₂ ++ h₃ ∧
      Reaches (openSession X plan options).run h₁ (.ret (.ok database)) ∧
      Reaches (checkDrift X plan analyzed database).run h₂ (.ret (.ok observed)) ∧
      Reaches (mutate analyzed observed).run h₃ (.call c k) := by
  have hsession : ¬ c.channel ∈ [Channel.environment, .connect, .start, .batch] :=
    fun hm => hc (List.mem_append_left [Channel.query] hm)
  have hdrift : ¬ c.channel ∈ [Channel.query] := fun hm => hc (by simp_all)
  obtain ⟨h₁, _, database, rfl, hopen, hr'⟩ :=
    Reaches.past (openSession_uses X plan options) hsession hr
  obtain ⟨h₂, h₃, observed, rfl, hcheck, hmutate⟩ :=
    Reaches.past (checkDrift_uses X analyzed plan database) hdrift hr'
  exact ⟨database, observed, h₁, h₂, h₃, by simp, hopen, hcheck, hmutate⟩

/-- A run of the whole command that is past its checks: what they accepted, and
the creation of the receipt next. -/
theorem applyPlan_checked {options : ApplyOptions} {c : Cmd}
    {k : Reply c → Prog Cmd Reply (Except AppError ApplyResult)}
    (hc : c.channel ∉ [Channel.read, .clock])
    (hr : Reaches (applyPlan X options).run h (.call c k)) :
    ∃ plan analyzed now h₁ h₂ h₃ h₄,
      h = h₁ ++ h₂ ++ h₃ ++ h₄ ∧
      Reaches (readPlan X options.planPath).run h₁ (.ret (.ok plan)) ∧
      validateLimits plan.limits = .ok () ∧
      Reaches (readAndAnalyze X options.sqlPath).run h₂ (.ret (.ok analyzed)) ∧
      validatePlanBinding plan analyzed = .ok () ∧
      Reaches unixMs.run h₃ (.ret (.ok now)) ∧ ¬ plan.expiresAtUnixMs < now ∧
      Reaches (ReceiptJournal.create X options.receiptPath plan analyzed.sqlFileSha256 >>=
        fun journal => applyAfterReceipt X journal plan analyzed options.database).run h₄
        (.call c k) := by
  have hread : ¬ c.channel ∈ [Channel.read] := fun hm => hc (by simp_all)
  have hclock : ¬ c.channel ∈ [Channel.clock] := fun hm => hc (by simp_all)
  unfold applyPlan at hr
  obtain ⟨h₁, _, plan, rfl, hplan, hr₁⟩ := Reaches.past (readPlan_uses X _) hread hr
  obtain ⟨_, _, _, rfl, hlimits, hr₂⟩ := Reaches.past (Uses.ofResult _) hread hr₁
  obtain ⟨rfl, hvalid⟩ := ok_ofResult_last.mp hlimits
  obtain ⟨h₂, _, analyzed, rfl, hsql, hr₃⟩ :=
    Reaches.past (readAndAnalyze_uses X _) hread hr₂
  obtain ⟨_, _, _, rfl, hbinding, hr₄⟩ := Reaches.past (Uses.ofResult _) hread hr₃
  obtain ⟨rfl, hbound⟩ := ok_ofResult_last.mp hbinding
  obtain ⟨h₃, _, now, rfl, hnow, hr₅⟩ := Reaches.past unixMs_uses hclock hr₄
  by_cases hexpired : plan.expiresAtUnixMs < now
  · rw [if_pos hexpired] at hr₅
    cases hr₅
  rw [if_neg hexpired] at hr₅
  exact ⟨plan, analyzed, now, h₁, h₂, h₃, _, by simp, hplan, hvalid, hsql, hbound, hnow,
    hexpired, hr₅⟩

/-- A run of the whole command that is past the receipt. -/
theorem applyPlan_call {options : ApplyOptions} {c : Cmd}
    {k : Reply c → Prog Cmd Reply (Except AppError ApplyResult)}
    (hc : c.channel ∉ [Channel.read, .clock, .write])
    (hr : Reaches (applyPlan X options).run h (.call c k)) :
    ∃ plan analyzed now journal h₁ h₂ h₃ h₄ h₅,
      h = h₁ ++ h₂ ++ h₃ ++ h₄ ++ h₅ ∧
      Reaches (readPlan X options.planPath).run h₁ (.ret (.ok plan)) ∧
      validateLimits plan.limits = .ok () ∧
      Reaches (readAndAnalyze X options.sqlPath).run h₂ (.ret (.ok analyzed)) ∧
      validatePlanBinding plan analyzed = .ok () ∧
      Reaches unixMs.run h₃ (.ret (.ok now)) ∧ ¬ plan.expiresAtUnixMs < now ∧
      Reaches (ReceiptJournal.create X options.receiptPath plan analyzed.sqlFileSha256).run h₄
        (.ret (.ok journal)) ∧
      Reaches (applyAfterReceipt X journal plan analyzed options.database).run h₅
        (.call c k) := by
  have hchecks : c.channel ∉ [Channel.read, .clock] := fun hm => hc (by simp_all)
  have hjournal : ¬ c.channel ∈ [Channel.clock, .write] :=
    fun hm => hc (List.mem_cons_of_mem _ hm)
  obtain ⟨plan, analyzed, now, h₁, h₂, h₃, _, rfl, hplan, hvalid, hsql, hbound, hnow, hexpired,
    hcreate⟩ := applyPlan_checked X hchecks hr
  obtain ⟨h₄, h₅, journal, rfl, hcreated, hafter⟩ :=
    Reaches.past (create_uses X _ _ _) hjournal hcreate
  exact ⟨plan, analyzed, now, journal, h₁, h₂, h₃, h₄, h₅, by simp, hplan, hvalid, hsql, hbound,
    hnow, hexpired, hcreated, hafter⟩

/-! ### The statement and the commit -/

/-- The statement is the first thing the mutating stage sends. -/
theorem mutate_execute {analyzed : AnalyzedSql} {observed : Observed} {sql : String}
    {k : Reply (.execute sql) → Prog Cmd Reply (Except Outcome Outcome)}
    (hr : Reaches (mutate analyzed observed).run h (.call (.execute sql) k)) :
    h = [] ∧ sql = analyzed.normalized := by
  unfold mutate at hr
  rw [request_bind] at hr
  rcases Reaches.call_call_iff.mp hr with ⟨rfl, hq⟩ | ⟨answer, t, rfl, ht⟩
  · cases hq
    exact ⟨rfl, rfl⟩
  · -- what follows the statement sends no statement
    have huses : Uses [.finish] (.call (.execute sql) k) :=
      Within.of_reaches (conclude_uses observed answer) ht
    have hfinish : Channel.execute ∈ [Channel.finish] := (within_call.mp huses).1
    exact absurd hfinish (by decide)

theorem asCounted_eq_some {observed : Observed} {answer : Except DbError UInt64}
    {affected : UInt64} (hs : asCounted observed answer = some affected) :
    answer = .ok observed.count ∧ affected = observed.count := by
  rcases answer with error | n
  · cases hs
  · simp only [asCounted, bne_iff_ne, ne_eq, ite_not, Option.ite_none_right_eq_some] at hs
    obtain ⟨rfl, hn⟩ := hs
    cases hn
    exact ⟨rfl, rfl⟩

@[simp] theorem asCounted_count (observed : Observed) :
    asCounted observed (.ok observed.count) = some observed.count := by
  simp [asCounted]

/-- COMMIT is sent only after the statement affected as many rows as counted. -/
theorem mutate_commit {analyzed : AnalyzedSql} {observed : Observed}
    {k : Reply .commit → Prog Cmd Reply (Except Outcome Outcome)}
    (hr : Reaches (mutate analyzed observed).run h (.call .commit k)) :
    h = [⟨.execute analyzed.normalized, .ok observed.count⟩] := by
  unfold mutate at hr
  rw [request_bind] at hr
  rcases Reaches.call_call_iff.mp hr with ⟨-, hq⟩ | ⟨answer, t, rfl, ht⟩
  · cases hq
  unfold conclude at ht
  rcases hcounted : asCounted observed answer with - | affected
  · simp only [hcounted] at ht
    rcases Reaches.call_call_iff.mp ht with ⟨-, hq⟩ | ⟨_, _, -, hq⟩
    · cases hq
    · cases hq
  · simp only [hcounted] at ht
    rcases Reaches.call_call_iff.mp ht with ⟨rfl, -⟩ | ⟨_, _, -, hq⟩
    · rw [(asCounted_eq_some hcounted).1]
    · cases hq

/-- **Approval.**  When `applyPlan` sends the statement or what follows it,
its run so far is the history of an approval, and then the mutating stage's. -/
theorem approval_of_call {options : ApplyOptions} {c : Cmd}
    {k : Reply c → Prog Cmd Reply (Except AppError ApplyResult)}
    (hc : c.channel = .execute ∨ c.channel = .finish)
    (hr : Reaches (applyPlan X options).run h (.call c k)) :
    ∃ (a : Approval X options) (t : History) (k' : Reply c → _), h = a.history ++ t ∧
      Reaches (mutate a.analyzed a.observed).run t (.call c k') := by
  have hadmission : c.channel ∉ [Channel.read, .clock, .write] := by
    rcases hc with hc | hc <;> rw [hc] <;> decide
  have hpublish : c.channel ∉ [Channel.clock, .write] := by
    rcases hc with hc | hc <;> rw [hc] <;> decide
  have hsession : c.channel ∉ [Channel.environment, .connect, .start, .batch, .query] := by
    rcases hc with hc | hc <;> rw [hc] <;> decide
  -- the statement is sent from the last part, so all before it has succeeded
  obtain ⟨plan, analyzed, now, journal, h₁, h₂, h₃, h₄, h₅, rfl, hplan, hlimits, hsql, hbound,
    hnow, hexpired, hcreate, hafter⟩ := applyPlan_call X hadmission hr
  rw [applyAfterReceipt_eq] at hafter
  obtain ⟨k₁, htransact⟩ := settle_call X hpublish hafter
  obtain ⟨database, observed, h₆, h₇, h₈, rfl, hopen, hcheck, hmutate⟩ :=
    transact_call X hsession htransact
  -- and each part before it has the history of its success
  obtain ⟨planMetadata, planBytes, rfl, hplanFile, hdecoded⟩ := (readPlan_ok X).mp hplan
  obtain ⟨sqlMetadata, sqlBytes, sqlText, rfl, hfile, hlen, htext, hanalyzed⟩ :=
    (readAndAnalyze_ok X).mp hsql
  obtain ⟨sealHash, preparedAt, hsealed, rfl, rfl⟩ := (create_ok X).mp hcreate
  obtain ⟨htransport, -, connected, hconnect, rfl⟩ := (openSession_ok X).mp hopen
  obtain ⟨value, parsed, hname, hfits, hparsed, hlocal, rfl, rfl⟩ :=
    (connectDatabase_ok X).mp hconnect
  obtain ⟨hagrees, hi, he, countHistory, targetHistory, hidentity, hevidence, hcount, htarget,
    rfl⟩ := (checkDrift_ok X).mp hcheck
  obtain ⟨identityRow, hrow, rfl⟩ := databaseIdentity_ok.mp hidentity
  obtain ⟨answers, oid, hoid, hanswers, rfl⟩ := tableEvidence_ok.mp hevidence
  refine ⟨⟨⟨planMetadata, planBytes, plan, sealHash, hplanFile, hdecoded, hsealed, hlimits,
    sqlMetadata, sqlBytes, sqlText, analyzed, ⟨hfile, hlen⟩, htext, hanalyzed, hbound, now,
    hexpired, preparedAt, value, parsed, hname, hfits, hparsed, hlocal, htransport⟩, observed,
    hagrees, identityRow, hrow, answers, oid, hoid, hanswers, countHistory, hcount,
    targetHistory, htarget⟩, h₈, k₁, ?_, hmutate⟩
  rw [unixMs_ok.mp hnow, htransport]
  simp only [Approval.history, Admission.admissionHistory, Admission.receiptHistory,
    Admission.connectionHistory, Approval.driftHistory, Admission.prepared,
    List.append_assoc, List.cons_append, List.nil_append]

/-! ### From the approval to the statement -/

theorem settle_bind_ok {α : Type} {journal : ReceiptJournal} {x : Stage α} {v : α}
    (hx : Reaches x.run h (.ret (.ok v))) (f : α → Stage Outcome) :
    Reaches (settle X journal (x >>= f)).run h (settle X journal (f v)).run := by
  rw [settle_bind]
  exact hx.bind_left _

namespace Admission

variable {X} {options : ApplyOptions} (a : Admission X options)

/-- The journal of the run. -/
def journal : ReceiptJournal := ⟨options.receiptPath, a.prepared⟩

/-- The connection of the run. -/
def database : ConnectedDatabase :=
  ⟨a.plan.transportPolicy, endpointSha256 X (clientConfig a.parsedConfig)⟩

theorem reaches_openSession :
    Reaches (openSession X a.plan options.database).run
      (a.connectionHistory ++ sessionHistory a.plan) (.ret (.ok a.database)) :=
  (openSession_ok X).mpr ⟨a.transport, rfl, a.connectionHistory, (connectDatabase_ok X).mpr
    ⟨a.connectionValue, a.parsedConfig, a.environment_valid, a.value_fits, a.config_parsed,
      a.hosts_local, by rw [a.transport]; rfl, by rw [a.transport]; rfl⟩, rfl⟩

theorem channel_of_connection {e : Event Cmd Reply} (he : e ∈ a.connectionHistory) :
    e.cmd.channel ∈ [Channel.environment, .connect] := by
  have hconnect : Reaches (connectDatabase X options.database.environmentName
      options.database.allowInsecureLocalhost).run a.connectionHistory (.ret (.ok a.database)) :=
    (connectDatabase_ok X).mpr ⟨a.connectionValue, a.parsedConfig, a.environment_valid,
      a.value_fits, a.config_parsed, a.hosts_local, by rw [a.transport]; rfl,
      by rw [a.transport]; rfl⟩
  exact Within.events (connectDatabase_uses X _ _) hconnect e he

/-- The run as far as the receipt. -/
theorem reaches_receipt :
    Reaches (applyPlan X options).run (a.admissionHistory ++ a.receiptHistory)
      (applyAfterReceipt X a.journal a.plan a.analyzed options.database).run := by
  have hplan : Reaches (readPlan X options.planPath).run
      [⟨.metadata options.planPath, some a.planMetadata⟩,
        ⟨.read options.planPath, some a.planBytes⟩] (.ret (.ok a.plan)) :=
    (readPlan_ok X).mpr ⟨_, _, rfl, a.plan_file, a.plan_decoded⟩
  have hlimits : Reaches (ofResult (validateLimits a.plan.limits)).run [] (.ret (.ok ())) :=
    ok_ofResult_last.mpr ⟨rfl, a.limits_valid⟩
  have hsql : Reaches (readAndAnalyze X options.sqlPath).run
      [⟨.metadata options.sqlPath, some a.sqlMetadata⟩,
        ⟨.read options.sqlPath, some a.sqlBytes⟩] (.ret (.ok a.analyzed)) :=
    (readAndAnalyze_ok X).mpr
      ⟨_, _, _, rfl, a.sql_file.1, a.sql_file.2, a.sql_decoded, a.sql_analyzed⟩
  have hbound : Reaches (ofResult (validatePlanBinding a.plan a.analyzed)).run []
      (.ret (.ok ())) := ok_ofResult_last.mpr ⟨rfl, a.bound⟩
  have hclock : Reaches unixMs.run [⟨.now, some a.checkedAt.toNat⟩] (.ret (.ok a.checkedAt)) :=
    unixMs_ok.mpr rfl
  have hjournal : Reaches (ReceiptJournal.create X options.receiptPath a.plan
      a.analyzed.sqlFileSha256).run a.receiptHistory (.ret (.ok a.journal)) :=
    (create_ok X).mpr ⟨a.sealHash, a.preparedAt, a.plan_sealed, rfl, rfl⟩
  refine (hplan.bind_ok _).append ((hlimits.bind_ok _).append ((hsql.bind_ok _).append
    ((hbound.bind_ok _).append ((hclock.bind_ok _).append ?_))))
  rw [if_neg a.unexpired]
  exact hjournal.bind_ok _

/-- The run as far as the lock. -/
theorem reaches_session :
    Reaches (applyPlan X options).run
      (a.admissionHistory ++ a.receiptHistory ++ (a.connectionHistory ++ sessionHistory a.plan))
      (settle X a.journal (checkDrift X a.plan a.analyzed a.database >>=
        mutate a.analyzed)).run := by
  have hafter := a.reaches_receipt
  rw [applyAfterReceipt_eq] at hafter
  exact hafter.append (settle_bind_ok X a.reaches_openSession _)

end Admission

namespace Approval

variable {X} {options : ApplyOptions} (a : Approval X options)

theorem reaches_checkDrift :
    Reaches (checkDrift X a.plan a.analyzed a.database).run a.driftHistory
      (.ret (.ok a.observed)) :=
  (checkDrift_ok X).mpr ⟨a.agrees, [_], _, a.countHistory, a.targetHistory,
    databaseIdentity_ok.mpr ⟨a.identityRow, a.identity_decoded, rfl⟩,
    tableEvidence_ok.mpr ⟨a.evidenceAnswers, a.oid, a.oid_decoded, a.evidence_decoded, rfl⟩,
    a.counted, a.fingerprinted, rfl⟩

theorem channel_of_drift {e : Event Cmd Reply} (he : e ∈ a.driftHistory) :
    e.cmd.channel = .query :=
  List.mem_singleton.mp (Within.events (checkDrift_uses X _ _ _) a.reaches_checkDrift e he)

/-- Deciding writes nothing and reads no clock. -/
theorem channel_of_deciding {e : Event Cmd Reply}
    (he : e ∈ a.connectionHistory ++ sessionHistory a.plan ++ a.driftHistory) :
    e.cmd.channel ∈ [Channel.environment, .connect, .start, .batch, .query] := by
  rcases List.mem_append.mp he with he | he
  · exact List.mem_append_left [Channel.query]
      (Within.events (openSession_uses X _ _) a.reaches_openSession e he)
  · rw [a.channel_of_drift he]
    decide

/-- **Every approval is a run.**  After its history the mutating stage is what
is left to run, and the publishing of what it decides. -/
theorem reaches : Reaches (applyPlan X options).run a.history
    (settle X a.journal (mutate a.analyzed a.observed)).run := by
  have hall := a.reaches_session.append (settle_bind_ok X a.reaches_checkDrift _)
  simpa only [history, List.append_assoc] using hall

end Approval

end DmlPact
