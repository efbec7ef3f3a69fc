/-
DmlPact/Plan/Applies.lean

A plan that was created applies, as long as nothing has changed.  The answers of
a planning are an approval of the plan it made (`Planning.approval`), so a run
that gets those answers again goes the way of the approval: a run is determined
by its answers (`Reaches.prefix_or_prefix`), and only the clock may answer
otherwise.
-/
import DmlPact.Apply.Outcome
import DmlPact.Plan.ReadBack

namespace DmlPact

open Effect Utf8

/-! ### What answers an apply run -/

/-- The files, the environment and the database. -/
structure Surroundings where
  metadata : Path → Metadata
  content : Path → Bytes
  env : String → Option String
  db : String → List SqlValue → Rows

/-- An answer as the surroundings give it, where what can only fail does not.
What becomes of the statement and of COMMIT is left open, and so is the clock. -/
def Surroundings.Answers (w : Surroundings) : Event Cmd Reply → Prop
  | ⟨.metadata path, r⟩ => r = some (w.metadata path)
  | ⟨.read path, r⟩ => r = some (w.content path)
  | ⟨.var name, r⟩ => r = w.env name
  | ⟨.query sql params, r⟩ => r = w.db sql params
  | ⟨.now, r⟩ => ∃ ms < 2 ^ 64, r = some ms
  | ⟨.writeAll _ _, r⟩ => r = .done
  | ⟨.createNew _, r⟩ | ⟨.syncAll _, r⟩ | ⟨.nativeCerts, r⟩ | ⟨.connect _ _, r⟩
  | ⟨.start _ _, r⟩ | ⟨.batchExecute _, r⟩ => r = true
  | ⟨.execute _, _⟩ | ⟨.rollback, _⟩ | ⟨.commit, _⟩ | ⟨.stdout _, _⟩ | ⟨.stderr _, _⟩ => True

/-- The surroundings give one command one answer. -/
theorem Surroundings.Answers.unique {w : Surroundings} {e e' : Event Cmd Reply}
    (h : w.Answers e) (h' : w.Answers e') (hcmd : e.cmd = e'.cmd)
    (hchannel : e.cmd.channel ∉ [Channel.clock, .execute, .finish, .output]) : e = e' := by
  obtain ⟨c, r⟩ := e
  obtain ⟨c', r'⟩ := e'
  obtain rfl : c = c' := hcmd
  cases c
  case now => exact absurd (show Channel.clock ∈ _ by decide) hchannel
  case execute => exact absurd (show Channel.execute ∈ _ by decide) hchannel
  case rollback => exact absurd (show Channel.finish ∈ _ by decide) hchannel
  case commit => exact absurd (show Channel.finish ∈ _ by decide) hchannel
  case stdout => exact absurd (show Channel.output ∈ _ by decide) hchannel
  case stderr => exact absurd (show Channel.output ∈ _ by decide) hchannel
  all_goals
    rw [Event.mk.injEq]
    exact ⟨rfl, heq_of_eq (h.trans h'.symm)⟩

variable (X : Crates)

/-- Nothing has changed since the plan was created: the server answers as it did
then, the plan is read back, the SQL file has the same bytes, and the connection
is made in the same way and to the same endpoint. -/
structure Undisturbed (planOptions : PlanOptions) (options : ApplyOptions) (h : History)
    (plan : Plan) (w : Surroundings) : Prop where
  queries : ∀ sql params rows, ⟨.query sql params, rows⟩ ∈ h → rows = w.db sql params
  plan_file : (w.metadata options.planPath).isFile ∧
    (w.metadata options.planPath).len.toNat ≤ maxPlanBytes
  plan_read : decodePlan X (w.content options.planPath) = .ok plan
  sql_file : (w.metadata options.sqlPath).isFile ∧
    (w.metadata options.sqlPath).len.toNat ≤ maxSqlBytes
  sql_same : ∀ bytes, ⟨.read planOptions.sqlPath, some bytes⟩ ∈ h →
    w.content options.sqlPath = bytes
  flag : options.database.allowInsecureLocalhost = planOptions.database.allowInsecureLocalhost
  connects : ∃ connected database, Reaches (connectDatabase X options.database.environmentName
      options.database.allowInsecureLocalhost).run connected (.ret (.ok database)) ∧
    (∀ e ∈ connected, w.Answers e) ∧
    database.endpointSha256 = plan.preconditions.database.endpointSha256

variable {X}

namespace Planning

variable {planOptions : PlanOptions} (s : Planning X planOptions) {options : ApplyOptions}
  {w : Surroundings}

/-- The approval that the same answers make, with this connection and the clock
at these readings. -/
def approval (hu : Undisturbed X planOptions options s.history s.plan w) {checkedAt : UInt64}
    (preparedAt : UInt64) (hchecked : ¬ s.plan.expiresAtUnixMs < checkedAt) {value : String}
    {parsed : Config} (hname : validateEnvironmentName options.database.environmentName = .ok ())
    (hfits : ¬ maxConnectionValueBytes < (asBytes value).length)
    (hparsed : X.parseConfig value = some parsed)
    (hlocal : options.database.allowInsecureLocalhost → allHostsAreLocal (clientConfig parsed))
    (hendpoint : endpointSha256 X (clientConfig parsed) =
      s.plan.preconditions.database.endpointSha256) : Approval X options where
  planMetadata := w.metadata options.planPath
  planBytes := w.content options.planPath
  plan := s.plan
  sealHash := sha256Bytes X (toVec (Plan.codec.ser s.plan.unsigned))
  plan_file := by simp [hu.plan_file.1, hu.plan_file.2]
  plan_decoded := hu.plan_read
  plan_sealed := verifiedPlanSha256_sealedBy X rfl rfl
  limits_valid := s.limits_valid
  sqlMetadata := w.metadata options.sqlPath
  sqlBytes := w.content options.sqlPath
  sqlText := s.sqlText
  analyzed := s.analyzed
  sql_file := hu.sql_file
  sql_decoded := by
    rw [hu.sql_same s.sqlBytes (by simp [history])]
    exact s.sql_decoded
  sql_analyzed := s.sql_analyzed
  bound := by
    have hbudget : ¬ s.plan.limits.maxRows < s.plan.preconditions.targetCount := s.budget
    unfold validatePlanBinding
    rw [if_neg (by simp [plan, draft, Plan.sealedBy]), if_neg hbudget]
  checkedAt
  unexpired := hchecked
  preparedAt
  connectionValue := value
  parsedConfig := parsed
  environment_valid := hname
  value_fits := hfits
  config_parsed := hparsed
  hosts_local := hlocal
  transport := by
    show requestedTransport options.database = requestedTransport planOptions.database
    unfold requestedTransport
    rw [hu.flag]
  observed := s.observed
  agrees := ⟨rfl, rfl, s.schema_hashed, rfl, s.policy, rfl, s.budget, rfl⟩
  identityRow := s.identityRow
  identity_decoded := by
    rw [hendpoint.trans (ofRow_endpoint s.identity_decoded)]
    exact s.identity_decoded
  evidenceAnswers := s.evidenceAnswers
  oid := s.oid
  oid_decoded := s.oid_decoded
  evidence_decoded := s.evidence_decoded
  countHistory := s.countHistory
  counted := s.counted
  targetHistory := s.targetHistory
  fingerprinted := s.fingerprinted

/-- **The plan is approved.**  With the clock at any two readings, of which the
first is not past the expiry, the same answers are an approval. -/
theorem approved (hu : Undisturbed X planOptions options s.history s.plan w)
    {checkedAt : UInt64} (preparedAt : UInt64)
    (hchecked : ¬ s.plan.expiresAtUnixMs < checkedAt) :
    ∃ a : Approval X options, a.plan = s.plan ∧ a.analyzed = s.analyzed ∧
      a.checkedAt = checkedAt ∧ a.preparedAt = preparedAt ∧ ∀ e ∈ a.history, w.Answers e := by
  obtain ⟨connected, database, hconnect, hanswers, hendpoint⟩ := hu.connects
  obtain ⟨value, parsed, hname, hfits, hparsed, hlocal, rfl, rfl⟩ :=
    (connectDatabase_ok X).mp hconnect
  let a : Approval X options :=
    s.approval hu preparedAt hchecked hname hfits hparsed hlocal hendpoint
  refine ⟨a, rfl, rfl, rfl, rfl, fun e he => ?_⟩
  -- the queries under the lock are queries of the planning
  have hdrift : ∀ e ∈ a.driftHistory, w.Answers e := by
    intro e he
    have hchannel := a.channel_of_drift he
    have hsubset : a.driftHistory ⊆ s.history := by
      intro f hf
      have hparts : f ∈ ⟨.query identitySql [], ⟨[s.identityRow], true⟩⟩ ::
          (s.evidenceAnswers.history s.analyzed.requestedTable s.oid ++
            (s.countHistory ++ s.targetHistory)) := hf
      simp only [history, List.mem_append, List.mem_cons] at hparts ⊢
      tauto
    obtain ⟨c, r⟩ := e
    cases c <;> cases hchannel
    exact hu.queries _ _ _ (hsubset he)
  have hconnection : ∀ e ∈ a.connectionHistory, w.Answers e := by
    intro e he
    refine hanswers e ?_
    rw [a.transport]
    exact he
  rcases List.mem_append.mp he with he | he
  · simp only [Admission.admissionHistory, List.mem_cons, List.not_mem_nil, or_false] at he
    rcases he with rfl | rfl | rfl | rfl | rfl
    · exact rfl
    · exact rfl
    · exact rfl
    · exact rfl
    · exact ⟨_, checkedAt.toNat_lt, rfl⟩
  rcases List.mem_append.mp he with he | he
  · simp only [Admission.receiptHistory, List.mem_cons, List.not_mem_nil, or_false] at he
    rcases he with rfl | rfl | rfl | rfl
    · exact ⟨_, preparedAt.toNat_lt, rfl⟩
    · exact rfl
    · exact rfl
    · exact rfl
  rcases List.mem_append.mp he with he | he
  · rcases List.mem_append.mp he with he | he
    · exact hconnection e he
    · simp only [sessionHistory, List.mem_cons, List.not_mem_nil, or_false] at he
      rcases he with rfl | rfl | rfl
      · exact rfl
      · exact rfl
      · exact rfl
  · exact hdrift e he

end Planning

/-! ### Runs with the same answers -/

/-- The clock readings of two runs agree as far as both go. -/
def SameClock (h t : History) : Prop :=
  ∀ n ms ms' : Nat, (readings h)[n]? = some ms → (readings t)[n]? = some ms' → ms = ms'

theorem readings_append (h t : History) : readings (h ++ t) = readings h ++ readings t :=
  List.filterMap_append

/-- Behind one past, the next clock reading of two such runs is one. -/
theorem SameClock.next {past rest rest' : History} {r r' : Reply .now}
    (h : SameClock (past ++ ⟨.now, r⟩ :: rest) (past ++ ⟨.now, r'⟩ :: rest'))
    {ms ms' : Nat} (hr : r = some ms) (hr' : r' = some ms') : ms = ms' := by
  subst hr hr'
  refine h (readings past).length ms ms' ?_ ?_
  · rw [readings_append, List.getElem?_append_right le_rfl, Nat.sub_self]
    rfl
  · rw [readings_append, List.getElem?_append_right le_rfl, Nat.sub_self]
    rfl

/-- Two runs of one program that got the same answers are one run, as far as
both go. -/
theorem Surroundings.prefix_or_prefix {w : Surroundings} {α : Type} {p q q' : Prog Cmd Reply α}
    {h t : History} (hp : Reaches p h q) (ht : Reaches p t q')
    (hw : ∀ e ∈ h, w.Answers e) (hw' : ∀ e ∈ t, w.Answers e) (hclock : SameClock h t)
    (hopen : ∀ e ∈ h, ∀ e' ∈ t, e.cmd = e'.cmd →
      e.cmd.channel ∈ [Channel.execute, .finish, .output] → e = e') : h <+: t ∨ t <+: h := by
  refine hp.prefix_or_prefix ht fun past e e' rest rest' hh htt hcmd => ?_
  have he : e ∈ h := hh ▸ List.mem_append_right _ List.mem_cons_self
  have he' : e' ∈ t := htt ▸ List.mem_append_right _ List.mem_cons_self
  by_cases hchannel : e.cmd.channel ∈ [Channel.execute, .finish, .output]
  · exact hopen e he e' he' hcmd hchannel
  by_cases hnow : e.cmd.channel = .clock
  · obtain ⟨c, r⟩ := e
    obtain ⟨c', r'⟩ := e'
    obtain rfl : c = c' := hcmd
    cases c <;> cases hnow
    obtain ⟨ms, -, hr⟩ := hw _ he
    obtain ⟨ms', -, hr'⟩ := hw' _ he'
    rw [hh, htt] at hclock
    have hsame : ms = ms' := hclock.next hr hr'
    rw [hr, hr', hsame]
  · refine (hw e he).unique (hw' e' he') hcmd ?_
    simp only [List.mem_cons, not_or] at hchannel ⊢
    exact ⟨hnow, hchannel⟩

/-- The reading of a run at some place, if it has come to it. -/
def readingAt (t : History) (n : Nat) : UInt64 := UInt64.ofNat ((readings t)[n]?.getD 0)

theorem readingAt_toNat {w : Surroundings} {t : History} (hw : ∀ e ∈ t, w.Answers e) {n ms : Nat}
    (h : (readings t)[n]? = some ms) : (readingAt t n).toNat = ms := by
  have hmem : ms ∈ readings t := List.mem_of_getElem? h
  obtain ⟨e, he, hreading⟩ := List.mem_filterMap.mp hmem
  have hsmall : ms < 2 ^ 64 := by
    have hanswer := hw e he
    obtain ⟨c, r⟩ := e
    cases c <;> cases hreading
    obtain ⟨ms', hlt, hr⟩ := hanswer
    cases hr
    exact hlt
  rw [readingAt, h, Option.getD_some, UInt64.toNat_ofNat_of_lt' hsmall]

/-- A run whose first readings are those of the other has the same clock. -/
theorem sameClock_of_readings {w : Surroundings} {h t : History} (hw : ∀ e ∈ t, w.Answers e)
    {k : Nat} (hk : readings h = (List.range k).map fun n => (readingAt t n).toNat) :
    SameClock h t := by
  intro n ms ms' hms hms'
  rw [hk, List.getElem?_map] at hms
  obtain ⟨m, hm, rfl⟩ := Option.map_eq_some_iff.mp hms
  obtain ⟨-, rfl⟩ := List.getElem?_eq_some_iff.mp hm
  rw [List.getElem_range]
  exact readingAt_toNat hw hms'

/-- The statement is executed with success, and COMMIT answered with it. -/
def Succeeds (count : UInt64) : Event Cmd Reply → Prop
  | ⟨.execute _, r⟩ => r = .ok count
  | ⟨.commit, r⟩ => r = true
  | _ => True

namespace Approval

variable {options : ApplyOptions} (a : Approval X options)

theorem readings_history : readings a.history = [a.checkedAt.toNat, a.preparedAt.toNat] := by
  have hdeciding : readings (a.connectionHistory ++ sessionHistory a.plan ++ a.driftHistory) =
      [] := by
    refine readings_of_channel fun e he hclock => ?_
    have hchannel := a.channel_of_deciding he
    rw [hclock] at hchannel
    exact absurd hchannel (by decide)
  rw [history, readings_append, readings_append, hdeciding]
  rfl

theorem readings_committed (c : UInt64) :
    readings (a.committedHistory c) = [a.checkedAt.toNat, a.preparedAt.toNat, c.toNat] := by
  rw [committedHistory, readings_append, a.readings_history]
  rfl

/-- Up to the statement nothing is executed, finished or printed. -/
theorem channel_of_history {e : Event Cmd Reply} (he : e ∈ a.history) :
    e.cmd.channel ∉ [Channel.execute, .finish, .output] := by
  rcases List.mem_append.mp he with he | he
  · simp only [Admission.admissionHistory, List.mem_cons, List.not_mem_nil, or_false] at he
    rcases he with rfl | rfl | rfl | rfl | rfl <;> simp [Cmd.channel]
  rcases List.mem_append.mp he with he | he
  · simp only [Admission.receiptHistory, List.mem_cons, List.not_mem_nil, or_false] at he
    rcases he with rfl | rfl | rfl | rfl <;> simp [Cmd.channel]
  · exact Channel.apart (a.channel_of_deciding he) rfl

variable {w : Surroundings} {t : History} {q : Prog Cmd Reply (Except AppError ApplyResult)}
  (ht : Reaches (applyPlan X options).run t q) (hw : ∀ e ∈ t, w.Answers e)
  (hanswers : ∀ e ∈ a.history, w.Answers e)
  (hchecked : a.checkedAt = readingAt t 0) (hprepared : a.preparedAt = readingAt t 1)

include ht hw hanswers hchecked hprepared

/-- A run with the answers of an approval is still going, or has executed the
statement. -/
theorem going_or_executed : (∃ c k, q = .call c k) ∨
    ∃ answer, a.history ++ [⟨.execute a.analyzed.normalized, answer⟩] <+: t := by
  have hclock : SameClock a.history t :=
    sameClock_of_readings (k := 2) hw (by rw [a.readings_history, hchecked, hprepared]; rfl)
  have hsent := a.reaches
  rw [settle_mutate] at hsent
  rcases Surroundings.prefix_or_prefix a.reaches ht hanswers hw hclock
    (fun e he _ _ _ hchannel => absurd hchannel (a.channel_of_history he)) with
    ⟨rest, rfl⟩ | ⟨rest, hrest⟩
  · -- the statement is the next command of the run
    have hafter := hsent.after ht
    cases hafter with
    | refl => exact .inl ⟨_, _, rfl⟩
    | @call _ _ answer rest _ hk =>
        exact .inr ⟨answer, rest, by rw [List.append_assoc]; rfl⟩
  · rw [← hrest] at hsent
    have hbefore := ht.after hsent
    cases hbefore with
    | refl => exact .inl ⟨_, _, rfl⟩
    | call hk => exact .inl ⟨_, _, rfl⟩

/-- Such a run does not end refused. -/
theorem not_refused {result : ApplyResult} (hq : q = .ret (.ok result)) :
    result.state ≠ .refused := by
  rcases a.going_or_executed ht hw hanswers hchecked hprepared with ⟨c, k, hc⟩ | ⟨answer, hpre⟩
  · rw [hq] at hc
    cases hc
  subst hq
  obtain ⟨_, _, outcome, published, _, _, _, _, s⟩ :=
    applyPlan_settled X ht (firstLineSynced_of_ok X ht)
  have hstate : result.state = outcome.state := by
    have hreport := s.reported
    rcases published with e | event
    · cases hreport
    · exact congrArg ApplyResult.state (Except.ok.inj hreport)
  rw [hstate]
  intro hrefused
  exact s.truthful.refused.mp hrefused
    ⟨⟨.execute a.analyzed.normalized, answer⟩, hpre.subset (by simp), rfl⟩

/-- Where the statement and COMMIT succeed, such a run ends as approved. -/
theorem committed_of_ret {r : Except AppError ApplyResult} (hq : q = .ret r)
    (hsucceeds : ∀ e ∈ t, Succeeds a.observed.count e) : r = .ok a.committedResult := by
  subst hq
  have hclock : SameClock (a.committedHistory (readingAt t 2)) t :=
    sameClock_of_readings (k := 3) hw
      (by rw [a.readings_committed, hchecked, hprepared]; rfl)
  -- what follows the approval is the statement, COMMIT and the terminal event
  have hafter : ∀ e ∈ a.committedHistory (readingAt t 2), e ∉ a.history →
      w.Answers e ∧ Succeeds a.observed.count e ∧
        (e.cmd.channel ∈ [Channel.execute, .finish, .output] →
          e.cmd = .execute a.analyzed.normalized ∨ e.cmd = .commit) := by
    intro e he hnot
    rcases List.mem_append.mp he with he | he
    · exact absurd he hnot
    simp only [List.cons_append, List.nil_append, List.mem_cons, List.not_mem_nil,
      or_false] at he
    rcases he with rfl | rfl | rfl | rfl | rfl
    · exact ⟨trivial, rfl, fun _ => .inl rfl⟩
    · exact ⟨trivial, rfl, fun _ => .inr rfl⟩
    · exact ⟨⟨_, (readingAt t 2).toNat_lt, rfl⟩, trivial, fun hc => absurd hc (by simp [Cmd.channel])⟩
    · exact ⟨rfl, trivial, fun hc => absurd hc (by simp [Cmd.channel])⟩
    · exact ⟨rfl, trivial, fun hc => absurd hc (by simp [Cmd.channel])⟩
  have hall : ∀ e ∈ a.committedHistory (readingAt t 2), w.Answers e := by
    intro e he
    by_cases hmem : e ∈ a.history
    · exact hanswers e hmem
    · exact (hafter e he hmem).1
  have hopen : ∀ e ∈ a.committedHistory (readingAt t 2), ∀ e' ∈ t, e.cmd = e'.cmd →
      e.cmd.channel ∈ [Channel.execute, .finish, .output] → e = e' := by
    intro e he e' he' hcmd hchannel
    have hmem : e ∉ a.history := fun hin => a.channel_of_history hin hchannel
    obtain ⟨-, hsent, hwhich⟩ := hafter e he hmem
    have hsent' := hsucceeds e' he'
    obtain ⟨c, r⟩ := e
    obtain ⟨c', r'⟩ := e'
    obtain rfl : c = c' := hcmd
    rcases hwhich hchannel with rfl | rfl
    · rw [show r = _ from hsent, show r' = _ from hsent']
    · rw [show r = _ from hsent, show r' = _ from hsent']
  have hdone := a.reaches_committed (readingAt t 2)
  rcases Surroundings.prefix_or_prefix hdone ht hall hw hclock hopen with
    ⟨rest, hrest⟩ | ⟨rest, hrest⟩
  · rw [← hrest] at ht
    obtain ⟨-, hr⟩ := Reaches.ret_iff.mp (hdone.after ht)
    exact Prog.ret.inj hr
  · rw [← hrest] at hdone
    obtain ⟨-, hr⟩ := Reaches.ret_iff.mp (ht.after hdone)
    exact (Prog.ret.inj hr).symm

end Approval

variable (X)

/-- **Planning and applying agree.**  Where nothing has changed, the plan is
applied under every two clock readings of which the first is not past the
expiry; and a run there is still going or has executed the statement under an
approval of the plan, never ends refused, and when the statement affects the
planned number of rows and COMMIT succeeds, ends committed. -/
theorem createPlan_applies {planOptions : PlanOptions} {options : ApplyOptions} {h : History}
    {plan : Plan} (hr : Reaches (createPlan X planOptions).run h (.ret (.ok plan)))
    {w : Surroundings} (hu : Undisturbed X planOptions options h plan w) :
    (∀ checkedAt preparedAt : UInt64, ¬ plan.expiresAtUnixMs < checkedAt →
      ∃ a : Approval X options, a.plan = plan ∧
        a.observed.count = plan.preconditions.targetCount ∧
        readings a.history = [checkedAt.toNat, preparedAt.toNat] ∧
        (∀ e ∈ a.history, w.Answers e) ∧
        ∃ k, Reaches (applyPlan X options).run a.history
          (.call (.execute a.analyzed.normalized) k)) ∧
    ∀ t q, Reaches (applyPlan X options).run t q → (∀ e ∈ t, w.Answers e) →
      (∀ ms ∈ (readings t).head?, ms ≤ plan.expiresAtUnixMs.toNat) →
      ((∃ c k, q = .call c k) ∨ ∃ (a : Approval X options) (answer : Except DbError UInt64),
        a.plan = plan ∧ a.observed.count = plan.preconditions.targetCount ∧
          a.history ++ [⟨.execute a.analyzed.normalized, answer⟩] <+: t) ∧
      (∀ result, q = .ret (.ok result) → result.state ≠ .refused) ∧
      ((∀ e ∈ t, Succeeds plan.preconditions.targetCount e) → ∀ r, q = .ret r →
        ∃ result, r = .ok result ∧ result.state = .committed ∧
          result.affectedRows = some plan.preconditions.targetCount) := by
  obtain ⟨s, rfl, rfl⟩ := planning_of_ok X hr
  refine ⟨fun checkedAt preparedAt hchecked => ?_, fun t q ht hw hclock => ?_⟩
  · obtain ⟨a, hplan, -, hfirst, hsecond, hanswers⟩ :=
      s.approved hu preparedAt hchecked
    refine ⟨a, hplan, by rw [a.agrees.count, hplan], ?_, hanswers, ?_⟩
    · rw [a.readings_history, hfirst, hsecond]
    · have hsent := a.reaches
      rw [settle_mutate] at hsent
      exact ⟨_, hsent⟩
  -- the approval with the clock readings of this run
  have hchecked : ¬ s.plan.expiresAtUnixMs < readingAt t 0 := by
    intro hlate
    rw [UInt64.lt_iff_toNat_lt] at hlate
    rcases hfirst : (readings t)[0]? with - | ms
    · rw [readingAt, hfirst] at hlate
      exact absurd hlate (Nat.not_lt_zero _)
    · rw [readingAt_toNat hw hfirst] at hlate
      exact absurd (hclock ms (by rw [List.head?_eq_getElem?]; exact hfirst))
        (Nat.not_le.mpr hlate)
  obtain ⟨a, hplan, -, hfirst, hsecond, hanswers⟩ :=
    s.approved hu (readingAt t 1) hchecked
  have hcount : a.observed.count = s.plan.preconditions.targetCount := by
    rw [a.agrees.count, hplan]
  refine ⟨?_, fun result hq => a.not_refused ht hw hanswers hfirst hsecond hq, ?_⟩
  · rcases a.going_or_executed ht hw hanswers hfirst hsecond with hgoing | ⟨answer, hpre⟩
    · exact .inl hgoing
    · exact .inr ⟨a, answer, hplan, hcount, hpre⟩
  · intro hsucceeds r hq
    refine ⟨a.committedResult, ?_, rfl, ?_⟩
    · exact a.committed_of_ret ht hw hanswers hfirst hsecond hq (by rwa [hcount])
    · show some a.observed.count = _
      rw [hcount]

/-! ### The small planning, applied -/

/-- The query that an event sends, and the answer to it. -/
def queried : Event Cmd Reply → Option (String × Rows)
  | ⟨.query text _, rows⟩ => some (text, rows)
  | _ => none

/-- The bytes that an event reads. -/
def bytesRead : Event Cmd Reply → Option Bytes
  | ⟨.read _, bytes⟩ => bytes
  | _ => none

theorem answer_of_mem {entries : List (String × Rows)} (hkeys : (entries.map Prod.fst).Nodup)
    {key : String} {rows : Rows} (hmem : (key, rows) ∈ entries) :
    entries.lookup key = some rows := by
  induction entries with
  | nil => cases hmem
  | cons entry entries ih =>
      obtain ⟨hnot, hrest⟩ := List.nodup_cons.mp hkeys
      rcases List.mem_cons.mp hmem with rfl | hlater
      · simp
      · have hne : (key == entry.1) = false := by
          rw [beq_eq_false_iff_ne]
          rintro rfl
          exact hnot (List.mem_map.mpr ⟨_, hlater, rfl⟩)
        obtain ⟨first, answer⟩ := entry
        rw [List.lookup_cons, hne]
        exact ih hrest hlater

namespace Planning

variable {X : Crates} {planOptions : PlanOptions} (s : Planning X planOptions)
  {options : ApplyOptions}

/-- The files, the environment and the server, as a planning found and left them. -/
def surroundings (planPath : Path) : Surroundings where
  metadata _ := ⟨true, 0⟩
  content path := if path = planPath then s.fileBytes else s.sqlBytes
  env _ := some s.connectionValue
  db text _ := ((s.history.filterMap queried).lookup text).getD ⟨[], true⟩

/-- Nothing has happened to them, if no query was sent twice and the plan can be
read back. -/
theorem undisturbed (hkeys : ((s.history.filterMap queried).map Prod.fst).Nodup)
    (hreads : s.history.filterMap bytesRead = [s.sqlBytes])
    (hread : decodePlan X s.fileBytes = .ok s.plan) (hpaths : options.sqlPath ≠ options.planPath)
    (hdatabase : options.database = planOptions.database) :
    Undisturbed X planOptions options s.history s.plan (s.surroundings options.planPath) where
  queries := by
    intro text params rows he
    have hmem : (text, rows) ∈ s.history.filterMap queried :=
      List.mem_filterMap.mpr ⟨_, he, rfl⟩
    show rows = ((s.history.filterMap queried).lookup text).getD ⟨[], true⟩
    rw [answer_of_mem hkeys hmem, Option.getD_some]
  plan_file := by simp [surroundings]
  plan_read := by
    show decodePlan X (if options.planPath = options.planPath then s.fileBytes else _) = _
    rw [if_pos rfl]
    exact hread
  sql_file := by simp [surroundings]
  sql_same := by
    intro bytes he
    have hmem : bytes ∈ s.history.filterMap bytesRead := List.mem_filterMap.mpr ⟨_, he, rfl⟩
    rw [hreads] at hmem
    rw [List.mem_singleton.mp hmem]
    exact if_neg hpaths
  flag := by rw [hdatabase]
  connects := by
    rw [hdatabase]
    refine ⟨_, _, (connectDatabase_ok X).mpr ⟨s.connectionValue, s.parsedConfig,
      s.environment_valid, s.value_fits, s.config_parsed, s.hosts_local, rfl, rfl⟩,
      fun e he => ?_, (ofRow_endpoint s.identity_decoded).symm⟩
    cases hpolicy : requestedTransport planOptions.database
    all_goals
      rw [hpolicy] at he
      simp only [connectHistory, List.mem_cons, List.not_mem_nil, or_false] at he
    · rcases he with rfl | rfl | rfl <;> rfl
    · rcases he with rfl | rfl <;> rfl

end Planning

namespace Sample

/-- What the small planning has sent, each query once. -/
theorem queried_planning (searchPath : String) :
    ((planning searchPath).history.filterMap queried).map Prod.fst =
      [identitySql, tableLookupSql, columnSql, constraintSql, indexSql, triggerSql, ruleSql,
        policySql, inheritanceSql, referentialActionSql, countText "t" "a",
        targetRowsText "t" "t" "a", explainText sql] := rfl

theorem undisturbed {searchPath : String} (hsmall : Json.literalSize searchPath ≤ 1000)
    {options : ApplyOptions} (hpaths : options.sqlPath ≠ options.planPath)
    (hdatabase : options.database = planOptions.database) :
    Undisturbed crates planOptions options (planning searchPath).history
      (planning searchPath).plan ((planning searchPath).surroundings options.planPath) := by
  refine (planning searchPath).undisturbed ?_ rfl ?_ hpaths hdatabase
  · rw [queried_planning]
    decide +kernel
  · have hsize := (planning searchPath).length_fileBytes Sha256.length_digest
    rw [fileSize_planning] at hsize
    have hmax : maxPlanBytes = 1048576 := rfl
    exact (planning searchPath).decodes (by omega)

end Sample

/-- The small planning is applied, with the clock at 1 and then at 2. -/
theorem createPlan_applies_sample :
    ∃ a : Approval Sample.crates Sample.options, a.plan = (Sample.planning "public").plan ∧
      readings a.history = [1, 2] ∧ ∃ k, Reaches (applyPlan Sample.crates Sample.options).run
        a.history (.call (.execute a.analyzed.normalized) k) := by
  have hchecked : ¬ (Sample.planning "public").plan.expiresAtUnixMs < 1 := by
    show ¬ ((0 : UInt64) + 100) < 1
    decide
  obtain ⟨a, hplan, -, hclock, -, hsent⟩ := (createPlan_applies Sample.crates
    (Sample.planning "public").reaches (Sample.undisturbed
      (show Json.literalSize "public" ≤ 1000 by decide) (show ([1] : Path) ≠ [2] by decide) rfl)).1 1 2
      hchecked
  exact ⟨a, hplan, hclock, hsent⟩

end DmlPact
