/-
DmlPact/Apply/Outcome.lean

The reported outcome is the true one.  Once the prepared event is durable, a
run that returns has decided one outcome and attempted one finalization, and
the state it recorded is the one that what it sent and was answered calls for
(`applyPlan_outcome`).

    recorded      COMMIT             statement
    committed     answered Ok        sent
    uncertain     answered Err       sent
    rolledBack    not sent           sent
    refused       not sent           not sent
-/
import DmlPact.Apply.Answers
import DmlPact.Apply.Batches
import DmlPact.Apply.Guard

namespace DmlPact

open Effect

variable (X : Crates) {h : History}

/-! ### What was sent -/

/-- The statement was sent. -/
def Executed (h : History) : Prop := ∃ e ∈ h, e.cmd.channel = .execute

/-- COMMIT was sent, and answered `ok`. -/
def CommitAnswered (h : History) (ok : Bool) : Prop := ⟨.commit, ok⟩ ∈ h

/-- The state is the one that the run's commands and their answers call for. -/
structure Truthful (h : History) (state : ReceiptState) : Prop where
  committed : state = .committed ↔ CommitAnswered h true
  uncertain : state = .uncertain ↔ CommitAnswered h false
  rolledBack : state = .rolledBack ↔
    Executed h ∧ ¬ CommitAnswered h true ∧ ¬ CommitAnswered h false
  refused : state = .refused ↔ ¬ Executed h

/-- Commands before and after that neither execute nor finish a transaction
leave it truthful. -/
theorem Truthful.frame {state : ReceiptState} (ht : Truthful h state) (before after : History)
    (hb : ∀ e ∈ before ++ after, e.cmd.channel ∉ [Channel.execute, .finish]) :
    Truthful (before ++ h ++ after) state := by
  -- the added events are of other channels, so they decide none of the four states
  have hexec : Executed (before ++ h ++ after) ↔ Executed h := by
    constructor
    · rintro ⟨e, he, hc⟩
      rcases List.mem_append.mp he with he | he
      · rcases List.mem_append.mp he with he | he
        · exact absurd (by simp [hc]) (hb e (List.mem_append_left _ he))
        · exact ⟨e, he, hc⟩
      · exact absurd (by simp [hc]) (hb e (List.mem_append_right _ he))
    · rintro ⟨e, he, hc⟩
      exact ⟨e, List.mem_append_left _ (List.mem_append_right _ he), hc⟩
  have hcommit : ∀ ok, CommitAnswered (before ++ h ++ after) ok ↔ CommitAnswered h ok := by
    intro ok
    constructor
    · intro he
      rcases List.mem_append.mp he with he | he
      · rcases List.mem_append.mp he with he | he
        · exact absurd (by simp [Cmd.channel]) (hb _ (List.mem_append_left _ he))
        · exact he
      · exact absurd (by simp [Cmd.channel]) (hb _ (List.mem_append_right _ he))
    · intro he
      exact List.mem_append_left _ (List.mem_append_right _ he)
  exact ⟨by rw [ht.committed, hcommit], by rw [ht.uncertain, hcommit],
    by rw [ht.rolledBack, hexec, hcommit, hcommit], by rw [ht.refused, hexec]⟩

/-! ### Stages that end a run refuse -/

/-- Whatever ends this stage early is a refusal. -/
abbrev Refuses {α : Type} (x : Stage α) : Prop :=
  Raises (fun outcome : Outcome => outcome.state = .refused) x

theorem raises_orRefuse {α : Type} {P : Outcome → Prop} {x : App α} {f : AppError → Outcome}
    (hf : ∀ e, P (f e)) : Raises P (orRefuse x f) := by
  intro h outcome hr
  obtain ⟨_, _, result, -, -, hk⟩ := Reaches.bind_ret_iff.mp hr
  rcases result with e | a
  · obtain ⟨-, hq⟩ := Reaches.ret_iff.mp hk
    cases hq
    exact hf e
  · obtain ⟨-, hq⟩ := Reaches.ret_iff.mp hk
    cases hq

theorem raises_insist {P : Outcome → Prop} {ok : Bool} {outcome : Outcome} (ho : P outcome) :
    Raises P (insist ok outcome) := by
  intro h o hr
  obtain ⟨-, hq⟩ := Reaches.ret_iff.mp hr
  cases ok
  · cases hq
    exact ho
  · cases hq

/-- Opening the session ends early without having read anything. -/
theorem openSession_raises {P : Outcome → Prop} (hP : ∀ reason, P (refuse reason none none))
    (plan : Plan) (options : DatabaseOptions) : Raises P (openSession X plan options) := by
  refine .bind (raises_insist (hP _)) fun _ => ?_
  refine .bind (raises_orRefuse fun _ => hP _) fun database => ?_
  refine .bind (raises_insist (hP _)) fun _ => .bind (.request _) fun started => ?_
  refine .bind (raises_insist (hP _)) fun _ => .bind (raises_orRefuse fun _ => hP _) fun _ => ?_
  exact .bind (.request _) fun locked => .bind (raises_insist (hP _)) fun _ => .pure _

theorem openSession_refuses (plan : Plan) (options : DatabaseOptions) :
    Refuses (openSession X plan options) :=
  openSession_raises X (fun _ => rfl) plan options

/-- What ends the comparisons early: a refusal, with the identity that was read
and the hash of the catalog, as far as they were known by then. -/
theorem checkDrift_error {plan : Plan} {analyzed : AnalyzedSql} {database : ConnectedDatabase}
    {o : Outcome} (hr : Reaches (checkDrift X plan analyzed database).run h (.ret (.error o))) :
    (∃ reason, o = refuse reason none none) ∨
      ∃ identity hi rest, h = hi ++ rest ∧
        Reaches (databaseIdentity database.endpointSha256).run hi (.ret (.ok identity)) ∧
        ∃ reason hash, (∀ s ∈ hash, ∃ m, s = sha256Bytes X m) ∧
          o = refuse reason (some identity) hash := by
  unfold checkDrift at hr
  rcases Reaches.run_bind_ret_iff.mp hr with ⟨_, he, hid⟩ | ⟨hi, rest, identity, rfl, hid, hr₁⟩
  · cases he
    exact .inl (raises_orRefuse (P := fun o => ∃ reason, o = refuse reason none none)
      (fun _ => ⟨_, rfl⟩) _ _ hid)
  refine .inr ⟨identity, hi, rest, rfl, ok_orRefuse.mp hid, ?_⟩
  -- behind the identity, and behind the hash
  have hearly : ∀ reason, ∃ r hash, (∀ s ∈ hash, ∃ m, s = sha256Bytes X m) ∧
      refuse reason (some identity) none = refuse r (some identity) hash :=
    fun reason => ⟨reason, none, by simp, rfl⟩
  refine (?_ : Raises (fun o => ∃ reason hash, (∀ s ∈ hash, ∃ m, s = sha256Bytes X m) ∧
    o = refuse reason (some identity) hash) _) _ _ hr₁
  refine .bind (raises_insist (hearly _)) fun _ => ?_
  refine .bind (raises_orRefuse fun _ => hearly _) fun evidence => ?_
  refine .bind_of_ok (raises_orRefuse fun _ => hearly _) fun _ schemaHash hschema => ?_
  have hhash := (ok_ofResult_last.mp (ok_orRefuse.mp hschema)).2
  rw [tableSchemaSha256, sha256Json, Except.ok.injEq] at hhash
  have hlate : ∀ reason, ∃ r hash, (∀ s ∈ hash, ∃ m, s = sha256Bytes X m) ∧
      refuse reason (some identity) (some schemaHash) = refuse r (some identity) hash :=
    fun reason => ⟨reason, some schemaHash, by simp [← hhash], rfl⟩
  refine .bind (raises_insist (hlate _)) fun _ => .bind (raises_orRefuse fun _ => hlate _) fun _ => ?_
  refine .bind (raises_orRefuse fun _ => hlate _) fun count => ?_
  refine .bind (raises_insist (hlate _)) fun _ => .bind (raises_insist (hlate _)) fun _ => ?_
  refine .bind (raises_orRefuse fun _ => hlate _) fun targetSet => ?_
  exact .bind (raises_insist (hlate _)) fun _ => .pure _

theorem checkDrift_refuses (plan : Plan) (analyzed : AnalyzedSql)
    (database : ConnectedDatabase) : Refuses (checkDrift X plan analyzed database) := by
  intro h o hr
  rcases checkDrift_error X hr with ⟨_, rfl⟩ | ⟨_, _, _, -, -, _, _, -, rfl⟩
  · rfl
  · rfl

/-! ### The decision -/

/-- A command sent while the outcome is being decided. -/
def DecisionCommand (plan : Plan) (c : Cmd) : Prop :=
  SessionCommand plan c ∨ c.channel ∈ [Channel.query, .execute, .finish]

/-- The statement, and then COMMIT or ROLLBACK. -/
theorem mutate_truthful {analyzed : AnalyzedSql} {observed : Observed}
    {r : Except Outcome Outcome} (hr : Reaches (mutate analyzed observed).run h (.ret r)) :
    ∃ outcome, r = .ok outcome ∧ Truthful h outcome.state := by
  unfold mutate at hr
  rw [request_bind] at hr
  obtain ⟨answer, t, rfl, ht⟩ := Reaches.call_ret_iff.mp hr
  unfold conclude at ht
  rcases hcounted : asCounted observed answer with - | affected <;> simp only [hcounted] at ht
  · -- rolled back, whatever ROLLBACK answered
    obtain ⟨undone, t, rfl, hdone⟩ := Reaches.call_ret_iff.mp ht
    obtain ⟨rfl, hq⟩ := Reaches.ret_iff.mp hdone
    cases hq
    refine ⟨_, rfl, ?_⟩
    rcases answer with error | n
    · constructor <;> simp [rollbackOutcome, CommitAnswered, Executed, Cmd.channel]
    · constructor <;> simp [rollbackOutcome, CommitAnswered, Executed, Cmd.channel]
  · obtain ⟨committed, t, rfl, hdone⟩ := Reaches.call_ret_iff.mp ht
    obtain ⟨rfl, hq⟩ := Reaches.ret_iff.mp hdone
    cases hq
    refine ⟨_, rfl, ?_⟩
    cases committed
    · constructor <;> simp [commitOutcome, CommitAnswered, Executed, Cmd.channel]
    · constructor <;> simp [commitOutcome, CommitAnswered, Executed, Cmd.channel]

/-- A refusal before the statement is truthful. -/
theorem truthful_refused {state : ReceiptState} (hs : state = .refused)
    (hh : ∀ e ∈ h, e.cmd.channel ∉ [Channel.execute, .finish]) : Truthful h state := by
  have hnone : Truthful [] state := by
    subst hs
    constructor <;> simp [CommitAnswered, Executed]
  have hall := hnone.frame h [] (by simpa using hh)
  simpa using hall

/-- **Decision.**  However the deciding part ends, its outcome is truthful, and
it has sent nothing but what deciding sends. -/
theorem transact_truthful {plan : Plan} {analyzed : AnalyzedSql} {options : DatabaseOptions}
    {r : Except Outcome Outcome}
    (hr : Reaches (transact X plan analyzed options).run h (.ret r)) :
    ∃ outcome, (r = .ok outcome ∨ r = .error outcome) ∧ Truthful h outcome.state ∧
      ∀ e ∈ h, DecisionCommand plan e.cmd := by
  -- what opens the session and what reads in it cannot commit
  have hsession : ∀ c, SessionCommand plan c → c.channel ∉ [Channel.execute, .finish] := by
    rintro c (hc | rfl | rfl)
    · exact Channel.apart hc rfl
    · exact Channel.apart (List.mem_singleton_self Channel.batch) rfl
    · exact Channel.apart (List.mem_singleton_self Channel.batch) rfl
  have hquery : ∀ c : Cmd, c.channel ∈ [Channel.query] →
      c.channel ∉ [Channel.execute, .finish] := fun c hc => Channel.apart hc rfl
  rcases Reaches.run_bind_ret_iff.mp hr with ⟨o, rfl, hopen⟩ | ⟨h₁, _, database, rfl, hopen, hr₁⟩
  · have hsent := (openSession_within X plan options).events hopen
    exact ⟨o, .inr rfl, truthful_refused (openSession_refuses X plan options _ _ hopen)
      fun e he => hsession _ (hsent e he), fun e he => .inl (hsent e he)⟩
  have hsent₁ := (openSession_within X plan options).events hopen
  rcases Reaches.run_bind_ret_iff.mp hr₁ with ⟨o, rfl, hcheck⟩ | ⟨h₂, h₃, observed, rfl, hcheck, hr₂⟩
  · have hsent₂ := Within.events (checkDrift_uses X analyzed plan database) hcheck
    refine ⟨o, .inr rfl, truthful_refused (checkDrift_refuses X plan analyzed database _ _ hcheck)
      fun e he => ?_, fun e he => ?_⟩
    · rcases List.mem_append.mp he with he | he
      · exact hsession _ (hsent₁ e he)
      · exact hquery _ (hsent₂ e he)
    · rcases List.mem_append.mp he with he | he
      · exact .inl (hsent₁ e he)
      · exact .inr (List.mem_append_left [Channel.execute, .finish] (hsent₂ e he))
  have hsent₂ := Within.events (checkDrift_uses X analyzed plan database) hcheck
  have hsent₃ := Within.events (mutate_uses analyzed observed) hr₂
  obtain ⟨outcome, rfl, ht⟩ := mutate_truthful hr₂
  refine ⟨outcome, .inl rfl, ?_, fun e he => ?_⟩
  · have hframe := ht.frame (h₁ ++ h₂) [] fun e he => by
      rw [List.append_nil] at he
      rcases List.mem_append.mp he with he | he
      · exact hsession _ (hsent₁ e he)
      · exact hquery _ (hsent₂ e he)
    simpa using hframe
  · rcases List.mem_append.mp he with he | he
    · exact .inl (hsent₁ e he)
    rcases List.mem_append.mp he with he | he
    · exact .inr (List.mem_append_left [Channel.execute, .finish] (hsent₂ e he))
    · exact .inr (List.mem_cons_of_mem _ (hsent₃ e he))

/-! ### What is recorded -/

/-- What a result records is what the run was told: the identity of a row that it
was sent, the SQLSTATE of an error of the statement, and the hash of a message. -/
structure Learned (h : History) (result : ReceiptResult) : Prop where
  database : ∀ identity ∈ result.database, ∃ config row,
    DatabaseIdentity.ofRow (endpointSha256 X config) row = some identity ∧
      ⟨.query identitySql [], ⟨[row], true⟩⟩ ∈ h
  sqlstate : ∀ code ∈ result.sqlstate, ∃ sql error,
    ⟨.execute sql, .error error⟩ ∈ h ∧ error.code = some code
  schema : ∀ hash ∈ result.tableSchemaSha256, ∃ message, hash = sha256Bytes X message

variable {X} in
theorem Learned.mono {result : ReceiptResult} (hrecorded : Learned X h result) {h' : History}
    (hsub : h ⊆ h') : Learned X h' result where
  database identity hidentity := by
    obtain ⟨config, row, hrow, he⟩ := hrecorded.database identity hidentity
    exact ⟨config, row, hrow, hsub he⟩
  sqlstate code hcode := by
    obtain ⟨sql, error, he, herror⟩ := hrecorded.sqlstate code hcode
    exact ⟨sql, error, hsub he, herror⟩
  schema := hrecorded.schema

/-- A refusal before anything was read. -/
theorem learned_nothing (reason : String) : Learned X h (refuse reason none none).result where
  database identity hidentity := by cases hidentity
  sqlstate code hcode := by cases hcode
  schema hash hhash := by cases hhash

/-- The statement adds its SQLSTATE to what was observed. -/
theorem mutate_learned {analyzed : AnalyzedSql} {observed : Observed}
    {outcome : Outcome} (hr : Reaches (mutate analyzed observed).run h (.ret (.ok outcome))) :
    outcome.result.database = some observed.identity ∧
      outcome.result.tableSchemaSha256 = some observed.schemaHash ∧
      ∀ code ∈ outcome.result.sqlstate, ∃ sql error,
        ⟨.execute sql, .error error⟩ ∈ h ∧ error.code = some code := by
  unfold mutate at hr
  rw [request_bind] at hr
  obtain ⟨answer, t, rfl, ht⟩ := Reaches.call_ret_iff.mp hr
  unfold conclude at ht
  rcases hcounted : asCounted observed answer with - | affected <;> simp only [hcounted] at ht
  · obtain ⟨undone, t, rfl, hdone⟩ := Reaches.call_ret_iff.mp ht
    obtain ⟨rfl, hq⟩ := Reaches.ret_iff.mp hdone
    cases hq
    rcases answer with error | n
    · exact ⟨rfl, rfl, fun code hcode => ⟨analyzed.normalized, error, by simp, hcode⟩⟩
    · exact ⟨rfl, rfl, fun code hcode => by cases hcode⟩
  · obtain ⟨committed, t, rfl, hdone⟩ := Reaches.call_ret_iff.mp ht
    obtain ⟨rfl, hq⟩ := Reaches.ret_iff.mp hdone
    cases hq
    cases committed
    · exact ⟨rfl, rfl, fun code hcode => by cases hcode⟩
    · exact ⟨rfl, rfl, fun code hcode => by cases hcode⟩

/-- However the deciding part ends, it records what it was told. -/
theorem transact_learned {plan : Plan} {analyzed : AnalyzedSql} {options : DatabaseOptions}
    {r : Except Outcome Outcome}
    (hr : Reaches (transact X plan analyzed options).run h (.ret r)) {outcome : Outcome}
    (houtcome : r = .ok outcome ∨ r = .error outcome) : Learned X h outcome.result := by
  rcases Reaches.run_bind_ret_iff.mp hr with ⟨o, rfl, hopen⟩ | ⟨h₁, _, database, rfl, hopen, hr₁⟩
  · obtain ⟨reason, rfl⟩ := openSession_raises X (P := fun o => ∃ reason, o = refuse reason none none)
      (fun _ => ⟨_, rfl⟩) plan options _ _ hopen
    rcases houtcome with hq | hq <;> cases hq
    exact learned_nothing X reason
  obtain ⟨-, -, _, hconnect, -⟩ := (openSession_ok X).mp hopen
  obtain ⟨_, parsed, -, -, -, -, rfl, -⟩ := (connectDatabase_ok X).mp hconnect
  rcases Reaches.run_bind_ret_iff.mp hr₁ with ⟨o, rfl, hcheck⟩ | ⟨h₂, h₃, observed, rfl, hcheck, hr₂⟩
  · rcases houtcome with hq | hq <;> cases hq
    rcases checkDrift_error X hcheck with
      ⟨reason, rfl⟩ | ⟨identity, hi, rest, rfl, hid, reason, hash, hhash, rfl⟩
    · exact learned_nothing X reason
    obtain ⟨row, hrow, rfl⟩ := databaseIdentity_ok.mp hid
    exact {
      database := fun identity hidentity => by
        cases hidentity
        exact ⟨clientConfig parsed, row, hrow, by simp⟩
      sqlstate := fun code hcode => by cases hcode
      schema := hhash }
  obtain ⟨hagrees, hi, _, _, _, hid, -, -, -, rfl⟩ := (checkDrift_ok X).mp hcheck
  obtain ⟨row, hrow, rfl⟩ := databaseIdentity_ok.mp hid
  obtain ⟨decided, rfl, -⟩ := mutate_truthful hr₂
  obtain ⟨hdatabase, hschema, hsqlstate⟩ := mutate_learned hr₂
  rcases houtcome with hq | hq <;> cases hq
  exact {
    database := fun identity hidentity => by
      rw [hdatabase] at hidentity
      cases hidentity
      exact ⟨clientConfig parsed, row, hrow, by simp⟩
    sqlstate := fun code hcode => by
      obtain ⟨sql, error, he, herror⟩ := hsqlstate code hcode
      exact ⟨sql, error, by simp [he], herror⟩
    schema := fun hash hhash => by
      rw [hschema] at hhash
      cases hhash
      have hhashed := hagrees.schemaHash
      rw [tableSchemaSha256, sha256Json, Except.ok.injEq] at hhashed
      exact ⟨_, hhashed.symm⟩ }

/-! ### The publication -/

/-- What a run returns, once the terminal event is written or is not. -/
def report (journal : ReceiptJournal) (outcome : Outcome) :
    Except AppError ReceiptEvent → Except AppError ApplyResult
  | .ok event => .ok {
      schemaVersion := "dmlpact.apply-result.v1"
      receiptId := journal.receiptId
      state := outcome.state
      planSha256 := event.planSha256
      affectedRows := outcome.result.affectedRows
      reasonCode := outcome.result.reasonCode
      receiptPath := Str.fromUtf8Lossy journal.path }
  | .error error => .error (match outcome.state with
      | .committed => committedReceiptFinalizationUncertain
      | .uncertain => commitReceiptFinalizationUncertain
      | _ => error)

theorem finish_ret {journal : ReceiptJournal} {state : ReceiptState} {result : ReceiptResult}
    {r : Except AppError ApplyResult}
    (hr : Reaches (finish X journal state result).run h (.ret r)) :
    ∃ published, Reaches (journal.finalize X state result).run h (.ret published) ∧
      (∀ e, published = .error e → r = .error e) ∧
      ∀ event, published = .ok event → r = report journal ⟨state, result⟩ (.ok event) := by
  unfold finish at hr
  rcases Reaches.run_bind_ret_iff.mp hr with ⟨e, rfl, hf⟩ | ⟨h₁, h₂, event, rfl, hf, hdone⟩
  · exact ⟨.error e, hf, fun _ he => by cases he; rfl, fun _ he => by cases he⟩
  · obtain ⟨rfl, hq⟩ := Reaches.ret_iff.mp hdone
    cases hq
    rw [List.append_nil]
    exact ⟨.ok event, hf, fun _ he => (by cases he), fun _ he => by cases he; rfl⟩

theorem mapErr_ret {α : Type} {x : App α} {error : AppError} {r : Except AppError α}
    (hr : Reaches (mapErr x error).run h (.ret r)) :
    ∃ r', Reaches x.run h (.ret r') ∧ (∀ a, r' = .ok a → r = .ok a) ∧
      ∀ e, r' = .error e → r = .error error := by
  unfold mapErr at hr
  rw [run_bind, run_attempt, Prog.bind_assoc] at hr
  obtain ⟨h₁, h₂, r', rfl, hx, hdone⟩ := Reaches.bind_ret_iff.mp hr
  refine ⟨r', ?_⟩
  rcases r' with e | a
  · obtain ⟨rfl, hq⟩ := Reaches.ret_iff.mp hdone
    cases hq
    rw [List.append_nil]
    exact ⟨hx, fun _ he => (by cases he), fun _ _ => rfl⟩
  · obtain ⟨rfl, hq⟩ := Reaches.ret_iff.mp hdone
    cases hq
    rw [List.append_nil]
    exact ⟨hx, fun _ he => (by cases he; rfl), fun _ he => by cases he⟩

/-- Publishing is one finalization, and the report of how it went. -/
theorem finishOutcome_ret {journal : ReceiptJournal} {outcome : Outcome}
    {r : Except AppError ApplyResult}
    (hr : Reaches (finishOutcome X journal outcome).run h (.ret r)) :
    ∃ published, Reaches (journal.finalize X outcome.state outcome.result).run h
        (.ret published) ∧ r = report journal outcome published := by
  obtain ⟨state, result⟩ := outcome
  -- the two finishers that replace the error
  have hmapped : ∀ error, Reaches (mapErr (finish X journal state result) error).run h (.ret r) →
      (∀ e, report journal ⟨state, result⟩ (.error e) = .error error) →
      ∃ published, Reaches (journal.finalize X state result).run h (.ret published) ∧
        r = report journal ⟨state, result⟩ published := by
    intro error hrun hreport
    obtain ⟨r', hfinish, hok, herr⟩ := mapErr_ret hrun
    obtain ⟨published, hf, hfail, hdone⟩ := finish_ret X hfinish
    refine ⟨published, hf, ?_⟩
    rcases published with e | event
    · rw [herr e (hfail e rfl), hreport]
    · exact hok _ (hdone event rfl)
  have hplain : Reaches (finish X journal state result).run h (.ret r) →
      (∀ e, report journal ⟨state, result⟩ (.error e) = .error e) →
      ∃ published, Reaches (journal.finalize X state result).run h (.ret published) ∧
        r = report journal ⟨state, result⟩ published := by
    intro hrun hreport
    obtain ⟨published, hf, hfail, hdone⟩ := finish_ret X hrun
    refine ⟨published, hf, ?_⟩
    rcases published with e | event
    · rw [hfail e rfl, hreport]
    · exact hdone event rfl
  cases state
  case committed => exact hmapped _ hr fun _ => rfl
  case uncertain => exact hmapped _ hr fun _ => rfl
  all_goals exact hplain hr fun _ => rfl

theorem settle_ret {journal : ReceiptJournal} {x : Stage Outcome}
    {r : Except AppError ApplyResult} (hr : Reaches (settle X journal x).run h (.ret r)) :
    ∃ h₁ h₂ decided, h = h₁ ++ h₂ ∧ Reaches x.run h₁ (.ret decided) ∧
      ∀ outcome, decided = .ok outcome ∨ decided = .error outcome →
        Reaches (finishOutcome X journal outcome).run h₂ (.ret r) := by
  obtain ⟨h₁, h₂, decided, rfl, hx, hfinish⟩ := Reaches.bind_ret_iff.mp hr
  refine ⟨h₁, h₂, decided, rfl, hx, ?_⟩
  rintro outcome (rfl | rfl)
  · exact hfinish
  · exact hfinish

/-- The codes of the errors a finalization can end in. -/
def finalizeCodes : List String :=
  ["receipt_final_state_invalid", "clock_before_epoch", "clock_out_of_range",
    "receipt_write_failed"]

theorem finalize_raises (journal : ReceiptJournal) (state : ReceiptState)
    (result : ReceiptResult) :
    Raises (fun error : AppError => error.code ∈ finalizeCodes)
      (journal.finalize X state result) := by
  have hclock : Raises (fun error : AppError => error.code ∈ finalizeCodes) unixMs := by
    refine .bind (.request _) fun time => ?_
    rcases time with - | ms
    · exact .throw (by simp [finalizeCodes])
    · exact .ite (.pure _) (.throw (by simp [finalizeCodes]))
  have hwrite : ∀ event, Raises (fun error : AppError => error.code ∈ finalizeCodes)
      (writeEvent journal.path event) := by
    intro event
    refine .bind (.bind (.request _) fun written => ?_) fun durable => ?_
    · rcases written with - | n
      · exact .request _
      · exact .pure _
    · cases durable
      · exact .throw (by simp [finalizeCodes, receiptWriteFailed])
      · exact .pure _
  refine .ite (.throw (by simp [finalizeCodes, contract])) (.bind hclock fun timestamp => ?_)
  refine .bind ?_ fun event => .bind (hwrite event) fun _ => .pure _
  rw [sealEvent_eq]
  exact Raises.pure _

/-! ### The prepared event -/

/-- The receipt was created, and the first line written to it was synced.  In a run
of apply that line is the prepared event. -/
def FirstLineSynced (path : Path) (h : History) : Prop :=
  ∃ line, [⟨.createNew path, true⟩, ⟨.writeAll path line, .done⟩, ⟨.syncAll path, true⟩] <:+: h

theorem FirstLineSynced.mem {path : Path} (hp : FirstLineSynced path h) :
    (⟨.createNew path, true⟩ : Event Cmd Reply) ∈ h ∧
      (⟨.syncAll path, true⟩ : Event Cmd Reply) ∈ h := by
  obtain ⟨line, hinfix⟩ := hp
  have hsub := hinfix.subset
  exact ⟨hsub (by simp), hsub (by simp)⟩

/-- A receipt that was not created, or not written to, has not been synced. -/
theorem create_failed {path : Path} {plan : Plan} {sqlFileSha256 : String} {error : AppError}
    (hr : Reaches (ReceiptJournal.create X path plan sqlFileSha256).run h
      (.ret (.error error))) :
    (⟨.syncAll path, true⟩ : Event Cmd Reply) ∉ h := by
  unfold ReceiptJournal.create at hr
  -- every way to fail ends before the sync, or with a failed one
  rcases Reaches.run_bind_ret_iff.mp hr with ⟨_, -, hv⟩ | ⟨h₁, h₂, planSha256, rfl, hv, hr₁⟩
  · obtain ⟨rfl, -⟩ := Reaches.ret_iff.mp hv
    exact List.not_mem_nil
  obtain ⟨rfl, -⟩ := Reaches.ret_iff.mp hv
  rw [List.nil_append]
  rcases Reaches.run_bind_ret_iff.mp hr₁ with ⟨_, -, ht⟩ | ⟨h₃, h₄, t, rfl, ht, hr₂⟩
  · intro he
    exact absurd (Within.events unixMs_uses ht _ he) (by simp [Cmd.channel])
  rw [unixMs_ok.mp ht]
  rcases Reaches.run_bind_ret_iff.mp hr₂ with ⟨_, -, hs⟩ | ⟨h₅, h₆, prepared, rfl, hs, hr₃⟩
  · obtain ⟨-, hq⟩ := Reaches.ret_iff.mp hs
    cases hq
  obtain ⟨rfl, -⟩ := Reaches.ret_iff.mp hs
  rw [request_bind] at hr₃
  obtain ⟨created, h₇, rfl, hr₄⟩ := Reaches.call_ret_iff.mp hr₃
  cases created
  · obtain ⟨rfl, -⟩ := Reaches.ret_iff.mp hr₄
    simp
  rcases Reaches.run_bind_ret_iff.mp hr₄ with ⟨_, -, hw⟩ | ⟨_, _, _, -, -, hdone⟩
  swap
  · obtain ⟨-, hq⟩ := Reaches.ret_iff.mp hdone
    cases hq
  rcases Reaches.run_bind_ret_iff.mp hw with ⟨_, -, hd⟩ | ⟨h₈, h₉, durable, rfl, hd, hr₅⟩
  · obtain ⟨written, _, rfl, hd'⟩ := Reaches.call_ret_iff.mp hd
    rcases written with - | n
    · obtain ⟨_, _, -, hq⟩ := Reaches.call_ret_iff.mp hd'
      obtain ⟨-, hq⟩ := Reaches.ret_iff.mp hq
      cases hq
    · obtain ⟨-, hq⟩ := Reaches.ret_iff.mp hd'
      cases hq
  cases durable
  swap
  · obtain ⟨-, hq⟩ := Reaches.ret_iff.mp hr₅
    cases hq
  obtain ⟨rfl, -⟩ := Reaches.ret_iff.mp hr₅
  unfold writeDurably at hd
  rw [request_bind] at hd
  obtain ⟨written, _, rfl, hd'⟩ := Reaches.call_ret_iff.mp hd
  rcases written with - | n
  · rw [ok_request_last.mp hd']
    simp
  · obtain ⟨rfl, -⟩ := ok_pure.mp hd'
    simp

/-- **Admission.**  A run that returns after its prepared event was durable has
created its journal, and then run `applyAfterReceipt` to the end. -/
theorem applyPlan_prepared {options : ApplyOptions} {r : Except AppError ApplyResult}
    (hr : Reaches (applyPlan X options).run h (.ret r))
    (hp : FirstLineSynced options.receiptPath h) :
    ∃ plan planBytes analyzed journal admission created rest,
      h = admission ++ created ++ rest ∧
      ⟨.read options.planPath, some planBytes⟩ ∈ admission ∧ decodePlan X planBytes = .ok plan ∧
      (∃ raw, analyzeSql X raw = .ok analyzed) ∧
      (∀ e ∈ admission, e.cmd.channel ∈ [Channel.read, .clock]) ∧
      Reaches (ReceiptJournal.create X options.receiptPath plan analyzed.sqlFileSha256).run
        created (.ret (.ok journal)) ∧
      Reaches (applyAfterReceipt X journal plan analyzed options.database).run rest
        (.ret r) := by
  obtain ⟨hmade, hsynced⟩ := hp.mem
  -- a run that is still reading has created nothing
  have hreading : ∀ {t : History}, (∀ e ∈ t, e.cmd.channel ∈ [Channel.read, .clock]) →
      ⟨.createNew options.receiptPath, true⟩ ∉ t := by
    intro t ht he
    exact absurd (ht _ he) (by simp [Cmd.channel])
  have hread : ∀ {α : Type} {x : App α} {t : History} {q}, Uses [.read] x.run →
      Reaches x.run t q → ∀ e ∈ t, e.cmd.channel ∈ [Channel.read, .clock] := by
    intro α x t q hx hrun
    exact Within.events (Uses.mono hx (by simp)) hrun
  unfold applyPlan at hr
  rcases Reaches.run_bind_ret_iff.mp hr with ⟨_, -, hplan⟩ | ⟨h₁, _, plan, rfl, hplan, hr₁⟩
  · exact absurd hmade (hreading (hread (readPlan_uses X _) hplan))
  have hevents₁ := hread (readPlan_uses X _) hplan
  obtain ⟨metadata, planBytes, rfl, -, hdecoded⟩ := (readPlan_ok X).mp hplan
  rcases Reaches.run_bind_ret_iff.mp hr₁ with ⟨_, -, hl⟩ | ⟨_, _, _, rfl, hl, hr₂⟩
  · obtain ⟨rfl, -⟩ := Reaches.ret_iff.mp hl
    rw [List.append_nil] at hmade
    exact absurd hmade (hreading hevents₁)
  obtain ⟨rfl, -⟩ := Reaches.ret_iff.mp hl
  rw [List.nil_append] at *
  rcases Reaches.run_bind_ret_iff.mp hr₂ with ⟨_, -, hsql⟩ | ⟨h₂, _, analyzed, rfl, hsql, hr₃⟩
  · refine absurd hmade (hreading fun e he => ?_)
    rcases List.mem_append.mp he with he | he
    · exact hevents₁ e he
    · exact hread (readAndAnalyze_uses X _) hsql e he
  have hevents₂ := hread (readAndAnalyze_uses X _) hsql
  obtain ⟨_, _, text, -, -, -, -, hanalyzed⟩ := (readAndAnalyze_ok X).mp hsql
  rcases Reaches.run_bind_ret_iff.mp hr₃ with ⟨_, -, hb⟩ | ⟨_, _, _, rfl, hb, hr₄⟩
  · obtain ⟨rfl, -⟩ := Reaches.ret_iff.mp hb
    refine absurd hmade (hreading fun e he => ?_)
    rw [List.append_nil] at he
    rcases List.mem_append.mp he with he | he
    · exact hevents₁ e he
    · exact hevents₂ e he
  obtain ⟨rfl, -⟩ := Reaches.ret_iff.mp hb
  have hevents₃ : ∀ {t : History}, (∀ e ∈ t, e.cmd.channel ∈ [Channel.clock]) →
      ∀ e ∈ [⟨.metadata options.planPath, some metadata⟩,
        ⟨.read options.planPath, some planBytes⟩] ++ (h₂ ++ t),
        e.cmd.channel ∈ [Channel.read, .clock] := by
    intro t ht e he
    rcases List.mem_append.mp he with he | he
    · exact hevents₁ e he
    rcases List.mem_append.mp he with he | he
    · exact hevents₂ e he
    · exact List.mem_cons_of_mem _ (ht e he)
  rcases Reaches.run_bind_ret_iff.mp hr₄ with ⟨_, -, hn⟩ | ⟨h₃, h₄, now, rfl, hn, hr₅⟩
  · exact absurd hmade (hreading (hevents₃ (Within.events unixMs_uses hn)))
  have hclock := Within.events unixMs_uses hn
  split_ifs at hr₅ with hexpired
  · obtain ⟨rfl, -⟩ := Reaches.ret_iff.mp hr₅
    rw [List.append_nil, List.nil_append] at hmade
    exact absurd hmade (hreading (hevents₃ hclock))
  rcases Reaches.run_bind_ret_iff.mp hr₅ with ⟨_, -, hc⟩ | ⟨created, rest, journal, rfl, hc, hr₆⟩
  · -- the prepared event was not written, so nothing was synced
    refine absurd hsynced fun he => ?_
    rw [List.nil_append, ← List.append_assoc h₂, ← List.append_assoc] at he
    rcases List.mem_append.mp he with he | he
    · exact absurd (hevents₃ hclock _ he) (by simp [Cmd.channel])
    · exact create_failed X hc he
  · exact ⟨plan, planBytes, analyzed, journal, _, created, rest, by simp, by simp, hdecoded,
      ⟨_, hanalyzed⟩, hevents₃ hclock, hc, hr₆⟩

/-- A run that returns a result has made its prepared event durable. -/
theorem firstLineSynced_of_ok {options : ApplyOptions} {result : ApplyResult}
    (hr : Reaches (applyPlan X options).run h (.ret (.ok result))) :
    FirstLineSynced options.receiptPath h := by
  unfold applyPlan at hr
  obtain ⟨h₁, _, plan, rfl, -, hr₁⟩ := Reaches.run_bind_ok_iff.mp hr
  obtain ⟨h₂, _, _, rfl, -, hr₂⟩ := Reaches.run_bind_ok_iff.mp hr₁
  obtain ⟨h₃, _, analyzed, rfl, -, hr₃⟩ := Reaches.run_bind_ok_iff.mp hr₂
  obtain ⟨h₄, _, _, rfl, -, hr₄⟩ := Reaches.run_bind_ok_iff.mp hr₃
  obtain ⟨h₅, _, now, rfl, -, hr₅⟩ := Reaches.run_bind_ok_iff.mp hr₄
  obtain ⟨-, hopen⟩ := ok_unless.mp hr₅
  obtain ⟨h₆, rest, journal, rfl, hcreate, -⟩ := Reaches.run_bind_ok_iff.mp hopen
  obtain ⟨_, t, -, -, rfl⟩ := (create_ok X).mp hcreate
  exact ⟨eventLine journal.prepared,
    h₁ ++ (h₂ ++ (h₃ ++ (h₄ ++ (h₅ ++ [⟨.now, some t.toNat⟩])))), rest, by simp⟩

/-! ### The outcome -/

variable (conforming : Bool)

/-- What is assumed of the database and one of its tables: effects become
durable only by a command that may commit, COMMIT makes them durable when it
is answered so, and without that the table is as it was. -/
structure Durability (Table : Type) where
  durable : History → Prop
  table : History → Table
  of_durable : ∀ h, durable h → ∃ e ∈ h, e.cmd.mayCommit conforming
  of_commit : ∀ h, CommitAnswered h true → durable h
  unchanged : ∀ h, ¬ durable h → table h = table []

/-- The plan names its table as planning writes it. -/
def Plan.Canonical (plan : Plan) : Prop :=
  ∃ schema table, plan.preconditions.canonicalTable =
    quoteIdentifier schema ++ "." ++ quoteIdentifier table

/-- What a command of the given channels can commit. -/
theorem channel_of_mayCommit {c : Cmd} (hc : c.mayCommit conforming) :
    c.channel ∈ [Channel.batch, .finish] := by
  cases c
  case commit => exact List.contains_iff_mem.mp rfl
  case batchExecute => exact List.contains_iff_mem.mp rfl
  all_goals exact hc.elim

/-- Nothing a canonical plan's run sends while deciding may commit, COMMIT
apart. -/
theorem decision_harmless {plan : Plan} (hplan : plan.Canonical) {c : Cmd}
    (hc : DecisionCommand plan c) (hm : c.mayCommit conforming) : c = .commit := by
  obtain ⟨schema, table, hname⟩ := hplan
  have hchannel := channel_of_mayCommit conforming hm
  rcases hc with (hc | rfl | rfl) | hc
  · exact absurd hchannel (Channel.apart hc rfl)
  · exact absurd hm (timeoutSettings_harmless conforming plan.limits)
  · rw [hname] at hm
    exact absurd hm (lockText_harmless conforming schema table)
  · cases c <;> simp [Cmd.channel] at hc
    case rollback => exact hm.elim
    case commit => rfl
    all_goals exact hm.elim

/-- The parts of a run that has settled: what it read, the journal it created,
what it decided, and how the finalization went. -/
structure Settled (options : ApplyOptions) (h : History) (r : Except AppError ApplyResult)
    (plan : Plan) (journal : ReceiptJournal) (outcome : Outcome)
    (published : Except AppError ReceiptEvent)
    (admission created deciding publishing : History) : Prop where
  split : h = admission ++ created ++ deciding ++ publishing
  plan_read : ∃ planBytes, ⟨.read options.planPath, some planBytes⟩ ∈ admission ∧
    decodePlan X planBytes = .ok plan
  path : journal.path = options.receiptPath
  prepared : ∃ (sealHash sqlFileSha256 : String) (t : UInt64),
    journal.prepared = sealedWith X (preparedEvent X sealHash sqlFileSha256 t) ∧
    created = [⟨.now, some t.toNat⟩, ⟨.createNew options.receiptPath, true⟩,
      ⟨.writeAll options.receiptPath (eventLine journal.prepared), .done⟩,
      ⟨.syncAll options.receiptPath, true⟩]
  reads : ∀ e ∈ admission, e.cmd.channel ∈ [Channel.read, .clock]
  sends : ∀ e ∈ deciding, DecisionCommand plan e.cmd
  finalized : Reaches (journal.finalize X outcome.state outcome.result).run publishing
    (.ret published)
  truthful : Truthful h outcome.state
  hashed : ∃ m m', journal.prepared.planSha256 = sha256Bytes X m ∧
    journal.prepared.sqlFileSha256 = sha256Bytes X m'
  recorded : Learned X h outcome.result
  reported : r = report journal outcome published

/-- A run that returns after its prepared event was durable has settled. -/
theorem applyPlan_settled {options : ApplyOptions} {r : Except AppError ApplyResult}
    (hr : Reaches (applyPlan X options).run h (.ret r))
    (hp : FirstLineSynced options.receiptPath h) :
    ∃ plan journal outcome published admission created deciding publishing,
      Settled X options h r plan journal outcome published admission created deciding
        publishing := by
  obtain ⟨plan, planBytes, analyzed, journal, admission, created, rest, rfl, hread, hdecoded,
    ⟨raw, hraw⟩, hadmission, hcreate, hafter⟩ := applyPlan_prepared X hr hp
  rw [applyAfterReceipt_eq] at hafter
  obtain ⟨deciding, publishing, decided, rfl, hdecide, hpublish⟩ := settle_ret X hafter
  obtain ⟨outcome, houtcome, htruth, hsent⟩ := transact_truthful X hdecide
  obtain ⟨published, hfinal, hreport⟩ := finishOutcome_ret X (hpublish outcome houtcome)
  have hrecorded := transact_learned X hdecide houtcome
  obtain ⟨sealHash, t, hverified, hjournal, hcreated⟩ := (create_ok X).mp hcreate
  obtain ⟨_, _, -, -, -, hanalyzed⟩ := analyzeSql_ok X hraw
  have hcreating := Within.events (create_uses X _ _ _) hcreate
  have hpublishing := Within.events (finalize_uses X _ _ _) hfinal
  -- the commands around the decision neither execute nor finish
  have hframe : ∀ e ∈ (admission ++ created) ++ publishing,
      e.cmd.channel ∉ [Channel.execute, .finish] := by
    intro e he
    rcases List.mem_append.mp he with he | he
    · rcases List.mem_append.mp he with he | he
      · exact Channel.apart (hadmission e he) rfl
      · exact Channel.apart (hcreating e he) rfl
    · exact Channel.apart (hpublishing e he) rfl
  have hwhole : admission ++ created ++ (deciding ++ publishing) =
      admission ++ created ++ deciding ++ publishing := by simp
  rw [hwhole]
  exact ⟨plan, journal, outcome, published, admission, created, deciding, publishing, {
    split := rfl
    plan_read := ⟨planBytes, hread, hdecoded⟩
    path := by rw [hjournal]
    prepared := ⟨sealHash, analyzed.sqlFileSha256, t, by rw [hjournal], hcreated⟩
    reads := hadmission
    sends := hsent
    finalized := hfinal
    truthful := htruth.frame (admission ++ created) publishing hframe
    hashed := by
      rw [hjournal]
      exact ⟨_, _, (verifiedPlanSha256_ok X hverified).2, by rw [hanalyzed]; rfl⟩
    recorded := hrecorded.mono fun e he => by simp [he]
    reported := hreport }⟩

namespace Settled

variable {X} {options : ApplyOptions} {r : Except AppError ApplyResult} {plan : Plan}
  {journal : ReceiptJournal} {outcome : Outcome} {published : Except AppError ReceiptEvent}
  {admission created deciding publishing : History}
  (s : Settled X options h r plan journal outcome published admission created deciding publishing)

include s

/-- Under a canonical plan only COMMIT itself may commit. -/
theorem commit_of_mayCommit (hplan : plan.Canonical) {e : Event Cmd Reply} (he : e ∈ h)
    (hm : e.cmd.mayCommit conforming) : e.cmd = .commit := by
  have hchannel := channel_of_mayCommit conforming hm
  have hpublishing := Within.events (finalize_uses X _ _ _) s.finalized
  rw [s.split] at he
  rcases List.mem_append.mp he with he | he
  · rcases List.mem_append.mp he with he | he
    · rcases List.mem_append.mp he with he | he
      · exact absurd hchannel (Channel.apart (s.reads e he) rfl)
      · -- the four commands of the creation
        obtain ⟨_, _, t, -, hcreated⟩ := s.prepared
        rw [hcreated] at he
        simp only [List.mem_cons, List.not_mem_nil, or_false] at he
        rcases he with rfl | rfl | rfl | rfl <;> exact hm.elim
    · exact decision_harmless conforming hplan (s.sends e he) hm
  · exact absurd hchannel (Channel.apart (hpublishing e he) rfl)

/-- A refused or rolled back run leaves the table as it was. -/
theorem unchanged (hplan : plan.Canonical) {Table : Type} (server : Durability conforming Table)
    (hs : outcome.state = .refused ∨ outcome.state = .rolledBack) :
    server.table h = server.table [] := by
  refine server.unchanged _ fun hdurable => ?_
  obtain ⟨e, he, hm⟩ := server.of_durable _ hdurable
  have hcommit := s.commit_of_mayCommit conforming hplan he hm
  obtain ⟨c, answer⟩ := e
  cases hcommit
  cases answer
  · have hu := s.truthful.uncertain.mpr he
    rcases hs with hs | hs <;> rw [hs] at hu <;> cases hu
  · have hc := s.truthful.committed.mpr he
    rcases hs with hs | hs <;> rw [hs] at hc <;> cases hc

/-- An error of a settled run is the finalization's, and says what became of
COMMIT. -/
theorem error_code {e : AppError} (he : r = .error e) :
    (∃ e', published = .error e') ∧
      (e.code = "committed_receipt_finalization_uncertain" ↔ CommitAnswered h true) ∧
      (e.code = "commit_receipt_finalization_uncertain" ↔ CommitAnswered h false) := by
  have hreport := s.reported
  rw [he] at hreport
  rw [← s.truthful.committed, ← s.truthful.uncertain]
  rcases published with e' | event
  · have hcode := finalize_raises X journal outcome.state outcome.result _ e' s.finalized
    cases hreport
    refine ⟨⟨e', rfl⟩, ?_⟩
    rcases outcome with ⟨state, result⟩
    cases state
    case committed => simp [committedReceiptFinalizationUncertain, contract]
    case uncertain => simp [commitReceiptFinalizationUncertain, contract]
    all_goals
      simp only [finalizeCodes, List.mem_cons, List.not_mem_nil, or_false] at hcode
      rcases hcode with hcode | hcode | hcode | hcode <;> simp [hcode]
  · cases hreport

end Settled

/-- **True outcome.**  A run that returns after its prepared event was durable
decided one outcome and attempted one finalization of it.  The recorded state
is truthful; the table is untouched unless it is `committed` or `uncertain`;
and the run fails only if the finalization did, with the code that says what
became of COMMIT. -/
theorem applyPlan_outcome {options : ApplyOptions} {r : Except AppError ApplyResult}
    (hr : Reaches (applyPlan X options).run h (.ret r))
    (hp : FirstLineSynced options.receiptPath h) :
    ∃ (plan : Plan) (journal : ReceiptJournal) (outcome : Outcome)
      (published : Except AppError ReceiptEvent)
      (admission created deciding publishing : History),
      h = admission ++ created ++ deciding ++ publishing ∧
      -- the plan that was read, and the journal of the prepared event
      (∃ planBytes, ⟨.read options.planPath, some planBytes⟩ ∈ admission ∧
        decodePlan X planBytes = .ok plan) ∧
      (journal.path = options.receiptPath ∧ ∃ t : UInt64, created =
        [⟨.now, some t.toNat⟩, ⟨.createNew options.receiptPath, true⟩,
          ⟨.writeAll options.receiptPath (eventLine journal.prepared), .done⟩,
          ⟨.syncAll options.receiptPath, true⟩]) ∧
      -- one finalization, and nothing else that touches the clock or a file
      (∀ e ∈ admission, e.cmd.channel ∈ [Channel.read, .clock]) ∧
      (∀ e ∈ deciding, e.cmd.channel ∉ [Channel.clock, .read, .write]) ∧
      Reaches (journal.finalize X outcome.state outcome.result).run publishing
        (.ret published) ∧
      -- the state it records
      Truthful h outcome.state ∧
      (plan.Canonical → ∀ (Table : Type) (server : Durability conforming Table),
        (outcome.state = .committed → server.durable h) ∧
        (outcome.state = .refused ∨ outcome.state = .rolledBack →
          server.table h = server.table [])) ∧
      -- what the run returns
      r = report journal outcome published ∧
      (∀ e, r = .error e → (∃ e', published = .error e') ∧
        (e.code = "committed_receipt_finalization_uncertain" ↔ CommitAnswered h true) ∧
        (e.code = "commit_receipt_finalization_uncertain" ↔ CommitAnswered h false)) := by
  obtain ⟨plan, journal, outcome, published, admission, created, deciding, publishing, s⟩ :=
    applyPlan_settled X hr hp
  obtain ⟨_, _, t, -, hcreated⟩ := s.prepared
  refine ⟨plan, journal, outcome, published, admission, created, deciding, publishing, s.split,
    s.plan_read, ⟨s.path, t, hcreated⟩, s.reads, ?_, s.finalized, s.truthful, ?_, s.reported,
    fun e he => s.error_code he⟩
  · intro e he
    rcases s.sends e he with (hc | hc | hc) | hc
    · exact Channel.apart hc rfl
    · rw [hc]
      exact Channel.apart (List.mem_singleton_self Channel.batch) rfl
    · rw [hc]
      exact Channel.apart (List.mem_singleton_self Channel.batch) rfl
    · exact Channel.apart hc rfl
  · intro hplan Table server
    exact ⟨fun hs => server.of_commit _ (s.truthful.committed.mp hs),
      s.unchanged conforming hplan server⟩

/-- In the run of an approval the prepared event is durable. -/
theorem Approval.firstLineSynced {X : Crates} {options : ApplyOptions} (a : Approval X options)
    (t : History) : FirstLineSynced options.receiptPath (a.history ++ t) := by
  refine ⟨eventLine a.prepared, a.admissionHistory ++ [⟨.now, some a.preparedAt.toNat⟩],
    a.connectionHistory ++ sessionHistory a.plan ++ a.driftHistory ++ t, ?_⟩
  simp [history, Admission.receiptHistory]

/-- The plan of an approval names its table as planning does. -/
theorem Approval.names_canonically {X : Crates} {options : ApplyOptions} (a : Approval X options) :
    a.plan.Canonical :=
  ⟨a.observed.evidence.schema, a.observed.evidence.table, a.agrees.table.symm⟩

namespace Sample

/-- Was a COMMIT acknowledged? -/
def acknowledged (h : History) : Bool :=
  h.any fun
    | ⟨.commit, true⟩ => true
    | _ => false

/-- The statements that were executed without an error. -/
def executedTexts (h : History) : List String :=
  h.filterMap fun
    | ⟨.execute sql, .ok _⟩ => some sql
    | _ => none

theorem acknowledged_iff {h : History} : acknowledged h = true ↔ CommitAnswered h true := by
  rw [acknowledged, List.any_eq_true]
  constructor
  · rintro ⟨⟨c, r⟩, he, hc⟩
    cases c
    case commit =>
      cases r
      · cases hc
      · exact he
    all_goals cases hc
  · exact fun he => ⟨_, he, rfl⟩

/-- A database whose table is the list of the statements committed on it. -/
def database : Durability true (List String) where
  durable h := CommitAnswered h true
  table h := if acknowledged h then executedTexts h else []
  of_durable _ hdurable := ⟨_, hdurable, trivial⟩
  of_commit _ hcommit := hcommit
  unchanged h hnot := by
    rw [if_neg fun hack => hnot (acknowledged_iff.mp hack)]
    rfl

/-- The server ends the statement with an error. -/
def statementTimeout : DbError := ⟨some "57014"⟩

/-- The only plan that a run of the approval reads. -/
theorem planBytes_of_read {bytes : Utf8.Bytes} {t : History} (ht : ∀ e ∈ t, e.cmd.channel ≠ .read)
    (hread : ⟨.read options.planPath, some bytes⟩ ∈ approval.history ++ t) :
    bytes = approval.planBytes := by
  rcases List.mem_append.mp hread with hread | hread
  swap
  · exact absurd rfl (ht _ hread)
  rcases List.mem_append.mp hread with hread | hread
  · simpa [Admission.admissionHistory, options] using hread
  -- recording and deciding read no file
  rcases List.mem_append.mp hread with hread | hread
  · simp [Admission.receiptHistory] at hread
  · exact absurd (approval.channel_of_deciding hread) (by simp [Cmd.channel])

end Sample

/-- One run that commits, and one whose statement fails. -/
theorem applyPlan_outcome_sample :
    (Truthful (Sample.approval.committedHistory 3) .committed ∧
      Sample.database.durable (Sample.approval.committedHistory 3)) ∧
    Truthful (Sample.approval.rolledBackHistory Sample.statementTimeout 3) .rolledBack ∧
      Sample.database.table (Sample.approval.rolledBackHistory Sample.statementTimeout 3) =
        Sample.database.table [] := by
  have hplan {bytes : Utf8.Bytes} {plan : Plan} {t : History}
      (hread : ⟨.read Sample.options.planPath, some bytes⟩ ∈ Sample.approval.history ++ t)
      (ht : ∀ e ∈ t, e.cmd.channel ≠ .read)
      (hdecoded : decodePlan Sample.crates bytes = .ok plan) : plan.Canonical := by
    rw [Sample.planBytes_of_read ht hread, Sample.approval.plan_decoded] at hdecoded
    cases hdecoded
    exact Sample.approval.names_canonically
  constructor
  · obtain ⟨_, _, outcome, published, admission, created, deciding, publishing, hsplit,
        ⟨bytes, hread, hdecoded⟩, _, _, _, _, htruth, hserver, hreport, _⟩ :=
      applyPlan_outcome Sample.crates true (Sample.approval.reaches_committed 3)
        (Sample.approval.firstLineSynced _)
    rcases published with e | event
    · cases hreport
    have hstate : outcome.state = .committed :=
      (congrArg ApplyResult.state (Except.ok.inj hreport)).symm
    have hmem : ⟨.read Sample.options.planPath, some bytes⟩ ∈ Sample.approval.committedHistory 3 := by
      rw [hsplit]
      simp [hread]
    have hcanonical := hplan hmem (by simp [Cmd.channel]) hdecoded
    exact ⟨hstate ▸ htruth, (hserver hcanonical _ Sample.database).1 hstate⟩
  · obtain ⟨_, _, outcome, published, admission, created, deciding, publishing, hsplit,
        ⟨bytes, hread, hdecoded⟩, _, _, _, _, htruth, hserver, hreport, _⟩ :=
      applyPlan_outcome Sample.crates true
        (Sample.approval.reaches_rolledBack Sample.statementTimeout 3)
        (Sample.approval.firstLineSynced _)
    rcases published with e | event
    · cases hreport
    have hstate : outcome.state = .rolledBack :=
      (congrArg ApplyResult.state (Except.ok.inj hreport)).symm
    have hmem : ⟨.read Sample.options.planPath, some bytes⟩ ∈
        Sample.approval.rolledBackHistory Sample.statementTimeout 3 := by
      rw [hsplit]
      simp [hread]
    have hcanonical := hplan hmem (by simp [Cmd.channel]) hdecoded
    exact ⟨hstate ▸ htruth, (hserver hcanonical _ Sample.database).2 (.inr hstate)⟩

end DmlPact
