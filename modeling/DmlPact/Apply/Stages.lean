/-
DmlPact/Apply/Stages.lean

The straight line of `applyAfterReceipt`, cut into stages that know nothing of
the receipt:

    openSession  ≫=  checkDrift  ≫=  mutate      deciding an outcome
    finishOutcome                                publishing it

A stage that refuses throws its outcome, so the first refusal ends all of
them, and whatever was decided is published once.  `applyAfterReceipt_eq` says
that this is the program.
-/
import DmlPact.Model.Engine

namespace DmlPact

open Effect

/-- What a run decided, before it is published. -/
structure Outcome where
  state : ReceiptState
  result : ReceiptResult

/-- A stage: it issues commands, and returns a value or ends the run. -/
abbrev Stage (α : Type) := Fallible Outcome Cmd Reply α

def refuse (reason : String) (database : Option DatabaseIdentity)
    (tableSchemaSha256 : Option String) : Outcome :=
  ⟨.refused, refused reason database tableSchemaSha256⟩

/-- Run `x`; an error of it ends the run with the outcome `f` makes of it. -/
def orRefuse {α : Type} (x : App α) (f : AppError → Outcome) : Stage α :=
  ExceptT.mk (x.run >>= fun
    | .ok a => .ret (.ok a)
    | .error e => .ret (.error (f e)))

/-- Go on only when `ok` holds. -/
def insist (ok : Bool) (outcome : Outcome) : Stage Unit :=
  ExceptT.mk (.ret (if ok then .ok () else .error outcome))

variable (X : Crates)

/-- Connect as the plan says, start the transaction, lock the table. -/
def openSession (plan : Plan) (options : DatabaseOptions) : Stage ConnectedDatabase := do
  insist (requestedTransport options == plan.transportPolicy)
    (refuse "transport_policy_drift" none none)
  let database ← orRefuse
    (connectDatabase X options.environmentName options.allowInsecureLocalhost)
    fun error => refuse error.code none none
  insist (database.transportPolicy == plan.transportPolicy)
    (refuse "transport_policy_drift" none none)
  let started : Bool ← request (Cmd.start .repeatableRead false)
  insist started (refuse "apply_transaction_failed" none none)
  orRefuse (applyLocalTimeouts plan.limits)
    fun _ => refuse "timeout_configuration_failed" none none
  let locked : Bool ← request (Cmd.batchExecute (lockText plan.preconditions.canonicalTable))
  insist locked (refuse "table_lock_failed" none none)
  return database

/-- What the server reported and the checks accepted. -/
structure Observed where
  identity : DatabaseIdentity
  evidence : TableEvidence
  schemaHash : String
  count : UInt64
  targetSet : String

/-- The comparisons made under the lock. -/
def checkDrift (plan : Plan) (analyzed : AnalyzedSql) (database : ConnectedDatabase) :
    Stage Observed := do
  let identity ← orRefuse (databaseIdentity database.endpointSha256)
    fun _ => refuse "identity_query_failed" none none
  insist (identity == plan.preconditions.database)
    (refuse "database_identity_drift" (some identity) none)
  let evidence ← orRefuse (tableEvidence analyzed.requestedTable)
    fun error => refuse error.code (some identity) none
  let schemaHash ← orRefuse (ofResult (tableSchemaSha256 X evidence))
    fun _ => refuse "table_schema_hash_failed" (some identity) none
  insist (canonicalTable evidence == plan.preconditions.canonicalTable
      && schemaHash == plan.preconditions.tableSchemaSha256)
    (refuse "table_schema_drift" (some identity) (some schemaHash))
  orRefuse (ofResult (enforceTablePolicy evidence analyzed.kind plan.allowTriggers
      plan.allowRowSecurity))
    fun error => refuse error.code (some identity) (some schemaHash)
  let count ← orRefuse (targetCount analyzed)
    fun _ => refuse "target_count_failed" (some identity) (some schemaHash)
  insist (count == plan.preconditions.targetCount)
    (refuse "target_count_drift" (some identity) (some schemaHash))
  insist (!decide (plan.limits.maxRows < count))
    (refuse "row_budget_exceeded" (some identity) (some schemaHash))
  let targetSet ← orRefuse (targetSetSha256 X analyzed count)
    fun error => refuse error.code (some identity) (some schemaHash)
  insist (targetSet == plan.preconditions.targetSetSha256)
    (refuse "target_set_drift" (some identity) (some schemaHash))
  return { identity, evidence, schemaHash, count, targetSet }

/-- The result of a run that passed every check. -/
def executed (observed : Observed) (affectedRows : Option UInt64) (reason : String)
    (sqlstate : Option String) : ReceiptResult where
  affectedRows := affectedRows
  reasonCode := reason
  sqlstate := sqlstate
  database := some observed.identity
  tableSchemaSha256 := some observed.schemaHash

/-- What is known once COMMIT has been answered. -/
def commitOutcome (observed : Observed) (affected : UInt64) : Bool → Outcome
  | false => ⟨.uncertain, executed observed (some affected) "commit_outcome_uncertain" none⟩
  | true => ⟨.committed, executed observed (some affected) "applied" none⟩

/-- What is known once a statement that cannot be kept is rolled back. -/
def rollbackOutcome (observed : Observed) : Except DbError UInt64 → Outcome
  | .error error => ⟨.rolledBack,
      executed observed none "statement_execution_failed" (sqlstate error)⟩
  | .ok affected => ⟨.rolledBack,
      executed observed (some affected) "affected_rows_mismatch" none⟩

/-- Did the statement affect as many rows as counted? -/
def asCounted (observed : Observed) : Except DbError UInt64 → Option UInt64
  | .error _ => none
  | .ok affected => if affected != observed.count then none else some affected

/-- Commit if the statement affected as many rows as counted, else roll back. -/
def conclude (observed : Observed) (answer : Except DbError UInt64) : Stage Outcome := do
  match asCounted observed answer with
  | some affected =>
      let committed : Bool ← request Cmd.commit
      return commitOutcome observed affected committed
  | none =>
      let _ ← request Cmd.rollback
      return rollbackOutcome observed answer

/-- Execute the statement, and settle what it did. -/
def mutate (analyzed : AnalyzedSql) (observed : Observed) : Stage Outcome := do
  let answer ← request (Cmd.execute analyzed.normalized)
  conclude observed answer

/-- Everything between the prepared event and the terminal one. -/
def transact (plan : Plan) (analyzed : AnalyzedSql) (options : DatabaseOptions) :
    Stage Outcome := do
  let database ← openSession X plan options
  let observed ← checkDrift X plan analyzed database
  mutate analyzed observed

/-- Publish an outcome with the finisher its state calls for. -/
def finishOutcome (journal : ReceiptJournal) (outcome : Outcome) : App ApplyResult :=
  match outcome.state with
  | .committed => finishCommitted X journal outcome.result
  | .uncertain => finishUncertain X journal outcome.result
  | state => finish X journal state outcome.result

/-- Decide, then publish. -/
def settle (journal : ReceiptJournal) (x : Stage Outcome) : App ApplyResult :=
  ExceptT.mk (x.run >>= fun
    | .ok outcome | .error outcome => (finishOutcome X journal outcome).run)

/-! ### Settling, one stage at a time -/

section Settle

variable (journal : ReceiptJournal)

theorem settle_bind {α : Type} (x : Stage α) (f : α → Stage Outcome) :
    settle X journal (x >>= f) = ExceptT.mk (x.run >>= fun
      | .ok a => (settle X journal (f a)).run
      | .error outcome => (finishOutcome X journal outcome).run) := by
  show x.run >>= _ >>= _ = x.run >>= _
  rw [Prog.bind_assoc]
  refine congrArg (x.run >>= ·) (funext fun r => ?_)
  cases r <;> rfl

theorem settle_insist (ok : Bool) (outcome : Outcome) (f : Unit → Stage Outcome) :
    settle X journal (insist ok outcome >>= f) =
      if !ok then finishOutcome X journal outcome else settle X journal (f ()) := by
  rw [settle_bind]
  cases ok <;> rfl

theorem settle_request (c : Cmd) (f : Reply c → Stage Outcome) :
    settle X journal (request c >>= f) = request c >>= fun r => settle X journal (f r) := rfl

theorem settle_orRefuse {α : Type} (x : App α) (h : AppError → Outcome)
    (f : α → Stage Outcome) :
    settle X journal (orRefuse x h >>= f) = (do
      match ← attempt x with
      | .ok a => settle X journal (f a)
      | .error (e : AppError) => finishOutcome X journal (h e)) := by
  rw [settle_bind]
  show x.run >>= _ >>= _ = x.run >>= _ >>= _
  rw [Prog.bind_assoc, Prog.bind_assoc]
  refine congrArg (x.run >>= ·) (funext fun r => ?_)
  cases r <;> rfl

theorem settle_ofResult {α : Type} (x : AppResult α) (h : AppError → Outcome)
    (f : α → Stage Outcome) :
    settle X journal (orRefuse (ofResult x) h >>= f) =
      match x with
      | .ok a => settle X journal (f a)
      | .error e => finishOutcome X journal (h e) := by
  cases x <;> rfl

end Settle

/-- **Stages.**  After the receipt is prepared, the program decides an outcome
and publishes it. -/
theorem applyAfterReceipt_eq (journal : ReceiptJournal) (plan : Plan)
    (analyzed : AnalyzedSql) (options : DatabaseOptions) :
    applyAfterReceipt X journal plan analyzed options =
      settle X journal (transact X plan analyzed options) := by
  unfold applyAfterReceipt transact openSession checkDrift
  simp only [bind_assoc, pure_bind]
  -- the session
  rw [settle_insist]
  refine ite_congr rfl (fun _ => rfl) fun _ => ?_
  rw [settle_orRefuse]
  refine bind_congr fun connected => ?_
  rcases connected with error | database
  · rfl
  dsimp only
  rw [settle_insist]
  refine ite_congr rfl (fun _ => rfl) fun _ => ?_
  rw [settle_request]
  refine bind_congr fun started => ?_
  rw [settle_insist]
  cases started
  · rfl
  show _ = settle X journal _
  rw [settle_orRefuse]
  refine bind_congr fun configured => ?_
  rcases configured with error | -
  · rfl
  dsimp only
  rw [settle_request]
  refine bind_congr fun locked => ?_
  rw [settle_insist]
  cases locked
  · rfl
  -- the comparisons
  show _ = settle X journal _
  rw [settle_orRefuse]
  refine bind_congr fun identified => ?_
  rcases identified with error | identity
  · rfl
  dsimp only
  rw [settle_insist]
  refine ite_congr rfl (fun _ => rfl) fun _ => ?_
  rw [settle_orRefuse]
  refine bind_congr fun found => ?_
  rcases found with error | evidence
  · rfl
  dsimp only
  rw [settle_ofResult]
  rcases tableSchemaSha256 X evidence with error | schemaHash
  · rfl
  dsimp only
  rw [settle_insist, Bool.not_and]
  refine ite_congr rfl (fun _ => rfl) fun _ => ?_
  rw [settle_ofResult]
  rcases enforceTablePolicy evidence analyzed.kind plan.allowTriggers plan.allowRowSecurity
    with error | -
  · rfl
  dsimp only
  rw [settle_orRefuse]
  refine bind_congr fun counted => ?_
  rcases counted with error | count
  · rfl
  dsimp only
  rw [settle_insist]
  refine ite_congr rfl (fun _ => rfl) fun _ => ?_
  rw [settle_insist, Bool.not_not]
  refine ite_congr (by simp) (fun _ => rfl) fun _ => ?_
  rw [settle_orRefuse]
  refine bind_congr fun fingerprinted => ?_
  rcases fingerprinted with error | targetSet
  · rfl
  dsimp only
  rw [settle_insist]
  refine ite_congr rfl (fun _ => rfl) fun _ => ?_
  -- the statement
  unfold mutate
  rw [settle_request]
  refine bind_congr fun answer => ?_
  unfold conclude
  rcases answer with error | affected
  · rfl
  dsimp only [asCounted]
  by_cases hrows : (affected != count) = true
  · rw [if_pos hrows, if_pos hrows]
    rfl
  · rw [if_neg hrows, if_neg hrows]
    dsimp only
    rw [settle_request]
    refine bind_congr fun committed => ?_
    cases committed <;> rfl

end DmlPact
