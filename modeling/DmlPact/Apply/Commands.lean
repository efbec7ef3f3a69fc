/-
DmlPact/Apply/Commands.lean

Which kinds of commands each function can issue, whatever it is answered.  A
stage that cannot issue a command is behind us when the command is issued, so
these lemmas turn the command a run is about to issue into the list of stages
that have succeeded.
-/
import DmlPact.Apply.Stages
import DmlPact.Lib.System

namespace DmlPact

open Effect

/-- A run of apply, at some point. -/
abbrev Run := Process Cmd Reply (Except AppError ApplyResult)

/-- What a command acts on. -/
inductive Channel where
  | read | write | clock | environment | connect | start | batch | query | execute | finish
  | output
  deriving DecidableEq

def Cmd.channel : Cmd → Channel
  | .metadata _ | .read _ => .read
  | .createNew _ | .writeAll _ _ | .syncAll _ => .write
  | .now => .clock
  | .var _ | .nativeCerts => .environment
  | .connect _ _ => .connect
  | .start _ _ => .start
  | .batchExecute _ => .batch
  | .query _ _ => .query
  | .execute _ => .execute
  | .rollback | .commit => .finish
  | .stdout _ | .stderr _ => .output

/-- A channel of one list is in no list apart from it. -/
theorem Channel.apart {c : Channel} {cs ds : List Channel} (hc : c ∈ cs)
    (h : cs.all (fun d => !ds.contains d) = true) : c ∉ ds := by
  have hnot := List.all_eq_true.mp h c hc
  simpa using hnot

/-- Every command of the program is on one of the channels `cs`. -/
def Uses {α : Type} (cs : List Channel) (p : Prog Cmd Reply α) : Prop :=
  Within (fun c => c.channel ∈ cs) p

theorem within_orRefuse {α : Type} {S : Cmd → Prop} {x : App α} {f : AppError → Outcome}
    (hx : Within S x.run) : Within S (orRefuse x f).run :=
  hx.bind fun r => by cases r <;> exact within_ret _

namespace Uses

variable {ε α β : Type} {cs cs' : List Channel}

/-- More channels allow the same programs. -/
theorem mono {p : Prog Cmd Reply α} (hp : Uses cs p) (h : cs ⊆ cs') : Uses cs' p :=
  Within.mono hp fun _ hc => h hc

theorem bind {x : Fallible ε Cmd Reply α} {f : α → Fallible ε Cmd Reply β}
    (hx : Uses cs x.run) (hf : ∀ a, Uses cs (f a).run) : Uses cs (x >>= f).run :=
  Within.run_bind hx hf

theorem request {c : Cmd} (hc : cs.contains c.channel = true) :
    Uses cs (Effect.request c : Fallible ε Cmd Reply (Reply c)).run :=
  within_request (List.contains_iff_mem.mp hc)

theorem pure (a : α) : Uses cs (Pure.pure a : Fallible ε Cmd Reply α).run := within_ret _

theorem throw (e : ε) :
    Uses cs (MonadExcept.throw e : Fallible ε Cmd Reply α).run := within_ret _

/-- A value that was computed sends nothing. -/
theorem ofResult (r : AppResult α) : Uses cs (DmlPact.ofResult r).run := within_ret _

theorem ite {p : Prop} [Decidable p] {x y : Fallible ε Cmd Reply α} (hx : Uses cs x.run)
    (hy : Uses cs y.run) : Uses cs (if p then x else y).run := by
  split
  · exact hx
  · exact hy

theorem attempt {ε' : Type} {x : Fallible ε Cmd Reply α} (hx : Uses cs x.run) :
    Uses cs (Effect.attempt x : Fallible ε' Cmd Reply _).run := Within.attempt hx

end Uses

variable (X : Crates)

/-! ### Clock and files -/

/-- Reading the clock. -/
theorem unixMs_uses : Uses [.clock] unixMs.run := by
  refine .bind (.request rfl) fun time => ?_
  rcases time with - | ms
  · exact .throw _
  · exact .ite (.pure _) (.throw _)

/-- Reading a plan file reads. -/
theorem readPlan_uses (path : Path) : Uses [.read] (readPlan X path).run := by
  refine .bind (.request rfl) fun found => ?_
  rcases found with - | metadata
  · exact .throw _
  refine .ite (.throw _) (.bind (.request rfl) fun content => ?_)
  rcases content with - | bytes
  · exact .throw _
  · exact .ofResult _

/-- So does reading a SQL file. -/
theorem readAndAnalyze_uses (path : Path) : Uses [.read] (readAndAnalyze X path).run := by
  refine .bind (.request rfl) fun found => ?_
  rcases found with - | metadata
  · exact .throw _
  refine .ite (.throw _) (.ite (.throw _) (.bind (.request rfl) fun content => ?_))
  rcases content with - | bytes
  · exact .throw _
  dsimp only
  split
  · exact .throw _
  · exact .ofResult _

/-- Bytes are written and synced. -/
theorem writeDurably_uses (path : Path) (bytes : Utf8.Bytes) :
    Uses [.write] (writeDurably path bytes).run := by
  refine .bind (.request rfl) fun written => ?_
  rcases written with - | n
  · exact .request rfl
  · exact .pure _

theorem writeEvent_uses (path : Path) (event : ReceiptEvent) :
    Uses [.write] (writeEvent path event).run := by
  refine .bind (writeDurably_uses path _) fun durable => ?_
  cases durable
  · exact .throw _
  · exact .pure _

/-- A journal reads the clock and writes its file. -/
theorem create_uses (path : Path) (plan : Plan) (sqlFileSha256 : String) :
    Uses [.clock, .write] (ReceiptJournal.create X path plan sqlFileSha256).run := by
  refine .bind (.ofResult _) fun planSha256 => ?_
  refine .bind (unixMs_uses.mono (by decide)) fun timestamp => ?_
  refine .bind (.ofResult _) fun prepared => ?_
  refine .bind (.request rfl) fun created => ?_
  cases created
  · exact .throw _
  · exact .bind ((writeEvent_uses path prepared).mono (by decide)) fun _ => .pure _

/-- The terminal event likewise. -/
theorem finalize_uses (journal : ReceiptJournal) (state : ReceiptState)
    (result : ReceiptResult) : Uses [.clock, .write] (journal.finalize X state result).run := by
  refine .ite (.throw _) (.bind (unixMs_uses.mono (by decide)) fun timestamp => ?_)
  refine .bind (.ofResult _) fun event => ?_
  exact .bind ((writeEvent_uses _ event).mono (by decide)) fun _ => .pure _

theorem finish_uses (journal : ReceiptJournal) (state : ReceiptState)
    (result : ReceiptResult) : Uses [.clock, .write] (finish X journal state result).run :=
  .bind (finalize_uses X journal state result) fun _ => .pure _

theorem mapErr_uses {α : Type} {cs : List Channel} {x : App α} (error : AppError)
    (hx : Uses cs x.run) : Uses cs (mapErr x error).run := by
  refine .bind (.attempt hx) fun r => ?_
  cases r
  · exact .throw _
  · exact .pure _

/-- Publishing an outcome touches the clock and the receipt, nothing else. -/
theorem finishOutcome_uses (journal : ReceiptJournal) (outcome : Outcome) :
    Uses [.clock, .write] (finishOutcome X journal outcome).run := by
  obtain ⟨state, result⟩ := outcome
  cases state
  case committed => exact mapErr_uses _ (finish_uses X journal _ result)
  case uncertain => exact mapErr_uses _ (finish_uses X journal _ result)
  all_goals exact finish_uses X journal _ result

/-! ### The session -/

/-- Connecting asks for the variable and the certificates, and connects. -/
theorem connectDatabase_uses (name : String) (insecure : Bool) :
    Uses [.environment, .connect] (connectDatabase X name insecure).run := by
  refine .bind (.ofResult _) fun _ => .bind (.request rfl) fun found => ?_
  rcases found with - | value
  · exact .throw _
  refine .ite (.throw _) ?_
  split
  · exact .throw _
  refine .ite (.ite (.throw _) (.bind (.request rfl) fun opened => ?_))
    (.bind (.request rfl) fun roots => ?_)
  · cases opened
    · exact .throw _
    · exact .pure _
  · cases roots
    · exact .throw _
    refine .bind (.request rfl) fun opened => ?_
    cases opened
    · exact .throw _
    · exact .pure _

/-- What opening a session can send: of simple queries, the settings and the
lock only. -/
def SessionCommand (plan : Plan) (c : Cmd) : Prop :=
  c.channel ∈ [Channel.environment, .connect, .start] ∨
    c = .batchExecute (timeoutSettings plan.limits) ∨
    c = .batchExecute (lockText plan.preconditions.canonicalTable)

theorem applyLocalTimeouts_within {S : Cmd → Prop} {limits : Limits}
    (hS : S (.batchExecute (timeoutSettings limits))) :
    Within S (applyLocalTimeouts limits).run := by
  refine .run_bind (within_request hS) fun done => ?_
  cases done
  · exact within_ret _
  · exact within_ret _

/-- **Session.**  Opening it sends nothing but its commands. -/
theorem openSession_within (plan : Plan) (options : DatabaseOptions) :
    Within (SessionCommand plan) (openSession X plan options).run := by
  have hconnect : Within (SessionCommand plan) (connectDatabase X options.environmentName
      options.allowInsecureLocalhost).run := by
    have hsub : [Channel.environment, .connect] ⊆ [Channel.environment, .connect, .start] := by
      decide
    exact Within.mono (connectDatabase_uses X _ _) fun c hc => .inl (hsub hc)
  have hsettings : SessionCommand plan (.batchExecute (timeoutSettings plan.limits)) :=
    .inr (.inl rfl)
  refine .run_bind (within_ret _) fun _ => ?_
  refine .run_bind (within_orRefuse hconnect) fun database => ?_
  refine .run_bind (within_ret _) fun _ => .run_bind (within_request ?_) fun started => ?_
  · exact .inl (List.contains_iff_mem.mp rfl)
  refine .run_bind (within_ret _) fun _ => ?_
  refine .run_bind (within_orRefuse (applyLocalTimeouts_within hsettings)) fun _ => ?_
  refine .run_bind (within_request (.inr (.inr rfl))) fun locked => ?_
  exact .run_bind (within_ret _) fun _ => within_ret _

/-- The same by channels. -/
theorem openSession_uses (plan : Plan) (options : DatabaseOptions) :
    Uses [.environment, .connect, .start, .batch] (openSession X plan options).run := by
  refine (openSession_within X plan options).mono fun c hc => ?_
  rcases hc with hc | rfl | rfl
  · exact List.mem_append_left [Channel.batch] hc
  · exact List.contains_iff_mem.mp rfl
  · exact List.contains_iff_mem.mp rfl

/-! ### The comparisons -/

/-- A query that is generated from the SQL file. -/
def AnalyzedSql.Generates (analyzed : AnalyzedSql) (sql : String) : Prop :=
  analyzed.countSql = some sql ∨ analyzed.targetRowsSql = some sql

/-- A query of the program: one of its own, or one generated from the SQL
file. -/
def Inspects (analyzed : AnalyzedSql) : Cmd → Prop
  | .query sql _ => sql ∈ catalogQueries ∨ analyzed.Generates sql
  | _ => False

/-- The functions of a server: which of them a text calls when it is run, through
its operators and casts as well, and which of them change data. -/
structure Functions where
  calls : String → String → Prop
  writes : String → Prop

/-- A query that calls nothing that changes data. -/
def Functions.Quiet (F : Functions) (query : String) : Prop :=
  ∀ function, F.calls query function → ¬ F.writes function

section Queries

variable {S : Cmd → Prop} {sql : String} {params : List SqlValue} (hS : S (.query sql params))

include hS

theorem queryOne_within : Within S (queryOne sql params).run := by
  refine .run_bind (within_request hS) fun answer => ?_
  split
  · exact within_ret _
  · exact within_ret _

theorem queryOpt_within : Within S (queryOpt sql params).run := by
  refine .run_bind (within_request hS) fun answer => ?_
  split
  · exact within_ret _
  · exact within_ret _
  · exact within_ret _

theorem queryAll_within : Within S (queryAll sql params).run := by
  refine .run_bind (within_request hS) fun answer => ?_
  split
  · exact within_ret _
  · exact within_ret _

end Queries

theorem within_orPanic {α : Type} {S : Cmd → Prop} (o : Option α) : Within S (orPanic o).run := by
  rcases o with - | a
  · exact within_crash
  · exact within_ret _

variable (analyzed : AnalyzedSql)

/-- The identity is one fixed query. -/
theorem databaseIdentity_within (endpoint : String) :
    Within (Inspects analyzed) (databaseIdentity endpoint).run := by
  refine .run_bind (queryOne_within (.inl (by simp [catalogQueries]))) fun row => ?_
  rcases row with - | row
  · exact within_ret _
  · exact within_orPanic _

/-- So are the rows of the catalog. -/
theorem catalogRows_within {α : Type} (decode : Row → Option α) {query : String}
    (hquery : query ∈ catalogQueries) (oid : Int64) (errorCode : String) :
    Within (Inspects analyzed) (catalogRows decode query oid errorCode).run := by
  refine .run_bind (queryAll_within (.inl hquery)) fun rows => ?_
  rcases rows with - | rows
  · exact within_ret _
  · exact within_orPanic _

/-- The evidence is made of such queries. -/
theorem tableEvidence_within (requestedTable : String) :
    Within (Inspects analyzed) (tableEvidence requestedTable).run := by
  refine .run_bind (queryOpt_within (.inl (by simp [catalogQueries]))) fun row => ?_
  rcases row with - | - | row
  · exact within_ret _
  · exact within_ret _
  refine .run_bind (within_orPanic _) fun oid => ?_
  refine .run_bind (catalogRows_within analyzed _ (by simp [catalogQueries]) _ _) fun _ => ?_
  refine .run_bind (catalogRows_within analyzed _ (by simp [catalogQueries]) _ _) fun _ => ?_
  refine .run_bind (catalogRows_within analyzed _ (by simp [catalogQueries]) _ _) fun _ => ?_
  refine .run_bind (catalogRows_within analyzed _ (by simp [catalogQueries]) _ _) fun _ => ?_
  refine .run_bind (catalogRows_within analyzed _ (by simp [catalogQueries]) _ _) fun _ => ?_
  refine .run_bind (catalogRows_within analyzed _ (by simp [catalogQueries]) _ _) fun _ => ?_
  refine .run_bind (catalogRows_within analyzed _ (by simp [catalogQueries]) _ _) fun _ => ?_
  refine .run_bind (catalogRows_within analyzed _ (by simp [catalogQueries]) _ _) fun _ => ?_
  exact within_orPanic _

/-- The count is the generated query, if there is one. -/
theorem targetCount_within : Within (Inspects analyzed) (targetCount analyzed).run := by
  unfold targetCount
  rcases hquery : analyzed.countSql with - | query
  · exact within_ret _
  refine .run_bind (queryOne_within (.inr (.inl hquery))) fun row => ?_
  rcases row with - | row
  · exact within_ret _
  refine .run_bind (within_orPanic _) fun _ => ?_
  split_ifs <;> exact within_ret _

/-- The fingerprint likewise. -/
theorem targetSetSha256_within (expectedCount : UInt64) :
    Within (Inspects analyzed) (targetSetSha256 X analyzed expectedCount).run := by
  unfold targetSetSha256
  rcases hquery : analyzed.targetRowsSql with - | query
  · exact within_ret _
  refine .run_bind (within_request (.inr (.inr hquery))) fun answer => ?_
  refine .run_bind (within_orPanic _) fun collected => .run_bind (within_ret _) fun found => ?_
  obtain ⟨evidence, observedCount⟩ := found
  dsimp only
  split_ifs <;> exact within_ret _

/-- **Comparisons.**  Under the lock nothing is sent but queries of the program. -/
theorem checkDrift_within (plan : Plan) (database : ConnectedDatabase) :
    Within (Inspects analyzed) (checkDrift X plan analyzed database).run := by
  refine .run_bind (within_orRefuse (databaseIdentity_within _ _)) fun identity => ?_
  refine .run_bind (within_ret _) fun _ => ?_
  refine .run_bind (within_orRefuse (tableEvidence_within _ _)) fun evidence => ?_
  refine .run_bind (within_orRefuse (within_ret _)) fun schemaHash => ?_
  refine .run_bind (within_ret _) fun _ => .run_bind (within_orRefuse (within_ret _)) fun _ => ?_
  refine .run_bind (within_orRefuse (targetCount_within _)) fun count => ?_
  refine .run_bind (within_ret _) fun _ => .run_bind (within_ret _) fun _ => ?_
  refine .run_bind (within_orRefuse (targetSetSha256_within X _ _)) fun targetSet => ?_
  exact .run_bind (within_ret _) fun _ => within_ret _

/-- The same by channels. -/
theorem checkDrift_uses (plan : Plan) (database : ConnectedDatabase) :
    Uses [.query] (checkDrift X plan analyzed database).run := by
  refine (checkDrift_within X analyzed plan database).mono fun c hc => ?_
  cases c
  case query => exact List.mem_singleton_self _
  all_goals exact hc.elim

/-- COMMIT or ROLLBACK. -/
theorem conclude_uses (observed : Observed) (answer : Except DbError UInt64) :
    Uses [.finish] (conclude observed answer).run := by
  unfold conclude
  split
  · exact .bind (.request rfl) fun _ => .pure _
  · exact .bind (.request rfl) fun _ => .pure _

/-- The statement, then one of these. -/
theorem mutate_uses (analyzed : AnalyzedSql) (observed : Observed) :
    Uses [.execute, .finish] (mutate analyzed observed).run :=
  .bind (.request rfl) fun answer => (conclude_uses observed answer).mono (by decide)

/-! ### The whole of apply -/

/-- Deciding neither reads nor writes a file. -/
theorem transact_uses (plan : Plan) (analyzed : AnalyzedSql) (options : DatabaseOptions) :
    Uses [.environment, .connect, .start, .batch, .query, .execute, .finish]
      (transact X plan analyzed options).run := by
  refine .bind ((openSession_uses X plan options).mono (by decide)) fun database => ?_
  refine .bind ((checkDrift_uses X analyzed plan database).mono (by decide)) fun observed => ?_
  exact (mutate_uses analyzed observed).mono (by decide)

/-- Publishing adds the clock and the receipt. -/
theorem settle_uses {cs : List Channel} (journal : ReceiptJournal) {x : Stage Outcome}
    (hx : Uses cs x.run) (hcs : [Channel.clock, .write] ⊆ cs) :
    Uses cs (settle X journal x).run := by
  refine Within.bind hx fun decided => ?_
  cases decided <;> exact (finishOutcome_uses X journal _).mono hcs

/-- Applying writes nothing to the standard streams. -/
theorem applyPlan_uses (options : ApplyOptions) :
    Uses [.read, .clock, .write, .environment, .connect, .start, .batch, .query, .execute,
      .finish] (applyPlan X options).run := by
  refine .bind ((readPlan_uses X _).mono (by decide)) fun plan => .bind (.ofResult _) fun _ => ?_
  refine .bind ((readAndAnalyze_uses X _).mono (by decide)) fun analyzed => ?_
  refine .bind (.ofResult _) fun _ => .bind (unixMs_uses.mono (by decide)) fun now => ?_
  refine .ite (.throw _) (.bind ((create_uses X _ _ _).mono (by decide)) fun journal => ?_)
  rw [applyAfterReceipt_eq]
  exact settle_uses X journal ((transact_uses X plan analyzed _).mono (by decide)) (by decide)

end DmlPact
