/-
DmlPact/Process/Session.lean

What a process asks of the database, and in which order:

    inspect    connect, query*
    plan       connect, start read only, settings, query*, commit
    apply      connect, start, settings, lock, query*, execute, commit or rollback

and every other command nothing.  The texts are the program's own: the settings
of some limits, the lock of some name, the queries of `db.rs`, and those of a SQL
file that was accepted, whose statement is all that is executed.  A failed answer
ends it, but for the rollback of a statement that failed.  The connection is
plain only if the caller asked for it and every host is local, and under TLS
otherwise.

The letters are the calls of the program.  The ROLLBACK that the driver sends by
itself, where a transaction that is still open is dropped, is none of them.

`main_session` says that every run of every invocation is a word of this
machine, and that `inspect` and `plan` exit with 0 only at its end.
-/
import DmlPact.Apply.Exit
import DmlPact.Apply.Lock
import DmlPact.Lib.Discipline
import DmlPact.Plan.Created
import DmlPact.Process.Commands

namespace DmlPact

open Effect Utf8

/-! ### The machine -/

inductive Purpose where
  | inspect | plan | apply
  deriving DecidableEq

/-- What a command wants of the database. -/
structure Use where
  purpose : Purpose
  allowInsecureLocalhost : Bool

def Command.use : Command → Option Use
  | .inspect _ database => some ⟨.inspect, database.allowInsecureLocalhost⟩
  | .plan _ _ _ _ _ _ _ _ database => some ⟨.plan, database.allowInsecureLocalhost⟩
  | .apply _ _ _ database => some ⟨.apply, database.allowInsecureLocalhost⟩
  | _ => none

def Invocation.use : Invocation → Option Use
  | .command c => c.use
  | _ => none

/-- How far the conversation with the server has come. -/
inductive Session where
  | unconnected | connected | begun | configured | locked
  | executed (succeeded : Bool)
  | committed
  | over
  deriving DecidableEq

/-- Is the transaction of this purpose read only? -/
def Purpose.transaction : Purpose → Option Bool
  | .inspect => none
  | .plan => some true
  | .apply => some false

/-- Where this purpose sends its queries. -/
def Purpose.reading : Purpose → Session
  | .inspect => .connected
  | .plan => .configured
  | .apply => .locked

/-- Where a conversation of this purpose that succeeds can end. -/
def Purpose.Ended : Purpose → Session → Prop
  | .inspect, s => s = .connected
  | .plan, s => s = .committed
  | .apply, _ => True

/-- Plain to local hosts on demand, under TLS otherwise. -/
def Transport (insecure : Bool) (config : Config) (connector : Connector) : Bool :=
  if insecure then
    connector = .noTls && config.sslMode = .disable && allHostsAreLocal config
  else connector = .nativeRoots && config.sslMode = .require

variable (X : Crates)

/-- The queries of the program: those of `db.rs`, and those that are generated for
a statement that was accepted. -/
def Asks (query : String) : Prop :=
  query ∈ catalogQueries ∨ ∃ raw analyzed, analyzeSql X raw = .ok analyzed ∧
    (analyzed.Generates query ∨ query = explainText analyzed.normalized)

/-- A statement that was accepted. -/
def Accepts (sql : String) : Prop :=
  ∃ raw analyzed, analyzeSql X raw = .ok analyzed ∧ sql = analyzed.normalized

open Classical in
/-- One step, if it is allowed. -/
noncomputable def Session.step (use : Use) (s : Session) : (c : Cmd) → Reply c → Option Session
  | .connect config connector, opened =>
      if s = .unconnected && Transport use.allowInsecureLocalhost config connector then
        some (if opened then .connected else .over)
      else none
  | .start isolation readOnly, started =>
      if s = .connected && isolation = .repeatableRead
          && use.purpose.transaction = some readOnly then
        some (if started then .begun else .over)
      else none
  | .batchExecute sql, done =>
      if s = .begun ∧ ∃ limits, sql = timeoutSettings limits then
        some (if done then .configured else .over)
      else if s = .configured ∧ use.purpose = .apply ∧ ∃ name, sql = lockText name then
        some (if done then .locked else .over)
      else none
  | .query sql _, rows =>
      if s = use.purpose.reading ∧ Asks X sql then some (if rows.complete then s else .over)
      else none
  | .execute sql, result =>
      if s = .locked ∧ use.purpose = .apply ∧ Accepts X sql then some (.executed result.isOk)
      else none
  | .rollback, _ =>
      match s with
      | .executed _ => some .over
      | _ => none
  | .commit, done =>
      if s = .executed true || (s = .configured && use.purpose = .plan) then
        some (if done then .committed else .over)
      else none
  | _, _ => some s

/-- Without a use of the database, no command on it. -/
noncomputable def session : Option Use → Discipline Cmd Reply Session
  | some use => ⟨Session.step X use⟩
  | none => ⟨fun s c _ =>
      if c.channel ∈ [Channel.connect, .start, .batch, .query, .execute, .finish] then none
      else some s⟩

variable {X}

/-! ### Commands that are no part of it -/

theorem session_quiet {use : Option Use} {s : Session} {c : Cmd} (r : Reply c)
    (h : c.channel ∈ [Channel.read, .write, .clock, .environment, .output]) :
    (session X use).step s c r = some s := by
  rcases use with - | use
  · refine if_neg fun hc => ?_
    exact Channel.apart h rfl hc
  · have hnot : c.channel ∉ [Channel.connect, .start, .batch, .query, .execute, .finish] :=
      Channel.apart h rfl
    cases c
    case metadata | read | createNew | writeAll | syncAll | var | now | nativeCerts | stdout
        | stderr => rfl
    all_goals exact absurd (List.contains_iff_mem.mp rfl) hnot

/-! ### One step -/

section Steps

variable {use : Use} {s : Session}

theorem session_connect {config : Config} {connector : Connector}
    (h : Transport use.allowInsecureLocalhost config connector = true) (opened : Bool) :
    (session X use).step .unconnected (.connect config connector) opened =
      some (if opened then .connected else .over) := by
  show (if _ then _ else _) = _
  rw [if_pos (by simp [h])]

theorem session_start {readOnly : Bool} (h : use.purpose.transaction = some readOnly)
    (started : Bool) : (session X use).step .connected (.start .repeatableRead readOnly) started =
      some (if started then .begun else .over) := by
  show (if _ then _ else _) = _
  rw [if_pos (by simp [h])]

theorem session_settings (limits : Limits) (done : Bool) :
    (session X use).step .begun (.batchExecute (timeoutSettings limits)) done =
      some (if done then .configured else .over) :=
  if_pos ⟨rfl, limits, rfl⟩

theorem session_lock (hp : use.purpose = .apply) (name : String) (done : Bool) :
    (session X use).step .configured (.batchExecute (lockText name)) done =
      some (if done then .locked else .over) :=
  if_pos ⟨rfl, hp, name, rfl⟩

theorem session_query {sql : String} {params : List SqlValue} (hs : s = use.purpose.reading)
    (hsql : Asks X sql) (rows : Rows) :
    (session X use).step s (.query sql params) rows =
      some (if rows.complete then s else .over) :=
  if_pos ⟨hs, hsql⟩

theorem session_execute {sql : String} (hp : use.purpose = .apply) (hsql : Accepts X sql)
    (result : Except DbError UInt64) :
    (session X use).step .locked (.execute sql) result = some (.executed result.isOk) :=
  if_pos ⟨rfl, hp, hsql⟩

end Steps

/-! ### Queries -/

section Queries

variable {use : Use} {sql : String} {params : List SqlValue} (hsql : Asks X sql)

include hsql

theorem queryOne_achieves : (session X use).Achieves
    (fun s row => row.isSome → s = use.purpose.reading) use.purpose.reading
    (queryOne sql params) := by
  refine Discipline.achieves_request fun rows => ⟨_, session_query rfl hsql rows, ?_⟩
  rcases rows with ⟨- | ⟨row, - | ⟨row', rest⟩⟩, - | -⟩
  all_goals exact Discipline.achieves_pure (by simp)

theorem queryOpt_achieves : (session X use).Achieves
    (fun s row => row.isSome → s = use.purpose.reading) use.purpose.reading
    (queryOpt sql params) := by
  refine Discipline.achieves_request fun rows => ⟨_, session_query rfl hsql rows, ?_⟩
  rcases rows with ⟨- | ⟨row, - | ⟨row', rest⟩⟩, - | -⟩
  all_goals exact Discipline.achieves_pure (by simp)

theorem queryAll_achieves : (session X use).Achieves
    (fun s rows => rows.isSome → s = use.purpose.reading) use.purpose.reading
    (queryAll sql params) := by
  refine Discipline.achieves_request fun rows => ⟨_, session_query rfl hsql rows, ?_⟩
  rcases rows with ⟨rows, - | -⟩
  all_goals exact Discipline.achieves_pure (by simp)

end Queries

/-- `x` only reads: if it succeeds, the conversation is where it was. -/
def Consults {ε α : Type} (X : Crates) (use : Use) (x : Fallible ε Cmd Reply α) : Prop :=
  (session X use).Achieves (fun s _ => s = use.purpose.reading) use.purpose.reading x

namespace Consults

variable {ε α β : Type} {use : Use} {x : Fallible ε Cmd Reply α}
  {f : α → Fallible ε Cmd Reply β}

theorem bind (hx : Consults X use x) (hf : ∀ a, Consults X use (f a)) : Consults X use (x >>= f) := by
  refine Discipline.Achieves.bind (hx.mono fun s a hs => ?_)
  rw [hs]
  exact hf a

theorem pure (a : α) : Consults X use (Pure.pure a : Fallible ε Cmd Reply α) :=
  Discipline.achieves_pure rfl

theorem throw (e : ε) : Consults X use (MonadExcept.throw e : Fallible ε Cmd Reply α) :=
  Discipline.achieves_throw

theorem ofResult (r : AppResult α) : Consults X use (DmlPact.ofResult r) := fun _ _ => rfl

theorem orPanic (o : Option α) : Consults X use (DmlPact.orPanic o) := by
  rcases o with - | a
  · trivial
  · exact fun _ _ => rfl

theorem ite {b : Prop} [Decidable b] {x y : Fallible ε Cmd Reply α} (hx : Consults X use x)
    (hy : Consults X use y) : Consults X use (if b then x else y) :=
  Discipline.achieves_ite (fun _ => hx) fun _ => hy

theorem orRefuse {x : App α} {g : AppError → Outcome} (hx : Consults X use x) :
    Consults X use (DmlPact.orRefuse x g) := by
  refine Discipline.Obeys.bind (Discipline.Obeys.mono hx fun s r hr => ?_)
  cases r with
  | ok a => exact fun _ _ => hr a rfl
  | error e => exact fun _ he => nomatch he

theorem insist (ok : Bool) (outcome : Outcome) : Consults X use (DmlPact.insist ok outcome) :=
  fun _ _ => rfl

end Consults

/-! ### The texts -/

variable {use : Use}

/-- The queries of an analysis are those of an accepted statement. -/
def AnalyzedSql.Accepted (X : Crates) (analyzed : AnalyzedSql) : Prop :=
  ∃ raw, analyzeSql X raw = .ok analyzed

theorem AnalyzedSql.Accepted.asks {analyzed : AnalyzedSql} (h : analyzed.Accepted X)
    {query : String} (hquery : analyzed.Generates query) : Asks X query :=
  .inr ⟨h.choose, analyzed, h.choose_spec, .inl hquery⟩

theorem AnalyzedSql.Accepted.explains {analyzed : AnalyzedSql} (h : analyzed.Accepted X) :
    Asks X (explainText analyzed.normalized) :=
  .inr ⟨h.choose, analyzed, h.choose_spec, .inr rfl⟩

theorem AnalyzedSql.Accepted.accepts {analyzed : AnalyzedSql} (h : analyzed.Accepted X) :
    Accepts X analyzed.normalized :=
  ⟨h.choose, analyzed, h.choose_spec, rfl⟩

theorem accepted_of_readAndAnalyze {path : Path} {h : History} {a : AnalyzedSql}
    (hr : Reaches (readAndAnalyze X path).run h (.ret (.ok a))) : a.Accepted X := by
  obtain ⟨_, _, _, -, -, -, -, hanalyzed⟩ := (readAndAnalyze_ok X).mp hr
  exact ⟨_, hanalyzed⟩

/-! ### Reading -/

theorem databaseIdentity_reading (endpoint : String) :
    Consults X use (databaseIdentity endpoint) := by
  refine Discipline.Achieves.bind ((queryOne_achieves (.inl (by simp [catalogQueries]))).mono
    fun s row hs => ?_)
  rcases row with - | row
  · exact Discipline.achieves_throw
  · rw [hs rfl]
    exact Consults.orPanic _

theorem catalogRows_reading {α : Type} (decode : Row → Option α) {query : String}
    (hquery : Asks X query) (oid : Int64) (errorCode : String) :
    Consults X use (catalogRows decode query oid errorCode) := by
  refine Discipline.Achieves.bind ((queryAll_achieves hquery).mono fun s rows hs => ?_)
  rcases rows with - | rows
  · exact Discipline.achieves_throw
  · rw [hs rfl]
    exact Consults.orPanic _

theorem tableEvidence_reading (requestedTable : String) :
    Consults X use (tableEvidence requestedTable) := by
  refine Discipline.Achieves.bind ((queryOpt_achieves (.inl (by simp [catalogQueries]))).mono
    fun s row hs => ?_)
  rcases row with - | - | row
  · exact Discipline.achieves_throw
  · exact Discipline.achieves_throw
  rw [hs rfl]
  refine Consults.bind (.orPanic _) fun oid => ?_
  refine .bind (catalogRows_reading _ (.inl (by simp [catalogQueries])) _ _) fun _ => ?_
  refine .bind (catalogRows_reading _ (.inl (by simp [catalogQueries])) _ _) fun _ => ?_
  refine .bind (catalogRows_reading _ (.inl (by simp [catalogQueries])) _ _) fun _ => ?_
  refine .bind (catalogRows_reading _ (.inl (by simp [catalogQueries])) _ _) fun _ => ?_
  refine .bind (catalogRows_reading _ (.inl (by simp [catalogQueries])) _ _) fun _ => ?_
  refine .bind (catalogRows_reading _ (.inl (by simp [catalogQueries])) _ _) fun _ => ?_
  refine .bind (catalogRows_reading _ (.inl (by simp [catalogQueries])) _ _) fun _ => ?_
  refine .bind (catalogRows_reading _ (.inl (by simp [catalogQueries])) _ _) fun _ => ?_
  exact .orPanic _

variable {analyzed : AnalyzedSql} (haccepted : analyzed.Accepted X)

include haccepted

theorem targetCount_reading : Consults X use (targetCount analyzed) := by
  unfold targetCount
  rcases hquery : analyzed.countSql with - | query
  · exact .pure _
  refine Discipline.Achieves.bind ((queryOne_achieves (haccepted.asks (.inl hquery))).mono
    fun s row hs => ?_)
  rcases row with - | row
  · exact Discipline.achieves_throw
  rw [hs rfl]
  exact Consults.bind (.orPanic _) fun _ => .ite (.throw _) (.pure _)

theorem targetSetSha256_reading (expectedCount : UInt64) :
    Consults X use (targetSetSha256 X analyzed expectedCount) := by
  unfold targetSetSha256
  rcases hquery : analyzed.targetRowsSql with - | query
  · exact .pure _
  refine Discipline.achieves_request fun rows =>
    ⟨_, session_query rfl (haccepted.asks (.inr hquery)) rows, ?_⟩
  -- an answer that breaks off ends the conversation, and the run with it
  obtain ⟨rows, complete⟩ := rows
  dsimp only
  generalize collectEvidence [] 0 rows = collected
  rcases collected with - | error | ⟨evidence, observedCount⟩
  · trivial
  · exact fun _ he => nomatch he
  show (session X use).Achieves _ _ (if !complete then throw _ else if _ then throw _ else pure _ :
    App String)
  cases complete
  · exact Discipline.achieves_throw
  · exact Consults.ite (.throw _) (.ite (.throw _) (.pure _))

theorem checkDrift_reading (plan : Plan) (database : ConnectedDatabase) :
    Consults X use (checkDrift X plan analyzed database) := by
  refine .bind (.orRefuse (databaseIdentity_reading _)) fun identity => .bind (.insist _ _) fun _ => ?_
  refine .bind (.orRefuse (tableEvidence_reading _)) fun evidence => ?_
  refine .bind (.orRefuse (.ofResult _)) fun schemaHash => .bind (.insist _ _) fun _ => ?_
  refine .bind (.orRefuse (.ofResult _)) fun _ => ?_
  refine .bind (.orRefuse (targetCount_reading haccepted)) fun count => ?_
  refine .bind (.insist _ _) fun _ => .bind (.insist _ _) fun _ => ?_
  refine .bind (.orRefuse (targetSetSha256_reading haccepted _)) fun targetSet => ?_
  exact .bind (.insist _ _) fun _ => .pure _

omit haccepted

/-! ### Connecting -/

/-- Programs that keep away from the database. -/
theorem achieves_away {ε α : Type} {use : Option Use} {s : Session} {cs : List Channel}
    {x : Fallible ε Cmd Reply α} (hx : Uses cs x.run)
    (hcs : cs ⊆ [Channel.read, .write, .clock, .environment, .output]) :
    (session X use).Achieves (fun s' a => s' = s ∧ ∃ h, Reaches x.run h (.ret (.ok a))) s x :=
  Discipline.achieves_of_within hx fun _ hc r => session_quiet r (hcs hc)

theorem achieves_ofResult {α β : Type} {use : Option Use} {s : Session} {P : Session → β → Prop}
    {r : AppResult α} {f : α → App β} (hf : ∀ a, r = .ok a → (session X use).Achieves P s (f a)) :
    (session X use).Achieves P s (ofResult r >>= f) := by
  refine Discipline.Achieves.bind ?_
  rintro a rfl
  exact hf a rfl

theorem connectParsed_achieves (parsed : Config) :
    (session X use).Achieves (fun s _ => s = .connected) .unconnected
      (connectParsed X parsed use.allowInsecureLocalhost) := by
  unfold connectParsed
  dsimp only
  refine Discipline.achieves_ite (fun hinsecure => ?_) fun hinsecure => ?_
  · refine Discipline.achieves_ite (fun _ => Discipline.achieves_throw) fun hlocal => ?_
    refine Discipline.achieves_request fun opened => ⟨_, session_connect ?_ opened, ?_⟩
    · have hhosts : allHostsAreLocal (clientConfig parsed) = true := by simpa using hlocal
      have hsame : allHostsAreLocal { clientConfig parsed with sslMode := .disable } =
          allHostsAreLocal (clientConfig parsed) := rfl
      rw [Transport, if_pos hinsecure, hsame, hhosts]
      rfl
    · cases opened
      · exact Discipline.achieves_throw
      · exact Discipline.achieves_pure rfl
  · refine Discipline.achieves_request fun roots =>
      ⟨.unconnected, session_quiet roots (List.contains_iff_mem.mp rfl), ?_⟩
    cases roots
    · exact Discipline.achieves_throw
    refine Discipline.achieves_request fun opened => ⟨_, session_connect ?_ opened, ?_⟩
    · rw [Transport, if_neg hinsecure]
      simp
    · cases opened
      · exact Discipline.achieves_throw
      · exact Discipline.achieves_pure rfl

theorem connectDatabase_achieves (name : String) :
    (session X use).Achieves (fun s _ => s = .connected) .unconnected
      (connectDatabase X name use.allowInsecureLocalhost) := by
  rw [connectDatabase_eq]
  refine achieves_ofResult fun _ _ => Discipline.achieves_request fun value =>
    ⟨.unconnected, session_quiet value (List.contains_iff_mem.mp rfl), ?_⟩
  rcases value with - | value
  · exact Discipline.achieves_throw
  refine Discipline.achieves_ite (fun _ => Discipline.achieves_throw) fun _ => ?_
  rcases hparsed : X.parseConfig value with - | parsed
  · exact Discipline.achieves_throw
  · exact connectParsed_achieves parsed

/-! ### The three conversations -/

theorem inspectTable_achieves (requestedTable : String) (name : String) (insecure : Bool) :
    (session X (some ⟨.inspect, insecure⟩)).Achieves (fun s _ => s = .connected) .unconnected
      (inspectTable X requestedTable ⟨name, insecure⟩) := by
  rw [inspectTable_eq]
  refine Discipline.Achieves.bind ((connectDatabase_achieves name).mono fun s database hs => ?_)
  rw [hs]
  have hsession : Consults X ⟨.inspect, insecure⟩ (inspectSession X requestedTable database) :=
    .bind (databaseIdentity_reading _) fun identity => .bind (.ofResult _) fun _ =>
      .bind (tableEvidence_reading _) fun evidence => .bind (.ofResult _) fun _ => .pure _
  exact hsession

/-- The settings are the first text of a transaction. -/
theorem applyLocalTimeouts_achieves (limits : Limits) :
    (session X use).Achieves (fun s _ => s = .configured) .begun (applyLocalTimeouts limits) := by
  refine Discipline.achieves_request fun done =>
    ⟨_, session_settings limits done, ?_⟩
  cases done
  · exact Discipline.achieves_throw
  · exact Discipline.achieves_pure rfl

theorem planSession_achieves {insecure : Bool} (options : PlanOptions) {analyzed : AnalyzedSql}
    (haccepted : analyzed.Accepted X) (database : ConnectedDatabase) :
    (session X (some ⟨.plan, insecure⟩)).Achieves (fun s _ => s = .committed) .connected
      (planSession X options analyzed database) := by
  refine Discipline.achieves_request fun started => ⟨_, session_start rfl started, ?_⟩
  cases started
  · exact Discipline.achieves_throw
  refine Discipline.Achieves.bind ((applyLocalTimeouts_achieves _).mono fun s _ hs => ?_)
  rw [hs]
  -- five readings, after each of which the transaction is as it was
  refine Discipline.Achieves.bind ((databaseIdentity_reading _).mono fun s identity hs => ?_)
  rw [hs]
  refine achieves_ofResult fun _ _ => ?_
  refine Discipline.Achieves.bind ((tableEvidence_reading _).mono fun s evidence hs => ?_)
  rw [hs]
  refine achieves_ofResult fun _ _ => achieves_ofResult fun schemaHash _ => ?_
  refine Discipline.Achieves.bind ((targetCount_reading haccepted).mono fun s count hs => ?_)
  rw [hs]
  refine Discipline.achieves_ite (fun _ => Discipline.achieves_throw) fun _ => ?_
  refine Discipline.Achieves.bind ((targetSetSha256_reading haccepted _).mono fun s targetSet hs => ?_)
  rw [hs]
  refine Discipline.Achieves.bind ((queryOne_achieves haccepted.explains).mono
    fun s explained hs => ?_)
  rcases explained with - | explainRow
  · exact Discipline.achieves_throw
  rw [hs rfl]
  refine Discipline.Achieves.bind ((Consults.orPanic _).mono fun s explain hs => ?_)
  rw [hs]
  refine Discipline.achieves_request fun committed => ⟨_, rfl, ?_⟩
  cases committed
  · exact Discipline.achieves_throw
  · exact Discipline.achieves_pure rfl

theorem createPlan_achieves (options : PlanOptions) :
    (session X (some ⟨.plan, options.database.allowInsecureLocalhost⟩)).Achieves
      (fun s _ => s = .committed) .unconnected (createPlan X options) := by
  rw [createPlan_eq]
  refine achieves_ofResult fun _ _ => Discipline.achieves_ite
    (fun _ => Discipline.achieves_throw) fun _ => ?_
  refine Discipline.Achieves.bind ((achieves_away (readAndAnalyze_uses X _) (by decide)).mono
    fun s analyzed hread => ?_)
  obtain ⟨rfl, _, hread⟩ := hread
  refine Discipline.Achieves.bind ((connectDatabase_achieves _).mono fun s database hs => ?_)
  rw [hs]
  refine Discipline.Achieves.bind ((planSession_achieves options
    (accepted_of_readAndAnalyze hread) database).mono fun s observed hs => ?_)
  rw [hs]
  exact (achieves_away (publishPlan_uses X _ _) (by decide)).mono fun _ _ h => h.1

theorem orRefuse_achieves {α : Type} {P : Session → α → Prop} {s : Session} {x : App α}
    {g : AppError → Outcome} (hx : (session X use).Achieves P s x) :
    (session X use).Achieves P s (orRefuse x g) := by
  refine Discipline.Obeys.bind (Discipline.Obeys.mono hx fun s r hr => ?_)
  cases r with
  | ok a =>
      rintro _ ⟨⟩
      exact hr a rfl
  | error e => exact fun _ he => nomatch he

theorem insist_achieves {β : Type} {P : Session → β → Prop} {s : Session} {ok : Bool}
    {outcome : Outcome} {f : Unit → Stage β} (hf : ok → (session X use).Achieves P s (f ())) :
    (session X use).Achieves P s (insist ok outcome >>= f) := by
  refine Discipline.Achieves.bind ?_
  cases ok
  · exact fun _ he => nomatch he
  · exact fun _ _ => hf rfl

theorem openSession_achieves (plan : Plan) (options : DatabaseOptions) :
    (session X (some ⟨.apply, options.allowInsecureLocalhost⟩)).Achieves (fun s _ => s = .locked)
      .unconnected (openSession X plan options) := by
  refine insist_achieves fun _ => ?_
  refine Discipline.Achieves.bind ((orRefuse_achieves (connectDatabase_achieves _)).mono
    fun s database hs => ?_)
  rw [hs]
  refine insist_achieves fun _ => Discipline.achieves_request fun started =>
    ⟨_, session_start rfl started, insist_achieves fun hstarted => ?_⟩
  subst hstarted
  refine Discipline.Achieves.bind ((orRefuse_achieves (applyLocalTimeouts_achieves _)).mono
    fun s _ hs => ?_)
  rw [hs]
  refine Discipline.achieves_request fun locked =>
    ⟨_, session_lock rfl _ locked, insist_achieves fun hlocked => ?_⟩
  subst hlocked
  exact Discipline.achieves_pure rfl

theorem mutate_achieves {insecure : Bool} {analyzed : AnalyzedSql}
    (haccepted : analyzed.Accepted X) (observed : Observed) :
    (session X (some ⟨.apply, insecure⟩)).Achieves (fun _ _ => True) .locked
      (mutate analyzed observed) := by
  refine Discipline.achieves_request fun answer =>
    ⟨_, session_execute rfl haccepted.accepts answer, ?_⟩
  unfold conclude
  rcases answer with error | affected
  · exact Discipline.achieves_request fun done => ⟨_, rfl, Discipline.achieves_pure trivial⟩
  · split
    · exact Discipline.achieves_request fun done => ⟨_, rfl, Discipline.achieves_pure trivial⟩
    · exact Discipline.achieves_request fun done => ⟨_, rfl, Discipline.achieves_pure trivial⟩

theorem applyPlan_achieves (options : ApplyOptions) :
    (session X (some ⟨.apply, options.database.allowInsecureLocalhost⟩)).Achieves
      (fun _ _ => True) .unconnected (applyPlan X options) := by
  refine Discipline.Achieves.bind ((achieves_away (readPlan_uses X _) (by decide)).mono
    fun s plan hs => ?_)
  obtain ⟨rfl, -⟩ := hs
  refine achieves_ofResult fun _ _ => ?_
  refine Discipline.Achieves.bind ((achieves_away (readAndAnalyze_uses X _) (by decide)).mono
    fun s analyzed hread => ?_)
  obtain ⟨rfl, _, hread⟩ := hread
  refine achieves_ofResult fun _ _ => ?_
  refine Discipline.Achieves.bind ((achieves_away unixMs_uses (by decide)).mono fun s now hs => ?_)
  obtain ⟨rfl, -⟩ := hs
  refine Discipline.achieves_ite (fun _ => Discipline.achieves_throw) fun _ => ?_
  refine Discipline.Achieves.bind ((achieves_away (create_uses X _ _ _) (by decide)).mono
    fun s journal hs => ?_)
  obtain ⟨rfl, -⟩ := hs
  rw [applyAfterReceipt_eq]
  -- whatever was decided, publishing it keeps away from the database
  have htransact : (session X (some ⟨.apply, options.database.allowInsecureLocalhost⟩)).Achieves
      (fun _ _ => True) .unconnected (transact X plan analyzed options.database) := by
    refine Discipline.Achieves.bind ((openSession_achieves plan _).mono fun s database hs => ?_)
    rw [hs]
    refine Discipline.Achieves.bind ((checkDrift_reading (accepted_of_readAndAnalyze hread) plan
      database).mono fun s observed hs => ?_)
    rw [hs]
    exact mutate_achieves (accepted_of_readAndAnalyze hread) observed
  refine Discipline.Obeys.bind (Discipline.Obeys.mono htransact fun s decided _ => ?_)
  cases decided with
  | ok outcome =>
      exact (achieves_away (finishOutcome_uses X journal outcome) (by decide)).mono
        fun _ _ _ => trivial
  | error outcome =>
      exact (achieves_away (finishOutcome_uses X journal outcome) (by decide)).mono
        fun _ _ _ => trivial

/-! ### Processes -/

theorem exitCode_ne_zero (c : ErrorClass) : c.exitCode ≠ 0 := by
  cases c <;> decide

/-- Where a conversation that succeeds can end. -/
def Ended (use : Option Use) (s : Session) : Prop := ∀ u, use = some u → u.purpose.Ended s

theorem Ended.of_use {u : Use} {s : Session} (h : u.purpose.Ended s) : Ended (some u) s := by
  rintro _ ⟨⟩
  exact h

/-- A command computes its result and emits it. -/
theorem emit_achieves {α : Type} {use : Option Use} {P : Session → Prop} {s : Session}
    {x : App α} (hx : (session X use).Achieves (fun s _ => P s) s x) (value : α → Json.Value)
    (code : α → UInt8) : (session X use).Achieves (fun s _ => P s) s (do
      let a ← x
      emitJson (value a)
      return code a) := by
  refine Discipline.Achieves.bind (hx.mono fun s a hs => ?_)
  refine Discipline.Achieves.bind ((achieves_away (emitJson_uses _) (by decide)).mono
    fun s' _ hs' => ?_)
  exact Discipline.achieves_pure (hs'.1 ▸ hs)

/-- A command without a conversation. -/
theorem achieves_unused {α : Type} {cs : List Channel} {x : App α} (hx : Uses cs x.run)
    (hcs : cs ⊆ [Channel.read, .write, .clock, .environment, .output]) :
    (session X none).Achieves (fun s _ => Ended none s) .unconnected x :=
  (achieves_away hx hcs).mono fun _ _ _ _ h => nomatch h

theorem run_achieves (command : Command) :
    (session X command.use).Achieves (fun s _ => Ended command.use s) .unconnected
      (run X command) := by
  cases command with
  | lint sql => exact emit_achieves (achieves_unused (lintSql_uses X _) (by decide)) _ _
  | inspect table database =>
      exact emit_achieves ((inspectTable_achieves _ _ _).mono fun _ _ hs => .of_use hs) _ _
  | plan sql out maxRows statementTimeout lockTimeout validFor allowTriggers allowRowSecurity
      database =>
      refine achieves_ofResult fun statementTimeoutMs _ => achieves_ofResult fun lockTimeoutMs _ =>
        achieves_ofResult fun lifetimeMs _ => ?_
      have hplan := createPlan_achieves (X := X) {
        sqlPath := sql, outputPath := out, database
        limits := { maxRows, statementTimeoutMs, lockTimeoutMs }
        lifetimeMs, allowTriggers, allowRowSecurity }
      refine emit_achieves (hplan.mono fun _ _ hs => ?_) _ _
      exact Ended.of_use (u := ⟨.plan, database.allowInsecureLocalhost⟩) hs
  | apply sql plan receipt database =>
      exact emit_achieves ((applyPlan_achieves _).mono fun _ _ _ => .of_use trivial) _ _
  | receiptVerify receipt =>
      exact emit_achieves (achieves_unused (verifyReceipt_uses X _) (by decide)) _ _
  | schema | capabilities | contract =>
      refine Discipline.Achieves.bind ((achieves_unused (emitJson_uses _) (by decide)).mono ?_)
      exact fun _ _ hs => Discipline.achieves_pure hs
  | completions script =>
      have hprint : Uses [.output] (ExceptT.lift (printOrPanic script) : App Unit).run :=
        Within.bind (printOrPanic_uses script) fun _ => within_ret _
      refine Discipline.Achieves.bind ((achieves_unused hprint (by decide)).mono ?_)
      exact fun _ _ hs => Discipline.achieves_pure hs

theorem main_obeys (invocation : Invocation) :
    (session X invocation.use).Obeys (fun s status => status = 0 → Ended invocation.use s)
      .unconnected (main X invocation) := by
  -- reporting an error talks to nobody, and the status is that of an error
  have hexit {use : Option Use} (s : Session) (error : AppError) :
      (session X use).Obeys (fun s status => status = 0 → Ended use s) s (exitWith error) := by
    have haway : [Channel.output] ⊆ [Channel.read, .write, .clock, .environment, .output] := by
      decide
    refine (Discipline.obeys_of_within (exitWith_uses error)
      fun _ hc r => session_quiet r (haway hc)).mono fun s' status hs hzero => ?_
    obtain ⟨-, _, hr⟩ := hs
    exact absurd ((exitWith_ret hr).1.symm.trans hzero) (exitCode_ne_zero _)
  cases invocation with
  | display text =>
      intro shown
      refine ⟨.unconnected, session_quiet shown (List.contains_iff_mem.mp rfl), ?_⟩
      cases shown
      · trivial
      · exact fun _ _ h => nomatch h
  | invalid => exact hexit _ _
  | command command =>
      refine Discipline.Obeys.bind (Discipline.Obeys.mono (run_achieves command)
        fun s result hs => ?_)
      cases result with
      | ok code => exact fun _ => hs code rfl
      | error error => exact hexit s error

namespace Sample

def planInvocation : Invocation :=
  .command (.plan [1] [2] 1 1000 1000 100 false false options.database)

/-- The small planning, printed. -/
def printedPlan : History :=
  (planning "").history ++ [⟨.stdout (toVecPretty (Plan.codec.ser (planning "").plan)), true⟩,
    ⟨.stdout (asBytes "\n"), true⟩]

theorem reaches_printedPlan : Reaches (main crates planInvocation) printedPlan (.ret 0) := by
  have hplan : Reaches (createPlan crates planOptions).run (planning "").history
      (.ret (.ok (planning "").plan)) := (planning "").reaches
  refine Reaches.append (((hplan.bind_ok _).bind_left _)) ?_
  exact .call (.call (.refl _))

end Sample

end DmlPact
