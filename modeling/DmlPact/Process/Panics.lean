/-
DmlPact/Process/Panics.lean

When a process panics.  The source unwraps two kinds of answers: columns of
rows, and the writes of `print!` and of the completion generator.  A row with the
columns that its query selects is read without a panic, so a panic behind a
query has a row that does not fit among the answers.  Every other part is
`Steady`.

That row has been read before the statement is sent: a panic leaves neither a
statement nor a COMMIT behind it, and in the file system nothing but the
prepared event of an apply (`main_panics`).
-/
import DmlPact.Lib.Crash
import DmlPact.Process.Columns
import DmlPact.Process.Outputs
import DmlPact.Receipt.Protocol

namespace DmlPact

open Effect Utf8

variable {X : Crates} {h : History}

/-! ### Steady parts -/

theorem steady_ofResult {α : Type} (r : AppResult α) : Steady (ofResult r).run := steady_ret _

/-- Reading a SQL file ends in an error or a value. -/
theorem readAndAnalyze_steady (path : Path) : Steady (readAndAnalyze X path).run := by
  refine .bind (.request _) fun found => ?_
  rcases found with - | metadata
  · exact .throw _
  refine .ite (.throw _) (.ite (.throw _) (.bind (.request _) fun content => ?_))
  rcases content with - | bytes
  · exact .throw _
  dsimp only
  split
  · exact .throw _
  · exact steady_ofResult _

/-- So does reading a plan. -/
theorem readPlan_steady (path : Path) : Steady (readPlan X path).run := by
  refine .bind (.request _) fun found => ?_
  rcases found with - | metadata
  · exact .throw _
  refine .ite (.throw _) (.bind (.request _) fun content => ?_)
  rcases content with - | bytes
  · exact .throw _
  · exact steady_ofResult _

/-- And verifying a receipt, whatever is in the file. -/
theorem verifyReceipt_steady (path : Path) : Steady (verifyReceipt X path).run := by
  refine .bind (.request _) fun found => ?_
  rcases found with - | metadata
  · exact .throw _
  refine .ite (.throw _) (.bind (.request _) fun content => ?_)
  rcases content with - | bytes
  · exact .throw _
  · exact steady_ofResult _

theorem unixMs_steady : Steady unixMs.run := by
  refine .bind (.request _) fun time => ?_
  rcases time with - | ms
  · exact .throw _
  · exact .ite (.pure _) (.throw _)

/-- No answer on the way to a connection is unwrapped. -/
theorem connectDatabase_steady (name : String) (insecure : Bool) :
    Steady (connectDatabase X name insecure).run := by
  rw [connectDatabase_eq]
  refine .bind (steady_ofResult _) fun _ => .bind (.request _) fun value => ?_
  rcases value with - | value
  · exact .throw _
  refine .ite (.throw _) ?_
  rcases X.parseConfig value with - | parsed
  · exact .throw _
  refine .ite (.ite (.throw _) (.bind (.request _) fun opened => ?_))
    (.bind (.request _) fun found => ?_)
  · cases opened
    · exact .throw _
    · exact .pure _
  cases found
  · exact .throw _
  refine .bind (.request _) fun opened => ?_
  cases opened
  · exact .throw _
  · exact .pure _

theorem applyLocalTimeouts_steady (limits : Limits) : Steady (applyLocalTimeouts limits).run := by
  refine .bind (.request _) fun done => ?_
  cases done
  · exact .throw _
  · exact .pure _

theorem writeDurably_steady (path : Path) (bytes : Bytes) :
    Steady (writeDurably path bytes).run := by
  refine .bind (.request _) fun written => ?_
  cases written
  · exact .request _
  · exact .pure _

theorem writeEvent_steady (path : Path) (event : ReceiptEvent) :
    Steady (writeEvent path event).run := by
  refine .bind (writeDurably_steady _ _) fun durable => ?_
  cases durable
  · exact .throw _
  · exact .pure _

/-- A journal is created, or the reason is returned. -/
theorem create_steady (path : Path) (plan : Plan) (sqlFileSha256 : String) :
    Steady (ReceiptJournal.create X path plan sqlFileSha256).run := by
  refine .bind (steady_ofResult _) fun _ => .bind unixMs_steady fun _ => ?_
  refine .bind (steady_ofResult _) fun prepared => .bind (.request _) fun created => ?_
  cases created
  · exact .throw _
  · exact .bind (writeEvent_steady _ _) fun _ => .pure _

/-- Sealing and writing a plan. -/
theorem publishPlan_steady (options : PlanOptions) (draft : UInt64 → Plan) :
    Steady (publishPlan X options draft).run := by
  refine .bind unixMs_steady fun _ => .ite (.throw _) ?_
  refine .bind (steady_ofResult _) fun plan => .bind ?_ fun _ => .pure _
  refine .bind (steady_ofResult _) fun _ => .bind (.request _) fun created => ?_
  cases created
  · exact .throw _
  refine .bind (writeDurably_steady _ _) fun durable => ?_
  cases durable
  · exact .throw _
  · exact .pure _

theorem finish_steady (journal : ReceiptJournal) (state : ReceiptState) (result : ReceiptResult) :
    Steady (finish X journal state result).run := by
  refine .bind (.ite (.throw _) (.bind unixMs_steady fun _ => ?_)) fun _ => .pure _
  exact .bind (steady_ofResult _) fun _ => .bind (writeEvent_steady _ _) fun _ => .pure _

theorem mapErr_steady {α : Type} {x : App α} (hx : Steady x.run) (error : AppError) :
    Steady (mapErr x error).run := by
  refine .bind hx.attempt fun r => ?_
  cases r
  · exact .throw _
  · exact .pure _

/-- Whatever was decided, publishing it returns. -/
theorem finishOutcome_steady (journal : ReceiptJournal) (outcome : Outcome) :
    Steady (finishOutcome X journal outcome).run := by
  rcases outcome with ⟨state, result⟩
  cases state
  case committed | uncertain => exact mapErr_steady (finish_steady _ _ _) _
  all_goals exact finish_steady _ _ _

/-- What the statement and COMMIT are answered is matched, not unwrapped. -/
theorem mutate_steady (analyzed : AnalyzedSql) (observed : Observed) :
    Steady (mutate analyzed observed).run := by
  refine .bind (.request _) fun answer => ?_
  unfold conclude
  rcases asCounted observed answer with - | affected
  · exact .bind (.request _) fun _ => .pure _
  · exact .bind (.request _) fun _ => .pure _

/-- A document is printed, or its error is returned. -/
theorem emitJson_steady (value : Json.Value) : Steady (emitJson value).run := by
  refine .bind (.request _) fun shown => ?_
  cases shown
  · exact .throw _
  refine .bind (.request _) fun ended => ?_
  cases ended
  · exact .throw _
  · exact .pure _

theorem exitWith_steady (error : AppError) : Steady (exitWith error) := by
  intro h hr
  obtain ⟨shown, t, rfl, hshown⟩ := Reaches.call_crash_iff.mp hr
  cases shown
  · cases hshown
  · obtain ⟨ended, t, rfl, hended⟩ := Reaches.call_crash_iff.mp hshown
    cases hended

/-! ### Reading rows -/

/-- The last answer is that of a query. -/
def EndsInQuery (h : History) : Prop :=
  ∃ before sql params rows, h = before ++ [⟨.query sql params, rows⟩]

/-- A row that does not fit has been read, and the last answer was rows. -/
def Misread (h : History) : Prop := EndsInQuery h ∧ ∃ e ∈ h, Misfit e

/-- What was done before does not matter. -/
theorem EndsInQuery.behind (h : History) {t : History} (ht : EndsInQuery t) :
    EndsInQuery (h ++ t) := by
  obtain ⟨before, sql, params, rows, rfl⟩ := ht
  exact ⟨h ++ before, sql, params, rows, (List.append_assoc _ _ _).symm⟩

/-- A misread row stays one behind other commands. -/
theorem carried_misread : Carried Misread := by
  rintro h t ⟨hlast, e, he, hmisfit⟩
  exact ⟨hlast.behind h, e, List.mem_append_right _ he, hmisfit⟩

section Queries

variable {α : Type} {sql : String} {params : List SqlValue} {columns : List Column}

/-- The answer to one query, with a row that does not fit. -/
theorem misread_of_rows {rows : Rows} (hsql : Selects sql columns)
    (hrows : ¬ ∀ row ∈ rows.rows, row.Fits columns) : Misread [⟨.query sql params, rows⟩] := by
  obtain ⟨row, hrow, hnot⟩ : ∃ row ∈ rows.rows, ¬ row.Fits columns := by simpa using hrows
  exact ⟨⟨[], sql, params, rows, rfl⟩, _, List.mem_singleton_self _,
    sql, params, rows, columns, rfl, hsql, row, hrow, hnot⟩

/-- Unwrapping panics on nothing, and sends no command. -/
theorem orPanic_crash {o : Option α} (hr : Reaches (orPanic o).run h .crash) : h = [] ∧ o = none := by
  rcases o with - | a
  · exact ⟨(Reaches.crash_iff.mp hr).1, rfl⟩
  · cases hr

theorem queryOne_steady : Steady (queryOne sql params).run := by
  refine .bind (.request _) fun answer => ?_
  split
  · exact .pure _
  · exact .pure _

theorem queryOpt_steady : Steady (queryOpt sql params).run := by
  refine .bind (.request _) fun answer => ?_
  split
  · exact .pure _
  · exact .pure _
  · exact .pure _

theorem queryAll_steady : Steady (queryAll sql params).run := by
  refine .bind (.request _) fun answer => ?_
  split
  · exact .pure _
  · exact .pure _

/-- A row that was not decoded does not have its columns. -/
theorem not_fits (decode : Row → Option α) {row : Row}
    (hdecode : row.Fits columns → (decode row).isSome) (hnone : decode row = none) :
    ¬ row.Fits columns := by
  intro hfits
  have hsome := hdecode hfits
  rw [hnone] at hsome
  exact Bool.false_ne_true hsome

/-- The one row of an answer could not be decoded. -/
theorem misread_of_queryOne (decode : Row → Option α) {row : Row} (hsql : Selects sql columns)
    (hdecode : row.Fits columns → (decode row).isSome)
    (hq : Reaches (queryOne sql params).run h (.ret (.ok (some row))))
    (hnone : decode row = none) : Misread h := by
  rw [queryOne_ok.mp hq]
  exact misread_of_rows hsql fun hall =>
    not_fits decode hdecode hnone (hall row (List.mem_singleton_self row))

/-- The rows of one catalog query. -/
theorem catalogRows_misreads {decode : Row → Option α} {oid : Int64} {errorCode : String}
    (hsql : Selects sql columns) (hdecode : ∀ row : Row, row.Fits columns → (decode row).isSome) :
    Crashes Misread (catalogRows decode sql oid errorCode).run := by
  intro h hr
  rcases Reaches.run_bind_crash_iff.mp hr with hq | ⟨h₁, h₂, found, rfl, hq, hrest⟩
  · exact (queryAll_steady h hq).elim
  rcases found with - | rows
  · cases hrest
  obtain ⟨rfl, hnone⟩ := orPanic_crash hrest
  rw [List.append_nil, queryAll_ok.mp hq]
  refine misread_of_rows hsql fun hall => ?_
  have hsome := isSome_mapM (f := decode) fun row hrow => hdecode row (hall row hrow)
  rw [hnone] at hsome
  exact Bool.false_ne_true hsome

end Queries

/-- The row of the identity. -/
theorem databaseIdentity_misreads (endpoint : String) :
    Crashes Misread (databaseIdentity endpoint).run := by
  intro h hr
  rcases Reaches.run_bind_crash_iff.mp hr with hq | ⟨h₁, h₂, found, rfl, hq, hrest⟩
  · exact (queryOne_steady h hq).elim
  rcases found with - | row
  · cases hrest
  obtain ⟨rfl, hnone⟩ := orPanic_crash hrest
  rw [List.append_nil]
  exact misread_of_queryOne _ .identity DatabaseIdentity.isSome_ofRow hq hnone

/-- Behind the row of a table: an answer is misread, or that row is, last. -/
def Looked (row : Row) (t : History) : Prop :=
  Misread t ∨ (EndsInQuery t ∧ ¬ row.Fits lookupColumns)

theorem carried_looked (row : Row) : Carried (Looked row) := by
  rintro h t (ht | ⟨hlast, hnot⟩)
  · exact .inl (carried_misread h t ht)
  · exact .inr ⟨hlast.behind h, hnot⟩

theorem catalogRows_looked {α β : Type} {row : Row} {decode : Row → Option α} {sql : String}
    {oid : Int64} {errorCode : String} {columns : List Column} (hsql : Selects sql columns)
    (hdecode : ∀ row : Row, row.Fits columns → (decode row).isSome) {f : List α → App β}
    (hf : ∀ values, Crashes (Looked row) (f values).run) :
    Crashes (Looked row) (catalogRows decode sql oid errorCode >>= f).run :=
  Crashes.run_bind (carried_looked row)
    (Crashes.mono (catalogRows_misreads hsql hdecode) fun _ => .inl) fun _ values _ => hf values

/-- One of the six queries for named definitions, and what follows it. -/
theorem namedDefinitions_looked {β : Type} {row : Row} {sql : String} {oid : Int64}
    {errorCode : String}
    (hsql : sql ∈ [constraintSql, indexSql, triggerSql, ruleSql, policySql, referentialActionSql])
    {f : List NamedDefinition → App β} (hf : ∀ values, Crashes (Looked row) (f values).run) :
    Crashes (Looked row) (namedDefinitions sql oid errorCode >>= f).run :=
  catalogRows_looked (.named hsql) (fun _ => NamedDefinition.isSome_ofRow) hf

/-- The last query, and behind it what is left of the row of the table. -/
theorem lastRows_looked {α β : Type} {row : Row} {decode : Row → Option α} {sql : String}
    {oid : Int64} {errorCode : String} {columns : List Column} (hsql : Selects sql columns)
    (hdecode : ∀ row : Row, row.Fits columns → (decode row).isSome) {f : List α → Option β}
    (hf : ∀ values, row.Fits lookupColumns → (f values).isSome) :
    Crashes (Looked row)
      (catalogRows decode sql oid errorCode >>= fun values => orPanic (f values)).run := by
  intro h hr
  rcases Reaches.run_bind_crash_iff.mp hr with hrows | ⟨h₁, h₂, values, rfl, hrows, hlast⟩
  · exact .inl (catalogRows_misreads hsql hdecode h hrows)
  · obtain ⟨rfl, hnone⟩ := orPanic_crash hlast
    obtain ⟨rows, -, rfl⟩ := catalogRows_ok.mp hrows
    exact .inr ⟨⟨[], _, _, _, rfl⟩, not_fits (fun _ => f values) (hf values) hnone⟩

/-- **Evidence.**  The row of the table is looked at first, and its last columns are
decoded behind all the other queries. -/
theorem tableEvidence_misreads (requestedTable : String) :
    Crashes Misread (tableEvidence requestedTable).run := by
  intro h hr
  rcases Reaches.run_bind_crash_iff.mp hr with hq | ⟨h₁, h₂, found, rfl, hq, hrest⟩
  · exact (queryOpt_steady h hq).elim
  rcases found with - | - | row
  · cases hrest
  · cases hrest
  have hlast : EndsInQuery h₁ := by
    rw [queryOpt_ok.mp hq]
    exact ⟨[], _, _, _, rfl⟩
  have hrow (hnot : ¬ row.Fits lookupColumns) : ∃ e ∈ h₁, Misfit e := by
    rw [queryOpt_ok.mp hq]
    exact (misread_of_rows .lookup fun hall => hnot (hall row (List.mem_singleton_self row))).2
  rcases Reaches.run_bind_crash_iff.mp hrest with hp | ⟨h₃, h₄, oid, rfl, hp, hcatalog⟩
  · obtain ⟨rfl, hnone⟩ := orPanic_crash hp
    rw [List.append_nil]
    exact ⟨hlast, hrow (not_fits (fun row => (row.get 0 : Option Int64))
      (fun hfits => hfits.get rfl) hnone)⟩
  obtain ⟨rfl, -⟩ := ok_orPanic_last.mp hp
  rw [List.nil_append]
  -- the rest of the row is read behind the other queries
  have hlooked : Looked row h₄ := by
    refine catalogRows_looked .columns (fun _ => ColumnEvidence.isSome_ofRow) (fun columns => ?_)
      h₄ hcatalog
    refine namedDefinitions_looked (by simp) fun constraints => ?_
    refine namedDefinitions_looked (by simp) fun indexes => ?_
    refine namedDefinitions_looked (by simp) fun userTriggers => ?_
    refine namedDefinitions_looked (by simp) fun rewriteRules => ?_
    refine namedDefinitions_looked (by simp) fun policies => ?_
    refine catalogRows_looked .inheritance (fun _ hfits => hfits.get rfl) fun links => ?_
    refine lastRows_looked (.named (by simp)) (fun _ => NamedDefinition.isSome_ofRow)
      fun referentialActions hfits => ?_
    iterate 6 refine isSome_bind (hfits.get rfl) fun _ => ?_
    rfl
  rcases hlooked with hmisread | ⟨hend, hnot⟩
  · exact carried_misread h₁ h₄ hmisread
  · obtain ⟨e, he, hmisfit⟩ := hrow hnot
    exact ⟨hend.behind h₁, e, List.mem_append_left _ he, hmisfit⟩

/-- The queries generated for the statement ask for one column. -/
def AnalyzedSql.Asks (analyzed : AnalyzedSql) : Prop :=
  (∀ query, analyzed.countSql = some query → Selects query [⟨.int8, false⟩]) ∧
    ∀ query, analyzed.targetRowsSql = some query → Selects query [⟨.text, false⟩]

/-- What an accepted file generates asks for one column. -/
theorem asks_of_readAndAnalyze {path : Path} {analyzed : AnalyzedSql}
    (hr : Reaches (readAndAnalyze X path).run h (.ret (.ok analyzed))) : analyzed.Asks := by
  obtain ⟨_, _, _, -, -, -, -, hanalyzed⟩ := (readAndAnalyze_ok X).mp hr
  obtain ⟨statement, details, -, -, hdetails, rfl⟩ := analyzeSql_ok X hanalyzed
  rcases analyzeStatement_ok X hdetails with ⟨-, -, hcount, htarget⟩ | ⟨_, _, _, -, hs⟩
  · -- an INSERT has no queries
    exact ⟨fun query hq => absurd (hcount.symm.trans hq) (Option.some_ne_none _).symm,
      fun query hq => absurd (htarget.symm.trans hq) (Option.some_ne_none _).symm⟩
  · obtain ⟨name, rowReference, -, rfl⟩ := selectionDetails_ok X hs
    refine ⟨fun query hq => ?_, fun query hq => ?_⟩
    · cases hq
      exact .count _ _
    · cases hq
      exact .targetRows _ _ _

/-- The row of the count. -/
theorem targetCount_misreads {analyzed : AnalyzedSql} (hasks : analyzed.Asks) :
    Crashes Misread (targetCount analyzed).run := by
  unfold targetCount
  rcases hquery : analyzed.countSql with - | query
  · exact (Steady.pure _).crashes
  intro h hr
  rcases Reaches.run_bind_crash_iff.mp hr with hq | ⟨h₁, h₂, found, rfl, hq, hrest⟩
  · exact (queryOne_steady h hq).elim
  rcases found with - | row
  · cases hrest
  rcases Reaches.run_bind_crash_iff.mp hrest with hp | ⟨_, h₃, count, rfl, -, hchecked⟩
  · obtain ⟨rfl, hnone⟩ := orPanic_crash hp
    rw [List.append_nil]
    exact misread_of_queryOne (fun row => (row.get 0 : Option Int64))
      (hasks.1 query hquery) (fun hfits => hfits.get rfl) hq hnone
  · have hsteady : Steady (if count < 0 then
        throw (contract "target_count_invalid" "PostgreSQL returned an invalid target count")
      else pure count.toUInt64 : App UInt64).run := .ite (.throw _) (.pure _)
    exact (hsteady _ hchecked).elim

/-- The rows of the targets. -/
theorem targetSetSha256_misreads {analyzed : AnalyzedSql} (hasks : analyzed.Asks)
    (expectedCount : UInt64) :
    Crashes Misread (targetSetSha256 X analyzed expectedCount).run := by
  unfold targetSetSha256
  rcases hquery : analyzed.targetRowsSql with - | query
  · exact (Steady.pure _).crashes
  intro h hr
  obtain ⟨answer, t, rfl, hanswer⟩ := Reaches.call_crash_iff.mp hr
  rcases Reaches.run_bind_crash_iff.mp hanswer with hp | ⟨_, h₃, collected, rfl, -, hchecked⟩
  · obtain ⟨rfl, hnone⟩ := orPanic_crash hp
    refine misread_of_rows (hasks.2 query hquery) fun hall => ?_
    have hsome := isSome_collectEvidence hall [] 0
    rw [hnone] at hsome
    exact Bool.false_ne_true hsome
  · refine (Steady.bind (steady_ofResult collected) (fun found => ?_) _ hchecked).elim
    exact .ite (.throw _) (.ite (.throw _) (.pure _))

/-! ### Sessions -/

theorem Misreads.bind {α β : Type} {x : App α} {f : α → App β} (hx : Crashes Misread x.run)
    (hf : ∀ a, Crashes Misread (f a).run) : Crashes Misread (x >>= f).run :=
  Crashes.run_bind carried_misread hx fun _ a _ => hf a

theorem Misreads.past {α β : Type} {x : App α} {f : α → App β} (hx : Steady x.run)
    (hf : ∀ a, Crashes Misread (f a).run) : Crashes Misread (x >>= f).run :=
  Misreads.bind hx.crashes hf

/-- An inspection panics on rows only. -/
theorem inspectTable_misreads (requestedTable : String) (options : DatabaseOptions) :
    Crashes Misread (inspectTable X requestedTable options).run := by
  rw [inspectTable_eq]
  refine Misreads.past (connectDatabase_steady _ _) fun database => ?_
  refine Misreads.bind (databaseIdentity_misreads _) fun identity => ?_
  refine Misreads.past (steady_ofResult _) fun _ => ?_
  refine Misreads.bind (tableEvidence_misreads _) fun evidence => ?_
  exact Misreads.past (steady_ofResult _) fun _ => (Steady.pure _).crashes

/-- So does the session of a planning. -/
theorem planSession_misreads (options : PlanOptions) {analyzed : AnalyzedSql}
    (hasks : analyzed.Asks) (database : ConnectedDatabase) :
    Crashes Misread (planSession X options analyzed database).run := by
  refine Misreads.past (.request _) fun started => ?_
  cases started
  · exact (Steady.throw _).crashes
  refine Misreads.past (applyLocalTimeouts_steady _) fun _ => ?_
  refine Misreads.bind (databaseIdentity_misreads _) fun identity => ?_
  refine Misreads.past (steady_ofResult _) fun _ => ?_
  refine Misreads.bind (tableEvidence_misreads _) fun evidence => ?_
  refine Misreads.past (steady_ofResult _) fun _ => Misreads.past (steady_ofResult _) fun _ => ?_
  refine Misreads.bind (targetCount_misreads hasks) fun count => ?_
  split_ifs
  · exact (Steady.throw _).crashes
  refine Misreads.bind (targetSetSha256_misreads hasks count) fun targetSet => ?_
  intro h hr
  rcases Reaches.run_bind_crash_iff.mp hr with hq | ⟨h₁, h₂, found, rfl, hq, hrest⟩
  · exact (queryOne_steady h hq).elim
  rcases found with - | row
  · cases hrest
  rcases Reaches.run_bind_crash_iff.mp hrest with hp | ⟨_, h₃, explain, rfl, -, hcommit⟩
  · obtain ⟨rfl, hnone⟩ := orPanic_crash hp
    rw [List.append_nil]
    exact misread_of_queryOne (fun row => (row.get 0 : Option Json.Value))
      (.explain _) (fun hfits => hfits.get rfl) hq hnone
  · refine (Steady.bind (.request _) (fun committed => ?_) _ hcommit).elim
    cases committed
    · exact .throw _
    · exact .pure _

theorem orRefuse_crashes {α : Type} {K : History → Prop} (hK : Carried K) {x : App α}
    {f : AppError → Outcome} (hx : Crashes K x.run) : Crashes K (orRefuse x f).run :=
  Crashes.bind hK hx fun r => by cases r <;> exact (steady_ret _).crashes

theorem insist_steady (ok : Bool) (outcome : Outcome) : Steady (insist ok outcome).run :=
  steady_ret _

/-- The session of an apply is opened, or refused. -/
theorem openSession_steady (plan : Plan) (options : DatabaseOptions) :
    Steady (openSession X plan options).run := by
  refine .bind (insist_steady _ _) fun _ => ?_
  refine .bind (orRefuse_crashes carried_false (connectDatabase_steady _ _)) fun database => ?_
  refine .bind (insist_steady _ _) fun _ => .bind (.request _) fun started => ?_
  refine .bind (insist_steady _ _) fun _ => ?_
  refine .bind (orRefuse_crashes carried_false (applyLocalTimeouts_steady _)) fun _ => ?_
  refine .bind (.request _) fun locked => .bind (insist_steady _ _) fun _ => ?_
  exact .pure _

/-- The comparisons under the lock panic on rows only. -/
theorem checkDrift_misreads (plan : Plan) {analyzed : AnalyzedSql} (hasks : analyzed.Asks)
    (database : ConnectedDatabase) :
    Crashes Misread (checkDrift X plan analyzed database).run := by
  have hread {α β : Type} {x : App α} {g : AppError → Outcome} {f : α → Stage β}
      (hx : Crashes Misread x.run) (hf : ∀ a, Crashes Misread (f a).run) :
      Crashes Misread (orRefuse x g >>= f).run :=
    Crashes.run_bind carried_misread (orRefuse_crashes carried_misread hx) fun _ a _ => hf a
  have hpast {β : Type} {ok : Bool} {outcome : Outcome} {f : Unit → Stage β}
      (hf : ∀ a, Crashes Misread (f a).run) : Crashes Misread (insist ok outcome >>= f).run :=
    Crashes.run_bind carried_misread (insist_steady ok outcome).crashes fun _ a _ => hf a
  refine hread (databaseIdentity_misreads _) fun identity => hpast fun _ => ?_
  refine hread (tableEvidence_misreads _) fun evidence => ?_
  refine hread (steady_ofResult _).crashes fun schemaHash => hpast fun _ => ?_
  refine hread (steady_ofResult _).crashes fun _ => ?_
  refine hread (targetCount_misreads hasks) fun count => hpast fun _ => hpast fun _ => ?_
  refine hread (targetSetSha256_misreads hasks count) fun targetSet => hpast fun _ => ?_
  exact (Steady.pure _).crashes

/-- And they are all of the decision that can panic. -/
theorem transact_misreads (plan : Plan) {analyzed : AnalyzedSql} (hasks : analyzed.Asks)
    (options : DatabaseOptions) :
    Crashes Misread (transact X plan analyzed options).run := by
  refine Crashes.run_bind carried_misread (openSession_steady _ _).crashes fun _ database _ => ?_
  refine Crashes.run_bind carried_misread (checkDrift_misreads plan hasks database)
    fun _ observed _ => ?_
  exact (mutate_steady _ _).crashes

/-- Publishing an outcome does not panic, so what panics is the decision. -/
theorem applyAfterReceipt_crash {journal : ReceiptJournal} {plan : Plan}
    {analyzed : AnalyzedSql} {options : DatabaseOptions}
    (hr : Reaches (applyAfterReceipt X journal plan analyzed options).run h .crash) :
    Reaches (transact X plan analyzed options).run h .crash := by
  rw [applyAfterReceipt_eq] at hr
  rcases Reaches.bind_crash_iff.mp hr with hdecide | ⟨_, t, decided, -, -, hpublish⟩
  · exact hdecide
  · cases decided with
    | ok outcome => exact (finishOutcome_steady journal outcome t hpublish).elim
    | error outcome => exact (finishOutcome_steady journal outcome t hpublish).elim

/-! ### What has been done before -/

/-- The states before a statement is sent. -/
def Session.early : Session → Bool
  | .executed _ | .committed | .over => false
  | _ => true

theorem early_of_reading (p : Purpose) : p.reading.early = true := by
  cases p <;> rfl

/-- Where a query is sent, no statement has been. -/
theorem early_of_query {use : Option Use} {s s' : Session} {sql : String}
    {params : List SqlValue} {rows : Rows}
    (hs : (session X use).step s (.query sql params) rows = some s') : s.early = true := by
  rcases use with - | use
  · simp [session, Cmd.channel] at hs
  obtain ⟨⟨rfl, -⟩, -⟩ := Option.ite_none_right_eq_some.mp hs
  exact early_of_reading _

/-- A step that leads to a state before the statement is from such a state, and
is none of the commands that change something. -/
theorem early_of_step {use : Option Use} {s s' : Session} {c : Cmd} {r : Reply c}
    (hs : (session X use).step s c r = some s') (hearly : s'.early = true) :
    s.early = true ∧ c.channel ∉ [Channel.execute, .finish] := by
  rcases use with - | use
  · obtain ⟨hc, hsame⟩ := Option.ite_none_left_eq_some.mp hs
    cases hsame
    exact ⟨hearly, fun hm => hc (by simp only [List.mem_cons] at hm ⊢; tauto)⟩
  cases c
  case query sql params => exact ⟨early_of_query hs, by simp [Cmd.channel]⟩
  case connect config connector =>
    obtain ⟨hstate, -⟩ := Option.ite_none_right_eq_some.mp hs
    obtain ⟨rfl, -⟩ : s = .unconnected ∧ _ := by simpa using hstate
    exact ⟨rfl, by simp [Cmd.channel]⟩
  case start isolation readOnly =>
    obtain ⟨hstate, -⟩ := Option.ite_none_right_eq_some.mp hs
    obtain ⟨⟨rfl, -⟩, -⟩ : (s = .connected ∧ _) ∧ _ := by simpa using hstate
    exact ⟨rfl, by simp [Cmd.channel]⟩
  case batchExecute sql =>
    by_cases hsettings : s = .begun ∧ ∃ limits, sql = timeoutSettings limits
    · exact ⟨by rw [hsettings.1]; rfl, by simp [Cmd.channel]⟩
    · obtain ⟨⟨rfl, -⟩, -⟩ := Option.ite_none_right_eq_some.mp ((if_neg hsettings).symm.trans hs)
      exact ⟨rfl, by simp [Cmd.channel]⟩
  case execute sql =>
    obtain ⟨-, hsame⟩ := Option.ite_none_right_eq_some.mp hs
    cases hsame
    cases hearly
  case rollback =>
    cases s
    case executed =>
      cases hs
      cases hearly
    all_goals cases hs
  case commit =>
    obtain ⟨-, hsame⟩ := Option.ite_none_right_eq_some.mp hs
    rcases r with - | -
    all_goals
      cases hsame
      cases hearly
  all_goals
    cases hs
    exact ⟨hearly, by simp [Cmd.channel]⟩

/-- The step, over a run. -/
theorem early_of_run {use : Option Use} {s s' : Session}
    (hs : (session X use).run s h = some s') (hearly : s'.early = true) :
    s.early = true ∧ ∀ e ∈ h, e.cmd.channel ∉ [Channel.execute, .finish] := by
  induction h generalizing s with
  | nil =>
      obtain rfl := Option.some.inj hs
      exact ⟨hearly, by simp⟩
  | cons e h ih =>
      obtain ⟨s₁, hstep, hrest⟩ := Option.bind_eq_some_iff.mp hs
      obtain ⟨hmiddle, hevents⟩ := ih hrest
      obtain ⟨hfirst, hcmd⟩ := early_of_step hstep hmiddle
      refine ⟨hfirst, fun e' he' => ?_⟩
      rcases List.mem_cons.mp he' with rfl | he'
      · exact hcmd
      · exact hevents e' he'

/-- Behind a query no statement has been sent. -/
theorem unsent_of_query {invocation : Invocation} {q : Prog Cmd Reply UInt8}
    (hr : Reaches (main X invocation) h q) (hlast : EndsInQuery h) :
    ∀ e ∈ h, e.cmd.channel ∉ [Channel.execute, .finish] := by
  obtain ⟨before, sql, params, rows, rfl⟩ := hlast
  obtain ⟨s', hrun, -⟩ := (main_obeys (X := X) invocation).reaches hr
  rw [Discipline.run_append] at hrun
  obtain ⟨s, hbefore, hquery⟩ := Option.bind_eq_some_iff.mp hrun
  obtain ⟨s₁, hstep, -⟩ := Option.bind_eq_some_iff.mp hquery
  intro e he
  rcases List.mem_append.mp he with he | he
  · exact (early_of_run hbefore (early_of_query hstep)).2 e he
  · rw [List.mem_singleton.mp he]
    simp [Cmd.channel]

/-! ### Commands -/

theorem untouched_of_uses {α : Type} {cs : List Channel} {p q : Prog Cmd Reply α}
    (hp : Uses cs p) (hcs : Channel.write ∉ cs) (hr : Reaches p h q) : fileEvents h = [] := by
  refine fileEvents_of_channel fun e he hwrite => ?_
  have hmem := Within.events hp hr e he
  rw [hwrite] at hmem
  exact hcs hmem

/-- A planning that panics has touched no file. -/
theorem createPlan_panics {options : PlanOptions}
    (hr : Reaches (createPlan X options).run h .crash) : Misread h ∧ fileEvents h = [] := by
  rw [createPlan_eq] at hr
  obtain ⟨_, _, _, rfl, hvalid, hr₁⟩ := (steady_ofResult _).past hr
  obtain ⟨rfl, -⟩ := Reaches.ret_iff.mp hvalid
  split_ifs at hr₁
  · cases hr₁
  obtain ⟨h₁, _, analyzed, rfl, hread, hr₂⟩ := (readAndAnalyze_steady _).past hr₁
  obtain ⟨h₂, _, database, rfl, hconnect, hr₃⟩ := (connectDatabase_steady _ _).past hr₂
  rcases Reaches.run_bind_crash_iff.mp hr₃ with hsession | ⟨_, t, _, rfl, -, hpublish⟩
  swap
  · exact (publishPlan_steady _ _ t hpublish).elim
  refine ⟨carried_misread [] _ (carried_misread h₁ _ (carried_misread h₂ _ ?_)), ?_⟩
  · exact planSession_misreads options (asks_of_readAndAnalyze hread) database _ hsession
  · -- nothing that was run can write
    rw [List.nil_append, fileEvents_append, fileEvents_append,
      untouched_of_uses (readAndAnalyze_uses X _) (by decide) hread,
      untouched_of_uses (connectDatabase_uses X _ _) (by decide) hconnect,
      untouched_of_uses (planSession_uses X _ _ _) (by decide) hsession]
    rfl

/-- A panic of an apply is behind its prepared event, and before the terminal one. -/
theorem applyPlan_panics {options : ApplyOptions}
    (hr : Reaches (applyPlan X options).run h .crash) :
    Misread h ∧ ∃ prepared, IsPrepared X prepared ∧
      fileEvents h = durablePrepared options.receiptPath prepared := by
  unfold applyPlan at hr
  obtain ⟨h₁, _, plan, rfl, hplan, hr₁⟩ := (readPlan_steady _).past hr
  obtain ⟨h₂, _, _, rfl, hfeatures, hr₂⟩ := (steady_ofResult _).past hr₁
  obtain ⟨h₃, _, analyzed, rfl, hread, hr₃⟩ := (readAndAnalyze_steady _).past hr₂
  obtain ⟨h₄, _, _, rfl, hmatches, hr₄⟩ := (steady_ofResult _).past hr₃
  obtain ⟨h₅, _, now, rfl, hnow, hr₅⟩ := unixMs_steady.past hr₄
  split_ifs at hr₅
  · cases hr₅
  obtain ⟨h₆, rest, journal, rfl, hcreate, hr₆⟩ := (create_steady _ _ _).past hr₅
  have htransact := applyAfterReceipt_crash hr₆
  refine ⟨?_, journal.prepared, ?_, ?_⟩
  · iterate 6 refine carried_misread _ _ ?_
    exact transact_misreads plan (asks_of_readAndAnalyze hread) options.database rest htransact
  · obtain ⟨planSha256, t, hsealed, hjournal, -⟩ := (create_ok X).mp hcreate
    obtain ⟨_, _, _, -, -, -, -, han⟩ := (readAndAnalyze_ok X).mp hread
    obtain ⟨_, _, -, -, -, hanalyzed⟩ := analyzeSql_ok X han
    obtain ⟨-, hhash⟩ := verifiedPlanSha256_ok X hsealed
    have hsql : analyzed.sqlFileSha256 = sha256Bytes X _ :=
      congrArg AnalyzedSql.sqlFileSha256 hanalyzed
    rw [hjournal, hhash, hsql]
    exact ⟨_, _, t, rfl⟩
  · -- the receipt is created between parts that write nothing
    obtain ⟨_, t, -, -, hcreated⟩ := (create_ok X).mp hcreate
    obtain ⟨rfl, -⟩ := ok_ofResult_last.mp hfeatures
    obtain ⟨rfl, -⟩ := ok_ofResult_last.mp hmatches
    simp only [fileEvents_append]
    rw [untouched_of_uses (readPlan_uses X _) (by decide) hplan,
      untouched_of_uses (readAndAnalyze_uses X _) (by decide) hread,
      untouched_of_uses unixMs_uses (by decide) hnow,
      untouched_of_uses (transact_uses X _ _ _) (by decide) htransact, hcreated]
    rfl

/-- The file commands of a process that has misread a row: an apply has made its
prepared event durable and no more, and every other command has touched no file. -/
def Left (X : Crates) : Command → History → Prop
  | .apply _ _ receipt _, h => ∃ prepared, IsPrepared X prepared ∧
      fileEvents h = durablePrepared receipt prepared
  | _, h => fileEvents h = []

theorem steady_leaving {α : Type} {x : App α} {leave : α → Printout}
    (hr : Reaches (do let a ← x; return leave a : App Printout).run h .crash) :
    Reaches x.run h .crash := by
  rcases Reaches.run_bind_crash_iff.mp hr with hx | ⟨_, _, _, -, -, hleave⟩
  · exact hx
  · cases hleave

/-- What a panic inside a command leaves behind it. -/
theorem work_panics {command : Command} (hr : Reaches (work X command).run h .crash) :
    Misread h ∧ Left X command h := by
  cases command with
  | lint sql =>
      refine (Steady.bind (readAndAnalyze_steady sql) (fun _ => ?_) h (steady_leaving hr)).elim
      exact .pure _
  | inspect table database =>
      have hinspect := steady_leaving hr
      exact ⟨inspectTable_misreads _ _ h hinspect,
        untouched_of_uses (inspectTable_uses X _ _) (by decide) hinspect⟩
  | plan sql out maxRows statementTimeout lockTimeout validFor allowTriggers allowRowSecurity
      database =>
      obtain ⟨_, _, _, rfl, hs, hr₁⟩ := (steady_ofResult _).past hr
      obtain ⟨rfl, -⟩ := Reaches.ret_iff.mp hs
      obtain ⟨_, _, _, rfl, hl, hr₂⟩ := (steady_ofResult _).past hr₁
      obtain ⟨rfl, -⟩ := Reaches.ret_iff.mp hl
      obtain ⟨_, _, _, rfl, hv, hr₃⟩ := (steady_ofResult _).past hr₂
      obtain ⟨rfl, -⟩ := Reaches.ret_iff.mp hv
      exact createPlan_panics (steady_leaving hr₃)
  | apply sql plan receipt database => exact applyPlan_panics (steady_leaving hr)
  | receiptVerify receipt => exact (verifyReceipt_steady receipt h (steady_leaving hr)).elim
  | schema | capabilities | contract => cases hr
  | completions script => cases hr

/-- How a process can panic. -/
inductive Panicked (X : Crates) (invocation : Invocation) (h : History) : Prop
  | printing {text : Bytes}
      (invoked : invocation = .display text ∨ invocation = .command (.completions text))
      (refused : h = [⟨.stdout text, false⟩]) : Panicked X invocation h
  | reading {command : Command} (invoked : invocation = .command command) (misread : Misread h)
      (unsent : ∀ e ∈ h, e.cmd.channel ∉ [Channel.execute, .finish])
      (files : Left X command h) : Panicked X invocation h

/-- A text is printed with one write, which was refused. -/
theorem printOrPanic_crash {bytes : Bytes} (hr : Reaches (printOrPanic bytes) h .crash) :
    h = [⟨.stdout bytes, false⟩] := by
  obtain ⟨shown, t, rfl, hshown⟩ := Reaches.call_crash_iff.mp hr
  cases shown
  · rw [(Reaches.crash_iff.mp hshown).1]
  · cases hshown

/-- Only the completions panic while they are printed. -/
theorem emit_crash {printout : Printout} (hr : Reaches printout.emit.run h .crash) :
    ∃ bytes, printout = .script bytes ∧ h = [⟨.stdout bytes, false⟩] := by
  cases printout with
  | document value status =>
      exact (Steady.bind (emitJson_steady value) (fun _ => .pure status) h hr).elim
  | script bytes =>
      rcases Reaches.run_bind_crash_iff.mp hr with hlift | ⟨_, _, _, -, -, hdone⟩
      · rcases Reaches.bind_crash_iff.mp hlift with hprint | ⟨_, _, _, -, -, hret⟩
        · exact ⟨bytes, rfl, printOrPanic_crash hprint⟩
        · cases hret
      · cases hdone

/-- **Panics.**  A process that panics could not print a text, or has read a row
that does not have the columns its query asks for.  By then no statement and no
COMMIT has been sent.  An apply has its prepared event on disk and nothing else,
and no other command has touched a file. -/
theorem main_panics {invocation : Invocation} (hr : Reaches (main X invocation) h .crash) :
    Panicked X invocation h := by
  cases invocation with
  | display text =>
      rcases Reaches.bind_crash_iff.mp hr with hprint | ⟨_, _, _, -, -, hdone⟩
      · exact .printing (.inl rfl) (printOrPanic_crash hprint)
      · cases hdone
  | invalid => exact (exitWith_steady _ h hr).elim
  | command command =>
      have hmain := hr
      rw [main_command, run_eq] at hr
      rcases Reaches.bind_crash_iff.mp hr with hrun | ⟨_, t, result, -, -, hend⟩
      swap
      · cases result with
        | ok code => cases hend
        | error error => exact (exitWith_steady error t hend).elim
      rcases Reaches.run_bind_crash_iff.mp hrun with hwork | ⟨done, t, printout, rfl, hwork, hemit⟩
      · obtain ⟨hmisread, hfiles⟩ := work_panics hwork
        exact .reading rfl hmisread (unsent_of_query hmain hmisread.1) hfiles
      · obtain ⟨bytes, rfl, rfl⟩ := emit_crash hemit
        obtain rfl := work_script X hwork
        obtain ⟨rfl, -⟩ := ok_pure.mp hwork
        exact .printing (.inr rfl) rfl

namespace Sample

/-- Under the lock, the server answers the first query with a row of no columns. -/
def unreadIdentity : History :=
  approval.admissionHistory ++ approval.receiptHistory ++
    (approval.connectionHistory ++ sessionHistory approval.plan) ++
    [⟨.query identitySql [], ⟨[[]], true⟩⟩]

/-- There the run of apply panics. -/
theorem reaches_unreadIdentity :
    Reaches (main crates (.command (.apply [1] [2] [3] options.database))) unreadIdentity
      .crash := by
  have hquery : Reaches (settle crates approval.journal
      (checkDrift crates approval.plan approval.analyzed approval.database >>=
        mutate approval.analyzed)).run [⟨.query identitySql [], ⟨[[]], true⟩⟩] .crash :=
    .call (.refl _)
  have happly : Reaches (applyPlan crates options).run unreadIdentity .crash :=
    approval.reaches_session.append hquery
  exact (happly.bind_left _).bind_left _

end Sample

/-- The receipt is prepared, and nothing was changed. -/
theorem main_panics_sample :
    Panicked Sample.crates (.command (.apply [1] [2] [3] Sample.options.database)) Sample.unreadIdentity :=
  main_panics Sample.reaches_unreadIdentity

end DmlPact
