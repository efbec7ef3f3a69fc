/-
DmlPact/Process/Retreats.lean

Exits that leave nothing behind.  The statuses 2, 3 and 4 are those of the
classes usage, policy and budget.  From the moment a process creates its file,
every error is of the class io or contract (`Raises Grave`), so behind these
statuses there are only the channels of what comes before (`Retreats`): no file
has been created and no statement sent, and an apply has not even connected.
The same command can be given again.
-/
import DmlPact.Apply.Outcome
import DmlPact.Process.Outputs

namespace DmlPact

open Effect Utf8

variable {X : Crates} {h : History}

/-! ### Grave errors -/

/-- An error of the class io or contract, whose status is 1 or 5. -/
def Grave (error : AppError) : Prop := error.class_ = .io ∨ error.class_ = .contract

theorem raises_ofResult {α : Type} {P : AppError → Prop} {r : AppResult α}
    (hr : ∀ e, r = .error e → P e) : Raises P (ofResult r) := by
  intro h e hreach
  obtain ⟨-, hq⟩ := Reaches.ret_iff.mp hreach
  cases r with
  | ok a => cases hq
  | error e' =>
      cases hq
      exact hr e rfl

theorem verifiedPlanSha256_grave {plan : Plan} {error : AppError}
    (hv : verifiedPlanSha256 X plan = .error error) : Grave error := by
  unfold verifiedPlanSha256 at hv
  split_ifs at hv
  · cases hv
    exact .inr rfl
  split at hv
  · cases hv
    exact .inr rfl
  · rw [sha256Json] at hv
    dsimp only [bind, Except.bind] at hv
    split_ifs at hv
    · cases hv
      exact .inr rfl
    · cases hv

theorem unixMs_grave : Raises Grave unixMs := by
  refine .bind (.request _) fun time => ?_
  rcases time with - | ms
  · exact .throw (.inl rfl)
  · exact .ite (.pure _) (.throw (.inl rfl))

theorem writeDurably_grave (path : Path) (bytes : Bytes) : Raises Grave (writeDurably path bytes) := by
  refine .bind (.request _) fun written => ?_
  cases written
  · exact .request _
  · exact .pure _

theorem writeEvent_grave (path : Path) (event : ReceiptEvent) :
    Raises Grave (writeEvent path event) := by
  refine .bind (writeDurably_grave _ _) fun durable => ?_
  cases durable
  · exact .throw (.inl rfl)
  · exact .pure _

theorem sealEvent_grave (event : ReceiptEvent) : Raises Grave (ofResult (sealEvent X event)) := by
  rw [sealEvent_eq]
  exact Raises.pure _

theorem create_grave (path : Path) (plan : Plan) (sqlFileSha256 : String) :
    Raises Grave (ReceiptJournal.create X path plan sqlFileSha256) := by
  refine .bind (raises_ofResult fun _ => verifiedPlanSha256_grave) fun _ => ?_
  refine .bind unixMs_grave fun _ => .bind (sealEvent_grave _) fun prepared => ?_
  refine .bind (.request _) fun created => ?_
  cases created
  · exact .throw (.inl rfl)
  · exact .bind (writeEvent_grave _ _) fun _ => .pure _

theorem finish_grave (journal : ReceiptJournal) (state : ReceiptState) (result : ReceiptResult) :
    Raises Grave (finish X journal state result) := by
  refine .bind (.ite (.throw (.inr rfl)) (.bind unixMs_grave fun _ => ?_)) fun _ => .pure _
  exact .bind (sealEvent_grave _) fun _ => .bind (writeEvent_grave _ _) fun _ => .pure _

theorem mapErr_grave {α : Type} {x : App α} {error : AppError} (he : Grave error) :
    Raises Grave (mapErr x error) := by
  intro h e hr
  obtain ⟨r, -, hok, herr⟩ := mapErr_ret hr
  cases r with
  | ok a => cases hok a rfl
  | error e' =>
      cases herr e' rfl
      exact he

theorem finishOutcome_grave (journal : ReceiptJournal) (outcome : Outcome) :
    Raises Grave (finishOutcome X journal outcome) := by
  rcases outcome with ⟨state, result⟩
  cases state
  case committed | uncertain => exact mapErr_grave (.inr rfl)
  all_goals exact finish_grave _ _ _

theorem applyAfterReceipt_grave (journal : ReceiptJournal) (plan : Plan) (analyzed : AnalyzedSql)
    (options : DatabaseOptions) :
    Raises Grave (applyAfterReceipt X journal plan analyzed options) := by
  rw [applyAfterReceipt_eq]
  intro h e hr
  obtain ⟨_, t, decided, -, -, hpublish⟩ := settle_ret X hr
  cases decided with
  | ok outcome => exact finishOutcome_grave journal outcome t e (hpublish outcome (.inl rfl))
  | error outcome => exact finishOutcome_grave journal outcome t e (hpublish outcome (.inr rfl))

theorem writePlanNew_grave (path : Path) (plan : Plan) :
    Raises Grave (writePlanNew X path plan) := by
  refine .bind (raises_ofResult fun _ => verifiedPlanSha256_grave) fun _ => ?_
  refine .bind (.request _) fun created => ?_
  cases created
  · exact .throw (.inl rfl)
  refine .bind (writeDurably_grave _ _) fun durable => ?_
  cases durable
  · exact .throw (.inl rfl)
  · exact .pure _

/-! ### Errors that are not grave -/

/-- Behind an error that is not grave, only the channels `cs` have been used. -/
def Retreats {α : Type} (cs : List Channel) (x : App α) : Prop :=
  ∀ h error, Reaches x.run h (.ret (.error error)) → ¬ Grave error →
    ∀ e ∈ h, e.cmd.channel ∈ cs

namespace Retreats

variable {α β : Type} {cs : List Channel}

theorem of_uses {x : App α} (hx : Uses cs x.run) : Retreats cs x :=
  fun _ _ hr _ => Within.events hx hr

theorem of_raises {x : App α} (hx : Raises Grave x) : Retreats cs x :=
  fun h error hr hgrave => absurd (hx h error hr) hgrave

theorem throw (error : AppError) : Retreats cs (MonadExcept.throw error : App α) :=
  of_uses (.throw _)

/-- The first part keeps to the channels, and the rest retreats to them. -/
theorem bind {x : App α} {f : α → App β} (hx : Uses cs x.run) (hf : ∀ a, Retreats cs (f a)) :
    Retreats cs (x >>= f) := by
  intro h error hr hgrave e he
  rcases Reaches.run_bind_ret_iff.mp hr with ⟨_, -, hfirst⟩ | ⟨h₁, h₂, a, rfl, hfirst, hrest⟩
  · exact Within.events hx hfirst e he
  · rcases List.mem_append.mp he with he | he
    · exact Within.events hx hfirst e he
    · exact hf a h₂ error hrest hgrave e he

theorem ite {p : Prop} [Decidable p] {x y : App α} (hx : Retreats cs x) (hy : Retreats cs y) :
    Retreats cs (if p then x else y) := by
  split
  · exact hx
  · exact hy

/-- What is left to be printed raises nothing. -/
theorem leaving {x : App α} (hx : Retreats cs x) (leave : α → Printout) :
    Retreats cs (do let a ← x; return leave a) := by
  intro h error hr hgrave
  rcases Reaches.run_bind_ret_iff.mp hr with ⟨_, he, hfirst⟩ | ⟨_, _, _, -, -, hleave⟩
  · cases he
    exact hx h error hfirst hgrave
  · obtain ⟨-, hq⟩ := Reaches.ret_iff.mp hleave
    cases hq

end Retreats

/-- Planning without its file. -/
def planChannels : List Channel :=
  [.read, .environment, .connect, .start, .batch, .query, .finish, .clock]

theorem createPlan_retreats (options : PlanOptions) :
    Retreats planChannels (createPlan X options) := by
  rw [createPlan_eq]
  refine .bind (.ofResult _) fun _ => .ite (.throw _) ?_
  refine .bind ((readAndAnalyze_uses X _).mono (by decide)) fun analyzed => ?_
  refine .bind ((connectDatabase_uses X _ _).mono (by decide)) fun database => ?_
  refine .bind ((planSession_uses X _ _ _).mono (by decide)) fun observed => ?_
  refine .bind (unixMs_uses.mono (by decide)) fun createdAt => .ite (.throw _) ?_
  refine .bind (.ofResult _) fun plan => ?_
  exact .of_raises (.bind (writePlanNew_grave _ _) fun _ => .pure _)

theorem applyPlan_retreats (options : ApplyOptions) :
    Retreats [.read, .clock] (applyPlan X options) := by
  refine .bind ((readPlan_uses X _).mono (by decide)) fun plan => .bind (.ofResult _) fun _ => ?_
  refine .bind ((readAndAnalyze_uses X _).mono (by decide)) fun analyzed => ?_
  refine .bind (.ofResult _) fun _ => .bind (unixMs_uses.mono (by decide)) fun now => ?_
  refine .ite (.throw _) (.of_raises (.bind (create_grave _ _ _) fun journal => ?_))
  exact applyAfterReceipt_grave _ _ _ _

/-- The channels that a command retreats to. -/
def Command.retreat : Command → List Channel
  | .lint _ | .receiptVerify _ => [.read]
  | .inspect _ _ => [.environment, .connect, .query]
  | .plan _ _ _ _ _ _ _ _ _ => planChannels
  | .apply _ _ _ _ => [.read, .clock]
  | .schema _ | .capabilities | .contract | .completions _ => []

def Invocation.retreat : Invocation → List Channel
  | .command c => c.retreat
  | .display _ | .invalid => []

/-- No process retreats to a file of its own, or to a statement it has sent. -/
theorem retreat_spares (invocation : Invocation) :
    Channel.write ∉ invocation.retreat ∧ Channel.execute ∉ invocation.retreat := by
  cases invocation with
  | command command => cases command <;> simp [Invocation.retreat, Command.retreat, planChannels]
  | display text => simp [Invocation.retreat]
  | invalid => simp [Invocation.retreat]

theorem work_retreats (command : Command) : Retreats command.retreat (work X command) := by
  cases command with
  | lint sql => exact .leaving (.of_uses (lintSql_uses X sql)) _
  | inspect table database => exact .leaving (.of_uses (inspectTable_uses X table database)) _
  | plan sql out maxRows statementTimeout lockTimeout validFor allowTriggers allowRowSecurity
      database =>
      refine .bind (.ofResult _) fun _ => .bind (.ofResult _) fun _ => .bind (.ofResult _) fun _ => ?_
      exact .leaving (createPlan_retreats _) _
  | apply sql plan receipt database => exact .leaving (applyPlan_retreats _) _
  | receiptVerify receipt => exact .leaving (.of_uses (verifyReceipt_uses X receipt)) _
  | schema | capabilities | contract => exact .of_uses (.pure _)
  | completions script => exact .of_uses (.pure _)

/-! ### Exits -/

/-- The statuses of usage, policy and budget. -/
def mildStatuses : List UInt8 := [2, 3, 4]

theorem not_grave_of_status {error : AppError} (hs : error.class_.exitCode ∈ mildStatuses) :
    ¬ Grave error := by
  rintro (hclass | hclass)
  all_goals
    rw [hclass] at hs
    exact absurd hs (by decide)

theorem documentStatus_not_mild (command : Command) (value : Json.Value) :
    documentStatus command value ∉ mildStatuses := by
  cases command
  case apply =>
    show stateStatus (member "state" value) ∉ mildStatuses
    unfold stateStatus
    split <;> decide
  all_goals exact (by decide : (0 : UInt8) ∉ mildStatuses)

theorem command_retreats {command : Command} {status : UInt8}
    (hr : Reaches (main X (.command command)) h (.ret status)) (hs : status ∈ mildStatuses) :
    ∀ e ∈ h, e.cmd.channel ∈ Channel.output :: command.retreat := by
  rw [main_command, run_eq] at hr
  obtain ⟨h₁, h₂, result, rfl, hrun, hend⟩ := Reaches.bind_ret_iff.mp hr
  rcases Reaches.run_bind_ret_iff.mp hrun with
    ⟨error, rfl, hwork⟩ | ⟨done, printed, printout, rfl, hwork, hemit⟩
  · obtain ⟨rfl, -⟩ := exitWith_ret hend
    intro e he
    rcases List.mem_append.mp he with he | he
    · exact List.mem_cons_of_mem _
        (work_retreats command h₁ error hwork (not_grave_of_status hs) e he)
    · rw [List.mem_singleton.mp (Within.events (exitWith_uses error) hend e he)]
      exact List.mem_cons_self
  · -- a result has the status 0 or 5, and one that is lost has 1
    exfalso
    cases printout with
    | script bytes =>
        obtain ⟨rfl, -⟩ := emit_script hemit
        obtain ⟨-, hq⟩ := Reaches.ret_iff.mp hend
        cases hq
        exact absurd hs (by decide)
    | document value code =>
        obtain rfl := work_status X hwork
        obtain ⟨-, ⟨rfl, -⟩ | ⟨rfl, -⟩⟩ := emit_document hemit
        · obtain ⟨-, hq⟩ := Reaches.ret_iff.mp hend
          cases hq
          exact documentStatus_not_mild command value hs
        · obtain ⟨rfl, -⟩ := exitWith_ret hend
          exact absurd hs (by decide)

/-- **Retreat.**  Behind a status of 2, 3 or 4 nothing has been used but the two
streams and the channels that the command retreats to: no file was created and
no statement sent, and an apply has only read its files and the clock. -/
theorem main_retreats {invocation : Invocation} {status : UInt8}
    (hr : Reaches (main X invocation) h (.ret status)) (hs : status ∈ mildStatuses) :
    (∀ e ∈ h, e.cmd.channel ∈ Channel.output :: invocation.retreat) ∧
      ∀ e ∈ h, e.cmd.channel ∉ [Channel.write, .execute] := by
  have hall : ∀ e ∈ h, e.cmd.channel ∈ Channel.output :: invocation.retreat := by
    cases invocation with
    | command command => exact command_retreats hr hs
    | display text =>
        obtain ⟨_, _, _, -, -, hdone⟩ := Reaches.bind_ret_iff.mp hr
        obtain ⟨-, hq⟩ := Reaches.ret_iff.mp hdone
        cases hq
        exact absurd hs (by decide)
    | invalid => exact Within.events (exitWith_uses cliArgumentsInvalid) hr
  obtain ⟨hwrite, hexecute⟩ := retreat_spares invocation
  refine ⟨hall, fun e he hmem => ?_⟩
  have hin := hall e he
  rcases List.mem_pair.mp hmem with hc | hc
  · rw [hc] at hin
    exact hwrite ((List.mem_cons.mp hin).resolve_left (by decide))
  · rw [hc] at hin
    exact hexecute ((List.mem_cons.mp hin).resolve_left (by decide))

namespace Sample

/-- The plan is read, and then a SQL file that does not parse. -/
def unparsed : History :=
  [⟨.metadata options.planPath, some approval.planMetadata⟩,
    ⟨.read options.planPath, some approval.planBytes⟩,
    ⟨.metadata options.sqlPath, some ⟨true, 1⟩⟩, ⟨.read options.sqlPath, some (asBytes "x")⟩]

def sqlParseFailed : AppError :=
  DmlPact.policy "sql_parse_failed" "the SQL file is not valid supported PostgreSQL syntax"

theorem reaches_unparsed :
    Reaches (applyPlan crates options).run unparsed (.ret (.error sqlParseFailed)) := by
  have hplan : Reaches (readPlan crates options.planPath).run
      [⟨.metadata options.planPath, some approval.planMetadata⟩,
        ⟨.read options.planPath, some approval.planBytes⟩] (.ret (.ok approval.plan)) :=
    (readPlan_ok crates).mpr ⟨_, _, rfl, approval.plan_file, approval.plan_decoded⟩
  have hlimits : Reaches (ofResult (validateLimits approval.plan.limits)).run []
      (.ret (.ok ())) := ok_ofResult_last.mpr ⟨rfl, approval.limits_valid⟩
  refine (hplan.bind_ok _).append ((hlimits.bind_ok _).append ?_)
  exact .call (.call (.refl _))

/-- What the process does then: it prints the error, and ends with its status. -/
def reported : History :=
  unparsed ++ [⟨.stderr (toVec (ErrorDocument.ofError sqlParseFailed).ser), true⟩,
    ⟨.stderr (asBytes "\n"), true⟩]

theorem reaches_reported :
    Reaches (main crates (.command (.apply [1] [2] [3] options.database))) reported (.ret 3) :=
  ((reaches_unparsed.bind_left _).bind_left _).append (.call (.call (.refl _)))

end Sample

theorem main_retreats_sample :
    (∀ e ∈ Sample.reported, e.cmd.channel ∈ Channel.output ::
      (Invocation.command (.apply [1] [2] [3] Sample.options.database)).retreat) ∧
      ∀ e ∈ Sample.reported, e.cmd.channel ∉ [Channel.write, .execute] :=
  main_retreats Sample.reaches_reported (by decide)

end DmlPact
