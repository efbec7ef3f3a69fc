/-
DmlPact/Apply/Exit.lean

The exit status of `dmlpact apply` after COMMIT.  A settled run reports an
error after COMMIT in the class whose status is 5, and a committed result in
status 0.  What is left is printing the result: that error has status 1
whatever happened before, so the status is sound exactly when no write of the
result fails after COMMIT (`main_apply_exit`).
-/
import DmlPact.Apply.Outcome
import DmlPact.Model.Cli

namespace DmlPact

open Effect

variable (X : Crates) {h : History}

/-- COMMIT was sent. -/
def CommitSent (h : History) : Prop := ∃ ok, CommitAnswered h ok

/-- A write of the result to standard output failed. -/
def StdoutFailed (h : History) : Prop := ∃ bytes, ⟨.stdout bytes, false⟩ ∈ h

/-- A status of 1 to 4 says that COMMIT was not sent; once it was sent the
status is 0, for a committed result, or 5. -/
def ExitSound (h : History) (status : UInt8) : Prop :=
  (status ∈ [(1 : UInt8), 2, 3, 4] → ¬ CommitSent h) ∧
    (CommitSent h → (status = 0 ∧ CommitAnswered h true) ∨ status = 5)

theorem ExitSound.of_not_sent {status : UInt8} (hc : ¬ CommitSent h) : ExitSound h status :=
  ⟨fun _ => hc, fun hs => absurd hs hc⟩

theorem ExitSound.of_contract {status : UInt8} (hs : status = 5) : ExitSound h status :=
  ⟨fun hm => by subst hs; exact absurd hm (by decide), fun _ => .inr hs⟩

theorem ExitSound.of_committed {status : UInt8} (hs : status = 0)
    (hc : CommitAnswered h true) : ExitSound h status :=
  ⟨fun hm => by subst hs; exact absurd hm (by decide), fun _ => .inl ⟨hs, hc⟩⟩

/-! ### Runs around the commit -/

/-- Commands on other channels do not matter to the commit. -/
theorem commitSent_append {t : History} (ht : ∀ e ∈ t, e.cmd.channel ≠ .finish) (ok : Bool) :
    CommitAnswered (h ++ t) ok ↔ CommitAnswered h ok := by
  constructor
  · intro hc
    rcases List.mem_append.mp hc with hc | hc
    · exact hc
    · exact absurd rfl (ht _ hc)
  · exact fun hc => List.mem_append_left t hc

/-- A run in which COMMIT was sent is one whose prepared event was durable. -/
theorem prepared_of_commit {options : ApplyOptions} {r : Except AppError ApplyResult}
    (hr : Reaches (applyPlan X options).run h (.ret r)) (hc : CommitSent h) :
    FirstLineSynced options.receiptPath h := by
  obtain ⟨ok, hmem⟩ := hc
  obtain ⟨before, after, rfl⟩ := List.append_of_mem hmem
  obtain ⟨q, hbefore, hafter⟩ := hr.split
  cases hafter with
  | call hk =>
      obtain ⟨a, t, k', rfl, -⟩ := approval_of_call X (.inr rfl) hbefore
      rw [List.append_assoc]
      exact a.firstLineSynced _

/-- After COMMIT an error is of the class whose status is 5. -/
theorem apply_error_class {options : ApplyOptions} {error : AppError}
    (hr : Reaches (applyPlan X options).run h (.ret (.error error))) (hc : CommitSent h) :
    error.class_ = .contract := by
  obtain ⟨plan, journal, outcome, published, _, _, _, _, s⟩ :=
    applyPlan_settled X hr (prepared_of_commit X hr hc)
  have hreport := s.reported
  rcases published with e | event
  · cases hreport
    obtain ⟨ok, hok⟩ := hc
    cases ok
    · rw [s.truthful.uncertain.mpr hok]
      rfl
    · rw [s.truthful.committed.mpr hok]
      rfl
  · cases hreport

/-- After COMMIT a result is committed or uncertain, as COMMIT was answered. -/
theorem apply_result_status {options : ApplyOptions} {result : ApplyResult}
    (hr : Reaches (applyPlan X options).run h (.ret (.ok result))) (hc : CommitSent h) :
    (applyExitCode result = 0 ∧ CommitAnswered h true) ∨ applyExitCode result = 5 := by
  obtain ⟨plan, journal, outcome, published, _, _, _, _, s⟩ :=
    applyPlan_settled X hr (prepared_of_commit X hr hc)
  have hreport := s.reported
  rcases published with e | event
  · cases hreport
  · cases hreport
    obtain ⟨ok, hok⟩ := hc
    cases ok
    · refine .inr ?_
      unfold applyExitCode
      rw [if_pos (s.truthful.uncertain.mpr hok)]
      rfl
    · refine .inl ⟨?_, hok⟩
      have hstate := s.truthful.committed.mpr hok
      unfold applyExitCode
      rw [if_neg (by rw [hstate]; exact nofun)]

/-! ### Printing -/

theorem emitJson_ret {value : Json.Value} {r : Except AppError Unit}
    (hr : Reaches (emitJson value).run h (.ret r)) :
    (∀ e ∈ h, e.cmd.channel = .output) ∧
      ((r = .ok () ∧ ¬ StdoutFailed h) ∨ (r = .error stdoutWriteFailed ∧ StdoutFailed h)) := by
  unfold emitJson at hr
  rw [request_bind] at hr
  obtain ⟨shown, t, rfl, hshown⟩ := Reaches.call_ret_iff.mp hr
  cases shown
  · obtain ⟨rfl, hq⟩ := Reaches.ret_iff.mp hshown
    cases hq
    exact ⟨by simp [Cmd.channel], .inr ⟨rfl, _, List.mem_singleton_self _⟩⟩
  obtain ⟨ended, t, rfl, hended⟩ := Reaches.call_ret_iff.mp hshown
  cases ended
  · obtain ⟨rfl, hq⟩ := Reaches.ret_iff.mp hended
    cases hq
    exact ⟨by simp [Cmd.channel], .inr ⟨rfl, _, List.mem_cons_of_mem _ (List.mem_singleton_self _)⟩⟩
  · obtain ⟨rfl, hq⟩ := Reaches.ret_iff.mp hended
    cases hq
    exact ⟨by simp [Cmd.channel], .inl ⟨rfl, by simp [StdoutFailed]⟩⟩

/-- Reporting an error writes to standard error only. -/
theorem exitWith_ret {error : AppError} {status : UInt8}
    (hr : Reaches (exitWith error) h (.ret status)) :
    status = error.class_.exitCode ∧ ∀ e ∈ h, ∃ bytes, e.cmd = .stderr bytes := by
  have hwithin : Within (fun c => ∃ bytes, c = Cmd.stderr bytes) (emitError error) := by
    refine (within_ask ⟨_, rfl⟩).bind fun shown => ?_
    cases shown
    · exact within_ret _
    · exact (within_ask ⟨_, rfl⟩).bind fun _ => within_ret _
  obtain ⟨h₁, h₂, _, rfl, hemit, hdone⟩ := Reaches.bind_ret_iff.mp hr
  obtain ⟨rfl, hq⟩ := Reaches.ret_iff.mp hdone
  cases hq
  rw [List.append_nil]
  exact ⟨rfl, hwithin.events hemit⟩

/-- The parts of a process that applies a plan: the plan is applied, a result
is printed, and an error is reported. -/
theorem main_apply_ret {sql plan receipt : Path} {database : DatabaseOptions} {status : UInt8}
    (hr : Reaches (main X (.command (.apply sql plan receipt database))) h (.ret status)) :
    ∃ applied printed reported r, h = applied ++ printed ++ reported ∧
      Reaches (applyPlan X ⟨sql, plan, receipt, database⟩).run applied (.ret r) ∧
      (∀ e ∈ reported, ∃ bytes, e.cmd = .stderr bytes) ∧
      ((∃ error, r = .error error ∧ printed = [] ∧ status = error.class_.exitCode) ∨
        ∃ result, r = .ok result ∧ (∀ e ∈ printed, e.cmd.channel = .output) ∧
          ((status = applyExitCode result ∧ ¬ StdoutFailed printed) ∨
            (status = 1 ∧ StdoutFailed printed))) := by
  obtain ⟨h₁, h₂, r₁, rfl, hrun, hexit⟩ := Reaches.bind_ret_iff.mp hr
  rcases Reaches.run_bind_ret_iff.mp hrun with ⟨error, rfl, happly⟩ | ⟨applied, t, result, rfl, happly, hprint⟩
  · obtain ⟨hstatus, hstderr⟩ := exitWith_ret hexit
    exact ⟨h₁, [], h₂, .error error, by simp, happly, hstderr, .inl ⟨error, rfl, rfl, hstatus⟩⟩
  rcases Reaches.run_bind_ret_iff.mp hprint with ⟨error, rfl, hemit⟩ | ⟨printed, _, _, rfl, hemit, hdone⟩
  · obtain ⟨houtput, hcases⟩ := emitJson_ret hemit
    obtain ⟨hstatus, hstderr⟩ := exitWith_ret hexit
    rcases hcases with ⟨hq, -⟩ | ⟨hq, hfailed⟩
    · cases hq
    · cases hq
      exact ⟨applied, t, h₂, .ok result, rfl, happly, hstderr,
        .inr ⟨result, rfl, houtput, .inr ⟨hstatus, hfailed⟩⟩⟩
  · obtain ⟨houtput, hcases⟩ := emitJson_ret hemit
    obtain ⟨rfl, hq⟩ := Reaches.ret_iff.mp hdone
    cases hq
    obtain ⟨rfl, hq⟩ := Reaches.ret_iff.mp hexit
    cases hq
    rcases hcases with ⟨-, hshown⟩ | ⟨hq, -⟩
    · exact ⟨applied, printed, [], .ok result, by simp, happly, by simp,
        .inr ⟨result, rfl, houtput, .inl ⟨rfl, hshown⟩⟩⟩
    · cases hq

/-! ### The status -/

/-- **Exit status.**  The status of a process that applies a plan is sound
exactly when it is not the case that COMMIT was sent and a write of the result
failed. -/
theorem main_apply_exit {sql plan receipt : Path} {database : DatabaseOptions} {status : UInt8}
    (hr : Reaches (main X (.command (.apply sql plan receipt database))) h (.ret status)) :
    ExitSound h status ↔ ¬ (CommitSent h ∧ StdoutFailed h) := by
  obtain ⟨applied, printed, reported, r, rfl, happly, hreported, hcases⟩ := main_apply_ret X hr
  -- COMMIT is sent while the plan is applied, or not at all
  have hrest : ∀ e ∈ printed ++ reported, e.cmd.channel ≠ .finish := by
    intro e he
    rcases List.mem_append.mp he with he | he
    · rcases hcases with ⟨_, -, rfl, -⟩ | ⟨_, -, houtput, -⟩
      · cases he
      · rw [houtput e he]
        decide
    · obtain ⟨bytes, hc⟩ := hreported e he
      rw [hc]
      exact nofun
  have hanswered : ∀ ok, CommitAnswered (applied ++ printed ++ reported) ok ↔
      CommitAnswered applied ok := fun ok => by
    rw [List.append_assoc]
    exact commitSent_append hrest ok
  have hsent : CommitSent (applied ++ printed ++ reported) ↔ CommitSent applied :=
    exists_congr hanswered
  -- only printing writes to standard output
  have hfailed : StdoutFailed (applied ++ printed ++ reported) ↔ StdoutFailed printed := by
    have huses := Within.events (applyPlan_uses X ⟨sql, plan, receipt, database⟩) happly
    constructor
    · rintro ⟨bytes, hb⟩
      rcases List.mem_append.mp hb with hb | hb
      · rcases List.mem_append.mp hb with hb | hb
        · exact absurd (huses _ hb) (Channel.apart (List.mem_singleton_self Channel.output) rfl)
        · exact ⟨bytes, hb⟩
      · obtain ⟨_, hc⟩ := hreported _ hb
        cases hc
    · rintro ⟨bytes, hb⟩
      exact ⟨bytes, List.mem_append_left _ (List.mem_append_right _ hb)⟩
  rw [hfailed, hsent]
  by_cases hcommit : CommitSent applied
  swap
  · exact ⟨fun _ hboth => hcommit hboth.1,
      fun _ => .of_not_sent fun hc => hcommit (hsent.mp hc)⟩
  rcases hcases with ⟨error, rfl, rfl, rfl⟩ | ⟨result, rfl, -, ⟨rfl, hshown⟩ | ⟨rfl, hlost⟩⟩
  · -- an error after COMMIT
    refine ⟨fun _ hboth => ?_, fun _ => .of_contract ?_⟩
    · obtain ⟨_, hb⟩ := hboth.2
      cases hb
    · rw [apply_error_class X happly hcommit]
      rfl
  · -- a result that was printed
    refine ⟨fun _ hboth => hshown hboth.2, fun _ => ?_⟩
    rcases apply_result_status X happly hcommit with ⟨hs, hc⟩ | hs
    · exact .of_committed hs ((hanswered true).mpr hc)
    · exact .of_contract hs
  · -- a result that could not be printed
    refine ⟨fun hsound => ?_, fun hnot => absurd ⟨hcommit, hlost⟩ hnot⟩
    exact absurd (hsent.mpr hcommit) (hsound.1 (by decide))

/-- The approved run commits, and standard output is closed. -/
def Sample.closedOutput : History :=
  Sample.approval.committedHistory 3 ++
    [⟨.stdout (toVecPretty Sample.approval.committedResult.ser), false⟩,
      ⟨.stderr (toVec (ErrorDocument.ofError stdoutWriteFailed).ser), true⟩,
      ⟨.stderr (asBytes "\n"), true⟩]

theorem Sample.reaches_closedOutput :
    Reaches (main Sample.crates (.command (.apply [1] [2] [3] ⟨"U", true⟩)))
      Sample.closedOutput (.ret 1) := by
  have happly := Sample.approval.reaches_committed 3
  refine Reaches.append (((happly.bind_ok _).bind_left _)) ?_
  exact .call (.call (.call (.refl _)))

/-- The same run with its result printed. -/
def Sample.printedOutput : History :=
  Sample.approval.committedHistory 3 ++
    [⟨.stdout (toVecPretty Sample.approval.committedResult.ser), true⟩,
      ⟨.stdout (asBytes "\n"), true⟩]

theorem Sample.reaches_printedOutput :
    Reaches (main Sample.crates (.command (.apply [1] [2] [3] ⟨"U", true⟩)))
      Sample.printedOutput (.ret 0) := by
  have happly := Sample.approval.reaches_committed 3
  refine Reaches.append (((happly.bind_ok _).bind_left _)) ?_
  exact .call (.call (.refl _))

theorem Sample.stdout_printedOutput : ¬ StdoutFailed Sample.printedOutput := by
  rintro ⟨bytes, hb⟩
  rcases List.mem_append.mp hb with hb | hb
  · have hchannel := Within.events (applyPlan_uses Sample.crates Sample.options)
      (Sample.approval.reaches_committed 3) _ hb
    exact absurd hchannel (by simp [Cmd.channel])
  · simp at hb

theorem Sample.commit_mem : CommitAnswered Sample.closedOutput true :=
  List.mem_append_left _ (List.mem_append_right _ (List.mem_cons_of_mem _ List.mem_cons_self))

/-- Status 1, although COMMIT was sent and succeeded. -/
theorem main_apply_exit_closed :
    ¬ ∀ (X : Crates) (sql plan receipt : Path) (database : DatabaseOptions) (h : History)
      (status : UInt8),
      Reaches (main X (.command (.apply sql plan receipt database))) h (.ret status) →
      ExitSound h status := by
  intro hall
  have hsound := hall Sample.crates [1] [2] [3] ⟨"U", true⟩ _ 1 Sample.reaches_closedOutput
  exact hsound.1 (by decide) ⟨true, Sample.commit_mem⟩

/-- By the condition, the run whose result was printed, and the one whose result
was not. -/
theorem main_apply_exit_sample :
    ExitSound Sample.printedOutput 0 ∧ ¬ ExitSound Sample.closedOutput 1 := by
  constructor
  · refine (main_apply_exit Sample.crates Sample.reaches_printedOutput).mpr fun hboth => ?_
    exact Sample.stdout_printedOutput hboth.2
  · intro hsound
    refine (main_apply_exit Sample.crates Sample.reaches_closedOutput).mp hsound ⟨?_, ?_⟩
    · exact ⟨true, Sample.commit_mem⟩
    · exact ⟨_, List.mem_append_right _ List.mem_cons_self⟩

end DmlPact
