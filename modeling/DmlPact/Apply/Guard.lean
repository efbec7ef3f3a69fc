/-
DmlPact/Apply/Guard.lean

Nothing is mutated without an approval: the statement is sent, and COMMIT is
sent, exactly at the end of the histories that approvals describe.
-/
import DmlPact.Apply.Approval

namespace DmlPact

open Effect

variable (X : Crates)

theorem settle_mutate (journal : ReceiptJournal) (analyzed : AnalyzedSql)
    (observed : Observed) :
    (settle X journal (mutate analyzed observed)).run =
      .call (.execute analyzed.normalized) fun answer =>
        (settle X journal (conclude observed answer)).run := rfl

/-- When the statement affected as many rows as counted, COMMIT is next. -/
theorem settle_conclude_count (journal : ReceiptJournal) (observed : Observed) :
    (settle X journal (conclude observed (.ok observed.count))).run =
      .call .commit fun committed =>
        (finishOutcome X journal (commitOutcome observed observed.count committed)).run := by
  unfold conclude
  rw [asCounted_count]
  rfl

/-! ### From the approval to the result -/

namespace Approval

variable {X} {options : ApplyOptions} (a : Approval X options)

/-- The terminal event of a run that committed. -/
def committed (t : UInt64) : ReceiptEvent :=
  sealedWith X (terminalEvent a.prepared t .committed
    (executed a.observed (some a.observed.count) "applied" none))

/-- Executing and committing as approved, and writing the terminal event. -/
def committedHistory (t : UInt64) : History :=
  a.history ++ ([⟨.execute a.analyzed.normalized, .ok a.observed.count⟩, ⟨.commit, true⟩] ++
    [⟨.now, some t.toNat⟩, ⟨.writeAll options.receiptPath (eventLine (a.committed t)), .done⟩,
      ⟨.syncAll options.receiptPath, true⟩])

/-- What a run that committed returns. -/
def committedResult : ApplyResult where
  schemaVersion := "dmlpact.apply-result.v1"
  receiptId := a.prepared.receiptId
  state := .committed
  planSha256 := a.prepared.planSha256
  affectedRows := some a.observed.count
  reasonCode := "applied"
  receiptPath := Str.fromUtf8Lossy options.receiptPath

/-- **Completion.**  An approved statement that affects as many rows as counted
and is committed is reported as committed. -/
theorem reaches_committed (t : UInt64) :
    Reaches (applyPlan X options).run (a.committedHistory t)
      (.ret (.ok a.committedResult)) := by
  have hfinal : Reaches (a.journal.finalize X .committed
        (executed a.observed (some a.observed.count) "applied" none)).run
      [⟨.now, some t.toNat⟩, ⟨.writeAll options.receiptPath (eventLine (a.committed t)), .done⟩,
        ⟨.syncAll options.receiptPath, true⟩] (.ret (.ok (a.committed t))) :=
    (finalize_ok X).mpr ⟨rfl, t, rfl, rfl⟩
  have hfinish : Reaches (finishOutcome X a.journal
        (commitOutcome a.observed a.observed.count true)).run
      [⟨.now, some t.toNat⟩, ⟨.writeAll options.receiptPath (eventLine (a.committed t)), .done⟩,
        ⟨.syncAll options.receiptPath, true⟩] (.ret (.ok a.committedResult)) := by
    show Reaches (finishCommitted X a.journal _).run _ _
    unfold finishCommitted mapErr finish
    rw [run_bind, run_attempt, run_bind]
    exact ((hfinal.bind_left _).bind_left _).bind_left _
  refine a.reaches.append ?_
  rw [settle_mutate]
  refine .call ?_
  rw [settle_conclude_count]
  exact .call hfinish

/-- The result of a run whose statement failed. -/
def failed (error : DbError) : ReceiptResult :=
  executed a.observed none "statement_execution_failed" (sqlstate error)

/-- The terminal event of a run that was rolled back. -/
def rolledBack (error : DbError) (t : UInt64) : ReceiptEvent :=
  sealedWith X (terminalEvent a.prepared t .rolledBack (a.failed error))

/-- The statement fails and is rolled back, and the terminal event is written. -/
def rolledBackHistory (error : DbError) (t : UInt64) : History :=
  a.history ++ ([⟨.execute a.analyzed.normalized, .error error⟩, ⟨.rollback, true⟩] ++
    [⟨.now, some t.toNat⟩,
      ⟨.writeAll options.receiptPath (eventLine (a.rolledBack error t)), .done⟩,
      ⟨.syncAll options.receiptPath, true⟩])

/-- What a run that was rolled back returns. -/
def rolledBackResult : ApplyResult where
  schemaVersion := "dmlpact.apply-result.v1"
  receiptId := a.prepared.receiptId
  state := .rolledBack
  planSha256 := a.prepared.planSha256
  affectedRows := none
  reasonCode := "statement_execution_failed"
  receiptPath := Str.fromUtf8Lossy options.receiptPath

/-- **Failure.**  An approved statement that the server refuses is rolled back
and reported so. -/
theorem reaches_rolledBack (error : DbError) (t : UInt64) :
    Reaches (applyPlan X options).run (a.rolledBackHistory error t)
      (.ret (.ok a.rolledBackResult)) := by
  have hfinal : Reaches (a.journal.finalize X .rolledBack (a.failed error)).run
      [⟨.now, some t.toNat⟩,
        ⟨.writeAll options.receiptPath (eventLine (a.rolledBack error t)), .done⟩,
        ⟨.syncAll options.receiptPath, true⟩] (.ret (.ok (a.rolledBack error t))) :=
    (finalize_ok X).mpr ⟨rfl, t, rfl, rfl⟩
  have hfinish : Reaches (finishOutcome X a.journal (rollbackOutcome a.observed (.error error))).run
      [⟨.now, some t.toNat⟩,
        ⟨.writeAll options.receiptPath (eventLine (a.rolledBack error t)), .done⟩,
        ⟨.syncAll options.receiptPath, true⟩] (.ret (.ok a.rolledBackResult)) := by
    show Reaches (finish X a.journal .rolledBack _).run _ _
    unfold finish
    rw [run_bind]
    exact hfinal.bind_left _
  refine a.reaches.append ?_
  rw [settle_mutate]
  exact .call (.call hfinish)

end Approval

/-- **Guarded mutation.**  The statement is sent exactly when the run so far is
the history of an approval.  COMMIT is sent exactly when the statement has then
been executed and affected as many rows as the plan counted. -/
theorem applyPlan_guarded (options : ApplyOptions) (h : History) :
    (∀ sql, (∃ k, Reaches (applyPlan X options).run h (.call (.execute sql) k)) ↔
      ∃ a : Approval X options, h = a.history ∧ sql = a.analyzed.normalized) ∧
    ((∃ k, Reaches (applyPlan X options).run h (.call .commit k)) ↔
      ∃ a : Approval X options, h = a.history ++
        [⟨.execute a.analyzed.normalized, .ok a.plan.preconditions.targetCount⟩]) := by
  refine ⟨fun sql => ⟨?_, ?_⟩, ?_, ?_⟩
  · rintro ⟨k, hr⟩
    obtain ⟨a, t, k', rfl, hmutate⟩ := approval_of_call X (.inl rfl) hr
    obtain ⟨rfl, rfl⟩ := mutate_execute hmutate
    exact ⟨a, List.append_nil _, rfl⟩
  · rintro ⟨a, rfl, rfl⟩
    -- the run with these answers arrives at the statement
    have hsent := a.reaches
    rw [settle_mutate] at hsent
    exact ⟨_, hsent⟩
  · rintro ⟨k, hr⟩
    obtain ⟨a, t, k', rfl, hmutate⟩ := approval_of_call X (.inr rfl) hr
    rw [mutate_commit hmutate, a.agrees.count]
    exact ⟨a, rfl⟩
  · rintro ⟨a, rfl⟩
    have hsent := a.reaches
    rw [settle_mutate] at hsent
    have hanswered := hsent.snoc (.ok a.observed.count)
    rw [settle_conclude_count, a.agrees.count] at hanswered
    exact ⟨_, hanswered⟩

end DmlPact
