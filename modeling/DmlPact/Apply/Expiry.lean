/-
DmlPact/Apply/Expiry.lean

When the expiry of a plan is checked.  The program reads the clock once, right
after the plan and the SQL file have been accepted; the receipt, the connection
and the wait for the lock come later:

    read plan, read SQL, clock ≤ expiry?, receipt, connect, begin, LOCK TABLE

so the plan has not expired at the moment the lock is granted exactly when the
second reading of the clock, the receipt, the connection, the begin, the settings
and the lock took no longer than what was left at the check (`applyPlan_expiry`).
-/
import DmlPact.Apply.Guard
import DmlPact.Apply.Batches
import DmlPact.Apply.Answers
import DmlPact.Lib.Timing

namespace DmlPact

open Effect

variable (X : Crates) {h : History}

/-- Every reading of the clock during the run shows the clock. -/
def Honest (τ : Timing) (h : History) : Prop :=
  ∀ n time, h[n]? = some ⟨.now, time⟩ → time = some (τ.clock (n + 1))

/-- An element that stands nowhere else in a list is found at one place. -/
theorem getElem?_middle {α : Type} {before after : List α} {e : α} (hbefore : e ∉ before)
    (hafter : e ∉ after) {j : Nat} :
    (before ++ e :: after)[j]? = some e ↔ j = before.length := by
  constructor
  · intro hj
    rcases Nat.lt_trichotomy j before.length with hlt | heq | hgt
    · rw [List.getElem?_append_left hlt] at hj
      exact absurd (List.mem_of_getElem? hj) hbefore
    · exact heq
    · obtain ⟨d, hd⟩ := Nat.exists_eq_add_of_lt hgt
      rw [List.getElem?_append_right hgt.le, hd, Nat.add_assoc, Nat.add_sub_cancel_left,
        List.getElem?_cons_succ] at hj
      exact absurd (List.mem_of_getElem? hj) hafter
  · rintro rfl
    rw [List.getElem?_append_right (Nat.le_refl _), Nat.sub_self, List.getElem?_cons_zero]

theorem timeoutSettings_head (limits : Limits) :
    ∃ cs, (timeoutSettings limits).toList = 'S' :: cs := by
  have hhead : "SET LOCAL statement_timeout = '".toList =
      'S' :: "ET LOCAL statement_timeout = '".toList := by decide
  unfold timeoutSettings
  simp only [String.toList_append, List.append_assoc]
  rw [hhead, List.cons_append]
  exact ⟨_, rfl⟩

theorem lockText_head (canonicalTable : String) :
    ∃ cs, (lockText canonicalTable).toList = 'L' :: cs := by
  have hhead : "LOCK TABLE ".toList = 'L' :: "OCK TABLE ".toList := by decide
  unfold lockText
  simp only [String.toList_append, List.append_assoc]
  rw [hhead, List.cons_append]
  exact ⟨_, rfl⟩

/-- The settings are not the lock. -/
theorem timeoutSettings_ne_lockText (limits : Limits) (canonicalTable : String) :
    timeoutSettings limits ≠ lockText canonicalTable := by
  intro heq
  obtain ⟨cs, hsettings⟩ := timeoutSettings_head limits
  obtain ⟨ds, hlock⟩ := lockText_head canonicalTable
  rw [heq, hlock] at hsettings
  exact absurd (List.cons.inj hsettings).1 (by decide)

namespace Approval

variable {X} {options : ApplyOptions} (a : Approval X options)

/-- The place of the answer to the lock in the run of an approval. -/
def granted : Nat := 11 + a.connectionHistory.length

/-- The event of the lock being granted. -/
def lockGranted : Event Cmd Reply :=
  ⟨.batchExecute (lockText a.plan.preconditions.canonicalTable), true⟩

/-- The lock is granted at one place of the run. -/
theorem getElem?_granted {j : Nat} :
    a.history[j]? = some a.lockGranted ↔ j = a.granted := by
  have hsplit : a.history =
      (a.admissionHistory ++ (a.receiptHistory ++ (a.connectionHistory ++
        [⟨.start .repeatableRead false, true⟩,
          ⟨.batchExecute (timeoutSettings a.plan.limits), true⟩]))) ++
        a.lockGranted :: a.driftHistory := by
    simp [history, sessionHistory, lockGranted]
  rw [hsplit, getElem?_middle]
  · simp [Admission.admissionHistory, Admission.receiptHistory, granted]
    omega
  · intro he
    rcases List.mem_append.mp he with he | he
    · simp [Admission.admissionHistory, lockGranted] at he
    rcases List.mem_append.mp he with he | he
    · simp [Admission.receiptHistory, lockGranted] at he
    rcases List.mem_append.mp he with he | he
    · exact absurd (a.channel_of_connection he) (by simp [lockGranted, Cmd.channel])
    · have hne := timeoutSettings_ne_lockText a.plan.limits a.plan.preconditions.canonicalTable
      simp [lockGranted, hne.symm] at he
  · intro he
    exact absurd (a.channel_of_drift he) (by simp [lockGranted, Cmd.channel])

/-- What recording the approval and opening the session send. -/
theorem channel_of_approach {e : Event Cmd Reply}
    (he : e ∈ a.receiptHistory ++ (a.connectionHistory ++ sessionHistory a.plan)) :
    e.cmd.channel ∈ [Channel.clock, .write, .environment, .connect, .start, .batch] := by
  rcases List.mem_append.mp he with he | he
  · simp only [Admission.receiptHistory, List.mem_cons, List.not_mem_nil, or_false] at he
    rcases he with rfl | rfl | rfl | rfl <;> simp [Cmd.channel]
  rcases List.mem_append.mp he with he | he
  · have hchannel := a.channel_of_connection he
    simp only [List.mem_cons, List.not_mem_nil, or_false] at hchannel
    rcases hchannel with hchannel | hchannel <;> rw [hchannel] <;> simp
  · simp only [sessionHistory, List.mem_cons, List.not_mem_nil, or_false] at he
    rcases he with rfl | rfl | rfl <;> simp [Cmd.channel]

/-- What is done between the check and the lock, the lock included. -/
theorem channel_until_granted {i : Nat} (hi : 5 ≤ i) (hgranted : i < a.granted + 1) :
    a.history[i]?.map (·.cmd.channel) ∈
      ({some .clock, some .write, some .environment, some .connect, some .start,
        some .batch} : Finset (Option Channel)) := by
  have hsplit : a.history = a.admissionHistory ++ ((a.receiptHistory ++
      (a.connectionHistory ++ sessionHistory a.plan)) ++ a.driftHistory) := by
    simp [history]
  have hlength : (a.receiptHistory ++ (a.connectionHistory ++ sessionHistory a.plan)).length =
      7 + a.connectionHistory.length := by
    simp [Admission.receiptHistory, sessionHistory]
    omega
  have hbefore : i - a.admissionHistory.length <
      (a.receiptHistory ++ (a.connectionHistory ++ sessionHistory a.plan)).length := by
    rw [hlength]
    simp only [granted] at hgranted
    simp only [Admission.admissionHistory, List.length_cons, List.length_nil]
    omega
  rw [hsplit, List.getElem?_append_right hi, List.getElem?_append_left hbefore,
    List.getElem?_eq_getElem hbefore, Option.map_some]
  simpa using a.channel_of_approach (List.getElem_mem hbefore)

/-- The first reading of the clock is the one that the expiry was compared
with. -/
theorem clock_checked {τ : Timing} (hτ : Honest τ a.history) :
    τ.clock 5 = a.checkedAt.toNat := by
  have hnow : a.history[4]? = some ⟨.now, some a.checkedAt.toNat⟩ := rfl
  exact (Option.some.inj (hτ 4 _ hnow)).symm

end Approval

/-- **Expiry.**  In a run that is about to execute the statement the plan had
not expired at the first clock reading; it has not expired when the lock is
granted exactly when the commands from there to the lock took no longer than
what was left of its lifetime: the second reading of the clock, the receipt, the
certificates and the connection, BEGIN, the settings and the lock. -/
theorem applyPlan_expiry {options : ApplyOptions} {sql : String}
    {k : Reply (.execute sql) → Prog Cmd Reply (Except AppError ApplyResult)}
    (hr : Reaches (applyPlan X options).run h (.call (.execute sql) k)) {τ : Timing}
    (hτ : Honest τ h) :
    ∃ (plan : Plan) (planBytes : Utf8.Bytes) (checked granted : Nat),
      h[1]? = some ⟨.read options.planPath, some planBytes⟩ ∧ decodePlan X planBytes = .ok plan ∧
      (∃ time, h[checked]? = some ⟨.now, time⟩) ∧
      (∀ j time, h[j]? = some ⟨.now, time⟩ → checked ≤ j) ∧
      (∀ j, h[j]? = some ⟨.batchExecute (lockText plan.preconditions.canonicalTable), true⟩ ↔
        j = granted) ∧ checked < granted ∧
      (τ.clock (granted + 1) ≤ plan.expiresAtUnixMs.toNat ↔
        τ.between (checked + 1) (granted + 1) ≤
          plan.expiresAtUnixMs.toNat - τ.clock (checked + 1)) ∧
      -- what these commands are
      τ.between (checked + 1) (granted + 1) =
        ∑ c ∈ {.clock, .write, .environment, .connect, .start, .batch},
          τ.takes (fun i => h[i]?.map (·.cmd.channel)) (some c) (checked + 1) (granted + 1) := by
  obtain ⟨a, t, k', rfl, hmutate⟩ := approval_of_call X (.inl rfl) hr
  obtain ⟨rfl, -⟩ := mutate_execute hmutate
  rw [List.append_nil] at hτ ⊢
  have hlater : 4 < a.granted := by
    rw [Approval.granted]
    omega
  have hfirst : ∀ j time, a.history[j]? = some ⟨.now, time⟩ → 4 ≤ j := by
    intro j time hj
    by_contra hlt
    interval_cases j <;> cases hj
  have hvalid : τ.clock 5 ≤ a.plan.expiresAtUnixMs.toNat := by
    rw [a.clock_checked hτ]
    exact Nat.not_lt.mp fun hlt => a.unexpired (UInt64.lt_iff_toNat_lt.mpr hlt)
  have hparts := τ.between_eq_sum fun i hi hgranted => a.channel_until_granted hi hgranted
  refine ⟨a.plan, a.planBytes, 4, a.granted, rfl, a.plan_decoded,
    ⟨some a.checkedAt.toNat, rfl⟩, hfirst, fun j => a.getElem?_granted, hlater,
    τ.clock_le_iff (Nat.succ_le_succ hlater.le) hvalid, hparts.trans ?_⟩
  simp

/-! ### A slow lock and a quick one -/

namespace Sample

/-- One millisecond for each of the first two clock readings, and `wait` for
the lock. -/
def timing (wait : Nat) : Timing where
  start := 0
  spent n := if n = 4 ∨ n = 5 then 1 else if n = 13 then wait else 0

theorem honest (wait : Nat) : Honest (timing wait) approval.history := by
  intro n time hn
  rcases Nat.lt_or_ge n 9 with hlt | hge
  · interval_cases n <;> cases hn <;> rfl
  · -- from the connection on, no clock is read
    have hsplit : approval.history = (approval.admissionHistory ++ approval.receiptHistory) ++
        (approval.connectionHistory ++ sessionHistory approval.plan ++ approval.driftHistory) := by
      simp only [Approval.history, List.append_assoc]
    rw [hsplit, List.getElem?_append_right hge] at hn
    have hchannel := approval.channel_of_deciding (List.mem_of_getElem? hn)
    exact absurd hchannel (by simp [Cmd.channel])

/-- Only the wait for the lock takes time after the second reading. -/
theorem clock_granted (wait : Nat) : (timing wait).clock 14 = 2 + wait := by
  simp [Timing.clock, timing, Finset.sum_range_succ]

end Sample

/-- The plan expires at 100; the check reads 1, and the lock is granted at 101. -/
theorem applyPlan_expiry_late :
    ¬ ∀ (X : Crates) (options : ApplyOptions) (h : History) (sql : String)
      (k : Reply (.execute sql) → Prog Cmd Reply (Except AppError ApplyResult)) (τ : Timing),
      Reaches (applyPlan X options).run h (.call (.execute sql) k) → Honest τ h →
      ∀ planBytes plan, h[1]? = some ⟨.read options.planPath, some planBytes⟩ →
        decodePlan X planBytes = .ok plan →
        ∀ j, h[j]? = some ⟨.batchExecute (lockText plan.preconditions.canonicalTable), true⟩ →
          τ.clock (j + 1) ≤ plan.expiresAtUnixMs.toNat := by
  intro hall
  have hlate := hall Sample.crates Sample.options Sample.approval.history _ _ (Sample.timing 99)
    Sample.approval.reaches (Sample.honest 99) Sample.approval.planBytes Sample.approval.plan rfl
    Sample.approval.plan_decoded 13 (Sample.approval.getElem?_granted.mpr rfl)
  rw [Sample.clock_granted] at hlate
  exact absurd hlate (by decide)

/-- With a wait of 98 milliseconds the lock is granted at the last moment. -/
theorem applyPlan_expiry_prompt :
    ∃ (plan : Plan) (granted : Nat), plan.expiresAtUnixMs = 100 ∧
      Sample.approval.history[granted]? =
        some ⟨.batchExecute (lockText plan.preconditions.canonicalTable), true⟩ ∧
      (Sample.timing 98).clock (granted + 1) ≤ plan.expiresAtUnixMs.toNat := by
  obtain ⟨plan, planBytes, checked, granted, hread, hdecoded, ⟨time, hchecked⟩, hfirst, hgranted,
    -, hiff, -⟩ := applyPlan_expiry Sample.crates Sample.approval.reaches (Sample.honest 98)
  have hbytes : planBytes = Sample.approval.planBytes := by
    have hat : Sample.approval.history[1]? =
        some ⟨.read Sample.options.planPath, some Sample.approval.planBytes⟩ := rfl
    rw [hat] at hread
    cases hread
    rfl
  obtain rfl : plan = Sample.approval.plan := by
    rw [hbytes, Sample.approval.plan_decoded] at hdecoded
    exact (Except.ok.inj hdecoded).symm
  obtain rfl : checked = 4 := by
    have hle : checked ≤ 4 := hfirst 4 (some 1) rfl
    interval_cases checked
    · cases hchecked
    · cases hchecked
    · cases hchecked
    · cases hchecked
    · rfl
  obtain rfl : 13 = granted := (hgranted 13).mp (Sample.approval.getElem?_granted.mpr rfl)
  refine ⟨_, 13, rfl, (hgranted 13).mpr rfl, hiff.mpr ?_⟩
  have hspent : (Sample.timing 98).between 5 14 = 99 := by decide
  have hchecked : (Sample.timing 98).clock 5 = 1 := by decide
  have hexpires : Sample.approval.plan.expiresAtUnixMs.toNat = 100 := rfl
  rw [hspent, hchecked, hexpires]

end DmlPact
