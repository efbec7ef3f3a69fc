/-
DmlPact/Plan/Bounds.lean

The bounds on a plan, at both ends.  Planning imposes four of them on the plans
it writes:

    limits      those of `validateLimits`
    budget      the target count is within the row limit
    lifetime    1 millisecond to 24 hours
    version     PostgreSQL 13 or newer

Applying reads a plan that anyone may have written, and establishes the first
two again.  The other two it takes from the plan as they are: on its way to
the receipt it compares the expiry with the clock only, and never reads the
creation time or the version.  So a run that creates its receipt has all four
bounds exactly when the plan brings the other two along.
-/
import DmlPact.Apply.Lock
import DmlPact.Plan.Created

namespace DmlPact

open Effect

variable (X : Crates) {h : History}

/-- The milliseconds between a plan's creation and its expiry. -/
def Plan.lifetime (plan : Plan) : Int :=
  (plan.expiresAtUnixMs.toNat : Int) - plan.createdAtUnixMs.toNat

/-- A lifetime as planning allows it. -/
def Plan.LivesADay (plan : Plan) : Prop :=
  1 ≤ plan.lifetime ∧ plan.lifetime ≤ maxPlanLifetimeMs.toNat

/-- A server as planning allows it. -/
def Plan.Supported (plan : Plan) : Prop :=
  minPostgresVersionNum ≤ plan.preconditions.database.serverVersionNum

/-- The bounds that planning imposes on the plans it writes. -/
structure Plan.Bounded (plan : Plan) : Prop where
  limits : validateLimits plan.limits = .ok ()
  budget : plan.preconditions.targetCount ≤ plan.limits.maxRows
  lifetime : plan.LivesADay
  version : plan.Supported

/-! ### Planning -/

theorem enforcePostgresVersion_ok {identity : DatabaseIdentity}
    (h : enforcePostgresVersion identity = .ok ()) :
    minPostgresVersionNum ≤ identity.serverVersionNum := by
  unfold enforcePostgresVersion at h
  split_ifs at h with hold
  exact Int64.not_lt.mp hold

theorem Planning.livesADay {options : PlanOptions} (s : Planning X options) :
    s.plan.LivesADay := by
  have hvalid := s.lifetime_valid
  simp only [Bool.or_eq_true, decide_eq_true_eq, not_or, UInt64.not_lt] at hvalid
  obtain ⟨hzero, hmax⟩ := hvalid
  have hpositive : 0 < options.lifetimeMs.toNat := by
    apply Nat.pos_of_ne_zero
    exact fun h0 => hzero (UInt64.toNat_inj.mp h0)
  -- the sum does not wrap around, so the difference is what was asked for
  have hsum : (s.createdAt + options.lifetimeMs).toNat =
      s.createdAt.toNat + options.lifetimeMs.toNat := by
    rw [UInt64.toNat_add]
    exact Nat.mod_eq_of_lt (Nat.not_le.mp s.expiry_fits)
  have hlife : s.plan.lifetime = options.lifetimeMs.toNat := by
    show ((s.createdAt + options.lifetimeMs).toNat : Int) - s.createdAt.toNat = _
    rw [hsum]
    push_cast
    ring
  rw [Plan.LivesADay, hlife]
  exact ⟨by exact_mod_cast hpositive, by exact_mod_cast UInt64.le_iff_toNat_le.mp hmax⟩

/-- **Planned bounds.**  A plan that is returned is within all of them. -/
theorem createPlan_bounded {options : PlanOptions} {plan : Plan}
    (hr : Reaches (createPlan X options).run h (.ret (.ok plan))) : plan.Bounded := by
  obtain ⟨s, -, rfl⟩ := planning_of_ok X hr
  exact ⟨s.limits_valid, UInt64.not_lt.mp s.budget, s.livesADay,
    enforcePostgresVersion_ok s.version_supported⟩

/-! ### Applying -/

theorem budget_of_binding {plan : Plan} {analyzed : AnalyzedSql}
    (h : validatePlanBinding plan analyzed = .ok ()) :
    plan.preconditions.targetCount ≤ plan.limits.maxRows := by
  unfold validatePlanBinding at h
  split at h
  · cases h
  · split at h
    · cases h
    · rename_i hbudget
      exact UInt64.not_lt.mp hbudget

/-- A run that goes on to create a file has accepted a plan and a SQL file. -/
theorem admitted_of_create {options : ApplyOptions} {path : Path}
    {k : Bool → Prog Cmd Reply (Except AppError ApplyResult)}
    (hr : Reaches (applyPlan X options).run h (.call (.createNew path) k)) :
    ∃ plan analyzed, Admitted X options h plan analyzed := by
  obtain ⟨plan, analyzed, now, h₁, h₂, h₃, h₄, rfl, hplan, hlimits, hsql, hbound, -, -, -⟩ :=
    applyPlan_checked X (c := .createNew path) (by simp [Cmd.channel]) hr
  obtain ⟨planMetadata, planBytes, rfl, -, hdecoded⟩ := (readPlan_ok X).mp hplan
  obtain ⟨sqlMetadata, sqlBytes, sqlText, rfl, -, -, htext, hanalyzed⟩ :=
    (readAndAnalyze_ok X).mp hsql
  exact ⟨plan, analyzed, ⟨planBytes, rfl, hdecoded⟩, ⟨sqlBytes, sqlText, rfl, htext, hanalyzed⟩,
    hlimits, hbound⟩

theorem Admitted.bounded_iff {options : ApplyOptions} {plan : Plan} {analyzed : AnalyzedSql}
    (a : Admitted X options h plan analyzed) :
    plan.Bounded ↔ plan.LivesADay ∧ plan.Supported :=
  ⟨fun b => ⟨b.lifetime, b.version⟩,
    fun ⟨hlife, hversion⟩ => ⟨a.limits, budget_of_binding a.bound, hlife, hversion⟩⟩

/-- **Admission.**  A run that goes on to create its receipt has read a plan
whose limits and row budget are within their bounds, and the plan is within all
of them exactly when its lifetime and its server version are. -/
theorem applyPlan_admits_bounded {options : ApplyOptions} {path : Path}
    {k : Bool → Prog Cmd Reply (Except AppError ApplyResult)}
    (hr : Reaches (applyPlan X options).run h (.call (.createNew path) k)) :
    ∃ plan analyzed, Admitted X options h plan analyzed ∧
      validateLimits plan.limits = .ok () ∧
      plan.preconditions.targetCount ≤ plan.limits.maxRows ∧
      (plan.Bounded ↔ plan.LivesADay ∧ plan.Supported) := by
  obtain ⟨plan, analyzed, a⟩ := admitted_of_create X hr
  exact ⟨plan, analyzed, a, a.limits, budget_of_binding a.bound, a.bounded_iff⟩

/-- Every admission goes on to create its receipt. -/
theorem Admission.reaches_create {X : Crates} {options : ApplyOptions}
    (a : Admission X options) :
    ∃ k, Reaches (applyPlan X options).run
      (a.admissionHistory ++ [⟨.now, some a.preparedAt.toNat⟩])
      (.call (.createNew options.receiptPath) k) := by
  have hall : Reaches (applyPlan X options).run
      ((a.admissionHistory ++ [⟨.now, some a.preparedAt.toNat⟩]) ++
        (⟨.createNew options.receiptPath, true⟩ :: a.receiptHistory.drop 2))
      (applyAfterReceipt X a.journal a.plan a.analyzed options.database).run := by
    rw [List.append_assoc]
    exact a.reaches_receipt
  obtain ⟨p, hp, hnext⟩ := hall.split
  obtain ⟨k, rfl, -⟩ := hnext.cons
  exact ⟨k, hp⟩

/-! ### The small admission -/

namespace Sample

theorem reaches_create (createdAt expiresAt : UInt64) (hunexpired : ¬ expiresAt < 1) :
    ∃ h k, Reaches (applyPlan crates options).run h (.call (.createNew options.receiptPath) k) ∧
      Admitted crates options h (answersAt createdAt expiresAt hunexpired).plan analysis := by
  have hfits := planNamingAt_fits createdAt expiresAt hunexpired
    (show (canonicalTable evidence).toList.length ≤ 1000 by decide)
  let a := (answersAt createdAt expiresAt hunexpired).admission hfits
  obtain ⟨k, hr⟩ := a.reaches_create
  exact ⟨_, k, hr, a.admitted.mono (List.prefix_append _ _)⟩

end Sample

/-- A plan whose hash was computed anew over an expiry of 24 hours and one
millisecond after its creation gets its receipt. -/
theorem applyPlan_admits_longer :
    ¬ ∀ (X : Crates) (options : ApplyOptions) (h : History) (path : Path)
      (k : Bool → Prog Cmd Reply (Except AppError ApplyResult)) (plan : Plan)
      (analyzed : AnalyzedSql),
      Reaches (applyPlan X options).run h (.call (.createNew path) k) →
      Admitted X options h plan analyzed → plan.Bounded := by
  intro hall
  obtain ⟨h, k, hr, a⟩ := Sample.reaches_create 0 86400001 (by decide)
  have hlife := (hall _ _ _ _ _ _ _ hr a).lifetime.2
  have hmax : ¬ ((86400001 : UInt64).toNat : Int) - (0 : UInt64).toNat ≤
    maxPlanLifetimeMs.toNat := by decide
  exact hmax hlife

/-- One of 100 milliseconds is within all bounds. -/
theorem applyPlan_admits_bounded_sample :
    (Sample.answersAt 0 100 (by decide)).plan.Bounded := by
  obtain ⟨h, k, hr, a⟩ := Sample.reaches_create 0 100 (by decide)
  obtain ⟨plan, analyzed, a', -, -, hiff⟩ := applyPlan_admits_bounded Sample.crates hr
  obtain ⟨rfl, rfl⟩ := a.unique a'
  have hversion : minPostgresVersionNum ≤ (150000 : Int64) := by decide
  exact hiff.mpr ⟨⟨by decide, by decide⟩, hversion⟩

end DmlPact
