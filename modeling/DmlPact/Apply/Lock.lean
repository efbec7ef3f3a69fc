/-
DmlPact/Apply/Lock.lean

What a run sends to the server besides the statement of the SQL file.  The
settings are SET statements; the lock is the canonical table's text, as the plan
file has it, between fixed words, and it is sent before that text is compared
with anything; the comparisons are queries of the program, and two that repeat
the WHERE clause of the SQL file, with whatever that calls on the server.  So
whether the run sends nothing that changes data, short of the statement, depends
on two things (`applyPlan_sends_only`):

    NamesOneRelation plan.preconditions.canonicalTable
    Quiet            the counting and the target query
-/
import DmlPact.Apply.Answers
import DmlPact.Apply.Batches

namespace DmlPact

open Effect SqlLex

variable (conforming : Bool) (reserved : List Char → Prop)

/-! ### The lock text -/

variable {reserved}

variable (X : Crates) {options : ApplyOptions} {h : History}

/-- The plan and the SQL file that a run has read and accepted. -/
structure Admitted (options : ApplyOptions) (h : History) (plan : Plan)
    (analyzed : AnalyzedSql) : Prop where
  plan_read : ∃ bytes, h[1]? = some ⟨.read options.planPath, some bytes⟩ ∧
    decodePlan X bytes = .ok plan
  sql_read : ∃ bytes text, h[3]? = some ⟨.read options.sqlPath, some bytes⟩ ∧
    Utf8.decode bytes = some text ∧ analyzeSql X (String.ofList text) = .ok analyzed
  limits : validateLimits plan.limits = .ok ()
  bound : validatePlanBinding plan analyzed = .ok ()

/-- What a run sends on behalf of a plan and a SQL file. -/
def Sends (plan : Plan) (analyzed : AnalyzedSql) (c : Cmd) : Prop :=
  c.channel ∈ [Channel.environment, .connect, .start, .finish] ∨
    c = .batchExecute (timeoutSettings plan.limits) ∨
    c = .batchExecute (lockText plan.preconditions.canonicalTable) ∨
    Inspects analyzed c ∨ c = .execute analyzed.normalized

variable {X}

namespace Admitted

variable {plan plan' : Plan} {analyzed analyzed' : AnalyzedSql}

theorem mono {t : History} (a : Admitted X options h plan analyzed) (hp : h <+: t) :
    Admitted X options t plan analyzed := by
  have hkeep : ∀ {n : Nat} {e : Event Cmd Reply}, h[n]? = some e → t[n]? = some e := by
    intro n e he
    obtain ⟨rest, rfl⟩ := hp
    rw [List.getElem?_append_left (List.getElem?_eq_some_iff.mp he).1]
    exact he
  obtain ⟨bytes, hbytes, hplan⟩ := a.plan_read
  obtain ⟨sqlBytes, text, hsql, htext, hanalyzed⟩ := a.sql_read
  exact ⟨⟨bytes, hkeep hbytes, hplan⟩, ⟨sqlBytes, text, hkeep hsql, htext, hanalyzed⟩, a.limits,
    a.bound⟩

/-- A run has accepted one plan and one SQL file. -/
theorem unique (a : Admitted X options h plan analyzed)
    (a' : Admitted X options h plan' analyzed') : plan = plan' ∧ analyzed = analyzed' := by
  obtain ⟨bytes, hbytes, hplan⟩ := a.plan_read
  obtain ⟨bytes', hbytes', hplan'⟩ := a'.plan_read
  obtain ⟨sqlBytes, text, hsql, htext, hanalyzed⟩ := a.sql_read
  obtain ⟨sqlBytes', text', hsql', htext', hanalyzed'⟩ := a'.sql_read
  rw [hbytes, Option.some.injEq, Event.mk.injEq] at hbytes'
  rw [hsql, Option.some.injEq, Event.mk.injEq] at hsql'
  obtain rfl : bytes = bytes' := Option.some.inj (eq_of_heq hbytes'.2)
  obtain rfl : sqlBytes = sqlBytes' := Option.some.inj (eq_of_heq hsql'.2)
  rw [htext] at htext'
  obtain rfl := Option.some.inj htext'
  rw [hplan] at hplan'
  rw [hanalyzed] at hanalyzed'
  exact ⟨Except.ok.inj hplan', Except.ok.inj hanalyzed'⟩

end Admitted

variable (X)

/-- Deciding sends what the plan and the SQL file ask for. -/
theorem transact_within (plan : Plan) (analyzed : AnalyzedSql) (options : DatabaseOptions) :
    Within (Sends plan analyzed) (transact X plan analyzed options).run := by
  refine .run_bind ((openSession_within X plan options).mono fun c hc => ?_) fun database => ?_
  · rcases hc with hc | rfl | rfl
    · have hsub : [Channel.environment, .connect, .start] ⊆
          [Channel.environment, .connect, .start, .finish] := by decide
      exact .inl (hsub hc)
    · exact .inr (.inl rfl)
    · exact .inr (.inr (.inl rfl))
  refine .run_bind ((checkDrift_within X analyzed plan database).mono fun c hc => ?_)
    fun observed => ?_
  · exact .inr (.inr (.inr (.inl hc)))
  refine .run_bind (within_request (.inr (.inr (.inr (.inr rfl))))) fun answer => ?_
  refine Within.mono (conclude_uses observed answer) fun c hc => .inl ?_
  rw [List.mem_singleton.mp hc]
  decide

/-- What a run may issue: files and the clock, and once it has accepted a plan
and a SQL file, what these ask for. -/
def Issues (options : ApplyOptions) (h : History) (c : Cmd) : Prop :=
  c.channel ∈ [Channel.read, .clock, .write] ∨
    ∃ plan analyzed, Admitted X options h plan analyzed ∧ Sends plan analyzed c

/-- A part that touches only files and the clock. -/
theorem issues_of_uses {α : Type} {cs : List Channel} {p : Prog Cmd Reply α}
    {Q : History → α → Prop} (hp : Uses cs p) (hcs : cs ⊆ [.read, .clock, .write])
    (hQ : ∀ t a, Reaches p t (.ret a) → Q (h ++ t) a) : wp (Issues X options) Q p h :=
  wp_of_within hp (fun _ _ _ hc => .inl (hcs hc)) fun t a _ hr => hQ t a hr

theorem applyPlan_issues (options : ApplyOptions) :
    wp (Issues X options) (fun _ _ => True) (applyPlan X options).run [] := by
  unfold applyPlan
  refine wp_run_bind (issues_of_uses X (readPlan_uses X _) (by decide) ?_)
  rintro h₁ r hplan plan rfl
  obtain ⟨planMetadata, planBytes, rfl, -, hdecoded⟩ := (readPlan_ok X).mp hplan
  refine wp_run_bind ?_
  rw [run_ofResult, wp_ret]
  rintro ⟨⟩ hlimits
  refine wp_run_bind (issues_of_uses X (readAndAnalyze_uses X _) (by decide) ?_)
  rintro h₂ r hsql analyzed rfl
  obtain ⟨sqlMetadata, sqlBytes, text, rfl, -, -, htext, hanalyzed⟩ :=
    (readAndAnalyze_ok X).mp hsql
  refine wp_run_bind ?_
  rw [run_ofResult, wp_ret]
  rintro ⟨⟩ hbound
  -- from here on the plan and the statement are fixed
  have hadmitted : Admitted X options
      ([⟨.metadata options.planPath, some planMetadata⟩,
        ⟨.read options.planPath, some planBytes⟩] ++
        [⟨.metadata options.sqlPath, some sqlMetadata⟩,
        ⟨.read options.sqlPath, some sqlBytes⟩]) plan analyzed :=
    ⟨⟨planBytes, rfl, hdecoded⟩, ⟨sqlBytes, text, rfl, htext, hanalyzed⟩, hlimits, hbound⟩
  refine wp_run_bind (issues_of_uses X unixMs_uses (by decide) ?_)
  rintro h₃ r - now rfl
  split_ifs
  · trivial
  refine wp_run_bind (issues_of_uses X (create_uses X _ _ _) (by decide) ?_)
  rintro h₄ r - journal rfl
  rw [applyAfterReceipt_eq]
  show wp _ _ (_ >>= _) _
  rw [wp_bind]
  refine wp_of_within (transact_within X plan analyzed options.database) ?_ ?_
  · intro t c _ hc
    exact .inr ⟨plan, analyzed, hadmitted.mono (by simp), hc⟩
  · intro h₅ decided _ _
    rcases decided with outcome | outcome
    · exact issues_of_uses X (finishOutcome_uses X journal outcome) (by decide) fun _ _ _ => trivial
    · exact issues_of_uses X (finishOutcome_uses X journal outcome) (by decide) fun _ _ _ => trivial

/-! ### The statement comes after the comparisons -/

theorem Admission.admitted {X : Crates} {options : ApplyOptions} (a : Admission X options) :
    Admitted X options a.admissionHistory a.plan a.analyzed :=
  ⟨⟨a.planBytes, rfl, a.plan_decoded⟩, ⟨a.sqlBytes, a.sqlText, rfl, a.sql_decoded,
    a.sql_analyzed⟩, a.limits_valid, a.bound⟩

theorem Approval.admitted {X : Crates} {options : ApplyOptions} (a : Approval X options) :
    Admitted X options a.history a.plan a.analyzed :=
  a.toAdmission.admitted.mono (List.prefix_append _ _)

variable (F : Functions)

variable (reserved) in
/-- A command with nothing in it but SET statements, one LOCK statement on one
relation, a query that changes no data, or the statement of the SQL file.  A
query and a statement are sent as one statement each; a simple query is as many
as its text holds. -/
def Expected (analyzed : AnalyzedSql) : Cmd → Prop
  | .batchExecute sql => ∃ statements, batch conforming sql.toList = some statements ∧
      ((∀ s ∈ statements, s.head? = some (word "set")) ∨
        ∃ s, statements = [s] ∧ LockStatement reserved s)
  | .query sql _ => F.Quiet sql
  | .execute sql => sql = analyzed.normalized
  | _ => True

variable {F}

theorem timeoutSettings_expected (analyzed : AnalyzedSql) (limits : Limits) :
    Expected conforming reserved F analyzed (.batchExecute (timeoutSettings limits)) := by
  refine ⟨_, batch_timeoutSettings conforming limits, .inl fun s hs => ?_⟩
  simp only [List.mem_cons, List.not_mem_nil, or_false] at hs
  rcases hs with rfl | rfl | rfl <;> rfl

/-- Everything is as expected but the lock and the queries of the SQL file, which
are as expected where these are. -/
theorem Sends.expected (hcatalog : ∀ query ∈ catalogQueries, F.Quiet query) {plan : Plan}
    {analyzed : AnalyzedSql} {c : Cmd} (hc : Sends plan analyzed c)
    (hlock : c ≠ .batchExecute (lockText plan.preconditions.canonicalTable))
    (hqueries : ∀ query params, c = .query query params → analyzed.Generates query →
      F.Quiet query) : Expected conforming reserved F analyzed c := by
  rcases hc with hc | rfl | rfl | hc | rfl
  · cases c <;> simp [Cmd.channel] at hc <;> trivial
  · exact timeoutSettings_expected conforming analyzed plan.limits
  · exact absurd rfl hlock
  · cases c
    case query sql params =>
      rcases hc with hown | hgenerated
      · exact hcatalog sql hown
      · exact hqueries sql params rfl hgenerated
    all_goals exact hc.elim
  · exact rfl

namespace Sample

/-- A run under a plan that locks `table` has sent the lock, and nothing has
been compared. -/
theorem locked {table : String} (htable : table.toList.length ≤ 1000) :
    ∃ h q, Reaches (applyPlan crates Sample.options).run h q ∧
      Process.Issued (⟨h, q⟩ : Run) (.batchExecute (lockText table)) :=
  ⟨_, _, (answers.admission (planNaming_fits htable)).reaches_session,
    .inl ⟨true, List.mem_append_right _ (List.mem_append_right _
      (.tail _ (.tail _ List.mem_cons_self)))⟩⟩

/-- A server on which one counting query calls a `floor` of its own, which
changes data. -/
def functions : Functions where
  calls query function := query = countText "t" "floor(a) = 1" ∧ function = "floor"
  writes function := function = "floor"

theorem quiet_of_ne {query : String} (h : query ≠ countText "t" "floor(a) = 1") :
    functions.Quiet query := fun _ hcalls => absurd hcalls.1 h

theorem quiet_catalog : ∀ query ∈ catalogQueries, functions.Quiet query := by
  have hnone : countText "t" "floor(a) = 1" ∉ catalogQueries := by decide +kernel
  intro query hquery
  apply quiet_of_ne
  rintro rfl
  exact hnone hquery

theorem quiet_generated {query : String} (h : analysis.Generates query) : functions.Quiet query := by
  apply quiet_of_ne
  rcases h with h | h
  · obtain rfl : countText "t" "a" = query := Option.some.inj h
    decide +kernel
  · obtain rfl : targetRowsText "t" "t" "a" = query := Option.some.inj h
    decide +kernel

end Sample

end DmlPact
