/-
DmlPact/Server/Rows.lean

The rows that are approved and the rows that are changed.  Both target queries
have returned rows, and both fingerprints are hashes of their texts:

    createPlan    the rows that the table had when the plan was made
    applyPlan     the rows that the table has, locked, until the COMMIT

so a run that has come to its COMMIT changes the rows that were fingerprinted,
whatever the others did to the table between the two (`applyPlan_changes_planned`).
-/
import DmlPact.Server.Contents
import DmlPact.Server.Served

namespace DmlPact

open Effect RowChange

namespace Server

variable {X : Crates} {sv : Server} {ι : Type} [DecidableEq ι] {others : sv.Others ι}
  {α : ι → Type} {P : (i : ι) → Prog Cmd Reply (α i)} {w : sv.World ι}
  {s : Configuration Cmd Reply (sv.World ι) α}

/-! ### Fingerprints -/

theorem texts_injective {rows rows' : Multiset sv.Row} (h : sv.texts rows = sv.texts rows') :
    rows = rows' := by
  have hmaps : rows.map sv.text = rows'.map sv.text := by
    rw [← sv.sort_eq (rows.map sv.text), ← sv.sort_eq (rows'.map sv.text)]
    exact congrArg _ h
  exact Multiset.map_injective sv.text_injective hmaps

/-- The messages that are hashed for the rows that target queries have returned. -/
def evidences (w : sv.World ι) : Set Utf8.Bytes :=
  {m | ∃ i q rows, w.read i q rows ∧ m = rowEvidence (sv.texts rows)}

omit [DecidableEq ι] in
/-- **Fingerprints.**  Rows that were returned are determined by their hash. -/
theorem rows_eq_of_hash (hfree : NoCollision X (evidences w)) {i j : ι} {q q' : String}
    {rows rows' : Multiset sv.Row} (hread : w.read i q rows) (hread' : w.read j q' rows')
    (hfits : (rowEvidence (sv.texts rows)).length ≤ maxTargetEvidenceBytes)
    (h : sha256Bytes X (rowEvidence (sv.texts rows)) =
      sha256Bytes X (rowEvidence (sv.texts rows'))) : rows = rows' := by
  have hevidence : rowEvidence (sv.texts rows) = rowEvidence (sv.texts rows') :=
    hfree ⟨i, q, rows, hread, rfl⟩ ⟨j, q', rows', hread', rfl⟩ h
  apply texts_injective
  exact rowEvidence_injective (hfits.trans_lt (by decide)) hevidence

/-! ### What a target query has returned -/

/-- Every answer to a target query is of rows that are recorded. -/
theorem read_of_history (hs : Reachable (sv.semantics others) P w s) {i : ι} {h h' : History}
    {q requested : String} {selected : sv.Row → Bool} {rows : List DmlPact.Row}
    (hq : sv.query q = some (requested, selected)) (hquiet : sv.functions.Quiet q)
    (hh : (s.procs i).history = h ++ ⟨.query q [], ⟨rows, true⟩⟩ :: h') :
    ∃ found, rows = textRows (sv.texts found) ∧ s.world.read i q found := by
  obtain ⟨s₁, s₂, hs₁, hanswered, hs₂, hsteps⟩ := hs.moment hh
  obtain ⟨txn, -, hquery⟩ := answers_query hanswered.answers
  obtain ⟨schema, name, t, -, hrows, hdelivered⟩ := queries_target hq hquiet hquery
  refine ⟨_, hrows, read_run hs₂ hsteps ?_⟩
  rw [hdelivered]
  exact .inr ⟨rfl, rfl, rfl⟩

end Server

/-- The target query of a planning, and what is made of its answer. -/
theorem Planning.targeted {X : Crates} {options : PlanOptions} (p : Planning X options) {q : String}
    (hq : p.analyzed.targetRowsSql = some q) :
    ∃ rows texts h h', p.targetHistory = [⟨.query q [], ⟨rows, true⟩⟩] ∧
      p.history = h ++ ⟨.query q [], ⟨rows, true⟩⟩ :: h' ∧ rowTexts rows = some texts ∧
      p.plan.preconditions.targetSetSha256 = sha256Bytes X (rowEvidence texts) := by
  rcases (targetSetSha256_ok X).mp p.fingerprinted with ⟨hnone, -⟩ |
    ⟨q', rows, texts, hq', htexts, -, -, hhash, htarget⟩
  · rw [hq] at hnone
    cases hnone
  · obtain rfl := Option.some.inj (hq.symm.trans hq')
    have hmem : (⟨.query q [], ⟨rows, true⟩⟩ : Event Cmd Reply) ∈ p.history := by
      rw [history, htarget]
      simp
    obtain ⟨h, h', hsplit⟩ := List.append_of_mem hmem
    exact ⟨rows, texts, h, h', htarget, hsplit, htexts, hhash⟩

open Server

variable {X : Crates} {sv : Server} {ι : Type} [DecidableEq ι]

/-- **The rows that are changed.**  While the others write rows and move no
table, whatever an apply run has committed of an UPDATE or DELETE plan, of a file
that the server reads as it was analyzed (`Server.ReadsAs`), is a change of the
rows that were fingerprinted when the plan was created, as they stood until then,
and of no other row. -/
theorem applyPlan_changes_planned {jobs : ι → Job} (writes : sv.Table → Prop) {w : sv.World ι}
    {s : Configuration Cmd Reply (sv.World ι) fun i => (jobs i).Answer} (hfresh : w.Fresh)
    (hs : Reachable (sv.semantics ⟨writes, fun _ _ _ => False⟩) (fun i => (jobs i).run X) w s)
    (hfree : NoCollision X (evidences s.world)) {c : sv.Commit ι} (hc : c ∈ s.world.log)
    {options : ApplyOptions} (hjob : jobs c.session = .apply options)
    (hreads : ∀ plan analyzed, Admitted X options (s.procs c.session).history plan analyzed →
      sv.ReadsAs analyzed) :
    ∃ a : Approval X options, a.history <+: (s.procs c.session).history ∧ Changed a c ∧
      Sole ⟨writes, fun _ _ _ => False⟩ (fun i => (jobs i).run X) w s c ∧
      (a.plan.statementKind ≠ .insert → ∀ i planOptions,
        Reaches (createPlan X planOptions).run (s.procs i).history (.ret (.ok a.plan)) →
        ∃ p : Planning X planOptions, p.plan = a.plan ∧ (s.procs i).history = p.history ∧
          (sv.ReadsAs p.analyzed → ∃ q : String, p.analyzed.targetRowsSql = some q ∧
            p.targetHistory = [⟨.query q [], ⟨textRows (sv.texts c.change.removed), true⟩⟩] ∧
            s.world.read i q c.change.removed)) := by
  obtain ⟨a, ha, hchanged, hread⟩ := changed_of_commit hfresh (fun _ _ _ => False.elim) hs hc hjob
    fun plan analyzed hadmitted => (hreads plan analyzed hadmitted).toTargets
  have hreads_a : sv.ReadsAs a.analyzed := hreads _ _ (a.admitted.mono ha)
  have hstraight : sv.Straight (s.procs c.session).history := by
    obtain ⟨q, hreaches⟩ := Job.reaches_apply hjob (hs.reaches c.session)
    exact straight_of_approval hreaches a ha hreads_a.toTargets
  refine ⟨a, ha, hchanged, sole_of_straight hfresh hs hc hstraight,
    fun hkind i planOptions hcreated => ?_⟩
  obtain ⟨p, hhistory, hplan⟩ := planning_of_ok X hcreated
  refine ⟨p, hplan.symm, hhistory, fun hreads_p => ?_⟩
  -- both analyses are of a statement with a target query
  have hkind_a : a.analyzed.kind ≠ .insert := by
    rw [← (validatePlanBinding_ok a.bound).1]
    exact hkind
  have hkind_p : p.analyzed.kind ≠ .insert := by
    rw [hplan] at hkind
    exact hkind
  obtain ⟨q, selected, effect, hq, hquery, hstatement, -⟩ := hreads_a.condition hkind_a
  obtain ⟨q', selected', effect', hq', hquery', -⟩ := hreads_p.condition hkind_p
  -- what is changed is what the run's own target query has returned
  obtain ⟨action, hstatement', hchange, -⟩ := hchanged.action
  have hremoved : c.change.removed = matching selected (c.before c.change.table) := by
    rw [hstatement, Option.some.injEq, Prod.mk.injEq] at hstatement'
    rw [hchange, ← hstatement'.2]
    rfl
  obtain ⟨hfits, hhash⟩ := hchanged.target hq hquery
  obtain ⟨rows, texts, h, h', htarget, hsplit, htexts, hplanned⟩ := p.targeted hq'
  obtain ⟨found, rfl, hfound⟩ := read_of_history hs hquery' (hreads_p.quiet q' (.inr hq'))
    (hhistory.trans hsplit)
  rw [rowTexts_textRows] at htexts
  obtain rfl := Option.some.inj htexts
  rw [hplan, hplanned] at hhash
  have hsame : matching selected (c.before c.change.table) = found :=
    rows_eq_of_hash hfree (hread hq hquery) hfound hfits hhash.symm
  rw [hremoved, hsame]
  exact ⟨q', hq', htarget, hfound⟩

/-! ### One plan, one run -/

namespace Sample

/-- One session makes the plan and the other applies it. -/
def jobs : Bool → Job
  | false => .plan planOptions
  | true => .apply options

/-- So there is one fingerprint. -/
theorem noCollision {X : Crates} {sv : Server} {ι : Type} {w : sv.World ι} {rows : Multiset sv.Row}
    (hread : ∀ j q found, w.read j q found → found = rows) : NoCollision X (evidences w) := by
  apply NoCollision.of_subsingleton
  rintro _ ⟨i, q, found, hfound, rfl⟩ _ ⟨j, q', found', hfound', rfl⟩
  rw [hread i q found hfound, hread j q' found' hfound']

/-- The plan is made, and then it is applied. -/
theorem reachable_planned (others : server.Others Bool) :
    ∃ s : Configuration Cmd Reply (server.World Bool) fun i => (jobs i).Answer,
      Reachable (server.semantics others) (fun i => (jobs i).run crates) (world Bool) s ∧
      (s.procs false).history = planned.history ∧ applied.history <+: (s.procs true).history ∧
      (∃ c, s.world.log = [c] ∧ c.session = true) ∧
      ∀ j q found, s.world.read j q found → found = matching chosen rows := by
  have hstart : Reachable (server.semantics others) (fun i => (jobs i).run crates) (world Bool)
      (start (fun i => (jobs i).run crates) (world Bool)) := .refl
  -- the plan
  obtain ⟨w₁, hserves₁, htables, hcontents, hlog₁, hsession, hholder, hwriters, -, hread₁⟩ :=
    planned.serves others (i := false) (w := world Bool) (t := placed) distinguishes rfl rfl
      (resolve_world Bool) query_target (target_rows [3])
  obtain ⟨s₁, hs₁, rfl, hprocs₁, hothers₁⟩ :=
    hstart.followed (i := false) (Planning.reaches crates planned) hserves₁
  -- the run
  obtain ⟨q, hbefore⟩ := (appliedAt [3]).reaches_committing
  have hrest : Reaches (s₁.procs true).rest (appliedAt [3]).committing q := by
    rw [hothers₁ true Bool.noConfusion]
    exact hbefore
  obtain ⟨s₂, c, hs₂, hprocs₂, hothers₂, hleaves, hread₂⟩ := reachable_commit hs₁ true [3] hrest
    (hsession true Bool.noConfusion) (hholder placed rfl) (fun j hj => hwriters placed j hj)
    htables hcontents
  refine ⟨s₂, hs₂, ?_, ?_, ⟨c, ?_, hleaves.session⟩, fun j q found hfound => ?_⟩
  · rw [hothers₂ false Bool.noConfusion, hprocs₁]
    rfl
  · rw [hprocs₂, hothers₁ true Bool.noConfusion]
    exact List.prefix_append _ _
  · rw [hleaves.log, hlog₁]
    rfl
  · rcases hread₂ j q found hfound with hearlier | hshown
    · exact shown_rows ((hread₁ j q found hearlier).resolve_left id)
    · exact hshown

/-- One session makes the plan of `x = - - x`, and the other applies it. -/
def gluedJobs : Bool → Job
  | false => .plan planOptions
  | true => .apply (optionsAt [3])

/-- The plan is made of one row, and another one is changed. -/
theorem reachable_glued_planned (others : gluedServer.Others Bool) :
    ∃ (s : Configuration Cmd Reply (gluedServer.World Bool) fun i => (gluedJobs i).Answer)
      (c : gluedServer.Commit Bool),
      Reachable (gluedServer.semantics others) (fun i => (gluedJobs i).run gluedCrates)
        (gluedWorld Bool) s ∧
      (s.procs false).history = gluedPlanning.history ∧
      (gluedApplied [3]).history <+: (s.procs true).history ∧
      c ∈ s.world.log ∧ c.session = true ∧
      c.change.removed = ({twoRow "0"} : Multiset String) ∧
      ∀ j q found, s.world.read j q found → found = ({gluedRow} : Multiset String) := by
  have hstart : Reachable (gluedServer.semantics others) (fun i => (gluedJobs i).run gluedCrates)
      (gluedWorld Bool) (start (fun i => (gluedJobs i).run gluedCrates) (gluedWorld Bool)) := .refl
  obtain ⟨⟨hzero, -⟩, -⟩ := rows_glued
  obtain ⟨w₁, hserves₁, htables, hcontents, hlog₁, hsession, hholder, hwriters, -, hread₁⟩ :=
    gluedPlanning.serves others (i := false) (w := gluedWorld Bool) (t := gluedPlaced)
      gluedDistinguishes rfl rfl (resolve_serverOf _ _ Bool) gluedQuery (target_glued [3] "0" hzero)
  obtain ⟨s₁, hs₁, rfl, hprocs₁, hothers₁⟩ :=
    hstart.followed (i := false) (Planning.reaches gluedCrates gluedPlanning) hserves₁
  obtain ⟨q, hbefore⟩ := (gluedApplied [3]).reaches_committing
  have hrest : Reaches (s₁.procs true).rest (gluedApplied [3]).committing q := by
    rw [hothers₁ true Bool.noConfusion]
    exact hbefore
  obtain ⟨s₂, c, hs₂, hprocs₂, hothers₂, hleaves, hread₂⟩ := reachable_glued hs₁ true [3] hrest "0"
    hzero (hsession true Bool.noConfusion) (hholder gluedPlaced rfl)
    (fun j hj => hwriters gluedPlaced j hj) htables (by rw [hcontents]; rfl)
  refine ⟨s₂, c, hs₂, ?_, ?_, ?_, hleaves.session, ?_, fun j q found hfound => ?_⟩
  · rw [hothers₂ false Bool.noConfusion, hprocs₁]
    rfl
  · rw [hprocs₂, hothers₁ true Bool.noConfusion]
    exact List.prefix_append _ _
  · rw [hleaves.log]
    exact List.mem_append_right _ (List.mem_singleton_self c)
  · rw [hleaves.removed, hcontents]
    exact removed_glued "0" hzero
  · rcases hread₂ j q found hfound with hearlier | hshown
    · exact shown_glued (fun _ => .inl rfl) ((hread₁ j q found hearlier).resolve_left id)
    · rw [hcontents] at hshown
      exact shown_glued (fun _ => .inl rfl) hshown

end Sample

/-- The server counts and fingerprints the row with `a = 1`, and changes the one
with `a = 2`. -/
theorem applyPlan_changes_unplanned :
    ¬ ∀ (X : Crates) (sv : Server) (jobs : Bool → Job) (w : sv.World Bool)
      (s : Configuration Cmd Reply (sv.World Bool) fun i => (jobs i).Answer) (c : sv.Commit Bool)
      (options : ApplyOptions) (planOptions : PlanOptions) (plan : Plan) (analyzed : AnalyzedSql),
      w.Fresh →
      Reachable (sv.semantics ⟨fun _ => False, fun _ _ _ => False⟩) (fun i => (jobs i).run X) w s →
      NoCollision X (evidences s.world) → c ∈ s.world.log → jobs c.session = .apply options →
      Admitted X options (s.procs c.session).history plan analyzed → plan.statementKind ≠ .insert →
      Reaches (createPlan X planOptions).run (s.procs false).history (.ret (.ok plan)) →
      ∃ q, s.world.read false q c.change.removed := by
  intro hall
  obtain ⟨s, c, hs, hplanned, happlied, hc, hsession, hremoved, hread⟩ :=
    Sample.reachable_glued_planned ⟨fun _ => False, fun _ _ _ => False⟩
  have hjob : Sample.gluedJobs c.session = .apply (Sample.optionsAt [3]) := by
    rw [hsession]
    rfl
  have hadmitted := (Sample.gluedApplied [3]).admitted.mono happlied
  rw [← hsession] at hadmitted
  have hcreated : Reaches (createPlan Sample.gluedCrates Sample.planOptions).run
      (s.procs false).history (.ret (.ok Sample.gluedPlanning.plan)) := by
    rw [hplanned]
    exact Planning.reaches Sample.gluedCrates Sample.gluedPlanning
  have hkind : (Sample.gluedApplied [3]).plan.statementKind ≠ .insert := nofun
  obtain ⟨q, hfound⟩ := hall Sample.gluedCrates Sample.gluedServer Sample.gluedJobs
    (Sample.gluedWorld Bool) s c _ _ _ _ (Sample.gluedWorld_fresh Bool) hs (Sample.noCollision hread)
    hc hjob hadmitted hkind hcreated
  have hsame := hread false q _ hfound
  rw [hremoved] at hsame
  exact Sample.rows_glued.1.1 (Multiset.singleton_inj.mp hsame)

/-- The rows that the plan was made for are deleted. -/
theorem applyPlan_changes_planned_sample :
    ∃ (s : Configuration Cmd Reply (Sample.server.World Bool) fun i => (Sample.jobs i).Answer)
      (c : Sample.server.Commit Bool), c ∈ s.world.log ∧
      ∃ (a : Approval Sample.crates Sample.options) (p : Planning Sample.crates Sample.planOptions)
        (q : String), a.history <+: (s.procs c.session).history ∧ Changed a c ∧
        p.plan = a.plan ∧ (s.procs false).history = p.history ∧
        s.world.read false q c.change.removed := by
  obtain ⟨s, hs, hplanned, happlied, ⟨c, hlog, hsession⟩, hread⟩ :=
    Sample.reachable_planned ⟨fun _ => True, fun _ _ _ => False⟩
  have hc : c ∈ s.world.log := by
    rw [hlog]
    exact List.mem_singleton_self c
  have hfree : NoCollision Sample.crates (evidences s.world) := Sample.noCollision hread
  have hjob : Sample.jobs c.session = .apply Sample.options := by
    rw [hsession]
    rfl
  obtain ⟨a, ha, hchanged, -, hrows⟩ := applyPlan_changes_planned (fun _ => True)
    (Sample.world_fresh Bool) hs hfree hc hjob fun _ _ hadmitted =>
      Sample.readsAs_of_admitted hadmitted
  rw [← hsession] at happlied
  obtain ⟨hplan, -⟩ := (a.admitted.mono ha).unique (Sample.applied.admitted.mono happlied)
  have hkind : a.plan.statementKind ≠ .insert := by
    rw [hplan]
    exact nofun
  have hcreated : Reaches (createPlan Sample.crates Sample.planOptions).run (s.procs false).history
      (.ret (.ok a.plan)) := by
    rw [hplanned, hplan]
    exact Planning.reaches Sample.crates Sample.planned
  obtain ⟨p, hp, hhistory, hremoved⟩ := hrows hkind false Sample.planOptions hcreated
  have hanalysis : p.analyzed = Sample.analysis := Sample.analysis_of_ok p.sql_analyzed
  obtain ⟨q, -, -, hfound⟩ := hremoved (hanalysis ▸ Sample.readsAs)
  exact ⟨s, c, hc, a, p, q, ha, hchanged, hp, hhistory, hfound⟩

end DmlPact
