/-
DmlPact/Server/Named.lean

The table that is locked and the table that is changed.  The lock takes the
canonical name; the evidence, the queries and the statement go by the requested
name, which means, when it has no schema, whatever comes first at that moment.
Between the lookup and the statement another session may put a table in front
(`applyPlan_changes_another`), and unless it does, the table that is changed is
the one that is locked (`applyPlan_changes_locked`).
-/
import DmlPact.Apply.Lock
import DmlPact.Server.Served

namespace DmlPact

open Effect RowChange Server

variable {X : Crates} (sv : Server) {ι : Type} [DecidableEq ι]

/-- **The locked table.**  While the tables that others put somewhere stay out
of the way of the names that are in use, every commit of an apply run of a file
that the server takes for a statement on the requested table (`Server.Targets`)
changes the table that the plan names, which it has locked. -/
theorem applyPlan_changes_locked {jobs : ι → Job} (writes : sv.Table → Prop) {w : sv.World ι}
    {s : Configuration Cmd Reply (sv.World ι) fun i => (jobs i).Answer} (hfresh : w.Fresh)
    (hs : Reachable (sv.semantics ⟨writes, LeavesNames⟩) (fun i => (jobs i).run X) w s)
    {c : sv.Commit ι} (hc : c ∈ s.world.log) {options : ApplyOptions}
    (hjob : jobs c.session = .apply options)
    (htargets : ∀ plan analyzed, Admitted X options (s.procs c.session).history plan analyzed →
      sv.Targets analyzed) :
    ∃ (a : Approval X options) (schema name : String), a.history <+: (s.procs c.session).history ∧
      a.plan.preconditions.canonicalTable = qualified schema name ∧
      c.change.sql = a.analyzed.normalized ∧ c.tables schema name = some c.change.table ∧
      c.holder c.change.table = some c.session := by
  obtain ⟨a, ha, hchanged, -⟩ := changed_of_commit hfresh (fun _ _ _ => id) hs hc hjob htargets
  obtain ⟨action, -, hchange, -⟩ := hchanged.action
  refine ⟨a, _, _, ha, a.canonical, ?_, hchanged.table, hchanged.held⟩
  rw [hchange]

/-! ### A table in front -/

namespace Sample

/-- The other table is put in front of the one that is locked, behind the
lookup, and the run commits a change of it. -/
theorem reachable_another :
    ∃ s : Configuration Cmd Reply (server.World Unit) fun i => (job i).Answer,
      Reachable (server.semantics ⟨fun _ => False, fun _ _ _ => True⟩)
        (fun i => (job i).run crates) (world Unit) s ∧ applied.history <+: (s.procs ()).history ∧
      ∃ c, s.world.log = [c] ∧ c.tables "public" "t" = some placed ∧
        c.change.table = spare := by
  have hidle : (world Unit).session () = .idle := rfl
  have hfree : (world Unit).holder placed = none := rfl
  have hwriters : ∀ j, ¬ (world Unit).writers placed j := fun _ => id
  have hstart : Reachable (server.semantics ⟨fun _ => False, fun _ _ _ => True⟩)
      (fun i => (job i).run crates) (world Unit)
      (start (fun i => (job i).run crates) (world Unit)) := .refl
  have hreaches := applied.reaches_committed 3
  rw [Approval.committedHistory, ← List.append_assoc, applied.history_locating, List.append_assoc,
    List.append_assoc] at hreaches
  obtain ⟨q₁, hlocated, hrest⟩ := hreaches.split
  rw [← List.append_assoc] at hrest
  obtain ⟨q₂, htargeted, -⟩ := hrest.split
  -- as far as the evidence
  obtain ⟨w₁, w₂, hlocating, hr₂, htables, hcontents, hholder, hwriting, -, -, hlog, -⟩ :=
    applied.serves_locating ⟨fun _ => False, fun _ _ _ => True⟩ distinguishes hidle hfree hwriters rfl
      (resolve_world Unit)
  obtain ⟨s₁, hs₁, hworld₁, hprocs₁, -⟩ := hstart.followed hlocated hlocating
  -- the other table comes in front
  have hput : server.Drifts ⟨fun _ => False, fun _ _ _ => True⟩ w₂ (w₂.put "early" "t" spare) := by
    refine .put ?_ ?_ ?_ trivial
    · rw [hr₂.tables, htables]
      rfl
    · rw [hr₂.holder, hholder, Function.update_of_ne spare_ne_placed]
      rfl
    · rw [hr₂.writers, hwriting]
      exact hwriters
  have hs₂ : Reachable (server.semantics ⟨fun _ => False, fun _ _ _ => True⟩)
      (fun i => (job i).run crates) (world Unit) ⟨w₂.put "early" "t" spare, s₁.procs⟩ :=
    hs₁.tail ⟨none, .drift (hworld₁ ▸ hput) rfl⟩
  have hr₃ := hr₂.put "early" "t" spare
  have hsame : (w₁.put "early" "t" spare).tables = ((world Unit).put "early" "t" spare).tables := by
    funext schema name
    show (if schema = "early" ∧ name = "t" then some spare
      else if w₁.tables schema name = some spare then none else w₁.tables schema name) = _
    rw [htables]
    rfl
  have hfound : server.resolve (w₁.put "early" "t" spare).tables "t" = some ("early", "t", spare) := by
    rw [hsame]
    rfl
  -- from here on the name means that one
  obtain ⟨w₄, htarget, hr₄, -⟩ := serves_targeted ⟨fun _ => False, fun _ _ _ => True⟩ distinguishes
    hr₃ applied.counted query_target hfound
  have hcount : applied.plan.preconditions.targetCount.toNat =
      deletion.affected ((w₁.put "early" "t" spare).contents spare) := by
    show 1 = (matching chosen (w₁.contents spare)).card
    rw [hcontents]
    show 1 = (matching chosen rows).card
    rw [matching_rows]
    rfl
  obtain ⟨w₅, c, hchange, hleaves, -⟩ := serves_change ⟨fun _ => False, fun _ _ _ => True⟩ hr₄
    hcontents.symm statement_sql hfound (fun _ _ => rfl) hcount
  have hserves := htarget.append hchange
  have hrows : applied.targetHistory = [⟨.query (targetRowsText "t" "t" "a") [],
      ⟨textRows (server.texts (matching chosen ((world Unit).contents spare))), true⟩⟩] :=
    target_rows [3]
  dsimp only at hserves
  rw [← hrows] at hserves
  have hrest₂ : Reaches (s₁.procs ()).rest (applied.countHistory ++ applied.targetHistory ++
      [⟨.execute applied.analyzed.normalized, .ok applied.observed.count⟩, ⟨.commit, true⟩]) q₂ := by
    rw [hprocs₁]
    exact htargeted
  obtain ⟨s₃, hs₃, hworld₃, hprocs₃, -⟩ := hs₂.followed hrest₂ hserves
  refine ⟨s₃, hs₃, ?_, c, ?_, ?_, hleaves.table⟩
  · rw [hprocs₃, hprocs₁, applied.history_locating]
    exact ⟨[⟨.execute applied.analyzed.normalized, .ok applied.observed.count⟩, ⟨.commit, true⟩],
      by simp [start]⟩
  · rw [hworld₃, hleaves.log]
    show w₁.log ++ [c] = [c]
    rw [hlog]
    rfl
  · rw [hleaves.place, hsame]
    rfl

end Sample

/-- The run commits a change of the table in front. -/
theorem applyPlan_changes_another :
    ¬ ∀ (X : Crates) (sv : Server) (jobs : Unit → Job) (w : sv.World Unit)
      (s : Configuration Cmd Reply (sv.World Unit) fun i => (jobs i).Answer) (c : sv.Commit Unit)
      (options : ApplyOptions), w.Fresh →
      Reachable (sv.semantics ⟨fun _ => False, fun _ _ _ => True⟩) (fun i => (jobs i).run X) w s →
      c ∈ s.world.log → jobs c.session = .apply options →
      ∃ (a : Approval X options) (schema name : String),
        a.history <+: (s.procs c.session).history ∧
        a.plan.preconditions.canonicalTable = qualified schema name ∧
        c.tables schema name = some c.change.table := by
  intro hall
  obtain ⟨s, hs, hhistory, c, hlog, htables, htable⟩ := Sample.reachable_another
  have hc : c ∈ s.world.log := by
    rw [hlog]
    exact List.mem_singleton_self c
  obtain ⟨a, schema, name, ha, hcanonical, hplace⟩ := hall Sample.crates Sample.server Sample.job
    (Sample.world Unit) s c Sample.options (Sample.world_fresh Unit) hs hc rfl
  -- the history admits one plan only, that of the sample
  obtain ⟨hplan, -⟩ := (a.admitted.mono ha).unique (Sample.applied.admitted.mono hhistory)
  have hname : qualified "public" "t" = qualified schema name := by
    rw [← hcanonical, hplan]
    rfl
  obtain ⟨rfl, rfl⟩ := qualified_inj hname
  rw [htables, htable] at hplace
  exact Sample.spare_ne_placed (Option.some.inj hplace).symm

/-- Without one the run commits a change of the table that it has locked. -/
theorem applyPlan_changes_locked_sample :
    ∃ (s : Configuration Cmd Reply (Sample.server.World Unit) fun i => (Sample.job i).Answer)
      (c : Sample.server.Commit Unit), c ∈ s.world.log ∧
      ∃ (a : Approval Sample.crates Sample.options) (schema name : String),
        a.history <+: (s.procs c.session).history ∧
        a.plan.preconditions.canonicalTable = qualified schema name ∧
        c.change.sql = a.analyzed.normalized ∧ c.tables schema name = some c.change.table ∧
        c.holder c.change.table = some c.session := by
  obtain ⟨s, hs, -, c, hlog⟩ := Sample.reachable_committed ⟨fun _ => False, LeavesNames⟩
  have hc : c ∈ s.world.log := by
    rw [hlog]
    exact List.mem_singleton_self c
  exact ⟨s, c, hc, applyPlan_changes_locked Sample.server (fun _ => False)
    (Sample.world_fresh Unit) hs hc rfl
    fun _ _ hadmitted => (Sample.readsAs_of_admitted hadmitted).toTargets⟩

end DmlPact
