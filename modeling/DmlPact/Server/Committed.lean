/-
DmlPact/Server/Committed.lean

What a commit of an apply run has changed.  The history of the run has its lock,
its lookup, its target query and its statement in this order, and each has had
its moment:

    LOCK TABLE      holds a table, which stays where it is
    the lookup      has found the requested name to mean that table
    the target      has read the rows that the table has until the COMMIT
    the statement   has changed the rows of that table

so what was compared with the plan and what is committed are of one table and
of one state of it (`Changed`).
-/
import DmlPact.Lib.SqlName
import DmlPact.Apply.Guard
import DmlPact.Apply.Expiry
import DmlPact.Apply.Lock
import DmlPact.Server.Sessions

namespace DmlPact

open Effect RowChange

/-! ### Qualified names -/

/-- **Qualified names** are of one schema and one table. -/
theorem qualified_inj {schema name schema' name' : String}
    (h : qualified schema name = qualified schema' name') : schema = schema' ∧ name = name' := by
  have hchars : SqlName.quotedPair schema.toList name.toList =
      SqlName.quotedPair schema'.toList name'.toList := by
    have hlists := congrArg String.toList h
    simpa [qualified, toList_quoteIdentifier, SqlName.quotedPair] using hlists
  obtain ⟨hschema, hname⟩ := SqlName.quotedPair_injective hchars
  exact ⟨String.toList_inj.mp hschema, String.toList_inj.mp hname⟩

theorem lockText_inj {name name' : String} (h : lockText name = lockText name') : name = name' := by
  have hchars := congrArg String.toList h
  simp only [lockText, String.toList_append, List.append_assoc] at hchars
  exact String.toList_inj.mp (List.append_cancel_right (List.append_cancel_left hchars))

/-! ### What an apply run sends -/

/-- A run under a plan with a qualified name, of a statement that the server takes
for one on its table, sends nothing that strays. -/
theorem Server.straight_of_admitted {X : Crates} {sv : Server} {options : ApplyOptions}
    {h : History} {q : Prog Cmd Reply (Except AppError ApplyResult)}
    (hr : Reaches (applyPlan X options).run h q)
    (hname : ∀ plan analyzed, Admitted X options h plan analyzed →
      ∃ schema name, plan.preconditions.canonicalTable = qualified schema name)
    (htargets : ∀ plan analyzed, Admitted X options h plan analyzed → sv.Targets analyzed) :
    sv.Straight h := by
  rintro ⟨c, r⟩ he hstray
  have hissued : Process.Issued (⟨h, q⟩ : Run) c := .inl ⟨r, he⟩
  obtain ⟨t, ht, hissues⟩ := Process.issued_of_wp (applyPlan_issues X options) hr hissued
  have hserver := sv.channel_of_stray hstray
  rcases hissues with hfiles | ⟨plan, analyzed, ha, hsends⟩
  · exact Channel.apart hfiles rfl hserver
  obtain ⟨schema, name, hcanonical⟩ := hname plan analyzed (ha.mono ht)
  have hreads := htargets plan analyzed (ha.mono ht)
  rcases hsends with hopening | rfl | rfl | hinspects | rfl
  · exact Channel.apart hopening rfl hserver
  · exact hstray (.inr ⟨plan.limits, rfl⟩)
  · exact hstray (.inl ⟨schema, name, by rw [hcanonical]⟩)
  · cases c
    case query sql params =>
      rcases hinspects with hcatalog | hgenerated
      · exact hstray (sv.quiet_catalog sql hcatalog)
      · exact hstray (hreads.quiet sql hgenerated)
    all_goals exact hinspects.elim
  · obtain ⟨action, hstatement⟩ := hreads.statement
    rw [Server.Stray, hstatement] at hstray
    cases hstray

/-! ### The history of an approval -/

/-- A history in two parts, of which one fixes no snapshot and the other takes
no lock. -/
theorem Server.Orderly.of_parts {sv : Server} {h d : History} (hlooks : ∀ e ∈ h, ¬ Looks e.cmd)
    (hlocks : ∀ e ∈ d, e.cmd.channel ≠ .batch ∧ e.cmd.channel ≠ .start)
    (hopening : ∀ isolation readOnly, ⟨.start isolation readOnly, true⟩ ∈ h →
      isolation = .repeatableRead ∧ readOnly = false)
    (hstraight : sv.Straight (h ++ d)) : sv.Orderly (h ++ d) where
  opening isolation readOnly he := by
    rcases List.mem_append.mp he with he | he
    · exact hopening isolation readOnly he
    · exact absurd rfl (hlocks _ he).2
  straight := hstraight
  early t sql hle e he := by
    obtain ⟨rest, hsplit⟩ := hle
    rcases List.append_eq_append_iff.mp hsplit with ⟨u, rfl, -⟩ | ⟨u, hu, rfl⟩
    · exact hlooks e (by simp [he])
    · rcases List.eq_nil_or_concat u with rfl | ⟨u, e', rfl⟩
      · rw [List.append_nil] at hu
        exact hlooks e (hu ▸ List.mem_append_left _ he)
      · -- the lock would be in the second part
        rw [List.concat_eq_append, ← List.append_assoc] at hu
        obtain ⟨-, he'⟩ := List.append_inj' hu rfl
        have hmem : (⟨.batchExecute sql, true⟩ : Event Cmd Reply) ∈ u.concat e' ++ rest := by
          rw [List.singleton_inj.mp he']
          simp
        exact absurd rfl (hlocks _ hmem).1

namespace Approval

variable {X : Crates} {options : ApplyOptions} (a : Approval X options)

/-- The run as far as the lock, and behind it. -/
theorem history_parts : a.history = (a.admissionHistory ++ a.receiptHistory ++ a.connectionHistory ++
    sessionHistory a.plan) ++ a.driftHistory := by
  simp only [history, List.append_assoc]

theorem canonical : a.plan.preconditions.canonicalTable =
    qualified a.observed.evidence.schema a.observed.evidence.table := a.agrees.table.symm

theorem channel_of_opening {e : Event Cmd Reply}
    (he : e ∈ a.admissionHistory ++ a.receiptHistory ++ a.connectionHistory) :
    e.cmd.channel ∈ [Channel.read, .clock, .write, .environment, .connect] := by
  rcases List.mem_append.mp he with he | he
  · simp only [Admission.admissionHistory, Admission.receiptHistory, List.cons_append,
      List.nil_append, List.mem_cons, List.not_mem_nil, or_false] at he
    rcases he with rfl | rfl | rfl | rfl | rfl | rfl | rfl | rfl | rfl <;> simp [Cmd.channel]
  · have hsub : [Channel.environment, .connect] ⊆
        [Channel.read, .clock, .write, .environment, .connect] := by decide
    exact hsub (a.channel_of_connection he)

theorem channel_of_locked {e : Event Cmd Reply} (he : e ∈ a.admissionHistory ++ a.receiptHistory ++
    a.connectionHistory ++ sessionHistory a.plan) :
    e ∈ sessionHistory a.plan ∨ e.cmd.channel ∈ [Channel.read, .clock, .write, .environment,
      .connect] := by
  rcases List.mem_append.mp he with he | he
  · exact .inr (a.channel_of_opening he)
  · exact .inl he

/-- Nothing in it strays. -/
theorem straight {sv : Server} (htargets : sv.Targets a.analyzed) : sv.Straight a.history := by
  refine Server.straight_of_admitted a.reaches (fun plan analyzed hadmitted => ?_)
    fun plan analyzed hadmitted => ?_
  · obtain ⟨rfl, -⟩ := a.admitted.unique hadmitted
    exact ⟨_, _, a.canonical⟩
  · obtain ⟨-, rfl⟩ := a.admitted.unique hadmitted
    exact htargets

/-- **Orderly.**  The history of an approval, and of what is sent behind it. -/
theorem orderly {sv : Server} (htargets : sv.Targets a.analyzed) {d : History}
    (hd : ∀ e ∈ d, e.cmd.channel ≠ .batch ∧ e.cmd.channel ≠ .start) (hbehind : sv.Straight d) :
    sv.Orderly (a.history ++ d) := by
  have hstraight := (a.straight htargets).append hbehind
  rw [a.history_parts, List.append_assoc] at hstraight ⊢
  -- the transaction opens with one start and two batches
  have hsession : ∀ e ∈ sessionHistory a.plan, e.cmd.channel = .start ∨ e.cmd.channel = .batch := by
    intro e he
    simp only [sessionHistory, List.mem_cons, List.not_mem_nil, or_false] at he
    rcases he with rfl | rfl | rfl
    · exact .inl rfl
    · exact .inr rfl
    · exact .inr rfl
  refine .of_parts (fun e he hlooks => ?_) (fun e he => ?_) (fun isolation readOnly he => ?_)
    hstraight
  · rcases a.channel_of_locked he with he | he
    · rcases hsession e he with h | h <;> rcases hlooks with h' | h' <;> rw [h] at h' <;> cases h'
    · rcases hlooks with h | h <;> rw [h] at he <;> exact absurd he (by decide)
  · rcases List.mem_append.mp he with he | he
    · rw [a.channel_of_drift he]
      simp
    · exact hd e he
  · rcases a.channel_of_locked he with he | he
    · simp [sessionHistory] at he
      exact he
    · simp [Cmd.channel] at he

/-- With its statement behind it. -/
theorem orderly_executed {sv : Server} (htargets : sv.Targets a.analyzed)
    (count : Except DbError UInt64) :
    sv.Orderly (a.history ++ [⟨.execute a.analyzed.normalized, count⟩]) := by
  refine a.orderly htargets (fun e he => ?_) fun e he hstray => ?_
  · obtain rfl := List.mem_singleton.mp he
    exact ⟨nofun, nofun⟩
  · obtain rfl := List.mem_singleton.mp he
    obtain ⟨action, hstatement⟩ := htargets.statement
    rw [Server.Stray, hstatement] at hstray
    cases hstray

end Approval

/-! ### Moments of an ordered transaction -/

namespace Server

section Answers

variable {sv : Server} {ι : Type} [DecidableEq ι] {w w' : sv.World ι} {i : ι}
  {txn : sv.Transaction}

theorem answers_batch {sql : String} (h : sv.Answers i w (.batchExecute sql) true w') :
    ∃ txn, w.session i = .active txn ∧ sv.Batches w i txn sql w' :=
  (h.resolve_right fun hfailed => nomatch hfailed.1).2

theorem answers_query {q : String} {params : List SqlValue} {rows : List DmlPact.Row}
    (h : sv.Answers i w (.query q params) ⟨rows, true⟩ w') :
    ∃ txn, w.session i = .active txn ∧ sv.Queries w i txn q params rows w' :=
  (h.resolve_right fun hfailed => nomatch hfailed.1).2

theorem answers_execute {sql : String} {n : UInt64} (h : sv.Answers i w (.execute sql) (.ok n) w') :
    ∃ txn, w.session i = .active txn ∧ sv.Executes w i txn sql n w' := by
  rcases h with ⟨n', txn, hn, hactive, hexecute⟩ | ⟨⟨error, herror⟩, -⟩
  · obtain rfl := Except.ok.inj hn
    exact ⟨txn, hactive, hexecute⟩
  · cases herror

theorem batches_lock {schema name : String}
    (h : sv.Batches w i txn (lockText (qualified schema name)) w') :
    ∃ t, w.tables schema name = some t ∧ w' = w.lock i txn t := by
  cases h with
  | @lock schema' name' t hsql htable =>
      obtain ⟨rfl, rfl⟩ := qualified_inj (lockText_inj hsql)
      exact ⟨t, htable, rfl⟩
  | settings hsql => exact absurd hsql.symm (timeoutSettings_ne_lockText _ _)
  | stray hstray => exact absurd (.inl ⟨schema, name, rfl⟩) hstray

theorem queries_lookup {requested : String} {row : DmlPact.Row}
    (h : sv.Queries w i txn tableLookupSql [.text requested] [row] w') :
    ∃ s n t schema name, sv.resolve w.tables requested = some (s, n, t) ∧
      (w.view txn).tables schema name = some t ∧ DmlPact.Row.get row 1 = some schema ∧
      DmlPact.Row.get row 2 = some name ∧ w' = (w.see i txn).find i requested t := by
  cases h with
  | lookup hfound hshown hschema hname =>
      exact ⟨_, _, _, _, _, hfound, hshown, hschema, hname, rfl⟩
  | other hlookup => exact absurd ⟨rfl, rfl⟩ (hlookup requested)
  | stray _ hstray => exact absurd (sv.quiet_catalog _ (by simp [catalogQueries])) hstray

theorem queries_target {q requested : String} {selected : sv.Row → Bool} {rows : List DmlPact.Row}
    (hq : sv.query q = some (requested, selected)) (hquiet : sv.functions.Quiet q)
    (h : sv.Queries w i txn q [] rows w') : ∃ s n t, sv.resolve w.tables requested = some (s, n, t) ∧
      rows = textRows (sv.texts (matching selected ((w.view txn).contents t))) ∧
      w' = ((w.see i txn).find i requested t).deliver i q
        (matching selected ((w.view txn).contents t)) := by
  cases h with
  | @target _ requested' selected' s n t hq' hfound =>
      obtain ⟨rfl, rfl⟩ := Prod.mk.inj (Option.some.inj (hq.symm.trans hq'))
      exact ⟨s, n, t, hfound, rfl, rfl⟩
  | other _ htarget => exact absurd (hq.symm.trans (htarget rfl)) nofun
  | stray _ hstray => exact absurd hquiet hstray

theorem executes_change {sql requested : String} {action : Action sv.Row} {n : UInt64}
    (hsql : sv.statement sql = some (requested, action)) (h : sv.Executes w i txn sql n w') :
    txn.change = none ∧ ∃ schema name t, sv.resolve w.tables requested = some (schema, name, t) ∧
      n.toNat = action.affected ((w.view txn).contents t) ∧
      w' = (w.alter i txn ⟨sql, t, action.removed ((w.view txn).contents t),
        action.added ((w.view txn).contents t)⟩).find i requested t := by
  cases h with
  | mk hwritable hfirst hsql' hfound hholder hpresent hcount =>
      obtain ⟨rfl, rfl⟩ := Prod.mk.inj (Option.some.inj (hsql.symm.trans hsql'))
      exact ⟨hfirst, _, _, _, hfound, hcount, rfl⟩
  | stray _ hstray => exact absurd (hsql.symm.trans hstray) nofun

end Answers

/-- The lock on a table, and behind it the lookup of a name that it is found
under. -/
def Located (h : History) (requested schema name : String) : Prop :=
  ∃ before row after,
    h = before ++ ⟨.query tableLookupSql [.text requested], ⟨[row], true⟩⟩ :: after ∧
    ⟨.batchExecute (lockText (qualified schema name)), true⟩ ∈ before ∧
    DmlPact.Row.get row 1 = some schema ∧ DmlPact.Row.get row 2 = some name

section Moments

variable {sv : Server} {ι : Type} [DecidableEq ι] {others : sv.Others ι}
  {α : ι → Type} {P : (i : ι) → Prog Cmd Reply (α i)} {w : sv.World ι}
  {s : Configuration Cmd Reply (sv.World ι) α} {i : ι} {txn : sv.Transaction} {h h' : History}

/-- An answer that session `i` got inside its transaction `txn`, which is still
open and ordered. -/
structure Inside (others : sv.Others ι) (P : (i : ι) → Prog Cmd Reply (α i)) (w : sv.World ι)
    (i : ι) (txn : sv.Transaction) (s : Configuration Cmd Reply (sv.World ι) α) (h : History)
    (e : Event Cmd Reply) (txn₁ : sv.Transaction) (s₁ s₂ : Configuration Cmd Reply (sv.World ι) α) :
    Prop where
  before : Reachable (sv.semantics others) P w s₁
  answered : Answered (sv.semantics others) i h e s₁ s₂
  after : Reachable (sv.semantics others) P w s₂
  steps : Steps (sv.semantics others) s₂ s
  active : s₁.world.session i = .active txn₁
  extends_ : txn₁.Extends txn
  holds : HoldsOn i s₁.world s.world
  later : ∃ txn₂, s₂.world.session i = .active txn₂ ∧ txn₂.Extends txn ∧ HoldsOn i s₂.world s.world

theorem inside (hs : Reachable (sv.semantics others) P w s)
    (hactive : s.world.session i = .active txn) (hordered : txn.ordered = true)
    {e : Event Cmd Reply} (hh : (s.procs i).history = h ++ e :: h')
    (hopen : ∀ w w' : sv.World ι, sv.Answers i w e.cmd e.reply w' →
      ∃ txn, w.session i = .active txn) :
    ∃ txn₁ s₁ s₂, Inside others P w i txn s h e txn₁ s₁ s₂ := by
  obtain ⟨s₁, s₂, hs₁, hanswered, hs₂, hsteps⟩ := hs.moment hh
  obtain ⟨txn₁, hactive₁⟩ := hopen s₁.world s₂.world hanswered.answers
  have hbegun : s₁.world.session i ≠ .idle := by
    rw [hactive₁]
    exact nofun
  have hkeeps := Keeps.move (Moves.of_answer hanswered.answers)
  have hbegun₂ : s₂.world.session i ≠ .idle := fun hidle => hbegun (hkeeps.idle hidle)
  have hkeeps₂ := Keeps.run hs₂ hsteps i
  obtain ⟨txn', hactive', hextends, hholds⟩ :=
    ((hkeeps.trans hkeeps₂).active txn hactive hordered).resolve_left hbegun
  obtain rfl : txn₁ = txn' := Session.active.inj (hactive₁.symm.trans hactive')
  exact ⟨txn₁, s₁, s₂, hs₁, hanswered, hs₂, hsteps, hactive₁, hextends, hholds,
    (hkeeps₂.active txn hactive hordered).resolve_left hbegun₂⟩

/-- **The lock.**  Its table is where it was, and held. -/
theorem locked_moment (hs : Reachable (sv.semantics others) P w s)
    (hactive : s.world.session i = .active txn) (hordered : txn.ordered = true)
    {schema name : String}
    (hlock : ⟨.batchExecute (lockText (qualified schema name)), true⟩ ∈ (s.procs i).history) :
    ∃ t, s.world.tables schema name = some t ∧ s.world.holder t = some i := by
  obtain ⟨h, h', hh⟩ := List.append_of_mem hlock
  obtain ⟨txn₁, s₁, s₂, hin⟩ := inside hs hactive hordered hh fun w w' hanswer =>
    (answers_batch hanswer).imp fun _ => And.left
  obtain ⟨txn', -, hbatch⟩ := answers_batch hin.answered.answers
  obtain ⟨t, htable, hlocked⟩ := batches_lock hbatch
  have hheld : s₂.world.holder t = some i := by
    rw [hlocked]
    exact World.lock_holder_self
  obtain ⟨-, -, -, hholds⟩ := hin.later
  obtain ⟨hheld', htables⟩ := hholds t hheld
  refine ⟨t, (htables schema name).mpr ?_, hheld'⟩
  rw [hlocked]
  exact htable

/-- **The lookup.**  What it has found, behind the lock on it, is what the name
stands for. -/
theorem stands_moment (hfresh : w.Fresh)
    (hputs : ∀ w schema name, others.puts w schema name → LeavesNames w schema name)
    (hs : Reachable (sv.semantics others) P w s) (hactive : s.world.session i = .active txn)
    (hordered : txn.ordered = true) (hfirst : txn.change = none) {requested schema name : String}
    (hlocated : Located (s.procs i).history requested schema name) :
    ∃ t, s.world.tables schema name = some t ∧ Stands i requested t s.world := by
  obtain ⟨before, row, after, hh, hlock, hschema, hname⟩ := hlocated
  obtain ⟨txn₁, s₁, s₂, hin⟩ := inside hs hactive hordered hh fun w w' hanswer =>
    (answers_query hanswer).imp fun _ => And.left
  obtain ⟨txn', hactive', hquery⟩ := answers_query hin.answered.answers
  obtain rfl : txn₁ = txn' := Session.active.inj (hin.active.symm.trans hactive')
  obtain ⟨sc, n, t, schema', name', hresolve, hshown, hschema', hname', hfound⟩ :=
    queries_lookup hquery
  obtain rfl : schema' = schema := Option.some.inj (hschema'.symm.trans hschema)
  obtain rfl : name' = name := Option.some.inj (hname'.symm.trans hname)
  obtain ⟨t', htable, hheld⟩ := locked_moment hin.before hin.active hin.extends_.ordered
    (hin.answered.history ▸ hlock)
  -- the view shows the locked table where it is
  have hshows := (Sound.reachable hfresh hin.before).view_shows hin.active hin.extends_.ordered hheld
  obtain rfl : t = t' := Option.some.inj (hshown.symm.trans ((hshows.2 _ _).mpr htable))
  have hstands : Stands i requested t s₂.world := by
    rw [hfound]
    exact ⟨.inr ⟨rfl, rfl, rfl⟩, hheld, sc, n, hresolve⟩
  have hbegun : s₂.world.session i ≠ .idle := by
    obtain ⟨txn₂, hactive₂, -⟩ := hin.later
    rw [hactive₂]
    exact nofun
  exact ⟨t, ((hin.holds t hheld).2 _ _).mpr htable,
    hstands.run hputs hin.after hin.steps hbegun hactive hordered hfirst⟩

/-- **The target query.**  It has returned the rows that the table still has. -/
theorem target_moment (hfresh : w.Fresh)
    (hputs : ∀ w schema name, others.puts w schema name → LeavesNames w schema name)
    (hs : Reachable (sv.semantics others) P w s) (hactive : s.world.session i = .active txn)
    (hordered : txn.ordered = true) (hfirst : txn.change = none)
    {q requested schema name : String} {selected : sv.Row → Bool} {rows : List DmlPact.Row}
    (hq : sv.query q = some (requested, selected)) (hquiet : sv.functions.Quiet q)
    (hh : (s.procs i).history = h ++ ⟨.query q [], ⟨rows, true⟩⟩ :: h')
    (hlocated : Located h requested schema name) :
    ∃ t, s.world.tables schema name = some t ∧ s.world.holder t = some i ∧
      rows = textRows (sv.texts (matching selected (s.world.contents t))) ∧
      s.world.read i q (matching selected (s.world.contents t)) := by
  obtain ⟨txn₁, s₁, s₂, hin⟩ := inside hs hactive hordered hh fun w w' hanswer =>
    (answers_query hanswer).imp fun _ => And.left
  obtain ⟨txn', hactive', hquery⟩ := answers_query hin.answered.answers
  obtain rfl : txn₁ = txn' := Session.active.inj (hin.active.symm.trans hactive')
  obtain ⟨sc, n, t, hresolve, hrows, hread⟩ := queries_target hq hquiet hquery
  have hfirst₁ : txn₁.change = none := hin.extends_.change_none hfirst
  obtain ⟨t', htable, hstands⟩ := stands_moment hfresh hputs hin.before hin.active
    hin.extends_.ordered hfirst₁ (hin.answered.history ▸ hlocated)
  obtain ⟨sc', n', hresolve'⟩ := hstands.resolves
  obtain rfl : t = t' := by
    rw [hresolve, Option.some.injEq, Prod.mk.injEq, Prod.mk.injEq] at hresolve'
    exact hresolve'.2.2
  obtain ⟨hheld, htables⟩ := hin.holds t hstands.holder
  -- the snapshot that was read is the one of the transaction, and it is current
  have hsnapshot : txn.snapshot = some (s₁.world.view txn₁) := by
    obtain ⟨txn₂, hactive₂, hextends, -⟩ := hin.later
    refine hextends.snapshot _ ?_
    have hsession := queries_session (fun _ hstray => hstray hquiet) hquery
    rw [hactive₂] at hsession
    rw [Session.active.inj hsession]
  have hcurrent := (Sound.reachable hfresh hs).current i txn _ t hactive hordered hsnapshot hheld
  refine ⟨t, (htables _ _).mpr htable, hheld, by rw [hrows, hcurrent.1], ?_⟩
  rw [← hcurrent.1]
  refine read_run hin.after hin.steps ?_
  rw [hread]
  exact .inr ⟨rfl, rfl, rfl⟩

/-- **The statement.**  It has changed the table that is locked, as it still is. -/
theorem execute_moment (hfresh : w.Fresh)
    (hputs : ∀ w schema name, others.puts w schema name → LeavesNames w schema name)
    (hs : Reachable (sv.semantics others) P w s) (hactive : s.world.session i = .active txn)
    (hordered : txn.ordered = true) {sql requested schema name : String}
    {action : Action sv.Row} {count : UInt64}
    (hsql : sv.statement sql = some (requested, action))
    (hh : (s.procs i).history = h ++ ⟨.execute sql, .ok count⟩ :: h')
    (hlocated : Located h requested schema name) :
    ∃ t, s.world.tables schema name = some t ∧ s.world.holder t = some i ∧
      txn.change = some ⟨sql, t, action.removed (s.world.contents t),
        action.added (s.world.contents t)⟩ ∧
      count.toNat = action.affected (s.world.contents t) ∧
      ∃ txn₁ s₁, Reachable (sv.semantics others) P w s₁ ∧ Steps (sv.semantics others) s₁ s ∧
        (s₁.procs i).history = h ∧ s₁.world.session i = .active txn₁ ∧ txn₁.ordered = true ∧ txn₁.change = none ∧
        s₁.world.tables schema name = some t ∧ s₁.world.contents t = s.world.contents t := by
  obtain ⟨txn₁, s₁, s₂, hin⟩ := inside hs hactive hordered hh fun w w' hanswer =>
    (answers_execute hanswer).imp fun _ => And.left
  obtain ⟨txn', hactive', hexecute⟩ := answers_execute hin.answered.answers
  obtain rfl : txn₁ = txn' := Session.active.inj (hin.active.symm.trans hactive')
  obtain ⟨hfirst, sc, n, t, hresolve, hcount, hchanged⟩ := executes_change hsql hexecute
  obtain ⟨t', htable, hstands⟩ := stands_moment hfresh hputs hin.before hin.active
    hin.extends_.ordered hfirst (hin.answered.history ▸ hlocated)
  obtain ⟨sc', n', hresolve'⟩ := hstands.resolves
  obtain rfl : t = t' := by
    rw [hresolve, Option.some.injEq, Prod.mk.injEq, Prod.mk.injEq] at hresolve'
    exact hresolve'.2.2
  -- the lock keeps the table and its name where they were
  obtain ⟨hheld, htables⟩ := hin.holds t hstands.holder
  obtain ⟨txn₂, hactive₂, hextends, -⟩ := hin.later
  rw [hchanged] at hactive₂
  obtain rfl := Session.active.inj (World.alter_session_self.symm.trans hactive₂)
  have hsnapshot := hextends.snapshot (s₁.world.view txn₁) rfl
  have hchange := hextends.change _ rfl
  have hcurrent := (Sound.reachable hfresh hs).current i txn _ t hactive hordered hsnapshot hheld
  have hshows := (Sound.reachable hfresh hin.before).view_shows hin.active hin.extends_.ordered
    hstands.holder
  have hsame : s₁.world.contents t = s.world.contents t := hshows.1.symm.trans hcurrent.1
  rw [hcurrent.1] at hchange hcount
  exact ⟨t, (htables _ _).mpr htable, hheld, hchange, hcount, txn₁, s₁, hin.before,
    .head ⟨_, hin.answered.step⟩ hin.steps, hin.answered.history, hin.active, hin.extends_.ordered, hfirst, htable, hsame⟩

end Moments

end Server

/-! ### The run of an approval -/

/-- The names in the evidence are those in the row that was looked up. -/
theorem EvidenceAnswers.names {answers : EvidenceAnswers} {oid : Int64} {evidence : TableEvidence}
    (h : answers.decode oid = some evidence) :
    answers.lookup.get 1 = some evidence.schema ∧ answers.lookup.get 2 = some evidence.table := by
  obtain ⟨_, -, h⟩ := Option.bind_eq_some_iff.mp h
  obtain ⟨_, -, h⟩ := Option.bind_eq_some_iff.mp h
  obtain ⟨_, -, h⟩ := Option.bind_eq_some_iff.mp h
  obtain ⟨_, -, h⟩ := Option.bind_eq_some_iff.mp h
  obtain ⟨_, -, h⟩ := Option.bind_eq_some_iff.mp h
  obtain ⟨_, -, h⟩ := Option.bind_eq_some_iff.mp h
  obtain ⟨_, -, h⟩ := Option.bind_eq_some_iff.mp h
  obtain ⟨_, -, h⟩ := Option.bind_eq_some_iff.mp h
  obtain ⟨schema, hschema, h⟩ := Option.bind_eq_some_iff.mp h
  obtain ⟨table, htable, h⟩ := Option.bind_eq_some_iff.mp h
  obtain ⟨_, -, h⟩ := Option.bind_eq_some_iff.mp h
  obtain ⟨_, -, h⟩ := Option.bind_eq_some_iff.mp h
  obtain ⟨_, -, h⟩ := Option.bind_eq_some_iff.mp h
  obtain ⟨_, -, h⟩ := Option.bind_eq_some_iff.mp h
  obtain rfl := Option.some.inj h
  exact ⟨hschema, htable⟩

namespace Approval

variable {X : Crates} {options : ApplyOptions} (a : Approval X options)

theorem located_lookup (t : History) : Server.Located (a.admissionHistory ++ a.receiptHistory ++
      a.connectionHistory ++ sessionHistory a.plan ++ (⟨.query identitySql [], ⟨[a.identityRow], true⟩⟩ ::
        (a.evidenceAnswers.history a.analyzed.requestedTable a.oid ++ t)))
    a.analyzed.requestedTable a.observed.evidence.schema a.observed.evidence.table := by
  obtain ⟨hschema, htable⟩ := EvidenceAnswers.names a.evidence_decoded
  obtain ⟨rest, hrest⟩ : ∃ rest, a.evidenceAnswers.history a.analyzed.requestedTable a.oid =
      ⟨.query tableLookupSql [.text a.analyzed.requestedTable],
        ⟨[a.evidenceAnswers.lookup], true⟩⟩ :: rest := ⟨_, rfl⟩
  refine ⟨a.admissionHistory ++ a.receiptHistory ++ a.connectionHistory ++ sessionHistory a.plan ++
    [⟨.query identitySql [], ⟨[a.identityRow], true⟩⟩], a.evidenceAnswers.lookup, rest ++ t, ?_, ?_,
    hschema, htable⟩
  · rw [hrest, List.append_assoc _ [_], List.cons_append, List.singleton_append]
  · rw [← a.canonical]
    simp [sessionHistory]

theorem located : Server.Located a.history a.analyzed.requestedTable a.observed.evidence.schema
    a.observed.evidence.table := by
  rw [a.history_parts]
  exact a.located_lookup _

/-- The target query is what the run has sent last. -/
theorem targeted {q : String} (hq : a.analyzed.targetRowsSql = some q) :
    ∃ h rows texts, a.history = h ++ [⟨.query q [], ⟨rows, true⟩⟩] ∧
      Server.Located h a.analyzed.requestedTable a.observed.evidence.schema
        a.observed.evidence.table ∧
      rowTexts rows = some texts ∧ (rowEvidence texts).length ≤ maxTargetEvidenceBytes ∧
      a.plan.preconditions.targetSetSha256 = sha256Bytes X (rowEvidence texts) := by
  rcases (targetSetSha256_ok X).mp a.fingerprinted with ⟨hnone, -⟩ |
    ⟨q', rows, texts, hq', htexts, hfits, -, hhash, htarget⟩
  · rw [hq] at hnone
    cases hnone
  · obtain rfl := Option.some.inj (hq.symm.trans hq')
    refine ⟨_, rows, texts, ?_, a.located_lookup a.countHistory, htexts, hfits,
      a.agrees.targetSet.symm.trans hhash⟩
    rw [a.history_parts, driftHistory, htarget]
    simp only [List.append_assoc, List.cons_append]

end Approval

/-! ### Jobs -/

/-- What a session is opened for. -/
inductive Job
  | plan (options : PlanOptions)
  | apply (options : ApplyOptions)

/-- What it returns. -/
@[reducible] def Job.Answer : Job → Type
  | plan _ => Except AppError Plan
  | apply _ => Except AppError ApplyResult

def Job.run (X : Crates) : (job : Job) → Prog Cmd Reply job.Answer
  | plan options => (createPlan X options).run
  | apply options => (applyPlan X options).run

theorem Job.reaches_apply {X : Crates} {job : Job} {options : ApplyOptions}
    (hjob : job = .apply options) {h : History} {q : Prog Cmd Reply job.Answer}
    (hr : Reaches (job.run X) h q) : ∃ q', Reaches (applyPlan X options).run h q' := by
  subst hjob
  exact ⟨q, hr⟩

/-- A program that sends COMMIT only when it has executed the statement of an
approval, which has changed as many rows as the plan tells. -/
def Approves (X : Crates) (options : ApplyOptions) {α : Type} (p : Prog Cmd Reply α) : Prop :=
  ∀ h k, Reaches p h (.call .commit k) → ∃ a : Approval X options, h = a.history ++
    [⟨.execute a.analyzed.normalized, .ok a.plan.preconditions.targetCount⟩]

theorem applyPlan_approves (X : Crates) (options : ApplyOptions) :
    Approves X options (applyPlan X options).run :=
  fun h k hr => (applyPlan_guarded X options h).2.mp ⟨k, hr⟩

theorem Job.approves {X : Crates} {job : Job} {options : ApplyOptions}
    (hjob : job = .apply options) : Approves X options (job.run X) := by
  subst hjob
  exact applyPlan_approves X options

namespace Server

variable {X : Crates} {sv : Server} {ι : Type} [DecidableEq ι]

/-- What the commit of an approved statement has changed: the table that the
approval is about, from the state that was compared with the plan. -/
structure Changed {options : ApplyOptions} (a : Approval X options) (c : sv.Commit ι) : Prop where
  table : c.tables a.observed.evidence.schema a.observed.evidence.table = some c.change.table
  held : c.holder c.change.table = some c.session
  action : ∃ action, sv.statement a.analyzed.normalized = some (a.analyzed.requestedTable, action) ∧
    c.change = ⟨a.analyzed.normalized, c.change.table, action.removed (c.before c.change.table),
      action.added (c.before c.change.table)⟩ ∧
    a.plan.preconditions.targetCount.toNat = action.affected (c.before c.change.table)
  rest : ∃ rest, c.before c.change.table = c.change.removed + rest ∧
    c.after = Function.update c.before c.change.table (rest + c.change.added)
  target : ∀ {q selected}, a.analyzed.targetRowsSql = some q →
    sv.query q = some (a.analyzed.requestedTable, selected) →
    (rowEvidence (sv.texts (matching selected (c.before c.change.table)))).length ≤
      maxTargetEvidenceBytes ∧
    a.plan.preconditions.targetSetSha256 =
      sha256Bytes X (rowEvidence (sv.texts (matching selected (c.before c.change.table))))

/-- **Commits.**  Behind every commit of a program that sends COMMIT for an
approval there is one, of whose table it has changed the state that was compared
with the plan, if the server takes its statement for one on that table. -/
theorem changed_of_approved {α : ι → Type} {P : (i : ι) → Prog Cmd Reply (α i)}
    {others : sv.Others ι} {w : sv.World ι} {s : Configuration Cmd Reply (sv.World ι) α}
    (hfresh : w.Fresh)
    (hputs : ∀ w schema name, others.puts w schema name → LeavesNames w schema name)
    (hs : Reachable (sv.semantics others) P w s) {c : sv.Commit ι} (hc : c ∈ s.world.log)
    {options : ApplyOptions} (happroves : Approves X options (P c.session))
    (htargets : ∀ plan analyzed, Admitted X options (s.procs c.session).history plan analyzed →
      sv.Targets analyzed) :
    ∃ a : Approval X options, a.history <+: (s.procs c.session).history ∧ Changed a c ∧
      ∀ {q selected}, a.analyzed.targetRowsSql = some q →
        sv.query q = some (a.analyzed.requestedTable, selected) →
        s.world.read c.session q (matching selected (c.before c.change.table)) := by
  obtain ⟨s₁, s₂, hs₁, hcommit, hsteps⟩ := log_moment hfresh hs c hc
  obtain ⟨k, hwaiting⟩ := hcommit.waiting
  have hreaches := hs₁.reaches c.session
  rw [hwaiting] at hreaches
  obtain ⟨a, hhistory⟩ := happroves _ _ hreaches
  have ha : a.history <+: (s.procs c.session).history := by
    refine List.IsPrefix.trans ?_ (hsteps.prefix_history c.session)
    rw [hhistory]
    exact List.prefix_append _ _
  obtain ⟨txn, hactive, hchange⟩ := hcommit.active
  have hreads : sv.Targets a.analyzed := htargets _ _ (a.admitted.mono ha)
  have horderly : sv.Orderly (s₁.procs c.session).history := by
    rw [hhistory]
    exact a.orderly_executed hreads _
  have hordered := (Ordered.reachable hfresh hs₁ c.session horderly txn hactive).1
  obtain ⟨action, hstatement⟩ := hreads.statement
  obtain ⟨t, htable, hheld, hchange', hcount, txn₀, s₀, hs₀, hsteps₀, hhistory₀, hactive₀, hordered₀,
    hfirst₀, htable₀, hsame⟩ := execute_moment hfresh hputs hs₁ hactive hordered hstatement hhistory
      a.located
  have hch : c.change = ⟨a.analyzed.normalized, t, action.removed (c.before t),
      action.added (c.before t)⟩ := by
    rw [hcommit.before]
    exact Option.some.inj (hchange.symm.trans hchange')
  have ht : c.change.table = t := by rw [hch]
  -- the target query was answered before the statement was executed
  have htarget : ∀ {q selected}, a.analyzed.targetRowsSql = some q →
      sv.query q = some (a.analyzed.requestedTable, selected) →
      ((rowEvidence (sv.texts (matching selected (c.before t)))).length ≤ maxTargetEvidenceBytes ∧
        a.plan.preconditions.targetSetSha256 =
          sha256Bytes X (rowEvidence (sv.texts (matching selected (c.before t))))) ∧
      s₁.world.read c.session q (matching selected (c.before t)) := by
    intro q selected hq hquery
    obtain ⟨h, rows, texts, htargeted, hlocated, htexts, hfits, hhash⟩ := a.targeted hq
    obtain ⟨t', htable', -, hrows, hread⟩ := target_moment hfresh hputs hs₀ hactive₀ hordered₀
      hfirst₀ hquery (hreads.quiet q (.inr hq)) (hhistory₀.trans htargeted) hlocated
    obtain rfl : t = t' := Option.some.inj (htable₀.symm.trans htable')
    rw [hrows, rowTexts_textRows, hsame] at htexts
    rw [hsame] at hread
    rw [hcommit.before, Option.some.inj htexts]
    exact ⟨⟨hfits, hhash⟩, read_run hs₀ hsteps₀ hread⟩
  obtain ⟨rest, hrest, hafter⟩ := hcommit.rest
  refine ⟨a, ha, ⟨?_, ?_, ⟨action, hstatement, ?_, ?_⟩, ⟨rest, ?_, ?_⟩, fun hq hquery => ?_⟩,
    fun hq hquery => ?_⟩
  · rw [hcommit.tables, ht, htable]
  · rw [hcommit.holder, ht, hheld]
  · rw [ht]
    exact hch
  · rw [hcommit.before, ht]
    exact hcount
  · rw [hcommit.before, hrest]
  · rw [hafter, hcommit.before]
  · rw [ht]
    exact (htarget hq hquery).1
  · rw [ht]
    exact read_run hs₁ hsteps (htarget hq hquery).2

/-- Behind every commit of an apply run there is an approval. -/
theorem changed_of_commit {jobs : ι → Job} {others : sv.Others ι} {w : sv.World ι}
    {s : Configuration Cmd Reply (sv.World ι) fun i => (jobs i).Answer} (hfresh : w.Fresh)
    (hputs : ∀ w schema name, others.puts w schema name → LeavesNames w schema name)
    (hs : Reachable (sv.semantics others) (fun i => (jobs i).run X) w s) {c : sv.Commit ι}
    (hc : c ∈ s.world.log) {options : ApplyOptions} (hjob : jobs c.session = .apply options)
    (htargets : ∀ plan analyzed, Admitted X options (s.procs c.session).history plan analyzed →
      sv.Targets analyzed) :
    ∃ a : Approval X options, a.history <+: (s.procs c.session).history ∧ Changed a c ∧
      ∀ {q selected}, a.analyzed.targetRowsSql = some q →
        sv.query q = some (a.analyzed.requestedTable, selected) →
        s.world.read c.session q (matching selected (c.before c.change.table)) :=
  changed_of_approved hfresh hputs hs hc (Job.approves hjob) htargets

end Server

end DmlPact
