/-
DmlPact/Process/Waiting.lean

Who waits for whom.  Inside a transaction, a command may have to wait for the end
of another one:

    LOCK TABLE     for the session that holds the table, and for those that
                   write it
    a statement    for the session that holds its table, and for those that have
                   changed a table which a foreign key links to it: its checks
                   lock rows
    COMMIT         for the latter, where its checks are deferred

An apply locks one table and then writes no other.  So while no foreign key links
the tables of two processes, only a lock ever waits, and it waits for a process
that waits for nobody and can go on to the end of its transaction (`main_waits`):
the processes never wait in a circle.
-/
import DmlPact.Process.Database

namespace DmlPact

open Effect RowChange

/-! ### Waiting -/

namespace Server

variable {sv : Server} {ι : Type}

/-- In its transaction, session `i` gets no good answer to `c` before session `j`
has ended its own. -/
inductive Waits (w : sv.World ι) (i j : ι) : Cmd → Prop
  | lock {txn schema name t} (active : w.session i = .active txn) (other : j ≠ i)
      (table : w.tables schema name = some t) (held : w.holder t = some j ∨ w.writers t j) :
      Waits w i j (.batchExecute (lockText (qualified schema name)))
  | statement {txn sql requested action s n t} (active : w.session i = .active txn) (other : j ≠ i)
      (statement : sv.statement sql = some (requested, action))
      (found : sv.resolve w.tables requested = some (s, n, t)) (held : w.holder t = some j) :
      Waits w i j (.execute sql)
  | reference {txn sql requested action s n t t'} (active : w.session i = .active txn)
      (other : j ≠ i) (statement : sv.statement sql = some (requested, action))
      (found : sv.resolve w.tables requested = some (s, n, t)) (linked : sv.linked t t')
      (changed : w.writers t' j) : Waits w i j (.execute sql)
  | deferred {txn ch t'} (active : w.session i = .active txn) (other : j ≠ i)
      (change : txn.change = some ch) (linked : sv.linked ch.table t')
      (changed : w.writers t' j) : Waits w i j .commit

/-- No foreign key links a table that one session holds to one that another
session has changed. -/
def Unlinked (w : sv.World ι) : Prop :=
  ∀ i j t t', i ≠ j → w.holder t = some i → w.writers t' j → ¬ sv.linked t t'

variable [DecidableEq ι] {w w' : sv.World ι} {i j : ι} {c : Cmd} {txn : sv.Transaction}

/-- A lock on a table that is there is granted if, and only if, it has to wait
for nobody. -/
theorem lock_granted_iff (hactive : w.session i = .active txn) {schema name : String} {t : sv.Table}
    (htable : w.tables schema name = some t) :
    (∃ w', sv.Answers i w (.batchExecute (lockText (qualified schema name))) true w') ↔
      ∀ j, ¬ Waits w i j (.batchExecute (lockText (qualified schema name))) := by
  constructor
  · rintro ⟨w', hanswer⟩ j hwaits
    obtain ⟨txn', -, hbatch⟩ := answers_batch hanswer
    generalize hsql : lockText (qualified schema name) = sql at hbatch hwaits
    cases hwaits with
    | @lock _ schema' name' t' active other table held =>
        obtain ⟨rfl, rfl⟩ := qualified_inj (lockText_inj hsql)
        cases hbatch with
        | @lock schema'' name'' t'' hsql'' htable'' hholder hwriters =>
            obtain ⟨rfl, rfl⟩ := qualified_inj (lockText_inj hsql'')
            obtain rfl : t' = t'' := Option.some.inj (table.symm.trans htable'')
            rcases held with held | held
            · exact other (hholder j held)
            · exact other (hwriters j held)
        | settings hsettings => exact absurd hsettings.symm (timeoutSettings_ne_lockText _ _)
        | stray hstray => exact absurd (.inl ⟨schema, name, rfl⟩) hstray
  · intro hfree
    have hbatch : sv.Batches w i txn (lockText (qualified schema name)) (w.lock i txn t) := by
      refine .lock rfl htable (fun j hj => ?_) fun j hj => ?_
      · by_contra hji
        exact hfree j (.lock hactive hji htable (.inl hj))
      · by_contra hji
        exact hfree j (.lock hactive hji htable (.inr hj))
    exact ⟨_, .inl ⟨rfl, txn, hactive, hbatch⟩⟩

/-! ### What locks are held for -/

/-- The locks of a session are those of its transaction, and it has asked for
them. -/
structure Locking (i : ι) (h : History) (w : sv.World ι) : Prop where
  active : ∀ t, w.holder t = some i ∨ w.writers t i → ∃ txn, w.session i = .active txn
  held : ∀ t, w.holder t = some i →
    ∃ schema name, ⟨.batchExecute (lockText (qualified schema name)), true⟩ ∈ h
  written : ∀ t, w.writers t i → ∃ sql n, ⟨.execute sql, .ok n⟩ ∈ h

namespace Locking

variable {h : History}

omit [DecidableEq ι] in
/-- Nothing is asked of a session without locks. -/
theorem of_free (hholder : ∀ t, w.holder t ≠ some i) (hwriters : ∀ t, ¬ w.writers t i) :
    Locking i h w where
  active t hheld := (hheld.elim (hholder t) (hwriters t)).elim
  held t hheld := absurd hheld (hholder t)
  written t hwrites := absurd hwrites (hwriters t)

theorem finish (i : ι) : Locking i h (w.finish i) :=
  of_free (fun _ hheld => (World.finish_holder.mp hheld).2 rfl) fun _ hwrites => hwrites.2 rfl

omit [DecidableEq ι] in
/-- The locks are what they were, in a transaction that goes on. -/
theorem same (hl : Locking i h w) (hholder : ∀ t, w'.holder t = some i → w.holder t = some i)
    (hwriters : ∀ t, w'.writers t i → w.writers t i)
    (hsession : (∃ txn, w.session i = .active txn) → ∃ txn, w'.session i = .active txn)
    {h' : History} (hh : h <+: h') : Locking i h' w' where
  active t hheld := hsession (hl.active t (hheld.imp (hholder t) (hwriters t)))
  held t hheld := by
    obtain ⟨schema, name, he⟩ := hl.held t (hholder t hheld)
    exact ⟨schema, name, hh.subset he⟩
  written t hwrites := by
    obtain ⟨sql, n, he⟩ := hl.written t (hwriters t hwrites)
    exact ⟨sql, n, hh.subset he⟩

end Locking

/-- The own answers. -/
theorem Locking.answer {h : History} {r : Reply c} (hl : Locking i h w)
    (hplain : ¬ sv.Stray c) (hanswer : sv.Answers i w c r w') :
    Locking i (h ++ [⟨c, r⟩]) w' := by
  have hpast : h <+: h ++ [⟨c, r⟩] := List.prefix_append _ _
  cases c
  case start isolation readOnly =>
    rcases hanswer with ⟨-, hidle, rfl⟩ | ⟨-, rfl⟩
    · refine hl.same ?_ ?_ (fun _ => ⟨_, World.begin_session_self⟩) hpast
      · exact fun _ => id
      · exact fun _ => id
    · exact hl.same (fun _ => id) (fun _ => id) id hpast
  case batchExecute sql =>
    rcases hanswer with ⟨rfl, txn, hactive, hbatch⟩ | ⟨-, rfl⟩
    · cases hbatch with
      | @lock schema name t hsql htable hholder hwriters =>
          have hmine : (w.lock i txn t).session i = .active _ := World.lock_session_self
          refine ⟨fun _ _ => ⟨_, hmine⟩, fun t' ht' => ?_, fun t' ht' => ?_⟩
          · exact ⟨schema, name, by simp [hsql]⟩
          · obtain ⟨sql', n, he⟩ := hl.written t' ht'
            exact ⟨sql', n, hpast.subset he⟩
      | settings => exact hl.same (fun _ => id) (fun _ => id) id hpast
      | stray hstray => exact absurd hstray hplain
    · exact .finish i
  case query sql params =>
    rcases hanswer with ⟨-, txn, hactive, hquery⟩ | ⟨-, rfl⟩
    · obtain ⟨hholder, hwriters⟩ := queries_locks (fun _ => hplain) hquery
      exact hl.same (fun t ht => by rwa [hholder] at ht) (fun t ht => by rwa [hwriters] at ht)
        (fun _ => ⟨_, queries_session (fun _ => hplain) hquery⟩) hpast
    · exact .finish i
  case execute sql =>
    rcases hanswer with ⟨n, txn, rfl, hactive, hexecute⟩ | ⟨-, rfl⟩
    · cases hexecute with
      | mk =>
          refine ⟨fun _ _ => ⟨_, World.alter_session_self⟩, fun t ht => ?_, fun _ _ => ?_⟩
          · obtain ⟨schema, name, he⟩ := hl.held t ht
            exact ⟨schema, name, hpast.subset he⟩
          · exact ⟨sql, n, by simp⟩
      | stray _ hstray => exact absurd hstray hplain
    · exact .finish i
  case commit =>
    rcases hanswer with ⟨txn, -, hcommit⟩ | ⟨-, rfl⟩
    · cases hcommit <;> exact .finish i
    · exact .finish i
  case rollback =>
    obtain rfl : w' = _ := hanswer
    exact .finish i
  all_goals
    obtain rfl : w' = w := hanswer
    exact hl.same (fun _ => id) (fun _ => id) id hpast

variable {α : ι → Type} {P : (i : ι) → Prog Cmd Reply (α i)} {others : sv.Others ι}

/-- **Locks** are held by sessions that have asked for them. -/
theorem Locking.reachable (hfresh : w.Fresh) {s : Configuration Cmd Reply (sv.World ι) α}
    (hs : Reachable (sv.semantics others) P w s) (i : ι) (hstraight : sv.Straight (s.procs i).history) :
    Locking i (s.procs i).history s.world := by
  have hstart : sv.Straight ((start P w).procs i).history →
      Locking i ((start P w).procs i).history (start P w).world := fun _ =>
    .of_free (fun t ht => absurd ((hfresh.holder t).symm.trans ht) nofun) fun t => hfresh.writers t i
  refine @Reachable.invariant _ _ _ _ _ _ _ _ _
    (fun s => sv.Straight (s.procs i).history → Locking i (s.procs i).history s.world) hstart
    (fun s s' who _ hl hstep hstraight => ?_) hs hstraight
  have hbefore := hl (hstraight.mono (hstep.prefix_history i))
  cases hstep with
  | @answer _ j c r k waiting hanswer hmoved hothers =>
      by_cases hij : i = j
      · subst hij
        rw [hmoved] at hstraight ⊢
        exact hbefore.answer hstraight.last hanswer
      · have hmove := Moves.of_answer hanswer
        obtain ⟨hholder, hwriters⟩ := hmove.locks hij
        rw [hothers i hij]
        refine hbefore.same hholder hwriters (fun hactive => ?_) List.prefix_rfl
        rwa [(Apart.move hij hmove).session]
  | progress waiting hprogress => exact absurd hprogress id
  | drift hdrift hprocs =>
      rw [hprocs]
      generalize s'.world = w' at hdrift ⊢
      cases hdrift with
      | rows | put =>
          refine hbefore.same ?_ ?_ ?_ List.prefix_rfl
          · exact fun _ => id
          · exact fun _ => id
          · exact id
      | ends j =>
          by_cases hij : i = j
          · subst hij
            exact .finish i
          · refine hbefore.same (fun _ ht => (World.finish_holder.mp ht).1) (fun _ ht => ht.1)
              (fun hactive => ?_) List.prefix_rfl
            rwa [World.finish_session_ne hij]

end Server

/-! ### One lock for each process -/

/-- The conversation has come past its lock. -/
def Session.pastLock : Session → Bool
  | .unconnected | .connected | .begun | .configured => false
  | .locked | .executed _ | .committed | .over => true

variable {X : Crates}

/-- Behind the lock there is no other. -/
theorem Session.pastLock_step {use : Use} {s s' : Session} {c : Cmd} {r : Reply c}
    (hs : s.pastLock) (hstep : Session.step X use s c r = some s') :
    s'.pastLock ∧ c.channel ≠ .batch := by
  obtain ⟨hbegun, hconfigured, hconnected, hunconnected⟩ : s ≠ .begun ∧ s ≠ .configured ∧
      s ≠ .connected ∧ s ≠ .unconnected := by
    refine ⟨?_, ?_, ?_, ?_⟩ <;> rintro rfl <;> cases hs
  cases c
  case connect => simp [Session.step, hunconnected] at hstep
  case start => simp [Session.step, hconnected] at hstep
  case batchExecute => simp [Session.step, hbegun, hconfigured] at hstep
  case query sql params =>
    simp only [Session.step] at hstep
    split_ifs at hstep <;> cases hstep
    · exact ⟨hs, by simp [Cmd.channel]⟩
    · exact ⟨rfl, by simp [Cmd.channel]⟩
  case execute sql =>
    simp only [Session.step] at hstep
    split_ifs at hstep
    cases hstep
    exact ⟨rfl, by simp [Cmd.channel]⟩
  case commit =>
    simp only [Session.step] at hstep
    split_ifs at hstep <;> cases hstep
    · exact ⟨rfl, by simp [Cmd.channel]⟩
    · exact ⟨rfl, by simp [Cmd.channel]⟩
  case rollback =>
    simp only [Session.step] at hstep
    split at hstep
    · cases hstep
      exact ⟨rfl, by simp [Cmd.channel]⟩
    · cases hstep
  all_goals
    cases hstep
    exact ⟨hs, by simp [Cmd.channel]⟩

theorem session_pastLock {use : Option Use} {s s' : Session} {h : History} (hs : s.pastLock)
    (hrun : (session X use).run s h = some s') : s'.pastLock ∧ ∀ e ∈ h, e.cmd.channel ≠ .batch := by
  induction h generalizing s with
  | nil =>
      cases hrun
      exact ⟨hs, by simp⟩
  | cons e h ih =>
      obtain ⟨s₁, hstep, hrest⟩ := Option.bind_eq_some_iff.mp hrun
      obtain ⟨hpast, hchannel⟩ : s₁.pastLock ∧ e.cmd.channel ≠ .batch := by
        rcases use with - | use
        · -- without a use of the database there are no batches at all
          simp only [session] at hstep
          split_ifs at hstep with hc
          cases hstep
          refine ⟨hs, fun hbatch => hc ?_⟩
          rw [hbatch]
          decide
        · exact Session.pastLock_step hs hstep
      obtain ⟨hpast', hall⟩ := ih hpast hrest
      refine ⟨hpast', fun e' he' => ?_⟩
      rcases List.mem_cons.mp he' with rfl | he'
      · exact hchannel
      · exact hall e' he'

/-- The lock, and the statement, are come past. -/
theorem session_locks {use : Option Use} {s s' : Session} {e : Event Cmd Reply}
    (he : (∃ table, e = ⟨.batchExecute (lockText table), true⟩) ∨ ∃ sql r, e = ⟨.execute sql, r⟩)
    (hstep : (session X use).step s e.cmd e.reply = some s') : s'.pastLock := by
  rcases use with - | use
  · rcases he with ⟨table, rfl⟩ | ⟨sql, r, rfl⟩ <;> simp [session, Cmd.channel] at hstep
  rcases he with ⟨table, rfl⟩ | ⟨sql, r, rfl⟩
  · -- the lock is no setting
    have hsettings : ¬ (s = .begun ∧ ∃ limits, lockText table = timeoutSettings limits) := by
      rintro ⟨-, limits, hsame⟩
      exact timeoutSettings_ne_lockText limits table hsame.symm
    simp only [session, Session.step, if_neg hsettings] at hstep
    split_ifs at hstep
    cases hstep
    rfl
  · simp only [session, Session.step] at hstep
    split_ifs at hstep
    cases hstep
    rfl

variable {invocation : Invocation} {h : History}

/-- A process that has locked a table, or has sent its statement, locks no other. -/
theorem batch_of_locked {sql : String} {k : Reply (.batchExecute sql) → Prog Cmd Reply UInt8}
    (hr : Reaches (main X invocation) h (.call (.batchExecute sql) k)) {e : Event Cmd Reply}
    (he : (∃ table, e = ⟨.batchExecute (lockText table), true⟩) ∨ ∃ sql r, e = ⟨.execute sql, r⟩) :
    e ∉ h := by
  intro hmem
  obtain ⟨before, after, rfl⟩ := List.append_of_mem hmem
  obtain ⟨s, hrun, -⟩ := (main_obeys invocation).reaches (hr.snoc true)
  rw [List.append_assoc, Discipline.run_append] at hrun
  obtain ⟨s₁, -, hlast⟩ := Option.bind_eq_some_iff.mp hrun
  obtain ⟨s₂, hstep, hrest⟩ := Option.bind_eq_some_iff.mp hlast
  obtain ⟨-, hall⟩ := session_pastLock (session_locks he hstep) hrest
  exact hall ⟨.batchExecute sql, true⟩ (by simp) rfl

/-- An apply process sends the name in its plan and what was generated from its
file, and nothing else that is not the program's own. -/
theorem straight_of_main {sv : Server} {options : ApplyOptions} {q : Prog Cmd Reply UInt8}
    (hr : Reaches (main X (.command (.apply options.sqlPath options.planPath options.receiptPath
      options.database))) h q)
    (hnames : ∀ plan analyzed, Admitted X options h plan analyzed →
      ∃ schema name, plan.preconditions.canonicalTable = qualified schema name)
    (htargets : ∀ plan analyzed, Admitted X options h plan analyzed → sv.Targets analyzed) :
    sv.Straight h := by
  rintro ⟨c, r⟩ he hstray
  obtain ⟨t, t', rfl⟩ := List.append_of_mem he
  obtain ⟨q', hbefore, hafter⟩ := hr.split
  obtain ⟨k, rfl, -⟩ := hafter.cons
  have hserver := sv.channel_of_stray hstray
  obtain ⟨k', happly⟩ := applyPlan_of_main (fun hc => by
    rw [hc] at hserver
    exact absurd hserver (by decide)) hbefore
  have hpast : t ++ [⟨c, r⟩] <+: t ++ ⟨c, r⟩ :: t' :=
    (List.prefix_append_right_inj t).mpr ⟨t', rfl⟩
  have hstraight := Server.straight_of_admitted (happly.snoc r)
    (fun plan analyzed ha => hnames plan analyzed (ha.mono hpast))
    fun plan analyzed ha => htargets plan analyzed (ha.mono hpast)
  exact hstraight ⟨c, r⟩ (by simp) hstray

/-! ### Nobody waits in a circle -/

section System

variable {sv : Server} {ι : Type} [DecidableEq ι] {others : sv.Others ι} {w : sv.World ι}
  {invocation : ι → Invocation} {s : Configuration Cmd Reply (sv.World ι) fun _ : ι => UInt8}
  {i j : ι}

/-- Process `j` waits for nobody.  Its statement can be executed, if the number
of its rows is one, and its COMMIT can take effect. -/
structure Unhindered (s : Configuration Cmd Reply (sv.World ι) fun _ : ι => UInt8) (j : ι) : Prop where
  waits : ∀ c k, (s.procs j).rest = .call c k → ∀ i, ¬ Server.Waits s.world j i c
  executes : ∀ sql k, (s.procs j).rest = .call (.execute sql) k → ∃ m : ℕ, ∀ n : UInt64,
    n.toNat = m → ∃ w', sv.Answers j s.world (.execute sql) (.ok n) w'
  commits : ∀ k, (s.procs j).rest = .call .commit k →
    ∃ w' c, sv.Answers j s.world .commit true w' ∧ w'.log = s.world.log ++ [c]

variable (hfresh : w.Fresh) (hs : Reachable (serving others invocation) (mains X invocation) w s)

include hfresh hs

/-- A process with a lock is one that applies. -/
theorem applies_of_locking {t : sv.Table} (hheld : s.world.holder t = some j ∨ s.world.writers t j) :
    ∃ options : ApplyOptions, invocation j = .command (.apply options.sqlPath options.planPath
      options.receiptPath options.database) := by
  have hs' := Semantics.shows_restrict.reachable hs.among
  -- a passive process, or one that does not act, has no lock
  have hactor (hpassive : ∀ e ∈ ((s.only (mains X invocation) fun i =>
      (invocation i).transacts = true).procs j).history, Server.Passive e.cmd) : False := by
    have hharmless := Server.harmless_of_passive hfresh hs' j hpassive
    exact hheld.elim (hharmless.holder t) (hharmless.writers t)
  by_cases htransacts : (invocation j).transacts = true
  · have hprocs : (s.only (mains X invocation) fun i => (invocation i).transacts = true).procs j =
        s.procs j := Configuration.only_procs htransacts
    rw [hprocs] at hactor
    have hreach := hs.reaches j
    rcases hinvocation : invocation j with command | text | -
    · cases command with
      | apply sql plan receipt database => exact ⟨⟨sql, plan, receipt, database⟩, rfl⟩
      | plan =>
          rw [mains, hinvocation] at hreach
          exact (hactor (Within.events (main_passive X) hreach)).elim
      | _ =>
          rw [hinvocation] at htransacts
          cases htransacts
    · rw [hinvocation] at htransacts
      cases htransacts
    · rw [hinvocation] at htransacts
      cases htransacts
  · have hidle : (s.only (mains X invocation) fun i => (invocation i).transacts = true).procs j =
        ⟨[], mains X invocation j⟩ := Configuration.only_idle htransacts
    rw [hidle] at hactor
    exact (hactor fun e he => absurd he List.not_mem_nil).elim

variable (hputs : ∀ w schema name, others.puts w schema name → Server.LeavesNames w schema name)
  (htargets : AsAnalyzed X sv invocation s.procs)

include hputs htargets

/-- **The statement** is about a table that its process holds. -/
theorem holds_of_executing {sql : String} {k : Reply (.execute sql) → Prog Cmd Reply UInt8}
    (hwaiting : (s.procs j).rest = .call (.execute sql) k) {txn : sv.Transaction}
    (hactive : s.world.session j = .active txn) :
    ∃ requested action schema name t, txn.ordered = true ∧ txn.readOnly = false ∧
      txn.change = none ∧ sv.statement sql = some (requested, action) ∧
      sv.resolve s.world.tables requested = some (schema, name, t) ∧
      s.world.holder t = some j := by
  have hs' := Semantics.shows_restrict.reachable hs.among
  have hreach := hs.reaches j
  rw [hwaiting] at hreach
  obtain ⟨options, a, hi, hhistory, rfl⟩ := approval_of_main hreach
  have hprocs := only_of_apply (X := X) (s := s) hi
  rw [mains, hi] at hreach
  obtain ⟨k', happly⟩ := applyPlan_of_main (by simp [Cmd.channel]) hreach
  have htargets_a : sv.Targets a.analyzed :=
    htargets j options _ _ hi (a.admitted.mono (by rw [hhistory]))
  have hstraight : sv.Straight (s.procs j).history :=
    Server.straight_of_approval happly a (by rw [hhistory]) htargets_a
  have horderly : sv.Orderly (s.procs j).history := by
    rw [hhistory, ← List.append_nil a.history]
    exact a.orderly htargets_a (fun e he => absurd he List.not_mem_nil)
      fun e he => absurd he List.not_mem_nil
  rw [← hprocs] at hstraight horderly hhistory
  obtain ⟨hordered, hwritable, -⟩ := Server.Ordered.reachable hfresh hs' j horderly txn hactive
  have hfirst : txn.change = none := by
    refine Option.eq_none_iff_forall_ne_some.mpr fun ch hch => ?_
    -- what has changed a table has executed its statement
    obtain ⟨sql, n, he⟩ := (Server.Locking.reachable hfresh hs' j hstraight).written ch.table
      ((Server.Sound.reachable hfresh hs').pending j txn ch hactive hch)
    exact a.channel_of_history (hhistory ▸ he) (by simp [Cmd.channel])
  have hlocated := a.located
  rw [← hhistory] at hlocated
  obtain ⟨t, -, hstands⟩ := Server.stands_moment hfresh hputs hs' hactive hordered hfirst hlocated
  obtain ⟨schema, name, hresolves⟩ := hstands.resolves
  obtain ⟨action, hstatement⟩ := htargets_a.statement
  exact ⟨_, action, schema, name, t, hordered, hwritable, hfirst, hstatement, hresolves,
    hstands.holder⟩

/-- It waits for nobody. -/
theorem not_waits_of_executing (hunlinked : Server.Unlinked s.world) {sql : String}
    {k : Reply (.execute sql) → Prog Cmd Reply UInt8}
    (hwaiting : (s.procs j).rest = .call (.execute sql) k) :
    ¬ Server.Waits s.world j i (.execute sql) := by
  intro hwaits
  cases hwaits with
  | statement active other statement found held =>
      obtain ⟨requested, action, schema, name, t, -, -, -, hstatement, hfound, hheld⟩ :=
        holds_of_executing hfresh hs hputs htargets hwaiting active
      obtain ⟨rfl, -⟩ := Prod.mk.inj (Option.some.inj (hstatement.symm.trans statement))
      rw [hfound, Option.some.injEq, Prod.mk.injEq, Prod.mk.injEq] at found
      rw [found.2.2, held] at hheld
      exact other (Option.some.inj hheld)
  | reference active other statement found linked changed =>
      obtain ⟨requested, action, schema, name, t, -, -, -, hstatement, hfound, hheld⟩ :=
        holds_of_executing hfresh hs hputs htargets hwaiting active
      obtain ⟨rfl, -⟩ := Prod.mk.inj (Option.some.inj (hstatement.symm.trans statement))
      rw [hfound, Option.some.injEq, Prod.mk.injEq, Prod.mk.injEq] at found
      rw [found.2.2] at hheld
      exact hunlinked j i _ _ (Ne.symm other) hheld changed linked

/-- Its statement can be executed. -/
theorem answers_of_executing {sql : String} {k : Reply (.execute sql) → Prog Cmd Reply UInt8}
    (hwaiting : (s.procs j).rest = .call (.execute sql) k)
    (hactive : ∃ txn, s.world.session j = .active txn) :
    ∃ m : ℕ, ∀ n : UInt64, n.toNat = m → ∃ w', sv.Answers j s.world (.execute sql) (.ok n) w' := by
  obtain ⟨txn, hactive⟩ := hactive
  obtain ⟨requested, action, schema, name, t, hordered, hwritable, hfirst, hstatement, hfound, hheld⟩ :=
    holds_of_executing hfresh hs hputs htargets hwaiting hactive
  have hsound := Server.Sound.reachable hfresh (Semantics.shows_restrict.reachable hs.among)
  have hshows : (s.world.view txn).Shows s.world t := hsound.view_shows hactive hordered hheld
  -- what it has seen of the table is still there
  have hpresent : action.removed ((s.world.view txn).contents t) ≤ s.world.contents t := by
    rw [hshows.1]
    exact action.removed_le _
  refine ⟨action.affected ((s.world.view txn).contents t), fun n hn => ?_⟩
  have hexecutes : sv.Executes s.world j txn sql n _ := .mk hwritable hfirst hstatement hfound
    (fun i hi => Option.some.inj (hi.symm.trans hheld)) hpresent hn
  exact ⟨_, .inl ⟨n, txn, rfl, hactive, hexecutes⟩⟩

/-- **The COMMIT** is that of a change of a table which its process holds. -/
theorem holds_of_committing {options : ApplyOptions} (hi : invocation j = .command (.apply
      options.sqlPath options.planPath options.receiptPath options.database))
    {k : Reply .commit → Prog Cmd Reply UInt8} (hwaiting : (s.procs j).rest = .call .commit k)
    {txn : sv.Transaction} (hactive : s.world.session j = .active txn) :
    ∃ (sql : String) (action : Action sv.Row) (t : sv.Table), s.world.holder t = some j ∧
      txn.change = some ⟨sql, t, action.removed (s.world.contents t),
        action.added (s.world.contents t)⟩ := by
  have hs' := Semantics.shows_restrict.reachable hs.among
  have hreach := hs.reaches j
  rw [hwaiting] at hreach
  obtain ⟨a, hhistory⟩ := approves_of_apply hi _ _ hreach
  have htargets_a : sv.Targets a.analyzed := by
    refine htargets j options _ _ hi (a.admitted.mono ?_)
    rw [hhistory]
    exact List.prefix_append _ _
  have horderly : sv.Orderly (s.procs j).history := by
    rw [hhistory]
    exact a.orderly_executed htargets_a _
  rw [← only_of_apply (X := X) (s := s) hi] at horderly hhistory
  have hordered := (Server.Ordered.reachable hfresh hs' j horderly txn hactive).1
  obtain ⟨action, hstatement⟩ := htargets_a.statement
  obtain ⟨t, -, hheld, hchange, -⟩ :=
    Server.execute_moment hfresh hputs hs' hactive hordered hstatement hhistory a.located
  exact ⟨_, action, t, hheld, hchange⟩

/-- It can take effect. -/
theorem answers_of_committing {options : ApplyOptions} (hi : invocation j = .command (.apply
      options.sqlPath options.planPath options.receiptPath options.database))
    {k : Reply .commit → Prog Cmd Reply UInt8} (hwaiting : (s.procs j).rest = .call .commit k)
    (hactive : ∃ txn, s.world.session j = .active txn) :
    ∃ w' c, sv.Answers j s.world .commit true w' ∧ w'.log = s.world.log ++ [c] := by
  obtain ⟨txn, hactive⟩ := hactive
  obtain ⟨sql, action, t, -, hchange⟩ :=
    holds_of_committing hfresh hs hputs htargets hi hwaiting hactive
  obtain ⟨rest, hrest⟩ := Multiset.le_iff_exists_add.mp (action.removed_le (s.world.contents t))
  exact ⟨_, _, .inl ⟨txn, hactive, .change hchange hrest⟩, rfl⟩

/-- **A process with a lock** is unhindered. -/
theorem unhindered_of_locking {t : sv.Table}
    (hheld : s.world.holder t = some j ∨ s.world.writers t j)
    (hunlinked : Server.Unlinked s.world)
    (hnames : ∀ options plan analyzed, invocation j = .command (.apply options.sqlPath
      options.planPath options.receiptPath options.database) →
      Admitted X options (s.procs j).history plan analyzed →
      ∃ schema name, plan.preconditions.canonicalTable = qualified schema name) :
    Unhindered s j := by
  obtain ⟨options, hi⟩ := applies_of_locking hfresh hs hheld
  have hreach := hs.reaches j
  rw [mains, hi] at hreach
  have hstraight : sv.Straight (s.procs j).history := straight_of_main hreach
    (fun plan analyzed => hnames options plan analyzed hi)
    fun plan analyzed => htargets j options plan analyzed hi
  rw [← only_of_apply (X := X) (s := s) hi] at hstraight
  have hlocking := Server.Locking.reachable hfresh
    (Semantics.shows_restrict.reachable hs.among) j hstraight
  have hactive : ∃ txn, s.world.session j = .active txn := hlocking.active t hheld
  -- it has asked for its lock, or sent its statement
  obtain ⟨e, he, hasked⟩ : ∃ e, ((∃ table, e = ⟨.batchExecute (lockText table), true⟩) ∨
      ∃ sql r, e = ⟨.execute sql, r⟩) ∧ e ∈ (s.procs j).history := by
    rw [← only_of_apply (X := X) (s := s) hi]
    rcases hheld with hheld | hheld
    · obtain ⟨schema, name, he⟩ := hlocking.held t hheld
      exact ⟨_, .inl ⟨_, rfl⟩, he⟩
    · obtain ⟨sql, n, he⟩ := hlocking.written t hheld
      exact ⟨_, .inr ⟨sql, _, rfl⟩, he⟩
  refine ⟨fun c k hwaiting i hwaits => ?_, fun sql k hwaiting => ?_, fun k hwaiting => ?_⟩
  · cases hwaits with
    | lock =>
        rw [hwaiting] at hreach
        exact batch_of_locked hreach he hasked
    | statement active other statement found held =>
        exact not_waits_of_executing hfresh hs hputs htargets hunlinked hwaiting
          (.statement active other statement found held)
    | reference active other statement found linked changed =>
        exact not_waits_of_executing hfresh hs hputs htargets hunlinked hwaiting
          (.reference active other statement found linked changed)
    | deferred active other change linked changed =>
        obtain ⟨sql, action, t', hholds, hchange⟩ :=
          holds_of_committing hfresh hs hputs htargets hi hwaiting active
        rw [hchange] at change
        obtain rfl := Option.some.inj change
        exact hunlinked j i t' _ (Ne.symm other) hholds changed linked
  · exact answers_of_executing hfresh hs hputs htargets hwaiting hactive
  · exact answers_of_committing hfresh hs hputs htargets hi hwaiting hactive

end System

/-- **No circle.**  Any processes on one server, in any interleaving, at a moment
where no foreign key links a table that one of them holds to one that another has
changed.  Where one waits for another, it waits for its lock, and the other is a
process that applies, waits for nobody, and can go on to its COMMIT. -/
theorem main_waits {X : Crates} {sv : Server} {ι : Type} [DecidableEq ι] {others : sv.Others ι}
    {w : sv.World ι} {invocation : ι → Invocation}
    {s : Configuration Cmd Reply (sv.World ι) fun _ : ι => UInt8}
    (hs : Reachable (serving others invocation) (mains X invocation) w s) (hfresh : w.Fresh)
    (hputs : ∀ w schema name, others.puts w schema name → Server.LeavesNames w schema name)
    (htargets : AsAnalyzed X sv invocation s.procs) (hunlinked : Server.Unlinked s.world)
    {i j : ι} {c : Cmd} {k : Reply c → Prog Cmd Reply UInt8} (hi : (s.procs i).rest = .call c k)
    (hwaits : Server.Waits s.world i j c)
    (hnames : ∀ options plan analyzed, invocation j = .command (.apply options.sqlPath
      options.planPath options.receiptPath options.database) →
      Admitted X options (s.procs j).history plan analyzed →
      ∃ schema name, plan.preconditions.canonicalTable = qualified schema name) :
    (∃ schema name, c = .batchExecute (lockText (qualified schema name)) ∧
      ∀ w', ¬ sv.Answers i s.world (.batchExecute (lockText (qualified schema name))) true w') ∧
    (∃ options : ApplyOptions, invocation j = .command (.apply options.sqlPath options.planPath
      options.receiptPath options.database)) ∧ Unhindered s j := by
  cases hwaits with
  | @lock txn schema name t active other table held =>
      refine ⟨⟨schema, name, rfl, fun w' hanswer => ?_⟩, applies_of_locking hfresh hs held,
        unhindered_of_locking hfresh hs hputs htargets held hunlinked hnames⟩
      exact (Server.lock_granted_iff active table).mp ⟨w', hanswer⟩ j (.lock active other table held)
  | statement active other statement found held =>
      exact absurd (.statement active other statement found held)
        (not_waits_of_executing hfresh hs hputs htargets hunlinked hi)
  | reference active other statement found linked changed =>
      exact absurd (.reference active other statement found linked changed)
        (not_waits_of_executing hfresh hs hputs htargets hunlinked hi)
  | @deferred txn ch t' active other change linked changed =>
      -- what has a change to commit holds its table
      have hwrites := (Server.Sound.reachable hfresh
        (Semantics.shows_restrict.reachable hs.among)).pending i txn ch active change
      obtain ⟨options, happlies⟩ := applies_of_locking hfresh hs (.inr hwrites)
      obtain ⟨sql, action, t, hholds, hchange⟩ :=
        holds_of_committing hfresh hs hputs htargets happlies hi active
      rw [hchange] at change
      obtain rfl := Option.some.inj change
      exact absurd linked (hunlinked i j t t' (Ne.symm other) hholds changed)

namespace Sample

/-- Two processes apply one plan. -/
def contending (_ : Bool) : Invocation := applyInvocation

/-- The run as far as its transaction. -/
def approaching : History :=
  applied.admissionHistory ++ applied.receiptHistory ++ applied.connectionHistory

/-- And as far as its lock. -/
def asking : History :=
  [⟨.start .repeatableRead false, true⟩, ⟨.batchExecute (timeoutSettings applied.plan.limits), true⟩]

def lock : Cmd := .batchExecute (lockText applied.plan.preconditions.canonicalTable)

theorem history_contending : applied.history =
    approaching ++ asking ++ ⟨lock, true⟩ :: applied.driftHistory := by
  simp [Approval.history, approaching, asking, lock, sessionHistory]

theorem serves_asking {i : Bool} {w : server.World Bool} (hidle : w.session i = .idle) :
    (serving (nobody Bool) contending).Serves i w (approaching ++ asking)
      (w.begin i .repeatableRead false) := by
  have hactive : (w.begin i .repeatableRead false).session i = .active ⟨none, none, true, false⟩ :=
    Server.World.begin_session_self
  have hquiet := Server.serves_quiet (nobody Bool) (fun _ he => applied.channel_of_opening he) i w
  have hasking : (server.semantics (nobody Bool)).Serves i w asking (w.begin i .repeatableRead false) :=
    .cons (.inl ⟨rfl, hidle, rfl⟩) (.cons (.inl ⟨rfl, _, hactive, .settings rfl⟩) (.nil _))
  refine .among rfl (Server.serves_acknowledging (hquiet.append hasking) fun e he hcommit => ?_)
  rcases List.mem_append.mp he with he | he
  · have hchannel := applied.channel_of_opening he
    rw [hcommit] at hchannel
    exact absurd hchannel (by decide)
  · simp only [asking, List.mem_cons, List.not_mem_nil, or_false] at he
    rcases he with rfl | rfl <;> cases hcommit

theorem lock_eq : lock = .batchExecute (lockText (qualified applied.observed.evidence.schema
    applied.observed.evidence.table)) := by rw [lock, applied.canonical]

/-- A free table is locked. -/
theorem serves_lock {i : Bool} {w : server.World Bool} {txn : server.Transaction}
    (hactive : w.session i = .active txn)
    (htable : w.tables applied.observed.evidence.schema applied.observed.evidence.table = some placed)
    (hholder : w.holder placed = none) (hwriters : ∀ j, ¬ w.writers placed j) :
    (serving (nobody Bool) contending).Serves i w [⟨lock, true⟩] (w.lock i txn placed) := by
  have hbatch : server.Batches w i txn (lockText applied.plan.preconditions.canonicalTable)
      (w.lock i txn placed) := by
    rw [applied.canonical]
    refine .lock rfl htable (fun j hj => ?_) fun j hj => absurd hj (hwriters j)
    rw [hholder] at hj
    cases hj
  exact .cons (.inl ⟨rfl, trivial, .inl ⟨rfl, txn, hactive, hbatch⟩⟩) (.nil _)

/-- One process has the lock, and the other asks for it. -/
theorem reachable_contending :
    ∃ (s : Configuration Cmd Reply (server.World Bool) fun _ : Bool => UInt8)
      (k : Reply lock → Prog Cmd Reply UInt8),
      Reachable (serving (nobody Bool) contending) (mains crates contending) (world Bool) s ∧
      (s.procs true).rest = .call lock k ∧ Server.Waits s.world true false lock ∧
      Server.Unlinked s.world ∧ (s.procs false).history <+: applied.history := by
  have hmain : Reaches (main crates applyInvocation) applied.history _ :=
    (applied.reaches.bind_left _).bind_left _
  rw [history_contending] at hmain
  obtain ⟨q, hasking, hlock⟩ := hmain.split
  obtain ⟨k, rfl, -⟩ := hlock.cons
  -- the other comes to its lock
  have h₀ : Reachable (serving (nobody Bool) contending) (mains crates contending) (world Bool)
      (start _ (world Bool)) := .refl
  obtain ⟨s₁, h₁, hworld₁, hproc₁, hothers₁⟩ := h₀.followed (i := true) hasking (serves_asking rfl)
  have hproc : s₁.procs false = ⟨[], main crates applyInvocation⟩ := hothers₁ false (by decide)
  have hidle : s₁.world.session false = .idle := by
    rw [hworld₁]
    exact Server.World.begin_session_ne (by decide)
  -- the one comes to its own
  obtain ⟨s₂, h₂, hworld₂, hproc₂, hothers₂⟩ := h₁.followed (i := false) (by
    rw [hproc]
    exact hasking) (serves_asking hidle)
  have hactive : s₂.world.session false = .active ⟨none, none, true, false⟩ := by
    rw [hworld₂]
    exact Server.World.begin_session_self
  have hactive' : s₂.world.session true = .active ⟨none, none, true, false⟩ := by
    rw [hworld₂, hworld₁, Server.World.begin_session_ne (by decide)]
    exact Server.World.begin_session_self
  obtain ⟨htable, hholder, hwriters⟩ : s₂.world.tables applied.observed.evidence.schema
      applied.observed.evidence.table = some placed ∧ s₂.world.holder placed = none ∧
      ∀ t j, ¬ s₂.world.writers t j := by
    rw [hworld₂, hworld₁]
    exact ⟨rfl, rfl, fun _ _ => id⟩
  -- and gets it
  obtain ⟨s₃, h₃, hworld₃, hproc₃, hothers₃⟩ := h₂.followed (i := false) (by
    rw [hproc₂]
    exact .call (.refl _)) (serves_lock hactive htable hholder (hwriters placed))
  refine ⟨s₃, k, h₃, ?_, ?_, fun _ j _ t' _ _ hwrites => ?_, ?_⟩
  · rw [hothers₃ true (by decide), hothers₂ true (by decide), hproc₁]
  · have hasks : (s₂.world.lock false ⟨none, none, true, false⟩ placed).session true =
        .active ⟨none, none, true, false⟩ := by
      rw [Server.World.lock_session_ne (by decide), hactive']
    rw [lock_eq, hworld₃]
    exact .lock hasks (by decide) htable (.inl Server.World.lock_holder_self)
  · rw [hworld₃] at hwrites
    exact absurd hwrites (hwriters t' j)
  · rw [hproc₃, hproc₂, hproc, history_contending]
    exact (List.prefix_append_right_inj _).mpr ⟨_, rfl⟩

end Sample

/-- The one that has the lock is unhindered. -/
theorem main_waits_sample :
    ∃ s : Configuration Cmd Reply (Sample.server.World Bool) fun _ : Bool => UInt8,
      Server.Waits s.world true false Sample.lock ∧ Unhindered s false := by
  obtain ⟨s, k, hs, hwaiting, hwaits, hunlinked, hpast⟩ := Sample.reachable_contending
  obtain ⟨-, -, hunhindered⟩ := main_waits hs (Sample.world_fresh Bool) (fun _ _ _ h => h.elim)
    (fun _ _ _ _ _ ha => (Sample.readsAs_of_admitted ha).toTargets) hunlinked hwaiting hwaits fun options plan analyzed hi hadmitted => by
      obtain ⟨sql, planPath, receipt, database⟩ := options
      cases hi
      obtain ⟨rfl, -⟩ := (hadmitted.mono hpast).unique Sample.applied.admitted
      exact ⟨_, _, Sample.applied.canonical⟩
  exact ⟨s, hwaits, hunhindered⟩

end DmlPact
