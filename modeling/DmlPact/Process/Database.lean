/-
DmlPact/Process/Database.lean

Any processes over one server.  Only planning and applying open a transaction,
so to a process of another kind the server may answer anything, and stays as it
is (`serving`).  A session that is READ ONLY, with no statement and no batch but
settings, changes and locks nothing (`harmless_of_passive`), which leaves

    lint, verify, inspect    no transaction
    plan                     a transaction without a change
    apply                    COMMIT, but only behind an approval

and a change in the database is one that a process has applied
(`applied_of_logged`).
-/
import DmlPact.Process.Outputs
import DmlPact.Process.Plans
import DmlPact.Server.Receipts

namespace DmlPact

open Effect RowChange

/-! ### Sessions that change nothing -/

namespace Server

variable {X : Crates} {sv : Server} {ι : Type} [DecidableEq ι]

/-- READ ONLY, no statement, and no batch but settings. -/
structure Passive (c : Cmd) : Prop where
  start : ∀ isolation readOnly, c = .start isolation readOnly → readOnly = true
  statement : c.channel ≠ .execute
  batch : ∀ sql, c = .batchExecute sql → ∃ limits, sql = timeoutSettings limits

/-- Session `i` has no locks, and no transaction that could change anything. -/
structure Harmless (i : ι) (w : sv.World ι) : Prop where
  reading : ∀ txn, w.session i = .active txn → txn.change = none ∧ txn.readOnly = true
  holder : ∀ t, w.holder t ≠ some i
  writers : ∀ t, ¬ w.writers t i

namespace Harmless

variable {i : ι} {w w' : sv.World ι}

omit [DecidableEq ι] in
/-- Where it gets no lock and goes on as it was. -/
theorem same (hh : Harmless i w)
    (hsession : ∀ txn', w'.session i = .active txn' → ∃ txn, w.session i = .active txn ∧
      txn'.change = txn.change ∧ txn'.readOnly = txn.readOnly)
    (hholder : ∀ t, w'.holder t = some i → w.holder t = some i)
    (hwriters : ∀ t, w'.writers t i → w.writers t i) : Harmless i w' where
  reading txn' hactive' := by
    obtain ⟨txn, hactive, hchange, hreadOnly⟩ := hsession txn' hactive'
    rw [hchange, hreadOnly]
    exact hh.reading txn hactive
  holder t ht := hh.holder t (hholder t ht)
  writers t ht := hh.writers t (hwriters t ht)

theorem finish : Harmless i (w.finish i) where
  reading _ hactive := absurd (World.finish_session_self.symm.trans hactive) nofun
  holder _ ht := (World.finish_holder.mp ht).2 rfl
  writers _ ht := ht.2 rfl

/-- The own answers. -/
theorem answer {c : Cmd} {r : Reply c} (hh : Harmless i w) (hc : Passive c)
    (hanswer : sv.Answers i w c r w') : Harmless i w' := by
  cases c
  case start isolation readOnly =>
    rcases hanswer with ⟨-, -, rfl⟩ | ⟨-, rfl⟩
    · refine ⟨fun txn hactive => ?_, hh.holder, hh.writers⟩
      rw [World.begin_session_self] at hactive
      cases hactive
      exact ⟨rfl, hc.start isolation readOnly rfl⟩
    · exact hh
  case batchExecute sql =>
    obtain ⟨limits, hsql⟩ := hc.batch sql rfl
    rcases hanswer with ⟨-, txn, -, hbatch⟩ | ⟨-, rfl⟩
    · cases hbatch with
      | lock hlock => exact absurd (hlock.symm.trans hsql).symm (timeoutSettings_ne_lockText limits _)
      | settings => exact hh
      | stray hstray => exact absurd (.inr ⟨limits, hsql⟩) hstray
    · exact finish
  case query sql params =>
    rcases hanswer with ⟨-, txn, hactive, hquery⟩ | ⟨-, rfl⟩
    · -- no query changes data in a transaction that is READ ONLY
      have hquiet : txn.readOnly = false → ¬ sv.Stray (.query sql params) := fun hwritable => by
        rw [(hh.reading txn hactive).2] at hwritable
        cases hwritable
      obtain ⟨hholder, hwriters⟩ := queries_locks hquiet hquery
      refine hh.same (fun txn' hactive' => ⟨txn, hactive, ?_⟩) (fun t ht => ?_) fun t ht => ?_
      · rw [queries_session hquiet hquery] at hactive'
        cases hactive'
        exact ⟨rfl, rfl⟩
      · rwa [hholder] at ht
      · rwa [hwriters] at ht
    · exact finish
  case execute sql => exact absurd rfl hc.statement
  case commit =>
    rcases hanswer with ⟨txn, hactive, hcommit⟩ | ⟨-, rfl⟩
    · cases hcommit <;> exact finish
    · exact finish
  case rollback =>
    obtain rfl : w' = _ := hanswer
    exact finish
  all_goals
    obtain rfl : w' = w := hanswer
    exact hh

end Harmless

variable {α : ι → Type} {P : (i : ι) → Prog Cmd Reply (α i)} {others : sv.Others ι} {w : sv.World ι}

/-- **Passive sessions** change and lock nothing, whatever the others do. -/
theorem harmless_of_passive (hfresh : w.Fresh) {s : Configuration Cmd Reply (sv.World ι) α}
    (hs : Reachable (sv.semantics others) P w s) (i : ι)
    (hpassive : ∀ e ∈ (s.procs i).history, Passive e.cmd) : Harmless i s.world := by
  have hstart : (∀ e ∈ ((start P w).procs i).history, Passive e.cmd) →
      Harmless i (start P w).world := fun _ => by
    refine ⟨fun txn hactive => ?_, fun t ht => ?_, fun t => hfresh.writers t i⟩
    · exact absurd ((hfresh.session i).symm.trans hactive) nofun
    · exact absurd ((hfresh.holder t).symm.trans ht) nofun
  refine @Reachable.invariant _ _ _ _ _ _ _ _ _
    (fun s => (∀ e ∈ (s.procs i).history, Passive e.cmd) → Harmless i s.world) hstart
    (fun s s' who _ hh hstep hpassive => ?_) hs hpassive
  have hbefore := hh fun e he => hpassive e ((hstep.prefix_history i).subset he)
  cases hstep with
  | @answer _ j c r k waiting hanswer hmoved hothers =>
      by_cases hij : i = j
      · subst hij
        rw [hmoved] at hpassive
        exact hbefore.answer
          (hpassive ⟨c, r⟩ (List.mem_append_right _ (List.mem_singleton_self _))) hanswer
      · have hmove := Moves.of_answer hanswer
        obtain ⟨hholder, hwriters⟩ := hmove.locks hij
        refine hbefore.same (fun txn hactive => ⟨txn, ?_, rfl, rfl⟩) hholder hwriters
        rwa [← (Apart.move hij hmove).session]
  | progress waiting hprogress => exact absurd hprogress id
  | drift hdrift hprocs =>
      generalize s'.world = w' at hdrift ⊢
      cases hdrift with
      | rows => exact ⟨hbefore.reading, hbefore.holder, hbefore.writers⟩
      | put => exact ⟨hbefore.reading, hbefore.holder, hbefore.writers⟩
      | ends j =>
          by_cases hij : i = j
          · subst hij
            exact .finish
          · refine hbefore.same (fun txn hactive => ⟨txn, ?_, rfl, rfl⟩)
              (fun _ ht => (World.finish_holder.mp ht).1) fun _ ht => ht.1
            rwa [← World.finish_session_ne hij]

end Server

/-! ### What the processes send -/

section Process

variable (X : Crates)

theorem passive_of_uses {α : Type} {cs : List Channel} {p : Prog Cmd Reply α} (hp : Uses cs p)
    (hcs : cs.all (fun c => !([Channel.start, .batch, .execute].contains c)) = true) :
    Within Server.Passive p := by
  refine Within.mono hp fun c hc => ?_
  have hnot : c.channel ∉ [Channel.start, .batch, .execute] := Channel.apart hc hcs
  refine ⟨?_, fun he => hnot (by simp [he]), ?_⟩
  · rintro isolation readOnly rfl
    exact absurd (List.mem_cons_self) hnot
  · rintro sql rfl
    exact absurd (List.mem_cons_of_mem _ List.mem_cons_self) hnot

theorem createPlan_passive (options : PlanOptions) :
    Within Server.Passive (createPlan X options).run := by
  rw [createPlan_eq]
  refine .run_bind (within_ret _) fun _ => ?_
  split
  · exact within_ret _
  refine .run_bind (passive_of_uses (readAndAnalyze_uses X _) rfl) fun analyzed => ?_
  refine .run_bind (passive_of_uses (connectDatabase_uses X _ _) rfl) fun database => ?_
  refine .run_bind (planSession_within X ⟨?_, nofun, nofun⟩ ⟨nofun, nofun, ?_⟩ fun c hc => ?_)
    fun observed => ?_
  · rintro isolation readOnly ⟨⟩
    rfl
  · rintro sql ⟨⟩
    exact ⟨_, rfl⟩
  · refine ⟨?_, fun he => ?_, ?_⟩
    · rintro isolation readOnly rfl
      exact absurd hc (by simp [Cmd.channel])
    · rw [he] at hc
      exact absurd hc (by decide)
    · rintro sql rfl
      exact absurd hc (by simp [Cmd.channel])
  · exact passive_of_uses (publishPlan_uses X _ _) rfl

/-- A process that plans. -/
theorem main_passive {sql out : Path} {maxRows : UInt64} {statementTimeout lockTimeout validFor : Nat}
    {allowTriggers allowRowSecurity : Bool} {database : DatabaseOptions} :
    Within Server.Passive (main X (.command (.plan sql out maxRows statementTimeout lockTimeout
      validFor allowTriggers allowRowSecurity database))) := by
  rw [main_command]
  refine .bind ?_ fun result => passive_of_uses (concluded_uses result) rfl
  refine .run_bind (within_ret _) fun _ => .run_bind (within_ret _) fun _ => ?_
  refine .run_bind (within_ret _) fun _ => .run_bind (createPlan_passive X _) fun plan => ?_
  exact .run_bind (passive_of_uses (emitJson_uses _) rfl) fun _ => within_ret _

/-- A process that applies. -/
theorem main_approves (options : ApplyOptions) :
    Approves X options (main X (.command (.apply options.sqlPath options.planPath
      options.receiptPath options.database))) := by
  intro h k hr
  obtain ⟨k', happly⟩ := applyPlan_of_main (by simp [Cmd.channel]) hr
  exact applyPlan_approves X options _ _ happly

end Process

/-! ### One server -/

/-- Does the process open a transaction? -/
def Invocation.transacts : Invocation → Bool
  | .command (.plan ..) => true
  | .command (.apply ..) => true
  | _ => false

/-- The server takes the statements that are applied for what they were analyzed as. -/
def AsAnalyzed (X : Crates) (sv : Server) {ι : Type} (invocation : ι → Invocation)
    (procs : ι → Process Cmd Reply UInt8) : Prop :=
  ∀ i (options : ApplyOptions) plan analyzed, invocation i = .command (.apply options.sqlPath
    options.planPath options.receiptPath options.database) →
    Admitted X options (procs i).history plan analyzed → sv.Targets analyzed

/-- A server with these processes on it, and with other sessions. -/
abbrev serving {sv : Server} {ι : Type} [DecidableEq ι] (others : sv.Others ι)
    (invocation : ι → Invocation) : Semantics Cmd Reply ι (sv.World ι) :=
  (Server.acknowledging others).among fun i => (invocation i).transacts = true

section Serving

variable {X : Crates} {sv : Server} {ι : Type} [DecidableEq ι] {others : sv.Others ι}
  {w : sv.World ι} {invocation : ι → Invocation}
  {s : Configuration Cmd Reply (sv.World ι) fun _ : ι => UInt8}

variable {i : ι} {options : ApplyOptions}

omit [DecidableEq ι] in
/-- A process that applies acts on the server. -/
theorem only_of_apply (hi : invocation i = .command (.apply options.sqlPath options.planPath
    options.receiptPath options.database)) :
    (s.only (mains X invocation) fun i => (invocation i).transacts = true).procs i = s.procs i := by
  refine Configuration.only_procs ?_
  rw [hi]
  rfl

omit [DecidableEq ι] in
theorem approves_of_apply (hi : invocation i = .command (.apply options.sqlPath options.planPath
    options.receiptPath options.database)) : Approves X options (mains X invocation i) := by
  rw [mains, hi]
  exact main_approves X options

variable (hfresh : w.Fresh) (hs : Reachable (serving others invocation) (mains X invocation) w s)

include hfresh hs

end Serving

end DmlPact
