/-
DmlPact/Server/Contents.lean

Who changes rows.  A session that sends nothing which strays (`Straight`) changes
rows with COMMIT and at no other moment (`rows_step`), and it does so once
(`Spent`).  An apply run under a plan with a qualified name is such a session, if
the server takes its statement for one on its table.
-/
import DmlPact.Server.Committed

namespace DmlPact

open Effect RowChange

/-- A run that has come to an approval sends nothing that strays. -/
theorem Server.straight_of_approval {X : Crates} {sv : Server} {options : ApplyOptions}
    {h : History} {q : Prog Cmd Reply (Except AppError ApplyResult)}
    (hr : Reaches (applyPlan X options).run h q) (a : Approval X options) (ha : a.history <+: h)
    (htargets : sv.Targets a.analyzed) : sv.Straight h := by
  refine Server.straight_of_admitted hr (fun plan analyzed hadmitted => ?_)
    fun plan analyzed hadmitted => ?_
  · obtain ⟨rfl, -⟩ := (a.admitted.mono ha).unique hadmitted
    exact ⟨_, _, a.canonical⟩
  · obtain ⟨-, rfl⟩ := (a.admitted.mono ha).unique hadmitted
    exact htargets

namespace Server

variable {sv : Server} {ι : Type} [DecidableEq ι] {others : sv.Others ι}
  {α : ι → Type} {P : (i : ι) → Prog Cmd Reply (α i)} {w w' : sv.World ι} {i : ι} {c : Cmd}
  {s s' : Configuration Cmd Reply (sv.World ι) α} {who : Option ι}

/-! ### What changes rows -/

theorem Moves.contents (h : Moves w i c w') (hlog : w'.log = w.log)
    (hplain : ¬ sv.Stray c) : w'.contents = w.contents := by
  cases h with
  | strays hactive hstray => exact absurd hstray hplain
  | publish =>
      -- what is published is logged
      rename_i ch rest hchange hrest
      have hlonger : w.log ++ [_] = w.log := hlog
      simp at hlonger
  | _ => rfl

theorem drift_contents (h : sv.Drifts others w w') {t : sv.Table}
    (ht : w'.contents t ≠ w.contents t) : others.writes t := by
  cases h with
  | rows contents hrows => exact (hrows t ht).2
  | put => exact absurd rfl ht
  | ends => exact absurd rfl ht

/-- A step that changes rows is a commit, or what others write. -/
theorem rows_step (h : Step (sv.semantics others) s who s')
    (hstraight : ∀ i, who = some i → sv.Straight (s'.procs i).history) :
    (s'.world.log = s.world.log ∧
      ∀ t, s'.world.contents t ≠ s.world.contents t → who = none ∧ others.writes t) ∨
    ∃ c, who = some c.session ∧ Commits.At c s s' := by
  rcases log_step h with hlog | hcommit
  · refine .inl ⟨hlog, fun t ht => ?_⟩
    cases h with
    | @answer _ i c r k waiting hanswer hmoved =>
        have hcontents := (Moves.of_answer hanswer).contents hlog <| by
          have hlast := hstraight i rfl
          rw [hmoved] at hlast
          exact hlast.last
        exact absurd (congrFun hcontents t) ht
    | progress waiting hprogress => exact absurd hprogress id
    | drift hdrift => exact ⟨rfl, drift_contents hdrift ht⟩
  · exact .inr hcommit

/-! ### One commit a session -/

theorem Moves.ended (h : Moves w i c w') (hended : w.session i = .ended) :
    w'.session i = .ended := by
  have hinactive : ∀ txn, w.session i ≠ .active txn := by
    intro txn hactive
    rw [hended] at hactive
    cases hactive
  cases h with
  | same => exact hended
  | begin isolation readOnly hidle =>
      rw [hended] at hidle
      cases hidle
  | finish => exact World.finish_session_self
  | lock hactive => exact absurd hactive (hinactive _)
  | strays hactive => exact absurd hactive (hinactive _)
  | see hactive => exact absurd hactive (hinactive _)
  | find name t hactive => exact absurd hactive (hinactive _)
  | deliver name t q rows hactive => exact absurd hactive (hinactive _)
  | alter name hactive => exact absurd hactive (hinactive _)
  | publish hactive => exact absurd hactive (hinactive _)

/-- A session that has ended begins no other transaction. -/
theorem ended_step (h : Step (sv.semantics others) s who s')
    (hended : s.world.session i = .ended) : s'.world.session i = .ended := by
  cases h with
  | @answer _ j c r k waiting hanswer =>
      by_cases hij : i = j
      · subst hij
        exact (Moves.of_answer hanswer).ended hended
      · exact (Apart.move hij (.of_answer hanswer)).session.trans hended
  | progress waiting hprogress => exact absurd hprogress id
  | drift hdrift =>
      rcases drift_session (i := i) hdrift with hsame | hdone
      · exact hsame.trans hended
      · exact hdone

/-- Whoever has committed a change has ended, and has committed no other. -/
structure Spent (w : sv.World ι) : Prop where
  ended : ∀ c ∈ w.log, w.session c.session = .ended
  once : w.log.Pairwise fun c c' => c.session ≠ c'.session

theorem Spent.step (hspent : Spent s.world) (h : Step (sv.semantics others) s who s') :
    Spent s'.world := by
  have hbefore : ∀ c ∈ s.world.log, s'.world.session c.session = .ended :=
    fun c hc => ended_step h (hspent.ended c hc)
  rcases log_step h with hlog | ⟨c, -, hcommit⟩
  · refine ⟨fun c hc => hbefore c (hlog ▸ hc), ?_⟩
    rw [hlog]
    exact hspent.once
  · -- a session that has committed has ended, so it is not the one that commits now
    obtain ⟨txn, hactive, -⟩ := hcommit.active
    have hfirst : ∀ c' ∈ s.world.log, c'.session ≠ c.session := by
      intro c' hc' hsame
      have hended := hspent.ended c' hc'
      rw [hsame, hactive] at hended
      cases hended
    constructor
    · intro c' hc'
      rw [hcommit.log] at hc'
      rcases List.mem_append.mp hc' with hc' | hc'
      · exact hbefore c' hc'
      · rw [List.mem_singleton.mp hc']
        exact hcommit.ended
    · rw [hcommit.log, List.pairwise_append]
      refine ⟨hspent.once, List.pairwise_singleton _ _, fun c' hc' c'' hc'' => ?_⟩
      rw [List.mem_singleton.mp hc'']
      exact hfirst c' hc'

theorem Spent.reachable (hfresh : w.Fresh) (hs : Reachable (sv.semantics others) P w s) :
    Spent s.world := by
  have hstart : Spent (start P w).world := by
    constructor
    · intro c hc
      rw [show (start P w).world.log = [] from hfresh.log] at hc
      cases hc
    · rw [show (start P w).world.log = [] from hfresh.log]
      exact .nil
  exact @Reachable.invariant _ _ _ _ _ _ _ _ _ (fun s => Spent s.world) hstart
    (fun _ _ _ _ hspent hstep => hspent.step hstep) hs

omit [DecidableEq ι] in
theorem Spent.unique (hspent : Spent w) {c c' : sv.Commit ι} (hc : c ∈ w.log) (hc' : c' ∈ w.log)
    (hsame : c.session = c'.session) : c = c' := by
  have hsymm : Std.Symm fun c c' : sv.Commit ι => c.session ≠ c'.session := ⟨fun _ _ h => h.symm⟩
  by_contra hne
  exact hspent.once.forall hc hc' hne hsame

/-- What was committed stays in the log. -/
theorem log_run (h : Steps (sv.semantics others) s s') : s.world.log <+: s'.world.log := by
  induction h with
  | refl => exact List.prefix_refl _
  | tail _ hnext ih =>
      obtain ⟨who, hstep⟩ := hnext
      apply ih.trans
      rcases log_step hstep with hlog | ⟨c, -, hcommit⟩
      · rw [hlog]
      · rw [hcommit.log]
        exact List.prefix_append _ _

/-- What a session that sends nothing else has changed is in the log. -/
theorem logged_of_straight {s₁ s₂ : Configuration Cmd Reply (sv.World ι) α}
    (hstraight : sv.Straight (s.procs i).history)
    (hstep : Step (sv.semantics others) s₁ (some i) s₂) (hrun : Steps (sv.semantics others) s₂ s) :
    s₂.world.contents = s₁.world.contents ∨ ∃ c ∈ s.world.log, c.session = i ∧
      s₁.world.contents = c.before ∧ s₂.world.contents = c.after := by
  have hplain : ∀ j, some i = some j → sv.Straight (s₂.procs j).history := by
    rintro j ⟨⟩
    exact hstraight.mono (hrun.prefix_history _)
  rcases rows_step hstep hplain with ⟨-, hrows⟩ | ⟨c, hsession, hcommit⟩
  · left
    funext t
    by_contra ht
    cases (hrows t ht).1
  · refine .inr ⟨c, (log_run hrun).subset ?_, (Option.some.inj hsession).symm,
      hcommit.before.symm, hcommit.after⟩
    rw [hcommit.log]
    exact List.mem_append_right _ (List.mem_singleton_self _)

/-- No step of its session but the commit itself has changed rows. -/
def Sole (others : sv.Others ι) (P : (i : ι) → Prog Cmd Reply (α i)) (w : sv.World ι)
    (s : Configuration Cmd Reply (sv.World ι) α) (c : sv.Commit ι) : Prop :=
  ∀ s₁ s₂, Reachable (sv.semantics others) P w s₁ →
    Step (sv.semantics others) s₁ (some c.session) s₂ → Steps (sv.semantics others) s₂ s →
    s₂.world.contents = s₁.world.contents ∨
      s₁.world.contents = c.before ∧ s₂.world.contents = c.after

theorem sole_of_straight (hfresh : w.Fresh) (hs : Reachable (sv.semantics others) P w s)
    {c : sv.Commit ι} (hc : c ∈ s.world.log) (hstraight : sv.Straight (s.procs c.session).history) :
    Sole others P w s c := by
  intro s₁ s₂ _ hstep hrun
  rcases logged_of_straight hstraight hstep hrun with hsame | ⟨c', hc', hsession, hrows⟩
  · exact .inl hsame
  · obtain rfl := (Spent.reachable hfresh hs).unique hc hc' hsession.symm
    exact .inr hrows

/-! ### From one commit to the next -/

/-- Every commit has found the table as the one before has left it, and the last
one has left it as it is. -/
structure Chained (t : sv.Table) (w : sv.World ι) : Prop where
  chain : w.log.IsChain fun c c' => c'.before t = c.after t
  last : ∀ c ∈ w.log.getLast?, c.after t = w.contents t

theorem Chained.step {t : sv.Table} (hchained : Chained t s.world)
    (h : Step (sv.semantics others) s who s') (hstraight : ∀ i, sv.Straight (s'.procs i).history)
    (hwrites : ¬ others.writes t) : Chained t s'.world := by
  rcases rows_step h fun i _ => hstraight i with ⟨hlog, hrows⟩ | ⟨c, -, hcommit⟩
  · have hsame : s'.world.contents t = s.world.contents t := by
      by_contra ht
      exact hwrites (hrows t ht).2
    constructor
    · rw [hlog]
      exact hchained.chain
    · rw [hlog, hsame]
      exact hchained.last
  · constructor
    · rw [hcommit.log]
      refine hchained.chain.append (.singleton c) fun c₁ hc₁ c₂ hc₂ => ?_
      obtain rfl := Option.some.inj hc₂
      rw [hcommit.before]
      exact (hchained.last c₁ hc₁).symm
    · intro c₁ hc₁
      rw [hcommit.log, List.getLast?_concat] at hc₁
      obtain rfl := Option.some.inj hc₁
      rw [hcommit.after]

/-- **Chains.**  While nobody else writes the table. -/
theorem Chained.reachable (hfresh : w.Fresh) (hs : Reachable (sv.semantics others) P w s)
    (hstraight : ∀ i, sv.Straight (s.procs i).history) {t : sv.Table} (hwrites : ¬ others.writes t) :
    Chained t s.world := by
  have hempty : (start P w).world.log = [] := hfresh.log
  have hstart : (∀ i, sv.Straight ((start P w).procs i).history) → Chained t (start P w).world := by
    intro _
    constructor
    · rw [hempty]
      exact .nil
    · rw [hempty]
      exact nofun
  refine @Reachable.invariant _ _ _ _ _ _ _ _ _
    (fun s => (∀ i, sv.Straight (s.procs i).history) → Chained t s.world) hstart
    (fun s s' who _ ih hstep hlater => ?_) hs hstraight
  have hbefore : ∀ i, sv.Straight (s.procs i).history :=
    fun i => (hlater i).mono (hstep.prefix_history i)
  exact (ih hbefore).step hstep hlater hwrites

end Server

end DmlPact
