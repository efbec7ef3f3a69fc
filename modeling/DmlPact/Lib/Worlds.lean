/-
DmlPact/Lib/Worlds.lean

Worlds put together and looked at.  The product of two semantics is a world in
two halves, both of which answer every command:

    S.prod T        S answers the first half, T the second

A function `f` shows one semantics as another (`Shows S T f`) when every step
of `S` is a step of `T` on the shown world, or leaves it as it is.  Then every
configuration that is reachable under `S` is shown as one that is reachable
under `T` (`Shows.reachable`), so that what is proved of either half of a
product holds in the whole.

Where some processes do not act on a world (`among`), it has the runs that the
others have without them (`Reachable.among`).
-/
import DmlPact.Lib.System

namespace Effect

variable {C : Type} {R : C → Type} {ι W V : Type} {α : ι → Type}

/-! ### Shown worlds -/

/-- The processes, and what `f` shows of the world. -/
def Configuration.shown (f : W → V) (s : Configuration C R W α) : Configuration C R V α :=
  ⟨f s.world, s.procs⟩

@[simp] theorem Configuration.shown_world (f : W → V) (s : Configuration C R W α) :
    (s.shown f).world = f s.world := rfl

/-- Every step of `S` is shown by `f` as one of `T`, or as none. -/
structure Shows (S : Semantics C R ι W) (T : Semantics C R ι V) (f : W → V) : Prop where
  answers : ∀ {i w c r w'}, S.answers i w c r w' → T.answers i (f w) c r (f w')
  progresses : ∀ {i w c w'}, S.progresses i w c w' →
    T.progresses i (f w) c (f w') ∨ f w' = f w
  drifts : ∀ {w w'}, S.drifts w w' → T.drifts (f w) (f w') ∨ f w' = f w

namespace Shows

variable {S : Semantics C R ι W} {T : Semantics C R ι V} {f : W → V}
  {P : (i : ι) → Prog C R (α i)} {w : W} {s s' : Configuration C R W α} {who : Option ι}

theorem step (h : Shows S T f) (hstep : Step S s who s') :
    Step T (s.shown f) who (s'.shown f) ∨ s'.shown f = s.shown f := by
  -- a configuration that is shown unchanged has the same processes
  have hsame : f s'.world = f s.world → s'.procs = s.procs → s'.shown f = s.shown f := by
    intro hworld hprocs
    show (⟨f s'.world, s'.procs⟩ : Configuration C R V α) = ⟨f s.world, s.procs⟩
    rw [hworld, hprocs]
  cases hstep with
  | answer waiting world moved others =>
      exact .inl (.answer waiting (h.answers world) moved others)
  | progress waiting world procs =>
      exact (h.progresses world).imp (fun hp => .progress waiting hp procs) fun hw => hsame hw procs
  | drift world procs =>
      exact (h.drifts world).imp (fun hd => .drift hd procs) fun hw => hsame hw procs

theorem steps (h : Shows S T f) (hrun : Steps S s s') : Steps T (s.shown f) (s'.shown f) := by
  induction hrun with
  | refl => exact .refl
  | tail _ hnext ih =>
      obtain ⟨who, hstep⟩ := hnext
      rcases h.step hstep with hshown | hsame
      · exact ih.tail ⟨who, hshown⟩
      · exact hsame ▸ ih

/-- **Shown runs.**  What is reachable is shown as reachable. -/
theorem reachable (h : Shows S T f) (hs : Reachable S P w s) : Reachable T P (f w) (s.shown f) :=
  h.steps hs

end Shows

/-! ### Two halves -/

namespace Semantics

variable {S : Semantics C R ι W} {T : Semantics C R ι V}

/-- The same, but for answers that `allowed` rules out. -/
def restrict (S : Semantics C R ι W) (allowed : ι → W → (c : C) → R c → Prop) :
    Semantics C R ι W where
  answers i w c r w' := allowed i w c r ∧ S.answers i w c r w'
  progresses := S.progresses
  drifts := S.drifts

theorem shows_restrict {allowed : ι → W → (c : C) → R c → Prop} :
    Shows (S.restrict allowed) S id where
  answers ha := ha.2
  progresses := .inl
  drifts := .inl

/-- The same for the processes that act on the world.  To the others it may
answer anything, and it stays as it is. -/
def among (S : Semantics C R ι W) (acts : ι → Prop) : Semantics C R ι W where
  answers i w c r w' := (acts i ∧ S.answers i w c r w') ∨ (¬ acts i ∧ w' = w)
  progresses i w c w' := acts i ∧ S.progresses i w c w'
  drifts := S.drifts

/-! ### Serving -/

/-- The world answers process `i` event by event, and before an answer the
command may take effect in part. -/
inductive Drives (S : Semantics C R ι W) (i : ι) : W → Trace C R → W → Prop
  | nil (w) : Drives S i w [] w
  | progress {w w' w'' c r h} (progresses : S.progresses i w c w')
      (rest : Drives S i w' (⟨c, r⟩ :: h) w'') : Drives S i w (⟨c, r⟩ :: h) w''
  | cons {w w' w'' c r h} (answers : S.answers i w c r w') (rest : Drives S i w' h w'') :
      Drives S i w (⟨c, r⟩ :: h) w''

variable {i : ι} {w w' w'' : W} {v v' : V} {h h' : Trace C R}

theorem Drives.append (hw : S.Drives i w h w') (hw' : S.Drives i w' h' w'') :
    S.Drives i w (h ++ h') w'' := by
  induction hw with
  | nil => exact hw'
  | progress hp _ ih => exact .progress hp (ih hw')
  | cons ha _ ih => exact .cons ha (ih hw')

theorem Serves.among {acts : ι → Prop} (hi : acts i) (hw : S.Serves i w h w') :
    (S.among acts).Serves i w h w' := by
  induction hw with
  | nil => exact .nil _
  | cons answers _ ih => exact .cons (.inl ⟨hi, answers⟩) ih

/-- Where no answer is ruled out, ruling out makes no difference. -/
theorem Drives.restrict {allowed : ι → W → (c : C) → R c → Prop} (hw : S.Drives i w h w')
    (ha : ∀ e ∈ h, ∀ w, allowed i w e.cmd e.reply) : (S.restrict allowed).Drives i w h w' := by
  induction hw with
  | nil => exact .nil _
  | progress hp _ ih => exact .progress hp (ih ha)
  | @cons w₀ w₁ _ c r _ hr _ ih =>
      have hboth : (S.restrict allowed).answers i w₀ c r w₁ := ⟨ha _ List.mem_cons_self w₀, hr⟩
      exact .cons hboth (ih fun e he => ha e (List.mem_cons_of_mem _ he))

end Semantics

variable {S : Semantics C R ι W} {P : (i : ι) → Prog C R (α i)} {w : W}
  {s s' : Configuration C R W α}

/-! ### Processes that do not act -/

section Among

variable {acts : ι → Prop} [DecidablePred acts]

variable (P acts) in
/-- The processes that act, and the others at the beginning of their programs. -/
def Configuration.only (s : Configuration C R W α) : Configuration C R W α :=
  ⟨s.world, fun i => if acts i then s.procs i else ⟨[], P i⟩⟩

@[simp] theorem Configuration.only_world : (s.only P acts).world = s.world := rfl

theorem Configuration.only_procs {i : ι} (hi : acts i) : (s.only P acts).procs i = s.procs i :=
  if_pos hi

theorem Configuration.only_idle {i : ι} (hi : ¬ acts i) : (s.only P acts).procs i = ⟨[], P i⟩ :=
  if_neg hi

theorem Step.only {who : Option ι} (hstep : Step (S.among acts) s who s') :
    Step S (s.only P acts) who (s'.only P acts) ∨ s'.only P acts = s.only P acts := by
  cases hstep with
  | @answer _ i c r k waiting world moved others =>
      rcases world with ⟨hi, world⟩ | ⟨hi, world⟩
      · left
        refine .answer (k := k) ?_ world ?_ fun j hj => ?_
        · rw [Configuration.only_procs hi, waiting]
        · rw [Configuration.only_procs hi, Configuration.only_procs hi, moved]
        · simp only [Configuration.only, others j hj]
      · -- the one that has moved is not shown
        right
        have hprocs : (s'.only P acts).procs = (s.only P acts).procs := by
          funext j
          by_cases hj : acts j
          · have hne : j ≠ i := fun h => hi (h ▸ hj)
            rw [Configuration.only_procs hj, Configuration.only_procs hj, others j hne]
          · rw [Configuration.only_idle hj, Configuration.only_idle hj]
        show (⟨s'.world, (s'.only P acts).procs⟩ : Configuration C R W α) = _
        rw [hprocs, world]
        rfl
  | @progress _ i c k waiting world procs =>
      refine .inl (.progress (k := k) ?_ world.2 ?_)
      · rw [Configuration.only_procs world.1, waiting]
      · simp only [Configuration.only, procs]
  | drift world procs =>
      refine .inl (.drift world ?_)
      simp only [Configuration.only, procs]

theorem Steps.only (hrun : Steps (S.among acts) s s') :
    Steps S (s.only P acts) (s'.only P acts) := by
  induction hrun with
  | refl => exact .refl
  | tail _ hnext ih =>
      obtain ⟨who, hstep⟩ := hnext
      rcases hstep.only (P := P) with hshown | hsame
      · exact ih.tail ⟨who, hshown⟩
      · exact hsame ▸ ih

/-- **Bystanders.**  What is reachable is so without those that do not act. -/
theorem Reachable.among (hs : Reachable (S.among acts) P w s) : Reachable S P w (s.only P acts) := by
  have hstart : (start P w).only P acts = start P w := by
    show (⟨w, _⟩ : Configuration C R W α) = ⟨w, _⟩
    congr 1
    funext i
    exact ite_self _
  have hrun := Steps.only (P := P) hs
  rwa [hstart] at hrun

end Among

/-! ### Driving a process -/

/-- One process runs on its own, as the world drives it. -/
theorem Reachable.driven [DecidableEq ι] (hs : Reachable S P w s) {i : ι} {h : Trace C R}
    {q : Prog C R (α i)} {w' : W} (hq : Reaches (s.procs i).rest h q)
    (hw : S.Drives i s.world h w') :
    ∃ s', Reachable S P w s' ∧ s'.world = w' ∧ s'.procs i = ⟨(s.procs i).history ++ h, q⟩ ∧
      ∀ j, j ≠ i → s'.procs j = s.procs j := by
  generalize hv : s.world = v at hw
  induction hw generalizing s with
  | nil =>
      obtain ⟨-, rfl⟩ : True ∧ (s.procs i).rest = q := by
        generalize (s.procs i).rest = p at hq
        cases hq
        exact ⟨trivial, rfl⟩
      exact ⟨s, hs, hv, by rw [List.append_nil], fun _ _ => rfl⟩
  | @progress _ w₁ _ c r t hp _ ih =>
      obtain ⟨k, hrest, hk⟩ := hq.cons
      have hnext : Reachable S P w ⟨w₁, s.procs⟩ :=
        hs.tail ⟨some i, .progress hrest (hv ▸ hp) rfl⟩
      obtain ⟨s', hs', hworld, hprocs, hothers⟩ := ih hnext hq rfl
      exact ⟨s', hs', hworld, hprocs, hothers⟩
  | @cons _ w₁ _ c r t ha _ ih =>
      obtain ⟨k, hrest, hk⟩ := hq.cons
      have hnext := hs.answer hrest (hv ▸ ha)
      have hmoved : Function.update s.procs i ((s.procs i).advance c r k) i =
          (s.procs i).advance c r k := Function.update_self ..
      obtain ⟨s', hs', hworld, hprocs, hothers⟩ := ih hnext (by
        dsimp only
        rw [hmoved]
        exact hk) rfl
      refine ⟨s', hs', hworld, ?_, fun j hj => ?_⟩
      · rw [hprocs]
        dsimp only
        rw [hmoved, Process.advance, List.append_assoc]
        rfl
      · rw [hothers j hj]
        exact Function.update_of_ne hj ..

end Effect
