/-
DmlPact/Lib/System.lean

Programs run side by side over a shared world.  Each process is a program at
some point of its run; a step answers the command one process is waiting on,
lets that command take effect in part, or changes the world from outside:

    Step S s (some i) s'      process i moved
    Step S s none s'          the world moved

A process that is stopped is one that takes no further step, so every
statement about all reachable configurations is one about runs cut short
anywhere.
-/
import DmlPact.Lib.Program
import Mathlib.Logic.Function.Basic
import Mathlib.Logic.Relation

namespace Effect

variable {C : Type} {R : C → Type} {ι W : Type} {α : ι → Type}

/-- How a shared world treats the commands of its processes. -/
structure Semantics (C : Type) (R : C → Type) (ι W : Type) where
  /-- The command may be answered so, and the world becomes this. -/
  answers : ι → W → (c : C) → R c → W → Prop
  /-- The command may take effect in part without being answered yet. -/
  progresses : ι → W → C → W → Prop
  /-- The world may change by itself. -/
  drifts : W → W → Prop

namespace Semantics

/-- The world answers process `i` event by event, with nothing in between. -/
inductive Serves (S : Semantics C R ι W) (i : ι) : W → Trace C R → W → Prop
  | nil (w) : Serves S i w [] w
  | cons {w w' w'' c r h} (answers : S.answers i w c r w') (rest : Serves S i w' h w'') :
      Serves S i w (⟨c, r⟩ :: h) w''

variable {S : Semantics C R ι W} {i : ι} {w w' w'' : W} {h h' : Trace C R}

theorem Serves.append (hw : S.Serves i w h w') (hw' : S.Serves i w' h' w'') :
    S.Serves i w (h ++ h') w'' := by
  induction hw with
  | nil => exact hw'
  | cons answers _ ih => exact .cons answers (ih hw')

/-- Answers that leave the world as it is. -/
theorem Serves.of_quiet (hquiet : ∀ e ∈ h, S.answers i w e.cmd e.reply w) : S.Serves i w h w := by
  induction h with
  | nil => exact .nil w
  | cons e h ih =>
      exact .cons (hquiet e List.mem_cons_self) (ih fun e he => hquiet e (List.mem_cons_of_mem _ he))

end Semantics

/-- A process: what it has issued, and what is left of its program. -/
structure Process (C : Type) (R : C → Type) (α : Type) where
  history : Trace C R
  rest : Prog C R α

namespace Process

variable {β : Type}

/-- The process after its command has been answered. -/
def advance (p : Process C R β) (c : C) (r : R c) (k : R c → Prog C R β) : Process C R β :=
  ⟨p.history ++ [⟨c, r⟩], k r⟩

/-- The process has issued `c`, and may be waiting for the answer. -/
def Issued (p : Process C R β) (c : C) : Prop :=
  (∃ r, ⟨c, r⟩ ∈ p.history) ∨ ∃ k, p.rest = .call c k

/-- A command was issued at some point of the run. -/
theorem issued_reaches {p q : Prog C R β} {h : Trace C R} {c : C} (hr : Reaches p h q)
    (hc : (⟨h, q⟩ : Process C R β).Issued c) :
    ∃ t k, t <+: h ∧ Reaches p t (.call c k) := by
  rcases hc with ⟨r, he⟩ | ⟨k, rfl⟩
  · obtain ⟨t, t', rfl⟩ := List.append_of_mem he
    obtain ⟨q', hbefore, hafter⟩ := hr.split
    obtain ⟨k, rfl, -⟩ := hafter.cons
    exact ⟨t, k, List.prefix_append _ _, hbefore⟩
  · exact ⟨h, k, List.prefix_rfl, hr⟩

/-- A command that was issued was allowed against the history at that moment. -/
theorem issued_of_wp {G : Trace C R → C → Prop} {Q : Trace C R → β → Prop}
    {p q : Prog C R β} {h : Trace C R} {c : C} (hp : wp G Q p []) (hr : Reaches p h q)
    (hc : (⟨h, q⟩ : Process C R β).Issued c) : ∃ t, t <+: h ∧ G t c := by
  obtain ⟨t, k, ht, hreach⟩ := issued_reaches hr hc
  exact ⟨t, ht, (wp_iff.mp hp).1 t c k hreach⟩

end Process

variable (C R W α) in
/-- The world and the processes. -/
structure Configuration where
  world : W
  procs : (i : ι) → Process C R (α i)

/-- Every process at the beginning of its program. -/
def start (P : (i : ι) → Prog C R (α i)) (w : W) : Configuration C R W α := ⟨w, fun i => ⟨[], P i⟩⟩

/-- One step, of a process or of the world. -/
inductive Step (S : Semantics C R ι W) : Configuration C R W α → Option ι → Configuration C R W α → Prop
  | answer {s s' i c r k} (waiting : (s.procs i).rest = .call c k)
      (world : S.answers i s.world c r s'.world)
      (moved : s'.procs i = (s.procs i).advance c r k)
      (others : ∀ j, j ≠ i → s'.procs j = s.procs j) : Step S s (some i) s'
  | progress {s s' i c k} (waiting : (s.procs i).rest = .call c k)
      (world : S.progresses i s.world c s'.world) (procs : s'.procs = s.procs) :
      Step S s (some i) s'
  | drift {s s'} (world : S.drifts s.world s'.world) (procs : s'.procs = s.procs) :
      Step S s none s'

/-- Some steps, of whomever. -/
def Steps (S : Semantics C R ι W) : Configuration C R W α → Configuration C R W α → Prop :=
  Relation.ReflTransGen fun s s' => ∃ who, Step S s who s'

/-- A configuration that some interleaving leads to. -/
def Reachable (S : Semantics C R ι W) (P : (i : ι) → Prog C R (α i)) (w : W) :
    Configuration C R W α → Prop :=
  Relation.ReflTransGen (fun s s' => ∃ who, Step S s who s') (start P w)

section Rules

variable {S : Semantics C R ι W} {P : (i : ι) → Prog C R (α i)} {w : W} {s : Configuration C R W α}

/-- Each process of a reachable configuration is at a point of its own run. -/
theorem Reachable.reaches (hs : Reachable S P w s) (i : ι) :
    Reaches (P i) (s.procs i).history (s.procs i).rest := by
  induction hs with
  | refl => exact .refl _
  | tail _ hstep ih =>
      obtain ⟨who, hstep⟩ := hstep
      cases hstep with
      | @answer _ j c r k waiting world moved others =>
          by_cases hij : i = j
          · subst hij
            rw [moved]
            rw [waiting] at ih
            exact ih.snoc r
          · rw [others i hij]
            exact ih
      | progress waiting world procs => rw [procs]; exact ih
      | drift world procs => rw [procs]; exact ih

/-- **Invariants.**  What holds at the start, and is kept by every step of a
configuration that is reachable, holds of every reachable configuration. -/
theorem Reachable.invariant {Inv : Configuration C R W α → Prop} (hstart : Inv (start P w))
    (hstep : ∀ s s' who, Reachable S P w s → Inv s → Step S s who s' → Inv s')
    (hs : Reachable S P w s) : Inv s := by
  induction hs with
  | refl => exact hstart
  | tail hrun hnext ih =>
      obtain ⟨who, hnext⟩ := hnext
      exact hstep _ _ who hrun ih hnext

/-! ### Runs -/

variable {s' : Configuration C R W α}

theorem Reachable.run (hs : Reachable S P w s) (hrun : Steps S s s') : Reachable S P w s' :=
  Relation.ReflTransGen.trans hs hrun

/-- **Relations over runs.**  What relates the worlds around every step, and is
reflexive and transitive, relates the worlds around every run. -/
theorem Reachable.relates {Q : W → W → Prop} (hrefl : ∀ w, Q w w)
    (htrans : ∀ {w w' w''}, Q w w' → Q w' w'' → Q w w'')
    (hstep : ∀ s s' who, Reachable S P w s → Step S s who s' → Q s.world s'.world)
    (hs : Reachable S P w s) (hrun : Steps S s s') : Q s.world s'.world := by
  induction hrun with
  | refl => exact hrefl _
  | tail hbefore hnext ih =>
      obtain ⟨who, hnext⟩ := hnext
      exact htrans ih (hstep _ _ who (hs.run hbefore) hnext)

theorem Step.prefix_history {who : Option ι} (hstep : Step S s who s') (i : ι) :
    (s.procs i).history <+: (s'.procs i).history := by
  cases hstep with
  | answer waiting world moved others =>
      rename_i j c r k
      by_cases hij : i = j
      · subst hij
        rw [moved]
        exact List.prefix_append _ _
      · exact others i hij ▸ List.prefix_refl _
  | progress waiting world procs => exact procs ▸ List.prefix_refl _
  | drift world procs => exact procs ▸ List.prefix_refl _

/-- What a process has been answered stays. -/
theorem Steps.prefix_history (hrun : Steps S s s') (i : ι) :
    (s.procs i).history <+: (s'.procs i).history := by
  induction hrun with
  | refl => exact List.prefix_refl _
  | tail _ hnext ih =>
      obtain ⟨who, hnext⟩ := hnext
      exact ih.trans (hnext.prefix_history i)

/-- Process `i`, with the history `h`, gets the answer `e`. -/
structure Answered (S : Semantics C R ι W) (i : ι) (h : Trace C R) (e : Event C R)
    (s s' : Configuration C R W α) : Prop where
  history : (s.procs i).history = h
  answers : S.answers i s.world e.cmd e.reply s'.world
  extended : (s'.procs i).history = h ++ [e]
  step : Step S s (some i) s'

/-- **Moments.**  For every answer in a history there was the moment it was
given. -/
theorem Reachable.moment (hs : Reachable S P w s) {i : ι} {h h' : Trace C R} {e : Event C R}
    (hh : (s.procs i).history = h ++ e :: h') :
    ∃ s₁ s₂, Reachable S P w s₁ ∧ Answered S i h e s₁ s₂ ∧ Reachable S P w s₂ ∧ Steps S s₂ s := by
  induction hs generalizing h' with
  | refl => exact absurd hh (by simp [start])
  | @tail s₁ s hrun hnext ih =>
      obtain ⟨who, hstep⟩ := hnext
      -- a later step of the system leaves the moment where it was
      have hlater : (s₁.procs i).history = (s.procs i).history →
          ∃ s₂ s₃, Reachable S P w s₂ ∧ Answered S i h e s₂ s₃ ∧ Reachable S P w s₃ ∧
            Steps S s₃ s := by
        intro hsame
        obtain ⟨s₂, s₃, hs₂, hmoment, hs₃, hrun₃⟩ := ih (hsame.trans hh)
        exact ⟨s₂, s₃, hs₂, hmoment, hs₃, hrun₃.tail ⟨who, hstep⟩⟩
      cases hstep with
      | @answer _ j c r k waiting world moved others =>
          by_cases hij : i = j
          · subst hij
            have hhistory : (s₁.procs i).history ++ [⟨c, r⟩] = h ++ e :: h' := by
              rw [← hh, moved]
              rfl
            -- this is the answer itself, or one that came after it
            rcases List.eq_nil_or_concat h' with rfl | ⟨h', e', rfl⟩
            · obtain ⟨hbefore, he⟩ := List.append_inj' hhistory rfl
              obtain rfl := List.singleton_inj.mp he
              have hmoment : Step S s₁ (some i) s := .answer waiting world moved others
              refine ⟨s₁, s, hrun, ⟨hbefore, world, ?_, hmoment⟩, hrun.tail ⟨_, hmoment⟩, .refl⟩
              rw [hh]
            · rw [List.concat_eq_append, ← List.cons_append, ← List.append_assoc] at hhistory
              obtain ⟨hbefore, -⟩ := List.append_inj' hhistory rfl
              obtain ⟨s₂, s₃, hs₂, hmoment, hs₃, hrun₃⟩ := ih hbefore
              exact ⟨s₂, s₃, hs₂, hmoment, hs₃,
                hrun₃.tail ⟨_, .answer waiting world moved others⟩⟩
          · exact hlater (by rw [others i hij])
      | progress waiting world procs => exact hlater (by rw [procs])
      | drift world procs => exact hlater (by rw [procs])

section Schedule

variable [DecidableEq ι]

/-- One process gets its answer. -/
theorem Reachable.answer (hs : Reachable S P w s) {i : ι} {c : C} {r : R c}
    {k : R c → Prog C R (α i)} {w' : W} (waiting : (s.procs i).rest = .call c k)
    (hw : S.answers i s.world c r w') :
    Reachable S P w ⟨w', Function.update s.procs i ((s.procs i).advance c r k)⟩ :=
  hs.tail ⟨some i, .answer waiting hw (Function.update_self ..)
    fun _ hj => Function.update_of_ne hj ..⟩

/-- One process runs on its own, as the world answers it. -/
theorem Reachable.follow (hs : Reachable S P w s) {i : ι} {h : Trace C R} {p q : Prog C R (α i)}
    {w' : W} (hp : (s.procs i).rest = p) (hq : Reaches p h q) (hw : S.Serves i s.world h w') :
    Reachable S P w ⟨w', Function.update s.procs i ⟨(s.procs i).history ++ h, q⟩⟩ := by
  induction hq generalizing s with
  | refl p =>
      have hsame : Function.update s.procs i ⟨(s.procs i).history ++ [], p⟩ = s.procs := by
        rw [List.append_nil, ← hp]
        exact Function.update_eq_self i s.procs
      cases hw
      rw [hsame]
      exact hs
  | @call c k r t q hk ih =>
      cases hw with
      | cons answers rest =>
          have hnext := hs.answer hp answers
          have hmoved : Function.update s.procs i ((s.procs i).advance c r k) i =
              (s.procs i).advance c r k := Function.update_self ..
          have hrest := ih hnext (congrArg Process.rest hmoved) rest
          dsimp only at hrest
          rw [Function.update_idem, hmoved, Process.advance, List.append_assoc] at hrest
          exact hrest

/-- The configuration that this leads to. -/
theorem Reachable.followed (hs : Reachable S P w s) {i : ι} {h : Trace C R} {q : Prog C R (α i)}
    {w' : W} (hq : Reaches (s.procs i).rest h q) (hw : S.Serves i s.world h w') :
    ∃ s', Reachable S P w s' ∧ s'.world = w' ∧ s'.procs i = ⟨(s.procs i).history ++ h, q⟩ ∧
      ∀ j, j ≠ i → s'.procs j = s.procs j :=
  ⟨_, hs.follow rfl hq hw, rfl, Function.update_self .., fun _ hj => Function.update_of_ne hj ..⟩

/-- One process runs on its own, by answers that leave the world as it is. -/
theorem Reachable.along (hs : Reachable S P w s) {i : ι} {h : Trace C R} {p q : Prog C R (α i)}
    (hp : (s.procs i).rest = p) (hq : Reaches p h q)
    (hquiet : ∀ e ∈ h, S.answers i s.world e.cmd e.reply s.world) :
    Reachable S P w ⟨s.world, Function.update s.procs i ⟨(s.procs i).history ++ h, q⟩⟩ :=
  hs.follow hp hq (.of_quiet hquiet)

end Schedule

end Rules

end Effect
