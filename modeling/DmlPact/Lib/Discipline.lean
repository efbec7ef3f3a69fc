/-
DmlPact/Lib/Discipline.lean

Disciplines: in which order commands may be issued, as a machine that reads
commands and answers.

    step s c r = some s'      in state s, c may be issued; answered r it leads to s'
    step s c r = none         in state s, c may not be issued

`Obeys D Q s p` says that the program `p`, started in state `s`, issues only
what `D` lets it, and returns only values that `Q` allows in the state it ends
in.  `Obeys.reaches` turns that into a fact about every run.
-/
import DmlPact.Lib.Program

namespace Effect

variable {C : Type} {R : C → Type} {σ α β ε ε' : Type}

structure Discipline (C : Type) (R : C → Type) (σ : Type) where
  step : σ → (c : C) → R c → Option σ

namespace Discipline

variable (D : Discipline C R σ)

/-- The state a trace leads to, if the machine can read it. -/
def run : σ → Trace C R → Option σ
  | s, [] => some s
  | s, e :: h => (D.step s e.cmd e.reply).bind fun s' => run s' h

/-- Every command is let through, and every value returned is allowed. -/
def Obeys (Q : σ → α → Prop) : σ → Prog C R α → Prop
  | s, .ret a => Q s a
  | _, .crash => True
  | s, .call c k => ∀ r, ∃ s', D.step s c r = some s' ∧ Obeys Q s' (k r)

/-- The same for a program that can fail, where only its values matter. -/
def Achieves (P : σ → α → Prop) (s : σ) (x : Fallible ε C R α) : Prop :=
  D.Obeys (fun s' r => ∀ a, r = .ok a → P s' a) s x.run

variable {D} {Q Q' : σ → α → Prop} {P : σ → α → Prop} {s : σ} {p q : Prog C R α} {h : Trace C R}

theorem run_append (s : σ) (h t : Trace C R) :
    D.run s (h ++ t) = (D.run s h).bind fun s' => D.run s' t := by
  induction h generalizing s with
  | nil => rfl
  | cons e h ih =>
      rw [List.cons_append, run, run, Option.bind_assoc]
      exact congrArg _ (funext ih)

/-- **Runs.**  The machine can read every run of an obedient program. -/
theorem Obeys.reaches (hp : D.Obeys Q s p) (hr : Reaches p h q) :
    ∃ s', D.run s h = some s' ∧ D.Obeys Q s' q := by
  induction hr generalizing s with
  | refl => exact ⟨s, rfl, hp⟩
  | @call c k r h q _ ih =>
      obtain ⟨s₁, hstep, hk⟩ := hp r
      obtain ⟨s', hrun, hq⟩ := ih hk
      refine ⟨s', ?_, hq⟩
      rw [run, hstep]
      exact hrun

theorem Obeys.mono (hp : D.Obeys Q s p) (h : ∀ s a, Q s a → Q' s a) : D.Obeys Q' s p := by
  induction p generalizing s with
  | ret a => exact h s a hp
  | crash => trivial
  | call c k ih =>
      intro r
      obtain ⟨s', hstep, hk⟩ := hp r
      exact ⟨s', hstep, ih r hk⟩

/-- The rule of composition. -/
theorem Obeys.bind {Q : σ → β → Prop} {f : α → Prog C R β}
    (hp : D.Obeys (fun s a => D.Obeys Q s (f a)) s p) : D.Obeys Q s (p >>= f) := by
  induction p generalizing s with
  | ret a => exact hp
  | crash => trivial
  | call c k ih =>
      intro r
      obtain ⟨s', hstep, hk⟩ := hp r
      exact ⟨s', hstep, ih r hk⟩

/-- A program whose commands leave the state as it is. -/
theorem obeys_of_within {S : C → Prop} (hp : Within S p)
    (hquiet : ∀ c, S c → ∀ r, D.step s c r = some s) :
    D.Obeys (fun s' a => s' = s ∧ ∃ h, Reaches p h (.ret a)) s p := by
  induction p with
  | ret a => exact ⟨rfl, [], .refl _⟩
  | crash => trivial
  | call c k ih =>
      obtain ⟨hc, hk⟩ := within_call.mp hp
      refine fun r => ⟨s, hquiet c hc r, (ih r (hk r)).mono fun s' a ha => ?_⟩
      obtain ⟨hs, h, hr⟩ := ha
      exact ⟨hs, ⟨c, r⟩ :: h, .call hr⟩

section Fallible

variable {x : Fallible ε C R α} {P' : σ → β → Prop} {f : α → Fallible ε C R β}

theorem Achieves.bind (hx : D.Achieves (fun s a => D.Achieves P' s (f a)) s x) :
    D.Achieves P' s (x >>= f) := by
  unfold Achieves
  rw [run_bind]
  refine Obeys.bind (Obeys.mono hx fun s r hr => ?_)
  cases r with
  | ok a => exact hr a rfl
  | error e => exact fun _ he => nomatch he

theorem Achieves.mono {P₂ : σ → α → Prop} (hx : D.Achieves P s x) (h : ∀ s a, P s a → P₂ s a) :
    D.Achieves P₂ s x :=
  Obeys.mono hx fun s _ hr a ha => h s a (hr a ha)

theorem achieves_pure {a : α} (ha : P s a) : D.Achieves P s (pure a : Fallible ε C R α) := by
  rintro _ ⟨⟩
  exact ha

theorem achieves_throw {e : ε} : D.Achieves P s (throw e : Fallible ε C R α) :=
  fun _ he => nomatch he

theorem achieves_ite {b : Prop} [Decidable b] {x y : Fallible ε C R α}
    (hx : b → D.Achieves P s x) (hy : ¬ b → D.Achieves P s y) :
    D.Achieves P s (if b then x else y) := by
  split
  · exact hx ‹_›
  · exact hy ‹_›

/-- One command, and then the rest from the state that the answer leads to. -/
theorem achieves_request {c : C} {f : R c → Fallible ε C R β}
    (h : ∀ r, ∃ s', D.step s c r = some s' ∧ D.Achieves P' s' (f r)) :
    D.Achieves P' s ((request c : Fallible ε C R (R c)) >>= f) := h

theorem achieves_of_within {S : C → Prop} (hx : Within S x.run)
    (hquiet : ∀ c, S c → ∀ r, D.step s c r = some s) :
    D.Achieves (fun s' a => s' = s ∧ ∃ h, Reaches x.run h (.ret (.ok a))) s x := by
  refine (obeys_of_within hx hquiet).mono fun s' r hr a ha => ?_
  subst ha
  exact hr

end Fallible

end Discipline

end Effect
