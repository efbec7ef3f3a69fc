/-
DmlPact/Lib/Crash.lean

Where a program crashes.  `Crashes K p` says that the trace of every run of `p`
that ends in a crash is in `K`, and `Steady p` that there is no such run.  A
class of traces that what comes before cannot leave (`Carried`) makes both
compositional.
-/
import DmlPact.Lib.Program

namespace Effect

open Prog

variable {C : Type} {R : C → Type} {α β ε ε' : Type} {K K' : Trace C R → Prop} {h : Trace C R}

/-- Every run of `p` that crashes has a trace in `K`. -/
def Crashes (K : Trace C R → Prop) (p : Prog C R α) : Prop := ∀ h, Reaches p h .crash → K h

/-- No run of `p` crashes. -/
def Steady (p : Prog C R α) : Prop := Crashes (fun _ => False) p

/-- More events in front do not lead out of `K`. -/
def Carried (K : Trace C R → Prop) : Prop := ∀ h t, K t → K (h ++ t)

/-! ### Runs that crash -/

theorem Reaches.bind_crash_iff {p : Prog C R α} {f : α → Prog C R β} :
    Reaches (p >>= f) h .crash ↔
      Reaches p h .crash ∨
        ∃ h₁ h₂ a, h = h₁ ++ h₂ ∧ Reaches p h₁ (.ret a) ∧ Reaches (f a) h₂ .crash := by
  constructor
  · intro hb
    rcases Reaches.of_bind hb with ⟨p', hp', hq⟩ | hdone
    · cases p' with
      | ret a => exact .inr ⟨h, [], a, (List.append_nil h).symm, hp', hq ▸ .refl _⟩
      | crash => exact .inl hp'
      | call c k => cases hq
    · exact .inr hdone
  · rintro (hp | ⟨h₁, h₂, a, rfl, hp, hf⟩)
    · exact hp.bind_left f
    · exact (hp.bind_left f).append hf

theorem Reaches.call_crash_iff {c : C} {k : R c → Prog C R α} :
    Reaches (.call c k) h .crash ↔ ∃ r t, h = ⟨c, r⟩ :: t ∧ Reaches (k r) t .crash := by
  constructor
  · intro hr
    cases hr with
    | @call _ _ r t _ hk => exact ⟨r, t, rfl, hk⟩
  · rintro ⟨r, t, rfl, hk⟩
    exact .call hk

/-- A sequence crashes in its first part, or after that has succeeded. -/
theorem Reaches.run_bind_crash_iff {x : Fallible ε C R α} {f : α → Fallible ε C R β} :
    Reaches (x >>= f).run h .crash ↔
      Reaches x.run h .crash ∨
        ∃ h₁ h₂ a, h = h₁ ++ h₂ ∧ Reaches x.run h₁ (.ret (.ok a)) ∧
          Reaches (f a).run h₂ .crash := by
  rw [Effect.run_bind, Reaches.bind_crash_iff]
  refine or_congr_right ⟨?_, ?_⟩
  · rintro ⟨h₁, h₂, r, rfl, hx, hf⟩
    cases r with
    | ok a => exact ⟨h₁, h₂, a, rfl, hx, hf⟩
    | error e => cases hf
  · rintro ⟨h₁, h₂, a, rfl, hx, hf⟩
    exact ⟨h₁, h₂, .ok a, rfl, hx, hf⟩

/-! ### Rules -/

theorem steady_ret (a : α) : Steady (.ret a : Prog C R α) := fun _ hr => by cases hr

theorem carried_false : Carried (fun _ : Trace C R => False) := fun _ _ hf => hf

namespace Crashes

theorem mono {p : Prog C R α} (hp : Crashes K p) (hK : ∀ h, K h → K' h) : Crashes K' p :=
  fun h hr => hK h (hp h hr)

theorem bind (hK : Carried K) {p : Prog C R α} {f : α → Prog C R β} (hp : Crashes K p)
    (hf : ∀ a, Crashes K (f a)) : Crashes K (p >>= f) := by
  intro h hr
  rcases Reaches.bind_crash_iff.mp hr with hx | ⟨h₁, h₂, a, rfl, -, hrest⟩
  · exact hp h hx
  · exact hK h₁ h₂ (hf a h₂ hrest)

/-- The rest may use what the first part has returned. -/
theorem run_bind (hK : Carried K) {x : Fallible ε C R α} {f : α → Fallible ε C R β}
    (hx : Crashes K x.run)
    (hf : ∀ h a, Reaches x.run h (.ret (.ok a)) → Crashes K (f a).run) :
    Crashes K (x >>= f).run := by
  intro h hr
  rcases Reaches.run_bind_crash_iff.mp hr with hfirst | ⟨h₁, h₂, a, rfl, hdone, hrest⟩
  · exact hx h hfirst
  · exact hK h₁ h₂ (hf h₁ a hdone h₂ hrest)

end Crashes

namespace Steady

theorem crashes {p : Prog C R α} (hp : Steady p) : Crashes K p := hp.mono fun _ => False.elim

/-- A sequence that crashes is past a part that cannot. -/
theorem past {x : Fallible ε C R α} {f : α → Fallible ε C R β} (hx : Steady x.run)
    (hr : Reaches (x >>= f).run h .crash) :
    ∃ h₁ h₂ a, h = h₁ ++ h₂ ∧ Reaches x.run h₁ (.ret (.ok a)) ∧ Reaches (f a).run h₂ .crash :=
  (Reaches.run_bind_crash_iff.mp hr).resolve_left (hx h)

theorem ask (c : C) : Steady (Prog.ask c : Prog C R (R c)) := by
  intro h hr
  obtain ⟨r, t, rfl, hk⟩ := Reaches.call_crash_iff.mp hr
  cases hk

theorem bind {x : Fallible ε C R α} {f : α → Fallible ε C R β} (hx : Steady x.run)
    (hf : ∀ a, Steady (f a).run) : Steady (x >>= f).run :=
  Crashes.run_bind carried_false hx fun _ a _ => hf a

theorem request (c : C) : Steady (Effect.request c : Fallible ε C R (R c)).run :=
  Crashes.bind carried_false (ask c) fun _ => steady_ret _

theorem pure (a : α) : Steady (Pure.pure a : Fallible ε C R α).run := steady_ret _

theorem throw (e : ε) : Steady (MonadExcept.throw e : Fallible ε C R α).run := steady_ret _

theorem ite {p : Prop} [Decidable p] {x y : Fallible ε C R α} (hx : Steady x.run)
    (hy : Steady y.run) : Steady (if p then x else y).run := by
  split
  · exact hx
  · exact hy

theorem attempt {x : Fallible ε C R α} (hx : Steady x.run) :
    Steady (Effect.attempt x : Fallible ε' C R _).run :=
  Crashes.bind carried_false hx fun _ => steady_ret _

end Steady

end Effect
