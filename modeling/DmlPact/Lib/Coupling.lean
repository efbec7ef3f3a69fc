/-
DmlPact/Lib/Coupling.lean

Two runs side by side.  A view says which commands look alike, and which
answers to them do.  Two programs are coupled,

    Alike V p q

when they issue alike commands for as long as the answers are alike, and end in
the same value.  A program coupled with itself tells nobody which of two alike
answers it got.  `Alike.runs` is the two-run property, `Alike.bind` composes,
and `alike_of_within` says that a program is coupled with itself when the view
hides nothing of its commands.
-/
import DmlPact.Lib.Program

namespace Effect

variable {C : Type} {R : C → Type} {α β ε : Type}

/-- What an observer can tell apart. -/
structure View (C : Type) (R : C → Type) where
  cmds : C → C → Prop
  replies : Event C R → Event C R → Prop

namespace View

/-- Nothing of the command and of its answer is hidden. -/
def Clear (V : View C R) (c : C) : Prop :=
  V.cmds c c ∧ ∀ r r', V.replies ⟨c, r⟩ ⟨c, r'⟩ → r = r'

end View

/-- The programs issue alike commands while the answers are alike, and end
alike. -/
inductive Alike (V : View C R) : Prog C R α → Prog C R α → Prop
  | ret (a) : Alike V (.ret a) (.ret a)
  | crash : Alike V .crash .crash
  | call {c c' : C} {k : R c → Prog C R α} {k' : R c' → Prog C R α} (cmds : V.cmds c c')
      (rest : ∀ r r', V.replies ⟨c, r⟩ ⟨c', r'⟩ → Alike V (k r) (k' r')) :
      Alike V (.call c k) (.call c' k')

section Rules

variable {V : View C R} {p p' q q' : Prog C R α} {h h' : Trace C R}

/-- The rule of composition. -/
theorem Alike.bind {f f' : α → Prog C R β} (hp : Alike V p p')
    (hf : ∀ a, Alike V (f a) (f' a)) : Alike V (p >>= f) (p' >>= f') := by
  induction hp with
  | ret a => exact hf a
  | crash => exact .crash
  | call cmds _ ih => exact .call cmds ih

/-- A program whose commands the view does not touch is coupled with itself. -/
theorem alike_of_within (hp : Within V.Clear p) : Alike V p p := by
  induction p with
  | ret a => exact .ret a
  | crash => exact .crash
  | call c k ih =>
      obtain ⟨⟨hcmd, hreply⟩, hk⟩ := within_call.mp hp
      refine .call hcmd fun r r' hr => ?_
      obtain rfl := hreply r r' hr
      exact ih r (hk r)

/-- **Two runs.**  Answered alike wherever their commands are alike, two coupled
programs have issued alike commands and are still coupled. -/
theorem Alike.runs (hp : Alike V p p') (hr : Reaches p h q) (hr' : Reaches p' h' q')
    (hreplies : List.Forall₂ (fun e e' => V.cmds e.cmd e'.cmd → V.replies e e') h h') :
    List.Forall₂ (fun e e' => V.cmds e.cmd e'.cmd) h h' ∧ Alike V q q' := by
  induction hreplies generalizing p p' with
  | nil =>
      cases hr
      cases hr'
      exact ⟨.nil, hp⟩
  | @cons e e' h h' he _ ih =>
      obtain ⟨k, rfl, hk⟩ := hr.cons
      obtain ⟨k', rfl, hk'⟩ := hr'.cons
      cases hp with
      | call hcmd hrest =>
          obtain ⟨hissued, hleft⟩ := ih (hrest _ _ (he hcmd)) hk hk'
          exact ⟨.cons hcmd hissued, hleft⟩

variable {x x' : Fallible ε C R α} {f f' : α → Fallible ε C R β}

theorem Alike.run_bind (hx : Alike V x.run x'.run) (hf : ∀ a, Alike V (f a).run (f' a).run) :
    Alike V (x >>= f).run (x' >>= f').run := by
  rw [Effect.run_bind, Effect.run_bind]
  refine hx.bind fun r => ?_
  cases r with
  | ok a => exact hf a
  | error e => exact .ret _

end Rules

end Effect
