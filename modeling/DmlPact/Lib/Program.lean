/-
DmlPact/Lib/Program.lean

Programs that talk to a world, as trees.  A program is a value it returns, a
crash, or a command `c` followed by one continuation for every answer in
`R c`.  The answers are chosen by the world, so one tree holds every run.

    Reaches p h q

says that `p`, answered as the trace `h` records, has become `q`.  A complete
run ends in `ret a`; a run cut short at any point ends in whatever is left,
and the command a run is about to issue is the one at the root of what is
left.

    wp G Q p h

is the weakest precondition of `p` with the history `h` behind it: every
command issued satisfies `G` against the history at that moment, and every
value returned satisfies `Q` against the history at the end.  `wp_iff` ties it
to `Reaches`, and `wp_bind` lets a sequence be proved one part at a time.
-/
import Mathlib.Data.List.Basic
import Mathlib.Logic.Basic

namespace Effect

/-- A program issuing commands in `C`, answered in `R c`, returning `α`. -/
inductive Prog (C : Type) (R : C → Type) (α : Type) : Type
  | ret (a : α)
  | crash
  | call (c : C) (k : R c → Prog C R α)

variable {C : Type} {R : C → Type} {α β γ ε : Type}

namespace Prog

/-- Run `p`, then continue with `f` on the value it returned. -/
protected def bind : Prog C R α → (α → Prog C R β) → Prog C R β
  | ret a, f => f a
  | crash, _ => crash
  | call c k, f => call c fun r => (k r).bind f

instance : Monad (Prog C R) where
  pure := ret
  bind := Prog.bind

/-- Issue one command and return its answer. -/
def ask (c : C) : Prog C R (R c) := call c ret

@[simp] theorem pure_eq (a : α) : (pure a : Prog C R α) = ret a := rfl

@[simp] theorem ret_bind (a : α) (f : α → Prog C R β) : (ret a >>= f) = f a := rfl

@[simp] theorem crash_bind (f : α → Prog C R β) : ((crash : Prog C R α) >>= f) = crash := rfl

@[simp] theorem call_bind (c : C) (k : R c → Prog C R α) (f : α → Prog C R β) :
    (call c k >>= f) = call c fun r => k r >>= f := rfl

@[simp] theorem ask_bind (c : C) (f : R c → Prog C R β) : (ask c >>= f) = call c f := rfl

theorem bind_ret (p : Prog C R α) : (p >>= ret) = p := by
  induction p with
  | ret a => rfl
  | crash => rfl
  | call c k ih => simp only [call_bind, ih]

theorem bind_assoc (p : Prog C R α) (f : α → Prog C R β) (g : β → Prog C R γ) :
    (p >>= f >>= g) = p >>= fun a => f a >>= g := by
  induction p with
  | ret a => rfl
  | crash => rfl
  | call c k ih => simp only [call_bind, ih]

instance : LawfulMonad (Prog C R) :=
  LawfulMonad.mk' _ (fun p => bind_ret p) (fun _ _ => rfl) bind_assoc

end Prog

/-! ### Traces -/

/-- A command together with the answer it got. -/
structure Event (C : Type) (R : C → Type) where
  cmd : C
  reply : R cmd

/-- What a program has issued so far, oldest first. -/
abbrev Trace (C : Type) (R : C → Type) := List (Event C R)

open Prog

/-- `Reaches p h q`: answered as `h` records, `p` has become `q`. -/
inductive Reaches : Prog C R α → Trace C R → Prog C R α → Prop
  | refl (p) : Reaches p [] p
  | call {c : C} {k : R c → Prog C R α} {r h q} :
      Reaches (k r) h q → Reaches (.call c k) (⟨c, r⟩ :: h) q

namespace Reaches

/-- One more answer at the end of a run. -/
theorem snoc {p : Prog C R α} {h : Trace C R} {c : C} {k : R c → Prog C R α}
    (hr : Reaches p h (.call c k)) (r : R c) : Reaches p (h ++ [⟨c, r⟩]) (k r) := by
  generalize hq : Prog.call c k = q at hr
  induction hr with
  | refl => subst hq; exact .call (.refl _)
  | call _ ih => exact .call (ih hq)

theorem append {p q s : Prog C R α} {h h' : Trace C R} (hp : Reaches p h q)
    (hq : Reaches q h' s) : Reaches p (h ++ h') s := by
  induction hp with
  | refl => exact hq
  | call _ ih => exact .call (ih hq)

/-- A prefix of a run is a run. -/
theorem split {p s : Prog C R α} {h h' : Trace C R} (hp : Reaches p (h ++ h') s) :
    ∃ q, Reaches p h q ∧ Reaches q h' s := by
  induction h generalizing p with
  | nil => exact ⟨p, .refl p, hp⟩
  | cons e h ih =>
      cases hp with
      | call hk =>
          obtain ⟨q, hq, hs⟩ := ih hk
          exact ⟨q, .call hq, hs⟩

/-- Of two runs whose answers agree wherever they have issued the same command
behind the same past, one is a prefix of the other. -/
theorem prefix_or_prefix {p q q' : Prog C R α} {h t : Trace C R} (hp : Reaches p h q)
    (ht : Reaches p t q')
    (hagree : ∀ past e e' rest rest', h = past ++ e :: rest → t = past ++ e' :: rest' →
      e.cmd = e'.cmd → e = e') : h <+: t ∨ t <+: h := by
  induction hp generalizing t with
  | refl => exact .inl List.nil_prefix
  | @call c k r h q hk ih =>
      cases ht with
      | refl => exact .inr List.nil_prefix
      | @call _ _ r' t _ hk' =>
          obtain rfl : r = r' := by
            have he := hagree [] ⟨c, r⟩ ⟨c, r'⟩ h t rfl rfl rfl
            simpa using he
          rcases ih hk' fun past e e' rest rest' hh htt hc =>
            hagree (⟨c, r⟩ :: past) e e' rest rest' (by rw [hh]; rfl) (by rw [htt]; rfl) hc with
            hshort | hlong
          · exact .inl (List.cons_prefix_cons.mpr ⟨rfl, hshort⟩)
          · exact .inr (List.cons_prefix_cons.mpr ⟨rfl, hlong⟩)

/-- What a program does after a trace is determined by the trace. -/
theorem unique {p q q' : Prog C R α} {h : Trace C R} (hq : Reaches p h q)
    (hq' : Reaches p h q') : q = q' := by
  induction hq with
  | refl => cases hq'; rfl
  | call _ ih => cases hq' with | call hk => exact ih hk

/-- What is left of a longer run is a run from where the shorter one has come. -/
theorem after {p q q' : Prog C R α} {h h' : Trace C R} (hq : Reaches p h q)
    (hq' : Reaches p (h ++ h') q') : Reaches q h' q' := by
  obtain ⟨s, hs, hrest⟩ := hq'.split
  rwa [hq.unique hs]

/-- A run of the first part, still going, is a run of the sequence. -/
theorem bind_left {p q : Prog C R α} {h : Trace C R} (hp : Reaches p h q)
    (f : α → Prog C R β) : Reaches (p >>= f) h (q >>= f) := by
  induction hp with
  | refl => exact .refl _
  | call _ ih => exact .call ih

/-- A run of a sequence is inside its first part, or has finished it. -/
theorem of_bind {p : Prog C R α} {f : α → Prog C R β} {h : Trace C R} {q : Prog C R β}
    (hb : Reaches (p >>= f) h q) :
    (∃ p', Reaches p h p' ∧ q = p' >>= f) ∨
      ∃ h₁ h₂ a, h = h₁ ++ h₂ ∧ Reaches p h₁ (.ret a) ∧ Reaches (f a) h₂ q := by
  induction p generalizing h with
  | ret a => exact .inr ⟨[], h, a, rfl, .refl _, hb⟩
  | crash =>
      cases hb with
      | refl => exact .inl ⟨.crash, .refl _, rfl⟩
  | call c k ih =>
      cases hb with
      | refl => exact .inl ⟨.call c k, .refl _, rfl⟩
      | call hk =>
          rcases ih _ hk with ⟨p', hp', rfl⟩ | ⟨h₁, h₂, a, rfl, h₁r, h₂r⟩
          · exact .inl ⟨p', .call hp', rfl⟩
          · exact .inr ⟨_ :: h₁, h₂, a, rfl, .call h₁r, h₂r⟩

/-- A sequence returns exactly when its first part does and then its second. -/
theorem bind_ret_iff {p : Prog C R α} {f : α → Prog C R β} {h : Trace C R} {b : β} :
    Reaches (p >>= f) h (.ret b) ↔
      ∃ h₁ h₂ a, h = h₁ ++ h₂ ∧ Reaches p h₁ (.ret a) ∧ Reaches (f a) h₂ (.ret b) := by
  constructor
  · intro hb
    rcases of_bind hb with ⟨p', hp', hq⟩ | hdone
    · cases p' with
      | ret a => exact ⟨h, [], a, (List.append_nil h).symm, hp', hq ▸ .refl _⟩
      | crash => cases hq
      | call c k => cases hq
    · exact hdone
  · rintro ⟨h₁, h₂, a, rfl, hp, hf⟩
    exact (hp.bind_left f).append hf

@[simp] theorem ret_iff {a : α} {h : Trace C R} {q : Prog C R α} :
    Reaches (.ret a) h q ↔ h = [] ∧ q = .ret a := by
  constructor
  · rintro ⟨⟩; exact ⟨rfl, rfl⟩
  · rintro ⟨rfl, rfl⟩; exact .refl _

theorem crash_iff {h : Trace C R} {q : Prog C R α} :
    Reaches .crash h q ↔ h = [] ∧ q = .crash := by
  constructor
  · rintro ⟨⟩; exact ⟨rfl, rfl⟩
  · rintro ⟨rfl, rfl⟩; exact .refl _

@[simp] theorem crash_ret_iff {h : Trace C R} {a : α} :
    Reaches (.crash : Prog C R α) h (.ret a) ↔ False := by
  rw [crash_iff]
  exact ⟨nofun, False.elim⟩

/-- A program that starts with a command and has returned got an answer to it
and returned from there. -/
theorem call_ret_iff {c : C} {k : R c → Prog C R α} {h : Trace C R} {a : α} :
    Reaches (.call c k) h (.ret a) ↔ ∃ r t, h = ⟨c, r⟩ :: t ∧ Reaches (k r) t (.ret a) := by
  constructor
  · intro hr
    cases hr with
    | @call _ _ r t _ hk => exact ⟨r, t, rfl, hk⟩
  · rintro ⟨r, t, rfl, hk⟩
    exact .call hk

/-- The first event of a run is the answer to the command at its root. -/
theorem cons {p q : Prog C R α} {e : Event C R} {h : Trace C R} (hr : Reaches p (e :: h) q) :
    ∃ k, p = .call e.cmd k ∧ Reaches (k e.reply) h q := by
  cases hr with
  | @call _ k _ _ _ hk => exact ⟨k, rfl, hk⟩

/-- A program that starts with a command and is now about to issue one has not
moved, or is past the first. -/
theorem call_call_iff {c d : C} {k : R c → Prog C R α} {k' : R d → Prog C R α}
    {h : Trace C R} :
    Reaches (.call c k) h (.call d k') ↔
      (h = [] ∧ Prog.call c k = .call d k') ∨
        ∃ r t, h = ⟨c, r⟩ :: t ∧ Reaches (k r) t (.call d k') := by
  constructor
  · intro hr
    cases hr with
    | refl => exact .inl ⟨rfl, rfl⟩
    | @call _ _ r t _ hk => exact .inr ⟨r, t, rfl, hk⟩
  · rintro (⟨rfl, hq⟩ | ⟨r, t, rfl, hk⟩)
    · rw [hq]; exact .refl _
    · exact .call hk

end Reaches

/-! ### Weakest preconditions -/

/-- With `h` behind it, `p` issues only commands that `G` allows at that
moment, and returns only values that `Q` allows at the end. -/
def wp (G : Trace C R → C → Prop) (Q : Trace C R → α → Prop) :
    Prog C R α → Trace C R → Prop
  | .ret a, h => Q h a
  | .crash, _ => True
  | .call c k, h => G h c ∧ ∀ r, wp G Q (k r) (h ++ [⟨c, r⟩])

section Rules

variable {G G' : Trace C R → C → Prop} {Q Q' : Trace C R → α → Prop}

@[simp] theorem wp_ret (a : α) (h : Trace C R) : wp G Q (.ret a) h ↔ Q h a := Iff.rfl

@[simp] theorem wp_pure (a : α) (h : Trace C R) : wp G Q (pure a) h ↔ Q h a := Iff.rfl

@[simp] theorem wp_crash (h : Trace C R) : wp G Q (.crash : Prog C R α) h := trivial

theorem wp_call (c : C) (k : R c → Prog C R α) (h : Trace C R) :
    wp G Q (.call c k) h ↔ G h c ∧ ∀ r, wp G Q (k r) (h ++ [⟨c, r⟩]) := Iff.rfl

/-- Consequence: weaken what is asked of the commands and of the results. -/
theorem wp_mono {p : Prog C R α} {h : Trace C R} (hp : wp G Q p h)
    (hG : ∀ h c, G h c → G' h c) (hQ : ∀ h a, Q h a → Q' h a) : wp G' Q' p h := by
  induction p generalizing h with
  | ret a => exact hQ h a hp
  | crash => trivial
  | call c k ih => exact ⟨hG h c hp.1, fun r => ih r (hp.2 r)⟩

/-- The rule of composition. -/
theorem wp_bind {Q : Trace C R → β → Prop} {p : Prog C R α} {f : α → Prog C R β}
    {h : Trace C R} :
    wp G Q (p >>= f) h ↔ wp G (fun h a => wp G Q (f a) h) p h := by
  induction p generalizing h with
  | ret a => exact Iff.rfl
  | crash => exact Iff.rfl
  | call c k ih => exact and_congr_right fun _ => forall_congr' fun r => ih r

/-- `wp` is exactly a statement about every run. -/
theorem wp_iff {p : Prog C R α} {h : Trace C R} :
    wp G Q p h ↔
      (∀ t c k, Reaches p t (.call c k) → G (h ++ t) c) ∧
      (∀ t a, Reaches p t (.ret a) → Q (h ++ t) a) := by
  induction p generalizing h with
  | ret a =>
      constructor
      · intro hq
        refine ⟨fun t c k hr => ?_, fun t b hr => ?_⟩
        · cases hr
        · obtain ⟨rfl, hb⟩ := Reaches.ret_iff.mp hr
          cases hb
          simpa using hq
      · rintro ⟨-, hq⟩
        simpa using hq [] a (.refl _)
  | crash =>
      refine ⟨fun _ => ⟨fun t c k hr => ?_, fun t a hr => ?_⟩, fun _ => trivial⟩
      · cases hr
      · cases hr
  | call c k ih =>
      constructor
      · rintro ⟨hg, hk⟩
        refine ⟨fun t c' k' hr => ?_, fun t a hr => ?_⟩
        · cases hr with
          | refl => simpa using hg
          | @call _ _ r t' _ hk' => simpa using (ih r |>.mp (hk r)).1 t' c' k' hk'
        · cases hr with
          | @call _ _ r t' _ hk' => simpa using (ih r |>.mp (hk r)).2 t' a hk'
      · rintro ⟨hg, hq⟩
        refine ⟨by simpa using hg [] c k (.refl _), fun r => (ih r).mpr ⟨?_, ?_⟩⟩
        · intro t c' k' hr
          simpa using hg (⟨c, r⟩ :: t) c' k' (.call hr)
        · intro t a hr
          simpa using hq (⟨c, r⟩ :: t) a (.call hr)

end Rules

/-! ### Programs confined to a class of commands -/

/-- `p` never issues a command outside `S`. -/
def Within (S : C → Prop) (p : Prog C R α) : Prop :=
  wp (fun _ c => S c) (fun _ _ => True) p []

theorem within_iff {S : C → Prop} {p : Prog C R α} :
    Within S p ↔ ∀ t c k, Reaches p t (.call c k) → S c := by
  simp [Within, wp_iff]

@[simp] theorem within_ret {S : C → Prop} (a : α) :
    Within S (.ret a : Prog C R α) := trivial

@[simp] theorem within_crash {S : C → Prop} : Within S (.crash : Prog C R α) := trivial

theorem within_call {S : C → Prop} {c : C} {k : R c → Prog C R α} :
    Within S (.call c k) ↔ S c ∧ ∀ r, Within S (k r) := by
  simp only [within_iff]
  constructor
  · intro h
    exact ⟨h [] c k (.refl _), fun r t c' k' hr => h (⟨c, r⟩ :: t) c' k' (.call hr)⟩
  · rintro ⟨hc, hk⟩ t c' k' hr
    cases hr with
    | refl => exact hc
    | call hr' => exact hk _ _ c' k' hr'

theorem within_ask {S : C → Prop} {c : C} (hc : S c) :
    Within S (ask c : Prog C R (R c)) := within_call.mpr ⟨hc, fun r => within_ret r⟩

theorem Within.bind {S : C → Prop} {p : Prog C R α} {f : α → Prog C R β}
    (hp : Within S p) (hf : ∀ a, Within S (f a)) : Within S (p >>= f) := by
  induction p with
  | ret a => exact hf a
  | crash => trivial
  | call c k ih =>
      obtain ⟨hc, hk⟩ := within_call.mp hp
      exact within_call.mpr ⟨hc, fun r => ih r (hk r)⟩

theorem Within.mono {S S' : C → Prop} {p : Prog C R α} (hp : Within S p)
    (h : ∀ c, S c → S' c) : Within S' p :=
  within_iff.mpr fun t c k hr => h c (within_iff.mp hp t c k hr)

/-- Every event of a confined program's run carries an allowed command. -/
theorem Within.events {S : C → Prop} {p q : Prog C R α} {h : Trace C R}
    (hp : Within S p) (hr : Reaches p h q) : ∀ e ∈ h, S e.cmd := by
  induction hr with
  | refl => simp
  | call _ ih =>
      obtain ⟨hc, hk⟩ := within_call.mp hp
      intro e he
      rcases List.mem_cons.mp he with rfl | he
      · exact hc
      · exact ih (hk _) e he

/-- What a confined program leaves behind is confined. -/
theorem Within.of_reaches {S : C → Prop} {p q : Prog C R α} {h : Trace C R}
    (hp : Within S p) (hr : Reaches p h q) : Within S q := by
  induction hr with
  | refl => exact hp
  | call _ ih => exact ih ((within_call.mp hp).2 _)

/-- A confined part of a sequence: the commands before one of its commands, and
the run that it returned from, are confined too. -/
theorem wp_of_within {S : C → Prop} {G : Trace C R → C → Prop}
    {Q : Trace C R → α → Prop} {p : Prog C R α} {h : Trace C R} (hp : Within S p)
    (hG : ∀ t c, (∀ e ∈ t, S e.cmd) → S c → G (h ++ t) c)
    (hQ : ∀ t a, (∀ e ∈ t, S e.cmd) → Reaches p t (.ret a) → Q (h ++ t) a) :
    wp G Q p h :=
  wp_iff.mpr ⟨fun t c k hr => hG t c (hp.events hr) (within_iff.mp hp t c k hr),
    fun t a hr => hQ t a (hp.events hr) hr⟩

/-- What every allowed command keeps true of the history stays true. -/
theorem wp_trace {G : Trace C R → C → Prop} {Q : Trace C R → α → Prop} {I : Trace C R → Prop}
    {p q : Prog C R α} {h t : Trace C R} (hp : wp G Q p h) (hI : I h)
    (hstep : ∀ h c r, I h → G h c → I (h ++ [⟨c, r⟩])) (hr : Reaches p t q) : I (h ++ t) := by
  induction hr generalizing h with
  | refl => simpa using hI
  | @call c k r t q hk ih =>
      obtain ⟨hg, hrest⟩ := hp
      have hnext := ih (hrest r) (hstep h c r hI hg)
      simpa using hnext

/-! ### Programs that can fail -/

/-- A program that returns a value or an error.  `throw` and `←` behave as
`return Err(..)` and `?` do. -/
abbrev Fallible (ε : Type) (C : Type) (R : C → Type) (α : Type) := ExceptT ε (Prog C R) α

/-- Issue one command inside a program that can fail. -/
def request {ε : Type} (c : C) : Fallible ε C R (R c) := ExceptT.lift (ask c)

/-- Catch the error of `x` as a value, as matching on a `Result` does. -/
def attempt {ε ε' : Type} (x : Fallible ε C R α) : Fallible ε' C R (Except ε α) :=
  ExceptT.lift x.run

section Fallible

variable {G : Trace C R → C → Prop} {h : Trace C R}

@[simp] theorem run_request (c : C) :
    (request c : Fallible ε C R (R c)).run = ask c >>= fun r => Prog.ret (.ok r) := rfl

@[simp] theorem run_attempt {ε' : Type} (x : Fallible ε C R α) :
    (attempt x : Fallible ε' C R _).run = x.run >>= fun r => Prog.ret (.ok r) := rfl

@[simp] theorem run_pure (a : α) : (pure a : Fallible ε C R α).run = Prog.ret (.ok a) := rfl

@[simp] theorem run_throw (e : ε) :
    (throw e : Fallible ε C R α).run = Prog.ret (.error e) := rfl

/-- What `?` does to a result: carry on with a value, pass an error up. -/
def onOk (f : α → Fallible ε C R β) : Except ε α → Prog C R (Except ε β)
  | .ok a => (f a).run
  | .error e => .ret (.error e)

@[simp] theorem onOk_ok (f : α → Fallible ε C R β) (a : α) : onOk f (.ok a) = (f a).run := rfl

@[simp] theorem onOk_error (f : α → Fallible ε C R β) (e : ε) :
    onOk f (.error e) = .ret (.error e) := rfl

theorem run_bind (x : Fallible ε C R α) (f : α → Fallible ε C R β) :
    (x >>= f).run = x.run >>= onOk f := by
  refine congrArg (x.run >>= ·) (funext fun r => ?_)
  cases r <;> rfl

@[simp] theorem request_bind (c : C) (f : R c → Fallible ε C R β) :
    ((request c : Fallible ε C R (R c)) >>= f).run = .call c fun r => (f r).run := rfl

/-- A failing program succeeded exactly when each of its parts did. -/
theorem Reaches.run_bind_ok_iff {x : Fallible ε C R α} {f : α → Fallible ε C R β} {b : β} :
    Reaches (x >>= f).run h (.ret (.ok b)) ↔
      ∃ h₁ h₂ a, h = h₁ ++ h₂ ∧ Reaches x.run h₁ (.ret (.ok a)) ∧
        Reaches (f a).run h₂ (.ret (.ok b)) := by
  rw [run_bind, Reaches.bind_ret_iff]
  constructor
  · rintro ⟨h₁, h₂, r, rfl, hx, hf⟩
    cases r with
    | ok a => exact ⟨h₁, h₂, a, rfl, hx, hf⟩
    | error e =>
        obtain ⟨-, hq⟩ := Reaches.ret_iff.mp hf
        cases hq
  · rintro ⟨h₁, h₂, a, rfl, hx, hf⟩
    exact ⟨h₁, h₂, .ok a, rfl, hx, hf⟩

/-- A sequence has returned: its first part failed, and that is the result, or
it succeeded and the rest has returned. -/
theorem Reaches.run_bind_ret_iff {x : Fallible ε C R α} {f : α → Fallible ε C R β}
    {r : Except ε β} :
    Reaches (x >>= f).run h (.ret r) ↔
      (∃ e, r = .error e ∧ Reaches x.run h (.ret (.error e))) ∨
        ∃ h₁ h₂ a, h = h₁ ++ h₂ ∧ Reaches x.run h₁ (.ret (.ok a)) ∧
          Reaches (f a).run h₂ (.ret r) := by
  rw [run_bind, Reaches.bind_ret_iff]
  constructor
  · rintro ⟨h₁, h₂, first, rfl, hx, hf⟩
    cases first with
    | ok a => exact .inr ⟨h₁, h₂, a, rfl, hx, hf⟩
    | error e =>
        obtain ⟨rfl, hq⟩ := Reaches.ret_iff.mp hf
        cases hq
        rw [List.append_nil]
        exact .inl ⟨e, rfl, hx⟩
  · rintro (⟨e, rfl, hx⟩ | ⟨h₁, h₂, a, rfl, hx, hf⟩)
    · exact ⟨h, [], .error e, (List.append_nil h).symm, hx, .refl _⟩
    · exact ⟨h₁, h₂, .ok a, rfl, hx, hf⟩

/-- Composition, where only what is issued matters: the rest runs if the first
part succeeds. -/
theorem wp_run_bind {x : Fallible ε C R α} {f : α → Fallible ε C R β}
    (hx : wp G (fun h r => ∀ a, r = .ok a → wp G (fun _ _ => True) (f a).run h) x.run h) :
    wp G (fun _ _ => True) (x >>= f).run h := by
  rw [Effect.run_bind, wp_bind]
  refine wp_mono hx (fun _ _ hg => hg) fun h r hr => ?_
  cases r with
  | ok a => exact hr a rfl
  | error e => trivial

/-- After the first part has succeeded, the rest is what runs. -/
theorem Reaches.bind_ok {x : Fallible ε C R α} {a : α} (hx : Reaches x.run h (.ret (.ok a)))
    (f : α → Fallible ε C R β) : Reaches (x >>= f).run h (f a).run := by
  rw [Effect.run_bind]
  exact hx.bind_left (onOk f)

/-! ### Successful runs, by the shape of the program -/

section Ok

variable {b : β}

theorem ok_request {c : C} {f : R c → Fallible ε C R β} :
    Reaches ((request c : Fallible ε C R (R c)) >>= f).run h (.ret (.ok b)) ↔
      ∃ r t, h = ⟨c, r⟩ :: t ∧ Reaches (f r).run t (.ret (.ok b)) := by
  rw [request_bind, Reaches.call_ret_iff]

theorem ok_request_last {c : C} {r : R c} :
    Reaches (request c : Fallible ε C R (R c)).run h (.ret (.ok r)) ↔ h = [⟨c, r⟩] := by
  rw [run_request, Prog.ask_bind, Reaches.call_ret_iff]
  constructor
  · rintro ⟨r', t, rfl, hr⟩
    obtain ⟨rfl, hq⟩ := Reaches.ret_iff.mp hr
    cases hq
    rfl
  · rintro rfl
    exact ⟨r, [], rfl, .refl _⟩

theorem ok_throw {e : ε} :
    Reaches (throw e : Fallible ε C R β).run h (.ret (.ok b)) ↔ False := by
  rw [run_throw, Reaches.ret_iff]
  simp

theorem ok_pure {a : β} :
    Reaches (pure a : Fallible ε C R β).run h (.ret (.ok b)) ↔ h = [] ∧ b = a := by
  rw [run_pure, Reaches.ret_iff, Prog.ret.injEq, Except.ok.injEq]

theorem ok_ite {p : Prop} [Decidable p] {x y : Fallible ε C R β} :
    Reaches (if p then x else y).run h (.ret (.ok b)) ↔
      (p ∧ Reaches x.run h (.ret (.ok b))) ∨ (¬ p ∧ Reaches y.run h (.ret (.ok b))) := by
  by_cases hp : p
  · rw [if_pos hp]
    exact ⟨fun hx => .inl ⟨hp, hx⟩, fun hx => hx.elim And.right fun hn => absurd hp hn.1⟩
  · rw [if_neg hp]
    exact ⟨fun hy => .inr ⟨hp, hy⟩, fun hy => hy.elim (fun hn => absurd hn.1 hp) And.right⟩

/-- Passing a test that throws when `p` holds. -/
theorem ok_unless {p : Prop} [Decidable p] {e : ε} {x : Fallible ε C R β} :
    Reaches (if p then throw e else x).run h (.ret (.ok b)) ↔
      ¬ p ∧ Reaches x.run h (.ret (.ok b)) := by
  rw [ok_ite, ok_throw, and_false, false_or]

end Ok

/-- A command of a sequence is issued by its first part, or by the rest after
that has succeeded. -/
theorem Reaches.run_bind_call {x : Fallible ε C R α} {f : α → Fallible ε C R β} {c : C}
    {k : R c → Prog C R (Except ε β)} (hr : Reaches (x >>= f).run h (.call c k)) :
    (∃ k', Reaches x.run h (.call c k')) ∨
      ∃ h₁ h₂ a, h = h₁ ++ h₂ ∧ Reaches x.run h₁ (.ret (.ok a)) ∧
        Reaches (f a).run h₂ (.call c k) := by
  rw [Effect.run_bind] at hr
  rcases Reaches.of_bind hr with ⟨p, hp, hq⟩ | ⟨h₁, h₂, r, rfl, hx', hf⟩
  · cases p with
    | call d k' =>
        cases hq
        exact .inl ⟨k', hp⟩
    | ret r =>
        cases r with
        | ok a => exact .inr ⟨h, [], a, (List.append_nil h).symm, hp, hq ▸ .refl _⟩
        | error e => cases hq
    | crash => cases hq
  · cases r with
    | ok a => exact .inr ⟨h₁, h₂, a, rfl, hx', hf⟩
    | error e =>
        obtain ⟨-, hq⟩ := Reaches.ret_iff.mp hf
        cases hq

/-- A command that the first part never issues is issued by the rest, after
the first part has succeeded. -/
theorem Reaches.past {S : C → Prop} {x : Fallible ε C R α} {f : α → Fallible ε C R β}
    {c : C} {k : R c → Prog C R (Except ε β)} (hx : Within S x.run) (hc : ¬ S c)
    (hr : Reaches (x >>= f).run h (.call c k)) :
    ∃ h₁ h₂ a, h = h₁ ++ h₂ ∧ Reaches x.run h₁ (.ret (.ok a)) ∧
      Reaches (f a).run h₂ (.call c k) := by
  rcases Reaches.run_bind_call hr with ⟨k', hfirst⟩ | hrest
  · exact absurd (within_iff.mp hx h c k' hfirst) hc
  · exact hrest

theorem Within.run_bind {S : C → Prop} {x : Fallible ε C R α}
    {f : α → Fallible ε C R β} (hx : Within S x.run) (hf : ∀ a, Within S (f a).run) :
    Within S (x >>= f).run := by
  rw [Effect.run_bind]
  refine hx.bind fun r => ?_
  cases r with
  | ok a => exact hf a
  | error e => exact within_ret _

theorem within_request {S : C → Prop} {c : C} (hc : S c) :
    Within S (request c : Fallible ε C R (R c)).run :=
  (within_ask hc).bind fun _ => within_ret _

theorem Within.attempt {ε' : Type} {S : C → Prop} {x : Fallible ε C R α}
    (hx : Within S x.run) : Within S (Effect.attempt x : Fallible ε' C R _).run :=
  hx.bind fun _ => within_ret _

/-! ### Errors -/

/-- Every error that `x` ends in satisfies `P`. -/
def Raises (P : ε → Prop) (x : Fallible ε C R α) : Prop :=
  ∀ h e, Reaches x.run h (.ret (.error e)) → P e

namespace Raises

variable {P : ε → Prop}

theorem bind_of_ok {x : Fallible ε C R α} {f : α → Fallible ε C R β} (hx : Raises P x)
    (hf : ∀ h a, Reaches x.run h (.ret (.ok a)) → Raises P (f a)) : Raises P (x >>= f) := by
  intro h e hr
  rcases Reaches.run_bind_ret_iff.mp hr with ⟨e', he, hx'⟩ | ⟨h', _, a, -, hok, hf'⟩
  · cases he
    exact hx h e hx'
  · exact hf h' a hok _ e hf'

theorem bind {x : Fallible ε C R α} {f : α → Fallible ε C R β} (hx : Raises P x)
    (hf : ∀ a, Raises P (f a)) : Raises P (x >>= f) :=
  bind_of_ok hx fun _ a _ => hf a

theorem request (c : C) : Raises P (Effect.request c : Fallible ε C R (R c)) := by
  intro h e hr
  obtain ⟨_, _, -, hk⟩ := Reaches.call_ret_iff.mp hr
  obtain ⟨-, hq⟩ := Reaches.ret_iff.mp hk
  cases hq

theorem pure (a : α) : Raises P (Pure.pure a : Fallible ε C R α) := by
  intro h e hr
  obtain ⟨-, hq⟩ := Reaches.ret_iff.mp hr
  cases hq

theorem throw {e : ε} (he : P e) :
    Raises P (MonadExcept.throw e : Fallible ε C R α) := by
  intro h e' hr
  obtain ⟨-, hq⟩ := Reaches.ret_iff.mp hr
  cases hq
  exact he

theorem ite {p : Prop} [Decidable p] {x y : Fallible ε C R α} (hx : Raises P x)
    (hy : Raises P y) : Raises P (if p then x else y) := by
  split
  · exact hx
  · exact hy

end Raises

end Fallible

end Effect
