/-
DmlPact/Server/Locks.lean

What the locks guarantee, whatever the sessions do (`Sound`): the holder of
SHARE ROW EXCLUSIVE is the only writer of its table, whoever has changed a table
is one of its writers, and a snapshot that was taken under the lock shows the
table as it is.  Every answer of the server keeps this, and so does everything
that happens between the commands.
-/
import DmlPact.Server.Postgres

namespace DmlPact

namespace Server

open Effect RowChange

variable {sv : Server} {ι : Type} [DecidableEq ι]

/-! ### What the operations leave alone -/

namespace World

variable {w : sv.World ι} {i j : ι} {txn : sv.Transaction} {t : sv.Table}

/-- Ending a session gives up what it held. -/
theorem finish_holder : (w.finish i).holder t = some j ↔ w.holder t = some j ∧ j ≠ i := by
  show (w.holder t).filter (· ≠ i) = some j ↔ _
  rw [Option.filter_eq_some_iff, decide_eq_true_iff]

@[simp] theorem finish_session_self : (w.finish i).session i = .ended :=
  Function.update_self ..

/-- The other sessions go on. -/
theorem finish_session_ne (h : j ≠ i) : (w.finish i).session j = w.session j :=
  Function.update_of_ne h ..

@[simp] theorem begin_session_self {isolation : IsolationLevel} {readOnly : Bool} :
    (w.begin i isolation readOnly).session i =
      .active ⟨none, none, decide (isolation = .repeatableRead), readOnly⟩ := Function.update_self ..

theorem begin_session_ne {isolation : IsolationLevel} {readOnly : Bool} (h : j ≠ i) :
    (w.begin i isolation readOnly).session j = w.session j := Function.update_of_ne h ..

@[simp] theorem lock_session_self : (w.lock i txn t).session i =
    .active { txn with ordered := txn.ordered && txn.snapshot.isNone } := Function.update_self ..

theorem lock_session_ne (h : j ≠ i) : (w.lock i txn t).session j = w.session j :=
  Function.update_of_ne h ..

@[simp] theorem lock_holder_self : (w.lock i txn t).holder t = some i := Function.update_self ..

/-- A lock is on one table. -/
theorem lock_holder_ne {t' : sv.Table} (h : t' ≠ t) : (w.lock i txn t).holder t' = w.holder t' :=
  Function.update_of_ne h ..

@[simp] theorem see_session_self : (w.see i txn).session i =
    .active { txn with snapshot := some (w.view txn) } := Function.update_self ..

theorem see_session_ne (h : j ≠ i) : (w.see i txn).session j = w.session j :=
  Function.update_of_ne h ..

@[simp] theorem alter_session_self {ch : sv.Change} : (w.alter i txn ch).session i =
    .active { txn with snapshot := some (w.view txn), change := some ch } :=
  Function.update_self ..

theorem alter_session_ne {ch : sv.Change} (h : j ≠ i) :
    (w.alter i txn ch).session j = w.session j := Function.update_of_ne h ..

omit [DecidableEq ι] in
/-- A transaction sees its snapshot. -/
theorem view_of_some {S : sv.Snapshot} (h : txn.snapshot = some S) : w.view txn = S := by
  rw [view, h, Option.getD_some]

omit [DecidableEq ι] in
/-- Without one it sees what is committed. -/
theorem view_of_none (h : txn.snapshot = none) : w.view txn = ⟨w.tables, w.contents⟩ := by
  rw [view, h, Option.getD_none]

omit [DecidableEq ι] in
/-- A table that is put somewhere leaves the places of the others. -/
theorem put_tables {schema name s n : String} {t' : sv.Table}
    (hfree : w.tables schema name = none) (h : t' ≠ t) :
    (w.put schema name t).tables s n = some t' ↔ w.tables s n = some t' := by
  show (if s = schema ∧ n = name then some t
    else if w.tables s n = some t then none else w.tables s n) = some t' ↔ _
  split_ifs with hplace hthere
  · obtain ⟨rfl, rfl⟩ := hplace
    rw [hfree, Option.some.injEq]
    exact ⟨fun heq => absurd heq.symm h, nofun⟩
  · rw [hthere, Option.some.injEq]
    exact ⟨nofun, fun heq => absurd heq.symm h⟩
  · exact Iff.rfl

end World

/-! ### Moves -/

/-- What an answer to session `i` may do to the world. -/
inductive Moves (w : sv.World ι) (i : ι) : Cmd → sv.World ι → Prop
  | same {c} : Moves w i c w
  | begin {c} (isolation readOnly) (hidle : w.session i = .idle) :
      Moves w i c (w.begin i isolation readOnly)
  | finish {c} : Moves w i c (w.finish i)
  | lock {c txn t} (hactive : w.session i = .active txn)
      (hholder : ∀ j, w.holder t = some j → j = i) (hwriters : ∀ j, w.writers t j → j = i) :
      Moves w i c (w.lock i txn t)
  | strays {c txn w'} (hactive : w.session i = .active txn) (hstray : sv.Stray c)
      (h : sv.Strays w i w') : Moves w i c w'
  | see {c txn} (hactive : w.session i = .active txn) : Moves w i c (w.see i txn)
  | find {c txn} (name t) (hactive : w.session i = .active txn) :
      Moves w i c ((w.see i txn).find i name t)
  | deliver {c txn} (name t q rows) (hactive : w.session i = .active txn) :
      Moves w i c (((w.see i txn).find i name t).deliver i q rows)
  | alter {c txn ch} (name) (hactive : w.session i = .active txn) (hfirst : txn.change = none)
      (hholder : ∀ j, w.holder ch.table = some j → j = i) :
      Moves w i c ((w.alter i txn ch).find i name ch.table)
  | publish {txn ch rest} (hactive : w.session i = .active txn) (hchange : txn.change = some ch)
      (hrest : w.contents ch.table = ch.removed + rest) :
      Moves w i .commit ((w.publish i ch rest).finish i)

section Moves

variable {w w' : sv.World ι} {i : ι} {txn : sv.Transaction}

/-- A query is answered with the rows of a snapshot, and may take it. -/
theorem Moves.of_query {q : String} {params : List SqlValue} {rows : List DmlPact.Row}
    (hactive : w.session i = .active txn) (h : sv.Queries w i txn q params rows w') :
    Moves w i (.query q params) w' := by
  cases h with
  | lookup => exact .find _ _ hactive
  | absent => exact .see hactive
  | target => exact .deliver _ _ _ _ hactive
  | other => exact .see hactive
  | stray hwritable hstray h => exact .strays hactive hstray h

/-- **Answers.**  Every answer is one of the moves. -/
theorem Moves.of_answer {c : Cmd} {r : Reply c} (h : sv.Answers i w c r w') : Moves w i c w' := by
  cases c
  case start isolation readOnly =>
    rcases h with ⟨-, hidle, rfl⟩ | ⟨-, rfl⟩
    · exact .begin isolation readOnly hidle
    · exact .same
  -- an answered command moves by its own rule, a failed one ends the session
  case batchExecute sql =>
    rcases h with ⟨-, txn, hactive, hbatch⟩ | ⟨-, rfl⟩
    · cases hbatch with
      | lock hsql htable hholder hwriters => exact .lock hactive hholder hwriters
      | settings => exact .same
      | stray hstray hstrays => exact .strays hactive hstray hstrays
    · exact .finish
  case query sql params =>
    rcases h with ⟨-, txn, hactive, hquery⟩ | ⟨-, rfl⟩
    · exact .of_query hactive hquery
    · exact .finish
  case execute sql =>
    rcases h with ⟨n, txn, -, hactive, hexecute⟩ | ⟨-, rfl⟩
    · cases hexecute with
      | @mk requested action s n t count hwritable hfirst hsql hfound hholder =>
          exact @Moves.alter _ _ _ _ _ _ _ ⟨sql, t, _, _⟩ requested hactive hfirst hholder
      | stray hwritable hstray hstrays => exact .strays hactive hstray hstrays
    · exact .finish
  case commit =>
    rcases h with ⟨txn, hactive, hcommit⟩ | ⟨-, rfl⟩
    · cases hcommit with
      | nothing => exact .finish
      | change hchange hrest => exact .publish hactive hchange hrest
    · exact .finish
  case rollback =>
    obtain rfl : w' = _ := h
    exact .finish
  all_goals
    obtain rfl : w' = w := h
    exact .same

end Moves

/-! ### Locks -/

/-- A snapshot shows a table as it is. -/
def Snapshot.Shows (S : sv.Snapshot) (w : sv.World ι) (t : sv.Table) : Prop :=
  S.contents t = w.contents t ∧ ∀ s n, S.tables s n = some t ↔ w.tables s n = some t

/-- What the locks guarantee: who holds a table is the only one who has written to
it and not ended, and an ordered transaction that holds it sees it as it is. -/
structure Sound (w : sv.World ι) : Prop where
  exclusive : ∀ t i, w.holder t = some i → ∀ j, w.writers t j → j = i
  pending : ∀ i txn ch, w.session i = .active txn → txn.change = some ch → w.writers ch.table i
  current : ∀ i txn S t, w.session i = .active txn → txn.ordered = true →
    txn.snapshot = some S → w.holder t = some i → S.Shows w t

omit [DecidableEq ι] in
/-- At first nothing is held. -/
theorem Sound.fresh {w : sv.World ι} (h : w.Fresh) : Sound w where
  exclusive t i hi := absurd hi (by rw [h.holder t]; nofun)
  pending i txn ch hi := absurd hi (by rw [h.session i]; nofun)
  current i txn S t hi := absurd hi (by rw [h.session i]; nofun)

namespace Sound

variable {w w' : sv.World ι} {i : ι} {txn : sv.Transaction} (sound : Sound w)

include sound

/-- Ending a session. -/
theorem finish (i : ι) : Sound (w.finish i) where
  exclusive t j hj k hk := sound.exclusive t j (World.finish_holder.mp hj).1 k hk.1
  pending j txn ch hj hch := by
    by_cases hji : j = i
    · rw [hji, World.finish_session_self] at hj
      cases hj
    · rw [World.finish_session_ne hji] at hj
      exact ⟨sound.pending j txn ch hj hch, hji⟩
  current j txn S t hj hordered hsnapshot hholder := by
    obtain ⟨hheld, hji⟩ := World.finish_holder.mp hholder
    rw [World.finish_session_ne hji] at hj
    exact sound.current j txn S t hj hordered hsnapshot hheld

/-- Starting a transaction. -/
theorem begin (i : ι) (isolation : IsolationLevel) (readOnly : Bool) :
    Sound (w.begin i isolation readOnly) where
  exclusive := sound.exclusive
  pending j txn ch hj hch := by
    by_cases hji : j = i
    · rw [hji, World.begin_session_self] at hj
      cases hj
      cases hch
    · rw [World.begin_session_ne hji] at hj
      exact sound.pending j txn ch hj hch
  current j txn S t hj hordered hsnapshot hholder := by
    by_cases hji : j = i
    · rw [hji, World.begin_session_self] at hj
      cases hj
      cases hsnapshot
    · rw [World.begin_session_ne hji] at hj
      exact sound.current j txn S t hj hordered hsnapshot hholder

/-- A granted lock: nobody else has written to the table. -/
theorem lock (hactive : w.session i = .active txn) {t : sv.Table}
    (hwriters : ∀ j, w.writers t j → j = i) : Sound (w.lock i txn t) where
  exclusive t' j hj k hk := by
    by_cases ht : t' = t
    · subst ht
      rw [World.lock_holder_self] at hj
      exact (hwriters k hk).trans (Option.some.inj hj)
    · rw [World.lock_holder_ne ht] at hj
      exact sound.exclusive t' j hj k hk
  pending j txn' ch hj hch := by
    by_cases hji : j = i
    · rw [hji, World.lock_session_self] at hj
      cases hj
      exact hji ▸ sound.pending i txn ch hactive hch
    · rw [World.lock_session_ne hji] at hj
      exact sound.pending j txn' ch hj hch
  current j txn' S t' hj hordered hsnapshot hholder := by
    by_cases hji : j = i
    · -- a lock granted behind the snapshot makes the transaction unordered
      rw [hji, World.lock_session_self] at hj
      cases hj
      have hnone := (Bool.and_eq_true_iff.mp hordered).2
      rw [show txn.snapshot = some S from hsnapshot] at hnone
      cases hnone
    · rw [World.lock_session_ne hji] at hj
      have ht : t' ≠ t := by
        rintro rfl
        rw [World.lock_holder_self] at hholder
        exact hji (Option.some.inj hholder).symm
      rw [World.lock_holder_ne ht] at hholder
      exact sound.current j txn' S t' hj hordered hsnapshot hholder

omit [DecidableEq ι] in
/-- The view of an ordered transaction shows what it has locked. -/
theorem view_shows (hactive : w.session i = .active txn) (hordered : txn.ordered = true)
    {t : sv.Table} (hholder : w.holder t = some i) : (w.view txn).Shows w t := by
  rcases hsnapshot : txn.snapshot with - | S
  · rw [World.view_of_none hsnapshot]
    exact ⟨rfl, fun _ _ => Iff.rfl⟩
  · rw [World.view_of_some hsnapshot]
    exact sound.current i txn S t hactive hordered hsnapshot hholder

/-- Taking a snapshot. -/
theorem see (hactive : w.session i = .active txn) : Sound (w.see i txn) where
  exclusive := sound.exclusive
  pending j txn' ch hj hch := by
    by_cases hji : j = i
    · rw [hji, World.see_session_self] at hj
      cases hj
      exact hji ▸ sound.pending i txn ch hactive hch
    · rw [World.see_session_ne hji] at hj
      exact sound.pending j txn' ch hj hch
  current j txn' S t hj hordered hsnapshot hholder := by
    by_cases hji : j = i
    · subst hji
      rw [World.see_session_self] at hj
      cases hj
      cases hsnapshot
      exact sound.view_shows hactive hordered hholder
    · rw [World.see_session_ne hji] at hj
      exact sound.current j txn' S t hj hordered hsnapshot hholder

omit [DecidableEq ι] in
theorem find (i : ι) (name : String) (t : sv.Table) : Sound (w.find i name t) :=
  ⟨sound.exclusive, sound.pending, sound.current⟩

omit [DecidableEq ι] in
theorem deliver (i : ι) (q : String) (rows : Multiset sv.Row) : Sound (w.deliver i q rows) :=
  ⟨sound.exclusive, sound.pending, sound.current⟩

/-- A statement: nobody else holds the table. -/
theorem alter (hactive : w.session i = .active txn) {ch : sv.Change}
    (hholder : ∀ j, w.holder ch.table = some j → j = i) : Sound (w.alter i txn ch) where
  exclusive t j hj k hk := by
    rcases hk with hk | ⟨rfl, rfl⟩
    · exact sound.exclusive t j hj k hk
    · exact (hholder j hj).symm
  pending j txn' ch' hj hch := by
    by_cases hji : j = i
    · rw [hji, World.alter_session_self] at hj
      cases hj
      cases hch
      exact .inr ⟨rfl, hji⟩
    · rw [World.alter_session_ne hji] at hj
      exact .inl (sound.pending j txn' ch' hj hch)
  current j txn' S t hj hordered hsnapshot hheld := by
    by_cases hji : j = i
    · subst hji
      rw [World.alter_session_self] at hj
      cases hj
      cases hsnapshot
      exact sound.view_shows hactive hordered hheld
    · rw [World.alter_session_ne hji] at hj
      exact sound.current j txn' S t hj hordered hsnapshot hheld

/-- Nobody else holds what is published. -/
theorem publish (hactive : w.session i = .active txn) {ch : sv.Change}
    (hchange : txn.change = some ch) (rest : Multiset sv.Row) :
    Sound ((w.publish i ch rest).finish i) where
  exclusive := (sound.finish i).exclusive
  pending := (sound.finish i).pending
  current j txn' S t hj hordered hsnapshot hholder := by
    have hshows := (sound.finish i).current j txn' S t hj hordered hsnapshot hholder
    obtain ⟨hheld, hji⟩ := World.finish_holder.mp hholder
    have ht : t ≠ ch.table := by
      rintro rfl
      exact hji (sound.exclusive ch.table j hheld i (sound.pending i txn ch hactive hchange)).symm
    refine ⟨hshows.1.trans ?_, hshows.2⟩
    exact (Function.update_of_ne ht ..).symm

/-- Whatever a text outside the model does. -/
theorem strays (h : sv.Strays w i w') : Sound w' where
  exclusive := h.exclusive
  pending j txn ch hj hch := by
    by_cases hji : j = i
    · subst hji
      exact (h.own txn hj).2 ch hch
    · rw [h.session j hji] at hj
      exact (h.writers ch.table j hji).mpr (sound.pending j txn ch hj hch)
  current j txn S t hj hordered hsnapshot hholder := by
    by_cases hji : j = i
    · subst hji
      rw [(h.own txn hj).1] at hordered
      cases hordered
    · rw [h.session j hji] at hj
      have hheld := (h.holder t j hji).mp hholder
      obtain ⟨hcontents, htables⟩ := sound.current j txn S t hj hordered hsnapshot hheld
      refine ⟨hcontents.trans (h.contents t j hji hheld).symm, fun s n => ?_⟩
      rw [h.tables]
      exact htables s n

/-- Every answer keeps what the locks guarantee. -/
theorem move {c : Cmd} (h : Moves w i c w') : Sound w' := by
  cases h with
  | same => exact sound
  | begin isolation readOnly => exact sound.begin i isolation readOnly
  | finish => exact sound.finish i
  | lock hactive hholder hwriters => exact sound.lock hactive hwriters
  | strays hactive hstray h => exact sound.strays h
  | see hactive => exact sound.see hactive
  | find name t hactive => exact (sound.see hactive).find i name t
  | deliver name t q rows hactive => exact ((sound.see hactive).find i name t).deliver i q rows
  | alter name hactive hfirst hholder => exact (sound.alter hactive hholder).find i name _
  | publish hactive hchange => exact sound.publish hactive hchange _

/-- What happens between the commands keeps it too. -/
theorem drift {others : sv.Others ι} (h : sv.Drifts others w w') : Sound w' := by
  cases h with
  | rows contents hrows =>
      refine ⟨sound.exclusive, sound.pending, fun j txn S t hj hordered hsnapshot hholder => ?_⟩
      obtain ⟨hcontents, htables⟩ := sound.current j txn S t hj hordered hsnapshot hholder
      refine ⟨hcontents.trans ?_, htables⟩
      by_contra hchanged
      have hfree := (hrows t (Ne.symm hchanged)).1
      rw [show w.holder t = some j from hholder] at hfree
      cases hfree
  | put hfree hunheld =>
      refine ⟨sound.exclusive, sound.pending, fun j txn S t hj hordered hsnapshot hholder => ?_⟩
      obtain ⟨hcontents, htables⟩ := sound.current j txn S t hj hordered hsnapshot hholder
      refine ⟨hcontents, fun s n => (htables s n).trans (World.put_tables hfree ?_).symm⟩
      rintro rfl
      rw [show w.holder t = some j from hholder] at hunheld
      cases hunheld
  | ends i => exact sound.finish i

end Sound

end Server

end DmlPact
