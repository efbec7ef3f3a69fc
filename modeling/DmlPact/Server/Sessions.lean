/-
DmlPact/Server/Sessions.lean

What a session can rely on while its transaction goes on, whatever the others
do.  Three things stay from one moment to a later one:

    Keeps     its snapshot, its change, its locks, and the places of the tables
              that it has locked
    Stands    what a name means, once it has been found to mean a table that is
              locked, as long as the tables that others put somewhere are out
              of the way (`LeavesNames`)
    Ordered   a transaction whose history is `Orderly`, REPEATABLE READ with its
              locks before its queries, keeps one snapshot that is not older
              than a lock

Each is proved for one step, of the session itself and of the others apart, and
from that for every run.
-/
import DmlPact.Server.Locks

namespace DmlPact

namespace Server

open Effect RowChange

variable {sv : Server} {ι : Type} [DecidableEq ι]

/-! ### Names -/

/-- Session `i` has not executed its statement yet. -/
def Undecided (i : ι) (w : sv.World ι) : Prop :=
  ∃ txn, w.session i = .active txn ∧ txn.change = none

/-- No session that has found an unqualified name to mean a table it has locked,
and has still to execute its statement, finds another one there: the new place
is not in a schema that comes first. -/
def LeavesNames (w : sv.World ι) (schema name : String) : Prop :=
  ∀ i requested s n t, Undecided i w → w.holder t = some i → w.found i requested t →
    sv.resolve w.tables requested = some (s, n, t) → sv.parse requested = some (none, name) →
    schema ∉ sv.path.takeWhile (· ≠ s)

omit [DecidableEq ι] in
/-- Where an unqualified name is found. -/
theorem resolve_path {tables : sv.Catalog} {requested name s n : String} {t : sv.Table}
    (hparse : sv.parse requested = some (none, name)) :
    sv.resolve tables requested = some (s, n, t) ↔
      n = name ∧ tables s name = some t ∧ s ∈ sv.path ∧
        ∀ schema ∈ sv.path.takeWhile (· ≠ s), tables schema name = none := by
  rw [resolve, hparse]
  dsimp only
  constructor
  · intro hfind
    -- the path up to the first schema that has the name
    obtain ⟨before, schema, after, hpath, hhere, hbefore⟩ := List.findSome?_eq_some_iff.mp hfind
    obtain ⟨t', htable, heq⟩ := Option.map_eq_some_iff.mp hhere
    obtain ⟨rfl, rfl, rfl⟩ : schema = s ∧ name = n ∧ t' = t := by simpa using heq
    have hnone : ∀ x ∈ before, tables x name = none :=
      fun x hx => Option.map_eq_none_iff.mp (hbefore x hx)
    have hnot : ∀ x ∈ before, decide (x ≠ schema) = true := by
      intro x hx
      refine decide_eq_true fun hxs => ?_
      have hx' := hnone x hx
      rw [hxs, htable] at hx'
      cases hx'
    refine ⟨rfl, htable, hpath ▸ by simp, fun x hx => hnone x ?_⟩
    rw [hpath, List.takeWhile_append_of_pos hnot, List.takeWhile_cons_of_neg (by simp),
      List.append_nil] at hx
    exact hx
  · rintro ⟨rfl, htable, hmem, hbefore⟩
    obtain ⟨before, after, hpath, hnot⟩ := List.eq_append_cons_of_mem hmem
    have htake : sv.path.takeWhile (· ≠ s) = before := by
      have hbefore : ∀ x ∈ before, decide (x ≠ s) = true :=
        fun x hx => decide_eq_true fun hxs => hnot (hxs ▸ hx)
      rw [hpath, List.takeWhile_append_of_pos hbefore, List.takeWhile_cons_of_neg (by simp),
        List.append_nil]
    refine List.findSome?_eq_some_iff.mpr ⟨before, s, after, hpath, ?_, fun x hx => ?_⟩
    · rw [htable]
      rfl
    · rw [hbefore x (htake ▸ hx)]
      rfl

omit [DecidableEq ι] in
/-- A qualified name means the table at its place. -/
theorem resolve_place {tables : sv.Catalog} {requested schema name s n : String} {t : sv.Table}
    (hparse : sv.parse requested = some (some schema, name)) :
    sv.resolve tables requested = some (s, n, t) ↔
      s = schema ∧ n = name ∧ tables schema name = some t := by
  rw [resolve, hparse]
  dsimp only
  constructor
  · intro hmap
    obtain ⟨t', htable, heq⟩ := Option.map_eq_some_iff.mp hmap
    obtain ⟨rfl, rfl, rfl⟩ : schema = s ∧ name = n ∧ t' = t := by simpa using heq
    exact ⟨rfl, rfl, htable⟩
  · rintro ⟨rfl, rfl, htable⟩
    rw [htable]
    rfl

omit [DecidableEq ι] in
/-- A table that is put somewhere does not come in front of another. -/
theorem resolve_put {w : sv.World ι} {requested schema name s n : String} {t t' : sv.Table}
    (hfree : w.tables schema name = none) (ht : t ≠ t')
    (hclear : sv.parse requested = some (none, name) → schema ∉ sv.path.takeWhile (· ≠ s))
    (h : sv.resolve w.tables requested = some (s, n, t)) :
    sv.resolve (w.put schema name t').tables requested = some (s, n, t) := by
  rcases hparse : sv.parse requested with - | ⟨- | schema', name'⟩
  · rw [resolve, hparse] at h
    cases h
  · obtain ⟨hname, htable, hmem, hbefore⟩ := (resolve_path hparse).mp h
    refine (resolve_path hparse).mpr
      ⟨hname, (World.put_tables hfree ht).mpr htable, hmem, fun x hx => ?_⟩
    show (if x = schema ∧ name' = name then some t'
      else if w.tables x name' = some t' then none else w.tables x name') = none
    rw [if_neg, hbefore x hx, if_neg nofun]
    rintro ⟨rfl, rfl⟩
    exact hclear hparse hx
  · obtain ⟨hschema, hname, htable⟩ := (resolve_place hparse).mp h
    exact (resolve_place hparse).mpr ⟨hschema, hname, (World.put_tables hfree ht).mpr htable⟩

/-! ### What a transaction keeps -/

/-- A transaction and the same one later. -/
structure Transaction.Extends (txn txn' : sv.Transaction) : Prop where
  ordered : txn.ordered = true
  snapshot : ∀ S, txn.snapshot = some S → txn'.snapshot = some S
  change : ∀ ch, txn.change = some ch → txn'.change = some ch

theorem Transaction.Extends.trans {txn txn' txn'' : sv.Transaction} (h : txn.Extends txn')
    (h' : txn'.Extends txn'') : txn.Extends txn'' :=
  ⟨h.ordered, fun S hS => h'.snapshot S (h.snapshot S hS),
    fun ch hch => h'.change ch (h.change ch hch)⟩

theorem Transaction.Extends.change_none {txn txn' : sv.Transaction} (h : txn.Extends txn')
    (hnone : txn'.change = none) : txn.change = none := by
  refine Option.eq_none_iff_forall_ne_some.mpr fun ch hch => ?_
  rw [h.change ch hch] at hnone
  cases hnone

/-- A table that session `i` holds stays where it is, and held. -/
def HoldsOn (i : ι) (w w' : sv.World ι) : Prop :=
  ∀ t, w.holder t = some i →
    w'.holder t = some i ∧ ∀ s n, w'.tables s n = some t ↔ w.tables s n = some t

/-- What session `i` keeps from one moment to a later one, if it is then in an
ordered transaction. -/
structure Keeps (i : ι) (w w' : sv.World ι) : Prop where
  idle : w'.session i = .idle → w.session i = .idle
  active : ∀ txn', w'.session i = .active txn' → txn'.ordered = true →
    w.session i = .idle ∨ ∃ txn, w.session i = .active txn ∧ txn.Extends txn' ∧ HoldsOn i w w'

omit [DecidableEq ι] in
theorem HoldsOn.refl (i : ι) (w : sv.World ι) : HoldsOn i w w :=
  fun _ h => ⟨h, fun _ _ => Iff.rfl⟩

omit [DecidableEq ι] in
theorem HoldsOn.trans {i : ι} {w w' w'' : sv.World ι} (h : HoldsOn i w w') (h' : HoldsOn i w' w'') :
    HoldsOn i w w'' := by
  intro t ht
  obtain ⟨hheld, htables⟩ := h t ht
  obtain ⟨hheld', htables'⟩ := h' t hheld
  exact ⟨hheld', fun s n => (htables' s n).trans (htables s n)⟩

namespace Keeps

variable {w w' w'' : sv.World ι} {i : ι} {c : Cmd}

omit [DecidableEq ι] in
theorem refl (i : ι) (w : sv.World ι) : Keeps i w w :=
  ⟨id, fun txn hactive hordered => .inr ⟨txn, hactive, ⟨hordered, fun _ => id, fun _ => id⟩,
    .refl i w⟩⟩

omit [DecidableEq ι] in
theorem trans (h : Keeps i w w') (h' : Keeps i w' w'') : Keeps i w w'' := by
  refine ⟨fun hidle => h.idle (h'.idle hidle), fun txn'' hactive hordered => ?_⟩
  rcases h'.active txn'' hactive hordered with hidle | ⟨txn', hactive', hextends', hholds'⟩
  · exact .inl (h.idle hidle)
  · rcases h.active txn' hactive' hextends'.ordered with hidle | ⟨txn, hactive₀, hextends, hholds⟩
    · exact .inl hidle
    · exact .inr ⟨txn, hactive₀, hextends.trans hextends', hholds.trans hholds'⟩

omit [DecidableEq ι] in
/-- Of a transaction that has ended nothing is asked. -/
theorem of_ended (h : w'.session i = .ended) : Keeps i w w' :=
  ⟨fun hidle => absurd (h.symm.trans hidle) nofun,
    fun _ hactive => absurd (h.symm.trans hactive) nofun⟩

omit [DecidableEq ι] in
theorem of_same (hsession : w'.session i = w.session i) (hholds : HoldsOn i w w') : Keeps i w w' :=
  ⟨fun hidle => hsession ▸ hidle, fun txn hactive hordered =>
    .inr ⟨txn, hsession ▸ hactive, ⟨hordered, fun _ => id, fun _ => id⟩, hholds⟩⟩

omit [DecidableEq ι] in
theorem of_active {txn txn' : sv.Transaction} (hactive : w.session i = .active txn)
    (hactive' : w'.session i = .active txn') (hextends : txn'.ordered = true → txn.Extends txn')
    (hholds : HoldsOn i w w') : Keeps i w w' := by
  refine ⟨fun hidle => absurd (hactive'.symm.trans hidle) nofun, fun txn'' h hordered => ?_⟩
  obtain rfl : txn' = txn'' := Session.active.inj (hactive'.symm.trans h)
  exact .inr ⟨txn, hactive, hextends hordered, hholds⟩

/-- A query extends the transaction by its snapshot. -/
theorem see {txn : sv.Transaction} (hactive : w.session i = .active txn) :
    Keeps i w (w.see i txn) := by
  refine of_active hactive World.see_session_self (fun hordered => ⟨hordered, fun S hS => ?_,
    fun _ => id⟩) (.refl i w)
  exact congrArg some (World.view_of_some hS)

/-- What the session is answered itself. -/
theorem move (h : Moves w i c w') : Keeps i w w' := by
  cases h with
  | same => exact .refl i w
  | begin isolation readOnly hidle =>
      refine ⟨fun hidle' => ?_, fun _ _ _ => .inl hidle⟩
      rw [World.begin_session_self] at hidle'
      cases hidle'
  | finish => exact of_ended World.finish_session_self
  | @lock _ txn t hactive hholder hwriters =>
      refine of_active hactive World.lock_session_self (fun hordered => ⟨?_, fun _ => id,
        fun _ => id⟩) fun t' ht' => ⟨?_, fun _ _ => Iff.rfl⟩
      · exact (Bool.and_eq_true_iff.mp hordered).1
      · by_cases htt : t' = t
        · rw [htt, World.lock_holder_self]
        · rw [World.lock_holder_ne htt, ht']
  | strays hactive hstray h =>
      -- a stray text leaves the session unordered, of which nothing is claimed
      refine ⟨fun hidle => absurd hidle h.begun, fun txn' hactive' hordered => ?_⟩
      rw [(h.own txn' hactive').1] at hordered
      cases hordered
  | see hactive => exact see hactive
  | find name t hactive => exact ⟨(see hactive).idle, (see hactive).active⟩
  | deliver name t q rows hactive => exact ⟨(see hactive).idle, (see hactive).active⟩
  | alter name hactive hfirst hholder =>
      refine of_active hactive World.alter_session_self (fun hordered => ⟨hordered,
        fun S hS => ?_, fun ch hch => ?_⟩) (.refl i w)
      · exact congrArg some (World.view_of_some hS)
      · rw [hfirst] at hch
        cases hch
  | publish => exact of_ended World.finish_session_self

end Keeps

/-! ### What the others leave -/

section Steps

variable {w w' : sv.World ι} {i j : ι} {c : Cmd} {others : sv.Others ι}

/-- The answers that others get leave a session as it is. -/
structure Apart (i : ι) (w w' : sv.World ι) : Prop where
  session : w'.session i = w.session i
  holder : ∀ t, w.holder t = some i → w'.holder t = some i
  tables : w'.tables = w.tables
  found : ∀ name t, w'.found i name t ↔ w.found i name t

theorem Apart.finish (h : i ≠ j) : Apart i w (w.finish j) :=
  ⟨World.finish_session_ne h, fun _ ht => World.finish_holder.mpr ⟨ht, h⟩, rfl,
    fun _ _ => Iff.rfl⟩

theorem Apart.lock {txn : sv.Transaction} {t : sv.Table} (h : i ≠ j)
    (hholder : ∀ k, w.holder t = some k → k = j) : Apart i w (w.lock j txn t) := by
  refine ⟨World.lock_session_ne h, fun t' ht' => ?_, rfl, fun _ _ => Iff.rfl⟩
  have ht : t' ≠ t := by
    rintro rfl
    exact h (hholder i ht')
  rw [World.lock_holder_ne ht, ht']

omit [DecidableEq ι] in
theorem Apart.strays (h : i ≠ j) (hstrays : sv.Strays w j w') : Apart i w w' :=
  ⟨hstrays.session i h, fun t ht => (hstrays.holder t i h).mpr ht, hstrays.tables,
    fun _ _ => by rw [hstrays.found]⟩

omit [DecidableEq ι] in
theorem find_apart (h : i ≠ j) {name : String} {t : sv.Table} (n : String) (t' : sv.Table) :
    (w.find j name t).found i n t' ↔ w.found i n t' :=
  ⟨fun hfound => hfound.resolve_right fun hnew => h hnew.1, .inl⟩

/-- What another session is answered. -/
theorem Apart.move (h : i ≠ j) (hmove : Moves w j c w') : Apart i w w' := by
  have hfind : ∀ (w : sv.World ι) (txn : sv.Transaction) (name : String) (t : sv.Table),
      Apart i w ((w.see j txn).find j name t) := fun w txn name t =>
    ⟨World.see_session_ne h, fun _ => id, rfl, fun _ _ => find_apart h _ _⟩
  have hfinish : Apart i w (w.finish j) := .finish h
  cases hmove with
  | same => exact ⟨rfl, fun _ => id, rfl, fun _ _ => Iff.rfl⟩
  | begin => exact ⟨World.begin_session_ne h, fun _ => id, rfl, fun _ _ => Iff.rfl⟩
  | finish => exact hfinish
  | lock hactive hholder => exact .lock h hholder
  | strays hactive hstray hstrays => exact .strays h hstrays
  | see => exact ⟨World.see_session_ne h, fun _ => id, rfl, fun _ _ => Iff.rfl⟩
  | find name t => exact hfind w _ name t
  | deliver name t =>
      rename_i txn _ _ _
      have hfound := hfind w txn name t
      exact ⟨hfound.session, hfound.holder, hfound.tables, hfound.found⟩
  | alter => exact ⟨World.alter_session_ne h, fun _ => id, rfl, fun _ _ => find_apart h _ _⟩
  | publish => exact ⟨hfinish.session, hfinish.holder, hfinish.tables, hfinish.found⟩

omit [DecidableEq ι] in
theorem Apart.keeps (h : Apart i w w') : Keeps i w w' :=
  .of_same h.session fun t ht => ⟨h.holder t ht, fun _ _ => by rw [h.tables]⟩

/-- Nobody gets a lock by what another session is answered. -/
theorem Moves.locks (hij : i ≠ j) (h : Moves w j c w') :
    (∀ t, w'.holder t = some i → w.holder t = some i) ∧ ∀ t, w'.writers t i → w.writers t i := by
  have hfinish : (∀ t, (w.finish j).holder t = some i → w.holder t = some i) ∧
      ∀ t, (w.finish j).writers t i → w.writers t i :=
    ⟨fun _ ht => (World.finish_holder.mp ht).1, fun _ ht => ht.1⟩
  cases h with
  | finish => exact hfinish
  | publish => exact hfinish
  | @lock _ txn t =>
      refine ⟨fun t' ht' => ?_, fun _ => id⟩
      by_cases ht : t' = t
      · rw [ht, World.lock_holder_self] at ht'
        exact absurd (Option.some.inj ht') (Ne.symm hij)
      · rwa [World.lock_holder_ne ht] at ht'
  | strays hactive hstray h =>
      exact ⟨fun t => (h.holder t i hij).mp, fun t => (h.writers t i hij).mp⟩
  | alter =>
      refine ⟨fun _ => id, fun t ht => ?_⟩
      exact ht.resolve_right fun hself => hij hself.2
  | _ => exact ⟨fun _ => id, fun _ => id⟩

/-- No answer moves a table. -/
theorem Moves.tables (h : Moves w i c w') : w'.tables = w.tables := by
  cases h with
  | strays hactive hstray h => exact h.tables
  | _ => rfl

/-- What has been found stays found, and what has been read stays read. -/
theorem Moves.found (h : Moves w i c w') {name : String} {t : sv.Table} (hfound : w.found j name t) :
    w'.found j name t := by
  cases h with
  | strays hactive hstray h => exact h.found ▸ hfound
  | find => exact .inl hfound
  | deliver => exact .inl hfound
  | alter => exact .inl hfound
  | _ => exact hfound

theorem Moves.read (h : Moves w i c w') {q : String} {rows : Multiset sv.Row}
    (hread : w.read j q rows) : w'.read j q rows := by
  cases h with
  | strays hactive hstray h => exact h.read ▸ hread
  | deliver => exact .inl hread
  | _ => exact hread

theorem drift_records (h : sv.Drifts others w w') : w'.found = w.found ∧ w'.read = w.read := by
  cases h <;> exact ⟨rfl, rfl⟩

theorem Keeps.drift (h : sv.Drifts others w w') : Keeps i w w' := by
  cases h with
  | rows contents => exact .of_same rfl (.refl i w)
  | put hfree hunheld =>
      refine .of_same rfl fun t ht => ⟨ht, fun s n => World.put_tables hfree ?_⟩
      rintro rfl
      rw [hunheld] at ht
      cases ht
  | ends j =>
      by_cases hij : i = j
      · subst hij
        exact .of_ended World.finish_session_self
      · exact (Apart.finish hij).keeps

end Steps

/-! ### Runs -/

section Runs

variable {others : sv.Others ι} {α : ι → Type} {P : (i : ι) → Prog Cmd Reply (α i)}
  {w : sv.World ι} {s s' : Configuration Cmd Reply (sv.World ι) α} {who : Option ι}

theorem Sound.reachable (hfresh : w.Fresh) (hs : Reachable (sv.semantics others) P w s) :
    Sound s.world := by
  have hstart : Sound (start P w).world := .fresh hfresh
  refine @Reachable.invariant _ _ _ _ _ _ _ _ _ (fun s => Sound s.world) hstart
    (fun s s' who _ hsound hstep => ?_) hs
  cases hstep with
  | answer waiting hanswer => exact hsound.move (.of_answer hanswer)
  | progress waiting hprogress => exact absurd hprogress id
  | drift hdrift => exact hsound.drift hdrift

theorem Keeps.step (h : Step (sv.semantics others) s who s') (i : ι) :
    Keeps i s.world s'.world := by
  cases h with
  | answer waiting hanswer =>
      rename_i j _ _ _ _ _
      by_cases hij : i = j
      · subst hij
        exact .move (.of_answer hanswer)
      · exact (Apart.move hij (.of_answer hanswer)).keeps
  | progress waiting hprogress => exact absurd hprogress id
  | drift hdrift => exact .drift hdrift

theorem Keeps.run (hs : Reachable (sv.semantics others) P w s)
    (hrun : Steps (sv.semantics others) s s') (i : ι) : Keeps i s.world s'.world :=
  hs.relates (Keeps.refl i) Keeps.trans (fun _ _ _ _ hstep => .step hstep i) hrun

/-- What has been read stays read. -/
theorem read_run (hs : Reachable (sv.semantics others) P w s)
    (hrun : Steps (sv.semantics others) s s') {i : ι} {q : String} {rows : Multiset sv.Row}
    (hread : s.world.read i q rows) : s'.world.read i q rows := by
  refine hs.relates (Q := fun w w' => w.read i q rows → w'.read i q rows) (fun _ => id)
    (fun h h' => h' ∘ h) (fun s s' who _ hstep hread => ?_) hrun hread
  cases hstep with
  | answer waiting hanswer => exact (Moves.of_answer hanswer).read hread
  | progress waiting hprogress => exact absurd hprogress id
  | drift hdrift => exact (drift_records hdrift).2 ▸ hread

/-! ### What a name stands for -/

/-- Session `i` has found the name to mean a table that it has locked, and it
still means that. -/
structure Stands (i : ι) (name : String) (t : sv.Table) (w : sv.World ι) : Prop where
  found : w.found i name t
  holder : w.holder t = some i
  resolves : ∃ s n, sv.resolve w.tables name = some (s, n, t)

theorem drift_resolve {w w' : sv.World ι} {i : ι} {name schema n : String} {t : sv.Table}
    (hputs : ∀ w schema name, others.puts w schema name → LeavesNames w schema name)
    (h : sv.Drifts others w w') (hundecided : Undecided i w) (hfound : w.found i name t)
    (hheld : w.holder t = some i)
    (hresolve : sv.resolve w.tables name = some (schema, n, t)) :
    sv.resolve w'.tables name = some (schema, n, t) := by
  cases h with
  | rows => exact hresolve
  | put hfree hunheld hwriters hput =>
      refine resolve_put hfree ?_ ?_ hresolve
      · rintro rfl
        rw [hunheld] at hheld
        cases hheld
      · exact hputs w _ _ hput i name schema n t hundecided hheld hfound hresolve
  | ends => exact hresolve

theorem Stands.step {i : ι} {name : String} {t : sv.Table}
    (hputs : ∀ w schema name, others.puts w schema name → LeavesNames w schema name)
    (h : Stands i name t s.world) (hundecided : Undecided i s.world)
    (hstep : Step (sv.semantics others) s who s') (hholder : s'.world.holder t = some i) :
    Stands i name t s'.world := by
  obtain ⟨schema, n, hresolve⟩ := h.resolves
  cases hstep with
  | answer waiting hanswer =>
      have hmove := Moves.of_answer hanswer
      exact ⟨hmove.found h.found, hholder, schema, n, by rw [hmove.tables, hresolve]⟩
  | progress waiting hprogress => exact absurd hprogress id
  | drift hdrift =>
      have hfound := (drift_records hdrift).1 ▸ h.found
      exact ⟨hfound, hholder, schema, n, drift_resolve hputs hdrift hundecided h.found h.holder hresolve⟩

/-- **Names.**  What a name stands for it stands for until the statement is
executed. -/
theorem Stands.run {i : ι} {name : String} {t : sv.Table} {txn : sv.Transaction}
    (hputs : ∀ w schema name, others.puts w schema name → LeavesNames w schema name)
    (hs : Reachable (sv.semantics others) P w s) (hrun : Steps (sv.semantics others) s s')
    (hbegun : s.world.session i ≠ .idle) (h : Stands i name t s.world)
    (hactive : s'.world.session i = .active txn) (hordered : txn.ordered = true)
    (hfirst : txn.change = none) : Stands i name t s'.world := by
  induction hrun generalizing txn with
  | refl => exact h
  | @tail s₁ s' hbefore hnext ih =>
      obtain ⟨who, hstep⟩ := hnext
      have hidle : s₁.world.session i ≠ .idle := fun hidle => hbegun ((Keeps.run hs hbefore i).idle hidle)
      obtain ⟨txn₁, hactive₁, hextends, hholds⟩ :=
        ((Keeps.step hstep i).active txn hactive hordered).resolve_left hidle
      have hfirst₁ := hextends.change_none hfirst
      have h₁ := ih hactive₁ hextends.ordered hfirst₁
      exact h₁.step hputs ⟨txn₁, hactive₁, hfirst₁⟩ hstep (hholds t h₁.holder).1

/-! ### Ordered transactions -/

/-- A command that reads or changes rows, and so fixes the snapshot. -/
def Looks (c : Cmd) : Prop := c.channel = .query ∨ c.channel = .execute

theorem Straight.mono {h t : History} (hs : sv.Straight t) (hp : h <+: t) : sv.Straight h :=
  fun e he => hs e (hp.subset he)

omit [DecidableEq ι] in
variable (sv) in
/-- What strays goes to the server. -/
theorem channel_of_stray {c : Cmd} (h : sv.Stray c) :
    c.channel ∈ [Channel.batch, .query, .execute] := by
  cases c
  case batchExecute | query | execute => simp [Cmd.channel]
  all_goals exact h.elim

theorem Straight.append {h t : History} (hs : sv.Straight h) (ht : sv.Straight t) :
    sv.Straight (h ++ t) := fun e he => (List.mem_append.mp he).elim (hs e) (ht e)

theorem Straight.last {h : History} {e : Event Cmd Reply} (hs : sv.Straight (h ++ [e])) :
    ¬ sv.Stray e.cmd := hs e (by simp)

variable (sv) in
/-- REPEATABLE READ and READ WRITE, nothing that strays, and every lock before
everything that fixes the snapshot. -/
structure Orderly (h : History) : Prop where
  opening : ∀ isolation readOnly, ⟨.start isolation readOnly, true⟩ ∈ h →
    isolation = .repeatableRead ∧ readOnly = false
  straight : sv.Straight h
  early : ∀ t sql, t ++ [⟨.batchExecute sql, true⟩] <+: h → ∀ e ∈ t, ¬ Looks e.cmd

theorem Orderly.mono {h t : History} (ho : sv.Orderly t) (hp : h <+: t) : sv.Orderly h where
  opening isolation readOnly he := ho.opening isolation readOnly (hp.subset he)
  straight := ho.straight.mono hp
  early t' sql ht' := ho.early t' sql (ht'.trans hp)

/-- Session `i` is not in a transaction, or in one that is ordered, may write and
has no snapshot as long as nothing has fixed one. -/
def Ordered (i : ι) (h : History) (w : sv.World ι) : Prop :=
  sv.Orderly h → ∀ txn, w.session i = .active txn →
    txn.ordered = true ∧ txn.readOnly = false ∧ ((∀ e ∈ h, ¬ Looks e.cmd) → txn.snapshot = none)

omit [DecidableEq ι] in
/-- An answer that leaves the transaction, or the snapshot after something that
has fixed it. -/
theorem Ordered.extend {i : ι} {h : History} {w w' : sv.World ι} {e : Event Cmd Reply}
    (ho : Ordered i h w)
    (hstep : ∀ txn', w'.session i = .active txn' → sv.Orderly (h ++ [e]) →
      ∃ txn, w.session i = .active txn ∧ (txn.ordered = true →
        ((∀ e ∈ h, ¬ Looks e.cmd) → txn.snapshot = none) → txn'.ordered = true) ∧
        txn'.readOnly = txn.readOnly ∧ (Looks e.cmd ∨ txn'.snapshot = txn.snapshot)) : Ordered i (h ++ [e]) w' := by
  intro hnext txn' hactive'
  obtain ⟨txn, hactive, hordered, hreadOnly, hsnapshot⟩ := hstep txn' hactive' hnext
  obtain ⟨hbefore, hwritable, hnone⟩ := ho (hnext.mono (List.prefix_append _ _)) txn hactive
  refine ⟨hordered hbefore hnone, hreadOnly.trans hwritable, fun hlooks => ?_⟩
  have hsame := hsnapshot.resolve_left (hlooks e (by simp))
  rw [hsame]
  exact hnone fun e he => hlooks e (List.mem_append_left _ he)

section Queries

variable {i : ι} {w w' : sv.World ι} {txn : sv.Transaction} {q : String} {params : List SqlValue}
  {rows : List DmlPact.Row} (hquiet : txn.readOnly = false → ¬ sv.Stray (.query q params))
  (h : sv.Queries w i txn q params rows w')

include hquiet h

/-- A query that changes no data, or is not let, leaves its transaction reading, -/
theorem queries_session : w'.session i = .active { txn with snapshot := some (w.view txn) } := by
  cases h
  case stray hwritable hstray _ => exact absurd hstray (hquiet hwritable)
  all_goals exact World.see_session_self

/-- and the locks of all. -/
theorem queries_locks : w'.holder = w.holder ∧ w'.writers = w.writers := by
  cases h
  case stray hwritable hstray _ => exact absurd hstray (hquiet hwritable)
  all_goals exact ⟨rfl, rfl⟩

end Queries

/-- The own answers. -/
theorem Ordered.answer {i : ι} {h : History} {w w' : sv.World ι} {c : Cmd} {r : Reply c}
    (ho : Ordered i h w) (hanswer : sv.Answers i w c r w') : Ordered i (h ++ [⟨c, r⟩]) w' := by
  -- a session that has ended has no transaction, so nothing is left to show
  have hended : ∀ {w' : sv.World ι} {e : Event Cmd Reply}, w'.session i = .ended →
      Ordered i (h ++ [e]) w' :=
    fun hsession _ _ hactive => absurd (hsession.symm.trans hactive) nofun
  have hsame : ∀ {e : Event Cmd Reply}, Ordered i (h ++ [e]) w :=
    ho.extend fun txn hactive _ => ⟨txn, hactive, fun hordered _ => hordered, rfl, .inr rfl⟩
  cases c
  case start isolation readOnly =>
    rcases hanswer with ⟨rfl, -, rfl⟩ | ⟨-, rfl⟩
    · intro hnext txn hactive
      rw [World.begin_session_self] at hactive
      cases hactive
      obtain ⟨hisolation, hwritable⟩ := hnext.opening isolation readOnly (by simp)
      exact ⟨decide_eq_true hisolation, hwritable, fun _ => rfl⟩
    · exact hsame
  case batchExecute sql =>
    rcases hanswer with ⟨rfl, txn, hactive, hbatch⟩ | ⟨-, rfl⟩
    · cases hbatch with
      | lock hsql htable hholder hwriters =>
          refine ho.extend fun txn' hactive' hnext => ⟨txn, hactive, ?_, ?_⟩
          · intro hordered hnone
            rw [World.lock_session_self] at hactive'
            cases hactive'
            -- the lock comes before the first query, so before the snapshot
            have hfirst := hnone (hnext.early h sql List.prefix_rfl)
            show (txn.ordered && txn.snapshot.isNone) = true
            rw [hordered, hfirst]
            rfl
          · rw [World.lock_session_self] at hactive'
            cases hactive'
            exact ⟨rfl, .inr rfl⟩
      | settings => exact hsame
      | stray hstray => exact fun hnext => absurd hstray hnext.straight.last
    · exact hended World.finish_session_self
  case query sql params =>
    rcases hanswer with ⟨-, txn, hactive, hquery⟩ | ⟨-, rfl⟩
    · refine ho.extend fun txn' hactive' hnext =>
        ⟨txn, hactive, fun hordered _ => ?_, ?_, .inl (.inl rfl)⟩
      all_goals
        rw [queries_session (fun _ => hnext.straight.last) hquery] at hactive'
        cases hactive'
      · exact hordered
      · rfl
    · exact hended World.finish_session_self
  case execute sql =>
    rcases hanswer with ⟨n, txn, -, hactive, hexecute⟩ | ⟨-, rfl⟩
    · refine ho.extend fun txn' hactive' hnext =>
        ⟨txn, hactive, fun hordered _ => ?_, ?_, .inl (.inr rfl)⟩
      all_goals
        cases hexecute
        case stray hstray _ => exact absurd hstray hnext.straight.last
        have hsession := World.alter_session_self.symm.trans hactive'
        cases hsession
      · exact hordered
      · rfl
    · exact hended World.finish_session_self
  case commit =>
    rcases hanswer with ⟨txn, -, hcommit⟩ | ⟨-, rfl⟩
    · cases hcommit <;> exact hended World.finish_session_self
    · exact hended World.finish_session_self
  case rollback =>
    obtain rfl : w' = _ := hanswer
    exact hended World.finish_session_self
  all_goals
    obtain rfl : w' = w := hanswer
    exact hsame

theorem drift_session {i : ι} {w w' : sv.World ι} (h : sv.Drifts others w w') :
    w'.session i = w.session i ∨ w'.session i = .ended := by
  cases h with
  | rows => exact .inl rfl
  | put => exact .inl rfl
  | ends j =>
      by_cases hij : i = j
      · subst hij
        exact .inr World.finish_session_self
      · exact .inl (World.finish_session_ne hij)

/-- **Ordered transactions.**  In every reachable configuration. -/
theorem Ordered.reachable (hfresh : w.Fresh) (hs : Reachable (sv.semantics others) P w s) (i : ι) :
    Ordered i (s.procs i).history s.world := by
  have hstart : Ordered i ((start P w).procs i).history (start P w).world :=
    fun _ txn hactive => absurd ((hfresh.session i).symm.trans hactive) nofun
  refine @Reachable.invariant _ _ _ _ _ _ _ _ _
    (fun s => Ordered i (s.procs i).history s.world) hstart (fun s s' who _ ho hstep => ?_) hs
  cases hstep with
  | answer waiting hanswer hmoved hothers =>
      rename_i j c r k
      by_cases hij : i = j
      · subst hij
        rw [hmoved]
        exact ho.answer hanswer
      · rw [hothers i hij]
        intro horderly txn hactive
        rw [(Apart.move hij (.of_answer hanswer)).session] at hactive
        exact ho horderly txn hactive
  | progress waiting hprogress => exact absurd hprogress id
  | drift hdrift hprocs =>
      rw [hprocs]
      intro horderly txn hactive
      rcases drift_session (i := i) hdrift with hsame | hended
      · exact ho horderly txn (hsame.symm.trans hactive)
      · exact absurd (hended.symm.trans hactive) nofun

/-! ### The log -/

/-- A commit at the moment it is made: its session has sent COMMIT for it. -/
structure Commits.At (c : sv.Commit ι) (s s' : Configuration Cmd Reply (sv.World ι) α) : Prop where
  waiting : ∃ k, (s.procs c.session).rest = .call .commit k
  active : ∃ txn, s.world.session c.session = .active txn ∧ txn.change = some c.change
  rest : ∃ rest, s.world.contents c.change.table = c.change.removed + rest ∧
    c.after = Function.update s.world.contents c.change.table (rest + c.change.added)
  tables : c.tables = s.world.tables
  holder : c.holder = s.world.holder
  before : c.before = s.world.contents
  after : s'.world.contents = c.after
  ended : s'.world.session c.session = .ended
  log : s'.world.log = s.world.log ++ [c]

theorem Moves.log {i : ι} {w w' : sv.World ι} {c : Cmd} (h : Moves w i c w') :
    w'.log = w.log ∨ c = .commit ∧ ∃ txn ch rest, w.session i = .active txn ∧
      txn.change = some ch ∧ w.contents ch.table = ch.removed + rest ∧
      w' = (w.publish i ch rest).finish i := by
  cases h with
  | strays hactive hstray h => exact .inl h.log
  | publish hactive hchange hrest => exact .inr ⟨rfl, _, _, _, hactive, hchange, hrest, rfl⟩
  | _ => exact .inl rfl

theorem drift_log {w w' : sv.World ι} (h : sv.Drifts others w w') : w'.log = w.log := by
  cases h <;> rfl

/-- A step that is not a commit leaves the log. -/
theorem log_step (h : Step (sv.semantics others) s who s') :
    s'.world.log = s.world.log ∨ ∃ c, who = some c.session ∧ Commits.At c s s' := by
  cases h with
  | answer waiting hanswer =>
      rcases (Moves.of_answer hanswer).log with hsame | ⟨rfl, txn, ch, rest, hactive, hchange, hrest, hw⟩
      · exact .inl hsame
      · refine .inr ⟨⟨_, ch, s.world.tables, s.world.holder, s.world.contents,
          Function.update s.world.contents ch.table (rest + ch.added)⟩, rfl, ⟨_, waiting⟩,
          ⟨txn, hactive, hchange⟩, ⟨rest, hrest, rfl⟩, rfl, rfl, rfl, ?_, ?_, ?_⟩
        all_goals rw [hw]
        · rfl
        · exact World.finish_session_self
        · rfl
  | progress waiting hprogress => exact absurd hprogress id
  | drift hdrift => exact .inl (drift_log hdrift)

/-- **The log.**  Every commit in it was made at some moment of the run. -/
theorem log_moment (hfresh : w.Fresh) (hs : Reachable (sv.semantics others) P w s) :
    ∀ c ∈ s.world.log, ∃ s₁ s₂, Reachable (sv.semantics others) P w s₁ ∧ Commits.At c s₁ s₂ ∧
      Steps (sv.semantics others) s₁ s := by
  have hstart : ∀ c ∈ (start P w).world.log, ∃ s₁ s₂, Reachable (sv.semantics others) P w s₁ ∧
      Commits.At c s₁ s₂ ∧ Steps (sv.semantics others) s₁ (start P w) := by
    intro c hc
    rw [show (start P w).world.log = [] from hfresh.log] at hc
    cases hc
  refine @Reachable.invariant _ _ _ _ _ _ _ _ _ (fun s => ∀ c ∈ s.world.log, ∃ s₁ s₂,
    Reachable (sv.semantics others) P w s₁ ∧ Commits.At c s₁ s₂ ∧
      Steps (sv.semantics others) s₁ s) hstart (fun s s' who hs ih hstep c hc => ?_) hs
  have hlater : c ∈ s.world.log → ∃ s₁ s₂, Reachable (sv.semantics others) P w s₁ ∧
      Commits.At c s₁ s₂ ∧ Steps (sv.semantics others) s₁ s' := by
    intro hmem
    obtain ⟨s₁, s₂, hs₁, hcommit, hsteps⟩ := ih c hmem
    exact ⟨s₁, s₂, hs₁, hcommit, hsteps.tail ⟨who, hstep⟩⟩
  rcases log_step hstep with hsame | ⟨c', -, hcommit⟩
  · exact hlater (hsame ▸ hc)
  · rw [hcommit.log] at hc
    rcases List.mem_append.mp hc with hmem | hmem
    · exact hlater hmem
    · obtain rfl := List.mem_singleton.mp hmem
      exact ⟨s, s', hs, hcommit, .single ⟨who, hstep⟩⟩

end Runs

end Server

end DmlPact
