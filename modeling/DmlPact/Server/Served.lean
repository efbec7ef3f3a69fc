/-
DmlPact/Server/Served.lean

The other side: a server that nobody disturbs serves what the approvals
describe, up to the commit.  A transaction that only reads changes nothing but
its own session (`Reading`), so its queries are served one after the other, and
then the statement and COMMIT.
-/
import DmlPact.Plan.Applies
import DmlPact.Policy.Literals
import DmlPact.Server.Committed

namespace DmlPact

namespace Server

open Effect RowChange

variable {sv : Server} {ι : Type} [DecidableEq ι] (others : sv.Others ι) {i : ι}
  {w w' : sv.World ι} {S : sv.Snapshot} {readOnly : Bool}

/-! ### Reading -/

/-- What a target query shows of these contents. -/
def Shown (sv : Server) (contents : sv.Table → Multiset sv.Row) (q : String)
    (rows : Multiset sv.Row) : Prop :=
  ∃ requested selected t, sv.query q = some (requested, selected) ∧
    rows = matching selected (contents t)

/-- Session `i` reads the snapshot `S`, in a world that is otherwise `w`. -/
structure Reading (i : ι) (S : sv.Snapshot) (readOnly : Bool) (w w' : sv.World ι) : Prop where
  session : w'.session i = .active ⟨some S, none, true, readOnly⟩
  apart : ∀ j, j ≠ i → w'.session j = w.session j
  tables : w'.tables = w.tables
  contents : w'.contents = w.contents
  holder : w'.holder = w.holder
  writers : w'.writers = w.writers
  read : ∀ j q rows, w'.read j q rows → w.read j q rows ∨ Shown sv S.contents q rows
  log : w'.log = w.log

namespace Reading

theorem see (h : Reading i S readOnly w w') :
    Reading i S readOnly w (w'.see i ⟨some S, none, true, readOnly⟩) :=
  ⟨World.see_session_self, fun j hj => (World.see_session_ne hj).trans (h.apart j hj), h.tables,
    h.contents, h.holder, h.writers, h.read, h.log⟩

omit [DecidableEq ι] in
theorem find (h : Reading i S readOnly w w') (name : String) (t : sv.Table) :
    Reading i S readOnly w (w'.find i name t) :=
  ⟨h.session, h.apart, h.tables, h.contents, h.holder, h.writers, h.read, h.log⟩

omit [DecidableEq ι] in
theorem deliver (h : Reading i S readOnly w w') {q : String} {rows : Multiset sv.Row}
    (hshown : Shown sv S.contents q rows) : Reading i S readOnly w (w'.deliver i q rows) := by
  refine ⟨h.session, h.apart, h.tables, h.contents, h.holder, h.writers, ?_, h.log⟩
  rintro j q' rows' (hread | ⟨-, rfl, rfl⟩)
  · exact h.read j q' rows' hread
  · exact .inr hshown

omit [DecidableEq ι] in
theorem put (h : Reading i S readOnly w w') (schema name : String) (t : sv.Table) :
    Reading i S readOnly (w.put schema name t) (w'.put schema name t) := by
  refine ⟨h.session, h.apart, ?_, h.contents, h.holder, h.writers, h.read, h.log⟩
  funext s n
  show (if s = schema ∧ n = name then some t
    else if w'.tables s n = some t then none else w'.tables s n) = _
  rw [h.tables]
  rfl

/-- The first query fixes the snapshot. -/
theorem first : Reading i ⟨w.tables, w.contents⟩ readOnly w
    (w.see i ⟨none, none, true, readOnly⟩) :=
  ⟨World.see_session_self, fun _ hj => World.see_session_ne hj, rfl, rfl, rfl, rfl,
    fun _ _ _ => .inl, rfl⟩

end Reading

/-- A query that is neither a lookup nor a target query. -/
def Plain (sv : Server) (e : Event Cmd Reply) : Prop :=
  ∃ q params rows, e = ⟨.query q params, ⟨rows, true⟩⟩ ∧
    (∀ requested, ¬ (q = tableLookupSql ∧ params = [.text requested])) ∧
    (params = [] → sv.query q = none)

/-- The first query of a transaction. -/
theorem serves_first (hactive : w.session i = .active ⟨none, none, true, readOnly⟩)
    {e : Event Cmd Reply} (he : Plain sv e) : ∃ w', (sv.semantics others).Serves i w [e] w' ∧
      Reading i ⟨w.tables, w.contents⟩ readOnly w w' ∧ w'.read = w.read := by
  obtain ⟨q, params, rows, rfl, hlookup, htarget⟩ := he
  exact ⟨_, .cons (.inl ⟨rfl, _, hactive, .other hlookup htarget⟩) (.nil _), .first, rfl⟩

theorem serves_plain {h : History} (hr : Reading i S readOnly w w') (hh : ∀ e ∈ h, Plain sv e) :
    ∃ w'', (sv.semantics others).Serves i w' h w'' ∧ Reading i S readOnly w w'' ∧
      w''.read = w'.read := by
  induction h generalizing w' with
  | nil => exact ⟨w', .nil w', hr, rfl⟩
  | cons e h ih =>
      obtain ⟨q, params, rows, rfl, hlookup, htarget⟩ := hh e List.mem_cons_self
      obtain ⟨w'', hserves, hr'', hread⟩ := ih hr.see fun e he => hh e (List.mem_cons_of_mem _ he)
      exact ⟨w'', .cons (.inl ⟨rfl, _, hr.session, .other hlookup htarget⟩) hserves, hr'', hread⟩

theorem serves_lookup (hr : Reading i S readOnly w w') {requested s n schema name : String}
    {t : sv.Table} {row : DmlPact.Row} (hfound : sv.resolve w.tables requested = some (s, n, t))
    (hshown : S.tables schema name = some t) (hschema : DmlPact.Row.get row 1 = some schema)
    (hname : DmlPact.Row.get row 2 = some name) :
    ∃ w'', (sv.semantics others).Serves i w'
        [⟨.query tableLookupSql [.text requested], ⟨[row], true⟩⟩] w'' ∧ Reading i S readOnly w w'' ∧
      w''.read = w'.read := by
  have hanswer : sv.Queries w' i ⟨some S, none, true, readOnly⟩ tableLookupSql [.text requested] [row]
      ((w'.see i ⟨some S, none, true, readOnly⟩).find i requested t) :=
    .lookup (by rw [hr.tables]; exact hfound) hshown hschema hname
  exact ⟨_, .cons (.inl ⟨rfl, _, hr.session, hanswer⟩) (.nil _), hr.see.find requested t, rfl⟩

theorem serves_target (hr : Reading i S readOnly w w') {q requested s n : String} {t : sv.Table}
    {selected : sv.Row → Bool} (hq : sv.query q = some (requested, selected))
    (hfound : sv.resolve w.tables requested = some (s, n, t)) :
    ∃ w'', (sv.semantics others).Serves i w'
        [⟨.query q [], ⟨textRows (sv.texts (matching selected (S.contents t))), true⟩⟩] w'' ∧
      Reading i S readOnly w w'' ∧ w''.read i q (matching selected (S.contents t)) := by
  have hanswer := @Queries.target sv ι _ w' i ⟨some S, none, true, readOnly⟩ q requested selected s n t hq
    (by rw [hr.tables]; exact hfound)
  exact ⟨_, .cons (.inl ⟨rfl, _, hr.session, hanswer⟩) (.nil _),
    (hr.see.find requested t).deliver ⟨requested, selected, t, hq, rfl⟩,
    .inr ⟨rfl, rfl, rfl⟩⟩

/-! ### Changing -/

/-- What is left by a session that has committed `action` on the rows of `t`:
the change is in the log, and no lock is held for it. -/
structure Leaves (i : ι) (t : sv.Table) (action : Action sv.Row) (w w' : sv.World ι)
    (c : sv.Commit ι) : Prop where
  log : w'.log = w.log ++ [c]
  session : c.session = i
  table : c.change.table = t
  removed : c.change.removed = action.removed (w.contents t)
  place : c.tables = w.tables
  before : c.before = w.contents
  after : c.after = w'.contents
  tables : w'.tables = w.tables
  contents : w'.contents = Function.update w.contents t (action.result (w.contents t))
  holder : ∀ t, (∀ j, w.holder t = some j → j = i) → w'.holder t = none
  writers : ∀ t j, w'.writers t j → w.writers t j
  apart : ∀ j, j ≠ i → w'.session j = w.session j

/-- The statement and COMMIT. -/
theorem serves_change (hr : Reading i S false w w') {sql requested s n : String} {t : sv.Table}
    {action : Action sv.Row} {count : UInt64} (hseen : S.contents = w.contents)
    (hsql : sv.statement sql = some (requested, action))
    (hfound : sv.resolve w.tables requested = some (s, n, t))
    (hholder : ∀ j, w.holder t = some j → j = i)
    (hcount : count.toNat = action.affected (w.contents t)) :
    ∃ w'' c, (sv.semantics others).Serves i w' [⟨.execute sql, .ok count⟩, ⟨.commit, true⟩] w'' ∧
      Leaves i t action w w'' c ∧ w''.read = w'.read := by
  obtain ⟨rest, hrest⟩ := Multiset.le_iff_exists_add.mp (action.removed_le (w.contents t))
  have hexecute := @Executes.mk sv ι _ w' i ⟨some S, none, true, false⟩ sql requested action s n t count
    rfl rfl hsql (by rw [hr.tables]; exact hfound) (by rw [hr.holder]; exact hholder)
    (by
      show action.removed (S.contents t) ≤ w'.contents t
      rw [hseen, hr.contents]
      exact action.removed_le _)
    (by
      show count.toNat = action.affected (S.contents t)
      rw [hseen]
      exact hcount)
  -- the session after the change, which the commit publishes
  have hactive : ((w'.alter i ⟨some S, none, true, false⟩ ⟨sql, t, action.removed (S.contents t),
      action.added (S.contents t)⟩).find i requested t).session i =
        .active ⟨some S, some ⟨sql, t, action.removed (S.contents t), action.added (S.contents t)⟩,
          true, false⟩ := World.alter_session_self
  have hcommit : sv.Answers i ((w'.alter i ⟨some S, none, true, false⟩ ⟨sql, t,
      action.removed (S.contents t), action.added (S.contents t)⟩).find i requested t) .commit true _ :=
    .inl ⟨_, hactive, .change rfl (by
      show w'.contents t = action.removed (S.contents t) + rest
      rw [hseen, hr.contents]
      exact hrest)⟩
  have hafter : Function.update w'.contents t (rest + action.added (S.contents t)) =
      Function.update w.contents t (action.result (w.contents t)) := by
    rw [hseen, hr.contents, Action.result_eq hrest]
  refine ⟨_, ⟨i, ⟨sql, t, action.removed (S.contents t), action.added (S.contents t)⟩, w'.tables,
    w'.holder, w'.contents, Function.update w'.contents t (rest + action.added (S.contents t))⟩,
    .cons (.inl ⟨count, _, rfl, hr.session, hexecute⟩) (.cons hcommit (.nil _)), ?_, rfl⟩
  constructor
  case log => exact congrArg (· ++ [_]) hr.log
  case session => rfl
  case table => rfl
  case removed => exact congrArg (fun contents => action.removed (contents t)) hseen
  case place => exact hr.tables
  case before => exact hr.contents
  case after => rfl
  case tables => exact hr.tables
  case contents => exact hafter
  case holder =>
    intro t' ht'
    show (w'.holder t').filter _ = none
    rw [hr.holder, Option.filter_eq_none_iff]
    intro j hj
    simp [ht' j hj]
  case writers =>
    rintro t' j ⟨hwrites | ⟨-, rfl⟩, hne⟩
    · rwa [← hr.writers]
    · exact absurd rfl hne
  case apart =>
    intro j hj
    rw [World.finish_session_ne hj]
    exact (World.alter_session_ne hj).trans (hr.apart j hj)

/-! ### Opening and closing -/

/-- What does not go to the server leaves it as it is. -/
theorem serves_quiet {h : History} (hh : ∀ e ∈ h, e.cmd.channel ∈ [Channel.read, .clock, .write,
    .environment, .connect]) (i : ι) (w : sv.World ι) : (sv.semantics others).Serves i w h w := by
  refine .of_quiet fun e he => ?_
  have hchannel := hh e he
  obtain ⟨c, r⟩ := e
  cases c <;> first | exact rfl | exact absurd hchannel (by simp [Cmd.channel])

/-- A transaction is begun, its limits are set and a table that is free is
locked. -/
theorem serves_session (hidle : w.session i = .idle) {plan : Plan} {schema name : String}
    {t : sv.Table} (hcanonical : plan.preconditions.canonicalTable = qualified schema name)
    (htable : w.tables schema name = some t) (hfree : w.holder t = none)
    (hwriters : ∀ j, ¬ w.writers t j) :
    ∃ w', (sv.semantics others).Serves i w (sessionHistory plan) w' ∧
      w'.session i = .active ⟨none, none, true, false⟩ ∧ w'.tables = w.tables ∧
      w'.contents = w.contents ∧ w'.holder = Function.update w.holder t (some i) ∧
      w'.writers = w.writers ∧ w'.read = w.read ∧ w'.log = w.log ∧
      ∀ j, j ≠ i → w'.session j = w.session j := by
  have hactive : (w.begin i .repeatableRead false).session i = .active ⟨none, none, true, false⟩ :=
    World.begin_session_self
  have hlock : sv.Batches (w.begin i .repeatableRead false) i ⟨none, none, true, false⟩
      (lockText plan.preconditions.canonicalTable)
      ((w.begin i .repeatableRead false).lock i ⟨none, none, true, false⟩ t) := by
    rw [hcanonical]
    refine .lock rfl htable (fun j hj => ?_) fun j hj => absurd hj (hwriters j)
    rw [show (w.begin i .repeatableRead false).holder t = none from hfree] at hj
    cases hj
  exact ⟨_, .cons (.inl ⟨rfl, hidle, rfl⟩) (.cons (.inl ⟨rfl, _, hactive, .settings rfl⟩)
    (.cons (.inl ⟨rfl, _, hactive, hlock⟩) (.nil _))), World.lock_session_self, rfl, rfl,
    rfl, rfl, rfl, rfl,
    fun j hj => (World.lock_session_ne hj).trans (World.begin_session_ne hj)⟩

/-! ### Looking -/

/-- A server for which the queries of its own are no target queries of `analyzed`. -/
structure Distinguishes (sv : Server) (analyzed : AnalyzedSql) : Prop where
  identity : sv.query identitySql = none
  count : ∀ q, analyzed.countSql = some q → sv.query q = none
  explain : sv.query (explainText analyzed.normalized) = none

theorem serves_evidence (hr : Reading i S readOnly w w') (answers : EvidenceAnswers) (oid : Int64)
    {requested s n schema name : String} {t : sv.Table}
    (hfound : sv.resolve w.tables requested = some (s, n, t))
    (hshown : S.tables schema name = some t)
    (hschema : DmlPact.Row.get answers.lookup 1 = some schema)
    (hname : DmlPact.Row.get answers.lookup 2 = some name) :
    ∃ w'', (sv.semantics others).Serves i w' (answers.history requested oid) w'' ∧
      Reading i S readOnly w w'' ∧ w''.read = w'.read := by
  obtain ⟨w₁, hlookup, hr₁, hread₁⟩ := serves_lookup others hr hfound hshown hschema hname
  -- the other queries are about the table that was found, by its number
  have hplain : ∀ e ∈ ([(columnSql, answers.columns), (constraintSql, answers.constraints),
      (indexSql, answers.indexes), (triggerSql, answers.userTriggers),
      (ruleSql, answers.rewriteRules), (policySql, answers.policies),
      (inheritanceSql, answers.inheritanceRelations),
      (referentialActionSql, answers.referentialActions)].map fun q =>
        (⟨.query q.1 [.int8 oid], ⟨q.2, true⟩⟩ : Event Cmd Reply)), Plain sv e := by
    intro e he
    obtain ⟨q, -, rfl⟩ := List.mem_map.mp he
    exact ⟨q.1, _, q.2, rfl, fun _ => nofun, nofun⟩
  obtain ⟨w₂, hrest, hr₂, hread₂⟩ := serves_plain others hr₁ hplain
  exact ⟨w₂, hlookup.append hrest, hr₂, hread₂.trans hread₁⟩

/-- The counting and the target query. -/
theorem serves_targeted {analyzed : AnalyzedSql} (hdistinct : sv.Distinguishes analyzed)
    (hr : Reading i S readOnly w w') {count : UInt64} {counting : History}
    (hcounted : Reaches (targetCount analyzed).run counting (.ret (.ok count)))
    {q requested s n : String} {t : sv.Table} {selected : sv.Row → Bool}
    (hq : sv.query q = some (requested, selected))
    (hfound : sv.resolve w.tables requested = some (s, n, t)) :
    ∃ w'', (sv.semantics others).Serves i w' (counting ++
        [⟨.query q [], ⟨textRows (sv.texts (matching selected (S.contents t))), true⟩⟩]) w'' ∧
      Reading i S readOnly w w'' ∧ w''.read i q (matching selected (S.contents t)) := by
  have hplain : ∀ e ∈ counting, Plain sv e := by
    rcases targetCount_ok.mp hcounted with ⟨-, rfl, -⟩ | ⟨q', row, _, hquery, -, -, -, rfl⟩
    · exact fun e he => absurd he List.not_mem_nil
    · intro e he
      obtain rfl := List.mem_singleton.mp he
      exact ⟨q', [], [row], rfl, fun _ hlookup => (nomatch hlookup.2), fun _ => hdistinct.count q' hquery⟩
  obtain ⟨w₁, hcounting, hr₁, -⟩ := serves_plain others hr hplain
  obtain ⟨w₂, htarget, hr₂, hread⟩ := serves_target others hr₁ hq hfound
  exact ⟨w₂, hcounting.append htarget, hr₂, hread⟩

end Server

/-! ### The run of an approval -/

open Effect RowChange Server

namespace Approval

variable {X : Crates} {options : ApplyOptions} (a : Approval X options) {sv : Server} {ι : Type}
  [DecidableEq ι] (others : sv.Others ι) {i : ι} {w : sv.World ι} {t : sv.Table}

/-- The run of an approval as far as the evidence. -/
def locating : History :=
  a.admissionHistory ++ a.receiptHistory ++ a.connectionHistory ++ sessionHistory a.plan ++
    (⟨.query identitySql [], ⟨[a.identityRow], true⟩⟩ ::
      a.evidenceAnswers.history a.analyzed.requestedTable a.oid)

/-- **The way to the evidence.**  A free table that the name means is locked and
looked up. -/
theorem serves_locating (hdistinct : sv.Distinguishes a.analyzed) {s n : String}
    (hidle : w.session i = .idle) (hfree : w.holder t = none) (hwriters : ∀ j, ¬ w.writers t j)
    (htable : w.tables a.observed.evidence.schema a.observed.evidence.table = some t)
    (hfound : sv.resolve w.tables a.analyzed.requestedTable = some (s, n, t)) :
    ∃ w₁ w', (sv.semantics others).Serves i w a.locating w' ∧
      Reading i ⟨w.tables, w.contents⟩ false w₁ w' ∧ w₁.tables = w.tables ∧ w₁.contents = w.contents ∧
      w₁.holder = Function.update w.holder t (some i) ∧ w₁.writers = w.writers ∧
      w₁.read = w.read ∧ w'.read = w.read ∧ w₁.log = w.log ∧
      ∀ j, j ≠ i → w₁.session j = w.session j := by
  obtain ⟨hschema, hname⟩ := EvidenceAnswers.names a.evidence_decoded
  have hquiet := serves_quiet others (fun _ he => a.channel_of_opening he) i w
  obtain ⟨w₁, hsession, hactive, htables, hcontents, hholder, hwriting, hread, hlog, hapart⟩ :=
    serves_session others hidle a.canonical htable hfree hwriters
  have hplain : Plain sv ⟨.query identitySql [], ⟨[a.identityRow], true⟩⟩ :=
    ⟨identitySql, [], [a.identityRow], rfl, fun _ h => (nomatch h.2), fun _ => hdistinct.identity⟩
  obtain ⟨w₂, hidentity, hr₂, hread₂⟩ := serves_first others hactive hplain
  rw [htables, hcontents] at hr₂
  obtain ⟨w₃, hevidence, hr₃, hread₃⟩ := serves_evidence others hr₂ a.evidenceAnswers a.oid
    (by rw [htables]; exact hfound) htable hschema hname
  exact ⟨w₁, w₃, (hquiet.append hsession).append (hidentity.append hevidence), hr₃, htables,
    hcontents, hholder, hwriting, hread, hread₃.trans (hread₂.trans hread), hlog, hapart⟩

theorem history_locating : a.history = a.locating ++ (a.countHistory ++ a.targetHistory) := by
  simp only [history, driftHistory, locating, List.append_assoc, List.cons_append]

/-- The run of an approval up to COMMIT. -/
def committing : History :=
  a.history ++ [⟨.execute a.analyzed.normalized, .ok a.plan.preconditions.targetCount⟩, ⟨.commit, true⟩]

theorem reaches_committing : ∃ q, Reaches (applyPlan X options).run a.committing q := by
  have hreaches := a.reaches_committed 0
  rw [committedHistory, ← List.append_assoc, a.agrees.count] at hreaches
  obtain ⟨q, hbefore, -⟩ := hreaches.split
  exact ⟨q, hbefore⟩

/-- **The whole run.**  With nobody in its way an approved change is served and
committed. -/
theorem serves_committed (hdistinct : sv.Distinguishes a.analyzed) {q s n : String}
    {selected : sv.Row → Bool} {action : Action sv.Row} (hidle : w.session i = .idle)
    (hfree : w.holder t = none) (hwriters : ∀ j, ¬ w.writers t j)
    (htable : w.tables a.observed.evidence.schema a.observed.evidence.table = some t)
    (hfound : sv.resolve w.tables a.analyzed.requestedTable = some (s, n, t))
    (hq : sv.query q = some (a.analyzed.requestedTable, selected))
    (hsql : sv.statement a.analyzed.normalized = some (a.analyzed.requestedTable, action))
    (htarget : a.targetHistory =
      [⟨.query q [], ⟨textRows (sv.texts (matching selected (w.contents t))), true⟩⟩])
    (hcount : a.plan.preconditions.targetCount.toNat = action.affected (w.contents t)) :
    ∃ w' c, (sv.semantics others).Serves i w a.committing w' ∧ Leaves i t action w w' c ∧
      ∀ j q rows, w'.read j q rows → w.read j q rows ∨ Shown sv w.contents q rows := by
  obtain ⟨w₁, w₂, hlocating, hr₂, htables, hcontents, hholder, hwriting, hread, -, hlog, hapart⟩ :=
    a.serves_locating others hdistinct hidle hfree hwriters htable hfound
  -- no table has moved since the plan looked the name up
  rw [← htables] at hfound
  obtain ⟨w₃, htargeted, hr₃, -⟩ := serves_targeted others hdistinct hr₂ a.counted hq hfound
  rw [← htarget] at htargeted
  have hheld : ∀ j, w₁.holder t = some j → j = i := by
    intro j hj
    rw [hholder, Function.update_self] at hj
    exact (Option.some.inj hj).symm
  obtain ⟨w₄, c, hchange, hleaves, hread₄⟩ := serves_change others hr₃ hcontents.symm hsql hfound hheld
    (hcount.trans (by rw [hcontents]))
  refine ⟨w₄, c, ?_, ?_, ?_⟩
  · rw [committing, a.history_locating]
    exact (hlocating.append htargeted).append hchange
  · constructor
    case log => rw [hleaves.log, hlog]
    case session => exact hleaves.session
    case table => exact hleaves.table
    case removed => rw [hleaves.removed, hcontents]
    case place => exact hleaves.place.trans htables
    case before => exact hleaves.before.trans hcontents
    case after => exact hleaves.after
    case tables => exact hleaves.tables.trans htables
    case contents => rw [hleaves.contents, hcontents]
    case holder =>
      intro t' ht'
      refine hleaves.holder t' fun j hj => ?_
      rw [hholder] at hj
      by_cases hsame : t' = t
      · rw [hsame, Function.update_self] at hj
        exact (Option.some.inj hj).symm
      · rw [Function.update_of_ne hsame] at hj
        exact ht' j hj
    case writers =>
      intro t' j hj
      rw [← hwriting]
      exact hleaves.writers t' j hj
    case apart => exact fun j hj => (hleaves.apart j hj).trans (hapart j hj)
  · rw [hread₄, ← hread]
    exact hr₃.read

end Approval

namespace Planning

variable {X : Crates} {options : PlanOptions} (p : Planning X options) {sv : Server} {ι : Type}
  [DecidableEq ι] (others : sv.Others ι) {i : ι} {w : sv.World ι} {t : sv.Table}

theorem channel_of_opening {e : Event Cmd Reply}
    (he : e ∈ [⟨.metadata options.sqlPath, some p.sqlMetadata⟩,
      ⟨.read options.sqlPath, some p.sqlBytes⟩] ++
      connectHistory options.database.environmentName p.connectionValue
        (clientConfig p.parsedConfig) (requestedTransport options.database)) :
    e.cmd.channel ∈ [Channel.read, .clock, .write, .environment, .connect] := by
  rcases List.mem_append.mp he with he | he
  · simp only [List.mem_cons, List.not_mem_nil, or_false] at he
    rcases he with rfl | rfl <;> simp [Cmd.channel]
  · rcases hpolicy : requestedTransport options.database with - | -
    all_goals
      rw [hpolicy] at he
      simp only [connectHistory, List.mem_cons, List.not_mem_nil, or_false] at he
    · rcases he with rfl | rfl | rfl <;> simp [Cmd.channel]
    · rcases he with rfl | rfl <;> simp [Cmd.channel]

/-- What is written once the transaction is over. -/
def closing : History :=
  [⟨.now, some p.createdAt.toNat⟩, ⟨.createNew options.outputPath, true⟩,
    ⟨.writeAll options.outputPath p.fileBytes, .done⟩, ⟨.syncAll options.outputPath, true⟩]

theorem channel_of_closing {e : Event Cmd Reply} (he : e ∈ p.closing) :
    e.cmd.channel ∈ [Channel.read, .clock, .write, .environment, .connect] := by
  simp only [closing, List.mem_cons, List.not_mem_nil, or_false] at he
  rcases he with rfl | rfl | rfl | rfl <;> simp [Cmd.channel]

/-- **Planning.**  What it has read is in the world, which is otherwise as it
was. -/
theorem serves (hdistinct : sv.Distinguishes p.analyzed) {q s n : String}
    {selected : sv.Row → Bool} (hidle : w.session i = .idle)
    (htable : w.tables p.observed.evidence.schema p.observed.evidence.table = some t)
    (hfound : sv.resolve w.tables p.analyzed.requestedTable = some (s, n, t))
    (hq : sv.query q = some (p.analyzed.requestedTable, selected))
    (htarget : p.targetHistory =
      [⟨.query q [], ⟨textRows (sv.texts (matching selected (w.contents t))), true⟩⟩]) :
    ∃ w', (sv.semantics others).Serves i w p.history w' ∧ w'.tables = w.tables ∧
      w'.contents = w.contents ∧ w'.log = w.log ∧
      (∀ j, j ≠ i → w'.session j = w.session j) ∧ (∀ t, w.holder t = none → w'.holder t = none) ∧
      (∀ t j, w'.writers t j → w.writers t j) ∧
      w'.read i q (matching selected (w.contents t)) ∧
      ∀ j q rows, w'.read j q rows → w.read j q rows ∨ Shown sv w.contents q rows := by
  obtain ⟨hschema, hname⟩ := EvidenceAnswers.names p.evidence_decoded
  have hbegun : (w.begin i .repeatableRead true).session i = .active ⟨none, none, true, true⟩ :=
    World.begin_session_self
  have hplain : Plain sv ⟨.query identitySql [], ⟨[p.identityRow], true⟩⟩ :=
    ⟨identitySql, [], [p.identityRow], rfl, fun _ h => (nomatch h.2), fun _ => hdistinct.identity⟩
  -- each query is served from where the one before left the server
  obtain ⟨w₂, hidentity, hr₂, -⟩ := serves_first others hbegun hplain
  obtain ⟨w₃, hevidence, hr₃, -⟩ := serves_evidence others hr₂ p.evidenceAnswers p.oid hfound htable
    hschema hname
  obtain ⟨w₄, htargeted, hr₄, hread₄⟩ := serves_targeted others hdistinct hr₃ p.counted hq hfound
  have hexplain : ∀ e ∈ [(⟨.query (explainText p.analyzed.normalized) [],
      ⟨[p.explainRow], true⟩⟩ : Event Cmd Reply)], Plain sv e := by
    intro e he
    obtain rfl := List.mem_singleton.mp he
    exact ⟨_, [], [p.explainRow], rfl, fun _ h => (nomatch h.2), fun _ => hdistinct.explain⟩
  obtain ⟨w₅, hexplained, hr₅, hread₅⟩ := serves_plain others hr₄ hexplain
  have hstarted : (sv.semantics others).Serves i w ([⟨.start .repeatableRead true, true⟩,
      ⟨.batchExecute (timeoutSettings options.limits), true⟩]) (w.begin i .repeatableRead true) :=
    .cons (.inl ⟨rfl, hidle, rfl⟩) (.cons (.inl ⟨rfl, _, hbegun, .settings rfl⟩) (.nil _))
  have hcommitted : (sv.semantics others).Serves i w₅ [⟨.commit, true⟩] (w₅.finish i) :=
    .cons (.inl ⟨_, hr₅.session, .nothing rfl⟩) (.nil _)
  -- what precedes the transaction and follows it does not reach the server
  have hopened := serves_quiet others (fun _ he => p.channel_of_opening he) i w
  have hclosed := serves_quiet others (fun _ he => p.channel_of_closing he) i (w₅.finish i)
  refine ⟨w₅.finish i, ?_, hr₅.tables, hr₅.contents, hr₅.log, fun j hj => ?_, fun t' ht' => ?_,
    fun t' j hj => ?_, hread₅ ▸ hread₄, hr₅.read⟩
  · have hall := hopened.append (hstarted.append (hidentity.append (hevidence.append
      (htargeted.append (hexplained.append (hcommitted.append hclosed))))))
    rw [show (w.begin i .repeatableRead true).contents = w.contents from rfl] at hall
    rw [history, htarget]
    simpa only [closing, List.append_assoc, List.cons_append, List.nil_append] using hall
  · rw [World.finish_session_ne hj, hr₅.apart j hj, World.begin_session_ne hj]
  · have hnone : w₅.holder t' = none := by
      rw [hr₅.holder]
      exact ht'
    show (w₅.holder t').filter _ = none
    rw [hnone]
    rfl
  · have hwrites := hj.1
    rw [hr₅.writers] at hwrites
    exact hwrites

end Planning

/-! ### A small server -/

namespace Sample

open SqlLex

/-- One table at `public.t`, these rows in every table, and nothing has happened
yet. -/
def worldOf (sv : Server) (t : sv.Table) (rows : Multiset sv.Row) (ι : Type) : sv.World ι where
  tables schema name := if schema = "public" ∧ name = "t" then some t else none
  contents _ := rows
  holder _ := none
  writers _ _ := False
  session _ := .idle
  found _ _ _ := False
  read _ _ _ := False
  log := []

theorem worldOf_fresh (sv : Server) (t : sv.Table) (rows : Multiset sv.Row) (ι : Type) :
    (worldOf sv t rows ι).Fresh :=
  ⟨fun _ => rfl, fun _ _ => id, fun _ => rfl, fun _ _ _ => id, fun _ _ _ => id, rfl⟩

/-- A server with two tables, looking in `early` before it looks in `public`.
Its rows are their texts, and it knows one target query and one statement, by
the tokens that it reads. -/
def serverOf (query text : String) (selected : String → Bool) (action : Action String) :
    Server where
  Table := Bool
  Row := String
  tableEq := inferInstance
  text := id
  text_injective := Function.injective_id
  sort texts := texts.sort (· ≤ ·)
  sort_eq texts := Multiset.sort_eq texts (· ≤ ·)
  path := ["early", "public"]
  parse name := if name = "t" then some (none, "t") else none
  query q := if q = query then some ("t", selected) else none
  statement sql := if lex true sql.toList = lex true text.toList then some ("t", action) else none
  linked t t' := t ≠ t'
  functions
  quiet_catalog

section

variable {query text : String} {selected : String → Bool} {action : Action String}

theorem query_serverOf :
    (serverOf query text selected action).query query = some ("t", selected) :=
  show (if query = query then some ("t", selected) else none) = _ from if_pos rfl

theorem query_serverOf_ne {q : String} (h : q ≠ query) :
    (serverOf query text selected action).query q = none :=
  show (if q = query then some ("t", selected) else none) = none from if_neg h

theorem statement_serverOf {sql : String} (h : lex true sql.toList = lex true text.toList) :
    (serverOf query text selected action).statement sql = some ("t", action) :=
  show (if lex true sql.toList = lex true text.toList then some ("t", action) else none) = _ from
    if_pos h

/-- All that target queries show are rows that are selected. -/
theorem shown_serverOf {contents : Bool → Multiset String} {q : String} {found : Multiset String}
    (h : Shown (serverOf query text selected action) contents q found) :
    ∃ t, found = matching selected (contents t) := by
  obtain ⟨requested, selected', t, hq, rfl⟩ := h
  by_cases hquery : q = query
  · rw [hquery, query_serverOf] at hq
    obtain ⟨-, rfl⟩ := Prod.mk.inj (Option.some.inj hq)
    exact ⟨t, rfl⟩
  · rw [query_serverOf_ne hquery] at hq
    cases hq

/-- The requested name means the one table. -/
theorem resolve_serverOf (t : Bool) (rows : Multiset String) (ι : Type) :
    (serverOf query text selected action).resolve
      (worldOf (serverOf query text selected action) t rows ι).tables "t" =
        some ("public", "t", t) := rfl

end

/-- `DELETE FROM t WHERE a` is all that is analyzed. -/
theorem analysis_of_ok {raw : String} {a : AnalyzedSql} (h : analyzeSql crates raw = .ok a) :
    a = analysis := by
  obtain ⟨found, details, hparse, -, hdetails, rfl⟩ := analyzeSql_ok crates h
  by_cases hraw : raw = sql
  · subst hraw
    obtain rfl : statement = found := by simpa [crates] using hparse
    obtain rfl : Sample.details = details := Except.ok.inj hdetails
    rfl
  · simp [crates, hraw] at hparse

/-- Whether `a` holds of a row. -/
def isTrue (row : String) : Bool := row = rowText

/-- The server that takes `DELETE FROM t WHERE a` for what it is. -/
def server : Server :=
  serverOf (targetRowsText "t" "t" "a") sql isTrue (.change isTrue fun _ => none)

/-- What the server selects, and what it does. -/
def chosen : server.Row → Bool := isTrue

def deletion : Action server.Row := .change chosen fun _ => none

/-- The table that is at `public.t`. -/
def placed : server.Table := false

/-- The table that is nowhere yet. -/
def spare : server.Table := true

theorem spare_ne_placed : spare ≠ placed := Bool.noConfusion

/-- The text of the row that does not match. -/
def otherText : String := "\x7b\"a\": false\x7d"

/-- The rows of both tables. -/
def rows : Multiset server.Row := ({rowText, otherText, otherText} : Multiset String)

def world (ι : Type) : server.World ι := worldOf server placed rows ι

theorem world_fresh (ι : Type) : (world ι).Fresh := worldOf_fresh server placed rows ι

/-- The planning on this server. -/
def planned : Planning crates planOptions := planning "early, public"

/-- An apply run with its own receipt. -/
def optionsAt (receiptPath : Path) : ApplyOptions := { options with receiptPath }

/-- The approval of the plan, in such a run. -/
def appliedAt (receiptPath : Path) : Approval crates (optionsAt receiptPath) :=
  planned.approval (undisturbed (show Json.literalSize "early, public" ≤ 1000 by decide)
      (show ([1] : Path) ≠ [2] by decide) rfl) 2
    (show ¬ planned.plan.expiresAtUnixMs < 1 by show ¬ ((0 : UInt64) + 100) < 1; decide)
    planned.environment_valid planned.value_fits planned.config_parsed planned.hosts_local rfl

def applied : Approval crates options := appliedAt [3]

/-- The commands of the two plannings are not taken for each other. -/
theorem texts_apart :
    (∀ query ∈ [identitySql, countText "t" "a", explainText sql],
      query ≠ targetRowsText "t" "t" "a") ∧
    (∀ query ∈ [identitySql, countText "t" "a = 1", explainText gluedText],
      query ≠ targetRowsText "t" "t" "a = 1") ∧
    (∀ query ∈ [countText "t" "a = 1", targetRowsText "t" "t" "a = 1"],
      query ≠ countText "t" "floor(a) = 1") ∧
    [identitySql, tableLookupSql, columnSql, constraintSql, indexSql, triggerSql, ruleSql,
      policySql, inheritanceSql, referentialActionSql, countText "t" "a = 1",
      targetRowsText "t" "t" "a = 1", explainText gluedText].Nodup := by
  decide +kernel

theorem query_target : server.query (targetRowsText "t" "t" "a") = some ("t", chosen) :=
  query_serverOf

theorem statement_sql : server.statement sql = some ("t", deletion) :=
  statement_serverOf rfl

theorem distinguishes : server.Distinguishes analysis where
  identity := query_serverOf_ne (texts_apart.1 _ (by simp))
  count q hq := by
    obtain rfl : countText "t" "a" = q := Option.some.inj hq
    exact query_serverOf_ne (texts_apart.1 _ (by simp))
  explain := query_serverOf_ne (texts_apart.1 (explainText sql) (by simp))

/-- The server reads the two texts as one condition. -/
theorem readsAs : server.ReadsAs analysis where
  quiet _ := quiet_generated
  statement := ⟨_, statement_sql⟩
  condition _ := ⟨_, _, _, rfl, query_target, statement_sql, fun _ => rfl⟩

theorem readsAs_of_admitted {options : ApplyOptions} {h : History} {plan : Plan} {a : AnalyzedSql}
    (ha : Admitted crates options h plan a) : server.ReadsAs a := by
  obtain ⟨_, _, -, -, hanalyzed⟩ := ha.sql_read
  rw [analysis_of_ok hanalyzed]
  exact readsAs

theorem matching_rows : matching chosen rows = ({rowText} : Multiset String) := by
  show Multiset.filter (fun row => isTrue row = true)
    ({rowText, otherText, otherText} : Multiset String) = {rowText}
  decide +kernel

theorem texts_rows : server.texts (matching chosen rows) = [rowText] := by
  rw [matching_rows]
  show (({rowText} : Multiset String).map id).sort (· ≤ ·) = [rowText]
  rw [Multiset.map_singleton, Multiset.sort_singleton]
  rfl

theorem target_rows (receiptPath : Path) : (appliedAt receiptPath).targetHistory =
    [⟨.query (targetRowsText "t" "t" "a") [],
      ⟨textRows (server.texts (matching chosen rows)), true⟩⟩] := by
  rw [texts_rows]
  rfl

theorem resolve_world (ι : Type) :
    server.resolve (world ι).tables "t" = some ("public", "t", placed) :=
  resolve_serverOf _ _ ι

/-- All that target queries show is the matching row. -/
theorem shown_rows {q : String} {found : Multiset server.Row}
    (h : Shown server (fun _ => rows) q found) : found = matching chosen rows := by
  obtain ⟨t, rfl⟩ := shown_serverOf h
  rfl

/-- With nobody in its way a run that has not begun commits. -/
theorem reachable_commit {ι : Type} [DecidableEq ι] {others : server.Others ι} {α : ι → Type}
    {P : (i : ι) → Prog Cmd Reply (α i)} {w : server.World ι}
    {s : Configuration Cmd Reply (server.World ι) α}
    (hs : Reachable (server.semantics others) P w s) (i : ι) (receiptPath : Path)
    {q : Prog Cmd Reply (α i)} (hrest : Reaches (s.procs i).rest (appliedAt receiptPath).committing q)
    (hidle : s.world.session i = .idle) (hfree : s.world.holder placed = none)
    (hwriters : ∀ j, ¬ s.world.writers placed j) (htables : s.world.tables = (world ι).tables)
    (hcontents : s.world.contents = (world ι).contents) :
    ∃ s' c, Reachable (server.semantics others) P w s' ∧
      s'.procs i = ⟨(s.procs i).history ++ (appliedAt receiptPath).committing, q⟩ ∧
      (∀ j, j ≠ i → s'.procs j = s.procs j) ∧
      Leaves i placed deletion s.world s'.world c ∧
      ∀ j q found, s'.world.read j q found → s.world.read j q found ∨ found = matching chosen rows := by
  have htarget : (appliedAt receiptPath).targetHistory = [⟨.query (targetRowsText "t" "t" "a") [],
      ⟨textRows (server.texts (matching chosen (s.world.contents placed))), true⟩⟩] := by
    rw [hcontents]
    exact target_rows receiptPath
  have hcount : (appliedAt receiptPath).plan.preconditions.targetCount.toNat =
      deletion.affected (s.world.contents placed) := by
    rw [hcontents]
    show 1 = (matching chosen rows).card
    rw [matching_rows]
    rfl
  obtain ⟨w', c, hserves, hleaves, hread⟩ := (appliedAt receiptPath).serves_committed others
    distinguishes hidle hfree hwriters (by rw [htables]; rfl) (by rw [htables]; exact resolve_world ι)
    query_target statement_sql htarget hcount
  obtain ⟨s', hs', hworld, hprocs, hothers⟩ := hs.followed hrest hserves
  refine ⟨s', c, hs', hprocs, hothers, hworld ▸ hleaves, fun j q found hfound => ?_⟩
  rw [hworld] at hfound
  refine (hread j q found hfound).imp_right fun hshown => ?_
  rw [hcontents] at hshown
  exact shown_rows hshown

/-- One apply run. -/
def job : Unit → Job := fun _ => .apply options

/-- With nobody in its way the run commits. -/
theorem reachable_committed (others : server.Others Unit) :
    ∃ s : Configuration Cmd Reply (server.World Unit) fun i => (job i).Answer,
      Reachable (server.semantics others) (fun i => (job i).run crates) (world Unit) s ∧
      applied.history <+: (s.procs ()).history ∧ ∃ c, s.world.log = [c] := by
  have hstart : Reachable (server.semantics others) (fun i => (job i).run crates) (world Unit)
      (start (fun i => (job i).run crates) (world Unit)) := .refl
  obtain ⟨q, hbefore⟩ := (appliedAt [3]).reaches_committing
  obtain ⟨s, c, hs, hprocs, -, hleaves, -⟩ := reachable_commit hstart () [3] hbefore rfl rfl
    (fun _ => id) rfl rfl
  refine ⟨s, hs, ?_, c, hleaves.log⟩
  rw [hprocs]
  exact List.prefix_append _ _

/-- The receipts of two runs. -/
def receiptAt : Bool → Path
  | false => [3]
  | true => [4]

/-- Two apply runs under one plan. -/
def runs : Bool → ApplyOptions := fun i => optionsAt (receiptAt i)

end Sample

/-! ### A statement that is read as another one -/

namespace Sample

open SqlLex

/-- The row with `a = 2`, by its `x`. -/
def twoRow (x : String) : String := "\x7b\"a\": 2, \"x\": " ++ x ++ ", \"y\": \"\"\x7d"

def isOne (row : String) : Bool := row = gluedRow

def isTwo (row : String) : Bool := row ≠ gluedRow

/-- One more in `x`. -/
def advance (row : String) : Option String :=
  if row = twoRow "0" then some (twoRow "1")
  else if row = twoRow "1" then some (twoRow "2")
  else some row

/-- The server of `x = - - x`, which takes the rest of a string for the statement. -/
def gluedServer : Server :=
  serverOf (targetRowsText "t" "t" "a = 1") "UPDATE t SET x = x + 1 WHERE a = 2" isOne
    (.change isTwo advance)

def gluedChosen : gluedServer.Row → Bool := isOne

def gluedAction : Action gluedServer.Row := .change isTwo advance

/-- The rows after so many runs. -/
def gluedRows (x : String) : Multiset gluedServer.Row := ({gluedRow, twoRow x} : Multiset String)

def gluedPlaced : gluedServer.Table := false

def gluedWorld (ι : Type) : gluedServer.World ι := worldOf gluedServer gluedPlaced (gluedRows "0") ι

theorem gluedWorld_fresh (ι : Type) : (gluedWorld ι).Fresh :=
  worldOf_fresh gluedServer gluedPlaced (gluedRows "0") ι

/-- The file is as large as that of the other planning. -/
theorem fileSize_glued : gluedPlanning.fileSize = (planning "early, public").fileSize := by
  rfl

theorem gluedUndisturbed (receiptPath : Path) :
    Undisturbed gluedCrates planOptions (optionsAt receiptPath) gluedPlanning.history
      gluedPlanning.plan (gluedPlanning.surroundings [2]) := by
  refine gluedPlanning.undisturbed ?_ rfl ?_ (show ([1] : Path) ≠ [2] by decide) rfl
  · exact texts_apart.2.2.2
  · have hsize := gluedPlanning.length_fileBytes Sha256.length_digest
    have hsmall : Json.literalSize "early, public" ≤ 1000 := by decide
    rw [fileSize_glued, fileSize_planning] at hsize
    have hmax : maxPlanBytes = 1048576 := rfl
    exact gluedPlanning.decodes (by omega)

def gluedApplied (receiptPath : Path) : Approval gluedCrates (optionsAt receiptPath) :=
  gluedPlanning.approval (gluedUndisturbed receiptPath) 2
    (show ¬ gluedPlanning.plan.expiresAtUnixMs < 1 by show ¬ ((0 : UInt64) + 100) < 1; decide)
    gluedPlanning.environment_valid gluedPlanning.value_fits gluedPlanning.config_parsed
    gluedPlanning.hosts_local rfl

theorem gluedQuery :
    gluedServer.query (targetRowsText "t" "t" "a = 1") = some ("t", gluedChosen) :=
  query_serverOf

/-- What is sent is read as `UPDATE t SET x = x + 1 WHERE a = 2`. -/
theorem gluedReading : gluedServer.statement gluedText = some ("t", gluedAction) :=
  statement_serverOf createPlan_glued.2

theorem gluedDistinguishes : gluedServer.Distinguishes gluedAnalysis where
  identity := query_serverOf_ne (texts_apart.2.1 _ (by simp))
  count q hq := by
    obtain rfl : countText "t" "a = 1" = q := Option.some.inj hq
    exact query_serverOf_ne (texts_apart.2.1 _ (by simp))
  explain := query_serverOf_ne (texts_apart.2.1 (explainText gluedText) (by simp))

/-- The approved row is there, and the other one. -/
theorem matching_glued (x : String) (hx : twoRow x ≠ gluedRow) :
    matching gluedChosen (gluedRows x) = ({gluedRow} : Multiset String) := by
  show Multiset.filter (fun row => isOne row = true) (gluedRow ::ₘ {twoRow x}) = {gluedRow}
  rw [Multiset.filter_cons_of_pos _ (by simp [isOne]), Multiset.filter_singleton,
    if_neg (by simpa [isOne] using hx)]
  rfl

theorem removed_glued (x : String) (hx : twoRow x ≠ gluedRow) :
    gluedAction.removed (gluedRows x) = ({twoRow x} : Multiset String) := by
  show Multiset.filter (fun row => isTwo row = true) (gluedRow ::ₘ {twoRow x}) = {twoRow x}
  rw [Multiset.filter_cons_of_neg _ (by simp [isTwo]), Multiset.filter_singleton,
    if_pos (by simpa [isTwo] using hx)]

theorem target_glued (receiptPath : Path) (x : String) (hx : twoRow x ≠ gluedRow) :
    (gluedApplied receiptPath).targetHistory = [⟨.query (targetRowsText "t" "t" "a = 1") [],
      ⟨textRows (gluedServer.texts (matching gluedChosen (gluedRows x))), true⟩⟩] := by
  have htexts : gluedServer.texts (matching gluedChosen (gluedRows x)) = [gluedRow] := by
    rw [matching_glued x hx]
    show (({gluedRow} : Multiset String).map id).sort (· ≤ ·) = [gluedRow]
    rw [Multiset.map_singleton, Multiset.sort_singleton]
    rfl
  rw [htexts]
  rfl

/-- A run that has not begun commits, and changes the other row. -/
theorem reachable_glued {ι : Type} [DecidableEq ι] {others : gluedServer.Others ι} {α : ι → Type}
    {P : (i : ι) → Prog Cmd Reply (α i)} {w : gluedServer.World ι}
    {s : Configuration Cmd Reply (gluedServer.World ι) α}
    (hs : Reachable (gluedServer.semantics others) P w s) (i : ι) (receiptPath : Path)
    {q : Prog Cmd Reply (α i)}
    (hrest : Reaches (s.procs i).rest (gluedApplied receiptPath).committing q) (x : String)
    (hx : twoRow x ≠ gluedRow) (hidle : s.world.session i = .idle)
    (hfree : s.world.holder gluedPlaced = none) (hwriters : ∀ j, ¬ s.world.writers gluedPlaced j)
    (htables : s.world.tables = (gluedWorld ι).tables)
    (hcontents : s.world.contents gluedPlaced = gluedRows x) :
    ∃ s' c, Reachable (gluedServer.semantics others) P w s' ∧
      s'.procs i = ⟨(s.procs i).history ++ (gluedApplied receiptPath).committing, q⟩ ∧
      (∀ j, j ≠ i → s'.procs j = s.procs j) ∧
      Leaves i gluedPlaced gluedAction s.world s'.world c ∧
      ∀ j q found, s'.world.read j q found → s.world.read j q found ∨
        Shown gluedServer s.world.contents q found := by
  have htarget := target_glued receiptPath x hx
  have hcount : (gluedApplied receiptPath).plan.preconditions.targetCount.toNat =
      gluedAction.affected (gluedRows x) := by
    show 1 = (gluedAction.removed (gluedRows x)).card
    rw [removed_glued x hx]
    rfl
  rw [← hcontents] at htarget hcount
  obtain ⟨w', c, hserves, hleaves, hread⟩ := (gluedApplied receiptPath).serves_committed others
    gluedDistinguishes hidle hfree hwriters (by rw [htables]; rfl)
    (by rw [htables]; exact resolve_serverOf _ _ ι) gluedQuery gluedReading htarget hcount
  obtain ⟨s', hs', hworld, hprocs, hothers⟩ := hs.followed hrest hserves
  exact ⟨s', c, hs', hprocs, hothers, hworld ▸ hleaves, fun j q found hfound =>
    hread j q found (hworld ▸ hfound)⟩

/-- Each run leaves other rows than it found. -/
theorem rows_glued : (twoRow "0" ≠ gluedRow ∧ twoRow "1" ≠ gluedRow) ∧
    gluedAction.result (gluedRows "0") = gluedRows "1" ∧ gluedRows "1" ≠ gluedRows "0" ∧
    gluedAction.result (gluedRows "1") ≠ gluedRows "1" := by
  show (twoRow "0" ≠ gluedRow ∧ twoRow "1" ≠ gluedRow) ∧
    RowChange.after isTwo advance ({gluedRow, twoRow "0"} : Multiset String) =
      ({gluedRow, twoRow "1"} : Multiset String) ∧
    ({gluedRow, twoRow "1"} : Multiset String) ≠ {gluedRow, twoRow "0"} ∧
    RowChange.after isTwo advance ({gluedRow, twoRow "1"} : Multiset String) ≠
      ({gluedRow, twoRow "1"} : Multiset String)
  decide +kernel

/-- All that target queries show is the approved row. -/
theorem shown_glued {contents : gluedServer.Table → Multiset gluedServer.Row}
    (hcontents : ∀ t, contents t = gluedRows "0" ∨ contents t = gluedRows "1") {q : String}
    {found : Multiset gluedServer.Row} (h : Shown gluedServer contents q found) :
    found = ({gluedRow} : Multiset String) := by
  obtain ⟨t, rfl⟩ := shown_serverOf h
  rcases hcontents t with hrows | hrows
  · show matching gluedChosen (contents t) = _
    rw [hrows]
    exact matching_glued "0" rows_glued.1.1
  · show matching gluedChosen (contents t) = _
    rw [hrows]
    exact matching_glued "1" rows_glued.1.2

end Sample

end DmlPact
