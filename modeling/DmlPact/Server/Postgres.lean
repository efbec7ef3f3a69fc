/-
DmlPact/Server/Postgres.lean

PostgreSQL as the runs see it: tables found by name, rows, table locks,
snapshots.  Every session is one connection with one transaction.

    LOCK TABLE      SHARE ROW EXCLUSIVE, held to the end of the transaction;
                    no snapshot yet
    a query         fixes the snapshot, if it is the first, and reads it;
                    a name means what it means at that moment
    a statement     changes the rows that the snapshot shows it, if they are
                    still there; ROW EXCLUSIVE to the end of the transaction
    READ ONLY       no statement, and no query that changes data
    COMMIT          makes the change visible; its answer may get lost

A query that calls functions which change data, and a text that the server takes
for something else than a change of one table, do whatever the locks of the
others let them (`Strays`).

`found`, `read` and `log` record what has happened; nothing depends on them.
Other sessions write rows and move tables as far as the locks let them, and
the server may end a session at any time.
-/
import DmlPact.Apply.Commands
import DmlPact.Apply.Evidence
import DmlPact.Lib.RowChange
import DmlPact.Lib.System

namespace DmlPact

open Effect RowChange

/-- The text of a table's qualified name. -/
def qualified (schema name : String) : String :=
  quoteIdentifier schema ++ "." ++ quoteIdentifier name

/-- A simple query that is a lock on a qualified name, or the settings. -/
def Plainly (sql : String) : Prop :=
  (∃ schema name, sql = lockText (qualified schema name)) ∨ ∃ limits, sql = timeoutSettings limits

/-- How a server reads names and texts.  The text of a row determines it, and
the conditions and changes that it reads are functions of the single row. -/
structure Server where
  Table : Type
  Row : Type
  tableEq : DecidableEq Table
  text : Row → String
  text_injective : Function.Injective text
  /-- The order of the query. -/
  sort : Multiset String → List String
  sort_eq : ∀ texts, (sort texts : Multiset String) = texts
  /-- The schemas in which an unqualified name is looked for. -/
  path : List String
  /-- The schema, if there is one, and the name. -/
  parse : String → Option (Option String × String)
  /-- The table and the condition of a target query. -/
  query : String → Option (String × (Row → Bool))
  /-- The table and the change of a statement, if that is what the server takes
  the text for. -/
  statement : String → Option (String × Action Row)
  /-- A foreign key refers from one table to the other. -/
  linked : Table → Table → Prop
  functions : Functions
  quiet_catalog : ∀ query ∈ catalogQueries, functions.Quiet query

attribute [instance] Server.tableEq

namespace Server

variable (sv : Server)

/-- The tables by schema and name. -/
abbrev Catalog := String → String → Option sv.Table

/-- Where a name is found, and which table it means. -/
def resolve (tables : sv.Catalog) (requested : String) : Option (String × String × sv.Table) :=
  match sv.parse requested with
  | none => none
  | some (some schema, name) => (tables schema name).map fun t => (schema, name, t)
  | some (none, name) =>
      sv.path.findSome? fun schema => (tables schema name).map fun t => (schema, name, t)

/-- The texts of rows, in the order of the query. -/
def texts (rows : Multiset sv.Row) : List String := sv.sort (rows.map sv.text)

/-! ### Sessions -/

structure Snapshot where
  tables : sv.Catalog
  contents : sv.Table → Multiset sv.Row

/-- What a statement has done to the rows of a table. -/
structure Change where
  sql : String
  table : sv.Table
  removed : Multiset sv.Row
  added : Multiset sv.Row

/-- A transaction; `ordered` says that its snapshot is kept for all of it and
was not taken before a lock was granted. -/
structure Transaction where
  snapshot : Option sv.Snapshot
  change : Option sv.Change
  ordered : Bool
  readOnly : Bool

inductive Session
  | idle
  | active (t : sv.Transaction)
  | ended

/-- A change that was committed, and what was there around it: the tables, who
held them, and their contents. -/
structure Commit (ι : Type) where
  session : ι
  change : sv.Change
  tables : sv.Catalog
  holder : sv.Table → Option ι
  before : sv.Table → Multiset sv.Row
  after : sv.Table → Multiset sv.Row

structure World (ι : Type) where
  tables : sv.Catalog
  contents : sv.Table → Multiset sv.Row
  /-- Who holds SHARE ROW EXCLUSIVE. -/
  holder : sv.Table → Option ι
  /-- Who holds ROW EXCLUSIVE. -/
  writers : sv.Table → ι → Prop
  session : ι → sv.Session
  /-- What a session's names have meant. -/
  found : ι → String → sv.Table → Prop
  /-- The rows that a session's target queries have returned. -/
  read : ι → String → Multiset sv.Row → Prop
  log : List (sv.Commit ι)

variable {sv} {ι : Type} [DecidableEq ι]

namespace World

variable (w : sv.World ι) (i : ι)

/-- Nothing has happened yet. -/
structure Fresh : Prop where
  holder : ∀ t, w.holder t = none
  writers : ∀ t i, ¬ w.writers t i
  session : ∀ i, w.session i = .idle
  found : ∀ i name t, ¬ w.found i name t
  read : ∀ i q rows, ¬ w.read i q rows
  log : w.log = []

/-- What the transaction sees: its snapshot, or else the present. -/
def view (txn : sv.Transaction) : sv.Snapshot := txn.snapshot.getD ⟨w.tables, w.contents⟩

/-! ### What commands do -/

def begin (isolation : IsolationLevel) (readOnly : Bool) : sv.World ι :=
  { w with
    session := Function.update w.session i
      (.active ⟨none, none, decide (isolation = .repeatableRead), readOnly⟩) }

/-- The end of the transaction: its locks are released. -/
def finish : sv.World ι :=
  { w with
    holder := fun t => (w.holder t).filter (· ≠ i)
    writers := fun t j => w.writers t j ∧ j ≠ i
    session := Function.update w.session i .ended }

def lock (txn : sv.Transaction) (t : sv.Table) : sv.World ι :=
  { w with
    holder := Function.update w.holder t (some i)
    session := Function.update w.session i
      (.active { txn with ordered := txn.ordered && txn.snapshot.isNone }) }

/-- A query fixes the snapshot. -/
def see (txn : sv.Transaction) : sv.World ι :=
  { w with
    session := Function.update w.session i
      (.active { txn with snapshot := some (w.view txn) }) }

def find (name : String) (t : sv.Table) : sv.World ι :=
  { w with found := fun j n t' => w.found j n t' ∨ (j = i ∧ n = name ∧ t' = t) }

def deliver (q : String) (rows : Multiset sv.Row) : sv.World ι :=
  { w with read := fun j q' rows' => w.read j q' rows' ∨ (j = i ∧ q' = q ∧ rows' = rows) }

def alter (txn : sv.Transaction) (ch : sv.Change) : sv.World ι :=
  { w with
    writers := fun t j => w.writers t j ∨ (t = ch.table ∧ j = i)
    session := Function.update w.session i
      (.active { txn with snapshot := some (w.view txn), change := some ch }) }

def publish (ch : sv.Change) (rest : Multiset sv.Row) : sv.World ι :=
  { w with
    contents := Function.update w.contents ch.table (rest + ch.added)
    log := w.log ++ [⟨i, ch, w.tables, w.holder, w.contents,
      Function.update w.contents ch.table (rest + ch.added)⟩] }

/-- Another session puts the table `t` at a place: a new one, or one that it
renames. -/
def put (schema name : String) (t : sv.Table) : sv.World ι :=
  { w with tables := fun s n =>
      if s = schema ∧ n = name then some t
      else if w.tables s n = some t then none else w.tables s n }

end World

/-! ### What the server may answer -/

variable (sv)

/-- What may do more than query one table, lock one or change one. -/
def Stray : Cmd → Prop
  | .batchExecute sql => ¬ Plainly sql
  | .query sql _ => ¬ sv.functions.Quiet sql
  | .execute sql => sv.statement sql = none
  | _ => False

/-- A history without such texts. -/
def Straight (h : History) : Prop := ∀ e ∈ h, ¬ sv.Stray e.cmd

/-- Such a text does whatever the locks of the others let it, short of moving
tables, and leaves its own transaction anyhow. -/
structure Strays (w : sv.World ι) (i : ι) (w' : sv.World ι) : Prop where
  tables : w'.tables = w.tables
  holder : ∀ t j, j ≠ i → (w'.holder t = some j ↔ w.holder t = some j)
  writers : ∀ t j, j ≠ i → (w'.writers t j ↔ w.writers t j)
  exclusive : ∀ t j, w'.holder t = some j → ∀ k, w'.writers t k → k = j
  contents : ∀ t j, j ≠ i → w.holder t = some j → w'.contents t = w.contents t
  session : ∀ j, j ≠ i → w'.session j = w.session j
  begun : w'.session i ≠ .idle
  own : ∀ txn, w'.session i = .active txn → txn.ordered = false ∧
    ∀ ch, txn.change = some ch → w'.writers ch.table i
  found : w'.found = w.found
  read : w'.read = w.read
  log : w'.log = w.log

/-- A simple query that succeeds. -/
inductive Batches (w : sv.World ι) (i : ι) (txn : sv.Transaction) (sql : String) :
    sv.World ι → Prop
  | lock {schema name t} (hsql : sql = lockText (qualified schema name))
      (htable : w.tables schema name = some t) (hholder : ∀ j, w.holder t = some j → j = i)
      (hwriters : ∀ j, w.writers t j → j = i) : Batches w i txn sql (w.lock i txn t)
  | settings {limits} (hsql : sql = timeoutSettings limits) : Batches w i txn sql w
  | stray {w'} (hstray : sv.Stray (.batchExecute sql)) (h : sv.Strays w i w') :
      Batches w i txn sql w'

/-- A query that succeeds. -/
inductive Queries (w : sv.World ι) (i : ι) (txn : sv.Transaction) :
    String → List SqlValue → List DmlPact.Row → sv.World ι → Prop
  | lookup {requested s n t schema name row}
      (hfound : sv.resolve w.tables requested = some (s, n, t))
      (hshown : (w.view txn).tables schema name = some t)
      (hschema : DmlPact.Row.get row 1 = some schema)
      (hname : DmlPact.Row.get row 2 = some name) :
      Queries w i txn tableLookupSql [.text requested] [row] ((w.see i txn).find i requested t)
  | absent {requested} : Queries w i txn tableLookupSql [.text requested] [] (w.see i txn)
  | target {q requested selected s n t} (hq : sv.query q = some (requested, selected))
      (hfound : sv.resolve w.tables requested = some (s, n, t)) :
      Queries w i txn q [] (textRows (sv.texts (matching selected ((w.view txn).contents t))))
        (((w.see i txn).find i requested t).deliver i q
          (matching selected ((w.view txn).contents t)))
  | other {q params rows} (hlookup : ∀ requested, ¬ (q = tableLookupSql ∧ params = [.text requested]))
      (htarget : params = [] → sv.query q = none) : Queries w i txn q params rows (w.see i txn)
  | stray {q params rows w'} (hwritable : txn.readOnly = false)
      (hstray : sv.Stray (.query q params)) (h : sv.Strays w i w') :
      Queries w i txn q params rows w'

/-- A statement that succeeds. -/
inductive Executes (w : sv.World ι) (i : ι) (txn : sv.Transaction) (sql : String) :
    UInt64 → sv.World ι → Prop
  | mk {requested action s n t count} (hwritable : txn.readOnly = false) (hfirst : txn.change = none)
      (hsql : sv.statement sql = some (requested, action))
      (hfound : sv.resolve w.tables requested = some (s, n, t))
      (hholder : ∀ j, w.holder t = some j → j = i)
      (hpresent : action.removed ((w.view txn).contents t) ≤ w.contents t)
      (hcount : count.toNat = action.affected ((w.view txn).contents t)) :
      Executes w i txn sql count ((w.alter i txn ⟨sql, t, action.removed ((w.view txn).contents t),
        action.added ((w.view txn).contents t)⟩).find i requested t)
  | stray {count w'} (hwritable : txn.readOnly = false) (hstray : sv.Stray (.execute sql))
      (h : sv.Strays w i w') :
      Executes w i txn sql count w'

/-- A COMMIT that takes effect. -/
inductive Commits (w : sv.World ι) (i : ι) (txn : sv.Transaction) : sv.World ι → Prop
  | nothing (hchange : txn.change = none) : Commits w i txn (w.finish i)
  | change {ch rest} (hchange : txn.change = some ch)
      (hrest : w.contents ch.table = ch.removed + rest) :
      Commits w i txn ((w.publish i ch rest).finish i)

/-- How the server answers session `i`.  What fails ends the transaction, and
outside of one nothing but `start` succeeds; COMMIT is acknowledged there
without effect. -/
def Answers (i : ι) (w : sv.World ι) : (c : Cmd) → Reply c → sv.World ι → Prop
  | .start isolation readOnly, ok, w' =>
      (ok = true ∧ w.session i = .idle ∧ w' = w.begin i isolation readOnly) ∨ (ok = false ∧ w' = w)
  | .batchExecute sql, ok, w' =>
      (ok = true ∧ ∃ txn, w.session i = .active txn ∧ sv.Batches w i txn sql w') ∨
        (ok = false ∧ w' = w.finish i)
  | .query sql params, answer, w' =>
      (answer.complete = true ∧ ∃ txn, w.session i = .active txn ∧
        sv.Queries w i txn sql params answer.rows w') ∨
        (answer.complete = false ∧ w' = w.finish i)
  | .execute sql, answer, w' =>
      (∃ n txn, answer = .ok n ∧ w.session i = .active txn ∧ sv.Executes w i txn sql n w') ∨
        (∃ error, answer = .error error) ∧ w' = w.finish i
  | .commit, ok, w' =>
      (∃ txn, w.session i = .active txn ∧ sv.Commits w i txn w') ∨
        (ok = false ∨ ∀ txn, w.session i ≠ .active txn) ∧ w' = w.finish i
  | .rollback, _, w' => w' = w.finish i
  | _, _, w' => w' = w

/-- What other sessions do: which tables they write, and where they may put a
table. -/
structure Others (ι : Type) where
  writes : sv.Table → Prop
  puts : sv.World ι → String → String → Prop

/-- What happens between the commands. -/
inductive Drifts (others : sv.Others ι) (w : sv.World ι) : sv.World ι → Prop
  | rows (contents) (h : ∀ t, contents t ≠ w.contents t → w.holder t = none ∧ others.writes t) :
      Drifts others w { w with contents := contents }
  | put {schema name t} (hfree : w.tables schema name = none) (hholder : w.holder t = none)
      (hwriters : ∀ i, ¬ w.writers t i) (hputs : others.puts w schema name) :
      Drifts others w (w.put schema name t)
  | ends (i) : Drifts others w (w.finish i)

/-! ### How a statement is read -/

/-- The server takes the executed text for a change of the table that the
analysis names, and the queries generated beside it change nothing. -/
structure Targets (a : AnalyzedSql) : Prop where
  quiet : ∀ query, a.Generates query → sv.functions.Quiet query
  statement : ∃ action, sv.statement a.normalized = some (a.requestedTable, action)

/-- It reads the target query and the executed text, two texts that are
displayed apart, by one condition on the rows of that table. -/
structure ReadsAs (a : AnalyzedSql) : Prop extends sv.Targets a where
  condition : a.kind ≠ .insert → ∃ q selected effect, a.targetRowsSql = some q ∧
    sv.query q = some (a.requestedTable, selected) ∧
    sv.statement a.normalized = some (a.requestedTable, .change selected effect) ∧
    (a.kind = .delete → effect = fun _ => none)

/-- A server with other sessions on it. -/
def semantics (others : sv.Others ι) : Semantics Cmd Reply ι (sv.World ι) where
  answers := sv.Answers
  progresses _ _ _ _ := False
  drifts := sv.Drifts others

end Server

end DmlPact
