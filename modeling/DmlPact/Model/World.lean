/-
DmlPact/Model/World.lean

What the program asks of the world and what the world may answer, and the
crates it is built on.

A command stands for one call whose outcome the program does not decide: a
system call, a clock reading, one exchange with the server.  Every answer of
the right type is possible, so a property of all runs is a property of all
combinations of outcomes.  A write that fails reports how many bytes had
already reached the file.
-/
import DmlPact.Lib.IpAddr
import DmlPact.Lib.Json
import DmlPact.Lib.Program
import DmlPact.Lib.Utf8
import DmlPact.Model.Data
import DmlPact.Model.Error
import DmlPact.Model.SqlAst

namespace DmlPact

open Effect Utf8

/-- A file-system path, as the bytes the system knows it by. -/
abbrev Path := Bytes

structure Metadata where
  isFile : Bool
  len : UInt64
  deriving DecidableEq

inductive WriteReply where
  | done
  | failed (written : Nat)
  deriving DecidableEq

/-! ### The database driver -/

inductive Host where
  | tcp (hostname : String)
  | unix (path : Path)
  deriving DecidableEq

inductive SslMode where
  | disable | prefer | require
  deriving DecidableEq

/-- How a connection is wrapped: not at all, or in TLS with native roots. -/
inductive Connector where
  | noTls | nativeRoots
  deriving DecidableEq

/-- A connection configuration; `secret` is the part the program never reads,
the password among it. -/
structure Config where
  hosts : List Host
  hostaddrs : List Net.IpAddr
  ports : List UInt16
  user : Option String
  dbname : Option String
  secret : String
  applicationName : Option String
  connectTimeoutSecs : Option UInt64
  sslMode : SslMode
  deriving DecidableEq

inductive IsolationLevel where
  | readCommitted | repeatableRead | serializable
  deriving DecidableEq

/-- One column of one row of an answer. -/
inductive SqlValue where
  | null
  | text (value : String)
  | bool (value : Bool)
  | int2 (value : Int16)
  | int4 (value : Int32)
  | int8 (value : Int64)
  | json (value : Json.Value)

abbrev Row := List SqlValue

/-- The rows delivered, and whether the answer then ended without an error. -/
structure Rows where
  rows : List Row
  complete : Bool

/-- A server or connection error; `code` is the SQLSTATE, if there is one. -/
structure DbError where
  code : Option String
  deriving DecidableEq

/-! ### Commands and answers -/

/-- What the program asks for by itself.  The ROLLBACK that the driver sends when
a transaction that is still open is dropped is no call of the program. -/
inductive Cmd where
  | metadata (path : Path)
  | read (path : Path)
  | createNew (path : Path)
  | writeAll (path : Path) (bytes : Bytes)
  | syncAll (path : Path)
  | var (name : String)
  | now
  | nativeCerts
  | connect (config : Config) (connector : Connector)
  | start (isolation : IsolationLevel) (readOnly : Bool)
  | batchExecute (sql : String)
  | query (sql : String) (params : List SqlValue)
  | execute (sql : String)
  | rollback
  | commit
  | stdout (bytes : Bytes)
  | stderr (bytes : Bytes)

/-- `now` answers in milliseconds since the Unix epoch, or `none` before it. -/
@[reducible] def Reply : Cmd → Type
  | .metadata _ => Option Metadata
  | .read _ => Option Bytes
  | .createNew _ => Bool
  | .writeAll _ _ => WriteReply
  | .syncAll _ => Bool
  | .var _ => Option String
  | .now => Option Nat
  | .nativeCerts => Bool
  | .connect _ _ => Bool
  | .start _ _ => Bool
  | .batchExecute _ => Bool
  | .query _ _ => Rows
  | .execute _ => Except DbError UInt64
  | .rollback => Bool
  | .commit => Bool
  | .stdout _ => Bool
  | .stderr _ => Bool

/-- A program of this repository: it issues commands, and returns a value or a
classified error. -/
abbrev App (α : Type) := Fallible AppError Cmd Reply α

/-- What has been issued and answered so far. -/
abbrev History := Trace Cmd Reply

/-- A pure step inside a program. -/
def ofResult {α : Type} (r : AppResult α) : App α := ExceptT.mk (.ret r)

@[simp] theorem run_ofResult {α : Type} (r : AppResult α) :
    (ofResult r).run = Prog.ret r := rfl

/-- A value the source takes without a check: its absence is a panic. -/
def orPanic {α : Type} : Option α → App α
  | some a => ExceptT.mk (.ret (.ok a))
  | none => ExceptT.mk .crash

@[simp] theorem run_orPanic_some {α : Type} (a : α) :
    (orPanic (some a)).run = Prog.ret (.ok a) := rfl

@[simp] theorem run_orPanic_none {α : Type} :
    (orPanic (none : Option α)).run = Prog.crash := rfl

theorem ok_ofResult {α β : Type} {r : AppResult α} {f : α → App β} {h : History} {b : β} :
    Reaches (ofResult r >>= f).run h (.ret (.ok b)) ↔
      ∃ a, r = .ok a ∧ Reaches (f a).run h (.ret (.ok b)) := by
  rw [run_bind, run_ofResult, Prog.ret_bind]
  rcases r with e | a
  · simp
  · simp

theorem ok_ofResult_last {α : Type} {r : AppResult α} {h : History} {a : α} :
    Reaches (ofResult r).run h (.ret (.ok a)) ↔ h = [] ∧ r = .ok a := by
  rw [run_ofResult, Reaches.ret_iff, Prog.ret.injEq, eq_comm (b := r)]

theorem ok_orPanic {α β : Type} {o : Option α} {f : α → App β} {h : History} {b : β} :
    Reaches (orPanic o >>= f).run h (.ret (.ok b)) ↔
      ∃ a, o = some a ∧ Reaches (f a).run h (.ret (.ok b)) := by
  rw [run_bind]
  rcases o with - | a
  · simp
  · simp

theorem ok_orPanic_last {α : Type} {o : Option α} {h : History} {a : α} :
    Reaches (orPanic o).run h (.ret (.ok a)) ↔ h = [] ∧ o = some a := by
  rcases o with - | b
  · simp
  · simp [eq_comm]

/-! ### Reading columns -/

/-- The Rust types a column can be read as. -/
class FromSql (α : Type) where
  fromSql : SqlValue → Option α

instance : FromSql String where
  fromSql
    | .text value => some value
    | _ => none

instance : FromSql Bool where
  fromSql
    | .bool value => some value
    | _ => none

instance : FromSql Int16 where
  fromSql
    | .int2 value => some value
    | _ => none

instance : FromSql Int32 where
  fromSql
    | .int4 value => some value
    | _ => none

instance : FromSql Int64 where
  fromSql
    | .int8 value => some value
    | _ => none

instance : FromSql Json.Value where
  fromSql
    | .json value => some value
    | _ => none

instance {α : Type} [FromSql α] : FromSql (Option α) where
  fromSql
    | .null => some none
    | value => (FromSql.fromSql value).map some

/-- Column `index` of a row; a missing column and a column of another type are
panics. -/
def Row.get {α : Type} [FromSql α] (row : Row) (index : Nat) : Option α :=
  (row[index]?).bind FromSql.fromSql

/-! ### The crates -/

/-- The code of other packages that the program calls: the digest, the SQL
parser and the rendering of its trees, the reader of connection strings, and the
schemas that are derived from the data types. -/
structure Crates where
  digest : Bytes → Bytes
  parseSql : String → Option (List Ast.Statement)
  showStatement : Ast.Statement → String
  showTable : Ast.TableWithJoins → String
  showExpr : Ast.Expr → String
  showName : Ast.ObjectName → String
  showIdent : Ast.Ident → String
  parseConfig : String → Option Config
  schemaFor : SchemaDocument → Json.Value

end DmlPact
