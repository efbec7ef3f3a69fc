import DmlPact.Lib.Program
import DmlPact.Lib.Coupling
import DmlPact.Lib.Crash
import DmlPact.Lib.Discipline
import DmlPact.Lib.Json
import DmlPact.Lib.JsonRoundTrip
import DmlPact.Lib.Utf8
import DmlPact.Lib.BTreeMap
import DmlPact.Lib.Calendar
import DmlPact.Lib.Separated
import DmlPact.Lib.IpAddr
import DmlPact.Lib.Serde
import DmlPact.Model.Data
import DmlPact.Model.Documents
import DmlPact.Model.Integrity
import DmlPact.Lib.Str
import DmlPact.Model.Sql
import DmlPact.Model.Db
import DmlPact.Model.Engine
import DmlPact.Apply.Stages
import DmlPact.Model.Cli
import DmlPact.Apply.Commands
import DmlPact.Apply.Runs
import DmlPact.Apply.Approval
import DmlPact.Apply.Answers
import DmlPact.Apply.Guard
import DmlPact.Apply.Batches
import DmlPact.Apply.Outcome
import DmlPact.Lib.Sha256
import DmlPact.Model.Sizes
import DmlPact.Apply.Exit
import DmlPact.Receipt.Verify
import DmlPact.Receipt.Written
import DmlPact.Lib.System
import DmlPact.Lib.Worlds
import DmlPact.Receipt.Torn
import DmlPact.Receipt.Protocol
import DmlPact.Receipt.Shared
import DmlPact.Receipt.Recorded
import DmlPact.Apply.Expiry
import DmlPact.Apply.Lock
import DmlPact.Apply.Fingerprint
import DmlPact.Receipt.Sealed
import DmlPact.Plan.Applies
import DmlPact.Plan.Bounds
import DmlPact.Lib.JsonPretty
import DmlPact.Plan.ReadBack
import DmlPact.Policy.Static
import DmlPact.Lib.SqlEscape
import DmlPact.Policy.Literals
import DmlPact.Apply.Evidence
import DmlPact.Lib.SqlName
import DmlPact.Apply.Quoting
import DmlPact.Lib.SqlText
import DmlPact.Policy.Catalog
import DmlPact.Lib.Durable
import DmlPact.Receipt.Crash
import DmlPact.Plan.Failed
import DmlPact.Lib.RowChange
import DmlPact.Server.Postgres
import DmlPact.Server.Locks
import DmlPact.Server.Committed
import DmlPact.Server.Contents
import DmlPact.Server.Served
import DmlPact.Server.Named
import DmlPact.Server.Rows
import DmlPact.Server.Once
import DmlPact.Server.Receipts
import DmlPact.Server.Serial
import DmlPact.Receipt.Spliced
import DmlPact.Lib.SerdeKeys
import DmlPact.Receipt.Keys
import DmlPact.Lib.Pattern
import DmlPact.Release.Evidence
import DmlPact.Release.Readiness
import DmlPact.Release.Verdict
import DmlPact.Release.Accepted
import DmlPact.Release.Exact
import DmlPact.Apply.Endpoint
import DmlPact.Process.Commands
import DmlPact.Process.Secret
import DmlPact.Process.Session
import DmlPact.Process.Writer
import DmlPact.Process.Files
import DmlPact.Process.Plans
import DmlPact.Process.Outputs
import DmlPact.Process.Columns
import DmlPact.Process.Panics
import DmlPact.Process.Retreats
import DmlPact.Process.Database
import DmlPact.Process.Told
import DmlPact.Process.Waiting
