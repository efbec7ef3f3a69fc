/-
DmlPact/Model/Data.lean

The data of `model.rs`: plans, receipts, the evidence a table is fingerprinted
by, and the documents the commands print.  Integers have the widths of the
source; `usize` is the 64-bit one.
-/
import DmlPact.Lib.BTreeMap
import Mathlib.Data.String.Basic

namespace DmlPact

def planSchemaVersion : String := "dmlpact.plan.v1"

def receiptSchemaVersion : String := "dmlpact.receipt-event.v1"

/-- The package version the binary is built from. -/
def toolVersion : String := "0.3.0"

inductive StatementKind where
  | insert | update | delete
  deriving DecidableEq, Repr

inductive TransportPolicy where
  | tlsRequired | insecureLocalhost
  deriving DecidableEq, Repr

structure Limits where
  maxRows : UInt64
  statementTimeoutMs : UInt64
  lockTimeoutMs : UInt64
  deriving DecidableEq

structure DatabaseIdentity where
  database : String
  role : String
  searchPath : String
  serverVersionNum : Int64
  endpointSha256 : String
  serverAddress : Option String
  serverPort : Option Int32
  settings : BTreeMap String String
  deriving DecidableEq

structure ColumnEvidence where
  position : Int16
  name : String
  dataType : String
  notNull : Bool
  hasDefault : Bool
  defaultExpression : Option String
  identity : String
  generated : String
  deriving DecidableEq

structure NamedDefinition where
  name : String
  definition : String
  deriving DecidableEq

structure TableEvidence where
  schema : String
  table : String
  oid : Int64
  relationKind : String
  persistence : String
  rowSecurity : Bool
  forceRowSecurity : Bool
  columns : List ColumnEvidence
  constraints : List NamedDefinition
  indexes : List NamedDefinition
  userTriggers : List NamedDefinition
  rewriteRules : List NamedDefinition
  policies : List NamedDefinition
  inheritanceRelations : List String
  referentialActions : List NamedDefinition
  deriving DecidableEq

structure PlanPreconditions where
  database : DatabaseIdentity
  canonicalTable : String
  tableSchemaSha256 : String
  targetCount : UInt64
  targetSetSha256 : String
  relationKind : String
  userTriggerCount : UInt64
  rewriteRuleCount : UInt64
  rowSecurity : Bool
  deriving DecidableEq

structure Plan where
  schemaVersion : String
  toolVersion : String
  planId : String
  createdAtUnixMs : UInt64
  expiresAtUnixMs : UInt64
  statementKind : StatementKind
  requestedTable : String
  sqlFileSha256 : String
  normalizedSqlSha256 : String
  countQuerySha256 : Option String
  targetQuerySha256 : Option String
  explainSha256 : String
  limits : Limits
  transportPolicy : TransportPolicy
  allowTriggers : Bool
  allowRowSecurity : Bool
  preconditions : PlanPreconditions
  planSha256 : Option String
  deriving DecidableEq

structure LintReport where
  schemaVersion : String
  toolVersion : String
  statementKind : StatementKind
  requestedTable : String
  sqlFileSha256 : String
  normalizedSqlSha256 : String
  generatedTargetCount : UInt64
  countQuerySha256 : Option String
  targetQuerySha256 : Option String
  policyChecks : List String
  executableSqlEmitted : Bool

structure InspectReport where
  schemaVersion : String
  toolVersion : String
  database : DatabaseIdentity
  tableSchemaSha256 : String
  table : TableEvidence
  transportPolicy : TransportPolicy

inductive ReceiptState where
  | prepared | committed | rolledBack | refused | uncertain
  deriving DecidableEq, Repr

def ReceiptState.isFinal (state : ReceiptState) : Bool := state != .prepared

structure ReceiptResult where
  affectedRows : Option UInt64
  reasonCode : String
  sqlstate : Option String
  database : Option DatabaseIdentity
  tableSchemaSha256 : Option String
  deriving DecidableEq

structure ReceiptEvent where
  schemaVersion : String
  toolVersion : String
  receiptId : String
  sequence : UInt32
  timestampUnixMs : UInt64
  planSha256 : String
  sqlFileSha256 : String
  previousEventSha256 : Option String
  state : ReceiptState
  result : Option ReceiptResult
  eventSha256 : Option String
  deriving DecidableEq

structure ApplyResult where
  schemaVersion : String
  receiptId : String
  state : ReceiptState
  planSha256 : String
  affectedRows : Option UInt64
  reasonCode : String
  receiptPath : String
  deriving DecidableEq

structure ReceiptVerification where
  schemaVersion : String
  receiptId : String
  integrityValid : Bool
  complete : Bool
  eventCount : UInt64
  finalState : ReceiptState
  planSha256 : String
  finalEventSha256 : String
  deriving DecidableEq

structure Capabilities where
  schemaVersion : String
  toolVersion : String
  database : String
  statementKinds : List String
  transportPolicies : List String
  safetyDefaults : BTreeMap String String
  limitations : List String
  supportedPlatforms : List String
  deriving DecidableEq

structure ContractBrief where
  schemaVersion : String
  toolVersion : String
  commands : List String
  outputFormats : List String
  dataSchemas : BTreeMap String String
  exitCodes : BTreeMap String String
  safetyDefaults : BTreeMap String String
  deriving DecidableEq

/-- The documents that have a JSON schema. -/
inductive SchemaDocument where
  | plan | receiptEvent | receiptVerification | applyResult | error | capabilities
  deriving DecidableEq, Repr

end DmlPact
