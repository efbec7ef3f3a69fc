/-
DmlPact/Model/Cli.lean

The process of `main.rs`, from parsed arguments to the exit status.  Parsing
the arguments is the argument parser's work and arrives as an `Invocation`.
-/
import DmlPact.Model.Engine

namespace DmlPact

open Effect Utf8

/-- Durations are in milliseconds. -/
inductive Command where
  | lint (sql : Path)
  | inspect (table : String) (database : DatabaseOptions)
  | plan (sql out : Path) (maxRows : UInt64) (statementTimeout lockTimeout validFor : Nat)
      (allowTriggers allowRowSecurity : Bool) (database : DatabaseOptions)
  | apply (sql plan receipt : Path) (database : DatabaseOptions)
  | receiptVerify (receipt : Path)
  | schema (document : SchemaDocument)
  | capabilities
  | contract
  | completions (script : Bytes)

/-- What the argument parser makes of a command line. -/
inductive Invocation where
  | command (command : Command)
  | display (text : Bytes)
  | invalid

variable (X : Crates)

def stdoutWriteFailed : AppError where
  class_ := .io
  code := "stdout_write_failed"
  message := "could not write the command result"

def emitJson (value : Json.Value) : App Unit := do
  match (← request (Cmd.stdout (toVecPretty value)) : Bool) with
  | false => throw stdoutWriteFailed
  | true =>
  match (← request (Cmd.stdout (asBytes "\n")) : Bool) with
  | false => throw stdoutWriteFailed
  | true => pure ()

/-- Errors of standard error are ignored. -/
def emitError (error : AppError) : Prog Cmd Reply Unit := do
  match (← Prog.ask (Cmd.stderr (toVec (ErrorDocument.ofError error).ser)) : Bool) with
  | false => pure ()
  | true => do
      let _ ← Prog.ask (Cmd.stderr (asBytes "\n"))

def durationMs (duration : Nat) : AppResult UInt64 :=
  if duration < 2 ^ 64 then .ok (UInt64.ofNat duration)
  else .error {
    class_ := .usage, code := "duration_out_of_range"
    message := "the duration is outside the supported range" }

/-- `print!` and the completion generator panic when standard output fails. -/
def printOrPanic (bytes : Bytes) : Prog Cmd Reply Unit := do
  match (← Prog.ask (Cmd.stdout bytes) : Bool) with
  | false => .crash
  | true => pure ()

def capabilities : Capabilities where
  schemaVersion := "dmlpact.capabilities.v1"
  toolVersion := toolVersion
  database := "PostgreSQL 13+"
  statementKinds := ["insert_values", "update_with_where", "delete_with_where"]
  transportPolicies := ["tls_required", "insecure_localhost_explicit_opt_in"]
  safetyDefaults := .ofList [
    ("apply_receipt", "required_new_path"),
    ("receipt_finalization_failure", "exit_5_reconciliation_required"),
    ("connection_secret", "environment_only"),
    ("drift", "refuse"),
    ("row_security", "refuse_unless_acknowledged"),
    ("tls", "required"),
    ("triggers", "refuse_unless_acknowledged"),
    ("where", "required_for_update_delete")]
  limitations := [
    "single ordinary permanent table only",
    "no functions, subqueries, joins, RETURNING, ON CONFLICT, USING, or UPDATE FROM",
    "no partitioned, foreign, temporary, or rewrite-rule targets",
    "no inheritance links or cascading/SET NULL/SET DEFAULT referential actions",
    "INSERT targets cannot have defaults, identity columns, or generated columns",
    "plans expire within 24 hours"]
  supportedPlatforms := ["linux-x86_64", "macos-x86_64", "macos-aarch64", "windows-x86_64"]

def contractBrief : ContractBrief where
  schemaVersion := "dmlpact.contract.v1"
  toolVersion := toolVersion
  commands := ["lint", "inspect", "plan", "apply", "receipt verify", "schema", "capabilities",
    "contract", "completions"]
  outputFormats := ["json", "ndjson_receipt"]
  dataSchemas := .ofList [
    ("apply_result", "dmlpact.apply-result.v1"),
    ("error", "dmlpact.error.v1"),
    ("plan", "dmlpact.plan.v1"),
    ("receipt_event", "dmlpact.receipt-event.v1")]
  exitCodes := .ofList [
    ("0", "success_or_receipted_safety_refusal"),
    ("1", "io_or_database_transport"),
    ("2", "usage"),
    ("3", "policy"),
    ("4", "budget"),
    ("5", "contract_or_uncertain_commit")]
  safetyDefaults := capabilities.safetyDefaults

def emitSchema (document : SchemaDocument) : App Unit := emitJson (X.schemaFor document)

def applyExitCode (result : ApplyResult) : UInt8 :=
  if result.state = .uncertain then ErrorClass.contract.exitCode else 0

def run : Command → App UInt8
  | .lint sql => do
      let report ← lintSql X sql
      emitJson report.ser
      return 0
  | .inspect table database => do
      let report ← inspectTable X table database
      emitJson report.ser
      return 0
  | .plan sql out maxRows statementTimeout lockTimeout validFor allowTriggers
      allowRowSecurity database => do
      let statementTimeoutMs ← ofResult (durationMs statementTimeout)
      let lockTimeoutMs ← ofResult (durationMs lockTimeout)
      let lifetimeMs ← ofResult (durationMs validFor)
      let plan ← createPlan X {
        sqlPath := sql, outputPath := out, database
        limits := { maxRows, statementTimeoutMs, lockTimeoutMs }
        lifetimeMs, allowTriggers, allowRowSecurity }
      emitJson (Plan.codec.ser plan)
      return 0
  | .apply sql plan receipt database => do
      let result ← applyPlan X {
        sqlPath := sql, planPath := plan, receiptPath := receipt, database }
      emitJson result.ser
      return applyExitCode result
  | .receiptVerify receipt => do
      let verification ← verifyReceipt X receipt
      emitJson verification.ser
      return 0
  | .schema document => do
      emitSchema X document
      return 0
  | .capabilities => do
      emitJson capabilities.ser
      return 0
  | .contract => do
      emitJson contractBrief.ser
      return 0
  | .completions script => do
      ExceptT.lift (printOrPanic script)
      return 0

def cliArgumentsInvalid : AppError where
  class_ := .usage
  code := "cli_arguments_invalid"
  message := "invalid command-line arguments; run dmlpact --help"

/-- Report an error and turn its class into the exit status. -/
def exitWith (error : AppError) : Prog Cmd Reply UInt8 := do
  emitError error
  return error.class_.exitCode

/-- The whole process; the value returned is the exit status. -/
def main : Invocation → Prog Cmd Reply UInt8
  | .display text => do
      printOrPanic text
      return 0
  | .invalid => exitWith cliArgumentsInvalid
  | .command command => do
      match ← (run X command).run with
      | .ok code => return code
      | .error error => exitWith error

end DmlPact
