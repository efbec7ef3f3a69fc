/-
DmlPact/Model/Sizes.lean

How large the documents are, counted in the characters of their strings.  The
constants are generous; what matters is that they are small beside the limits
on files.
-/
import DmlPact.Lib.JsonSize
import DmlPact.Model.Documents
import Mathlib.Tactic.Linarith

namespace DmlPact

open Json

/-- The characters of an identity's strings. -/
def DatabaseIdentity.chars (d : DatabaseIdentity) : Nat :=
  d.database.toList.length + d.role.toList.length + d.searchPath.toList.length +
    d.endpointSha256.toList.length + (d.serverAddress.getD "").toList.length

theorem DatabaseIdentity.weight_le (d : DatabaseIdentity) :
    (DatabaseIdentity.codec.ser d).weight ≤
      800 + 6 * d.chars + ((Codec.map Codec.string).ser d.settings).weight := by
  have hversion := Codec.weight_i64 d.serverVersionNum
  have haddress := Codec.weight_optionString d.serverAddress
  have hport : (Codec.i32.serOption d.serverPort).weight ≤ 20 := by
    rcases d.serverPort with - | port
    · decide
    · exact Codec.weight_i32 port
  simp only [DatabaseIdentity.codec, Codec.weight_struct, Codec.weight_required,
    Codec.weight_optional, Codec.weight_nil, Codec.weight_string, stringWeight,
    String.reduceToList, List.length_cons, List.length_nil, chars]
  linarith

/-- The characters of a plan's strings, its preconditions apart. -/
def Plan.chars (p : Plan) : Nat :=
  p.schemaVersion.toList.length + p.toolVersion.toList.length + p.planId.toList.length +
    p.requestedTable.toList.length + p.sqlFileSha256.toList.length +
    p.normalizedSqlSha256.toList.length + (p.countQuerySha256.getD "").toList.length +
    (p.targetQuerySha256.getD "").toList.length + p.explainSha256.toList.length +
    (p.planSha256.getD "").toList.length

/-- The characters of the strings in a plan's preconditions. -/
def PlanPreconditions.chars (p : PlanPreconditions) : Nat :=
  p.canonicalTable.toList.length + p.tableSchemaSha256.toList.length +
    p.targetSetSha256.toList.length + p.relationKind.toList.length

theorem PlanPreconditions.weight_le (p : PlanPreconditions) :
    (PlanPreconditions.codec.ser p).weight ≤
      1200 + 6 * p.chars + (DatabaseIdentity.codec.ser p.database).weight := by
  have hcount := Codec.weight_u64 p.targetCount
  have htriggers := Codec.weight_u64 p.userTriggerCount
  have hrules := Codec.weight_u64 p.rewriteRuleCount
  simp only [PlanPreconditions.codec, Codec.weight_struct, Codec.weight_required,
    Codec.weight_nil, Codec.weight_string, Codec.weight_bool, stringWeight,
    String.reduceToList, List.length_cons, List.length_nil, chars]
  linarith

theorem Limits.weight_le (l : Limits) : (Limits.codec.ser l).weight ≤ 400 := by
  have hrows := Codec.weight_u64 l.maxRows
  have hstatement := Codec.weight_u64 l.statementTimeoutMs
  have hlock := Codec.weight_u64 l.lockTimeoutMs
  simp only [Limits.codec, Limits.fields, Codec.weight_struct, Codec.weight_required,
    Codec.weight_nil, stringWeight, String.reduceToList, List.length_cons, List.length_nil]
  omega

theorem Plan.weight_le (p : Plan) :
    (Plan.codec.ser p).weight ≤
      3000 + 6 * p.chars + (PlanPreconditions.codec.ser p.preconditions).weight := by
  have hcreated := Codec.weight_u64 p.createdAtUnixMs
  have hexpires := Codec.weight_u64 p.expiresAtUnixMs
  have hkind : (StatementKind.codec.ser p.statementKind).weight ≤ 38 := by
    cases p.statementKind <;> decide
  have htransport : (TransportPolicy.codec.ser p.transportPolicy).weight ≤ 120 := by
    cases p.transportPolicy <;> decide
  have hcountQuery := Codec.weight_optionString p.countQuerySha256
  have htargetQuery := Codec.weight_optionString p.targetQuerySha256
  have hseal := Codec.weight_optionString p.planSha256
  have hlimits := p.limits.weight_le
  simp only [Plan.codec, Codec.weight_struct, Codec.weight_required, Codec.weight_optional,
    Codec.weight_nil, Codec.weight_string, Codec.weight_bool, stringWeight,
    String.reduceToList, List.length_cons, List.length_nil, chars]
  linarith

/-- The characters of an event's strings, its result apart. -/
def ReceiptEvent.chars (e : ReceiptEvent) : Nat :=
  e.schemaVersion.toList.length + e.toolVersion.toList.length + e.receiptId.toList.length +
    e.planSha256.toList.length + e.sqlFileSha256.toList.length +
    (e.previousEventSha256.getD "").toList.length + (e.eventSha256.getD "").toList.length

theorem ReceiptEvent.weight_le (e : ReceiptEvent) :
    (ReceiptEvent.codec.ser e).weight ≤
      1500 + 6 * e.chars + (ReceiptResult.codec.serOption e.result).weight := by
  have hsequence := Codec.weight_u32 e.sequence
  have htimestamp := Codec.weight_u64 e.timestampUnixMs
  have hstate : (ReceiptState.codec.ser e.state).weight ≤ 80 := by
    cases e.state <;> decide
  have hprevious := Codec.weight_optionString e.previousEventSha256
  have hseal := Codec.weight_optionString e.eventSha256
  simp only [ReceiptEvent.codec, Codec.weight_struct, Codec.weight_required,
    Codec.weight_optional, Codec.weight_nil, Codec.weight_string, stringWeight,
    String.reduceToList, List.length_cons, List.length_nil, chars]
  linarith

/-- The characters of a result's strings, its identity apart. -/
def ReceiptResult.chars (r : ReceiptResult) : Nat :=
  r.reasonCode.toList.length + (r.sqlstate.getD "").toList.length +
    (r.tableSchemaSha256.getD "").toList.length

theorem ReceiptResult.weight_le (r : ReceiptResult) :
    (ReceiptResult.codec.ser r).weight ≤
      800 + 6 * r.chars + (DatabaseIdentity.codec.serOption r.database).weight := by
  have haffected : (Codec.u64.serOption r.affectedRows).weight ≤ 20 := by
    rcases r.affectedRows with - | n
    · decide
    · exact Codec.weight_u64 n
  have hsqlstate := Codec.weight_optionString r.sqlstate
  have hschema := Codec.weight_optionString r.tableSchemaSha256
  simp only [ReceiptResult.codec, Codec.weight_struct, Codec.weight_required,
    Codec.weight_optional, Codec.weight_nil, Codec.weight_string, stringWeight,
    String.reduceToList, List.length_cons, List.length_nil, chars]
  linarith

end DmlPact
