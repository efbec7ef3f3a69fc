/-
DmlPact/Model/Receipt.lean

Plan files and receipt journals of `receipt.rs`.

A journal is a file that this run created, and the prepared event it wrote
there first.  Finalizing appends the terminal event.
-/
import DmlPact.Lib.Str
import DmlPact.Model.Integrity

namespace DmlPact

open Effect Utf8

def maxPlanBytes : Nat := 1048576

def maxReceiptBytes : Nat := 2097152

def previouslySupportedArtifactToolVersions : List String := ["0.1.0", "0.2.0"]

def contract (code message : String) : AppError := { class_ := .contract, code, message }

def isSupportedArtifactToolVersion (version : String) : Bool :=
  version = toolVersion || previouslySupportedArtifactToolVersions.contains version

variable (X : Crates)

/-! ### Plans -/

/-- A plan with its own hash cleared. -/
def Plan.unsigned (plan : Plan) : Plan := { plan with planSha256 := none }

def verifiedPlanSha256 (plan : Plan) : AppResult String :=
  if plan.schemaVersion != planSchemaVersion
      || !isSupportedArtifactToolVersion plan.toolVersion then
    .error (contract "plan_version_unsupported"
      "the plan schema or tool version is not supported")
  else match plan.planSha256 with
  | none => .error (contract "plan_hash_missing"
      "the plan does not contain its integrity hash")
  | some claimed => do
      let actual ← sha256Json X Plan.codec plan.unsigned
      if claimed != actual then
        throw (contract "plan_hash_mismatch"
          "the plan integrity hash does not match its contents")
      return actual

/-- The hash a plan is verified by is a digest of its contents. -/
theorem verifiedPlanSha256_ok {plan : Plan} {hash : String}
    (h : verifiedPlanSha256 X plan = .ok hash) :
    plan.planSha256 = some hash ∧ hash = sha256Bytes X (toVec (Plan.codec.ser plan.unsigned)) := by
  unfold verifiedPlanSha256 at h
  split_ifs at h
  split at h
  · cases h
  · rename_i claimed hclaimed
    rw [sha256Json] at h
    dsimp only [bind, Except.bind] at h
    split_ifs at h with hne
    cases h
    exact ⟨by simpa [hclaimed] using hne, rfl⟩

def planUnreadable : AppError where
  class_ := .io
  code := "plan_unreadable"
  message := "the plan file could not be read"

def planFileInvalid : AppError :=
  contract "plan_file_invalid" "the plan must be a regular JSON file no larger than 1 MiB"

/-- What `read_plan` makes of the bytes of the file. -/
def decodePlan (bytes : Bytes) : AppResult Plan :=
  if maxPlanBytes < bytes.length then .error planFileInvalid
  else match fromSlice Plan.codec bytes with
  | none => .error (contract "plan_json_invalid"
      "the plan is not a valid strict dmlpact plan document")
  | some plan => do
      let _ ← verifiedPlanSha256 X plan
      return plan

def readPlan (path : Path) : App Plan := do
  match (← request (Cmd.metadata path) : Option Metadata) with
  | none => throw planUnreadable
  | some metadata =>
  if !metadata.isFile || maxPlanBytes < metadata.len.toNat then throw planFileInvalid
  else do
  match (← request (Cmd.read path) : Option Bytes) with
  | none => throw planUnreadable
  | some bytes => ofResult (decodePlan X bytes)

def sealPlan (plan : Plan) : AppResult Plan := do
  let hash ← sha256Json X Plan.codec plan.unsigned
  return { plan with planSha256 := some hash }

/-- Write all bytes and sync the file: `true` when both succeeded. -/
def writeDurably (path : Path) (bytes : Bytes) : App Bool := do
  match (← request (Cmd.writeAll path bytes) : WriteReply) with
  | .failed _ => pure false
  | .done => request (Cmd.syncAll path)

def writePlanNew (path : Path) (plan : Plan) : App Unit := do
  let _ ← ofResult (verifiedPlanSha256 X plan)
  match (← request (Cmd.createNew path) : Bool) with
  | false => throw {
      class_ := .io, code := "plan_create_failed"
      message := "the plan output path must be new, writable, and not a symlink" }
  | true =>
  match ← writeDurably path (toVecPretty (Plan.codec.ser plan) ++ asBytes "\n") with
  | false => throw {
      class_ := .io, code := "plan_write_failed"
      message := "the plan could not be durably written" }
  | true => pure ()

/-! ### Receipt events -/

/-- An event with its own hash cleared. -/
def ReceiptEvent.unsigned (event : ReceiptEvent) : ReceiptEvent :=
  { event with eventSha256 := none }

def eventSha256 (event : ReceiptEvent) : AppResult String :=
  sha256Json X ReceiptEvent.codec event.unsigned

/-- An event as it stands in the file: compact JSON and a line feed. -/
def eventLine (event : ReceiptEvent) : Bytes :=
  toVec (ReceiptEvent.codec.ser event) ++ asBytes "\n"

def receiptWriteFailed : AppError where
  class_ := .io
  code := "receipt_write_failed"
  message := "the receipt event could not be durably written"

def writeEvent (path : Path) (event : ReceiptEvent) : App Unit := do
  match ← writeDurably path (eventLine event) with
  | false => throw receiptWriteFailed
  | true => pure ()

/-! ### The journal -/

/-- A receipt file that this run created and has written `prepared` to. -/
structure ReceiptJournal where
  path : Path
  prepared : ReceiptEvent

def ReceiptJournal.receiptId (journal : ReceiptJournal) : String := journal.prepared.receiptId

/-- The prepared event, before its own hash is filled in. -/
def preparedEvent (planSha256 sqlFileSha256 : String) (timestamp : UInt64) : ReceiptEvent where
  schemaVersion := receiptSchemaVersion
  toolVersion := toolVersion
  receiptId := sha256Bytes X
    (asBytes (planSha256 ++ ":" ++ sqlFileSha256 ++ ":" ++ toString timestamp.toNat))
  sequence := 1
  timestampUnixMs := timestamp
  planSha256 := planSha256
  sqlFileSha256 := sqlFileSha256
  previousEventSha256 := none
  state := .prepared
  result := none
  eventSha256 := none

/-- The terminal event, before its own hash is filled in. -/
def terminalEvent (prepared : ReceiptEvent) (timestamp : UInt64) (state : ReceiptState)
    (result : ReceiptResult) : ReceiptEvent where
  schemaVersion := receiptSchemaVersion
  toolVersion := toolVersion
  receiptId := prepared.receiptId
  sequence := 2
  timestampUnixMs := timestamp
  planSha256 := prepared.planSha256
  sqlFileSha256 := prepared.sqlFileSha256
  previousEventSha256 := prepared.eventSha256
  state := state
  result := some result
  eventSha256 := none

/-- Fill in the hash of an event. -/
def sealEvent (event : ReceiptEvent) : AppResult ReceiptEvent := do
  let hash ← eventSha256 X event
  return { event with eventSha256 := some hash }

def ReceiptJournal.create (path : Path) (plan : Plan) (sqlFileSha256 : String) :
    App ReceiptJournal := do
  let planSha256 ← ofResult (verifiedPlanSha256 X plan)
  let timestamp ← unixMs
  let prepared ← ofResult (sealEvent X (preparedEvent X planSha256 sqlFileSha256 timestamp))
  match (← request (Cmd.createNew path) : Bool) with
  | false => throw {
      class_ := .io, code := "receipt_create_failed"
      message := "the receipt path must be new, writable, and not a symlink" }
  | true =>
  writeEvent path prepared
  return { path, prepared }

def ReceiptJournal.finalize (journal : ReceiptJournal) (state : ReceiptState)
    (result : ReceiptResult) : App ReceiptEvent := do
  if !state.isFinal then
    throw (contract "receipt_final_state_invalid"
      "a receipt must be finalized with a terminal state")
  else do
  let timestamp ← unixMs
  let event ← ofResult (sealEvent X (terminalEvent journal.prepared timestamp state result))
  writeEvent journal.path event
  return event

/-! ### Verification -/

def validateEvent (event : ReceiptEvent) : AppResult Unit :=
  if event.schemaVersion != receiptSchemaVersion
      || !isSupportedArtifactToolVersion event.toolVersion then
    .error (contract "receipt_version_unsupported"
      "the receipt schema or tool version is not supported")
  else match event.eventSha256 with
  | none => .error (contract "receipt_event_hash_missing"
      "a receipt event is missing its integrity hash")
  | some claimed => do
      let actual ← eventSha256 X event
      if claimed != actual then
        throw (contract "receipt_event_hash_mismatch"
          "a receipt event integrity hash does not match its contents")

/-- One line of a receipt. -/
def decodeEvent (line : List Char) : AppResult ReceiptEvent :=
  match (Json.parse line).bind ReceiptEvent.codec.de with
  | none => .error (contract "receipt_event_invalid"
      "a receipt event is not valid strict dmlpact NDJSON")
  | some event => .ok event

def validatePrepared (prepared : ReceiptEvent) : AppResult Unit := do
  validateEvent X prepared
  if prepared.sequence != 1 || prepared.state != .prepared
      || prepared.previousEventSha256.isSome || prepared.result.isSome then
    throw (contract "receipt_prepared_invalid"
      "the first receipt event is not a valid prepared event")

def validateTerminal (prepared event : ReceiptEvent) : AppResult Unit := do
  validateEvent X event
  if event.sequence != 2 || !event.state.isFinal || event.result.isNone
      || event.receiptId != prepared.receiptId || event.planSha256 != prepared.planSha256
      || event.sqlFileSha256 != prepared.sqlFileSha256
      || event.previousEventSha256 != prepared.eventSha256
      || event.timestampUnixMs < prepared.timestampUnixMs then
    throw (contract "receipt_chain_invalid"
      "the final receipt event does not continue the prepared event")

/-- The report on a receipt of `eventCount` events, the last of them
`finalEvent`. -/
def verification (prepared finalEvent : ReceiptEvent) (eventCount : Nat) :
    AppResult ReceiptVerification :=
  match finalEvent.eventSha256 with
  | none => .error (contract "receipt_event_hash_missing"
      "a receipt event is missing its integrity hash")
  | some finalHash => .ok {
      schemaVersion := "dmlpact.receipt-verification.v1"
      receiptId := prepared.receiptId
      integrityValid := true
      complete := eventCount == 2
      eventCount := UInt64.ofNat eventCount
      finalState := finalEvent.state
      planSha256 := prepared.planSha256
      finalEventSha256 := finalHash }

def verifyEvents : List ReceiptEvent → AppResult ReceiptVerification
  | [prepared] => do
      validatePrepared X prepared
      verification prepared prepared 1
  | [prepared, event] => do
      validatePrepared X prepared
      validateTerminal X prepared event
      verification prepared event 2
  | _ => .error (contract "receipt_event_count_invalid"
      "a receipt must contain one prepared event and at most one final event")

def receiptFileInvalid : AppError :=
  contract "receipt_file_invalid"
    "the receipt must be a regular NDJSON file no larger than 2 MiB"

def receiptNotUtf8 : AppError :=
  contract "receipt_not_utf8" "the receipt must be valid UTF-8"

/-- What `verify_receipt` makes of the bytes of the file. -/
def verifyReceiptBytes (bytes : Bytes) : AppResult ReceiptVerification :=
  match decode bytes with
  | none => .error receiptNotUtf8
  | some content =>
  if maxReceiptBytes < bytes.length then .error receiptFileInvalid
  else
  let lines := Str.lines content
  if !(1 ≤ lines.length && lines.length ≤ 2) || lines.any Str.isBlank then
    .error (contract "receipt_event_count_invalid"
      "a receipt must contain one prepared event and at most one final event")
  else do
    let events ← lines.mapM decodeEvent
    verifyEvents X events

def verifyReceipt (path : Path) : App ReceiptVerification := do
  match (← request (Cmd.metadata path) : Option Metadata) with
  | none => throw {
      class_ := .io, code := "receipt_unreadable"
      message := "the receipt file could not be read" }
  | some metadata =>
  if !metadata.isFile || maxReceiptBytes < metadata.len.toNat then throw receiptFileInvalid
  else do
  match (← request (Cmd.read path) : Option Bytes) with
  | none => throw receiptNotUtf8
  | some bytes => ofResult (verifyReceiptBytes X bytes)

end DmlPact
