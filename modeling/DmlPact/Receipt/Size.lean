/-
DmlPact/Receipt/Size.lean

How long a receipt is.  Its two lines hold hashes, two readings of the clock and
what the run recorded, and nothing else that varies: `receiptSize` counts their
bytes, one by one, from these (`length_receipt`).  The writer does not count, and
the verifier reads 2 MiB at most.
-/
import DmlPact.Lib.JsonPretty
import DmlPact.Receipt.Verify

namespace DmlPact

open Effect Utf8 Json

variable (X : Crates)

/-! ### Parts -/

theorem literalSize_sha256Bytes {bytes : Bytes} (h : (X.digest bytes).length = 32) :
    literalSize (sha256Bytes X bytes) = 66 := by
  have hdigit : ∀ n < 16, escapeChar (hexDigit n) = [hexDigit n] ∧ (hexDigit n).toNat < 0x80 := by
    decide
  have hbyte : ∀ b : UInt8, b.toNat / 16 < 16 ∧ b.toNat % 16 < 16 := by
    intro b
    have hb := b.toNat_lt
    omega
  -- no hexadecimal digit is escaped
  have hplain : ∀ bs : Bytes, (bs.flatMap hexByte).flatMap escapeChar = bs.flatMap hexByte := by
    intro bs
    induction bs with
    | nil => rfl
    | cons b bs ih =>
        rw [List.flatMap_cons, List.flatMap_append, ih, hexByte, List.flatMap_cons,
          List.flatMap_cons, (hdigit _ (hbyte b).1).1, (hdigit _ (hbyte b).2).1]
        rfl
  have hascii : ∀ bs : Bytes, (encode (bs.flatMap hexByte)).length = 2 * bs.length := by
    intro bs
    induction bs with
    | nil => rfl
    | cons b bs ih =>
        have hb : (encode (hexByte b)).length = 2 := by
          refine length_encode_ascii fun c hc => ?_
          rcases List.mem_cons.mp hc with rfl | hc
          · exact (hdigit _ (hbyte b).1).2
          · rw [List.mem_singleton.mp hc]
            exact (hdigit _ (hbyte b).2).2
        rw [List.flatMap_cons, encode_append, List.length_append, hb, ih, List.length_cons]
        omega
  have hquote : (encode ['"']).length = 1 := rfl
  have hsplit : encode (quoted (sha256Bytes X bytes)) =
      encode ['"'] ++ (encode ((X.digest bytes).flatMap hexByte) ++ encode ['"']) := by
    rw [quoted, sha256Bytes, String.toList_ofList, hplain, ← encode_append, ← encode_append]
    rfl
  rw [literalSize, hsplit, List.length_append, List.length_append, hquote, hascii, h]

/-- The decimal digits of a number. -/
def decimalSize (n : UInt64) : Nat := (Nat.toDigits 10 n.toNat).length

theorem compactSize_string (s : String) : (Codec.string.ser s).compactSize = literalSize s := rfl

theorem compactSize_u64 (n : UInt64) : (Codec.u64.ser n).compactSize = decimalSize n :=
  length_encode_intLit n.toNat

/-- A string that may be missing. -/
def optionSize : Option String → Nat
  | none => 4
  | some s => literalSize s

theorem compactSize_option (o : Option String) :
    (Codec.string.serOption o).compactSize = optionSize o := by
  cases o
  · rfl
  · rfl

/-! ### What is recorded -/

/-- The size of an identity in a receipt, with 66 bytes for the hash of the
endpoint. -/
def DatabaseIdentity.recordedSize (d : DatabaseIdentity) : Nat :=
  188 + literalSize d.database + literalSize d.role + literalSize d.searchPath +
    (Codec.i64.ser d.serverVersionNum).compactSize + optionSize d.serverAddress +
    (Codec.i32.serOption d.serverPort).compactSize +
    ((Codec.map Codec.string).ser d.settings).compactSize

/-- The size of a result: what it affected, why, the SQLSTATE, the identity if it
was read, and 66 bytes for the hash of the catalog if there is one. -/
def ReceiptResult.recordedSize (r : ReceiptResult) : Nat :=
  80 + (Codec.u64.serOption r.affectedRows).compactSize + literalSize r.reasonCode +
    optionSize r.sqlstate + (r.database.elim 4 DatabaseIdentity.recordedSize) +
    (if r.tableSchemaSha256.isSome then 66 else 4)

theorem DatabaseIdentity.recordedSize_eq {d : DatabaseIdentity}
    (hendpoint : literalSize d.endpointSha256 = 66) :
    (DatabaseIdentity.codec.ser d).compactSize = d.recordedSize := by
  have hframe : compactFrame ["database", "role", "search_path", "server_version_num",
      "endpoint_sha256", "server_address", "server_port", "settings"] = 121 := by decide
  rw [DatabaseIdentity.codec, Codec.compactSize_struct (by simp [Fields.required, Fields.cons])]
  simp only [Fields.required, Fields.optional, Fields.cons, Fields.nil, List.map_cons,
    List.sum_cons, List.map_nil, List.sum_nil, compactSize_string, compactSize_option, hendpoint,
    hframe, recordedSize]
  omega

theorem ReceiptResult.recordedSize_eq {r : ReceiptResult}
    (hdatabase : ∀ d ∈ r.database, literalSize d.endpointSha256 = 66)
    (hschema : ∀ hash ∈ r.tableSchemaSha256, literalSize hash = 66) :
    (ReceiptResult.codec.ser r).compactSize = r.recordedSize := by
  have hframe : compactFrame ["affected_rows", "reason_code", "sqlstate", "database",
      "table_schema_sha256"] = 79 := by decide
  have hidentity : (DatabaseIdentity.codec.serOption r.database).compactSize =
      r.database.elim 4 DatabaseIdentity.recordedSize := by
    rcases hd : r.database with - | d
    · rfl
    · exact DatabaseIdentity.recordedSize_eq (hdatabase d hd)
  have hhash : optionSize r.tableSchemaSha256 =
      if r.tableSchemaSha256.isSome then 66 else 4 := by
    rcases hs : r.tableSchemaSha256 with - | hash
    · rfl
    · exact hschema hash hs
  rw [ReceiptResult.codec, Codec.compactSize_struct (by simp [Fields.optional, Fields.cons])]
  simp only [Fields.required, Fields.optional, Fields.cons, Fields.nil, List.map_cons,
    List.sum_cons, List.map_nil, List.sum_nil, compactSize_string, compactSize_option, hidentity,
    hhash, hframe, recordedSize]
  omega

/-! ### The two lines -/

/-- The bytes of a receipt, in terms of its two readings of the clock, the state
and what was recorded.  The hashes and the names of the fields make up the
constant. -/
def receiptSize (preparedAt terminalAt : Nat) (state : ReceiptState) (r : ReceiptResult) : Nat :=
  1034 + (Nat.toDigits 10 preparedAt).length + (Nat.toDigits 10 terminalAt).length +
    (ReceiptState.codec.ser state).compactSize + r.recordedSize

theorem length_eventLine (e : ReceiptEvent) :
    (eventLine e).length = 177 + literalSize e.schemaVersion + literalSize e.toolVersion +
      literalSize e.receiptId + (Codec.u32.ser e.sequence).compactSize +
      decimalSize e.timestampUnixMs + literalSize e.planSha256 + literalSize e.sqlFileSha256 +
      optionSize e.previousEventSha256 + (ReceiptState.codec.ser e.state).compactSize +
      (ReceiptResult.codec.serOption e.result).compactSize + optionSize e.eventSha256 := by
  have hframe : compactFrame ["schema_version", "tool_version", "receipt_id", "sequence",
      "timestamp_unix_ms", "plan_sha256", "sql_file_sha256", "previous_event_sha256", "state",
      "result", "event_sha256"] = 175 := by decide
  have hline : (eventLine e).length = (ReceiptEvent.codec.ser e).compactSize + 1 := by
    rw [eventLine, List.length_append]
    rfl
  rw [hline, ReceiptEvent.codec, Codec.compactSize_struct (by simp [Fields.required, Fields.cons])]
  simp only [Fields.required, Fields.optional, Fields.cons, Fields.nil, List.map_cons,
    List.sum_cons, List.map_nil, List.sum_nil, compactSize_string, compactSize_option,
    compactSize_u64, hframe]
  omega

/-- **Size.**  The two lines that a journal writes are as long as the formula
says. -/
theorem length_receipt (hdigest : ∀ bytes, (X.digest bytes).length = 32) {m m' : Bytes}
    {t t' : UInt64} {state : ReceiptState} {r : ReceiptResult} {prepared terminal : ReceiptEvent}
    (hprepared : prepared =
      sealedWith X (preparedEvent X (sha256Bytes X m) (sha256Bytes X m') t))
    (hterminal : terminal = sealedWith X (terminalEvent prepared t' state r))
    (hdatabase : ∀ d ∈ r.database, literalSize d.endpointSha256 = 66)
    (hschema : ∀ hash ∈ r.tableSchemaSha256, literalSize hash = 66) :
    (eventLine prepared ++ eventLine terminal).length = receiptSize t.toNat t'.toNat state r := by
  have hhash : ∀ bytes, literalSize (sha256Bytes X bytes) = 66 :=
    fun bytes => literalSize_sha256Bytes X (hdigest bytes)
  have hsome : ∀ bytes, optionSize (some (sha256Bytes X bytes)) = 66 := hhash
  have hversion : literalSize receiptSchemaVersion = 26 ∧ literalSize toolVersion = 7 := by decide
  have hsequence : (Codec.u32.ser 1).compactSize = 1 ∧ (Codec.u32.ser 2).compactSize = 1 := by
    decide
  have hstate : (ReceiptState.codec.ser .prepared).compactSize = 10 := by decide
  have hresult : (ReceiptResult.codec.serOption (some r)).compactSize = r.recordedSize :=
    ReceiptResult.recordedSize_eq hdatabase hschema
  have hfirst : (eventLine prepared).length = 493 + decimalSize t := by
    rw [length_eventLine, hprepared]
    simp only [sealedWith, preparedEvent, hhash, hsome, hversion, hsequence, hstate]
    show _ + 4 + 10 + 4 + 66 = _
    omega
  have hlast : (eventLine terminal).length = 541 + decimalSize t' +
      (ReceiptState.codec.ser state).compactSize + r.recordedSize := by
    rw [length_eventLine, hterminal, hprepared]
    simp only [sealedWith, terminalEvent, preparedEvent, hhash, hsome, hversion, hsequence, hresult]
    omega
  rw [List.length_append, hfirst, hlast, receiptSize, decimalSize, decimalSize]
  omega

end DmlPact
