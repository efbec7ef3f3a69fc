/-
DmlPact/Receipt/Verify.lean

The verifier on what a journal writes.  An event is one line without a line
break in it, so the lines of a receipt are its events (`lines_*`), each reads
back as itself, and what is left is whether the events chain:

    verifyReceiptBytes (prepared line)                  accepts
    verifyReceiptBytes (prepared line ++ terminal line) accepts
        ↔  the terminal timestamp is not before the prepared one

as long as the file is within the verifier's size limit.
-/
import DmlPact.Apply.Runs
import DmlPact.Model.Sizes

namespace DmlPact

open Effect Utf8 Json

variable (X : Crates)

/-! ### Events as lines -/

/-- The JSON text of an event. -/
def ReceiptEvent.text (event : ReceiptEvent) : List Char := (ReceiptEvent.codec.ser event).compact

namespace ReceiptEvent

variable (event p e : ReceiptEvent)

theorem isDocument : (ReceiptEvent.codec.ser event).isDocument := rfl

/-- There is no control character in the text of an event. -/
theorem le_of_mem_text {c : Char} (hc : c ∈ event.text) : 0x20 ≤ c.toNat :=
  le_of_mem_compact _ (ReceiptEvent.codec.exact_ser event) hc

theorem feed_not_mem_text : '\n' ∉ event.text := fun h =>
  absurd (event.le_of_mem_text h) (by decide)

theorem stripCr_text : Str.stripCr event.text = event.text := by
  rw [Str.stripCr, if_neg]
  intro h
  exact absurd (event.le_of_mem_text (List.mem_of_getLast? h)) (by decide)

/-- The text of an event starts with a brace. -/
theorem text_eq_cons : ∃ cs, event.text = '\x7b' :: cs := ⟨_, rfl⟩

theorem text_ne_nil : event.text ≠ [] := by
  obtain ⟨cs, h⟩ := event.text_eq_cons
  rw [h]
  exact List.cons_ne_nil _ _

theorem isBlank_text : Str.isBlank event.text = false := by
  obtain ⟨cs, h⟩ := event.text_eq_cons
  have hbrace : Str.isWhitespace '\x7b' = false := by decide
  rw [h, Str.isBlank, List.all_cons, hbrace, Bool.false_and]

theorem decodeEvent_text : decodeEvent event.text = .ok event := by
  have hparse := parse_compact _ (ReceiptEvent.codec.exact_ser event) event.isDocument
  unfold decodeEvent text
  rw [hparse, Option.bind_some, ReceiptEvent.codec.de_ser]

theorem eventLine_eq : eventLine event = encode (event.text ++ ['\n']) := by
  rw [encode_append]
  rfl

/-! ### Lines of a receipt -/

theorem lines_prepared_cut : Str.lines p.text = [p.text] :=
  Str.lines_single p.feed_not_mem_text p.text_ne_nil

theorem lines_prepared : Str.lines (p.text ++ ['\n']) = [p.text] := by
  rw [Str.lines_feed p.feed_not_mem_text, p.stripCr_text]
  rfl

theorem lines_terminal_cut : Str.lines (p.text ++ '\n' :: e.text) = [p.text, e.text] := by
  rw [Str.lines_feed p.feed_not_mem_text, p.stripCr_text, e.lines_prepared_cut]

theorem lines_terminal :
    Str.lines (p.text ++ '\n' :: (e.text ++ ['\n'])) = [p.text, e.text] := by
  rw [Str.lines_feed p.feed_not_mem_text, p.stripCr_text, e.lines_prepared]

end ReceiptEvent

/-- **Lines.**  A file whose lines are one or two events is judged by its
events. -/
theorem verifyReceiptBytes_of_lines {bytes : Bytes} {content : List Char}
    {events : List ReceiptEvent} (hd : decode bytes = some content)
    (hlines : Str.lines content = events.map ReceiptEvent.text)
    (hcount : 1 ≤ events.length ∧ events.length ≤ 2) :
    verifyReceiptBytes X bytes =
      if maxReceiptBytes < bytes.length then .error receiptFileInvalid
      else verifyEvents X events := by
  have hall : (events.map ReceiptEvent.text).any Str.isBlank = false := by
    rw [List.any_eq_false]
    intro line hline
    obtain ⟨event, -, rfl⟩ := List.mem_map.mp hline
    rw [event.isBlank_text]
    exact Bool.false_ne_true
  have hdecode : (events.map ReceiptEvent.text).mapM decodeEvent = .ok events := by
    clear hlines hcount hall
    induction events with
    | nil => rfl
    | cons event events ih =>
        rw [List.map_cons, List.mapM_cons, event.decodeEvent_text, ih]
        rfl
  unfold verifyReceiptBytes
  rw [hd]
  dsimp only
  rw [hlines, hall, hdecode]
  have hlength : (!(decide (1 ≤ (events.map ReceiptEvent.text).length) &&
      decide ((events.map ReceiptEvent.text).length ≤ 2)) || false) = false := by
    simp [hcount.1, hcount.2]
  rw [hlength]
  rfl

/-- A file of two event lines, whichever events they are, is judged by the
two. -/
theorem verifyReceiptBytes_pair (p e : ReceiptEvent) :
    verifyReceiptBytes X (eventLine p ++ eventLine e) =
      if maxReceiptBytes < (eventLine p ++ eventLine e).length then .error receiptFileInvalid
      else verifyEvents X [p, e] := by
  have hbytes : decode (eventLine p ++ eventLine e) =
      some (p.text ++ '\n' :: (e.text ++ ['\n'])) := by
    have hjoin : eventLine p ++ eventLine e =
        encode (p.text ++ '\n' :: (e.text ++ ['\n'])) := by
      rw [ReceiptEvent.eventLine_eq, ReceiptEvent.eventLine_eq, ← encode_append,
        List.append_assoc]
      rfl
    rw [hjoin, decode_encode]
  have hlines : Str.lines (p.text ++ '\n' :: (e.text ++ ['\n'])) =
      [p, e].map ReceiptEvent.text := p.lines_terminal e
  exact verifyReceiptBytes_of_lines X hbytes hlines ⟨by simp, by simp⟩

/-- A line is that of one event. -/
theorem eventLine_injective : Function.Injective eventLine := by
  intro p e h
  rw [ReceiptEvent.eventLine_eq, ReceiptEvent.eventLine_eq] at h
  have htext : p.text = e.text := List.append_cancel_right (encode_injective h)
  have hdecode := p.decodeEvent_text
  rw [htext, e.decodeEvent_text] at hdecode
  exact (Except.ok.inj hdecode).symm

/-! ### Sealed events -/

theorem validateEvent_sealedWith {event : ReceiptEvent}
    (hschema : event.schemaVersion = receiptSchemaVersion)
    (htool : isSupportedArtifactToolVersion event.toolVersion) :
    validateEvent X (sealedWith X event) = .ok () := by
  unfold validateEvent
  rw [if_neg (by simp [sealedWith, hschema, htool])]
  simp [sealedWith, eventSha256, sha256Json, ReceiptEvent.unsigned, bind, Except.bind, pure,
    Except.pure]

theorem validatePrepared_sealed (planSha256 sqlFileSha256 : String) (t : UInt64) :
    validatePrepared X (sealedWith X (preparedEvent X planSha256 sqlFileSha256 t)) = .ok () := by
  unfold validatePrepared
  rw [validateEvent_sealedWith X rfl rfl]
  rfl

/-- The report on a receipt that holds only its prepared event. -/
def preparedReport (prepared : ReceiptEvent) : ReceiptVerification where
  schemaVersion := "dmlpact.receipt-verification.v1"
  receiptId := prepared.receiptId
  integrityValid := true
  complete := false
  eventCount := 1
  finalState := .prepared
  planSha256 := prepared.planSha256
  finalEventSha256 := prepared.eventSha256.getD ""

/-- The report on a receipt with its terminal event. -/
def completeReport (prepared terminal : ReceiptEvent) : ReceiptVerification where
  schemaVersion := "dmlpact.receipt-verification.v1"
  receiptId := prepared.receiptId
  integrityValid := true
  complete := true
  eventCount := 2
  finalState := terminal.state
  planSha256 := prepared.planSha256
  finalEventSha256 := terminal.eventSha256.getD ""

theorem verifyEvents_prepared (planSha256 sqlFileSha256 : String) (t : UInt64) :
    verifyEvents X [sealedWith X (preparedEvent X planSha256 sqlFileSha256 t)] =
      .ok (preparedReport (sealedWith X (preparedEvent X planSha256 sqlFileSha256 t))) := by
  unfold verifyEvents
  dsimp only
  rw [validatePrepared_sealed]
  rfl

def chainInvalid : AppError :=
  contract "receipt_chain_invalid"
    "the final receipt event does not continue the prepared event"

/-- Of what a terminal event must satisfy, only the order of the timestamps is
not by construction. -/
theorem validateTerminal_sealed (prepared : ReceiptEvent) (t : UInt64) {state : ReceiptState}
    (hfinal : state.isFinal) (result : ReceiptResult) :
    validateTerminal X prepared (sealedWith X (terminalEvent prepared t state result)) =
      if t < prepared.timestampUnixMs then .error chainInvalid else .ok () := by
  unfold validateTerminal
  rw [validateEvent_sealedWith X rfl rfl]
  have hchain : ((sealedWith X (terminalEvent prepared t state result)).sequence != 2
      || !(sealedWith X (terminalEvent prepared t state result)).state.isFinal
      || (sealedWith X (terminalEvent prepared t state result)).result.isNone
      || (sealedWith X (terminalEvent prepared t state result)).receiptId != prepared.receiptId
      || (sealedWith X (terminalEvent prepared t state result)).planSha256 != prepared.planSha256
      || (sealedWith X (terminalEvent prepared t state result)).sqlFileSha256 !=
        prepared.sqlFileSha256
      || (sealedWith X (terminalEvent prepared t state result)).previousEventSha256 !=
        prepared.eventSha256
      || decide ((sealedWith X (terminalEvent prepared t state result)).timestampUnixMs <
        prepared.timestampUnixMs)) = decide (t < prepared.timestampUnixMs) := by
    simp [sealedWith, terminalEvent, hfinal]
    rfl
  show (if _ = true then _ else _) = _
  rw [hchain]
  by_cases ht : t < prepared.timestampUnixMs
  · rw [if_pos (by simpa using ht), if_pos ht]
    rfl
  · rw [if_neg (by simpa using ht), if_neg ht]
    rfl

/-- The two events of a run chain, unless the clock went backwards. -/
theorem verifyEvents_terminal (planSha256 sqlFileSha256 : String) (t t' : UInt64)
    {state : ReceiptState} (hfinal : state.isFinal) (result : ReceiptResult)
    (prepared terminal : ReceiptEvent)
    (hp : prepared = sealedWith X (preparedEvent X planSha256 sqlFileSha256 t))
    (ht : terminal = sealedWith X (terminalEvent prepared t' state result)) :
    verifyEvents X [prepared, terminal] =
      if t' < t then .error chainInvalid else .ok (completeReport prepared terminal) := by
  have htime : prepared.timestampUnixMs = t := by rw [hp]; rfl
  have hvalid : validatePrepared X prepared = .ok () := by
    rw [hp, validatePrepared_sealed]
  have hchain : validateTerminal X prepared terminal =
      if t' < t then .error chainInvalid else .ok () := by
    rw [ht, validateTerminal_sealed X prepared t' hfinal result, htime]
  have hreport : verification prepared terminal 2 = .ok (completeReport prepared terminal) := by
    rw [ht]
    rfl
  unfold verifyEvents
  dsimp only
  rw [hvalid, hchain]
  by_cases hlt : t' < t
  · rw [if_pos hlt, if_pos hlt]
    rfl
  · rw [if_neg hlt, if_neg hlt]
    exact hreport

/-! ### How long a line is -/

theorem length_eventLine_le (event : ReceiptEvent) :
    (eventLine event).length ≤ 1501 + 6 * event.chars +
      (ReceiptResult.codec.serOption event.result).weight := by
  have hlen : (toVec (ReceiptEvent.codec.ser event)).length ≤ _ :=
    Json.length_encode_compact (ReceiptEvent.codec.ser event)
  have hweight := event.weight_le
  have hfeed : (asBytes "\n").length = 1 := rfl
  rw [eventLine, List.length_append, hfeed]
  omega

/-- With 32-byte digests a prepared line is short. -/
theorem length_preparedLine_le (hdigest : ∀ bytes, (X.digest bytes).length = 32)
    {planSha256 sqlFileSha256 : String} (hplan : planSha256.toList.length = 64)
    (hsql : sqlFileSha256.toList.length = 64) (t : UInt64) :
    (eventLine (sealedWith X (preparedEvent X planSha256 sqlFileSha256 t))).length ≤ 4000 := by
  have hlen := length_eventLine_le (sealedWith X (preparedEvent X planSha256 sqlFileSha256 t))
  have hid : (preparedEvent X planSha256 sqlFileSha256 t).receiptId.toList.length = 64 :=
    length_sha256Bytes X (hdigest _)
  have hseal : ((sealedWith X (preparedEvent X planSha256 sqlFileSha256 t)).eventSha256.getD
      "").toList.length = 64 := length_sha256Bytes X (hdigest _)
  have hschema : receiptSchemaVersion.toList.length = 24 := by decide
  have htool : toolVersion.toList.length = 5 := by decide
  have hchars : (sealedWith X (preparedEvent X planSha256 sqlFileSha256 t)).chars =
      receiptSchemaVersion.toList.length + toolVersion.toList.length +
        (preparedEvent X planSha256 sqlFileSha256 t).receiptId.toList.length +
        planSha256.toList.length + sqlFileSha256.toList.length + 0 +
        ((sealedWith X (preparedEvent X planSha256 sqlFileSha256 t)).eventSha256.getD
          "").toList.length := rfl
  have hresult : (ReceiptResult.codec.serOption
      (sealedWith X (preparedEvent X planSha256 sqlFileSha256 t)).result).weight = 4 := rfl
  rw [hchars, hschema, htool, hid, hplan, hsql, hseal, hresult] at hlen
  omega

end DmlPact
