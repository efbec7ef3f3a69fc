/-
DmlPact/Receipt/Sealed.lean

What a hash binds.  A plan and a receipt event hold the hash of themselves with
that hash cleared, and writing a document loses nothing, so as long as no two
of the documents at hand share a hash, a hash belongs to one document:

    plans     one hash, one plan                     (plan_bound_by_seal)
    receipts  one final hash, one list of events     (verifyReceipt_commits)

The second goes through the chain: the terminal event holds the hash of the
prepared event, and the sequence numbers tell the two apart.
-/
import DmlPact.Receipt.Torn

namespace DmlPact

open Effect Utf8

variable (X : Crates)

/-! ### Messages -/

/-- The message that is hashed for an event. -/
def ReceiptEvent.message (event : ReceiptEvent) : Bytes :=
  toVec (ReceiptEvent.codec.ser event.unsigned)

/-- The message that is hashed for a plan. -/
def Plan.message (plan : Plan) : Bytes := toVec (Plan.codec.ser plan.unsigned)

/-- The message and the hash make up the event. -/
theorem ReceiptEvent.eq_of_message {e e' : ReceiptEvent} (h : e.message = e'.message)
    (hseal : e.eventSha256 = e'.eventSha256) : e = e' := by
  have hunsigned : e.unsigned = e'.unsigned :=
    toVec_injective ReceiptEvent.codec (fun _ => rfl) h
  have hback : ∀ f : ReceiptEvent, f = { f.unsigned with eventSha256 := f.eventSha256 } :=
    fun _ => rfl
  rw [hback e, hback e', hunsigned, hseal]

/-- The message and the hash make up the plan. -/
theorem Plan.eq_of_message {p q : Plan} (h : p.message = q.message)
    (hseal : p.planSha256 = q.planSha256) : p = q := by
  have hunsigned : p.unsigned = q.unsigned := toVec_injective Plan.codec (fun _ => rfl) h
  have hback : ∀ r : Plan, r = { r.unsigned with planSha256 := r.planSha256 } := fun _ => rfl
  rw [hback p, hback q, hunsigned, hseal]

/-! ### Accepted events -/

theorem validateEvent_ok {event : ReceiptEvent} (h : validateEvent X event = .ok ()) :
    event.eventSha256 = some (sha256Bytes X event.message) := by
  unfold validateEvent at h
  split_ifs at h
  rcases hclaimed : event.eventSha256 with - | claimed
  · rw [hclaimed] at h
    cases h
  · rw [hclaimed] at h
    dsimp only [eventSha256, sha256Json, bind, Except.bind] at h
    split_ifs at h with hne
    have hsame : claimed = sha256Bytes X event.message := by
      simpa [ReceiptEvent.message] using hne
    rw [hsame]

theorem validatePrepared_ok {prepared : ReceiptEvent}
    (h : validatePrepared X prepared = .ok ()) :
    prepared.eventSha256 = some (sha256Bytes X prepared.message) ∧ prepared.sequence = 1 ∧
      prepared.state = .prepared := by
  unfold validatePrepared at h
  rcases hvalid : validateEvent X prepared with error | ⟨⟩
  · rw [hvalid] at h
    cases h
  · rw [hvalid] at h
    dsimp only [bind, Except.bind] at h
    split_ifs at h with hform
    simp only [Bool.or_eq_true, not_or, bne_iff_ne, ne_eq, not_not] at hform
    exact ⟨validateEvent_ok X hvalid, hform.1.1.1, hform.1.1.2⟩

theorem validateTerminal_ok {prepared event : ReceiptEvent}
    (h : validateTerminal X prepared event = .ok ()) :
    event.eventSha256 = some (sha256Bytes X event.message) ∧ event.sequence = 2 ∧
      event.previousEventSha256 = prepared.eventSha256 := by
  unfold validateTerminal at h
  rcases hvalid : validateEvent X event with error | ⟨⟩
  · rw [hvalid] at h
    cases h
  · rw [hvalid] at h
    dsimp only [bind, Except.bind] at h
    split_ifs at h with hform
    simp only [Bool.or_eq_true, not_or, bne_iff_ne, ne_eq, not_not] at hform
    exact ⟨validateEvent_ok X hvalid, hform.1.1.1.1.1.1.1, hform.1.2⟩

/-- A terminal event has the receipt id of the prepared event it continues. -/
theorem validateTerminal_receiptId {prepared event : ReceiptEvent}
    (h : validateTerminal X prepared event = .ok ()) : event.receiptId = prepared.receiptId := by
  unfold validateTerminal at h
  rcases hvalid : validateEvent X event with error | ⟨⟩
  · rw [hvalid] at h
    cases h
  · rw [hvalid] at h
    dsimp only [bind, Except.bind] at h
    split_ifs at h with hform
    simp only [Bool.or_eq_true, not_or, bne_iff_ne, ne_eq, not_not] at hform
    exact hform.1.1.1.1.2

/-- The events of an accepted receipt, and the report on them. -/
theorem verifyEvents_ok {events : List ReceiptEvent} {v : ReceiptVerification}
    (h : verifyEvents X events = .ok v) :
    (∃ prepared, events = [prepared] ∧ validatePrepared X prepared = .ok () ∧
      v = preparedReport prepared) ∨
    ∃ prepared event, events = [prepared, event] ∧ validatePrepared X prepared = .ok () ∧
      validateTerminal X prepared event = .ok () ∧ v = completeReport prepared event := by
  rcases events with - | ⟨prepared, - | ⟨event, - | ⟨other, rest⟩⟩⟩
  · cases h
  · dsimp only [verifyEvents] at h
    rcases hprepared : validatePrepared X prepared with error | ⟨⟩
    · rw [hprepared] at h
      cases h
    obtain ⟨hseal, -, hstate⟩ := validatePrepared_ok X hprepared
    rw [hprepared] at h
    dsimp only [bind, Except.bind, verification] at h
    rw [hseal, hstate] at h
    refine .inl ⟨prepared, rfl, hprepared, ?_⟩
    rw [preparedReport, hseal]
    exact (Except.ok.inj h).symm
  · dsimp only [verifyEvents] at h
    rcases hprepared : validatePrepared X prepared with error | ⟨⟩
    · rw [hprepared] at h
      cases h
    rcases hterminal : validateTerminal X prepared event with error | ⟨⟩
    · rw [hprepared, hterminal] at h
      cases h
    obtain ⟨hseal, -, -⟩ := validateTerminal_ok X hterminal
    rw [hprepared, hterminal] at h
    dsimp only [bind, Except.bind, verification] at h
    rw [hseal] at h
    refine .inr ⟨prepared, event, rfl, hprepared, hterminal, ?_⟩
    rw [completeReport, hseal]
    exact (Except.ok.inj h).symm
  · cases h

/-! ### Receipts -/

/-- The events that a file decodes to, if it does. -/
def receiptEvents (bytes : Bytes) : List ReceiptEvent :=
  match decode bytes with
  | none => []
  | some content =>
      match (Str.lines content).mapM decodeEvent with
      | .error _ => []
      | .ok events => events

/-- The messages hashed for the events of a file. -/
def receiptMessages (bytes : Bytes) : Set Bytes :=
  {m | ∃ event ∈ receiptEvents bytes, m = event.message}

theorem receiptEvents_ok {bytes : Bytes} {v : ReceiptVerification}
    (h : verifyReceiptBytes X bytes = .ok v) : verifyEvents X (receiptEvents bytes) = .ok v := by
  obtain ⟨content, events, hdecode, -, -, hevents, hverified⟩ := verifyReceiptBytes_ok X h
  rw [receiptEvents, hdecode]
  dsimp only
  rwa [hevents]

variable {X}

/-- Of two accepted lists of events with one final hash, each is the other. -/
theorem events_eq_of_final {events events' : List ReceiptEvent} {v v' : ReceiptVerification}
    (h : verifyEvents X events = .ok v) (h' : verifyEvents X events' = .ok v')
    (hfree : NoCollision X {m | ∃ event ∈ events ++ events', m = event.message})
    (hfinal : v.finalEventSha256 = v'.finalEventSha256) : events = events' := by
  -- one hash, one event, and a message tells its own sequence number
  have hone : ∀ e ∈ events ++ events', ∀ e' ∈ events ++ events',
      e.eventSha256 = some (sha256Bytes X e.message) →
      e'.eventSha256 = some (sha256Bytes X e'.message) →
      e.eventSha256 = e'.eventSha256 → e = e' := by
    intro e he e' he' hseal hseal' hsame
    refine ReceiptEvent.eq_of_message (hfree ⟨e, he, rfl⟩ ⟨e', he', rfl⟩ ?_) hsame
    rw [hseal, hseal'] at hsame
    exact Option.some.inj hsame
  rcases verifyEvents_ok X h with ⟨p, rfl, hp, rfl⟩ | ⟨p, t, rfl, hp, ht, rfl⟩ <;>
    rcases verifyEvents_ok X h' with ⟨p', rfl, hp', rfl⟩ | ⟨p', t', rfl, hp', ht', rfl⟩
  · obtain ⟨hseal, -⟩ := validatePrepared_ok X hp
    obtain ⟨hseal', -⟩ := validatePrepared_ok X hp'
    simp only [preparedReport, hseal, hseal', Option.getD_some] at hfinal
    rw [hone p (by simp) p' (by simp) hseal hseal' (by rw [hseal, hseal', hfinal])]
  · obtain ⟨hseal, hfirst, -⟩ := validatePrepared_ok X hp
    obtain ⟨hseal', hsecond, -⟩ := validateTerminal_ok X ht'
    simp only [preparedReport, completeReport, hseal, hseal', Option.getD_some] at hfinal
    have hsame := hone p (by simp) t' (by simp) hseal hseal' (by rw [hseal, hseal', hfinal])
    rw [← hsame, hfirst] at hsecond
    exact absurd hsecond (by decide)
  · obtain ⟨hseal, hsecond, -⟩ := validateTerminal_ok X ht
    obtain ⟨hseal', hfirst, -⟩ := validatePrepared_ok X hp'
    simp only [preparedReport, completeReport, hseal, hseal', Option.getD_some] at hfinal
    have hsame := hone t (by simp) p' (by simp) hseal hseal' (by rw [hseal, hseal', hfinal])
    rw [hsame, hfirst] at hsecond
    exact absurd hsecond (by decide)
  · obtain ⟨hseal, -, hlink⟩ := validateTerminal_ok X ht
    obtain ⟨hseal', -, hlink'⟩ := validateTerminal_ok X ht'
    simp only [completeReport, hseal, hseal', Option.getD_some] at hfinal
    have hterminal := hone t (by simp) t' (by simp) hseal hseal' (by rw [hseal, hseal', hfinal])
    have hprepared := hone p (by simp) p' (by simp) (validatePrepared_ok X hp).1
      (validatePrepared_ok X hp').1 (by rw [← hlink, ← hlink', hterminal])
    rw [hterminal, hprepared]

/-- The events of two lines. -/
theorem receiptEvents_pair (p e : ReceiptEvent) :
    receiptEvents (eventLine p ++ eventLine e) = [p, e] := by
  have hlines := ReceiptEvent.lines_terminal p e
  rw [ReceiptEvent.eventLine_eq, ReceiptEvent.eventLine_eq, ← encode_append, receiptEvents,
    decode_encode]
  dsimp only
  rw [List.append_assoc, List.singleton_append, hlines, List.mapM_cons,
    ReceiptEvent.decodeEvent_text, List.mapM_cons, ReceiptEvent.decodeEvent_text]
  rfl

/-! ### The small documents, and their hashes -/

namespace Sample

def sqlHash : String := "f27e60bb4cd6055dbe1290e2272fb22ba784c80769bb142cbd4b887713d8b25d"

def countHash : String := "796964caeb283e6d7892aed23b1ceff7a2aed34b55072fcedce5d32581e70c9b"

def targetRowsHash : String := "4b75e74248c992f8d0a5101354973b0141138a2926b6cc17bdb286d44cc27bca"

def endpointHash : String := "8824ff195568406aca6d876380c50ac938f162054d7cd28ff22222d42f0dc464"

def evidenceHash : String := "45ba503c3dffe6d05a2450f744cc588552336291a41c0cb455c6d90cdfedfd43"

def rowsHash : String := "be1ae0d31edb013352a88976c685aacbdeb8bb7c3abcadaa88e5903686e1f40c"

def planHash : String := "d5c1bd86123d70fd5af1787b910f395dfe79efd091165849092ecc4e372ecb5e"

def raisedHash : String := "0ff26ecf46646fb81a1ad7539543a3f7e3abbd127c46564574931d51aeb76462"

def receiptHash : String := "74a75db05df75041cbce874c0c5bb450fa0598b86de418c3c164ad61db3e0142"

def laterHash : String := "c2274ebe5f08e92d0976bed420cbfb8d551bcc761c0a738ee1cb0dba353ca08f"

def preparedHash : String := "6aa0d1e9f8f7d3077806893fa02568070c8d4510cf31e20bd1618f670d2a5d6c"

def backdatedHash : String := "b00a2e2c7fb6be81e246a7b7f8d290d7f6188bc09df6ba74021f15d22d8edc0c"

def committedHash : String := "2576fd3d620996bee1b96aa079374ecbf641c298c6621a382a734105c0eee670"

/-- The small plan with a row budget, as it is hashed. -/
def hashedPlan (maxRows : UInt64) : Plan where
  schemaVersion := planSchemaVersion
  toolVersion := toolVersion
  planId := ""
  createdAtUnixMs := 0
  expiresAtUnixMs := 100
  statementKind := .delete
  requestedTable := "t"
  sqlFileSha256 := sqlHash
  normalizedSqlSha256 := sqlHash
  countQuerySha256 := some countHash
  targetQuerySha256 := some targetRowsHash
  explainSha256 := ""
  limits := ⟨maxRows, 1000, 1000⟩
  transportPolicy := .insecureLocalhost
  allowTriggers := false
  allowRowSecurity := false
  preconditions := {
    database := { identity with endpointSha256 := endpointHash }
    canonicalTable := canonicalTable evidence
    tableSchemaSha256 := evidenceHash
    targetCount := 1
    targetSetSha256 := rowsHash
    relationKind := "r"
    userTriggerCount := 0
    rewriteRuleCount := 0
    rowSecurity := false }
  planSha256 := none

/-- The text of a receipt id. -/
def idText (t : UInt64) : String := planHash ++ ":" ++ sqlHash ++ ":" ++ toString t.toNat

/-- The prepared event at a time, as it is hashed. -/
def hashedPrepared (t : UInt64) : ReceiptEvent where
  schemaVersion := receiptSchemaVersion
  toolVersion := toolVersion
  receiptId := receiptHash
  sequence := 1
  timestampUnixMs := t
  planSha256 := planHash
  sqlFileSha256 := sqlHash
  previousEventSha256 := none
  state := .prepared
  result := none
  eventSha256 := none

/-- The terminal event, as it is hashed. -/
def hashedCommitted : ReceiptEvent :=
  { hashedPrepared 3 with
    sequence := 2
    previousEventSha256 := some preparedHash
    state := .committed
    result := some {
      affectedRows := some 1
      reasonCode := "applied"
      sqlstate := none
      database := some { identity with endpointSha256 := endpointHash }
      tableSchemaSha256 := some evidenceHash } }

/-- The messages that the small documents hash, each with the hashes inside it
written out. -/
def hashes : List (Bytes × String) := [
  (asBytes sql, sqlHash),
  (asBytes (countText "t" "a"), countHash),
  (asBytes (targetRowsText "t" "t" "a"), targetRowsHash),
  (asBytes (endpointIdentity (clientConfig config)), endpointHash),
  (toVec (TableEvidence.codec.ser evidence), evidenceHash),
  (rowEvidence [rowText], rowsHash),
  (toVec (Plan.codec.ser (hashedPlan 1)), planHash),
  (toVec (Plan.codec.ser (hashedPlan 1000)), raisedHash),
  (asBytes (idText 2), receiptHash),
  (asBytes (idText 4), laterHash),
  (toVec (ReceiptEvent.codec.ser (hashedPrepared 2)), preparedHash),
  (toVec (ReceiptEvent.codec.ser (hashedPrepared 1)), backdatedHash),
  (toVec (ReceiptEvent.codec.ser hashedCommitted), committedHash)]

/-- They are evaluated one after the other. -/
theorem digest_of_hashes : ∀ entry ∈ hashes,
    (Sha256.Numeral.digest entry.1).flatMap hexPair = entry.2.toList := by
  simp only [hashes, List.forall_mem_cons]
  refine ⟨?_, ?_, ?_, ?_, ?_, ?_, ?_, ?_, ?_, ?_, ?_, ?_, ?_, List.forall_mem_nil _⟩
  all_goals decide +kernel

theorem hash_of_mem {bytes : Bytes} {hash : String} (h : (bytes, hash) ∈ hashes) :
    sha256Bytes crates bytes = hash := by
  have hdigest := digest_of_hashes (bytes, hash) h
  exact hash_eq hdigest

theorem hash_sql : sha256Bytes crates (asBytes sql) = sqlHash := hash_of_mem (by simp [hashes])

theorem hash_endpoint : endpointSha256 crates (clientConfig config) = endpointHash :=
  hash_of_mem (by simp [hashes])

theorem hash_evidence :
    sha256Bytes crates (toVec (TableEvidence.codec.ser evidence)) = evidenceHash :=
  hash_of_mem (by simp [hashes])

theorem unsigned_plan : answers.plan.unsigned = hashedPlan 1 := by
  have hcount : sha256Bytes crates (asBytes (countText "t" "a")) = countHash :=
    hash_of_mem (by simp [hashes])
  have htarget : sha256Bytes crates (asBytes (targetRowsText "t" "t" "a")) = targetRowsHash :=
    hash_of_mem (by simp [hashes])
  have hrows : sha256Bytes crates (rowEvidence [rowText]) = rowsHash :=
    hash_of_mem (by simp [hashes])
  have hplan : answers.plan.unsigned = { hashedPlan 1 with
      sqlFileSha256 := sha256Bytes crates (asBytes sql)
      normalizedSqlSha256 := sha256Bytes crates (asBytes sql)
      countQuerySha256 := some (sha256Bytes crates (asBytes (countText "t" "a")))
      targetQuerySha256 := some (sha256Bytes crates (asBytes (targetRowsText "t" "t" "a")))
      preconditions := { (hashedPlan 1).preconditions with
        database := { identity with endpointSha256 := endpointSha256 crates (clientConfig config) }
        tableSchemaSha256 := sha256Bytes crates (toVec (TableEvidence.codec.ser evidence))
        targetSetSha256 := sha256Bytes crates (rowEvidence [rowText]) } } := rfl
  rw [hplan, hash_sql, hcount, htarget, hash_endpoint, hash_evidence, hrows]
  rfl

theorem hash_plan : sha256Bytes crates answers.plan.message = planHash := by
  rw [Plan.message, unsigned_plan]
  exact hash_of_mem (by simp [hashes])

theorem unsigned_prepared : approval.prepared.unsigned = hashedPrepared 2 := by
  have hid : sha256Bytes crates (asBytes (idText 2)) = receiptHash :=
    hash_of_mem (by simp [hashes])
  have hprepared : approval.prepared.unsigned = preparedEvent crates
      (sha256Bytes crates answers.plan.message) (sha256Bytes crates (asBytes sql)) 2 := rfl
  rw [hprepared, hash_plan, hash_sql, preparedEvent, ← idText, hid]
  rfl

theorem hash_prepared : sha256Bytes crates approval.prepared.message = preparedHash := by
  rw [ReceiptEvent.message, unsigned_prepared]
  exact hash_of_mem (by simp [hashes])

/-- That prepared event, sealed for an earlier time. -/
def backdated : ReceiptEvent := sealedWith crates { approval.prepared with timestampUnixMs := 1 }

theorem hash_backdated : sha256Bytes crates backdated.message = backdatedHash := by
  have hbackdated : backdated.unsigned =
      { approval.prepared.unsigned with timestampUnixMs := 1 } := rfl
  rw [ReceiptEvent.message, hbackdated, unsigned_prepared]
  have hhash : sha256Bytes crates (toVec (ReceiptEvent.codec.ser (hashedPrepared 1))) =
      backdatedHash := hash_of_mem (by simp [hashes])
  exact hhash

theorem hash_committed : sha256Bytes crates (approval.committed 3).message = committedHash := by
  have hcommitted : (approval.committed 3).unsigned = { approval.prepared.unsigned with
      sequence := 2
      timestampUnixMs := 3
      previousEventSha256 := some (sha256Bytes crates approval.prepared.message)
      state := .committed
      result := some {
        affectedRows := some 1
        reasonCode := "applied"
        sqlstate := none
        database :=
          some { identity with endpointSha256 := endpointSha256 crates (clientConfig config) }
        tableSchemaSha256 :=
          some (sha256Bytes crates (toVec (TableEvidence.codec.ser evidence))) } } := rfl
  rw [ReceiptEvent.message, hcommitted, unsigned_prepared, hash_prepared, hash_endpoint,
    hash_evidence]
  have hhash : sha256Bytes crates (toVec (ReceiptEvent.codec.ser hashedCommitted)) =
      committedHash := hash_of_mem (by simp [hashes])
  exact hhash

/-- The events of the two receipts have three hashes. -/
theorem receipts_free : NoCollision crates
    (receiptMessages (eventLine approval.prepared ++ eventLine (approval.committed 3)) ∪
      receiptMessages (eventLine backdated ++ eventLine (approval.committed 3))) := by
  have hhashes : ([approval.prepared.message, backdated.message,
      (approval.committed 3).message].map (sha256Bytes crates)).Nodup := by
    simp only [List.map_cons, List.map_nil, hash_prepared, hash_backdated, hash_committed]
    decide
  refine (NoCollision.of_hashes hhashes).mono ?_
  rintro m (⟨event, hevent, rfl⟩ | ⟨event, hevent, rfl⟩)
  · rw [receiptEvents_pair] at hevent
    rcases List.mem_pair.mp hevent with rfl | rfl <;> simp
  · rw [receiptEvents_pair] at hevent
    rcases List.mem_pair.mp hevent with rfl | rfl <;> simp

end Sample

variable (X)

/-- **The final hash commits to the receipt.**  An accepted file with the final
hash of another has its events, and gives its report.  So a complete receipt
whose events were changed is rejected, unless the hash of its terminal event was
changed too. -/
theorem verifyReceipt_commits {bytes bytes' : Bytes} {v : ReceiptVerification}
    (h : verifyReceiptBytes X bytes = .ok v)
    (hfree : NoCollision X (receiptMessages bytes ∪ receiptMessages bytes')) :
    (∀ v', verifyReceiptBytes X bytes' = .ok v' → v.finalEventSha256 = v'.finalEventSha256 →
      receiptEvents bytes = receiptEvents bytes' ∧ v = v') ∧
    ∀ p t p' t', receiptEvents bytes = [p, t] → receiptEvents bytes' = [p', t'] →
      t.eventSha256 = t'.eventSha256 → ¬ (p = p' ∧ t = t') →
      ∀ v', verifyReceiptBytes X bytes' ≠ .ok v' := by
  have hmessages : NoCollision X
      {m | ∃ event ∈ receiptEvents bytes ++ receiptEvents bytes', m = event.message} := by
    refine hfree.mono ?_
    rintro m ⟨event, hevent, rfl⟩
    rcases List.mem_append.mp hevent with hleft | hright
    · exact .inl ⟨event, hleft, rfl⟩
    · exact .inr ⟨event, hright, rfl⟩
  have hevents := receiptEvents_ok X h
  have hsame : ∀ v', verifyReceiptBytes X bytes' = .ok v' →
      v.finalEventSha256 = v'.finalEventSha256 → receiptEvents bytes = receiptEvents bytes' :=
    fun v' h' hfinal => events_eq_of_final hevents (receiptEvents_ok X h') hmessages hfinal
  refine ⟨fun v' h' hfinal => ?_, fun p t p' t' hpt hpt' hseal hchanged v' h' => ?_⟩
  · have heq := hsame v' h' hfinal
    rw [heq, receiptEvents_ok X h'] at hevents
    exact ⟨heq, (Except.ok.inj hevents).symm⟩
  · have hevents' := receiptEvents_ok X h'
    rw [hpt] at hevents
    rw [hpt'] at hevents'
    -- both reports show the hash of the terminal event
    have hfinal : v.finalEventSha256 = v'.finalEventSha256 := by
      rcases verifyEvents_ok X hevents with ⟨_, hone, -⟩ | ⟨_, _, htwo, -, -, rfl⟩
      · cases hone
      cases htwo
      rcases verifyEvents_ok X hevents' with ⟨_, hone, -⟩ | ⟨_, _, htwo, -, -, rfl⟩
      · cases hone
      cases htwo
      rw [completeReport, completeReport, hseal]
    have heq := hsame v' h' hfinal
    rw [hpt, hpt'] at heq
    simp only [List.cons.injEq, and_true] at heq
    exact hchanged heq

/-- The receipt of the small run; and its terminal line behind a prepared event
that was sealed for an earlier time. -/
theorem verifyReceipt_commits_sample :
    (∃ v, verifyReceiptBytes Sample.crates
        (eventLine Sample.approval.prepared ++ eventLine (Sample.approval.committed 3)) = .ok v) ∧
      ∀ v', verifyReceiptBytes Sample.crates
        (eventLine Sample.backdated ++ eventLine (Sample.approval.committed 3)) ≠ .ok v' := by
  have haccepted : verifyReceiptBytes Sample.crates
      (eventLine Sample.approval.prepared ++ eventLine (Sample.approval.committed 3)) =
        .ok (completeReport Sample.approval.prepared (Sample.approval.committed 3)) := by
    have hsmall := (Sample.length_lines 3).trans (show 20000 ≤ maxReceiptBytes by decide)
    rw [Sample.approval.written_committed] at hsmall
    have hverify := (Sample.approval.receipt_committed 3).verify Sample.crates
    rwa [if_neg (Nat.not_lt.mpr hsmall), if_neg (by decide)] at hverify
  have hchanged : ¬ (Sample.approval.prepared = Sample.backdated ∧
      Sample.approval.committed 3 = Sample.approval.committed 3) := by
    rintro ⟨hsame, -⟩
    exact absurd (congrArg ReceiptEvent.timestampUnixMs hsame) (by decide)
  exact ⟨⟨_, haccepted⟩, (verifyReceipt_commits Sample.crates haccepted Sample.receipts_free).2 _ _ _ _
    (receiptEvents_pair _ _) (receiptEvents_pair _ _) rfl hchanged⟩

/-! ### Plans -/

theorem verifiedPlanSha256_unsupported {plan : Plan}
    (h : ¬ (plan.schemaVersion = planSchemaVersion ∧
      isSupportedArtifactToolVersion plan.toolVersion)) :
    verifiedPlanSha256 X plan = .error (contract "plan_version_unsupported"
      "the plan schema or tool version is not supported") := by
  unfold verifiedPlanSha256
  rw [if_pos]
  by_contra hsupported
  refine h ?_
  simpa using hsupported

/-- Of two plans that verify under one hash, each is the other. -/
theorem plan_eq_of_verified {p q : Plan} {hash hash' : String}
    (hp : verifiedPlanSha256 X p = .ok hash) (hq : verifiedPlanSha256 X q = .ok hash')
    (hfree : NoCollision X {p.message, q.message}) (h : p.planSha256 = q.planSha256) : p = q := by
  obtain ⟨hseal, hhash⟩ := verifiedPlanSha256_ok X hp
  obtain ⟨hseal', hhash'⟩ := verifiedPlanSha256_ok X hq
  refine Plan.eq_of_message (hfree (.inl rfl) (.inr rfl) ?_) h
  rw [hseal, hseal'] at h
  exact hhash.symm.trans ((Option.some.inj h).trans hhash')

theorem readPlan_verified {path : Path} {h : History} {plan : Plan}
    (hr : Reaches (readPlan X path).run h (.ret (.ok plan))) :
    ∃ hash, verifiedPlanSha256 X plan = .ok hash := by
  obtain ⟨-, bytes, -, -, hdecoded⟩ := (readPlan_ok X).mp hr
  exact ((decodePlan_ok X).mp hdecoded).2.2

/-- **The seal binds the plan.**  Sealing changes nothing but the hash, sealing
again changes nothing, and a sealed plan verifies exactly when its versions are
supported.  Two plans that are read under one hash are one plan, so a plan that
differs in anything from a plan that verifies, its hash apart, is not read. -/
theorem plan_bound_by_seal :
    (∀ p : Plan, ∃ sealed : Plan, sealPlan X p = .ok sealed ∧ sealed.unsigned = p.unsigned ∧
      sealPlan X sealed = .ok sealed ∧
      (verifiedPlanSha256 X sealed = .ok (sha256Bytes X p.message) ↔
        p.schemaVersion = planSchemaVersion ∧ isSupportedArtifactToolVersion p.toolVersion)) ∧
    (∀ (path path' : Path) (h h' : History) (p q : Plan),
      Reaches (readPlan X path).run h (.ret (.ok p)) →
      Reaches (readPlan X path').run h' (.ret (.ok q)) →
      NoCollision X {p.message, q.message} → p.planSha256 = q.planSha256 → p = q) ∧
    ∀ (p q : Plan) (hash : String), verifiedPlanSha256 X p = .ok hash →
      p.planSha256 = q.planSha256 → p ≠ q → NoCollision X {p.message, q.message} →
      ∀ (path : Path) (h : History), ¬ Reaches (readPlan X path).run h (.ret (.ok q)) := by
  refine ⟨fun p => ⟨p.sealedBy X, rfl, rfl, rfl, ?_, ?_⟩, ?_, ?_⟩
  · intro hverified
    -- the seal itself always agrees, so the versions are all that can fail
    by_contra hversions
    have hunsupported : verifiedPlanSha256 X (p.sealedBy X) = _ :=
      verifiedPlanSha256_unsupported X hversions
    rw [hunsupported] at hverified
    cases hverified
  · rintro ⟨hschema, htool⟩
    exact verifiedPlanSha256_sealedBy X hschema htool
  · intro path path' h h' p q hp hq hfree hsame
    obtain ⟨hash, hverified⟩ := readPlan_verified X hp
    obtain ⟨hash', hverified'⟩ := readPlan_verified X hq
    exact plan_eq_of_verified X hverified hverified' hfree hsame
  · intro p q hash hverified hsame hne hfree path h hq
    obtain ⟨hash', hverified'⟩ := readPlan_verified X hq
    exact hne (plan_eq_of_verified X hverified hverified' hfree hsame)

namespace Sample

/-- The small plan with a larger row budget, and its seal. -/
def raised : Plan := { answers.plan with limits := ⟨1000, 1000, 1000⟩ }

theorem hash_raised : sha256Bytes crates raised.message = raisedHash := by
  have hraised : raised.unsigned =
      { answers.plan.unsigned with limits := ⟨1000, 1000, 1000⟩ } := rfl
  have hhash : sha256Bytes crates (toVec (Plan.codec.ser (hashedPlan 1000))) = raisedHash :=
    hash_of_mem (by simp [hashes])
  rw [Plan.message, hraised, unsigned_plan]
  exact hhash

end Sample

/-- A plan that was sealed, sealed again, and read from two files.  With a larger
row budget under the same seal it is not read. -/
theorem plan_bound_by_seal_sample :
    ∃ sealed, sealPlan Sample.crates Sample.answers.plan = .ok sealed ∧
      sealPlan Sample.crates sealed = .ok sealed ∧ sealed = Sample.answers.plan ∧
      ∀ (path : Path) (h : History), ¬ Reaches (readPlan Sample.crates path).run h
        (.ret (.ok Sample.raised)) := by
  obtain ⟨hseal, hread, hforged⟩ := plan_bound_by_seal Sample.crates
  obtain ⟨sealed, hsealed, -, hagain, -⟩ := hseal Sample.answers.plan
  obtain rfl : Sample.answers.plan.sealedBy Sample.crates = sealed := Except.ok.inj hsealed
  have hfile : ∀ path, Reaches (readPlan Sample.crates path).run
      [⟨.metadata path, some ⟨true, 0⟩⟩, ⟨.read path, some Sample.approval.planBytes⟩]
      (.ret (.ok Sample.answers.plan)) :=
    fun path => (readPlan_ok Sample.crates).mpr
      ⟨_, _, rfl, Sample.approval.plan_file, Sample.approval.plan_decoded⟩
  have hsame : Sample.answers.plan.sealedBy Sample.crates = Sample.answers.plan := by
    refine hread [1] [2] _ _ _ _ (hfile [1]) (hfile [2]) ?_ rfl
    show NoCollision _ {Sample.answers.plan.message, Sample.answers.plan.message}
    rw [Set.pair_eq_singleton]
    exact NoCollision.of_subsingleton _ Set.subsingleton_singleton
  refine ⟨_, rfl, hagain, hsame, ?_⟩
  refine hforged Sample.answers.plan Sample.raised _ (Sample.answers.planNaming_verified _) rfl
    (fun heq => ?_) ?_
  · exact absurd (congrArg (fun p : Plan => p.limits.maxRows) heq) (by decide)
  · apply NoCollision.pair
    rw [Sample.hash_plan, Sample.hash_raised]
    decide

end DmlPact
