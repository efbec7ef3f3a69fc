/-
DmlPact/Receipt/Written.lean

The receipt that a finished run leaves, and the verifier's judgement of it.
The two events chain by construction, so the judgement depends on two things
the construction does not control: the clock between the two readings, and the
size of what the server reported (`applyPlan_receipt_verifies`).
-/
import DmlPact.Apply.Outcome
import DmlPact.Receipt.Size
import DmlPact.Receipt.Verify

namespace DmlPact

open Effect Utf8

variable (X : Crates) {h : History}

/-! ### What a run writes and reads -/

/-- What one event adds to the file at `path`. -/
def writtenBy (path : Path) : Event Cmd Reply → Bytes
  | ⟨.writeAll p bytes, .done⟩ => if p = path then bytes else []
  | ⟨.writeAll p bytes, .failed n⟩ => if p = path then bytes.take n else []
  | _ => []

/-- What a run has written to the file at `path`. -/
def written (path : Path) (h : History) : Bytes := h.flatMap (writtenBy path)

/-- The clock reading of one event. -/
def reading : Event Cmd Reply → Option Nat
  | ⟨.now, time⟩ => time
  | _ => none

/-- The clock readings of a run. -/
def readings (h : History) : List Nat := h.filterMap reading

theorem written_of_channel {path : Path} (hh : ∀ e ∈ h, e.cmd.channel ≠ .write) :
    written path h = [] := by
  refine List.flatMap_eq_nil_iff.mpr fun e he => ?_
  obtain ⟨c, r⟩ := e
  have hc := hh _ he
  cases c
  case writeAll => exact absurd rfl hc
  all_goals rfl

theorem readings_of_channel (hh : ∀ e ∈ h, e.cmd.channel ≠ .clock) : readings h = [] := by
  refine List.filterMap_eq_nil_iff.mpr fun e he => ?_
  obtain ⟨c, r⟩ := e
  have hc := hh _ he
  cases c
  case now => exact absurd rfl hc
  all_goals rfl

/-! ### The verifier on the file -/

/-- Verifying a regular file of a length that is allowed. -/
theorem verifyReceipt_ret {path : Path} {metadata : Metadata} {bytes : Bytes}
    {r : AppResult ReceiptVerification} (hfile : metadata.isFile)
    (hlen : metadata.len.toNat = bytes.length) :
    Reaches (verifyReceipt X path).run [⟨.metadata path, some metadata⟩, ⟨.read path, some bytes⟩]
        (.ret r) → bytes.length ≤ maxReceiptBytes ∧ r = verifyReceiptBytes X bytes := by
  intro hr
  unfold verifyReceipt at hr
  rw [request_bind] at hr
  cases hr with
  | call hr₁ =>
      dsimp only at hr₁
      split_ifs at hr₁ with hlimit
      · cases hr₁
      cases hr₁ with
      | call hr₂ =>
          obtain ⟨-, hq⟩ := Reaches.ret_iff.mp hr₂
          cases hq
          have hsmall : ¬ maxReceiptBytes < bytes.length := by simpa [hfile, hlen] using hlimit
          exact ⟨Nat.not_lt.mp hsmall, rfl⟩

theorem reaches_verifyReceipt (path : Path) {metadata : Metadata} {bytes : Bytes}
    (hfile : metadata.isFile) (hlen : metadata.len.toNat = bytes.length)
    (hsmall : bytes.length ≤ maxReceiptBytes) :
    Reaches (verifyReceipt X path).run [⟨.metadata path, some metadata⟩, ⟨.read path, some bytes⟩]
      (.ret (verifyReceiptBytes X bytes)) := by
  have hlimit : ¬ (!metadata.isFile || decide (maxReceiptBytes < metadata.len.toNat)) = true := by
    simp [hfile, hlen, hsmall]
  unfold verifyReceipt
  rw [request_bind]
  refine .call ?_
  dsimp only
  rw [if_neg hlimit]
  exact .call (.refl _)

/-! ### The receipt of a finished run -/

/-- The two events of a run, as built by the journal at the readings `t` and
`t'`. -/
structure Receipt (prepared terminal : ReceiptEvent) (t t' : UInt64) : Prop where
  prepared_eq : ∃ planSha256 sqlFileSha256,
    prepared = sealedWith X (preparedEvent X planSha256 sqlFileSha256 t)
  terminal_eq : ∃ state result, state.isFinal ∧
    terminal = sealedWith X (terminalEvent prepared t' state result)

/-- **Judgement.**  The verifier accepts both lines of a receipt exactly when
they are within its limit and the clock did not go backwards. -/
theorem Receipt.verify {prepared terminal : ReceiptEvent} {t t' : UInt64}
    (r : Receipt X prepared terminal t t') :
    verifyReceiptBytes X (eventLine prepared ++ eventLine terminal) =
      if maxReceiptBytes < (eventLine prepared ++ eventLine terminal).length then
        .error receiptFileInvalid
      else if t' < t then .error chainInvalid
      else .ok (completeReport prepared terminal) := by
  obtain ⟨planSha256, sqlFileSha256, hp⟩ := r.prepared_eq
  obtain ⟨state, result, hfinal, ht⟩ := r.terminal_eq
  rw [verifyReceiptBytes_pair,
    verifyEvents_terminal X planSha256 sqlFileSha256 t t' hfinal result prepared terminal hp ht]

/-- The verifier, run on the file of a receipt. -/
theorem Receipt.verifies_iff {prepared terminal : ReceiptEvent} {t t' : UInt64}
    (r : Receipt X prepared terminal t t') {path : Path} {metadata : Metadata} {bytes : Bytes}
    (hbytes : bytes = eventLine prepared ++ eventLine terminal) (hfile : metadata.isFile)
    (hlen : metadata.len.toNat = bytes.length) {v : ReceiptVerification} :
    Reaches (verifyReceipt X path).run [⟨.metadata path, some metadata⟩, ⟨.read path, some bytes⟩]
        (.ret (.ok v)) ↔
      v = completeReport prepared terminal ∧ t.toNat ≤ t'.toNat ∧
        bytes.length ≤ maxReceiptBytes := by
  have hverify := r.verify X
  rw [← hbytes] at hverify
  have htime : ¬ t' < t ↔ t.toNat ≤ t'.toNat := by
    rw [UInt64.lt_iff_toNat_lt, Nat.not_lt]
  constructor
  · intro hv
    obtain ⟨hsmall, hq⟩ := verifyReceipt_ret X hfile hlen hv
    rw [hverify, if_neg (Nat.not_lt.mpr hsmall)] at hq
    by_cases hlt : t' < t
    · rw [if_pos hlt] at hq
      cases hq
    · rw [if_neg hlt] at hq
      exact ⟨Except.ok.inj hq, htime.mp hlt, hsmall⟩
  · rintro ⟨rfl, hle, hsmall⟩
    have hok := reaches_verifyReceipt X path hfile hlen hsmall
    rwa [hverify, if_neg (Nat.not_lt.mpr hsmall), if_neg (htime.mpr hle)] at hok

/-- What a run recorded, besides its state, as far as its result does not say it. -/
structure Noted (h : History) (result : ApplyResult) (recorded : ReceiptResult) : Prop where
  told : Learned X h recorded
  reason : recorded.reasonCode = result.reasonCode
  affected : recorded.affectedRows = result.affectedRows

/-- A run that returns a result has written the two events of a receipt, at
its last two clock readings, and the result is what they say. -/
theorem receipt_of_ok {options : ApplyOptions} {result : ApplyResult}
    (hr : Reaches (applyPlan X options).run h (.ret (.ok result))) :
    ∃ prepared terminal t t' before recorded, Receipt X prepared terminal t t' ∧
      written options.receiptPath h = eventLine prepared ++ eventLine terminal ∧
      readings h = before ++ [t.toNat, t'.toNat] ∧ result.state = terminal.state ∧
      result.receiptId = prepared.receiptId ∧ result.planSha256 = prepared.planSha256 ∧
      Noted X h result recorded ∧
      ((∀ bytes, (X.digest bytes).length = 32) →
        (eventLine prepared ++ eventLine terminal).length =
          receiptSize t.toNat t'.toNat result.state recorded) := by
  obtain ⟨plan, journal, outcome, published, admission, created, deciding, publishing, s⟩ :=
    applyPlan_settled X hr (firstLineSynced_of_ok X hr)
  have hreport := s.reported
  rcases published with e | event
  · cases hreport
  obtain ⟨planSha256, sqlFileSha256, t, hprepared, hcreated⟩ := s.prepared
  obtain ⟨hfinal, t', hevent, hpublishing⟩ := (finalize_ok X).mp s.finalized
  -- between the two lines the run neither writes nor reads the clock
  have hdeciding : ∀ c : Channel, c ∈ [Channel.clock, .write] →
      ∀ e ∈ deciding, e.cmd.channel ≠ c := by
    rintro c hc e he rfl
    rcases s.sends e he with (hd | hd | hd) | hd
    · exact Channel.apart hd rfl hc
    · rw [hd] at hc
      exact Channel.apart (List.mem_singleton_self Channel.batch) rfl hc
    · rw [hd] at hc
      exact Channel.apart (List.mem_singleton_self Channel.batch) rfl hc
    · exact Channel.apart hd rfl hc
  have hadmission : ∀ e ∈ admission, e.cmd.channel ≠ .write := by
    intro e he hc
    have hread := s.reads e he
    rw [hc] at hread
    exact absurd hread (by decide)
  refine ⟨journal.prepared, event, t, t', readings admission, outcome.result,
    ⟨⟨planSha256, sqlFileSha256, hprepared⟩, ⟨_, _, hfinal, hevent⟩⟩, ?_, ?_, ?_, ?_, ?_, ?_, ?_⟩
  · rw [s.split, written, List.flatMap_append, List.flatMap_append, List.flatMap_append]
    rw [show admission.flatMap (writtenBy options.receiptPath) = [] from
        written_of_channel hadmission,
      show deciding.flatMap (writtenBy options.receiptPath) = [] from
        written_of_channel (hdeciding .write (by decide)), hcreated, hpublishing, s.path]
    simp [writtenBy]
  · have h₁ : created.filterMap reading = [t.toNat] := by rw [hcreated]; rfl
    have h₂ : deciding.filterMap reading = [] :=
      readings_of_channel (hdeciding .clock (by decide))
    have h₃ : publishing.filterMap reading = [t'.toNat] := by rw [hpublishing]; rfl
    rw [s.split, readings, List.filterMap_append, List.filterMap_append, List.filterMap_append,
      h₁, h₂, h₃, readings, List.append_nil, List.append_assoc]
    rfl
  · rw [Except.ok.inj hreport, hevent]
    rfl
  · rw [Except.ok.inj hreport]
    rfl
  · rw [Except.ok.inj hreport, hevent]
    rfl
  · exact ⟨s.recorded, by rw [Except.ok.inj hreport], by rw [Except.ok.inj hreport]⟩
  · intro hdigest
    have hhash : ∀ bytes, Json.literalSize (sha256Bytes X bytes) = 66 :=
      fun bytes => literalSize_sha256Bytes X (hdigest bytes)
    obtain ⟨m, m', hplan, hsql⟩ := s.hashed
    rw [hprepared] at hplan hsql
    rw [show planSha256 = sha256Bytes X m from hplan,
      show sqlFileSha256 = sha256Bytes X m' from hsql] at hprepared
    rw [Except.ok.inj hreport]
    refine length_receipt X hdigest hprepared hevent (fun d hd => ?_) fun hash hh => ?_
    · obtain ⟨config, row, hrow, -⟩ := s.recorded.database d hd
      rw [ofRow_endpoint hrow]
      exact hhash _
    · obtain ⟨message, rfl⟩ := s.recorded.schema hash hh
      exact hhash message

/-- **Verification.**  The receipt of a run that returned a result is verified,
as complete and with the state, receipt and plan of that result, exactly when
the clock did not go backwards between the run's last two readings and the two
lines are within the verifier's limit.  Their length is `receiptSize` of these
readings, the state and what was recorded, which is what the run was told. -/
theorem applyPlan_receipt_verifies {options : ApplyOptions} {result : ApplyResult}
    (hr : Reaches (applyPlan X options).run h (.ret (.ok result))) {metadata : Metadata}
    (hfile : metadata.isFile)
    (hlen : metadata.len.toNat = (written options.receiptPath h).length) :
    ∃ before preparedAt terminalAt recorded, readings h = before ++ [preparedAt, terminalAt] ∧
      Noted X h result recorded ∧
      ((∀ bytes, (X.digest bytes).length = 32) → (written options.receiptPath h).length =
        receiptSize preparedAt terminalAt result.state recorded) ∧
      ((∃ v, Reaches (verifyReceipt X options.receiptPath).run
          [⟨.metadata options.receiptPath, some metadata⟩,
            ⟨.read options.receiptPath, some (written options.receiptPath h)⟩] (.ret (.ok v)) ∧
          v.complete ∧ v.finalState = result.state ∧ v.receiptId = result.receiptId ∧
          v.planSha256 = result.planSha256) ↔
        preparedAt ≤ terminalAt ∧ (written options.receiptPath h).length ≤ maxReceiptBytes) := by
  obtain ⟨prepared, terminal, t, t', before, recorded, r, hwritten, hreadings, hstate, hid, hplan,
    hrecords, hsize⟩ := receipt_of_ok X hr
  refine ⟨before, t.toNat, t'.toNat, recorded, hreadings, hrecords,
    fun hdigest => by rw [hwritten]; exact hsize hdigest, ?_⟩
  constructor
  · rintro ⟨v, hv, -⟩
    exact ((r.verifies_iff X hwritten hfile hlen).mp hv).2
  · intro hgood
    exact ⟨_, (r.verifies_iff X hwritten hfile hlen).mpr ⟨rfl, hgood⟩, rfl, hstate.symm, hid.symm,
      hplan.symm⟩

namespace Approval

variable {X : Crates} {options : ApplyOptions} (a : Approval X options)

/-- The receipt of an approved run that commits. -/
theorem written_committed (t : UInt64) :
    written options.receiptPath (a.committedHistory t) =
      eventLine a.prepared ++ eventLine (a.committed t) := by
  have hdeciding : (a.connectionHistory ++ sessionHistory a.plan ++ a.driftHistory).flatMap
      (writtenBy options.receiptPath) = [] :=
    written_of_channel fun e he hc => by
      have hd := a.channel_of_deciding he
      rw [hc] at hd
      exact absurd hd (by decide)
  rw [written, committedHistory, history, List.flatMap_append, List.flatMap_append,
    List.flatMap_append, hdeciding]
  simp [Admission.admissionHistory, Admission.receiptHistory, writtenBy]

theorem receipt_committed (t : UInt64) :
    Receipt X a.prepared (a.committed t) a.preparedAt t :=
  ⟨⟨_, _, rfl⟩, ⟨_, _, rfl, rfl⟩⟩

end Approval

/-! ### The small run -/

namespace Sample

theorem length_lines (t : UInt64) :
    (written options.receiptPath (approval.committedHistory t)).length ≤ 20000 := by
  have hprepared : (eventLine approval.prepared).length ≤ 4000 :=
    length_preparedLine_le crates Sha256.length_digest (length_hash _) (length_hash _) _
  have hterminal := length_eventLine_le (approval.committed t)
  have hchars : (approval.committed t).chars = receiptSchemaVersion.toList.length +
      toolVersion.toList.length + approval.prepared.receiptId.toList.length +
      approval.prepared.planSha256.toList.length + approval.prepared.sqlFileSha256.toList.length +
      (approval.prepared.eventSha256.getD "").toList.length +
      ((approval.committed t).eventSha256.getD "").toList.length := rfl
  rw [show receiptSchemaVersion.toList.length = 24 by decide,
    show toolVersion.toList.length = 5 by decide,
    show approval.prepared.receiptId.toList.length = 64 from length_hash _,
    show approval.prepared.planSha256.toList.length = 64 from length_hash _,
    show approval.prepared.sqlFileSha256.toList.length = 64 from length_hash _,
    show (approval.prepared.eventSha256.getD "").toList.length = 64 from length_hash _,
    show ((approval.committed t).eventSha256.getD "").toList.length = 64 from
      length_hash _] at hchars
  have hresult := ReceiptResult.weight_le (executed observed (some 1) "applied" none)
  have hcharsResult : (executed observed (some 1) "applied" none).chars = 71 := by
    rw [ReceiptResult.chars, show ((executed observed (some 1) "applied"
      none).tableSchemaSha256.getD "").toList.length = 64 from length_hash _]
    rfl
  have hweight : (ReceiptResult.codec.serOption (approval.committed t).result).weight =
      (ReceiptResult.codec.ser (executed observed (some 1) "applied" none)).weight := rfl
  have hidentity : (DatabaseIdentity.codec.serOption (executed observed (some 1) "applied"
      none).database).weight = (DatabaseIdentity.codec.ser identity).weight := rfl
  have hbound := weight_identity
  rw [approval.written_committed, List.length_append]
  omega

/-- The file of that receipt. -/
def metadata (t : UInt64) : Metadata :=
  ⟨true, UInt64.ofNat (written options.receiptPath (approval.committedHistory t)).length⟩

theorem metadata_len (t : UInt64) : (metadata t).len.toNat =
    (written options.receiptPath (approval.committedHistory t)).length := by
  have hsmall := length_lines t
  exact UInt64.toNat_ofNat_of_lt' (lt_of_le_of_lt hsmall (by decide))

end Sample

/-- The clock goes from 2 back to 1 between the two events, and the verifier
rejects what the run has just written. -/
theorem applyPlan_receipt_backwards :
    ¬ ∀ (X : Crates) (options : ApplyOptions) (h : History) (result : ApplyResult)
      (metadata : Metadata), Reaches (applyPlan X options).run h (.ret (.ok result)) →
      metadata.isFile → metadata.len.toNat = (written options.receiptPath h).length →
      ∃ v, Reaches (verifyReceipt X options.receiptPath).run
          [⟨.metadata options.receiptPath, some metadata⟩,
            ⟨.read options.receiptPath, some (written options.receiptPath h)⟩] (.ret (.ok v)) ∧
        v.complete ∧ v.finalState = result.state ∧ v.receiptId = result.receiptId ∧
        v.planSha256 = result.planSha256 := by
  intro hall
  obtain ⟨v, hv, -⟩ := hall Sample.crates Sample.options _ _ (Sample.metadata 1)
    (Sample.approval.reaches_committed 1) rfl (Sample.metadata_len 1)
  have hbefore := (((Sample.approval.receipt_committed 1).verifies_iff Sample.crates
    (Sample.approval.written_committed 1) rfl (Sample.metadata_len 1)).mp hv).2.1
  have hclock : ¬ Sample.approval.preparedAt.toNat ≤ (1 : UInt64).toNat := by decide
  exact hclock hbefore

/-- With the clock going from 2 to 3 it accepts. -/
theorem applyPlan_receipt_verifies_sample :
    ∃ v, Reaches (verifyReceipt Sample.crates Sample.options.receiptPath).run
        [⟨.metadata Sample.options.receiptPath, some (Sample.metadata 3)⟩,
          ⟨.read Sample.options.receiptPath, some (written Sample.options.receiptPath
            (Sample.approval.committedHistory 3))⟩] (.ret (.ok v)) ∧
      v.complete ∧ v.finalState = .committed := by
  obtain ⟨before, p, t, -, hreadings, -, -, hiff⟩ := applyPlan_receipt_verifies Sample.crates
    (Sample.approval.reaches_committed 3) (by rfl : (Sample.metadata 3).isFile = true)
    (Sample.metadata_len 3)
  have hclock : readings (Sample.approval.committedHistory 3) = [1] ++ [2, 3] := rfl
  rw [hclock] at hreadings
  obtain ⟨-, hlast⟩ := List.append_inj' hreadings rfl
  obtain ⟨rfl, rfl⟩ : 2 = p ∧ 3 = t := by simpa using hlast
  have hmax : 20000 ≤ maxReceiptBytes := by decide
  obtain ⟨v, hv, hcomplete, hstate, -⟩ :=
    hiff.mpr ⟨by decide, le_trans (Sample.length_lines 3) hmax⟩
  exact ⟨v, hv, hcomplete, hstate⟩

end DmlPact
