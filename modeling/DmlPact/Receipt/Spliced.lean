/-
DmlPact/Receipt/Spliced.lean

Two receipts, taken apart and put together again.  A terminal event is tied to
its prepared event by the receipt id, and by the hash of that event; and what a
prepared event is made of is a plan hash, a SQL hash and one reading of the
clock in milliseconds.  So two runs have different receipts exactly when they
differ in one of the three.  Two runs of one plan whose receipts are prepared in
the same millisecond have one prepared event, and the terminal event of either
continues it (`applyPlan_spliced_iff`).
-/
import DmlPact.Lib.SqlText
import DmlPact.Plan.Bounds
import DmlPact.Receipt.Sealed
import DmlPact.Receipt.Shared

namespace DmlPact

open Effect Utf8

variable (X : Crates) {h : History}

/-! ### Receipt ids -/

/-- What is hashed for a receipt id. -/
def receiptIdMessage (planSha256 sqlFileSha256 : String) (timestamp : UInt64) : Bytes :=
  asBytes (planSha256 ++ ":" ++ sqlFileSha256 ++ ":" ++ toString timestamp.toNat)

theorem colon_notMem_sha256Bytes (bytes : Bytes) : ':' ∉ (sha256Bytes X bytes).toList := by
  have hdigit : ∀ n < 16, Json.hexDigit n ≠ ':' := by decide
  rw [sha256Bytes, String.toList_ofList]
  intro hmem
  obtain ⟨b, -, hb⟩ := List.mem_flatMap.mp hmem
  have hlt : b.toNat < 256 := b.toNat_lt
  simp only [hexByte, List.mem_cons, List.not_mem_nil, or_false] at hb
  rcases hb with hb | hb
  · exact hdigit _ (by omega) hb.symm
  · exact hdigit _ (Nat.mod_lt _ (by decide)) hb.symm

/-- The message of a receipt id tells the two hashes and the time. -/
theorem receiptIdMessage_inj {planBytes sqlBytes planBytes' sqlBytes' : Bytes} {t t' : UInt64}
    (hsame : receiptIdMessage (sha256Bytes X planBytes) (sha256Bytes X sqlBytes) t =
      receiptIdMessage (sha256Bytes X planBytes') (sha256Bytes X sqlBytes') t') :
    sha256Bytes X planBytes = sha256Bytes X planBytes' ∧
      sha256Bytes X sqlBytes = sha256Bytes X sqlBytes' ∧ t = t' := by
  have hchars := encode_injective hsame
  have hcolon : ":".toList = [':'] := rfl
  simp only [String.toList_append, hcolon, List.append_assoc, List.cons_append,
    List.nil_append] at hchars
  -- a digest is written without a colon, so the first one ends it
  obtain ⟨hplan, hrest⟩ := (Separated.append_cons_inj (colon_notMem_sha256Bytes X _)
    (colon_notMem_sha256Bytes X _)).mp hchars
  obtain ⟨hsql, htime⟩ := (Separated.append_cons_inj (colon_notMem_sha256Bytes X _)
    (colon_notMem_sha256Bytes X _)).mp hrest
  refine ⟨String.toList_inj.mp hplan, String.toList_inj.mp hsql, ?_⟩
  have hdigits : Nat.toDigits 10 t.toNat = Nat.toDigits 10 t'.toNat := by
    simpa [toString, Nat.repr] using htime
  exact UInt64.toNat_inj.mp (SqlText.toDigits_injective hdigits)

/-! ### What a run prepares -/

/-- A run has written both lines of its receipt. -/
def Completed (path : Path) (h : History) (prepared terminal : ReceiptEvent) : Prop :=
  durablePrepared path prepared ++ [⟨.writeAll path (eventLine terminal), .done⟩] <+: fileEvents h

theorem Journaled.events {path : Path} {f : History} {p e : ReceiptEvent}
    (hj : Journaled X path f)
    (hc : durablePrepared path p ++ [⟨.writeAll path (eventLine e), .done⟩] <+: f) :
    IsPrepared X p ∧ IsTerminal X p e := by
  have hlen := hc.length_le
  cases hj with
  | untouched => exact absurd hlen (by simp [durablePrepared])
  | created => exact absurd hlen (by simp [durablePrepared])
  | prepared => exact absurd hlen (by simp [durablePrepared])
  | preparedSynced => exact absurd hlen (by simp [durablePrepared])
  | terminal p' hp' e' he' r =>
      have hlines : eventLine p = eventLine p' ∧ eventLine e = eventLine e' ∧
          WriteReply.done = r := by
        simpa [durablePrepared, List.cons_prefix_cons] using hc
      rw [eventLine_injective hlines.1, eventLine_injective hlines.2.1]
      exact ⟨hp', he'⟩
  | terminalSynced p' hp' e' he' synced =>
      have hlines : eventLine p = eventLine p' ∧ eventLine e = eventLine e' := by
        simpa [durablePrepared, List.cons_prefix_cons] using hc
      rw [eventLine_injective hlines.1, eventLine_injective hlines.2]
      exact ⟨hp', he'⟩

/-- The lines of a completed receipt are a prepared event, and a terminal event
that continues it. -/
theorem Completed.events {options : ApplyOptions} {p e : ReceiptEvent}
    {q : Prog Cmd Reply (Except AppError ApplyResult)}
    (hr : Reaches (applyPlan X options).run h q) (hc : Completed options.receiptPath h p e) :
    IsPrepared X p ∧ IsTerminal X p e :=
  (applyPlan_follows X hr).1.journaled.events X hc

/-- The moment of a file command. -/
theorem split_fileEvents {f : History} {e : Event Cmd Reply} (hf : f ++ [e] <+: fileEvents h) :
    ∃ h₁ h₂, h = h₁ ++ e :: h₂ ∧ fileEvents h₁ = f := by
  obtain ⟨rest, hrest⟩ := hf
  rw [List.append_assoc] at hrest
  obtain ⟨before, after, rfl, hbefore, hafter⟩ := List.filter_eq_append_iff.mp hrest.symm
  obtain ⟨quiet, h₂, rfl, hquiet, -, -⟩ := List.filter_eq_cons_iff.mp hafter
  refine ⟨before ++ quiet, h₂, by rw [List.append_assoc], ?_⟩
  rw [fileEvents_append, show fileEvents before = f from hbefore,
    fileEvents_of_channel (by simpa using hquiet), List.append_nil]

/-- What `create` writes is the prepared event of the plan and the SQL file at
its reading of the clock. -/
theorem create_writes {path path' : Path} {plan : Plan} {sqlFileSha256 : String} {bytes : Bytes}
    {k : Reply (.writeAll path' bytes) → Prog Cmd Reply (Except AppError ReceiptJournal)}
    (hr : Reaches (ReceiptJournal.create X path plan sqlFileSha256).run h
      (.call (.writeAll path' bytes) k)) :
    ∃ planSha256 t, verifiedPlanSha256 X plan = .ok planSha256 ∧
      bytes = eventLine (sealedWith X (preparedEvent X planSha256 sqlFileSha256 t)) ∧
      h = [⟨.now, some t.toNat⟩, ⟨.createNew path, true⟩] := by
  have hclock : ¬ (Cmd.writeAll path' bytes).channel ∈ [Channel.clock] := by simp [Cmd.channel]
  unfold ReceiptJournal.create at hr
  obtain ⟨_, _, planSha256, rfl, hplan, hr₁⟩ := Reaches.past (Uses.ofResult _) hclock hr
  obtain ⟨rfl, hverified⟩ := ok_ofResult_last.mp hplan
  obtain ⟨_, _, t, rfl, hnow, hr₂⟩ := Reaches.past unixMs_uses hclock hr₁
  obtain ⟨_, _, prepared, rfl, hseal, hr₃⟩ := Reaches.past (Uses.ofResult _) hclock hr₂
  obtain ⟨rfl, hsealed⟩ := ok_ofResult_last.mp hseal
  rw [request_bind] at hr₃
  rcases Reaches.call_call_iff.mp hr₃ with ⟨-, hq⟩ | ⟨created, h₄, rfl, hr₄⟩
  · cases hq
  cases created with
  | false => cases hr₄
  | true =>
  have hwrite : Reaches (.call (.writeAll path (eventLine prepared)) _) h₄ _ := hr₄
  rcases Reaches.call_call_iff.mp hwrite with ⟨rfl, hq⟩ | ⟨written, h₅, rfl, hr₅⟩
  · cases hq
    cases hsealed
    rw [unixMs_ok.mp hnow]
    exact ⟨planSha256, t, hverified, rfl, rfl⟩
  -- after the line there is only the sync
  cases written with
  | failed n => cases hr₅
  | done =>
  have hsync : Reaches (.call (.syncAll path) _) h₅ _ := hr₅
  rcases Reaches.call_call_iff.mp hsync with ⟨-, hq⟩ | ⟨synced, h₆, rfl, hr₆⟩
  · cases hq
  · cases synced with
    | false => cases hr₆
    | true => cases hr₆

/-- What a run writes first is the prepared event of the plan and the SQL file
it accepted, at its second reading of the clock. -/
theorem prepared_of_write {options : ApplyOptions} {path : Path} {bytes : Bytes}
    {k : Reply (.writeAll path bytes) → Prog Cmd Reply (Except AppError ApplyResult)}
    (hr : Reaches (applyPlan X options).run h (.call (.writeAll path bytes) k))
    (hfirst : (fileEvents h).length = 1) :
    ∃ plan analyzed planSha256 t, Admitted X options h plan analyzed ∧
      verifiedPlanSha256 X plan = .ok planSha256 ∧ (readings h)[1]? = some t.toNat ∧
      bytes = eventLine (sealedWith X (preparedEvent X planSha256 analyzed.sqlFileSha256 t)) := by
  obtain ⟨plan, analyzed, now, h₁, h₂, h₃, h₄, rfl, hplan, hlimits, hsql, hbound, hnow, -, hr₄⟩ :=
    applyPlan_checked X (c := .writeAll path bytes) (by simp [Cmd.channel]) hr
  obtain ⟨planMetadata, planBytes, rfl, -, hdecoded⟩ := (readPlan_ok X).mp hplan
  obtain ⟨sqlMetadata, sqlBytes, sqlText, rfl, -, -, htext, hanalyzed⟩ :=
    (readAndAnalyze_ok X).mp hsql
  obtain rfl := unixMs_ok.mp hnow
  have hnone : fileEvents ([⟨.metadata options.planPath, some planMetadata⟩,
      ⟨.read options.planPath, some planBytes⟩] ++ [⟨.metadata options.sqlPath, some sqlMetadata⟩,
      ⟨.read options.sqlPath, some sqlBytes⟩] ++ [⟨.now, some now.toNat⟩]) = [] := by
    simp [fileEvents, Cmd.channel]
  rw [fileEvents_append, hnone, List.nil_append] at hfirst
  rcases Reaches.run_bind_call hr₄ with ⟨k', hcreating⟩ | ⟨h₅, h₆, journal, rfl, hcreated, -⟩
  · obtain ⟨planSha256, t, hverified, hbytes, rfl⟩ := create_writes X hcreating
    exact ⟨plan, analyzed, planSha256, t,
      ⟨⟨planBytes, rfl, hdecoded⟩, ⟨sqlBytes, sqlText, rfl, htext, hanalyzed⟩, hlimits, hbound⟩,
      hverified, rfl, hbytes⟩
  · -- a finished receipt has three file commands behind it
    obtain ⟨planSha256, t, -, -, rfl⟩ := (create_ok X).mp hcreated
    simp [fileEvents, Cmd.channel] at hfirst

/-- The prepared event of a completed receipt, by what the run has read. -/
theorem Completed.prepared {options : ApplyOptions} {p e : ReceiptEvent}
    {q : Prog Cmd Reply (Except AppError ApplyResult)}
    (hr : Reaches (applyPlan X options).run h q) (hc : Completed options.receiptPath h p e) :
    ∃ plan analyzed planSha256 t, Admitted X options h plan analyzed ∧
      verifiedPlanSha256 X plan = .ok planSha256 ∧ (readings h)[1]? = some t.toNat ∧
      p = sealedWith X (preparedEvent X planSha256 analyzed.sqlFileSha256 t) := by
  have hwritten : [⟨.createNew options.receiptPath, true⟩] ++
      [⟨.writeAll options.receiptPath (eventLine p), .done⟩] <+: fileEvents h := by
    refine List.IsPrefix.trans ?_ hc
    exact ⟨_, rfl⟩
  obtain ⟨h₁, h₂, rfl, hfirst⟩ := split_fileEvents hwritten
  obtain ⟨s, hs, hnext⟩ := hr.split
  obtain ⟨k, rfl, -⟩ := hnext.cons
  obtain ⟨plan, analyzed, planSha256, t, a, hverified, hclock, hline⟩ :=
    prepared_of_write X hs (by rw [hfirst]; rfl)
  refine ⟨plan, analyzed, planSha256, t, a.mono (List.prefix_append _ _), hverified, ?_,
    eventLine_injective hline⟩
  -- later readings come behind this one
  have hkeep := (List.getElem?_eq_some_iff.mp hclock).1
  rw [readings, List.filterMap_append]
  exact (List.getElem?_append_left hkeep).trans hclock

/-! ### Splices -/

/-- The prepared line of one receipt, followed by the terminal line of
another. -/
def spliced (prepared terminal : ReceiptEvent) : Bytes := eventLine prepared ++ eventLine terminal

/-- The verifier rejects every file with these bytes. -/
def Rejected (bytes : Bytes) : Prop := ∀ path v, ¬ Judged X path bytes (.ok v)

/-- What is hashed for the receipt id of a prepared event. -/
def ReceiptEvent.idMessage (event : ReceiptEvent) : Bytes :=
  receiptIdMessage event.planSha256 event.sqlFileSha256 event.timestampUnixMs

/-- An event and a terminal event of another id are rejected together. -/
theorem rejected_of_receiptId {p e : ReceiptEvent} (hne : e.receiptId ≠ p.receiptId) :
    Rejected X (spliced p e) := by
  intro path v hv
  obtain ⟨-, haccepted⟩ := (judged_ok X).mp hv
  rw [spliced, verifyReceiptBytes_pair] at haccepted
  split_ifs at haccepted
  apply hne
  rcases verifyEvents_ok X haccepted with ⟨_, hone, -⟩ | ⟨_, _, htwo, -, hterminal, -⟩
  · cases hone
  · cases htwo
    exact validateTerminal_receiptId X hterminal

variable {X} in
/-- A prepared event is determined by its receipt id. -/
theorem IsPrepared.eq_of_receiptId {p p' : ReceiptEvent} (hp : IsPrepared X p)
    (hp' : IsPrepared X p') (hfree : NoCollision X {p.idMessage, p'.idMessage})
    (hid : p.receiptId = p'.receiptId) : p = p' := by
  have hmessage : p.idMessage = p'.idMessage := by
    apply hfree (.inl rfl) (.inr rfl)
    obtain ⟨_, _, _, rfl⟩ := hp
    obtain ⟨_, _, _, rfl⟩ := hp'
    exact hid
  obtain ⟨planBytes, sqlBytes, t, rfl⟩ := hp
  obtain ⟨planBytes', sqlBytes', t', rfl⟩ := hp'
  obtain ⟨hplan, hsql, htime⟩ := receiptIdMessage_inj X hmessage
  have htime : t = t' := htime
  rw [hplan, hsql, htime]

/-- **Splices.**  Two runs that completed their receipts: each splice of the two
is rejected, and the receipts have different ids, exactly when the plans' seals,
the SQL files' hashes or the clock readings of the prepared events differ. -/
theorem applyPlan_spliced_iff {options options' : ApplyOptions} {h h' : History}
    {q q' : Prog Cmd Reply (Except AppError ApplyResult)} {p e p' e' : ReceiptEvent}
    (hr : Reaches (applyPlan X options).run h q) (hr' : Reaches (applyPlan X options').run h' q')
    (hc : Completed options.receiptPath h p e) (hc' : Completed options'.receiptPath h' p' e')
    (hfree : NoCollision X {p.idMessage, p'.idMessage}) :
    ∃ plan analyzed plan' analyzed', Admitted X options h plan analyzed ∧
      Admitted X options' h' plan' analyzed' ∧
      (Rejected X (spliced p e') ∧ Rejected X (spliced p' e) ∧ p.receiptId ≠ p'.receiptId ↔
        ¬ (plan.planSha256 = plan'.planSha256 ∧
          analyzed.sqlFileSha256 = analyzed'.sqlFileSha256 ∧
          (readings h)[1]? = (readings h')[1]?)) := by
  obtain ⟨plan, analyzed, planSha256, t, a, hverified, hclock, hprepared⟩ := hc.prepared X hr
  obtain ⟨plan', analyzed', planSha256', t', a', hverified', hclock', hprepared'⟩ :=
    hc'.prepared X hr'
  refine ⟨plan, analyzed, plan', analyzed', a, a', ?_⟩
  obtain ⟨hp, _, _, _, -, hterminal⟩ := hc.events X hr
  obtain ⟨hp', _, _, _, -, hterminal'⟩ := hc'.events X hr'
  -- each terminal event carries the id of its own prepared event
  have hid : e.receiptId = p.receiptId := by rw [hterminal]; rfl
  have hid' : e'.receiptId = p'.receiptId := by rw [hterminal']; rfl
  rw [(verifiedPlanSha256_ok X hverified).1, (verifiedPlanSha256_ok X hverified').1, hclock,
    hclock', Option.some.injEq, Option.some.injEq, UInt64.toNat_inj]
  constructor
  · rintro ⟨-, -, hne⟩ ⟨hplan, hsql, htime⟩
    apply hne
    rw [hprepared, hprepared', hplan, hsql, htime]
  · intro hdiffer
    have hne : p.receiptId ≠ p'.receiptId := by
      intro hsame
      have hevents := hp.eq_of_receiptId hp' hfree hsame
      rw [hprepared, hprepared'] at hevents
      exact hdiffer ⟨congrArg ReceiptEvent.planSha256 hevents,
        congrArg ReceiptEvent.sqlFileSha256 hevents,
        congrArg ReceiptEvent.timestampUnixMs hevents⟩
    refine ⟨rejected_of_receiptId X ?_, rejected_of_receiptId X ?_, hne⟩
    · rw [hid']
      exact hne.symm
    · rw [hid]
      exact hne

/-! ### Two runs in one millisecond -/

namespace Admission

variable {X} {options : ApplyOptions} (a : Admission X options)

/-- The terminal event of a run that is refused because its environment
variable is not set. -/
def denied (t : UInt64) : ReceiptEvent :=
  sealedWith X (terminalEvent a.prepared t .refused (refused "database_env_missing" none none))

/-- Asking for the variable, and writing that event. -/
def deniedHistory (t : UInt64) : History :=
  a.admissionHistory ++ a.receiptHistory ++
    ⟨.var options.database.environmentName, none⟩ ::
      [⟨.now, some t.toNat⟩, ⟨.writeAll options.receiptPath (eventLine (a.denied t)), .done⟩,
        ⟨.syncAll options.receiptPath, true⟩]

theorem reaches_denied (t : UInt64) :
    ∃ result, Reaches (applyPlan X options).run (a.deniedHistory t) (.ret (.ok result)) := by
  have hfinal : Reaches (a.journal.finalize X .refused
        (refused "database_env_missing" none none)).run
      [⟨.now, some t.toNat⟩, ⟨.writeAll options.receiptPath (eventLine (a.denied t)), .done⟩,
        ⟨.syncAll options.receiptPath, true⟩] (.ret (.ok (a.denied t))) :=
    (finalize_ok X).mpr ⟨rfl, t, rfl, rfl⟩
  have hfinish : ∃ result, Reaches (finish X a.journal .refused
        (refused "database_env_missing" none none)).run
      [⟨.now, some t.toNat⟩, ⟨.writeAll options.receiptPath (eventLine (a.denied t)), .done⟩,
        ⟨.syncAll options.receiptPath, true⟩] (.ret (.ok result)) :=
    ⟨_, Reaches.run_bind_ok_iff.mpr
      ⟨_, [], _, (List.append_nil _).symm, hfinal, ok_pure.mpr ⟨rfl, rfl⟩⟩⟩
  obtain ⟨result, hfinish⟩ := hfinish
  have hpolicy : ¬ (requestedTransport options.database != a.plan.transportPolicy) = true := by
    simp [a.transport]
  refine ⟨result, a.reaches_receipt.append ?_⟩
  unfold applyAfterReceipt connectDatabase
  rw [if_neg hpolicy, a.environment_valid]
  exact .call hfinish

theorem completed_denied (t : UInt64) :
    Completed options.receiptPath (a.deniedHistory t) a.prepared (a.denied t) := by
  refine ⟨[⟨.syncAll options.receiptPath, true⟩], ?_⟩
  simp [deniedHistory, fileEvents, admissionHistory, receiptHistory, durablePrepared, Cmd.channel]

/-- The same answers, for a receipt at another path. -/
def movedTo (path : Path) : Admission X { options with receiptPath := path } := { a with }

end Admission

theorem Approval.completed_committed {X : Crates} {options : ApplyOptions}
    (a : Approval X options) (t : UInt64) :
    Completed options.receiptPath (a.committedHistory t) a.prepared (a.committed t) := by
  have hdeciding : fileEvents (a.connectionHistory ++ sessionHistory a.plan ++ a.driftHistory) =
      [] :=
    fileEvents_of_channel fun e he hc => by
      have hd := a.channel_of_deciding he
      rw [hc] at hd
      exact absurd hd (by decide)
  refine ⟨[⟨.syncAll options.receiptPath, true⟩], ?_⟩
  rw [committedHistory, history]
  simp only [fileEvents_append, hdeciding]
  simp [fileEvents, Admission.admissionHistory, Admission.receiptHistory, durablePrepared,
    Cmd.channel]

/-! ### The small runs -/

namespace Sample

/-- The admission of the small run, with its receipt at another path. -/
def elsewhere : Admission crates { options with receiptPath := [4] } :=
  approval.toAdmission.movedTo [4]

theorem idMessage_free :
    NoCollision crates {elsewhere.prepared.idMessage, approval.prepared.idMessage} := by
  show NoCollision _ {approval.prepared.idMessage, approval.prepared.idMessage}
  rw [Set.pair_eq_singleton]
  exact NoCollision.of_subsingleton _ Set.subsingleton_singleton

/-- That admission, with its receipt prepared two milliseconds later. -/
def later : Admission crates { options with receiptPath := [4] } := { elsewhere with preparedAt := 4 }

theorem idMessage_later_free :
    NoCollision crates {later.prepared.idMessage, approval.prepared.idMessage} := by
  have hearly : sha256Bytes crates (asBytes (idText 2)) = receiptHash :=
    hash_of_mem (by simp [hashes])
  have hlate : sha256Bytes crates (asBytes (idText 4)) = laterHash :=
    hash_of_mem (by simp [hashes])
  have hmessage : ∀ t, receiptIdMessage (sha256Bytes crates answers.plan.message)
      (sha256Bytes crates (asBytes sql)) t = asBytes (idText t) := by
    intro t
    rw [hash_plan, hash_sql]
    rfl
  apply NoCollision.pair
  show sha256Bytes crates (receiptIdMessage (sha256Bytes crates answers.plan.message)
      (sha256Bytes crates (asBytes sql)) 4) ≠
    sha256Bytes crates (receiptIdMessage (sha256Bytes crates answers.plan.message)
      (sha256Bytes crates (asBytes sql)) 2)
  rw [hmessage, hmessage, hlate, hearly]
  decide

/-- The prepared line of a run that is refused and the terminal line of one that
commits pass for the receipt of a commit. -/
theorem judged_spliced (path : Path) :
    ∃ v, Judged crates path (spliced elsewhere.prepared (approval.committed 3)) (.ok v) ∧
      v.complete ∧ v.finalState = .committed := by
  have hsame : elsewhere.prepared = approval.prepared := rfl
  have hlength : (spliced approval.prepared (approval.committed 3)).length ≤ maxReceiptBytes := by
    have hlines := length_lines 3
    rw [approval.written_committed] at hlines
    have hmax : 20000 ≤ maxReceiptBytes := by decide
    exact hlines.trans hmax
  have hverify := (approval.receipt_committed 3).verify crates
  rw [← spliced, if_neg (Nat.not_lt.mpr hlength), if_neg (by decide)] at hverify
  rw [hsame]
  exact ⟨_, (judged_ok crates).mpr ⟨hlength, hverify⟩, rfl, rfl⟩

end Sample

/-- One run commits.  Another of the same plan and SQL file, with its receipt at
another path, prepares it in the same millisecond and is refused. -/
theorem applyPlan_spliced_accepted :
    ¬ ∀ (X : Crates) (options options' : ApplyOptions) (h h' : History)
      (q q' : Prog Cmd Reply (Except AppError ApplyResult)) (p e p' e' : ReceiptEvent),
      Reaches (applyPlan X options).run h q → Reaches (applyPlan X options').run h' q' →
      Completed options.receiptPath h p e → Completed options'.receiptPath h' p' e' →
      options.receiptPath ≠ options'.receiptPath → NoCollision X {p.idMessage, p'.idMessage} →
      Rejected X (spliced p e') ∧ Rejected X (spliced p' e) ∧ p.receiptId ≠ p'.receiptId := by
  intro hall
  obtain ⟨_, hdenied⟩ := Sample.elsewhere.reaches_denied 3
  have hpaths : ([4] : Path) ≠ [3] := by decide
  obtain ⟨v, hv, -⟩ := Sample.judged_spliced [5]
  exact (hall _ _ _ _ _ _ _ _ _ _ _ hdenied (Sample.approval.reaches_committed 3)
    (Sample.elsewhere.completed_denied 3) (Sample.approval.completed_committed 3) hpaths
    Sample.idMessage_free).1 [5] v hv

/-- The two have read the same three.  Of two that were prepared at different times,
each splice is rejected. -/
theorem applyPlan_spliced_sample :
    ¬ (Rejected Sample.crates (spliced Sample.elsewhere.prepared (Sample.approval.committed 3)) ∧
        Rejected Sample.crates (spliced Sample.approval.prepared (Sample.elsewhere.denied 3)) ∧
        Sample.elsewhere.prepared.receiptId ≠ Sample.approval.prepared.receiptId) ∧
      Rejected Sample.crates (spliced Sample.later.prepared (Sample.approval.committed 3)) ∧
      Rejected Sample.crates (spliced Sample.approval.prepared (Sample.later.denied 5)) ∧
      Sample.later.prepared.receiptId ≠ Sample.approval.prepared.receiptId := by
  constructor
  swap
  · obtain ⟨_, hlater⟩ := Sample.later.reaches_denied 5
    obtain ⟨_, _, _, _, -, -, hiff⟩ := applyPlan_spliced_iff Sample.crates hlater
      (Sample.approval.reaches_committed 3) (Sample.later.completed_denied 5)
      (Sample.approval.completed_committed 3) Sample.idMessage_later_free
    refine hiff.mpr fun hsame => ?_
    have hreadings : (readings (Sample.later.deniedHistory 5))[1]? = some 4 ∧
        (readings (Sample.approval.committedHistory 3))[1]? = some 2 := ⟨rfl, rfl⟩
    rw [hreadings.1, hreadings.2] at hsame
    exact absurd hsame.2.2 (by decide)
  obtain ⟨_, hdenied⟩ := Sample.elsewhere.reaches_denied 3
  obtain ⟨plan, analyzed, plan', analyzed', ha, ha', hiff⟩ := applyPlan_spliced_iff Sample.crates
    hdenied (Sample.approval.reaches_committed 3) (Sample.elsewhere.completed_denied 3)
    (Sample.approval.completed_committed 3) Sample.idMessage_free
  obtain ⟨rfl, rfl⟩ := ha.unique
    (Sample.elsewhere.admitted.mono ((List.prefix_append _ _).trans (List.prefix_append _ _)))
  obtain ⟨rfl, rfl⟩ := ha'.unique (Sample.approval.admitted.mono (List.prefix_append _ _))
  intro hproperty
  exact hiff.mp hproperty ⟨rfl, rfl, rfl⟩

end DmlPact
