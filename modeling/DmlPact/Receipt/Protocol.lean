/-
DmlPact/Receipt/Protocol.lean

What one run does to the file system, command by command.

    create      prepared line, sync      terminal line, sync
    ^ once      ^ only if created        ^ only if that was synced

and nothing is sent to a database in between unless the prepared line was
synced.  `Protocol` says which command may come next given the file commands so
far, `Journaled` lists what those can be, and `applyPlan_follows` shows that
every run keeps to it.
-/
import DmlPact.Receipt.Torn

namespace DmlPact

open Effect Utf8

variable (X : Crates) (path : Path) {h : History}

/-- The commands of a run that changed, or tried to change, a file. -/
def fileEvents (h : History) : History := h.filter fun e => e.cmd.channel = .write

@[simp] theorem fileEvents_append (h t : History) :
    fileEvents (h ++ t) = fileEvents h ++ fileEvents t := List.filter_append _ _

theorem fileEvents_of_channel {t : History} (ht : ∀ e ∈ t, e.cmd.channel ≠ .write) :
    fileEvents t = [] := by
  refine List.filter_eq_nil_iff.mpr fun e he => ?_
  simpa using ht e he

theorem mem_fileEvents {e : Event Cmd Reply} :
    e ∈ fileEvents h ↔ e ∈ h ∧ e.cmd.channel = .write := by
  simp [fileEvents]

/-- The file commands up to a durable prepared event. -/
def durablePrepared (prepared : ReceiptEvent) : History :=
  [⟨.createNew path, true⟩, ⟨.writeAll path (eventLine prepared), .done⟩, ⟨.syncAll path, true⟩]

/-- The commands that may follow the file commands `f`. -/
def Protocol (f : History) : Cmd → Prop
  | .createNew p => p = path ∧ f = []
  | .writeAll p bytes => p = path ∧ ∃ prepared, IsPrepared X prepared ∧
      ((f = [⟨.createNew path, true⟩] ∧ bytes = eventLine prepared) ∨
        (f = durablePrepared path prepared ∧
          ∃ terminal, IsTerminal X prepared terminal ∧ bytes = eventLine terminal))
  | .syncAll p => p = path ∧ ∃ prepared, IsPrepared X prepared ∧
      (f = [⟨.createNew path, true⟩, ⟨.writeAll path (eventLine prepared), .done⟩] ∨
        ∃ terminal, IsTerminal X prepared terminal ∧
          f = durablePrepared path prepared ++ [⟨.writeAll path (eventLine terminal), .done⟩])
  | c => c.channel ∈ [Channel.read, .clock] ∨
      ∃ prepared, IsPrepared X prepared ∧ f = durablePrepared path prepared

/-- A command that touches no file may come before the receipt is prepared only
if it reads a file or the clock. -/
theorem protocol_of_channel {f : History} {c : Cmd} (hc : c.channel ≠ .write) :
    Protocol X path f c ↔ c.channel ∈ [Channel.read, .clock] ∨
      ∃ prepared, IsPrepared X prepared ∧ f = durablePrepared path prepared := by
  cases c
  case createNew => exact absurd rfl hc
  case writeAll => exact absurd rfl hc
  case syncAll => exact absurd rfl hc
  all_goals exact Iff.rfl

/-! ### The file commands of a run -/

/-- What the file commands of a run can be. -/
inductive Journaled : History → Prop
  | untouched : Journaled []
  | created (won : Bool) : Journaled [⟨.createNew path, won⟩]
  | prepared (p : ReceiptEvent) (hp : IsPrepared X p) (r : WriteReply) :
      Journaled [⟨.createNew path, true⟩, ⟨.writeAll path (eventLine p), r⟩]
  | preparedSynced (p : ReceiptEvent) (hp : IsPrepared X p) (synced : Bool) :
      Journaled [⟨.createNew path, true⟩, ⟨.writeAll path (eventLine p), .done⟩,
        ⟨.syncAll path, synced⟩]
  | terminal (p : ReceiptEvent) (hp : IsPrepared X p) (e : ReceiptEvent)
      (he : IsTerminal X p e) (r : WriteReply) :
      Journaled (durablePrepared path p ++ [⟨.writeAll path (eventLine e), r⟩])
  | terminalSynced (p : ReceiptEvent) (hp : IsPrepared X p) (e : ReceiptEvent)
      (he : IsTerminal X p e) (synced : Bool) :
      Journaled (durablePrepared path p ++
        [⟨.writeAll path (eventLine e), .done⟩, ⟨.syncAll path, synced⟩])

variable {X path}

/-- A command that may follow leads to one of the listed histories. -/
theorem Journaled.step {f : History} {c : Cmd} (hc : c.channel = .write)
    (hp : Protocol X path f c) (r : Reply c) : Journaled X path (f ++ [⟨c, r⟩]) := by
  cases c
  case createNew p =>
    obtain ⟨rfl, rfl⟩ := hp
    exact .created r
  case writeAll p bytes =>
    obtain ⟨rfl, prepared, hprepared, ⟨rfl, rfl⟩ | ⟨rfl, terminal, hterminal, rfl⟩⟩ := hp
    · exact .prepared prepared hprepared r
    · exact .terminal prepared hprepared terminal hterminal r
  case syncAll p =>
    obtain ⟨rfl, prepared, hprepared, rfl | ⟨terminal, hterminal, rfl⟩⟩ := hp
    · exact .preparedSynced prepared hprepared r
    · rw [List.append_assoc]
      exact .terminalSynced prepared hprepared terminal hterminal r
  all_goals cases hc

variable (X path) in
/-- What is true of the history of a run at any moment: its file commands are
as listed, and the prepared event was durable before anything was sent. -/
structure Follows (h : History) : Prop where
  journaled : Journaled X path (fileEvents h)
  durable : (∃ e ∈ h, e.cmd.channel ∉ [Channel.read, .clock, .write]) →
    ∃ p, durablePrepared path p <+: fileEvents h

variable (X path) in
theorem Follows.nil : Follows X path [] :=
  ⟨.untouched, fun ⟨_, he, _⟩ => absurd he List.not_mem_nil⟩

/-- Every command the protocol allows keeps the history so. -/
theorem Follows.step {c : Cmd} (hh : Follows X path h)
    (hp : Protocol X path (fileEvents h) c) (r : Reply c) :
    Follows X path (h ++ [⟨c, r⟩]) := by
  by_cases hc : c.channel = .write
  · have hevent : fileEvents [(⟨c, r⟩ : Event Cmd Reply)] = [⟨c, r⟩] := by
      simp [fileEvents, hc]
    refine ⟨by rw [fileEvents_append, hevent]; exact .step hc hp r, ?_⟩
    rintro ⟨e, he, hout⟩
    rw [fileEvents_append, hevent]
    rcases List.mem_append.mp he with he | he
    · obtain ⟨p, hdurable⟩ := hh.durable ⟨e, he, hout⟩
      exact ⟨p, hdurable.trans (List.prefix_append _ _)⟩
    · rw [List.mem_singleton.mp he, hc] at hout
      exact absurd hout (by decide)
  · have hsame : fileEvents (h ++ [⟨c, r⟩]) = fileEvents h := by
      have hevent : fileEvents [(⟨c, r⟩ : Event Cmd Reply)] = [] :=
        fileEvents_of_channel fun e he => by rwa [List.mem_singleton.mp he]
      rw [fileEvents_append, hevent, List.append_nil]
    refine ⟨by rw [hsame]; exact hh.journaled, ?_⟩
    rintro ⟨e, he, hout⟩
    rw [hsame]
    rcases List.mem_append.mp he with he | he
    · exact hh.durable ⟨e, he, hout⟩
    · rw [List.mem_singleton.mp he] at hout
      rcases (protocol_of_channel X path hc).mp hp with hread | ⟨p, -, hdurable⟩
      · exact absurd (List.mem_append_left [Channel.write] hread) hout
      · exact ⟨p, hdurable ▸ List.prefix_rfl⟩

/-! ### Runs keep to the protocol -/

variable (X path)

/-- The protocol, as a condition on commands. -/
abbrev Allowed (h : History) (c : Cmd) : Prop := Protocol X path (fileEvents h) c

/-- A part that touches no file, and reads only files and the clock or comes
after the durable prepared event, keeps to the protocol. -/
theorem allowed_of_uses {α : Type} {cs : List Channel} {p : Prog Cmd Reply α}
    {Q : History → α → Prop} (hp : Uses cs p) (hcs : Channel.write ∉ cs)
    (hready : cs ⊆ [.read, .clock] ∨
      ∃ prepared, IsPrepared X prepared ∧ fileEvents h = durablePrepared path prepared)
    (hQ : ∀ t a, fileEvents (h ++ t) = fileEvents h → Reaches p t (.ret a) → Q (h ++ t) a) :
    wp (Allowed X path) Q p h := by
  have hframe : ∀ t : History, (∀ e ∈ t, e.cmd.channel ∈ cs) →
      fileEvents (h ++ t) = fileEvents h := by
    intro t ht
    have hnil : fileEvents t = [] := fileEvents_of_channel fun e he hw => hcs (hw ▸ ht e he)
    rw [fileEvents_append, hnil, List.append_nil]
  refine wp_of_within hp ?_ fun t a ht hr => hQ t a (hframe t ht) hr
  intro t c ht hc
  have hnot : c.channel ≠ .write := fun hw => hcs (hw ▸ hc)
  rw [Allowed, hframe t ht, protocol_of_channel X path hnot]
  exact hready.imp (fun hsub => hsub hc) id

/-- Writing an event keeps to the protocol if its two commands do. -/
theorem allowed_writeEvent {event : ReceiptEvent} {Q : History → Except AppError Unit → Prop}
    (hwrite : Allowed X path h (.writeAll path (eventLine event)))
    (hsync : Allowed X path (h ++ [⟨.writeAll path (eventLine event), .done⟩]) (.syncAll path))
    (hfailed : ∀ t e, Q (h ++ t) (.error e))
    (hdone : Q (h ++ [⟨.writeAll path (eventLine event), .done⟩, ⟨.syncAll path, true⟩])
      (.ok ())) :
    wp (Allowed X path) Q (writeEvent path event).run h := by
  unfold writeEvent writeDurably
  rw [run_bind, wp_bind, request_bind, wp_call]
  refine ⟨hwrite, fun reply => ?_⟩
  rcases reply with - | n
  · dsimp only
    rw [run_request, Prog.ask_bind, wp_call]
    refine ⟨hsync, fun synced => ?_⟩
    rw [wp_ret, onOk_ok, List.append_assoc]
    cases synced
    · exact hfailed _ _
    · exact hdone
  · exact hfailed _ _

/-- Creating a journal keeps to the protocol, and leaves the prepared event
durable. -/
theorem allowed_create {plan : Plan} {sqlBytes : Bytes} (hh : fileEvents h = []) :
    wp (Allowed X path)
      (fun h r => ∀ journal, r = .ok journal → journal.path = path ∧
        IsPrepared X journal.prepared ∧ fileEvents h = durablePrepared path journal.prepared)
      (ReceiptJournal.create X path plan (sha256Bytes X sqlBytes)).run h := by
  unfold ReceiptJournal.create
  rw [run_bind, run_ofResult, Prog.ret_bind]
  rcases hplan : verifiedPlanSha256 X plan with e | planSha256
  · rw [onOk_error, wp_ret]
    rintro journal ⟨⟩
  rw [onOk_ok, run_bind, wp_bind]
  refine allowed_of_uses X path unixMs_uses (by decide) (.inl (by simp)) fun t r hframe _ => ?_
  rw [hh] at hframe
  rcases r with e | timestamp
  · rw [onOk_error, wp_ret]
    rintro journal ⟨⟩
  rw [onOk_ok, run_bind, run_ofResult, sealEvent_eq, Prog.ret_bind, onOk_ok, request_bind, wp_call]
  refine ⟨⟨rfl, hframe⟩, fun created => ?_⟩
  -- where the file exists already, nothing is written
  cases created
  · rintro journal hj
    cases hj
  dsimp only
  rw [run_bind, wp_bind]
  obtain ⟨-, hhash⟩ := verifiedPlanSha256_ok X hplan
  have hprepared : IsPrepared X
      (sealedWith X (preparedEvent X planSha256 (sha256Bytes X sqlBytes) timestamp)) :=
    ⟨_, sqlBytes, timestamp, by rw [hhash]⟩
  have hcreated : fileEvents (h ++ t ++ [⟨.createNew path, true⟩]) = [⟨.createNew path, true⟩] := by
    rw [fileEvents_append, hframe]
    rfl
  refine allowed_writeEvent X path ⟨rfl, _, hprepared, .inl ⟨hcreated, rfl⟩⟩
    ⟨rfl, _, hprepared, .inl ?_⟩ (fun _ _ => ?_) ?_
  · rw [fileEvents_append, hcreated]
    rfl
  · rw [onOk_error, wp_ret]
    rintro journal ⟨⟩
  · rw [onOk_ok, run_pure, wp_ret]
    rintro journal ⟨⟩
    refine ⟨rfl, hprepared, ?_⟩
    rw [fileEvents_append, hcreated]
    rfl

/-- Finalizing a durable journal keeps to the protocol. -/
theorem allowed_finalize {journal : ReceiptJournal} (hp : IsPrepared X journal.prepared)
    (hpath : journal.path = path) (hh : fileEvents h = durablePrepared path journal.prepared)
    (state : ReceiptState) (result : ReceiptResult) :
    wp (Allowed X path) (fun _ _ => True) (journal.finalize X state result).run h := by
  unfold ReceiptJournal.finalize
  split_ifs with hstate
  · trivial
  refine wp_run_bind (allowed_of_uses X path unixMs_uses (by decide) (.inl (by simp)) ?_)
  rintro t r hframe - timestamp rfl
  rw [hh] at hframe
  rw [run_bind, run_ofResult, sealEvent_eq, Prog.ret_bind, onOk_ok]
  have hfinal : state.isFinal = true := by simpa using hstate
  have hterminal : IsTerminal X journal.prepared
      (sealedWith X (terminalEvent journal.prepared timestamp state result)) :=
    ⟨timestamp, state, result, hfinal, rfl⟩
  refine wp_run_bind ?_
  rw [hpath]
  refine allowed_writeEvent X path ⟨rfl, _, hp, .inr ⟨hframe, _, hterminal, rfl⟩⟩
    ⟨rfl, _, hp, .inr ⟨_, hterminal, ?_⟩⟩ (fun _ _ _ h => nomatch h) fun _ _ => trivial
  rw [fileEvents_append, hframe]
  rfl

theorem allowed_mapErr {α : Type} {x : App α} {error : AppError}
    (hx : wp (Allowed X path) (fun _ _ => True) x.run h) :
    wp (Allowed X path) (fun _ _ => True) (mapErr x error).run h := by
  unfold mapErr
  refine wp_run_bind ?_
  rw [run_attempt, wp_bind]
  refine wp_mono hx (fun _ _ hg => hg) fun _ r _ => ?_
  rw [wp_ret]
  rintro answer ⟨⟩
  cases r <;> trivial

/-- Publishing whatever was decided keeps to the protocol. -/
theorem allowed_finishOutcome {journal : ReceiptJournal} (hp : IsPrepared X journal.prepared)
    (hpath : journal.path = path) (hh : fileEvents h = durablePrepared path journal.prepared)
    (outcome : Outcome) :
    wp (Allowed X path) (fun _ _ => True) (finishOutcome X journal outcome).run h := by
  have hfinish : ∀ state, wp (Allowed X path) (fun _ _ => True)
      (finish X journal state outcome.result).run h := fun state =>
    wp_run_bind (wp_mono (allowed_finalize X path hp hpath hh state outcome.result)
      (fun _ _ hg => hg) fun _ _ _ _ _ => trivial)
  obtain ⟨state, result⟩ := outcome
  cases state
  case committed => exact allowed_mapErr X path (hfinish .committed)
  case uncertain => exact allowed_mapErr X path (hfinish .uncertain)
  all_goals exact hfinish _

/-- **Protocol.**  Every run of apply keeps to the protocol of its receipt
path. -/
theorem applyPlan_allowed (options : ApplyOptions) :
    wp (Allowed X options.receiptPath) (fun _ _ => True) (applyPlan X options).run [] := by
  unfold applyPlan
  refine wp_run_bind (allowed_of_uses X _ (readPlan_uses X _) (by decide) (.inl (by simp)) ?_)
  rintro h₁ r hh₁ - plan rfl
  refine wp_run_bind ?_
  rw [run_ofResult, wp_ret]
  rintro - -
  refine wp_run_bind (allowed_of_uses X _ (readAndAnalyze_uses X _) (by decide)
    (.inl (by simp)) ?_)
  rintro h₂ r hh₂ hread analyzed rfl
  rw [hh₁] at hh₂
  obtain ⟨_, _, _, -, -, -, -, han⟩ := (readAndAnalyze_ok X).mp hread
  obtain ⟨_, _, -, -, -, hanalyzed⟩ := analyzeSql_ok X han
  refine wp_run_bind ?_
  rw [run_ofResult, wp_ret]
  rintro - -
  refine wp_run_bind (allowed_of_uses X _ unixMs_uses (by decide) (.inl (by simp)) ?_)
  rintro h₃ r hh₃ - now rfl
  rw [hh₂] at hh₃
  split_ifs
  · trivial
  -- the hash in the first line is that of the bytes that were read
  have hsql : analyzed.sqlFileSha256 = sha256Bytes X _ :=
    congrArg AnalyzedSql.sqlFileSha256 hanalyzed
  rw [hsql]
  refine wp_run_bind (wp_mono (allowed_create X _ hh₃) (fun _ _ hg => hg) ?_)
  rintro h₄ r hjournal journal rfl
  obtain ⟨hpath, hprepared, hh₄⟩ := hjournal journal rfl
  rw [applyAfterReceipt_eq]
  show wp _ _ (_ >>= _) _
  rw [wp_bind]
  refine allowed_of_uses X _ (transact_uses X _ _ _) (by decide) (.inr ⟨_, hprepared, hh₄⟩) ?_
  intro h₅ decided hh₅ _
  rw [hh₄] at hh₅
  rcases decided with outcome | outcome
  · exact allowed_finishOutcome X _ hprepared hpath hh₅ outcome
  · exact allowed_finishOutcome X _ hprepared hpath hh₅ outcome

/-- At any moment of a run, its history is as the protocol says, and so is the
command it waits on. -/
theorem applyPlan_follows {options : ApplyOptions} {q : Prog Cmd Reply _}
    (hr : Reaches (applyPlan X options).run h q) :
    Follows X options.receiptPath h ∧
      ∀ c k, q = .call c k → Protocol X options.receiptPath (fileEvents h) c := by
  have hwp := applyPlan_allowed X options
  refine ⟨?_, ?_⟩
  · have hfollows := wp_trace hwp (Follows.nil X options.receiptPath)
      (fun _ _ r hf hg => hf.step hg r) hr
    exact hfollows
  · rintro c k rfl
    exact (wp_iff.mp hwp).1 h c k hr

end DmlPact
