/-
DmlPact/Receipt/Crash.lean

One run of apply over a disk that may lose power.  The run creates its receipt,
writes the prepared line and syncs the file before anything is sent, so from
then on the line is durable (`Kept`).  Nothing syncs the directory, though, and
the system may or may not have written the new entry back by itself: after
COMMIT has been sent every restart finds the prepared event exactly when it has
(`applyPlan_receipt_survives_iff`).
-/
import DmlPact.Lib.Durable
import DmlPact.Receipt.Shared

namespace DmlPact

open Effect Utf8 Durable

variable (X : Crates)

/-! ### The disk -/

/-- The files of a disk. -/
abbrev CrashDisk := Path → Option (File UInt8)

/-- How the disk takes a command.  What is written is cached; `syncAll` makes
the bytes of the file durable, and leaves its directory entry as it is. -/
def CrashDisk.Answers (d : CrashDisk) : (c : Cmd) → Reply c → CrashDisk → Prop
  | .createNew path, true, d' => d path = none ∧ d' = Function.update d path (some .empty)
  | .writeAll path bytes, .done, d' =>
      d' = Function.update d path ((d path).map fun f => f.append bytes)
  | .writeAll path bytes, .failed n, d' =>
      d' = Function.update d path ((d path).map fun f => f.append (bytes.take n))
  | .syncAll path, true, d' => d' = Function.update d path ((d path).map File.sync)
  | _, _, d' => d' = d

/-- One run, and a system that writes files and directories back as it likes. -/
def crashDisk : Semantics Cmd Reply Unit CrashDisk where
  answers _ := CrashDisk.Answers
  progresses _ _ _ _ := False
  drifts d d' := ∀ path, (∀ f, d path = some f → ∃ f', d' path = some f' ∧ f.WriteBack f') ∧
    (d path = none → d' path = none)

/-- The disk and the run. -/
abbrev Crashing := Configuration Cmd Reply CrashDisk fun _ : Unit => Except AppError ApplyResult

/-- The bytes a run is in the middle of writing to the file. -/
def underWay (path : Path) : Prog Cmd Reply (Except AppError ApplyResult) → Bytes
  | .call (.writeAll p bytes) _ => if p = path then bytes else []
  | _ => []

/-- What a restart after a power failure may find at the path. -/
def AfterCrash (s : Crashing) (path : Path) (after : Option Bytes) : Prop :=
  match s.world path with
  | none => after = none
  | some f => f.Survives (underWay path (s.procs ()).rest) after

/-! ### What a run leaves on the disk -/

/-- A file before and after an answer. -/
structure Takes (path : Path) (e : Event Cmd Reply) (f f' : File UInt8) : Prop where
  bytes : f'.bytes = f.bytes ++ writtenBy path e
  durable : f.durable <+: f'.durable
  synced : e = ⟨.syncAll path, true⟩ → f'.durable = f'.bytes

/-- A file that is not the one written to. -/
theorem Takes.same {path : Path} {e : Event Cmd Reply} {f : File UInt8}
    (hwritten : writtenBy path e = []) (hsync : e ≠ ⟨.syncAll path, true⟩) :
    Takes path e f f where
  bytes := by rw [hwritten, List.append_nil]
  durable := List.prefix_rfl
  synced he := absurd he hsync

/-- **Answers.**  A file that is there stays, with what was written to it; a new
one is empty. -/
theorem CrashDisk.Answers.at {d d' : CrashDisk} {c : Cmd} {r : Reply c}
    (h : d.Answers c r d') (path : Path) :
    (∀ f, d path = some f → ∃ f', d' path = some f' ∧ Takes path ⟨c, r⟩ f f') ∧
      ((⟨c, r⟩ : Event Cmd Reply) = ⟨.createNew path, true⟩ → d' path = some .empty) := by
  cases c
  -- a file is created only where none was, so no file is lost
  case createNew p =>
    cases r
    · obtain rfl : d' = d := h
      exact ⟨fun f hf => ⟨f, hf, .same rfl (by simp)⟩, by simp⟩
    · obtain ⟨hnone, rfl⟩ := h
      refine ⟨fun f hf => ?_, fun he => ?_⟩
      · have hother : path ≠ p := by
          rintro rfl
          rw [hnone] at hf
          cases hf
        exact ⟨f, (Function.update_of_ne hother ..).trans hf, .same rfl (by simp)⟩
      · obtain rfl : p = path := by simpa using he
        exact Function.update_self ..
  -- a write, finished or not, appends; what was durable stays so
  case writeAll p bytes =>
    refine ⟨fun f hf => ?_, by simp⟩
    by_cases hp : path = p
    · subst hp
      rcases r with - | n
      · obtain rfl : d' = _ := h
        refine ⟨f.append bytes, by rw [Function.update_self, hf]; rfl, ?_, List.prefix_rfl, by simp⟩
        rw [File.bytes_append, writtenBy, if_pos rfl]
      · obtain rfl : d' = _ := h
        refine ⟨f.append (bytes.take n), by rw [Function.update_self, hf]; rfl, ?_,
          List.prefix_rfl, by simp⟩
        rw [File.bytes_append, writtenBy, if_pos rfl]
    · rcases r with - | n
      · obtain rfl : d' = _ := h
        exact ⟨f, (Function.update_of_ne hp ..).trans hf, .same (if_neg (Ne.symm hp)) (by simp)⟩
      · obtain rfl : d' = _ := h
        exact ⟨f, (Function.update_of_ne hp ..).trans hf, .same (if_neg (Ne.symm hp)) (by simp)⟩
  case syncAll p =>
    refine ⟨fun f hf => ?_, by simp⟩
    cases r
    · obtain rfl : d' = d := h
      exact ⟨f, hf, .same rfl (by simp)⟩
    · obtain rfl : d' = _ := h
      by_cases hp : path = p
      · subst hp
        refine ⟨f.sync, by rw [Function.update_self, hf]; rfl, ?_, f.durable_prefix, fun _ => ?_⟩
        · rw [File.bytes_sync]
          exact (List.append_nil _).symm
        · rw [File.durable_sync, File.bytes_sync]
      · refine ⟨f, (Function.update_of_ne hp ..).trans hf, .same rfl fun he => hp ?_⟩
        simpa using he.symm
  all_goals
    obtain rfl : d' = d := h
    exact ⟨fun f hf => ⟨f, hf, .same rfl (by simp)⟩, by simp⟩

/-- What the disk has kept of a run: the file it created, with all it has
written, and durably the prepared line once that was synced. -/
structure Kept (path : Path) (h : History) (d : CrashDisk) : Prop where
  created : ⟨.createNew path, true⟩ ∈ h → ∃ f, d path = some f ∧ f.bytes = written path h
  synced : ∀ p, durablePrepared path p <+: fileEvents h →
    ∃ f, d path = some f ∧ eventLine p <+: f.durable

/-- The disk has kept what the run of this configuration did. -/
def KeptBy (path : Path) (s : Crashing) : Prop := Kept path (s.procs ()).history s.world

theorem Kept.start (path : Path) (d : CrashDisk) : Kept path [] d where
  created h := absurd h List.not_mem_nil
  synced _ h := absurd (List.prefix_nil.mp h) (List.cons_ne_nil _ _)

/-- What the system writes back is kept. -/
theorem Kept.drift {path : Path} {h : History} {d d' : CrashDisk} (inv : Kept path h d)
    (hdrift : crashDisk.drifts d d') : Kept path h d' := by
  have hback := (hdrift path).1
  refine ⟨fun hcreated => ?_, fun p hle => ?_⟩
  · obtain ⟨f, hf, hbytes⟩ := inv.created hcreated
    obtain ⟨f', hf', hwrite⟩ := hback f hf
    exact ⟨f', hf', hwrite.bytes.trans hbytes⟩
  · obtain ⟨f, hf, hdurable⟩ := inv.synced p hle
    obtain ⟨f', hf', hwrite⟩ := hback f hf
    exact ⟨f', hf', hdurable.trans hwrite.durable⟩

/-- **Step.**  What the protocol lets a run do next is kept too. -/
theorem Kept.step {path : Path} {h : History} {d d' : CrashDisk} {c : Cmd} {r : Reply c}
    (inv : Kept path h d) (hnext : Protocol X path (fileEvents h) c) (hanswer : d.Answers c r d') :
    Kept path (h ++ [⟨c, r⟩]) d' := by
  obtain ⟨hkeep, hnew⟩ := hanswer.at path
  have hwritten : written path (h ++ [⟨c, r⟩]) = written path h ++ writtenBy path ⟨c, r⟩ := by
    rw [written, List.flatMap_append, List.flatMap_cons, List.flatMap_nil, List.append_nil]
    rfl
  have hcreated : ⟨.createNew path, true⟩ ∈ h ++ [⟨c, r⟩] → ∃ f, d' path = some f ∧
      f.bytes = written path (h ++ [⟨c, r⟩]) := by
    intro hmem
    rcases List.mem_append.mp hmem with hmem | hlast
    · obtain ⟨f, hf, hbytes⟩ := inv.created hmem
      obtain ⟨f', hf', htakes⟩ := hkeep f hf
      exact ⟨f', hf', by rw [htakes.bytes, hbytes, hwritten]⟩
    · -- nothing was written before the file was there
      have he := (List.mem_singleton.mp hlast).symm
      obtain ⟨rfl, -⟩ := Event.mk.inj he
      obtain ⟨-, hnone⟩ := hnext
      refine ⟨.empty, hnew he, ?_⟩
      rw [hwritten, ← written_fileEvents, hnone]
      rfl
  refine ⟨hcreated, fun p hle => ?_⟩
  rw [fileEvents_append] at hle
  by_cases hbefore : durablePrepared path p <+: fileEvents h
  · obtain ⟨f, hf, hdurable⟩ := inv.synced p hbefore
    obtain ⟨f', hf', htakes⟩ := hkeep f hf
    exact ⟨f', hf', hdurable.trans htakes.durable⟩
  · -- the sync has just been answered, and it is the run's third file command
    by_cases hc : c.channel = .write
    · have hevent : fileEvents [(⟨c, r⟩ : Event Cmd Reply)] = [⟨c, r⟩] :=
        List.filter_cons_of_pos (by simpa using hc)
      rw [hevent] at hle
      have hwhole := (List.prefix_concat_iff.mp hle).resolve_right hbefore
      have hsplit : durablePrepared path p = [⟨.createNew path, true⟩,
          ⟨.writeAll path (eventLine p), .done⟩] ++ [⟨.syncAll path, true⟩] := rfl
      obtain ⟨htwo, hsync⟩ := List.append_inj' (hsplit.symm.trans hwhole) rfl
      have hmem : ⟨.createNew path, true⟩ ∈ h := by
        refine (mem_fileEvents.mp ?_).1
        rw [← htwo]
        exact List.mem_cons_self
      obtain ⟨f, hf, hbytes⟩ := inv.created hmem
      obtain ⟨f', hf', htakes⟩ := hkeep f hf
      refine ⟨f', hf', ?_⟩
      have hline : f'.bytes = eventLine p := by
        rw [htakes.bytes, hbytes, ← hwritten, ← written_fileEvents, fileEvents_append, hevent,
          ← hwhole]
        simp [durablePrepared, written, writtenBy]
      rw [htakes.synced (List.singleton_inj.mp hsync).symm, hline]
    · have hnone : fileEvents [(⟨c, r⟩ : Event Cmd Reply)] = [] :=
        List.filter_cons_of_neg (by simpa using hc)
      rw [hnone, List.append_nil] at hle
      exact absurd hle hbefore

/-! ### Power failures -/

section Crash

variable {X} {options : ApplyOptions} {d : CrashDisk} {s : Crashing}

/-- The invariant holds of every reachable configuration. -/
theorem kept_of_reachable
    (hs : Reachable crashDisk (fun _ => (applyPlan X options).run) d s) :
    Kept options.receiptPath (s.procs ()).history s.world := by
  have hinv : KeptBy options.receiptPath s := hs.invariant (Kept.start _ _) fun s s' who hrun
      inv hstep => by
    rw [KeptBy] at inv ⊢
    cases hstep with
    | answer waiting world moved others =>
        have hnext := (applyPlan_follows X (hrun.reaches ())).2 _ _ waiting
        rw [moved]
        exact inv.step X hnext world
    | progress waiting world procs => exact world.elim
    | drift world procs =>
        rw [procs]
        exact inv.drift world
  exact hinv

/-- What is durable first is the prepared event of the run. -/
theorem Journaled.prepared_of_durable {path : Path} {f : History} {p : ReceiptEvent}
    (hj : Journaled X path f) (hp : durablePrepared path p <+: f) :
    ∃ p', IsPrepared X p' ∧ durablePrepared path p' <+: f := by
  have hlen := hp.length_le
  cases hj with
  | untouched => cases hlen
  | created => exact absurd hlen (by simp [durablePrepared])
  | prepared => exact absurd hlen (by simp [durablePrepared])
  | preparedSynced p' hp' synced =>
      have hsame := hp.eq_of_length (by simp only [durablePrepared, List.length_cons])
      obtain rfl : true = synced := by
        simp only [durablePrepared, List.cons.injEq] at hsame
        simpa using hsame.2.2.1
      exact ⟨p', hp', List.prefix_rfl⟩
  | terminal p' hp' => exact ⟨p', hp', List.prefix_append _ _⟩
  | terminalSynced p' hp' => exact ⟨p', hp', List.prefix_append _ _⟩

/-- Once COMMIT has been sent, the prepared event has been written and synced. -/
theorem durable_of_commit (hs : Reachable crashDisk (fun _ => (applyPlan X options).run) d s)
    (hc : (s.procs ()).Issued .commit) :
    ∃ p, IsPrepared X p ∧
      durablePrepared options.receiptPath p <+: fileEvents (s.procs ()).history := by
  obtain ⟨hfollows, hnext⟩ := applyPlan_follows X (hs.reaches ())
  rcases hc with ⟨r, he⟩ | ⟨k, hwaiting⟩
  · have hout : Cmd.commit.channel ∉ [Channel.read, .clock, .write] := by decide
    obtain ⟨p, hp⟩ := hfollows.durable ⟨_, he, hout⟩
    exact hfollows.journaled.prepared_of_durable hp
  · rcases hnext .commit k hwaiting with hread | ⟨p, hp, hf⟩
    · exact absurd hread (by decide)
    · exact ⟨p, hp, hf ▸ List.prefix_rfl⟩

end Crash

/-- **Surviving receipts.**  At any point after COMMIT was sent, every restart
after a power failure finds the receipt, with the complete prepared event,
exactly when the system has written its directory entry back. -/
theorem applyPlan_receipt_survives_iff {options : ApplyOptions} {d : CrashDisk} {s : Crashing}
    (hs : Reachable crashDisk (fun _ => (applyPlan X options).run) d s)
    (hc : (s.procs ()).Issued .commit) :
    ∃ p f, IsPrepared X p ∧
      ⟨.writeAll options.receiptPath (eventLine p), .done⟩ ∈ (s.procs ()).history ∧
      s.world options.receiptPath = some f ∧
      ((∀ after, AfterCrash s options.receiptPath after →
          ∃ bytes, after = some bytes ∧ eventLine p <+: bytes) ↔ f.linked = true) := by
  obtain ⟨p, hprepared, hdurable⟩ := durable_of_commit hs hc
  obtain ⟨f, hf, hline⟩ := (kept_of_reachable hs).synced p hdurable
  have hwritten : ⟨.writeAll options.receiptPath (eventLine p), .done⟩ ∈
      durablePrepared options.receiptPath p := by simp [durablePrepared]
  refine ⟨p, f, hprepared, (mem_fileEvents.mp (hdurable.subset hwritten)).1, hf, ?_⟩
  simp only [AfterCrash, hf]
  exact File.survives_iff _ hline

/-! ### An entry that is not written back -/

/-- Commands that touch no file leave the disk as it is. -/
theorem answers_of_channel {d : CrashDisk} {e : Event Cmd Reply} (he : e.cmd.channel ≠ .write) :
    d.Answers e.cmd e.reply d := by
  obtain ⟨c, r⟩ := e
  cases c
  case createNew => exact absurd rfl he
  case writeAll => exact absurd rfl he
  case syncAll => exact absurd rfl he
  all_goals exact rfl

namespace Approval

variable {X} {options : ApplyOptions} (a : Approval X options)

/-- The receipt of an approved run, with its prepared line synced. -/
def syncedReceipt : File UInt8 := (File.empty.append (eventLine a.prepared)).sync

/-- With no system to help, the run comes to COMMIT with the entry of its
receipt in the cache. -/
theorem reachable_commit : ∃ s : Crashing,
    Reachable crashDisk (fun _ => (applyPlan X options).run) (fun _ => none) s ∧
      (s.procs ()).Issued .commit ∧ s.world options.receiptPath = some a.syncedReceipt := by
  let path := options.receiptPath
  let disk : File UInt8 → CrashDisk := fun f => Function.update (fun _ => none) path (some f)
  obtain ⟨k, hr⟩ := ((applyPlan_guarded X options _).2).mpr ⟨a, rfl⟩
  -- before the receipt, nothing is written
  have hfirst : crashDisk.Serves () (fun _ => none) a.admissionHistory (fun _ => none) :=
    .of_quiet fun e he => answers_of_channel fun hw => by
      simp only [Admission.admissionHistory, List.mem_cons, List.not_mem_nil, or_false] at he
      rcases he with rfl | rfl | rfl | rfl | rfl <;> cases hw
  have hmap : ∀ (f : File UInt8) (g : File UInt8 → File UInt8),
      Function.update (disk f) path ((disk f path).map g) = disk (g f) := by
    intro f g
    have hat : disk f path = some f := Function.update_self ..
    rw [hat]
    exact Function.update_idem ..
  have hcreated : crashDisk.Serves () (fun _ => none)
      [⟨.now, some a.preparedAt.toNat⟩, ⟨.createNew path, true⟩] (disk .empty) :=
    .cons rfl (.cons ⟨rfl, rfl⟩ (.nil _))
  have hwritten : crashDisk.Serves () (disk .empty)
      [⟨.writeAll path (eventLine a.prepared), .done⟩]
      (disk (File.empty.append (eventLine a.prepared))) :=
    .cons (hmap .empty fun f => f.append (eventLine a.prepared)).symm (.nil _)
  have hsynced : crashDisk.Serves () (disk (File.empty.append (eventLine a.prepared)))
      [⟨.syncAll path, true⟩] (disk a.syncedReceipt) :=
    .cons (hmap _ File.sync).symm (.nil _)
  have hreceipt : crashDisk.Serves () (fun _ => none) a.receiptHistory (disk a.syncedReceipt) :=
    hcreated.append (hwritten.append hsynced)
  -- from the receipt to the statement, nothing is written either
  have hrest : crashDisk.Serves () (disk a.syncedReceipt)
      (a.connectionHistory ++ sessionHistory a.plan ++ a.driftHistory) (disk a.syncedReceipt) :=
    .of_quiet fun e he => answers_of_channel fun hw => by
      have hchannel := a.channel_of_deciding he
      rw [hw] at hchannel
      exact absurd hchannel (by decide)
  have hexecute : crashDisk.Serves () (disk a.syncedReceipt)
      [⟨.execute a.analyzed.normalized, .ok a.plan.preconditions.targetCount⟩]
      (disk a.syncedReceipt) := .cons rfl (.nil _)
  have hserves := ((hfirst.append (hreceipt.append hrest))).append hexecute
  have hstart : Reachable crashDisk (fun _ : Unit => (applyPlan X options).run) (fun _ => none)
      (Effect.start _ _) := .refl
  refine ⟨_, hstart.follow rfl hr hserves, .inr ⟨k, ?_⟩, ?_⟩
  · dsimp only
    rw [Function.update_self]
  · show disk a.syncedReceipt path = some a.syncedReceipt
    exact Function.update_self ..

end Approval

/-- A power failure while the entry is only cached leaves a committed run
without a receipt. -/
theorem applyPlan_receipt_lost :
    ¬ ∀ (X : Crates) (options : ApplyOptions) (d : CrashDisk) (s : Crashing),
      Reachable crashDisk (fun _ => (applyPlan X options).run) d s →
      (s.procs ()).Issued .commit → ∀ after, AfterCrash s options.receiptPath after →
        ∃ p bytes, IsPrepared X p ∧ after = some bytes ∧ eventLine p <+: bytes := by
  intro hall
  obtain ⟨s, hs, hc, hf⟩ := Sample.approval.reachable_commit
  have hlost : AfterCrash s Sample.options.receiptPath none := by
    rw [AfterCrash, hf]
    exact rfl
  obtain ⟨p, bytes, -, hnone, -⟩ := hall _ _ _ s hs hc none hlost
  cases hnone

/-- The system may write the directory entry of a file back. -/
theorem reachable_linked {X : Crates} {options : ApplyOptions} {d : CrashDisk} {s : Crashing}
    (hs : Reachable crashDisk (fun _ => (applyPlan X options).run) d s) {path : Path}
    {f : File UInt8} (hf : s.world path = some f) :
    ∃ s' : Crashing, Reachable crashDisk (fun _ => (applyPlan X options).run) d s' ∧
      s'.procs = s.procs ∧ s'.world path = some { f with linked := true } := by
  refine ⟨⟨Function.update s.world path (some { f with linked := true }), s.procs⟩,
    hs.tail ⟨none, .drift (fun p => ?_) rfl⟩, rfl, Function.update_self ..⟩
  rcases eq_or_ne p path with rfl | hp
  · dsimp only
    rw [Function.update_self, hf]
    refine ⟨fun f' hf' => ?_, fun hnone => nomatch hnone⟩
    cases hf'
    exact ⟨_, rfl, ⟨rfl, List.prefix_rfl, fun _ => rfl⟩⟩
  · dsimp only
    rw [Function.update_of_ne hp]
    exact ⟨fun f' hf' => ⟨f', hf', ⟨rfl, List.prefix_rfl, id⟩⟩, id⟩

/-- The receipt can be lost while the entry is cached, and not once the system has
written it back. -/
theorem applyPlan_receipt_survives_sample : ∃ s s' : Crashing,
    ((s.procs ()).Issued .commit ∧ AfterCrash s Sample.options.receiptPath none) ∧
    (s'.procs ()).Issued .commit ∧ ∃ p, IsPrepared Sample.crates p ∧
      ∀ after, AfterCrash s' Sample.options.receiptPath after →
        ∃ bytes, after = some bytes ∧ eventLine p <+: bytes := by
  obtain ⟨s, hs, hc, hf⟩ := Sample.approval.reachable_commit
  obtain ⟨s', hs', hprocs, hworld⟩ := reachable_linked hs hf
  have hc' : (s'.procs ()).Issued .commit := hprocs ▸ hc
  obtain ⟨p, f, hp, -, hf', hiff⟩ := applyPlan_receipt_survives_iff Sample.crates hs' hc'
  have hlinked : f.linked = true := by
    rw [hworld] at hf'
    cases hf'
    rfl
  have hlost : AfterCrash s Sample.options.receiptPath none := by
    rw [AfterCrash, hf]
    exact rfl
  exact ⟨s, s', ⟨hc, hlost⟩, hc', p, hp, hiff.mpr hlinked⟩

end DmlPact
