/-
DmlPact/Receipt/Shared.lean

Any number of apply runs over one file system.  Creating a file is atomic, a
write puts its bytes into the file one at a time and may end anywhere, and a
run that is stopped takes no further step.  The invariant is that a receipt
holds exactly what the one run that created it has written, and the bytes of
its current write that have got out (`Receipts`).  What that run writes is
fixed by its protocol, so every file is a cut of one receipt, and the verifier
says of it what it says of a cut (`applyPlan_receipts_torn`).
-/
import DmlPact.Lib.Worlds
import DmlPact.Receipt.Protocol

namespace DmlPact

open Effect Utf8

variable (X : Crates) {ι : Type}

/-! ### The file system -/

/-- The files, and of the write each process is in the middle of, the bytes
that have got out. -/
structure Disk (ι : Type) where
  bytes : Path → Option Bytes
  inFlight : ι → Bytes

/-- The write of process `i` is over. -/
def Disk.Released (i : ι) (d d' : Disk ι) : Prop :=
  d'.bytes = d.bytes ∧ d'.inFlight i = [] ∧ ∀ j, j ≠ i → d'.inFlight j = d.inFlight j

/-- How the file system answers process `i`.  A new file is created only where
there is none; a write succeeds once all its bytes have got out, and fails with
those that have. -/
def Disk.Answers (i : ι) (d : Disk ι) : (c : Cmd) → Reply c → Disk ι → Prop
  | .createNew path, true, d' => d.bytes path = none ∧
      d' = { d with bytes := Function.update d.bytes path (some []) }
  | .createNew _, false, d' => d' = d
  | .writeAll _ bytes, .done, d' => d.inFlight i = bytes ∧ d.Released i d'
  | .writeAll _ bytes, .failed n, d' => d.inFlight i = bytes.take n ∧ d.Released i d'
  | _, _, d' => d' = d

/-- One more byte of a write gets out. -/
def Disk.Progresses (i : ι) (d : Disk ι) : Cmd → Disk ι → Prop
  | .writeAll path bytes, d' => ∃ b, d.inFlight i ++ [b] <+: bytes ∧
      d'.bytes = Function.update d.bytes path ((d.bytes path).map (· ++ [b])) ∧
      d'.inFlight i = d.inFlight i ++ [b] ∧ ∀ j, j ≠ i → d'.inFlight j = d.inFlight j
  | _, _ => False

/-- A file system that only the processes change. -/
def sharedDisk : Semantics Cmd Reply ι (Disk ι) where
  answers := Disk.Answers
  progresses := Disk.Progresses
  drifts _ _ := False

/-- Commands that touch no file leave the disk as it is. -/
theorem Disk.answers_of_channel {d : Disk ι} {i : ι} {e : Event Cmd Reply}
    (he : e.cmd.channel ≠ .write) : sharedDisk.answers i d e.cmd e.reply d := by
  obtain ⟨c, r⟩ := e
  cases c
  case createNew => exact absurd rfl he
  case writeAll => exact absurd rfl he
  all_goals rfl

def Run.Created (path : Path) (run : Run) : Prop := ⟨.createNew path, true⟩ ∈ run.history

def Run.Lost (path : Path) (run : Run) : Prop := ⟨.createNew path, false⟩ ∈ run.history

/-- The runs of apply with these options. -/
abbrev applies (options : ι → ApplyOptions) :
    (i : ι) → Prog Cmd Reply (Except AppError ApplyResult) := fun i => (applyPlan X (options i)).run

/-- The file system and the runs. -/
abbrev Applies (ι : Type) := Configuration Cmd Reply (Disk ι) fun _ : ι => Except AppError ApplyResult

/-! ### One run -/

theorem written_fileEvents (path : Path) (h : History) :
    written path (fileEvents h) = written path h := by
  induction h with
  | nil => rfl
  | cons e h ih =>
      by_cases he : e.cmd.channel = .write
      · have hkeep : fileEvents (e :: h) = e :: fileEvents h :=
          List.filter_cons_of_pos (by simpa using he)
        rw [hkeep, written, written, List.flatMap_cons, List.flatMap_cons]
        exact congrArg (writtenBy path e ++ ·) ih
      · have hskip : fileEvents (e :: h) = fileEvents h :=
          List.filter_cons_of_neg (by simpa using he)
        have hnil : writtenBy path e = [] := by
          have hall : written path [e] = [] := written_of_channel (by simpa using he)
          simpa [written] using hall
        rw [hskip, ih, written, written, List.flatMap_cons, hnil, List.nil_append]

/-- The two lines that a run writes to its receipt: `prepared`, and `terminal`
if it has come to that. -/
structure Run.Writes (path : Path) (run : Run) (prepared : ReceiptEvent)
    (terminal : Option ReceiptEvent) : Prop where
  prepared_event : IsPrepared X prepared
  terminal_event : ∀ e ∈ terminal, IsTerminal X prepared e
  only : ∀ p bytes, run.Issued (.writeAll p bytes) →
    p = path ∧ (bytes = eventLine prepared ∨ ∃ e ∈ terminal, bytes = eventLine e)
  begun : ∀ e ∈ terminal, run.Issued (.writeAll path (eventLine e))

variable {X} in
/-- A run that has come no further than its prepared event. -/
theorem Run.Writes.of_prepared {path : Path} {run : Run} {p : ReceiptEvent}
    (hp : IsPrepared X p) (honly : ∀ p' bytes, run.Issued (.writeAll p' bytes) →
      p' = path ∧ bytes = eventLine p) : Run.Writes X path run p none where
  prepared_event := hp
  terminal_event _ he := absurd he (Option.not_mem_none _)
  only p' bytes hi := (honly p' bytes hi).imp id .inl
  begun _ he := absurd he (Option.not_mem_none _)

variable {X} in
/-- A run that has begun to write its terminal event. -/
theorem Run.Writes.of_terminal {path : Path} {run : Run} {p e : ReceiptEvent}
    (hp : IsPrepared X p) (he : IsTerminal X p e)
    (honly : ∀ p' bytes, run.Issued (.writeAll p' bytes) →
      p' = path ∧ (bytes = eventLine p ∨ bytes = eventLine e))
    (hbegun : run.Issued (.writeAll path (eventLine e))) :
    Run.Writes X path run p (some e) where
  prepared_event := hp
  terminal_event e' he' := by rwa [← Option.some.inj he']
  only p' bytes hi := (honly p' bytes hi).imp id fun h => h.imp id fun h => ⟨e, rfl, h⟩
  begun e' he' := by rwa [← Option.some.inj he']

section OneRun

variable {X} {options : ApplyOptions} {h : History} {q : Prog Cmd Reply _}
  (hr : Reaches (applyPlan X options).run h q)

include hr

/-- A run creates its receipt path, and no other. -/
theorem created_path {path : Path} {won : Bool} (hc : ⟨.createNew path, won⟩ ∈ h) :
    path = options.receiptPath := by
  have hmem : ⟨.createNew path, won⟩ ∈ fileEvents h := mem_fileEvents.mpr ⟨hc, rfl⟩
  have hj := (applyPlan_follows X hr).1.journaled
  generalize fileEvents h = f at hj hmem
  cases hj <;> simp [durablePrepared] at hmem <;> exact hmem.1

/-- A run that lost the creation has done nothing else to a file. -/
theorem fileEvents_of_lost {path : Path} (hc : ⟨.createNew path, false⟩ ∈ h) :
    fileEvents h = [⟨.createNew path, false⟩] := by
  have hmem : ⟨.createNew path, false⟩ ∈ fileEvents h := mem_fileEvents.mpr ⟨hc, rfl⟩
  have hj := (applyPlan_follows X hr).1.journaled
  generalize fileEvents h = f at hj hmem
  cases hj <;> simp [durablePrepared] at hmem ⊢
  exact ⟨hmem.1.symm, hmem.2⟩

/-- A run writes only to a file it created. -/
theorem created_of_pending {p : Path} {bytes : Bytes} {k : WriteReply → Prog Cmd Reply _}
    (hq : q = .call (.writeAll p bytes) k) : ⟨.createNew p, true⟩ ∈ h := by
  have hnext : Protocol X options.receiptPath (fileEvents h) (.writeAll p bytes) :=
    (applyPlan_follows X hr).2 (.writeAll p bytes) k hq
  obtain ⟨rfl, prepared, -, ⟨hf, -⟩ | ⟨hf, -⟩⟩ := hnext
  · have hmem : (⟨.createNew options.receiptPath, true⟩ : Event Cmd Reply) ∈ fileEvents h := by
      rw [hf]
      exact List.mem_singleton_self _
    exact (mem_fileEvents.mp hmem).1
  · have hmem : (⟨.createNew options.receiptPath, true⟩ : Event Cmd Reply) ∈ fileEvents h := by
      rw [hf]
      exact List.mem_cons_self
    exact (mem_fileEvents.mp hmem).1

/-- A run that is about to create its receipt has touched no file. -/
theorem fileEvents_of_creating {p : Path} {k : Bool → Prog Cmd Reply _}
    (hq : q = .call (.createNew p) k) : fileEvents h = [] := by
  have hnext : Protocol X options.receiptPath (fileEvents h) (.createNew p) :=
    (applyPlan_follows X hr).2 (.createNew p) k hq
  exact hnext.2

/-- A run that lost the creation sends nothing to a database. -/
theorem channel_of_lost {path : Path} (hc : ⟨.createNew path, false⟩ ∈ h) {c : Cmd}
    (hissued : Process.Issued (⟨h, q⟩ : Run) c) : c.channel ∈ [Channel.read, .clock, .write] := by
  have hf := fileEvents_of_lost hr hc
  obtain ⟨hfollows, hnext⟩ := applyPlan_follows X hr
  have hnot : ∀ p, ¬ durablePrepared options.receiptPath p <+: fileEvents h := by
    intro p hp
    have hlen := hp.length_le
    rw [hf] at hlen
    simp [durablePrepared] at hlen
  rcases hissued with ⟨r, he⟩ | ⟨k, hq⟩
  · by_contra hout
    obtain ⟨p, hp⟩ := hfollows.durable ⟨_, he, hout⟩
    exact hnot p hp
  · by_cases hw : c.channel = .write
    · rw [hw]
      decide
    · rcases (protocol_of_channel X _ hw).mp (hnext c k hq) with hread | ⟨p, -, hp⟩
      · exact List.mem_append_left [Channel.write] hread
      · exact absurd (hp ▸ List.prefix_rfl) (hnot p)

omit hr in
/-- Every write of a run is among its file commands, or the one it waits on. -/
theorem issued_write {p : Path} {bytes : Bytes}
    (hissued : Process.Issued (⟨h, q⟩ : Run) (.writeAll p bytes)) :
    (∃ r, ⟨.writeAll p bytes, r⟩ ∈ fileEvents h) ∨
      ∃ k : WriteReply → Prog Cmd Reply _, q = .call (.writeAll p bytes) k := by
  rcases hissued with ⟨r, he⟩ | hq
  · exact .inl ⟨r, mem_fileEvents.mpr ⟨he, rfl⟩⟩
  · exact .inr hq

/-- **One receipt.**  What a run has written to the file it created, with what
has got out of the write it waits on, is a cut of one receipt. -/
theorem written_prefix {path : Path} (hc : ⟨.createNew path, true⟩ ∈ h) {flight : Bytes}
    (hflight : flight = [] ∨ ∃ p bytes, ∃ k : WriteReply → Prog Cmd Reply _,
      q = .call (.writeAll p bytes) k ∧ flight <+: bytes) :
    ∃ prepared terminal, Run.Writes X path ⟨h, q⟩ prepared terminal ∧
      written path h ++ flight <+: eventLine prepared ++ terminal.elim [] eventLine := by
  obtain rfl := created_path hr hc
  have hissued : ∀ p bytes, Process.Issued (⟨h, q⟩ : Run) (.writeAll p bytes) → _ :=
    fun p bytes hi => issued_write hi
  rw [← written_fileEvents]
  by_cases hpending : ∃ p bytes, ∃ k : WriteReply → Prog Cmd Reply _,
    q = .call (.writeAll p bytes) k
  · -- in the middle of a write, whose line the protocol names
    obtain ⟨p, bytes, k, hq⟩ := hpending
    have hwrite : ∀ p' bytes', (∃ k' : WriteReply → Prog Cmd Reply _,
        q = .call (.writeAll p' bytes') k') → p' = p ∧ bytes' = bytes := by
      rintro p' bytes' ⟨k', hq'⟩
      rw [hq, Prog.call.injEq, Cmd.writeAll.injEq] at hq'
      exact ⟨hq'.1.1.symm, hq'.1.2.symm⟩
    have hcut : flight <+: bytes := by
      rcases hflight with rfl | ⟨p', bytes', k', hq', hcut⟩
      · exact List.nil_prefix
      · rwa [(hwrite p' bytes' ⟨k', hq'⟩).2] at hcut
    have hnext : Protocol X options.receiptPath (fileEvents h) (.writeAll p bytes) :=
      (applyPlan_follows X hr).2 (.writeAll p bytes) k hq
    -- the first line goes into a new file, the second after a synced first
    obtain ⟨rfl, prepared, hp, ⟨hf, rfl⟩ | ⟨hf, terminal, ht, rfl⟩⟩ := hnext
    · rw [hf] at hissued ⊢
      refine ⟨prepared, none, .of_prepared hp fun p' bytes' hi => ?_, ?_⟩
      · rcases hissued p' bytes' hi with ⟨r, he⟩ | hsame
        · simp at he
        · exact hwrite p' bytes' hsame
      · simpa [written, writtenBy] using hcut
    · rw [hf] at hissued ⊢
      refine ⟨prepared, some terminal,
        .of_terminal hp ht (fun p' bytes' hi => ?_) (.inr ⟨k, hq⟩), ?_⟩
      · rcases hissued p' bytes' hi with ⟨r, he⟩ | hsame
        · simp [durablePrepared] at he
          exact ⟨he.1.1, .inl he.1.2⟩
        · exact (hwrite p' bytes' hsame).imp id .inr
      · simpa [written, writtenBy, durablePrepared] using hcut
  · -- between writes: what is in the file is in the history
    obtain rfl : flight = [] := by
      rcases hflight with rfl | ⟨p, bytes, k, hq, -⟩
      · rfl
      · exact absurd ⟨p, bytes, k, hq⟩ hpending
    have hdone : ∀ p bytes, Process.Issued (⟨h, q⟩ : Run) (.writeAll p bytes) →
        ∃ r, ⟨.writeAll p bytes, r⟩ ∈ fileEvents h := fun p bytes hi =>
      (hissued p bytes hi).resolve_right fun hq => hpending ⟨p, bytes, hq⟩
    have hissue : ∀ p bytes r, ⟨.writeAll p bytes, r⟩ ∈ fileEvents h →
        Process.Issued (⟨h, q⟩ : Run) (.writeAll p bytes) := fun p bytes r he =>
      .inl ⟨r, (mem_fileEvents.mp he).1⟩
    have hj := (applyPlan_follows X hr).1.journaled
    have hmem : ⟨.createNew options.receiptPath, true⟩ ∈ fileEvents h :=
      mem_fileEvents.mpr ⟨hc, rfl⟩
    clear hissued hr hc
    rw [List.append_nil]
    generalize fileEvents h = f at hj hmem hdone hissue
    -- every stage with the file in place names the lines that are in it
    cases hj with
    | untouched => exact absurd hmem List.not_mem_nil
    | created won =>
        refine ⟨sealedWith X (preparedEvent X (sha256Bytes X []) (sha256Bytes X []) 0), none,
          .of_prepared ⟨_, _, _, rfl⟩ fun p bytes hi => ?_, List.nil_prefix⟩
        obtain ⟨r, he⟩ := hdone p bytes hi
        simp at he
    | prepared p hp r =>
        refine ⟨p, none, .of_prepared hp fun p' bytes hi => ?_, ?_⟩
        · obtain ⟨r', he⟩ := hdone p' bytes hi
          simp at he
          exact he.1
        · cases r
          · simp [written, writtenBy]
          · simp [written, writtenBy, List.take_prefix]
    | preparedSynced p hp synced =>
        refine ⟨p, none, .of_prepared hp fun p' bytes hi => ?_, ?_⟩
        · obtain ⟨r', he⟩ := hdone p' bytes hi
          simp at he
          exact he.1
        · simp [written, writtenBy]
    | terminal p hp e he r =>
        refine ⟨p, some e, .of_terminal hp he (fun p' bytes hi => ?_)
          (hissue _ _ r (by simp [durablePrepared])), ?_⟩
        · obtain ⟨r', he⟩ := hdone p' bytes hi
          simp [durablePrepared] at he
          exact he.elim (fun he => he.1.imp id .inl) fun he => he.1.imp id .inr
        · cases r
          · simp [written, writtenBy, durablePrepared]
          · simp [written, writtenBy, durablePrepared, List.prefix_append_right_inj,
              List.take_prefix]
    | terminalSynced p hp e he synced =>
        refine ⟨p, some e, .of_terminal hp he (fun p' bytes hi => ?_)
          (hissue _ _ .done (by simp [durablePrepared])), ?_⟩
        · obtain ⟨r', he⟩ := hdone p' bytes hi
          simp [durablePrepared] at he
          exact he.elim (fun he => he.1.imp id .inl) fun he => he.1.imp id .inr
        · simp [written, writtenBy, durablePrepared]

end OneRun

/-! ### All runs -/

/-- What is true of the files and the runs at any moment, `d` being the files
at the start. -/
structure Receipts (d : Disk ι) (s : Applies ι) : Prop where
  owner_unique : ∀ {path i j}, Run.Created path (s.procs i) → Run.Created path (s.procs j) → i = j
  absent : ∀ {path i}, Run.Created path (s.procs i) → d.bytes path = none
  owned : ∀ {path i}, Run.Created path (s.procs i) →
    s.world.bytes path = some (written path (s.procs i).history ++ s.world.inFlight i)
  unowned : ∀ {path}, (∀ i, ¬ Run.Created path (s.procs i)) → s.world.bytes path = d.bytes path
  inFlight : ∀ i, s.world.inFlight i = [] ∨ ∃ p bytes, ∃ k : WriteReply → Prog Cmd Reply _,
    (s.procs i).rest = .call (.writeAll p bytes) k ∧ s.world.inFlight i <+: bytes

namespace Receipts

variable {X} {options : ι → ApplyOptions} {d : Disk ι} {s s' : Applies ι} {i : ι}
  (inv : Receipts d s)

/-- Nobody has done anything yet. -/
theorem start (hidle : ∀ i, d.inFlight i = []) : Receipts d (Effect.start (applies X options) d) where
  owner_unique hc _ := absurd hc List.not_mem_nil
  absent hc := absurd hc List.not_mem_nil
  owned hc := absurd hc List.not_mem_nil
  unowned _ := rfl
  inFlight i := .inl (hidle i)

/-- A run waiting on a command that writes nothing has nothing in flight. -/
theorem inFlight_nil (inv : Receipts d s) {c : Cmd} {k : Reply c → Prog Cmd Reply _}
    (waiting : (s.procs i).rest = .call c k) (hc : ∀ p bytes, c ≠ .writeAll p bytes) :
    s.world.inFlight i = [] := by
  rcases inv.inFlight i with hnil | ⟨p, bytes, k', hq, -⟩
  · exact hnil
  · rw [waiting, Prog.call.injEq] at hq
    exact absurd hq.1 (hc p bytes)

/-- Answering a command that neither creates nor writes. -/
theorem idle (inv : Receipts d s) {c : Cmd} {r : Reply c} {k : Reply c → Prog Cmd Reply _}
    (waiting : (s.procs i).rest = .call c k) (moved : s'.procs i = (s.procs i).advance c r k)
    (others : ∀ j, j ≠ i → s'.procs j = s.procs j) (hworld : s'.world = s.world)
    (hc : ∀ p bytes, c ≠ .writeAll p bytes)
    (hcreate : ∀ path, (⟨c, r⟩ : Event Cmd Reply) ≠ ⟨.createNew path, true⟩) : Receipts d s' := by
  have hcreated : ∀ path j, Run.Created path (s'.procs j) ↔ Run.Created path (s.procs j) := by
    intro path j
    rcases eq_or_ne j i with rfl | hj
    · rw [Run.Created, moved, Process.advance, List.mem_append, List.mem_singleton]
      exact or_iff_left fun h => hcreate path h.symm
    · rw [others j hj]
  have hwritten : ∀ path j, written path (s'.procs j).history = written path (s.procs j).history := by
    intro path j
    rcases eq_or_ne j i with rfl | hj
    · have hnone : written path [(⟨c, r⟩ : Event Cmd Reply)] = [] := by
        cases c
        case writeAll p bytes => exact absurd rfl (hc p bytes)
        all_goals rfl
      have hsplit : written path ((s.procs j).history ++ [⟨c, r⟩]) =
          written path (s.procs j).history ++ written path [(⟨c, r⟩ : Event Cmd Reply)] :=
        List.flatMap_append
      rw [moved, Process.advance, hsplit, hnone, List.append_nil]
    · rw [others j hj]
  -- neither the disk nor what the runs have created or written changes
  refine ⟨fun {path j j'} h h' => ?_, fun {path j} h => ?_, fun {path j} h => ?_,
    fun {path} h => ?_, fun j => ?_⟩
  · exact inv.owner_unique ((hcreated path j).mp h) ((hcreated path j').mp h')
  · exact inv.absent ((hcreated path j).mp h)
  · rw [hworld, hwritten path j]
    exact inv.owned ((hcreated path j).mp h)
  · rw [hworld]
    exact inv.unowned fun j hj => h j ((hcreated path j).mpr hj)
  · rw [hworld]
    rcases eq_or_ne j i with rfl | hj
    · exact .inl (inv.inFlight_nil waiting hc)
    · rw [others j hj]
      exact inv.inFlight j

/-- Creating a file that was not there. -/
theorem created (inv : Receipts d s) {path : Path} {k : Bool → Prog Cmd Reply _}
    (hr : Reaches (applies X options i) (s.procs i).history (s.procs i).rest)
    (waiting : (s.procs i).rest = .call (.createNew path) k)
    (moved : s'.procs i = (s.procs i).advance (.createNew path) true k)
    (others : ∀ j, j ≠ i → s'.procs j = s.procs j) (hfresh : s.world.bytes path = none)
    (hworld : s'.world = { s.world with
      bytes := Function.update s.world.bytes path (some []) }) : Receipts d s' := by
  have hnone : fileEvents (s.procs i).history = [] := fileEvents_of_creating hr waiting
  -- a run creates one file at most, and this one has created none so far
  have hnew : ∀ p, ¬ Run.Created p (s.procs i) := by
    intro p hp
    have hmem : (⟨.createNew p, true⟩ : Event Cmd Reply) ∈ fileEvents (s.procs i).history :=
      mem_fileEvents.mpr ⟨hp, rfl⟩
    rw [hnone] at hmem
    exact absurd hmem List.not_mem_nil
  have hpath : ∀ j, ¬ Run.Created path (s.procs j) := by
    intro j hj
    have hsome := inv.owned hj
    rw [hfresh] at hsome
    cases hsome
  have hcreated : ∀ p j, Run.Created p (s'.procs j) ↔
      Run.Created p (s.procs j) ∨ (j = i ∧ p = path) := by
    intro p j
    rcases eq_or_ne j i with rfl | hj
    · rw [Run.Created, moved, Process.advance, List.mem_append, List.mem_singleton]
      simp [Run.Created]
    · rw [others j hj]
      simp [hj]
  have hidle : s.world.inFlight i = [] := inv.inFlight_nil waiting (by simp)
  -- the invariant, field by field; the new file differs from every owned one
  refine ⟨fun {p j j'} h h' => ?_, fun {p j} h => ?_, fun {p j} h => ?_, fun {p} h => ?_,
    fun j => ?_⟩
  · rcases (hcreated p j).mp h with h | ⟨rfl, rfl⟩
    · rcases (hcreated p j').mp h' with h' | ⟨rfl, rfl⟩
      · exact inv.owner_unique h h'
      · exact absurd h (hpath j)
    · rcases (hcreated p j').mp h' with h' | ⟨rfl, -⟩
      · exact absurd h' (hpath j')
      · rfl
  · rcases (hcreated p j).mp h with h | ⟨rfl, rfl⟩
    · exact inv.absent h
    · rw [← inv.unowned hpath]
      exact hfresh
  · rw [hworld]
    rcases (hcreated p j).mp h with h | ⟨rfl, rfl⟩
    · have hne : p ≠ path := by
        rintro rfl
        exact hpath j h
      have hji : j ≠ i := by
        rintro rfl
        exact hnew p h
      rw [others j hji]
      exact (Function.update_of_ne hne _ _).trans (inv.owned h)
    · have hwritten : written p (s'.procs j).history = [] := by
        rw [← written_fileEvents, moved, Process.advance, fileEvents_append, hnone]
        rfl
      rw [hwritten]
      exact (Function.update_self _ _ _).trans (congrArg some hidle.symm)
  · have hne : p ≠ path := by
      rintro rfl
      exact h i ((hcreated p i).mpr (.inr ⟨rfl, rfl⟩))
    rw [hworld]
    refine (Function.update_of_ne hne _ _).trans (inv.unowned fun j hj => ?_)
    exact h j ((hcreated p j).mpr (.inl hj))
  · rw [hworld]
    rcases eq_or_ne j i with rfl | hj
    · exact .inl hidle
    · rw [others j hj]
      exact inv.inFlight j

/-- Answering a write: what had got out is what the answer says was written. -/
theorem released (inv : Receipts d s) {path : Path} {bytes : Bytes} {r : WriteReply}
    {k : WriteReply → Prog Cmd Reply _}
    (hr : Reaches (applies X options i) (s.procs i).history (s.procs i).rest)
    (waiting : (s.procs i).rest = .call (.writeAll path bytes) k)
    (moved : s'.procs i = (s.procs i).advance (.writeAll path bytes) r k)
    (others : ∀ j, j ≠ i → s'.procs j = s.procs j)
    (hout : s.world.inFlight i = writtenBy path ⟨.writeAll path bytes, r⟩)
    (hworld : s.world.Released i s'.world) : Receipts d s' := by
  obtain ⟨hbytes, hdone, hrest⟩ := hworld
  have hmine : Run.Created path (s.procs i) := created_of_pending hr waiting
  have hcreated : ∀ p j, Run.Created p (s'.procs j) ↔ Run.Created p (s.procs j) := by
    intro p j
    rcases eq_or_ne j i with rfl | hj
    · rw [Run.Created, moved, Process.advance, List.mem_append, List.mem_singleton]
      simp [Run.Created]
    · rw [others j hj]
  -- what was in flight becomes part of the history, and the file stays
  refine ⟨fun {p j j'} h h' => ?_, fun {p j} h => ?_, fun {p j} h => ?_, fun {p} h => ?_,
    fun j => ?_⟩
  · exact inv.owner_unique ((hcreated p j).mp h) ((hcreated p j').mp h')
  · exact inv.absent ((hcreated p j).mp h)
  · have h := (hcreated p j).mp h
    rw [hbytes, inv.owned h]
    rcases eq_or_ne j i with rfl | hj
    · obtain rfl : p = path := (created_path hr h).trans (created_path hr hmine).symm
      have hsplit : written p ((s.procs j).history ++ [⟨.writeAll p bytes, r⟩]) =
          written p (s.procs j).history ++ writtenBy p ⟨.writeAll p bytes, r⟩ := by
        simp [written]
      rw [moved, Process.advance, hsplit, hdone, hout, List.append_nil]
    · rw [others j hj, hrest j hj]
  · rw [hbytes]
    exact inv.unowned fun j hj => h j ((hcreated p j).mpr hj)
  · rcases eq_or_ne j i with rfl | hj
    · exact .inl hdone
    · rw [others j hj, hrest j hj]
      exact inv.inFlight j

/-- One more byte of a write. -/
theorem progressed (inv : Receipts d s) {path : Path} {bytes : Bytes} {b : UInt8}
    {k : WriteReply → Prog Cmd Reply _}
    (hr : Reaches (applies X options i) (s.procs i).history (s.procs i).rest)
    (waiting : (s.procs i).rest = .call (.writeAll path bytes) k) (procs : s'.procs = s.procs)
    (hnext : s.world.inFlight i ++ [b] <+: bytes)
    (hbytes : s'.world.bytes =
      Function.update s.world.bytes path ((s.world.bytes path).map (· ++ [b])))
    (hmore : s'.world.inFlight i = s.world.inFlight i ++ [b])
    (hrest : ∀ j, j ≠ i → s'.world.inFlight j = s.world.inFlight j) : Receipts d s' := by
  have hmine : Run.Created path (s.procs i) := created_of_pending hr waiting
  -- one byte more in the file and in flight; only the owner writes to it
  refine ⟨fun {p j j'} h h' => ?_, fun {p j} h => ?_, fun {p j} h => ?_, fun {p} h => ?_,
    fun j => ?_⟩
  · rw [procs] at h h'
    exact inv.owner_unique h h'
  · rw [procs] at h
    exact inv.absent h
  · rw [procs] at h ⊢
    rw [hbytes]
    rcases eq_or_ne j i with rfl | hj
    · obtain rfl : p = path := (created_path hr h).trans (created_path hr hmine).symm
      rw [Function.update_self, inv.owned h, Option.map_some, hmore, List.append_assoc]
    · have hne : p ≠ path := by
        rintro rfl
        exact hj (inv.owner_unique h hmine)
      rw [Function.update_of_ne hne, hrest j hj]
      exact inv.owned h
  · rw [procs] at h
    have hne : p ≠ path := by
      rintro rfl
      exact h i hmine
    rw [hbytes, Function.update_of_ne hne]
    exact inv.unowned h
  · rw [procs]
    rcases eq_or_ne j i with rfl | hj
    · exact .inr ⟨path, bytes, k, waiting, hmore ▸ hnext⟩
    · rw [hrest j hj]
      exact inv.inFlight j

/-- **Step.**  Every step keeps the invariant. -/
theorem step (inv : Receipts d s)
    (hr : ∀ i, Reaches (applies X options i) (s.procs i).history (s.procs i).rest)
    {who : Option ι} (hstep : Step sharedDisk s who s') : Receipts d s' := by
  cases hstep with
  | @answer _ i c r k waiting world moved others =>
      cases c
      case createNew path =>
        cases r
        · exact inv.idle waiting moved others world (by simp) (by simp)
        · exact inv.created (hr i) waiting moved others world.1 world.2
      case writeAll path bytes =>
        rcases r with - | n
        · refine inv.released (hr i) waiting moved others ?_ world.2
          simpa [writtenBy] using world.1
        · refine inv.released (hr i) waiting moved others ?_ world.2
          simpa [writtenBy] using world.1
      all_goals exact inv.idle waiting moved others world (by simp) (by simp)
  | @progress _ i c k waiting world procs =>
      cases c
      case writeAll path bytes =>
        obtain ⟨b, hnext, hbytes, hmore, hrest⟩ := world
        exact inv.progressed (hr i) waiting procs hnext hbytes hmore hrest
      all_goals exact world.elim
  | drift world procs => exact world.elim

end Receipts

/-! ### The verifier -/

/-- `r` is what the verifier makes of a regular file that holds `bytes`. -/
def Judged (path : Path) (bytes : Bytes) (r : AppResult ReceiptVerification) : Prop :=
  ∃ metadata : Metadata, metadata.isFile ∧ metadata.len.toNat = bytes.length ∧
    ∃ t, Reaches (verifyReceipt X path).run t (.ret r) ∧
      ∀ e ∈ t, e = ⟨.metadata path, some metadata⟩ ∨ e = ⟨.read path, some bytes⟩

theorem judged_ok {path : Path} {bytes : Bytes} {v : ReceiptVerification} :
    Judged X path bytes (.ok v) ↔
      bytes.length ≤ maxReceiptBytes ∧ verifyReceiptBytes X bytes = .ok v := by
  constructor
  · rintro ⟨metadata, hfile, hlen, t, hr, hfrom⟩
    obtain ⟨found, content, rfl, -, -⟩ := (verifyReceipt_ok X).mp hr
    -- what the reader was told is what the file has
    obtain rfl : found = metadata := by
      rcases hfrom _ List.mem_cons_self with he | he
      · cases he
        rfl
      · cases he
    obtain rfl : content = bytes := by
      rcases hfrom _ (List.mem_cons_of_mem _ List.mem_cons_self) with he | he
      · cases he
      · cases he
        rfl
    obtain ⟨hsmall, hv⟩ := verifyReceipt_ret X hfile hlen hr
    exact ⟨hsmall, hv.symm⟩
  · rintro ⟨hsmall, hv⟩
    obtain ⟨metadata, hfile, hlen⟩ : ∃ metadata : Metadata, metadata.isFile ∧
        metadata.len.toNat = bytes.length :=
      ⟨⟨true, UInt64.ofNat bytes.length⟩, rfl,
        UInt64.toNat_ofNat_of_lt' (lt_of_le_of_lt hsmall (by decide))⟩
    have hr := reaches_verifyReceipt X path hfile hlen hsmall
    rw [hv] at hr
    refine ⟨metadata, hfile, hlen, _, hr, fun e he => ?_⟩
    simpa using he

/-- The verdicts on a cut of a receipt. -/
theorem judged_cut (hdigest : ∀ bytes, (X.digest bytes).length = 32) {path : Path} {run : Run}
    {prepared : ReceiptEvent} {terminal : Option ReceiptEvent} {bytes : Bytes}
    (hw : Run.Writes X path run prepared terminal)
    (hcut : bytes <+: eventLine prepared ++ terminal.elim [] eventLine)
    {r : AppResult ReceiptVerification} (hr : Judged X path bytes r) :
    (∃ e, r = .error e) ∨
      (∃ v, r = .ok v ∧ v.complete = false ∧ v.finalState = .prepared ∧
        (bytes = encode prepared.text ∨ bytes = eventLine prepared)) ∨
      ∃ v e, r = .ok v ∧ terminal = some e ∧ v.complete = true ∧ v.finalState = e.state ∧
        eventLine prepared ++ encode e.text <+: bytes := by
  rcases r with e | v
  · exact .inl ⟨e, rfl⟩
  obtain ⟨-, hv⟩ := (judged_ok X).mp hr
  rcases cut_of_ok X hdigest hw.prepared_event hw.terminal_event hcut hv with
    ⟨hbytes, rfl⟩ | ⟨e, rfl, hwhole, rfl⟩
  · exact .inr (.inl ⟨_, rfl, rfl, rfl, hbytes⟩)
  · exact .inr (.inr ⟨_, e, rfl, rfl, rfl, rfl, hwhole⟩)

/-- A cut is reported as incomplete exactly when it ends with the prepared
event. -/
theorem judged_prepared_iff (hdigest : ∀ bytes, (X.digest bytes).length = 32) {path : Path}
    {run : Run} {prepared : ReceiptEvent} {terminal : Option ReceiptEvent} {bytes : Bytes}
    (hw : Run.Writes X path run prepared terminal)
    (hcut : bytes <+: eventLine prepared ++ terminal.elim [] eventLine) :
    (∃ v, Judged X path bytes (.ok v) ∧ v.complete = false ∧ v.finalState = .prepared) ↔
      (bytes = encode prepared.text ∨ bytes = eventLine prepared) ∧
        isSupportedArtifactToolVersion prepared.toolVersion := by
  constructor
  · rintro ⟨v, hv, hcomplete, -⟩
    refine ⟨?_, hw.prepared_event.supported⟩
    rcases judged_cut X hdigest hw hcut hv with
      ⟨e, he⟩ | ⟨_, -, -, -, hbytes⟩ | ⟨_, _, hv', -, htrue, -⟩
    · cases he
    · exact hbytes
    · rw [← Except.ok.inj hv', hcomplete] at htrue
      cases htrue
  · rintro ⟨hbytes, -⟩
    obtain ⟨hsmall, hv⟩ := hw.prepared_event.accepted hdigest hbytes
    exact ⟨_, (judged_ok X).mpr ⟨hsmall, hv⟩, rfl, rfl⟩

/-- Only a run that has created its receipt changes a file. -/
theorem created_of_changed {options : ι → ApplyOptions} {s s' : Applies ι} {j : ι}
    (hr : Reaches (applies X options j) (s.procs j).history (s.procs j).rest)
    (hstep : Step sharedDisk s (some j) s') (hchanged : s'.world.bytes ≠ s.world.bytes) :
    ∃ p, Run.Created p (s'.procs j) := by
  cases hstep with
  | @answer _ _ c r k waiting world moved others =>
      have hlast : ⟨c, r⟩ ∈ (s'.procs j).history := by
        rw [moved]
        exact List.mem_append_right _ (List.mem_singleton_self _)
      cases c
      case createNew path =>
        cases r
        · exact absurd (congrArg Disk.bytes world) hchanged
        · exact ⟨path, hlast⟩
      case writeAll path bytes =>
        rcases r with - | n
        · exact absurd world.2.1 hchanged
        · exact absurd world.2.1 hchanged
      all_goals exact absurd (congrArg Disk.bytes world) hchanged
  | @progress _ _ c k waiting world procs =>
      cases c
      case writeAll path bytes =>
        exact ⟨path, by rw [procs]; exact created_of_pending hr waiting⟩
      all_goals exact world.elim

/-- **Torn receipts.**  Runs over one file system, each stopped anywhere.  Only
a run that created its receipt changes a file, and one that lost the creation
sends nothing to a database.  A file is what it was at the start, or a cut of
the receipt of the one run that created it; and of such a cut the verifier
reports nothing, or an incomplete receipt exactly when it ends with the
prepared event, or the terminal state once the whole terminal event is there. -/
theorem applyPlan_receipts_torn {options : ι → ApplyOptions} {d : Disk ι} {s : Applies ι}
    (hs : Reachable sharedDisk (applies X options) d s) (hidle : ∀ i, d.inFlight i = [])
    (hdigest : ∀ bytes, (X.digest bytes).length = 32) :
    (∀ j s', Step sharedDisk s (some j) s' → s'.world.bytes ≠ s.world.bytes →
      ∃ p, Run.Created p (s'.procs j)) ∧
    (∀ j p, Run.Lost p (s.procs j) → (∀ p', ¬ Run.Created p' (s.procs j)) ∧
      ∀ c, (s.procs j).Issued c → c.channel ∈ [Channel.read, .clock, .write]) ∧
    ∀ path bytes, s.world.bytes path = some bytes →
      (d.bytes path = some bytes ∧ ∀ i, ¬ Run.Created path (s.procs i)) ∨
      ∃ i prepared terminal, d.bytes path = none ∧
        (∀ j, Run.Created path (s.procs j) ↔ j = i) ∧
        Run.Writes X path (s.procs i) prepared terminal ∧
        bytes <+: eventLine prepared ++ terminal.elim [] eventLine ∧
        (∀ r, Judged X path bytes r →
          (∃ e, r = .error e) ∨
          (∃ v, r = .ok v ∧ v.complete = false ∧ v.finalState = .prepared ∧
            (bytes = encode prepared.text ∨ bytes = eventLine prepared)) ∨
          ∃ v e, r = .ok v ∧ terminal = some e ∧ v.complete = true ∧ v.finalState = e.state ∧
            eventLine prepared ++ encode e.text <+: bytes) ∧
        ((∃ v, Judged X path bytes (.ok v) ∧ v.complete = false ∧ v.finalState = .prepared) ↔
          (bytes = encode prepared.text ∨ bytes = eventLine prepared) ∧
            isSupportedArtifactToolVersion prepared.toolVersion) := by
  have hreach := fun i => hs.reaches i
  -- the invariant of the disk, along the run
  have inv : Receipts d s := hs.invariant (Receipts.start hidle) fun s s' who hrun inv hstep =>
    inv.step (fun i => hrun.reaches i) hstep
  refine ⟨fun j s' hstep hchanged => created_of_changed X (hreach j) hstep hchanged, ?_, ?_⟩
  · intro j p hlost
    refine ⟨fun p' hcreated => ?_, fun c hissued => channel_of_lost (hreach j) hlost hissued⟩
    have hmem := mem_fileEvents.mpr ⟨hcreated, rfl⟩
    rw [fileEvents_of_lost (hreach j) hlost] at hmem
    simp at hmem
  · intro path bytes hbytes
    by_cases howner : ∃ i, Run.Created path (s.procs i)
    · obtain ⟨i, hi⟩ := howner
      obtain ⟨prepared, terminal, hwrites, hcut⟩ :=
        written_prefix (hreach i) hi (inv.inFlight i)
      rw [inv.owned hi] at hbytes
      rw [Option.some.inj hbytes] at hcut
      refine .inr ⟨i, prepared, terminal, inv.absent hi, fun j => ⟨fun hj =>
        inv.owner_unique hj hi, fun hj => hj ▸ hi⟩, hwrites, hcut, fun r hr =>
        judged_cut X hdigest hwrites hcut hr, judged_prepared_iff X hdigest hwrites hcut⟩
    · have hnone : ∀ i, ¬ Run.Created path (s.procs i) := fun i hi => howner ⟨i, hi⟩
      rw [inv.unowned hnone] at hbytes
      exact .inl ⟨hbytes, hnone⟩

/-! ### Two runs for one receipt -/

/-- A write that has begun can get any part of its bytes out. -/
theorem reachable_partial {β : ι → Type} {P : (i : ι) → Prog Cmd Reply (β i)} {d : Disk ι}
    {s : Configuration Cmd Reply (Disk ι) β} [DecidableEq ι] (hs : Reachable sharedDisk P d s)
    {i : ι} {path : Path} {bytes : Bytes} {k : WriteReply → Prog Cmd Reply (β i)}
    (waiting : (s.procs i).rest = .call (.writeAll path bytes) k)
    (hfile : s.world.bytes path = some []) (hidle : s.world.inFlight i = []) (n : Nat) :
    Reachable sharedDisk P d
      ⟨⟨Function.update s.world.bytes path (some (bytes.take n)),
        Function.update s.world.inFlight i (bytes.take n)⟩, s.procs⟩ := by
  induction n with
  | zero =>
      rw [List.take_zero, ← hfile, Function.update_eq_self, ← hidle, Function.update_eq_self]
      exact hs
  | succ n ih =>
      rcases Nat.lt_or_ge n bytes.length with hlt | hge
      · have htake : bytes.take (n + 1) = bytes.take n ++ [bytes[n]] := by
          rw [List.take_add_one, List.getElem?_eq_getElem hlt, Option.toList_some]
        refine ih.tail ⟨some i, .progress waiting ⟨bytes[n], ?_, ?_, ?_, ?_⟩ rfl⟩
        · dsimp only
          rw [Function.update_self, ← htake]
          exact List.take_prefix _ _
        · dsimp only
          rw [Function.update_self, Option.map_some, Function.update_idem, ← htake]
        · dsimp only
          rw [Function.update_self, Function.update_self, ← htake]
        · intro j hj
          exact (Function.update_of_ne hj ..).trans (Function.update_of_ne hj ..).symm
      · rw [List.take_of_length_le hge] at ih
        rw [List.take_of_length_le (Nat.le_succ_of_le hge)]
        exact ih

/-- A write that takes all its bytes to the file. -/
theorem Disk.drives_write [DecidableEq ι] {d : Disk ι} {i : ι} {path : Path} {old : Bytes}
    (hold : d.bytes path = some old) (hidle : d.inFlight i = []) (bytes : Bytes) :
    sharedDisk.Drives i d [⟨.writeAll path bytes, .done⟩]
      { d with bytes := Function.update d.bytes path (some (old ++ bytes)) } := by
  -- what is out, and what is still to go
  have hrest : ∀ out rest, out ++ rest = bytes →
      sharedDisk.Drives i ⟨Function.update d.bytes path (some (old ++ out)),
          Function.update d.inFlight i out⟩ [⟨.writeAll path bytes, .done⟩]
        { d with bytes := Function.update d.bytes path (some (old ++ bytes)) } := by
    intro out rest hsplit
    induction rest generalizing out with
    | nil =>
        rw [List.append_nil] at hsplit
        subst hsplit
        have hdone : Disk.Answers i ⟨Function.update d.bytes path (some (old ++ out)),
            Function.update d.inFlight i out⟩ (.writeAll path out) .done
            { d with bytes := Function.update d.bytes path (some (old ++ out)) } :=
          ⟨Function.update_self .., rfl, hidle, fun j hj => (Function.update_of_ne hj ..).symm⟩
        exact .cons hdone (.nil _)
    | cons b rest ih =>
        have hnext := ih (out ++ [b]) (by rw [List.append_assoc]; exact hsplit)
        refine .progress ⟨b, ?_, ?_, ?_, fun j hj => ?_⟩ hnext
        · refine ⟨rest, ?_⟩
          dsimp only
          rw [Function.update_self, List.append_assoc]
          exact hsplit
        · dsimp only
          rw [Function.update_self, Option.map_some, Function.update_idem, List.append_assoc]
        · dsimp only
          rw [Function.update_self, Function.update_self]
        · exact (Function.update_of_ne hj ..).trans (Function.update_of_ne hj ..).symm
  have hall := hrest [] bytes rfl
  rw [List.append_nil, ← hold, Function.update_eq_self, ← hidle, Function.update_eq_self] at hall
  exact hall

/-- What touches no file leaves the disk. -/
theorem Disk.drives_quiet {d : Disk ι} {i : ι} {h : History}
    (hh : ∀ e ∈ h, e.cmd.channel ≠ .write ∨ ∃ path, e = ⟨.syncAll path, true⟩) :
    sharedDisk.Drives i d h d := by
  induction h with
  | nil => exact .nil d
  | cons e h ih =>
      refine .cons ?_ (ih fun e he => hh e (List.mem_cons_of_mem _ he))
      rcases hh e List.mem_cons_self with hchannel | ⟨path, rfl⟩
      · exact Disk.answers_of_channel hchannel
      · rfl

/-- Recording the approval and deciding read no file. -/
theorem Approval.unread_of_deciding {X : Crates} {options : ApplyOptions} (a : Approval X options)
    {e : Event Cmd Reply} (he : e ∈ a.receiptHistory ++
      (a.connectionHistory ++ sessionHistory a.plan ++ a.driftHistory)) :
    e.cmd.channel ≠ .read := by
  intro hread
  rcases List.mem_append.mp he with he | he
  · simp only [Admission.receiptHistory, List.mem_cons, List.not_mem_nil, or_false] at he
    rcases he with rfl | rfl | rfl | rfl <;> cases hread
  · have hchannel := a.channel_of_deciding he
    rw [hread] at hchannel
    exact absurd hchannel (by decide)

/-- An approved run leaves its prepared line, -/
theorem Approval.drives_receipt {X : Crates} {options : ApplyOptions} (a : Approval X options)
    [DecidableEq ι] {i : ι} {d : Disk ι} (hfree : d.bytes options.receiptPath = none)
    (hidle : d.inFlight i = []) :
    sharedDisk.Drives i d a.receiptHistory { d with
      bytes := Function.update d.bytes options.receiptPath (some (eventLine a.prepared)) } := by
  have hclock : sharedDisk.Drives i d [⟨.now, some a.preparedAt.toNat⟩] d :=
    Disk.drives_quiet fun e he => by
      rw [List.mem_singleton.mp he]
      exact .inl (by simp [Cmd.channel])
  have hcreate : sharedDisk.Drives i d [⟨.createNew options.receiptPath, true⟩]
      { d with bytes := Function.update d.bytes options.receiptPath (some []) } :=
    .cons ⟨hfree, rfl⟩ (.nil _)
  have hprepared := @Disk.drives_write ι _
    { d with bytes := Function.update d.bytes options.receiptPath (some []) } i
    options.receiptPath [] (Function.update_self ..) hidle (eventLine a.prepared)
  rw [List.nil_append, Function.update_idem] at hprepared
  have hsync : ∀ d : Disk ι, sharedDisk.Drives i d [⟨.syncAll options.receiptPath, true⟩] d :=
    fun d => Disk.drives_quiet fun e he => .inr ⟨_, List.mem_singleton.mp he⟩
  have hall := hclock.append (hcreate.append (hprepared.append (hsync _)))
  simpa only [Admission.receiptHistory, List.append_assoc, List.cons_append, List.nil_append]
    using hall

/-- and what it does up to its statement leaves it at that. -/
theorem Approval.drives_deciding {X : Crates} {options : ApplyOptions} (a : Approval X options)
    [DecidableEq ι] {i : ι} {d : Disk ι} {h : History}
    (hh : h ⊆ a.connectionHistory ++ sessionHistory a.plan ++ a.driftHistory) :
    sharedDisk.Drives i d h d :=
  Disk.drives_quiet fun e he => .inl fun hw => by
    have hd := a.channel_of_deciding (hh he)
    rw [hw] at hd
    exact absurd hd (by decide)

theorem Approval.drives_prepared {X : Crates} {options : ApplyOptions} (a : Approval X options)
    [DecidableEq ι] {i : ι} {d : Disk ι} (hfree : d.bytes options.receiptPath = none)
    (hidle : d.inFlight i = []) :
    sharedDisk.Drives i d (a.receiptHistory ++
        (a.connectionHistory ++ sessionHistory a.plan ++ a.driftHistory)) { d with
      bytes := Function.update d.bytes options.receiptPath (some (eventLine a.prepared)) } :=
  (a.drives_receipt hfree hidle).append (a.drives_deciding (List.Subset.refl _))

/-- No files, and nothing being written. -/
def emptyDisk : Disk ι := ⟨fun _ => none, fun _ => []⟩

/-- Two runs with the same receipt path: one has created the file and got its
prepared line out, the other has lost. -/
theorem Approval.reachable_contended {X : Crates} {options : ApplyOptions}
    (a : Approval X options) : ∃ s : Applies Bool,
    Reachable sharedDisk (applies X fun _ => options) emptyDisk s ∧
      s.world.bytes options.receiptPath = some (eventLine a.prepared) ∧
      Run.Created options.receiptPath (s.procs true) ∧
      Run.Lost options.receiptPath (s.procs false) := by
  -- both come as far as the creation
  have hall := a.reaches_receipt
  have hsplit : a.admissionHistory ++ a.receiptHistory =
      (a.admissionHistory ++ [⟨.now, some a.preparedAt.toNat⟩]) ++
        [⟨.createNew options.receiptPath, true⟩,
          ⟨.writeAll options.receiptPath (eventLine a.prepared), .done⟩,
          ⟨.syncAll options.receiptPath, true⟩] := by
    rw [Admission.receiptHistory, List.append_assoc]
    rfl
  rw [hsplit] at hall
  obtain ⟨q, hbefore, hafter⟩ := hall.split
  obtain ⟨k, rfl, hwrite⟩ := hafter.cons
  obtain ⟨k', hpending, -⟩ := hwrite.cons
  have hquiet : ∀ i : Bool, ∀ e ∈ a.admissionHistory ++
      [(⟨.now, some a.preparedAt.toNat⟩ : Event Cmd Reply)],
      sharedDisk.answers i emptyDisk e.cmd e.reply emptyDisk := by
    intro i e he
    simp only [Admission.admissionHistory, List.cons_append, List.nil_append, List.mem_cons,
      List.not_mem_nil, or_false] at he
    rcases he with rfl | rfl | rfl | rfl | rfl | rfl <;> rfl
  have h₀ : Reachable sharedDisk (applies X fun _ : Bool => options) emptyDisk
      (Effect.start _ emptyDisk) := .refl
  have h₁ := Reachable.along (i := true) h₀ rfl hbefore (hquiet true)
  have h₂ := Reachable.along (i := false) h₁ rfl hbefore (hquiet false)
  -- one creates, the other finds the file there
  let opened : Disk Bool :=
    ⟨Function.update (fun _ => none) options.receiptPath (some []), fun _ => []⟩
  have hwin : sharedDisk.answers true emptyDisk (.createNew options.receiptPath) true opened :=
    ⟨rfl, rfl⟩
  have hlose : sharedDisk.answers false opened (.createNew options.receiptPath) false opened := rfl
  have h₃ := Reachable.answer h₂ rfl hwin
  have h₄ := Reachable.answer h₃ rfl hlose
  have hempty : opened.bytes options.receiptPath = some [] := by simp [opened]
  have h₅ := reachable_partial (i := true) h₄ hpending hempty rfl (eventLine a.prepared).length
  refine ⟨_, h₅, ?_, ?_, ?_⟩
  · simp
  · exact List.mem_append_right _ (List.mem_singleton_self _)
  · exact List.mem_append_right _ (List.mem_singleton_self _)

theorem applyPlan_receipts_torn_contended : ∃ s : Applies Bool,
    Run.Lost Sample.options.receiptPath (s.procs false) ∧
    (∀ c, (s.procs false).Issued c → c.channel ∈ [Channel.read, .clock, .write]) ∧
    ∃ prepared terminal, Run.Writes Sample.crates Sample.options.receiptPath (s.procs true)
        prepared terminal ∧
      eventLine Sample.approval.prepared <+: eventLine prepared ++ terminal.elim [] eventLine := by
  obtain ⟨s, hs, hbytes, hcreated, hlost⟩ := Sample.approval.reachable_contended
  obtain ⟨-, hloser, hfiles⟩ := applyPlan_receipts_torn Sample.crates hs (fun _ => rfl)
    Sha256.length_digest
  refine ⟨s, hlost, (hloser false _ hlost).2, ?_⟩
  rcases hfiles _ _ hbytes with ⟨-, hnone⟩ | ⟨i, prepared, terminal, -, howner, hwrites, hcut, -⟩
  · exact absurd hcreated (hnone true)
  · obtain rfl := (howner true).mp hcreated
    exact ⟨prepared, terminal, hwrites, hcut⟩

end DmlPact
