/-
DmlPact/Process/Files.lean

Any number of processes, of any kind, over one file system, each of them
stopped anywhere.  For one path there are two cases at any moment (`FileAt`):

    nobody has created it     and it is as it was at the start
    one process has           and it holds what that process has written there

So what was there before is never changed, and a new file is at all times the
beginning of the one document of its creator (`main_files`): a plan, or a
receipt.
-/
import DmlPact.Plan.Failed
import DmlPact.Process.Session
import DmlPact.Process.Writer
import DmlPact.Receipt.Shared

namespace DmlPact

open Effect Utf8

variable {X : Crates} {ι : Type} {α : Type} {β : ι → Type}

/-! ### One process -/

/-- The process has created the file at `path`. -/
def HasCreated (path : Path) (p : Process Cmd Reply α) : Prop :=
  ⟨.createNew path, true⟩ ∈ p.history

/-- What the processes may do to files, one at a time. -/
structure Orderly (p : Process Cmd Reply α) : Prop where
  creating : ∀ {path k}, p.rest = .call (.createNew path) k → fileEvents p.history = []
  writing : ∀ {path bytes k}, p.rest = .call (.writeAll path bytes) k → HasCreated path p
  one : ∀ {path path'}, HasCreated path p → HasCreated path' p → path = path'

section OneProcess

variable {out : Option Output} {p q : Prog Cmd Reply α} {h : History}

theorem mem_durable {path : Path} {pieces : List Bytes} {p : Path} {won : Bool}
    (h : ⟨.createNew p, won⟩ ∈ durable path pieces) : p = path ∧ won = true := by
  rcases List.mem_cons.mp h with he | he
  · cases he
    exact ⟨rfl, rfl⟩
  · obtain ⟨bytes, -, he⟩ := List.mem_flatMap.mp he
    simp at he

/-- A process creates the path of its output, if it has one. -/
theorem Filed.createNew {f : History} (hf : Filed out f) {path : Path} {won : Bool}
    (hc : ⟨.createNew path, won⟩ ∈ f) : ∃ o ∈ out, path = o.path := by
  cases hf with
  | untouched => cases hc
  | @refused o ho =>
      cases List.mem_singleton.mp hc
      exact ⟨o, ho, rfl⟩
  | @created o ho => exact ⟨o, ho, (mem_durable hc).1⟩
  | @written o _ _ ho _ _ =>
      rcases List.mem_append.mp hc with hc | hc
      · exact ⟨o, ho, (mem_durable hc).1⟩
      · simp at hc
  | @synced o _ _ ho _ _ =>
      rcases List.mem_append.mp hc with hc | hc
      · exact ⟨o, ho, (mem_durable hc).1⟩
      · simp at hc

theorem hasCreated_iff {path : Path} :
    HasCreated path (⟨h, q⟩ : Process Cmd Reply α) ↔ ⟨.createNew path, true⟩ ∈ fileEvents h := by
  rw [mem_fileEvents]
  exact ⟨fun hc => ⟨hc, rfl⟩, And.left⟩

variable (hp : Writes out p) (hr : Reaches p h q)

include hp hr

theorem Writes.creates {path : Path} (hc : HasCreated path (⟨h, q⟩ : Process Cmd Reply α)) :
    ∃ o ∈ out, path = o.path := (hp.reaches hr).1.createNew (hasCreated_iff.mp hc)

theorem Writes.orderly : Orderly (⟨h, q⟩ : Process Cmd Reply α) where
  creating hq := by
    obtain ⟨_, -, -, hnone⟩ := (hp.reaches hr).2 _ _ hq
    exact hnone
  writing hq := by
    obtain ⟨_, -, rfl, pieces, -, hf⟩ := (hp.reaches hr).2 _ _ hq
    rw [hasCreated_iff, hf]
    exact List.mem_cons_self
  one hc hc' := by
    obtain ⟨o, ho, rfl⟩ := hp.creates hr hc
    obtain ⟨o', ho', rfl⟩ := hp.creates hr hc'
    rw [Option.mem_unique ho ho']

omit hp hr in
theorem mem_durable_write {path : Path} {pieces : List Bytes} {bytes : Bytes}
    (hb : bytes ∈ pieces) : ⟨.writeAll path bytes, .done⟩ ∈ durable path pieces :=
  List.mem_cons_of_mem _ (List.mem_flatMap.mpr ⟨bytes, hb, List.mem_cons_self⟩)

/-- **One document.**  What a process has written to the file it created, with
what has got out of the write it waits on, is the beginning of a document it
may write, every piece of which it has issued. -/
theorem Writes.document {o : Output} (ho : o ∈ out) {flight : Bytes}
    (hc : HasCreated o.path (⟨h, q⟩ : Process Cmd Reply α))
    (hflight : flight = [] ∨ ∃ path bytes, ∃ k : WriteReply → Prog Cmd Reply α,
      q = .call (.writeAll path bytes) k ∧ flight <+: bytes) :
    ∃ pieces, (pieces = [] ∨ o.pieces pieces) ∧ written o.path h ++ flight <+: pieces.flatten ∧
      ∀ bytes ∈ pieces, Process.Issued (⟨h, q⟩ : Process Cmd Reply α) (.writeAll o.path bytes) := by
  obtain ⟨hfiled, hnext⟩ := hp.reaches hr
  have hissued : ∀ {bytes r}, ⟨.writeAll o.path bytes, r⟩ ∈ fileEvents h →
      Process.Issued (⟨h, q⟩ : Process Cmd Reply α) (.writeAll o.path bytes) :=
    fun he => .inl ⟨_, (mem_fileEvents.mp he).1⟩
  rw [hasCreated_iff] at hc
  rw [← written_fileEvents]
  by_cases hpending : ∃ path bytes, ∃ k : WriteReply → Prog Cmd Reply α,
    q = .call (.writeAll path bytes) k
  · -- in the middle of a write, behind pieces that were synced
    obtain ⟨path, bytes, k, hq⟩ := hpending
    obtain ⟨o', ho', rfl, pieces, hpieces, hf⟩ := hnext _ _ hq
    obtain rfl := Option.mem_unique ho ho'
    have hcut : flight <+: bytes := by
      rcases hflight with rfl | ⟨path', bytes', k', hq', hcut⟩
      · exact List.nil_prefix
      · rw [hq, Prog.call.injEq, Cmd.writeAll.injEq] at hq'
        rwa [← hq'.1.2] at hcut
    refine ⟨pieces ++ [bytes], .inr hpieces, ?_, fun b hb => ?_⟩
    · rw [hf, written_durable, List.flatten_append, List.flatten_singleton]
      exact (List.prefix_append_right_inj _).mpr hcut
    · rcases List.mem_append.mp hb with hb | hb
      · exact hissued (hf ▸ mem_durable_write hb)
      · rw [List.mem_singleton.mp hb]
        exact .inr ⟨k, hq⟩
  · -- between writes
    obtain rfl : flight = [] := by
      rcases hflight with rfl | ⟨path, bytes, k, hq, -⟩
      · rfl
      · exact absurd ⟨path, bytes, k, hq⟩ hpending
    rw [List.append_nil]
    clear hflight hnext hr hpending
    generalize fileEvents h = f at hfiled hc hissued
    cases hfiled with
    | untouched => cases hc
    | refused => simp at hc
    | @created o' ho' =>
        obtain rfl := Option.mem_unique ho ho'
        exact ⟨[], .inl rfl, List.prefix_rfl, fun _ hb => nomatch hb⟩
    | @written o' pieces bytes ho' hpieces r =>
        obtain rfl := Option.mem_unique ho ho'
        refine ⟨pieces ++ [bytes], .inr hpieces, ?_, fun b hb => ?_⟩
        · have hsplit : written o.path (durable o.path pieces ++ [⟨.writeAll o.path bytes, r⟩]) =
              pieces.flatten ++ writtenBy o.path ⟨.writeAll o.path bytes, r⟩ := by
            rw [← written_durable o.path]
            simp [written]
          rw [hsplit, List.flatten_append, List.flatten_singleton]
          refine (List.prefix_append_right_inj _).mpr ?_
          cases r
          · simp [writtenBy]
          · simp [writtenBy, List.take_prefix]
        · rcases List.mem_append.mp hb with hb | hb
          · exact hissued (List.mem_append_left _ (mem_durable_write hb))
          · rw [List.mem_singleton.mp hb]
            exact hissued (List.mem_append_right _ (List.mem_singleton_self _))
    | @synced o' pieces bytes ho' hpieces done =>
        obtain rfl := Option.mem_unique ho ho'
        refine ⟨pieces ++ [bytes], .inr hpieces, ?_, fun b hb => ?_⟩
        · have hsplit : written o.path (durable o.path pieces ++
              [⟨.writeAll o.path bytes, .done⟩, ⟨.syncAll o.path, done⟩]) =
              (pieces ++ [bytes]).flatten := by
            rw [List.flatten_append, List.flatten_singleton, ← written_durable o.path]
            simp [written, writtenBy]
          rw [hsplit]
        · rcases List.mem_append.mp hb with hb | hb
          · exact hissued (List.mem_append_left _ (mem_durable_write hb))
          · rw [List.mem_singleton.mp hb]
            exact hissued (List.mem_append_right _ List.mem_cons_self)

end OneProcess

/-! ### One path -/

variable {d : Disk ι} {s s' : Configuration Cmd Reply (Disk ι) β} {who : Option ι} {path : Path}

/-- What has got out of the writes that are waited on. -/
def Flights (s : Configuration Cmd Reply (Disk ι) β) : Prop :=
  ∀ i, s.world.inFlight i = [] ∨ ∃ p bytes, ∃ k : WriteReply → Prog Cmd Reply (β i),
    (s.procs i).rest = .call (.writeAll p bytes) k ∧ s.world.inFlight i <+: bytes

/-- What process `i` has put into the file at `path`. -/
def held (path : Path) (s : Configuration Cmd Reply (Disk ι) β) (i : ι) : Bytes :=
  written path (s.procs i).history ++ s.world.inFlight i

/-- The file at `path`, `d` being the files at the start. -/
inductive FileAt (d : Disk ι) (path : Path) (s : Configuration Cmd Reply (Disk ι) β) : Prop
  | unowned (nobody : ∀ i, ¬ HasCreated path (s.procs i))
      (same : s.world.bytes path = d.bytes path)
  | owned (i) (owner : ∀ j, HasCreated path (s.procs j) ↔ j = i) (absent : d.bytes path = none)
      (holds : s.world.bytes path = some (held path s i))

/-- The file of the process that has created it. -/
theorem FileAt.of_created {d : Disk ι} {path : Path} {s : Configuration Cmd Reply (Disk ι) β}
    {i : ι} (hat : FileAt d path s) (hc : HasCreated path (s.procs i)) :
    (∀ j, HasCreated path (s.procs j) ↔ j = i) ∧ s.world.bytes path = some (held path s i) := by
  cases hat with
  | unowned nobody => exact absurd hc (nobody i)
  | owned i' owner absent holds =>
      obtain rfl := (owner i).mp hc
      exact ⟨owner, holds⟩

/-- A step that neither creates the file nor writes to it. -/
theorem FileAt.same (h : FileAt d path s) (hbytes : s'.world.bytes path = s.world.bytes path)
    (hcreated : ∀ j, HasCreated path (s'.procs j) ↔ HasCreated path (s.procs j))
    (hheld : ∀ j, HasCreated path (s.procs j) → held path s' j = held path s j) :
    FileAt d path s' := by
  cases h with
  | unowned nobody same =>
      exact .unowned (fun i hi => nobody i ((hcreated i).mp hi)) (hbytes.trans same)
  | owned i owner absent holds =>
      refine .owned i (fun j => (hcreated j).trans (owner j)) absent ?_
      rw [hbytes, holds, hheld i ((owner i).mpr rfl)]

section Answer

variable {i : ι} {c : Cmd} {r : Reply c} {k : Reply c → Prog Cmd Reply (β i)}
  (waiting : (s.procs i).rest = .call c k) (moved : s'.procs i = (s.procs i).advance c r k)
  (others : ∀ j, j ≠ i → s'.procs j = s.procs j)

include moved others

theorem hasCreated_answer (j : ι) : HasCreated path (s'.procs j) ↔
    HasCreated path (s.procs j) ∨ j = i ∧ (⟨c, r⟩ : Event Cmd Reply) = ⟨.createNew path, true⟩ := by
  rcases eq_or_ne j i with rfl | hj
  · rw [HasCreated, moved, Process.advance, List.mem_append, List.mem_singleton, eq_comm]
    simp [HasCreated]
  · rw [others j hj]
    simp [hj]

/-- What an answer adds to the file of a process is what it says was written,
as far as that is no longer in flight. -/
theorem held_answer (j : ι) (hmore : j = i →
      writtenBy path ⟨c, r⟩ ++ s'.world.inFlight i = s.world.inFlight i)
    (hrest : j ≠ i → s'.world.inFlight j = s.world.inFlight j) : held path s' j = held path s j := by
  rcases eq_or_ne j i with rfl | hj
  · have hsplit : written path ((s.procs j).history ++ [⟨c, r⟩]) =
        written path (s.procs j).history ++ writtenBy path ⟨c, r⟩ := by simp [written]
    rw [held, held, moved, Process.advance, hsplit, List.append_assoc, hmore rfl]
  · rw [held, held, others j hj, hrest hj]

/-- An answer that leaves the files as they are. -/
theorem FileAt.idle (h : FileAt d path s) (hworld : s'.world = s.world)
    (hcreate : (⟨c, r⟩ : Event Cmd Reply) ≠ ⟨.createNew path, true⟩)
    (hwrite : writtenBy path ⟨c, r⟩ = []) : FileAt d path s' := by
  refine h.same (by rw [hworld]) (fun j => ?_) fun j _ => ?_
  · rw [hasCreated_answer moved others, or_iff_left fun hboth => hcreate hboth.2]
  · refine held_answer moved others j (fun _ => ?_) fun _ => by rw [hworld]
    rw [hwrite, hworld]
    rfl

include waiting

/-- The file is created. -/
theorem FileAt.created (h : FileAt d path s) (hf : Flights s) (ho : Orderly (s.procs i))
    (he : (⟨c, r⟩ : Event Cmd Reply) = ⟨.createNew path, true⟩)
    (hnone : s.world.bytes path = none) (hworld : s'.world = { s.world with
      bytes := Function.update s.world.bytes path (some []) }) : FileAt d path s' := by
  cases h with
  | owned j owner absent holds =>
      rw [hnone] at holds
      cases holds
  | unowned nobody same =>
      refine .owned i (fun j => ?_) (same.symm.trans hnone) ?_
      · rw [hasCreated_answer moved others, or_iff_right (nobody j)]
        exact ⟨And.left, fun hj => ⟨hj, he⟩⟩
      · -- its creator has done nothing to files before
        cases he
        have hwritten : written path (s'.procs i).history = [] := by
          rw [← written_fileEvents, moved, Process.advance, fileEvents_append,
            ho.creating waiting]
          rfl
        have hidle : s.world.inFlight i = [] := by
          rcases hf i with hnil | ⟨p, bytes, k', hq, -⟩
          · exact hnil
          · rw [waiting, Prog.call.injEq] at hq
            cases hq.1
        rw [held, hwritten, hworld]
        exact (Function.update_self _ _ _).trans (congrArg some hidle.symm)

end Answer

theorem released_of_answer {i : ι} {d d' : Disk ι} {p : Path} {bytes : Bytes} {r : WriteReply}
    (h : sharedDisk.answers i d (.writeAll p bytes) r d') : d.Released i d' := by
  rcases r with - | n
  · exact h.2
  · exact h.2

/-- **Step.**  Every step keeps the file as it should be. -/
theorem FileAt.step (h : FileAt d path s) (hf : Flights s) (ho : ∀ i, Orderly (s.procs i))
    (hstep : Step sharedDisk s who s') : FileAt d path s' := by
  cases hstep with
  | @answer _ i c r k waiting world moved others =>
      cases c
      case createNew p =>
        cases r
        · exact h.idle moved others world (by simp) rfl
        obtain ⟨hnone, hworld⟩ := world
        rcases eq_or_ne p path with rfl | hp
        · exact h.created waiting moved others hf (ho i) rfl hnone hworld
        · -- another file
          refine h.same ?_ (fun j => ?_) fun j _ => ?_
          · rw [hworld]
            exact Function.update_of_ne hp.symm _ _
          · rw [hasCreated_answer moved others]
            simp [hp]
          · rw [held_answer moved others j (fun _ => by rw [hworld]; rfl)
              fun _ => by rw [hworld]]
      case writeAll p bytes =>
        have hout : s.world.inFlight i = writtenBy p ⟨.writeAll p bytes, r⟩ := by
          rcases r with - | n
          · simpa [writtenBy] using world.1
          · simpa [writtenBy] using world.1
        obtain ⟨hbytes, hdone, hrest⟩ := released_of_answer world
        refine h.same (by rw [hbytes]) (fun j => ?_) fun j hj => ?_
        · rw [hasCreated_answer moved others]
          simp
        · refine held_answer moved others j (fun hji => ?_) (hrest j)
          subst hji
          obtain rfl := (ho j).one hj ((ho j).writing waiting)
          rw [hdone, hout, List.append_nil]
      all_goals exact h.idle moved others world (by simp) rfl
  | @progress _ i c k waiting world procs =>
      cases c
      case writeAll p bytes =>
        obtain ⟨b, -, hbytes, hmore, hrest⟩ := world
        have hmine : HasCreated p (s.procs i) := (ho i).writing waiting
        rcases eq_or_ne p path with rfl | hp
        · cases h with
          | unowned nobody same => exact absurd hmine (nobody i)
          | owned j owner absent holds =>
              obtain rfl := (owner i).mp hmine
              refine .owned i (fun j => by rw [procs]; exact owner j) absent ?_
              rw [hbytes, Function.update_self, holds, held, held, hmore, procs, Option.map_some,
                List.append_assoc]
        · refine h.same ?_ (fun j => by rw [procs]) fun j hj => ?_
          · rw [hbytes]
            exact Function.update_of_ne hp.symm _ _
          · have hji : j ≠ i := by
              rintro rfl
              exact hp ((ho j).one hmine hj)
            rw [held, held, procs, hrest j hji]
      all_goals exact world.elim
  | drift world procs => exact world.elim

/-- Answers to anything but a write leave nothing in flight for the process. -/
theorem inFlight_of_answer {i : ι} {d d' : Disk ι} {c : Cmd} {r : Reply c}
    (h : sharedDisk.answers i d c r d') (hc : ∀ p bytes, c ≠ .writeAll p bytes) :
    d'.inFlight = d.inFlight := by
  cases c
  case createNew p =>
    cases r
    · exact congrArg Disk.inFlight h
    · rw [h.2]
  case writeAll p bytes => exact absurd rfl (hc p bytes)
  all_goals exact congrArg Disk.inFlight h

theorem Flights.step (hf : Flights s) (hstep : Step sharedDisk s who s') : Flights s' := by
  intro j
  cases hstep with
  | @answer _ i c r k waiting world moved others =>
      rcases eq_or_ne j i with rfl | hj
      · -- what was in flight was the write that has been answered
        left
        by_cases hc : ∃ p bytes, c = .writeAll p bytes
        · obtain ⟨p, bytes, rfl⟩ := hc
          exact (released_of_answer world).2.1
        · have hne : ∀ p bytes, c ≠ .writeAll p bytes := fun p bytes h => hc ⟨p, bytes, h⟩
          rw [inFlight_of_answer world hne]
          rcases hf j with hnil | ⟨p, bytes, k', hq, -⟩
          · exact hnil
          · rw [waiting, Prog.call.injEq] at hq
            exact absurd hq.1 (hne p bytes)
      · have hsame : s'.world.inFlight j = s.world.inFlight j := by
          by_cases hc : ∃ p bytes, c = .writeAll p bytes
          · obtain ⟨p, bytes, rfl⟩ := hc
            exact (released_of_answer world).2.2 j hj
          · rw [inFlight_of_answer world fun p bytes h => hc ⟨p, bytes, h⟩]
        rw [hsame, others j hj]
        exact hf j
  | @progress _ i c k waiting world procs =>
      rw [procs]
      cases c
      case writeAll p bytes =>
        obtain ⟨b, hnext, -, hmore, hrest⟩ := world
        rcases eq_or_ne j i with rfl | hj
        · exact .inr ⟨p, bytes, k, waiting, hmore ▸ hnext⟩
        · rw [hrest j hj]
          exact hf j
      all_goals exact world.elim
  | drift world procs => exact world.elim

/-! ### All paths -/

/-- **Files.**  Whatever the processes have come to, the file at `path` is as
`FileAt` says. -/
theorem fileAt_of_reachable {P : (i : ι) → Prog Cmd Reply (β i)} {out : ι → Option Output}
    (hwrites : ∀ i, Writes (out i) (P i)) (hs : Reachable sharedDisk P d s)
    (hidle : ∀ i, d.inFlight i = []) (path : Path) : FileAt d path s ∧ Flights s := by
  have hstart : FileAt d path (Effect.start P d) := .unowned (fun i hi => nomatch hi) rfl
  refine @Reachable.invariant _ _ _ _ _ _ _ _ _ (fun s => FileAt d path s ∧ Flights s)
    ⟨hstart, fun i => .inl (hidle i)⟩ (fun s s' who hrun inv hstep => ?_) hs
  exact ⟨inv.1.step inv.2 (fun i => (hwrites i).orderly (hrun.reaches i)) hstep,
    inv.2.step hstep⟩

variable (X) in
/-- The processes of these invocations. -/
abbrev mains (invocation : ι → Invocation) : (i : ι) → Prog Cmd Reply UInt8 :=
  fun i => main X (invocation i)

/-- **Where a file is from.**  It was there at the start, or one process has
created it and has written to it what it now holds. -/
theorem origin_of_file {invocation : ι → Invocation} {d : Disk ι}
    {s : Configuration Cmd Reply (Disk ι) fun _ : ι => UInt8}
    (hs : Reachable sharedDisk (mains X invocation) d s) (hidle : ∀ i, d.inFlight i = [])
    {path : Path} {bytes : Bytes} (hbytes : s.world.bytes path = some bytes) :
    (d.bytes path = some bytes ∧ ∀ i, ¬ HasCreated path (s.procs i)) ∨
    ∃ i o pieces, d.bytes path = none ∧ (∀ j, HasCreated path (s.procs j) ↔ j = i) ∧
      Invocation.output X (invocation i) = some o ∧ o.path = path ∧
      (pieces = [] ∨ o.pieces pieces) ∧ bytes <+: pieces.flatten ∧
      ∀ piece ∈ pieces, (s.procs i).Issued (.writeAll path piece) := by
  obtain ⟨hat, hflights⟩ := fileAt_of_reachable (fun i => main_writes X (invocation i)) hs hidle path
  cases hat with
  | unowned nobody same => exact .inl ⟨same.symm.trans hbytes, nobody⟩
  | owned i owner absent holds =>
      have hmine : HasCreated path (s.procs i) := (owner i).mpr rfl
      have hwrites := main_writes X (invocation i)
      obtain ⟨o, ho, rfl⟩ := hwrites.creates (hs.reaches i) hmine
      obtain ⟨pieces, hpieces, hprefix, hissued⟩ :=
        hwrites.document (hs.reaches i) ho hmine (hflights i)
      obtain rfl : held o.path s i = bytes := Option.some.inj (holds.symm.trans hbytes)
      exact .inr ⟨i, o, pieces, absent, owner, ho, rfl, hpieces, hprefix, hissued⟩

/-- **Any processes over one file system.**  A file that was there at the start
is still there, and never changed.  A file that was not has been created by one
process, whose output path it has, and is the beginning of a document that this
process may write, every piece of which it has issued. -/
theorem main_files {invocation : ι → Invocation} {d : Disk ι}
    {s : Configuration Cmd Reply (Disk ι) fun _ : ι => UInt8}
    (hs : Reachable sharedDisk (mains X invocation) d s) (hidle : ∀ i, d.inFlight i = [])
    (path : Path) :
    (∀ bytes, d.bytes path = some bytes → s.world.bytes path = some bytes) ∧
    ∀ bytes, s.world.bytes path = some bytes →
      (d.bytes path = some bytes ∧ ∀ i, ¬ HasCreated path (s.procs i)) ∨
      ∃ i o pieces, d.bytes path = none ∧ (∀ j, HasCreated path (s.procs j) ↔ j = i) ∧
        Invocation.output X (invocation i) = some o ∧ o.path = path ∧
        (pieces = [] ∨ o.pieces pieces) ∧ bytes <+: pieces.flatten ∧
        ∀ piece ∈ pieces, (s.procs i).Issued (.writeAll path piece) := by
  refine ⟨fun bytes hbytes => ?_, fun bytes => origin_of_file hs hidle⟩
  obtain ⟨hat, -⟩ := fileAt_of_reachable (fun i => main_writes X (invocation i)) hs hidle path
  cases hat with
  | unowned nobody same => rw [same, hbytes]
  | owned i owner absent holds =>
      rw [absent] at hbytes
      cases hbytes

/-! ### A plan that is cut short -/

namespace Sample

/-- The small planning, in the middle of its write. -/
theorem reachable_cut (n : Nat) : ∃ s : Configuration Cmd Reply (Disk Unit) fun _ : Unit => UInt8,
    Reachable sharedDisk (mains crates fun _ => planInvocation) emptyDisk s ∧
      s.world.bytes planOptions.outputPath = some ((planning "").fileBytes.take n) ∧
      HasCreated planOptions.outputPath (s.procs ()) := by
  have hall := reaches_printedPlan
  rw [printedPlan, (planning "").history_eq, List.append_assoc] at hall
  obtain ⟨q, hdraft, hafter⟩ := hall.split
  obtain ⟨k, rfl, hwrite⟩ := hafter.cons
  obtain ⟨k', hpending, -⟩ := hwrite.cons
  have h₀ : Reachable sharedDisk (mains crates fun _ : Unit => planInvocation) emptyDisk
      (Effect.start _ emptyDisk) := .refl
  have h₁ := h₀.along (i := ()) rfl hdraft fun e he =>
    Disk.answers_of_channel ((planning "").channel_of_draft he)
  have hopen : sharedDisk.answers () emptyDisk (.createNew planOptions.outputPath) true
      ⟨Function.update (fun _ => none) planOptions.outputPath (some []), fun _ => []⟩ := ⟨rfl, rfl⟩
  have h₂ := h₁.answer rfl hopen
  have h₃ := reachable_partial (i := ()) h₂ hpending (by simp) rfl n
  refine ⟨_, h₃, ?_, ?_⟩
  · simp
  · exact List.mem_append_right _ (List.mem_singleton_self _)

end Sample

/-- Half a plan: the process that has written it has issued all of it. -/
theorem main_files_cut :
    ∃ (s : Configuration Cmd Reply (Disk Unit) fun _ : Unit => UInt8) (pieces : List Bytes),
      s.world.bytes Sample.planOptions.outputPath =
        some ((Sample.planning "").fileBytes.take 1000) ∧
      (Sample.planning "").fileBytes.take 1000 <+: pieces.flatten ∧
      ∀ piece ∈ pieces, (s.procs ()).Issued (.writeAll Sample.planOptions.outputPath piece) := by
  obtain ⟨s, hs, hbytes, hcreated⟩ := Sample.reachable_cut 1000
  rcases (main_files (X := Sample.crates) hs (fun _ => rfl) _).2 _ hbytes with
    ⟨-, hnone⟩ | ⟨_, _, pieces, -, -, -, -, -, hprefix, hissued⟩
  · exact absurd hcreated (hnone ())
  · exact ⟨s, pieces, hbytes, hprefix, hissued⟩

end DmlPact
