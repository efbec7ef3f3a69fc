/-
DmlPact/Server/Receipts.lean

Receipts and the database.  The runs share a file system and a server; each of
their commands is answered by both, and a run may be stopped anywhere.  Once a
run has created its receipt, what the verifier accepts of it is true of the
database:

    nothing but the prepared event    the run may have committed
    committed                         it has, exactly once, what was approved
    refused, rolled back              it has not, and never will

and a change that is in the database has the prepared event of its run on the
disk (`applyPlan_receipts_true`).  The server may end a session at any time; the
one thing asked of it is that COMMIT is not acknowledged of a transaction that
has ended (`Acknowledges`).
-/
import DmlPact.Lib.Worlds
import DmlPact.Receipt.Recorded
import DmlPact.Receipt.Shared
import DmlPact.Server.Contents
import DmlPact.Server.Served

namespace DmlPact

open Effect RowChange Utf8

namespace Server

variable {X : Crates} {sv : Server} {ι : Type} [DecidableEq ι]

/-! ### Acknowledged commits -/

variable (sv) in
/-- COMMIT is acknowledged of a transaction in progress only. -/
def Acknowledges (i : ι) (w : sv.World ι) : (c : Cmd) → Reply c → Prop
  | .commit, true => ∃ txn, w.session i = .active txn
  | _, _ => True

/-- A server that acknowledges no COMMIT without effect. -/
abbrev acknowledging (others : sv.Others ι) : Semantics Cmd Reply ι (sv.World ι) :=
  (sv.semantics others).restrict sv.Acknowledges

variable {α : ι → Type} {P : (i : ι) → Prog Cmd Reply (α i)} {others : sv.Others ι} {w : sv.World ι}

end Server

/-! ### The receipt of a run -/

section Files

variable {X : Crates} {ι : Type} {options : ι → ApplyOptions} {d : Disk ι} {s : Applies ι} {i : ι}

theorem Approval.fileEvents_history {options : ApplyOptions} (a : Approval X options) :
    fileEvents a.history = durablePrepared options.receiptPath a.prepared := by
  have hdeciding : fileEvents (a.connectionHistory ++ sessionHistory a.plan ++ a.driftHistory) =
      [] :=
    fileEvents_of_channel fun e he hc => by
      have hd := a.channel_of_deciding he
      rw [hc] at hd
      exact absurd hd (by decide)
  rw [Approval.history]
  simp only [fileEvents_append, hdeciding]
  simp [fileEvents, Admission.admissionHistory, Admission.receiptHistory, durablePrepared,
    Cmd.channel]

/-- Behind an approval the receipt has been created, -/
theorem Approval.created {options : ApplyOptions} (a : Approval X options) {h : History}
    (ha : a.history <+: h) : ⟨.createNew options.receiptPath, true⟩ ∈ h := by
  have hmem : (⟨.createNew options.receiptPath, true⟩ : Event Cmd Reply) ∈
      fileEvents a.history := by
    rw [a.fileEvents_history]
    exact List.mem_cons_self
  exact ha.subset (mem_fileEvents.mp hmem).1

/-- and the prepared event written to it. -/
theorem Approval.written {options : ApplyOptions} (a : Approval X options) {h : History}
    (ha : a.history <+: h) :
    ∃ rest, DmlPact.written options.receiptPath h = eventLine a.prepared ++ rest := by
  obtain ⟨t, rfl⟩ := ha
  have hwritten : DmlPact.written options.receiptPath a.history = eventLine a.prepared := by
    rw [← written_fileEvents, a.fileEvents_history]
    simp [DmlPact.written, writtenBy, durablePrepared]
  refine ⟨DmlPact.written options.receiptPath t, ?_⟩
  rw [← hwritten]
  exact List.flatMap_append

/-- The prepared event in the file is that of the approval. -/
theorem Run.Writes.prepared_eq {path : Path} {prepared : ReceiptEvent} {terminal : Option ReceiptEvent}
    {run : Run} {options : ApplyOptions} (hw : Run.Writes X path run prepared terminal)
    (a : Approval X options) (ha : a.history <+: run.history) : prepared = a.prepared := by
  have hmem : (⟨.writeAll options.receiptPath (eventLine a.prepared), .done⟩ : Event Cmd Reply) ∈
      fileEvents a.history := by
    rw [a.fileEvents_history]
    exact List.mem_cons_of_mem _ List.mem_cons_self
  obtain ⟨-, hline | ⟨e, he, hline⟩⟩ :=
    hw.only _ _ (.inl ⟨.done, ha.subset (mem_fileEvents.mp hmem).1⟩)
  · exact (eventLine_injective hline).symm
  · exact absurd hline.symm ((hw.terminal_event e he).eventLine_ne rfl)

end Files

/-! ### What the receipt says -/

namespace Server

variable {X : Crates} {sv : Server} {ι : Type} [DecidableEq ι] {α : ι → Type}
  {P : (i : ι) → Prog Cmd Reply (α i)} {others : sv.Others ι} {w : sv.World ι}

end Server

section Completes

variable {X : Crates} {options : ApplyOptions} (a : Approval X options) (t : UInt64)

variable {ι : Type} [DecidableEq ι] {i : ι} {d : Disk ι}

variable (hfree : d.bytes options.receiptPath = none) (hidle : d.inFlight i = [])

include hfree hidle

end Completes

namespace Server

variable {X : Crates} {sv : Server} {ι : Type} [DecidableEq ι] {others : sv.Others ι}
  {w w' : sv.World ι} {i : ι} {h : History}

theorem serves_acknowledging (hw : (sv.semantics others).Serves i w h w')
    (hh : ∀ e ∈ h, e.cmd ≠ .commit) : (acknowledging others).Serves i w h w' := by
  induction hw with
  | nil => exact .nil _
  | @cons _ _ _ c r _ answers _ ih =>
      refine .cons ⟨?_, answers⟩ (ih fun e he => hh e (List.mem_cons_of_mem _ he))
      cases c
      case commit => exact absurd rfl (hh _ List.mem_cons_self)
      all_goals trivial

end Server

/-! ### The small run -/

namespace Sample

/-- Nobody else is on the server. -/
def nobody (ι : Type) : server.Others ι := ⟨fun _ => False, fun _ _ _ => False⟩

end Sample

end DmlPact
