/-
DmlPact/Process/Writer.lean

What one process does to the file system, whichever command it is.  It has at
most one path to write to, and what it may write there are the pieces of one
document, one after the other:

    create      piece, sync      piece, sync   ...
    ^ once      ^ only if everything before it was synced

`MayFollow` says which file command may come next, `Filed` lists what the file
commands so far can be, and `main_writes` shows that every process keeps to it:
planning with the one piece of a sealed plan, applying with the two lines of a
receipt, and everything else with no file at all.
-/
import DmlPact.Plan.Created
import DmlPact.Process.Commands
import DmlPact.Receipt.Protocol

namespace DmlPact

open Effect Utf8

variable (X : Crates) {h : History}

/-! ### Documents -/

/-- Where a process may write, and which pieces it may have written. -/
structure Output where
  path : Path
  pieces : List Bytes → Prop

/-- The bytes of a plan file. -/
def planFile (plan : Plan) : Bytes := toVecPretty (Plan.codec.ser plan) ++ asBytes "\n"

/-- A plan with its hash filled in. -/
def IsSealed (plan : Plan) : Prop := ∃ draft : Plan, plan = draft.sealedBy X

def planOutput (path : Path) : Output where
  path := path
  pieces ps := ∃ plan, IsSealed X plan ∧ ps = [planFile plan]

def receiptOutput (path : Path) : Output where
  path := path
  pieces ps := ∃ prepared, IsPrepared X prepared ∧ (ps = [eventLine prepared] ∨
    ∃ terminal, IsTerminal X prepared terminal ∧ ps = [eventLine prepared, eventLine terminal])

def Invocation.output : Invocation → Option Output
  | .command (.plan _ out _ _ _ _ _ _ _) => some (planOutput X out)
  | .command (.apply _ _ receipt _) => some (receiptOutput X receipt)
  | _ => none

/-! ### The protocol -/

/-- The file commands up to a file that holds `pieces`, all of them synced. -/
def durable (path : Path) (pieces : List Bytes) : History :=
  ⟨.createNew path, true⟩ ::
    pieces.flatMap fun bytes => [⟨.writeAll path bytes, .done⟩, ⟨.syncAll path, true⟩]

theorem durable_concat (path : Path) (pieces : List Bytes) (bytes : Bytes) :
    durable path (pieces ++ [bytes]) =
      durable path pieces ++ [⟨.writeAll path bytes, .done⟩, ⟨.syncAll path, true⟩] := by
  simp [durable]

theorem written_durable (path : Path) (pieces : List Bytes) :
    written path (durable path pieces) = pieces.flatten := by
  induction pieces using List.reverseRecOn with
  | nil => rfl
  | append_singleton pieces bytes ih =>
      rw [durable_concat, List.flatten_append, ← ih]
      simp [written, writtenBy]

/-- The commands that may follow the file commands `f`. -/
def MayFollow (out : Option Output) (f : History) : Cmd → Prop
  | .createNew p => ∃ o ∈ out, p = o.path ∧ f = []
  | .writeAll p bytes => ∃ o ∈ out, p = o.path ∧
      ∃ pieces, o.pieces (pieces ++ [bytes]) ∧ f = durable p pieces
  | .syncAll p => ∃ o ∈ out, p = o.path ∧
      ∃ pieces bytes, o.pieces (pieces ++ [bytes]) ∧
        f = durable p pieces ++ [⟨.writeAll p bytes, .done⟩]
  | _ => True

theorem mayFollow_of_channel {out : Option Output} {f : History} {c : Cmd}
    (hc : c.channel ≠ .write) : MayFollow out f c := by
  cases c
  case createNew => exact absurd rfl hc
  case writeAll => exact absurd rfl hc
  case syncAll => exact absurd rfl hc
  all_goals trivial

/-- What the file commands of a process can be. -/
inductive Filed (out : Option Output) : History → Prop
  | untouched : Filed out []
  | refused {o} (ho : o ∈ out) : Filed out [⟨.createNew o.path, false⟩]
  | created {o} (ho : o ∈ out) : Filed out (durable o.path [])
  | written {o pieces bytes} (ho : o ∈ out) (hp : o.pieces (pieces ++ [bytes])) (r : WriteReply) :
      Filed out (durable o.path pieces ++ [⟨.writeAll o.path bytes, r⟩])
  | synced {o pieces bytes} (ho : o ∈ out) (hp : o.pieces (pieces ++ [bytes])) (done : Bool) :
      Filed out (durable o.path pieces ++
        [⟨.writeAll o.path bytes, .done⟩, ⟨.syncAll o.path, done⟩])

/-- A command that may follow leads to one of the listed histories. -/
theorem Filed.step {out : Option Output} {f : History} {c : Cmd} (hc : c.channel = .write)
    (hnext : MayFollow out f c) (r : Reply c) : Filed out (f ++ [⟨c, r⟩]) := by
  cases c
  case createNew p =>
    obtain ⟨o, ho, rfl, rfl⟩ := hnext
    cases r
    · exact .refused ho
    · exact .created ho
  case writeAll p bytes =>
    obtain ⟨o, ho, rfl, pieces, hpieces, rfl⟩ := hnext
    exact .written ho hpieces r
  case syncAll p =>
    obtain ⟨o, ho, rfl, pieces, bytes, hpieces, rfl⟩ := hnext
    rw [List.append_assoc]
    exact .synced ho hpieces r
  all_goals cases hc

/-- Every command of a process is one that may come next. -/
def Writes {α : Type} (out : Option Output) (p : Prog Cmd Reply α) : Prop :=
  wp (fun h c => MayFollow out (fileEvents h) c) (fun _ _ => True) p []

namespace Writes

variable {α : Type} {out : Option Output} {p q : Prog Cmd Reply α}

/-- **Histories.**  At any moment the file commands of the process are as
listed, and the command it waits on may come next. -/
theorem reaches (hp : Writes out p) (hr : Reaches p h q) :
    Filed out (fileEvents h) ∧
      ∀ c k, q = .call c k → MayFollow out (fileEvents h) c := by
  refine ⟨?_, ?_⟩
  · refine wp_trace hp (I := fun h => Filed out (fileEvents h)) .untouched
      (fun h c r hfiled hnext => ?_) hr
    rw [fileEvents_append]
    by_cases hc : c.channel = .write
    · have hevent : fileEvents [(⟨c, r⟩ : Event Cmd Reply)] = [⟨c, r⟩] := by
        simp [fileEvents, hc]
      rw [hevent]
      exact Filed.step hc hnext r
    · have hevent : fileEvents [(⟨c, r⟩ : Event Cmd Reply)] = [] :=
        fileEvents_of_channel fun e he => by rwa [List.mem_singleton.mp he]
      rw [hevent, List.append_nil]
      exact hfiled
  · rintro c k rfl
    exact (wp_iff.mp hp).1 h c k hr

end Writes

/-! ### Processes keep to it -/

section Rules

variable {α β ε : Type} {out : Option Output}

/-- A part that touches no file may come anywhere. -/
theorem wp_of_uses {cs : List Channel} {p : Prog Cmd Reply α} {Q : History → α → Prop}
    (hp : Uses cs p) (hcs : Channel.write ∉ cs)
    (hQ : ∀ t a, fileEvents (h ++ t) = fileEvents h → Reaches p t (.ret a) → Q (h ++ t) a) :
    wp (fun h c => MayFollow out (fileEvents h) c) Q p h := by
  refine wp_of_within hp (fun t c _ hc => ?_) fun t a ht hr => hQ t a ?_ hr
  · exact mayFollow_of_channel fun hw => hcs (hw ▸ hc)
  · have hnil : fileEvents t = [] := fileEvents_of_channel fun e he hw => hcs (hw ▸ ht e he)
    rw [fileEvents_append, hnil, List.append_nil]

theorem writes_of_uses {cs : List Channel} {p : Prog Cmd Reply α} (hp : Uses cs p)
    (hcs : Channel.write ∉ cs) : Writes out p := wp_of_uses hp hcs fun _ _ _ _ => trivial

/-- A command that computes its result, and then a part that touches no file. -/
theorem Writes.bind {p : Prog Cmd Reply α} {f : α → Prog Cmd Reply β} {cs : List Channel}
    (hp : Writes out p) (hf : ∀ a, Uses cs (f a)) (hcs : Channel.write ∉ cs) :
    Writes out (p >>= f) :=
  wp_bind.mpr (wp_mono hp (fun _ _ hg => hg) fun _ a _ =>
    wp_of_uses (hf a) hcs fun _ _ _ _ => trivial)

end Rules

theorem writePlanNew_writes {out : Path} {plan : Plan} (hplan : IsSealed X plan)
    (hh : fileEvents h = []) :
    wp (fun h c => MayFollow (some (planOutput X out)) (fileEvents h) c) (fun _ _ => True)
      (writePlanNew X out plan).run h := by
  have hpiece : (planOutput X out).pieces ([] ++ [planFile plan]) := ⟨plan, hplan, rfl⟩
  unfold writePlanNew
  rw [run_bind, run_ofResult, Prog.ret_bind]
  rcases verifiedPlanSha256 X plan with e | hash
  · trivial
  rw [onOk_ok, request_bind, wp_call]
  refine ⟨⟨_, rfl, rfl, hh⟩, fun created => ?_⟩
  cases created
  · trivial
  have hcreated : fileEvents (h ++ [⟨.createNew out, true⟩]) = durable out [] := by
    rw [fileEvents_append, hh]
    rfl
  refine wp_run_bind ?_
  unfold writeDurably
  rw [request_bind, wp_call]
  refine ⟨⟨_, rfl, rfl, [], hpiece, hcreated⟩, fun reply => ?_⟩
  rcases reply with - | n
  · dsimp only
    rw [run_request, Prog.ask_bind, wp_call]
    refine ⟨⟨_, rfl, rfl, [], _, hpiece, ?_⟩, fun synced => ?_⟩
    · rw [fileEvents_append, hcreated]
      rfl
    · rintro _ ⟨⟩
      cases synced <;> trivial
  · rintro _ ⟨⟩
    trivial

theorem createPlan_writes {options : PlanOptions} {out : Path} (hout : options.outputPath = out) :
    Writes (some (planOutput X out)) (createPlan X options).run := by
  subst hout
  unfold Writes
  rw [createPlan_eq]
  refine wp_run_bind ?_
  rintro - -
  split_ifs
  · trivial
  refine wp_run_bind (wp_of_uses (readAndAnalyze_uses X _) (by decide) ?_)
  rintro h₁ r hh₁ - analyzed rfl
  refine wp_run_bind (wp_of_uses (connectDatabase_uses X _ _) (by decide) ?_)
  rintro h₂ r hh₂ - database rfl
  refine wp_run_bind (wp_of_uses (planSession_uses X _ _ _) (by decide) ?_)
  rintro h₃ r hh₃ - observed rfl
  unfold publishPlan
  refine wp_run_bind (wp_of_uses unixMs_uses (by decide) ?_)
  rintro h₄ r hh₄ - createdAt rfl
  split_ifs
  · trivial
  rw [run_bind, run_ofResult, sealPlan_eq, Prog.ret_bind, onOk_ok]
  have hnone : fileEvents ([] ++ h₁ ++ h₂ ++ h₃ ++ h₄) = [] := by rw [hh₄, hh₃, hh₂, hh₁]; rfl
  refine wp_run_bind (wp_mono (writePlanNew_writes X ⟨_, rfl⟩ hnone) (fun _ _ hg => hg) ?_)
  rintro _ _ - - -
  trivial

/-- What may follow in the protocol of a receipt may follow here. -/
theorem mayFollow_of_protocol {path : Path} {f : History} {c : Cmd} (hc : Protocol X path f c) :
    MayFollow (some (receiptOutput X path)) f c := by
  cases c
  case createNew p => exact ⟨_, rfl, hc⟩
  case writeAll p bytes =>
    obtain ⟨rfl, prepared, hp, ⟨rfl, rfl⟩ | ⟨rfl, terminal, ht, rfl⟩⟩ := hc
    · exact ⟨_, rfl, rfl, [], ⟨prepared, hp, .inl rfl⟩, rfl⟩
    · exact ⟨_, rfl, rfl, [_], ⟨prepared, hp, .inr ⟨terminal, ht, rfl⟩⟩, rfl⟩
  case syncAll p =>
    obtain ⟨rfl, prepared, hp, rfl | ⟨terminal, ht, rfl⟩⟩ := hc
    · exact ⟨_, rfl, rfl, [], _, ⟨prepared, hp, .inl rfl⟩, rfl⟩
    · exact ⟨_, rfl, rfl, [_], _, ⟨prepared, hp, .inr ⟨terminal, ht, rfl⟩⟩, rfl⟩
  all_goals trivial

theorem applyPlan_writes (options : ApplyOptions) :
    Writes (some (receiptOutput X options.receiptPath)) (applyPlan X options).run :=
  wp_mono (applyPlan_allowed X options) (fun _ _ => mayFollow_of_protocol X) fun _ _ h => h

/-- Emitting a result, after it has been computed, touches no file. -/
theorem emit_writes {α : Type} {out : Option Output} {x : App α} (hx : Writes out x.run)
    (value : α → Json.Value) (code : α → UInt8) : Writes out (do
      let a ← x
      emitJson (value a)
      return code a : App UInt8).run := by
  refine wp_run_bind (wp_mono hx (fun _ _ hg => hg) ?_)
  rintro h r - a rfl
  have hemit : Uses [.output] (emitJson (value a) >>= fun _ => pure (code a) : App UInt8).run :=
    .bind (emitJson_uses _) fun _ => .pure _
  exact wp_of_uses hemit (by decide) fun _ _ _ _ => trivial

theorem run_writes (command : Command) :
    Writes (Invocation.output X (.command command)) (run X command).run := by
  cases command with
  | lint sql => exact emit_writes (writes_of_uses (lintSql_uses X _) (by decide)) _ _
  | inspect table database =>
      refine emit_writes ?_ _ _
      rw [inspectTable_eq]
      have hinspect : Uses [.environment, .connect, .query] (connectDatabase X
          database.environmentName database.allowInsecureLocalhost >>= inspectSession X table).run :=
        .bind ((connectDatabase_uses X _ _).mono (by decide)) fun _ =>
          (inspectSession_uses X _ _).mono (by decide)
      exact writes_of_uses hinspect (by decide)
  | plan sql out maxRows statementTimeout lockTimeout validFor allowTriggers allowRowSecurity
      database =>
      have hresult {α : Type} {r : AppResult α} {f : α → App UInt8}
          (hf : ∀ a, Writes (some (planOutput X out)) (f a).run) :
          Writes (some (planOutput X out)) (ofResult r >>= f).run := by
        refine wp_run_bind ?_
        rintro a -
        exact hf a
      refine hresult fun _ => hresult fun _ => hresult fun _ => ?_
      refine emit_writes ?_ _ _
      exact createPlan_writes X rfl
  | apply sql plan receipt database => exact emit_writes (applyPlan_writes X _) _ _
  | receiptVerify receipt =>
      exact emit_writes (writes_of_uses (verifyReceipt_uses X _) (by decide)) _ _
  | schema | capabilities | contract =>
      exact writes_of_uses (.bind (emitJson_uses _) fun _ => .pure _) (by decide)
  | completions script =>
      have hprint : Uses [.output] (ExceptT.lift (printOrPanic script) : App Unit).run :=
        Within.bind (printOrPanic_uses script) fun _ => within_ret _
      exact writes_of_uses (.bind hprint fun _ => .pure _) (by decide)

/-- **Files.**  Every process keeps to the protocol of what it may write. -/
theorem main_writes (invocation : Invocation) :
    Writes (Invocation.output X invocation) (main X invocation) := by
  cases invocation with
  | display text =>
      exact writes_of_uses (Within.bind (printOrPanic_uses text) fun _ => within_ret _) (by decide)
  | invalid => exact writes_of_uses (exitWith_uses _) (by decide)
  | command command =>
      rw [main_command]
      exact (run_writes X command).bind concluded_uses (by decide)

end DmlPact
