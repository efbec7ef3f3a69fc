/-
DmlPact/Process/Outputs.lean

What a process leaves on standard output and standard error, and its exit
status.

    a document    stdout: the indented document and a line break, stderr: nothing
    a text        stdout: the text, stderr: nothing, status 0
    an error      stdout: nothing, stderr: the compact error document and a line
                  break, the status that of its class

A command is its work followed by printing (`run_eq`), and work writes to neither
stream, so the three cases are those of what the work returned.  A document is
read back from the stream as the value that was printed (`readDocument`).  If
standard output refuses a write, the result is lost and that is the error.
-/
import DmlPact.Apply.Exit
import DmlPact.Lib.JsonPretty
import DmlPact.Process.Session

namespace DmlPact

open Effect Utf8

variable (X : Crates) {h : History}

/-! ### Working and printing -/

/-- What the work of a command leaves to be printed. -/
inductive Printout where
  | document (value : Json.Value) (status : UInt8)
  | script (bytes : Bytes)

/-- A command without its printing. -/
def work : Command → App Printout
  | .lint sql => do
      let report ← lintSql X sql
      return .document report.ser 0
  | .inspect table database => do
      let report ← inspectTable X table database
      return .document report.ser 0
  | .plan sql out maxRows statementTimeout lockTimeout validFor allowTriggers
      allowRowSecurity database => do
      let statementTimeoutMs ← ofResult (durationMs statementTimeout)
      let lockTimeoutMs ← ofResult (durationMs lockTimeout)
      let lifetimeMs ← ofResult (durationMs validFor)
      let plan ← createPlan X {
        sqlPath := sql, outputPath := out, database
        limits := { maxRows, statementTimeoutMs, lockTimeoutMs }
        lifetimeMs, allowTriggers, allowRowSecurity }
      return .document (Plan.codec.ser plan) 0
  | .apply sql plan receipt database => do
      let result ← applyPlan X {
        sqlPath := sql, planPath := plan, receiptPath := receipt, database }
      return .document result.ser (applyExitCode result)
  | .receiptVerify receipt => do
      let verification ← verifyReceipt X receipt
      return .document verification.ser 0
  | .schema document => return .document (X.schemaFor document) 0
  | .capabilities => return .document capabilities.ser 0
  | .contract => return .document contractBrief.ser 0
  | .completions script => return .script script

def Printout.emit : Printout → App UInt8
  | .document value status => do
      emitJson value
      return status
  | .script bytes => do
      ExceptT.lift (printOrPanic bytes)
      return 0

theorem run_eq (command : Command) : run X command = work X command >>= Printout.emit := by
  cases command <;> simp only [run, work, bind_assoc, pure_bind, Printout.emit, emitSchema]

/-- The channels of a command's work. -/
def workChannels : List Channel :=
  [.read, .write, .clock, .environment, .connect, .start, .batch, .query, .execute, .finish]

/-- Work on some of its channels, and what it leaves to print. -/
theorem uses_leaving {α : Type} {cs : List Channel} {x : App α} (hx : Uses cs x.run)
    (hcs : cs ⊆ workChannels) (leave : α → Printout) :
    Uses workChannels (do let a ← x; return leave a : App Printout).run :=
  .bind (hx.mono hcs) fun _ => .pure _

theorem createPlan_uses (options : PlanOptions) :
    Uses [.read, .environment, .connect, .start, .batch, .query, .finish, .clock, .write]
      (createPlan X options).run := by
  rw [createPlan_eq]
  refine .bind (.ofResult _) fun _ => .ite (.throw _) ?_
  refine .bind ((readAndAnalyze_uses X _).mono (by decide)) fun analyzed => ?_
  refine .bind ((connectDatabase_uses X _ _).mono (by decide)) fun database => ?_
  refine .bind ((planSession_uses X _ _ _).mono (by decide)) fun observed => ?_
  exact (publishPlan_uses X _ _).mono (by decide)

theorem inspectTable_uses (requestedTable : String) (options : DatabaseOptions) :
    Uses [.environment, .connect, .query] (inspectTable X requestedTable options).run := by
  rw [inspectTable_eq]
  exact .bind ((connectDatabase_uses X _ _).mono (by decide)) fun _ =>
    (inspectSession_uses X _ _).mono (by decide)

theorem work_uses (command : Command) : Uses workChannels (work X command).run := by
  cases command with
  | lint sql => exact uses_leaving (lintSql_uses X sql) (by decide) _
  | inspect table database => exact uses_leaving (inspectTable_uses X _ _) (by decide) _
  | plan sql out maxRows statementTimeout lockTimeout validFor allowTriggers allowRowSecurity
      database =>
      refine .bind (.ofResult _) fun _ => .bind (.ofResult _) fun _ => .bind (.ofResult _) fun _ => ?_
      exact uses_leaving (createPlan_uses X _) (by decide) _
  | apply sql plan receipt database => exact uses_leaving (applyPlan_uses X _) (by decide) _
  | receiptVerify receipt => exact uses_leaving (verifyReceipt_uses X receipt) (by decide) _
  | schema document => exact .pure _
  | capabilities => exact .pure _
  | contract => exact .pure _
  | completions script => exact .pure _

theorem quiet_of_work {command : Command} {q : Prog Cmd Reply (Except AppError Printout)}
    (hr : Reaches (work X command).run h q) : ∀ e ∈ h, e.cmd.channel ≠ .output := by
  intro e he hout
  have huses := Within.events (work_uses X command) hr e he
  rw [hout] at huses
  exact absurd huses (by decide)

/-! ### Documents that can be read back -/

theorem LintReport.exact_ser (r : LintReport) : r.ser.exact :=
  ⟨trivial, trivial, StatementKind.codec.exact_ser _, trivial, trivial, trivial, trivial,
    Codec.string.exact_serOption _, Codec.string.exact_serOption _,
    Codec.string.exactItems_map _, trivial, trivial⟩

theorem InspectReport.exact_ser (r : InspectReport) : r.ser.exact :=
  ⟨trivial, trivial, DatabaseIdentity.codec.exact_ser _, trivial, TableEvidence.codec.exact_ser _,
    TransportPolicy.codec.exact_ser _, trivial⟩

theorem ApplyResult.exact_ser (r : ApplyResult) : r.ser.exact :=
  ⟨trivial, trivial, ReceiptState.codec.exact_ser _, trivial, Codec.u64.exact_serOption _,
    trivial, trivial, trivial⟩

theorem ReceiptVerification.exact_ser (r : ReceiptVerification) : r.ser.exact :=
  ⟨trivial, trivial, trivial, trivial, trivial, ReceiptState.codec.exact_ser _, trivial, trivial,
    trivial⟩

theorem Capabilities.exact_ser (c : Capabilities) : c.ser.exact :=
  ⟨trivial, trivial, trivial, (Codec.list .string).exact_ser _, (Codec.list .string).exact_ser _,
    (Codec.map .string).exact_ser _, (Codec.list .string).exact_ser _,
    (Codec.list .string).exact_ser _, trivial⟩

theorem ContractBrief.exact_ser (c : ContractBrief) : c.ser.exact :=
  ⟨trivial, trivial, (Codec.list .string).exact_ser _, (Codec.list .string).exact_ser _,
    (Codec.map .string).exact_ser _, (Codec.map .string).exact_ser _,
    (Codec.map .string).exact_ser _, trivial⟩

theorem ErrorDocument.exact_ser (d : ErrorDocument) : d.ser.exact :=
  ⟨trivial, trivial, trivial, trivial, trivial⟩

theorem leaving_ok {α : Type} {x : App α} {leave : α → Printout} {printout : Printout}
    (hr : Reaches (do let a ← x; return leave a : App Printout).run h (.ret (.ok printout))) :
    ∃ a, printout = leave a := by
  obtain ⟨_, _, a, -, -, hleave⟩ := Reaches.run_bind_ok_iff.mp hr
  exact ⟨a, (ok_pure.mp hleave).2⟩

/-- There is no float in what is printed, if there is none in a schema. -/
theorem work_exact {command : Command}
    (hschema : ∀ document, command = .schema document → (X.schemaFor document).exact)
    {value : Json.Value} {status : UInt8}
    (hr : Reaches (work X command).run h (.ret (.ok (.document value status)))) : value.exact := by
  cases command with
  | lint sql =>
      obtain ⟨report, ⟨⟩⟩ := leaving_ok hr
      exact report.exact_ser
  | inspect table database =>
      obtain ⟨report, ⟨⟩⟩ := leaving_ok hr
      exact report.exact_ser
  | plan sql out maxRows statementTimeout lockTimeout validFor allowTriggers allowRowSecurity
      database =>
      obtain ⟨_, -, hr⟩ := ok_ofResult.mp hr
      obtain ⟨_, -, hr⟩ := ok_ofResult.mp hr
      obtain ⟨_, -, hr⟩ := ok_ofResult.mp hr
      obtain ⟨plan, ⟨⟩⟩ := leaving_ok hr
      exact Plan.codec.exact_ser plan
  | apply sql plan receipt database =>
      obtain ⟨result, ⟨⟩⟩ := leaving_ok hr
      exact result.exact_ser
  | receiptVerify receipt =>
      obtain ⟨verification, ⟨⟩⟩ := leaving_ok hr
      exact verification.exact_ser
  | schema document =>
      cases (ok_pure.mp hr).2
      exact hschema document rfl
  | capabilities =>
      cases (ok_pure.mp hr).2
      exact capabilities.exact_ser
  | contract =>
      cases (ok_pure.mp hr).2
      exact contractBrief.exact_ser
  | completions script => cases (ok_pure.mp hr).2

/-- What a reader finds under a name. -/
def member (name : String) : Json.Value → Option Json.Value
  | .obj members => members.lookup name
  | _ => none

/-- The status that goes with a state. -/
def stateStatus : Option Json.Value → UInt8
  | some (.str "uncertain") => 5
  | _ => 0

/-- The status that goes with a printed document: that of an apply says in its
`state` whether the outcome is known. -/
def documentStatus : Command → Json.Value → UInt8
  | .apply _ _ _ _, value => stateStatus (member "state" value)
  | _, _ => 0

theorem member_state (result : ApplyResult) :
    member "state" result.ser = some (ReceiptState.codec.ser result.state) := by
  simp [member, ApplyResult.ser, List.lookup_cons]

theorem work_status {command : Command} {value : Json.Value} {status : UInt8}
    (hr : Reaches (work X command).run h (.ret (.ok (.document value status)))) :
    status = documentStatus command value := by
  cases command with
  | apply sql plan receipt database =>
      obtain ⟨result, ⟨⟩⟩ := leaving_ok hr
      show _ = stateStatus (member "state" result.ser)
      rw [member_state, applyExitCode]
      cases result.state <;> rfl
  | plan sql out maxRows statementTimeout lockTimeout validFor allowTriggers allowRowSecurity
      database =>
      obtain ⟨_, -, hr⟩ := ok_ofResult.mp hr
      obtain ⟨_, -, hr⟩ := ok_ofResult.mp hr
      obtain ⟨_, -, hr⟩ := ok_ofResult.mp hr
      obtain ⟨plan, ⟨⟩⟩ := leaving_ok hr
      rfl
  | schema | capabilities | contract =>
      cases (ok_pure.mp hr).2
      rfl
  | completions script => cases (ok_pure.mp hr).2
  | _ =>
      obtain ⟨_, ⟨⟩⟩ := leaving_ok hr
      rfl

/-- Only the completions are no document. -/
theorem work_script {command : Command} {bytes : Bytes}
    (hr : Reaches (work X command).run h (.ret (.ok (.script bytes)))) :
    command = .completions bytes := by
  cases command with
  | plan sql out maxRows statementTimeout lockTimeout validFor allowTriggers allowRowSecurity
      database =>
      obtain ⟨_, -, hr⟩ := ok_ofResult.mp hr
      obtain ⟨_, -, hr⟩ := ok_ofResult.mp hr
      obtain ⟨_, -, hr⟩ := ok_ofResult.mp hr
      obtain ⟨plan, ⟨⟩⟩ := leaving_ok hr
  | schema | capabilities | contract => cases (ok_pure.mp hr).2
  | completions script =>
      cases (ok_pure.mp hr).2
      rfl
  | _ => obtain ⟨_, ⟨⟩⟩ := leaving_ok hr

/-! ### The two streams -/

/-- What an event puts on standard output. -/
def stdoutPiece : Event Cmd Reply → Bytes
  | ⟨.stdout bytes, true⟩ => bytes
  | _ => []

/-- What an event puts on standard error. -/
def stderrPiece : Event Cmd Reply → Bytes
  | ⟨.stderr bytes, true⟩ => bytes
  | _ => []

/-- All that standard output has taken. -/
def stdoutBytes (h : History) : Bytes := h.flatMap stdoutPiece

/-- All that standard error has taken. -/
def stderrBytes (h : History) : Bytes := h.flatMap stderrPiece

/-- A write to standard error failed. -/
def StderrFailed (h : History) : Prop := ∃ bytes, ⟨.stderr bytes, false⟩ ∈ h

theorem stdoutBytes_append (h t : History) :
    stdoutBytes (h ++ t) = stdoutBytes h ++ stdoutBytes t := List.flatMap_append

theorem stderrBytes_append (h t : History) :
    stderrBytes (h ++ t) = stderrBytes h ++ stderrBytes t := List.flatMap_append

/-- Nothing but output goes to the streams. -/
theorem streams_of_channel (hh : ∀ e ∈ h, e.cmd.channel ≠ .output) :
    stdoutBytes h = [] ∧ stderrBytes h = [] := by
  refine ⟨List.flatMap_eq_nil_iff.mpr fun e he => ?_, List.flatMap_eq_nil_iff.mpr fun e he => ?_⟩
  · obtain ⟨c, r⟩ := e
    cases c
    case stdout => exact absurd rfl (hh _ he)
    all_goals rfl
  · obtain ⟨c, r⟩ := e
    cases c
    case stderr => exact absurd rfl (hh _ he)
    all_goals rfl

/-! ### Lines -/

/-- A document as it is printed. -/
def documentText (value : Json.Value) : Bytes := toVecPretty value ++ asBytes "\n"

/-- An error as it is reported. -/
def errorLine (error : AppError) : Bytes :=
  toVec (ErrorDocument.ofError error).ser ++ asBytes "\n"

/-- What a reader of a stream makes of it. -/
def readDocument (bytes : Bytes) : Option Json.Value := (decode bytes).bind Json.parse

theorem readDocument_documentText {value : Json.Value} (hv : value.exact) :
    readDocument (documentText value) = some value := by
  have hbytes : documentText value = encode (value.pretty 0 ++ ['\n']) := by
    rw [encode_append]
    rfl
  rw [readDocument, hbytes, decode_encode, Option.bind_some]
  exact Json.parse_pretty value hv ⟨rfl, rfl⟩ rfl

theorem readDocument_errorLine (error : AppError) :
    readDocument (errorLine error) = some (ErrorDocument.ofError error).ser := by
  have hbytes : errorLine error =
      encode ((ErrorDocument.ofError error).ser.compact ++ ['\n']) := by
    rw [encode_append]
    rfl
  rw [readDocument, hbytes, decode_encode, Option.bind_some, Json.parse,
    Json.run_compact_feed _ (ErrorDocument.exact_ser _)]
  rfl

/-! ### Printing and reporting -/

theorem emitJson_streams {value : Json.Value} {r : Except AppError Unit}
    (hr : Reaches (emitJson value).run h (.ret r)) :
    stderrBytes h = [] ∧
      ((r = .ok () ∧ stdoutBytes h = documentText value) ∨
        (r = .error stdoutWriteFailed ∧ StdoutFailed h)) := by
  unfold emitJson at hr
  rw [request_bind] at hr
  obtain ⟨shown, t, rfl, hshown⟩ := Reaches.call_ret_iff.mp hr
  cases shown
  · obtain ⟨rfl, hq⟩ := Reaches.ret_iff.mp hshown
    cases hq
    exact ⟨rfl, .inr ⟨rfl, _, List.mem_singleton_self _⟩⟩
  obtain ⟨ended, t, rfl, hended⟩ := Reaches.call_ret_iff.mp hshown
  cases ended
  · obtain ⟨rfl, hq⟩ := Reaches.ret_iff.mp hended
    cases hq
    refine ⟨rfl, .inr ⟨rfl, asBytes "\n", ?_⟩⟩
    exact List.mem_cons_of_mem _ (List.mem_singleton_self _)
  · obtain ⟨rfl, hq⟩ := Reaches.ret_iff.mp hended
    cases hq
    refine ⟨rfl, .inl ⟨rfl, ?_⟩⟩
    show toVecPretty value ++ (asBytes "\n" ++ []) = _
    rw [List.append_nil]
    rfl

/-- Standard error holds the line of an error, as far as it took it. -/
structure Reported (error : AppError) (h : History) : Prop where
  cut : stderrBytes h <+: errorLine error
  whole : ¬ StderrFailed h → stderrBytes h = errorLine error ∧
    readDocument (stderrBytes h) = some (ErrorDocument.ofError error).ser

theorem Reported.of_whole {error : AppError} (he : stderrBytes h = errorLine error) :
    Reported error h :=
  ⟨he ▸ List.prefix_rfl, fun _ => ⟨he, he ▸ readDocument_errorLine error⟩⟩

theorem Reported.of_failed {error : AppError} (hcut : stderrBytes h <+: errorLine error)
    (hfailed : StderrFailed h) : Reported error h :=
  ⟨hcut, fun hnot => absurd hfailed hnot⟩

theorem exitWith_streams {error : AppError} {status : UInt8}
    (hr : Reaches (exitWith error) h (.ret status)) :
    status = error.class_.exitCode ∧ stdoutBytes h = [] ∧ Reported error h := by
  obtain ⟨shown, t, rfl, hshown⟩ := Reaches.call_ret_iff.mp hr
  cases shown
  · obtain ⟨rfl, hq⟩ := Reaches.ret_iff.mp hshown
    cases hq
    exact ⟨rfl, rfl, .of_failed List.nil_prefix ⟨_, List.mem_singleton_self _⟩⟩
  obtain ⟨ended, t, rfl, hended⟩ := Reaches.call_ret_iff.mp hshown
  obtain ⟨rfl, hq⟩ := Reaches.ret_iff.mp hended
  cases hq
  refine ⟨rfl, by cases ended <;> rfl, ?_⟩
  cases ended
  · refine .of_failed ?_ ⟨asBytes "\n", List.mem_cons_of_mem _ (List.mem_singleton_self _)⟩
    show toVec (ErrorDocument.ofError error).ser ++ [] <+: _
    rw [List.append_nil]
    exact List.prefix_append _ _
  · refine .of_whole ?_
    show toVec (ErrorDocument.ofError error).ser ++ (asBytes "\n" ++ []) = _
    rw [List.append_nil]
    rfl

/-- Reports are about what was done last. -/
theorem Reported.behind {error : AppError} {t : History} (hr : Reported error t)
    (hbytes : stderrBytes h = []) : Reported error (h ++ t) := by
  have hall : stderrBytes (h ++ t) = stderrBytes t := by
    rw [stderrBytes_append, hbytes, List.nil_append]
  refine ⟨hall ▸ hr.cut, fun hfailed => ?_⟩
  rw [hall]
  exact hr.whole fun ⟨bytes, hb⟩ => hfailed ⟨bytes, List.mem_append_right _ hb⟩

/-! ### Processes -/

/-- An invocation fails with an error, before anything is printed. -/
def Fails (invocation : Invocation) (h : History) (error : AppError) : Prop :=
  (invocation = .invalid ∧ error = cliArgumentsInvalid) ∨
    ∃ command done, invocation = .command command ∧ done <+: h ∧
      Reaches (work X command).run done (.ret (.error error))

/-- How a process ends, and what it leaves on the two streams. -/
inductive Delivered (invocation : Invocation) (h : History) : UInt8 → Prop
  | text {bytes : Bytes}
      (invoked : invocation = .display bytes ∨ invocation = .command (.completions bytes))
      (stdout : stdoutBytes h = bytes) (stderr : stderrBytes h = []) : Delivered invocation h 0
  | document {command : Command} {done : History} {value : Json.Value}
      (invoked : invocation = .command command) (past : done <+: h)
      (worked : Reaches (work X command).run done
        (.ret (.ok (.document value (documentStatus command value)))))
      (stdout : stdoutBytes h = documentText value) (stderr : stderrBytes h = [])
      (read : readDocument (stdoutBytes h) = some value) :
      Delivered invocation h (documentStatus command value)
  | error {error : AppError} (fails : Fails X invocation h error) (stdout : stdoutBytes h = [])
      (reported : Reported error h) : Delivered invocation h error.class_.exitCode
  | lost {command : Command} {done : History} {value : Json.Value}
      (invoked : invocation = .command command) (past : done <+: h)
      (worked : Reaches (work X command).run done
        (.ret (.ok (.document value (documentStatus command value)))))
      (failed : StdoutFailed h) (reported : Reported stdoutWriteFailed h) :
      Delivered invocation h stdoutWriteFailed.class_.exitCode

theorem printOrPanic_ret {bytes : Bytes} (hr : Reaches (printOrPanic bytes) h (.ret ())) :
    h = [⟨.stdout bytes, true⟩] := by
  obtain ⟨shown, t, rfl, hshown⟩ := Reaches.call_ret_iff.mp hr
  cases shown
  · cases hshown
  · obtain ⟨rfl, -⟩ := Reaches.ret_iff.mp hshown
    rfl

theorem emit_script {bytes : Bytes} {result : Except AppError UInt8}
    (hr : Reaches (Printout.script bytes).emit.run h (.ret result)) :
    result = .ok 0 ∧ h = [⟨.stdout bytes, true⟩] := by
  obtain ⟨h₁, h₂, printed, rfl, hprint, hrest⟩ := Reaches.bind_ret_iff.mp hr
  obtain ⟨h₃, h₄, _, rfl, hpanic, hlift⟩ := Reaches.bind_ret_iff.mp hprint
  obtain ⟨rfl, hq⟩ := Reaches.ret_iff.mp hlift
  cases hq
  obtain ⟨rfl, hq⟩ := Reaches.ret_iff.mp hrest
  cases hq
  exact ⟨rfl, by simpa using printOrPanic_ret hpanic⟩

theorem emit_document {value : Json.Value} {status : UInt8} {result : Except AppError UInt8}
    (hr : Reaches (Printout.document value status).emit.run h (.ret result)) :
    stderrBytes h = [] ∧
      ((result = .ok status ∧ stdoutBytes h = documentText value) ∨
        (result = .error stdoutWriteFailed ∧ StdoutFailed h)) := by
  rcases Reaches.run_bind_ret_iff.mp hr with ⟨error, rfl, hemit⟩ | ⟨_, _, _, rfl, hemit, hdone⟩
  · obtain ⟨hstderr, ⟨⟨⟩, -⟩ | ⟨⟨⟩, hfailed⟩⟩ := emitJson_streams hemit
    exact ⟨hstderr, .inr ⟨rfl, hfailed⟩⟩
  · obtain ⟨rfl, hq⟩ := Reaches.ret_iff.mp hdone
    cases hq
    rw [List.append_nil]
    obtain ⟨hstderr, ⟨-, hstdout⟩ | ⟨⟨⟩, -⟩⟩ := emitJson_streams hemit
    exact ⟨hstderr, .inl ⟨rfl, hstdout⟩⟩

/-- What is emitted behind the work. -/
theorem delivered_of_work {command : Command}
    (hschema : ∀ document, command = .schema document → (X.schemaFor document).exact)
    {done printed t : History} {printout : Printout}
    {result : Except AppError UInt8} {status : UInt8}
    (hwork : Reaches (work X command).run done (.ret (.ok printout)))
    (hemit : Reaches printout.emit.run printed (.ret result))
    (hend : Reaches (concluded result) t (.ret status)) :
    Delivered X (.command command) (done ++ printed ++ t) status := by
  obtain ⟨hstdout, hstderr⟩ := streams_of_channel (quiet_of_work X hwork)
  have hout : stdoutBytes (done ++ printed ++ t) = stdoutBytes printed ++ stdoutBytes t := by
    rw [stdoutBytes_append, stdoutBytes_append, hstdout, List.nil_append]
  have herr : stderrBytes (done ++ printed ++ t) = stderrBytes printed ++ stderrBytes t := by
    rw [stderrBytes_append, stderrBytes_append, hstderr, List.nil_append]
  cases printout with
  | script bytes =>
      obtain ⟨rfl, rfl⟩ := emit_script hemit
      obtain ⟨rfl, hq⟩ := Reaches.ret_iff.mp hend
      cases hq
      refine .text (.inr (congrArg _ (work_script X hwork))) (hout.trans ?_) herr
      show bytes ++ [] ++ [] = bytes
      simp
  | document value code =>
      obtain rfl := work_status X hwork
      have hpast : done <+: done ++ printed ++ t := by
        rw [List.append_assoc]
        exact List.prefix_append _ _
      obtain ⟨hquiet, ⟨rfl, hshown⟩ | ⟨rfl, hfailed⟩⟩ := emit_document hemit
      · obtain ⟨rfl, hq⟩ := Reaches.ret_iff.mp hend
        cases hq
        have hwhole : stdoutBytes (done ++ printed ++ []) = documentText value :=
          hout.trans (by rw [hshown]; exact List.append_nil _)
        refine .document rfl hpast hwork hwhole (herr.trans ?_) ?_
        · rw [hquiet]
          rfl
        · rw [hwhole]
          exact readDocument_documentText (work_exact X hschema hwork)
      · obtain ⟨rfl, -, hreported⟩ := exitWith_streams hend
        refine .lost rfl hpast hwork ?_ ?_
        · obtain ⟨bytes, hb⟩ := hfailed
          exact ⟨bytes, List.mem_append_left _ (List.mem_append_right _ hb)⟩
        · refine hreported.behind ?_
          rw [stderrBytes_append, hstderr, hquiet]
          rfl

/-- What a command leaves when it has ended. -/
theorem delivered_of_command {command : Command} {status : UInt8}
    (hr : Reaches (main X (.command command)) h (.ret status))
    (hschema : ∀ document, command = .schema document → (X.schemaFor document).exact) :
    Delivered X (.command command) h status := by
  rw [main_command, run_eq] at hr
  obtain ⟨h₁, h₂, result, rfl, hrun, hend⟩ := Reaches.bind_ret_iff.mp hr
  rcases Reaches.run_bind_ret_iff.mp hrun with
    ⟨error, rfl, hwork⟩ | ⟨done, printed, printout, rfl, hwork, hemit⟩
  · -- the work failed, and nothing has been written before the report
    obtain ⟨hstdout, hstderr⟩ := streams_of_channel (quiet_of_work X hwork)
    obtain ⟨rfl, hnothing, hreported⟩ := exitWith_streams hend
    refine .error (.inr ⟨command, h₁, rfl, List.prefix_append _ _, hwork⟩) ?_
      (hreported.behind hstderr)
    rw [stdoutBytes_append, hstdout, hnothing]
    rfl
  · exact delivered_of_work X hschema hwork hemit hend

/-- **Output.**  A process that ends has printed one document that reads back as
the result of its command, with the status that the result has; or a text; or it
has reported the error of its command, or that its result could not be printed,
with the status of the error's class.  Of the schemas, which are derived, it is
known that there is no float in them. -/
theorem main_outputs {invocation : Invocation} {status : UInt8}
    (hr : Reaches (main X invocation) h (.ret status))
    (hschema : ∀ document, invocation = .command (.schema document) →
      (X.schemaFor document).exact) : Delivered X invocation h status := by
  cases invocation with
  | display text =>
      obtain ⟨h₁, h₂, _, rfl, hprint, hdone⟩ := Reaches.bind_ret_iff.mp hr
      obtain ⟨rfl, hq⟩ := Reaches.ret_iff.mp hdone
      cases hq
      obtain rfl := printOrPanic_ret hprint
      refine .text (.inl rfl) ?_ rfl
      show text ++ [] = text
      rw [List.append_nil]
  | invalid =>
      obtain ⟨rfl, hstdout, hreported⟩ := exitWith_streams hr
      exact .error (.inl ⟨rfl, rfl⟩) hstdout hreported
  | command command =>
      exact delivered_of_command X hr fun _ hcommand => hschema _ (congrArg _ hcommand)

/-- A plan that was printed, and the result of an apply that was not. -/
theorem main_outputs_sample :
    Delivered Sample.crates Sample.planInvocation Sample.printedPlan 0 ∧
      Delivered Sample.crates (.command (.apply [1] [2] [3] ⟨"U", true⟩)) Sample.closedOutput 1 :=
  ⟨main_outputs Sample.crates Sample.reaches_printedPlan (by simp [Sample.planInvocation]),
    main_outputs Sample.crates Sample.reaches_closedOutput (by simp)⟩

end DmlPact
