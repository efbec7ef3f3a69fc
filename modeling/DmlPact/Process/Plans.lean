/-
DmlPact/Process/Plans.lean

From a statement that is executed back to where its plan came from.  Planning
and applying meet in a file only, and that file may be read while it is being
written, or be what is left of a process that was stopped.

    statement  ←  approval  ←  plan file  ←  one planning  ←  its answers

A plan that is cut short is no plan (`decodePlan_cut`), a receipt is none either
(`decodePlan_receipt`), and a file has one creator (`origin_of_file`); a process
that writes a plan has gone through the whole planning before
(`planning_of_writing`).  So unless the file was there at the start, the plan
that is applied is the plan of a complete planning, which was over before the
file was read (`main_provenance`).
-/
import DmlPact.Apply.Fingerprint
import DmlPact.Lib.JsonPretty
import DmlPact.Plan.Applies
import DmlPact.Process.Files

namespace DmlPact

open Effect Utf8 Json

variable {X : Crates} {h : History}

/-! ### Plan files that are cut short -/

/-- What is read from a document that is cut, whatever follows it. -/
theorem fromSlice_cut {α : Type} (c : Codec α) {v : Value} (hd : v.isDocument)
    {text rest : List Char} (hread : Json.run ⟨.value, []⟩ (text ++ ['\n']) = some ⟨.done v, []⟩)
    {bytes : Bytes} (hcut : bytes <+: encode (text ++ ['\n'] ++ rest)) {a : α}
    (ha : fromSlice c bytes = some a) : c.de v = some a := by
  obtain ⟨cs, hcs, hparsed⟩ := Option.bind_eq_some_iff.mp ha
  obtain ⟨w, hw, hde⟩ := Option.bind_eq_some_iff.mp hparsed
  rwa [parse_cut hd hread (prefix_of_decode hcut hcs) hw] at hde

theorem fromSlice_of_decodePlan {bytes : Bytes} {plan : Plan} (h : decodePlan X bytes = .ok plan) :
    fromSlice Plan.codec bytes = some plan := ((decodePlan_ok X).mp h).2.1

/-- **A cut plan is no plan.**  What is accepted of a plan file is the plan. -/
theorem decodePlan_cut {plan plan' : Plan} {bytes : Bytes} (hcut : bytes <+: planFile plan)
    (h : decodePlan X bytes = .ok plan') : plan' = plan := by
  have hline : planFile plan = encode ((Plan.codec.ser plan).pretty 0 ++ ['\n'] ++ []) := by
    rw [List.append_nil, encode_append]
    rfl
  rw [hline] at hcut
  have hdocument : (Plan.codec.ser plan).isDocument := rfl
  have hde := fromSlice_cut Plan.codec hdocument (run_pretty_feed _ (Plan.codec.exact_ser plan)) hcut
    (fromSlice_of_decodePlan h)
  rw [Plan.codec.de_ser] at hde
  exact (Option.some.inj hde).symm

/-- A strict structure refuses an object with a member it does not know. -/
theorem Codec.struct_refuses {α β : Type} {fs : Fields β} {distinct : fs.names.Nodup}
    {pack : α → β} {unpack : β → α} {unpack_pack : ∀ a, unpack (pack a) = a}
    {members : List (String × Value)} {k : String} {v : Value} (hm : (k, v) ∈ members)
    (hname : k ∉ fs.names) :
    (Codec.struct true fs distinct pack unpack unpack_pack).de (.obj members) = none := by
  show (Fields.collect true fs.names (.obj members)).bind _ = none
  rw [Fields.collect, if_neg fun hall => hname (hall.2 rfl _ hm)]
  rfl

/-- An event has a receipt id, and a plan has none. -/
theorem plan_refuses_event (e : ReceiptEvent) :
    Plan.codec.de (ReceiptEvent.codec.ser e) = none :=
  Codec.struct_refuses (k := "receipt_id") (v := .str e.receiptId)
    (List.mem_cons_of_mem _ (List.mem_cons_of_mem _ List.mem_cons_self)) (by decide)

/-- **A receipt is no plan**, whole or cut. -/
theorem decodePlan_receipt {prepared : ReceiptEvent} {terminal : Option ReceiptEvent}
    {plan : Plan} {bytes : Bytes} (hcut : bytes <+: eventLine prepared ++ terminal.elim [] eventLine) :
    decodePlan X bytes ≠ .ok plan := by
  intro h
  obtain ⟨rest, hrest⟩ : ∃ rest, terminal.elim [] eventLine = encode rest := by
    rcases terminal with - | e
    · exact ⟨[], rfl⟩
    · exact ⟨_, e.eventLine_eq⟩
  rw [hrest, prepared.eventLine_eq, ← encode_append] at hcut
  have hde := fromSlice_cut Plan.codec prepared.isDocument
    (run_compact_feed _ (ReceiptEvent.codec.exact_ser prepared)) hcut (fromSlice_of_decodePlan h)
  rw [plan_refuses_event] at hde
  cases hde

/-! ### What a process has done that writes a plan -/

/-- The file has been created, and if the write and the sync succeed the plan
is returned. -/
theorem writePlanNew_writing {path p : Path} {plan : Plan} {bytes : Bytes}
    {k : WriteReply → Prog Cmd Reply (Except AppError Plan)}
    (hr : Reaches (writePlanNew X path plan >>= fun _ => pure plan).run h
      (.call (.writeAll p bytes) k)) :
    h = [⟨.createNew path, true⟩] ∧ Reaches (k .done) [⟨.syncAll p, true⟩] (.ret (.ok plan)) := by
  unfold writePlanNew at hr
  rcases hv : verifiedPlanSha256 X plan with e | hash
  · rw [hv] at hr
    cases hr
  rw [hv] at hr
  rcases Reaches.call_call_iff.mp hr with ⟨-, hq⟩ | ⟨created, t, rfl, hr₁⟩
  · cases hq
  cases created
  · cases hr₁
  rcases Reaches.call_call_iff.mp hr₁ with ⟨rfl, hq⟩ | ⟨reply, t, rfl, hr₂⟩
  · cases hq
    exact ⟨rfl, .call (.refl _)⟩
  rcases reply with - | n
  · rcases Reaches.call_call_iff.mp hr₂ with ⟨-, hq⟩ | ⟨synced, t, rfl, hr₃⟩
    · cases hq
    · cases synced <;> cases hr₃
  · cases hr₂

/-- **A written plan is a whole planning.**  When a plan is written, every
answer of a planning has been given, and it is the plan of that planning. -/
theorem planning_of_writing {options : PlanOptions} {path : Path} {bytes : Bytes}
    {k : WriteReply → Prog Cmd Reply (Except AppError Plan)}
    (hr : Reaches (createPlan X options).run h (.call (.writeAll path bytes) k)) :
    ∃ s : Planning X options, h = s.draftHistory ++ [⟨.createNew options.outputPath, true⟩] ∧
      path = options.outputPath ∧ bytes = planFile s.plan := by
  obtain ⟨plan, t, hsuffix, hwrite⟩ := createPlan_call X rfl hr
  obtain ⟨rfl, hdone⟩ := writePlanNew_writing hwrite
  obtain ⟨before, rfl⟩ := hsuffix
  -- let the write and the sync succeed
  obtain ⟨s, hs, -⟩ := planning_of_ok X (hr.append (.call hdone))
  rw [s.history_eq, List.append_assoc] at hs
  obtain ⟨rfl, hfile⟩ := List.append_inj' hs rfl
  simp only [List.cons_append, List.nil_append, List.cons.injEq, Event.mk.injEq, heq_eq_eq,
    and_true] at hfile
  obtain ⟨-, hwritten, -⟩ := hfile
  cases hwritten
  exact ⟨s, rfl, rfl, rfl⟩

/-! ### What a process issues -/

section Process

variable {c : Cmd} {k : Reply c → Prog Cmd Reply UInt8}

/-- What is no output is issued by the command. -/
theorem run_of_main {command : Command} (hc : c.channel ≠ .output)
    (hr : Reaches (main X (.command command)) h (.call c k)) :
    ∃ k', Reaches (run X command).run h (.call c k') := by
  rw [main_command] at hr
  rcases Reaches.of_bind hr with ⟨p, hp, hq⟩ | ⟨h₁, h₂, result, rfl, -, hreport⟩
  · cases p with
    | call d k' =>
        cases hq
        exact ⟨k', hp⟩
    | crash => cases hq
    | ret result =>
        have houtput := within_iff.mp (concluded_uses result) [] c k (hq ▸ .refl _)
        exact absurd (List.mem_singleton.mp houtput) hc
  · have houtput := within_iff.mp (concluded_uses result) h₂ c k hreport
    exact absurd (List.mem_singleton.mp houtput) hc

/-- And before the result is printed. -/
theorem reaches_of_emit {α : Type} {x : App α} {value : α → Json.Value} {code : α → UInt8}
    (hc : c.channel ≠ .output) {k : Reply c → Prog Cmd Reply (Except AppError UInt8)}
    (hr : Reaches (do
      let a ← x
      emitJson (value a)
      return code a : App UInt8).run h (.call c k)) : ∃ k', Reaches x.run h (.call c k') := by
  rcases Reaches.run_bind_call hr with hx | ⟨h₁, h₂, a, rfl, -, hemit⟩
  · exact hx
  · have hprint : Uses [.output] (emitJson (value a) >>= fun _ => pure (code a) : App UInt8).run :=
      .bind (emitJson_uses _) fun _ => .pure _
    exact absurd (List.mem_singleton.mp (within_iff.mp hprint h₂ c k hemit)) hc

/-- What a process that was invoked to apply issues, the apply issues. -/
theorem applyPlan_of_main {sqlPath planPath receiptPath : Path} {database : DatabaseOptions}
    (hc : c.channel ≠ .output)
    (hr : Reaches (main X (.command (.apply sqlPath planPath receiptPath database))) h (.call c k)) :
    ∃ k', Reaches (applyPlan X ⟨sqlPath, planPath, receiptPath, database⟩).run h (.call c k') := by
  obtain ⟨_, hrun⟩ := run_of_main hc hr
  exact reaches_of_emit hc hrun

/-- A process that was invoked to plan writes the plan of a whole planning. -/
theorem planning_of_main {sql out : Path} {maxRows : UInt64} {statementTimeout lockTimeout validFor : Nat}
    {allowTriggers allowRowSecurity : Bool} {database : DatabaseOptions} {path : Path}
    {bytes : Bytes} {k : WriteReply → Prog Cmd Reply UInt8}
    (hr : Reaches (main X (.command (.plan sql out maxRows statementTimeout lockTimeout validFor
      allowTriggers allowRowSecurity database))) h (.call (.writeAll path bytes) k)) :
    ∃ (options : PlanOptions) (s : Planning X options), options.outputPath = out ∧
      s.draftHistory <+: h ∧ bytes = planFile s.plan := by
  obtain ⟨k₀, hrun⟩ := run_of_main (by simp [Cmd.channel]) hr
  -- the three durations are read without a command
  have hpure {α : Type} {r : AppResult α} {f : α → App UInt8} {t : History}
      {k : WriteReply → Prog Cmd Reply (Except AppError UInt8)}
      (hr : Reaches (ofResult r >>= f).run t (.call (.writeAll path bytes) k)) :
      ∃ a, Reaches (f a).run t (.call (.writeAll path bytes) k) := by
    obtain ⟨t₁, t₂, a, rfl, hret, hf⟩ :=
      Reaches.past (within_ret _ : Within (fun _ => False) (ofResult r).run) not_false hr
    obtain ⟨rfl, -⟩ := Reaches.ret_iff.mp hret
    exact ⟨a, hf⟩
  obtain ⟨_, hr₁⟩ := hpure hrun
  obtain ⟨_, hr₂⟩ := hpure hr₁
  obtain ⟨_, hr₃⟩ := hpure hr₂
  obtain ⟨k', hplan⟩ := reaches_of_emit (by simp [Cmd.channel]) hr₃
  obtain ⟨s, rfl, -, rfl⟩ := planning_of_writing hplan
  exact ⟨_, s, rfl, List.prefix_append _ _, rfl⟩

/-- Only a process that was invoked to apply executes a statement, and only
behind an approval. -/
theorem approval_of_main {invocation : Invocation} {sql : String}
    {k : Reply (.execute sql) → Prog Cmd Reply UInt8}
    (hr : Reaches (main X invocation) h (.call (.execute sql) k)) :
    ∃ (options : ApplyOptions) (a : Approval X options), invocation = .command (.apply
      options.sqlPath options.planPath options.receiptPath options.database) ∧
      h = a.history ∧ sql = a.analyzed.normalized := by
  obtain ⟨sqlPath, plan, receipt, database, rfl⟩ : ∃ sqlPath plan receipt database,
      invocation = .command (.apply sqlPath plan receipt database) := by
    -- the machine of any other purpose knows no statement
    obtain ⟨s, hrun, -⟩ := (main_obeys invocation).reaches (hr.snoc (.ok 0))
    rw [Discipline.run_append] at hrun
    obtain ⟨s₁, -, hlast⟩ := Option.bind_eq_some_iff.mp hrun
    obtain ⟨s₂, hstep, -⟩ := Option.bind_eq_some_iff.mp hlast
    cases invocation with
    | display => simp [Invocation.use, session, Cmd.channel] at hstep
    | invalid => simp [Invocation.use, session, Cmd.channel] at hstep
    | command command =>
        cases command with
        | apply sqlPath plan receipt database => exact ⟨_, _, _, _, rfl⟩
        | inspect => simp [Invocation.use, Command.use, session, Session.step] at hstep
        | plan => simp [Invocation.use, Command.use, session, Session.step] at hstep
        | _ => simp [Invocation.use, Command.use, session, Cmd.channel] at hstep
  obtain ⟨k', happly⟩ := applyPlan_of_main (by simp [Cmd.channel]) hr
  obtain ⟨a, t, k₁, rfl, hmutate⟩ := approval_of_call X (.inl rfl) happly
  obtain ⟨rfl, hsql⟩ := mutate_execute hmutate
  exact ⟨_, a, rfl, List.append_nil _, hsql⟩

/-- **A file that is accepted as a plan.**  Of what a process writes, only the
whole plan of a whole planning is. -/
theorem planning_of_file {invocation : Invocation} {q : Prog Cmd Reply UInt8} {o : Output}
    {pieces : List Bytes} {bytes : Bytes} {plan : Plan} (hr : Reaches (main X invocation) h q)
    (hout : Invocation.output X invocation = some o) (hpieces : pieces = [] ∨ o.pieces pieces)
    (hcut : bytes <+: pieces.flatten)
    (hissued : ∀ piece ∈ pieces, (⟨h, q⟩ : Process Cmd Reply UInt8).Issued (.writeAll o.path piece))
    (hdecoded : decodePlan X bytes = .ok plan) :
    ∃ (options : PlanOptions) (s : Planning X options), options.outputPath = o.path ∧
      s.draftHistory <+: h ∧ plan = s.plan := by
  rcases hpieces with rfl | hpieces
  · -- an empty file is no document
    obtain rfl := List.prefix_nil.mp hcut
    have hread := fromSlice_of_decodePlan hdecoded
    rw [fromSlice, ← encode_nil, decode_encode] at hread
    cases hread
  cases invocation with
  | display => cases hout
  | invalid => cases hout
  | command command =>
      cases command
      case plan =>
        cases hout
        obtain ⟨plan', -, rfl⟩ := hpieces
        obtain ⟨t, k, ht, hreach⟩ :=
          Process.issued_reaches hr (hissued _ (List.mem_singleton_self _))
        obtain ⟨options, s, hpath, hdraft, hfile⟩ := planning_of_main hreach
        rw [List.flatten_singleton, hfile] at hcut
        exact ⟨options, s, hpath, hdraft.trans ht, decodePlan_cut hcut hdecoded⟩
      case apply =>
        cases hout
        obtain ⟨prepared, -, rfl | ⟨terminal, -, rfl⟩⟩ := hpieces
        · have hone : bytes <+: eventLine prepared ++ (none : Option ReceiptEvent).elim [] eventLine := by
            simpa using hcut
          exact absurd hdecoded (decodePlan_receipt hone)
        · have htwo : bytes <+: eventLine prepared ++ (some terminal).elim [] eventLine := by
            simpa using hcut
          exact absurd hdecoded (decodePlan_receipt htwo)
      all_goals cases hout

end Process

/-! ### From the statement to the planning -/

/-- The texts of the rows that a target query has returned. -/
def rowsRead : History → Option (List String)
  | ⟨.query _ _, answer⟩ :: _ => rowTexts answer.rows
  | _ => none

/-- An approval and a planning with the same answers, as far as the statement and
its table go. -/
structure SameAnswers {options : ApplyOptions} {planOptions : PlanOptions} (a : Approval X options)
    (p : Planning X planOptions) : Prop where
  file : a.sqlBytes = p.sqlBytes
  analyzed : a.analyzed = p.analyzed
  evidence : a.observed.evidence = p.observed.evidence
  rows : rowsRead a.targetHistory = rowsRead p.targetHistory

/-- What both of them have hashed: the SQL file, the catalog and the rows. -/
def hashed {options : ApplyOptions} {planOptions : PlanOptions} (a : Approval X options)
    (p : Planning X planOptions) : Set Bytes :=
  {a.sqlBytes, p.sqlBytes, toVec (TableEvidence.codec.ser a.observed.evidence),
    toVec (TableEvidence.codec.ser p.observed.evidence)} ∪
  {m | ∃ texts, (rowsRead a.targetHistory = some texts ∨ rowsRead p.targetHistory = some texts) ∧
    m = rowEvidence texts}

/-- The approval is of the plan of this planning.  The database and the name of
the table, the number of the rows and the hashes are what they were when the plan
was made; so are the file, the statement, the catalog and the rows, unless two of
the hashes collide.  The expiry was checked, before the connection was opened, at
a time that is not behind the plan's. -/
structure Continues {options : ApplyOptions} {planOptions : PlanOptions} (a : Approval X options)
    (p : Planning X planOptions) : Prop where
  plan : a.plan = p.plan
  identity : a.observed.identity = p.observed.identity
  table : canonicalTable a.observed.evidence = canonicalTable p.observed.evidence
  schema : a.observed.schemaHash = p.observed.schemaHash
  count : a.observed.count = p.observed.count
  targetSet : a.observed.targetSet = p.observed.targetSet
  same : NoCollision X (hashed a p) → SameAnswers a p
  unexpired : a.checkedAt.toNat ≤ p.createdAt.toNat + planOptions.lifetimeMs.toNat

/-- The hash of a file is that of its bytes. -/
theorem sqlFileSha256_eq {bytes : Bytes} {text : List Char} {analyzed : AnalyzedSql}
    (hdecoded : decode bytes = some text)
    (hanalyzed : analyzeSql X (String.ofList text) = .ok analyzed) :
    analyzed.sqlFileSha256 = sha256Bytes X bytes := by
  obtain ⟨_, _, -, -, -, rfl⟩ := analyzeSql_ok X hanalyzed
  show sha256Bytes X (asBytes (String.ofList text)) = _
  rw [asBytes, String.toList_ofList, encode_of_decode hdecoded]

/-- What a fingerprint is the hash of. -/
theorem rowsRead_of_fingerprint {analyzed : AnalyzedSql} {count : UInt64} {hash : String}
    (hr : Reaches (targetSetSha256 X analyzed count).run h (.ret (.ok hash))) :
    (analyzed.targetRowsSql = none ∧ h = []) ∨ ∃ texts, analyzed.targetRowsSql ≠ none ∧
      rowsRead h = some texts ∧ (rowEvidence texts).length ≤ maxTargetEvidenceBytes ∧
      hash = sha256Bytes X (rowEvidence texts) := by
  rcases (targetSetSha256_ok X).mp hr with ⟨hnone, rfl, -⟩ |
    ⟨query, rows, texts, hquery, htexts, hfits, -, hhash, rfl⟩
  · exact .inl ⟨hnone, rfl⟩
  · exact .inr ⟨texts, by rw [hquery]; exact nofun, htexts, hfits, hhash⟩

/-- **The same answers.**  Equal hashes, under which nothing collides. -/
theorem sameAnswers_of_hashes {options : ApplyOptions} {planOptions : PlanOptions}
    {a : Approval X options} {p : Planning X planOptions} (hfree : NoCollision X (hashed a p))
    (hfile : a.analyzed.sqlFileSha256 = p.analyzed.sqlFileSha256)
    (hschema : a.observed.schemaHash = p.observed.schemaHash)
    (htargetSet : a.observed.targetSet = p.observed.targetSet) : SameAnswers a p := by
  have hbytes : a.sqlBytes = p.sqlBytes := by
    refine hfree (.inl (by simp)) (.inl (by simp)) ?_
    rw [← sqlFileSha256_eq a.sql_decoded a.sql_analyzed,
      ← sqlFileSha256_eq p.sql_decoded p.sql_analyzed]
    exact hfile
  have htext : a.sqlText = p.sqlText :=
    Option.some.inj (a.sql_decoded.symm.trans (hbytes ▸ p.sql_decoded))
  have hanalyzed : a.analyzed = p.analyzed :=
    Except.ok.inj (a.sql_analyzed.symm.trans (htext ▸ p.sql_analyzed))
  have hevidence : a.observed.evidence = p.observed.evidence := by
    have hmessage : toVec (TableEvidence.codec.ser a.observed.evidence) =
        toVec (TableEvidence.codec.ser p.observed.evidence) := by
      refine hfree (.inl (by simp)) (.inl (by simp)) ?_
      have ha : sha256Bytes X (toVec (TableEvidence.codec.ser a.observed.evidence)) =
          a.observed.schemaHash := Except.ok.inj a.agrees.schemaHash
      have hp : sha256Bytes X (toVec (TableEvidence.codec.ser p.observed.evidence)) =
          p.observed.schemaHash := Except.ok.inj p.schema_hashed
      rw [ha, hp, hschema]
    have hread := fromSlice_toVec TableEvidence.codec a.observed.evidence rfl
    rw [hmessage, fromSlice_toVec TableEvidence.codec p.observed.evidence rfl] at hread
    exact (Option.some.inj hread).symm
  refine ⟨hbytes, hanalyzed, hevidence, ?_⟩
  -- both have sent the same target query, or none
  rcases rowsRead_of_fingerprint a.fingerprinted with ⟨hnone, ha⟩ | ⟨texts, hsome, ha, hfits, hhash⟩
  · rcases rowsRead_of_fingerprint p.fingerprinted with ⟨-, hp⟩ | ⟨_, hsome, -⟩
    · rw [ha, hp]
    · rw [hanalyzed] at hnone
      exact absurd hnone hsome
  · rcases rowsRead_of_fingerprint p.fingerprinted with ⟨hnone, -⟩ | ⟨texts', -, hp, -, hhash'⟩
    · rw [hanalyzed] at hsome
      exact absurd hnone hsome
    · have hmessage : rowEvidence texts = rowEvidence texts' :=
        hfree (.inr ⟨texts, .inl ha, rfl⟩) (.inr ⟨texts', .inr hp, rfl⟩)
          (by rw [← hhash, ← hhash', htargetSet])
      rw [ha, hp, rowEvidence_injective (hfits.trans_lt (by decide)) hmessage]

theorem continues_of_plan {options : ApplyOptions} {planOptions : PlanOptions}
    {a : Approval X options} {p : Planning X planOptions} (h : a.plan = p.plan) :
    Continues a p := by
  have hbound := a.bound
  have hagrees := a.agrees
  have hunexpired := a.unexpired
  rw [h] at hbound hagrees hunexpired
  have hfile := validatePlanBinding_file hbound
  refine ⟨h, hagrees.identity, hagrees.table, hagrees.schema, hagrees.count, hagrees.targetSet,
    fun hfree => sameAnswers_of_hashes hfree hfile.symm hagrees.schema hagrees.targetSet, ?_⟩
  have hexpires : p.plan.expiresAtUnixMs.toNat =
      p.createdAt.toNat + planOptions.lifetimeMs.toNat := by
    show (p.createdAt + planOptions.lifetimeMs).toNat = _
    rw [UInt64.toNat_add, Nat.mod_eq_of_lt (Nat.not_le.mp p.expiry_fits)]
  rw [← hexpires]
  exact UInt64.not_lt.mp hunexpired

variable {ι : Type}

/-- What is read of a file is what the file holds. -/
def Disk.ReadsTrue (d : Disk ι) (e : Event Cmd Reply) : Prop :=
  ∀ path bytes, e = ⟨.read path, some bytes⟩ → d.bytes path = some bytes

/-- The file system, with the files read as they are at that moment. -/
def readDisk : Semantics Cmd Reply ι (Disk ι) :=
  sharedDisk.restrict fun _ d c r => d.ReadsTrue ⟨c, r⟩

section Provenance

variable {invocation : ι → Invocation} {d : Disk ι}
  {s : Configuration Cmd Reply (Disk ι) fun _ : ι => UInt8}

/-- The plan of an approval was there at the start, or it is that of a planning
which was over before the plan file was read. -/
theorem planned_of_approval (hs : Reachable readDisk (mains X invocation) d s)
    (hidle : ∀ i, d.inFlight i = []) {j : ι} {options : ApplyOptions} (a : Approval X options)
    (ha : a.history <+: (s.procs j).history) :
    d.bytes options.planPath = some a.planBytes ∨
      ∃ (i : ι) (planOptions : PlanOptions) (p : Planning X planOptions)
          (s₁ : Configuration Cmd Reply (Disk ι) fun _ : ι => UInt8),
        d.bytes options.planPath = none ∧
        (∀ k, HasCreated options.planPath (s.procs k) ↔ k = i) ∧
        planOptions.outputPath = options.planPath ∧
        Reachable readDisk (mains X invocation) d s₁ ∧ Steps readDisk s₁ s ∧
        (s₁.procs j).history = [⟨.metadata options.planPath, some a.planMetadata⟩] ∧
        p.draftHistory <+: (s₁.procs i).history ∧ Continues a p := by
  -- the moment when the plan file was read
  obtain ⟨rest, hrest⟩ : ∃ rest, (s.procs j).history =
      [⟨.metadata options.planPath, some a.planMetadata⟩] ++
        ⟨.read options.planPath, some a.planBytes⟩ :: rest := by
    obtain ⟨rest, hrest⟩ := ha
    exact ⟨_, hrest.symm⟩
  obtain ⟨s₁, s₂, hs₁, hread, -, hlater⟩ := hs.moment hrest
  have hbytes : s₁.world.bytes options.planPath = some a.planBytes :=
    hread.answers.1 _ _ rfl
  have hshown {s : Configuration Cmd Reply (Disk ι) fun _ : ι => UInt8}
      (hs : Reachable readDisk (mains X invocation) d s) :
      Reachable sharedDisk (mains X invocation) d s := Semantics.shows_restrict.reachable hs
  rcases origin_of_file (hshown hs₁) hidle hbytes with
    ⟨hstart, -⟩ | ⟨i, o, pieces, habsent, howner, hout, hpath, hpieces, hcut, hwritten⟩
  · exact .inl hstart
  rw [← hpath] at hwritten
  obtain ⟨planOptions, p, htarget, hdraft, hplan⟩ :=
    planning_of_file (hs₁.reaches i) hout hpieces hcut hwritten a.plan_decoded
  have hsteps : Steps readDisk s₁ s := .head ⟨_, hread.step⟩ hlater
  -- the creator at that moment is the creator for good
  have hcreated : HasCreated options.planPath (s.procs i) :=
    (hsteps.prefix_history i).subset ((howner i).mpr rfl)
  obtain ⟨hcreator, -⟩ := (fileAt_of_reachable (fun i => main_writes X (invocation i)) (hshown hs)
    hidle options.planPath).1.of_created hcreated
  exact .inr ⟨i, planOptions, p, s₁, habsent, hcreator, htarget.trans hpath, hs₁, hsteps,
    hread.history, hdraft, continues_of_plan hplan⟩

/-- **Provenance.**  Any processes over one file system, each stopped anywhere.
A statement is executed by a process that applies, behind an approval.  The plan
file was there at the start, or one process has created it, and then that
process went through the whole planning of this plan before the file was read.
-/
theorem main_provenance (hs : Reachable readDisk (mains X invocation) d s)
    (hidle : ∀ i, d.inFlight i = []) {j : ι} {sql : String}
    (hissued : (s.procs j).Issued (.execute sql)) :
    ∃ (options : ApplyOptions) (a : Approval X options),
      invocation j = .command (.apply options.sqlPath options.planPath options.receiptPath
        options.database) ∧
      a.history <+: (s.procs j).history ∧ sql = a.analyzed.normalized ∧
      (d.bytes options.planPath = some a.planBytes ∨
        ∃ (i : ι) (planOptions : PlanOptions) (p : Planning X planOptions)
            (s₁ : Configuration Cmd Reply (Disk ι) fun _ : ι => UInt8),
          d.bytes options.planPath = none ∧
          (∀ k, HasCreated options.planPath (s.procs k) ↔ k = i) ∧
          planOptions.outputPath = options.planPath ∧
          Reachable readDisk (mains X invocation) d s₁ ∧ Steps readDisk s₁ s ∧
          (s₁.procs j).history = [⟨.metadata options.planPath, some a.planMetadata⟩] ∧
          p.draftHistory <+: (s₁.procs i).history ∧ Continues a p) := by
  obtain ⟨t, k, ht, hreach⟩ := Process.issued_reaches (hs.reaches j) hissued
  obtain ⟨options, a, hinvocation, rfl, hsql⟩ := approval_of_main hreach
  exact ⟨options, a, hinvocation, ht, hsql, planned_of_approval hs hidle a ht⟩

end Provenance

/-! ### A plan that is written, read and applied -/

/-- What touches no file, and reads what is there. -/
theorem Disk.drives_reading {d : Disk ι} {i : ι} (hquiet : ∀ e ∈ h, e.cmd.channel ≠ .write)
    (hreads : ∀ e ∈ h, d.ReadsTrue e) : readDisk.Drives i d h d := by
  induction h with
  | nil => exact .nil d
  | cons e h ih =>
      have hanswer : readDisk.answers i d e.cmd e.reply d :=
        ⟨hreads e List.mem_cons_self, Disk.answers_of_channel (hquiet e List.mem_cons_self)⟩
      exact .cons hanswer (ih (fun e he => hquiet e (List.mem_cons_of_mem _ he))
        fun e he => hreads e (List.mem_cons_of_mem _ he))

theorem Disk.readsTrue_of_cmd {d : Disk ι} {e : Event Cmd Reply}
    (he : ∀ path, e.cmd ≠ .read path) : d.ReadsTrue e := by
  rintro path bytes rfl
  exact absurd rfl (he path)

/-- What reads nothing. -/
theorem Disk.drives_unread {d d' : Disk ι} {i : ι} (hd : sharedDisk.Drives i d h d')
    (hh : ∀ e ∈ h, e.cmd.channel ≠ .read) : readDisk.Drives i d h d' :=
  hd.restrict fun e he _ => Disk.readsTrue_of_cmd fun path hc => hh e he (by rw [hc]; rfl)

theorem Approval.drives_admission {options : ApplyOptions} (a : Approval X options) {d : Disk ι}
    {i : ι} (hplan : d.bytes options.planPath = some a.planBytes)
    (hsql : d.bytes options.sqlPath = some a.sqlBytes) :
    readDisk.Drives i d a.admissionHistory d := by
  refine Disk.drives_reading (fun e he => ?_) fun e he => ?_
  · simp only [Admission.admissionHistory, List.mem_cons, List.not_mem_nil, or_false] at he
    rcases he with rfl | rfl | rfl | rfl | rfl <;> simp [Cmd.channel]
  · simp only [Admission.admissionHistory, List.mem_cons, List.not_mem_nil, or_false] at he
    rcases he with rfl | rfl | rfl | rfl | rfl
    · exact Disk.readsTrue_of_cmd (by simp)
    · rintro _ _ ⟨⟩
      exact hplan
    · exact Disk.readsTrue_of_cmd (by simp)
    · rintro _ _ ⟨⟩
      exact hsql
    · exact Disk.readsTrue_of_cmd (by simp)

namespace Sample

/-- The SQL file, and no other. -/
def sqlDisk : Disk Bool :=
  ⟨fun path => if path = planOptions.sqlPath then some (encode sql.toList) else none, fun _ => []⟩

/-- And the plan. -/
def plannedDisk : Disk Bool :=
  ⟨Function.update sqlDisk.bytes planOptions.outputPath (some (planning "").fileBytes), fun _ => []⟩

def applyInvocation : Invocation := .command (.apply [1] [2] [3] options.database)

/-- One process plans, the other applies. -/
def together (i : Bool) : Invocation := if i then planInvocation else applyInvocation

/-- The file that an event reads. -/
def reading : Event Cmd Reply → Option (Path × Bytes)
  | ⟨.read path, some bytes⟩ => some (path, bytes)
  | _ => none

theorem drives_printedPlan : readDisk.Drives true sqlDisk printedPlan plannedDisk := by
  have hreads : (planning "").draftHistory.filterMap reading =
      [(planOptions.sqlPath, encode sql.toList)] := by rfl
  have hdraft : readDisk.Drives true sqlDisk (planning "").draftHistory sqlDisk := by
    refine Disk.drives_reading (fun e he => (planning "").channel_of_draft he) ?_
    rintro _ he path bytes rfl
    have hmem : (path, bytes) ∈ [(planOptions.sqlPath, encode sql.toList)] := by
      rw [← hreads]
      exact List.mem_filterMap.mpr ⟨_, he, rfl⟩
    cases List.mem_singleton.mp hmem
    simp [sqlDisk]
  let created : Disk Bool :=
    ⟨Function.update sqlDisk.bytes planOptions.outputPath (some []), fun _ => []⟩
  have hcreate : sharedDisk.Drives true sqlDisk [⟨.createNew planOptions.outputPath, true⟩]
      created := .cons ⟨rfl, rfl⟩ (.nil _)
  have hwrite : sharedDisk.Drives true created
      [⟨.writeAll planOptions.outputPath (planning "").fileBytes, .done⟩] plannedDisk := by
    have hempty : created.bytes planOptions.outputPath = some [] := by simp [created]
    have hall := Disk.drives_write (i := true) hempty rfl (planning "").fileBytes
    rwa [List.nil_append, Function.update_idem] at hall
  have hend : sharedDisk.Drives true plannedDisk [⟨.syncAll planOptions.outputPath, true⟩,
      ⟨.stdout (toVecPretty (Plan.codec.ser (planning "").plan)), true⟩,
      ⟨.stdout (asBytes "\n"), true⟩] plannedDisk :=
    .cons rfl (.cons rfl (.cons rfl (.nil _)))
  have hfile := Disk.drives_unread (hcreate.append (hwrite.append hend)) (by simp [Cmd.channel])
  rw [printedPlan, (planning "").history_eq, List.append_assoc]
  exact hdraft.append hfile

/-- The plan is written, then read, and its statement is about to be sent. -/
theorem reachable_together : ∃ (s : Configuration Cmd Reply (Disk Bool) fun _ : Bool => UInt8)
    (sql : String), Reachable readDisk (mains crates together) sqlDisk s ∧
      (s.procs false).Issued (.execute sql) := by
  have hchecked : ¬ (planning "").plan.expiresAtUnixMs < 1 := by
    show ¬ ((0 : UInt64) + 100) < 1
    decide
  have hundisturbed : Undisturbed crates planOptions options (planning "").history
      (planning "").plan ((planning "").surroundings options.planPath) :=
    undisturbed (show Json.literalSize "" ≤ 1000 by decide) (show ([1] : Path) ≠ [2] by decide) rfl
  obtain ⟨a, -, hanalyzed, -, -, hanswers⟩ := (planning "").approved hundisturbed 2 hchecked
  -- the plan file and the SQL file are as the approval has read them
  have hplan : a.planBytes = (planning "").fileBytes :=
    Option.some.inj (hanswers ⟨.read options.planPath, some a.planBytes⟩ (by
      simp [Approval.history, Admission.admissionHistory]))
  have hsql : a.sqlBytes = encode sql.toList :=
    Option.some.inj (hanswers ⟨.read options.sqlPath, some a.sqlBytes⟩ (by
      simp [Approval.history, Admission.admissionHistory]))
  have hadmission : readDisk.Drives false plannedDisk a.admissionHistory plannedDisk := by
    refine a.drives_admission ?_ ?_
    · rw [hplan]
      simp [plannedDisk, planOptions, options]
    · rw [hsql]
      simp [plannedDisk, sqlDisk, planOptions, options]
  have hrest := Disk.drives_unread (a.drives_prepared (i := false) (d := plannedDisk) (by rfl) rfl)
    fun e he => a.unread_of_deciding he
  have h₀ : Reachable readDisk (mains crates together) sqlDisk (Effect.start _ sqlDisk) := .refl
  obtain ⟨s₁, h₁, hworld, -, hothers⟩ :=
    h₀.driven (i := true) reaches_printedPlan drives_printedPlan
  have happly : Reaches (main crates applyInvocation) a.history _ :=
    (a.reaches.bind_left _).bind_left _
  rw [settle_mutate] at happly
  obtain ⟨s₂, h₂, -, hproc, -⟩ := h₁.driven (i := false) (by
    rw [hothers false (by decide)]
    exact happly) (by
    rw [hworld]
    exact hadmission.append hrest)
  exact ⟨s₂, a.analyzed.normalized, h₂, .inr ⟨_, by rw [hproc]; rfl⟩⟩

end Sample

/-- The plan that is applied here is that of the other process. -/
theorem main_provenance_together :
    ∃ (s : Configuration Cmd Reply (Disk Bool) fun _ : Bool => UInt8) (options : ApplyOptions)
        (a : Approval Sample.crates options) (planOptions : PlanOptions)
        (p : Planning Sample.crates planOptions) (i : Bool),
      (s.procs false).Issued (.execute a.analyzed.normalized) ∧
        HasCreated options.planPath (s.procs i) ∧ Continues a p := by
  obtain ⟨s, sql, hs, hissued⟩ := Sample.reachable_together
  obtain ⟨options, a, hinvocation, -, rfl, hstart | ⟨i, planOptions, p, -, -, hcreator, -, -, -, -,
    -, hcontinues⟩⟩ := main_provenance hs (fun _ => rfl) hissued
  · -- there was no plan at the start
    have hpath : [2] = options.planPath :=
      (Command.apply.inj (Invocation.command.inj hinvocation)).2.1
    rw [← hpath] at hstart
    cases hstart
  · exact ⟨s, options, a, planOptions, p, i, hissued, (hcreator i).mpr rfl, hcontinues⟩

end DmlPact
