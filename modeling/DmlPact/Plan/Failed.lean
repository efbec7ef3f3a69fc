/-
DmlPact/Plan/Failed.lean

What a failed planning leaves at the output path.  Everything that can fail
before the file is created leaves no trace, and neither does the creation
itself.  After it there are two calls that can fail, the write and the sync,
and nothing removes the file then: a failed write leaves a part of the plan
behind, a failed sync all of it.  So the path is as it was exactly when the
file system failed neither (`createPlan_leaves_nothing_iff`).
-/
import DmlPact.Plan.ReadBack
import DmlPact.Receipt.Crash

namespace DmlPact

open Effect Utf8 Durable

variable (X : Crates) {h : History}

/-! ### The file, by what a run was answered -/

/-- What a reader finds at a path. -/
def CrashDisk.shown (d : CrashDisk) (path : Path) : Option Bytes := (d path).map File.bytes

/-- What there is at a path after an answer. -/
def placed (path : Path) (found : Option Bytes) : Event Cmd Reply → Option Bytes
  | ⟨.createNew p, true⟩ => if p = path then some [] else found
  | e => found.map (· ++ writtenBy path e)

/-- What there is at a path after a run. -/
def left (path : Path) (found : Option Bytes) (h : History) : Option Bytes :=
  h.foldl (placed path) found

theorem placed_of_channel {path : Path} {e : Event Cmd Reply} (he : e.cmd.channel ≠ .write)
    (found : Option Bytes) : placed path found e = found := by
  have hnothing : found.map (· ++ ([] : Bytes)) = found := by
    rcases found with - | bytes
    · rfl
    · exact congrArg some (List.append_nil bytes)
  obtain ⟨c, r⟩ := e
  cases c
  case createNew => exact absurd rfl he
  case writeAll => exact absurd rfl he
  all_goals exact hnothing

/-- Commands that touch no file leave none behind. -/
theorem left_of_channel {path : Path} (hh : ∀ e ∈ h, e.cmd.channel ≠ .write)
    (found : Option Bytes) : left path found h = found := by
  induction h with
  | nil => rfl
  | cons e h ih =>
      show left path (placed path found e) h = found
      rw [placed_of_channel (hh e List.mem_cons_self)]
      exact ih fun e he => hh e (List.mem_cons_of_mem _ he)

theorem left_append (path : Path) (found : Option Bytes) (h t : History) :
    left path found (h ++ t) = left path (left path found h) t := List.foldl_append

/-- **Answers.**  The disk places what the answer says. -/
theorem CrashDisk.Answers.shown {d d' : CrashDisk} {c : Cmd} {r : Reply c}
    (h : d.Answers c r d') (path : Path) : d'.shown path = placed path (d.shown path) ⟨c, r⟩ := by
  by_cases hwrite : c.channel = .write
  swap
  · rw [placed_of_channel hwrite]
    have hsame : d' = d := by
      cases c
      case createNew => exact absurd rfl hwrite
      case writeAll => exact absurd rfl hwrite
      case syncAll => exact absurd rfl hwrite
      all_goals exact h
    rw [hsame]
  have hnothing : ∀ found : Option Bytes, found.map (· ++ ([] : Bytes)) = found := by
    intro found
    rcases found with - | bytes
    · rfl
    · exact congrArg some (List.append_nil bytes)
  -- what is appended to a file at `p` is what the event has written there
  have hwritten : ∀ (p : Path) (bytes : Bytes) (e : Event Cmd Reply),
      d' = Function.update d p ((d p).map fun f => f.append bytes) →
      writtenBy path e = (if p = path then bytes else []) →
      d'.shown path = (d.shown path).map (· ++ writtenBy path e) := by
    rintro p bytes e rfl he
    rw [he]
    by_cases hp : p = path
    · subst hp
      rw [if_pos rfl, CrashDisk.shown, CrashDisk.shown, Function.update_self, Option.map_map,
        Option.map_map]
      refine congrArg (Option.map · (d p)) (funext fun f => ?_)
      exact File.bytes_append
    · rw [if_neg hp, CrashDisk.shown, Function.update_of_ne (Ne.symm hp)]
      exact (hnothing _).symm
  cases c
  case createNew p =>
    cases r
    · obtain rfl : d' = d := h
      exact (hnothing _).symm
    · obtain ⟨-, rfl⟩ := h
      show (Function.update d p (some File.empty) path).map File.bytes = if p = path then _ else _
      by_cases hp : p = path
      · subst hp
        rw [if_pos rfl, Function.update_self]
        rfl
      · rw [if_neg hp, Function.update_of_ne (Ne.symm hp)]
        rfl
  case writeAll p bytes =>
    rcases r with - | n
    · exact hwritten p bytes _ h rfl
    · exact hwritten p (bytes.take n) _ h rfl
  case syncAll p =>
    show d'.shown path = (d.shown path).map (· ++ [])
    rw [hnothing]
    cases r
    · obtain rfl : d' = d := h
      rfl
    · obtain rfl : d' = _ := h
      by_cases hp : p = path
      · subst hp
        rw [CrashDisk.shown, CrashDisk.shown, Function.update_self, Option.map_map]
        refine congrArg (Option.map · (d p)) (funext fun f => ?_)
        exact File.bytes_sync
      · rw [CrashDisk.shown, Function.update_of_ne (Ne.symm hp)]
        rfl
  all_goals cases hwrite

/-- What the system writes back is what was there. -/
theorem shown_of_drift {d d' : CrashDisk} (h : crashDisk.drifts d d') (path : Path) :
    d'.shown path = d.shown path := by
  obtain ⟨hkept, hnone⟩ := h path
  rcases hd : d path with - | f
  · rw [CrashDisk.shown, CrashDisk.shown, hnone hd, hd]
  · obtain ⟨f', hf', hwrite⟩ := hkept f hd
    rw [CrashDisk.shown, CrashDisk.shown, hf', hd]
    exact congrArg some hwrite.bytes

section Runs

variable {α : Type} {p : Prog Cmd Reply α} {d : CrashDisk}
  {s : Configuration Cmd Reply CrashDisk fun _ : Unit => α}

/-- **Runs.**  The file is what the run was answered. -/
theorem shown_of_reachable (hs : Reachable crashDisk (fun _ => p) d s) (path : Path) :
    s.world.shown path = left path (d.shown path) (s.procs ()).history := by
  refine @Reachable.invariant _ _ _ _ _ _ _ _ _
    (fun s => s.world.shown path = left path (d.shown path) (s.procs ()).history) rfl
    (fun s s' who hrun inv hstep => ?_) hs
  cases hstep with
  | answer waiting world moved others =>
      rw [moved]
      show s'.world.shown path = left path _ (_ ++ _)
      rw [left_append, ← inv]
      exact CrashDisk.Answers.shown world path
  | progress waiting world procs => exact world.elim
  | drift world procs => rw [procs, shown_of_drift world, inv]

/-- A file is created only where there was none. -/
theorem absent_of_created {path : Path} {before after : History}
    (hs : Reachable crashDisk (fun _ => p) d s)
    (hh : (s.procs ()).history = before ++ ⟨.createNew path, true⟩ :: after)
    (hbefore : ∀ e ∈ before, e.cmd.channel ≠ .write) : d.shown path = none := by
  obtain ⟨s₁, s₂, hs₁, hmoment, -, -⟩ := hs.moment hh
  have hnone : s₁.world path = none := hmoment.answers.1
  have hshown := shown_of_reachable hs₁ path
  rw [hmoment.history, left_of_channel hbefore] at hshown
  rw [← hshown, CrashDisk.shown, hnone]
  rfl

end Runs

/-! ### Failing runs -/

/-- The file system fails a write or a sync. -/
def FailsFile : Event Cmd Reply → Prop
  | ⟨.writeAll _ _, .failed _⟩ => True
  | ⟨.syncAll _, false⟩ => True
  | _ => False

theorem not_failsFile_of_channel {e : Event Cmd Reply} (he : e.cmd.channel ≠ .write) :
    ¬ FailsFile e := by
  obtain ⟨c, r⟩ := e
  cases c
  case writeAll => exact absurd rfl he
  case syncAll => exact absurd rfl he
  all_goals exact id

/-- How the writing of a plan can fail. -/
inductive WriteFails (path : Path) (bytes : Bytes) : History → Prop
  | untouched : WriteFails path bytes []
  | refused : WriteFails path bytes [⟨.createNew path, false⟩]
  | write (n : Nat) :
      WriteFails path bytes [⟨.createNew path, true⟩, ⟨.writeAll path bytes, .failed n⟩]
  | sync : WriteFails path bytes [⟨.createNew path, true⟩, ⟨.writeAll path bytes, .done⟩,
      ⟨.syncAll path, false⟩]

namespace WriteFails

variable {path : Path} {bytes : Bytes}

theorem channel (w : WriteFails path bytes h) : ∀ e ∈ h, e.cmd.channel = .write := by
  intro e he
  cases w with
  | untouched => cases he
  | refused => simp at he; rw [he]; rfl
  | write n => simp at he; rcases he with rfl | rfl <;> rfl
  | sync => simp at he; rcases he with rfl | rfl | rfl <;> rfl

/-- It leaves no trace, or it creates the file and leaves some of its bytes
there. -/
theorem left_eq (w : WriteFails path bytes h) (found : Option Bytes) :
    (left path found h = found ∧ ∀ e ∈ h, ¬ FailsFile e) ∨
      (∃ rest, h = ⟨.createNew path, true⟩ :: rest) ∧ (∃ e ∈ h, FailsFile e) ∧
        ∃ part, left path found h = some part ∧ part <+: bytes := by
  cases w with
  | untouched => exact .inl ⟨rfl, by simp⟩
  | refused =>
      refine .inl ⟨?_, by simp [FailsFile]⟩
      rcases found with - | bytes
      · rfl
      · exact congrArg some (List.append_nil bytes)
  | write n =>
      refine .inr ⟨⟨_, rfl⟩, ⟨⟨.writeAll path bytes, .failed n⟩, by simp, trivial⟩,
        bytes.take n, ?_, List.take_prefix n bytes⟩
      simp [left, placed, writtenBy]
  | sync =>
      refine .inr ⟨⟨_, rfl⟩, ⟨⟨.syncAll path, false⟩, by simp, trivial⟩, bytes, ?_,
        List.prefix_rfl⟩
      simp [left, placed, writtenBy]

end WriteFails

/-- A writing that fails is of these shapes. -/
theorem writePlanNew_error {path : Path} {plan : Plan} {e : AppError}
    (hr : Reaches (writePlanNew X path plan).run h (.ret (.error e))) :
    WriteFails path (toVecPretty (Plan.codec.ser plan) ++ asBytes "\n") h := by
  unfold writePlanNew at hr
  rcases Reaches.run_bind_ret_iff.mp hr with ⟨_, -, hv⟩ | ⟨_, _, _, rfl, hv, hr₁⟩
  · rw [(Reaches.ret_iff.mp hv).1]
    exact .untouched
  obtain ⟨rfl, -⟩ := Reaches.ret_iff.mp hv
  rw [request_bind] at hr₁
  obtain ⟨created, _, rfl, hr₂⟩ := Reaches.call_ret_iff.mp hr₁
  cases created
  · obtain ⟨rfl, -⟩ := Reaches.ret_iff.mp hr₂
    exact .refused
  -- the write, and the sync that a finished write is followed by
  have hdurably : (writeDurably path (toVecPretty (Plan.codec.ser plan) ++ asBytes "\n")).run =
      .call (.writeAll path (toVecPretty (Plan.codec.ser plan) ++ asBytes "\n")) fun
        | .failed _ => .ret (.ok false)
        | .done => .call (.syncAll path) fun synced => .ret (.ok synced) := by
    unfold writeDurably
    rw [request_bind]
    refine congrArg _ (funext fun reply => ?_)
    cases reply <;> rfl
  rw [run_bind, hdurably] at hr₂
  obtain ⟨reply, _, rfl, hr₃⟩ := Reaches.call_ret_iff.mp hr₂
  rcases reply with - | n
  · obtain ⟨synced, _, rfl, hr₄⟩ := Reaches.call_ret_iff.mp hr₃
    cases synced
    · obtain ⟨rfl, -⟩ := Reaches.ret_iff.mp hr₄
      exact .sync
    · obtain ⟨-, hq⟩ := Reaches.ret_iff.mp hr₄
      cases hq
  · obtain ⟨rfl, -⟩ := Reaches.ret_iff.mp hr₃
    exact .write n

/-! ### Before the file -/

/-- `p` creates, writes and syncs no file. -/
def Spares {α : Type} (p : Prog Cmd Reply α) : Prop := Within (fun c => c.channel ≠ .write) p

section Spares

variable {ε α β : Type}

theorem Uses.spares {cs : List Channel} {p : Prog Cmd Reply α} (hp : Uses cs p)
    (hcs : cs.contains .write = false) : Spares p := by
  refine Within.mono hp fun c hc hwrite => ?_
  rw [hwrite] at hc
  simp [hc] at hcs

theorem spares_of_inspects {analyzed : AnalyzedSql} {p : Prog Cmd Reply α}
    (hp : Within (Inspects analyzed) p) : Spares p := by
  refine Within.mono hp fun c hc hwrite => ?_
  cases c
  case query => cases hwrite
  all_goals exact hc

/-- A stage that spares files is behind a run that writes next. -/
theorem past_stage {x : Fallible ε Cmd Reply α} {f : α → Fallible ε Cmd Reply β} {c : Cmd}
    {k : Reply c → Prog Cmd Reply (Except ε β)} {whole : History} (hx : Spares x.run)
    (hc : c.channel = .write) (hs : h <:+ whole) (hr : Reaches (x >>= f).run h (.call c k)) :
    ∃ a t, t <:+ whole ∧ Reaches (f a).run t (.call c k) := by
  obtain ⟨h₁, h₂, a, rfl, -, hf⟩ := Reaches.past hx (not_not_intro hc) hr
  exact ⟨a, h₂, (List.suffix_append h₁ h₂).trans hs, hf⟩

end Spares

/-- A run that creates, writes or syncs a file is past everything but the
writing of its plan. -/
theorem createPlan_call {options : PlanOptions} {c : Cmd}
    {k : Reply c → Prog Cmd Reply (Except AppError Plan)} (hc : c.channel = .write)
    (hr : Reaches (createPlan X options).run h (.call c k)) :
    ∃ plan t, t <:+ h ∧
      Reaches (writePlanNew X options.outputPath plan >>= fun _ => pure plan).run t (.call c k) := by
  have hresult : ∀ {α : Type} (r : AppResult α), Spares (ofResult r).run := fun r => within_ret _
  have hpanic : ∀ {α : Type} (o : Option α), Spares (orPanic o).run := fun o => within_orPanic o
  have hsend : ∀ {c : Cmd}, c.channel ≠ .write → Spares (request c : App (Reply c)).run :=
    fun hc => within_request hc
  have hthrow : ∀ {e : AppError} {t : History}, ¬ Reaches (throw e : App Plan).run t (.call c k) := by
    intro e t ht
    cases ht
  unfold createPlan at hr
  -- the options and the SQL file
  obtain ⟨_, _, s₁, hr₁⟩ := past_stage (hresult _) hc List.suffix_rfl hr
  split at hr₁
  · exact absurd hr₁ hthrow
  obtain ⟨analyzed, _, s₂, hr₂⟩ := past_stage ((readAndAnalyze_uses X _).spares rfl) hc s₁ hr₁
  -- the connection and the transaction
  obtain ⟨database, _, s₃, hr₃⟩ := past_stage ((connectDatabase_uses X _ _).spares rfl) hc s₂ hr₂
  obtain ⟨started, _, s₄, hr₄⟩ := past_stage (hsend (by simp [Cmd.channel])) hc s₃ hr₃
  cases started
  · exact absurd hr₄ hthrow
  obtain ⟨_, _, s₅, hr₅⟩ :=
    past_stage (applyLocalTimeouts_within (by simp [Cmd.channel])) hc s₄ hr₄
  obtain ⟨identity, _, s₆, hr₆⟩ :=
    past_stage (spares_of_inspects (databaseIdentity_within analyzed _)) hc s₅ hr₅
  obtain ⟨_, _, s₇, hr₇⟩ := past_stage (hresult _) hc s₆ hr₆
  obtain ⟨evidence, _, s₈, hr₈⟩ :=
    past_stage (spares_of_inspects (tableEvidence_within analyzed _)) hc s₇ hr₇
  obtain ⟨_, _, s₉, hr₉⟩ := past_stage (hresult _) hc s₈ hr₈
  obtain ⟨schemaHash, _, s₁₀, hr₁₀⟩ := past_stage (hresult _) hc s₉ hr₉
  obtain ⟨count, _, s₁₁, hr₁₁⟩ := past_stage (spares_of_inspects (targetCount_within _)) hc s₁₀ hr₁₀
  split at hr₁₁
  · exact absurd hr₁₁ hthrow
  obtain ⟨targetSet, _, s₁₂, hr₁₂⟩ :=
    past_stage (spares_of_inspects (targetSetSha256_within X _ _)) hc s₁₁ hr₁₁
  obtain ⟨explained, _, s₁₃, hr₁₃⟩ := past_stage (queryOne_within (by simp [Cmd.channel])) hc s₁₂ hr₁₂
  rcases explained with - | explainRow
  · exact absurd hr₁₃ hthrow
  obtain ⟨explain, _, s₁₄, hr₁₄⟩ := past_stage (hpanic _) hc s₁₃ hr₁₃
  obtain ⟨committed, _, s₁₅, hr₁₅⟩ := past_stage (hsend (by simp [Cmd.channel])) hc s₁₄ hr₁₄
  cases committed
  · exact absurd hr₁₅ hthrow
  -- the clock and the seal
  obtain ⟨createdAt, _, s₁₆, hr₁₆⟩ := past_stage (unixMs_uses.spares rfl) hc s₁₅ hr₁₅
  split at hr₁₆
  · exact absurd hr₁₆ hthrow
  obtain ⟨plan, t, s₁₇, hr₁₇⟩ := past_stage (hresult _) hc s₁₆ hr₁₆
  exact ⟨plan, t, s₁₇, hr₁₇⟩

/-- **Failures.**  A run that fails has touched no file, or it was refused the
creation of the file, or its writing failed. -/
theorem createPlan_failed {options : PlanOptions} {e : AppError}
    (hr : Reaches (createPlan X options).run h (.ret (.error e))) :
    ∃ before file bytes, h = before ++ file ∧ (∀ e ∈ before, e.cmd.channel ≠ .write) ∧
      WriteFails options.outputPath bytes file := by
  by_cases hquiet : ∀ e ∈ h, e.cmd.channel ≠ .write
  · exact ⟨h, [], [], (List.append_nil h).symm, hquiet, .untouched⟩
  -- the first command that touches a file is past everything else
  obtain ⟨before, ⟨c, r⟩, rest, rfl, hc, hbefore⟩ : ∃ before e rest, h = before ++ e :: rest ∧
      e.cmd.channel = .write ∧ ∀ e ∈ before, e.cmd.channel ≠ .write := by
    have hany : (h.find? fun e => decide (e.cmd.channel = .write)).isSome := by
      simpa using hquiet
    obtain ⟨e, he⟩ := Option.isSome_iff_exists.mp hany
    obtain ⟨hc, before, rest, hsplit, hbefore⟩ := List.find?_eq_some_iff_append.mp he
    exact ⟨before, e, rest, hsplit, of_decide_eq_true hc, by simpa using hbefore⟩
  obtain ⟨p, hp, hnext⟩ := hr.split
  obtain ⟨k, rfl, hrest⟩ := hnext.cons
  obtain ⟨plan, t, hsuffix, hwrite⟩ := createPlan_call X hc hp
  have hwhole : Reaches (writePlanNew X options.outputPath plan).run (t ++ ⟨c, r⟩ :: rest)
      (.ret (.error e)) := by
    rcases Reaches.run_bind_ret_iff.mp (hwrite.append (.call hrest)) with
      ⟨_, he, hfailed⟩ | ⟨_, _, _, -, -, hdone⟩
    · cases he
      exact hfailed
    · obtain ⟨-, hq⟩ := Reaches.ret_iff.mp hdone
      cases hq
  have hfile := writePlanNew_error X hwhole
  -- the writing touches nothing but the file, and what is before it does not
  have ht : t = [] := by
    apply List.eq_nil_iff_forall_not_mem.mpr
    intro e he
    exact hbefore e (hsuffix.subset he) (hfile.channel e (List.mem_append_left _ he))
  rw [ht, List.nil_append] at hfile
  exact ⟨before, _, _, rfl, hbefore, hfile⟩

/-- **Nothing behind.**  The output path of a planning that failed is as it was
exactly when the file system failed no write and no sync. -/
theorem createPlan_leaves_nothing_iff {options : PlanOptions} {d : CrashDisk}
    {s : Configuration Cmd Reply CrashDisk fun _ : Unit => Except AppError Plan}
    (hs : Reachable crashDisk (fun _ => (createPlan X options).run) d s) {e : AppError}
    (herror : (s.procs ()).rest = .ret (.error e)) :
    s.world.shown options.outputPath = d.shown options.outputPath ↔
      ∀ e ∈ (s.procs ()).history, ¬ FailsFile e := by
  have hr := hs.reaches ()
  rw [herror] at hr
  obtain ⟨before, file, bytes, hh, hbefore, hfile⟩ := createPlan_failed X hr
  rw [shown_of_reachable hs, hh, left_append, left_of_channel hbefore]
  rcases hfile.left_eq (d.shown options.outputPath) with
    ⟨hsame, hfine⟩ | ⟨⟨rest, rfl⟩, ⟨e, he, hfails⟩, part, hleft, -⟩
  · refine ⟨fun _ e he => ?_, fun _ => hsame⟩
    rcases List.mem_append.mp he with he | he
    · exact not_failsFile_of_channel (hbefore e he)
    · exact hfine e he
  · -- there was nothing at the path before, and now there is
    rw [hleft, absent_of_created hs hh hbefore]
    constructor
    · intro hnone
      cases hnone
    · intro hfine
      exact absurd hfails (hfine e (List.mem_append_right _ he))

/-! ### A sync that fails -/

namespace Planning

variable {X} {options : PlanOptions} (s : Planning X options)

/-- The run as far as the creation of the file. -/
def draftHistory : History :=
  [⟨.metadata options.sqlPath, some s.sqlMetadata⟩,
    ⟨.read options.sqlPath, some s.sqlBytes⟩] ++
  (connectHistory options.database.environmentName s.connectionValue
      (clientConfig s.parsedConfig) (requestedTransport options.database) ++
  ([⟨.start .repeatableRead true, true⟩,
    ⟨.batchExecute (timeoutSettings options.limits), true⟩,
    ⟨.query identitySql [], ⟨[s.identityRow], true⟩⟩] ++
  (s.evidenceAnswers.history s.analyzed.requestedTable s.oid ++
  (s.countHistory ++ (s.targetHistory ++
  [⟨.query (explainText s.analyzed.normalized) [], ⟨[s.explainRow], true⟩⟩, ⟨.commit, true⟩,
    ⟨.now, some s.createdAt.toNat⟩])))))

theorem history_eq : s.history = s.draftHistory ++
    [⟨.createNew options.outputPath, true⟩, ⟨.writeAll options.outputPath s.fileBytes, .done⟩,
      ⟨.syncAll options.outputPath, true⟩] := by
  simp [history, draftHistory]

theorem channel_of_draft {e : Event Cmd Reply} (he : e ∈ s.draftHistory) :
    e.cmd.channel ≠ .write := by
  have hquery : ∀ {c : Cmd}, Inspects s.analyzed c → c.channel ≠ .write := by
    intro c hc hwrite
    cases c
    case query => cases hwrite
    all_goals exact hc
  simp only [draftHistory, List.mem_append] at he
  -- the parts of the draft: files, connection, start, catalog, count, rows, end
  rcases he with he | he | he | he | he | he | he
  · simp at he
    rcases he with rfl | rfl <;> simp [Cmd.channel]
  · have hconnect : ∀ policy, ∀ e ∈ connectHistory options.database.environmentName
        s.connectionValue (clientConfig s.parsedConfig) policy, e.cmd.channel ≠ .write := by
      intro policy
      cases policy <;> simp [connectHistory, Cmd.channel]
    exact hconnect _ e he
  · simp at he
    rcases he with rfl | rfl | rfl <;> simp [Cmd.channel]
  · simp [EvidenceAnswers.history] at he
    rcases he with rfl | rfl | rfl | rfl | rfl | rfl | rfl | rfl | rfl <;> simp [Cmd.channel]
  · exact hquery (Within.events (targetCount_within _) s.counted e he)
  · exact hquery (Within.events (targetSetSha256_within X _ _) s.fingerprinted e he)
  · simp at he
    rcases he with rfl | rfl | rfl <;> simp [Cmd.channel]

/-- Then its plan is written. -/
theorem reaches_writing : Reaches (createPlan X options).run s.draftHistory
    (writePlanNew X options.outputPath s.plan >>= fun _ => pure s.plan).run := by
  have hr := s.reaches
  rw [history_eq] at hr
  obtain ⟨p, hp, hnext⟩ := hr.split
  obtain ⟨k, rfl, hrest⟩ := hnext.cons
  obtain ⟨plan, t, -, hwrite⟩ := createPlan_call X rfl hp
  obtain ⟨h₁, h₂, ⟨⟩, hsplit, hwritten, hdone⟩ :=
    Reaches.run_bind_ok_iff.mp (hwrite.append (.call hrest))
  obtain ⟨rfl, rfl⟩ := ok_pure.mp hdone
  obtain ⟨-, rfl⟩ := (writePlanNew_ok X).mp hwritten
  have ht : t = [] := by
    have hlength := congrArg List.length hsplit
    simp at hlength
    exact hlength
  subst ht
  rwa [(Reaches.refl _).unique hwrite]

/-- The run whose sync fails. -/
def unsyncedHistory : History := s.draftHistory ++
  [⟨.createNew options.outputPath, true⟩, ⟨.writeAll options.outputPath s.fileBytes, .done⟩,
    ⟨.syncAll options.outputPath, false⟩]

theorem reaches_unsynced :
    ∃ e, Reaches (createPlan X options).run s.unsyncedHistory (.ret (.error e)) := by
  have hverified : verifiedPlanSha256 X s.plan = .ok _ := verifiedPlanSha256_sealedBy X rfl rfl
  have hwriting : ∃ e, Reaches (writePlanNew X options.outputPath s.plan).run
      [⟨.createNew options.outputPath, true⟩, ⟨.writeAll options.outputPath s.fileBytes, .done⟩,
        ⟨.syncAll options.outputPath, false⟩] (.ret (.error e)) := by
    unfold writePlanNew
    rw [hverified]
    exact ⟨_, .call (.call (.call (.refl _)))⟩
  obtain ⟨e, hwriting⟩ := hwriting
  exact ⟨e, s.reaches_writing.append (Reaches.run_bind_ret_iff.mpr (.inl ⟨e, rfl, hwriting⟩))⟩

/-- On a disk without a file at the output path, it leaves the whole plan. -/
theorem reachable_unsynced :
    ∃ (s' : Configuration Cmd Reply CrashDisk fun _ : Unit => Except AppError Plan) (e : AppError),
      Reachable crashDisk (fun _ => (createPlan X options).run) (fun _ => none) s' ∧
      (s'.procs ()).rest = .ret (.error e) ∧ (s'.procs ()).history = s.unsyncedHistory ∧
      s'.world.shown options.outputPath = some s.fileBytes := by
  let path := options.outputPath
  let disk : File UInt8 → CrashDisk := fun f => Function.update (fun _ => none) path (some f)
  obtain ⟨e, hr⟩ := s.reaches_unsynced
  have hdraft : crashDisk.Serves () (fun _ => none) s.draftHistory (fun _ => none) :=
    .of_quiet fun e he => answers_of_channel (s.channel_of_draft he)
  have happend : Function.update (disk .empty) path
      ((disk .empty path).map fun f => f.append s.fileBytes) =
      disk (File.empty.append s.fileBytes) := by
    have hat : disk .empty path = some .empty := Function.update_self ..
    rw [hat]
    exact Function.update_idem ..
  -- created and written in full, with the sync refused
  have hfile : crashDisk.Serves () (fun _ => none)
      [⟨.createNew path, true⟩, ⟨.writeAll path s.fileBytes, .done⟩, ⟨.syncAll path, false⟩]
      (disk (File.empty.append s.fileBytes)) :=
    .cons ⟨rfl, rfl⟩ (.cons happend.symm (.cons rfl (.nil _)))
  have hstart : Reachable crashDisk (fun _ : Unit => (createPlan X options).run) (fun _ => none)
      (Effect.start _ _) := .refl
  obtain ⟨s', hs', hworld, hproc, -⟩ := hstart.followed hr (hdraft.append hfile)
  refine ⟨s', e, hs', by rw [hproc], by rw [hproc]; rfl, ?_⟩
  rw [hworld, CrashDisk.shown, show disk _ path = some _ from Function.update_self ..]
  rfl

end Planning

/-- The sync fails, planning returns an error, and the plan it leaves behind is
one that is accepted. -/
theorem createPlan_leaves_plan :
    ¬ ∀ (X : Crates) (options : PlanOptions) (d : CrashDisk)
      (s : Configuration Cmd Reply CrashDisk fun _ : Unit => Except AppError Plan) (e : AppError),
      Reachable crashDisk (fun _ => (createPlan X options).run) d s →
      (s.procs ()).rest = .ret (.error e) →
      s.world.shown options.outputPath = d.shown options.outputPath ∨
        ∀ bytes, s.world.shown options.outputPath = some bytes →
          ∀ plan, decodePlan X bytes ≠ .ok plan := by
  intro hall
  let planning := Sample.planning "public"
  obtain ⟨s, e, hs, hrest, -, hshown⟩ := planning.reachable_unsynced
  have hfits : planning.fileBytes.length ≤ maxPlanBytes := by
    have hpath : Json.literalSize "public" = 8 := by decide
    rw [planning.length_fileBytes Sha256.length_digest, Sample.fileSize_planning, hpath]
    decide
  rcases hall _ _ _ s e hs hrest with hsame | hrefused
  · rw [hshown] at hsame
    cases hsame
  · exact hrefused _ hshown _ (planning.decodes hfits)

theorem createPlan_leaves_nothing_sample :
    ∃ s : Configuration Cmd Reply CrashDisk fun _ : Unit => Except AppError Plan,
      s.world.shown Sample.planOptions.outputPath ≠ none ∧
        ¬ ∀ e ∈ (s.procs ()).history, ¬ FailsFile e := by
  obtain ⟨s, e, hs, hrest, -, hshown⟩ := (Sample.planning "public").reachable_unsynced
  have hchanged : s.world.shown Sample.planOptions.outputPath ≠ none := by
    rw [hshown]
    exact Option.some_ne_none _
  exact ⟨s, hchanged, fun hfine =>
    hchanged ((createPlan_leaves_nothing_iff Sample.crates hs hrest).mpr hfine)⟩

end DmlPact
