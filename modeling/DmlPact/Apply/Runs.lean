/-
DmlPact/Apply/Runs.lean

What a successful run of each function looks like: the commands it issued, the
answers it got, and what it made of them.  Everything later about runs of
`applyPlan` is assembled from these lemmas, so a change to one function stays
in one of them.
-/
import DmlPact.Apply.Stages

namespace DmlPact

open Effect Utf8

variable (X : Crates) {h : History}

/-! ### Clock and files -/

theorem unixMs_ok {t : UInt64} :
    Reaches unixMs.run h (.ret (.ok t)) ↔ h = [⟨.now, some t.toNat⟩] := by
  unfold unixMs
  rw [ok_request]
  constructor
  · rintro ⟨time, rest, rfl, hr⟩
    rcases time with - | ms
    · exact (ok_throw.mp hr).elim
    · rcases ok_ite.mp hr with ⟨hms, hr⟩ | ⟨-, hr⟩
      · obtain ⟨rfl, rfl⟩ := ok_pure.mp hr
        rw [UInt64.toNat_ofNat_of_lt' hms]
      · exact (ok_throw.mp hr).elim
  · rintro rfl
    exact ⟨some t.toNat, [], rfl,
      ok_ite.mpr (.inl ⟨t.toNat_lt, ok_pure.mpr ⟨rfl, UInt64.ofNat_toNat.symm⟩⟩)⟩

theorem readPlan_ok {path : Path} {plan : Plan} :
    Reaches (readPlan X path).run h (.ret (.ok plan)) ↔
      ∃ metadata bytes, h = [⟨.metadata path, some metadata⟩, ⟨.read path, some bytes⟩] ∧
        ¬ (!metadata.isFile || decide (maxPlanBytes < metadata.len.toNat)) ∧
        decodePlan X bytes = .ok plan := by
  unfold readPlan
  rw [ok_request]
  constructor
  · rintro ⟨found, rest, rfl, hr⟩
    rcases found with - | metadata
    · exact (ok_throw.mp hr).elim
    obtain ⟨hfile, hopen⟩ := ok_unless.mp hr
    obtain ⟨content, rest, rfl, hread⟩ := ok_request.mp hopen
    rcases content with - | bytes
    · exact (ok_throw.mp hread).elim
    obtain ⟨rfl, hplan⟩ := ok_ofResult_last.mp hread
    exact ⟨metadata, bytes, rfl, hfile, hplan⟩
  · rintro ⟨metadata, bytes, rfl, hfile, hplan⟩
    exact ⟨some metadata, _, rfl, ok_unless.mpr
      ⟨hfile, ok_request.mpr ⟨some bytes, [], rfl, ok_ofResult_last.mpr ⟨rfl, hplan⟩⟩⟩⟩

/-- The bytes that are read as a plan. -/
theorem decodePlan_ok {bytes : Bytes} {plan : Plan} :
    decodePlan X bytes = .ok plan ↔ bytes.length ≤ maxPlanBytes ∧
      fromSlice Plan.codec bytes = some plan ∧ ∃ hash, verifiedPlanSha256 X plan = .ok hash := by
  unfold decodePlan
  constructor
  · intro hdecoded
    split_ifs at hdecoded with hsize
    rcases hread : fromSlice Plan.codec bytes with - | found
    · rw [hread] at hdecoded
      cases hdecoded
    rw [hread] at hdecoded
    dsimp only at hdecoded
    rcases hverified : verifiedPlanSha256 X found with error | hash
    · rw [hverified] at hdecoded
      cases hdecoded
    · rw [hverified] at hdecoded
      cases hdecoded
      exact ⟨Nat.not_lt.mp hsize, rfl, hash, hverified⟩
  · rintro ⟨hsize, hread, hash, hverified⟩
    rw [if_neg (Nat.not_lt.mpr hsize), hread]
    dsimp only
    rw [hverified]
    rfl

theorem verifyReceipt_ok {path : Path} {v : ReceiptVerification} :
    Reaches (verifyReceipt X path).run h (.ret (.ok v)) ↔
      ∃ metadata bytes, h = [⟨.metadata path, some metadata⟩, ⟨.read path, some bytes⟩] ∧
        ¬ (!metadata.isFile || decide (maxReceiptBytes < metadata.len.toNat)) ∧
        verifyReceiptBytes X bytes = .ok v := by
  unfold verifyReceipt
  rw [ok_request]
  constructor
  · rintro ⟨found, rest, rfl, hr⟩
    rcases found with - | metadata
    · exact (ok_throw.mp hr).elim
    obtain ⟨hfile, hopen⟩ := ok_unless.mp hr
    obtain ⟨content, rest, rfl, hread⟩ := ok_request.mp hopen
    rcases content with - | bytes
    · exact (ok_throw.mp hread).elim
    obtain ⟨rfl, hverified⟩ := ok_ofResult_last.mp hread
    exact ⟨metadata, bytes, rfl, hfile, hverified⟩
  · rintro ⟨metadata, bytes, rfl, hfile, hverified⟩
    exact ⟨some metadata, _, rfl, ok_unless.mpr
      ⟨hfile, ok_request.mpr ⟨some bytes, [], rfl, ok_ofResult_last.mpr ⟨rfl, hverified⟩⟩⟩⟩

theorem readAndAnalyze_ok {path : Path} {analyzed : AnalyzedSql} :
    Reaches (readAndAnalyze X path).run h (.ret (.ok analyzed)) ↔
      ∃ metadata bytes text,
        h = [⟨.metadata path, some metadata⟩, ⟨.read path, some bytes⟩] ∧
        metadata.isFile ∧ metadata.len.toNat ≤ maxSqlBytes ∧
        decode bytes = some text ∧ analyzeSql X (String.ofList text) = .ok analyzed := by
  unfold readAndAnalyze
  rw [ok_request]
  constructor
  · rintro ⟨found, rest, rfl, hr⟩
    rcases found with - | metadata
    · exact (ok_throw.mp hr).elim
    obtain ⟨hfile, hsize⟩ := ok_unless.mp hr
    obtain ⟨hlen, hopen⟩ := ok_unless.mp hsize
    obtain ⟨content, rest, rfl, hread⟩ := ok_request.mp hopen
    rcases content with - | bytes
    · exact (ok_throw.mp hread).elim
    dsimp only at hread
    rcases hd : decode bytes with - | text
    · rw [hd] at hread
      exact (ok_throw.mp hread).elim
    rw [hd] at hread
    obtain ⟨rfl, han⟩ := ok_ofResult_last.mp hread
    exact ⟨metadata, bytes, text, rfl, by simpa using hfile, Nat.not_lt.mp hlen, hd, han⟩
  · rintro ⟨metadata, bytes, text, rfl, hfile, hlen, hd, han⟩
    refine ⟨some metadata, _, rfl, ok_unless.mpr ⟨by simpa using hfile, ok_unless.mpr
      ⟨Nat.not_lt.mpr hlen, ok_request.mpr ⟨some bytes, [], rfl, ?_⟩⟩⟩⟩
    dsimp only
    rw [hd]
    exact ok_ofResult_last.mpr ⟨rfl, han⟩

theorem writeDurably_ok {path : Path} {bytes : Bytes} :
    Reaches (writeDurably path bytes).run h (.ret (.ok true)) ↔
      h = [⟨.writeAll path bytes, .done⟩, ⟨.syncAll path, true⟩] := by
  unfold writeDurably
  rw [ok_request]
  constructor
  · rintro ⟨written, rest, rfl, hr⟩
    rcases written with - | n
    · have hsync := ok_request_last.mp hr
      rw [hsync]
    · obtain ⟨-, hq⟩ := ok_pure.mp hr
      cases hq
  · rintro rfl
    exact ⟨.done, _, rfl, ok_request_last.mpr rfl⟩

theorem writeEvent_ok {path : Path} {event : ReceiptEvent} :
    Reaches (writeEvent path event).run h (.ret (.ok ())) ↔
      h = [⟨.writeAll path (eventLine event), .done⟩, ⟨.syncAll path, true⟩] := by
  unfold writeEvent
  rw [Reaches.run_bind_ok_iff]
  constructor
  · rintro ⟨h₁, h₂, durable, rfl, hw, hr⟩
    cases durable
    · exact (ok_throw.mp hr).elim
    · obtain ⟨rfl, -⟩ := ok_pure.mp hr
      rw [writeDurably_ok.mp hw, List.append_nil]
  · rintro rfl
    exact ⟨_, [], true, (List.append_nil _).symm, writeDurably_ok.mpr rfl, .refl _⟩

/-! ### The journal -/

/-- The hash an event carries once sealed. -/
def sealedWith (event : ReceiptEvent) : ReceiptEvent :=
  { event with
    eventSha256 := some (sha256Bytes X (toVec (ReceiptEvent.codec.ser event.unsigned))) }

theorem sealEvent_eq (event : ReceiptEvent) :
    sealEvent X event = .ok (sealedWith X event) := rfl

theorem create_ok {path : Path} {plan : Plan} {sqlFileSha256 : String}
    {journal : ReceiptJournal} :
    Reaches (ReceiptJournal.create X path plan sqlFileSha256).run h (.ret (.ok journal)) ↔
      ∃ planSha256 t, verifiedPlanSha256 X plan = .ok planSha256 ∧
        journal = ⟨path, sealedWith X (preparedEvent X planSha256 sqlFileSha256 t)⟩ ∧
        h = [⟨.now, some t.toNat⟩, ⟨.createNew path, true⟩,
          ⟨.writeAll path (eventLine journal.prepared), .done⟩, ⟨.syncAll path, true⟩] := by
  unfold ReceiptJournal.create
  rw [ok_ofResult]
  refine exists_congr fun planSha256 => ?_
  rw [Reaches.run_bind_ok_iff]
  constructor
  · rintro ⟨hplan, h₁, h₂, t, rfl, ht, hr⟩
    obtain ⟨prepared, hprepared, hopen⟩ := ok_ofResult.mp hr
    rw [sealEvent_eq] at hprepared
    cases hprepared
    obtain ⟨created, h₃, rfl, hopened⟩ := ok_request.mp hopen
    cases created
    · exact (ok_throw.mp hopened).elim
    obtain ⟨h₄, h₅, _, rfl, hw, hdone⟩ := Reaches.run_bind_ok_iff.mp hopened
    obtain ⟨rfl, rfl⟩ := ok_pure.mp hdone
    refine ⟨t, hplan, rfl, ?_⟩
    rw [unixMs_ok.mp ht, writeEvent_ok.mp hw]
    rfl
  · rintro ⟨t, hplan, rfl, rfl⟩
    refine ⟨hplan, [⟨.now, some t.toNat⟩], _, t, rfl, unixMs_ok.mpr rfl,
      ok_ofResult.mpr ⟨_, sealEvent_eq X _, ok_request.mpr ⟨true, _, rfl,
        Reaches.run_bind_ok_iff.mpr ⟨_, [], (), (List.append_nil _).symm,
          writeEvent_ok.mpr rfl, ok_pure.mpr ⟨rfl, rfl⟩⟩⟩⟩⟩

theorem finalize_ok {journal : ReceiptJournal} {state : ReceiptState} {result : ReceiptResult}
    {event : ReceiptEvent} :
    Reaches (journal.finalize X state result).run h (.ret (.ok event)) ↔
      state.isFinal ∧ ∃ t, event = sealedWith X (terminalEvent journal.prepared t state result) ∧
        h = [⟨.now, some t.toNat⟩, ⟨.writeAll journal.path (eventLine event), .done⟩,
          ⟨.syncAll journal.path, true⟩] := by
  unfold ReceiptJournal.finalize
  rw [ok_unless, Reaches.run_bind_ok_iff]
  refine and_congr (by simp) ?_
  constructor
  · rintro ⟨h₁, h₂, t, rfl, ht, hr⟩
    obtain ⟨sealed, hsealed, hwrite⟩ := ok_ofResult.mp hr
    rw [sealEvent_eq] at hsealed
    cases hsealed
    obtain ⟨h₃, h₄, _, rfl, hw, hdone⟩ := Reaches.run_bind_ok_iff.mp hwrite
    obtain ⟨rfl, rfl⟩ := ok_pure.mp hdone
    refine ⟨t, rfl, ?_⟩
    rw [unixMs_ok.mp ht, writeEvent_ok.mp hw]
    rfl
  · rintro ⟨t, rfl, rfl⟩
    exact ⟨[⟨.now, some t.toNat⟩], _, t, rfl, unixMs_ok.mpr rfl,
      ok_ofResult.mpr ⟨_, sealEvent_eq X _, Reaches.run_bind_ok_iff.mpr
        ⟨_, [], (), (List.append_nil _).symm, writeEvent_ok.mpr rfl, ok_pure.mpr ⟨rfl, rfl⟩⟩⟩⟩

/-! ### The connection -/

/-- The configuration as the program completes it. -/
def clientConfig (parsed : Config) : Config :=
  { parsed with applicationName := some "dmlpact/0.1", connectTimeoutSecs := some 10 }

/-- What a successful connection leaves in the history. -/
def connectHistory (environmentName value : String) (config : Config) :
    TransportPolicy → History
  | .tlsRequired =>
      [⟨.var environmentName, some value⟩, ⟨.nativeCerts, true⟩,
        ⟨.connect { config with sslMode := .require } .nativeRoots, true⟩]
  | .insecureLocalhost =>
      [⟨.var environmentName, some value⟩,
        ⟨.connect { config with sslMode := .disable } .noTls, true⟩]

theorem connectDatabase_ok {options : DatabaseOptions} {database : ConnectedDatabase} :
    Reaches (connectDatabase X options.environmentName options.allowInsecureLocalhost).run h
        (.ret (.ok database)) ↔
      ∃ value parsed, validateEnvironmentName options.environmentName = .ok () ∧
        ¬ maxConnectionValueBytes < (asBytes value).length ∧
        X.parseConfig value = some parsed ∧
        (options.allowInsecureLocalhost → allHostsAreLocal (clientConfig parsed)) ∧
        database = ⟨requestedTransport options, endpointSha256 X (clientConfig parsed)⟩ ∧
        h = connectHistory options.environmentName value (clientConfig parsed)
          (requestedTransport options) := by
  obtain ⟨name, insecure⟩ := options
  unfold connectDatabase
  rw [ok_ofResult]
  constructor
  · rintro ⟨⟨⟩, hname, hr⟩
    obtain ⟨found, rest, rfl, hvalue⟩ := ok_request.mp hr
    rcases found with - | value
    · exact (ok_throw.mp hvalue).elim
    obtain ⟨hlen, hparse⟩ := ok_unless.mp hvalue
    rcases hp : X.parseConfig value with - | parsed
    · simp only [hp] at hparse
      exact (ok_throw.mp hparse).elim
    simp only [hp] at hparse
    refine ⟨value, parsed, hname, hlen, hp, ?_⟩
    -- the two transports: TLS asks for the root certificates, a local host does not
    cases insecure
    · obtain ⟨roots, rest, rfl, hroots⟩ := ok_request.mp hparse
      cases roots
      · exact (ok_throw.mp hroots).elim
      obtain ⟨opened, rest, rfl, hopened⟩ := ok_request.mp hroots
      cases opened
      · exact (ok_throw.mp hopened).elim
      obtain ⟨rfl, rfl⟩ := ok_pure.mp hopened
      exact ⟨nofun, rfl, rfl⟩
    · obtain ⟨hlocal, hopen⟩ := ok_unless.mp hparse
      obtain ⟨opened, rest, rfl, hopened⟩ := ok_request.mp hopen
      cases opened
      · exact (ok_throw.mp hopened).elim
      obtain ⟨rfl, rfl⟩ := ok_pure.mp hopened
      exact ⟨fun _ => by simpa [clientConfig] using hlocal, rfl, rfl⟩
  · rintro ⟨value, parsed, hname, hlen, hp, hlocal, rfl, rfl⟩
    refine ⟨(), hname, ok_request.mpr ?_⟩
    cases insecure
    · refine ⟨some value, _, rfl, ok_unless.mpr ⟨hlen, ?_⟩⟩
      simp only [hp]
      exact ok_request.mpr ⟨true, _, rfl, ok_request.mpr ⟨true, [], rfl,
        ok_pure.mpr ⟨rfl, rfl⟩⟩⟩
    · refine ⟨some value, _, rfl, ok_unless.mpr ⟨hlen, ?_⟩⟩
      simp only [hp]
      have hhosts : ¬ (!allHostsAreLocal (clientConfig parsed)) = true := by
        simpa using hlocal rfl
      exact ok_unless.mpr ⟨hhosts, ok_request.mpr ⟨true, [], rfl,
        ok_pure.mpr ⟨rfl, rfl⟩⟩⟩

theorem applyLocalTimeouts_ok {limits : Limits} :
    Reaches (applyLocalTimeouts limits).run h (.ret (.ok ())) ↔
      h = [⟨.batchExecute (timeoutSettings limits), true⟩] := by
  unfold applyLocalTimeouts
  rw [ok_request]
  constructor
  · rintro ⟨done, rest, rfl, hr⟩
    cases done
    · exact (ok_throw.mp hr).elim
    · obtain ⟨rfl, -⟩ := ok_pure.mp hr
      rfl
  · rintro rfl
    exact ⟨true, [], rfl, ok_pure.mpr ⟨rfl, rfl⟩⟩

/-! ### Queries -/

theorem queryOne_ok {sql : String} {params : List SqlValue} {row : Row} :
    Reaches (queryOne sql params).run h (.ret (.ok (some row))) ↔
      h = [⟨.query sql params, ⟨[row], true⟩⟩] := by
  unfold queryOne
  rw [ok_request]
  constructor
  · rintro ⟨answer, rest, rfl, hr⟩
    split at hr
    · obtain ⟨rfl, hrow⟩ := ok_pure.mp hr
      cases hrow
      rfl
    · obtain ⟨-, hrow⟩ := ok_pure.mp hr
      cases hrow
  · rintro rfl
    exact ⟨⟨[row], true⟩, [], rfl, ok_pure.mpr ⟨rfl, rfl⟩⟩

theorem queryOpt_ok {sql : String} {params : List SqlValue} {row : Row} :
    Reaches (queryOpt sql params).run h (.ret (.ok (some (some row)))) ↔
      h = [⟨.query sql params, ⟨[row], true⟩⟩] := by
  unfold queryOpt
  rw [ok_request]
  constructor
  · rintro ⟨answer, rest, rfl, hr⟩
    split at hr
    · obtain ⟨-, hrow⟩ := ok_pure.mp hr
      cases hrow
    · obtain ⟨rfl, hrow⟩ := ok_pure.mp hr
      cases hrow
      rfl
    · obtain ⟨-, hrow⟩ := ok_pure.mp hr
      cases hrow
  · rintro rfl
    exact ⟨⟨[row], true⟩, [], rfl, ok_pure.mpr ⟨rfl, rfl⟩⟩

theorem queryAll_ok {sql : String} {params : List SqlValue} {rows : List Row} :
    Reaches (queryAll sql params).run h (.ret (.ok (some rows))) ↔
      h = [⟨.query sql params, ⟨rows, true⟩⟩] := by
  unfold queryAll
  rw [ok_request]
  constructor
  · rintro ⟨answer, rest, rfl, hr⟩
    split at hr
    · obtain ⟨rfl, hrow⟩ := ok_pure.mp hr
      cases hrow
      rfl
    · obtain ⟨-, hrow⟩ := ok_pure.mp hr
      cases hrow
  · rintro rfl
    exact ⟨⟨rows, true⟩, [], rfl, ok_pure.mpr ⟨rfl, rfl⟩⟩

/-- The endpoint is in the identity as it was given. -/
theorem ofRow_endpoint {endpoint : String} {row : Row} {identity : DatabaseIdentity}
    (h : DatabaseIdentity.ofRow endpoint row = some identity) :
    identity.endpointSha256 = endpoint := by
  unfold DatabaseIdentity.ofRow at h
  iterate 14 obtain ⟨_, -, h⟩ := Option.bind_eq_some_iff.mp h
  obtain rfl := Option.some.inj h
  rfl

theorem databaseIdentity_ok {endpoint : String} {identity : DatabaseIdentity} :
    Reaches (databaseIdentity endpoint).run h (.ret (.ok identity)) ↔
      ∃ row, DatabaseIdentity.ofRow endpoint row = some identity ∧
        h = [⟨.query identitySql [], ⟨[row], true⟩⟩] := by
  unfold databaseIdentity
  rw [Reaches.run_bind_ok_iff]
  constructor
  · rintro ⟨h₁, h₂, answer, rfl, hq, hr⟩
    rcases answer with - | row
    · exact (ok_throw.mp hr).elim
    obtain ⟨rfl, hrow⟩ := ok_orPanic_last.mp hr
    exact ⟨row, hrow, by rw [queryOne_ok.mp hq, List.append_nil]⟩
  · rintro ⟨row, hrow, rfl⟩
    exact ⟨_, [], some row, (List.append_nil _).symm, queryOne_ok.mpr rfl,
      ok_orPanic_last.mpr ⟨rfl, hrow⟩⟩

theorem catalogRows_ok {α : Type} {decode : Row → Option α} {query : String} {oid : Int64}
    {errorCode : String} {values : List α} :
    Reaches (catalogRows decode query oid errorCode).run h (.ret (.ok values)) ↔
      ∃ rows : List Row, rows.mapM decode = some values ∧
        h = [⟨.query query [.int8 oid], ⟨rows, true⟩⟩] := by
  unfold catalogRows
  rw [Reaches.run_bind_ok_iff]
  constructor
  · rintro ⟨h₁, h₂, answer, rfl, hq, hr⟩
    rcases answer with - | rows
    · exact (ok_throw.mp hr).elim
    obtain ⟨rfl, hrows⟩ := ok_orPanic_last.mp hr
    exact ⟨rows, hrows, by rw [queryAll_ok.mp hq, List.append_nil]⟩
  · rintro ⟨rows, hrows, rfl⟩
    exact ⟨_, [], some rows, (List.append_nil _).symm, queryAll_ok.mpr rfl,
      ok_orPanic_last.mpr ⟨rfl, hrows⟩⟩

/-- The answers to the nine catalog queries about one table. -/
structure EvidenceAnswers where
  lookup : Row
  columns : List Row
  constraints : List Row
  indexes : List Row
  userTriggers : List Row
  rewriteRules : List Row
  policies : List Row
  inheritanceRelations : List Row
  referentialActions : List Row

/-- The evidence the answers amount to, about the table `oid`. -/
def EvidenceAnswers.decode (a : EvidenceAnswers) (oid : Int64) : Option TableEvidence := do
  let columns ← a.columns.mapM ColumnEvidence.ofRow
  let constraints ← a.constraints.mapM NamedDefinition.ofRow
  let indexes ← a.indexes.mapM NamedDefinition.ofRow
  let userTriggers ← a.userTriggers.mapM NamedDefinition.ofRow
  let rewriteRules ← a.rewriteRules.mapM NamedDefinition.ofRow
  let policies ← a.policies.mapM NamedDefinition.ofRow
  let inheritanceRelations ← a.inheritanceRelations.mapM fun row => row.get 0
  let referentialActions ← a.referentialActions.mapM NamedDefinition.ofRow
  return {
    schema := ← a.lookup.get 1
    table := ← a.lookup.get 2
    oid
    relationKind := ← a.lookup.get 3
    persistence := ← a.lookup.get 4
    rowSecurity := ← a.lookup.get 5
    forceRowSecurity := ← a.lookup.get 6
    columns, constraints, indexes, userTriggers, rewriteRules, policies,
    inheritanceRelations, referentialActions }

def EvidenceAnswers.history (a : EvidenceAnswers) (requestedTable : String) (oid : Int64) :
    History :=
  ⟨.query tableLookupSql [.text requestedTable], ⟨[a.lookup], true⟩⟩ ::
    ([(columnSql, a.columns), (constraintSql, a.constraints), (indexSql, a.indexes),
      (triggerSql, a.userTriggers), (ruleSql, a.rewriteRules), (policySql, a.policies),
      (inheritanceSql, a.inheritanceRelations),
      (referentialActionSql, a.referentialActions)].map fun q =>
        ⟨.query q.1 [.int8 oid], ⟨q.2, true⟩⟩)

theorem tableEvidence_ok {requestedTable : String} {evidence : TableEvidence} :
    Reaches (tableEvidence requestedTable).run h (.ret (.ok evidence)) ↔
      ∃ (a : EvidenceAnswers) (oid : Int64), a.lookup.get 0 = some oid ∧
        a.decode oid = some evidence ∧ h = a.history requestedTable oid := by
  unfold tableEvidence
  rw [Reaches.run_bind_ok_iff]
  constructor
  · rintro ⟨h₁, h₂, answer, rfl, hq, hr⟩
    rcases answer with - | - | row
    · exact (ok_throw.mp hr).elim
    · exact (ok_throw.mp hr).elim
    obtain ⟨oid, hoid, hcolumns⟩ := ok_orPanic.mp hr
    -- the eight catalog queries, in the order of the source
    obtain ⟨_, _, columns, rfl, hc, hconstraints⟩ := Reaches.run_bind_ok_iff.mp hcolumns
    obtain ⟨_, _, constraints, rfl, hk, hindexes⟩ := Reaches.run_bind_ok_iff.mp hconstraints
    obtain ⟨_, _, indexes, rfl, hi, htriggers⟩ := Reaches.run_bind_ok_iff.mp hindexes
    obtain ⟨_, _, userTriggers, rfl, ht, hrules⟩ := Reaches.run_bind_ok_iff.mp htriggers
    obtain ⟨_, _, rewriteRules, rfl, hu, hpolicies⟩ := Reaches.run_bind_ok_iff.mp hrules
    obtain ⟨_, _, policies, rfl, hp, hlinks⟩ := Reaches.run_bind_ok_iff.mp hpolicies
    obtain ⟨_, _, inheritanceRelations, rfl, hl, hactions⟩ := Reaches.run_bind_ok_iff.mp hlinks
    obtain ⟨_, _, referentialActions, rfl, ha, hdone⟩ := Reaches.run_bind_ok_iff.mp hactions
    obtain ⟨rfl, hdecode⟩ := ok_orPanic_last.mp hdone
    -- each was answered with the rows that were decoded
    obtain ⟨columnRows, hcr, rfl⟩ := catalogRows_ok.mp hc
    obtain ⟨constraintRows, hkr, rfl⟩ := catalogRows_ok.mp hk
    obtain ⟨indexRows, hir, rfl⟩ := catalogRows_ok.mp hi
    obtain ⟨triggerRows, htr, rfl⟩ := catalogRows_ok.mp ht
    obtain ⟨ruleRows, hur, rfl⟩ := catalogRows_ok.mp hu
    obtain ⟨policyRows, hpr, rfl⟩ := catalogRows_ok.mp hp
    obtain ⟨linkRows, hlr, rfl⟩ := catalogRows_ok.mp hl
    obtain ⟨actionRows, har, rfl⟩ := catalogRows_ok.mp ha
    refine ⟨⟨row, columnRows, constraintRows, indexRows, triggerRows, ruleRows, policyRows,
      linkRows, actionRows⟩, oid, hoid, ?_, by rw [queryOpt_ok.mp hq]; rfl⟩
    simp only [EvidenceAnswers.decode, hcr, hkr, hir, htr, hur, hpr, hlr, har,
      Option.bind_eq_bind, Option.bind_some]
    exact hdecode
  · rintro ⟨a, oid, hoid, hdecode, rfl⟩
    obtain ⟨columns, hcr, hdecode⟩ := Option.bind_eq_some_iff.mp hdecode
    obtain ⟨constraints, hkr, hdecode⟩ := Option.bind_eq_some_iff.mp hdecode
    obtain ⟨indexes, hir, hdecode⟩ := Option.bind_eq_some_iff.mp hdecode
    obtain ⟨userTriggers, htr, hdecode⟩ := Option.bind_eq_some_iff.mp hdecode
    obtain ⟨rewriteRules, hur, hdecode⟩ := Option.bind_eq_some_iff.mp hdecode
    obtain ⟨policies, hpr, hdecode⟩ := Option.bind_eq_some_iff.mp hdecode
    obtain ⟨inheritanceRelations, hlr, hdecode⟩ := Option.bind_eq_some_iff.mp hdecode
    obtain ⟨referentialActions, har, hdecode⟩ := Option.bind_eq_some_iff.mp hdecode
    refine ⟨[_], _, some (some a.lookup), rfl, queryOpt_ok.mpr rfl, ok_orPanic.mpr ⟨oid, hoid, ?_⟩⟩
    -- the same eight steps, now with the answers given
    refine Reaches.run_bind_ok_iff.mpr ⟨[_], _, columns, rfl, catalogRows_ok.mpr ⟨_, hcr, rfl⟩, ?_⟩
    refine Reaches.run_bind_ok_iff.mpr ⟨[_], _, constraints, rfl,
      catalogRows_ok.mpr ⟨_, hkr, rfl⟩, ?_⟩
    refine Reaches.run_bind_ok_iff.mpr ⟨[_], _, indexes, rfl, catalogRows_ok.mpr ⟨_, hir, rfl⟩, ?_⟩
    refine Reaches.run_bind_ok_iff.mpr ⟨[_], _, userTriggers, rfl,
      catalogRows_ok.mpr ⟨_, htr, rfl⟩, ?_⟩
    refine Reaches.run_bind_ok_iff.mpr ⟨[_], _, rewriteRules, rfl,
      catalogRows_ok.mpr ⟨_, hur, rfl⟩, ?_⟩
    refine Reaches.run_bind_ok_iff.mpr ⟨[_], _, policies, rfl,
      catalogRows_ok.mpr ⟨_, hpr, rfl⟩, ?_⟩
    refine Reaches.run_bind_ok_iff.mpr ⟨[_], _, inheritanceRelations, rfl,
      catalogRows_ok.mpr ⟨_, hlr, rfl⟩, ?_⟩
    refine Reaches.run_bind_ok_iff.mpr ⟨[_], [], referentialActions, rfl,
      catalogRows_ok.mpr ⟨_, har, rfl⟩, ?_⟩
    exact ok_orPanic_last.mpr ⟨rfl, hdecode⟩

/-! ### Target evidence -/

theorem targetCount_ok {analyzed : AnalyzedSql} {count : UInt64} :
    Reaches (targetCount analyzed).run h (.ret (.ok count)) ↔
      (analyzed.countSql = none ∧ h = [] ∧ count = analyzed.insertedRows) ∨
        ∃ query row, ∃ n : Int64, analyzed.countSql = some query ∧ row.get 0 = some n ∧
          ¬ n < 0 ∧ count = n.toUInt64 ∧ h = [⟨.query query [], ⟨[row], true⟩⟩] := by
  unfold targetCount
  rcases analyzed.countSql with - | query
  · refine ok_pure.trans ⟨fun hr => .inl ⟨rfl, hr⟩, ?_⟩
    rintro (⟨-, hr⟩ | ⟨_, _, _, hq, -⟩)
    · exact hr
    · cases hq
  dsimp only
  rw [Reaches.run_bind_ok_iff]
  constructor
  · rintro ⟨h₁, h₂, answer, rfl, hq, hr⟩
    rcases answer with - | row
    · exact (ok_throw.mp hr).elim
    obtain ⟨n, hn, htest⟩ := ok_orPanic.mp hr
    obtain ⟨hneg, hdone⟩ := ok_unless.mp htest
    obtain ⟨rfl, rfl⟩ := ok_pure.mp hdone
    exact .inr ⟨query, row, n, rfl, hn, hneg, rfl, by rw [queryOne_ok.mp hq, List.append_nil]⟩
  · rintro (⟨hq, -⟩ | ⟨_, row, n, hq, hn, hneg, rfl, rfl⟩)
    · cases hq
    · cases hq
      exact ⟨_, [], some row, (List.append_nil _).symm, queryOne_ok.mpr rfl,
        ok_orPanic.mpr ⟨n, hn, ok_unless.mpr ⟨hneg, ok_pure.mpr ⟨rfl, rfl⟩⟩⟩⟩

/-- The evidence of a list of row texts: each text behind its length. -/
def rowEvidence (texts : List String) : Bytes :=
  texts.flatMap fun text => toBeBytes (asBytes text).length ++ asBytes text

/-- The texts in the first column of the rows. -/
def rowTexts (rows : List Row) : Option (List String) := rows.mapM fun row => row.get 0

@[simp] theorem length_toBeBytes (n : Nat) : (toBeBytes n).length = 8 := rfl

/-- What the loop has collected, when it ends without exceeding its limit. -/
theorem collectEvidence_ok {evidence result : Bytes} {observed total : Nat} {rows : List Row}
    (hlen : evidence.length ≤ maxTargetEvidenceBytes) :
    collectEvidence evidence observed rows = some (.ok (result, total)) ↔
      ∃ texts, rowTexts rows = some texts ∧ result = evidence ++ rowEvidence texts ∧
        total = observed + texts.length ∧ result.length ≤ maxTargetEvidenceBytes := by
  induction rows generalizing evidence observed with
  | nil =>
      rw [collectEvidence]
      constructor
      · intro hr
        cases hr
        exact ⟨[], rfl, (List.append_nil _).symm, rfl, hlen⟩
      · rintro ⟨texts, ht, rfl, rfl, -⟩
        cases ht
        simp [rowEvidence]
  | cons row rows ih =>
      rw [collectEvidence]
      rcases hv : (row.get 0 : Option String) with - | value
      · simp [rowTexts, List.mapM_cons, hv]
      simp only [Option.bind_eq_bind, Option.bind_some]
      have hnext : (evidence ++ toBeBytes (asBytes value).length ++ asBytes value).length =
          evidence.length + 8 + (asBytes value).length := by simp [Nat.add_assoc]
      split_ifs with hmax
      · -- the limit is exceeded, so no list of texts fits
        refine ⟨nofun, ?_⟩
        rintro ⟨texts, ht, rfl, -, hfit⟩
        simp only [rowTexts, List.mapM_cons, hv, Option.bind_eq_bind, Option.bind_some,
          Option.bind_eq_some_iff] at ht
        obtain ⟨rest, -, hrest⟩ := ht
        cases hrest
        simp only [rowEvidence, List.flatMap_cons, List.length_append, length_toBeBytes] at hfit
        omega
      · rw [ih (by omega)]
        constructor
        · rintro ⟨texts, ht, rfl, rfl, hfit⟩
          refine ⟨value :: texts, ?_, ?_, ?_, hfit⟩
          · simp only [rowTexts, List.mapM_cons, hv] at ht ⊢
            simp [ht]
          · simp [rowEvidence]
          · rw [List.length_cons]; omega
        · rintro ⟨texts, ht, rfl, rfl, hfit⟩
          simp only [rowTexts, List.mapM_cons, hv, Option.bind_eq_bind, Option.bind_some,
            Option.bind_eq_some_iff] at ht
          obtain ⟨rest, hrest, hcons⟩ := ht
          cases hcons
          exact ⟨rest, hrest, by simp [rowEvidence], by rw [List.length_cons]; omega, hfit⟩

theorem targetSetSha256_ok {analyzed : AnalyzedSql} {expectedCount : UInt64} {hash : String} :
    Reaches (targetSetSha256 X analyzed expectedCount).run h (.ret (.ok hash)) ↔
      (analyzed.targetRowsSql = none ∧ h = [] ∧
        hash = sha256Bytes X (asBytes analyzed.normalized)) ∨
      ∃ query rows texts, analyzed.targetRowsSql = some query ∧ rowTexts rows = some texts ∧
        (rowEvidence texts).length ≤ maxTargetEvidenceBytes ∧
        UInt64.ofNat texts.length = expectedCount ∧
        hash = sha256Bytes X (rowEvidence texts) ∧ h = [⟨.query query [], ⟨rows, true⟩⟩] := by
  unfold targetSetSha256
  rcases analyzed.targetRowsSql with - | query
  · refine ok_pure.trans ⟨fun hr => .inl ⟨rfl, hr⟩, ?_⟩
    rintro (⟨-, hr⟩ | ⟨_, _, _, hq, -⟩)
    · exact hr
    · cases hq
  dsimp only
  rw [ok_request]
  constructor
  · rintro ⟨answer, rest, rfl, hr⟩
    obtain ⟨collected, hcollected, hresult⟩ := ok_orPanic.mp hr
    obtain ⟨⟨evidence, observed⟩, rfl, htests⟩ := ok_ofResult.mp hresult
    -- the answer has ended properly, and with the rows that were counted
    obtain ⟨hcomplete, htest⟩ := ok_unless.mp htests
    obtain ⟨hcount, hdone⟩ := ok_unless.mp htest
    obtain ⟨rfl, rfl⟩ := ok_pure.mp hdone
    obtain ⟨texts, ht, rfl, rfl, hfit⟩ := (collectEvidence_ok (Nat.zero_le _)).mp hcollected
    obtain ⟨rows, complete⟩ := answer
    refine .inr ⟨query, rows, texts, rfl, ht, by simpa using hfit, by simpa using hcount,
      by simp, ?_⟩
    simp only [Bool.not_eq_true', Bool.not_eq_false] at hcomplete
    rw [hcomplete]
  · rintro (⟨hq, -⟩ | ⟨_, rows, texts, hq, ht, hfit, hcount, rfl, rfl⟩)
    · cases hq
    · cases hq
      have hcollected : collectEvidence [] 0 rows =
          some (.ok (rowEvidence texts, texts.length)) :=
        (collectEvidence_ok (Nat.zero_le _)).mpr ⟨texts, ht, rfl, (Nat.zero_add _).symm, hfit⟩
      refine ⟨⟨rows, true⟩, [], rfl, ok_orPanic.mpr ⟨_, hcollected, ok_ofResult.mpr
        ⟨_, rfl, ok_unless.mpr ⟨by simp, ok_unless.mpr ⟨by simpa using hcount, ?_⟩⟩⟩⟩⟩
      exact ok_pure.mpr ⟨rfl, rfl⟩

end DmlPact
