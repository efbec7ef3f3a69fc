/-
DmlPact/Apply/Evidence.lean

What fingerprinting a target set returns, for every answer of the server.  The
loop keeps one invariant, that the buffer is within the limit
(`Collecting`); what the whole loop returns depends on the total size alone
(`collectEvidence_texts`).  From it follow the cases of the result and, the
texts being readable back from the evidence, what two fingerprints tell about
each other (`targetSetSha256_exact`).
-/
import DmlPact.Apply.Fingerprint

namespace DmlPact

open Effect

/-! ### Sizes -/

/-- The bytes of evidence that the texts take. -/
def evidenceSize (texts : List String) : Nat :=
  (texts.map fun text => 8 + (asBytes text).length).sum

theorem length_rowEvidence (texts : List String) :
    (rowEvidence texts).length = evidenceSize texts := by
  induction texts with
  | nil => rfl
  | cons text texts ih =>
      show (toBeBytes (asBytes text).length ++ asBytes text ++ rowEvidence texts).length =
        8 + (asBytes text).length + evidenceSize texts
      rw [List.length_append, List.length_append, length_toBeBytes, ih]

theorem evidenceSize_mono {before texts : List String} (h : before <+: texts) :
    evidenceSize before ≤ evidenceSize texts := by
  obtain ⟨after, rfl⟩ := h
  rw [evidenceSize, evidenceSize, List.map_append, List.sum_append]
  exact Nat.le_add_right _ _

/-- Some prefix exceeds the limit exactly when the whole does. -/
theorem exceeds_iff {texts : List String} {limit : Nat} :
    (∃ before, before <+: texts ∧ limit < evidenceSize before) ↔ limit < evidenceSize texts := by
  constructor
  · rintro ⟨before, hle, hexceeds⟩
    exact hexceeds.trans_le (evidenceSize_mono hle)
  · intro hexceeds
    exact ⟨texts, List.prefix_refl texts, hexceeds⟩

/-- No more rows than bytes, eight to a row. -/
theorem length_le_evidenceSize (texts : List String) : 8 * texts.length ≤ evidenceSize texts := by
  induction texts with
  | nil => exact Nat.le_refl 0
  | cons text texts ih =>
      show 8 * (texts.length + 1) ≤ 8 + (asBytes text).length + evidenceSize texts
      omega

/-! ### The loop -/

/-- The states of the loop over the rows: the buffer, the counter, and the rows
that are left. -/
inductive Collecting (rows : List Row) : Utf8.Bytes → Nat → List Row → Prop
  | start : Collecting rows [] 0 rows
  | next {evidence : Utf8.Bytes} {observed : Nat} {row : Row} {rest : List Row} {value : String}
      (h : Collecting rows evidence observed (row :: rest)) (hvalue : row.get 0 = some value)
      (hfits : ¬ maxTargetEvidenceBytes < evidence.length + 8 + (asBytes value).length) :
      Collecting rows (evidence ++ toBeBytes (asBytes value).length ++ asBytes value)
        (observed + 1) rest

/-- They are the states that the loop goes through. -/
theorem Collecting.eq {rows rest : List Row} {evidence : Utf8.Bytes} {observed : Nat}
    (h : Collecting rows evidence observed rest) :
    collectEvidence [] 0 rows = collectEvidence evidence observed rest := by
  induction h with
  | start => rfl
  | next h hvalue hfits ih =>
      rw [ih, collectEvidence, hvalue]
      simp only [Option.bind_eq_bind, Option.bind_some]
      rw [if_neg hfits]

/-- **Bounded buffer.**  In every state the buffer is within the limit. -/
theorem Collecting.length_le {rows rest : List Row} {evidence : Utf8.Bytes} {observed : Nat}
    (h : Collecting rows evidence observed rest) : evidence.length ≤ maxTargetEvidenceBytes := by
  induction h with
  | start => exact Nat.zero_le _
  | next h hvalue hfits ih =>
      rw [List.length_append, List.length_append, length_toBeBytes]
      exact Nat.not_lt.mp hfits

/-- The rows of an answer without NULLs. -/
def textRows (texts : List String) : List Row := texts.map fun text => textRow (some text)

theorem rowTexts_textRows (texts : List String) : rowTexts (textRows texts) = some texts := by
  have hrows : textRows texts = (texts.map some).map textRow := by
    rw [textRows, List.map_map]
    rfl
  rw [hrows]
  exact rowTexts_textRow.mpr rfl

/-- **Loop.**  What it returns depends on whether the evidence exceeds the
limit. -/
theorem collectEvidence_texts {evidence : Utf8.Bytes} {observed : Nat} {texts : List String}
    (hlen : evidence.length ≤ maxTargetEvidenceBytes) :
    collectEvidence evidence observed (textRows texts) = some
      (if maxTargetEvidenceBytes < evidence.length + evidenceSize texts then
        .error targetEvidenceBytesExceeded
      else .ok (evidence ++ rowEvidence texts, observed + texts.length)) := by
  induction texts generalizing evidence observed with
  | nil =>
      have hfits : ¬ maxTargetEvidenceBytes < evidence.length + evidenceSize [] :=
        Nat.not_lt.mpr hlen
      rw [if_neg hfits]
      show some (Except.ok (evidence, observed)) = _
      rw [show rowEvidence [] = [] from rfl, List.append_nil]
      rfl
  | cons text texts ih =>
      have hsize : evidenceSize (text :: texts) = 8 + (asBytes text).length + evidenceSize texts :=
        rfl
      have hrows : textRows (text :: texts) = textRow (some text) :: textRows texts := rfl
      have hvalue : (textRow (some text)).get 0 = some text := rfl
      rw [hrows, collectEvidence, hvalue]
      simp only [Option.bind_eq_bind, Option.bind_some]
      -- a row that exceeds the limit ends the loop; the total then exceeds it too
      by_cases hexceeds : maxTargetEvidenceBytes < evidence.length + 8 + (asBytes text).length
      · rw [if_pos hexceeds, if_pos (by omega)]
        rfl
      · have hnext : (evidence ++ toBeBytes (asBytes text).length ++ asBytes text).length =
            evidence.length + 8 + (asBytes text).length := by
          rw [List.length_append, List.length_append, length_toBeBytes]
        have hsum : evidence.length + 8 + (asBytes text).length + evidenceSize texts =
            evidence.length + evidenceSize (text :: texts) := by omega
        have hbytes : evidence ++ toBeBytes (asBytes text).length ++ asBytes text ++
            rowEvidence texts = evidence ++ rowEvidence (text :: texts) := by
          simp only [rowEvidence, List.flatMap_cons, List.append_assoc]
        have hcount : observed + 1 + texts.length = observed + (text :: texts).length := by
          rw [List.length_cons]
          omega
        rw [if_neg hexceeds, ih (by omega), hnext, hsum, hbytes, hcount]

/-! ### The fingerprint -/

variable (X : Crates)

def targetEvidenceCountMismatch : AppError :=
  contract "target_evidence_count_mismatch"
    "target evidence count does not match the pre-count in the same transaction"

/-- What fingerprinting returns for an answer with these texts. -/
def fingerprint (texts : List String) (expectedCount : UInt64) : AppResult String :=
  if maxTargetEvidenceBytes < evidenceSize texts then .error targetEvidenceBytesExceeded
  else if texts.length ≠ expectedCount.toNat then .error targetEvidenceCountMismatch
  else .ok (sha256Bytes X (rowEvidence texts))

/-- Rows that fit do not overflow the counter. -/
theorem ofNat_length_eq_iff {texts : List String} {expectedCount : UInt64}
    (hfits : ¬ maxTargetEvidenceBytes < evidenceSize texts) :
    UInt64.ofNat texts.length = expectedCount ↔ texts.length = expectedCount.toNat := by
  have hlen := length_le_evidenceSize texts
  have hmax : maxTargetEvidenceBytes = 67108864 := rfl
  have hsmall : (UInt64.ofNat texts.length).toNat = texts.length := by
    rw [UInt64.toNat_ofNat']
    exact Nat.mod_eq_of_lt (by omega)
  rw [← UInt64.toNat_inj, hsmall]

/-- The run of fingerprinting an answer returns the fingerprint. -/
theorem reaches_targetSetSha256 {analyzed : AnalyzedSql} {query : String}
    (hquery : analyzed.targetRowsSql = some query) (texts : List String) (expectedCount : UInt64) :
    Reaches (targetSetSha256 X analyzed expectedCount).run
      [⟨.query query [], ⟨textRows texts, true⟩⟩] (.ret (fingerprint X texts expectedCount)) := by
  have hloop := @collectEvidence_texts [] 0 texts (Nat.zero_le _)
  rw [List.length_nil, Nat.zero_add, Nat.zero_add, List.nil_append] at hloop
  unfold targetSetSha256
  rw [hquery]
  dsimp only
  rw [request_bind]
  refine .call ?_
  rw [run_bind, hloop, fingerprint]
  by_cases hexceeds : maxTargetEvidenceBytes < evidenceSize texts
  · rw [if_pos hexceeds, if_pos hexceeds]
    exact .refl _
  · rw [if_neg hexceeds, if_neg hexceeds, run_orPanic_some, Prog.ret_bind, onOk_ok, run_bind,
      run_ofResult]
    dsimp only [Prog.ret_bind, onOk_ok]
    by_cases hcount : texts.length = expectedCount.toNat
    · have hsame := (ofNat_length_eq_iff hexceeds).mpr hcount
      rw [if_neg (by simp), if_neg (by simpa using hsame), if_neg (not_not.mpr hcount)]
      exact .refl _
    · have hother : UInt64.ofNat texts.length ≠ expectedCount :=
        fun hsame => hcount ((ofNat_length_eq_iff hexceeds).mp hsame)
      rw [if_neg (by simp), if_pos (by simpa using hother), if_pos hcount]
      exact .refl _

/-- With this answer to the target query, fingerprinting returns `result`. -/
def Fingerprints (analyzed : AnalyzedSql) (texts : List String) (expectedCount : UInt64)
    (result : AppResult String) : Prop :=
  ∃ query, analyzed.targetRowsSql = some query ∧
    Reaches (targetSetSha256 X analyzed expectedCount).run
      [⟨.query query [], ⟨textRows texts, true⟩⟩] (.ret result)

theorem fingerprints_iff {analyzed : AnalyzedSql} {query : String}
    (hquery : analyzed.targetRowsSql = some query) {texts : List String} {expectedCount : UInt64}
    {result : AppResult String} :
    Fingerprints X analyzed texts expectedCount result ↔
      result = fingerprint X texts expectedCount := by
  have hrun := reaches_targetSetSha256 X hquery texts expectedCount
  constructor
  · rintro ⟨query', hquery', hr⟩
    obtain rfl := Option.some.inj (hquery.symm.trans hquery')
    have hsame := hr.unique hrun
    exact Prog.ret.inj hsame
  · rintro rfl
    exact ⟨query, hquery, hrun⟩

/-- Texts in an order that keeps different texts apart are determined by how
often each occurs. -/
theorem texts_eq_iff {order : String → String → Prop}
    (hanti : ∀ s t, order s t → order t s → s = t) {texts texts' : List String}
    (hsorted : texts.Pairwise order) (hsorted' : texts'.Pairwise order) :
    texts = texts' ↔ (texts : Multiset String) = texts' := by
  constructor
  · intro heq
    rw [heq]
  · intro heq
    exact (Multiset.coe_eq_coe.mp heq).eq_of_pairwise (fun s t _ _ => hanti s t) hsorted hsorted'

/-- A fingerprint that is exact and bounded. -/
structure ExactFingerprint (analyzed : AnalyzedSql) : Prop where
  returns : ∀ texts expectedCount, ∃! result, Fingerprints X analyzed texts expectedCount result
  ok_iff : ∀ {texts expectedCount result}, Fingerprints X analyzed texts expectedCount result →
    ((∃ hash, result = .ok hash) ↔
      texts.length = expectedCount.toNat ∧ evidenceSize texts ≤ 67108864)
  budget_iff : ∀ {texts expectedCount result}, Fingerprints X analyzed texts expectedCount result →
    (result = .error targetEvidenceBytesExceeded ↔
      ∃ before, before <+: texts ∧ 67108864 < evidenceSize before)
  mismatch_iff : ∀ {texts expectedCount result},
    Fingerprints X analyzed texts expectedCount result →
    (result = .error targetEvidenceCountMismatch ↔
      texts.length ≠ expectedCount.toNat ∧
        ¬ ∃ before, before <+: texts ∧ 67108864 < evidenceSize before)
  bounded : ∀ {texts evidence observed rest},
    Collecting (textRows texts) evidence observed rest →
      collectEvidence [] 0 (textRows texts) = collectEvidence evidence observed rest ∧
        evidence.length ≤ 67108864
  eq_iff : ∀ {analyzed' texts texts' count count' hash hash'},
    Fingerprints X analyzed texts count (.ok hash) →
    Fingerprints X analyzed' texts' count' (.ok hash') →
    NoCollision X {rowEvidence texts, rowEvidence texts'} → (hash = hash' ↔ texts = texts')
  eq_iff_multiset : ∀ {analyzed' texts texts' count count' hash hash'}
    (order : String → String → Prop), (∀ s t, order s t → order t s → s = t) →
    texts.Pairwise order → texts'.Pairwise order →
    Fingerprints X analyzed texts count (.ok hash) →
    Fingerprints X analyzed' texts' count' (.ok hash') →
    NoCollision X {rowEvidence texts, rowEvidence texts'} →
    (hash = hash' ↔ (texts : Multiset String) = texts')

theorem fingerprint_ok_iff {texts : List String} {expectedCount : UInt64} {hash : String} :
    fingerprint X texts expectedCount = .ok hash ↔
      evidenceSize texts ≤ maxTargetEvidenceBytes ∧ texts.length = expectedCount.toNat ∧
        hash = sha256Bytes X (rowEvidence texts) := by
  unfold fingerprint
  split_ifs with hexceeds hcount
  · exact ⟨nofun, fun hok => absurd hok.1 (Nat.not_le.mpr hexceeds)⟩
  · exact ⟨nofun, fun hok => absurd hok.2.1 hcount⟩
  · rw [Except.ok.injEq]
    exact ⟨fun heq => ⟨Nat.not_lt.mp hexceeds, not_not.mp hcount, heq.symm⟩, fun hok => hok.2.2.symm⟩

/-- Two fingerprints are equal exactly when the texts are. -/
theorem fingerprints_eq_iff {analyzed analyzed' : AnalyzedSql} {texts texts' : List String}
    {count count' : UInt64} {hash hash' : String}
    (h : Fingerprints X analyzed texts count (.ok hash))
    (h' : Fingerprints X analyzed' texts' count' (.ok hash'))
    (hfree : NoCollision X {rowEvidence texts, rowEvidence texts'}) :
    hash = hash' ↔ texts = texts' := by
  obtain ⟨query, hquery, -⟩ := id h
  obtain ⟨query', hquery', -⟩ := id h'
  obtain ⟨hfits, -, rfl⟩ := (fingerprint_ok_iff X).mp ((fingerprints_iff X hquery).mp h).symm
  obtain ⟨-, -, rfl⟩ := (fingerprint_ok_iff X).mp ((fingerprints_iff X hquery').mp h').symm
  constructor
  · intro heq
    have hbytes := hfree (.inl rfl) (.inr rfl) heq
    refine rowEvidence_injective ?_ hbytes
    rw [length_rowEvidence]
    exact hfits.trans_lt (by decide)
  · intro heq
    rw [heq]

/-- An UPDATE and a DELETE have a target query. -/
theorem targetRowsSql_of_kind {raw : String} {a : AnalyzedSql} (h : analyzeSql X raw = .ok a)
    (hkind : a.kind ≠ .insert) : ∃ query, a.targetRowsSql = some query := by
  obtain ⟨statement, details, -, -, hdetails, rfl⟩ := analyzeSql_ok X h
  rcases analyzeStatement_ok X hdetails with ⟨-, hinsert, -⟩ | ⟨kind, table, selection, -, hselection⟩
  · exact absurd hinsert hkind
  · obtain ⟨name, rowReference, -, rfl⟩ := selectionDetails_ok X hselection
    exact ⟨_, rfl⟩

/-- **Exact and bounded.**  Of an UPDATE or a DELETE, whatever texts the target
query yields. -/
theorem targetSetSha256_exact {raw : String} {a : AnalyzedSql} (h : analyzeSql X raw = .ok a)
    (hkind : a.kind ≠ .insert) : ExactFingerprint X a := by
  obtain ⟨query, hquery⟩ := targetRowsSql_of_kind X h hkind
  have hmax : maxTargetEvidenceBytes = 67108864 := rfl
  have hdiffer : targetEvidenceBytesExceeded ≠ targetEvidenceCountMismatch := by decide
  refine ⟨fun texts count => ?_, fun hr => ?_, fun hr => ?_, fun hr => ?_, fun hloop => ?_,
    fun hr hr' => ?_, fun order hanti hsorted hsorted' hr hr' hfree => ?_⟩
  · refine ⟨fingerprint X texts count, (fingerprints_iff X hquery).mpr rfl, fun result hr => ?_⟩
    exact (fingerprints_iff X hquery).mp hr
  · obtain rfl := (fingerprints_iff X hquery).mp hr
    constructor
    · rintro ⟨hash, hok⟩
      obtain ⟨hfits, hcount, -⟩ := (fingerprint_ok_iff X).mp hok
      exact ⟨hcount, hfits⟩
    · rintro ⟨hcount, hfits⟩
      exact ⟨_, (fingerprint_ok_iff X).mpr ⟨hfits, hcount, rfl⟩⟩
  · obtain rfl := (fingerprints_iff X hquery).mp hr
    rw [exceeds_iff, ← hmax, fingerprint]
    split_ifs with hexceeds hcount
    · exact iff_of_true rfl hexceeds
    · exact iff_of_false (fun heq => hdiffer (Except.error.inj heq).symm) hexceeds
    · exact iff_of_false nofun hexceeds
  · obtain rfl := (fingerprints_iff X hquery).mp hr
    rw [exceeds_iff, ← hmax, fingerprint]
    split_ifs with hexceeds hcount
    · exact iff_of_false (fun heq => hdiffer (Except.error.inj heq)) fun hrest => hrest.2 hexceeds
    · exact iff_of_true rfl ⟨hcount, hexceeds⟩
    · exact iff_of_false nofun fun hrest => hcount hrest.1
  · exact ⟨hloop.eq, hloop.length_le⟩
  · exact fingerprints_eq_iff X hr hr'
  · rw [fingerprints_eq_iff X hr hr' hfree]
    exact texts_eq_iff hanti hsorted hsorted'

theorem targetSetSha256_exact_sample : ExactFingerprint Sample.crates Sample.analysis :=
  targetSetSha256_exact Sample.crates Sample.analysis_eq (by decide)

end DmlPact
