/-
DmlPact/Release/Verdict.lean

When readiness finds nothing wrong.  Each stretch of `readiness_errors` is
empty just when its part of the manifest is as `Manifest.Ready` asks
(`windowErrors_eq_nil`, `adoptionErrors_eq_nil`, ...), and so are all of them
together (`Manifest.errors_eq_nil`).

The loop over the repeat adopters carries the names it has seen: no failure
comes of it when none of the names was seen before, no two are the same, and
each use follows a first use (`repeatErrors_eq_nil`).  The names of the
adopters have to be distinct for the dictionary of first uses to keep them all.
-/
import DmlPact.Release.Readiness

namespace DmlPact.Release

open Calendar (Date)

/-! ### Gates -/

theorem gateStatusErrors_eq_nil {m : Manifest} :
    gateStatusErrors m = [] ↔ ∀ gate ∈ m.statuses, gate.2 = "satisfied" := by
  simp only [gateStatusErrors, List.flatMap_eq_nil_iff, failIf_eq_nil, not_not]

theorem gateEvidenceErrors_eq_nil {m : Manifest} :
    gateEvidenceErrors m = [] ↔
      ∀ gate ∈ m.criteria, ∀ criterion ∈ gate.2.1, criterion ∈ gate.2.2 := by
  simp only [gateEvidenceErrors, List.flatMap_eq_nil_iff, failIf_eq_nil, not_not,
    Finset.sdiff_eq_empty_iff_subset, Finset.subset_iff, List.mem_toFinset]

theorem correctnessErrors_eq_nil {correctness : CorrectnessGate} :
    correctnessErrors correctness = [] ↔
      correctness.independentReview ≠ none ∧
        (∀ area, area ∈ correctness.reviewedAreas ↔ area ∈ reviewAreas) ∧
        correctness.openCritical = 0 ∧ correctness.openHigh = 0 := by
  simp only [correctnessErrors, List.append_eq_nil_iff, failIf_eq_nil, not_not, not_or,
    Finset.ext_iff, List.mem_toFinset, and_assoc, ne_eq]

/-! ### The CI window -/

theorem windowErrors_eq_nil {window : CiWindow} :
    windowErrors window = [] ↔ ∃ startDate endDate, window.startDate = some startDate ∧
      window.endDate = some endDate ∧ startDate ≤ endDate ∧
      window.requiredDays ≤ daysBetween startDate endDate + 1 := by
  unfold windowErrors
  rcases window.startDate with - | startDate
  · simp
  · rcases window.endDate with - | endDate
    · simp
    · by_cases h : endDate < startDate
      · simp [h]
      · simp [h, not_lt.mp h]

theorem freshnessErrors_eq_nil {window : CiWindow} {asOf : Date} :
    freshnessErrors window asOf = [] ↔
      ∀ endDate, window.endDate = some endDate → endDate = asOf := by
  rw [freshnessErrors, failIf_eq_nil]
  rcases window.endDate with - | endDate
  · simp
  · simp

theorem platformErrors_eq_nil {window : CiWindow} :
    platformErrors window = [] ↔
      ∀ track ∈ window.tracks, ∀ day, day ∈ track.2 ↔ day ∈ expectedDates window := by
  simp only [platformErrors, List.flatMap_eq_nil_iff, List.append_eq_nil_iff, failIf_eq_nil,
    not_not, Finset.sdiff_eq_empty_iff_subset, Finset.subset_iff, List.mem_toFinset]
  constructor
  · intro h track htrack day
    exact ⟨fun hday => (h track htrack).2 hday, fun hday => (h track htrack).1 hday⟩
  · intro h track htrack
    exact ⟨fun day => (h track htrack day).mpr, fun day => (h track htrack day).mp⟩

theorem mem_expectedDates {window : CiWindow} {startDate endDate day : Date}
    (hstart : window.startDate = some startDate) (hend : window.endDate = some endDate)
    (h : startDate ≤ endDate) :
    day ∈ expectedDates window ↔ startDate ≤ day ∧ day ≤ endDate := by
  simp only [expectedDates, hstart, hend, if_pos h, List.mem_toFinset]
  exact Date.mem_daysThrough h

/-- The three stretches about the CI window. -/
theorem ci_eq_nil {window : CiWindow} {asOf : Date} (hdays : window.requiredDays = 30) :
    (windowErrors window = [] ∧ freshnessErrors window asOf = [] ∧ platformErrors window = []) ↔
      window.Covers asOf := by
  rw [windowErrors_eq_nil, freshnessErrors_eq_nil, platformErrors_eq_nil, hdays]
  constructor
  · rintro ⟨⟨startDate, endDate, hstart, hend, hle, hlong⟩, hfresh, htracks⟩
    obtain rfl := hfresh endDate hend
    refine ⟨hend, startDate, hstart, hlong, ?_⟩
    intro track htrack day
    rw [htracks track htrack day, mem_expectedDates hstart hend hle]
  · rintro ⟨hend, startDate, hstart, hlong, htracks⟩
    have hle : startDate ≤ asOf := by
      rw [Date.le_iff]
      unfold daysBetween at hlong
      omega
    refine ⟨⟨startDate, asOf, hstart, hend, hle, hlong⟩, ?_, ?_⟩
    · intro endDate h
      exact Option.some.inj (h.symm.trans hend)
    · intro track htrack day
      rw [htracks track htrack day, mem_expectedDates hstart hend hle]

theorem continuityErrors_eq_nil {continuity : Continuity} :
    continuityErrors continuity = [] ↔ continuity.Ready := by
  simp only [continuityErrors, List.append_eq_nil_iff, failIf_eq_nil, not_not,
    List.isEmpty_iff, Bool.not_eq_true]
  constructor
  · rintro ⟨⟨hstatus, hmode⟩, hevidence⟩
    refine ⟨hstatus, ?_, hevidence⟩
    rcases hm : continuity.mode with - | mode
    · rw [hm] at hmode
      simp at hmode
    · rw [hm] at hmode
      exact ⟨mode, by simpa using hmode, rfl⟩
  · rintro ⟨hstatus, ⟨mode, hmem, hmode⟩, hevidence⟩
    refine ⟨⟨hstatus, ?_⟩, hevidence⟩
    simp [hmode, hmem]

/-! ### Adoption -/

variable {P : Python}

theorem toFinset_card_eq_iff {α : Type} [DecidableEq α] {xs : List α} :
    xs.toFinset.card = xs.length ↔ xs.Nodup :=
  Multiset.toFinset_card_eq_card_iff_nodup (m := (xs : Multiset α))

theorem adopterErrors_eq_nil {adopters : List Adopter} :
    adopterErrors P adopters = [] ↔ 3 ≤ adopters.length ∧ (adopterNames P adopters).Nodup := by
  have hlength : (adopterNames P adopters).length = adopters.length := List.length_map _
  simp only [adopterErrors, List.append_eq_nil_iff, failIf_eq_nil, not_or, not_lt, not_not,
    toFinset_card_eq_iff]
  constructor
  · rintro ⟨⟨hmany, -⟩, hdistinct⟩
    exact ⟨hmany, hdistinct⟩
  · rintro ⟨hmany, hdistinct⟩
    refine ⟨⟨hmany, ?_⟩, hdistinct⟩
    rw [toFinset_card_eq_iff.mpr hdistinct, hlength]
    exact hmany

/-- The names the loop has seen at its end. -/
theorem repeatErrors_names (firstUse : BTreeMap String Date) (seen : Finset String)
    (repeats : List RepeatAdopter) :
    (repeatErrors P firstUse seen repeats).2 =
      seen ∪ (repeats.map fun entry => folded P entry.adopter).toFinset := by
  induction repeats generalizing seen with
  | nil => simp [repeatErrors]
  | cons entry repeats ih =>
      rw [repeatErrors, List.map_cons, List.toFinset_cons]
      show (repeatErrors P firstUse _ repeats).2 = _
      rw [ih, Finset.insert_union, Finset.union_insert]

theorem repeatUseErrors_eq_nil {entry : RepeatAdopter} {firstUse : Option Date} :
    repeatUseErrors P entry firstUse = [] ↔
      ∃ first, firstUse = some first ∧ 30 ≤ daysBetween first entry.repeatUse := by
  rcases firstUse with - | first
  · simp [repeatUseErrors]
  · simp [repeatUseErrors]

/-- The loop over the repeat adopters, from the names it has seen. -/
theorem repeatErrors_eq_nil (firstUse : BTreeMap String Date) (seen : Finset String)
    (repeats : List RepeatAdopter) :
    (repeatErrors P firstUse seen repeats).1 = [] ↔
      (∀ entry ∈ repeats, folded P entry.adopter ∉ seen) ∧
        (repeats.map fun entry => folded P entry.adopter).Nodup ∧
        ∀ entry ∈ repeats, ∃ first, firstUse.get? (folded P entry.adopter) = some first ∧
          30 ≤ daysBetween first entry.repeatUse := by
  induction repeats generalizing seen with
  | nil => simp [repeatErrors]
  | cons entry repeats ih =>
      simp only [repeatErrors, List.append_eq_nil_iff, failIf_eq_nil, repeatUseErrors_eq_nil, ih,
        List.forall_mem_cons, List.map_cons, List.nodup_cons, Finset.mem_insert, not_or]
      constructor
      · rintro ⟨⟨hnew, hfirst⟩, hseen, hdistinct, hall⟩
        refine ⟨⟨hnew, fun e he => (hseen e he).2⟩, ⟨?_, hdistinct⟩, hfirst, hall⟩
        intro hmem
        obtain ⟨e, he, hsame⟩ := List.mem_map.mp hmem
        exact (hseen e he).1 hsame
      · rintro ⟨⟨hnew, hseen⟩, ⟨hnot, hdistinct⟩, hfirst, hall⟩
        refine ⟨⟨hnew, hfirst⟩, fun e he => ⟨?_, hseen e he⟩, hdistinct, hall⟩
        intro hsame
        exact hnot (List.mem_map.mpr ⟨e, he, hsame⟩)

/-- Where no two adopters share a name, the dictionary has the first use of
each. -/
theorem firstUseByName_get? {adopters : List Adopter} (h : (adopterNames P adopters).Nodup)
    {name : String} {first : Date} :
    (firstUseByName P adopters).get? name = some first ↔
      ∃ adopter ∈ adopters, folded P adopter.name = name ∧ adopter.firstUse = first := by
  have hkeys : ((adopters.map fun adopter =>
      (folded P adopter.name, adopter.firstUse)).map Prod.fst).Nodup := by
    rw [List.map_map]
    exact h
  rw [firstUseByName, BTreeMap.get?_ofList_iff hkeys]
  simp only [List.mem_map, Prod.mk.injEq]

theorem mem_firstUses {adopters : List Adopter} (h : (adopterNames P adopters).Nodup)
    {first : Date} :
    first ∈ (firstUseByName P adopters).entries.map Prod.snd ↔
      ∃ adopter ∈ adopters, adopter.firstUse = first := by
  constructor
  · intro hmem
    obtain ⟨e, he, rfl⟩ := List.mem_map.mp hmem
    obtain ⟨adopter, hadopter, rfl⟩ := List.mem_map.mp
      ((BTreeMap.mem_foldl_insert _ BTreeMap.empty he).resolve_left List.not_mem_nil)
    exact ⟨adopter, hadopter, rfl⟩
  · rintro ⟨adopter, hadopter, rfl⟩
    have hget := (firstUseByName_get? h).mpr ⟨adopter, hadopter, rfl, rfl⟩
    exact List.mem_map.mpr ⟨_, BTreeMap.mem_entries_of_get? hget, rfl⟩

/-- Distinct names that are all listed are counted as they are. -/
theorem card_repeated {names listed : List String} (hdistinct : names.Nodup)
    (hlisted : ∀ name ∈ names, name ∈ listed) :
    ((∅ ∪ names.toFinset) ∩ listed.toFinset).card = names.length := by
  have hsub : names.toFinset ⊆ listed.toFinset := by
    intro name hname
    exact List.mem_toFinset.mpr (hlisted name (List.mem_toFinset.mp hname))
  rw [Finset.empty_union, Finset.inter_eq_left.mpr hsub]
  exact toFinset_card_eq_iff.mpr hdistinct

theorem adoptionErrors_eq_nil {adoption : AdoptionGate} :
    adoptionErrors P adoption = [] ↔ adoption.Ready P := by
  simp only [adoptionErrors, List.append_eq_nil_iff, failIf_eq_nil, adopterErrors_eq_nil,
    repeatErrors_eq_nil, repeatErrors_names, not_lt, Bool.not_eq_true, Option.isNone_eq_false_iff,
    Option.isSome_iff_ne_none]
  -- under distinct names the loop and the count say what is asked of the repeats
  have hfollows : (adopterNames P adoption.adopters).Nodup → ∀ entry : RepeatAdopter,
      (∃ first, (firstUseByName P adoption.adopters).get? (folded P entry.adopter) = some first ∧
        30 ≤ daysBetween first entry.repeatUse) ↔ entry.Follows P adoption.adopters := by
    intro hdistinct entry
    simp only [firstUseByName_get? hdistinct, RepeatAdopter.Follows]
    constructor
    · rintro ⟨first, ⟨adopter, hadopter, hname, rfl⟩, hlong⟩
      exact ⟨adopter, hadopter, hname, hlong⟩
    · rintro ⟨adopter, hadopter, hname, hlong⟩
      exact ⟨_, ⟨adopter, hadopter, hname, rfl⟩, hlong⟩
  have hcard : (adoption.repeatAdopters.map fun entry => folded P entry.adopter).Nodup →
      (∀ entry ∈ adoption.repeatAdopters, entry.Follows P adoption.adopters) →
      ((∅ ∪ (adoption.repeatAdopters.map fun entry => folded P entry.adopter).toFinset) ∩
        (adopterNames P adoption.adopters).toFinset).card = adoption.repeatAdopters.length := by
    intro hdistinct hall
    rw [card_repeated hdistinct, List.length_map]
    intro name hname
    obtain ⟨entry, hentry, rfl⟩ := List.mem_map.mp hname
    obtain ⟨adopter, hadopter, hsame, -⟩ := hall entry hentry
    exact List.mem_map.mpr ⟨adopter, hadopter, hsame⟩
  constructor
  · rintro ⟨⟨⟨⟨⟨hmany, hdistinct⟩, -, hrepeats, hall⟩, htwo⟩, hpublic⟩, houtside⟩
    have hall' : ∀ entry ∈ adoption.repeatAdopters, entry.Follows P adoption.adopters :=
      fun entry hentry => (hfollows hdistinct entry).mp (hall entry hentry)
    rw [hcard hrepeats hall'] at htwo
    exact ⟨hmany, hdistinct, htwo, hrepeats, hall', hpublic, houtside⟩
  · rintro ⟨hmany, hdistinct, htwo, hrepeats, hall, hpublic, houtside⟩
    refine ⟨⟨⟨⟨⟨hmany, hdistinct⟩, ?_, hrepeats, ?_⟩, ?_⟩, hpublic⟩, houtside⟩
    · intro entry hentry
      exact Finset.notMem_empty _
    · intro entry hentry
      exact (hfollows hdistinct entry).mpr (hall entry hentry)
    · rw [hcard hrepeats hall]
      exact htwo

/-! ### The age of the evidence -/

theorem asOfErrors_eq_nil {m : Manifest}
    (hend : m.deliveryMaintenance.ciWindow.endDate = some m.asOf)
    (hdistinct : (adopterNames P m.adoption.adopters).Nodup) :
    asOfErrors P m = [] ↔
      (∀ day ∈ m.correctnessSecurity.independentReview, day ≤ m.asOf) ∧
        (∀ adopter ∈ m.adoption.adopters, adopter.firstUse ≤ m.asOf) ∧
        ∀ entry ∈ m.adoption.repeatAdopters, entry.repeatUse ≤ m.asOf := by
  rw [asOfErrors, failIf_eq_nil]
  simp only [not_exists, not_and, not_lt, datedEvidence, hend, Option.toList_some,
    List.mem_append, List.mem_singleton, Option.mem_toList, mem_firstUses hdistinct, List.mem_map]
  constructor
  · intro h
    refine ⟨fun day hday => h day (.inl (.inl (.inr hday))), ?_, ?_⟩
    · intro adopter hadopter
      exact h _ (.inl (.inr ⟨adopter, hadopter, rfl⟩))
    · intro entry hentry
      exact h _ (.inr ⟨entry, hentry, rfl⟩)
  · rintro ⟨hreviewed, hused, hagain⟩ day (((rfl | hday) | ⟨adopter, hadopter, rfl⟩) |
      ⟨entry, hentry, rfl⟩)
    · exact le_refl _
    · exact hreviewed day hday
    · exact hused adopter hadopter
    · exact hagain entry hentry

/-! ### All of them -/

theorem releaseErrors_eq_nil {targetVersion : String} {releaseVersion : Option String}
    (h : semverRe.rmatch targetVersion.toList) :
    releaseErrors P targetVersion releaseVersion = [] ↔
      ∀ version ∈ releaseVersion, targetVersion = version := by
  rcases releaseVersion with - | version
  · simp [releaseErrors]
  · simp only [releaseErrors, Option.mem_some_iff, forall_eq']
    by_cases hformat : semverRe.rmatch version.toList
    · rw [if_neg (not_not.mpr hformat), failIf_eq_nil, not_not]
    · rw [if_pos hformat]
      constructor
      · intro hnil
        cases hnil
      · rintro rfl
        exact absurd h hformat

theorem beforeOne_eq {targetVersion : String} (h : semverRe.rmatch targetVersion.toList)
    (hlength : (major targetVersion).length ≤ intMaxStrDigits) :
    beforeOne targetVersion = .ok (decide (decimal (major targetVersion) < 1)) := by
  rw [beforeOne, if_pos h, int, if_neg (Nat.not_lt.mpr hlength)]
  rfl

/-- A major version that `int` does not convert. -/
theorem beforeOne_error {targetVersion : String} (h : semverRe.rmatch targetVersion.toList)
    (hlength : intMaxStrDigits < (major targetVersion).length) :
    beforeOne targetVersion = .error .valueError := by
  rw [beforeOne, if_pos h, int, if_pos hlength]
  rfl

/-- Readiness finds nothing wrong just with what is ready. -/
theorem Manifest.errors_eq {m : Manifest} (releaseVersion : Option String)
    (hversion : semverRe.rmatch m.targetVersion.toList)
    (hdays : m.deliveryMaintenance.ciWindow.requiredDays = 30)
    (hlength : (major m.targetVersion).length ≤ intMaxStrDigits) :
    ∃ failures, m.errors P releaseVersion = .ok failures ∧
      (failures = [] ↔ m.Ready P releaseVersion) := by
  have hci := @ci_eq_nil m.deliveryMaintenance.ciWindow m.asOf hdays
  simp only [Manifest.errors, versionErrors, beforeOne_eq hversion hlength]
  refine ⟨_, rfl, ?_⟩
  simp only [List.append_eq_nil_iff, failIf_eq_nil, decide_eq_true_eq, Nat.not_lt,
    releaseErrors_eq_nil hversion, gateStatusErrors_eq_nil, gateEvidenceErrors_eq_nil,
    correctnessErrors_eq_nil, continuityErrors_eq_nil, adoptionErrors_eq_nil]
  constructor
  · rintro ⟨⟨⟨⟨⟨⟨⟨⟨⟨⟨hmajor, hrelease⟩, hstatus⟩, hcriteria⟩, hreview, hareas, hfindings⟩,
      hwindow⟩, hfresh⟩, hplatform⟩, hcontinuity⟩, hadoption⟩, hasOf⟩
    have hcovers := hci.mp ⟨hwindow, hfresh, hplatform⟩
    -- the dates are compared only where the window and the adopters are in order
    obtain ⟨hreviewed, hused, hagain⟩ := (asOfErrors_eq_nil hcovers.1 hadoption.distinct).mp hasOf
    exact ⟨hmajor, hrelease, hstatus, hcriteria, hreview, hareas, hfindings, hcovers,
      hcontinuity, hadoption, hreviewed, hused, hagain⟩
  · intro h
    obtain ⟨hwindow, hfresh, hplatform⟩ := hci.mpr h.window
    exact ⟨⟨⟨⟨⟨⟨⟨⟨⟨⟨h.major, h.release⟩, h.satisfied⟩, h.criteria⟩, h.review, h.areas,
      h.findings⟩, hwindow⟩, hfresh⟩, hplatform⟩, h.continuity⟩, h.adoption⟩,
      (asOfErrors_eq_nil h.window.1 h.adoption.distinct).mpr ⟨h.reviewed, h.used, h.usedAgain⟩⟩

/-- Readiness raises over a major version that `int` does not convert. -/
theorem Manifest.errors_error {m : Manifest} (releaseVersion : Option String)
    (hversion : semverRe.rmatch m.targetVersion.toList)
    (hlength : intMaxStrDigits < (major m.targetVersion).length) :
    m.errors P releaseVersion = .error .valueError := by
  simp only [Manifest.errors, versionErrors, beforeOne_error hversion hlength]
  rfl

end DmlPact.Release
