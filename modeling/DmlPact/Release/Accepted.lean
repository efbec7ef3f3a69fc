/-
DmlPact/Release/Accepted.lean

What the validator accepts can be read.  One lemma for each check says what it
passes; where a value passes a check does not depend on the path that the
check would name.  From those, every part that readiness subscripts is there
and of its type (`Manifest.exists_read`).
-/
import DmlPact.Release.Readiness

namespace DmlPact.Release

open Calendar (Date)
open Json (Value)

variable {P : Python} {value : Value} {path : String}

/-! ### Steps that do not raise -/

theorem bind_ok {α β : Type} {x : Except PyError α} {f : α → Except PyError β} {b : β} :
    (x >>= f) = .ok b ↔ ∃ a, x = .ok a ∧ f a = .ok b := by
  rcases x with e | a
  · constructor
    · intro h
      cases h
    · rintro ⟨a, ha, -⟩
      cases ha
  · constructor
    · intro h
      exact ⟨a, rfl, h⟩
    · rintro ⟨a', ha, h⟩
      cases ha
      exact h

theorem pure_ok {α : Type} {a b : α} : (pure a : Except PyError α) = .ok b ↔ a = b :=
  Except.ok.injEq a b ▸ Iff.rfl

theorem raiseIf_ok {c : Prop} [Decidable c] {message : String} {u : Unit} :
    raiseIf c message = .ok u ↔ ¬c := by
  unfold raiseIf
  by_cases h : c
  · simp [h]
  · simp [h]

theorem object_ok {d : Dict} : object value path = .ok d ↔ value = .obj d := by
  cases value <;> simp [object]

theorem array_ok {values : List Value} : array value path = .ok values ↔ value = .arr values := by
  cases value <;> simp [array]

theorem exactKeys_ok {d : Dict} {expected : Finset String} {u : Unit} :
    exactKeys d expected path = .ok u ↔ keys d = expected := by
  simp only [exactKeys, bind_ok, raiseIf_ok, not_not, Finset.sdiff_eq_empty_iff_subset,
    exists_const]
  constructor
  · rintro ⟨hmissing, hunknown⟩
    exact Finset.Subset.antisymm hunknown hmissing
  · rintro rfl
    exact ⟨Finset.Subset.refl _, Finset.Subset.refl _⟩

theorem string_ok {s : String} : string value path = .ok s ↔ value = .str s ∧ strip s ≠ "" := by
  cases value with
  | str t =>
      simp only [string, bind_ok, raiseIf_ok, pure_ok, exists_const, Value.str.injEq]
      constructor
      · rintro ⟨hstrip, rfl⟩
        exact ⟨rfl, hstrip⟩
      · rintro ⟨rfl, hstrip⟩
        exact ⟨hstrip, rfl⟩
  | _ => simp [string]

theorem nonnegativeInteger_ok {n : Int} :
    nonnegativeInteger value path = .ok n ↔ value = .int n ∧ 0 ≤ n := by
  cases value with
  | int k =>
      simp only [nonnegativeInteger, bind_ok, raiseIf_ok, pure_ok, exists_const, Value.int.injEq,
        not_lt]
      constructor
      · rintro ⟨hn, rfl⟩
        exact ⟨rfl, hn⟩
      · rintro ⟨rfl, hn⟩
        exact ⟨hn, rfl⟩
  | _ => simp [nonnegativeInteger]

theorem status_ok {s : String} :
    status value path = .ok s ↔ value = .str s ∧ strip s ≠ "" ∧ s ∈ statuses := by
  simp only [status, bind_ok, string_ok, raiseIf_ok, pure_ok, not_not, exists_const]
  constructor
  · rintro ⟨s', ⟨rfl, hstrip⟩, hmem, rfl⟩
    exact ⟨rfl, hstrip, hmem⟩
  · rintro ⟨rfl, hstrip, hmem⟩
    exact ⟨s, ⟨rfl, hstrip⟩, hmem, rfl⟩

/-- A text that is a date. -/
def IsDateText (value : Value) (day : Date) : Prop :=
  ∃ text, value = .str text ∧ strip text ≠ "" ∧ dateRe.rmatch text.toList ∧
    Date.fromIsoformat text.toList = some day

theorem isoDate_ok {text : String} {day : Option Date} :
    isoDate text path = .ok day ↔ ∃ d, Date.fromIsoformat text.toList = some d ∧ day = some d := by
  unfold isoDate
  rcases Date.fromIsoformat text.toList with - | d
  · simp
  · simp [eq_comm]

theorem date_ok {nullable : Bool} {day : Option Date} :
    date nullable value path = .ok day ↔
      (nullable = true ∧ value = .null ∧ day = none) ∨
        ∃ d, IsDateText value d ∧ day = some d := by
  -- what is left once the null is out of the way
  have htext : ∀ value : Value, (do
      let text ← string value path
      raiseIf (¬ dateRe.rmatch text.toList) (path ++ " must use canonical YYYY-MM-DD form")
      isoDate text path) = .ok day ↔ ∃ d, IsDateText value d ∧ day = some d := by
    intro value
    simp only [bind_ok, string_ok, raiseIf_ok, not_not, isoDate_ok, exists_const, IsDateText]
    constructor
    · rintro ⟨text, ⟨rfl, hstrip⟩, hre, d, hd, rfl⟩
      exact ⟨d, ⟨text, rfl, hstrip, hre, hd⟩, rfl⟩
    · rintro ⟨d, ⟨text, rfl, hstrip, hre, hd⟩, rfl⟩
      exact ⟨text, ⟨rfl, hstrip⟩, hre, d, hd, rfl⟩
  have hnull : ¬∃ d, IsDateText .null d ∧ day = some d := by
    rintro ⟨d, ⟨text, htext, -⟩, -⟩
    cases htext
  cases value with
  | null =>
      cases nullable with
      | true => simp [date, hnull, eq_comm]
      | false =>
          rw [date, htext]
          · simp
          · simp
  | _ =>
      rw [date, htext]
      · simp
      · simp

/-! ### Dictionaries and arrays -/

theorem item_ok {d : Dict} {key : String} : item d key = .ok value ↔ d.lookup key = some value := by
  unfold item
  rcases d.lookup key with - | v
  · simp
  · simp

/-- What a walk over an array checks. -/
theorem enumerate_forall {α : Type} {check : Value → String → Except PyError α} {index : Nat}
    {values : List Value} {xs : List α} (h : enumerate check path index values = .ok xs) :
    ∀ value ∈ values, ∃ x path', check value path' = .ok x := by
  induction values generalizing index xs with
  | nil =>
      intro value hvalue
      cases hvalue
  | cons v values ih =>
      simp only [enumerate, bind_ok, pure_ok] at h
      obtain ⟨x, hx, xs', hxs, -⟩ := h
      intro value hvalue
      rcases List.mem_cons.mp hvalue with rfl | hvalue
      · exact ⟨x, _, hx⟩
      · exact ih hxs value hvalue

theorem mapM_ok {α : Type} {f : Value → Except PyError α} {values : List Value}
    (h : ∀ value ∈ values, ∃ x, f value = .ok x) : ∃ xs, values.mapM f = .ok xs := by
  induction values with
  | nil => exact ⟨[], rfl⟩
  | cons v values ih =>
      obtain ⟨x, hx⟩ := h v List.mem_cons_self
      obtain ⟨xs, hxs⟩ := ih fun value hvalue => h value (List.mem_cons_of_mem v hvalue)
      exact ⟨x :: xs, by rw [List.mapM_cons, hx, hxs]; rfl⟩

/-! ### Reading what was accepted -/

theorem asDate_ok {day : Date} : asDate value path = .ok day ↔ IsDateText value day := by
  simp only [asDate, bind_ok, date_ok]
  constructor
  · rintro ⟨day', h | ⟨d, hd, rfl⟩, hday⟩
    · exact absurd h.1 (by decide)
    · cases hday
      exact hd
  · intro h
    exact ⟨some day, .inr ⟨day, h, rfl⟩, rfl⟩

theorem evidence_reads {expected : Finset String}
    (h : gateEvidence P value path expected = .ok ()) :
    ∃ values criteria, value = .arr values ∧ values.mapM readCriterion = .ok criteria := by
  simp only [gateEvidence, bind_ok, array_ok] at h
  obtain ⟨values, rfl, _, hitems, -⟩ := h
  have hread : ∃ criteria, values.mapM readCriterion = .ok criteria := by
    apply mapM_ok
    intro evidence hevidence
    obtain ⟨criterion, path', hchecked⟩ := enumerate_forall hitems evidence hevidence
    simp only [gateEvidenceItem, bind_ok, object_ok, item_ok, string_ok] at hchecked
    obtain ⟨d, rfl, _, hkeys, v, hv, s, ⟨rfl, hs⟩, -⟩ := hchecked
    refine ⟨s, ?_⟩
    simp only [readCriterion, asDict, bind_ok, item_ok]
    exact ⟨d, rfl, _, hv, rfl⟩
  obtain ⟨criteria, hcriteria⟩ := hread
  exact ⟨values, criteria, rfl, hcriteria⟩

theorem Gate.exists_read {gate : Dict} {s : String} {evidence : Value} {expected : Finset String}
    (hstatus : gate.lookup "status" = some (.str s))
    (hevidence : gate.lookup "evidence" = some evidence)
    (h : gateEvidence P evidence path expected = .ok ()) :
    ∃ g, Gate.read (.obj gate) = .ok g := by
  obtain ⟨values, criteria, rfl, hcriteria⟩ := evidence_reads h
  refine ⟨⟨s, criteria⟩, ?_⟩
  simp only [Gate.read, asDict, bind_ok, item_ok, pure_ok]
  exact ⟨gate, rfl, _, hstatus, s, rfl, _, hevidence, values, rfl, criteria, hcriteria, rfl⟩

theorem basicGate_reads {expected : Finset String} (h : basicGate P value path expected = .ok ()) :
    ∃ g, Gate.read value = .ok g := by
  simp only [basicGate, bind_ok, object_ok, item_ok, status_ok] at h
  obtain ⟨gate, rfl, _, -, _, hstatus, s, ⟨rfl, -⟩, evidence, hevidence, h⟩ := h
  exact Gate.exists_read hstatus hevidence h

theorem review_reads (h : review P value path = .ok ()) :
    ∃ day, readReview value = .ok day := by
  cases value with
  | null => exact ⟨none, rfl⟩
  | obj d =>
      simp only [review, bind_ok, object_ok, item_ok, string_ok, date_ok] at h
      obtain ⟨d', hd, _, -, _, -, _, -, v, hv, day, hday, -⟩ := h
      cases hd
      obtain ⟨hfalse, -⟩ | ⟨day, hday, rfl⟩ := hday
      · exact absurd hfalse (by decide)
      · refine ⟨some day, ?_⟩
        simp only [readReview, asDict, bind_ok, item_ok, asDate_ok, pure_ok]
        exact ⟨d, rfl, v, hv, day, hday, rfl⟩
  | _ => simp [review, object, bind_ok] at h

theorem correctnessGate_reads (h : correctnessGate P value path = .ok ()) :
    ∃ g, CorrectnessGate.read value = .ok g := by
  simp only [correctnessGate, bind_ok, object_ok, item_ok, status_ok, nonnegativeInteger_ok,
    array_ok] at h
  obtain ⟨gate, rfl, _, -, _, hstatus, s, ⟨rfl, -⟩, evidence, hevidence, _, hgate, rv, hrv, _,
    hreview, _, hcritical, c, ⟨rfl, -⟩, _, hhigh, k, ⟨rfl, -⟩, _, hareas, areas, rfl, names,
    hnames, -⟩ := h
  obtain ⟨g, hg⟩ := Gate.exists_read hstatus hevidence hgate
  obtain ⟨day, hday⟩ := review_reads hreview
  have hareasRead : ∃ xs, areas.mapM asStr = .ok xs := by
    apply mapM_ok
    intro area harea
    obtain ⟨name, path', hname⟩ := enumerate_forall hnames area harea
    obtain ⟨rfl, -⟩ := string_ok.mp hname
    exact ⟨name, rfl⟩
  obtain ⟨xs, hxs⟩ := hareasRead
  refine ⟨⟨g, day, c, k, xs⟩, ?_⟩
  simp only [CorrectnessGate.read, asDict, bind_ok, item_ok, pure_ok]
  exact ⟨g, hg, gate, rfl, rv, hrv, day, hday, _, hcritical, c, rfl, _, hhigh, k, rfl, _, hareas,
    areas, rfl, xs, hxs, rfl⟩

/-- A walk over names that does not raise. -/
theorem forM_ok {names : List String} {f : String → Except PyError Unit} :
    names.forM f = .ok () ↔ ∀ name ∈ names, f name = .ok () := by
  induction names with
  | nil =>
      constructor
      · intro h name hname
        cases hname
      · intro h
        rfl
  | cons n names ih =>
      rw [List.forM_eq_forM, List.forM_cons, bind_ok, ← List.forM_eq_forM, ih,
        List.forall_mem_cons]
      constructor
      · rintro ⟨u, hn, hrest⟩
        exact ⟨hn, hrest⟩
      · rintro ⟨hn, hrest⟩
        exact ⟨(), hn, hrest⟩

theorem readTrack_reads {tracks : Dict} {track : String} {runs : Value}
    (hruns : tracks.lookup track = some runs) (h : ciTrack P runs path = .ok ()) :
    ∃ dates, readTrack tracks track = .ok dates := by
  simp only [ciTrack, bind_ok, array_ok] at h
  obtain ⟨values, rfl, _, hitems, -⟩ := h
  have hread : ∃ dates, values.mapM (readRun track) = .ok dates := by
    apply mapM_ok
    intro run hrun
    obtain ⟨day, path', hchecked⟩ := enumerate_forall hitems run hrun
    simp only [ciRun, bind_ok, object_ok, item_ok, date_ok] at hchecked
    obtain ⟨d, rfl, _, -, v, hv, _, hday, -⟩ := hchecked
    obtain ⟨hfalse, -⟩ | ⟨day, hday, -⟩ := hday
    · exact absurd hfalse (by decide)
    · refine ⟨day, ?_⟩
      simp only [readRun, asDict, bind_ok, item_ok, asDate_ok]
      exact ⟨d, rfl, v, hv, hday⟩
  obtain ⟨dates, hdates⟩ := hread
  refine ⟨dates, ?_⟩
  simp only [readTrack, bind_ok, item_ok]
  exact ⟨_, hruns, values, rfl, hdates⟩

theorem date_anywhere {nullable : Bool} {day : Option Date} {path' : String}
    (h : date nullable value path = .ok day) : date nullable value path' = .ok day :=
  date_ok.mpr (date_ok.mp h)

/-- The window that is read asks for thirty days. -/
theorem ciWindow_reads (h : ciWindow P value path = .ok ()) :
    ∃ w, CiWindow.read value = .ok w ∧ w.requiredDays = 30 := by
  simp only [ciWindow, bind_ok, object_ok, item_ok, nonnegativeInteger_ok, raiseIf_ok,
    not_not] at h
  obtain ⟨window, rfl, _, -, _, hstart, s, hs, _, hend, e, he, _, hdays, k, ⟨rfl, -⟩, _, rfl,
    _, htracks, tracks, rfl, _, -, hwalk⟩ := h
  have hread : ∀ track ∈ ciTracks, ∃ dates, readTrack tracks track = .ok dates := by
    intro track htrack
    have hchecked := forM_ok.mp hwalk track ((Finset.mem_sort _).mpr htrack)
    obtain ⟨runs, hruns, hchecked⟩ := bind_ok.mp hchecked
    exact readTrack_reads (item_ok.mp hruns) hchecked
  obtain ⟨linux, hlinux⟩ := hread "linux" (by decide)
  obtain ⟨postgresql, hpostgresql⟩ := hread "live-postgresql" (by decide)
  obtain ⟨macos, hmacos⟩ := hread "macos" (by decide)
  obtain ⟨windows, hwindows⟩ := hread "windows" (by decide)
  refine ⟨⟨s, e, 30, linux, postgresql, macos, windows⟩, ?_, rfl⟩
  simp only [CiWindow.read, asDict, bind_ok, item_ok, pure_ok]
  exact ⟨window, rfl, _, hstart, s, date_anywhere hs, _, hend, e, date_anywhere he, _, hdays, 30,
    rfl, _, htracks, tracks, rfl, linux, hlinux, postgresql, hpostgresql, macos, hmacos, windows,
    hwindows, rfl⟩

theorem readMode_reads (h : continuityMode value path = .ok ()) :
    ∃ mode, readMode value = .ok mode := by
  cases value with
  | null => exact ⟨none, rfl⟩
  | str mode => exact ⟨some mode, rfl⟩
  | _ => simp [continuityMode, string, bind_ok] at h

theorem continuity_reads (h : continuity P value path = .ok ()) :
    ∃ c, Continuity.read value = .ok c := by
  simp only [continuity, referenceList, bind_ok, object_ok, item_ok, status_ok, array_ok] at h
  obtain ⟨d, rfl, _, -, _, hstatus, s, ⟨rfl, -⟩, v, hv, _, hmode, _, hevidence, evidence,
    ⟨items, rfl, -⟩, -⟩ := h
  obtain ⟨mode, hread⟩ := readMode_reads hmode
  refine ⟨⟨s, mode, items⟩, ?_⟩
  simp only [Continuity.read, asDict, bind_ok, item_ok, pure_ok]
  exact ⟨d, rfl, _, hstatus, s, rfl, v, hv, mode, hread, _, hevidence, items, rfl, rfl⟩

theorem deliveryGate_reads (h : deliveryGate P value path = .ok ()) :
    ∃ g, DeliveryGate.read value = .ok g ∧ g.ciWindow.requiredDays = 30 := by
  simp only [deliveryGate, bind_ok, object_ok, item_ok, status_ok] at h
  obtain ⟨gate, rfl, _, -, _, hstatus, s, ⟨rfl, -⟩, evidence, hevidence, _, hgate, cv, hcv, _,
    hwindow, tv, htv, hcontinuity⟩ := h
  obtain ⟨g, hg⟩ := Gate.exists_read hstatus hevidence hgate
  obtain ⟨w, hw, hdays⟩ := ciWindow_reads hwindow
  obtain ⟨c, hc⟩ := continuity_reads hcontinuity
  refine ⟨⟨g, w, c⟩, ?_, hdays⟩
  simp only [DeliveryGate.read, asDict, bind_ok, item_ok, pure_ok]
  exact ⟨g, hg, gate, rfl, cv, hcv, w, hw, tv, htv, c, hc, rfl⟩

theorem adopter_reads (h : adopter P value path = .ok ()) :
    ∃ a, Adopter.read value = .ok a := by
  simp only [adopter, bind_ok, object_ok, item_ok, string_ok, date_ok] at h
  obtain ⟨d, rfl, _, -, _, hname, name, ⟨rfl, -⟩, _, -, _, -, _, -, _, -, v, hv, _, hday, -⟩ := h
  obtain ⟨hfalse, -⟩ | ⟨day, hday, -⟩ := hday
  · exact absurd hfalse (by decide)
  · refine ⟨⟨name, day⟩, ?_⟩
    simp only [Adopter.read, asDict, bind_ok, item_ok, asDate_ok, pure_ok]
    exact ⟨d, rfl, _, hname, name, rfl, v, hv, day, hday, rfl⟩

theorem repeatAdopter_reads (h : repeatAdopter P value path = .ok ()) :
    ∃ a, RepeatAdopter.read value = .ok a := by
  simp only [repeatAdopter, bind_ok, object_ok, item_ok, string_ok, date_ok] at h
  obtain ⟨d, rfl, _, -, _, hname, name, ⟨rfl, -⟩, v, hv, _, hday, -⟩ := h
  obtain ⟨hfalse, -⟩ | ⟨day, hday, -⟩ := hday
  · exact absurd hfalse (by decide)
  · refine ⟨⟨name, day⟩, ?_⟩
    simp only [RepeatAdopter.read, asDict, bind_ok, item_ok, asDate_ok, pure_ok]
    exact ⟨d, rfl, _, hname, name, rfl, v, hv, day, hday, rfl⟩

theorem adoptionGate_reads (h : adoptionGate P value path = .ok ()) :
    ∃ g, AdoptionGate.read value = .ok g := by
  simp only [adoptionGate, bind_ok, object_ok, item_ok, status_ok, array_ok] at h
  obtain ⟨gate, rfl, _, -, _, hstatus, s, ⟨rfl, -⟩, _, hadopters, adopters, rfl, _, hitems, _,
    hrepeats, repeats, rfl, _, hentries, pv, hpv, _, -, nv, hnv, -⟩ := h
  have hread : ∃ xs, adopters.mapM Adopter.read = .ok xs := by
    apply mapM_ok
    intro value hvalue
    obtain ⟨u, path', hchecked⟩ := enumerate_forall hitems value hvalue
    exact adopter_reads hchecked
  have hagain : ∃ xs, repeats.mapM RepeatAdopter.read = .ok xs := by
    apply mapM_ok
    intro value hvalue
    obtain ⟨u, path', hchecked⟩ := enumerate_forall hentries value hvalue
    exact repeatAdopter_reads hchecked
  obtain ⟨xs, hxs⟩ := hread
  obtain ⟨ys, hys⟩ := hagain
  refine ⟨⟨s, xs, ys, asOptional pv, asOptional nv⟩, ?_⟩
  simp only [AdoptionGate.read, asDict, bind_ok, item_ok, pure_ok]
  exact ⟨gate, rfl, _, hstatus, s, rfl, _, hadopters, adopters, rfl, xs, hxs, _, hrepeats,
    repeats, rfl, ys, hys, pv, hpv, nv, hnv, rfl⟩

/-! ### The manifest -/

/-- Whatever the validator accepts is read, with a version of the right form
and a window of thirty days. -/
theorem Manifest.exists_read {root : Dict} (h : validateStructure P value = .ok root) :
    ∃ m, Manifest.read root = .ok m ∧ semverRe.rmatch m.targetVersion.toList ∧
      m.deliveryMaintenance.ciWindow.requiredDays = 30 := by
  simp only [validateStructure, bind_ok, object_ok, item_ok, string_ok, raiseIf_ok, not_not,
    date_ok, pure_ok] at h
  obtain ⟨d, rfl, _, -, _, -, _, -, _, -, _, -, _, -, _, -, _, htarget, target, ⟨rfl, -⟩, _,
    hversion, dv, hdv, _, hday, _, hgates, gates, rfl, _, -, c1, hc1, _, hbasic, c2, hc2, _,
    hcorrect, c3, hc3, _, hperf, c4, hc4, _, hdelivery, c5, hc5, _, hadoption, rfl⟩ := h
  obtain ⟨hfalse, -⟩ | ⟨asOf, hday, -⟩ := hday
  · exact absurd hfalse (by decide)
  obtain ⟨g1, hg1⟩ := basicGate_reads hbasic
  obtain ⟨g2, hg2⟩ := correctnessGate_reads hcorrect
  obtain ⟨g3, hg3⟩ := basicGate_reads hperf
  obtain ⟨g4, hg4, hdays⟩ := deliveryGate_reads hdelivery
  obtain ⟨g5, hg5⟩ := adoptionGate_reads hadoption
  refine ⟨⟨target, asOf, g1, g2, g3, g4, g5⟩, ?_, hversion, hdays⟩
  simp only [Manifest.read, asDict, bind_ok, item_ok, asDate_ok, pure_ok]
  exact ⟨_, htarget, target, rfl, dv, hdv, asOf, hday, _, hgates, gates, rfl, c1, hc1, g1, hg1, c2,
    hc2, g2, hg2, c3, hc3, g3, hg3, c4, hc4, g4, hg4, c5, hc5, g5, hg5, rfl⟩

end DmlPact.Release
