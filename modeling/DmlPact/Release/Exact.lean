/-
DmlPact/Release/Exact.lean

The release gate is exact, as far as it answers.  For a manifest that the
validator accepts, `readiness_errors` returns a list, and that list is empty
just when the manifest is ready, if and only if the major version has no more
digits than `int` converts (`readinessErrors_exact`).  The pattern for versions
does not bound the digits, so a manifest may be accepted and ready and still
make `readiness_errors` raise a `ValueError` (`readinessErrors_raises`).
-/
import DmlPact.Release.Accepted
import DmlPact.Release.Verdict

namespace DmlPact.Release

open Calendar (Date digit)
open Json (Value)
open RegularExpression

/-! ### The gate -/

/-- The errors are those of the manifest that is read. -/
theorem readinessErrors_read {P : Python} {root : Dict} {m : Manifest}
    (hread : Manifest.read root = .ok m) (releaseVersion : Option String) :
    readinessErrors P root releaseVersion = m.errors P releaseVersion := by
  rw [readinessErrors, hread]
  rfl

/-- For what the validator accepts, readiness answers, and answers right, just
when `int` converts the major version. -/
theorem readinessErrors_exact {P : Python} {value : Value} {root : Dict}
    (h : validateStructure P value = .ok root) (releaseVersion : Option String) :
    ∃ m, Manifest.read root = .ok m ∧
      ((∃ failures, readinessErrors P root releaseVersion = .ok failures ∧
          (failures = [] ↔ m.Ready P releaseVersion)) ↔
        (major m.targetVersion).length ≤ intMaxStrDigits) := by
  obtain ⟨m, hread, hversion, hdays⟩ := Manifest.exists_read h
  refine ⟨m, hread, ?_⟩
  rw [readinessErrors_read hread]
  constructor
  · rintro ⟨failures, hfailures, -⟩
    by_contra hlength
    rw [Manifest.errors_error releaseVersion hversion (Nat.lt_of_not_le hlength)] at hfailures
    cases hfailures
  · intro hlength
    exact Manifest.errors_eq releaseVersion hversion hdays hlength

/-! ### A manifest that is ready -/

/-- A decimal digit. -/
theorem digit_mem (n : Nat) : digit n ∈ digits := by
  have hdigits : ∀ k < 10, Nat.digitChar k ∈ digits := by decide
  exact hdigits _ (Nat.mod_lt n (by decide))

/-- The text of a date has the form of one. -/
theorem dateRe_isoformat (d : Date) : dateRe.rmatch d.isoformat := by
  have hlast : (oneOf digits).rmatch [digit d.day] :=
    oneOf_rmatch_iff.mpr ⟨_, digit_mem _, rfl⟩
  have hday := oneOf_rmatch_cons (digit_mem (d.day / 10)) hlast
  have hmonth := oneOf_rmatch_cons (digit_mem (d.month / 10))
    (oneOf_rmatch_cons (digit_mem d.month) (literal_rmatch_append (w := ['-']) hday))
  exact oneOf_rmatch_cons (digit_mem (d.year / 1000)) (oneOf_rmatch_cons (digit_mem (d.year / 100))
    (oneOf_rmatch_cons (digit_mem (d.year / 10)) (oneOf_rmatch_cons (digit_mem d.year)
      (literal_rmatch_append (w := ['-']) hmonth))))

/-- A text that starts with something else than white space. -/
theorem strip_ne_empty {s : String} {c : Char} {rest : List Char} (h : s.toList = c :: rest)
    (hc : isSpace c = false) : strip s ≠ "" := by
  intro hempty
  have hnil : ((s.toList.dropWhile isSpace).rdropWhile isSpace) = [] := by
    have := congrArg String.toList hempty
    rwa [strip, String.toList_ofList] at this
  rw [h, List.dropWhile_cons, hc] at hnil
  have hall := List.rdropWhile_eq_nil_iff.mp hnil c List.mem_cons_self
  rw [hc] at hall
  cases hall

/-- The text of a date. -/
def dateText (d : Date) : Value := .str (String.ofList d.isoformat)

/-- The text of a date is read as that date. -/
theorem isDateText_dateText (d : Date) : IsDateText (dateText d) d := by
  refine ⟨_, rfl, ?_, ?_, ?_⟩
  · apply strip_ne_empty (String.toList_ofList (l := d.isoformat))
    have hspace : (digits.all fun c => isSpace c == false) = true := by decide
    exact beq_iff_eq.mp (List.all_eq_true.mp hspace _ (digit_mem _))
  · rw [String.toList_ofList]
    exact dateRe_isoformat d
  · rw [String.toList_ofList]
    exact d.fromIsoformat_isoformat

/-- So `_date` returns it, nullable or not. -/
theorem date_dateText (nullable : Bool) (d : Date) (path : String) :
    date nullable (dateText d) path = .ok (some d) :=
  date_ok.mpr (.inr ⟨d, isDateText_dateText d, rfl⟩)

/-- Checking what was rendered, item by item. -/
theorem enumerate_map {α β : Type} {check : Value → String → Except PyError α} {render : β → Value}
    {f : β → α} {xs : List β} (path : String) (index : Nat)
    (h : ∀ x ∈ xs, ∀ path, check (render x) path = .ok (f x)) :
    enumerate check path index (xs.map render) = .ok (xs.map f) := by
  induction xs generalizing index with
  | nil => rfl
  | cons x xs ih =>
      have hx := h x List.mem_cons_self
      have hxs := ih (index + 1) fun y hy => h y (List.mem_cons_of_mem x hy)
      rw [List.map_cons, enumerate, hx, hxs]
      rfl

/-- Reading it likewise. -/
theorem mapM_map {α β : Type} {read : Value → Except PyError α} {render : β → Value} {f : β → α}
    {xs : List β} (h : ∀ x ∈ xs, read (render x) = .ok (f x)) :
    (xs.map render).mapM read = .ok (xs.map f) := by
  induction xs with
  | nil => rfl
  | cons x xs ih =>
      have hx := h x List.mem_cons_self
      have hxs := ih fun y hy => h y (List.mem_cons_of_mem x hy)
      rw [List.map_cons, List.mapM_cons, hx, hxs]
      rfl

namespace Sample

/-- Names in lower case, one host. -/
def python : Python where
  casefold s := s
  repr s := "'" ++ s ++ "'"
  urlparse _ := some ⟨"https", "github.com", some "github.com", none, none⟩
  isGlobal _ := none

def url : String := "https://github.com/yhay81/dmlpact/actions/runs/1"

theorem isDate_first : Calendar.IsDate 2026 1 1 := by decide

theorem isDate_last : Calendar.IsDate 2026 1 30 := by decide

theorem isDate_used : Calendar.IsDate 2025 6 1 := by decide

def firstDay : Date := ⟨2026, 1, 1, isDate_first⟩

def lastDay : Date := ⟨2026, 1, 30, isDate_last⟩

def useDay : Date := ⟨2025, 6, 1, isDate_used⟩

def gateEvidenceItem (criterion : String) : Value :=
  .obj [("criterion", .str criterion), ("url", .str url)]

def evidence (criteria : List String) : Value := .arr (criteria.map gateEvidenceItem)

def compatibility : List String :=
  ["contract-compatibility", "golden-artifacts", "plan-assumption-sealing",
    "fail-closed-unsupported-input"]

def security : List String :=
  ["sql-corpus", "postgresql-stress", "artifact-adversarial-corpus", "tls-fixtures",
    "vulnerability-audit"]

def performance : List String :=
  ["plan-generation", "apply-overhead", "bounded-fixture-memory", "configured-bounds",
    "benchmark-reproducibility"]

def maintenance : List String := ["release-supply-chain", "security-response-slo"]

def areas : List String :=
  ["sql-parsing", "identifier-handling", "transaction-isolation", "locking", "toctou-races",
    "triggers", "rls", "tls", "credentials", "artifacts", "receipt-publication",
    "diagnostic-disclosure"]

def basicGate (criteria : List String) : Value :=
  .obj [("status", .str "satisfied"), ("evidence", evidence criteria)]

def review : Value :=
  .obj [("reviewer", .str "reviewer"), ("completed_on", dateText firstDay), ("url", .str url)]

def correctnessGate : Value :=
  .obj [("status", .str "satisfied"), ("evidence", evidence security),
    ("independent_review", review), ("open_critical", .int 0), ("open_high", .int 0),
    ("reviewed_areas", .arr (areas.map Value.str))]

def ciRun (day : Date) : Value := .obj [("date", dateText day), ("url", .str url)]

def days : List Date := Date.daysThrough firstDay lastDay

def track : Value := .arr (days.map ciRun)

/-- Thirty days of four tracks. -/
def ciWindow : Value :=
  .obj [("start", dateText firstDay), ("end", dateText lastDay), ("required_days", .int 30),
    ("tracks", .obj [("linux", track), ("live-postgresql", track), ("macos", track),
      ("windows", track)])]

def reference : Value := .obj [("label", .str "label"), ("url", .str url)]

def continuity : Value :=
  .obj [("status", .str "satisfied"), ("mode", .str "two-maintainer-drill"),
    ("evidence", .arr [reference])]

def deliveryGate : Value :=
  .obj [("status", .str "satisfied"), ("evidence", evidence maintenance),
    ("ci_window", ciWindow), ("continuity", continuity)]

def adopter (name : String) : Value :=
  .obj [("name", .str name), ("workflow", .str "workflow"), ("outcome", .str "outcome"),
    ("first_use", dateText useDay), ("evidence", .str url)]

def repeatAdopter (name : String) : Value :=
  .obj [("adopter", .str name), ("repeat_use", dateText firstDay), ("evidence", .str url)]

def adoptionGate : Value :=
  .obj [("status", .str "satisfied"), ("adopters", .arr (["a", "b", "c"].map adopter)),
    ("repeat_adopters", .arr (["a", "b"].map repeatAdopter)), ("public_integration", reference),
    ("non_maintainer_contribution", reference)]

/-- A manifest with everything satisfied. -/
def manifest (version : String) : Dict :=
  [("schema_version", .str schemaVersion), ("project", .str project),
    ("target_version", .str version), ("as_of", dateText lastDay),
    ("gates", .obj [("product_compatibility", basicGate compatibility),
      ("correctness_security", correctnessGate), ("performance_bounds", basicGate performance),
      ("delivery_maintenance", deliveryGate), ("adoption", adoptionGate)])]

/-! ### It is accepted -/

theorem basicGate_compatibility (path : String) :
    Release.basicGate python (basicGate compatibility) path productCompatibilityCriteria =
      .ok () := by
  rfl

theorem basicGate_performance (path : String) :
    Release.basicGate python (basicGate performance) path performanceBoundsCriteria = .ok () := by
  rfl

/-- The review and the areas are complete. -/
theorem correctnessGate_accepted (path : String) :
    Release.correctnessGate python correctnessGate path = .ok () := by
  rfl

/-- One run a day. -/
theorem ciRun_accepted (day : Date) (path : String) :
    Release.ciRun python (ciRun day) path = .ok (some day) := by
  simp only [Release.ciRun, bind_ok, object_ok, exactKeys_ok, item_ok, pure_ok]
  exact ⟨_, rfl, (), by rfl, _, rfl, some day, date_dateText false day _, _, rfl, url, by rfl, rfl⟩

theorem days_nodup : days.Nodup := by decide

/-- No day twice, and in order. -/
theorem ciTrack_accepted (path : String) : ciTrack python track path = .ok () := by
  simp only [ciTrack, bind_ok, array_ok, raiseIf_ok, not_not]
  refine ⟨_, rfl, _, enumerate_map path 0 fun day _ path => ciRun_accepted day path, ?_⟩
  have hdates : (days.map some).reduceOption = days := by
    show (days.map some).filterMap id = days
    rw [List.filterMap_map, Function.id_comp, List.filterMap_some]
  rw [hdates]
  exact (toFinset_card_eq_iff.mpr days_nodup).symm

/-- Four tracks of thirty days. -/
theorem ciWindow_accepted (path : String) : Release.ciWindow python ciWindow path = .ok () := by
  simp only [Release.ciWindow, bind_ok, object_ok, exactKeys_ok, item_ok, raiseIf_ok, not_not]
  refine ⟨_, rfl, (), by rfl, _, rfl, _, date_dateText true firstDay _, _, rfl, _,
    date_dateText true lastDay _, _, rfl, 30, by rfl, (), rfl, _, rfl, _, rfl, (), by rfl, ?_⟩
  apply forM_ok.mpr
  intro name hname
  have hmem := (Finset.mem_sort _).mp hname
  simp only [ciTracks, Finset.mem_insert, Finset.mem_singleton] at hmem
  rcases hmem with rfl | rfl | rfl | rfl
  · exact bind_ok.mpr ⟨track, rfl, ciTrack_accepted _⟩
  · exact bind_ok.mpr ⟨track, rfl, ciTrack_accepted _⟩
  · exact bind_ok.mpr ⟨track, rfl, ciTrack_accepted _⟩
  · exact bind_ok.mpr ⟨track, rfl, ciTrack_accepted _⟩

theorem continuity_accepted (path : String) :
    Release.continuity python continuity path = .ok () := by
  rfl

/-- The window and the drill. -/
theorem deliveryGate_accepted (path : String) :
    Release.deliveryGate python deliveryGate path = .ok () := by
  simp only [Release.deliveryGate, bind_ok, object_ok, exactKeys_ok, item_ok]
  exact ⟨_, rfl, (), by rfl, _, rfl, _, by rfl, _, rfl, (), by rfl, _, rfl, (),
    ciWindow_accepted _, _, rfl, continuity_accepted _⟩

theorem adoptionGate_accepted (path : String) :
    Release.adoptionGate python adoptionGate path = .ok () := by
  rfl

/-- **Structure.**  The manifest is accepted with every version of the right form. -/
theorem manifest_accepted {version : String} (hstrip : strip version ≠ "")
    (hversion : semverRe.rmatch version.toList) :
    validateStructure python (.obj (manifest version)) = .ok (manifest version) := by
  simp only [validateStructure, bind_ok, object_ok, exactKeys_ok, item_ok, raiseIf_ok, not_not,
    pure_ok]
  exact ⟨_, rfl, (), by rfl, _, rfl, schemaVersion, by rfl, (), rfl, _, rfl, project, by rfl, (),
    rfl, _, rfl, version, string_ok.mpr ⟨rfl, hstrip⟩, (), hversion, _, rfl, _,
    date_dateText false lastDay _, _, rfl, _, rfl, (), by rfl, _, rfl, (),
    basicGate_compatibility _, _, rfl, (), correctnessGate_accepted _, _, rfl, (),
    basicGate_performance _, _, rfl, (), deliveryGate_accepted _, _, rfl, (),
    adoptionGate_accepted _, rfl⟩

/-! ### It is ready -/

/-- What is read of it. -/
def read (version : String) : Manifest where
  targetVersion := version
  asOf := lastDay
  productCompatibility := ⟨"satisfied", compatibility⟩
  correctnessSecurity := ⟨⟨"satisfied", security⟩, some firstDay, 0, 0, areas⟩
  performanceBounds := ⟨"satisfied", performance⟩
  deliveryMaintenance :=
    ⟨⟨"satisfied", maintenance⟩, ⟨some firstDay, some lastDay, 30, days, days, days, days⟩,
      ⟨"satisfied", some "two-maintainer-drill", [reference]⟩⟩
  adoption :=
    ⟨"satisfied", [⟨"a", useDay⟩, ⟨"b", useDay⟩, ⟨"c", useDay⟩], [⟨"a", firstDay⟩, ⟨"b", firstDay⟩],
      some reference, some reference⟩

/-- A track is read as its days. -/
theorem readTrack_track {tracks : Dict} {name : String} (h : tracks.lookup name = some track) :
    readTrack tracks name = .ok days := by
  simp only [readTrack, bind_ok, item_ok]
  refine ⟨track, h, days.map ciRun, rfl, ?_⟩
  rw [← List.map_id days, List.map_map]
  apply mapM_map
  intro day hday
  simp only [readRun, bind_ok, item_ok, asDate_ok]
  exact ⟨_, rfl, _, rfl, isDateText_dateText day⟩

/-- The window is read as written. -/
theorem ciWindow_read :
    CiWindow.read ciWindow =
      .ok ⟨some firstDay, some lastDay, 30, days, days, days, days⟩ := by
  simp only [CiWindow.read, bind_ok, item_ok, pure_ok]
  exact ⟨_, rfl, _, rfl, _, date_dateText true firstDay _, _, rfl, _, date_dateText true lastDay _,
    _, rfl, _, rfl, _, rfl, _, rfl, _, readTrack_track rfl, _, readTrack_track rfl, _,
    readTrack_track rfl, _, readTrack_track rfl, rfl⟩

theorem deliveryGate_read : DeliveryGate.read deliveryGate =
    .ok (read "").deliveryMaintenance := by
  simp only [DeliveryGate.read, bind_ok, item_ok, pure_ok]
  exact ⟨_, by rfl, _, rfl, _, rfl, _, ciWindow_read, _, rfl, _, by rfl, rfl⟩

/-- So is the whole. -/
theorem manifest_read (version : String) : Manifest.read (manifest version) = .ok (read version) := by
  simp only [Manifest.read, bind_ok, item_ok, asDate_ok, pure_ok]
  exact ⟨_, rfl, version, rfl, _, rfl, lastDay, isDateText_dateText lastDay, _, rfl, _, rfl, _, rfl,
    _, by rfl, _, rfl, _, by rfl, _, rfl, _, by rfl, _, rfl, _, deliveryGate_read, _, rfl, _,
    by rfl, rfl⟩

/-- Three adopters, two of them for longer. -/
theorem adoption_ready : (read "").adoption.Ready python where
  adopters := by decide
  distinct := by decide
  repeats := by decide
  repeatsDistinct := by decide
  follows := by
    intro entry hentry
    simp only [read, List.mem_cons, List.not_mem_nil, or_false] at hentry
    rcases hentry with rfl | rfl
    · exact ⟨⟨"a", useDay⟩, List.mem_cons_self, rfl, by decide⟩
    · exact ⟨⟨"b", useDay⟩, List.mem_cons_of_mem _ List.mem_cons_self, rfl, by decide⟩
  integration := Option.some_ne_none _
  contribution := Option.some_ne_none _

/-- No day of the window is missing from a track. -/
theorem window_covers : (read "").deliveryMaintenance.ciWindow.Covers lastDay := by
  refine ⟨rfl, firstDay, rfl, by decide, ?_⟩
  intro track htrack day
  have hdays : track.2 = days := by
    simp only [CiWindow.tracks, List.mem_cons, List.not_mem_nil, or_false] at htrack
    rcases htrack with rfl | rfl | rfl | rfl
    · rfl
    · rfl
    · rfl
    · rfl
  rw [hdays]
  exact Date.mem_daysThrough (by decide)

/-- **Readiness.**  The manifest meets every criterion, if its version is that of the
release and not below one. -/
theorem ready {version : String} (hmajor : 1 ≤ decimal (major version))
    {releaseVersion : Option String} (hrelease : ∀ v ∈ releaseVersion, version = v) :
    (read version).Ready python releaseVersion where
  major := hmajor
  release := hrelease
  -- the five gates are the same for every version, so "" does as well as any
  satisfied := by
    show ∀ gate ∈ (read "").statuses, gate.2 = "satisfied"
    decide
  criteria := by
    show ∀ gate ∈ (read "").criteria, ∀ criterion ∈ gate.2.1, criterion ∈ gate.2.2
    decide
  review := Option.some_ne_none _
  areas := by
    intro area
    simp [read, areas, reviewAreas]
  findings := ⟨rfl, rfl⟩
  window := window_covers
  continuity := ⟨rfl, ⟨"two-maintainer-drill", by decide, rfl⟩, List.cons_ne_nil _ _⟩
  adoption := adoption_ready
  reviewed := by
    show ∀ day ∈ some firstDay, day ≤ lastDay
    decide
  used := by
    show ∀ adopter ∈ (read "").adoption.adopters, adopter.firstUse ≤ lastDay
    decide
  usedAgain := by
    show ∀ entry ∈ (read "").adoption.repeatAdopters, entry.repeatUse ≤ lastDay
    decide

/-! ### Two versions -/

/-- A major version of a one and zeros. -/
def longVersion (zeros : Nat) : String :=
  String.ofList ('1' :: (List.replicate zeros '0' ++ ".0.0".toList))

/-- Reading more digits does not make a number smaller. -/
theorem le_decimal (digits : List Char) (n : Nat) :
    n ≤ digits.foldl (fun n c => n * 10 + Calendar.digitValue c) n := by
  induction digits generalizing n with
  | nil => exact Nat.le_refl n
  | cons c digits ih =>
      refine Nat.le_trans ?_ (ih (n * 10 + Calendar.digitValue c))
      omega

/-- The major version is all in front of the first dot. -/
theorem major_longVersion (n : Nat) : major (longVersion n) = '1' :: List.replicate n '0' := by
  have hzeros : ∀ c ∈ '1' :: List.replicate n '0', decide (c ≠ '.') = true := by
    intro c hc
    rcases List.mem_cons.mp hc with rfl | hc
    · decide
    · rw [List.eq_of_mem_replicate hc]
      decide
  rw [major, longVersion, String.toList_ofList, ← List.cons_append,
    List.takeWhile_append_of_pos hzeros]
  show _ ++ [] = _
  rw [List.append_nil]

/-- It is a semantic version, however long. -/
theorem longVersion_semver (n : Nat) : semverRe.rmatch (longVersion n).toList := by
  have htail : semverTail.rmatch ".0.0".toList := by decide
  have hzeros : (oneOf digits).star.rmatch (List.replicate n '0') := by
    apply star_oneOf_rmatch_iff.mpr
    intro c hc
    rw [List.eq_of_mem_replicate hc]
    decide
  have hpositive : positive.rmatch ('1' :: List.replicate n '0') :=
    oneOf_rmatch_cons (by decide) hzeros
  have hnumeric : numeric.rmatch ('1' :: List.replicate n '0') :=
    (add_rmatch_iff _ _ _).mpr (.inr hpositive)
  rw [longVersion, String.toList_ofList]
  exact rmatch_append hnumeric htail

/-- So the manifest is accepted with it, -/
theorem longVersion_accepted (n : Nat) :
    validateStructure python (.obj (manifest (longVersion n))) = .ok (manifest (longVersion n)) :=
  manifest_accepted (strip_ne_empty String.toList_ofList (by decide)) (longVersion_semver n)

/-- and meets every criterion. -/
theorem longVersion_ready (n : Nat) :
    (read (longVersion n)).Ready python (some (longVersion n)) := by
  apply ready
  · rw [major_longVersion, decimal, List.foldl_cons]
    exact le_decimal _ _
  · intro v hv
    exact Option.some.inj hv

/-- So many zeros are too many. -/
theorem longVersion_error (n : Nat) (h : intMaxStrDigits ≤ n) :
    readinessErrors python (manifest (longVersion n)) (some (longVersion n)) =
      .error .valueError := by
  rw [readinessErrors_read (manifest_read (longVersion n))]
  apply Manifest.errors_error (m := read (longVersion n)) (some (longVersion n))
    (longVersion_semver n)
  show intMaxStrDigits < (major (longVersion n)).length
  rw [major_longVersion, List.length_cons, List.length_replicate]
  exact Nat.lt_succ_of_le h

end Sample

/-- A release is found ready. -/
theorem readinessErrors_exact_sample :
    readinessErrors Sample.python (Sample.manifest "1.0.0") (some "1.0.0") = .ok [] := by
  obtain ⟨m, hread, hexact⟩ := readinessErrors_exact
    (@Sample.manifest_accepted "1.0.0" (by decide) (by decide)) (some "1.0.0")
  cases hread.symm.trans (Sample.manifest_read "1.0.0")
  obtain ⟨failures, hfailures, hready⟩ := hexact.mpr (by decide)
  rw [hfailures, hready.mpr (Sample.ready (by decide) (by simp))]

/-- What the validator accepts and what is ready may still not be answered: the
major version has 4301 digits. -/
theorem readinessErrors_raises :
    validateStructure Sample.python (.obj (Sample.manifest (Sample.longVersion 4300))) =
        .ok (Sample.manifest (Sample.longVersion 4300)) ∧
      Manifest.read (Sample.manifest (Sample.longVersion 4300)) =
        .ok (Sample.read (Sample.longVersion 4300)) ∧
      (Sample.read (Sample.longVersion 4300)).Ready Sample.python
        (some (Sample.longVersion 4300)) ∧
      readinessErrors Sample.python (Sample.manifest (Sample.longVersion 4300))
        (some (Sample.longVersion 4300)) = .error .valueError := by
  exact ⟨Sample.longVersion_accepted 4300, Sample.manifest_read (Sample.longVersion 4300),
    Sample.longVersion_ready 4300,
    Sample.longVersion_error 4300 (Nat.le_refl 4300)⟩

end DmlPact.Release
