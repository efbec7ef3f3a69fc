/-
DmlPact/Release/Readiness.lean

Readiness of a release, derived from its evidence
(`scripts/verify_v1_evidence.py`, `readiness_errors`).  The manifest is first
read into the parts that readiness depends on (`Manifest.read`); each stretch
of `readiness_errors` is then a list of failures over those parts, and the
result is all of them, in the order of the source.

What it takes to be ready is stated on its own (`Manifest.Ready`).
-/
import DmlPact.Lib.BTreeMap
import DmlPact.Release.Evidence

namespace DmlPact.Release

open Calendar (Date)
open Json (Value)

/-! ### The parts of a manifest -/

structure Gate where
  status : String
  /-- The criteria that the evidence is for. -/
  evidence : List String

structure CorrectnessGate extends Gate where
  /-- When the review was completed, if there is one. -/
  independentReview : Option Date
  openCritical : Int
  openHigh : Int
  reviewedAreas : List String

structure CiWindow where
  startDate : Option Date
  endDate : Option Date
  requiredDays : Int
  linux : List Date
  livePostgresql : List Date
  macos : List Date
  windows : List Date

structure Continuity where
  status : String
  mode : Option String
  evidence : List Value

structure DeliveryGate extends Gate where
  ciWindow : CiWindow
  continuity : Continuity

structure Adopter where
  name : String
  firstUse : Date

structure RepeatAdopter where
  adopter : String
  repeatUse : Date

structure AdoptionGate where
  status : String
  adopters : List Adopter
  repeatAdopters : List RepeatAdopter
  publicIntegration : Option Value
  nonMaintainerContribution : Option Value

structure Manifest where
  targetVersion : String
  asOf : Date
  productCompatibility : Gate
  correctnessSecurity : CorrectnessGate
  performanceBounds : Gate
  deliveryMaintenance : DeliveryGate
  adoption : AdoptionGate

/-! ### Reading them -/

/-- A value that is subscripted by a name. -/
def asDict : Value → Except PyError Dict
  | .obj members => .ok members
  | _ => .error .typeError

/-- A value that is iterated over. -/
def asList : Value → Except PyError (List Value)
  | .arr items => .ok items
  | _ => .error .typeError

def asStr : Value → Except PyError String
  | .str s => .ok s
  | _ => .error .typeError

def asInt : Value → Except PyError Int
  | .int n => .ok n
  | _ => .error .typeError

/-- A value that may be `None`. -/
def asOptional : Value → Option Value
  | .null => none
  | value => some value

/-- A date that is not `None`. -/
def asDate (value : Value) (path : String) : Except PyError Date := do
  match ← date false value path with
  | some date => return date
  | none => throw .typeError

def readCriterion (evidence : Value) : Except PyError String := do
  asStr (← item (← asDict evidence) "criterion")

def Gate.read (value : Value) : Except PyError Gate := do
  let gate ← asDict value
  let status ← asStr (← item gate "status")
  let evidence ← (← asList (← item gate "evidence")).mapM readCriterion
  return ⟨status, evidence⟩

/-- When a review was completed, if there is one. -/
def readReview : Value → Except PyError (Option Date)
  | .null => .ok none
  | review => do
      let completedOn ← asDate (← item (← asDict review) "completed_on")
        "$.gates.correctness_security.independent_review.completed_on"
      return some completedOn

def CorrectnessGate.read (value : Value) : Except PyError CorrectnessGate := do
  let gate ← Gate.read value
  let correctness ← asDict value
  let independentReview ← readReview (← item correctness "independent_review")
  let openCritical ← asInt (← item correctness "open_critical")
  let openHigh ← asInt (← item correctness "open_high")
  let reviewedAreas ← (← asList (← item correctness "reviewed_areas")).mapM asStr
  return ⟨gate, independentReview, openCritical, openHigh, reviewedAreas⟩

def readRun (track : String) (run : Value) : Except PyError Date := do
  asDate (← item (← asDict run) "date")
    ("$.gates.delivery_maintenance.ci_window." ++ track ++ "[]")

/-- The dates of the runs of a track. -/
def readTrack (tracks : Dict) (track : String) : Except PyError (List Date) := do
  (← asList (← item tracks track)).mapM (readRun track)

def CiWindow.read (value : Value) : Except PyError CiWindow := do
  let window ← asDict value
  let startDate ← date true (← item window "start")
    "$.gates.delivery_maintenance.ci_window.start"
  let endDate ← date true (← item window "end") "$.gates.delivery_maintenance.ci_window.end"
  let requiredDays ← asInt (← item window "required_days")
  let tracks ← asDict (← item window "tracks")
  let linux ← readTrack tracks "linux"
  let livePostgresql ← readTrack tracks "live-postgresql"
  let macos ← readTrack tracks "macos"
  let windows ← readTrack tracks "windows"
  return ⟨startDate, endDate, requiredDays, linux, livePostgresql, macos, windows⟩

def readMode : Value → Except PyError (Option String)
  | .null => .ok none
  | mode => some <$> asStr mode

def Continuity.read (value : Value) : Except PyError Continuity := do
  let continuity ← asDict value
  let status ← asStr (← item continuity "status")
  let mode ← readMode (← item continuity "mode")
  let evidence ← asList (← item continuity "evidence")
  return ⟨status, mode, evidence⟩

def DeliveryGate.read (value : Value) : Except PyError DeliveryGate := do
  let gate ← Gate.read value
  let delivery ← asDict value
  let ciWindow ← CiWindow.read (← item delivery "ci_window")
  let continuity ← Continuity.read (← item delivery "continuity")
  return ⟨gate, ciWindow, continuity⟩

def Adopter.read (value : Value) : Except PyError Adopter := do
  let adopter ← asDict value
  let name ← asStr (← item adopter "name")
  let firstUse ← asDate (← item adopter "first_use") "$.gates.adoption.adopters[].first_use"
  return ⟨name, firstUse⟩

def RepeatAdopter.read (value : Value) : Except PyError RepeatAdopter := do
  let entry ← asDict value
  let adopter ← asStr (← item entry "adopter")
  let repeatUse ← asDate (← item entry "repeat_use")
    "$.gates.adoption.repeat_adopters[].repeat_use"
  return ⟨adopter, repeatUse⟩

def AdoptionGate.read (value : Value) : Except PyError AdoptionGate := do
  let adoption ← asDict value
  let status ← asStr (← item adoption "status")
  let adopters ← (← asList (← item adoption "adopters")).mapM Adopter.read
  let repeatAdopters ← (← asList (← item adoption "repeat_adopters")).mapM RepeatAdopter.read
  let publicIntegration ← item adoption "public_integration"
  let nonMaintainerContribution ← item adoption "non_maintainer_contribution"
  return ⟨status, adopters, repeatAdopters, asOptional publicIntegration,
    asOptional nonMaintainerContribution⟩

def Manifest.read (manifest : Dict) : Except PyError Manifest := do
  let targetVersion ← asStr (← item manifest "target_version")
  let asOf ← asDate (← item manifest "as_of") "$.as_of"
  let gates ← asDict (← item manifest "gates")
  let productCompatibility ← Gate.read (← item gates "product_compatibility")
  let correctnessSecurity ← CorrectnessGate.read (← item gates "correctness_security")
  let performanceBounds ← Gate.read (← item gates "performance_bounds")
  let deliveryMaintenance ← DeliveryGate.read (← item gates "delivery_maintenance")
  let adoption ← AdoptionGate.read (← item gates "adoption")
  return ⟨targetVersion, asOf, productCompatibility, correctnessSecurity, performanceBounds,
    deliveryMaintenance, adoption⟩

/-! ### Failures -/

structure Failure where
  code : String
  message : String
  deriving DecidableEq

/-- `if …: fail(…)`. -/
def failIf (c : Prop) [Decidable c] (code message : String) : List Failure :=
  if c then [⟨code, message⟩] else []

@[simp] theorem failIf_eq_nil {c : Prop} [Decidable c] {code message : String} :
    failIf c code message = [] ↔ ¬c := by
  by_cases h : c <;> simp [failIf, h]

/-! ### Versions -/

/-- `match.group(1)` of `SEMVER_RE`: what stands before the first dot. -/
def major (version : String) : List Char := version.toList.takeWhile (· ≠ '.')

/-- The number that decimal digits write. -/
def decimal (digits : List Char) : Nat :=
  digits.foldl (fun n c => n * 10 + Calendar.digitValue c) 0

/-- `sys.int_info.default_max_str_digits`: the most digits that `int` converts. -/
def intMaxStrDigits : Nat := 4300

/-- `int` of decimal digits. -/
def int (digits : List Char) : Except PyError Nat :=
  if intMaxStrDigits < digits.length then .error .valueError else .ok (decimal digits)

/-- `match is None or int(match.group(1)) < 1`. -/
def beforeOne (targetVersion : String) : Except PyError Bool := do
  if semverRe.rmatch targetVersion.toList then
    return (← int (major targetVersion)) < 1
  else
    return true

variable (P : Python)

def releaseErrors (targetVersion : String) : Option String → List Failure
  | none => []
  | some releaseVersion =>
      if ¬ semverRe.rmatch releaseVersion.toList then
        [⟨"release-version-format", "release version is not valid SemVer"⟩]
      else
        failIf (targetVersion ≠ releaseVersion) "release-version"
          ("target_version " ++ P.repr targetVersion ++ " does not match release " ++
            P.repr releaseVersion)

def versionErrors (targetVersion : String) (releaseVersion : Option String) :
    Except PyError (List Failure) := do
  let old ← beforeOne targetVersion
  return failIf (old = true) "target-version" "target_version must identify a v1+ release" ++
    releaseErrors P targetVersion releaseVersion

/-! ### Gates -/

/-- The status of each gate, in the order of their names. -/
def Manifest.statuses (m : Manifest) : List (String × String) :=
  [("adoption", m.adoption.status), ("correctness_security", m.correctnessSecurity.status),
    ("delivery_maintenance", m.deliveryMaintenance.status),
    ("performance_bounds", m.performanceBounds.status),
    ("product_compatibility", m.productCompatibility.status)]

def gateStatusErrors (m : Manifest) : List Failure :=
  m.statuses.flatMap fun gate =>
    failIf (gate.2 ≠ "satisfied") "gate-status" (gate.1 ++ " is not satisfied")

/-- What each gate with criteria expects and has, in the order of their names. -/
def Manifest.criteria (m : Manifest) : List (String × Finset String × List String) :=
  [("correctness_security", correctnessSecurityCriteria, m.correctnessSecurity.evidence),
    ("delivery_maintenance", deliveryMaintenanceCriteria, m.deliveryMaintenance.evidence),
    ("performance_bounds", performanceBoundsCriteria, m.performanceBounds.evidence),
    ("product_compatibility", productCompatibilityCriteria, m.productCompatibility.evidence)]

def gateEvidenceErrors (m : Manifest) : List Failure :=
  m.criteria.flatMap fun gate =>
    let missing := gate.2.1 \ gate.2.2.toFinset
    failIf (missing ≠ ∅) "gate-evidence"
      (gate.1 ++ " is missing evidence for: " ++ joined missing)

/-! ### Correctness and security -/

def correctnessErrors (correctness : CorrectnessGate) : List Failure :=
  failIf (correctness.independentReview = none) "security-review"
      "independent security review evidence is missing" ++
    failIf (correctness.reviewedAreas.toFinset ≠ reviewAreas) "security-scope"
      ("independent security review is missing areas: " ++
        joined (reviewAreas \ correctness.reviewedAreas.toFinset)) ++
    failIf (correctness.openCritical ≠ 0 ∨ correctness.openHigh ≠ 0) "security-findings"
      "critical and high security findings must both be zero"

/-! ### The CI window -/

/-- `(later - earlier).days`. -/
def daysBetween (earlier later : Date) : Int := later.toOrdinal - earlier.toOrdinal

def windowErrors (window : CiWindow) : List Failure :=
  match window.startDate, window.endDate with
  | some startDate, some endDate =>
      if endDate < startDate then [⟨"ci-window", "the CI window ends before it starts"⟩]
      else
        failIf (daysBetween startDate endDate + 1 < window.requiredDays) "ci-window"
          "the CI window covers fewer than 30 consecutive calendar days"
  | _, _ => [⟨"ci-window", "the 30-day CI window is incomplete"⟩]

def freshnessErrors (window : CiWindow) (asOf : Date) : List Failure :=
  failIf (window.endDate ≠ none ∧ window.endDate ≠ some asOf) "ci-freshness"
    "the CI window must end on the manifest as_of date"

/-- The days of the window, if it has both ends, in order. -/
def expectedDates (window : CiWindow) : Finset Date :=
  match window.startDate, window.endDate with
  | some startDate, some endDate =>
      if startDate ≤ endDate then (Date.daysThrough startDate endDate).toFinset else ∅
  | _, _ => ∅

/-- The runs of each track, in the order of their names. -/
def CiWindow.tracks (window : CiWindow) : List (String × List Date) :=
  [("linux", window.linux), ("live-postgresql", window.livePostgresql), ("macos", window.macos),
    ("windows", window.windows)]

/-- `", ".join(day.isoformat() for day in sorted(…))`. -/
def joinedDates (dates : Finset Date) : String :=
  ", ".intercalate (dates.sort.map fun day => String.ofList day.isoformat)

def platformErrors (window : CiWindow) : List Failure :=
  window.tracks.flatMap fun track =>
    let missingDates := expectedDates window \ track.2.toFinset
    let extraDates := track.2.toFinset \ expectedDates window
    failIf (missingDates ≠ ∅) "ci-platform"
        (track.1 ++ " continuous evidence is missing dates: " ++ joinedDates missingDates) ++
      failIf (extraDates ≠ ∅) "ci-platform"
        (track.1 ++ " continuous evidence falls outside the window: " ++ joinedDates extraDates)

/-! ### Continuity -/

def continuityErrors (continuity : Continuity) : List Failure :=
  failIf (continuity.status ≠ "satisfied") "continuity-status"
      "maintainer continuity is not satisfied" ++
    failIf (continuity.mode.all (· ∉ continuityModes) = true) "continuity-mode"
      "maintainer continuity mode is missing" ++
    failIf (continuity.evidence.isEmpty = true) "continuity-evidence"
      "maintainer continuity evidence is missing"

/-! ### Adoption -/

/-- `name.strip().casefold()`. -/
def folded (name : String) : String := P.casefold (strip name)

def adopterNames (adopters : List Adopter) : List String :=
  adopters.map fun adopter => folded P adopter.name

def adopterErrors (adopters : List Adopter) : List Failure :=
  let uniqueAdopters := (adopterNames P adopters).toFinset
  failIf (adopters.length < 3 ∨ uniqueAdopters.card < 3) "adopters"
      "at least three distinct independent adopters are required" ++
    failIf (uniqueAdopters.card ≠ (adopterNames P adopters).length) "adopter-duplicates"
      "adopter names must be unique"

/-- Of adopters with one name the last one counts. -/
def firstUseByName (adopters : List Adopter) : BTreeMap String Date :=
  BTreeMap.ofList (adopters.map fun adopter => (folded P adopter.name, adopter.firstUse))

/-- The check of one repeat use against the first use of its adopter. -/
def repeatUseErrors (entry : RepeatAdopter) : Option Date → List Failure
  | none =>
      [⟨"repeat-adopter", "repeat adopter " ++ P.repr entry.adopter ++ " is not an adopter"⟩]
  | some firstUse =>
      failIf (daysBetween firstUse entry.repeatUse < 30) "repeat-window"
        ("repeat use for " ++ P.repr entry.adopter ++ " is separated by fewer than 30 days")

/-- The loop over the repeat adopters, with the names it has seen. -/
def repeatErrors (firstUse : BTreeMap String Date) :
    Finset String → List RepeatAdopter → List Failure × Finset String
  | repeatedNames, [] => ([], repeatedNames)
  | repeatedNames, entry :: repeats =>
      let name := folded P entry.adopter
      let rest := repeatErrors firstUse (insert name repeatedNames) repeats
      (failIf (name ∈ repeatedNames) "repeat-duplicates"
          ("repeat evidence for " ++ P.repr entry.adopter ++ " is duplicated") ++
        repeatUseErrors P entry (firstUse.get? name) ++ rest.1, rest.2)

def adoptionErrors (adoption : AdoptionGate) : List Failure :=
  let repeats := repeatErrors P (firstUseByName P adoption.adopters) ∅ adoption.repeatAdopters
  adopterErrors P adoption.adopters ++ repeats.1 ++
    failIf ((repeats.2 ∩ (adopterNames P adoption.adopters).toFinset).card < 2) "repeat-adopters"
      "at least two distinct adopters need 30-day repeat use" ++
    failIf (adoption.publicIntegration.isNone = true) "public-integration"
      "required public integration evidence is missing" ++
    failIf (adoption.nonMaintainerContribution.isNone = true) "external-contribution"
      "resolved non-maintainer contribution is missing"

/-! ### The age of the evidence -/

def datedEvidence (m : Manifest) : List Date :=
  m.deliveryMaintenance.ciWindow.endDate.toList ++
    m.correctnessSecurity.independentReview.toList ++
    (firstUseByName P m.adoption.adopters).entries.map Prod.snd ++
    m.adoption.repeatAdopters.map RepeatAdopter.repeatUse

def asOfErrors (m : Manifest) : List Failure :=
  failIf (∃ evidenceDate ∈ datedEvidence P m, m.asOf < evidenceDate) "as-of"
    "as_of predates one or more evidence dates"

/-! ### The verdict -/

def Manifest.errors (m : Manifest) (releaseVersion : Option String) :
    Except PyError (List Failure) := do
  let version ← versionErrors P m.targetVersion releaseVersion
  return version ++ gateStatusErrors m ++ gateEvidenceErrors m ++
    correctnessErrors m.correctnessSecurity ++
    windowErrors m.deliveryMaintenance.ciWindow ++
    freshnessErrors m.deliveryMaintenance.ciWindow m.asOf ++
    platformErrors m.deliveryMaintenance.ciWindow ++
    continuityErrors m.deliveryMaintenance.continuity ++
    adoptionErrors P m.adoption ++ asOfErrors P m

def readinessErrors (manifest : Dict) (releaseVersion : Option String) :
    Except PyError (List Failure) := do
  (← Manifest.read manifest).errors P releaseVersion

/-! ### What readiness takes -/

/-- The repeat use of an adopter comes 30 days after the first, at least. -/
def RepeatAdopter.Follows (entry : RepeatAdopter) (adopters : List Adopter) : Prop :=
  ∃ adopter ∈ adopters, folded P adopter.name = folded P entry.adopter ∧
    30 ≤ daysBetween adopter.firstUse entry.repeatUse

/-- A window of 30 days at least, up to a day, each of whose days has a run on
every track, which has no other. -/
def CiWindow.Covers (window : CiWindow) (asOf : Date) : Prop :=
  window.endDate = some asOf ∧ ∃ startDate, window.startDate = some startDate ∧
    30 ≤ daysBetween startDate asOf + 1 ∧
    ∀ track ∈ window.tracks, ∀ day, day ∈ track.2 ↔ startDate ≤ day ∧ day ≤ asOf

structure Continuity.Ready (continuity : Continuity) : Prop where
  satisfied : continuity.status = "satisfied"
  mode : ∃ mode ∈ continuityModes, continuity.mode = some mode
  evidence : continuity.evidence ≠ []

structure AdoptionGate.Ready (adoption : AdoptionGate) : Prop where
  adopters : 3 ≤ adoption.adopters.length
  distinct : (adopterNames P adoption.adopters).Nodup
  repeats : 2 ≤ adoption.repeatAdopters.length
  repeatsDistinct : (adoption.repeatAdopters.map fun entry => folded P entry.adopter).Nodup
  follows : ∀ entry ∈ adoption.repeatAdopters, entry.Follows P adoption.adopters
  integration : adoption.publicIntegration ≠ none
  contribution : adoption.nonMaintainerContribution ≠ none

structure Manifest.Ready (m : Manifest) (releaseVersion : Option String) : Prop where
  major : 1 ≤ decimal (major m.targetVersion)
  release : ∀ version ∈ releaseVersion, m.targetVersion = version
  satisfied : ∀ gate ∈ m.statuses, gate.2 = "satisfied"
  criteria : ∀ gate ∈ m.criteria, ∀ criterion ∈ gate.2.1, criterion ∈ gate.2.2
  review : m.correctnessSecurity.independentReview ≠ none
  areas : ∀ area, area ∈ m.correctnessSecurity.reviewedAreas ↔ area ∈ reviewAreas
  findings : m.correctnessSecurity.openCritical = 0 ∧ m.correctnessSecurity.openHigh = 0
  window : m.deliveryMaintenance.ciWindow.Covers m.asOf
  continuity : m.deliveryMaintenance.continuity.Ready
  adoption : m.adoption.Ready P
  reviewed : ∀ day ∈ m.correctnessSecurity.independentReview, day ≤ m.asOf
  used : ∀ adopter ∈ m.adoption.adopters, adopter.firstUse ≤ m.asOf
  usedAgain : ∀ entry ∈ m.adoption.repeatAdopters, entry.repeatUse ≤ m.asOf

end DmlPact.Release
