/-
DmlPact/Release/Evidence.lean

The release evidence and its validator (`scripts/verify_v1_evidence.py`).  A
manifest is a decoded JSON value; `validateStructure` walks it and raises at
the first part that is malformed, naming the path of that part.

A Python value is a JSON value here, a dictionary the list of its members, of
which the first under a key counts.  What the script takes from the standard
library and the verdicts do not depend on is a parameter (`Python`).

    validate_structure --> _basic_gate, _correctness_gate, _delivery_gate, _adoption_gate
                       --> _gate_evidence, _review, _ci_window, _continuity, _adopter, ...
                       --> _object, _exact_keys, _string, _date, _https_url
-/
import Mathlib.Data.Finset.Sort
import Mathlib.Data.List.DropRight
import Mathlib.Data.String.Basic
import DmlPact.Lib.Calendar
import DmlPact.Lib.Json
import DmlPact.Lib.Pattern

namespace DmlPact.Release

open Calendar (Date)
open Json (Value)
open RegularExpression (literal oneOf opt)

/-! ### What the script uses of Python -/

/-- What an exception carries. -/
inductive PyError where
  | evidenceError (message : String)
  | valueError
  | keyError (key : String)
  | typeError
  deriving DecidableEq

/-- `urllib.parse.ParseResult`. -/
structure Url where
  scheme : String
  netloc : String
  hostname : Option String
  username : Option String
  password : Option String

structure Python where
  /-- `str.casefold`. -/
  casefold : String → String
  /-- `repr` of a string. -/
  repr : String → String
  /-- `urllib.parse.urlparse`, unless it raises `ValueError`. -/
  urlparse : String → Option Url
  /-- `ipaddress.ip_address(text).is_global`, unless it raises `ValueError`. -/
  isGlobal : String → Option Bool

/-- `str.isspace` of one character. -/
def isSpace (c : Char) : Bool :=
  let n := c.toNat
  (0x09 ≤ n && n ≤ 0x0d) || (0x1c ≤ n && n ≤ 0x20) || n == 0x85 || n == 0xa0 || n == 0x1680 ||
    (0x2000 ≤ n && n ≤ 0x200a) || n == 0x2028 || n == 0x2029 || n == 0x202f || n == 0x205f ||
    n == 0x3000

/-- `str.strip`. -/
def strip (s : String) : String :=
  String.ofList ((s.toList.dropWhile isSpace).rdropWhile isSpace)

/-- `str.rstrip` of one character. -/
def rstrip (c : Char) (s : String) : String := String.ofList (s.toList.rdropWhile (· = c))

/-- `str.endswith`. -/
def endswith (s suffix : String) : Prop := suffix.toList <:+ s.toList

instance (s suffix : String) : Decidable (endswith s suffix) :=
  inferInstanceAs (Decidable (_ <:+ _))

theorem trans_le : IsTrans String fun a b => a ≤ b := inferInstance

theorem antisymm_le : Std.Antisymm fun a b : String => a ≤ b := inferInstance

theorem total_le : Std.Total fun a b : String => a ≤ b := inferInstance

/-- `sorted(…)` of a set. -/
def sorted (names : Finset String) : List String :=
  @Finset.sort String names (fun a b => a ≤ b) _ trans_le antisymm_le total_le

/-- `", ".join(sorted(…))`. -/
def joined (names : Finset String) : String := ", ".intercalate (sorted names)

abbrev Dict := List (String × Value)

/-- `set(dict)`. -/
def keys (d : Dict) : Finset String := (d.map Prod.fst).toFinset

/-- `dict[key]`. -/
def item (d : Dict) (key : String) : Except PyError Value :=
  match d.lookup key with
  | some value => .ok value
  | none => .error (.keyError key)

/-- `if …: raise EvidenceError(…)`. -/
def raiseIf (c : Prop) [Decidable c] (message : String) : Except PyError Unit :=
  if c then .error (.evidenceError message) else .ok ()

/-- `check(item, f"{path}[{index}]")` for each of the items, from an index on. -/
def enumerate {α : Type} (check : Value → String → Except PyError α) (path : String) :
    Nat → List Value → Except PyError (List α)
  | _, [] => .ok []
  | index, value :: values => do
      let x ← check value (path ++ "[" ++ toString index ++ "]")
      let xs ← enumerate check path (index + 1) values
      return x :: xs

/-! ### The constants of the script -/

def schemaVersion : String := "oss-v1-evidence/v1"

def project : String := "dmlpact"

def gateNames : Finset String :=
  {"product_compatibility", "correctness_security", "performance_bounds", "delivery_maintenance",
    "adoption"}

/-! `GATE_CRITERIA`, one gate at a time. -/

def productCompatibilityCriteria : Finset String :=
  {"contract-compatibility", "golden-artifacts", "plan-assumption-sealing",
    "fail-closed-unsupported-input"}

def correctnessSecurityCriteria : Finset String :=
  {"sql-corpus", "postgresql-stress", "artifact-adversarial-corpus", "tls-fixtures",
    "vulnerability-audit"}

def performanceBoundsCriteria : Finset String :=
  {"plan-generation", "apply-overhead", "bounded-fixture-memory", "configured-bounds",
    "benchmark-reproducibility"}

def deliveryMaintenanceCriteria : Finset String :=
  {"release-supply-chain", "security-response-slo"}

def reviewAreas : Finset String :=
  {"sql-parsing", "identifier-handling", "transaction-isolation", "locking", "toctou-races",
    "triggers", "rls", "tls", "credentials", "artifacts", "receipt-publication",
    "diagnostic-disclosure"}

def ciTracks : Finset String := {"linux", "live-postgresql", "macos", "windows"}

def statuses : Finset String := {"pending", "satisfied"}

def continuityModes : Finset String := {"two-maintainer-drill"}

/-! ### Patterns -/

def digits : List Char := "0123456789".toList

def nonzero : List Char := "123456789".toList

def letters : List Char := "ABCDEFGHIJKLMNOPQRSTUVWXYZabcdefghijklmnopqrstuvwxyz".toList

/-- `DATE_RE`. -/
def dateRe : RegularExpression Char :=
  oneOf digits * (oneOf digits * (oneOf digits * (oneOf digits * (literal ['-'] *
    (oneOf digits * (oneOf digits * (literal ['-'] * (oneOf digits * oneOf digits))))))))

/-- `[1-9][0-9]*`. -/
def positive : RegularExpression Char := oneOf nonzero * (oneOf digits).star

/-- `0|[1-9][0-9]*`. -/
def numeric : RegularExpression Char := literal ['0'] + positive

/-- `PRERELEASE_IDENTIFIER`. -/
def prereleaseIdentifier : RegularExpression Char :=
  literal ['0'] + (positive + (oneOf digits).star * (oneOf ('-' :: letters) *
    (oneOf ('-' :: (digits ++ letters))).star))

/-- `[0-9A-Za-z-]+`. -/
def buildIdentifier : RegularExpression Char :=
  oneOf ('-' :: (digits ++ letters)) * (oneOf ('-' :: (digits ++ letters))).star

/-- What follows the major version in `SEMVER_RE`. -/
def semverTail : RegularExpression Char :=
  literal ['.'] * (numeric * (literal ['.'] * (numeric *
    (opt (literal ['-'] * (prereleaseIdentifier *
        (literal ['.'] * prereleaseIdentifier).star)) *
      opt (literal ['+'] * (buildIdentifier * (literal ['.'] * buildIdentifier).star))))))

/-- `SEMVER_RE`; its first group is the major version. -/
def semverRe : RegularExpression Char := numeric * semverTail

/-- `RUN_URL_RE`. -/
def runUrlRe : RegularExpression Char :=
  literal "https://github.com/yhay81/dmlpact/actions/runs/".toList *
    (positive * opt (literal "/job/".toList * positive))

/-! ### Leaves -/

def object (value : Value) (path : String) : Except PyError Dict :=
  match value with
  | .obj members => .ok members
  | _ => .error (.evidenceError (path ++ " must be an object"))

def array (value : Value) (path : String) : Except PyError (List Value) :=
  match value with
  | .arr items => .ok items
  | _ => .error (.evidenceError (path ++ " must be an array"))

def exactKeys (value : Dict) (expected : Finset String) (path : String) : Except PyError Unit := do
  let actual := keys value
  let missing := expected \ actual
  let unknown := actual \ expected
  raiseIf (missing ≠ ∅) (path ++ " is missing fields: " ++ joined missing)
  raiseIf (unknown ≠ ∅) (path ++ " has unknown fields: " ++ joined unknown)

def string (value : Value) (path : String) : Except PyError String :=
  match value with
  | .str s => do
      raiseIf (strip s = "") (path ++ " must not be empty")
      return s
  | _ => .error (.evidenceError (path ++ " must be a string"))

/-- `True` and `False` are no integers here. -/
def nonnegativeInteger (value : Value) (path : String) : Except PyError Int :=
  match value with
  | .int n => do
      raiseIf (n < 0) (path ++ " must be a non-negative integer")
      return n
  | _ => .error (.evidenceError (path ++ " must be a non-negative integer"))

def status (value : Value) (path : String) : Except PyError String := do
  let status ← string value path
  raiseIf (status ∉ statuses) (path ++ " must be one of: " ++ joined statuses)
  return status

/-- `date.fromisoformat`, with its `ValueError` turned into an evidence error. -/
def isoDate (text : String) (path : String) : Except PyError (Option Date) :=
  match Date.fromIsoformat text.toList with
  | some date => .ok (some date)
  | none => .error (.evidenceError (path ++ " must be an ISO 8601 calendar date"))

def date (nullable : Bool) (value : Value) (path : String) : Except PyError (Option Date) :=
  match value, nullable with
  | .null, true => .ok none
  | value, _ => do
      let text ← string value path
      raiseIf (¬ dateRe.rmatch text.toList) (path ++ " must use canonical YYYY-MM-DD form")
      isoDate text path

variable (P : Python)

/-- `username` or `password` of a URL is there and not empty. -/
def truthy (text : Option String) : Prop := text ≠ none ∧ text ≠ some ""

instance (text : Option String) : Decidable (truthy text) := inferInstanceAs (Decidable (_ ∧ _))

def httpsUrl (value : Value) (path : String) : Except PyError String := do
  let text ← string value path
  raiseIf (text ≠ strip text ∨ text.toList.any isSpace) (path ++ " must not contain whitespace")
  raiseIf ('\\' ∈ text.toList) (path ++ " must not contain backslashes")
  match P.urlparse text with
  | none => throw .valueError
  | some parsed =>
      raiseIf (parsed.scheme ≠ "https" ∨ parsed.netloc = "" ∨ parsed.hostname = none ∨
          truthy parsed.username ∨ truthy parsed.password)
        (path ++ " must be a public HTTPS URL without credentials")
      let normalized := P.casefold (rstrip '.' (parsed.hostname.getD ""))
      raiseIf ('.' ∉ normalized.toList ∨ normalized = "localhost" ∨
          endswith normalized ".localhost" ∨ endswith normalized ".local")
        (path ++ " must use a public hostname")
      raiseIf (P.isGlobal normalized = some false)
        (path ++ " must not use a private or reserved IP address")
      return text

/-! ### Parts of a gate -/

def referenceItem (value : Value) (path : String) : Except PyError Dict := do
  let reference ← object value path
  exactKeys reference {"label", "url"} path
  let _ ← string (← item reference "label") (path ++ ".label")
  let _ ← httpsUrl P (← item reference "url") (path ++ ".url")
  return reference

def runUrl (value : Value) (path : String) : Except PyError String := do
  let text ← httpsUrl P value path
  raiseIf (¬ runUrlRe.rmatch text.toList)
    (path ++ " must be a GitHub Actions run or job URL for yhay81/" ++ project)
  return text

def referenceList (value : Value) (path : String) : Except PyError (List Dict) := do
  enumerate (referenceItem P) path 0 (← array value path)

def optionalReferenceItem (value : Value) (path : String) : Except PyError (Option Dict) :=
  match value with
  | .null => .ok none
  | value => some <$> referenceItem P value path

/-- One turn of the loop of `_gate_evidence`. -/
def gateEvidenceItem (rawItem : Value) (path : String) : Except PyError String := do
  let evidence ← object rawItem path
  exactKeys evidence {"criterion", "url"} path
  let criterion ← string (← item evidence "criterion") (path ++ ".criterion")
  let _ ← httpsUrl P (← item evidence "url") (path ++ ".url")
  return criterion

def gateEvidence (value : Value) (path : String) (expected : Finset String) :
    Except PyError Unit := do
  let criteria ← enumerate (gateEvidenceItem P) path 0 (← array value path)
  raiseIf (criteria.length ≠ criteria.toFinset.card)
    (path ++ " must not contain duplicate criteria")
  let unknown := criteria.toFinset \ expected
  raiseIf (unknown ≠ ∅) (path ++ " has unknown criteria: " ++ joined unknown)

def basicGate (value : Value) (path : String) (expected : Finset String) :
    Except PyError Unit := do
  let gate ← object value path
  exactKeys gate {"status", "evidence"} path
  let _ ← status (← item gate "status") (path ++ ".status")
  gateEvidence P (← item gate "evidence") (path ++ ".evidence") expected

def review (value : Value) (path : String) : Except PyError Unit :=
  match value with
  | .null => .ok ()
  | value => do
      let review ← object value path
      exactKeys review {"reviewer", "completed_on", "url"} path
      let _ ← string (← item review "reviewer") (path ++ ".reviewer")
      let _ ← date false (← item review "completed_on") (path ++ ".completed_on")
      let _ ← httpsUrl P (← item review "url") (path ++ ".url")

def correctnessGate (value : Value) (path : String) : Except PyError Unit := do
  let gate ← object value path
  exactKeys gate {"status", "evidence", "independent_review", "open_critical", "open_high",
    "reviewed_areas"} path
  let _ ← status (← item gate "status") (path ++ ".status")
  gateEvidence P (← item gate "evidence") (path ++ ".evidence") correctnessSecurityCriteria
  review P (← item gate "independent_review") (path ++ ".independent_review")
  let _ ← nonnegativeInteger (← item gate "open_critical") (path ++ ".open_critical")
  let _ ← nonnegativeInteger (← item gate "open_high") (path ++ ".open_high")
  let reviewedAreas ← array (← item gate "reviewed_areas") (path ++ ".reviewed_areas")
  let areas ← enumerate string (path ++ ".reviewed_areas") 0 reviewedAreas
  raiseIf (areas.toFinset.card ≠ areas.length)
    (path ++ ".reviewed_areas must not contain duplicates")
  let unknown := areas.toFinset \ reviewAreas
  raiseIf (unknown ≠ ∅) (path ++ ".reviewed_areas has unknown values: " ++ joined unknown)

/-- One turn of the inner loop of `_ci_window`. -/
def ciRun (rawRun : Value) (path : String) : Except PyError (Option Date) := do
  let run ← object rawRun path
  exactKeys run {"date", "url"} path
  let runDate ← date false (← item run "date") (path ++ ".date")
  let _ ← runUrl P (← item run "url") (path ++ ".url")
  return runDate

/-- One turn of the outer loop of `_ci_window`. -/
def ciTrack (runs : Value) (path : String) : Except PyError Unit := do
  let runDates ← enumerate (ciRun P) path 0 (← array runs path)
  let dates := runDates.reduceOption
  raiseIf (dates.length ≠ dates.toFinset.card) (path ++ " must not contain duplicate dates")

def ciWindow (value : Value) (path : String) : Except PyError Unit := do
  let window ← object value path
  exactKeys window {"start", "end", "required_days", "tracks"} path
  let _ ← date true (← item window "start") (path ++ ".start")
  let _ ← date true (← item window "end") (path ++ ".end")
  let requiredDays ← nonnegativeInteger (← item window "required_days") (path ++ ".required_days")
  raiseIf (requiredDays ≠ 30) (path ++ ".required_days must remain 30")
  let tracks ← object (← item window "tracks") (path ++ ".tracks")
  exactKeys tracks ciTracks (path ++ ".tracks")
  (sorted ciTracks).forM fun track => do
    ciTrack P (← item tracks track) (path ++ ".tracks." ++ track)

/-- What `_continuity` asks of the mode. -/
def continuityMode (value : Value) (path : String) : Except PyError Unit :=
  match value with
  | .null => .ok ()
  | value => do
      let mode ← string value path
      raiseIf (mode ∉ continuityModes) (path ++ " must be one of: " ++ joined continuityModes)

def continuity (value : Value) (path : String) : Except PyError Unit := do
  let continuity ← object value path
  exactKeys continuity {"status", "mode", "evidence"} path
  let _ ← status (← item continuity "status") (path ++ ".status")
  continuityMode (← item continuity "mode") (path ++ ".mode")
  let _ ← referenceList P (← item continuity "evidence") (path ++ ".evidence")

def deliveryGate (value : Value) (path : String) : Except PyError Unit := do
  let gate ← object value path
  exactKeys gate {"status", "evidence", "ci_window", "continuity"} path
  let _ ← status (← item gate "status") (path ++ ".status")
  gateEvidence P (← item gate "evidence") (path ++ ".evidence") deliveryMaintenanceCriteria
  ciWindow P (← item gate "ci_window") (path ++ ".ci_window")
  continuity P (← item gate "continuity") (path ++ ".continuity")

def adopter (value : Value) (path : String) : Except PyError Unit := do
  let adopter ← object value path
  exactKeys adopter {"name", "workflow", "outcome", "first_use", "evidence"} path
  let _ ← string (← item adopter "name") (path ++ ".name")
  let _ ← string (← item adopter "workflow") (path ++ ".workflow")
  let _ ← string (← item adopter "outcome") (path ++ ".outcome")
  let _ ← date false (← item adopter "first_use") (path ++ ".first_use")
  let _ ← httpsUrl P (← item adopter "evidence") (path ++ ".evidence")

def repeatAdopter (value : Value) (path : String) : Except PyError Unit := do
  let entry ← object value path
  exactKeys entry {"adopter", "repeat_use", "evidence"} path
  let _ ← string (← item entry "adopter") (path ++ ".adopter")
  let _ ← date false (← item entry "repeat_use") (path ++ ".repeat_use")
  let _ ← httpsUrl P (← item entry "evidence") (path ++ ".evidence")

def adoptionGate (value : Value) (path : String) : Except PyError Unit := do
  let gate ← object value path
  exactKeys gate {"status", "adopters", "repeat_adopters", "public_integration",
    "non_maintainer_contribution"} path
  let _ ← status (← item gate "status") (path ++ ".status")
  let adopters ← array (← item gate "adopters") (path ++ ".adopters")
  let _ ← enumerate (adopter P) (path ++ ".adopters") 0 adopters
  let repeats ← array (← item gate "repeat_adopters") (path ++ ".repeat_adopters")
  let _ ← enumerate (repeatAdopter P) (path ++ ".repeat_adopters") 0 repeats
  let _ ← optionalReferenceItem P (← item gate "public_integration") (path ++ ".public_integration")
  let _ ← optionalReferenceItem P (← item gate "non_maintainer_contribution")
    (path ++ ".non_maintainer_contribution")

/-! ### The manifest -/

def validateStructure (manifest : Value) : Except PyError Dict := do
  let root ← object manifest "$"
  exactKeys root {"schema_version", "project", "target_version", "as_of", "gates"} "$"
  let version ← string (← item root "schema_version") "$.schema_version"
  raiseIf (version ≠ schemaVersion) ("$.schema_version must be " ++ P.repr schemaVersion)
  let name ← string (← item root "project") "$.project"
  raiseIf (name ≠ project) ("$.project must be " ++ P.repr project)
  let targetVersion ← string (← item root "target_version") "$.target_version"
  raiseIf (¬ semverRe.rmatch targetVersion.toList) "$.target_version must be a valid SemVer version"
  let _ ← date false (← item root "as_of") "$.as_of"
  let gates ← object (← item root "gates") "$.gates"
  exactKeys gates gateNames "$.gates"
  basicGate P (← item gates "product_compatibility") "$.gates.product_compatibility"
    productCompatibilityCriteria
  correctnessGate P (← item gates "correctness_security") "$.gates.correctness_security"
  basicGate P (← item gates "performance_bounds") "$.gates.performance_bounds"
    performanceBoundsCriteria
  deliveryGate P (← item gates "delivery_maintenance") "$.gates.delivery_maintenance"
  adoptionGate P (← item gates "adoption") "$.gates.adoption"
  return root

end DmlPact.Release
