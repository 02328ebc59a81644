import Mathlib.Algebra.Order.Ring.Rat
import NeonDiff.Lib.Json
import NeonDiff.Lib.Words

/-! # Findings and their categories -/

namespace NeonDiff.Review

open NeonDiff.Lib NeonDiff.Lib.Words

inductive Severity where
  | P0 | P1 | P2 | P3
  deriving DecidableEq, Repr

inductive RegressionCategory where
  | data_loss | auth | ci_build | unity_scene_prefab | security_boundary | migration | api_compatibility
  | release_regression | flaky_test_risk | proof_gap | runtime_correctness | dependency | docs_only | unknown
  deriving DecidableEq, Repr

structure Finding where
  severity : Severity
  path : String
  line : Int
  title : String
  body : String
  confidence : ℚ
  category : Option RegressionCategory
  why_this_matters : Option String
  deriving DecidableEq

/-- The functions the gate calls on texts: the host's own, and the secret and public-confidence filters. -/
structure TextFunctions where
  toLowerCase : String → String
  localeCompare : String → String → Ordering
  sha256 : String → String
  containsSecretLikeText : String → Bool
  redactSecrets : String → String
  sanitizePublicConfidenceText : String → String
  collates : Std.TransCmp localeCompare

/-! ## Severities -/

namespace Severity

def text : Severity → String
  | P0 => "P0"
  | P1 => "P1"
  | P2 => "P2"
  | P3 => "P3"

/-- `SEVERITY_RANK`. -/
def rank : Severity → Nat
  | P0 => 0
  | P1 => 1
  | P2 => 2
  | P3 => 3

end Severity

def isHighSeverity (severity : Severity) : Bool := severity = .P0 || severity = .P1

/-! ## The category policy -/

structure RegressionCategoryPolicy where
  label : String
  requestChangesEligible : Bool

namespace RegressionCategory

def text : RegressionCategory → String
  | data_loss => "data_loss"
  | auth => "auth"
  | ci_build => "ci_build"
  | unity_scene_prefab => "unity_scene_prefab"
  | security_boundary => "security_boundary"
  | migration => "migration"
  | api_compatibility => "api_compatibility"
  | release_regression => "release_regression"
  | flaky_test_risk => "flaky_test_risk"
  | proof_gap => "proof_gap"
  | runtime_correctness => "runtime_correctness"
  | dependency => "dependency"
  | docs_only => "docs_only"
  | unknown => "unknown"

/-- `REGRESSION_CATEGORY_POLICY`. -/
def policy : RegressionCategory → RegressionCategoryPolicy
  | data_loss => ⟨"Data loss", true⟩
  | auth => ⟨"Auth", true⟩
  | ci_build => ⟨"CI/build", true⟩
  | unity_scene_prefab => ⟨"Unity scene/prefab", true⟩
  | security_boundary => ⟨"Security boundary", true⟩
  | migration => ⟨"Migration", true⟩
  | api_compatibility => ⟨"API compatibility", true⟩
  | release_regression => ⟨"Release regression", true⟩
  | flaky_test_risk => ⟨"Flaky test risk", true⟩
  | proof_gap => ⟨"Proof gap", false⟩
  | runtime_correctness => ⟨"Runtime correctness", true⟩
  | dependency => ⟨"Dependency", true⟩
  | docs_only => ⟨"Docs only", false⟩
  | unknown => ⟨"Uncategorized", true⟩

end RegressionCategory

def categoryLabel (category : RegressionCategory) : String := category.policy.label

structure RequestChangesConfidenceFloors where
  P0 : Option ℚ
  P1 : Option ℚ

/-- `confidenceFloors[severity]`, which has no field for the lower severities. -/
def RequestChangesConfidenceFloors.get (floors : RequestChangesConfidenceFloors) : Severity → Option ℚ
  | .P0 => floors.P0
  | .P1 => floors.P1
  | _ => none

abbrev CategoryPrecisionFloors := RegressionCategory → Option ℚ

def belowFloor (confidence : ℚ) (floor : Option ℚ) : Bool := floor.any fun f => confidence < f

def isRequestChangesEligible (severity : Severity) (category : RegressionCategory) (confidence : ℚ)
    (confidenceFloors : Option RequestChangesConfidenceFloors)
    (categoryPrecisionFloors : Option CategoryPrecisionFloors) : Bool :=
  if !isHighSeverity severity || !category.policy.requestChangesEligible then false
  else if belowFloor confidence (categoryPrecisionFloors.bind fun floors => floors category) then false
  else if belowFloor confidence (confidenceFloors.bind fun floors => floors.get severity) then false
  else true

/-! ## The category of a finding -/

/-- `/[\s/.*_-]/.test(needle)`. -/
def isPhrase (needle : List Char) : Bool :=
  needle.any fun c => JsText.isSpace c || c = '/' || c = '.' || c = '*' || c = '_' || c = '-'

def matchesAny (text : List Char) (needles : List String) : Bool :=
  needles.any fun needle =>
    if isPhrase needle.toList then includes needle.toList text
    else includesWord isLowerAlnum needle.toList true text

variable (fns : TextFunctions)

def inferRegressionCategory (finding : Finding) : RegressionCategory :=
  let haystack := (fns.toLowerCase (finding.path ++ "\n" ++ finding.title ++ "\n" ++ finding.body ++ "\n" ++
    finding.why_this_matters.getD "")).toList
  let path := (fns.toLowerCase finding.path).toList
  if matchesAny haystack ["data loss", "overwrite", "clobber", "truncate", "corrupt"] ||
      (matchesAny haystack ["rollback"] && matchesAny haystack ["save", "state", "database", "customer data"]) then
    .data_loss
  else if matchesAny haystack ["secret", "credential", "private key", "api key", "access token", "leaked token",
      "cookie", "xss", "csrf", "ssrf", "injection"] then
    .security_boundary
  else if matchesAny haystack ["auth", "permission", "unauthorized", "oauth", "session", "login", "token"] then
    .auth
  else if matchesAny path [".github/workflows/", "package.json", "package-lock.json", "pnpm-lock.yaml",
      "yarn.lock", "tsconfig"] then
    .ci_build
  else if matchesAny path ["assets/", "projectsettings/", ".unity", ".prefab", ".asset", ".cs"] then
    .unity_scene_prefab
  else if matchesAny haystack ["migration", "schema", "database", "backfill"] then
    .migration
  else if matchesAny haystack ["api", "contract", "compatibility", "breaking change", "payload"] then
    .api_compatibility
  else if matchesAny haystack ["release", "deploy", "launchd", "notar", "rollback", "appcast", "production"] then
    .release_regression
  else if matchesAny haystack ["flaky", "race", "timeout", "non-deterministic", "nondeterministic"] then
    .flaky_test_risk
  else if matchesAny haystack ["proof", "evidence", "screenshot", "recording", "smoke", "play mode",
      "playmode"] then
    .proof_gap
  else if matchesAny path ["docs/", ".md", ".mdx"] then
    .docs_only
  else if matchesAny path ["src/", "app/", "lib/", "server/", "client/"] then
    .runtime_correctness
  else if matchesAny path ["requirements", "poetry.lock", "cargo.lock", "go.sum", "bun.lock"] then
    .dependency
  else .unknown

/-- The model's category wins, unless the inferred one escalates across the eligibility boundary. -/
def normalizeFindingCategory (finding : Finding) : RegressionCategory :=
  let inferred := inferRegressionCategory fns finding
  match finding.category with
  | none | some .unknown => inferred
  | some category =>
    if !category.policy.requestChangesEligible &&
        (inferred ≠ .unknown && inferred.policy.requestChangesEligible) then inferred
    else category

/-! ## Identity -/

/-- `text.trim().toLowerCase()`. -/
def canonicalText (text : String) : String := fns.toLowerCase (String.ofList (JsText.trim text.toList))

def buildFindingFingerprint (finding : Finding) : String :=
  let canonical := Json.obj [
    ("severity", .str finding.severity.text),
    ("path", .str finding.path),
    ("line", .int finding.line),
    ("title", .str (canonicalText fns finding.title)),
    ("body", .str (canonicalText fns finding.body)),
    ("why_this_matters", .str ((finding.why_this_matters.map (canonicalText fns)).getD "")),
    ("category", .str ((finding.category.map RegressionCategory.text).getD "unknown"))]
  "finding:" ++ fns.sha256 (String.ofList canonical.stringify)

/-! ## Near duplicates -/

def SAME_RUN_DEDUP_MAX_LINE_DELTA : Nat := 3

def SAME_RUN_DEDUP_MIN_PREFIX_LENGTH : Nat := 12

/-- The runs of letters and digits, with one blank between. -/
def normalizeTitleForDedup (title : String) : List Char :=
  [' '].intercalate (runs isLowerAlnum (fns.toLowerCase title).toList)

def titlesAreNearDuplicate (a b : List Char) : Bool :=
  if a = b then 0 < a.length
  else
    let (shorter, longer) := if a.length ≤ b.length then (a, b) else (b, a)
    SAME_RUN_DEDUP_MIN_PREFIX_LENGTH ≤ shorter.length && shorter.isPrefixOf longer

def sameRunFindingsAreNearDuplicates (left right : Finding) : Bool :=
  left.path = right.path &&
  normalizeFindingCategory fns left = normalizeFindingCategory fns right &&
  (left.line - right.line).natAbs ≤ SAME_RUN_DEDUP_MAX_LINE_DELTA &&
  titlesAreNearDuplicate (normalizeTitleForDedup fns left.title) (normalizeTitleForDedup fns right.title)

end NeonDiff.Review
