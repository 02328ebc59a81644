import NeonDiff.Lib.Lines
import NeonDiff.Lib.RegexSource

/-! # Metadata checks before a merge -/

open NeonDiff.Lib NeonDiff.Lib.JsText

namespace NeonDiff.PreMerge

inductive PreMergeCheckMode where
  | off | warning | error
  deriving DecidableEq, Repr

inductive PreMergeCheckStatus where
  | pass | warning | fail | skipped
  deriving DecidableEq, Repr

structure PreMergePullInput where
  body : Option String
  deriving Repr

structure PreMergeMetadataCheckConfig where
  mode : PreMergeCheckMode
  allowNotApplicable : Option Bool
  minDetailLength : Option Int
  sectionHeadings : Option (List String)
  deriving Repr

structure PreMergeCheckEvidence where
  key : String
  value : String
  passed : Bool
  detail : Option String
  deriving DecidableEq, Repr

structure PreMergeCheckResult where
  id : String
  name : String
  mode : PreMergeCheckMode
  status : PreMergeCheckStatus
  blocking : Bool
  summary : String
  evidence : List PreMergeCheckEvidence
  deriving DecidableEq, Repr

structure PreMergePolicyValidationError where
  check : String
  field : String
  message : String
  deriving DecidableEq, Repr

/-- An entry of `METADATA_CHECKS`. -/
structure MetadataCheck where
  id : String
  name : String
  keyPrefix : String
  headings : List String
  passSummary : String
  failSummary : String
  deriving DecidableEq, Repr

namespace MetadataCheck

def testEvidence : MetadataCheck where
  id := "test_evidence"
  name := "Test evidence"
  keyPrefix := "test_evidence"
  headings := ["Validation", "Tests", "Test evidence"]
  passSummary := "PR metadata includes deterministic validation or test evidence."
  failSummary := "PR metadata does not include deterministic validation or test evidence."

def docs : MetadataCheck where
  id := "docs"
  name := "Docs"
  keyPrefix := "docs"
  headings := ["Docs", "Documentation"]
  passSummary := "PR metadata includes deterministic documentation impact evidence."
  failSummary := "PR metadata does not include deterministic documentation impact evidence."

def docstrings : MetadataCheck where
  id := "docstrings"
  name := "Docstrings"
  keyPrefix := "docstrings"
  headings := ["Docstrings", "Docstring"]
  passSummary := "PR metadata includes deterministic docstring impact evidence."
  failSummary := "PR metadata does not include deterministic docstring impact evidence."

def outOfScope : MetadataCheck where
  id := "out_of_scope"
  name := "Out of scope"
  keyPrefix := "out_of_scope"
  headings := ["Out of scope", "Non-goals", "Non-goal"]
  passSummary := "PR metadata includes deterministic out-of-scope boundaries."
  failSummary := "PR metadata does not include deterministic out-of-scope boundaries."

/-- `METADATA_CHECKS`. -/
def all : List MetadataCheck := [testEvidence, docs, docstrings, outOfScope]

end MetadataCheck

def defaultMetadataMinDetailLength : Int := 6

/-! ## The policy -/

def validatePositiveInteger (check field : String) (value : Option Int) : List PreMergePolicyValidationError :=
  if value.any (· < 1) then [⟨check, field, s!"{field} must be a positive integer when provided."⟩] else []

def validateHeading (check : String) (index : Nat) (heading : String) : List PreMergePolicyValidationError :=
  if (trim heading.toList).length = 0 || 80 < length heading.toList then
    [⟨check, s!"sectionHeadings.{index}", "section headings must be non-empty strings up to 80 characters."⟩]
  else []

def validateMetadataCheckConfig (check : String) (config : PreMergeMetadataCheckConfig) :
    List PreMergePolicyValidationError :=
  validatePositiveInteger check "minDetailLength" config.minDetailLength ++
    match config.sectionHeadings with
    | none => []
    | some [] => [⟨check, "sectionHeadings", "sectionHeadings must be a non-empty string array when provided."⟩]
    | some headings => (headings.zipIdx.map fun (heading, index) => validateHeading check index heading).flatten

/-! ## Sections -/

section
variable (toUpperCase : Char → Char)

/-- `text.replace(/\s+/g, " ").trim()`. -/
def normalizeText (text : List Char) : List Char := trim (collapseSpaces text)

def spaces : Regex Char := .star (.set isSpace)

/-- `^\s*(?:#{1,6}\s*)?(?:[-*]\s*)?(?:\*\*)?` and the heading, whose own characters are escaped, then
`(?:\*\*)?(?:\s*:\s*(.*)|\s*)$`, under the flag `i`. -/
def headingPattern (heading : String) : Regex Char :=
  .seq [.atStart, spaces, .opt (.cat (.cat (.lit '#') (.upTo (.lit '#') 5)) spaces),
    .opt (.cat (.set fun c => c = '-' || c = '*') spaces), .opt (.lits "**".toList),
    .textIgnoringCase toUpperCase (trim heading.toList), .opt (.lits "**".toList),
    .alt (.seq [spaces, .lit ':', spaces, .group 1 (.star .dot)]) spaces, .atEnd]

structure HeadingMatch where
  heading : String
  inlineDetail : List Char
  deriving DecidableEq, Repr

def matchMetadataHeading (line : List Char) (headings : List String) : Option HeadingMatch :=
  headings.findSome? fun heading =>
    ((headingPattern toUpperCase heading).exec line).map fun (_, place) =>
      ⟨heading, (place.capture 1).getD []⟩

def isAnyMetadataHeading (line : List Char) : Bool :=
  (matchMetadataHeading toUpperCase line (MetadataCheck.all.flatMap MetadataCheck.headings)).isSome

def endsSection (headings : List String) (line : List Char) : Bool :=
  (matchMetadataHeading toUpperCase line headings).isSome || isAnyMetadataHeading toUpperCase line

structure MetadataSection where
  heading : String
  detail : List Char
  deriving DecidableEq, Repr

def findSectionIn (headings : List String) : List (List Char) → Option MetadataSection
  | [] => none
  | line :: lines =>
    match matchMetadataHeading toUpperCase line headings with
    | none => findSectionIn headings lines
    | some found =>
      let followingLines := lines.takeWhile fun next => !endsSection toUpperCase headings next
      some ⟨found.heading, normalizeText ([' '].intercalate (found.inlineDetail :: followingLines))⟩

def findMetadataSection (body : Option String) (headings : List String) : Option MetadataSection :=
  findSectionIn toUpperCase headings (splitLines (body.getD "").toList)

/-- `/^(?:n\/a|not applicable|none needed|none required)\b/i`. -/
def notApplicablePattern : Regex Char :=
  .cat .atStart (.cat (.oneOf (["n/a", "not applicable", "none needed", "none required"].map fun phrase =>
    .textIgnoringCase toUpperCase phrase.toList)) Regex.wordBoundary)

def isNotApplicableSection (detail : List Char) : Bool := (notApplicablePattern toUpperCase).test (normalizeText detail)

/-! ## The check -/

def skippedCheck (id name : String) (mode : PreMergeCheckMode) (summary : String) : PreMergeCheckResult where
  id := id
  name := name
  mode := mode
  summary := summary
  status := .skipped
  blocking := false
  evidence := [⟨"mode", match mode with | .off => "off" | .warning => "warning" | .error => "error", true, none⟩]

def checkFromOutcome (spec : MetadataCheck) (mode : PreMergeCheckMode) (passed : Bool)
    (evidence : List PreMergeCheckEvidence) : PreMergeCheckResult where
  id := spec.id
  name := spec.name
  mode := mode
  evidence := evidence
  status := if passed then .pass else if mode = .error then .fail else .warning
  blocking := !passed && mode = .error
  summary := if passed then spec.passSummary else spec.failSummary

/-- `config.sectionHeadings?.length ? config.sectionHeadings : spec.headings`. -/
def checkHeadings (config : PreMergeMetadataCheckConfig) (spec : MetadataCheck) : List String :=
  match config.sectionHeadings with
  | none | some [] => spec.headings
  | some headings => headings

def minDetailLength (config : PreMergeMetadataCheckConfig) : Int :=
  config.minDetailLength.getD defaultMetadataMinDetailLength

def checkSection (config : PreMergeMetadataCheckConfig) (spec : MetadataCheck) (found : Option MetadataSection) :
    PreMergeCheckResult :=
  let headings := checkHeadings config spec
  let detail := (found.map MetadataSection.detail).getD []
  let sectionPresent := found.isSome
  let notApplicable := isNotApplicableSection toUpperCase detail
  let notApplicableAllowed := config.allowNotApplicable.getD true
  let detailLengthPassed := sectionPresent && minDetailLength config ≤ length (normalizeText detail)
  let notPlaceholderPassed := sectionPresent &&
    ((!notApplicable && detailLengthPassed) || (notApplicable && notApplicableAllowed))
  let passed := sectionPresent && notPlaceholderPassed
  let evidence : List PreMergeCheckEvidence :=
    [⟨s!"{spec.keyPrefix}.section_present", (found.map MetadataSection.heading).getD "none", sectionPresent,
        some ("headings=" ++ "|".intercalate headings)⟩,
      ⟨s!"{spec.keyPrefix}.not_placeholder", toString notPlaceholderPassed, notPlaceholderPassed,
        some s!"minimum_detail_length={minDetailLength config}"⟩]
  let allowance : List PreMergeCheckEvidence :=
    if notApplicable then
      [⟨s!"{spec.keyPrefix}.not_applicable_allowed", toString notApplicableAllowed, notApplicableAllowed, none⟩]
    else []
  checkFromOutcome spec config.mode passed (evidence ++ allowance)

def evaluateMetadataCheck (pull : PreMergePullInput) (config : PreMergeMetadataCheckConfig) (spec : MetadataCheck) :
    PreMergeCheckResult :=
  if config.mode = .off then skippedCheck spec.id spec.name config.mode s!"{spec.name} check is disabled."
  else checkSection toUpperCase config spec (findMetadataSection toUpperCase pull.body (checkHeadings config spec))

end

end NeonDiff.PreMerge
