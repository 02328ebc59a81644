import NeonDiff.Lib.JsText
import NeonDiff.Lib.Table

/-! # Issue enrichment: issues, records, policies -/

open NeonDiff.Lib

namespace NeonDiff.Enrichment

/-- Milliseconds since the epoch. -/
abbrev Time := Nat

/-- What JavaScript and the redactor make of texts. -/
structure Texts where
  toLowerCase : String → String
  redactSecrets : String → String

/-! ## Issues as GitHub keeps them -/

/-- An issue at one of its versions: `version` counts its changes and `touchedAt` is the moment of the last one. -/
structure Issue where
  number : Nat
  version : Nat := 0
  touchedAt : Time := 0
  createdAt : Time := 0
  isOpen : Bool := true
  pullRequest : Bool := false
  labels : List String := []
  authorAssociation : String := ""
  authorLogin : String := ""
  deriving DecidableEq, Repr

def wholeSecond (t : Time) : Time := t / 1000 * 1000

/-- `updated_at`, which `canonicalIssueUpdatedAt` reads. -/
def Issue.updatedAt (issue : Issue) : Time := wholeSecond issue.touchedAt

/-! ## Records and watermarks -/

inductive RecordStatus where
  | dryRun | posted | skipped | deferred | failed
  deriving DecidableEq, Repr

/-- The reasons of scan items, of the admission ledger and of records. -/
inductive Reason where
  | eligible
  | staleIssueClosed
  | issueIsPullRequest
  | preservationOnlyUpstreamIntake
  | repoMaxIssuesPerCycle
  | repoMaxCommentsPerCycle
  | globalMaxIssuesPerCycle
  | globalMaxCommentsPerCycle
  | burstThresholdExceeded
  | persistedDeferActive
  | repositoryBlocked
  | eventHistoryUnbounded
  | untrustedAuthorPublicRepo
  | sourceProbe
  | held
  | alreadyRecorded
  | released
  | dryRunOnly
  | sourceOrEvidenceFailed
  | analysisOrPostFailed
  deriving DecidableEq, Repr

structure IssueRecord where
  repo : String
  issueNumber : Nat
  issueUpdatedAt : Option Time := none
  bodyHash : Option String := none
  analysisInputHash : Option String := none
  status : RecordStatus
  reason : Option Reason := none
  commentUrl : Option String := none
  error : Option String := none
  nextEligibleAt : Option Time := none
  deriving DecidableEq, Repr

def IssueRecord.key (r : IssueRecord) : String × Nat := (r.repo, r.issueNumber)

structure Watermark where
  repo : String
  activatedAt : Time
  lastCheckedAt : Time
  deriving DecidableEq, Repr

abbrev Records := Table IssueRecord.key

abbrev Watermarks := Table Watermark.repo

def getIssueEnrichmentRecord (records : Records) (repo : String) (number : Nat) : Option IssueRecord :=
  records.find? (repo, number)

/-- The text kept of a URL or an error: redacted, trimmed and cut. -/
def keptText (texts : Texts) (limit : Nat) (text : String) : String :=
  String.ofList ((JsText.trim (texts.redactSecrets text).toList).take limit)

def recordIssueEnrichment (texts : Texts) (records : Records) (input : IssueRecord) : Records :=
  records.upsert { input with
    commentUrl := input.commentUrl.map (keptText texts 500)
    error := input.error.map (keptText texts 1000) }

def clearIssueEnrichmentAuthorGateSkip (records : Records) (repo : String) (number : Nat) : Records :=
  records.delete fun r => r.key = (repo, number) && r.status = .skipped && r.reason = some .untrustedAuthorPublicRepo

def getIssueEnrichmentRepoWatermark (watermarks : Watermarks) (repo : String) : Option Watermark :=
  watermarks.find? repo

/-- The first `activatedAt` of a repository stays. -/
def recordIssueEnrichmentRepoWatermark (watermarks : Watermarks) (input : Watermark) : Watermarks :=
  match getIssueEnrichmentRepoWatermark watermarks input.repo with
  | none => watermarks.upsert input
  | some existing => watermarks.upsert { input with activatedAt := existing.activatedAt }

/-! ## Configuration -/

structure ThrottlePolicy where
  maxIssuesPerCycle : Nat := 5
  maxCommentsPerCycle : Nat := 1
  cooldownMs : Nat := 60 * 60000
  burstWindowMs : Nat := 60 * 60000
  maxIssuesPerBurst : Nat := 10
  lookbackMs : Nat := 10 * 60000
  processExistingOpenIssuesOnActivation : Bool := false

structure RepoOverride where
  enabled : Option Bool := none
  promotionMaintainers : List String := []
  maxIssuesPerCycle : Option Nat := none
  maxCommentsPerCycle : Option Nat := none
  cooldownMs : Option Nat := none
  burstWindowMs : Option Nat := none
  maxIssuesPerBurst : Option Nat := none
  lookbackMs : Option Nat := none
  processExistingOpenIssuesOnActivation : Option Bool := none

/-- The public-repository author gate, with whether it is on in this process. -/
structure AuthorGate where
  enabled : Bool := false
  allowedAssociations : List String := []
  allowedLogins : List String := []

structure Config where
  postIssueComment : Bool := false
  allowlist : List String := []
  throttle : ThrottlePolicy := {}
  globalMaxIssuesPerCycle : Nat := 5
  globalMaxCommentsPerCycle : Nat := 1
  /-- The override `canonicalIssueEnrichmentRepository` finds for a repository. -/
  override : String → Option RepoOverride := fun _ => none
  authorGate : AuthorGate := {}

def canonicalIssueEnrichmentRepositories (texts : Texts) (config : Config) : List String :=
  (config.allowlist.map texts.toLowerCase).eraseDups

structure RepoPolicy where
  allowed : Bool
  throttle : ThrottlePolicy

def resolveIssueEnrichmentRepoPolicy (texts : Texts) (config : Config) (repo : String) : RepoPolicy :=
  let override := (config.override repo).getD {}
  { allowed :=
      config.allowlist.any (fun allowed => texts.toLowerCase allowed = texts.toLowerCase repo) &&
        override.enabled ≠ some false
    throttle :=
      { maxIssuesPerCycle := override.maxIssuesPerCycle.getD config.throttle.maxIssuesPerCycle
        maxCommentsPerCycle := override.maxCommentsPerCycle.getD config.throttle.maxCommentsPerCycle
        cooldownMs := override.cooldownMs.getD config.throttle.cooldownMs
        burstWindowMs := override.burstWindowMs.getD config.throttle.burstWindowMs
        maxIssuesPerBurst := override.maxIssuesPerBurst.getD config.throttle.maxIssuesPerBurst
        lookbackMs := override.lookbackMs.getD config.throttle.lookbackMs
        processExistingOpenIssuesOnActivation :=
          override.processExistingOpenIssuesOnActivation.getD
            config.throttle.processExistingOpenIssuesOnActivation } }

/-! ## Issues a cycle leaves alone -/

inductive RepositoryVisibility where
  | pub | priv | unknown
  deriving DecidableEq, Repr

/-- The flags of a repository as `getRepo` answers them. -/
structure RepositoryFlags where
  isPrivate : Option Bool := none
  visibility : Option String := none
  deriving DecidableEq, Repr

def visibilityFromRepositoryFlags (flags : Option RepositoryFlags) : RepositoryVisibility :=
  match flags with
  | none => .unknown
  | some flags =>
    if flags.isPrivate = some true || flags.visibility = some "private" || flags.visibility = some "internal" then .priv
    else if flags.visibility = some "public" || flags.isPrivate = some false then .pub
    else .unknown

def matchesTrustedAuthor (texts : Texts) (gate : AuthorGate) (issue : Issue) : Bool :=
  (issue.authorAssociation ≠ "" && gate.allowedAssociations.contains issue.authorAssociation) ||
    (issue.authorLogin ≠ "" &&
      gate.allowedLogins.any fun login => texts.toLowerCase login = texts.toLowerCase issue.authorLogin)

def isAuthorBlockedOnPublicRepo (texts : Texts) (gate : AuthorGate) (issue : Issue)
    (visibility : RepositoryVisibility) : Bool :=
  if !gate.enabled || visibility = .priv then false else !matchesTrustedAuthor texts gate issue

def isIssueAuthorGated (texts : Texts) (gate : AuthorGate) (issue : Issue) (repository : Option RepositoryFlags) : Bool :=
  if !gate.enabled || matchesTrustedAuthor texts gate issue then false
  else isAuthorBlockedOnPublicRepo texts gate issue (visibilityFromRepositoryFlags repository)

/-- A label as the gates compare it. -/
def normalLabel (texts : Texts) (label : String) : String :=
  texts.toLowerCase (String.ofList (JsText.trim label.toList))

def getIssueEnrichmentEligibility (texts : Texts) (issue : Issue) : Option Reason :=
  if issue.pullRequest then some .issueIsPullRequest
  else if !issue.isOpen then some .staleIssueClosed
  else if issue.labels.any fun label => normalLabel texts label = "upstream-intake" then
    some .preservationOnlyUpstreamIntake
  else none

inductive IssueEventTerminal where
  | shortPage | boundedTail | eventHistoryUnbounded
  deriving DecidableEq, Repr

/-- What GitHub answers about one issue while the cycle prepares it. -/
structure IssueAnswers where
  repository : Option RepositoryFlags := none
  /-- The label events, or how the read failed; without a reader there are none. -/
  events : Except String (Option (Option IssueEventTerminal)) := .ok none
  /-- The latest label event is by a maintainer whose permission holds, as `isTrustedIssuePromotion` asks. -/
  trustedPromotion : Bool := false

def evaluateIssuePromotion (texts : Texts) (override : RepoOverride) (hasEvents trusted : Bool) (issue : Issue) :
    Issue :=
  let labels := issue.labels.map (normalLabel texts)
  if !(labels.contains "upstream-intake" && labels.contains "active-continuation") then issue
  else if override.promotionMaintainers.isEmpty || !hasEvents || !trusted then issue
  else { issue with labels := issue.labels.filter fun label => normalLabel texts label ≠ "upstream-intake" }

@[simp] theorem evaluateIssuePromotion_number (texts : Texts) (override : RepoOverride) (hasEvents trusted : Bool)
    (issue : Issue) : (evaluateIssuePromotion texts override hasEvents trusted issue).number = issue.number := by
  unfold evaluateIssuePromotion
  dsimp only
  split
  · rfl
  · split <;> rfl

@[simp] theorem evaluateIssuePromotion_version (texts : Texts) (override : RepoOverride) (hasEvents trusted : Bool)
    (issue : Issue) : (evaluateIssuePromotion texts override hasEvents trusted issue).version = issue.version := by
  unfold evaluateIssuePromotion
  dsimp only
  split
  · rfl
  · split <;> rfl

end NeonDiff.Enrichment
