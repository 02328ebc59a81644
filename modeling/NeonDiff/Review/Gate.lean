import NeonDiff.Lib.Admission
import NeonDiff.Lib.Ranking
import NeonDiff.Review.Finding

/-! # The deterministic review gate -/

namespace NeonDiff.Review

open NeonDiff.Lib NeonDiff.Lib.Words

inductive ReviewEvent where
  | COMMENT | REQUEST_CHANGES
  deriving DecidableEq, Repr

structure PullFilePatch where
  filename : String
  patch : Option String

/-- A finding that is not posted, with every field of it that is known. -/
structure DroppedFinding where
  severity : Option Severity
  path : Option String
  line : Option Int
  title : Option String
  body : Option String
  confidence : Option ℚ
  category : Option RegressionCategory
  why_this_matters : Option String
  reason : String
  fingerprint : Option String
  threadId : Option Nat
  deriving DecidableEq

/-- `{ ...finding, reason }`. -/
def Finding.drop (finding : Finding) (reason : String) : DroppedFinding where
  severity := finding.severity
  path := finding.path
  line := finding.line
  title := finding.title
  body := finding.body
  confidence := finding.confidence
  category := finding.category
  why_this_matters := finding.why_this_matters
  reason := reason
  fingerprint := none
  threadId := none

/-! ## Locations -/

/-- A non-empty run of decimal digits and what follows it. -/
def takeDigits (cs : List Char) : Option (Nat × List Char) :=
  let digits := cs.takeWhile Char.isDigit
  if digits = [] then none else some (JsText.digitsValue digits, cs.dropWhile Char.isDigit)

def dropText (text : String) (cs : List Char) : Option (List Char) :=
  if text.toList.isPrefixOf cs then some (cs.drop text.toList.length) else none

/-- `(?:,\d+)?`. -/
def skipCount (cs : List Char) : List Char :=
  match cs with
  | ',' :: rest => match takeDigits rest with
    | some (_, rest') => rest'
    | none => cs
  | _ => cs

/-- `HUNK_HEADER`: the first line number of the right side. -/
def hunkStart (rawLine : List Char) : Option Nat := do
  let rest ← dropText "@@ -" rawLine
  let (_, rest) ← takeDigits rest
  let rest ← dropText " +" (skipCount rest)
  let (start, rest) ← takeDigits rest
  let _ ← dropText " @@" (skipCount rest)
  return start

/-- One line of a patch: the next right-side line number, when a hunk has begun, and the numbers seen. -/
def scanPatchLine : Option Nat × List Int → List Char → Option Nat × List Int
  | (newLine, lines), rawLine =>
    match hunkStart rawLine with
    | some start => (some start, lines)
    | none => match newLine with
      | none => (none, lines)
      | some n =>
        if "\\ No newline".toList.isPrefixOf rawLine then (some n, lines)
        else if "+".toList.isPrefixOf rawLine && !"+++".toList.isPrefixOf rawLine then
          (some (n + 1), lines ++ [(n : Int)])
        else if "-".toList.isPrefixOf rawLine && !"---".toList.isPrefixOf rawLine then (some n, lines)
        else (some (n + 1), lines ++ [(n : Int)])

def patchLines (file : PullFilePatch) : List Int :=
  ((JsText.split '\n' (file.patch.getD "").toList).foldl scanPatchLine (none, [])).2

/-- The map's value at `path`: a later patch of one file replaces an earlier one, unless it has no lines. -/
def collectRightSideLines (files : List PullFilePatch) (path : String) : Option (List Int) :=
  files.foldl
    (fun found file => if file.filename = path && patchLines file ≠ [] then some (patchLines file) else found) none

/-- Why a finding is off the diff. -/
def locationDrop (files : List PullFilePatch) (finding : Finding) : Option DroppedFinding :=
  match collectRightSideLines files finding.path with
  | none => some (finding.drop "file_not_in_diff")
  | some lines => if finding.line ∈ lines then none else some (finding.drop "line_not_in_current_diff")

def keep (verdict : Finding → Option DroppedFinding) (findings : List Finding) : List Finding :=
  findings.filter fun finding => (verdict finding).isNone

def validateFindingLocations (findings : List Finding) (files : List PullFilePatch) :
    List Finding × List DroppedFinding :=
  (keep (locationDrop files) findings, findings.filterMap (locationDrop files))

/-! ## Remembered false positives -/

structure RepoMemoryFalsePositiveEntry where
  fingerprint : String
  path : String
  category : String
  line : Int
  title : String
  confirmedByHuman : Option Bool

variable (fns : TextFunctions)

/-- Confirmed false positives may suppress any severity, learned ones P2 and P3 only. -/
def isMemorySuppressible (finding : Finding) (confirmedByHuman : Option Bool) : Bool :=
  if confirmedByHuman = some true then true
  else finding.severity = .P2 || finding.severity = .P3

/-- `exactFingerprints.get(fingerprint)`, where the map has it: the legacy list goes in first, with no entry. -/
def exactFingerprint (fingerprints : List String) (entries : List RepoMemoryFalsePositiveEntry)
    (fingerprint : String) : Option (Option RepoMemoryFalsePositiveEntry) :=
  if fingerprint ∈ fingerprints then some none
  else (entries.find? fun entry => entry.fingerprint = fingerprint).map some

def coarseMatches (finding : Finding) (entry : RepoMemoryFalsePositiveEntry) : Bool :=
  entry.path = finding.path &&
  entry.category = (normalizeFindingCategory fns finding).text &&
  (entry.line - finding.line).natAbs ≤ SAME_RUN_DEDUP_MAX_LINE_DELTA &&
  titlesAreNearDuplicate (normalizeTitleForDedup fns finding.title) (normalizeTitleForDedup fns entry.title)

def findCoarseFalsePositiveMatch (finding : Finding) (entries : List RepoMemoryFalsePositiveEntry) :
    Option RepoMemoryFalsePositiveEntry :=
  entries.find? (coarseMatches fns finding)

/-- What the memory drops a finding for: the coarse match is tried only when the fingerprint is not known. -/
def repoMemoryDrop (fingerprints : List String) (entries : List RepoMemoryFalsePositiveEntry) (finding : Finding) :
    Option DroppedFinding :=
  let fingerprint := buildFindingFingerprint fns finding
  match exactFingerprint fingerprints entries fingerprint with
  | some exactEntry =>
    if isMemorySuppressible finding (exactEntry.bind RepoMemoryFalsePositiveEntry.confirmedByHuman) then
      some { finding.drop "repo_memory_false_positive_match" with fingerprint := some fingerprint }
    else none
  | none =>
    match findCoarseFalsePositiveMatch fns finding entries with
    | some coarse =>
      if isMemorySuppressible finding coarse.confirmedByHuman then
        some { finding.drop "repo_memory_false_positive_coarse_match" with fingerprint := some coarse.fingerprint }
      else none
    | none => none

def applyRepoMemoryFalsePositiveSuppressions (findings : List Finding) (fingerprints : List String)
    (entries : List RepoMemoryFalsePositiveEntry) : List Finding × List DroppedFinding :=
  if fingerprints = [] ∧ entries.isEmpty then (findings, [])
  else
    (keep (repoMemoryDrop fns fingerprints entries) findings,
      findings.filterMap (repoMemoryDrop fns fingerprints entries))

/-! ## Answered threads -/

structure AnsweredThread where
  id : Nat
  path : String
  line : Int
  title : String
  body : String

def PRIOR_THREAD_MAX_LINE_DELTA : Nat := 10

def STOP_WORDS : List String :=
  ["the", "and", "are", "now", "for", "with", "this", "that", "from", "into", "when", "not"]

/-- The set of words: letters, digits, `_` and `-`, longer than two, and no stop word. -/
def titleWords (text : String) : List String :=
  let isWordChar := fun c => isLowerAlnum c || c = '_' || c = '-'
  let words := (runs isWordChar (fns.toLowerCase text).toList).map String.ofList
  (words.filter fun word => 2 < word.length && word ∉ STOP_WORDS).dedup

/-- `wordSetJaccard(left, right) >= num / den`. -/
def wordSetJaccardAtLeast (num den : Nat) (left right : List String) : Bool :=
  let intersection := (left.filter fun word => word ∈ right).length
  let union := left.length + right.length - intersection
  union ≠ 0 && num * union ≤ den * intersection

def threadMatches (finding : Finding) (thread : AnsweredThread) : Bool :=
  thread.path = finding.path &&
  (thread.line - finding.line).natAbs ≤ PRIOR_THREAD_MAX_LINE_DELTA &&
  (wordSetJaccardAtLeast 1 2 (titleWords fns finding.title) (titleWords fns thread.title) ||
    wordSetJaccardAtLeast 2 5 (titleWords fns finding.body) (titleWords fns thread.body))

def matchPriorThread (finding : Finding) (threads : List AnsweredThread) : Option AnsweredThread :=
  if finding.severity = .P0 then none else threads.find? (threadMatches fns finding)

def priorThreadDrop (threads : List AnsweredThread) (finding : Finding) : Option DroppedFinding :=
  (matchPriorThread fns finding threads).map fun thread =>
    { finding.drop "prior_thread_answered" with threadId := some thread.id }

/-! ## Normalization -/

structure ReviewComment where
  path : String
  line : Int
  severity : Severity
  category : RegressionCategory
  confidence : ℚ
  fingerprint : String
  title : String
  body : String

/-- `typeof text === "string"` fields through a filter. -/
def DroppedFinding.mapText (f : String → String) (finding : DroppedFinding) : DroppedFinding :=
  { finding with
    title := finding.title.map f
    body := finding.body.map f
    why_this_matters := finding.why_this_matters.map f }

def sanitizeDroppedFindingPublicText (finding : DroppedFinding) : DroppedFinding :=
  finding.mapText fns.sanitizePublicConfidenceText

def sanitizeDroppedFinding (finding : DroppedFinding) : DroppedFinding :=
  finding.mapText fun text => fns.sanitizePublicConfidenceText (fns.redactSecrets text)

def redactFinding (finding : Finding) : Finding :=
  { finding with
    title := fns.redactSecrets finding.title
    body := fns.redactSecrets finding.body
    why_this_matters := finding.why_this_matters.map fun why => if why = "" then why else fns.redactSecrets why }

def secretDrop (finding : Finding) : Option DroppedFinding :=
  let text := finding.title ++ "\n" ++ finding.body ++ "\n" ++ finding.why_this_matters.getD ""
  if fns.containsSecretLikeText text then
    some (sanitizeDroppedFindingPublicText fns ((redactFinding fns finding).drop "secret_detected"))
  else none

/-- Severity first, then the higher confidence, the path, the line and the title. -/
def compareFindings : Finding → Finding → Ordering :=
  compareLex (compareOn fun f => f.severity.rank) <|
  compareLex (fun a b => compare b.confidence a.confidence) <|
  compareLex (fun a b => fns.localeCompare a.path b.path) <|
  compareLex (compareOn Finding.line) fun a b => fns.localeCompare a.title b.title

def ranksBefore (a b : Finding) : Prop := (compareFindings fns a b).isLE = true

instance : DecidableRel (ranksBefore fns) := fun _ _ => inferInstanceAs (Decidable (_ = true))

def suppressSameRunNearDuplicates (findings : List Finding) : List Finding :=
  Ranking.keepFirst (sameRunFindingsAreNearDuplicates fns) [] findings

/-- The findings that the first member of their cluster stands for. -/
def nearDuplicates : List Finding → List Finding → List Finding
  | _, [] => []
  | kept, finding :: rest =>
    if kept.any fun entry => sameRunFindingsAreNearDuplicates fns entry finding then
      finding :: nearDuplicates kept rest
    else nearDuplicates (kept ++ [finding]) rest

def formatReviewComment (finding : Finding) (category : RegressionCategory) : String :=
  let title := fns.sanitizePublicConfidenceText finding.title
  let body := fns.sanitizePublicConfidenceText finding.body
  let shown := finding.why_this_matters.filter (· ≠ "")
  let publicWhy := ((shown.map fns.sanitizePublicConfidenceText).filter (· ≠ "")).or shown
  let why := (publicWhy.map fun text => "\n\nWhy this matters: " ++ text).getD ""
  "**" ++ finding.severity.text ++ ": " ++ title ++ "**\n\n" ++ body ++
    "\n\nCategory: " ++ categoryLabel category ++ why

def reviewComment (finding : Finding) : ReviewComment :=
  let category := normalizeFindingCategory fns finding
  { path := finding.path
    line := finding.line
    severity := finding.severity
    category := category
    confidence := finding.confidence
    fingerprint := buildFindingFingerprint fns finding
    title := fns.sanitizePublicConfidenceText finding.title
    body := formatReviewComment fns finding category }

def rankedFindings (findings : List Finding) : List Finding :=
  (keep (secretDrop fns) findings).insertionSort (ranksBefore fns)

/-- The findings that become comments, best first. -/
def shownFindings (findings : List Finding) (maxInlineComments : Option Nat) : List Finding :=
  (suppressSameRunNearDuplicates fns (rankedFindings fns findings)).take (maxInlineComments.getD 25)

def normalizeFindingsForReview (findings : List Finding) (maxInlineComments : Option Nat) :
    List ReviewComment × List DroppedFinding :=
  let sorted := rankedFindings fns findings
  let overCap := (suppressSameRunNearDuplicates fns sorted).drop (maxInlineComments.getD 25)
  let dropFor := fun reason finding => sanitizeDroppedFindingPublicText fns (Finding.drop finding reason)
  ((shownFindings fns findings maxInlineComments).map (reviewComment fns),
    findings.filterMap (secretDrop fns) ++
    (nearDuplicates fns [] sorted).map (dropFor "same_run_near_duplicate") ++
    overCap.map (dropFor "comment_cap_exceeded"))

/-! ## The gate -/

structure GateInput where
  findings : List Finding
  files : List PullFilePatch
  droppedFromSchema : List DroppedFinding
  maxInlineComments : Option Nat
  repoMemoryFalsePositiveFingerprints : List String
  repoMemoryFalsePositives : List RepoMemoryFalsePositiveEntry
  answeredThreads : List AnsweredThread
  requestChangesConfidenceFloors : Option RequestChangesConfidenceFloors
  categoryPrecisionFloors : Option CategoryPrecisionFloors

def countCategories (comments : List ReviewComment) : List (RegressionCategory × Nat) :=
  tally ReviewComment.category comments

def countDropReasons (dropped : List DroppedFinding) : List (String × Nat) := tally DroppedFinding.reason dropped

structure DeterministicReviewGateSummary where
  inputFindings : Nat
  acceptedComments : Nat
  droppedFindings : Nat
  event : ReviewEvent
  requestChangesEligible : Nat
  categoryCounts : List (RegressionCategory × Nat)
  dropReasonCounts : List (String × Nat)

structure DeterministicReviewGateResult where
  event : ReviewEvent
  comments : List ReviewComment
  dropped : List DroppedFinding
  summary : DeterministicReviewGateSummary

/-- `isRequestChangesEligible` under the floors of the input. -/
def GateInput.eligible (input : GateInput) (comment : ReviewComment) : Bool :=
  isRequestChangesEligible comment.severity comment.category comment.confidence
    input.requestChangesConfidenceFloors input.categoryPrecisionFloors

def decideReviewEvent (input : GateInput) (comments : List ReviewComment) : ReviewEvent :=
  if comments.any input.eligible then .REQUEST_CHANGES else .COMMENT

def applyDeterministicReviewGate (input : GateInput) : DeterministicReviewGateResult :=
  let (located, offDiff) := validateFindingLocations input.findings input.files
  let (remembered, memoryDrops) := applyRepoMemoryFalsePositiveSuppressions fns located
    input.repoMemoryFalsePositiveFingerprints input.repoMemoryFalsePositives
  let unanswered := keep (priorThreadDrop fns input.answeredThreads) remembered
  let priorThreadDrops := remembered.filterMap (priorThreadDrop fns input.answeredThreads)
  let (comments, normalizedDrops) := normalizeFindingsForReview fns unanswered input.maxInlineComments
  let dropped := (input.droppedFromSchema ++ offDiff ++ memoryDrops ++ priorThreadDrops ++ normalizedDrops).map
    (sanitizeDroppedFinding fns)
  let event := decideReviewEvent input comments
  { event := event
    comments := comments
    dropped := dropped
    summary :=
      { inputFindings := input.findings.length
        acceptedComments := comments.length
        droppedFindings := dropped.length
        event := event
        requestChangesEligible := (comments.filter input.eligible).length
        categoryCounts := countCategories comments
        dropReasonCounts := countDropReasons dropped } }

end NeonDiff.Review
