import NeonDiff.Store.Queue

/-! # The merge gate on an exact head -/

namespace NeonDiff.Gate

open NeonDiff.Lib NeonDiff.Lib.JsText NeonDiff.Store

inductive ReviewHeadGateDecision where
  | passed | missing | queued | reviewing | providerDeferred | failed | needsFix | skipped | dryRun | stale
  | closed | blocked
  deriving DecidableEq, Repr

/-! ## Decisions from single records -/

def decisionFromProcessed (processed : StoredProcessedReviewRecord) : ReviewHeadGateDecision :=
  match processed.status with
  | .posted => if processed.event = some .requestChanges then .needsFix else .passed
  | .dryRun => .dryRun
  | .skipped => .skipped
  | .failed => .failed

def decisionFromQueueJob (job : ReviewQueueJobRecord) : ReviewHeadGateDecision :=
  match job.state with
  | .queued => .queued
  | .leased | .running => .reviewing
  | .providerDeferred => .providerDeferred
  | .blockedOnProof => .blocked
  | .failed => .failed
  | .staleRetired => .stale
  | .closedRetired => .closed
  | .commandRecorded => .blocked
  | .posted => if job.reviewUrl.isSome then .passed else .blocked

def decisionFromReadiness (readiness : ReviewReadinessRecord) : ReviewHeadGateDecision :=
  match readiness.state with
  | .readyForHuman => if readiness.reviewUrl.isSome then .passed else .blocked
  | .needsFix => .needsFix
  | .queued => .queued
  | .reviewing => .reviewing
  | .providerDeferred => .providerDeferred
  | .failed => .failed
  | .skipped | .commandRecorded => .skipped
  | .stale | .awaitingReReview => .stale
  | .closed => .closed
  | .blockedOnChecks | .blockedOnProof => .blocked

/-! ## Jobs against the processed row -/

/-- The list of states leaves `blocked_on_proof` out. -/
def isActiveQueueJob (job : ReviewQueueJobRecord) : Bool :=
  job.state = .queued || job.state = .leased || job.state = .running || job.state = .providerDeferred

def isTerminalQueueJob (job : ReviewQueueJobRecord) : Bool :=
  job.state = .posted || job.state = .failed || job.state = .staleRetired || job.state = .closedRetired ||
  job.state = .commandRecorded

/-- `parseStoreTimestamp`: both formats are read as UTC, in milliseconds. -/
def parseStoreTimestamp : Stamp → Int
  | .iso ms => ms
  | .sqlite sec => sec * 1000

def isQueueJobNewerThanProcessed (job : ReviewQueueJobRecord) (processed : StoredProcessedReviewRecord) : Bool :=
  job.updatedAt > parseStoreTimestamp processed.createdAt

/-! ## The decision -/

structure GateInput where
  carriedDecision : Option ReviewHeadGateDecision
  processed : Option StoredProcessedReviewRecord
  readiness : Option ReviewReadinessRecord
  queueJobs : List ReviewQueueJobRecord

/-- The job that stands before the processed row: only the first active one is looked at. -/
def blockingJob (input : GateInput) : Option ReviewQueueJobRecord :=
  (input.queueJobs.find? isActiveQueueJob).filter fun job =>
    input.processed.all fun p => isQueueJobNewerThanProcessed job p

/-- What decides when no active job stands before the processed row. -/
def settledDecision (input : GateInput) : ReviewHeadGateDecision :=
  match input.processed with
  | some p => input.carriedDecision.getD (decisionFromProcessed p)
  | none =>
    match input.queueJobs.find? isTerminalQueueJob with
    | some job => decisionFromQueueJob job
    | none =>
      match input.readiness with
      | some readiness => decisionFromReadiness readiness
      | none => .missing

def decideReviewHeadGate (input : GateInput) : ReviewHeadGateDecision :=
  match blockingJob input with
  | some job => decisionFromQueueJob job
  | none => settledDecision input

/-! ## The texts of the answer -/

def statusText : ProcessedStatus → String
  | .dryRun => "dry_run"
  | .posted => "posted"
  | .skipped => "skipped"
  | .failed => "failed"

def eventText : ReviewEvent → String
  | .comment => "COMMENT"
  | .requestChanges => "REQUEST_CHANGES"

def jobStateText : ReviewQueueJobState → String
  | .queued => "queued"
  | .leased => "leased"
  | .running => "running"
  | .providerDeferred => "provider_deferred"
  | .blockedOnProof => "blocked_on_proof"
  | .staleRetired => "stale_retired"
  | .closedRetired => "closed_retired"
  | .commandRecorded => "command_recorded"
  | .posted => "posted"
  | .failed => "failed"

def readinessStateText : ReviewReadinessState → String
  | .queued => "queued"
  | .reviewing => "reviewing"
  | .needsFix => "needs_fix"
  | .awaitingReReview => "awaiting_re_review"
  | .blockedOnChecks => "blocked_on_checks"
  | .blockedOnProof => "blocked_on_proof"
  | .readyForHuman => "ready_for_human"
  | .providerDeferred => "provider_deferred"
  | .stale => "stale"
  | .closed => "closed"
  | .commandRecorded => "command_recorded"
  | .skipped => "skipped"
  | .failed => "failed"

def processedDetail (p : StoredProcessedReviewRecord) : String :=
  "processed_reviews status=" ++ statusText p.status ++ " event=" ++ (p.event.elim "unknown" eventText) ++
    " reviewUrl=" ++ p.reviewUrl.getD "none"

def gateDetail (decision : ReviewHeadGateDecision) (processed : Option StoredProcessedReviewRecord)
    (readiness : Option ReviewReadinessRecord) (queueJobs : List ReviewQueueJobRecord) : String :=
  match decision, processed with
  | .passed, some p => processedDetail p
  | _, _ =>
    match queueJobs.find? isActiveQueueJob, queueJobs.find? isTerminalQueueJob with
    | some job, _ =>
      "queue_job state=" ++ jobStateText job.state ++ " priority=" ++ toString job.priority ++ " lastError=" ++
        job.lastError.getD "none"
    | none, some job =>
      "queue_job state=" ++ jobStateText job.state ++ " priority=" ++ toString job.priority ++ " reviewUrl=" ++
        job.reviewUrl.getD "none" ++ " lastError=" ++ job.lastError.getD "none"
    | none, none =>
      match decision, readiness, processed with
      | .passed, some r, _ =>
        "review_readiness state=" ++ readinessStateText r.state ++ " reviewUrl=" ++ r.reviewUrl.getD "none"
      | _, _, some p => "processed_reviews status=" ++ statusText p.status ++ " error=" ++ p.error.getD "none"
      | _, some r, none =>
        "review_readiness state=" ++ readinessStateText r.state ++ " reason=" ++ r.reason.getD "none"
      | _, none, none => "no processed review, active queue job, or readiness row for exact head"

def nextAction : ReviewHeadGateDecision → String
  | .passed => "merge gate passed for exact head"
  | .queued | .reviewing => "wait for evaOS review status to reach completed before merging"
  | .providerDeferred => "wait for provider cooldown or retry according to provider-cooldown policy before merging"
  | .missing => "do not merge; wait for the daemon to observe this head or run an explicit review-pr/re-review command"
  | .dryRun => "do not merge from dry-run proof; require a live App-authored review or explicit waiver"
  | .skipped => "do not merge without confirming the skip reason is an approved waiver"
  | .failed => "inspect failure evidence and retry or fix before merging"
  | .needsFix => "do not merge; address evaOS requested changes or explicitly override with human approval"
  | .stale => "refresh the current PR head and run the gate for the latest SHA"
  | .closed => "PR is already closed or merged; record this as incident evidence if the final head needed review"
  | .blocked => "resolve the blocked readiness state before merging"

/-! ## The gate -/

structure ReviewHeadGateResult where
  ok : Bool
  checkedAt : Int
  head : HeadKey
  decision : ReviewHeadGateDecision
  carriedFromHead : Option String
  processed : Option StoredProcessedReviewRecord
  readiness : Option ReviewReadinessRecord
  queueJobs : List ReviewQueueJobRecord
  detail : String
  nextAction : String

/-- `/^[A-Za-z0-9_.-]+\/[A-Za-z0-9_.-]+$/`. -/
def isRepoSlug (repo : String) : Bool :=
  match split '/' repo.toList with
  | [owner, name] => owner ≠ [] && name ≠ [] && owner.all isRepoNameChar && name.all isRepoNameChar
  | _ => false

def validateHead (head : HeadKey) : Except String Unit :=
  if !isRepoSlug head.repo then .error ("Invalid repo slug: " ++ head.repo)
  else if head.pullNumber < 1 then .error ("Invalid PR number: " ++ toString head.pullNumber)
  else if !isHeadSha head.headSha then .error ("Invalid head SHA: " ++ head.headSha)
  else .ok ()

/-- The jobs of the exact head, in the order of `listReviewQueueJobsForPull`. -/
def headJobs (s : State) (head : HeadKey) : List ReviewQueueJobRecord :=
  (listReviewQueueJobsForPull s head.repo head.pullNumber).filter fun job => job.headSha = head.headSha

def carriedHead (processed : Option StoredProcessedReviewRecord) : Option String :=
  (processed.filter fun p => p.status = .skipped && p.error = some baseMergeOnly).bind (·.carriedFromHead)

def carryAnchor (s : State) (head : HeadKey) : Option StoredProcessedReviewRecord :=
  (carriedHead (getProcessedReview s head)).bind fun sha => getProcessedReview s { head with headSha := sha }

def gateInput (s : State) (head : HeadKey) : GateInput where
  carriedDecision := ((carryAnchor s head).filter fun a => a.status = .posted).map decisionFromProcessed
  processed := getProcessedReview s head
  readiness := getReviewReadiness s head
  queueJobs := headJobs s head

def buildReviewHeadGate (s : State) (head : HeadKey) (now : Int) : Except String ReviewHeadGateResult :=
  match validateHead head with
  | .error e => .error e
  | .ok () =>
    let input := gateInput s head
    let decision := decideReviewHeadGate input
    .ok {
      ok := decision = .passed
      checkedAt := now
      head := head
      decision := decision
      carriedFromHead := carriedHead input.processed
      processed := input.processed
      readiness := input.readiness
      queueJobs := input.queueJobs
      detail := match (carryAnchor s head).filter fun a => a.status = .posted && decision = decisionFromProcessed a with
        | some a => processedDetail a ++ "; carried from " ++ String.ofList (a.head.headSha.toList.take 12) ++
            " via a base-merge-only push"
        | none => gateDetail decision input.processed input.readiness input.queueJobs
      nextAction := nextAction decision }

end NeonDiff.Gate
