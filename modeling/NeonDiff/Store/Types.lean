import NeonDiff.Lib.Table
import NeonDiff.Lib.JsText

/-! # The rows of the review state store

Text columns keep their text, and a column that is null in SQLite is `none`. A time column that only
`toISOString` writes is its milliseconds since the epoch.
-/

namespace NeonDiff.Store

open NeonDiff.Lib NeonDiff.Lib.JsText

/-! ## Texts and times -/

/-- A field that `...(value ? { field: value } : {})` keeps: the empty text is dropped. -/
def truthy (v : Option String) : Option String := v.filter (· ≠ "")

/-- A stored time: `toISOString` text, in milliseconds since the epoch, or the text of SQLite's
`datetime('now')`, which has no milliseconds. -/
inductive Stamp where
  | iso (ms : Int)
  | sqlite (sec : Int)
  deriving DecidableEq, Repr

/-- A time a caller hands in as text: `toISOString` text, or any other. -/
inductive DateText where
  | iso (ms : Int)
  | other (text : String)
  deriving DecidableEq, Repr

/-- `Date.parse`, given how it reads the texts `toISOString` does not write; nothing stands for `NaN`. -/
def DateText.parse (dateParse : String → Option Int) : DateText → Option Int
  | iso ms => some ms
  | other text => dateParse text

namespace Stamp

/-- SQLite's `datetime(text)`, in seconds. -/
def seconds : Stamp → Int
  | iso ms => ms / 1000
  | sqlite sec => sec

def day (s : Stamp) : Int := s.seconds / 86400

/-- The order of the two texts: after the date, SQLite writes a space where `toISOString` writes a `T`. -/
def textLt : Stamp → Stamp → Bool
  | iso a, iso b => a < b
  | sqlite a, sqlite b => a < b
  | sqlite a, iso b => (sqlite a).day ≤ (iso b).day
  | iso a, sqlite b => (iso a).day < (sqlite b).day

end Stamp

/-! ## Heads -/

structure HeadKey where
  repo : String
  pullNumber : Nat
  headSha : String
  deriving DecidableEq, Repr

/-! ## processed_reviews -/

inductive ProcessedStatus where
  | dryRun | posted | skipped | failed
  deriving DecidableEq, Repr

inductive ReviewEvent where
  | comment | requestChanges
  deriving DecidableEq, Repr

structure ProcessedReviewRecord where
  head : HeadKey
  status : ProcessedStatus
  configRevision : Option String := none
  baseRef : Option String := none
  baseSha : Option String := none
  diffFingerprint : Option String := none
  carriedFromHead : Option String := none
  event : Option ReviewEvent := none
  reviewUrl : Option String := none
  error : Option String := none
  deriving DecidableEq, Repr

structure StoredProcessedReviewRecord extends ProcessedReviewRecord where
  createdAt : Stamp
  deriving DecidableEq, Repr

def StoredProcessedReviewRecord.key (row : StoredProcessedReviewRecord) : HeadKey := row.head

def ACTIVATION_BASELINE_EXISTING_HEAD_ERROR : String := "activation_baseline_existing_head"
def EXACT_AUTHORIZATION_ALREADY_CONSUMED_ERROR : String := "exact_authorization_already_consumed"
def POST_REVIEW_HEAD_UNVERIFIED_ERROR : String := "post_review_head_unverified"
def APPROVED_DRY_RUN_LIVE_CLAIM_ERROR : String := "approved_dry_run_consumed_for_live_post"
def REVIEW_POSTED_HEAD_CHANGED_ERROR : String := "review_posted_head_changed"
def PROVIDER_COOLDOWN_ERROR_PREFIX : String := "provider_rate_limit_cooldown_until="

/-- The error text of a carried skip, as the store's SQL spells it. -/
def baseMergeOnly : String := "base_merge_only"

/-- `mapProcessedReviewRow`: empty texts read back as absent. -/
def mapProcessedReviewRow (row : StoredProcessedReviewRecord) : StoredProcessedReviewRecord :=
  { row with
    configRevision := truthy row.configRevision
    baseRef := truthy row.baseRef
    baseSha := truthy row.baseSha
    diffFingerprint := truthy row.diffFingerprint
    carriedFromHead := truthy row.carriedFromHead
    reviewUrl := truthy row.reviewUrl
    error := truthy row.error }

/-! ## review_head_claims -/

structure ReviewHeadClaimRow where
  head : HeadKey
  claimId : String
  ownerPid : Nat
  claimedAt : Int
  expiresAt : Int
  deriving DecidableEq, Repr

/-! ## review_readiness -/

inductive ReviewReadinessState where
  | queued | reviewing | needsFix | awaitingReReview | blockedOnChecks | blockedOnProof | readyForHuman
  | providerDeferred | stale | closed | commandRecorded | skipped | failed
  deriving DecidableEq, Repr

inductive ProcessedCommandAction where
  | review | reReview | requestChanges | explain | stop | finishingTouch (action : String)
  deriving DecidableEq, Repr

structure ReviewReadinessRecord where
  head : HeadKey
  state : ReviewReadinessState
  reason : Option String := none
  event : Option ReviewEvent := none
  reviewUrl : Option String := none
  commandAction : Option ProcessedCommandAction := none
  commandCommentId : Option Nat := none
  createdAt : Int
  updatedAt : Int
  deriving DecidableEq, Repr

/-! ## review_event_authorization_consumptions -/

/-- The one-shot ledger of owner authorizations; its `head` carries the lower-cased sha. -/
structure ReviewEventAuthorizationConsumptionRecord where
  head : HeadKey
  commentId : Nat
  author : String
  consumedAt : Int
  postedEvent : Option ReviewEvent := none
  reviewUrl : Option String := none
  postedAt : Option Int := none
  terminalOutcome : Option String := none
  terminalReason : Option String := none
  terminalAt : Option Int := none
  incidentError : Option String := none
  incidentCommentId : Option Nat := none
  incidentAt : Option Int := none
  deriving DecidableEq, Repr

/-! ## review_queue_jobs -/

inductive ReviewQueueJobSource where
  | automatic | manualCommand
  deriving DecidableEq, Repr

inductive ReviewQueueJobLane where
  | background | manual
  deriving DecidableEq, Repr

inductive ReviewQueueJobState where
  | queued | leased | running | providerDeferred | blockedOnProof | staleRetired | closedRetired
  | commandRecorded | posted | failed
  deriving DecidableEq, Repr

/-- `isTerminalQueueState`. -/
def ReviewQueueJobState.isTerminal : ReviewQueueJobState → Bool
  | .posted | .failed | .staleRetired | .closedRetired | .commandRecorded => true
  | .queued | .leased | .running | .providerDeferred | .blockedOnProof => false

structure ReviewQueueJobRecord where
  jobId : String
  attemptId : String
  source : ReviewQueueJobSource
  lane : ReviewQueueJobLane
  repo : String
  org : String
  pullNumber : Nat
  headSha : String
  baseSha : Option String := none
  providerId : Option String := none
  priority : Int
  state : ReviewQueueJobState
  nextEligibleAt : Option DateText := none
  leaseId : Option String := none
  leaseExpiresAt : Option Int := none
  sessionId : Option String := none
  commentId : Option Nat := none
  reviewUrl : Option String := none
  lastError : Option String := none
  createdAt : Int
  updatedAt : Int
  startedAt : Option Int := none
  finishedAt : Option Int := none
  deriving DecidableEq, Repr

namespace ReviewQueueJobRecord

def head (job : ReviewQueueJobRecord) : HeadKey := ⟨job.repo, job.pullNumber, job.headSha⟩

/-- `leased` or `running`. -/
def isActive (job : ReviewQueueJobRecord) : Bool := job.state = .leased || job.state = .running

end ReviewQueueJobRecord

/-- `mapReviewQueueJobRow`: empty texts, and a zero comment id, read back as absent. -/
def mapReviewQueueJobRow (row : ReviewQueueJobRecord) : ReviewQueueJobRecord :=
  { row with
    baseSha := truthy row.baseSha
    providerId := truthy row.providerId
    nextEligibleAt := row.nextEligibleAt.filter (· ≠ .other "")
    leaseId := truthy row.leaseId
    sessionId := truthy row.sessionId
    commentId := row.commentId.filter (· ≠ 0)
    reviewUrl := truthy row.reviewUrl
    lastError := truthy row.lastError }

/-- `review_queue_jobs`, where the attempt ids are unique too. -/
structure JobTable extends Table ReviewQueueJobRecord.jobId where
  attempts : (rows.map ReviewQueueJobRecord.attemptId).Nodup

/-! ## The store -/

structure State where
  processed : Table StoredProcessedReviewRecord.key := .empty
  claims : Table ReviewHeadClaimRow.head := .empty
  readiness : Table ReviewReadinessRecord.head := .empty
  consumptions : Table ReviewEventAuthorizationConsumptionRecord.head := .empty
  jobs : JobTable := { toTable := .empty, attempts := List.nodup_nil }

/-- What a store call answers: the text of the exception, or a value. A call that throws leaves no trace. -/
abbrev Outcome (α : Type) := Except String (α × State)

end NeonDiff.Store
