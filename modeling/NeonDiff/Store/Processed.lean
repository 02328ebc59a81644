import NeonDiff.Lib.Binary64
import NeonDiff.Store.Types

/-! # Processed rows: the durable truth about a head -/

namespace NeonDiff.Store

open NeonDiff.Lib NeonDiff.Lib.JsText NeonDiff.Lib.Binary64

/-! ## Reading -/

def getProcessedReview (s : State) (head : HeadKey) : Option StoredProcessedReviewRecord :=
  (s.processed.find? head).map mapProcessedReviewRow

def hasProcessed (s : State) (head : HeadKey) : Bool := (s.processed.find? head).isSome

theorem head_of_find? {s : State} {head : HeadKey} {row : StoredProcessedReviewRecord}
    (h : s.processed.find? head = some row) : row.head = head :=
  (Table.key_of_find? h : row.key = head)

/-! ## Predicates on a row -/

def isRetryableApprovedDryRunPrePostFailure (status : ProcessedStatus) (error : Option String) : Bool :=
  status = .skipped && error.any fun e => startsWith e (APPROVED_DRY_RUN_LIVE_CLAIM_ERROR ++ "; post_error=")

def isActivationBaselineProcessedReview (status : ProcessedStatus) (error : Option String) : Bool :=
  status = .skipped && error = some ACTIVATION_BASELINE_EXISTING_HEAD_ERROR

structure ParsedProviderCooldownError where
  cooldownUntil : String
  reason : Option String
  retryAttempt : Option Whole
  providerCode : Option String
  retryAfterMs : Option Whole
  deriving DecidableEq, Repr

/-- The parsed number is a double: rounded, and from 2^1024 on infinite, which is no integer. -/
def parsePositiveInt (value : Option (List Char)) : Option Whole :=
  (value.bind parseInt).bind fun n =>
    if 0 < n then (some (Whole.ofNat n.toNat)).filter Whole.isInteger else none

/-- The trimmed value of the first part that starts with the label. -/
def cooldownField (parts : List (List Char)) (label : String) : Option (List Char) :=
  ((parts.map trim).find? label.toList.isPrefixOf).map (·.drop label.toList.length)

def parseProviderCooldownError (error : Option String) : Option ParsedProviderCooldownError :=
  match error with
  | none => none
  | some e =>
    if startsWith e PROVIDER_COOLDOWN_ERROR_PREFIX then
      match split ';' e.toList with
      | [] => none
      | cooldownPart :: rest =>
        let cooldownUntil := trim (cooldownPart.drop PROVIDER_COOLDOWN_ERROR_PREFIX.toList.length)
        if cooldownUntil = [] then none
        else some {
          cooldownUntil := String.ofList cooldownUntil
          reason := truthy ((cooldownField rest "reason=").map fun v => String.ofList (trim v))
          retryAttempt := parsePositiveInt (cooldownField rest "retry_attempt=")
          providerCode := truthy ((cooldownField rest "provider_code=").map fun v => String.ofList (trim v))
          retryAfterMs := parsePositiveInt (cooldownField rest "retry_after_ms=") }
    else none

example : (parseProviderCooldownError (some "provider_rate_limit_cooldown_until=T; reason=quota; retry_attempt=2")) =
    some ⟨"T", some "quota", some 2, none, none⟩ := by decide

/-! ## Writing -/

/-- The row that the upsert of `recordProcessed` leaves for a head that holds `old`. -/
def upsertedRow (record : ProcessedReviewRecord) (recordedAt : Int) (old : StoredProcessedReviewRecord) :
    StoredProcessedReviewRecord :=
  if record.error = some baseMergeOnly ∧ old.status = .posted then old
  else { record with
    createdAt := if old.status = .posted ∧ old.reviewUrl = record.reviewUrl then old.createdAt else .iso recordedAt }

/-- The row that `recordProcessed` leaves, with or without one before. -/
def recordedRow (record : ProcessedReviewRecord) (recordedAt : Int) :
    Option StoredProcessedReviewRecord → StoredProcessedReviewRecord
  | none => { record with createdAt := .iso recordedAt }
  | some old => upsertedRow record recordedAt old

/-- Completion and claim retirement are one transaction, and the claim goes by head. -/
def recordProcessed (record : ProcessedReviewRecord) (now : Int) (s : State) : State :=
  { s with
    processed := s.processed.upsert (recordedRow record now (s.processed.find? record.head))
    claims := s.claims.delete fun c => c.head = record.head }

/-- The latest posted review of the pull, if it carries fingerprint evidence and no disqualifying error. -/
def getBaseMergeOnlyAnchor (s : State) (repo : String) (pullNumber : Nat) : Option StoredProcessedReviewRecord :=
  let posted := s.processed.rows.filter fun r =>
    r.head.repo = repo && r.head.pullNumber = pullNumber && r.status = .posted
  -- `order by created_at desc, rowid desc limit 1`: of equal times the later row wins
  let latest := posted.foldl (fun best r =>
    match best with
    | none => some r
    | some b => if r.createdAt.textLt b.createdAt then some b else some r) none
  latest.bind fun row =>
    if row.reviewUrl.isNone || row.diffFingerprint.isNone ||
        (row.error.isSome && row.error ≠ some REVIEW_POSTED_HEAD_CHANGED_ERROR) then none
    else some (mapProcessedReviewRow row)

inductive BaseMergeOnlyRefusal where
  | activeClaim | existingRow | anchorChanged
  deriving DecidableEq, Repr

/-- A row that a base-merge-only skip, or a retry, may replace. -/
def isRetryableRow (row : StoredProcessedReviewRecord) : Bool :=
  row.status = .failed || (row.status = .skipped &&
    ((parseProviderCooldownError row.error).isSome || row.error = some "repo_queue_capacity_full"))

/-- A skip is a non-owner write: it keeps every claim and any non-retryable processed truth. -/
def recordBaseMergeOnlySkip (record : ProcessedReviewRecord) (now : Int) (s : State) :
    Except BaseMergeOnlyRefusal Unit × State :=
  if (s.claims.find? record.head).any fun c => now < c.expiresAt then (.error .activeClaim, s)
  else if (getProcessedReview s record.head).any fun r => !isRetryableRow r then (.error .existingRow, s)
  else match getBaseMergeOnlyAnchor s record.head.repo record.head.pullNumber with
    | none => (.error .anchorChanged, s)
    | some anchor =>
      if record.carriedFromHead ≠ some anchor.head.headSha ||
          (record.reviewUrl.isSome && anchor.reviewUrl ≠ record.reviewUrl) then (.error .anchorChanged, s)
      else (.ok (), { s with
        processed := s.processed.upsert {
          head := record.head
          status := .skipped
          error := some baseMergeOnly
          baseRef := record.baseRef
          baseSha := record.baseSha
          diffFingerprint := record.diffFingerprint
          carriedFromHead := record.carriedFromHead
          createdAt := .iso now } })

/-- `delete from review_head_claims where <head> and expires_at <= now`. -/
def sweepExpiredClaim (head : HeadKey) (now : Int) (s : State) : State :=
  { s with claims := s.claims.delete fun c => c.head = head && c.expiresAt ≤ now }

structure DryRunInput where
  head : HeadKey
  configRevision : Option String := none
  event : Option ReviewEvent := none
  allowActivationBaselineSupersession : Bool := false
  allowBaseMergeOnlySupersession : Bool := false
  deriving DecidableEq, Repr

def dryRunAdmits (input : DryRunInput) (row : StoredProcessedReviewRecord) : Bool :=
  row.status = .dryRun || isRetryableApprovedDryRunPrePostFailure row.status row.error ||
  (input.allowActivationBaselineSupersession && isActivationBaselineProcessedReview row.status row.error) ||
  (input.allowBaseMergeOnlySupersession && row.status = .skipped && row.error = some baseMergeOnly)

def tryRecordDryRun (input : DryRunInput) (now : Int) (s : State) : Bool × State :=
  let s := sweepExpiredClaim input.head now s
  if (s.claims.find? input.head).isSome || (s.processed.find? input.head).any fun r => !dryRunAdmits input r then
    (false, s)
  else (true, { s with
    processed := s.processed.replace {
      head := input.head
      status := .dryRun
      configRevision := input.configRevision
      event := input.event
      createdAt := .iso now } })

/-- Deletes the row of a skip whose reason no longer holds. -/
def clearAuthorGateSkip (head : HeadKey) (reason : String) (s : State) : Bool × State :=
  ((s.processed.find? head).any fun r => r.status = .skipped && r.error = some reason,
    { s with processed := s.processed.delete fun r => r.head = head && r.status = .skipped && r.error = some reason })

end NeonDiff.Store
