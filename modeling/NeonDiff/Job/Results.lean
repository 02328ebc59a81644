import NeonDiff.Lib.Words
import NeonDiff.Store.Processed
import NeonDiff.Store.Queue

/-! # What a review result means for a queue job -/

namespace NeonDiff.Job

open NeonDiff.Lib NeonDiff.Store

inductive ReviewPullResult where
  | reviewed | reviewed_command | posted_stale_head | posted_head_unverified | skipped_consumed_authorization
  | skipped_draft | skipped_canary | skipped_policy | skipped_base_merge_only | untrusted_author_public_repo
  | untrusted_author_provider_unavailable | untrusted_author_restricted_unavailable | skipped_license_gate
  | skipped_command_stop | skipped_command_explain | skipped_finishing_touch_draft | skipped_processed
  | skipped_capacity | skipped_context_budget | skipped_provider_cooldown | skipped_stale_head | skipped_closed
  deriving DecidableEq, Repr

def ReviewPullResult.text : ReviewPullResult → String
  | reviewed => "reviewed"
  | reviewed_command => "reviewed_command"
  | posted_stale_head => "posted_stale_head"
  | posted_head_unverified => "posted_head_unverified"
  | skipped_consumed_authorization => "skipped_consumed_authorization"
  | skipped_draft => "skipped_draft"
  | skipped_canary => "skipped_canary"
  | skipped_policy => "skipped_policy"
  | skipped_base_merge_only => "skipped_base_merge_only"
  | untrusted_author_public_repo => "untrusted_author_public_repo"
  | untrusted_author_provider_unavailable => "untrusted_author_provider_unavailable"
  | untrusted_author_restricted_unavailable => "untrusted_author_restricted_unavailable"
  | skipped_license_gate => "skipped_license_gate"
  | skipped_command_stop => "skipped_command_stop"
  | skipped_command_explain => "skipped_command_explain"
  | skipped_finishing_touch_draft => "skipped_finishing_touch_draft"
  | skipped_processed => "skipped_processed"
  | skipped_capacity => "skipped_capacity"
  | skipped_context_budget => "skipped_context_budget"
  | skipped_provider_cooldown => "skipped_provider_cooldown"
  | skipped_stale_head => "skipped_stale_head"
  | skipped_closed => "skipped_closed"

/-- What `runLeasedQueueJob` returns. -/
inductive QueueJobResult where
  | status (status : ReviewPullResult)
  | failed | closed_retired | stale_retired
  deriving DecidableEq, Repr

inductive ReviewStatusCommentState where
  | queued | in_progress | completed | provider_deferred | stale_head | closed_or_merged_before_review | skipped | failed
  deriving DecidableEq, Repr

inductive ReviewerSessionJobState where
  | assigned | running | completed | skipped | failed
  deriving DecidableEq, Repr

def ProcessedStatus.text : ProcessedStatus → String
  | .dryRun => "dry_run"
  | .posted => "posted"
  | .skipped => "skipped"
  | .failed => "failed"

abbrev Processed := Option StoredProcessedReviewRecord

def Processed.status (processed : Processed) : Option ProcessedStatus :=
  Option.map (fun row : StoredProcessedReviewRecord => row.status) processed

def Processed.error (processed : Processed) : Option String := processed.bind (·.error)

def Processed.reviewUrl (processed : Processed) : Option String := processed.bind fun row => truthy row.reviewUrl

def Processed.event (processed : Processed) : Option ReviewEvent := processed.bind (·.event)

def Processed.providerCooldown (processed : Processed) : Option ParsedProviderCooldownError :=
  parseProviderCooldownError processed.error

/-! ## The queue job -/

def reviewQueueJobStateForProcessedStatus (status : Option ProcessedStatus) (error : Option String) :
    ReviewQueueJobState :=
  if error = some POST_REVIEW_HEAD_UNVERIFIED_ERROR || error = some EXACT_AUTHORIZATION_ALREADY_CONSUMED_ERROR then .failed
  else if error = some REVIEW_POSTED_HEAD_CHANGED_ERROR then .staleRetired
  else match status with
    | some .posted => .posted
    | some .dryRun => .queued
    | some .failed => .failed
    | some .skipped => .staleRetired
    | none => .queued

/-! ## The status comment -/

def reviewStatusCommentStateForProcessedStatus (processed : Processed) : ReviewStatusCommentState :=
  if processed.providerCooldown.isSome then .provider_deferred
  else if processed.error = some POST_REVIEW_HEAD_UNVERIFIED_ERROR ||
      processed.error = some EXACT_AUTHORIZATION_ALREADY_CONSUMED_ERROR then .failed
  else if processed.error = some REVIEW_POSTED_HEAD_CHANGED_ERROR then .stale_head
  else match Processed.status processed with
    | some .posted | some .dryRun => .completed
    | some .failed => .failed
    | some .skipped => .skipped
    | none => .queued

def reviewResultStatusCommentState (status : ReviewPullResult) (processed : Processed) : Option ReviewStatusCommentState :=
  match status with
  | .reviewed | .reviewed_command => some .completed
  | .posted_stale_head => some .stale_head
  | .posted_head_unverified | .skipped_consumed_authorization => some .failed
  | .skipped_processed =>
    if processed.error = some baseMergeOnly then none else some (reviewStatusCommentStateForProcessedStatus processed)
  | .skipped_provider_cooldown => some .provider_deferred
  | .skipped_stale_head => some .stale_head
  | .skipped_closed => some .closed_or_merged_before_review
  | .skipped_capacity => some .provider_deferred
  | .skipped_context_budget => some .skipped
  | .skipped_base_merge_only => none
  | .untrusted_author_public_repo | .untrusted_author_provider_unavailable | .untrusted_author_restricted_unavailable
  | .skipped_draft | .skipped_canary | .skipped_policy => some .skipped
  | .skipped_license_gate => none
  | .skipped_command_stop | .skipped_command_explain | .skipped_finishing_touch_draft => none

/-! ## The readiness -/

def isPriorVerifiedBlockingReview (processed : Processed) : Bool :=
  processed.any fun row => row.status = .posted && row.event = some .requestChanges && (truthy row.error).isNone

def readinessStateForProcessedStatus (status : Option ProcessedStatus) (event : Option ReviewEvent)
    (error : Option String) : ReviewReadinessState :=
  if (parseProviderCooldownError error).isSome then .providerDeferred
  else if error = some POST_REVIEW_HEAD_UNVERIFIED_ERROR || error = some EXACT_AUTHORIZATION_ALREADY_CONSUMED_ERROR then
    .failed
  else if error = some REVIEW_POSTED_HEAD_CHANGED_ERROR then .stale
  else match status with
    | some .posted | some .dryRun => if event = some .requestChanges then .needsFix else .readyForHuman
    | some .failed => .failed
    | some .skipped => .skipped
    | none => .queued

def readinessStateForReviewResult (status : ReviewPullResult) (processed : Processed) : Option ReviewReadinessState :=
  match status with
  | .reviewed | .reviewed_command => some (if processed.event = some .requestChanges then .needsFix else .readyForHuman)
  | .posted_stale_head => some (if isPriorVerifiedBlockingReview processed then .needsFix else .stale)
  | .posted_head_unverified => some (if isPriorVerifiedBlockingReview processed then .needsFix else .failed)
  | .skipped_consumed_authorization => some .failed
  | .skipped_processed =>
    some (readinessStateForProcessedStatus processed.status processed.event processed.error)
  | .skipped_provider_cooldown | .skipped_capacity => some .providerDeferred
  | .skipped_context_budget => some .skipped
  | .skipped_stale_head => some .stale
  | .skipped_closed => some .closed
  | .skipped_base_merge_only | .untrusted_author_public_repo | .untrusted_author_provider_unavailable
  | .untrusted_author_restricted_unavailable | .skipped_draft | .skipped_canary | .skipped_command_stop => some .skipped
  | .skipped_policy => some .failed
  | .skipped_license_gate => some .blockedOnProof
  | .skipped_command_explain | .skipped_finishing_touch_draft => none

def readinessReasonForProcessedHead (row : StoredProcessedReviewRecord) : String :=
  match parseProviderCooldownError row.error with
  | some cooldown => "processed_head_provider_deferred: " ++ cooldown.reason.getD "provider_cooldown"
  | none =>
    if row.status = .skipped && row.error = some baseMergeOnly then baseMergeOnly
    else if row.status = .skipped && row.error = some ACTIVATION_BASELINE_EXISTING_HEAD_ERROR then
      ACTIVATION_BASELINE_EXISTING_HEAD_ERROR
    else if row.error = some POST_REVIEW_HEAD_UNVERIFIED_ERROR then POST_REVIEW_HEAD_UNVERIFIED_ERROR
    else if row.error = some REVIEW_POSTED_HEAD_CHANGED_ERROR then REVIEW_POSTED_HEAD_CHANGED_ERROR
    else if row.error = some EXACT_AUTHORIZATION_ALREADY_CONSUMED_ERROR then EXACT_AUTHORIZATION_ALREADY_CONSUMED_ERROR
    else "processed_head_already_" ++ ProcessedStatus.text row.status

def readinessReasonForReviewResult (status : ReviewPullResult) (processed : Processed) : String :=
  let blocking := "request_changes_review_posted"
  match status with
  | .reviewed | .reviewed_command =>
    if processed.event = some .requestChanges then blocking else "comment_review_posted"
  | .posted_stale_head => if isPriorVerifiedBlockingReview processed then blocking else REVIEW_POSTED_HEAD_CHANGED_ERROR
  | .posted_head_unverified =>
    if isPriorVerifiedBlockingReview processed then blocking else POST_REVIEW_HEAD_UNVERIFIED_ERROR
  | .skipped_consumed_authorization => EXACT_AUTHORIZATION_ALREADY_CONSUMED_ERROR
  | .skipped_processed => (processed.map readinessReasonForProcessedHead).getD "processed_head_already_unknown"
  | .skipped_provider_cooldown => "provider_cooldown"
  | .skipped_capacity => "review_capacity_busy"
  | .skipped_context_budget => processed.error.getD "context_budget_overflow"
  | .skipped_stale_head => "stale_head"
  | .skipped_closed => processed.error.getD "closed_or_merged_before_review"
  | .skipped_base_merge_only => baseMergeOnly
  | .untrusted_author_public_repo | .untrusted_author_provider_unavailable | .untrusted_author_restricted_unavailable =>
    status.text
  | .skipped_draft => "draft_pr"
  | .skipped_canary => "canary_policy"
  | .skipped_policy => "unexpected_scheduler_review_status=skipped_policy"
  | .skipped_license_gate => processed.error.getD "license_entitlement_required"
  | .skipped_command_stop => "manual_command_stop"
  | .skipped_command_explain => "manual_command_explain"
  | .skipped_finishing_touch_draft => "manual_command_finishing_touch_draft"

/-! ## The reviewer session -/

def reviewerSessionJobStateForProcessedStatus : Option ProcessedStatus → ReviewerSessionJobState
  | some .posted | some .dryRun => .completed
  | some .failed => .failed
  | some .skipped => .skipped
  | none => .assigned

end NeonDiff.Job
