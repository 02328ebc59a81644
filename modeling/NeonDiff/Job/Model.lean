import NeonDiff.Job.Results
import NeonDiff.Lib.Program
import NeonDiff.Sticky.Model

/-! # Running a leased queue job

Each call of the store, of GitHub and of the review is a call of the program. GitHub and the review may throw
anything.
-/

namespace NeonDiff.Job

open NeonDiff.Lib NeonDiff.Store

/-! ## Data -/

/-- The base repository's flags and the author are what the author gate and the license look at. -/
structure PullRequestSummary where
  number : Nat
  title : String
  state : Option String
  headSha : String
  baseSha : String
  htmlUrl : String
  baseRepoPrivate : Option Bool
  baseRepoVisibility : Option String
  authorAssociation : Option String
  authorLogin : Option String
  deriving DecidableEq, Repr

/-- A thrown value: from GitHub or the review, from the store, or from writing the evidence of a failed review. -/
inductive Thrown (E : Type) where
  | outside (error : E)
  | store (message : String)
  | evidence (error : E)
  deriving DecidableEq, Repr

structure ReadinessTransition where
  head : HeadKey
  state : ReviewReadinessState
  reason : String
  event : Option ReviewEvent := none
  reviewUrl : Option String := none
  now : Int
  deriving DecidableEq, Repr

structure SessionJobUpdate where
  head : HeadKey
  jobState : ReviewerSessionJobState
  processedReviewStatus : Option ProcessedStatus := none
  now : Int
  deriving DecidableEq, Repr

structure SessionJobAssignment where
  head : HeadKey
  provider : String
  now : Int
  deriving DecidableEq, Repr

structure StatusComment where
  repo : String
  pullNumber : Nat
  headSha : String
  state : ReviewStatusCommentState
  pullTitle : String
  pullUrl : String
  reviewUrl : Option String := none
  details : Option String := none
  now : Int
  deriving DecidableEq, Repr

inductive ProcessedHeadPolicy where
  | retry_failed_head | normal
  deriving DecidableEq, Repr

structure ReviewPullInput where
  repo : String
  pull : PullRequestSummary
  dryRun : Bool
  processedHeadPolicy : ProcessedHeadPolicy
  manualQueueJob : Bool
  allowActivationBaselineCommandLookup : Bool
  commandCommentId : Option Nat
  deriving DecidableEq, Repr

/-- How far a review comes by itself: to its call of `onReviewStarted`, or to its end. -/
inductive ReviewProgress (E : Type) where
  | callsOnReviewStarted
  | settled (outcome : Except E ReviewPullResult)

structure RepoProviderCooldown where
  cooldownUntil : String
  reason : String
  deriving DecidableEq, Repr

/-! ## Calls -/

section
variable {E : Type}

inductive JobCall (E : Type) where
  | clock
  | updateReviewQueueJobState (input : UpdateJobInput) (now : Int)
  | getReviewReadiness (head : HeadKey)
  | recordReviewReadiness (transition : ReadinessTransition)
  | updateReviewerSessionJobState (update : SessionJobUpdate)
  | assignReviewerSessionJob (assignment : SessionJobAssignment)
  | getProcessedReview (head : HeadKey)
  | getActiveRepoProviderCooldown (repo : String) (now : Int)
  | getReviewEventAuthorizationConsumption (head : HeadKey)
  | getBaseMergeOnlyAnchor (repo : String) (pullNumber : Nat)
  | recordPublicRepoAuthorGateSkip (repo : String) (pull : PullRequestSummary)
  | recordProviderRateLimitCooldownIfNeeded (repo : String) (pull : PullRequestSummary) (error : Thrown E) (now : Int)
  | recordFailedReview (repo : String) (pull : PullRequestSummary) (error : Thrown E)
  | getPull (repo : String) (pullNumber : Nat)
  | listIssueComments (repo : String) (pullNumber : Nat)
  | upsertIssueComment (repo : String) (issueNumber : Nat) (marker body : String)
  | onStatusCommentFailure
  | reviewPull (input : ReviewPullInput)
  | continueReviewPull (input : ReviewPullInput)

/-- What a call answers; of the store's calls only the update of the job is given an exception. -/
abbrev JobAnswer : JobCall E → Type
  | .clock => Int
  | .updateReviewQueueJobState .. => Except String Unit
  | .getReviewReadiness _ => Option ReviewReadinessRecord
  | .recordReviewReadiness _ => Unit
  | .updateReviewerSessionJobState _ => Unit
  | .assignReviewerSessionJob _ => Option String
  | .getProcessedReview _ => Option StoredProcessedReviewRecord
  | .getActiveRepoProviderCooldown .. => Option RepoProviderCooldown
  | .getReviewEventAuthorizationConsumption _ => Option ReviewEventAuthorizationConsumptionRecord
  | .getBaseMergeOnlyAnchor .. => Option StoredProcessedReviewRecord
  | .recordPublicRepoAuthorGateSkip .. => Bool
  | .recordProviderRateLimitCooldownIfNeeded .. => Bool
  | .recordFailedReview .. => Except E String
  | .getPull .. => Except E PullRequestSummary
  | .listIssueComments .. => Except E (List Sticky.IssueCommentSummary)
  | .upsertIssueComment .. => Except E Unit
  | .onStatusCommentFailure => Unit
  | .reviewPull _ => ReviewProgress E
  | .continueReviewPull _ => Except E ReviewPullResult

variable (E) in
abbrev JobProg (α : Type) := Prog (JobAnswer (E := E)) (Thrown E) α

def ask (act : JobCall E) : JobProg E (JobAnswer act) := .call act .done

def updateReviewQueueJobState (input : UpdateJobInput) (now : Int) : JobProg E Unit :=
  .call (.updateReviewQueueJobState input now) fun
    | .ok () => .done ()
    | .error message => .fail (.store message)

/-- `if (c) await p`. -/
def onlyIf (c : Bool) (p : JobProg E Unit) : JobProg E Unit := if c then p else .done ()

def getProcessedReview (head : HeadKey) : JobProg E Processed := ask (.getProcessedReview head)

/-! ## The run's input -/

/-- The configuration, the GitHub client and the license admission of a run, and what its own texts are made of. -/
structure JobSettings (E : Type) where
  dryRun : Bool
  statusCommentsEnabled : Bool
  hasStatusCommentApi : Bool
  canPost : Bool
  botLogin : String
  privateRepoAllowed : Bool
  admits : PullRequestSummary → Bool
  isPublicRepoAuthorBlocked : PullRequestSummary → Bool
  isRoutedToUntrustedProvider : PullRequestSummary → Bool
  baseMergeOnlySkipEnabled : Bool
  baseMergeOnlySkipExcludeRepos : List String
  reviewerSessionsEnabled : Bool
  zcodeProviderId : Option String
  zcodeModel : Option String
  toLowerCase : String → String
  message : E → String
  /-- Nothing where the marker, or the comment, cannot be built. -/
  buildReviewStatusMarker : HeadKey → Option String
  buildReviewStatusComment : StatusComment → Option (String × String)
  parseReviewStatusCommentState : String → Option ReviewStatusCommentState
  providerCooldownFromError : Thrown E → Int → Option RepoProviderCooldown

structure JobInput (E : Type) extends JobSettings E where
  job : ReviewQueueJobRecord

namespace JobInput

variable (input : JobInput E)

def jobId : String := input.job.jobId

def isManual : Bool := input.job.source = .manualCommand

def liveHead (pull : PullRequestSummary) : HeadKey := ⟨input.job.repo, pull.number, pull.headSha⟩

def withSession (sessionId : Option String) : JobInput E :=
  { input with job := { input.job with sessionId := (truthy sessionId).orElse fun _ => input.job.sessionId } }

end JobInput

def pullForQueueJob (job : ReviewQueueJobRecord) (livePull : PullRequestSummary) : PullRequestSummary :=
  { livePull with headSha := job.headSha, baseSha := (truthy job.baseSha).getD livePull.baseSha }

def pullForQueueJobWithoutLive (job : ReviewQueueJobRecord) : PullRequestSummary where
  number := job.pullNumber
  title := ""
  state := some "open"
  headSha := job.headSha
  baseSha := job.baseSha.getD ""
  htmlUrl := "https://github.com/" ++ job.repo ++ "/pull/" ++ toString job.pullNumber
  baseRepoPrivate := none
  baseRepoVisibility := none
  authorAssociation := none
  authorLogin := none

def isClosedPull (pull : PullRequestSummary) : Bool := (truthy pull.state).any (· ≠ "open")

def isReviewCommandAction : ProcessedCommandAction → Bool
  | .review | .reReview | .requestChanges => true
  | .explain | .stop | .finishingTouch _ => false

/-- `/license_entitlement_required|review requires active entitlement|blocked_on_proof/i`. -/
def namesProofBlock (text : String) : Bool :=
  ["license_entitlement_required", "review requires active entitlement", "blocked_on_proof"].any fun words =>
    Words.includes words.toList (text.toList.map Char.toLower)

def isProofBlockedQueueJob (job : ReviewQueueJobRecord) : Bool :=
  job.state = .blockedOnProof || job.lastError.any namesProofBlock

def shouldPostInProgressStatusForLeasedJob (job : ReviewQueueJobRecord) : Bool := !isProofBlockedQueueJob job

def isProviderDeferredRetryJob (job : ReviewQueueJobRecord) : Bool :=
  (parseProviderCooldownError job.lastError).isSome ||
  job.lastError.any (fun e => Words.includes "repo_provider_cooldown_until=".toList e.toList) ||
  job.lastError = some "provider_deferred_without_cooldown"

def LICENSE_GATE_RETRY_DELAY_MS : Int := 15 * 60000

def nextLicenseGateRetryAt (now : Int) : DateText := .iso (now + LICENSE_GATE_RETRY_DELAY_MS)

/-! ## Readiness and sessions -/

def recordReadinessTransition (repo : String) (pull : PullRequestSummary) (readinessState : ReviewReadinessState)
    (reason : String) (now : Int) (event : Option ReviewEvent) (reviewUrl : Option String) : JobProg E Unit :=
  ask (.recordReviewReadiness ⟨⟨repo, pull.number, pull.headSha⟩, readinessState, reason, event, reviewUrl, now⟩)

def shouldMarkJobReviewing (job : ReviewQueueJobRecord) : JobProg E Bool :=
  if job.source ≠ .manualCommand then .done true
  else do
    let existing ← ask (.getReviewReadiness job.head)
    return match existing.bind (·.commandAction) with
      | some action => isReviewCommandAction action
      | none => true

def updateReviewerSessionJobFromQueueStatus (input : JobInput E) (now : Int) (jobState : ReviewerSessionJobState)
    (processedReviewStatus : Option ProcessedStatus) : JobProg E Unit :=
  if (truthy input.job.sessionId).isNone then .done ()
  else ask (.updateReviewerSessionJobState ⟨input.job.head, jobState, processedReviewStatus, now⟩)

def updateReviewerSessionJobAfterReviewStatus (input : JobInput E) (status : ReviewPullResult) (now : Int) :
    JobProg E Unit :=
  match status with
  | .reviewed | .reviewed_command =>
    updateReviewerSessionJobFromQueueStatus input now .completed (some (if input.dryRun then .dryRun else .posted))
  | .posted_stale_head | .posted_head_unverified | .skipped_consumed_authorization =>
    updateReviewerSessionJobFromQueueStatus input now .failed (some .failed)
  | .skipped_processed => do
    let processed ← getProcessedReview input.job.head
    if processed.providerCooldown.isSome then
      updateReviewerSessionJobFromQueueStatus input now .assigned processed.status
    else
      updateReviewerSessionJobFromQueueStatus input now (reviewerSessionJobStateForProcessedStatus processed.status)
        processed.status
  | .skipped_provider_cooldown | .skipped_capacity => updateReviewerSessionJobFromQueueStatus input now .assigned none
  | .skipped_base_merge_only | .untrusted_author_public_repo | .untrusted_author_provider_unavailable
  | .untrusted_author_restricted_unavailable | .skipped_draft | .skipped_canary | .skipped_policy
  | .skipped_license_gate | .skipped_command_stop | .skipped_command_explain | .skipped_finishing_touch_draft
  | .skipped_stale_head | .skipped_closed | .skipped_context_budget =>
    updateReviewerSessionJobFromQueueStatus input now .skipped (some .skipped)

def ensureReviewerSessionForLeasedJob (input : JobInput E) (now : Int) : JobProg E (Option String) :=
  if !input.reviewerSessionsEnabled || (truthy input.job.sessionId).isSome then .done input.job.sessionId
  else if input.isManual then .done none
  else do
    let provider := ((input.job.providerId.orElse fun _ => input.zcodeProviderId).orElse fun _ =>
      input.zcodeModel).getD "zcode"
    let assigned ← ask (.assignReviewerSessionJob ⟨input.job.head, provider, now⟩)
    match truthy assigned with
    | some sessionId => do
      updateReviewQueueJobState
        { jobId := input.jobId, state := .running, sessionId := some sessionId, clearLease := some false } now
      return some sessionId
    | none => return assigned

/-! ## Status comments -/

inductive StatusCommentPost where
  | posted | disabled | dry_run | missing_app_credentials | build_failed | upsert_failed
  deriving DecidableEq, Repr

def isStatusCommentFailure (result : StatusCommentPost) : Bool :=
  result = .missing_app_credentials || result = .build_failed || result = .upsert_failed

/-- Whatever GitHub throws becomes a result. -/
def postReviewStatusComment (input : JobInput E) (comment : StatusComment) : JobProg E StatusCommentPost :=
  if !input.statusCommentsEnabled then .done .disabled
  else if input.dryRun then .done .dry_run
  else if !input.canPost then .done .missing_app_credentials
  else match input.buildReviewStatusComment comment with
    | none => .done .build_failed
    | some (marker, body) =>
      .call (.upsertIssueComment comment.repo comment.pullNumber marker body) fun
        | .ok () => .done .posted
        | .error _ => .done .upsert_failed

/-- A comment about the pull, before its link and its details. -/
def statusComment (repo : String) (pull : PullRequestSummary) (state : ReviewStatusCommentState) (now : Int) :
    StatusComment where
  repo := repo
  pullNumber := pull.number
  headSha := pull.headSha
  state := state
  pullTitle := pull.title
  pullUrl := pull.htmlUrl
  now := now

def syncReviewStatusComment (input : JobInput E) (pull : PullRequestSummary) (comment : StatusComment) : JobProg E Unit :=
  if (input.isPublicRepoAuthorBlocked pull && !input.isRoutedToUntrustedProvider pull) || !input.hasStatusCommentApi then
    .done ()
  else do
    let result ← postReviewStatusComment input comment
    if isStatusCommentFailure result then ask .onStatusCommentFailure else return ()

/-- The comment that a carried review settles: the head's own, unless it already says so. -/
def settlesComment (input : JobInput E) (marker anchorUrl : String) (comments : List Sticky.IssueCommentSummary) : Bool :=
  let existing := comments.find? fun comment =>
    (comment.body.any fun body => Words.includes marker.toList body.toList) &&
      Sticky.isAuthoredBy comment.user ⟨input.botLogin, "Bot"⟩
  existing.any fun comment => !comment.body.any fun body =>
    input.parseReviewStatusCommentState body = some .completed && Words.includes anchorUrl.toList body.toList

def settleBaseMergeOnlyStatusComment (input : JobInput E) (pull : PullRequestSummary) (now : Int) :
    JobProg E (Option StatusCommentPost) :=
  if !input.statusCommentsEnabled || input.dryRun || !input.canPost then .done none
  else do
    let processed ← getProcessedReview (input.liveHead pull)
    match processed.bind fun row =>
        if row.status = .skipped && row.error = some baseMergeOnly then truthy row.carriedFromHead else none with
    | none => return none
    | some carriedFromHead =>
      let anchor ← getProcessedReview ⟨input.job.repo, pull.number, carriedFromHead⟩
      match anchor.bind fun row => if row.status = .posted then truthy row.reviewUrl else none with
      | none => return none
      | some reviewUrl =>
        match input.buildReviewStatusMarker (input.liveHead pull) with
        | none => return some .upsert_failed
        | some marker =>
          .call (.listIssueComments input.job.repo pull.number) fun
            | .error _ => .done (some .upsert_failed)
            | .ok comments =>
              if settlesComment input marker reviewUrl comments then do
                let result ← postReviewStatusComment input { statusComment input.job.repo pull .completed now with
                  reviewUrl := some reviewUrl
                  details := some ("Review carried from " ++ String.ofList (carriedFromHead.toList.take 12) ++
                    " via a base-merge-only push.") }
                return some result
              else .done none

def syncReviewStatusCommentForReviewResult (input : JobInput E) (pull : PullRequestSummary) (status : ReviewPullResult)
    (now : Int) : JobProg E Unit := do
  let processed ← getProcessedReview (input.liveHead pull)
  if status = .skipped_base_merge_only || (status = .skipped_processed && processed.error = some baseMergeOnly) then
    if !input.hasStatusCommentApi then return ()
    else
      let result ← settleBaseMergeOnlyStatusComment input pull now
      if result.any (· ≠ .posted) then ask .onStatusCommentFailure else return ()
  else match reviewResultStatusCommentState status processed with
    | none => return ()
    | some nextState =>
      syncReviewStatusComment input pull
        { statusComment input.job.repo pull nextState now with reviewUrl := processed.reviewUrl }

/-- Looked up for a processed head only. -/
def consumptionForResult (input : JobInput E) (pull : PullRequestSummary) (status : ReviewPullResult) :
    JobProg E (Option ReviewEventAuthorizationConsumptionRecord) :=
  if status = .skipped_processed then ask (.getReviewEventAuthorizationConsumption (input.liveHead pull))
  else .done none

/-- Looked up for a closed license gate only. -/
def readinessForResult (input : JobInput E) (pull : PullRequestSummary) (status : ReviewPullResult) :
    JobProg E (Option ReviewReadinessRecord) :=
  if status = .skipped_license_gate then ask (.getReviewReadiness (input.liveHead pull)) else .done none

def syncReadinessForReviewResult (input : JobInput E) (pull : PullRequestSummary) (status : ReviewPullResult)
    (now : Int) : JobProg E Unit := do
  let authorization ← consumptionForResult input pull status
  if authorization.any fun row => row.terminalOutcome = some "no_op" && (truthy row.terminalReason).isSome &&
      row.terminalAt.isSome then return ()
  else
    let processed ← getProcessedReview (input.liveHead pull)
    match readinessStateForReviewResult status processed with
    | none => return ()
    | some readinessState =>
      let existing ← readinessForResult input pull status
      let blockedReason := existing.bind fun row => if row.state = .blockedOnProof then truthy row.reason else none
      recordReadinessTransition input.job.repo pull readinessState
        (blockedReason.getD (readinessReasonForReviewResult status processed)) now processed.event processed.reviewUrl

/-! ## The job's row after a review -/

def markQueueJobProviderDeferredFromProcessed (input : JobInput E) (pull : PullRequestSummary) (now : Int)
    (error : Option (Thrown E)) : JobProg E Unit := do
  let processed ← getProcessedReview (input.liveHead pull)
  let directCooldown := error.bind fun e => input.providerCooldownFromError e now
  let repoCooldown ← ask (.getActiveRepoProviderCooldown input.job.repo now)
  let parsed := processed.providerCooldown
  let cooldownUntil := ((parsed.map (·.cooldownUntil)).orElse fun _ =>
    repoCooldown.map (·.cooldownUntil)).orElse fun _ => directCooldown.map (·.cooldownUntil)
  let reason := ((parsed.bind (·.reason)).orElse fun _ =>
    repoCooldown.map (·.reason)).orElse fun _ => directCooldown.map (·.reason)
  updateReviewQueueJobState {
    jobId := input.jobId
    state := .providerDeferred
    nextEligibleAt := (truthy cooldownUntil).map .other
    lastError := processed.error.orElse fun _ => some <| match truthy cooldownUntil with
      | some cooldownUntil =>
        "repo_provider_cooldown_until=" ++ cooldownUntil ++ "; reason=" ++ reason.getD "provider_cooldown"
      | none => "provider_deferred_without_cooldown" } now

def updateQueueJobAfterReviewStatus (input : JobInput E) (pull : PullRequestSummary) (status : ReviewPullResult)
    (now : Int) : JobProg E Unit :=
  match status with
  | .reviewed | .reviewed_command => do
    let processed ← getProcessedReview (input.liveHead pull)
    updateReviewQueueJobState {
      jobId := input.jobId
      state := if input.dryRun then .queued else .posted
      reviewUrl := processed.reviewUrl
      lastError := some (if input.dryRun then "dry_run_completed_not_posted" else status.text) } now
  | .posted_stale_head => do
    let processed ← getProcessedReview (input.liveHead pull)
    updateReviewQueueJobState {
      jobId := input.jobId
      state := .staleRetired
      reviewUrl := processed.reviewUrl
      lastError := some "review_posted_head_changed" } now
  | .posted_head_unverified => do
    let processed ← getProcessedReview (input.liveHead pull)
    updateReviewQueueJobState {
      jobId := input.jobId
      state := .failed
      reviewUrl := processed.reviewUrl
      lastError := some status.text } now
  | .skipped_consumed_authorization =>
    updateReviewQueueJobState { jobId := input.jobId, state := .failed, lastError := some status.text } now
  | .skipped_provider_cooldown => markQueueJobProviderDeferredFromProcessed input pull now none
  | .skipped_stale_head =>
    updateReviewQueueJobState {
      jobId := input.jobId
      state := .staleRetired
      lastError := some "review_pull_returned_stale_head" } now
  | .skipped_closed => do
    let processed ← getProcessedReview (input.liveHead pull)
    updateReviewQueueJobState {
      jobId := input.jobId
      state := .closedRetired
      lastError := some (processed.error.getD "closed_or_merged_before_review") } now
  | .skipped_processed => do
    let processed ← getProcessedReview (input.liveHead pull)
    if processed.providerCooldown.isSome then markQueueJobProviderDeferredFromProcessed input pull now none
    else
      updateReviewQueueJobState {
        jobId := input.jobId
        state := reviewQueueJobStateForProcessedStatus processed.status processed.error
        reviewUrl := processed.reviewUrl
        lastError := some <|
          if processed.error = some baseMergeOnly then baseMergeOnly
          else "processed_head_already_" ++ processed.status.elim "unknown" ProcessedStatus.text } now
  | .skipped_capacity =>
    updateReviewQueueJobState { jobId := input.jobId, state := .queued, lastError := some "legacy_review_capacity_busy" }
      now
  | .skipped_context_budget => do
    let contextBudgetProcessed ← getProcessedReview (input.liveHead pull)
    updateReviewQueueJobState {
      jobId := input.jobId
      state := .failed
      lastError := some (contextBudgetProcessed.error.getD "context_budget_overflow") } now
  | .skipped_canary | .skipped_policy =>
    updateReviewQueueJobState {
      jobId := input.jobId
      state := .failed
      lastError := some ("unexpected_scheduler_review_status=" ++ status.text) } now
  | .skipped_license_gate => do
    let readiness ← ask (.getReviewReadiness (input.liveHead pull))
    updateReviewQueueJobState {
      jobId := input.jobId
      state := .blockedOnProof
      nextEligibleAt := some (nextLicenseGateRetryAt now)
      lastError := some ((readiness.bind (·.reason)).getD "license_entitlement_required") } now
  | .skipped_base_merge_only =>
    updateReviewQueueJobState { jobId := input.jobId, state := .staleRetired, lastError := some baseMergeOnly } now
  | .untrusted_author_public_repo | .untrusted_author_provider_unavailable | .untrusted_author_restricted_unavailable =>
    updateReviewQueueJobState { jobId := input.jobId, state := .staleRetired, lastError := some status.text } now
  | .skipped_draft =>
    updateReviewQueueJobState { jobId := input.jobId, state := .staleRetired, lastError := some "draft_pr" } now
  | .skipped_command_stop =>
    updateReviewQueueJobState {
      jobId := input.jobId
      state := .commandRecorded
      lastError := some "manual_command_stop_recorded" } now
  | .skipped_command_explain =>
    updateReviewQueueJobState {
      jobId := input.jobId
      state := .commandRecorded
      lastError := some "manual_command_explain_recorded" } now
  | .skipped_finishing_touch_draft =>
    updateReviewQueueJobState {
      jobId := input.jobId
      state := .commandRecorded
      lastError := some "manual_command_finishing_touch_draft_recorded" } now

/-! ## `runLeasedQueueJob` -/

/-- How a job ends that is retired before its review. -/
structure Retirement where
  state : ReviewQueueJobState
  reason : String
  readinessState : ReviewReadinessState
  commentState : ReviewStatusCommentState
  details : String
  result : QueueJobResult

def retireBeforeReview (input : JobInput E) (pull : PullRequestSummary) (now : Int) (retirement : Retirement) :
    JobProg E QueueJobResult := do
  let pull := pullForQueueJob input.job pull
  updateReviewQueueJobState
    { jobId := input.jobId, state := retirement.state, lastError := some retirement.reason } now
  recordReadinessTransition input.job.repo pull retirement.readinessState retirement.reason now none none
  updateReviewerSessionJobFromQueueStatus input now .skipped (some .skipped)
  syncReviewStatusComment input pull
    { statusComment input.job.repo pull retirement.commentState now with details := some retirement.details }
  return retirement.result

def closedBeforeReview (pull : PullRequestSummary) : Retirement where
  state := .closedRetired
  reason := "closed_or_merged_before_review state=" ++ pull.state.getD "unknown"
  readinessState := .closed
  commentState := .closed_or_merged_before_review
  details := "state=" ++ pull.state.getD "unknown"
  result := .closed_retired

def staleHeadBeforeReview (pull : PullRequestSummary) : Retirement where
  state := .staleRetired
  reason := "stale_head_before_review live=" ++ pull.headSha
  readinessState := .stale
  commentState := .stale_head
  details := "live=" ++ pull.headSha
  result := .stale_retired

def baseChangedBeforeReview (pull : PullRequestSummary) : Retirement where
  state := .staleRetired
  reason := "base_changed_before_review live=" ++ pull.baseSha
  readinessState := .stale
  commentState := .stale_head
  details := "base_changed live=" ++ pull.baseSha
  result := .stale_retired

/-- The exit when the pull cannot be fetched. -/
def failRefetch (input : JobInput E) (now : Int) (errorMessage : String) : JobProg E QueueJobResult := do
  let pull := pullForQueueJobWithoutLive input.job
  updateReviewQueueJobState { jobId := input.jobId, state := .failed, lastError := some errorMessage } now
  recordReadinessTransition input.job.repo pull .failed ("github_refetch_failed: " ++ errorMessage) now none none
  updateReviewerSessionJobFromQueueStatus input now .failed (some .failed)
  if input.privateRepoAllowed then
    syncReviewStatusComment input pull { statusComment input.job.repo pull .failed now with
      details := some "GitHub refetch failed; see bot evidence for operator-only details." }
    return .failed
  else return .failed

/-- The exit of a gate that speaks before the review. -/
def exitWithStatus (input : JobInput E) (pull : PullRequestSummary) (now : Int) (status : ReviewPullResult) :
    JobProg E QueueJobResult := do
  updateQueueJobAfterReviewStatus input pull status now
  updateReviewerSessionJobAfterReviewStatus input status now
  return .status status

def deferAutomaticStatusComments (input : JobInput E) (pull : PullRequestSummary) : JobProg E Bool :=
  if !input.baseMergeOnlySkipEnabled ||
      (input.baseMergeOnlySkipExcludeRepos.any fun slug => input.toLowerCase slug = input.toLowerCase input.job.repo) then
    .done false
  else do
    let anchor ← ask (.getBaseMergeOnlyAnchor input.job.repo pull.number)
    return anchor.isSome

def deferStatusComments (input : JobInput E) (pull : PullRequestSummary) : JobProg E Bool :=
  if input.isManual then .done false else deferAutomaticStatusComments input pull

/-- The comments of `onReviewStarted`, which it makes once. -/
def onReviewStarted (input : JobInput E) (pull : PullRequestSummary) (deferStatus : Bool) (now : Int) : JobProg E Unit :=
  if !input.isManual && shouldPostInProgressStatusForLeasedJob input.job then
    if deferStatus then do
      syncReviewStatusComment input pull (statusComment input.job.repo pull .queued now)
      syncReviewStatusComment input pull (statusComment input.job.repo pull .in_progress now)
    else syncReviewStatusComment input pull (statusComment input.job.repo pull .in_progress now)
  else .done ()

def processedHeadPolicyForQueueJob (input : JobInput E) (pull : PullRequestSummary) : JobProg E ProcessedHeadPolicy :=
  if isProviderDeferredRetryJob input.job then .done .retry_failed_head
  else do
    let processed ← getProcessedReview (input.liveHead pull)
    return if processed.status = some .failed || processed.providerCooldown.isSome then .retry_failed_head else .normal

def endReview : Except E ReviewPullResult → JobProg E ReviewPullResult
  | .ok status => .done status
  | .error e => .fail (.outside e)

/-- The review, and whether `onReviewStarted` has been called by its end. -/
def reviewPull (reviewInput : ReviewPullInput) (started : Bool) (start : JobProg E Unit) :
    JobProg E (ReviewPullResult × Bool) :=
  .call (.reviewPull reviewInput) fun
    | .settled outcome => do
      let status ← endReview outcome
      return (status, started)
    | .callsOnReviewStarted => do
      onlyIf (!started) start
      .call (.continueReviewPull reviewInput) fun outcome => do
        let status ← endReview outcome
        return (status, true)

/-- After the review its start is announced, if it has not been, unless the head is carried. -/
def startAfterReview (input : JobInput E) (pull : PullRequestSummary) (status : ReviewPullResult) (started : Bool)
    (start : JobProg E Unit) : JobProg E Unit :=
  if status = .skipped_base_merge_only then .done ()
  else do
    let processed ← getProcessedReview (input.liveHead pull)
    onlyIf (processed.error ≠ some baseMergeOnly && !started) start

/-- The `try` block: the review, and what follows from its status. -/
def reviewLeasedJob (input : JobInput E) (sessionId : Option String) (pull : PullRequestSummary) (deferStatus : Bool)
    (now : Int) : JobProg E QueueJobResult := do
  let processedHeadPolicy ← processedHeadPolicyForQueueJob input pull
  let (status, started) ← reviewPull {
    repo := input.job.repo
    pull := pull
    dryRun := input.dryRun
    processedHeadPolicy := processedHeadPolicy
    manualQueueJob := input.isManual
    allowActivationBaselineCommandLookup := input.isManual
    commandCommentId := if input.isManual then input.job.commentId.filter (· ≠ 0) else none } (!deferStatus)
      (onReviewStarted input pull deferStatus now)
  startAfterReview input pull status started (onReviewStarted input pull deferStatus now)
  let completionNow ← ask .clock
  updateQueueJobAfterReviewStatus input pull status completionNow
  syncReadinessForReviewResult input pull status completionNow
  syncReviewStatusCommentForReviewResult input pull status completionNow
  updateReviewerSessionJobAfterReviewStatus (input.withSession sessionId) status completionNow
  return .status status

/-- The `catch` block after a provider's rate limit. -/
def deferReview (input : JobInput E) (sessionId : Option String) (pull : PullRequestSummary) (error : Thrown E)
    (failureNow : Int) : JobProg E QueueJobResult := do
  markQueueJobProviderDeferredFromProcessed input pull failureNow (some error)
  recordReadinessTransition input.job.repo pull .providerDeferred "provider_rate_limit_cooldown" failureNow none none
  syncReviewStatusComment input pull { statusComment input.job.repo pull .provider_deferred failureNow with
    details := some "Provider cooldown recorded; see bot evidence for operator-only details." }
  updateReviewerSessionJobFromQueueStatus (input.withSession sessionId) failureNow .assigned none
  return .status .skipped_provider_cooldown

/-- The `catch` block after any other exception. -/
def failReview (input : JobInput E) (sessionId : Option String) (pull : PullRequestSummary) (failureNow : Int)
    (errorMessage : String) : JobProg E QueueJobResult := do
  updateReviewQueueJobState { jobId := input.jobId, state := .failed, lastError := some errorMessage } failureNow
  recordReadinessTransition input.job.repo pull .failed ("review_failed: " ++ errorMessage) failureNow none none
  syncReviewStatusComment input pull { statusComment input.job.repo pull .failed failureNow with
    details := some "Review failed; see bot evidence for operator-only details." }
  updateReviewerSessionJobFromQueueStatus (input.withSession sessionId) failureNow .failed (some .failed)
  return .failed

def catchReviewError (input : JobInput E) (sessionId : Option String) (pull : PullRequestSummary) (error : Thrown E) :
    JobProg E QueueJobResult := do
  let failureNow ← ask .clock
  let deferred ← ask (.recordProviderRateLimitCooldownIfNeeded input.job.repo pull error failureNow)
  if deferred then deferReview input sessionId pull error failureNow
  else .call (.recordFailedReview input.job.repo pull error) fun
    | .error e => .fail (.evidence e)
    | .ok errorMessage => failReview input sessionId pull failureNow errorMessage

def runAdmittedJob (input : JobInput E) (pull : PullRequestSummary) (now : Int) : JobProg E QueueJobResult := do
  let sessionId ← ensureReviewerSessionForLeasedJob input now
  updateReviewerSessionJobFromQueueStatus (input.withSession sessionId) now .running none
  let deferStatus ← deferStatusComments input pull
  onlyIf (!deferStatus) (onReviewStarted input pull deferStatus now)
  (reviewLeasedJob input sessionId pull deferStatus now).tryCatch (catchReviewError input sessionId pull)

def baseChanged (job : ReviewQueueJobRecord) (pull : PullRequestSummary) : Bool :=
  job.source ≠ .manualCommand && (truthy job.baseSha).any (pull.baseSha ≠ ·)

def runFetchedJob (input : JobInput E) (pull : PullRequestSummary) (now : Int) : JobProg E QueueJobResult :=
  if !input.admits pull then exitWithStatus input pull now .skipped_license_gate
  else if isClosedPull pull then retireBeforeReview input pull now (closedBeforeReview pull)
  else if pull.headSha ≠ input.job.headSha then retireBeforeReview input pull now (staleHeadBeforeReview pull)
  else do
    let blocked ← ask (.recordPublicRepoAuthorGateSkip input.job.repo pull)
    if blocked then exitWithStatus input pull now .untrusted_author_public_repo
    else if baseChanged input.job pull then retireBeforeReview input pull now (baseChangedBeforeReview pull)
    else runAdmittedJob input pull now

/-- A clock that is not injected reads the time that was handed in, or the system's. -/
def runLeasedQueueJob (input : JobInput E) : JobProg E QueueJobResult := do
  let now ← ask .clock
  updateReviewQueueJobState { jobId := input.jobId, state := .running } now
  let reviewing ← shouldMarkJobReviewing input.job
  onlyIf reviewing (recordReadinessTransition input.job.repo (pullForQueueJobWithoutLive input.job) .reviewing
    "queue_job_running" now none none)
  .call (.getPull input.job.repo input.job.pullNumber) fun
    | .error e => failRefetch input now (input.message e)
    | .ok pull => runFetchedJob input pull now

end

end NeonDiff.Job
