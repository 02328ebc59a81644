import NeonDiff.Lib.Program
import NeonDiff.Store.Cooldown

/-! # The rows that workers write without a post

Each writer reads the row of its head and then gives a record to `recordProcessed`, or leaves the row. Other
processes run between the read and the write.
-/

namespace NeonDiff.Worker

open NeonDiff.Lib NeonDiff.Lib.JsText NeonDiff.Store

abbrev WriterProg := Prog StoreCall.Value String Unit

def isPosted (existing : Option StoredProcessedReviewRecord) : Bool := existing.any fun row => row.status = .posted

def skipped (head : HeadKey) (error : String) : ProcessedReviewRecord where
  head := head
  status := .skipped
  error := some error

def recordSkip (head : HeadKey) (error : String) : WriterProg := .call (.recordProcessed (skipped head error)) .done

def skipUnlessPosted (head : HeadKey) (error : String) : WriterProg :=
  .call (.getProcessedReview head) fun existing =>
    if isPosted existing then .done () else recordSkip head error

def skipUnlessDecided (head : HeadKey) (error : String) (existing : Option StoredProcessedReviewRecord) : WriterProg :=
  if existing.all fun row => row.status = .failed then recordSkip head error else .done ()

/-- A skip that leaves every row. -/
def skipUnlessProcessed (head : HeadKey) (error : String) : WriterProg :=
  .call (.hasProcessed head) fun processed => if processed then .done () else recordSkip head error

/-! ## Heads that moved, closed or were stopped -/

structure StaleHeadEvidence where
  reason : String
  liveHeadSha : String
  deriving DecidableEq, Repr

def recordStaleHeadSkip (head : HeadKey) (stale : StaleHeadEvidence) : WriterProg :=
  skipUnlessPosted head (stale.reason ++ ": live=" ++ stale.liveHeadSha)

/-- What GitHub tells of a pull that is no longer open. -/
structure ClosedPull where
  state : Option String
  mergedAt : Option String
  deriving DecidableEq, Repr

def ClosedPull.text (live : ClosedPull) : String :=
  "state=" ++ live.state.getD "unknown" ++
    match truthy live.mergedAt with
    | some mergedAt => "; merged_at=" ++ mergedAt
    | none => ""

def recordClosedPullBeforeReviewPost (head : HeadKey) (live : ClosedPull) : WriterProg :=
  skipUnlessPosted head ("closed_or_merged_before_review " ++ live.text)

/-- The stop branch of `recordAndAcknowledgeCommandDecision`. -/
def recordCommandStop (head : HeadKey) (commandId : Nat) (author : String) : WriterProg :=
  skipUnlessPosted head ("manual_command_stop comment_id=" ++ toString commandId ++ "; author=" ++ author)

def closedRetryError (redactSecrets : String → String) (pull : ClosedPull) (previousError : Option String) : String :=
  "closed_pr_retry_skip: " ++ pull.text ++
    match truthy previousError with
    | some error => "; previous_error=" ++ redactSecrets error
    | none => ""

/-- It reads the row for its text alone. -/
def recordClosedRetrySkip (redactSecrets : String → String) (head : HeadKey) (pull : ClosedPull) : WriterProg :=
  .call (.getProcessedReview head) fun previous =>
    recordSkip head (closedRetryError redactSecrets pull (previous.bind (·.error)))

/-! ## Authors and activation -/

/-- The branch of `recordPublicRepoAuthorGateSkip` for a blocked author, who is routed to no provider. -/
def recordPublicRepoAuthorGateSkip (head : HeadKey) : WriterProg :=
  .call (.getProcessedReview head) fun existing =>
    if existing.any fun row => row.error = some "untrusted_author_provider_unavailable" then
      .call (.clearAuthorGateSkip head "untrusted_author_provider_unavailable") fun cleared =>
        skipUnlessDecided head "untrusted_author_public_repo" (if cleared then none else existing)
    else skipUnlessDecided head "untrusted_author_public_repo" existing

inductive RestrictedReason where
  | restrictedUnavailable | providerUnavailable
  deriving DecidableEq, Repr

def RestrictedReason.text : RestrictedReason → String
  | restrictedUnavailable => "untrusted_author_restricted_unavailable"
  | providerUnavailable => "untrusted_author_provider_unavailable"

def recordRestrictedReviewUnavailable (head : HeadKey) (reason : RestrictedReason) : WriterProg :=
  .call (.getProcessedReview head) (skipUnlessDecided head reason.text)

def recordActivationBaselineExistingHead (head : HeadKey) : WriterProg :=
  skipUnlessProcessed head ACTIVATION_BASELINE_EXISTING_HEAD_ERROR

/-- The scheduler, where the queue of the repository is full and the overflow action is `skip`. -/
def recordQueueCapacitySkip (head : HeadKey) : WriterProg :=
  .call (.getProcessedReview head) fun processed =>
    if processed.isSome then .done () else skipUnlessProcessed head "repo_queue_capacity_full"

/-! ## Failures and their retries -/

def isDryRunClaim (row : StoredProcessedReviewRecord) : Bool :=
  row.status = .skipped && row.error.any fun e => startsWith e APPROVED_DRY_RUN_LIVE_CLAIM_ERROR

def failedRow (head : HeadKey) (errorMessage : String) : ProcessedReviewRecord where
  head := head
  status := .failed
  error := some errorMessage

/-- `errorMessage` is the message with the previous error counted in. -/
def recordFailedReview (errorMessage : Option String → String) (preserveExistingDryRun : Bool) (head : HeadKey) :
    WriterProg :=
  .call (.getProcessedReview head) fun previous =>
    let message := errorMessage (previous.bind (·.error))
    if previous.any isDryRunClaim then
      .call (.recordProcessed { skipped head (APPROVED_DRY_RUN_LIVE_CLAIM_ERROR ++ "; post_error=" ++ message) with
        configRevision := truthy (previous.bind (·.configRevision))
        event := previous.bind (·.event) }) .done
    else if isPosted previous || (preserveExistingDryRun && previous.any fun row => row.status = .dryRun) then .done ()
    else .call (.recordProcessed (failedRow head message)) .done

/-- `cooldown` is the classified error, with the previous error counted in. -/
def recordProviderRateLimitCooldownIfNeeded (redactSecrets : String → String) (cooldown : Option String → CooldownSkip)
    (errorMessage : Option String → String) (preserveExistingDryRun : Bool) (head : HeadKey) : WriterProg :=
  .call (.getProcessedReview head) fun previous =>
    if preserveExistingDryRun && previous.any isDryRunClaim then recordFailedReview errorMessage true head
    else if preserveExistingDryRun && previous.any fun row => row.status = .dryRun then .done ()
    else recordSkip head ((cooldown (previous.bind (·.error))).error redactSecrets)

structure FailedHeadRetryTarget where
  head : HeadKey
  previousStatus : ProcessedStatus
  previousError : Option String
  deriving DecidableEq, Repr

def restoreAsProviderCooldown (retryTarget : FailedHeadRetryTarget) : Bool :=
  retryTarget.previousStatus = .skipped && (parseProviderCooldownError retryTarget.previousError).isSome

/-- The error that puts the row of a retry back. -/
def restoredError (retryTarget : FailedHeadRetryTarget) (reason : String) : String :=
  if restoreAsProviderCooldown retryTarget && reason = "retry_did_not_review=skipped_stale_head" then
    "provider_cooldown_retry_stale_head; " ++ reason ++
      match truthy retryTarget.previousError with
      | some previousError => "; previous_error=" ++ previousError
      | none => ""
  else match truthy retryTarget.previousError with
    | some previousError => previousError ++ "; " ++ reason
    | none => reason

def isAuthorGateSkip (row : StoredProcessedReviewRecord) : Bool :=
  row.status = .skipped && (row.error = some "untrusted_author_public_repo" ||
    row.error = some RestrictedReason.restrictedUnavailable.text || row.error = some RestrictedReason.providerUnavailable.text)

def restoreFailedRetryRowIfNeeded (retryTarget : FailedHeadRetryTarget) (reason : String) : WriterProg :=
  .call (.getProcessedReview retryTarget.head) fun current =>
    if isPosted current then .done ()
    else if current.any fun row => row.status = .skipped && row.error = some baseMergeOnly then .done ()
    else if current.any fun row => row.status = .failed then .done ()
    else if current.any isAuthorGateSkip then .done ()
    else .call (.recordProcessed {
      head := retryTarget.head
      status := if restoreAsProviderCooldown retryTarget then .skipped else .failed
      error := some (restoredError retryTarget reason) }) .done

/-! ## Reviews that do not come to a post -/

inductive ProcessedHeadPolicy where
  | normal | approvedDryRun | refreshDryRun | retryFailedHead
  deriving DecidableEq, Repr

/-- What `reviewPull` is given and has resolved when it looks at the cooldown of the repository. -/
structure ReviewEntry where
  processedHeadPolicy : ProcessedHeadPolicy
  dryRun : Bool
  configRevision : Option String
  manualReviewRequested : Bool
  explicitPullReview : Bool
  allowActivationBaselineCommandLookup : Bool
  manualQueueJob : Bool
  deriving DecidableEq, Repr

namespace ReviewEntry

variable (entry : ReviewEntry) (processed : Option StoredProcessedReviewRecord)

def retryableApprovedDryRunPrePostFailure : Bool :=
  entry.dryRun && processed.any fun row => isRetryableApprovedDryRunPrePostFailure row.status row.error

def refreshableDryRun : Bool :=
  entry.dryRun && entry.processedHeadPolicy = .refreshDryRun && processed.any fun row => row.status = .dryRun

def baseMergeOnlyOverride : Bool :=
  processed.any (fun row => row.status = .skipped && row.error = some baseMergeOnly) &&
    (entry.explicitPullReview || entry.allowActivationBaselineCommandLookup || entry.manualQueueJob)

def scopedActivationBaselineOverride : Bool :=
  entry.allowActivationBaselineCommandLookup &&
    processed.any fun row => isActivationBaselineProcessedReview row.status row.error

def approvedDryRunTransition : Bool :=
  entry.processedHeadPolicy = .approvedDryRun && processed.any fun row =>
    row.status = .dryRun && entry.configRevision.isSome && row.configRevision = entry.configRevision

inductive EntryStep where
  | stop | unlessProcessed | goOn
  deriving DecidableEq, Repr

/-- What `reviewPull` does with the row it finds: it stops, it stops if a row is there by now, or it goes on. -/
def step : EntryStep :=
  if entry.processedHeadPolicy = .approvedDryRun && !entry.approvedDryRunTransition processed then .stop
  else if entry.processedHeadPolicy ≠ .retryFailedHead && !entry.allowActivationBaselineCommandLookup &&
      processed.any fun row => isActivationBaselineProcessedReview row.status row.error then .stop
  else if entry.processedHeadPolicy ≠ .retryFailedHead && !entry.manualReviewRequested &&
      !entry.approvedDryRunTransition processed && !entry.retryableApprovedDryRunPrePostFailure processed &&
      !entry.refreshableDryRun processed && !entry.scopedActivationBaselineOverride processed &&
      !entry.baseMergeOnlyOverride processed then
    if processed.isSome then .stop else .unlessProcessed
  else .goOn

def defersToCooldown : Bool :=
  entry.processedHeadPolicy ≠ .retryFailedHead && !entry.retryableApprovedDryRunPrePostFailure processed &&
    !(processed.any (fun row => row.status = .dryRun) &&
      (entry.approvedDryRunTransition processed || entry.refreshableDryRun processed))

end ReviewEntry

/-- `reviewPull` from its first look at the row to the cooldown of the repository. -/
def enterReview (entry : ReviewEntry) (head : HeadKey) (goOn : Option StoredProcessedReviewRecord → WriterProg) :
    WriterProg :=
  .call (.getProcessedReview head) fun processed =>
    match entry.step processed with
    | .stop => .done ()
    | .unlessProcessed => .call (.hasProcessed head) fun processedNow => if processedNow then .done () else goOn processed
    | .goOn => goOn processed

/-- `recordProviderCooldownSkip`, for a repository in a cooldown. -/
def recordActiveCooldownSkip (redactSecrets : String → String) (entry : ReviewEntry) (activeCooldown : CooldownSkip)
    (head : HeadKey) : WriterProg :=
  enterReview entry head fun processed =>
    if entry.defersToCooldown processed then recordSkip head (activeCooldown.error redactSecrets) else .done ()

/-- `isProviderCooldownProcessedReview`. -/
def isProviderCooldownProcessedReview (row : StoredProcessedReviewRecord) : Bool :=
  row.status = .skipped && (parseProviderCooldownError row.error).isSome

def recordContextBudgetSkip (entry : ReviewEntry) (reason : String) (head : HeadKey) : WriterProg :=
  enterReview entry head fun _ =>
    if entry.processedHeadPolicy = .retryFailedHead then
      .call (.getProcessedReview head) fun current =>
        if current.any fun row => row.status = .failed || isProviderCooldownProcessedReview row then
          .call (.recordProcessed (failedRow head reason)) .done
        else .done ()
    else .call (.recordProcessed (failedRow head reason)) .done

/-! ## All of them -/

inductive Writer where
  | staleHead (stale : StaleHeadEvidence)
  | closedBeforePost (live : ClosedPull)
  | commandStop (commandId : Nat) (author : String)
  | closedRetry (pull : ClosedPull)
  | authorGate
  | restricted (reason : RestrictedReason)
  | activationBaseline
  | queueCapacity
  | failure (errorMessage : Option String → String) (preserveExistingDryRun : Bool)
  | rateLimit (cooldown : Option String → CooldownSkip) (errorMessage : Option String → String)
      (preserveExistingDryRun : Bool)
  | retryRestore (previousStatus : ProcessedStatus) (previousError : Option String) (reason : String)
  | activeCooldown (entry : ReviewEntry) (cooldown : CooldownSkip)
  | contextBudget (entry : ReviewEntry) (reason : String)

def Writer.prog (redactSecrets : String → String) (head : HeadKey) : Writer → WriterProg
  | staleHead stale => recordStaleHeadSkip head stale
  | closedBeforePost live => recordClosedPullBeforeReviewPost head live
  | commandStop commandId author => recordCommandStop head commandId author
  | closedRetry pull => recordClosedRetrySkip redactSecrets head pull
  | authorGate => recordPublicRepoAuthorGateSkip head
  | restricted reason => recordRestrictedReviewUnavailable head reason
  | activationBaseline => recordActivationBaselineExistingHead head
  | queueCapacity => recordQueueCapacitySkip head
  | failure errorMessage preserve => recordFailedReview errorMessage preserve head
  | rateLimit cooldown errorMessage preserve =>
    recordProviderRateLimitCooldownIfNeeded redactSecrets cooldown errorMessage preserve head
  | retryRestore previousStatus previousError reason =>
    restoreFailedRetryRowIfNeeded ⟨head, previousStatus, previousError⟩ reason
  | activeCooldown entry cooldown => recordActiveCooldownSkip redactSecrets entry cooldown head
  | contextBudget entry reason => recordContextBudgetSkip entry reason head

/-- A review that was asked for by command goes on past a posted row. -/
def ReviewEntry.stopsAtPosted (entry : ReviewEntry) : Bool :=
  !entry.manualReviewRequested || entry.processedHeadPolicy = .approvedDryRun ||
    entry.processedHeadPolicy = .retryFailedHead

def Writer.sparesPosted : Writer → Bool
  | closedRetry _ | rateLimit .. => false
  | activeCooldown entry _ | contextBudget entry _ => entry.stopsAtPosted
  | _ => true

end NeonDiff.Worker
