import NeonDiff.Worker.Writers

/-! # A live review of a head that no command asked for

The program follows `reviewPull` through the calls that read or write the head's row and claim, the questions whose
answers decide its way, and the POST. What GitHub, the provider and the file system answer is open.
-/

namespace NeonDiff.Worker

open NeonDiff.Lib NeonDiff.Store

/-! ## Questions -/

structure AuthorAnswer where
  blocked : Bool
  routed : Bool
  untrusted : Bool
  deriving DecidableEq, Repr

structure LivePull where
  closed : Option ClosedPull
  stale : Option StaleHeadEvidence
  deriving DecidableEq, Repr

/-- The ways in which a review ends without coming to its claim. -/
inductive ReviewExit where
  | silent
  | restricted (reason : RestrictedReason)
  | contextBudget (reason : String)
  | deferredFailure (errorMessage : Option String → String)
  | staleHead (stale : StaleHeadEvidence)

structure ReviewPlan where
  event : ReviewEvent
  baseRef : Option String
  baseSha : Option String
  diffFingerprint : Option String
  deriving DecidableEq, Repr

inductive Work where
  | ended (exit : ReviewExit)
  | planned (plan : ReviewPlan)

inductive Question where
  | authorGate | preActivation | activeCooldown | live | preparation | carry | work
  deriving DecidableEq, Repr

abbrev Question.Value : Question → Type
  | .authorGate => AuthorAnswer
  | .preActivation => Bool
  | .activeCooldown => Option CooldownSkip
  | .live => LivePull
  | .preparation => Option ReviewExit
  | .carry => Option ProcessedReviewRecord
  | .work => Work

inductive ReviewAct where
  | store (call : StoreCall)
  | ask (question : Question)
  | createReview (event : ReviewEvent)
  deriving DecidableEq, Repr

/-- Store calls and questions may throw; a POST answers with the review's URL. -/
abbrev ReviewAct.Answer : ReviewAct → Type
  | .store call => Except String call.Value
  | .ask question => Except String question.Value
  | .createReview _ => String

abbrev ReviewProg := Prog ReviewAct.Answer String Unit

def store (call : StoreCall) (k : call.Value → ReviewProg) : ReviewProg :=
  .call (.store call) fun
    | .error e => .fail e
    | .ok value => k value

def ask (question : Question) (k : question.Value → ReviewProg) : ReviewProg :=
  .call (.ask question) fun
    | .error e => .fail e
    | .ok value => k value

/-- The calls of a writer, and then `k`. -/
def calls (writer : WriterProg) (k : ReviewProg) : ReviewProg :=
  match writer with
  | .done () => k
  | .fail e => .fail e
  | .call call c => .call (.store call) fun
    | .error e => .fail e
    | .ok value => calls (c value) k

def writes (writer : WriterProg) : ReviewProg := calls writer (.done ())

/-! ## The run -/

inductive LivePolicy where
  | normal | approvedDryRun | retryFailedHead
  deriving DecidableEq, Repr

def LivePolicy.toPolicy : LivePolicy → ProcessedHeadPolicy
  | normal => .normal
  | approvedDryRun => .approvedDryRun
  | retryFailedHead => .retryFailedHead

structure LiveReview where
  policy : LivePolicy
  configRevision : Option String
  explicitPullReview : Bool
  allowActivationBaselineCommandLookup : Bool
  manualQueueJob : Bool
  claimTtlMs : Int
  ownerPid : Int
  /-- How many of the looks between the first and the last one the configuration asks for. -/
  extraLooks : Nat
  deriving DecidableEq, Repr

def LiveReview.entry (run : LiveReview) : ReviewEntry where
  processedHeadPolicy := run.policy.toPolicy
  dryRun := false
  configRevision := run.configRevision
  manualReviewRequested := false
  explicitPullReview := run.explicitPullReview
  allowActivationBaselineCommandLookup := run.allowActivationBaselineCommandLookup
  manualQueueJob := run.manualQueueJob

section
variable (redactSecrets : String → String) (run : LiveReview) (head : HeadKey)

/-- The calls of `recordPublicRepoAuthorGateSkip` for an author who is not blocked. -/
def passAuthorGate (author : AuthorAnswer) : WriterProg :=
  .call (.getProcessedReview head) fun existing =>
    let clear (reason : String) (when : Bool) (k : Bool → WriterProg) : WriterProg :=
      if when then .call (.clearAuthorGateSkip head reason) k else k false
    let skippedFor (reason : String) (row : StoredProcessedReviewRecord) : Bool :=
      row.status = .skipped && row.error = some reason
    clear RestrictedReason.providerUnavailable.text
      (!author.routed && existing.any fun row => row.error = some RestrictedReason.providerUnavailable.text) fun cleared =>
    clear "untrusted_author_public_repo" (existing.any (skippedFor "untrusted_author_public_repo")) fun _ =>
    clear RestrictedReason.restrictedUnavailable.text
      (!cleared && existing.any (skippedFor RestrictedReason.restrictedUnavailable.text) &&
        (author.routed || !author.untrusted)) fun _ =>
    .done ()

def ReviewExit.prog : ReviewExit → WriterProg
  | silent => .done ()
  | restricted reason => recordRestrictedReviewUnavailable head reason
  | contextBudget reason => .call (.recordProcessed (failedRow head reason)) .done
  | deferredFailure errorMessage => recordFailedReview errorMessage false head
  | staleHead stale => recordStaleHeadSkip head stale

/-- `recordPullLifecycleBeforePost`, and `k` where the pull is still open at the head. -/
def recordPullLifecycleBeforePost (k : ReviewProg) : ReviewProg :=
  ask .live fun live =>
    match live.closed, live.stale with
    | some pull, _ => writes (recordClosedPullBeforeReviewPost head pull)
    | none, some stale => writes (recordStaleHeadSkip head stale)
    | none, none => k

def lifecycles : Nat → ReviewProg → ReviewProg
  | 0, k => k
  | n + 1, k => recordPullLifecycleBeforePost head (lifecycles n k)

/-- Why the head of a posted review is uncertain: it moved, or it could not be read. -/
def uncertaintyReason : Except String LivePull → Option String
  | .error _ => some POST_REVIEW_HEAD_UNVERIFIED_ERROR
  | .ok live => if live.stale.isSome then some REVIEW_POSTED_HEAD_CHANGED_ERROR else none

def uncertainRecord (row : StoredProcessedReviewRecord) (reason : String) : ProcessedReviewRecord where
  head := head
  status := .posted
  baseRef := row.baseRef
  baseSha := row.baseSha
  diffFingerprint := row.diffFingerprint
  event := row.event
  reviewUrl := row.reviewUrl
  error := some reason

def markUncertain (reason : String) : ReviewProg :=
  store (.getProcessedReview head) fun durablePosted =>
    match durablePosted.filter fun row => row.status = .posted with
    | none => .done ()
    | some row => store (.recordProcessed (uncertainRecord head row reason)) .done

def lookAfterPost (preservedPriorVerifiedBlockingRow : Bool) : ReviewProg :=
  .call (.ask .live) fun live =>
    match uncertaintyReason live with
    | none => .done ()
    | some reason => if preservedPriorVerifiedBlockingRow then .done () else markUncertain head reason

def postedRecord (plan : ReviewPlan) (reviewUrl : String) : ProcessedReviewRecord where
  head := head
  status := .posted
  baseRef := plan.baseRef
  baseSha := plan.baseSha
  diffFingerprint := plan.diffFingerprint
  event := some plan.event
  reviewUrl := some reviewUrl

def preservedPriorBlockingRow (plan : ReviewPlan) (priorPosted : Option StoredProcessedReviewRecord) : Bool :=
  priorPosted.any fun row => row.status = .posted && row.event = some .requestChanges && plan.event = .comment

/-- The durable receipt of the review that GitHub has taken. -/
def recordPosted (plan : ReviewPlan) (reviewUrl : String) : ReviewProg :=
  .call (.store (.recordProcessed (postedRecord head plan reviewUrl))) fun
    | .error e => .fail ("review posted but its durable receipt could not be recorded: " ++ e)
    | .ok _ => lookAfterPost head false

def postReview (plan : ReviewPlan) : ReviewProg :=
  store (.getProcessedReview head) fun priorPosted =>
    .call (.createReview plan.event) fun reviewUrl =>
      if preservedPriorBlockingRow plan priorPosted then
        lookAfterPost head (priorPosted.all fun row => row.error.isNone)
      else recordPosted head plan reviewUrl

/-- What the run asks of the claim transaction; `baseMergeOnly` says that it may replace a carried skip. -/
def claimInput (baseMergeOnlySupersession : Bool) : ReviewHeadClaimInput where
  head := head
  claimTtlMs := run.claimTtlMs
  ownerPid := run.ownerPid
  allowProcessedOwnerSupersession :=
    baseMergeOnlySupersession || run.policy = .approvedDryRun || run.policy = .retryFailedHead
  requiredProcessedStatusForSupersession :=
    if run.policy = .approvedDryRun then some .dryRun
    else if baseMergeOnlySupersession && run.policy ≠ .retryFailedHead then some .skipped else none
  requiredProcessedConfigRevisionForSupersession := if run.policy = .approvedDryRun then run.configRevision else none
  requiredProcessedErrorForSupersession :=
    if run.policy = .normal && baseMergeOnlySupersession then some baseMergeOnly else none
  consumeProcessedApprovalOnAcquire := run.policy = .approvedDryRun

/-- The claim, what comes under it, and its release. -/
def claimAndPost (processed : Option StoredProcessedReviewRecord) (plan : ReviewPlan) : ReviewProg :=
  store (.getProcessedReview head) fun processedBeforeClaim =>
    let baseMergeOnlySupersession := run.entry.baseMergeOnlyOverride processed &&
      processedBeforeClaim.any fun row => row.status = .skipped && row.error = some baseMergeOnly
    store (.tryClaimReviewHeadWithOutcome (claimInput run head baseMergeOnlySupersession)) fun
      | .acquired claim =>
        (lifecycles head (run.extraLooks + 2) (postReview head plan)).tryFinally
          (store (.releaseReviewHeadClaim claim.claimId) .done)
      | .activeClaim => .done ()
      | .processed => .done ()

/-- The provider's work, and the claim where it comes to a plan. -/
def workAndPost (processed : Option StoredProcessedReviewRecord) : ReviewProg :=
  ask .work fun
    | .ended exit => writes (exit.prog head)
    | .planned plan => claimAndPost run head processed plan

/-- The review from the run lease on. -/
def prepareReview (processed : Option StoredProcessedReviewRecord) : ReviewProg :=
  ask .preparation fun
    | some exit => writes (exit.prog head)
    | none => ask .carry fun
      | none => workAndPost run head processed
      | some record => store (.recordBaseMergeOnlySkip { record with head := head }) fun
        | .ok () => .done ()
        | .error .anchorChanged => workAndPost run head processed
        | .error _ => .done ()

def deferOrReview (processed : Option StoredProcessedReviewRecord) : ReviewProg :=
  ask .activeCooldown fun activeCooldown =>
    if run.policy = .retryFailedHead then
      store (.getProcessedReview head) fun current =>
        if current.any fun row => row.status = .failed || isProviderCooldownProcessedReview row then
          ask .live fun live =>
            match live.stale with
            | some stale => writes (recordStaleHeadSkip head stale)
            | none => prepareReview run head processed
        else .done ()
    else match activeCooldown with
      | some cooldown =>
        if run.entry.defersToCooldown processed then writes (recordSkip head (cooldown.error redactSecrets)) else .done ()
      | none => prepareReview run head processed

def enterLiveReview (processed : Option StoredProcessedReviewRecord) : ReviewProg :=
  match run.entry.step processed with
  | .stop => .done ()
  | .unlessProcessed => store (.hasProcessed head) fun processedNow =>
    if processedNow then .done () else deferOrReview redactSecrets run head processed
  | .goOn => deferOrReview redactSecrets run head processed

def reviewPull : ReviewProg :=
  ask .authorGate fun author =>
    if author.blocked && !author.routed then writes (recordPublicRepoAuthorGateSkip head)
    else calls (passAuthorGate head author) <| store (.getProcessedReview head) fun processed =>
      if run.entry.step processed ≠ .stop && run.policy ≠ .retryFailedHead &&
          !run.allowActivationBaselineCommandLookup && processed.isNone then
        ask .preActivation fun isPreActivation =>
          if isPreActivation then writes (recordActivationBaselineExistingHead head)
          else enterLiveReview redactSecrets run head processed
      else enterLiveReview redactSecrets run head processed

end

end NeonDiff.Worker
