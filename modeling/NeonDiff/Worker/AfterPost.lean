import NeonDiff.Worker.Review

/-! # A review after its POST

The calls of `reviewPull` from the answer of the POST on, and those of the callers that catch what it throws. Any of
them may throw.
-/

namespace NeonDiff.Worker

open NeonDiff.Lib NeonDiff.Store

/-- `reviewPull` comes to some of its steps a second time: on recovery, and in its `finally` block. -/
inductive Time where
  | first | second
  deriving DecidableEq, Repr

inductive PostStep where
  | record (time : Time)
  | durableRead (time : Time)
  | mark (time : Time)
  | readiness (time : Time)
  | releaseClaim (time : Time)
  | releaseLease (time : Time)
  | completion
  | priorRead
  | restoreRead
  | restoreWrite
  | handlerRead
  | handlerWrite
  deriving DecidableEq, Repr

inductive PostAct where
  | store (step : PostStep) (call : StoreCall)
  /-- A call that touches neither the row nor the claim of the head. -/
  | aside (step : PostStep)
  deriving DecidableEq, Repr

abbrev PostAct.Answer : PostAct → Type
  | .store _ call => Except String call.Value
  | .aside _ => Except String Unit

inductive ReviewError where
  /-- `ReviewPostPersistenceError`, with the message of its cause. -/
  | persistence (cause : String)
  | other (message : String)
  deriving DecidableEq, Repr

def ReviewError.message : ReviewError → String
  | persistence cause => "review posted but its durable receipt could not be recorded: " ++ cause
  | other message => message

def reviewWasAlreadyPosted : ReviewError → Bool
  | .persistence _ => true
  | .other _ => false

abbrev PostProg := Prog PostAct.Answer ReviewError

section
variable {α : Type}

def storeAt (step : PostStep) (call : StoreCall) (k : call.Value → PostProg α) : PostProg α :=
  .call (.store step call) fun
    | .error e => .fail (.other e)
    | .ok value => k value

def asideAt (step : PostStep) (k : PostProg α) : PostProg α :=
  .call (.aside step) fun
    | .error e => .fail (.other e)
    | .ok () => k

end

/-! ## The review -/

structure OwnerAuthorization where
  commentId : Nat
  author : String
  deriving DecidableEq, Repr

/-- A review that GitHub has taken, and what `reviewPull` holds when the POST answers. -/
structure PostedReview where
  plan : ReviewPlan
  htmlUrl : Option String
  /-- The URL of the pull with the id of the review. -/
  fallbackUrl : String
  /-- The owner authorization that the review has consumed. -/
  authorization : Option OwnerAuthorization
  commandCommentId : Option Nat
  claimId : String
  /-- An ensemble still writes its evidence. -/
  ensemble : Bool
  liveAfterPost : Except String LivePull
  liveAfterRecovery : Except String LivePull

def PostedReview.receiptUrl (review : PostedReview) : String := review.htmlUrl.getD review.fallbackUrl

section
variable (head : HeadKey) (review : PostedReview)

def receiptRecord (reviewUrl : Option String) : ProcessedReviewRecord where
  head := head
  status := .posted
  baseRef := review.plan.baseRef
  baseSha := review.plan.baseSha
  diffFingerprint := review.plan.diffFingerprint
  event := some review.plan.event
  reviewUrl := reviewUrl

def authorizedInput (authorization : OwnerAuthorization) (reviewUrl : String) (preserve : Bool) :
    AuthorizedPostedInput where
  head := head
  commentId := authorization.commentId
  author := authorization.author
  event := review.plan.event
  reviewUrl := reviewUrl
  baseRef := review.plan.baseRef
  baseSha := review.plan.baseSha
  diffFingerprint := review.plan.diffFingerprint
  preserveExistingBlocking := preserve

/-- The receipt of the review, where no prior blocking row is preserved. -/
def storeReceipt (time : Time) (reviewUrl : Option String) (preserve : Bool) : PostProg Unit :=
  match review.authorization with
  | some authorization =>
    match truthy reviewUrl with
    | none => .fail (.other "consumed owner authorization did not produce a durable review receipt")
    | some url =>
      storeAt (.record time)
        (.recordAuthorizedReviewPosted (authorizedInput head review authorization url preserve)) .done
  | none =>
    if preserve then .done ()
    else storeAt (.record time) (.recordProcessed (receiptRecord head review reviewUrl)) .done

def uncertainReadiness (row : StoredProcessedReviewRecord) (reason : String) (state : ReviewReadinessState)
    (commandCommentId : Option Nat) : ReadinessInput where
  head := head
  state := state
  reason := some reason
  event := row.event
  reviewUrl := row.reviewUrl
  commandAction := commandCommentId.map fun _ => .requestChanges
  commandCommentId := commandCommentId

def uncertaintyState (live : Except String LivePull) : ReviewReadinessState :=
  match live with
  | .error _ => .failed
  | .ok _ => .stale

def markAfterLook (time : Time) (live : Except String LivePull) (preservedPriorVerifiedBlockingRow : Bool)
    (commandCommentId : Option Nat) : PostProg Unit :=
  match uncertaintyReason live with
  | none => .done ()
  | some reason =>
    if preservedPriorVerifiedBlockingRow then .done ()
    else storeAt (.durableRead time) (.getProcessedReview head) fun durablePosted =>
      match durablePosted.filter fun row => row.status = .posted with
      | none => .done ()
      | some row =>
        storeAt (.mark time) (.recordProcessed (uncertainRecord head row reason)) fun _ =>
          storeAt (.readiness time) (.recordReviewReadiness
            (uncertainReadiness head row reason (uncertaintyState live) commandCommentId)) .done

/-- `releaseReviewCapacity` in the `finally` block. -/
def releaseFinally {α : Type} (claimHeld : Bool) (k : PostProg α) : PostProg α :=
  if claimHeld then
    storeAt (.releaseClaim .second) (.releaseReviewHeadClaim review.claimId) fun _ => asideAt (.releaseLease .second) k
  else asideAt (.releaseLease .second) k

/-- `releaseReviewCapacity` before the review returns, with the `finally` block behind it. -/
def releaseEarly : PostProg Unit :=
  .call (.store (.releaseClaim .first) (.releaseReviewHeadClaim review.claimId)) fun
    | .error e => releaseFinally review true (.fail (.other e))
    | .ok () => .call (.aside (.releaseLease .first)) fun
      | .error e => releaseFinally review false (.fail (.other e))
      | .ok () => .done ()

/-- The row of a prior blocking review without doubts about its head. -/
def isVerifiedBlocking (row : StoredProcessedReviewRecord) : Bool :=
  row.status = .posted && row.event = some .requestChanges && row.error.isNone

/-- `reviewPull`, from the answer of the POST on. -/
def reviewAfterPost (priorPosted : Option StoredProcessedReviewRecord) : PostProg Unit :=
  let preserve := preservedPriorBlockingRow review.plan priorPosted
  let receipt := (storeReceipt head review .first review.htmlUrl preserve).attempt fun
    | .error cause => .fail (.persistence cause.message)
    | .ok () => markAfterLook head .first review.liveAfterPost
      (preserve && priorPosted.all fun row => row.error.isNone) (review.commandCommentId.filter (· ≠ 0))
  receipt.attempt fun
    | .error e => releaseFinally review true (.fail e)
    | .ok () => if review.ensemble then releaseFinally review true (.done ()) else releaseEarly review

/-! ## The callers -/

def recoverPostedReviewReceipt (preserve : Bool) : PostProg Unit :=
  match truthy (some review.receiptUrl) with
  | none => .fail (.other "review posted but its recovery receipt is incomplete")
  | some reviewUrl => storeReceipt head review .second (some reviewUrl) preserve

/-- Whether the caller may go on as after a review. -/
def recoverPostedReviewReceiptForCurrentHead (preserve : Bool) (error : ReviewError) : PostProg Bool :=
  if reviewWasAlreadyPosted error then
    storeAt .priorRead (.getProcessedReview head) fun priorPosted =>
      (recoverPostedReviewReceipt head review preserve).attempt fun
        | .error _ => .done true
        | .ok () => (markAfterLook head .second review.liveAfterRecovery
            (preserve && priorPosted.any isVerifiedBlocking) none).bind fun _ => .done true
  else .done false

structure Cooldown where
  cooldownUntil : Int
  reason : String
  retryAttempt : Option Lib.Binary64.Whole
  providerCode : Option String
  retryAfterMs : Option Lib.Binary64.Whole
  deriving DecidableEq, Repr

def Cooldown.skip (cooldown : Cooldown) : CooldownSkip where
  head := head
  cooldownUntil := IsoDate.toISOString cooldown.cooldownUntil
  reason := cooldown.reason
  retryAttempt := cooldown.retryAttempt
  providerCode := cooldown.providerCode
  retryAfterMs := cooldown.retryAfterMs

/-- How errors are classified and told; the error of the row before is counted in. -/
structure ErrorPolicy where
  redactSecrets : String → String
  cooldown : ReviewError → Option (Option String → Cooldown)
  errorMessage : ReviewError → Option String → String

def handlerStep : StoreCall → PostStep
  | .getProcessedReview _ => .handlerRead
  | _ => .handlerWrite

def restoreStep : StoreCall → PostStep
  | .getProcessedReview _ => .restoreRead
  | _ => .restoreWrite

def writing (step : StoreCall → PostStep) : WriterProg → PostProg Unit
  | .done () => .done ()
  | .fail e => .fail (.other e)
  | .call call k => storeAt (step call) call fun value => writing step (k value)

/-- A writer among the calls of a catch block. -/
abbrev handling : WriterProg → PostProg Unit := writing handlerStep

def recordError (errors : ErrorPolicy) (preserveExistingDryRun : Bool) (error : ReviewError) : WriterProg :=
  match errors.cooldown error with
  | some cooldown =>
    recordProviderRateLimitCooldownIfNeeded errors.redactSecrets (fun previous => (cooldown previous).skip head)
      (errors.errorMessage error) preserveExistingDryRun head
  | none => recordFailedReview (errors.errorMessage error) preserveExistingDryRun head

/-- A `try` block whose `catch` block records what the error is told as. -/
def recordingErrors (errors : ErrorPolicy) (tell : ReviewError → ReviewError) (block : PostProg Unit) : PostProg Unit :=
  block.attempt fun
    | .ok () => .done ()
    | .error error => handling (recordError head errors false (tell error))

/-- The text that a retry throws on. -/
def retryError (previousError : Option String) (error : ReviewError) : ReviewError :=
  .other (retryFailureError previousError error.message)

/-- What a retry does behind its review: the queue, the status comment, and the row if it is not posted. -/
def afterRetry (previousStatus : ProcessedStatus) (previousError : Option String) (retryStatus : String) :
    PostProg Unit :=
  asideAt .completion <| writing restoreStep <|
    restoreFailedRetryRowIfNeeded ⟨head, previousStatus, previousError⟩ ("retry_did_not_review=" ++ retryStatus)

/-- The policies that `runOnce` takes. -/
inductive RunOncePolicy where
  | normal | approvedDryRun | refreshDryRun
  deriving DecidableEq, Repr

inductive Caller where
  /-- `runOnce`. -/
  | direct (processedHeadPolicy : RunOncePolicy)
  /-- `runLeasedQueueJob`. -/
  | scheduler
  /-- `retryFailedHeadWithDeps`, with what it has read of the row, and the status that the review returns. -/
  | retry (previousStatus : ProcessedStatus) (previousError : Option String) (retryStatus : String)
  deriving DecidableEq, Repr

def Caller.runAfterPost (errors : ErrorPolicy) (priorPosted : Option StoredProcessedReviewRecord) :
    Caller → PostProg Unit
  | direct processedHeadPolicy =>
    (reviewAfterPost head review priorPosted).attempt fun
      | .ok () => .done ()
      | .error error =>
        (recoverPostedReviewReceiptForCurrentHead head review (preservedPriorBlockingRow review.plan priorPosted)
          error).bind fun recovered =>
          if recovered then .done ()
          else handling (recordError head errors
            (processedHeadPolicy = .approvedDryRun && !reviewWasAlreadyPosted error) error)
  | scheduler => recordingErrors head errors id <|
    (reviewAfterPost head review priorPosted).bind fun _ => asideAt .completion (.done ())
  | retry previousStatus previousError retryStatus => recordingErrors head errors (retryError previousError) <|
    (reviewAfterPost head review priorPosted).bind fun _ => afterRetry head previousStatus previousError retryStatus

end

/-! ## Runs -/

/-- When the calls are made, and which of them throw. -/
structure Course where
  now : PostStep → Int
  fault : PostStep → Option String

def Course.exec (course : Course) (redactSecrets : String → String) (s : State) : (act : PostAct) → act.Answer × State
  | .store step call =>
    match course.fault step with
    | some e => (.error e, s)
    | none =>
      match call.exec redactSecrets (course.now step) "" s with
      | .ok (value, s') => (.ok value, s')
      | .error e => (.error e, s)
  | .aside step =>
    match course.fault step with
    | some e => (.error e, s)
    | none => (.ok (), s)

def storeAfterPost (errors : ErrorPolicy) (course : Course) (caller : Caller) (head : HeadKey) (review : PostedReview)
    (s : State) : State :=
  ((caller.runAfterPost head review errors (getProcessedReview s head)).alone (course.exec errors.redactSecrets) s).2

end NeonDiff.Worker
