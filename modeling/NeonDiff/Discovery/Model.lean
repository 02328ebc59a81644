import NeonDiff.Commands.Model
import NeonDiff.Job.Model
import NeonDiff.Lib.Stateful
import NeonDiff.Queue.Machine

/-! # Discovering the pulls of a repository

A scan runs by itself. What GitHub, the command lookup, the reviewer sessions and the tables beside the review rows
answer is its input.
-/

namespace NeonDiff.Discovery

open NeonDiff.Lib NeonDiff.Lib.JsText NeonDiff.Store

/-! ## Data -/

/-- `createdAt` is `Date.parse(created_at)`, where that is a time. -/
structure OpenPull extends Job.PullRequestSummary where
  draft : Bool
  createdAt : Option Int
  deriving DecidableEq, Repr

inductive OverflowAction where
  | defer | skip
  deriving DecidableEq, Repr

inductive EnqueueStatus where
  | enqueued | already_queued | skipped_draft | skipped_canary | skipped_processed | skipped_capacity
  | skipped_finishing_touch_draft | skipped_stale_head | provider_deferred | closed_retired
  deriving DecidableEq, Repr

/-- What a scan asks for that leaves the review rows alone. -/
inductive Ask where
  | syncReviewStatusComment (comment : Job.StatusComment)
  | repairProcessedHeadStatusComment (head : HeadKey)
  | updateReviewerSessionJobState (head : HeadKey) (jobState : Job.ReviewerSessionJobState)
      (processedReviewStatus : Option ProcessedStatus)
  | recordProcessedCommand (head : HeadKey) (commentId : Nat) (author : String)
  deriving DecidableEq, Repr

/-- The configuration of the repository, the clock of the cycle and what its texts are made of. -/
structure ScanSettings where
  repo : String
  providerId : String
  now : Int
  skipDrafts : Bool
  isCanaryAllowed : Nat → Bool
  reviewExistingOpenPrsOnActivation : Bool
  allowActivationBaselineCommandLookup : Bool
  /-- Of the repository's own scheduler settings, and then of the global ones. -/
  maxQueuedHeads : Option Int
  maxQueuedPerRepo : Option Int
  overflowAction : Option OverflowAction
  backgroundPriority : Option Int
  baseMergeOnlySkipEnabled : Bool
  baseMergeOnlySkipExcludeRepos : List String
  texts : Queue.Texts

namespace ScanSettings

variable (settings : ScanSettings)

def headOf (pull : OpenPull) : HeadKey := ⟨settings.repo, pull.number, pull.headSha⟩

def queueLimit : Int := (settings.maxQueuedHeads.orElse fun _ => settings.maxQueuedPerRepo).getD 10

def isSelfRepo : Bool :=
  ["electricsheephq/evaos-code-review-bot", "electricsheephq/evaos-code-review-bot-neondiff"].contains
    (settings.texts.toLowerCase settings.repo)

def automaticQueuePriority : Option Int :=
  if settings.isSelfRepo then some (min (settings.backgroundPriority.getD 50) 1) else settings.backgroundPriority

end ScanSettings

/-- The job ends, under the names it has. -/
structure Finishes (j j' : ReviewQueueJobRecord) : Prop where
  finished : j'.state.isTerminal = true
  jobId : j'.jobId = j.jobId
  attemptId : j'.attemptId = j.attemptId
  head : j'.head = j.head
  source : j'.source = j.source

/-- `reconcileProcessedHeadAfterDirectReview`: an unfinished job of a posted head is posted too. -/
structure Reconciles (live : HeadKey) (j j' : ReviewQueueJobRecord) : Prop extends Finishes j j' where
  ofHead : j.head = live
  unfinished : j.state.isTerminal = false
  posted : j'.state = .posted

/-- A review that leaves the rows of the other heads as they are, and in the queue at most reconciles. -/
structure Confined (head : HeadKey) (review : State → Except String Job.ReviewPullResult × State) : Prop where
  jobs : ∀ s, Rewritten (Reconciles head) s.jobs.rows (review s).2.jobs.rows
  processed : ∀ s head', head' ≠ head → (review s).2.processed.find? head' = s.processed.find? head'
  readiness : ∀ s head', head' ≠ head → (review s).2.readiness.find? head' = s.readiness.find? head'
  consumptions : ∀ s key, key ≠ ledgerKey head → (review s).2.consumptions.find? key = s.consumptions.find? key

structure PullAnswers (head : HeadKey) where
  /-- `Date.parse` of the repository's watermark. -/
  activatedAt : Option Int
  decision : Commands.CommandDecision
  sessionId : Option String
  repoCooldown : Option Job.RepoProviderCooldown
  priorityOverride : Option Int
  ids : Queue.EnqueueIds
  /-- The review of a finishing touch. -/
  reviewPull : State → Except String Job.ReviewPullResult × State
  confined : Confined head reviewPull

/-! ## Computations over the store -/

structure Desk where
  store : State
  asks : List Ask := []

abbrev Scan := EStateM String Desk

def look {α : Type} (f : State → α) : Scan α := fun desk => .ok (f desk.store) desk

def change (f : State → State) : Scan PUnit := fun desk => .ok ⟨⟩ { desk with store := f desk.store }

def callStore {α : Type} (f : State → Outcome α) : Scan α := fun desk =>
  match f desk.store with
  | .ok (a, s) => .ok a { desk with store := s }
  | .error e => .error e desk

/-- A call that throws after it has changed the store. -/
def callReview {α : Type} (f : State → Except String α × State) : Scan α := fun desk =>
  match f desk.store with
  | (.ok a, s) => .ok a { desk with store := s }
  | (.error e, s) => .error e { desk with store := s }

/-- `if (c) await p`. -/
def onlyIf (c : Bool) (p : Scan PUnit) : Scan PUnit := if c then p else return ⟨⟩

def ask (a : Ask) : Scan PUnit := fun desk => .ok ⟨⟩ { desk with asks := desk.asks ++ [a] }

/-! ## Readiness -/

def recordReviewReadiness (settings : ScanSettings) (input : ReadinessInput) : Scan PUnit := do
  let _ ← callStore (Store.recordReviewReadiness settings.texts.redactSecrets input settings.now)
  return ⟨⟩

/-- An empty url and a zero comment id are dropped on the way. -/
def recordReadinessTransition (settings : ScanSettings) (input : ReadinessInput) : Scan PUnit :=
  recordReviewReadiness settings { input with
    reviewUrl := truthy input.reviewUrl
    commandCommentId := input.commandCommentId.filter (· ≠ 0) }

/-- The `supersedableStates`. -/
def isSupersedable : ReviewReadinessState → Bool
  | .queued | .reviewing | .needsFix | .awaitingReReview | .readyForHuman | .providerDeferred | .commandRecorded => true
  | .blockedOnChecks | .blockedOnProof | .stale | .closed | .skipped | .failed => false

/-- `listReviewReadiness` of a pull. -/
def listReviewReadinessForPull (repo : String) (pullNumber : Nat) (s : State) : Outcome (List ReviewReadinessRecord) :=
  if pullNumber < 1 then .error "pullNumber must be a positive integer"
  else
    let rows := s.readiness.rows.filter fun r =>
      r.head.repo = repo && r.head.pullNumber = pullNumber && isSupersedable r.state
    -- `order by datetime(updated_at) desc`
    .ok ((rows.insertionSort fun a b => b.updatedAt / 1000 ≤ a.updatedAt / 1000).map mapReviewReadinessRow, s)

def supersededBy (pull : OpenPull) : String := "superseded_by_head=" ++ pull.headSha

def markSupersededReadinessRowsForPull (settings : ScanSettings) (pull : OpenPull) : Scan PUnit := do
  let rows ← callStore (listReviewReadinessForPull settings.repo pull.number)
  rows.forM fun readiness =>
    if readiness.head.headSha = pull.headSha then return ⟨⟩
    else recordReviewReadiness settings {
      head := ⟨settings.repo, pull.number, readiness.head.headSha⟩
      state := .stale
      reason := some (supersededBy pull) }

def isCapacityDeferredReadiness (head : HeadKey) (s : State) : Bool :=
  (getReviewReadiness s head).any fun readiness =>
    readiness.state = .providerDeferred && readiness.reason = some "repo_queue_capacity_full"

/-- The row already says what the processed row says. -/
def readinessMatches (targetState : ReviewReadinessState) (processed : StoredProcessedReviewRecord)
    (existing : ReviewReadinessRecord) : Bool :=
  existing.state = targetState && (processed.event.isNone || existing.event = processed.event) &&
  ((truthy processed.reviewUrl).isNone || existing.reviewUrl = processed.reviewUrl)

def backfillReadinessFromProcessedHead (settings : ScanSettings) (pull : OpenPull) : Scan PUnit := do
  let processed ← look fun s => getProcessedReview s (settings.headOf pull)
  match processed with
  | none => return ⟨⟩
  | some processed =>
    let existing ← look fun s => getReviewReadiness s (settings.headOf pull)
    let targetState := Job.readinessStateForProcessedStatus (some processed.status) processed.event processed.error
    if existing.any (readinessMatches targetState processed) then return ⟨⟩
    else recordReadinessTransition settings {
      head := settings.headOf pull
      state := targetState
      reason := some (Job.readinessReasonForProcessedHead processed)
      event := processed.event
      reviewUrl := processed.reviewUrl }

def ReviewQueueJobState.text : ReviewQueueJobState → String
  | .queued => "queued"
  | .leased => "leased"
  | .running => "running"
  | .providerDeferred => "provider_deferred"
  | .blockedOnProof => "blocked_on_proof"
  | .staleRetired => "stale_retired"
  | .closedRetired => "closed_retired"
  | .commandRecorded => "command_recorded"
  | .posted => "posted"
  | .failed => "failed"

def readinessStateForActiveQueueJob (job : ReviewQueueJobRecord) : ReviewReadinessState :=
  if job.state = .providerDeferred then .providerDeferred
  else if job.isActive then .reviewing
  else .queued

def readinessReasonForActiveQueueJob (job : ReviewQueueJobRecord) : String :=
  "active_queue_job_" ++ ReviewQueueJobState.text job.state ++ (truthy job.lastError).elim "" (": " ++ ·)

def backfillReadinessFromActiveQueueJob (settings : ScanSettings) (pull : OpenPull) (job : ReviewQueueJobRecord) :
    Scan PUnit :=
  recordReadinessTransition settings {
    head := settings.headOf pull
    state := readinessStateForActiveQueueJob job
    reason := some (readinessReasonForActiveQueueJob job)
    commandCommentId := if job.source = .manualCommand then job.commentId else none
    clearCommandMetadata := job.source ≠ .manualCommand }

/-- `action.replaceAll("-", "_")`. -/
def commandText : ProcessedCommandAction → String
  | .review => "review"
  | .reReview => "re_review"
  | .requestChanges => "request_changes"
  | .explain => "explain"
  | .stop => "stop"
  | .finishingTouch action => String.ofList (action.toList.map fun c => if c = '-' then '_' else c)

/-- Of a command where there is one, and of an automatic enqueue otherwise. -/
def recordReadinessForEnqueue (settings : ScanSettings) (pull : OpenPull) (command : Option Commands.ReviewCommand) :
    Scan PUnit :=
  match command with
  | none => recordReadinessTransition settings {
      head := settings.headOf pull
      state := .queued
      reason := some "automatic_enqueue"
      clearCommandMetadata := true }
  | some command => recordReadinessTransition settings {
      head := settings.headOf pull
      state :=
        if command.action = .reReview then .awaitingReReview
        else if command.action = .stop then .skipped
        else if Commands.isReviewCommandAction command.action then .queued
        else .commandRecorded
      reason := some ("trusted_" ++ commandText command.action ++ "_command")
      commandAction := some command.action
      commandCommentId := some command.commentId }

/-! ## Retiring queued jobs -/

/-- `queued`, `provider_deferred` or `blocked_on_proof`. -/
def isWaiting (job : ReviewQueueJobRecord) : Bool :=
  job.state = .queued || job.state = .providerDeferred || job.state = .blockedOnProof

def updateReviewQueueJobState (settings : ScanSettings) (input : UpdateJobInput) : Scan PUnit := do
  let _ ← callStore (Store.updateReviewQueueJobState settings.texts.redactSecrets input settings.now)
  return ⟨⟩

def updateReviewerSessionJobFromQueueStatus (job : ReviewQueueJobRecord) (jobState : Job.ReviewerSessionJobState)
    (processedReviewStatus : Option ProcessedStatus) : Scan PUnit :=
  if (truthy job.sessionId).isNone then return ⟨⟩
  else ask (.updateReviewerSessionJobState job.head jobState processedReviewStatus)

def syncReviewStatusComment (settings : ScanSettings) (pull : Job.PullRequestSummary)
    (state : Job.ReviewStatusCommentState) (details : Option String) : Scan PUnit :=
  ask (.syncReviewStatusComment { Job.statusComment settings.repo pull state settings.now with details := details })

/-- How a waiting job ends. -/
structure Retirement where
  state : ReviewQueueJobState
  reason : String
  readinessState : ReviewReadinessState
  commentState : Job.ReviewStatusCommentState
  details : String

def retireJob (settings : ScanSettings) (pull : OpenPull) (retirement : Retirement) (job : ReviewQueueJobRecord) :
    Scan PUnit := do
  updateReviewQueueJobState settings
    { jobId := job.jobId, state := retirement.state, lastError := some retirement.reason }
  recordReadinessTransition settings {
    head := ⟨settings.repo, pull.number, job.headSha⟩
    state := retirement.readinessState
    reason := some retirement.reason }
  updateReviewerSessionJobFromQueueStatus job .skipped (some .skipped)
  syncReviewStatusComment settings (Job.pullForQueueJob job pull.toPullRequestSummary) retirement.commentState
    (some retirement.details)

def supersededRetirement (pull : OpenPull) : Retirement where
  state := .staleRetired
  reason := supersededBy pull
  readinessState := .stale
  commentState := .stale_head
  details := "Superseded by a newer PR head."

def closedRetirement (pull : OpenPull) : Retirement where
  state := .closedRetired
  reason := "closed_or_merged_before_review state=" ++ pull.state.getD "unknown"
  readinessState := .closed
  commentState := .closed_or_merged_before_review
  details := "state=" ++ pull.state.getD "unknown"

def retireSupersededQueueJobsForPull (settings : ScanSettings) (pull : OpenPull) : Scan PUnit := do
  let jobs ← look fun s => (listReviewQueueJobsForPull s settings.repo pull.number).filter isWaiting
  (jobs.filter fun job => job.headSha ≠ pull.headSha).forM (retireJob settings pull (supersededRetirement pull))

def retireQueuedJobsForClosedPull (settings : ScanSettings) (pull : OpenPull) : Scan PUnit := do
  let jobs ← look fun s => (listReviewQueueJobsForPull s settings.repo pull.number).filter isWaiting
  jobs.forM (retireJob settings pull (closedRetirement pull))

/-! ## The queue -/

def unfinishedJobs (repo : String) (s : State) : List ReviewQueueJobRecord :=
  (listReviewQueueJobs s).filter fun job => job.repo = repo && !job.state.isTerminal

def getActiveQueueJobForHead (head : HeadKey) (s : State) : Option ReviewQueueJobRecord :=
  (unfinishedJobs head.repo s).find? fun job => job.pullNumber = head.pullNumber && job.headSha = head.headSha

/-- The jobs that count against the limit. -/
def queuedHeads (repo : String) (s : State) : Nat :=
  ((unfinishedJobs repo s).filter fun job => job.state ≠ .blockedOnProof).length

def hasRepoQueueCapacity (repo : String) (maxQueuedPerRepo : Int) (s : State) : Bool :=
  queuedHeads repo s < maxQueuedPerRepo

section
variable (settings : ScanSettings) (pull : OpenPull) (answers : PullAnswers (settings.headOf pull))

def enqueueInput (command : Option Commands.ReviewCommand) (assignsSession : Bool) : EnqueueInput where
  head := settings.headOf pull
  baseSha := some pull.baseSha
  source := if command.isSome then .manualCommand else .automatic
  lane := some (if command.isSome then .manual else .background)
  providerId := some settings.providerId
  priority := if command.isSome then none else answers.priorityOverride.orElse fun _ => settings.automaticQueuePriority
  commentId := command.map (·.commentId)
  sessionId := if assignsSession then truthy answers.sessionId else none

def enqueueReviewJob (command : Option Commands.ReviewCommand) (assignsSession : Bool) : Scan Queue.EnqueueResult :=
  let input := enqueueInput settings pull answers command assignsSession
  callReview ((Queue.enqueueReviewQueueJob input answers.ids settings.now).alone fun s act => act.exec settings.texts s)

/-! ## `enqueuePullIfEligible` -/

def isPreActivationExistingPull (s : State) : Bool :=
  !settings.reviewExistingOpenPrsOnActivation &&
  (answers.activatedAt.any fun activatedAt => pull.createdAt.any (· ≤ activatedAt)) &&
  s.processed.rows.any fun row => row.head.repo = settings.repo && row.head.pullNumber = pull.number &&
    isActivationBaselineProcessedReview row.status (truthy row.error)

def recordActivationBaselineExistingHead : Scan PUnit :=
  change fun s => if hasProcessed s (settings.headOf pull) then s
    else recordProcessed {
      head := settings.headOf pull
      status := .skipped
      error := some ACTIVATION_BASELINE_EXISTING_HEAD_ERROR } settings.now s

def skipWithReadiness (reason : String) (status : EnqueueStatus) : Scan EnqueueStatus := do
  recordReadinessTransition settings { head := settings.headOf pull, state := .skipped, reason := some reason }
  return status

def skipProcessedHead : Scan EnqueueStatus := do
  backfillReadinessFromProcessedHead settings pull
  return .skipped_processed

/-- The head of a pull that was open before the repository was activated. -/
def skipBaselineHead : Scan EnqueueStatus := do
  recordActivationBaselineExistingHead settings pull
  skipProcessedHead settings pull

/-- The draft of a finishing touch is made at once, and its job is only a record. -/
def draftFinishingTouch (queued : Queue.EnqueueResult) : Scan EnqueueStatus :=
  match queued with
  | .alreadyQueued _ => return .already_queued
  | .enqueued job => do
    updateReviewQueueJobState settings {
      jobId := job.jobId
      state := .commandRecorded
      lastError := some "manual_command_finishing_touch_draft_recorded" }
    let status ← callReview answers.reviewPull
    return if status = .skipped_stale_head then .skipped_stale_head else .skipped_finishing_touch_draft

def EnqueueResult.status : Queue.EnqueueResult → EnqueueStatus
  | .enqueued _ => .enqueued
  | .alreadyQueued _ => .already_queued

def EnqueueResult.isEnqueued (result : Queue.EnqueueResult) : Bool := EnqueueResult.status result = .enqueued

def isFinishingTouchCommandAction : ProcessedCommandAction → Bool
  | .finishingTouch _ => true
  | .review | .reReview | .requestChanges | .explain | .stop => false

def admitCommand (command : Commands.ReviewCommand) (shouldReview : Bool) : Scan EnqueueStatus := do
  let queued ← enqueueReviewJob settings pull answers (some command) shouldReview
  onlyIf (command.action = .requestChanges)
    (ask (.recordProcessedCommand (settings.headOf pull) command.commentId command.author))
  recordReadinessForEnqueue settings pull (some command)
  if isFinishingTouchCommandAction command.action then draftFinishingTouch settings pull answers queued
  else
    onlyIf (EnqueueResult.isEnqueued queued && shouldReview)
      (syncReviewStatusComment settings pull.toPullRequestSummary .queued none)
    return EnqueueResult.status queued

def enqueueCommand (command : Commands.ReviewCommand) (shouldReview : Bool) : Scan EnqueueStatus := do
  onlyIf shouldReview (retireSupersededQueueJobsForPull settings pull)
  admitCommand settings pull answers command shouldReview

def unresolvedAuthorization : Scan (Option ReviewEventAuthorizationConsumptionRecord) :=
  if isHeadSha pull.headSha then
    callStore fun s => (getReviewEventAuthorizationConsumption (settings.headOf pull) s).map fun row => (row, s)
  else return none

/-- An incident that is neither posted over nor settled. -/
def openIncident (row : ReviewEventAuthorizationConsumptionRecord) : Option String :=
  if row.postedAt.isNone && row.terminalAt.isNone then truthy row.incidentError else none

def skipIncident (row : ReviewEventAuthorizationConsumptionRecord) : Scan EnqueueStatus := do
  recordReadinessTransition settings {
    head := settings.headOf pull
    state := .failed
    reason := openIncident row
    commandAction := some .requestChanges
    commandCommentId := row.incidentCommentId }
  return .skipped_processed

def deferredDetails : String :=
  "Repo review queue capacity is full for this repo (limit " ++ toString settings.queueLimit ++ ")."

/-- `skip` is terminal for the head. -/
def skipOverflow : Scan EnqueueStatus := do
  change (recordProcessed { head := settings.headOf pull, status := .skipped, error := some "repo_queue_capacity_full" }
    settings.now)
  recordReadinessTransition settings
    { head := settings.headOf pull, state := .skipped, reason := some "repo_queue_capacity_full" }
  syncReviewStatusComment settings pull.toPullRequestSummary .skipped
    (some (deferredDetails settings ++ " Repo policy skips excess burst heads."))
  return .skipped_capacity

/-- `defer` keeps the head eligible. -/
def deferOverflow : Scan EnqueueStatus := do
  let deferred ← look (isCapacityDeferredReadiness (settings.headOf pull))
  if deferred then return .skipped_capacity
  else
    recordReadinessTransition settings
      { head := settings.headOf pull, state := .providerDeferred, reason := some "repo_queue_capacity_full" }
    syncReviewStatusComment settings pull.toPullRequestSummary .provider_deferred (some (deferredDetails settings))
    return .skipped_capacity

def overflow : Scan EnqueueStatus :=
  if settings.overflowAction.getD .defer = .skip then skipOverflow settings pull else deferOverflow settings pull

def EnqueueResult.job : Queue.EnqueueResult → ReviewQueueJobRecord
  | .enqueued job => job
  | .alreadyQueued job => job

def deferToCooldown (cooldown : Job.RepoProviderCooldown) : Scan EnqueueStatus := do
  let queued ← enqueueReviewJob settings pull answers none true
  updateReviewQueueJobState settings {
    jobId := (EnqueueResult.job queued).jobId
    state := .providerDeferred
    nextEligibleAt := some (.other cooldown.cooldownUntil)
    lastError := some ("repo_provider_cooldown_until=" ++ cooldown.cooldownUntil ++ "; reason=" ++ cooldown.reason) }
  recordReadinessTransition settings
    { head := settings.headOf pull, state := .providerDeferred, reason := some "repo_provider_cooldown_active" }
  onlyIf (EnqueueResult.isEnqueued queued) (syncReviewStatusComment settings pull.toPullRequestSummary
    .provider_deferred (some "Provider cooldown is active for this repo."))
  return .provider_deferred

def deferAutomaticStatusComments (s : State) : Bool :=
  settings.baseMergeOnlySkipEnabled &&
  !(settings.baseMergeOnlySkipExcludeRepos.any fun slug =>
    settings.texts.toLowerCase slug = settings.texts.toLowerCase settings.repo) &&
  (getBaseMergeOnlyAnchor s settings.repo pull.number).isSome

def enqueueAutomatically : Scan EnqueueStatus := do
  let enqueued ← enqueueReviewJob settings pull answers none true
  recordReadinessForEnqueue settings pull none
  let deferred ← look (deferAutomaticStatusComments settings pull)
  onlyIf (EnqueueResult.isEnqueued enqueued && !deferred)
    (syncReviewStatusComment settings pull.toPullRequestSummary .queued none)
  return EnqueueResult.status enqueued

/-- An unprocessed head without an unfinished job. -/
def admitHead : Scan EnqueueStatus := do
  let hasCapacity ← look (hasRepoQueueCapacity settings.repo settings.queueLimit)
  if !hasCapacity then overflow settings pull
  else match answers.repoCooldown with
    | some cooldown => deferToCooldown settings pull answers cooldown
    | none => enqueueAutomatically settings pull answers

def repairProcessedHead : Scan EnqueueStatus := do
  backfillReadinessFromProcessedHead settings pull
  ask (.repairProcessedHeadStatusComment (settings.headOf pull))
  return .skipped_processed

def skipQueuedHead (activeQueueJob : ReviewQueueJobRecord) : Scan EnqueueStatus := do
  backfillReadinessFromActiveQueueJob settings pull activeQueueJob
  return .already_queued

/-- A head that no open incident holds back. -/
def passAuthorization (processed : Option StoredProcessedReviewRecord) : Scan EnqueueStatus := do
  let known ← look fun s => hasProcessed s (settings.headOf pull)
  if processed.isSome || known then repairProcessedHead settings pull
  else
    let activeQueueJob ← look (getActiveQueueJobForHead (settings.headOf pull))
    match activeQueueJob with
    | some job => skipQueuedHead settings pull job
    | none => admitHead settings pull answers

/-- The head without a command. -/
def lookAtHead (processed : Option StoredProcessedReviewRecord) : Scan EnqueueStatus := do
  let authorization ← unresolvedAuthorization settings pull
  match authorization.filter fun row => (openIncident row).isSome with
  | some row => skipIncident settings pull row
  | none => passAuthorization settings pull answers processed

/-- The jobs of older heads are retired first. -/
def superseding (rest : Scan EnqueueStatus) : Scan EnqueueStatus := do
  retireSupersededQueueJobsForPull settings pull
  rest

def passBaseline (processed : Option StoredProcessedReviewRecord) : Scan EnqueueStatus :=
  match answers.decision with
  | .act command shouldReview => enqueueCommand settings pull answers command shouldReview
  | .none => superseding settings pull (lookAtHead settings pull answers processed)

def discoverEligible : Scan EnqueueStatus := do
  let processed ← look fun s => getProcessedReview s (settings.headOf pull)
  let preActivation ← look (isPreActivationExistingPull settings pull answers)
  if !settings.allowActivationBaselineCommandLookup && processed.isNone && preActivation then
    superseding settings pull (skipBaselineHead settings pull)
  else if !settings.allowActivationBaselineCommandLookup &&
      processed.any (fun row => isActivationBaselineProcessedReview row.status row.error) then
    superseding settings pull (skipProcessedHead settings pull)
  else passBaseline settings pull answers processed

def enqueuePullIfEligible : Scan EnqueueStatus := do
  if Job.isClosedPull pull.toPullRequestSummary then
    retireQueuedJobsForClosedPull settings pull
    return .closed_retired
  else
    markSupersededReadinessRowsForPull settings pull
    if settings.skipDrafts && pull.draft then skipWithReadiness settings pull "draft_pr" .skipped_draft
    else if !settings.isCanaryAllowed pull.number then skipWithReadiness settings pull "canary_policy" .skipped_canary
    else discoverEligible settings pull answers

end

/-! ## The scan -/

structure Scanned (settings : ScanSettings) where
  pull : OpenPull
  answers : PullAnswers (settings.headOf pull)

/-- The loop over the admitted pulls. -/
def scanPulls (settings : ScanSettings) : List (Scanned settings) → Scan (List EnqueueStatus)
  | [] => return []
  | scanned :: rest => do
    let status ← enqueuePullIfEligible settings scanned.pull scanned.answers
    let statuses ← scanPulls settings rest
    return status :: statuses

end NeonDiff.Discovery
