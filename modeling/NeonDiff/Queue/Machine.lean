import NeonDiff.Lib.Program
import NeonDiff.Lease.Model

/-! # Processes over the review queue

Each call is one statement or one transaction of the store. An enqueue and the reconciliation of failed jobs are
several calls, and other processes run between them.
-/

namespace NeonDiff.Queue

open NeonDiff.Lib NeonDiff.Lib.JsText NeonDiff.Store NeonDiff.Lease

/-! ## Calls -/

/-- What JavaScript and the redactor make of texts. -/
structure Texts where
  toLowerCase : String → String
  dateParse : String → Option Int
  redactSecrets : String → String

/-- The text of a `randomUUID()`: hexadecimal digits and dashes, so no colon. -/
structure Uuid where
  text : String
  plain : ':' ∉ text.toList

inductive QueueCall where
  | getByAttempt (attemptId : String)
  | getActiveRetry (attemptId : String)
  | insert (job : ReviewQueueJobRecord)
  | update (input : UpdateJobInput) (now : Int)
  | updatePriority (jobId : String) (priority : Int) (now : Int)
  | leaseNext (input : LeaseInput) (uuid : Nat → String) (now : Int)
  | clearLeases (input : ClearLeasesInput) (staleRunLeaseIds : List String) (now : Int)
  | retireFailed (head : HeadKey) (retiredError : String) (now : Int)
  | listFailed
  | getProcessed (head : HeadKey)

/-- What a call answers; a call that can throw answers the text of the exception. -/
abbrev QueueAnswer : QueueCall → Type
  | .getByAttempt _ => Option ReviewQueueJobRecord
  | .getActiveRetry _ => Option ReviewQueueJobRecord
  | .insert _ => Except String Unit
  | .update .. => Except String Unit
  | .updatePriority .. => Except String Unit
  | .leaseNext .. => Except String (List ReviewQueueJobRecord)
  | .clearLeases .. => Except String Nat
  | .retireFailed .. => Unit
  | .listFailed => List ReviewQueueJobRecord
  | .getProcessed _ => Option StoredProcessedReviewRecord

/-- A job's new priority; the update touches nothing else but its time. -/
def prioritized (priority now : Int) (j : ReviewQueueJobRecord) : ReviewQueueJobRecord :=
  { j with priority := priority, updatedAt := now }

def updateReviewQueueJobPriority (jobId : String) (priority now : Int) (s : State) : Outcome Unit :=
  match s.jobs.toTable.find? jobId with
  | none => .error ("No review queue job for jobId " ++ jobId)
  | some job =>
    match validateReviewQueueInput job.head (some priority) (mapReviewQueueJobRow job).commentId with
    | .error e => .error e
    | .ok () => .ok ((), { s with
        jobs := s.jobs.updateJobs (fun j => if j.jobId = jobId then prioritized priority now j else j)
          (fun j => by split <;> rfl) (fun j => by split <;> rfl) })

/-- A call that throws answers the exception and leaves the store as it was. -/
def settle {α : Type} (outcome : Outcome α) (s : State) : Except String α × State :=
  match outcome with
  | .error e => (.error e, s)
  | .ok (a, s') => (.ok a, s')

def QueueCall.exec (texts : Texts) : (act : QueueCall) → State → QueueAnswer act × State
  | .getByAttempt attemptId, s => (getReviewQueueJobByAttemptId s attemptId, s)
  | .getActiveRetry attemptId, s => (getActiveReviewQueueRetryJobByAttemptId s attemptId, s)
  | .insert job, s => settle (insertReviewQueueJob job s) s
  | .update input now, s => settle (updateReviewQueueJobState texts.redactSecrets input now s) s
  | .updatePriority jobId priority now, s => settle (updateReviewQueueJobPriority jobId priority now s) s
  | .leaseNext input uuid now, s =>
    settle (leaseNextReviewQueueJobs texts.toLowerCase texts.dateParse uuid input now s) s
  | .clearLeases input staleRunLeaseIds now, s => settle (clearReviewQueueLeases input staleRunLeaseIds now s) s
  | .retireFailed head retiredError now, s => ((), retireFailedReviewQueueJobs head retiredError now s)
  | .listFailed, s => ((listReviewQueueJobs s).filter fun j => j.state = .failed, s)
  | .getProcessed head, s => (getProcessedReview s head, s)

abbrev QueueProg (α : Type) := Prog QueueAnswer String α

/-! ## Programs -/

/-- A call whose exception ends the program. -/
def orThrow {α β : Type} (k : α → QueueProg β) : Except String α → QueueProg β
  | .ok a => k a
  | .error e => .fail e

inductive EnqueueResult where
  | enqueued (job : ReviewQueueJobRecord)
  | alreadyQueued (job : ReviewQueueJobRecord)
  deriving DecidableEq, Repr

structure EnqueueIds where
  jobId : Uuid
  manual : Uuid
  retry : Uuid

/-- Two reads and an insert, with no transaction around them. -/
def enqueueReviewQueueJob (input : EnqueueInput) (ids : EnqueueIds) (now : Int) : QueueProg EnqueueResult :=
  match validateReviewQueueInput input.head input.priority input.commentId with
  | .error e => .fail e
  | .ok () =>
    let attemptId := input.attemptId.getD (buildReviewQueueAttemptId input ids.manual.text)
    let insertAs (queueAttemptId : String) : QueueProg EnqueueResult :=
      let job := input.job ids.jobId.text queueAttemptId now
      .call (.insert job) (orThrow fun _ => .done (.enqueued (mapReviewQueueJobRow job)))
    .call (.getByAttempt attemptId) fun
      | none => insertAs attemptId
      | some existing =>
        if !existing.state.isTerminal then .done (.alreadyQueued existing)
        else .call (.getActiveRetry attemptId) fun
          | some existingRetry => .done (.alreadyQueued existingRetry)
          | none => insertAs (afterTerminalPrefix attemptId ++ ids.retry.text)

structure Reconciled where
  providerDeferred : Nat := 0
  staleRetired : Nat := 0
  deriving DecidableEq, Repr

/-- The loop over the failed jobs. -/
def reconcileJobs (now : Int) : List ReviewQueueJobRecord → Reconciled → QueueProg Reconciled
  | [], result => .done result
  | job :: rest, result =>
    if job.lastError ≠ some "processed_head_already_skipped" then reconcileJobs now rest result
    else .call (.getProcessed job.head) fun processed =>
      match processed.filter (·.status = .skipped) with
      | none => reconcileJobs now rest result
      | some row => match parseProviderCooldownError row.error with
        | some providerCooldown =>
          .call (.update {
            jobId := job.jobId
            state := .providerDeferred
            nextEligibleAt := some (.other providerCooldown.cooldownUntil)
            lastError := row.error } now)
            (orThrow fun _ => reconcileJobs now rest { result with providerDeferred := result.providerDeferred + 1 })
        | none =>
          .call (.update {
            jobId := job.jobId
            state := .staleRetired
            lastError := some (if row.error = some baseMergeOnly then baseMergeOnly
              else "processed_head_already_skipped_reconciled") } now)
            (orThrow fun _ => reconcileJobs now rest { result with staleRetired := result.staleRetired + 1 })

def reconcileProcessedSkippedFailedQueueJobs (now : Int) : QueueProg Reconciled :=
  .call .listFailed fun jobs => reconcileJobs now jobs {}

/-! ## What an enqueue has read -/

/-- The reads of the enqueue that a process is in. -/
inductive Phase where
  | idle
  | sawBase (attemptId : String) (existing : Option ReviewQueueJobRecord)
  | sawRetry (attemptId : String) (existing : ReviewQueueJobRecord) (retry : Option ReviewQueueJobRecord)

/-- Jobs are inserted by enqueues only: under a free attempt id, or as a retry of a terminal job that has no
unfinished retry, as far as the reads say. Any process may make any other call at any time. -/
def enqueueDiscipline : Discipline QueueAnswer Phase where
  allows
    | .sawBase attemptId none, .insert job => job.state = .queued ∧ job.attemptId = attemptId
    | .sawRetry attemptId existing none, .insert job => job.state = .queued ∧ existing.state.isTerminal = true ∧
        ∃ uuid : Uuid, job.attemptId = afterTerminalPrefix attemptId ++ uuid.text
    | _, .insert _ => False
    | _, _ => True
  next
    | _, .getByAttempt attemptId, existing => .sawBase attemptId existing
    | .sawBase attemptId (some existing), .getActiveRetry attemptId', retry =>
        if attemptId' = attemptId then .sawRetry attemptId existing retry else .idle
    | _, _, _ => .idle

/-! ## The shared state -/

/-- The store, and what each process has read. -/
structure Shared (ι : Type) where
  store : State
  phase : ι → Phase

/-- Between the calls the rest of the program rewrites the processed rows. -/
def queueSemantics {ι : Type} [DecidableEq ι] (texts : Texts) :
    Semantics QueueAnswer ι (Shared ι) Unit (Table StoredProcessedReviewRecord.key) where
  exec i act _ s :=
    let (answer, store) := act.exec texts s.store
    some (answer, ⟨store, Function.update s.phase i (enqueueDiscipline.next (s.phase i) act answer)⟩)
  ambient processed s := some { s with store := { s.store with processed := processed } }

end NeonDiff.Queue
