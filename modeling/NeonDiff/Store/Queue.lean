import NeonDiff.Store.Authorization
import Mathlib.Data.List.Sort

/-! # The review queue: reading, enqueueing and updating jobs -/

namespace NeonDiff.Store

open NeonDiff.Lib NeonDiff.Lib.JsText

/-! ## The job table -/

namespace JobTable

/-- `update review_queue_jobs set f`, for an `f` that leaves both identities alone. -/
def updateJobs (t : JobTable) (f : ReviewQueueJobRecord → ReviewQueueJobRecord) (hid : ∀ j, (f j).jobId = j.jobId)
    (hattempt : ∀ j, (f j).attemptId = j.attemptId) : JobTable where
  toTable := t.toTable.update f hid
  attempts := by
    rw [show (t.toTable.update f hid).rows = t.rows.map f from rfl, List.map_map,
      show ReviewQueueJobRecord.attemptId ∘ f = ReviewQueueJobRecord.attemptId from funext hattempt]
    exact t.attempts

/-- `where attempt_id = ?`. -/
def byAttempt? (t : JobTable) (attemptId : String) : Option ReviewQueueJobRecord :=
  t.rows.find? fun j => j.attemptId = attemptId

/-- `insert into review_queue_jobs`: a taken job id or attempt id is a constraint violation. -/
def insertJob? (t : JobTable) (job : ReviewQueueJobRecord) : Option JobTable :=
  if hid : t.toTable.find? job.jobId = none then
    if hattempt : t.byAttempt? job.attemptId = none then
      some {
        toTable := t.toTable.append job hid
        attempts := by
          rw [show (t.toTable.append job hid).rows = t.rows ++ [job] from rfl, List.map_append,
            List.map_singleton, List.nodup_append]
          refine ⟨t.attempts, List.nodup_singleton _, ?_⟩
          intro a ha b hb hab
          obtain ⟨j, hj, rfl⟩ := List.mem_map.mp ha
          rw [List.mem_singleton] at hb
          have := List.find?_eq_none.mp hattempt j hj
          simp [hab.trans hb] at this }
    else none
  else none

theorem mem_updateJobs {t : JobTable} {f : ReviewQueueJobRecord → ReviewQueueJobRecord} {hid hattempt}
    {j : ReviewQueueJobRecord} : j ∈ (t.updateJobs f hid hattempt).rows ↔ ∃ i ∈ t.rows, f i = j :=
  Table.mem_update hid

theorem find?_updateJobs (t : JobTable) (f : ReviewQueueJobRecord → ReviewQueueJobRecord) (hid) (hattempt)
    (id : String) : (t.updateJobs f hid hattempt).toTable.find? id = (t.toTable.find? id).map f :=
  Table.find?_update _ _ hid _

theorem eq_of_attemptId_eq (t : JobTable) {i j : ReviewQueueJobRecord} (hi : i ∈ t.rows) (hj : j ∈ t.rows)
    (h : i.attemptId = j.attemptId) : i = j :=
  List.inj_on_of_nodup_map t.attempts hi hj h

theorem byAttempt?_eq_none {t : JobTable} {a : String} :
    t.byAttempt? a = none ↔ ∀ j ∈ t.rows, j.attemptId ≠ a := by
  simp [byAttempt?, List.find?_eq_none]

theorem byAttempt?_eq_some {t : JobTable} {a : String} {j : ReviewQueueJobRecord} :
    t.byAttempt? a = some j ↔ j ∈ t.rows ∧ j.attemptId = a := by
  constructor
  · intro h
    exact ⟨List.mem_of_find?_eq_some h, by simpa using List.find?_some h⟩
  · rintro ⟨hm, rfl⟩
    cases hf : t.byAttempt? j.attemptId with
    | none => exact absurd rfl (byAttempt?_eq_none.mp hf j hm)
    | some i =>
      have hi := List.mem_of_find?_eq_some hf
      have hij : i.attemptId = j.attemptId := by simpa using List.find?_some hf
      rw [t.eq_of_attemptId_eq hi hm hij]

theorem insertJob?_eq_some {t t' : JobTable} {job : ReviewQueueJobRecord} (h : t.insertJob? job = some t') :
    t'.rows = t.rows ++ [job] ∧ (∀ j ∈ t.rows, j.jobId ≠ job.jobId) ∧ ∀ j ∈ t.rows, j.attemptId ≠ job.attemptId := by
  unfold insertJob? at h
  split at h
  · rename_i hid
    split at h
    · rename_i hattempt
      obtain rfl := Option.some.inj h
      exact ⟨rfl, Table.find?_eq_none.mp hid, byAttempt?_eq_none.mp hattempt⟩
    · cases h
  · cases h

end JobTable

/-! ## Reading -/

def getReviewQueueJob (s : State) (jobId : String) : Option ReviewQueueJobRecord :=
  (s.jobs.toTable.find? jobId).map mapReviewQueueJobRow

def getReviewQueueJobByAttemptId (s : State) (attemptId : String) : Option ReviewQueueJobRecord :=
  (s.jobs.byAttempt? attemptId).map mapReviewQueueJobRow

/-- `order by priority asc, datetime(created_at) asc`. -/
abbrev listedBefore (a b : ReviewQueueJobRecord) : Prop :=
  a.priority < b.priority ∨ (a.priority = b.priority ∧ a.createdAt / 1000 ≤ b.createdAt / 1000)

def orderJobs (rows : List ReviewQueueJobRecord) : List ReviewQueueJobRecord := rows.insertionSort listedBefore

def listReviewQueueJobs (s : State) : List ReviewQueueJobRecord := (orderJobs s.jobs.rows).map mapReviewQueueJobRow

def listReviewQueueJobsForPull (s : State) (repo : String) (pullNumber : Nat) : List ReviewQueueJobRecord :=
  (orderJobs (s.jobs.rows.filter fun j => j.repo = repo && j.pullNumber = pullNumber)).map mapReviewQueueJobRow

/-- The attempt id of a retry after a terminal job, up to its uuid. -/
def afterTerminalPrefix (attemptId : String) : String := attemptId ++ ":after-terminal:"

/-- `order by datetime(created_at) desc limit 1`. -/
def latestCreated (rows : List ReviewQueueJobRecord) : Option ReviewQueueJobRecord :=
  (rows.insertionSort fun a b => b.createdAt / 1000 ≤ a.createdAt / 1000).head?

def getActiveReviewQueueRetryJobByAttemptId (s : State) (attemptId : String) : Option ReviewQueueJobRecord :=
  (latestCreated (s.jobs.rows.filter fun j =>
    startsWith j.attemptId (afterTerminalPrefix attemptId) && !j.state.isTerminal)).map mapReviewQueueJobRow

/-! ## Enqueueing -/

structure EnqueueInput where
  head : HeadKey
  baseSha : Option String := none
  source : ReviewQueueJobSource := .automatic
  lane : Option ReviewQueueJobLane := none
  providerId : Option String := none
  priority : Option Int := none
  attemptId : Option String := none
  commentId : Option Nat := none
  sessionId : Option String := none
  deriving DecidableEq, Repr

/-- `manualUuid` is the `randomUUID()` of a manual command without a comment. -/
def buildReviewQueueAttemptId (input : EnqueueInput) (manualUuid : String) : String :=
  let target := input.head.repo ++ "#" ++ toString input.head.pullNumber ++ "@" ++ input.head.headSha
  match input.source with
  | .manualCommand => "manual:" ++ target ++ ":" ++ (input.commentId.elim manualUuid toString)
  | .automatic => "automatic:" ++ target ++ ":base=" ++ input.baseSha.getD "unknown"

def EnqueueInput.laneOf (input : EnqueueInput) : ReviewQueueJobLane :=
  input.lane.getD (if input.source = .manualCommand then .manual else .background)

def EnqueueInput.job (input : EnqueueInput) (jobId attemptId : String) (now : Int) : ReviewQueueJobRecord where
  jobId := jobId
  attemptId := attemptId
  source := input.source
  lane := input.laneOf
  repo := input.head.repo
  org := repoOrg input.head.repo
  pullNumber := input.head.pullNumber
  headSha := input.head.headSha
  baseSha := input.baseSha
  providerId := input.providerId
  priority := input.priority.getD (if input.laneOf = .manual then 10 else 50)
  state := .queued
  sessionId := input.sessionId
  commentId := input.commentId
  createdAt := now
  updatedAt := now

/-- The last of the three statements of `enqueueReviewQueueJob`. -/
def insertReviewQueueJob (job : ReviewQueueJobRecord) (s : State) : Outcome Unit :=
  match s.jobs.insertJob? job with
  | none => .error "UNIQUE constraint failed: review_queue_jobs"
  | some jobs => .ok ((), { s with jobs := jobs })

/-! ## Updating one job -/

structure UpdateJobInput where
  jobId : String
  state : ReviewQueueJobState
  nextEligibleAt : Option DateText := none
  leaseId : Option String := none
  leaseExpiresAt : Option Int := none
  clearLease : Option Bool := none
  sessionId : Option String := none
  reviewUrl : Option String := none
  lastError : Option String := none
  deriving DecidableEq, Repr

/-- Whether the update drops the lease: by default, unless the job stays leased or running. -/
def UpdateJobInput.clearsLease (input : UpdateJobInput) : Bool :=
  input.clearLease.getD (input.state.isTerminal || input.state = .queued || input.state = .providerDeferred ||
    input.state = .blockedOnProof)

/-- The row that `updateReviewQueueJobState` leaves. -/
def updatedJob (redactSecrets : String → String) (input : UpdateJobInput) (now : Int) (j : ReviewQueueJobRecord) :
    ReviewQueueJobRecord :=
  { j with
    state := input.state
    nextEligibleAt := input.nextEligibleAt
    leaseId := if input.clearsLease then none else input.leaseId.orElse fun _ => j.leaseId
    leaseExpiresAt := if input.clearsLease then none else input.leaseExpiresAt.orElse fun _ => j.leaseExpiresAt
    sessionId := input.sessionId.orElse fun _ => j.sessionId
    reviewUrl := input.reviewUrl.orElse fun _ => j.reviewUrl
    lastError := ((truthy input.lastError).map redactSecrets).orElse fun _ => j.lastError
    updatedAt := now
    startedAt := if input.state = .running && j.startedAt.isNone then some now else j.startedAt
    finishedAt := if input.state.isTerminal then some now else j.finishedAt }

/-- Keyed by the job id alone: the lease of the caller plays no part. -/
def updateReviewQueueJobState (redactSecrets : String → String) (input : UpdateJobInput) (now : Int) (s : State) :
    Outcome Unit :=
  match s.jobs.toTable.find? input.jobId with
  | none => .error ("No review queue job for jobId " ++ input.jobId)
  | some _ => .ok ((), { s with
      jobs := s.jobs.updateJobs
        (fun j => if j.jobId = input.jobId then updatedJob redactSecrets input now j else j)
        (fun j => by split <;> rfl) (fun j => by split <;> rfl) })

/-! ## Requeueing and retiring -/

/-- A lease that the lease call takes back: expired, or without an expiry and not updated for a whole TTL.
SQLite compares whole seconds. -/
def leaseExpired (j : ReviewQueueJobRecord) (leaseTtlMs now : Int) : Bool :=
  j.isActive && match j.leaseExpiresAt with
    | some expiresAt => expiresAt / 1000 ≤ now / 1000
    | none => j.updatedAt / 1000 ≤ (now - leaseTtlMs) / 1000

/-- A job taken back from its worker. -/
def requeued (reason : String) (now : Int) (j : ReviewQueueJobRecord) : ReviewQueueJobRecord :=
  { j with state := .queued, leaseId := none, leaseExpiresAt := none, lastError := some reason, updatedAt := now }

def requeueExpiredLeases (leaseTtlMs now : Int) (jobs : JobTable) : JobTable :=
  jobs.updateJobs (fun j => if leaseExpired j leaseTtlMs now then requeued "queue_lease_expired_requeued" now j else j)
    (fun j => by split <;> rfl) (fun j => by split <;> rfl)

structure ClearLeasesInput where
  leaseTtlMs : Int := 900000
  expiredOnly : Bool := true
  dryRun : Bool := true
  repo : Option String := none
  pullNumber : Option Nat := none
  jobId : Option String := none
  forceActive : Bool := false
  deriving DecidableEq, Repr

inductive LeaseStaleReason where
  | missingLeaseExpiry | expired | forcedActive
  deriving DecidableEq, Repr

def LeaseStaleReason.text : LeaseStaleReason → String
  | .missingLeaseExpiry => "missing_lease_expiry"
  | .expired => "expired"
  | .forcedActive => "forced_active"

/-- Why an operator call takes the job, if it does; `staleRunLeaseIds` are the dead or expired run leases.
Here JavaScript compares milliseconds. -/
def clearCandidate (input : ClearLeasesInput) (staleRunLeaseIds : List String) (now : Int)
    (j : ReviewQueueJobRecord) : Option LeaseStaleReason :=
  let byExpiry := match j.leaseExpiresAt with
    | some expiresAt => expiresAt ≤ now
    | none => j.updatedAt ≤ now - input.leaseTtlMs
  let expired := byExpiry || (truthy j.leaseId).any (staleRunLeaseIds.contains ·)
  if !j.isActive || (truthy input.repo).any (j.repo ≠ ·) || input.pullNumber.any (j.pullNumber ≠ ·) ||
      (truthy input.jobId).any (j.jobId ≠ ·) then none
  else if j.leaseExpiresAt.isNone && byExpiry then some .missingLeaseExpiry
  else if expired then some .expired
  else if input.forceActive && !input.expiredOnly then some .forcedActive
  else none

def clearReviewQueueLeases (input : ClearLeasesInput) (staleRunLeaseIds : List String) (now : Int) (s : State) :
    Outcome Nat :=
  if input.leaseTtlMs < 1 then .error "leaseTtlMs must be a positive integer"
  else if input.dryRun then .ok (0, s)
  else .ok ((s.jobs.rows.filter fun j => (clearCandidate input staleRunLeaseIds now j).isSome).length, { s with
    jobs := s.jobs.updateJobs
      (fun j => match clearCandidate input staleRunLeaseIds now j with
        | some reason => requeued ("queue_lease_operator_requeued:" ++ reason.text) now j
        | none => j)
      (fun j => by split <;> rfl) (fun j => by split <;> rfl) })

def retireFailedReviewQueueJobs (head : HeadKey) (retiredError : String) (now : Int) (s : State) : State :=
  { s with
    jobs := s.jobs.updateJobs
      (fun j => if j.head = head ∧ j.state = .failed then
        { j with
          state := .staleRetired, leaseId := none, leaseExpiresAt := none, lastError := some retiredError
          updatedAt := now, finishedAt := j.finishedAt.orElse fun _ => some now } else j)
      (fun j => by split <;> rfl) (fun j => by split <;> rfl) }

end NeonDiff.Store
