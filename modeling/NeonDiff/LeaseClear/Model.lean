import Mathlib.Data.List.Sort
import NeonDiff.Lib.IsoDate
import NeonDiff.Lib.Table
import NeonDiff.Store.Types

/-! # Clearing queue leases by hand

Time columns are texts here, since rows whose times cannot be read are cleared too.
-/

namespace NeonDiff.LeaseClear

open NeonDiff.Lib NeonDiff.Lib.IsoDate NeonDiff.Store

/-! ## Rows -/

/-- A row of `review_queue_jobs`; `rest` holds the columns that clearing neither reads nor writes. -/
structure QueueJobRow (Rest : Type) where
  jobId : String
  repo : String
  pullNumber : Int
  priority : Int
  state : ReviewQueueJobState
  leaseId : Option String
  leaseExpiresAt : Option String
  lastError : Option String
  createdAt : String
  updatedAt : String
  rest : Rest
  deriving DecidableEq, Repr

structure RunLeaseRow where
  leaseId : String
  expiresAt : String
  ownerPid : Option Int
  deriving DecidableEq, Repr

structure LeaseStore (Rest : Type) where
  jobs : Table (@QueueJobRow.jobId Rest)
  runLeases : Table RunLeaseRow.leaseId

/-- What the call asks of the world: how dates are read, and which processes run. -/
structure Host where
  /-- `Date.parse`; nothing stands for `NaN`. -/
  dateParse : String → Option Int
  /-- SQLite's `datetime`, in seconds. -/
  datetime : String → Option Int
  isProcessAlive : Int → Bool

structure ClearInput where
  leaseTtlMs : Int := 900000
  expiredOnly : Bool := true
  dryRun : Bool := true
  repo : Option String := none
  pullNumber : Option Int := none
  jobId : Option String := none
  forceActive : Bool := false
  deriving DecidableEq, Repr

inductive RunLeaseStaleReason where
  | expired
  | owner_not_running
  deriving DecidableEq, Repr

structure ReviewRunLeaseClearCandidate where
  leaseId : String
  expiresAt : String
  ownerPid : Int
  expired : Bool
  ownerAlive : Bool
  staleReason : Option RunLeaseStaleReason
  deriving DecidableEq, Repr

inductive JobStaleReason where
  | expired
  | missing_lease_expiry
  | forced_active
  deriving DecidableEq, Repr

def JobStaleReason.text : JobStaleReason → String
  | .expired => "expired"
  | .missing_lease_expiry => "missing_lease_expiry"
  | .forced_active => "forced_active"

structure ReviewQueueLeaseClearCandidate (Rest : Type) where
  job : QueueJobRow Rest
  expired : Bool
  active : Bool
  staleReason : Option JobStaleReason
  deriving DecidableEq, Repr

structure ClearResult (Rest : Type) where
  checkedAt : String
  expiredOnly : Bool
  dryRun : Bool
  repo : Option String
  pullNumber : Option Int
  jobId : Option String
  matched : Int
  expiredMatched : Int
  activeMatched : Int
  requeued : Nat
  deletedRunLeases : Nat
  jobs : List (ReviewQueueLeaseClearCandidate Rest)
  runLeases : List ReviewRunLeaseClearCandidate
  deriving DecidableEq, Repr

/-! ## Run leases -/

/-- SQLite sorts a null before every number. -/
def nullsFirst (a b : Option Int) : Bool :=
  match a, b with
  | none, _ => true
  | some _, none => false
  | some a, some b => a ≤ b

section
variable (host : Host)

/-- A time that cannot be read, or that has come; an unreadable check time has nothing come. -/
def passed (checkedAtMs : Option Int) (time : Option Int) : Bool :=
  match time with
  | none => true
  | some ms => checkedAtMs.any (ms ≤ ·)

def runLeaseCandidate (checkedAt : String) (row : RunLeaseRow) : ReviewRunLeaseClearCandidate :=
  let expired := passed (host.dateParse checkedAt) (host.dateParse row.expiresAt)
  let ownerAlive := row.ownerPid.any host.isProcessAlive
  { leaseId := row.leaseId
    expiresAt := row.expiresAt
    ownerPid := row.ownerPid.getD 0
    expired := expired
    ownerAlive := ownerAlive
    staleReason := if !ownerAlive then some .owner_not_running else if expired then some .expired else none }

variable {Rest : Type}

def listReviewRunLeaseClearCandidates (checkedAt : String) (s : LeaseStore Rest) : List ReviewRunLeaseClearCandidate :=
  (s.runLeases.rows.insertionSort fun a b => nullsFirst (host.datetime a.expiresAt) (host.datetime b.expiresAt)).map
    (runLeaseCandidate host checkedAt)

/-! ## Jobs -/

def isActive (row : QueueJobRow Rest) : Bool := row.state = .leased || row.state = .running

/-- `mapReviewQueueJobRow`: empty texts read back as absent. -/
def mapReviewQueueJobRow (row : QueueJobRow Rest) : QueueJobRow Rest :=
  { row with
    leaseId := truthy row.leaseId, leaseExpiresAt := truthy row.leaseExpiresAt, lastError := truthy row.lastError }

/-- `listReviewQueueJobs({ states: ["leased", "running"] })`. -/
def listActiveReviewQueueJobs (s : LeaseStore Rest) : List (QueueJobRow Rest) :=
  ((s.jobs.rows.filter isActive).insertionSort fun a b =>
    a.priority < b.priority ∨ a.priority = b.priority ∧ nullsFirst (host.datetime a.createdAt) (host.datetime b.createdAt)).map
    mapReviewQueueJobRow

/-- The filters of the call: an empty text filters nothing. -/
def inScope (input : ClearInput) (job : QueueJobRow Rest) : Bool :=
  (truthy input.repo).all (job.repo = ·) && input.pullNumber.all (job.pullNumber = ·) &&
    (truthy input.jobId).all (job.jobId = ·)

/-- The expiry has passed, or the job has none and was not updated for a whole TTL. -/
def expiredByLeaseExpiry (input : ClearInput) (checkedAtMs : Option Int) (job : QueueJobRow Rest) : Bool :=
  match job.leaseExpiresAt with
  | some leaseExpiresAt => passed checkedAtMs (host.dateParse leaseExpiresAt)
  | none => passed (checkedAtMs.map (· - input.leaseTtlMs)) (host.dateParse job.updatedAt)

def jobCandidate (input : ClearInput) (checkedAtMs : Option Int) (staleRunLeaseIds : List String)
    (job : QueueJobRow Rest) : ReviewQueueLeaseClearCandidate Rest :=
  let byExpiry := expiredByLeaseExpiry host input checkedAtMs job
  let byRunLease := job.leaseId.any (staleRunLeaseIds.contains ·)
  let expired := byExpiry || byRunLease
  { job := job
    expired := expired
    active := !expired
    staleReason :=
      if job.leaseExpiresAt.isNone && byExpiry then some .missing_lease_expiry
      else if expired then some .expired
      else if input.forceActive && !input.expiredOnly then some .forced_active
      else none }

def listReviewQueueLeaseClearCandidates (input : ClearInput) (checkedAtMs : Option Int) (staleRunLeaseIds : List String)
    (s : LeaseStore Rest) : List (ReviewQueueLeaseClearCandidate Rest) :=
  (((listActiveReviewQueueJobs host s).filter (inScope input)).map
    (jobCandidate host input checkedAtMs staleRunLeaseIds)).filter
    fun candidate => candidate.expired || (!input.expiredOnly && input.forceActive)

/-! ## The call -/

def requeuedRow (checkedAt : String) (candidate : ReviewQueueLeaseClearCandidate Rest) (row : QueueJobRow Rest) :
    QueueJobRow Rest :=
  { row with
    state := .queued
    leaseId := none
    leaseExpiresAt := none
    lastError := some ("queue_lease_operator_requeued:" ++ (candidate.staleReason.map JobStaleReason.text).getD "matched")
    updatedAt := checkedAt }

/-- `update … where job_id = ? and state in ('leased', 'running')`, and its number of changes. -/
def requeueJob (checkedAt : String) (done : Table (@QueueJobRow.jobId Rest) × Nat)
    (candidate : ReviewQueueLeaseClearCandidate Rest) : Table (@QueueJobRow.jobId Rest) × Nat :=
  (done.1.update (fun row =>
      if row.jobId = candidate.job.jobId ∧ isActive row = true then requeuedRow checkedAt candidate row else row)
      (fun row => by split <;> rfl),
    done.2 + done.1.rows.countP fun row => row.jobId = candidate.job.jobId ∧ isActive row = true)

/-- `delete from review_run_leases where lease_id = ?`, and its number of changes. -/
def deleteRunLease (done : Table RunLeaseRow.leaseId × Nat) (lease : ReviewRunLeaseClearCandidate) :
    Table RunLeaseRow.leaseId × Nat :=
  (done.1.delete fun row => row.leaseId = lease.leaseId, done.2 + done.1.rows.countP fun row => row.leaseId = lease.leaseId)

/-- The run leases in the scope of the call: those of the matched jobs where the call has a filter. -/
def scopedRunLeases (input : ClearInput) (jobs : List (ReviewQueueLeaseClearCandidate Rest))
    (staleRunLeases : List ReviewRunLeaseClearCandidate) : List ReviewRunLeaseClearCandidate :=
  if (truthy input.repo).isSome || input.pullNumber.isSome || (truthy input.jobId).isSome then
    staleRunLeases.filter fun lease => (jobs.filterMap fun candidate => candidate.job.leaseId).contains lease.leaseId
  else staleRunLeases

/-- `now` is a valid date. -/
def clearReviewQueueLeases (input : ClearInput) (now : Int) (s : LeaseStore Rest) :
    Except String (ClearResult Rest × LeaseStore Rest) :=
  let checkedAt := toISOString now
  if input.leaseTtlMs < 1 then .error "leaseTtlMs must be a positive integer"
  else
    let staleRunLeases := (listReviewRunLeaseClearCandidates host checkedAt s).filter fun lease => lease.staleReason.isSome
    let jobs := listReviewQueueLeaseClearCandidates host input (host.dateParse checkedAt)
      (staleRunLeases.map ReviewRunLeaseClearCandidate.leaseId) s
    let runLeases := scopedRunLeases input jobs staleRunLeases
    let matched : Int := jobs.length + runLeases.length
    let expiredMatched : Int := (jobs.filter fun candidate => candidate.expired).length + runLeases.length
    let requeued := if input.dryRun then (s.jobs, 0) else jobs.foldl (requeueJob checkedAt) (s.jobs, 0)
    let deleted := if input.dryRun then (s.runLeases, 0) else runLeases.foldl deleteRunLease (s.runLeases, 0)
    .ok
      ({ checkedAt := checkedAt
         expiredOnly := input.expiredOnly
         dryRun := input.dryRun
         repo := truthy input.repo
         pullNumber := input.pullNumber
         jobId := truthy input.jobId
         matched := matched
         expiredMatched := expiredMatched
         activeMatched := matched - expiredMatched
         requeued := requeued.2
         deletedRunLeases := deleted.2
         jobs := jobs
         runLeases := runLeases },
       { jobs := requeued.1, runLeases := deleted.1 })

end

end NeonDiff.LeaseClear
