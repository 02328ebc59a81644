import NeonDiff.Lib.Admission
import NeonDiff.Lib.Checked
import NeonDiff.Store.Queue

/-! # Leasing the next review queue jobs -/

namespace NeonDiff.Lease

open NeonDiff.Lib NeonDiff.Lib.JsText NeonDiff.Store

/-! ## Limits -/

/-- What a caller says about a job that it holds back for itself. -/
structure ReservedActiveJob where
  jobId : String
  providerId : Option String
  org : String
  repo : String
  pullNumber : Nat
  headSha : String
  deriving DecidableEq, Repr

structure Aging where
  enabled : Bool
  maxWaitMinutes : Int
  deriving DecidableEq, Repr

structure LeaseInput where
  maxGlobalActive : Option Int := none
  maxProviderActive : Int
  maxOrgActive : Int
  maxRepoActive : Int
  maxRepoActiveByRepo : List (String × Int) := []
  manualCommandReserve : Option Int := none
  excludeJobIds : List String := []
  reservedActiveJobs : List ReservedActiveJob := []
  limit : Option Int := none
  leaseTtlMs : Option Int := none
  aging : Option Aging := none
  deriving DecidableEq, Repr

/-- The limits with their defaults, once the validations passed. -/
structure LeaseLimits where
  maxProviderActive : Int
  maxGlobalActive : Int
  maxOrgActive : Int
  maxRepoActive : Int
  maxRepoActiveByRepo : String → Option Int
  manualCommandReserve : Int
  limit : Int
  leaseTtlMs : Int

def validatePositiveQueueLimit (value : Int) (label : String) : Except String Unit :=
  require (1 ≤ value) (label ++ " must be a positive integer")

section
variable (lower : String → String)

/-- The override map; of two names that differ in case only, the later one counts. -/
def normalizeRepoActiveLimitOverrides : List (String × Int) → (String → Option Int) →
    Except String (String → Option Int)
  | [], result => .ok result
  | (repo, limit) :: rest, result => do
    validateRepoName repo "maxRepoActiveByRepo"
    validatePositiveQueueLimit limit ("maxRepoActiveByRepo." ++ repo)
    normalizeRepoActiveLimitOverrides rest fun k => if k = lower repo then some limit else result k

def LeaseInput.limits (input : LeaseInput) : Except String LeaseLimits := do
  validatePositiveQueueLimit input.maxProviderActive "maxProviderActive"
  let maxGlobalActive := input.maxGlobalActive.getD input.maxProviderActive
  validatePositiveQueueLimit maxGlobalActive "maxGlobalActive"
  validatePositiveQueueLimit input.maxOrgActive "maxOrgActive"
  validatePositiveQueueLimit input.maxRepoActive "maxRepoActive"
  let maxRepoActiveByRepo ← normalizeRepoActiveLimitOverrides lower input.maxRepoActiveByRepo fun _ => none
  let manualCommandReserve := input.manualCommandReserve.getD 0
  require (0 ≤ manualCommandReserve) "manualCommandReserve must be a non-negative integer"
  require (manualCommandReserve ≤ input.maxProviderActive) "manualCommandReserve must be <= maxProviderActive"
  require (manualCommandReserve ≤ maxGlobalActive) "manualCommandReserve must be <= maxGlobalActive"
  let limit := input.limit.getD input.maxProviderActive
  validatePositiveQueueLimit limit "limit"
  let leaseTtlMs := input.leaseTtlMs.getD (15 * 60000)
  validatePositiveQueueLimit leaseTtlMs "leaseTtlMs"
  return {
    maxProviderActive := input.maxProviderActive
    maxGlobalActive := maxGlobalActive
    maxOrgActive := input.maxOrgActive
    maxRepoActive := input.maxRepoActive
    maxRepoActiveByRepo := maxRepoActiveByRepo
    manualCommandReserve := manualCommandReserve
    limit := limit
    leaseTtlMs := leaseTtlMs }

/-- The cap of a repository: its case-insensitive override, or the common one. -/
def LeaseLimits.repoActiveLimit (limits : LeaseLimits) (repo : String) : Int :=
  (limits.maxRepoActiveByRepo (lower repo)).getD limits.maxRepoActive

/-! ## Candidates and their order -/

def asReserved (job : ReviewQueueJobRecord) : ReservedActiveJob :=
  ⟨job.jobId, job.providerId, job.org, job.repo, job.pullNumber, job.headSha⟩

def ReservedActiveJob.provider (job : ReservedActiveJob) : String := job.providerId.getD "default"

def reviewQueueHeadKey (job : ReservedActiveJob) : String :=
  lower job.repo ++ "#" ++ toString job.pullNumber ++ "@" ++ lower job.headSha

end

/-- A queued job is always eligible; a deferred or blocked one from its `nextEligibleAt` on, if that parses. -/
def isQueueJobEligible (dateParse : String → Option Int) (now : Int) (job : ReviewQueueJobRecord) : Bool :=
  if job.state = .queued then true
  else if job.state ≠ .providerDeferred ∧ job.state ≠ .blockedOnProof then false
  else match job.nextEligibleAt with
    | none => true
    | some text => match text.parse dateParse with
      | none => true
      | some nextEligibleAtMs => nextEligibleAtMs ≤ now

def compareQueueJobsForLease (left right : ReviewQueueJobRecord) : Int :=
  if left.priority ≠ right.priority then left.priority - right.priority else left.createdAt - right.createdAt

def isRescued (job : ReviewQueueJobRecord) (aging : Aging) (now : Int) : Bool :=
  now - job.createdAt > aging.maxWaitMinutes * 60000

/-- Rescued jobs first and oldest first; the others by priority, then oldest first. -/
def leaseComparator (aging : Option Aging) (now : Int) (left right : ReviewQueueJobRecord) : Int :=
  match aging.filter (·.enabled) with
  | none => compareQueueJobsForLease left right
  | some aging =>
    if isRescued left aging now ≠ isRescued right aging now then if isRescued left aging now then -1 else 1
    else if isRescued left aging now then left.createdAt - right.createdAt
    else compareQueueJobsForLease left right

/-- The order that the comparator sorts into. -/
abbrev leasesBefore (aging : Option Aging) (now : Int) (left right : ReviewQueueJobRecord) : Prop :=
  leaseComparator aging now left right ≤ 0

def hasUncoveredManualAfter (lower : String → String) (rest : List ReviewQueueJobRecord) (activeHeads : List String)
    (candidateHeadKey : String) : Bool :=
  rest.any fun job => job.lane = .manual &&
    (let manualHeadKey := reviewQueueHeadKey lower (asReserved job)
     manualHeadKey ≠ candidateHeadKey && !activeHeads.contains manualHeadKey)

/-! ## The lease row -/

/-- `text like pattern%`, where an underscore stands for any one character. -/
def likePrefix : List Char → List Char → Bool
  | [], _ => true
  | _ :: _, [] => false
  | p :: pattern, c :: text => (p = '_' || p.toLower = c.toLower) && likePrefix pattern text

/-- `text like '%blocked_on_proof%'`. -/
def likeBlockedOnProof (text : String) : Bool :=
  text.toList.tails.any fun tail => likePrefix "blocked_on_proof".toList tail

def leasedJob (leaseId : String) (leaseExpiresAt now : Int) (j : ReviewQueueJobRecord) : ReviewQueueJobRecord :=
  { j with
    state := .leased
    leaseId := some leaseId
    leaseExpiresAt := some leaseExpiresAt
    lastError := if j.state = .blockedOnProof ∧ ¬ j.lastError.any likeBlockedOnProof then
        some ("blocked_on_proof; " ++ j.lastError.getD "")
      else j.lastError
    updatedAt := now }

/-- `where job_id = ? and state in ('queued', 'provider_deferred', 'blocked_on_proof')`. -/
def leasable (jobId : String) (j : ReviewQueueJobRecord) : Bool :=
  j.jobId = jobId && (j.state = .queued || j.state = .providerDeferred || j.state = .blockedOnProof)

def leaseRow (jobId leaseId : String) (leaseExpiresAt now : Int) (jobs : JobTable) : JobTable :=
  jobs.updateJobs (fun j => if leasable jobId j then leasedJob leaseId leaseExpiresAt now j else j)
    (fun j => by split <;> rfl) (fun j => by split <;> rfl)

/-! ## The scan -/

/-- The variables of the loop, and the table it updates. -/
structure LeaseScan where
  jobs : JobTable
  providerActive : String → Nat
  orgActive : String → Nat
  repoActive : String → Nat
  activeHeads : List String
  leased : List ReviewQueueJobRecord := []

section
variable (lower : String → String) (limits : LeaseLimits)

/-- The admission tests that pass over a candidate. -/
def LeaseScan.skips (st : LeaseScan) (job : ReviewQueueJobRecord) (rest : List ReviewQueueJobRecord) : Bool :=
  let provider := (asReserved job).provider
  let headKey := reviewQueueHeadKey lower (asReserved job)
  let providerCount := st.providerActive provider
  let effectiveProviderActive := min limits.maxProviderActive limits.maxGlobalActive
  st.activeHeads.contains headKey ||
  (providerCount : Int) ≥ limits.maxProviderActive ||
  (st.orgActive job.org : Int) ≥ limits.maxOrgActive ||
  (st.repoActive job.repo : Int) ≥ limits.repoActiveLimit lower job.repo ||
  (job.lane = .background && hasUncoveredManualAfter lower rest st.activeHeads headKey &&
    limits.manualCommandReserve > 0 && (providerCount : Int) ≥ effectiveProviderActive - limits.manualCommandReserve)

variable (uuid : Nat → String) (now : Int)

/-- One candidate taken: its row is leased, the counters move, and the row is read back. -/
def LeaseScan.lease (st : LeaseScan) (job : ReviewQueueJobRecord) : LeaseScan :=
  let jobs := leaseRow job.jobId (uuid st.leased.length) (now + limits.leaseTtlMs) now st.jobs
  { jobs := jobs
    providerActive := bump st.providerActive (asReserved job).provider
    orgActive := bump st.orgActive job.org
    repoActive := bump st.repoActive job.repo
    activeHeads := st.activeHeads ++ [reviewQueueHeadKey lower (asReserved job)]
    leased := st.leased ++ ((jobs.toTable.find? job.jobId).map mapReviewQueueJobRow).toList }

/-- The loop over the candidates; `activeCount` is `active.length`. -/
def leaseLoop (activeCount : Nat) : List ReviewQueueJobRecord → LeaseScan → LeaseScan
  | [], st => st
  | job :: rest, st =>
    if (st.leased.length : Int) ≥ limits.limit then st
    else if ((activeCount + st.leased.length : Nat) : Int) ≥ limits.maxGlobalActive then st
    else if st.skips lower limits job rest then leaseLoop activeCount rest st
    else leaseLoop activeCount rest (st.lease lower limits uuid now job)

end

/-! ## The call -/

/-- `active`: the leased and running rows that no reservation names, and the reservations. -/
def activeJobs (reserved : List ReservedActiveJob) (jobs : List ReviewQueueJobRecord) : List ReservedActiveJob :=
  (jobs.filter fun job => job.isActive && !(reserved.map (·.jobId)).contains job.jobId).map asReserved ++ reserved

/-- `eligible`: what may be leased, in lease order. -/
def eligibleJobs (dateParse : String → Option Int) (input : LeaseInput) (now : Int)
    (jobs : List ReviewQueueJobRecord) : List ReviewQueueJobRecord :=
  (jobs.filter fun job => !input.excludeJobIds.contains job.jobId && isQueueJobEligible dateParse now job).insertionSort
    (leasesBefore input.aging now)

/-- The variables before the loop: the counters count the active jobs. -/
def LeaseScan.start (lower : String → String) (active : List ReservedActiveJob) (s : State) : LeaseScan where
  jobs := s.jobs
  providerActive := countBy ReservedActiveJob.provider active
  orgActive := countBy ReservedActiveJob.org active
  repoActive := countBy ReservedActiveJob.repo active
  activeHeads := active.map (reviewQueueHeadKey lower)

/-- The transaction, on a table whose expired leases are requeued; `uuid` are its random ids. -/
def leaseScan (lower : String → String) (dateParse : String → Option Int) (uuid : Nat → String) (input : LeaseInput)
    (limits : LeaseLimits) (now : Int) (s : State) : LeaseScan :=
  let jobs := listReviewQueueJobs s
  let active := activeJobs input.reservedActiveJobs jobs
  leaseLoop lower limits uuid now active.length (eligibleJobs dateParse input now jobs) (.start lower active s)

def requeuedState (limits : LeaseLimits) (now : Int) (s : State) : State :=
  { s with jobs := requeueExpiredLeases limits.leaseTtlMs now s.jobs }

def leaseNextReviewQueueJobs (lower : String → String) (dateParse : String → Option Int) (uuid : Nat → String)
    (input : LeaseInput) (now : Int) (s : State) : Outcome (List ReviewQueueJobRecord) :=
  match input.limits lower with
  | .error e => .error e
  | .ok limits =>
    let scan := leaseScan lower dateParse uuid input limits now (requeuedState limits now s)
    .ok (scan.leased, { s with jobs := scan.jobs })

end NeonDiff.Lease
