import NeonDiff.Lease.Model

/-! # The review budget: what the next lease call would take -/

namespace NeonDiff.Budget

open NeonDiff.Lib NeonDiff.Lib.JsText NeonDiff.Store NeonDiff.Lease

/-! ## The configuration

Each part carries what the loader checks of it.
-/

structure ReviewConcurrencyConfig where
  maxActiveRuns : Int
  leaseTtlMs : Int
  maxActiveRuns_pos : 1 ≤ maxActiveRuns := by decide
  leaseTtlMs_pos : 1 ≤ leaseTtlMs := by decide

structure ReviewSchedulerConfig where
  enabled : Bool
  maxProviderActive : Int
  maxOrgActive : Int
  maxRepoActive : Int
  maxQueuedPerRepo : Int
  manualCommandReserve : Int
  backgroundPriority : Int
  maxProviderActive_pos : 1 ≤ maxProviderActive := by decide
  maxOrgActive_pos : 1 ≤ maxOrgActive := by decide
  maxRepoActive_pos : 1 ≤ maxRepoActive := by decide
  manualCommandReserve_nonneg : 0 ≤ manualCommandReserve := by decide
  manualCommandReserve_le : manualCommandReserve ≤ maxProviderActive := by decide

structure RepoReviewSchedulerConfig where
  maxActiveHeads : Option Int
  maxActiveHeads_pos : ∀ n ∈ maxActiveHeads, 1 ≤ n := by decide

structure RepoProfileConfig where
  enabled : Option Bool
  reviewScheduler : Option RepoReviewSchedulerConfig

/-- `config.repoProfiles`, its records in the order of their keys. -/
structure RepoProfileRegistry where
  repos : List (String × RepoProfileConfig) := []
  orgFallbacks : List (String × RepoProfileConfig) := []
  enableOrgFallbacks : Bool := false

structure BotConfig where
  reviewConcurrency : ReviewConcurrencyConfig
  reviewScheduler : Option ReviewSchedulerConfig
  aging : Option Aging
  repoProfiles : Option RepoProfileRegistry

/-! ## Repository profiles -/

inductive RepoProfileResolution where
  | allowed (profile : RepoProfileConfig)
  | denied (reason : String)

section
variable (lower : String → String)

/-- `repo.split("/")[index]?.toLowerCase() ?? ""`. -/
def lowerPart (repo : String) (index : Nat) : String :=
  (((split '/' repo.toList)[index]?).map fun part => lower (String.ofList part)).getD ""

def canonicalRepoName (repo : String) : String := lowerPart lower repo 0 ++ "/" ++ lowerPart lower repo 1

def findProfileByRepo (profiles : List (String × RepoProfileConfig)) (repo : String) : Option RepoProfileConfig :=
  (profiles.find? fun p => canonicalRepoName lower p.1 = canonicalRepoName lower repo).map Prod.snd

def findProfileByOwner (profiles : List (String × RepoProfileConfig)) (owner : String) : Option RepoProfileConfig :=
  (profiles.find? fun p => lower p.1 = lower owner).map Prod.snd

def RepoProfileRegistry.hasProfileRegistry (registry : RepoProfileRegistry) : Bool :=
  !registry.repos.isEmpty || !registry.orgFallbacks.isEmpty

def resolveRepoProfile (config : BotConfig) (repo : String) : RepoProfileResolution :=
  match config.repoProfiles.filter RepoProfileRegistry.hasProfileRegistry with
  | none => .allowed { enabled := none, reviewScheduler := none }
  | some registry =>
    match findProfileByRepo lower registry.repos repo with
    | some profile => if profile.enabled = some false then .denied "repo_profile_disabled" else .allowed profile
    | none =>
      let org := repoOrg repo
      match if org = "" then none else findProfileByOwner lower registry.orgFallbacks org with
      | none => .denied "repo_profile_missing"
      | some profile =>
        if profile.enabled = some false then .denied "repo_profile_disabled"
        else if registry.enableOrgFallbacks then .allowed profile
        else .denied "repo_profile_missing"

/-- The `maxActiveHeads` of the profile of a repository that is allowed. -/
def maxActiveHeads (config : BotConfig) (repo : String) : Option Int :=
  match resolveRepoProfile lower config repo with
  | .denied _ => none
  | .allowed profile => profile.reviewScheduler.bind RepoReviewSchedulerConfig.maxActiveHeads

/-! ## The lease call of the scheduler -/

def isValidRepoName (repo : String) : Bool := (validateRepoName repo "repo").isOk

/-- `overrides[key] = value`. -/
def setOverride (overrides : List (String × Int)) (key : String) (value : Int) : List (String × Int) :=
  if overrides.any fun o => o.1 = key then overrides.map fun o => if o.1 = key then (key, value) else o
  else overrides ++ [(key, value)]

def addOverride (config : BotConfig) (overrides : List (String × Int)) (job : ReviewQueueJobRecord) :
    List (String × Int) :=
  let repo := lower job.repo
  if !isValidRepoName repo then overrides
  else match maxActiveHeads lower config job.repo with
    | some limit => setOverride overrides repo limit
    | none => overrides

def buildRepoActiveLimitOverrides (config : BotConfig) (jobs : List ReviewQueueJobRecord) : List (String × Int) :=
  jobs.foldl (addOverride lower config) []

/-- The input of the lease call, for a cycle that runs on `scheduler` over the listed jobs. -/
def schedulerLeaseInput (config : BotConfig) (scheduler : ReviewSchedulerConfig) (jobs : List ReviewQueueJobRecord) :
    LeaseInput :=
  let effectiveSlots := max 1 (min config.reviewConcurrency.maxActiveRuns scheduler.maxProviderActive)
  { maxGlobalActive := some effectiveSlots
    maxProviderActive := scheduler.maxProviderActive
    maxOrgActive := scheduler.maxOrgActive
    maxRepoActive := scheduler.maxRepoActive
    maxRepoActiveByRepo := buildRepoActiveLimitOverrides lower config jobs
    manualCommandReserve := some (min scheduler.manualCommandReserve effectiveSlots)
    limit := some effectiveSlots
    leaseTtlMs := some config.reviewConcurrency.leaseTtlMs
    aging := config.aging }

end

/-! ## The projected rows -/

inductive ReviewQueueDelayReason where
  | providerCooldown | providerCapacity | orgCapacity | repoCapacity | headActive | manualReserve | proofCooldown
  | leaseLimit
  deriving DecidableEq, Repr

structure ReviewBudgetCandidate where
  jobId : String
  source : ReviewQueueJobSource
  lane : ReviewQueueJobLane
  repo : String
  org : String
  pullNumber : Nat
  headSha : String
  providerId : String
  priority : Int
  state : ReviewQueueJobState
  nextEligibleAt : Option DateText
  deriving DecidableEq, Repr

structure ReviewBudgetDelay extends ReviewBudgetCandidate where
  reason : ReviewQueueDelayReason
  deriving DecidableEq, Repr

def providerKey (job : ReviewQueueJobRecord) : String := job.providerId.getD "default"

def candidate (job : ReviewQueueJobRecord) : ReviewBudgetCandidate where
  jobId := job.jobId
  source := job.source
  lane := job.lane
  repo := job.repo
  org := job.org
  pullNumber := job.pullNumber
  headSha := job.headSha
  providerId := providerKey job
  priority := job.priority
  state := job.state
  nextEligibleAt := job.nextEligibleAt.filter (· ≠ .other "")

def delay (job : ReviewQueueJobRecord) (reason : ReviewQueueDelayReason) : ReviewBudgetDelay where
  toReviewBudgetCandidate := candidate job
  reason := reason

/-! ## The jobs at the clock -/

/-- In milliseconds, where the lease call compares SQLite's seconds. -/
def isExpiredLeaseJob (job : ReviewQueueJobRecord) (now leaseTtlMs : Int) : Bool :=
  match job.leaseExpiresAt with
  | some leaseExpiresAtMs => leaseExpiresAtMs ≤ now
  | none => job.updatedAt ≤ now - leaseTtlMs

def normalizeExpiredLeaseJob (job : ReviewQueueJobRecord) (now leaseTtlMs : Int) : ReviewQueueJobRecord :=
  if !job.isActive then job
  else if !isExpiredLeaseJob job now leaseTtlMs then job
  else requeued "queue_lease_expired_requeued" now job

def isRetryEligibleByNextEligibleAt (dateParse : String → Option Int) (now : Int) (job : ReviewQueueJobRecord) :
    Bool :=
  match job.nextEligibleAt.filter (· ≠ .other "") with
  | none => true
  | some text => match text.parse dateParse with
    | none => true
    | some eligibleAtMs => eligibleAtMs ≤ now

def isProviderDeferredEligible (dateParse : String → Option Int) (now : Int) (job : ReviewQueueJobRecord) : Bool :=
  if job.state ≠ .providerDeferred then true else isRetryEligibleByNextEligibleAt dateParse now job

def compareQueueJobsForBudget (left right : ReviewQueueJobRecord) : Int :=
  if left.priority ≠ right.priority then left.priority - right.priority else left.createdAt - right.createdAt

abbrev budgetsBefore (left right : ReviewQueueJobRecord) : Prop := compareQueueJobsForBudget left right ≤ 0

/-- `queued`, `provider_deferred` or `blocked_on_proof`. -/
def isWaiting (job : ReviewQueueJobRecord) : Bool :=
  job.state = .queued || job.state = .providerDeferred || job.state = .blockedOnProof

/-! ## The simulation -/

section
variable (lower : String → String) (config : BotConfig) (scheduler : ReviewSchedulerConfig)

def repoActiveLimitFor (repo : String) : Int := (maxActiveHeads lower config repo).getD scheduler.maxRepoActive

def cachedRepoActiveLimit (cache : List (String × Int)) (repo : String) : Int × List (String × Int) :=
  let key := lower repo
  match cache.find? fun c => c.1 = key with
  | some cached => (cached.2, cache)
  | none =>
    let limit := repoActiveLimitFor lower config scheduler repo
    (limit, cache ++ [(key, limit)])

def effectiveGlobalLimit : Int := min config.reviewConcurrency.maxActiveRuns scheduler.maxProviderActive

structure CapacityInput where
  maxProviderActive : Int
  maxOrgActive : Int
  manualCommandReserve : Int
  providerCount : Nat
  orgCount : Nat
  repoCount : Nat
  repoActiveLimit : Int
  hasManualAfter : Bool

def capacityDelayReason (job : ReviewQueueJobRecord) (input : CapacityInput) : Option ReviewQueueDelayReason :=
  if (input.providerCount : Int) ≥ input.maxProviderActive then some .providerCapacity
  else if (input.orgCount : Int) ≥ input.maxOrgActive then some .orgCapacity
  else if (input.repoCount : Int) ≥ input.repoActiveLimit then some .repoCapacity
  else if job.lane = .background ∧ input.hasManualAfter ∧ input.manualCommandReserve > 0 ∧
      (input.providerCount : Int) ≥ input.maxProviderActive - input.manualCommandReserve then
    some .manualReserve
  else none

def headKeyOf (job : ReviewQueueJobRecord) : String := reviewQueueHeadKey lower (asReserved job)

def hasRunnableManualAfter (rest : List ReviewQueueJobRecord) (activeHeads : List String)
    (candidateHeadKey : String) : Bool :=
  rest.any fun job => job.lane = .manual &&
    (headKeyOf lower job ≠ candidateHeadKey && !activeHeads.contains (headKeyOf lower job))

/-- The variables of the loop over the eligible jobs. -/
structure BudgetScan where
  delayed : List ReviewBudgetDelay
  wouldLease : List ReviewBudgetCandidate
  providerActive : String → Nat
  orgActive : String → Nat
  repoActive : String → Nat
  activeHeads : List String
  repoLimits : List (String × Int)

/-- One eligible job, with those after it. -/
def BudgetScan.consider (activeCount : Nat) (st : BudgetScan) (job : ReviewQueueJobRecord)
    (rest : List ReviewQueueJobRecord) : BudgetScan :=
  let headKey := headKeyOf lower job
  let provider := providerKey job
  let limit := effectiveGlobalLimit config scheduler
  if st.activeHeads.contains headKey then { st with delayed := st.delayed ++ [delay job .headActive] }
  else
    let (repoActiveLimit, repoLimits) := cachedRepoActiveLimit lower config scheduler st.repoLimits job.repo
    let capacityReason := capacityDelayReason job {
      maxProviderActive := limit
      maxOrgActive := scheduler.maxOrgActive
      manualCommandReserve := min scheduler.manualCommandReserve limit
      providerCount := st.providerActive provider
      orgCount := st.orgActive job.org
      repoCount := st.repoActive job.repo
      repoActiveLimit := repoActiveLimit
      hasManualAfter := hasRunnableManualAfter lower rest st.activeHeads headKey }
    match capacityReason with
    | some reason => { st with delayed := st.delayed ++ [delay job reason], repoLimits := repoLimits }
    | none =>
      if ((activeCount + st.wouldLease.length : Nat) : Int) ≥ limit then
        { st with delayed := st.delayed ++ [delay job .leaseLimit], repoLimits := repoLimits }
      else
        { delayed := st.delayed
          wouldLease := st.wouldLease ++ [candidate job]
          providerActive := bump st.providerActive provider
          orgActive := bump st.orgActive job.org
          repoActive := bump st.repoActive job.repo
          activeHeads := st.activeHeads ++ [headKey]
          repoLimits := repoLimits }

def budgetLoop (activeCount : Nat) : List ReviewQueueJobRecord → BudgetScan → BudgetScan
  | [], st => st
  | job :: rest, st =>
    budgetLoop activeCount rest (st.consider lower config scheduler activeCount job rest)

/-- The delays of the waiting jobs that may not be retried yet. -/
def cooldownDelays (dateParse : String → Option Int) (now : Int) (queued : List ReviewQueueJobRecord) :
    List ReviewBudgetDelay :=
  queued.flatMap fun job =>
    (if job.state = .blockedOnProof ∧ ¬ isRetryEligibleByNextEligibleAt dateParse now job then
      [delay job .proofCooldown] else []) ++
    (if job.state = .providerDeferred ∧ ¬ isProviderDeferredEligible dateParse now job then
      [delay job .providerCooldown] else [])

def budgetCandidates (dateParse : String → Option Int) (now : Int) (jobs : List ReviewQueueJobRecord) :
    List ReviewQueueJobRecord :=
  ((jobs.filter isWaiting).filter fun job =>
    job.state = .queued || isRetryEligibleByNextEligibleAt dateParse now job).insertionSort budgetsBefore

/-- The loop over the jobs as they stand at the clock. -/
def budgetScan (dateParse : String → Option Int) (now : Int) (jobs : List ReviewQueueJobRecord) : BudgetScan :=
  let active := jobs.filter ReviewQueueJobRecord.isActive
  budgetLoop lower config scheduler active.length (budgetCandidates dateParse now jobs) {
    delayed := cooldownDelays dateParse now (jobs.filter isWaiting)
    wouldLease := []
    providerActive := countBy providerKey active
    orgActive := countBy ReviewQueueJobRecord.org active
    repoActive := countBy ReviewQueueJobRecord.repo active
    activeHeads := active.map (headKeyOf lower)
    repoLimits := [] }

end

/-! ## The status -/

structure ReviewBudgetCapacity where
  name : String
  active : Nat
  limit : Int
  remaining : Int
  deriving DecidableEq, Repr

structure ActiveBudget where
  total : Nat
  leased : Nat
  running : Nat
  manual : Nat
  background : Nat
  byProvider : List ReviewBudgetCapacity
  byOrg : List ReviewBudgetCapacity
  byRepo : List ReviewBudgetCapacity

structure QueuedBudget where
  total : Nat
  manual : Nat
  background : Nat
  providerDeferred : Nat
  retryableProviderDeferred : Nat

structure ProviderDeferredBudget where
  total : Nat
  retryable : Nat
  readyToRetry : Nat
  waitingCooldown : Nat
  waitingProviderCapacity : Nat
  waitingOrgCapacity : Nat
  waitingRepoCapacity : Nat
  waitingHeadActive : Nat
  waitingManualReserve : Nat
  waitingLeaseLimit : Nat

structure ManualReserveBudget where
  configured : Int
  activeManual : Nat
  queuedManual : Nat
  reservedSlotsOpen : Int
  backgroundSlotsAvailableBeforeReserve : Int

structure BudgetDetails where
  included : Bool
  detailLimit : Option Int
  wouldLeaseReturned : Nat
  delayedReturned : Nat
  detailsTruncated : Bool
  inputJobs : Nat
  inputJobLimit : Option Nat
  inputJobsTruncated : Option Bool

structure ReviewBudgetStatus where
  enabled : Bool
  checkedAt : Int
  reviewConcurrency : ReviewConcurrencyConfig
  scheduler : ReviewSchedulerConfig
  active : ActiveBudget
  queued : QueuedBudget
  providerDeferred : ProviderDeferredBudget
  manualReserve : ManualReserveBudget
  wouldLeaseCount : Nat
  delayedCount : Nat
  details : BudgetDetails
  wouldLease : List ReviewBudgetCandidate
  delayed : List ReviewBudgetDelay
  delayedByReason : List (ReviewQueueDelayReason × Nat)

def capacityRow (limit : Int) (count : String × Nat) : ReviewBudgetCapacity where
  name := count.1
  active := count.2
  limit := limit
  remaining := max 0 (limit - count.2)

/-- The rows of the repositories go on with the cache of the loop. -/
def repoCapacityRows (lower : String → String) (config : BotConfig) (scheduler : ReviewSchedulerConfig) :
    List (String × Int) → List (String × Nat) → List ReviewBudgetCapacity
  | _, [] => []
  | cache, count :: rest =>
    let (limit, cache) := cachedRepoActiveLimit lower config scheduler cache count.1
    capacityRow limit count :: repoCapacityRows lower config scheduler cache rest

/-- The entries of a count, by name. -/
def sortedCounts (localeCompare : String → String → Ordering) (counts : List (String × Nat)) :
    List (String × Nat) :=
  counts.insertionSort fun a b => (localeCompare a.1 b.1).isLE = true

def applyDetailLimit {α : Type} (items : List α) (limit : Option Int) : List α :=
  match limit with
  | none => items
  | some n => items.take n.toNat

/-- `input.config.reviewScheduler ?? …`. -/
def BotConfig.schedulerOrDefault (config : BotConfig) : ReviewSchedulerConfig :=
  config.reviewScheduler.getD {
    enabled := false
    maxProviderActive := config.reviewConcurrency.maxActiveRuns
    maxOrgActive := config.reviewConcurrency.maxActiveRuns
    maxRepoActive := 1
    maxQueuedPerRepo := 10
    manualCommandReserve := 0
    backgroundPriority := 50
    maxProviderActive_pos := config.reviewConcurrency.maxActiveRuns_pos
    maxOrgActive_pos := config.reviewConcurrency.maxActiveRuns_pos
    manualCommandReserve_le := Int.le_of_lt config.reviewConcurrency.maxActiveRuns_pos }

structure BudgetInput where
  config : BotConfig
  jobs : List ReviewQueueJobRecord
  includeDetails : Option Bool := none
  detailLimit : Option Int := none
  inputJobLimit : Option Nat := none
  inputJobsTruncated : Option Bool := none

def buildReviewBudgetStatus (lower : String → String) (localeCompare : String → String → Ordering)
    (dateParse : String → Option Int) (input : BudgetInput) (now : Int) : ReviewBudgetStatus :=
  let config := input.config
  let scheduler := config.schedulerOrDefault
  let limit := effectiveGlobalLimit config scheduler
  let reserve := min scheduler.manualCommandReserve limit
  let jobs := input.jobs.map fun job => normalizeExpiredLeaseJob job now config.reviewConcurrency.leaseTtlMs
  let active := jobs.filter ReviewQueueJobRecord.isActive
  let queued := jobs.filter isWaiting
  let inLane := fun (lane : ReviewQueueJobLane) (jobs : List ReviewQueueJobRecord) =>
    jobs.countP fun j => j.lane = lane
  let inState := fun (state : ReviewQueueJobState) (jobs : List ReviewQueueJobRecord) =>
    jobs.countP fun j => j.state = state
  let scan := budgetScan lower config scheduler dateParse now jobs
  let providerDeferredJobs := queued.filter fun j => j.state = .providerDeferred
  let retryable := providerDeferredJobs.countP (isProviderDeferredEligible dateParse now)
  let deferredDelays := scan.delayed.filter fun d => d.state = .providerDeferred
  let waiting := fun (reason : ReviewQueueDelayReason) => deferredDelays.countP fun d => d.reason = reason
  let includeDetails := input.includeDetails.getD true
  let returnedWouldLease := if includeDetails then applyDetailLimit scan.wouldLease input.detailLimit else []
  let returnedDelayed := if includeDetails then applyDetailLimit scan.delayed input.detailLimit else []
  { enabled := scheduler.enabled
    checkedAt := now
    reviewConcurrency := config.reviewConcurrency
    scheduler := scheduler
    active :=
      { total := active.length
        leased := inState .leased active
        running := inState .running active
        manual := inLane .manual active
        background := inLane .background active
        byProvider := (sortedCounts localeCompare (tally providerKey active)).map
          (capacityRow scheduler.maxProviderActive)
        byOrg := (sortedCounts localeCompare (tally ReviewQueueJobRecord.org active)).map
          (capacityRow scheduler.maxOrgActive)
        byRepo := repoCapacityRows lower config scheduler scan.repoLimits
          (sortedCounts localeCompare (tally ReviewQueueJobRecord.repo active)) }
    queued :=
      { total := queued.length
        manual := inLane .manual queued
        background := inLane .background queued
        providerDeferred := providerDeferredJobs.length
        retryableProviderDeferred := retryable }
    providerDeferred :=
      { total := providerDeferredJobs.length
        retryable := retryable
        readyToRetry := scan.wouldLease.countP fun c => c.state = .providerDeferred
        waitingCooldown := waiting .providerCooldown
        waitingProviderCapacity := waiting .providerCapacity
        waitingOrgCapacity := waiting .orgCapacity
        waitingRepoCapacity := waiting .repoCapacity
        waitingHeadActive := waiting .headActive
        waitingManualReserve := waiting .manualReserve
        waitingLeaseLimit := waiting .leaseLimit }
    manualReserve :=
      { configured := scheduler.manualCommandReserve
        activeManual := inLane .manual active
        queuedManual := inLane .manual queued
        reservedSlotsOpen := max 0 (reserve - inLane .manual active)
        backgroundSlotsAvailableBeforeReserve := max 0 (limit - reserve - active.length) }
    wouldLeaseCount := scan.wouldLease.length
    delayedCount := scan.delayed.length
    details :=
      { included := includeDetails
        detailLimit := input.detailLimit
        wouldLeaseReturned := returnedWouldLease.length
        delayedReturned := returnedDelayed.length
        detailsTruncated := returnedWouldLease.length < scan.wouldLease.length ||
          returnedDelayed.length < scan.delayed.length || input.inputJobsTruncated = some true
        inputJobs := input.jobs.length
        inputJobLimit := input.inputJobLimit
        inputJobsTruncated := input.inputJobsTruncated }
    wouldLease := returnedWouldLease
    delayed := returnedDelayed
    delayedByReason := tally ReviewBudgetDelay.reason scan.delayed }

end NeonDiff.Budget
