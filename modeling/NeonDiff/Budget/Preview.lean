import NeonDiff.Budget.Model
import NeonDiff.Lease.Reserve
import NeonDiff.Lib.Ranking

/-! # The projection and the lease call -/

namespace NeonDiff.Budget

open NeonDiff.Lib NeonDiff.Lib.JsText NeonDiff.Lib.Ranking NeonDiff.Store NeonDiff.Lease

/-! ## Names up to case -/

/-- What `toLowerCase` does about slashes: it lowers each part on its own. -/
structure LowersParts (lower : String → String) : Prop where
  idem : ∀ s, lower (lower s) = lower s
  empty : ∀ s, lower s = "" ↔ s = ""
  parts : ∀ s, split '/' (lower s).toList = (split '/' s.toList).map fun part => (lower (String.ofList part)).toList

section
variable {lower : String → String} (hlower : LowersParts lower)
include hlower

theorem lowerPart_lower (repo : String) (i : Nat) : lowerPart lower (lower repo) i = lowerPart lower repo i := by
  unfold lowerPart
  rw [hlower.parts, List.getElem?_map, Option.map_map]
  congr 1
  refine Option.map_congr fun part _ => ?_
  simp [hlower.idem]

theorem lower_repoOrg (repo : String) : lower (repoOrg repo) = lowerPart lower repo 0 := by
  unfold repoOrg lowerPart
  cases h : split '/' repo.toList with
  | nil => simpa using hlower.empty ""
  | cons part rest => rfl

theorem maxActiveHeads_congr (config : BotConfig) {a b : String} (h : lower a = lower b) :
    maxActiveHeads lower config a = maxActiveHeads lower config b := by
  have hpart : ∀ i, lowerPart lower a i = lowerPart lower b i := by
    intro i
    rw [← lowerPart_lower hlower a, ← lowerPart_lower hlower b, h]
  have horg : lower (repoOrg a) = lower (repoOrg b) := by
    rw [lower_repoOrg hlower, lower_repoOrg hlower, hpart]
  have hempty : repoOrg a = "" ↔ repoOrg b = "" := by
    rw [← hlower.empty, horg, hlower.empty]
  unfold maxActiveHeads resolveRepoProfile findProfileByRepo findProfileByOwner canonicalRepoName
  simp only [hpart, horg, hempty]

end

/-! ## The limits of the lease call -/

section
variable {lower : String → String}

theorem setOverride_mem {overrides : List (String × Int)} {key : String} {value : Int} {o : String × Int}
    (h : o ∈ setOverride overrides key value) : o = (key, value) ∨ o ∈ overrides := by
  unfold setOverride at h
  split at h
  · obtain ⟨o', ho', heq⟩ := List.mem_map.mp h
    split at heq
    · exact Or.inl heq.symm
    · exact Or.inr (heq ▸ ho')
  · simpa [or_comm] using h

theorem setOverride_covers {overrides : List (String × Int)} {key k : String} {value : Int}
    (h : k = key ∨ ∃ o ∈ overrides, o.1 = k) : ∃ o ∈ setOverride overrides key value, o.1 = k := by
  unfold setOverride
  split
  · rename_i hany
    obtain ⟨o, ho, hkey⟩ : ∃ o ∈ overrides, o.1 = k := by
      obtain rfl | h := h
      · simpa using hany
      · exact h
    refine ⟨_, List.mem_map_of_mem ho, ?_⟩
    split
    · rename_i heq
      exact heq.symm.trans hkey
    · exact hkey
  · obtain rfl | ⟨o, ho, hkey⟩ := h
    · exact ⟨_, List.mem_append_right _ List.mem_cons_self, rfl⟩
    · exact ⟨o, List.mem_append_left _ ho, hkey⟩

variable (lower) in
/-- What every override says, and which repositories have one. -/
structure OverridesFit (config : BotConfig) (jobs : List ReviewQueueJobRecord) (overrides : List (String × Int)) :
    Prop where
  sound : ∀ o ∈ overrides, ∃ job ∈ jobs, o.1 = lower job.repo ∧ isValidRepoName o.1 = true ∧
    maxActiveHeads lower config job.repo = some o.2
  complete : ∀ job ∈ jobs, isValidRepoName (lower job.repo) = true →
    ∀ n, maxActiveHeads lower config job.repo = some n → ∃ o ∈ overrides, o.1 = lower job.repo

theorem OverridesFit.add {config : BotConfig} {done : List ReviewQueueJobRecord} {overrides : List (String × Int)}
    (h : OverridesFit lower config done overrides) (job : ReviewQueueJobRecord) :
    OverridesFit lower config (done ++ [job]) (addOverride lower config overrides job) := by
  have hsound : ∀ o ∈ overrides, ∃ j ∈ done ++ [job], o.1 = lower j.repo ∧ isValidRepoName o.1 = true ∧
      maxActiveHeads lower config j.repo = some o.2 := by
    intro o ho
    obtain ⟨j, hj, hfit⟩ := h.sound o ho
    exact ⟨j, List.mem_append_left _ hj, hfit⟩
  unfold addOverride
  dsimp only
  cases hvalid : isValidRepoName (lower job.repo) with
  | false =>
    rw [Bool.not_false, if_pos rfl]
    refine ⟨hsound, fun j hj hv n hn => ?_⟩
    obtain hj | hj := List.mem_append.mp hj
    · exact h.complete j hj hv n hn
    · rw [List.mem_singleton.mp hj, hvalid] at hv
      cases hv
  | true =>
    rw [Bool.not_true, if_neg Bool.false_ne_true]
    cases hheads : maxActiveHeads lower config job.repo with
    | none =>
      refine ⟨hsound, fun j hj hv n hn => ?_⟩
      obtain hj | hj := List.mem_append.mp hj
      · exact h.complete j hj hv n hn
      · rw [List.mem_singleton.mp hj, hheads] at hn
        cases hn
    | some limit =>
      constructor
      · intro o ho
        obtain rfl | ho := setOverride_mem ho
        · exact ⟨job, List.mem_append_right _ List.mem_cons_self, rfl, hvalid, hheads⟩
        · exact hsound o ho
      · intro j hj hv n hn
        refine setOverride_covers ?_
        obtain hj | hj := List.mem_append.mp hj
        · exact Or.inr (h.complete j hj hv n hn)
        · exact Or.inl (by rw [List.mem_singleton.mp hj])

theorem OverridesFit.foldl {config : BotConfig} {done : List ReviewQueueJobRecord} {overrides : List (String × Int)}
    (h : OverridesFit lower config done overrides) (todo : List ReviewQueueJobRecord) :
    OverridesFit lower config (done ++ todo) (todo.foldl (addOverride lower config) overrides) := by
  induction todo generalizing done overrides with
  | nil => simpa using h
  | cons job todo ih =>
    rw [List.append_cons, List.foldl_cons]
    exact ih (h.add job)

theorem buildRepoActiveLimitOverrides_fit (config : BotConfig) (jobs : List ReviewQueueJobRecord) :
    OverridesFit lower config jobs (buildRepoActiveLimitOverrides lower config jobs) := by
  have hnone : OverridesFit lower config [] [] := ⟨by simp, by simp⟩
  exact hnone.foldl jobs

theorem isOk_iff_of_isValidRepoName {repo : String} (h : isValidRepoName repo = true) (label : String) :
    validateRepoName repo label = .ok () := by
  unfold isValidRepoName validateRepoName at *
  split
  · rename_i owner name hsplit
    rw [hsplit] at h
    dsimp only at h
    split_ifs at h ⊢
    · cases h
    · rfl
  · rename_i hsplit
    split at h
    · rename_i owner name hparts
      exact absurd hparts (hsplit owner name)
    · cases h

theorem normalizeRepoActiveLimitOverrides_ok {overrides : List (String × Int)}
    (h : ∀ o ∈ overrides, isValidRepoName o.1 = true ∧ 1 ≤ o.2) (result : String → Option Int) :
    ∃ limits, normalizeRepoActiveLimitOverrides lower overrides result = .ok limits ∧
      ∀ k, (∃ o ∈ overrides, lower o.1 = k ∧ limits k = some o.2) ∨
        ((∀ o ∈ overrides, lower o.1 ≠ k) ∧ limits k = result k) := by
  induction overrides generalizing result with
  | nil => exact ⟨result, rfl, fun k => Or.inr ⟨by simp, rfl⟩⟩
  | cons o overrides ih =>
    obtain ⟨hname, hpos⟩ := h o List.mem_cons_self
    obtain ⟨limits, hlimits, hk⟩ := ih (fun o ho => h o (List.mem_cons_of_mem _ ho))
      (fun k => if k = lower o.1 then some o.2 else result k)
    refine ⟨limits, ?_, fun k => ?_⟩
    · unfold normalizeRepoActiveLimitOverrides
      rw [isOk_iff_of_isValidRepoName hname, validatePositiveQueueLimit, require, if_pos (by simpa using hpos)]
      exact hlimits
    · obtain ⟨o', ho', hkey, hval⟩ | ⟨hno, hval⟩ := hk k
      · exact Or.inl ⟨o', List.mem_cons_of_mem _ ho', hkey, hval⟩
      · by_cases hko : k = lower o.1
        · rw [if_pos hko] at hval
          exact Or.inl ⟨o, List.mem_cons_self, hko.symm, hval⟩
        · rw [if_neg hko] at hval
          refine Or.inr ⟨?_, hval⟩
          intro o' ho'
          obtain rfl | ho' := List.mem_cons.mp ho'
          · exact fun heq => hko heq.symm
          · exact hno o' ho'

theorem maxActiveHeads_pos {config : BotConfig} {repo : String} {n : Int}
    (h : maxActiveHeads lower config repo = some n) : 1 ≤ n := by
  unfold maxActiveHeads at h
  split at h
  · cases h
  · obtain ⟨scheduler, -, hn⟩ := Option.bind_eq_some_iff.mp h
    exact scheduler.maxActiveHeads_pos n hn

theorem validatePositiveQueueLimit_ok {value : Int} (h : 1 ≤ value) (label : String) :
    validatePositiveQueueLimit value label = .ok () := by
  rw [validatePositiveQueueLimit, require, if_pos (by simpa using h)]

/-- The limits of the projection, where the lease call has its own names for them. -/
structure SchedulerLimits (config : BotConfig) (scheduler : ReviewSchedulerConfig) (limits : LeaseLimits) : Prop where
  provider : limits.maxProviderActive = scheduler.maxProviderActive
  global : limits.maxGlobalActive = effectiveGlobalLimit config scheduler
  org : limits.maxOrgActive = scheduler.maxOrgActive
  reserve : limits.manualCommandReserve = min scheduler.manualCommandReserve (effectiveGlobalLimit config scheduler)
  limit : limits.limit = effectiveGlobalLimit config scheduler
  ttl : limits.leaseTtlMs = config.reviewConcurrency.leaseTtlMs

variable (lower) in
/-- The limits of the projection: a repository has the limit of its profile. -/
def previewLimits (config : BotConfig) (scheduler : ReviewSchedulerConfig) : LeaseLimits where
  maxProviderActive := scheduler.maxProviderActive
  maxGlobalActive := effectiveGlobalLimit config scheduler
  maxOrgActive := scheduler.maxOrgActive
  maxRepoActive := scheduler.maxRepoActive
  maxRepoActiveByRepo := maxActiveHeads lower config
  manualCommandReserve := min scheduler.manualCommandReserve (effectiveGlobalLimit config scheduler)
  limit := effectiveGlobalLimit config scheduler
  leaseTtlMs := config.reviewConcurrency.leaseTtlMs

variable (lower) in
/-- The limits of the lease call: a repository of an invalid name has the common one. -/
def callLimits (config : BotConfig) (scheduler : ReviewSchedulerConfig) : LeaseLimits :=
  { previewLimits lower config scheduler with
    maxRepoActiveByRepo := fun repo => if isValidRepoName repo then maxActiveHeads lower config repo else none }

theorem schedulerLimits_preview (config : BotConfig) (scheduler : ReviewSchedulerConfig) :
    SchedulerLimits config scheduler (previewLimits lower config scheduler) := ⟨rfl, rfl, rfl, rfl, rfl, rfl⟩

theorem schedulerLimits_call (config : BotConfig) (scheduler : ReviewSchedulerConfig) :
    SchedulerLimits config scheduler (callLimits lower config scheduler) := ⟨rfl, rfl, rfl, rfl, rfl, rfl⟩

theorem repoActiveLimit_preview (hlower : LowersParts lower) (config : BotConfig) (scheduler : ReviewSchedulerConfig)
    (repo : String) :
    (previewLimits lower config scheduler).repoActiveLimit lower repo =
      repoActiveLimitFor lower config scheduler repo := by
  unfold LeaseLimits.repoActiveLimit repoActiveLimitFor previewLimits
  dsimp only
  rw [maxActiveHeads_congr hlower config (hlower.idem repo)]

theorem repoActiveLimit_call (hlower : LowersParts lower) (config : BotConfig) (scheduler : ReviewSchedulerConfig)
    (repo : String) :
    (callLimits lower config scheduler).repoActiveLimit lower repo =
      if isValidRepoName (lower repo) then repoActiveLimitFor lower config scheduler repo
      else scheduler.maxRepoActive := by
  unfold LeaseLimits.repoActiveLimit repoActiveLimitFor callLimits previewLimits
  dsimp only
  rw [maxActiveHeads_congr hlower config (hlower.idem repo)]
  split
  · rfl
  · rfl

theorem effectiveGlobalLimit_pos (config : BotConfig) (scheduler : ReviewSchedulerConfig) :
    1 ≤ effectiveGlobalLimit config scheduler :=
  le_min config.reviewConcurrency.maxActiveRuns_pos scheduler.maxProviderActive_pos

theorem schedulerLeaseInput_limits (hlower : LowersParts lower) (config : BotConfig)
    (scheduler : ReviewSchedulerConfig) (jobs : List ReviewQueueJobRecord) :
    ∃ limits, (schedulerLeaseInput lower config scheduler jobs).limits lower = .ok limits ∧
      SchedulerLimits config scheduler limits ∧
      ∀ job ∈ jobs, limits.repoActiveLimit lower job.repo =
        (callLimits lower config scheduler).repoActiveLimit lower job.repo := by
  have hfit : OverridesFit lower config jobs (buildRepoActiveLimitOverrides lower config jobs) :=
    buildRepoActiveLimitOverrides_fit config jobs
  have hpos := effectiveGlobalLimit_pos config scheduler
  have hslots : max 1 (min config.reviewConcurrency.maxActiveRuns scheduler.maxProviderActive) =
      effectiveGlobalLimit config scheduler := max_eq_right hpos
  have hle : effectiveGlobalLimit config scheduler ≤ scheduler.maxProviderActive := min_le_right _ _
  have hchecked : ∀ o ∈ buildRepoActiveLimitOverrides lower config jobs, isValidRepoName o.1 = true ∧ 1 ≤ o.2 := by
    intro o ho
    obtain ⟨job, -, -, hvalid, hheads⟩ := hfit.sound o ho
    exact ⟨hvalid, maxActiveHeads_pos hheads⟩
  obtain ⟨byRepo, hbyRepo, hkeys⟩ := @normalizeRepoActiveLimitOverrides_ok lower _ hchecked fun _ => none
  refine ⟨{
    maxProviderActive := scheduler.maxProviderActive
    maxGlobalActive := effectiveGlobalLimit config scheduler
    maxOrgActive := scheduler.maxOrgActive
    maxRepoActive := scheduler.maxRepoActive
    maxRepoActiveByRepo := byRepo
    manualCommandReserve := min scheduler.manualCommandReserve (effectiveGlobalLimit config scheduler)
    limit := effectiveGlobalLimit config scheduler
    leaseTtlMs := config.reviewConcurrency.leaseTtlMs }, ?_, ?_⟩
  · have hreserve : ∀ n : Int, 0 ≤ n → 0 ≤ min scheduler.manualCommandReserve n := fun n hn =>
      le_min scheduler.manualCommandReserve_nonneg hn
    have h0 := hreserve _ (show 0 ≤ effectiveGlobalLimit config scheduler by omega)
    have hr1 : min scheduler.manualCommandReserve (effectiveGlobalLimit config scheduler) ≤
        scheduler.maxProviderActive := le_trans (min_le_right _ _) hle
    have hr2 := min_le_right scheduler.manualCommandReserve (effectiveGlobalLimit config scheduler)
    unfold LeaseInput.limits schedulerLeaseInput
    simp only [hslots, Option.getD_some, validatePositiveQueueLimit_ok hpos,
      validatePositiveQueueLimit_ok scheduler.maxProviderActive_pos,
      validatePositiveQueueLimit_ok scheduler.maxOrgActive_pos,
      validatePositiveQueueLimit_ok scheduler.maxRepoActive_pos,
      validatePositiveQueueLimit_ok config.reviewConcurrency.leaseTtlMs_pos, hbyRepo, require, h0, hr1, hr2,
      decide_true, if_true]
    rfl
  · refine ⟨⟨rfl, rfl, rfl, rfl, rfl, rfl⟩, fun job hjob => ?_⟩
    rw [repoActiveLimit_call hlower]
    unfold LeaseLimits.repoActiveLimit repoActiveLimitFor
    dsimp only
    obtain ⟨o, ho, hkey, hval⟩ | ⟨hno, hval⟩ := hkeys (lower job.repo)
    · obtain ⟨other, -, hname, hvalid, hheads⟩ := hfit.sound o ho
      rw [hname, hlower.idem] at hkey
      rw [hname, hkey] at hvalid
      rw [hval, hvalid, if_pos rfl, ← maxActiveHeads_congr hlower config hkey, hheads]
    · rw [hval, Option.getD_none]
      split
      · rename_i hvalid
        cases hheads : maxActiveHeads lower config job.repo with
        | none => rfl
        | some n =>
          obtain ⟨o, ho, hkey⟩ := hfit.complete job hjob hvalid n hheads
          exact absurd (by rw [hkey, hlower.idem]) (hno o ho)
      · rfl

end

/-! ## The candidates -/

section
variable (dateParse : String → Option Int) (now : Int)

instance : Std.Total budgetsBefore := ⟨leasesBefore_total none 0⟩

instance : IsTrans ReviewQueueJobRecord budgetsBefore := ⟨leasesBefore_trans none 0⟩

theorem budgetsBefore_iff (a b : ReviewQueueJobRecord) :
    budgetsBefore a b ↔ a.priority < b.priority ∨ (a.priority = b.priority ∧ a.createdAt ≤ b.createdAt) := by
  unfold budgetsBefore compareQueueJobsForBudget
  split <;> omega

theorem ties_budgetsBefore (a b : ReviewQueueJobRecord) :
    ties budgetsBefore a b = true ↔ a.priority = b.priority ∧ a.createdAt = b.createdAt := by
  rw [ties_iff, budgetsBefore_iff, budgetsBefore_iff]
  omega

instance : Std.Total listedBefore := ⟨fun a b => by unfold listedBefore; omega⟩

instance : IsTrans ReviewQueueJobRecord listedBefore := ⟨fun a b c hab hbc => by unfold listedBefore at *; omega⟩

/-- The jobs of the store, those of one priority and creation time in the order of its rows. -/
def StoreHolds (s : State) (jobs : List ReviewQueueJobRecord) : Prop :=
  ∀ x, jobs.filter (ties budgetsBefore x) = (s.jobs.rows.map mapReviewQueueJobRow).filter (ties budgetsBefore x)

theorem storeHolds_rows (s : State) : StoreHolds s (s.jobs.rows.map mapReviewQueueJobRow) := fun _ => rfl

theorem listed_filter {rows : List ReviewQueueJobRecord} {p : ReviewQueueJobRecord → Bool} {x : ReviewQueueJobRecord}
    (hp : ∀ a, p a = true → ties budgetsBefore x a = true) :
    ((orderJobs rows).map mapReviewQueueJobRow).filter p = (rows.map mapReviewQueueJobRow).filter p := by
  rw [List.filter_map, List.filter_map, orderJobs, insertionSort_filter_of_unordered]
  intro a b ha hb
  have hxa := (ties_budgetsBefore x _).mp (hp _ ha)
  have hxb := (ties_budgetsBefore x _).mp (hp _ hb)
  have hpriority : a.priority = b.priority := hxa.1.symm.trans hxb.1
  have hcreated : a.createdAt = b.createdAt := hxa.2.symm.trans hxb.2
  exact Or.inr ⟨hpriority, by rw [hcreated]⟩

theorem storeHolds_listed (s : State) : StoreHolds s (listReviewQueueJobs s) := by
  intro x
  exact listed_filter fun _ h => h

theorem StoreHolds.perm {s : State} {jobs : List ReviewQueueJobRecord} (h : StoreHolds s jobs) :
    jobs.Perm (s.jobs.rows.map mapReviewQueueJobRow) := by
  have hsort := insertionSort_eq_of_ties budgetsBefore h
  have hjobs := List.perm_insertionSort budgetsBefore jobs
  rw [hsort] at hjobs
  exact hjobs.symm.trans (List.perm_insertionSort budgetsBefore _)

/-! ## The jobs at the clock -/

def ExpiryAgrees (leaseTtlMs : Int) (job : ReviewQueueJobRecord) : Prop :=
  leaseExpired job leaseTtlMs now = (job.isActive && isExpiredLeaseJob job now leaseTtlMs)

theorem normalize_rank (job : ReviewQueueJobRecord) (leaseTtlMs : Int) :
    leaseRank (normalizeExpiredLeaseJob job now leaseTtlMs) = leaseRank job := by
  unfold normalizeExpiredLeaseJob
  split
  · rfl
  split
  · rfl
  · rfl

theorem requeued_reads_back {row : ReviewQueueJobRecord} {leaseTtlMs : Int}
    (h : ExpiryAgrees now leaseTtlMs (mapReviewQueueJobRow row)) :
    mapReviewQueueJobRow
      (if leaseExpired row leaseTtlMs now then requeued "queue_lease_expired_requeued" now row else row) =
      normalizeExpiredLeaseJob (mapReviewQueueJobRow row) now leaseTtlMs := by
  have hrow : leaseExpired row leaseTtlMs now = leaseExpired (mapReviewQueueJobRow row) leaseTtlMs now := rfl
  rw [hrow, h]
  unfold normalizeExpiredLeaseJob
  cases hactive : (mapReviewQueueJobRow row).isActive <;>
    cases hexpired : isExpiredLeaseJob (mapReviewQueueJobRow row) now leaseTtlMs <;> rfl

variable {s : State} {jobs : List ReviewQueueJobRecord} (limits : LeaseLimits)

theorem requeued_rows (hagree : ∀ row ∈ s.jobs.rows, ExpiryAgrees now limits.leaseTtlMs (mapReviewQueueJobRow row)) :
    (requeuedState limits now s).jobs.rows.map mapReviewQueueJobRow =
      (s.jobs.rows.map mapReviewQueueJobRow).map fun job => normalizeExpiredLeaseJob job now limits.leaseTtlMs := by
  have hrows : (requeuedState limits now s).jobs.rows = s.jobs.rows.map fun j =>
      if leaseExpired j limits.leaseTtlMs now then requeued "queue_lease_expired_requeued" now j else j := rfl
  rw [hrows, List.map_map, List.map_map]
  refine List.map_congr_left fun row hrow => ?_
  exact requeued_reads_back now (hagree row hrow)

theorem ties_congr {x a b : ReviewQueueJobRecord} (h : leaseRank a = leaseRank b) :
    ties budgetsBefore x a = ties budgetsBefore x b := by
  simp only [leaseRank, Prod.mk.injEq] at h
  rw [Bool.eq_iff_iff, ties_budgetsBefore, ties_budgetsBefore, h.2.1, h.2.2]

variable (hholds : StoreHolds s jobs)
  (hagree : ∀ job ∈ jobs, ExpiryAgrees now limits.leaseTtlMs job)
include hholds hagree

theorem requeued_rows_of_jobs :
    (requeuedState limits now s).jobs.rows.map mapReviewQueueJobRow =
      (s.jobs.rows.map mapReviewQueueJobRow).map fun job => normalizeExpiredLeaseJob job now limits.leaseTtlMs := by
  refine requeued_rows now limits fun row hrow => ?_
  exact hagree _ (hholds.perm.mem_iff.mpr (List.mem_map_of_mem hrow))

theorem listed_perm_normalized :
    (listReviewQueueJobs (requeuedState limits now s)).Perm
      (jobs.map fun job => normalizeExpiredLeaseJob job now limits.leaseTtlMs) := by
  have hlisted : (listReviewQueueJobs (requeuedState limits now s)).Perm
      ((requeuedState limits now s).jobs.rows.map mapReviewQueueJobRow) :=
    (List.perm_insertionSort _ _).map _
  rw [requeued_rows_of_jobs now limits hholds hagree] at hlisted
  exact hlisted.trans (hholds.perm.symm.map _)

theorem listed_ties_normalized (p : ReviewQueueJobRecord → Bool) (x : ReviewQueueJobRecord) :
    ((listReviewQueueJobs (requeuedState limits now s)).filter p).filter (ties budgetsBefore x) =
      ((jobs.map fun job => normalizeExpiredLeaseJob job now limits.leaseTtlMs).filter p).filter
        (ties budgetsBefore x) := by
  have hnorm : ∀ l : List ReviewQueueJobRecord,
      ((l.map fun job => normalizeExpiredLeaseJob job now limits.leaseTtlMs).filter p).filter (ties budgetsBefore x) =
        ((l.filter (ties budgetsBefore x)).map fun job =>
          normalizeExpiredLeaseJob job now limits.leaseTtlMs).filter p := by
    intro l
    rw [List.filter_filter, List.filter_map, List.filter_map, List.filter_filter]
    congr 1
    refine List.filter_congr fun job _ => ?_
    rw [Function.comp, Function.comp, ties_congr (normalize_rank now job limits.leaseTtlMs), Bool.and_comm]
  rw [hnorm, hholds x, ← hnorm, ← requeued_rows_of_jobs now limits hholds hagree, List.filter_filter,
    List.filter_filter]
  exact listed_filter fun a ha => (Bool.and_eq_true_iff.mp ha).1

/-- The rescue tier leaves the eligible jobs in the order of priority and age. -/
def OrderAgrees (dateParse : String → Option Int) (now : Int) (aging : Option Aging) (leaseTtlMs : Int)
    (jobs : List ReviewQueueJobRecord) : Prop :=
  ∀ a ∈ jobs, ∀ b ∈ jobs, isQueueJobEligible dateParse now (normalizeExpiredLeaseJob a now leaseTtlMs) = true →
    isQueueJobEligible dateParse now (normalizeExpiredLeaseJob b now leaseTtlMs) = true →
    (leasesBefore aging now a b ↔ budgetsBefore a b)

omit hagree in
theorem eligible_eq_waiting {job : ReviewQueueJobRecord}
    (hjob : job ∈ jobs.map fun job => normalizeExpiredLeaseJob job now limits.leaseTtlMs) :
    isQueueJobEligible dateParse now job =
      ((job.state = .queued || isRetryEligibleByNextEligibleAt dateParse now job) && isWaiting job) := by
  have htext : job.nextEligibleAt.filter (· ≠ .other "") = job.nextEligibleAt := by
    obtain ⟨old, hold, rfl⟩ := List.mem_map.mp hjob
    obtain ⟨row, -, rfl⟩ := List.mem_map.mp (hholds.perm.mem_iff.mp hold)
    have hkeep : (normalizeExpiredLeaseJob (mapReviewQueueJobRow row) now limits.leaseTtlMs).nextEligibleAt =
        row.nextEligibleAt.filter (· ≠ .other "") := by
      unfold normalizeExpiredLeaseJob
      split
      · rfl
      split
      · rfl
      · rfl
    rw [hkeep, Option.filter_filter]
    simp
  unfold isQueueJobEligible isRetryEligibleByNextEligibleAt isWaiting
  rw [htext]
  cases job.nextEligibleAt with
  | none => cases job.state <;> simp
  | some text => cases hparse : text.parse dateParse <;> cases job.state <;> simp [hparse]

theorem eligibleJobs_eq_budgetCandidates {input : LeaseInput} (hexclude : input.excludeJobIds = [])
    (horder : OrderAgrees dateParse now input.aging limits.leaseTtlMs jobs) :
    eligibleJobs dateParse input now (listReviewQueueJobs (requeuedState limits now s)) =
      budgetCandidates dateParse now (jobs.map fun job => normalizeExpiredLeaseJob job now limits.leaseTtlMs) := by
  have hperm := listed_perm_normalized now limits hholds hagree
  have hsorted : eligibleJobs dateParse input now (listReviewQueueJobs (requeuedState limits now s)) =
      ((listReviewQueueJobs (requeuedState limits now s)).filter (isQueueJobEligible dateParse now)).insertionSort
        budgetsBefore := by
    unfold eligibleJobs
    simp only [hexclude, List.contains_nil, Bool.not_false, Bool.true_and]
    refine insertionSort_congr _ fun a ha b hb => ?_
    obtain ⟨ha, hea⟩ := List.mem_filter.mp ha
    obtain ⟨hb, heb⟩ := List.mem_filter.mp hb
    obtain ⟨a, haj, rfl⟩ := List.mem_map.mp (hperm.mem_iff.mp ha)
    obtain ⟨b, hbj, rfl⟩ := List.mem_map.mp (hperm.mem_iff.mp hb)
    have hra := normalize_rank now a limits.leaseTtlMs
    have hrb := normalize_rank now b limits.leaseTtlMs
    rw [leasesBefore_congr hra hrb, horder a haj b hbj hea heb]
    exact (@leasesBefore_congr none now _ _ _ _ hra hrb).symm
  rw [hsorted, budgetCandidates, List.filter_filter]
  refine (insertionSort_eq_of_ties _ (listed_ties_normalized now limits hholds hagree _)).trans ?_
  congr 1
  exact List.filter_congr fun job hjob => eligible_eq_waiting dateParse now limits hholds hjob

end

/-! ## The two loops -/

section
variable {lower : String → String} {config : BotConfig} {scheduler : ReviewSchedulerConfig} {limits : LeaseLimits}
  {activeCount : Nat}

variable (lower config scheduler activeCount) in
/-- The variables of the two loops say the same. -/
structure Simulates (st : LeaseScan) (bt : BudgetScan) : Prop where
  ids : st.leased.map ReviewQueueJobRecord.jobId = bt.wouldLease.map ReviewBudgetCandidate.jobId
  provider : st.providerActive = bt.providerActive
  org : st.orgActive = bt.orgActive
  repo : st.repoActive = bt.repoActive
  heads : ∀ k, k ∈ st.activeHeads ↔ k ∈ bt.activeHeads
  bounded : ∀ p, st.providerActive p ≤ activeCount + st.leased.length
  cache : ∀ c ∈ bt.repoLimits, ∀ repo, lower repo = c.1 → c.2 = repoActiveLimitFor lower config scheduler repo

theorem Simulates.length {st : LeaseScan} {bt : BudgetScan} (h : Simulates lower config scheduler activeCount st bt) :
    st.leased.length = bt.wouldLease.length := by
  have hlen := congrArg List.length h.ids
  simpa using hlen

theorem cachedRepoActiveLimit_fit (hlower : LowersParts lower) {cache : List (String × Int)}
    (h : ∀ c ∈ cache, ∀ repo, lower repo = c.1 → c.2 = repoActiveLimitFor lower config scheduler repo)
    (repo : String) :
    (cachedRepoActiveLimit lower config scheduler cache repo).1 = repoActiveLimitFor lower config scheduler repo ∧
    ∀ c ∈ (cachedRepoActiveLimit lower config scheduler cache repo).2, ∀ other, lower other = c.1 →
      c.2 = repoActiveLimitFor lower config scheduler other := by
  unfold cachedRepoActiveLimit
  dsimp only
  cases hfind : cache.find? fun c => c.1 = lower repo with
  | some cached =>
    have hkey := List.find?_some hfind
    exact ⟨h cached (List.mem_of_find?_eq_some hfind) repo (by simpa using (of_decide_eq_true hkey).symm), h⟩
  | none =>
    refine ⟨rfl, fun c hc other hother => ?_⟩
    obtain hc | hc := List.mem_append.mp hc
    · exact h c hc other hother
    · obtain rfl := List.mem_singleton.mp hc
      unfold repoActiveLimitFor
      rw [maxActiveHeads_congr hlower config hother]

theorem budgetLoop_full (todo : List ReviewQueueJobRecord) (bt : BudgetScan)
    (hfull : effectiveGlobalLimit config scheduler ≤ ((activeCount + bt.wouldLease.length : Nat) : Int)) :
    (budgetLoop lower config scheduler activeCount todo bt).wouldLease = bt.wouldLease := by
  induction todo generalizing bt with
  | nil => rfl
  | cons job rest ih =>
    have hstep : (bt.consider lower config scheduler activeCount job rest).wouldLease = bt.wouldLease := by
      unfold BudgetScan.consider
      dsimp only
      split
      · rfl
      split
      · rfl
      · rfl
    rw [budgetLoop, ih _ (by rw [hstep]; exact hfull), hstep]

variable (lower config scheduler) in
/-- What the projection holds a candidate against. -/
def BudgetScan.capacity (bt : BudgetScan) (job : ReviewQueueJobRecord) (rest : List ReviewQueueJobRecord) :
    CapacityInput where
  maxProviderActive := effectiveGlobalLimit config scheduler
  maxOrgActive := scheduler.maxOrgActive
  manualCommandReserve := min scheduler.manualCommandReserve (effectiveGlobalLimit config scheduler)
  providerCount := bt.providerActive (providerKey job)
  orgCount := bt.orgActive job.org
  repoCount := bt.repoActive job.repo
  repoActiveLimit := repoActiveLimitFor lower config scheduler job.repo
  hasManualAfter := hasRunnableManualAfter lower rest bt.activeHeads (headKeyOf lower job)

variable (lower config scheduler) in
/-- The projection delays the candidate for what it found of its head or of the caps. -/
def BudgetScan.delays (bt : BudgetScan) (job : ReviewQueueJobRecord) (rest : List ReviewQueueJobRecord) : Prop :=
  headKeyOf lower job ∈ bt.activeHeads ∨
    capacityDelayReason job (bt.capacity lower config scheduler job rest) ≠ none

variable {job : ReviewQueueJobRecord} {rest : List ReviewQueueJobRecord}

theorem hasManualAfter_congr {heads heads' : List String} (h : ∀ k, k ∈ heads ↔ k ∈ heads') (key : String) :
    hasUncoveredManualAfter lower rest heads key = hasRunnableManualAfter lower rest heads' key := by
  unfold hasUncoveredManualAfter hasRunnableManualAfter headKeyOf
  congr 1
  funext job
  simp only [List.contains_eq_mem, h]

theorem Simulates.skips_iff {st : LeaseScan} {bt : BudgetScan} (h : Simulates lower config scheduler activeCount st bt)
    (hlimits : SchedulerLimits config scheduler limits)
    (hrepo : limits.repoActiveLimit lower job.repo = repoActiveLimitFor lower config scheduler job.repo)
    (hroom : ((activeCount + st.leased.length : Nat) : Int) < effectiveGlobalLimit config scheduler) :
    st.skips lower limits job rest = true ↔ bt.delays lower config scheduler job rest := by
  have hcount : (bt.providerActive (providerKey job) : Int) < effectiveGlobalLimit config scheduler := by
    have hle := h.bounded (providerKey job)
    rw [h.provider] at hle
    omega
  have hprovider : effectiveGlobalLimit config scheduler ≤ scheduler.maxProviderActive := min_le_right _ _
  have hmin : min scheduler.maxProviderActive (effectiveGlobalLimit config scheduler) =
      effectiveGlobalLimit config scheduler := min_eq_right hprovider
  have hkey : (asReserved job).provider = providerKey job := rfl
  have hhead : reviewQueueHeadKey lower (asReserved job) = headKeyOf lower job := rfl
  unfold LeaseScan.skips BudgetScan.delays capacityDelayReason BudgetScan.capacity
  simp only [hkey, hhead, hlimits.provider, hlimits.org, hlimits.global, hlimits.reserve, hrepo, h.provider, h.org,
    h.repo, hmin, List.contains_eq_mem, h.heads, hasManualAfter_congr h.heads]
  have hfar : ¬ (bt.providerActive (providerKey job) : Int) ≥ scheduler.maxProviderActive := by omega
  have hnear : ¬ (bt.providerActive (providerKey job) : Int) ≥ effectiveGlobalLimit config scheduler := by omega
  simp only [hfar, if_neg hnear]
  split_ifs with horg hrepoFull hreserve
  · simp [horg]
  · simp [hrepoFull]
  · simp [hreserve]
  · simp only [horg, hrepoFull, ne_eq, not_true_eq_false, or_false, decide_false, Bool.or_false, decide_eq_true_eq,
      Bool.or_eq_true, Bool.and_eq_true]
    tauto

/-- The cache is all that the projection changes when it delays. -/
theorem Simulates.consider_delayed {st : LeaseScan} {bt : BudgetScan}
    (h : Simulates lower config scheduler activeCount st bt) (hlower : LowersParts lower)
    (hdelays : bt.delays lower config scheduler job rest) :
    Simulates lower config scheduler activeCount st (bt.consider lower config scheduler activeCount job rest) := by
  obtain ⟨hlimit, hcache⟩ := cachedRepoActiveLimit_fit hlower h.cache job.repo
  unfold BudgetScan.consider
  simp only [hlimit]
  split
  · exact { h with }
  · rename_i hfresh
    have hreason := hdelays.resolve_left (by simpa using hfresh)
    split
    · exact { h with cache := hcache }
    · rename_i hnone
      exact absurd hnone hreason

theorem Simulates.consider_taken {st st' : LeaseScan} {bt : BudgetScan}
    (h : Simulates lower config scheduler activeCount st bt) (hlower : LowersParts lower)
    (hroom : ((activeCount + st.leased.length : Nat) : Int) < effectiveGlobalLimit config scheduler)
    (hdelays : ¬ bt.delays lower config scheduler job rest)
    (hids : st'.leased.map ReviewQueueJobRecord.jobId = st.leased.map ReviewQueueJobRecord.jobId ++ [job.jobId])
    (hprovider : st'.providerActive = bump st.providerActive (providerKey job))
    (horg : st'.orgActive = bump st.orgActive job.org) (hrepo : st'.repoActive = bump st.repoActive job.repo)
    (hheads : st'.activeHeads = st.activeHeads ++ [headKeyOf lower job]) :
    Simulates lower config scheduler activeCount st' (bt.consider lower config scheduler activeCount job rest) := by
  obtain ⟨hlimit, hcache⟩ := cachedRepoActiveLimit_fit hlower h.cache job.repo
  rw [BudgetScan.delays, not_or, not_not] at hdelays
  unfold BudgetScan.consider
  simp only [hlimit]
  split
  · rename_i hactive
    exact absurd (by simpa using hactive) hdelays.1
  split
  · rename_i reason hsome
    have hnone := hdelays.2.symm.trans hsome
    cases hnone
  split
  · rename_i hfull
    rw [← h.length] at hfull
    omega
  · have hlen : st'.leased.length = st.leased.length + 1 := by
      have hlen := congrArg List.length hids
      simpa using hlen
    constructor
    · rw [hids, h.ids, List.map_append]
      rfl
    · rw [hprovider, h.provider]
    · rw [horg, h.org]
    · rw [hrepo, h.repo]
    · intro k
      rw [hheads, List.mem_append, List.mem_append, h.heads]
    · intro p
      have hp := h.bounded p
      have hkey := h.bounded (providerKey job)
      rw [hprovider, hlen]
      unfold bump
      split <;> omega
    · exact hcache

theorem Simulates.loop (uuid : Nat → String) {now : Int} {before : JobTable} {active : List ReservedActiveJob}
    (hlower : LowersParts lower) (hlimits : SchedulerLimits config scheduler limits) :
    ∀ (todo : List ReviewQueueJobRecord) (st : LeaseScan) (bt : BudgetScan),
      Simulates lower config scheduler active.length st bt → ScanInv lower limits now before active todo st →
      (∀ job ∈ todo, limits.repoActiveLimit lower job.repo = repoActiveLimitFor lower config scheduler job.repo) →
      (leaseLoop lower limits uuid now active.length todo st).leased.map ReviewQueueJobRecord.jobId =
        (budgetLoop lower config scheduler active.length todo bt).wouldLease.map ReviewBudgetCandidate.jobId
  | [], _, _, h, _, _ => h.ids
  | job :: rest, st, bt, h, hinv, hrepos => by
    have hrest : ScanInv lower limits now before active rest st :=
      { hinv with
        ids := (List.nodup_cons.mp hinv.ids).2
        candidates := fun j hj => hinv.candidates j (List.mem_cons_of_mem _ hj) }
    have hrepos' := fun j hj => hrepos j (List.mem_cons_of_mem job hj)
    have hstop : effectiveGlobalLimit config scheduler ≤ ((active.length + st.leased.length : Nat) : Int) →
        st.leased.map ReviewQueueJobRecord.jobId =
          (budgetLoop lower config scheduler active.length (job :: rest) bt).wouldLease.map
            ReviewBudgetCandidate.jobId := by
      intro hfull
      rw [h.length] at hfull
      rw [budgetLoop_full _ _ hfull, h.ids]
    unfold leaseLoop
    split
    · rename_i hlimit
      rw [hlimits.limit] at hlimit
      exact hstop (by push_cast; omega)
    split
    · rename_i hglobal
      rw [hlimits.global] at hglobal
      exact hstop hglobal
    · rename_i hlimit hglobal
      have hroom : ((active.length + st.leased.length : Nat) : Int) < effectiveGlobalLimit config scheduler := by
        rw [← hlimits.global]
        exact not_le.mp hglobal
      have hskips : st.skips lower limits job rest = true ↔ bt.delays lower config scheduler job rest :=
        h.skips_iff hlimits (hrepos job List.mem_cons_self) hroom
      split
      · rename_i hskip
        exact Simulates.loop uuid hlower hlimits rest st _ (h.consider_delayed hlower (hskips.mp hskip)) hrest hrepos'
      · rename_i hskip
        have hnot : ¬ bt.delays lower config scheduler job rest := fun hd => hskip (hskips.mpr hd)
        obtain ⟨hinv', hrank⟩ := hinv.lease uuid (not_le.mp hlimit) (not_le.mp hglobal) (by simpa using hskip)
        have hids : (st.lease lower limits uuid now job).leased.map ReviewQueueJobRecord.jobId =
            st.leased.map ReviewQueueJobRecord.jobId ++ [job.jobId] := by
          have hfst := congrArg (List.map Prod.fst) hrank
          rw [List.map_append, List.map_map, List.map_map] at hfst
          exact hfst
        exact Simulates.loop uuid hlower hlimits rest _ _
          (h.consider_taken hlower hroom hnot hids rfl rfl rfl rfl) hinv' hrepos'

end

/-! ## The projection as a scan -/

section
variable (lower : String → String) (dateParse : String → Option Int) (config : BotConfig)
  (scheduler : ReviewSchedulerConfig) (now : Int) (jobs : List ReviewQueueJobRecord)

def previewJobs : List ReviewQueueJobRecord :=
  jobs.map fun job => normalizeExpiredLeaseJob job now config.reviewConcurrency.leaseTtlMs

/-- What the projection counts as in flight. -/
def previewInFlight : List ReservedActiveJob :=
  ((previewJobs config now jobs).filter ReviewQueueJobRecord.isActive).map asReserved

/-- A slot is free at the clock. -/
def HasSlot : Prop := ((previewInFlight config now jobs).length : Int) < effectiveGlobalLimit config scheduler

structure ProjectionAgrees : Prop where
  order : HasSlot config scheduler now jobs →
    OrderAgrees dateParse now config.aging config.reviewConcurrency.leaseTtlMs jobs
  expiry : ∀ job ∈ jobs, ExpiryAgrees now config.reviewConcurrency.leaseTtlMs job

/-- The limits of the two hold back the same jobs, wherever the projection's tests come to with a slot left. -/
def LimitsAgree : Prop :=
  let active := previewInFlight config now jobs
  ∀ taken job rest,
    Scanned (scanStops (previewLimits lower config scheduler) active)
      (providerSkips lower (previewLimits lower config scheduler) active)
      (budgetCandidates dateParse now (previewJobs config now jobs)) taken (job :: rest) →
    scanStops (previewLimits lower config scheduler) active taken = false →
    (providerSkips lower (previewLimits lower config scheduler) active taken job rest =
      providerSkips lower (callLimits lower config scheduler) active taken job rest)

/-- What a lease call took, as the projection would have: in its order, and no job whose lease it takes to be alive. -/
structure LeasedFits (leased : List ReviewQueueJobRecord) : Prop where
  order : leased.Pairwise budgetsBefore
  expiry : ∀ job ∈ jobs, job.isActive = true → job.jobId ∈ leased.map ReviewQueueJobRecord.jobId →
    isExpiredLeaseJob job now config.reviewConcurrency.leaseTtlMs = true

end

theorem countBy_perm {α κ : Type} [DecidableEq κ] (key : α → κ) {xs ys : List α} (h : xs.Perm ys) :
    countBy key xs = countBy key ys := by
  funext k
  exact h.countP_eq _

theorem contains_perm {xs ys : List String} (h : xs.Perm ys) (k : String) : xs.contains k = ys.contains k := by
  rw [List.contains_eq_mem, List.contains_eq_mem, decide_eq_decide]
  exact h.mem_iff

section
variable {lower : String → String} {dateParse : String → Option Int} {uuid : Nat → String} {config : BotConfig}
  {scheduler : ReviewSchedulerConfig} {now : Int} {s : State} {jobs : List ReviewQueueJobRecord} {limits : LeaseLimits}

theorem providerSkips_perm {active active' : List ReservedActiveJob} (h : active.Perm active') :
    providerSkips lower limits active = providerSkips lower limits active' := by
  funext taken job rest
  have hheld : (active ++ taken.map asReserved).Perm (active' ++ taken.map asReserved) := h.append_right _
  have hheads := contains_perm (hheld.map (reviewQueueHeadKey lower))
  unfold providerSkips capsSkip reserveSkips hasUncoveredManualAfter
  simp only [countBy_perm _ hheld, hheads]

theorem scanStops_perm {active active' : List ReservedActiveJob} (h : active.Perm active') :
    scanStops limits active = scanStops limits active' := by
  funext taken
  unfold scanStops
  rw [h.length_eq]

theorem scanStops_congr {limits' : LeaseLimits} (h : SchedulerLimits config scheduler limits)
    (h' : SchedulerLimits config scheduler limits') (active : List ReservedActiveJob) :
    scanStops limits active = scanStops limits' active := by
  funext taken
  unfold scanStops
  rw [h.limit, h.global, h'.limit, h'.global]

theorem providerSkips_congr {limits' : LeaseLimits} (h : SchedulerLimits config scheduler limits)
    (h' : SchedulerLimits config scheduler limits') {active : List ReservedActiveJob}
    {taken rest : List ReviewQueueJobRecord} {job : ReviewQueueJobRecord}
    (hrepo : limits.repoActiveLimit lower job.repo = limits'.repoActiveLimit lower job.repo) :
    providerSkips lower limits active taken job rest = providerSkips lower limits' active taken job rest := by
  have hrepo' : limits.repoActiveLimit lower (asReserved job).repo =
      limits'.repoActiveLimit lower (asReserved job).repo := hrepo
  unfold providerSkips capsSkip reserveSkips backgroundSlots
  rw [h.provider, h.global, h.org, h.reserve, h'.provider, h'.global, h'.org, h'.reserve, hrepo']

theorem simulates_start {listed normalized : List ReviewQueueJobRecord} (hperm : listed.Perm normalized)
    (delayed : List ReviewBudgetDelay) :
    Simulates lower config scheduler (activeJobs [] listed).length (.start lower (activeJobs [] listed) s)
      { delayed := delayed
        wouldLease := []
        providerActive := countBy providerKey (normalized.filter ReviewQueueJobRecord.isActive)
        orgActive := countBy ReviewQueueJobRecord.org (normalized.filter ReviewQueueJobRecord.isActive)
        repoActive := countBy ReviewQueueJobRecord.repo (normalized.filter ReviewQueueJobRecord.isActive)
        activeHeads := (normalized.filter ReviewQueueJobRecord.isActive).map (headKeyOf lower)
        repoLimits := [] } := by
  have hactive : activeJobs [] listed = (listed.filter ReviewQueueJobRecord.isActive).map asReserved := by
    simp [activeJobs]
  have hfiltered := hperm.filter ReviewQueueJobRecord.isActive
  have hcount : ∀ key : ReservedActiveJob → String,
      countBy key (activeJobs [] listed) =
        countBy (fun job => key (asReserved job)) (normalized.filter ReviewQueueJobRecord.isActive) := by
    intro key
    rw [← countBy_perm _ hfiltered, hactive]
    funext k
    exact List.countP_map
  constructor
  case ids => rfl
  case provider => exact hcount ReservedActiveJob.provider
  case org => exact hcount ReservedActiveJob.org
  case repo => exact hcount ReservedActiveJob.repo
  case heads =>
    intro k
    rw [LeaseScan.start, hactive, List.map_map]
    exact (hfiltered.map (headKeyOf lower)).mem_iff
  case bounded => exact fun p => List.countP_le_length
  case cache => exact fun c hc => absurd hc List.not_mem_nil

theorem leaseScan_eq_scan {input : LeaseInput} (hlimit : 1 ≤ limits.limit) (t : State) :
    (leaseScan lower dateParse uuid input limits now t).leased.map ReviewQueueJobRecord.jobId =
      (scan (scanStops limits (activeJobs input.reservedActiveJobs (listReviewQueueJobs t)))
        (providerSkips lower limits (activeJobs input.reservedActiveJobs (listReviewQueueJobs t))) []
        (eligibleJobs dateParse input now (listReviewQueueJobs t))).map ReviewQueueJobRecord.jobId := by
  have hscan := leaseLoop_eq_scan uuid _ [] _ (scanInv_start lower dateParse input now limits t hlimit
    (activeJobs input.reservedActiveJobs (listReviewQueueJobs t))) rfl
  have hids := congrArg (List.map ReservedActiveJob.jobId) hscan
  rw [List.map_map, List.map_map] at hids
  exact hids

theorem map_eq_of_keys {α κ β : Type} {key : α → κ} {f : α → β} {xs ys : List α} (hkeys : xs.map key = ys.map key)
    (h : ∀ x ∈ xs, ∀ y ∈ ys, key x = key y → f x = f y) : xs.map f = ys.map f := by
  induction xs generalizing ys with
  | nil =>
    rw [List.map_nil, eq_comm, List.map_eq_nil_iff] at hkeys
    rw [hkeys]
  | cons x xs ih =>
    obtain ⟨y, ys, rfl, hkey, hrest⟩ := List.map_eq_cons_iff.mp hkeys.symm
    have htail := ih hrest.symm fun a ha b hb => h a (List.mem_cons_of_mem _ ha) b (List.mem_cons_of_mem _ hb)
    rw [List.map_cons, List.map_cons, htail, h x List.mem_cons_self y List.mem_cons_self hkey.symm]

theorem ids_eq_iff {todo xs ys : List ReviewQueueJobRecord} (hids : (todo.map ReviewQueueJobRecord.jobId).Nodup)
    (hxs : xs.Sublist todo) (hys : ys.Sublist todo) :
    xs.map ReviewQueueJobRecord.jobId = ys.map ReviewQueueJobRecord.jobId ↔ xs = ys := by
  constructor
  · intro h
    have hmap := @map_eq_of_keys _ _ _ ReviewQueueJobRecord.jobId id _ _ h fun x hx y hy hid =>
      List.inj_on_of_nodup_map hids (hxs.subset hx) (hys.subset hy) hid
    rwa [List.map_id, List.map_id] at hmap
  · exact congrArg _

section
variable (hholds : StoreHolds s jobs) (hexpiry : ∀ job ∈ jobs, ExpiryAgrees now config.reviewConcurrency.leaseTtlMs job)
  (hlimits : SchedulerLimits config scheduler limits)
include hholds hexpiry hlimits

theorem inFlight_perm :
    (activeJobs [] (listReviewQueueJobs (requeuedState limits now s))).Perm (previewInFlight config now jobs) := by
  rw [← hlimits.ttl] at hexpiry
  have hperm := listed_perm_normalized now limits hholds hexpiry
  have hactive : ∀ listed, activeJobs [] listed = (listed.filter ReviewQueueJobRecord.isActive).map asReserved := by
    intro listed
    simp [activeJobs]
  rw [hactive, previewInFlight, previewJobs, ← hlimits.ttl]
  exact (hperm.filter _).map _

theorem candidates_eq {input : LeaseInput} (hexclude : input.excludeJobIds = [])
    (horder : OrderAgrees dateParse now input.aging config.reviewConcurrency.leaseTtlMs jobs) :
    eligibleJobs dateParse input now (listReviewQueueJobs (requeuedState limits now s)) =
      budgetCandidates dateParse now (previewJobs config now jobs) := by
  rw [← hlimits.ttl] at hexpiry horder
  rw [previewJobs, ← hlimits.ttl]
  exact eligibleJobs_eq_budgetCandidates dateParse now limits hholds hexpiry hexclude horder

end

theorem budgetScan_eq_scan (hlower : LowersParts lower) (hholds : StoreHolds s jobs)
    (hexpiry : ∀ job ∈ jobs, ExpiryAgrees now config.reviewConcurrency.leaseTtlMs job) :
    (budgetScan lower config scheduler dateParse now (previewJobs config now jobs)).wouldLease.map
        ReviewBudgetCandidate.jobId =
      (scan (scanStops (previewLimits lower config scheduler) (previewInFlight config now jobs))
        (providerSkips lower (previewLimits lower config scheduler) (previewInFlight config now jobs)) []
        (budgetCandidates dateParse now (previewJobs config now jobs))).map ReviewQueueJobRecord.jobId := by
  have hlimits : SchedulerLimits config scheduler (previewLimits lower config scheduler) :=
    schedulerLimits_preview config scheduler
  have hpos : 1 ≤ (previewLimits lower config scheduler).limit := effectiveGlobalLimit_pos config scheduler
  -- a lease call with these limits and no rescue tier goes through the same list
  have hcandidates := @candidates_eq dateParse _ scheduler now s jobs _ hholds hexpiry hlimits
    { maxProviderActive := 1, maxOrgActive := 1, maxRepoActive := 1 } rfl fun _ _ _ _ _ _ => Iff.rfl
  have hactive := inFlight_perm hholds hexpiry hlimits
  have hinv := scanInv_start lower dateParse { maxProviderActive := 1, maxOrgActive := 1, maxRepoActive := 1 } now
    (previewLimits lower config scheduler) (requeuedState (previewLimits lower config scheduler) now s) hpos
    (activeJobs [] (listReviewQueueJobs (requeuedState (previewLimits lower config scheduler) now s)))
  rw [hcandidates] at hinv
  have hscan := leaseLoop_eq_scan toString _ [] _ hinv rfl
  have hids := congrArg (List.map ReservedActiveJob.jobId) hscan
  rw [List.map_map, List.map_map] at hids
  have hloop := (simulates_start (listed_perm_normalized now _ hholds hexpiry)
    (cooldownDelays dateParse now ((previewJobs config now jobs).filter isWaiting))).loop toString hlower hlimits
    _ _ _ hinv fun job _ => repoActiveLimit_preview hlower config scheduler job.repo
  have hlength : ((previewJobs config now jobs).filter ReviewQueueJobRecord.isActive).length =
      (activeJobs [] (listReviewQueueJobs (requeuedState (previewLimits lower config scheduler) now s))).length := by
    rw [hactive.length_eq, previewInFlight, List.length_map]
  unfold budgetScan
  dsimp only
  rw [hlength, ← scanStops_perm hactive, ← providerSkips_perm hactive]
  exact hloop.symm.trans hids

theorem requeuedState_rows {t : State} {job : ReviewQueueJobRecord}
    (h : job ∈ listReviewQueueJobs (requeuedState limits now t)) :
    ∃ old ∈ listReviewQueueJobs t, leaseRank job = leaseRank old ∧ job.repo = old.repo := by
  obtain ⟨row, hrow, rfl⟩ := mem_listReviewQueueJobs.mp h
  have hrows : (requeuedState limits now t).jobs.rows = t.jobs.rows.map fun j =>
      if leaseExpired j limits.leaseTtlMs now then requeued "queue_lease_expired_requeued" now j else j := rfl
  rw [hrows] at hrow
  obtain ⟨old, hold, rfl⟩ := List.mem_map.mp hrow
  refine ⟨mapReviewQueueJobRow old, mem_listReviewQueueJobs.mpr ⟨old, hold, rfl⟩, ?_⟩
  split
  · exact ⟨rfl, rfl⟩
  · exact ⟨rfl, rfl⟩

theorem leaseScan_eq_callScan (hholds : StoreHolds s jobs)
    (hexpiry : ∀ job ∈ jobs, ExpiryAgrees now config.reviewConcurrency.leaseTtlMs job)
    (hlimits : SchedulerLimits config scheduler limits)
    (hrepos : ∀ job ∈ listReviewQueueJobs s, limits.repoActiveLimit lower job.repo =
      (callLimits lower config scheduler).repoActiveLimit lower job.repo)
    {input : LeaseInput} (hreserved : input.reservedActiveJobs = []) :
    (leaseScan lower dateParse uuid input limits now (requeuedState limits now s)).leased.map
        ReviewQueueJobRecord.jobId =
      (scan (scanStops (previewLimits lower config scheduler) (previewInFlight config now jobs))
        (providerSkips lower (callLimits lower config scheduler) (previewInFlight config now jobs)) []
        (eligibleJobs dateParse input now (listReviewQueueJobs (requeuedState limits now s)))).map
          ReviewQueueJobRecord.jobId := by
  have hpos : 1 ≤ limits.limit := hlimits.limit ▸ effectiveGlobalLimit_pos config scheduler
  have hactive := inFlight_perm hholds hexpiry hlimits
  rw [leaseScan_eq_scan hpos, hreserved, scanStops_perm hactive, providerSkips_perm hactive,
    scanStops_congr hlimits (schedulerLimits_preview config scheduler)]
  congr 1
  refine scan_congr fun taken job rest h _ => ?_
  obtain ⟨front, hfront⟩ := h.suffix
  have hjob : job ∈ eligibleJobs dateParse input now (listReviewQueueJobs (requeuedState limits now s)) := by
    rw [hfront]
    exact List.mem_append_right _ List.mem_cons_self
  obtain ⟨old, hold, -, hrepo⟩ := requeuedState_rows (mem_eligibleJobs.mp hjob).1
  refine providerSkips_congr hlimits (schedulerLimits_call config scheduler) ?_
  rw [hrepo, hrepos old hold]

theorem ids_eq_iff_limitsAgree (hlower : LowersParts lower) (hholds : StoreHolds s jobs)
    (hlimits : SchedulerLimits config scheduler limits)
    (hrepos : ∀ job ∈ listReviewQueueJobs s, limits.repoActiveLimit lower job.repo =
      (callLimits lower config scheduler).repoActiveLimit lower job.repo)
    (hagrees : ProjectionAgrees dateParse config scheduler now jobs)
    {input : LeaseInput} (hreserved : input.reservedActiveJobs = []) (hexclude : input.excludeJobIds = [])
    (haging : input.aging = config.aging) :
    (budgetScan lower config scheduler dateParse now (previewJobs config now jobs)).wouldLease.map
        ReviewBudgetCandidate.jobId =
      (leaseScan lower dateParse uuid input limits now (requeuedState limits now s)).leased.map
        ReviewQueueJobRecord.jobId ↔ LimitsAgree lower dateParse config scheduler now jobs := by
  obtain ⟨horder, hexpiry⟩ := hagrees
  rw [budgetScan_eq_scan hlower hholds hexpiry,
    leaseScan_eq_callScan hholds hexpiry hlimits hrepos hreserved]
  by_cases hslot : HasSlot config scheduler now jobs
  · have hcandidates := candidates_eq hholds hexpiry hlimits hexclude (haging ▸ horder hslot)
    have hids : ((budgetCandidates dateParse now (previewJobs config now jobs)).map
        ReviewQueueJobRecord.jobId).Nodup := by
      rw [← hcandidates]
      exact eligibleJobs_nodup _
    rw [hcandidates, ids_eq_iff hids (scan_sublist _ _ _) (scan_sublist _ _ _), scan_eq_iff (hids.of_map _)]
    rfl
  · have hstop : scanStops (previewLimits lower config scheduler) (previewInFlight config now jobs) [] = true := by
      rw [HasSlot, not_lt] at hslot
      unfold scanStops
      rw [Bool.or_eq_true, decide_eq_true_eq, decide_eq_true_eq]
      exact Or.inr hslot
    rw [scan_of_stops hstop, scan_of_stops hstop]
    refine iff_of_true rfl fun taken job rest h hnot => ?_
    have hfirst := h.stops_start hnot
    rw [hstop] at hfirst
    cases hfirst

/-! ## What agreement says of the leased jobs -/

theorem budgetLoop_takes {activeCount : Nat} (todo : List ReviewQueueJobRecord) (bt : BudgetScan) :
    ∃ taken : List ReviewQueueJobRecord, taken.Sublist todo ∧
      (budgetLoop lower config scheduler activeCount todo bt).wouldLease = bt.wouldLease ++ taken.map candidate := by
  induction todo generalizing bt with
  | nil => exact ⟨[], .slnil, (List.append_nil _).symm⟩
  | cons job rest ih =>
    obtain ⟨taken, hsub, htaken⟩ := ih (bt.consider lower config scheduler activeCount job rest)
    have hstep : (bt.consider lower config scheduler activeCount job rest).wouldLease = bt.wouldLease ∨
        (bt.consider lower config scheduler activeCount job rest).wouldLease = bt.wouldLease ++ [candidate job] := by
      unfold BudgetScan.consider
      dsimp only
      split
      · exact Or.inl rfl
      split
      · exact Or.inl rfl
      split
      · exact Or.inl rfl
      · exact Or.inr rfl
    obtain hsame | hadds := hstep
    · exact ⟨taken, hsub.cons job, by rw [budgetLoop, htaken, hsame]⟩
    · refine ⟨job :: taken, hsub.cons_cons job, ?_⟩
      rw [budgetLoop, htaken, hadds, List.append_assoc, List.map_cons, List.singleton_append]

theorem leaseScan_takes {input : LeaseInput} (hlimit : 1 ≤ limits.limit) (t : State) :
    ∃ taken : List ReviewQueueJobRecord, taken.Sublist (eligibleJobs dateParse input now (listReviewQueueJobs t)) ∧
      (leaseScan lower dateParse uuid input limits now t).leased.map leaseRank = taken.map leaseRank := by
  obtain ⟨taken, hsub, -, hrank⟩ := leaseLoop_inv uuid _ _ (scanInv_start lower dateParse input now limits t hlimit
    (activeJobs input.reservedActiveJobs (listReviewQueueJobs t)))
  exact ⟨taken, hsub, hrank⟩

theorem listed_eq_of_jobId {s : State} {a b : ReviewQueueJobRecord} (ha : a ∈ listReviewQueueJobs s)
    (hb : b ∈ listReviewQueueJobs s) (hid : a.jobId = b.jobId) : a = b := by
  obtain ⟨row, hrow, rfl⟩ := mem_listReviewQueueJobs.mp ha
  obtain ⟨row', hrow', rfl⟩ := mem_listReviewQueueJobs.mp hb
  rw [s.jobs.toTable.eq_of_key_eq hrow hrow' hid]

theorem StoreHolds.mem_listed (h : StoreHolds s jobs) {job : ReviewQueueJobRecord} (hjob : job ∈ jobs) :
    job ∈ listReviewQueueJobs s :=
  (storeHolds_listed s).perm.mem_iff.mpr (h.perm.mem_iff.mp hjob)

theorem mem_budgetCandidates {job : ReviewQueueJobRecord}
    (h : job ∈ budgetCandidates dateParse now (previewJobs config now jobs)) :
    isWaiting job = true ∧
      ∃ old ∈ jobs, normalizeExpiredLeaseJob old now config.reviewConcurrency.leaseTtlMs = job := by
  rw [budgetCandidates, List.mem_insertionSort] at h
  have hwaiting := List.mem_of_mem_filter h
  obtain ⟨hjob, hwaits⟩ := List.mem_filter.mp hwaiting
  exact ⟨hwaits, List.mem_map.mp hjob⟩

theorem pairwise_of_ranks {xs ys : List ReviewQueueJobRecord} (h : xs.map leaseRank = ys.map leaseRank)
    (hys : ys.Pairwise budgetsBefore) : xs.Pairwise budgetsBefore := by
  have hranks : (ys.map leaseRank).Pairwise fun x y =>
      ∀ a b, leaseRank a = x → leaseRank b = y → budgetsBefore a b := by
    rw [List.pairwise_map]
    exact hys.imp fun h a b ha hb => (@leasesBefore_congr none 0 _ _ _ _ ha hb).mpr h
  rw [← h, List.pairwise_map] at hranks
  exact hranks.imp fun h => h _ _ rfl rfl

theorem leasedFits_of_ids_eq (hholds : StoreHolds s jobs) (hlimit : 1 ≤ limits.limit) {input : LeaseInput}
    (hids : (budgetScan lower config scheduler dateParse now (previewJobs config now jobs)).wouldLease.map
        ReviewBudgetCandidate.jobId =
      (leaseScan lower dateParse uuid input limits now (requeuedState limits now s)).leased.map
        ReviewQueueJobRecord.jobId) :
    LeasedFits config now jobs
      (leaseScan lower dateParse uuid input limits now (requeuedState limits now s)).leased := by
  obtain ⟨picked, hpicked, hwould⟩ := @budgetLoop_takes lower config scheduler
    ((previewJobs config now jobs).filter ReviewQueueJobRecord.isActive).length
    (budgetCandidates dateParse now (previewJobs config now jobs)) _
  obtain ⟨taken, htaken, hranks⟩ := @leaseScan_takes lower dateParse uuid now limits input hlimit
    (requeuedState limits now s)
  unfold budgetScan at hids
  dsimp only at hids
  rw [hwould, List.nil_append, List.map_map] at hids
  have hpickedIds : picked.map ReviewQueueJobRecord.jobId = taken.map ReviewQueueJobRecord.jobId := by
    have hfst := congrArg (List.map Prod.fst) hranks
    rw [List.map_map, List.map_map] at hfst
    exact hids.trans hfst
  -- one id has one rank in the store
  have hsame : picked.map leaseRank = taken.map leaseRank := by
    refine map_eq_of_keys hpickedIds fun x hx y hy hid => ?_
    obtain ⟨-, old, hold, rfl⟩ := mem_budgetCandidates (hpicked.subset hx)
    obtain ⟨other, hother, hrank, -⟩ := requeuedState_rows (mem_eligibleJobs.mp (htaken.subset hy)).1
    have hidOld : old.jobId = (normalizeExpiredLeaseJob old now config.reviewConcurrency.leaseTtlMs).jobId :=
      (congrArg Prod.fst (normalize_rank now old config.reviewConcurrency.leaseTtlMs)).symm
    have hidOther : y.jobId = other.jobId := congrArg Prod.fst hrank
    rw [normalize_rank, hrank,
      listed_eq_of_jobId (hholds.mem_listed hold) hother (hidOld.trans (hid.trans hidOther))]
  constructor
  · refine pairwise_of_ranks (hranks.trans hsame.symm) ?_
    have hsorted : (budgetCandidates dateParse now (previewJobs config now jobs)).Pairwise budgetsBefore :=
      List.pairwise_insertionSort _ _
    exact hsorted.sublist hpicked
  · intro job hjob hactive hleased
    rw [← hids] at hleased
    obtain ⟨x, hx, hid⟩ := List.mem_map.mp hleased
    obtain ⟨hwaits, old, hold, rfl⟩ := mem_budgetCandidates (hpicked.subset hx)
    have hidOld : (normalizeExpiredLeaseJob old now config.reviewConcurrency.leaseTtlMs).jobId = old.jobId :=
      congrArg Prod.fst (normalize_rank now old config.reviewConcurrency.leaseTtlMs)
    have heq : old = job := listed_eq_of_jobId (hholds.mem_listed hold) (hholds.mem_listed hjob) (hidOld.symm.trans hid)
    subst heq
    cases hexpired : isExpiredLeaseJob old now config.reviewConcurrency.leaseTtlMs with
    | true => rfl
    | false =>
      -- a job in flight at the clock does not wait
      rw [normalizeExpiredLeaseJob, hactive, Bool.not_true, if_neg Bool.false_ne_true, hexpired, Bool.not_false,
        if_pos rfl] at hwaits
      unfold isWaiting at hwaits
      unfold ReviewQueueJobRecord.isActive at hactive
      cases hstate : old.state <;> simp [hstate] at hwaits hactive

/-- The lease call of the scheduler leases, and where it tells ranks and leases apart as the projection does, the two
name the same jobs in the same order just when their limits agree. Whatever they tell apart, where they name the same
jobs the projection's order and its reading of the leases fit what was leased. -/
theorem buildReviewBudgetStatus_eq_lease (localeCompare : String → String → Ordering) (hlower : LowersParts lower)
    (hscheduler : config.reviewScheduler = some scheduler) (hholds : StoreHolds s jobs) :
    ∃ leased after, leaseNextReviewQueueJobs lower dateParse uuid
        (schedulerLeaseInput lower config scheduler (listReviewQueueJobs s)) now s = .ok (leased, after) ∧
      (ProjectionAgrees dateParse config scheduler now jobs →
        ((buildReviewBudgetStatus lower localeCompare dateParse { config := config, jobs := jobs } now).wouldLease.map
            ReviewBudgetCandidate.jobId = leased.map ReviewQueueJobRecord.jobId ↔
          LimitsAgree lower dateParse config scheduler now jobs)) ∧
      ((buildReviewBudgetStatus lower localeCompare dateParse { config := config, jobs := jobs } now).wouldLease.map
          ReviewBudgetCandidate.jobId = leased.map ReviewQueueJobRecord.jobId →
        LeasedFits config now jobs leased) := by
  obtain ⟨limits, hok, hlimits, hrepos⟩ := schedulerLeaseInput_limits hlower config scheduler (listReviewQueueJobs s)
  have hsched : config.schedulerOrDefault = scheduler := by rw [BotConfig.schedulerOrDefault, hscheduler]; rfl
  have hwould : (buildReviewBudgetStatus lower localeCompare dateParse { config := config, jobs := jobs }
      now).wouldLease = (budgetScan lower config scheduler dateParse now (previewJobs config now jobs)).wouldLease := by
    rw [← hsched]
    rfl
  have hlease : leaseNextReviewQueueJobs lower dateParse uuid
      (schedulerLeaseInput lower config scheduler (listReviewQueueJobs s)) now s =
      .ok ((leaseScan lower dateParse uuid (schedulerLeaseInput lower config scheduler (listReviewQueueJobs s)) limits
          now (requeuedState limits now s)).leased,
        { s with jobs := (leaseScan lower dateParse uuid
          (schedulerLeaseInput lower config scheduler (listReviewQueueJobs s)) limits now
          (requeuedState limits now s)).jobs }) := by
    unfold leaseNextReviewQueueJobs
    rw [hok]
  have hpos : 1 ≤ limits.limit := hlimits.limit ▸ effectiveGlobalLimit_pos config scheduler
  refine ⟨_, _, hlease, fun hagrees => ?_, fun hids => ?_⟩
  · rw [hwould]
    exact ids_eq_iff_limitsAgree hlower hholds hlimits hrepos hagrees rfl rfl rfl
  · rw [hwould] at hids
    exact leasedFits_of_ids_eq hholds hpos hids

end

/-! ## A rescued job that the projection passes over -/

/-- `toLowerCase` of text in ASCII. -/
def asciiLower (text : String) : String := String.ofList (text.toList.map Char.toLower)

theorem toLower_eq_slash {c : Char} : c.toLower = '/' ↔ c = '/' := by
  constructor
  · intro h
    unfold Char.toLower at h
    split at h
    · rename_i hupper
      have hval := congrArg (fun c => c.val.toNat) h
      have hlow := UInt32.le_iff_toNat_le.mp hupper.1
      have hhigh := UInt32.le_iff_toNat_le.mp hupper.2
      simp [UInt32.toNat_add] at hval hlow hhigh
      omega
    · exact h
  · rintro rfl
    rfl

theorem split_map_toLower (cs : List Char) :
    split '/' (cs.map Char.toLower) = (split '/' cs).map (List.map Char.toLower) := by
  induction cs with
  | nil => rfl
  | cons c cs ih =>
    rw [List.map_cons, split, split]
    by_cases hc : c = '/'
    · rw [if_pos hc, if_pos (toLower_eq_slash.mpr hc), ih]
      rfl
    · rw [if_neg hc, if_neg (mt toLower_eq_slash.mp hc), ih]
      cases split '/' cs <;> rfl

theorem asciiLower_lowersParts : LowersParts asciiLower where
  idem := by
    intro s
    have htwice : Char.toLower ∘ Char.toLower = Char.toLower := funext toLower_toLower
    simp [asciiLower, htwice]
  empty := by
    intro s
    simp [asciiLower]
  parts := by
    intro s
    simp [asciiLower, split_map_toLower]

/-- A queued job of its own repository, of `createdAt` in milliseconds. -/
def waitingJob (jobId repo : String) (priority createdAt : Int) : ReviewQueueJobRecord where
  jobId := jobId
  attemptId := jobId
  source := .automatic
  lane := .background
  repo := repo
  org := "o"
  pullNumber := 1
  headSha := "a"
  priority := priority
  state := .queued
  createdAt := createdAt
  updatedAt := createdAt

theorem one_slot_active : (1 : Int) ≤ 1 := by decide

theorem no_slot_reserved : (0 : Int) ≤ 0 := by decide

theorem reserve_below_slot : (0 : Int) ≤ 1 := by decide

def oneSlotScheduler : ReviewSchedulerConfig where
  enabled := true
  maxProviderActive := 1
  maxOrgActive := 1
  maxRepoActive := 1
  maxQueuedPerRepo := 10
  manualCommandReserve := 0
  backgroundPriority := 50
  maxProviderActive_pos := one_slot_active
  maxOrgActive_pos := one_slot_active
  maxRepoActive_pos := one_slot_active
  manualCommandReserve_nonneg := no_slot_reserved
  manualCommandReserve_le := reserve_below_slot

def oneSlotConfig (aging : Option Aging) : BotConfig where
  reviewConcurrency := { maxActiveRuns := 1, leaseTtlMs := 60000, maxActiveRuns_pos := one_slot_active }
  reviewScheduler := some oneSlotScheduler
  aging := aging
  repoProfiles := none

def starvedState : State where
  jobs := {
    rows := [waitingJob "urgent" "o/a" 10 600000, waitingJob "starved" "o/b" 50 0]
    nodup := by decide
    attempts := by decide }

theorem preview_misses_rescue :
    (buildReviewBudgetStatus asciiLower compare (fun _ => none)
      { config := oneSlotConfig (some ⟨true, 1⟩), jobs := listReviewQueueJobs starvedState } 600000).wouldLease.map
        ReviewBudgetCandidate.jobId = ["urgent"] ∧
    ∃ leased after, leaseNextReviewQueueJobs asciiLower (fun _ => none) toString
      (schedulerLeaseInput asciiLower (oneSlotConfig (some ⟨true, 1⟩)) oneSlotScheduler
        (listReviewQueueJobs starvedState)) 600000 starvedState = .ok (leased, after) ∧
      leased.map ReviewQueueJobRecord.jobId = ["starved"] := by
  refine ⟨by decide +kernel, _, _, rfl, by decide +kernel⟩

/-- The rescued job is also the one that priority puts first. -/
def rescuedState : State where
  jobs := {
    rows := [waitingJob "fresh" "o/a" 50 600000, waitingJob "starved" "o/b" 40 0]
    nodup := by decide
    attempts := by decide }

theorem buildReviewBudgetStatus_eq_lease_starved :
    ∃ leased after, leaseNextReviewQueueJobs asciiLower (fun _ => none) toString
        (schedulerLeaseInput asciiLower (oneSlotConfig (some ⟨true, 1⟩)) oneSlotScheduler
          (listReviewQueueJobs rescuedState)) 600000 rescuedState = .ok (leased, after) ∧
      (buildReviewBudgetStatus asciiLower compare (fun _ => none)
        { config := oneSlotConfig (some ⟨true, 1⟩), jobs := listReviewQueueJobs rescuedState } 600000).wouldLease.map
          ReviewBudgetCandidate.jobId = leased.map ReviewQueueJobRecord.jobId ∧
      LeasedFits (oneSlotConfig (some ⟨true, 1⟩)) 600000 (listReviewQueueJobs rescuedState) leased := by
  obtain ⟨leased, after, hlease, hexact, hfits⟩ := @buildReviewBudgetStatus_eq_lease asciiLower (fun _ => none) toString
    (oneSlotConfig (some ⟨true, 1⟩)) oneSlotScheduler 600000 rescuedState (listReviewQueueJobs rescuedState) compare
    asciiLower_lowersParts rfl (storeHolds_listed rescuedState)
  have hagrees : ProjectionAgrees (fun _ => none) (oneSlotConfig (some ⟨true, 1⟩)) oneSlotScheduler 600000
      (listReviewQueueJobs rescuedState) := by
    constructor
    · intro _
      unfold OrderAgrees
      decide +kernel
    · unfold ExpiryAgrees
      decide +kernel
  have hlimits : LimitsAgree asciiLower (fun _ => none) (oneSlotConfig (some ⟨true, 1⟩)) oneSlotScheduler 600000
      (listReviewQueueJobs rescuedState) := by
    intro taken job rest _ _
    refine providerSkips_congr (schedulerLimits_preview _ _) (schedulerLimits_call _ _) ?_
    rw [repoActiveLimit_preview asciiLower_lowersParts, repoActiveLimit_call asciiLower_lowersParts]
    split
    · rfl
    · rfl
  have hids := (hexact hagrees).mpr hlimits
  exact ⟨leased, after, hlease, hids, hfits hids⟩

end NeonDiff.Budget
