import NeonDiff.LeaseClear.Model

/-! # What clearing does

A dry run reports what the real call acts on, and the real call takes no job from a worker without evidence.
-/

namespace NeonDiff.LeaseClear

open NeonDiff.Lib NeonDiff.Lib.IsoDate NeonDiff.Store

variable {Rest : Type}

/-! ## The loops -/

/-- A row behind the updates of the candidates. -/
def clearedRow (checkedAt : String) (candidates : List (ReviewQueueLeaseClearCandidate Rest)) (row : QueueJobRow Rest) :
    QueueJobRow Rest :=
  match candidates.find? fun candidate => candidate.job.jobId = row.jobId with
  | some candidate => if isActive row then requeuedRow checkedAt candidate row else row
  | none => row

def isTaken (candidates : List (ReviewQueueLeaseClearCandidate Rest)) (row : QueueJobRow Rest) : Bool :=
  isActive row && (candidates.find? fun candidate => candidate.job.jobId = row.jobId).isSome

theorem clearedRow_of_not_isTaken {checkedAt : String} {candidates : List (ReviewQueueLeaseClearCandidate Rest)}
    {row : QueueJobRow Rest} (h : isTaken candidates row = false) : clearedRow checkedAt candidates row = row := by
  unfold clearedRow
  unfold isTaken at h
  cases hfind : candidates.find? fun candidate => candidate.job.jobId = row.jobId with
  | none => rfl
  | some candidate =>
    rw [hfind, Option.isSome_some, Bool.and_true] at h
    simp [h]

theorem clearedRow_of_isTaken {checkedAt : String} {candidates : List (ReviewQueueLeaseClearCandidate Rest)}
    {row : QueueJobRow Rest} (h : isTaken candidates row = true) :
    isActive row = true ∧ ∃ candidate ∈ candidates, candidate.job.jobId = row.jobId ∧
      clearedRow checkedAt candidates row = requeuedRow checkedAt candidate row := by
  unfold isTaken at h
  rw [Bool.and_eq_true, Option.isSome_iff_exists] at h
  obtain ⟨hactive, candidate, hfind⟩ := h
  have hid : candidate.job.jobId = row.jobId := by simpa using List.find?_some hfind
  refine ⟨hactive, candidate, List.mem_of_find?_eq_some hfind, hid, ?_⟩
  unfold clearedRow
  rw [hfind]
  exact if_pos hactive

@[simp] theorem clearedRow_jobId (checkedAt : String) (candidates : List (ReviewQueueLeaseClearCandidate Rest))
    (row : QueueJobRow Rest) : (clearedRow checkedAt candidates row).jobId = row.jobId := by
  unfold clearedRow
  split
  · split <;> rfl
  · rfl

theorem countP_add_countP {α : Type} {p q r : α → Bool} (hapart : ∀ a, p a = true → q a = false)
    (hor : ∀ a, r a = (p a || q a)) (l : List α) : l.countP p + l.countP q = l.countP r := by
  induction l with
  | nil => rfl
  | cons a l ih =>
    rw [List.countP_cons, List.countP_cons, List.countP_cons, ← ih, hor a]
    cases hp : p a with
    | true =>
      rw [hapart a hp]
      simp
      omega
    | false =>
      simp
      omega

theorem requeueJob_rows (checkedAt : String) (t : Table (@QueueJobRow.jobId Rest)) (n : Nat)
    (candidate : ReviewQueueLeaseClearCandidate Rest) :
    (requeueJob checkedAt (t, n) candidate).1.rows = t.rows.map (clearedRow checkedAt [candidate]) ∧
      (requeueJob checkedAt (t, n) candidate).2 = n + t.rows.countP (isTaken [candidate]) := by
  constructor
  · apply List.map_congr_left
    intro row _
    unfold clearedRow
    by_cases hid : candidate.job.jobId = row.jobId
    · simp [hid]
    · simp [hid, Ne.symm hid]
  · refine congrArg (n + ·) (List.countP_congr fun row _ => ?_)
    unfold isTaken
    by_cases hid : candidate.job.jobId = row.jobId
    · simp [hid]
    · simp [hid, Ne.symm hid]

theorem clearedRow_cons (checkedAt : String) (candidate : ReviewQueueLeaseClearCandidate Rest)
    (candidates : List (ReviewQueueLeaseClearCandidate Rest)) (row : QueueJobRow Rest) :
    clearedRow checkedAt candidates (clearedRow checkedAt [candidate] row) = clearedRow checkedAt (candidate :: candidates) row ∧
      isTaken (candidate :: candidates) row =
        (isTaken [candidate] row || isTaken candidates (clearedRow checkedAt [candidate] row)) ∧
      (isTaken [candidate] row = true → isTaken candidates (clearedRow checkedAt [candidate] row) = false) := by
  by_cases hid : candidate.job.jobId = row.jobId
  · cases hactive : isActive row with
    | true =>
      have hfirst : clearedRow checkedAt [candidate] row = requeuedRow checkedAt candidate row := by
        simp [clearedRow, hid, hactive]
      have hquiet : isTaken candidates (requeuedRow checkedAt candidate row) = false := rfl
      rw [hfirst, clearedRow_of_not_isTaken hquiet, hquiet]
      refine ⟨?_, ?_, fun _ => rfl⟩
      · simp [clearedRow, hid, hactive]
      · simp [isTaken, hid, hactive]
    | false =>
      have hquiet : ∀ cs : List (ReviewQueueLeaseClearCandidate Rest), isTaken cs row = false := by
        intro cs
        simp [isTaken, hactive]
      rw [clearedRow_of_not_isTaken (hquiet [candidate]), clearedRow_of_not_isTaken (hquiet candidates),
        clearedRow_of_not_isTaken (hquiet (candidate :: candidates)), hquiet, hquiet, hquiet]
      exact ⟨rfl, rfl, fun _ => rfl⟩
  · have hquiet : isTaken [candidate] row = false := by simp [isTaken, hid]
    rw [clearedRow_of_not_isTaken hquiet, hquiet]
    refine ⟨?_, ?_, fun h => nomatch h⟩
    · simp [clearedRow, hid]
    · simp [isTaken, hid]

theorem requeueJobs_rows (checkedAt : String) (candidates : List (ReviewQueueLeaseClearCandidate Rest))
    (t : Table (@QueueJobRow.jobId Rest)) (n : Nat) :
    (candidates.foldl (requeueJob checkedAt) (t, n)).1.rows = t.rows.map (clearedRow checkedAt candidates) ∧
      (candidates.foldl (requeueJob checkedAt) (t, n)).2 = n + t.rows.countP (isTaken candidates) := by
  induction candidates generalizing t n with
  | nil =>
    have hsame : ∀ row : QueueJobRow Rest, clearedRow checkedAt [] row = row := fun row => rfl
    have hnone : ∀ row : QueueJobRow Rest, isTaken [] row = false := by
      intro row
      simp [isTaken]
    constructor
    · rw [show clearedRow checkedAt ([] : List (ReviewQueueLeaseClearCandidate Rest)) = id from funext hsame, List.map_id]
      rfl
    · simp [hnone]
  | cons candidate candidates ih =>
    obtain ⟨hrows, hcount⟩ := requeueJob_rows checkedAt t n candidate
    obtain ⟨ihrows, ihcount⟩ := ih (requeueJob checkedAt (t, n) candidate).1 (requeueJob checkedAt (t, n) candidate).2
    rw [List.foldl_cons]
    constructor
    · rw [ihrows, hrows, List.map_map]
      exact List.map_congr_left fun row _ => (clearedRow_cons checkedAt candidate candidates row).1
    · rw [ihcount, hcount, hrows, List.countP_map, Nat.add_assoc]
      refine congrArg (n + ·) (countP_add_countP ?_ ?_ t.rows)
      · exact fun row => (clearedRow_cons checkedAt candidate candidates row).2.2
      · exact fun row => (clearedRow_cons checkedAt candidate candidates row).2.1

theorem deleteRunLeases_rows (leases : List ReviewRunLeaseClearCandidate) (t : Table RunLeaseRow.leaseId) (n : Nat) :
    ∀ row, row ∈ (leases.foldl deleteRunLease (t, n)).1.rows ↔
      row ∈ t.rows ∧ ∀ lease ∈ leases, lease.leaseId ≠ row.leaseId := by
  induction leases generalizing t n with
  | nil => simp
  | cons lease leases ih =>
    intro row
    have hdelete : row ∈ (deleteRunLease (t, n) lease).1.rows ↔ row ∈ t.rows ∧ row.leaseId ≠ lease.leaseId := by
      unfold deleteRunLease
      rw [Table.mem_delete, decide_eq_false_iff_not]
    rw [List.foldl_cons, ih, hdelete, List.forall_mem_cons, and_assoc, ne_comm]

/-! ## The matched jobs -/

section
variable (host : Host) (input : ClearInput) (checkedAt : String) (s : LeaseStore Rest)

def StaleRunLease (leaseId : String) : Prop :=
  ∃ lease ∈ s.runLeases.rows, lease.leaseId = leaseId ∧
    (lease.ownerPid.any host.isProcessAlive = false ∨
      passed (host.dateParse checkedAt) (host.dateParse lease.expiresAt) = true)

/-- What speaks against the lease of a job: its expiry, or its run lease. -/
def Evidence (row : QueueJobRow Rest) : Prop :=
  expiredByLeaseExpiry host input (host.dateParse checkedAt) (mapReviewQueueJobRow row) = true ∨
    ∃ leaseId, (mapReviewQueueJobRow row).leaseId = some leaseId ∧ StaleRunLease host checkedAt s leaseId

def staleRunLeaseIds : List String :=
  ((listReviewRunLeaseClearCandidates host checkedAt s).filter fun lease => lease.staleReason.isSome).map
    ReviewRunLeaseClearCandidate.leaseId

theorem mem_staleRunLeaseIds {leaseId : String} :
    leaseId ∈ staleRunLeaseIds host checkedAt s ↔ StaleRunLease host checkedAt s leaseId := by
  have hreason : ∀ row, (runLeaseCandidate host checkedAt row).staleReason.isSome = true ↔
      row.ownerPid.any host.isProcessAlive = false ∨
        passed (host.dateParse checkedAt) (host.dateParse row.expiresAt) = true := by
    intro row
    unfold runLeaseCandidate
    dsimp only
    cases row.ownerPid.any host.isProcessAlive with
    | false => simp
    | true =>
      cases passed (host.dateParse checkedAt) (host.dateParse row.expiresAt) <;> simp
  unfold staleRunLeaseIds StaleRunLease listReviewRunLeaseClearCandidates
  simp only [List.mem_map, List.mem_filter, List.mem_insertionSort]
  constructor
  · rintro ⟨candidate, ⟨⟨row, hrow, rfl⟩, hstale⟩, rfl⟩
    exact ⟨row, hrow, rfl, (hreason row).mp hstale⟩
  · rintro ⟨row, hrow, rfl, hstale⟩
    exact ⟨_, ⟨⟨row, hrow, rfl⟩, (hreason row).mpr hstale⟩, rfl⟩

def matchedJobs : List (ReviewQueueLeaseClearCandidate Rest) :=
  listReviewQueueLeaseClearCandidates host input (host.dateParse checkedAt) (staleRunLeaseIds host checkedAt s) s

theorem mem_matchedJobs {candidate : ReviewQueueLeaseClearCandidate Rest} :
    candidate ∈ matchedJobs host input checkedAt s ↔
      ∃ row ∈ s.jobs.rows, isActive row = true ∧ inScope input (mapReviewQueueJobRow row) = true ∧
        candidate = jobCandidate host input (host.dateParse checkedAt) (staleRunLeaseIds host checkedAt s)
          (mapReviewQueueJobRow row) ∧
        (candidate.expired = true ∨ input.expiredOnly = false ∧ input.forceActive = true) := by
  unfold matchedJobs listReviewQueueLeaseClearCandidates listActiveReviewQueueJobs
  simp only [List.mem_filter, List.mem_map, List.mem_insertionSort, Bool.or_eq_true, Bool.and_eq_true,
    Bool.not_eq_true']
  constructor
  · rintro ⟨⟨job, ⟨⟨row, ⟨hrow, hactive⟩, rfl⟩, hscope⟩, rfl⟩, hkept⟩
    exact ⟨row, hrow, hactive, hscope, rfl, hkept⟩
  · rintro ⟨row, hrow, hactive, hscope, rfl, hkept⟩
    exact ⟨⟨_, ⟨⟨row, ⟨hrow, hactive⟩, rfl⟩, hscope⟩, rfl⟩, hkept⟩

theorem expired_iff_evidence (row : QueueJobRow Rest) :
    (jobCandidate host input (host.dateParse checkedAt) (staleRunLeaseIds host checkedAt s)
      (mapReviewQueueJobRow row)).expired = true ↔ Evidence host input checkedAt s row := by
  unfold jobCandidate Evidence
  simp only [Bool.or_eq_true, Option.any_eq_true, List.contains_iff_mem, mem_staleRunLeaseIds]

theorem isTaken_iff {row : QueueJobRow Rest} (hrow : row ∈ s.jobs.rows) :
    isTaken (matchedJobs host input checkedAt s) row = true ↔
      ∃ candidate ∈ matchedJobs host input checkedAt s, candidate.job.jobId = row.jobId := by
  unfold isTaken
  rw [Bool.and_eq_true, List.find?_isSome]
  constructor
  · rintro ⟨-, candidate, hcandidate, hid⟩
    exact ⟨candidate, hcandidate, by simpa using hid⟩
  · rintro ⟨candidate, hcandidate, hid⟩
    refine ⟨?_, candidate, hcandidate, by simpa using hid⟩
    obtain ⟨other, hother, hactive, -, rfl, -⟩ := (mem_matchedJobs host input checkedAt s).mp hcandidate
    have heq : other = row := s.jobs.eq_of_key_eq hother hrow hid
    rwa [← heq]

end

/-! ## The call -/

/-- What a call that goes through reports of a store, and what it leaves of it. -/
structure Cleared (host : Host) (input : ClearInput) (now : Int) (s : LeaseStore Rest) (result : ClearResult Rest)
    (s' : LeaseStore Rest) : Prop where
  /-- Only a leased or running job is requeued, and only a matched one. -/
  requeued_active : ∀ row ∈ s.jobs.rows, row ∉ s'.jobs.rows →
    isActive row = true ∧ ∃ candidate ∈ result.jobs, candidate.job.jobId = row.jobId ∧
      requeuedRow (toISOString now) candidate row ∈ s'.jobs.rows
  /-- A job without evidence against its lease is requeued by force only. -/
  requeued_evidence : ∀ row ∈ s.jobs.rows, row ∉ s'.jobs.rows →
    Evidence host input (toISOString now) s row ∨ input.forceActive = true ∧ input.expiredOnly = false
  no_new_job : s'.jobs.rows.map QueueJobRow.jobId = s.jobs.rows.map QueueJobRow.jobId
  /-- Only a reported run lease is deleted. -/
  deleted_reported : ∀ lease ∈ s.runLeases.rows, lease ∉ s'.runLeases.rows →
    ∃ candidate ∈ result.runLeases, candidate.leaseId = lease.leaseId
  no_new_lease : s'.runLeases.rows ⊆ s.runLeases.rows
  requeued_count : result.requeued = s.jobs.rows.countP fun row =>
    (s'.jobs.find? row.jobId).map QueueJobRow.state ≠ some row.state
  matched_count : result.expiredMatched + result.activeMatched = result.matched

/-- What a real call acts on: it requeues every matched job and deletes every reported run lease. -/
structure ActsOn (s : LeaseStore Rest) (jobs : List (ReviewQueueLeaseClearCandidate Rest))
    (runLeases : List ReviewRunLeaseClearCandidate) (s' : LeaseStore Rest) : Prop where
  requeued : ∀ row ∈ s.jobs.rows, row ∉ s'.jobs.rows ↔ ∃ candidate ∈ jobs, candidate.job.jobId = row.jobId
  deleted : ∀ lease ∈ s.runLeases.rows, lease ∉ s'.runLeases.rows ↔
    ∃ candidate ∈ runLeases, candidate.leaseId = lease.leaseId

theorem clearReviewQueueLeases_eq_ok {host : Host} {input : ClearInput} {now : Int} {s s' : LeaseStore Rest}
    {result : ClearResult Rest} (h : clearReviewQueueLeases host input now s = .ok (result, s')) :
    result.jobs = matchedJobs host input (toISOString now) s ∧
      result.runLeases = scopedRunLeases input (matchedJobs host input (toISOString now) s)
        ((listReviewRunLeaseClearCandidates host (toISOString now) s).filter fun lease => lease.staleReason.isSome) ∧
      result.expiredMatched + result.activeMatched = result.matched ∧
      (input.dryRun = true → s' = s ∧ result.requeued = 0) ∧
      (input.dryRun = false →
        s'.jobs.rows = s.jobs.rows.map (clearedRow (toISOString now) result.jobs) ∧
        result.requeued = s.jobs.rows.countP (isTaken result.jobs) ∧
        ∀ lease, lease ∈ s'.runLeases.rows ↔
          lease ∈ s.runLeases.rows ∧ ∀ candidate ∈ result.runLeases, candidate.leaseId ≠ lease.leaseId) := by
  unfold clearReviewQueueLeases at h
  split at h
  · cases h
  · cases h
    refine ⟨rfl, rfl, ?_, ?_, ?_⟩
    · dsimp only
      omega
    · intro hdry
      simp [hdry]
    · intro hreal
      simp only [hreal, Bool.false_eq_true, if_false]
      obtain ⟨hrows, hcount⟩ := requeueJobs_rows (toISOString now) (matchedJobs host input (toISOString now) s) s.jobs 0
      rw [Nat.zero_add] at hcount
      exact ⟨hrows, hcount, deleteRunLeases_rows _ s.runLeases 0⟩

section
variable {host : Host} {input : ClearInput} {now : Int} {s s' : LeaseStore Rest} {result : ClearResult Rest}

theorem not_mem_rows_iff (hrows : s'.jobs.rows = s.jobs.rows.map (clearedRow (toISOString now) result.jobs))
    {row : QueueJobRow Rest} (hrow : row ∈ s.jobs.rows) :
    row ∉ s'.jobs.rows ↔ isTaken result.jobs row = true := by
  constructor
  · intro hgone
    by_contra hkept
    rw [Bool.not_eq_true] at hkept
    apply hgone
    rw [hrows]
    exact List.mem_map.mpr ⟨row, hrow, clearedRow_of_not_isTaken hkept⟩
  · intro htaken hmem
    rw [hrows] at hmem
    obtain ⟨other, hother, hcleared⟩ := List.mem_map.mp hmem
    have hid : other.jobId = row.jobId := by rw [← hcleared, clearedRow_jobId]
    have heq : other = row := s.jobs.eq_of_key_eq hother hrow hid
    obtain ⟨hactive, candidate, -, -, hrequeued⟩ := @clearedRow_of_isTaken Rest (toISOString now) result.jobs row htaken
    rw [heq, hrequeued] at hcleared
    rw [← hcleared] at hactive
    cases hactive

theorem state_changed_iff (hrows : s'.jobs.rows = s.jobs.rows.map (clearedRow (toISOString now) result.jobs))
    {row : QueueJobRow Rest} (hrow : row ∈ s.jobs.rows) :
    (s'.jobs.find? row.jobId).map QueueJobRow.state ≠ some row.state ↔ isTaken result.jobs row = true := by
  have hfind : s'.jobs.find? row.jobId = some (clearedRow (toISOString now) result.jobs row) := by
    rw [Table.find?_eq_some]
    refine ⟨?_, clearedRow_jobId _ _ row⟩
    rw [hrows]
    exact List.mem_map_of_mem hrow
  rw [hfind, Option.map_some]
  cases htaken : isTaken result.jobs row with
  | false =>
    rw [clearedRow_of_not_isTaken htaken]
    simp
  | true =>
    obtain ⟨hactive, candidate, -, -, hrequeued⟩ := @clearedRow_of_isTaken Rest (toISOString now) result.jobs row htaken
    rw [hrequeued]
    refine ⟨fun _ => rfl, fun _ hsame => ?_⟩
    have hqueued : row.state = .queued := (Option.some.inj hsame).symm
    unfold isActive at hactive
    rw [hqueued] at hactive
    cases hactive

theorem cleared_of_ok (h : clearReviewQueueLeases host input now s = .ok (result, s')) :
    Cleared host input now s result s' := by
  obtain ⟨hjobs, -, hmatched, hdry, hreal⟩ := clearReviewQueueLeases_eq_ok h
  cases hmode : input.dryRun with
  | true =>
    obtain ⟨rfl, hcount⟩ := hdry hmode
    refine ⟨fun row hrow hgone => absurd hrow hgone, fun row hrow hgone => absurd hrow hgone, rfl,
      fun lease hlease hgone => absurd hlease hgone, fun _ hlease => hlease, ?_, hmatched⟩
    rw [hcount, eq_comm, List.countP_eq_zero]
    intro row hrow
    have hfind : s'.jobs.find? row.jobId = some row := Table.find?_eq_some.mpr ⟨hrow, rfl⟩
    simp [hfind]
  | false =>
    obtain ⟨hrows, hcount, hleases⟩ := hreal hmode
    have htaken : ∀ row ∈ s.jobs.rows, row ∉ s'.jobs.rows → isTaken result.jobs row = true :=
      fun row hrow hgone => (not_mem_rows_iff hrows hrow).mp hgone
    refine ⟨fun row hrow hgone => ?_, fun row hrow hgone => ?_, ?_, fun lease hlease hgone => ?_,
      fun lease hlease => ((hleases lease).mp hlease).1, ?_, hmatched⟩
    · obtain ⟨hactive, candidate, hcandidate, hid, hrequeued⟩ :=
        @clearedRow_of_isTaken Rest (toISOString now) result.jobs row (htaken row hrow hgone)
      refine ⟨hactive, candidate, hcandidate, hid, ?_⟩
      rw [hrows, ← hrequeued]
      exact List.mem_map_of_mem hrow
    · have hfound := htaken row hrow hgone
      rw [hjobs, isTaken_iff host input _ s hrow] at hfound
      obtain ⟨candidate, hcandidate, hid⟩ := hfound
      obtain ⟨other, hother, -, -, rfl, hkept⟩ := (mem_matchedJobs host input _ s).mp hcandidate
      have heq : other = row := s.jobs.eq_of_key_eq hother hrow hid
      subst heq
      rw [expired_iff_evidence] at hkept
      exact hkept.imp_right fun hforced => ⟨hforced.2, hforced.1⟩
    · rw [hrows, List.map_map]
      exact List.map_congr_left fun row _ => clearedRow_jobId _ _ row
    · by_contra hnone
      apply hgone
      rw [hleases]
      exact ⟨hlease, fun candidate hcandidate heq => hnone ⟨candidate, hcandidate, heq⟩⟩
    · rw [hcount]
      refine List.countP_congr fun row hrow => ?_
      rw [decide_eq_true_eq, state_changed_iff hrows hrow]

theorem actsOn_of_ok (hreal : input.dryRun = false) (h : clearReviewQueueLeases host input now s = .ok (result, s')) :
    ActsOn s result.jobs result.runLeases s' := by
  obtain ⟨hjobs, -, -, -, hacts⟩ := clearReviewQueueLeases_eq_ok h
  obtain ⟨hrows, -, hleases⟩ := hacts hreal
  constructor
  · intro row hrow
    rw [not_mem_rows_iff hrows hrow, hjobs, isTaken_iff host input _ s hrow]
  · intro lease hlease
    rw [hleases, not_and]
    constructor
    · intro hgone
      by_contra hnone
      exact hgone hlease fun candidate hcandidate heq => hnone ⟨candidate, hcandidate, heq⟩
    · rintro ⟨candidate, hcandidate, hid⟩ - hall
      exact hall candidate hcandidate hid

end

/-- A dry run changes nothing and reports the jobs and run leases that the real call on the same store acts on. A call
that goes through takes only matched jobs that are leased or running, takes none without evidence unless it is forced,
deletes only reported run leases, and counts what it did. -/
theorem clear_review_queue_leases_sound (host : Host) (input : ClearInput) (now : Int) (s : LeaseStore Rest) :
    (∀ message, clearReviewQueueLeases host { input with dryRun := true } now s = .error message ↔
      clearReviewQueueLeases host { input with dryRun := false } now s = .error message) ∧
    (∀ report s', clearReviewQueueLeases host { input with dryRun := true } now s = .ok (report, s') → s' = s ∧
      ∀ result s'', clearReviewQueueLeases host { input with dryRun := false } now s = .ok (result, s'') →
        report.jobs = result.jobs ∧ report.runLeases = result.runLeases ∧
          ActsOn s report.jobs report.runLeases s'') ∧
    ∀ result s', clearReviewQueueLeases host input now s = .ok (result, s') → Cleared host input now s result s' := by
  refine ⟨fun message => ?_, fun report s' hreport => ?_, fun result s' h => cleared_of_ok h⟩
  · unfold clearReviewQueueLeases
    dsimp only
    split
    · exact Iff.rfl
    · exact ⟨(fun h => nomatch h), (fun h => nomatch h)⟩
  · obtain ⟨hjobs, hleases, -, hdry, -⟩ := clearReviewQueueLeases_eq_ok hreport
    refine ⟨(hdry rfl).1, fun result s'' hresult => ?_⟩
    obtain ⟨hrealJobs, hrealLeases, -, -, -⟩ := clearReviewQueueLeases_eq_ok hresult
    have hsameJobs : report.jobs = result.jobs := hjobs.trans hrealJobs.symm
    have hsameLeases : report.runLeases = result.runLeases := hleases.trans hrealLeases.symm
    refine ⟨hsameJobs, hsameLeases, ?_⟩
    rw [hsameJobs, hsameLeases]
    exact actsOn_of_ok rfl hresult

end NeonDiff.LeaseClear
