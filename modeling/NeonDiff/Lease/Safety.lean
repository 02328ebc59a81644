import NeonDiff.Lease.Model

/-! # What a lease call may take -/

namespace NeonDiff.Lease

open NeonDiff.Lib NeonDiff.Lib.JsText NeonDiff.Store

/-! ## The lease order -/

def rescues (aging : Option Aging) (now : Int) (job : ReviewQueueJobRecord) : Bool :=
  (aging.filter (·.enabled)).any fun aging => isRescued job aging now

section
variable (aging : Option Aging) (now : Int)

theorem leasesBefore_iff (a b : ReviewQueueJobRecord) :
    leasesBefore aging now a b ↔
      if rescues aging now a then rescues aging now b = true → a.createdAt ≤ b.createdAt
      else rescues aging now b = false ∧
        (a.priority < b.priority ∨ (a.priority = b.priority ∧ a.createdAt ≤ b.createdAt)) := by
  have hcompare : compareQueueJobsForLease a b ≤ 0 ↔
      a.priority < b.priority ∨ (a.priority = b.priority ∧ a.createdAt ≤ b.createdAt) := by
    unfold compareQueueJobsForLease
    split <;> omega
  unfold leasesBefore leaseComparator rescues
  cases aging.filter (·.enabled) with
  | none => simpa using hcompare
  | some ag =>
    have hqueued : a.createdAt - b.createdAt ≤ 0 ↔ a.createdAt ≤ b.createdAt := by omega
    cases ha : isRescued a ag now <;> cases hb : isRescued b ag now
    all_goals simp [ha, hb, hcompare, hqueued]

theorem leasesBefore_total (a b : ReviewQueueJobRecord) :
    leasesBefore aging now a b ∨ leasesBefore aging now b a := by
  rw [leasesBefore_iff, leasesBefore_iff]
  cases rescues aging now a <;> cases rescues aging now b <;> simp <;> omega

theorem leasesBefore_trans (a b c : ReviewQueueJobRecord) (hab : leasesBefore aging now a b)
    (hbc : leasesBefore aging now b c) : leasesBefore aging now a c := by
  rw [leasesBefore_iff] at *
  cases ha : rescues aging now a <;> cases hb : rescues aging now b <;> cases hc : rescues aging now c <;>
    simp [ha, hb, hc] at hab hbc ⊢ <;> omega

instance : Std.Total (leasesBefore aging now) := ⟨leasesBefore_total aging now⟩

instance : IsTrans ReviewQueueJobRecord (leasesBefore aging now) := ⟨leasesBefore_trans aging now⟩

end

/-! ## One candidate -/

def leaseRank (job : ReviewQueueJobRecord) : String × Int × Int := (job.jobId, job.priority, job.createdAt)

theorem leasesBefore_congr {aging : Option Aging} {now : Int} {a b a' b' : ReviewQueueJobRecord}
    (ha : leaseRank a = leaseRank a') (hb : leaseRank b = leaseRank b') :
    leasesBefore aging now a b ↔ leasesBefore aging now a' b' := by
  simp only [leaseRank, Prod.mk.injEq] at ha hb
  have hra : rescues aging now a = rescues aging now a' := by simp only [rescues, isRescued, ha.2.2]
  have hrb : rescues aging now b = rescues aging now b' := by simp only [rescues, isRescued, hb.2.2]
  rw [leasesBefore_iff, leasesBefore_iff, hra, hrb, ha.2.1, ha.2.2, hb.2.1, hb.2.2]

theorem leasable_of_eligible {dateParse : String → Option Int} {now : Int} {j : ReviewQueueJobRecord}
    (h : isQueueJobEligible dateParse now j = true) : leasable j.jobId j = true := by
  unfold isQueueJobEligible at h
  unfold leasable
  cases hs : j.state <;> simp [hs] at h ⊢

section
variable (lower : String → String) (limits : LeaseLimits) (uuid : Nat → String) (now : Int)

/-- The test that an admitted job passed against the jobs before it. -/
def Admissible (before : List ReservedActiveJob) (job : ReservedActiveJob) : Prop :=
  (before.length : Int) < limits.maxGlobalActive ∧
  (∀ b ∈ before, reviewQueueHeadKey lower b ≠ reviewQueueHeadKey lower job) ∧
  (countBy ReservedActiveJob.provider before job.provider : Int) < limits.maxProviderActive ∧
  (countBy ReservedActiveJob.org before job.org : Int) < limits.maxOrgActive ∧
  (countBy ReservedActiveJob.repo before job.repo : Int) < limits.repoActiveLimit lower job.repo

/-- The counters of the loop say what they count, and the candidates still stand in the table. -/
structure ScanInv (before : JobTable) (active : List ReservedActiveJob) (todo : List ReviewQueueJobRecord)
    (st : LeaseScan) : Prop where
  provider : st.providerActive = countBy ReservedActiveJob.provider (active ++ st.leased.map asReserved)
  org : st.orgActive = countBy ReservedActiveJob.org (active ++ st.leased.map asReserved)
  repo : st.repoActive = countBy ReservedActiveJob.repo (active ++ st.leased.map asReserved)
  heads : st.activeHeads = (active ++ st.leased.map asReserved).map (reviewQueueHeadKey lower)
  ids : (todo.map ReviewQueueJobRecord.jobId).Nodup
  candidates : ∀ job ∈ todo, ∃ row, st.jobs.toTable.find? job.jobId = some row ∧ mapReviewQueueJobRow row = job ∧
    leasable job.jobId row = true
  admitted : Admitted (Admissible lower limits) active (st.leased.map asReserved)
  limit : (st.leased.length : Int) ≤ limits.limit
  leased : ∀ j ∈ st.leased, j.state = .leased ∧ j.leaseExpiresAt = some (now + limits.leaseTtlMs)
  rows : ∀ row ∈ st.jobs.rows, row ∈ before.rows ∨ mapReviewQueueJobRow row ∈ st.leased

theorem find?_leaseRow (jobId leaseId : String) (expires : Int) (jobs : JobTable) (k : String) :
    (leaseRow jobId leaseId expires now jobs).toTable.find? k =
      (jobs.toTable.find? k).map fun j => if leasable jobId j then leasedJob leaseId expires now j else j :=
  JobTable.find?_updateJobs _ _ _ _ _

theorem mem_leaseRow {jobId leaseId : String} {expires : Int} {jobs : JobTable} {row : ReviewQueueJobRecord} :
    row ∈ (leaseRow jobId leaseId expires now jobs).rows ↔
      ∃ old ∈ jobs.rows, (if leasable jobId old then leasedJob leaseId expires now old else old) = row := by
  unfold leaseRow
  exact JobTable.mem_updateJobs

theorem leasable_jobId {jobId : String} {row : ReviewQueueJobRecord} (h : leasable jobId row = true) :
    row.jobId = jobId := by
  simp only [leasable, Bool.and_eq_true, decide_eq_true_eq] at h
  exact h.1

def leasedRecord (st : LeaseScan) (row : ReviewQueueJobRecord) : ReviewQueueJobRecord :=
  mapReviewQueueJobRow (leasedJob (uuid st.leased.length) (now + limits.leaseTtlMs) now row)

theorem lease_leased {st : LeaseScan} {job row : ReviewQueueJobRecord}
    (hrow : st.jobs.toTable.find? job.jobId = some row) (hleasable : leasable job.jobId row = true) :
    (st.lease lower limits uuid now job).leased = st.leased ++ [leasedRecord limits uuid now st row] := by
  simp only [LeaseScan.lease, find?_leaseRow, hrow, Option.map_some, hleasable, if_true, Option.toList_some,
    leasedRecord]

variable {lower limits now}
theorem admissible_of_not_skips {before : JobTable} {active : List ReservedActiveJob} {job : ReviewQueueJobRecord}
    {rest : List ReviewQueueJobRecord} {st : LeaseScan}
    (hinv : ScanInv lower limits now before active (job :: rest) st)
    (hglobal : ((active.length + st.leased.length : Nat) : Int) < limits.maxGlobalActive)
    (hskip : st.skips lower limits job rest = false) :
    Admissible lower limits (active ++ st.leased.map asReserved) (asReserved job) := by
  simp only [LeaseScan.skips, Bool.or_eq_false_iff, decide_eq_false_iff_not, not_le, ge_iff_le] at hskip
  obtain ⟨⟨⟨⟨hhead, hprovider⟩, horg⟩, hrepo⟩, -⟩ := hskip
  rw [hinv.provider] at hprovider
  rw [hinv.org] at horg
  rw [hinv.repo] at hrepo
  refine ⟨by simpa using hglobal, fun b hb heq => ?_, hprovider, horg, hrepo⟩
  rw [hinv.heads, List.contains_eq_mem, decide_eq_false_iff_not] at hhead
  exact hhead (heq ▸ List.mem_map_of_mem hb)

theorem ScanInv.lease {before : JobTable} {active : List ReservedActiveJob} {job : ReviewQueueJobRecord}
    {rest : List ReviewQueueJobRecord} {st : LeaseScan}
    (hinv : ScanInv lower limits now before active (job :: rest) st)
    (hlimit : (st.leased.length : Int) < limits.limit)
    (hglobal : ((active.length + st.leased.length : Nat) : Int) < limits.maxGlobalActive)
    (hskip : st.skips lower limits job rest = false) :
    ScanInv lower limits now before active rest (st.lease lower limits uuid now job) ∧
      (st.lease lower limits uuid now job).leased.map leaseRank = st.leased.map leaseRank ++ [leaseRank job] := by
  obtain ⟨row, hrow, rfl, hleasable⟩ := hinv.candidates job List.mem_cons_self
  have hleased := lease_leased lower limits uuid now hrow hleasable
  have hmap : (st.lease lower limits uuid now (mapReviewQueueJobRow row)).leased.map asReserved =
      st.leased.map asReserved ++ [asReserved (mapReviewQueueJobRow row)] := by
    rw [hleased, List.map_append]
    rfl
  have hids := List.nodup_cons.mp hinv.ids
  refine ⟨?_, by rw [hleased, List.map_append]; rfl⟩
  constructor
  case provider => rw [hmap, ← List.append_assoc, countBy_concat, ← hinv.provider]; rfl
  case org => rw [hmap, ← List.append_assoc, countBy_concat, ← hinv.org]; rfl
  case repo => rw [hmap, ← List.append_assoc, countBy_concat, ← hinv.repo]; rfl
  case heads => rw [hmap, ← List.append_assoc, List.map_append, ← hinv.heads]; rfl
  case ids => exact hids.2
  case candidates =>
    -- the lease touches the one row, and the other candidates have other ids
    intro j hj
    obtain ⟨other, hother, hmapped, hl⟩ := hinv.candidates j (List.mem_cons_of_mem _ hj)
    refine ⟨other, ?_, hmapped, hl⟩
    have hne : leasable (mapReviewQueueJobRow row).jobId other = false := by
      rw [Bool.eq_false_iff]
      intro h
      exact hids.1 (List.mem_map.mpr ⟨j, hj, by rw [← leasable_jobId hl, leasable_jobId h]⟩)
    simp only [LeaseScan.lease, find?_leaseRow, hother, Option.map_some, hne, Bool.false_eq_true, if_false]
  case admitted =>
    rw [hmap]
    exact .concat hinv.admitted (admissible_of_not_skips hinv hglobal hskip)
  case limit =>
    rw [hleased, List.length_append, List.length_singleton]
    push_cast
    omega
  case leased =>
    intro j hj
    rw [hleased, List.mem_append, List.mem_singleton] at hj
    rcases hj with hj | rfl
    · exact hinv.leased j hj
    · exact ⟨rfl, rfl⟩
  case rows =>
    intro r hr
    rw [hleased]
    obtain ⟨old, hold, rfl⟩ := (mem_leaseRow ..).mp hr
    split
    · rename_i hl
      have : old = row := st.jobs.toTable.eq_of_key_eq hold (Table.mem_of_find? hrow)
        ((leasable_jobId hl).trans (leasable_jobId hleasable).symm)
      exact .inr (List.mem_append_right _ (by rw [this]; exact List.mem_singleton.mpr rfl))
    · exact (hinv.rows old hold).imp_right (List.mem_append_left _)

/-! ## The whole scan -/

theorem leaseLoop_inv {before : JobTable} {active : List ReservedActiveJob} :
    ∀ (todo : List ReviewQueueJobRecord) (st : LeaseScan), ScanInv lower limits now before active todo st →
      ∃ taken : List ReviewQueueJobRecord, taken.Sublist todo ∧
        ScanInv lower limits now before active [] (leaseLoop lower limits uuid now active.length todo st) ∧
        (leaseLoop lower limits uuid now active.length todo st).leased.map leaseRank =
          st.leased.map leaseRank ++ taken.map leaseRank
  | [], st, hinv => ⟨[], .slnil, hinv, by simp [leaseLoop]⟩
  | job :: rest, st, hinv => by
    have hstop : ScanInv lower limits now before active [] st :=
      { hinv with ids := List.nodup_nil, candidates := by simp }
    have hrest : ScanInv lower limits now before active rest st :=
      { hinv with
        ids := (List.nodup_cons.mp hinv.ids).2
        candidates := fun j hj => hinv.candidates j (List.mem_cons_of_mem _ hj) }
    unfold leaseLoop
    split
    · exact ⟨[], List.nil_sublist _, hstop, by simp⟩
    split
    · exact ⟨[], List.nil_sublist _, hstop, by simp⟩
    split
    · obtain ⟨taken, hsub, h, hleased⟩ := leaseLoop_inv rest st hrest
      exact ⟨taken, hsub.cons _, h, hleased⟩
    · rename_i hlimit hglobal hskip
      obtain ⟨hinv', hrank⟩ := hinv.lease uuid (not_le.mp hlimit) (not_le.mp hglobal) (by simpa using hskip)
      obtain ⟨taken, hsub, h, hleased⟩ := leaseLoop_inv rest _ hinv'
      exact ⟨job :: taken, hsub.cons_cons _, h, by rw [hleased, hrank]; simp⟩

end

/-! ## The call -/

section
variable (lower : String → String) (dateParse : String → Option Int) (uuid : Nat → String) (input : LeaseInput)
  (now : Int)

def SameHead (a b : ReservedActiveJob) : Prop :=
  lower a.repo = lower b.repo ∧ a.pullNumber = b.pullNumber ∧ lower a.headSha = lower b.headSha

instance (a b : ReservedActiveJob) : Decidable (SameHead lower a b) := inferInstanceAs (Decidable (_ ∧ _ ∧ _))

/-- Due: queued, or deferred or blocked with no readable `nextEligibleAt` after now. -/
def Due (job : ReviewQueueJobRecord) : Prop :=
  job.state = .queued ∨ ((job.state = .providerDeferred ∨ job.state = .blockedOnProof) ∧
    ∀ text ms, job.nextEligibleAt = some text → text.parse dateParse = some ms → ms ≤ now)

/-- What a lease call does to the listed jobs, of which `active` were in flight with the reservations. -/
structure LeaseKeepsLimits (limits : LeaseLimits) (listed : List ReviewQueueJobRecord)
    (active : List ReservedActiveJob) (leased : List ReviewQueueJobRecord) (after : JobTable) : Prop where
  total : ((active ++ leased.map asReserved).length : Int) ≤ max limits.maxGlobalActive active.length
  provider : ∀ p, (countBy ReservedActiveJob.provider (active ++ leased.map asReserved) p : Int) ≤
    max limits.maxProviderActive (countBy ReservedActiveJob.provider active p)
  org : ∀ o, (countBy ReservedActiveJob.org (active ++ leased.map asReserved) o : Int) ≤
    max limits.maxOrgActive (countBy ReservedActiveJob.org active o)
  repo : ∀ r, (countBy ReservedActiveJob.repo (active ++ leased.map asReserved) r : Int) ≤
    max (limits.repoActiveLimit lower r) (countBy ReservedActiveJob.repo active r)
  limit : (leased.length : Int) ≤ limits.limit
  candidates : ∀ j ∈ leased, j.jobId ∉ input.excludeJobIds ∧
    ∃ job ∈ listed, job.jobId = j.jobId ∧ Due dateParse now job
  apart : leased.Pairwise fun a b => ¬ SameHead lower (asReserved a) (asReserved b)
  fresh : ∀ a ∈ active, ∀ j ∈ leased, ¬ SameHead lower a (asReserved j)
  /-- A reservation stands for the row of its job id, so the two must name one head. -/
  freshRows : ∀ job ∈ listed, job.isActive = true →
    (∀ r ∈ input.reservedActiveJobs, r.jobId = job.jobId → SameHead lower r (asReserved job)) →
    ∀ j ∈ leased, ¬ SameHead lower (asReserved job) (asReserved j)
  order : leased.Pairwise (leasesBefore input.aging now)
  isLeased : ∀ j ∈ leased, j.state = .leased ∧ j.leaseExpiresAt = some (now + limits.leaseTtlMs)
  rows : ∀ row ∈ after.rows, mapReviewQueueJobRow row ∈ listed ∨ mapReviewQueueJobRow row ∈ leased

variable {lower dateParse uuid input now}

theorem reviewQueueHeadKey_congr {a b : ReservedActiveJob} (h : SameHead lower a b) :
    reviewQueueHeadKey lower a = reviewQueueHeadKey lower b := by
  simp only [reviewQueueHeadKey, h.1, h.2.1, h.2.2]

theorem mem_listReviewQueueJobs {s : State} {job : ReviewQueueJobRecord} :
    job ∈ listReviewQueueJobs s ↔ ∃ row ∈ s.jobs.rows, mapReviewQueueJobRow row = job := by
  simp only [listReviewQueueJobs, orderJobs, List.mem_map, List.mem_insertionSort]

theorem due_of_eligible {job : ReviewQueueJobRecord} (h : isQueueJobEligible dateParse now job = true) :
    Due dateParse now job := by
  unfold isQueueJobEligible at h
  split at h
  · exact .inl ‹_›
  split at h
  · cases h
  · rename_i hstate
    refine .inr ⟨by tauto, fun text ms htext hms => ?_⟩
    simpa [htext, hms] using h

theorem mem_eligibleJobs {jobs : List ReviewQueueJobRecord} {job : ReviewQueueJobRecord} :
    job ∈ eligibleJobs dateParse input now jobs ↔
      job ∈ jobs ∧ job.jobId ∉ input.excludeJobIds ∧ isQueueJobEligible dateParse now job = true := by
  simp [eligibleJobs, List.mem_insertionSort]

theorem eligibleJobs_nodup (s : State) :
    ((eligibleJobs dateParse input now (listReviewQueueJobs s)).map ReviewQueueJobRecord.jobId).Nodup := by
  have hlisted : ((listReviewQueueJobs s).map ReviewQueueJobRecord.jobId).Nodup := by
    have hperm : ((orderJobs s.jobs.rows).map ReviewQueueJobRecord.jobId).Perm
        (s.jobs.rows.map ReviewQueueJobRecord.jobId) := (List.perm_insertionSort _ _).map _
    rw [listReviewQueueJobs, List.map_map]
    exact hperm.nodup_iff.mpr s.jobs.nodup
  refine (((List.perm_insertionSort _ _).map _).nodup_iff).mpr ?_
  exact hlisted.sublist (List.filter_sublist.map _)

variable (lower dateParse input now) in
theorem scanInv_start (limits : LeaseLimits) (s : State) (hlimit : 1 ≤ limits.limit)
    (active : List ReservedActiveJob) :
    ScanInv lower limits now s.jobs active (eligibleJobs dateParse input now (listReviewQueueJobs s))
      (.start lower active s) where
  provider := by simp [LeaseScan.start]
  org := by simp [LeaseScan.start]
  repo := by simp [LeaseScan.start]
  heads := by simp [LeaseScan.start]
  ids := eligibleJobs_nodup s
  candidates := by
    intro job hjob
    obtain ⟨hlisted, -, heligible⟩ := mem_eligibleJobs.mp hjob
    obtain ⟨row, hrow, rfl⟩ := mem_listReviewQueueJobs.mp hlisted
    exact ⟨row, Table.find?_eq_some.mpr ⟨hrow, rfl⟩, rfl, leasable_of_eligible (j := mapReviewQueueJobRow row) heligible⟩
  admitted := .nil
  limit := by
    simp only [LeaseScan.start, List.length_nil]
    omega
  leased := by simp [LeaseScan.start]
  rows := fun row hrow => .inl hrow

theorem limits_limit {limits : LeaseLimits} (h : input.limits lower = .ok limits) : 1 ≤ limits.limit := by
  obtain ⟨_, -, h⟩ := bind_eq_ok h
  obtain ⟨_, -, h⟩ := bind_eq_ok h
  obtain ⟨_, -, h⟩ := bind_eq_ok h
  obtain ⟨_, -, h⟩ := bind_eq_ok h
  obtain ⟨_, -, h⟩ := bind_eq_ok h
  obtain ⟨_, -, h⟩ := bind_eq_ok h
  obtain ⟨_, -, h⟩ := bind_eq_ok h
  obtain ⟨_, -, h⟩ := bind_eq_ok h
  obtain ⟨_, hlimit, h⟩ := bind_eq_ok h
  obtain ⟨_, -, h⟩ := bind_eq_ok h
  obtain rfl := Except.ok.inj h
  simpa [validatePositiveQueueLimit] using hlimit

theorem leaseScan_keepsLimits (limits : LeaseLimits) (hlimit : 1 ≤ limits.limit) (s : State) :
    LeaseKeepsLimits lower dateParse input now limits (listReviewQueueJobs s)
      (activeJobs input.reservedActiveJobs (listReviewQueueJobs s))
      (leaseScan lower dateParse uuid input limits now s).leased
      (leaseScan lower dateParse uuid input limits now s).jobs := by
  obtain ⟨taken, hsub, hinv, hrank⟩ := leaseLoop_inv uuid _ _ 
    (scanInv_start lower dateParse input now limits s hlimit _)
  change ScanInv lower limits now s.jobs _ [] (leaseScan lower dateParse uuid input limits now s) at hinv
  change (leaseScan lower dateParse uuid input limits now s).leased.map leaseRank = [] ++ _ at hrank
  generalize leaseScan lower dateParse uuid input limits now s = scan at hinv hrank
  have hfresh := (hinv.admitted.mono fun _ _ h => h.2.1).fresh (reviewQueueHeadKey lower)
  have hcandidate : ∀ j ∈ scan.leased, ∃ job ∈ eligibleJobs dateParse input now (listReviewQueueJobs s),
      leaseRank job = leaseRank j := by
    intro j hj
    have : leaseRank j ∈ taken.map leaseRank := by
      rw [← List.nil_append (taken.map _), ← hrank]
      exact List.mem_map_of_mem hj
    obtain ⟨job, hjob, heq⟩ := List.mem_map.mp this
    exact ⟨job, hsub.subset hjob, heq⟩
  constructor
  case total => exact (hinv.admitted.mono fun _ _ h => h.1).length_le
  case provider => exact (hinv.admitted.mono fun _ _ h => h.2.2.1).countBy_le _ fun _ => _
  case org => exact (hinv.admitted.mono fun _ _ h => h.2.2.2.1).countBy_le _ fun _ => _
  case repo => exact (hinv.admitted.mono fun _ _ h => h.2.2.2.2).countBy_le _ (limits.repoActiveLimit lower)
  case limit => exact hinv.limit
  case candidates =>
    intro j hj
    obtain ⟨job, hjob, heq⟩ := hcandidate j hj
    obtain ⟨hlisted, hexcluded, heligible⟩ := mem_eligibleJobs.mp hjob
    have hid : job.jobId = j.jobId := congrArg Prod.fst heq
    exact ⟨hid ▸ hexcluded, job, hlisted, hid, due_of_eligible heligible⟩
  case apart =>
    have := List.pairwise_map.mp hfresh.2
    exact this.imp fun hne h => hne (reviewQueueHeadKey_congr h)
  case fresh =>
    intro a ha j hj h
    exact hfresh.1 a ha _ (List.mem_map_of_mem hj) (reviewQueueHeadKey_congr h)
  case freshRows =>
    intro job hjob hactive hreserved j hj h
    have hkey := reviewQueueHeadKey_congr h
    by_cases hr : ∃ r ∈ input.reservedActiveJobs, r.jobId = job.jobId
    · obtain ⟨r, hr, hid⟩ := hr
      rw [← reviewQueueHeadKey_congr (hreserved r hr hid)] at hkey
      exact hfresh.1 r (List.mem_append_right _ hr) _ (List.mem_map_of_mem hj) hkey
    · refine hfresh.1 (asReserved job) (List.mem_append_left _ (List.mem_map_of_mem ?_)) _
        (List.mem_map_of_mem hj) hkey
      simpa [List.mem_filter, hjob, hactive] using hr
  case order =>
    -- the candidates are sorted, and the leased jobs rank as a sublist of them
    have hsorted : (eligibleJobs dateParse input now (listReviewQueueJobs s)).Pairwise
        (leasesBefore input.aging now) := List.pairwise_insertionSort _ _
    have hranks : (taken.map leaseRank).Pairwise fun x y => ∀ a b, leaseRank a = x → leaseRank b = y →
        leasesBefore input.aging now a b := by
      rw [List.pairwise_map]
      exact (hsorted.sublist hsub).imp fun h a b ha hb => (leasesBefore_congr ha hb).mpr h
    rw [← List.nil_append (taken.map _), ← hrank, List.pairwise_map] at hranks
    exact hranks.imp fun h => h _ _ rfl rfl
  case isLeased => exact hinv.leased
  case rows =>
    intro row hrow
    exact (hinv.rows row hrow).imp_left fun h => mem_listReviewQueueJobs.mpr ⟨row, h, rfl⟩

/-- Every lease call that answers keeps the caps, leases due candidates of fresh heads only, and in order. -/
theorem leaseNextReviewQueueJobs_keepsLimits {s s' : State} {leased : List ReviewQueueJobRecord}
    (h : leaseNextReviewQueueJobs lower dateParse uuid input now s = .ok (leased, s')) :
    ∃ limits, input.limits lower = .ok limits ∧
      LeaseKeepsLimits lower dateParse input now limits (listReviewQueueJobs (requeuedState limits now s))
        (activeJobs input.reservedActiveJobs (listReviewQueueJobs (requeuedState limits now s))) leased s'.jobs := by
  unfold leaseNextReviewQueueJobs at h
  split at h
  · cases h
  · rename_i limits hlimits
    obtain ⟨rfl, rfl⟩ := Prod.mk.inj (Except.ok.inj h)
    exact ⟨limits, hlimits, leaseScan_keepsLimits limits (limits_limit hlimits) _⟩

end

/-! ## A queued job is never early, and a reservation speaks for its row -/

def queuedJob (jobId headSha : String) (nextEligibleAt : Option DateText) : ReviewQueueJobRecord where
  jobId := jobId
  attemptId := jobId
  source := .automatic
  lane := .background
  repo := "o/r"
  org := "o"
  pullNumber := 1
  headSha := headSha
  priority := 50
  state := .queued
  nextEligibleAt := nextEligibleAt
  createdAt := 0
  updatedAt := 0

def oneSlot (reserved : List ReservedActiveJob) : LeaseInput where
  maxProviderActive := 3
  maxOrgActive := 3
  maxRepoActive := 3
  limit := some 1
  reservedActiveJobs := reserved

/-- One queued job whose `nextEligibleAt` is a second away. -/
def earlyState : State where
  jobs := { rows := [queuedJob "q" "a" (some (.iso 1000))], nodup := by decide, attempts := by decide }

def twinState : State where
  jobs := {
    rows := [{ queuedJob "r" "a" none with state := .running, leaseId := some "l", leaseExpiresAt := some 9000 },
      queuedJob "q" "a" none]
    nodup := by decide
    attempts := by decide }

def strayReservation : ReservedActiveJob := { asReserved (queuedJob "r" "b" none) with providerId := none }

/-- A running job, a queued one of the same head, and two of other heads. -/
def crowdedState : State where
  jobs := {
    rows := [{ queuedJob "r" "a" none with state := .running, leaseId := some "l", leaseExpiresAt := some 9000 },
      queuedJob "q" "a" none, queuedJob "s" "b" none, queuedJob "t" "c" none]
    nodup := by decide
    attempts := by decide }

def twoPerRepo : LeaseInput where
  maxProviderActive := 3
  maxOrgActive := 3
  maxRepoActive := 2

theorem leaseNextReviewQueueJobs_keepsLimits_crowded :
    ∃ r limits, leaseNextReviewQueueJobs id (fun _ => none) toString twoPerRepo 0 crowdedState = .ok r ∧
      r.1.map (·.jobId) = ["s"] ∧ twoPerRepo.limits id = .ok limits ∧
      LeaseKeepsLimits id (fun _ => none) twoPerRepo 0 limits (listReviewQueueJobs (requeuedState limits 0 crowdedState))
        (activeJobs [] (listReviewQueueJobs (requeuedState limits 0 crowdedState))) r.1 r.2.jobs := by
  obtain ⟨limits, hlimits, hkeeps⟩ := leaseNextReviewQueueJobs_keepsLimits
    (show leaseNextReviewQueueJobs id (fun _ => none) toString twoPerRepo 0 crowdedState = .ok (_, _) from rfl)
  exact ⟨_, limits, rfl, by decide, hlimits, hkeeps⟩

theorem leaseNextReviewQueueJobs_early_and_twin :
    (∃ r, leaseNextReviewQueueJobs id (fun _ => none) toString (oneSlot []) 0 earlyState = .ok r ∧
      ∃ j ∈ r.1, j.nextEligibleAt = some (.iso 1000)) ∧
    ∃ r, leaseNextReviewQueueJobs id (fun _ => none) toString (oneSlot [strayReservation]) 0 twinState = .ok r ∧
      ∃ j ∈ r.1, ∃ row ∈ r.2.jobs.rows, row.state = .running ∧ row.jobId ≠ j.jobId ∧
        SameHead id (asReserved row) (asReserved j) := by
  refine ⟨⟨_, rfl, ?_⟩, ⟨_, rfl, ?_⟩⟩
  · decide
  · decide

end NeonDiff.Lease
