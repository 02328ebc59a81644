import NeonDiff.Lease.Safety
import NeonDiff.Lib.Scan

/-! # The slots that stay free for manual commands -/

namespace NeonDiff.Lease

open NeonDiff.Lib NeonDiff.Store

variable {lower : String → String} {limits : LeaseLimits} {active : List ReservedActiveJob}

/-! ## What the reserve is for -/

section
variable (lower : String → String) (limits : LeaseLimits)

def backgroundSlots : Int := min limits.maxProviderActive limits.maxGlobalActive - limits.manualCommandReserve

def ManualWaits (held : List ReservedActiveJob) (job : ReviewQueueJobRecord) (behind : List ReviewQueueJobRecord) : Prop :=
  ∃ manual ∈ behind, manual.lane = .manual ∧
    reviewQueueHeadKey lower (asReserved manual) ≠ reviewQueueHeadKey lower (asReserved job) ∧
    ∀ h ∈ held, reviewQueueHeadKey lower h ≠ reviewQueueHeadKey lower (asReserved manual)

/-- Each background job that is leased with a manual job waiting behind it leaves the reserve free. -/
def ReserveHonoured (eligible : List ReviewQueueJobRecord) (active : List ReservedActiveJob)
    (leased : List ReviewQueueJobRecord) : Prop :=
  ∀ front job behind before record after, eligible = front ++ job :: behind → leased = before ++ record :: after →
    record.jobId = job.jobId → job.lane = .background → ManualWaits lower (active ++ before.map asReserved) job behind →
    ((active.length + before.length + 1 : Nat) : Int) ≤ backgroundSlots limits

/-! ## The reserve counted over all providers -/

/-- The tests other than the reserve's pass over a job. -/
def capsSkip (held : List ReservedActiveJob) (job : ReservedActiveJob) : Bool :=
  (held.map (reviewQueueHeadKey lower)).contains (reviewQueueHeadKey lower job) ||
  (countBy ReservedActiveJob.provider held job.provider : Int) ≥ limits.maxProviderActive ||
  (countBy ReservedActiveJob.org held job.org : Int) ≥ limits.maxOrgActive ||
  (countBy ReservedActiveJob.repo held job.repo : Int) ≥ limits.repoActiveLimit lower job.repo

def reserveSkips (count : Nat) (held : List ReservedActiveJob) (job : ReviewQueueJobRecord)
    (rest : List ReviewQueueJobRecord) : Bool :=
  job.lane = .background &&
    hasUncoveredManualAfter lower rest (held.map (reviewQueueHeadKey lower)) (reviewQueueHeadKey lower (asReserved job)) &&
    limits.manualCommandReserve > 0 && (count : Int) ≥ backgroundSlots limits

variable (active : List ReservedActiveJob)

def scanStops (taken : List ReviewQueueJobRecord) : Bool :=
  (taken.length : Int) ≥ limits.limit || ((active.length + taken.length : Nat) : Int) ≥ limits.maxGlobalActive

/-- The code's tests: the reserve counts the jobs of the candidate's provider. -/
def providerSkips (taken : List ReviewQueueJobRecord) (job : ReviewQueueJobRecord) (rest : List ReviewQueueJobRecord) :
    Bool :=
  let held := active ++ taken.map asReserved
  capsSkip lower limits held (asReserved job) ||
    reserveSkips lower limits (countBy ReservedActiveJob.provider held (asReserved job).provider) held job rest

/-- The same tests with the reserve counted over the jobs of all providers. -/
def totalSkips (taken : List ReviewQueueJobRecord) (job : ReviewQueueJobRecord) (rest : List ReviewQueueJobRecord) :
    Bool :=
  let held := active ++ taken.map asReserved
  capsSkip lower limits held (asReserved job) || reserveSkips lower limits held.length held job rest

/-- In the scan with the reserve counted over all providers, a job that is held back for the reserve alone is held back
by the count of its own provider too. -/
def OthersNeverHoldBack (eligible : List ReviewQueueJobRecord) : Prop :=
  ∀ taken job rest,
    Scanned (scanStops limits active) (totalSkips lower limits active) eligible taken (job :: rest) →
    scanStops limits active taken = false → capsSkip lower limits (active ++ taken.map asReserved) (asReserved job) = false →
    job.lane = .background → ManualWaits lower (active ++ taken.map asReserved) job rest →
    backgroundSlots limits ≤ ((active ++ taken.map asReserved).length : Int) →
    backgroundSlots limits ≤ (countBy ReservedActiveJob.provider (active ++ taken.map asReserved) (asReserved job).provider : Int)

end

/-! ## The loop is a scan -/

theorem hasUncoveredManualAfter_iff {held : List ReservedActiveJob} {job : ReviewQueueJobRecord}
    {rest : List ReviewQueueJobRecord} :
    hasUncoveredManualAfter lower rest (held.map (reviewQueueHeadKey lower)) (reviewQueueHeadKey lower (asReserved job)) =
      true ↔ ManualWaits lower held job rest := by
  unfold hasUncoveredManualAfter ManualWaits
  simp only [List.any_eq_true, Bool.and_eq_true, decide_eq_true_eq, Bool.not_eq_true', List.contains_eq_mem,
    decide_eq_false_iff_not, List.mem_map, not_exists, not_and]

theorem reserveSkips_iff (hreserve : 0 < limits.manualCommandReserve) {count : Nat} {held : List ReservedActiveJob}
    {job : ReviewQueueJobRecord} {rest : List ReviewQueueJobRecord} :
    reserveSkips lower limits count held job rest = true ↔
      job.lane = .background ∧ ManualWaits lower held job rest ∧ backgroundSlots limits ≤ (count : Int) := by
  unfold reserveSkips
  rw [Bool.and_eq_true, Bool.and_eq_true, Bool.and_eq_true, hasUncoveredManualAfter_iff]
  simp only [decide_eq_true_eq, ge_iff_le, gt_iff_lt, hreserve, and_true, and_assoc]

theorem skips_eq_providerSkips {before : JobTable} {now : Int} {job : ReviewQueueJobRecord}
    {todo taken rest : List ReviewQueueJobRecord} {st : LeaseScan} (hinv : ScanInv lower limits now before active todo st)
    (htaken : taken.map asReserved = st.leased.map asReserved) :
    st.skips lower limits job rest = providerSkips lower limits active taken job rest := by
  unfold LeaseScan.skips providerSkips capsSkip reserveSkips backgroundSlots
  rw [hinv.provider, hinv.org, hinv.repo, hinv.heads, htaken]
  rfl

theorem leaseLoop_eq_scan (uuid : Nat → String) {before : JobTable} {now : Int} (todo : List ReviewQueueJobRecord)
    (taken : List ReviewQueueJobRecord) (st : LeaseScan) (hinv : ScanInv lower limits now before active todo st)
    (htaken : taken.map asReserved = st.leased.map asReserved) :
    (leaseLoop lower limits uuid now active.length todo st).leased.map asReserved =
      (scan (scanStops limits active) (providerSkips lower limits active) taken todo).map asReserved := by
  induction todo generalizing taken st with
  | nil => exact htaken.symm
  | cons job rest ih =>
    have hlength : taken.length = st.leased.length := by
      have h := congrArg List.length htaken
      rwa [List.length_map, List.length_map] at h
    rw [leaseLoop, scan, scanStops, hlength, ← skips_eq_providerSkips hinv htaken]
    by_cases hlimit : (st.leased.length : Int) ≥ limits.limit
    · rw [if_pos hlimit, if_pos (by simp [hlimit])]
      exact htaken.symm
    · rw [if_neg hlimit]
      by_cases hglobal : ((active.length + st.leased.length : Nat) : Int) ≥ limits.maxGlobalActive
      · rw [if_pos hglobal, if_pos (by rw [Bool.or_eq_true, decide_eq_true_eq, decide_eq_true_eq]; exact Or.inr hglobal)]
        exact htaken.symm
      · have hgo : (decide ((st.leased.length : Int) ≥ limits.limit) ||
            decide (((active.length + st.leased.length : Nat) : Int) ≥ limits.maxGlobalActive)) = false := by
          rw [Bool.or_eq_false_iff, decide_eq_false_iff_not, decide_eq_false_iff_not]
          exact ⟨hlimit, hglobal⟩
        rw [if_neg hglobal, hgo, if_neg Bool.false_ne_true]
        cases hskip : st.skips lower limits job rest with
        | true =>
          rw [if_pos rfl, if_pos rfl]
          refine ih taken st ?_ htaken
          exact { hinv with
            ids := (List.nodup_cons.mp hinv.ids).2
            candidates := fun j hj => hinv.candidates j (List.mem_cons_of_mem _ hj) }
        | false =>
          rw [if_neg Bool.false_ne_true, if_neg Bool.false_ne_true]
          obtain ⟨hnext, -⟩ := hinv.lease uuid (not_le.mp hlimit) (not_le.mp hglobal) hskip
          refine ih _ _ hnext ?_
          obtain ⟨row, hrow, rfl, hleasable⟩ := hinv.candidates job List.mem_cons_self
          rw [lease_leased lower limits uuid now hrow hleasable, List.map_append, List.map_append, htaken]
          rfl

/-! ## The reserve, step by step -/

theorem split_unique {front front' behind behind' : List ReviewQueueJobRecord} {job job' : ReviewQueueJobRecord}
    (hids : ((front ++ job :: behind).map ReviewQueueJobRecord.jobId).Nodup)
    (h : front ++ job :: behind = front' ++ job' :: behind') (hid : job.jobId = job'.jobId) :
    job = job' ∧ behind = behind' := by
  have hne : ∀ other ∈ front ++ behind, other.jobId ≠ job.jobId := by
    intro other hother heq
    have hperm : ((front ++ job :: behind).map ReviewQueueJobRecord.jobId).Perm
        ((job :: (front ++ behind)).map ReviewQueueJobRecord.jobId) := List.perm_middle.map _
    rw [hperm.nodup_iff, List.map_cons, List.nodup_cons] at hids
    exact hids.1 (heq ▸ List.mem_map_of_mem hother)
  have hfront : job' ∉ front := fun hmem => hne job' (List.mem_append_left _ hmem) hid.symm
  have hbehind : job' ∉ behind := fun hmem => hne job' (List.mem_append_right _ hmem) hid.symm
  obtain ⟨-, hjob, hrest⟩ := (List.append_cons_inj_of_notMem hfront hbehind).mp h
  exact ⟨hjob, hrest⟩

/-- Each background job that the code's scan takes with a manual job waiting leaves the reserve free. -/
def StepsHonour (lower : String → String) (limits : LeaseLimits) (active : List ReservedActiveJob)
    (eligible : List ReviewQueueJobRecord) : Prop :=
  ∀ taken job rest, Takes (scanStops limits active) (providerSkips lower limits active) eligible taken job rest →
    job.lane = .background → ManualWaits lower (active ++ taken.map asReserved) job rest →
    ((active.length + taken.length + 1 : Nat) : Int) ≤ backgroundSlots limits

theorem reserveHonoured_iff_steps {eligible leased : List ReviewQueueJobRecord}
    (hids : (eligible.map ReviewQueueJobRecord.jobId).Nodup)
    (hleased : leased.map asReserved =
      (scan (scanStops limits active) (providerSkips lower limits active) [] eligible).map asReserved) :
    ReserveHonoured lower limits eligible active leased ↔ StepsHonour lower limits active eligible := by
  constructor
  · intro h taken job rest htakes hlane hwaits
    obtain ⟨front, hfront⟩ := htakes.1.suffix
    obtain ⟨more, hmore⟩ := htakes.stays
    rw [← hmore, List.map_append, List.map_append, List.append_assoc] at hleased
    obtain ⟨before, tail, rfl, hbefore, htail⟩ := List.map_eq_append_iff.mp hleased
    obtain ⟨record, after, rfl, hrecord, -⟩ := List.map_eq_cons_iff.mp htail
    have hid : record.jobId = job.jobId := congrArg ReservedActiveJob.jobId hrecord
    have hlength : before.length = taken.length := by
      have hmapped := congrArg List.length hbefore
      rwa [List.length_map, List.length_map] at hmapped
    have hslots := h front job rest before record after hfront rfl hid hlane (hbefore ▸ hwaits)
    rwa [hlength] at hslots
  · intro h front job behind before record after heligible hsplit hid hlane hwaits
    rw [hsplit, List.map_append, List.map_cons] at hleased
    obtain ⟨taken, tail, hscan, htaken, htail⟩ := List.map_eq_append_iff.mp hleased.symm
    obtain ⟨job', after', rfl, hjob', -⟩ := List.map_eq_cons_iff.mp htail
    obtain ⟨rest, htakes⟩ := takes_of_scan hscan
    obtain ⟨front', hfront'⟩ := htakes.1.suffix
    have hid' : job.jobId = job'.jobId := by
      rw [← hid]
      exact (congrArg ReservedActiveJob.jobId hjob').symm
    have hlength : taken.length = before.length := by
      have hmapped := congrArg List.length htaken
      rwa [List.length_map, List.length_map] at hmapped
    obtain ⟨rfl, rfl⟩ := split_unique (heligible ▸ hids) (heligible ▸ hfront') hid'
    have hslots := h taken job behind htakes hlane (htaken ▸ hwaits)
    rwa [hlength] at hslots

/-! ## The two scans -/

theorem countBy_le_length {κ : Type} [DecidableEq κ] (key : ReservedActiveJob → κ) (held : List ReservedActiveJob)
    (k : κ) : countBy key held k ≤ held.length := List.countP_le_length

theorem length_held (active : List ReservedActiveJob) (taken : List ReviewQueueJobRecord) :
    (active ++ taken.map asReserved).length = active.length + taken.length := by
  rw [List.length_append, List.length_map]

theorem providerSkips_imp_totalSkips (hreserve : 0 < limits.manualCommandReserve) {taken rest : List ReviewQueueJobRecord}
    {job : ReviewQueueJobRecord} (h : providerSkips lower limits active taken job rest = true) :
    totalSkips lower limits active taken job rest = true := by
  unfold providerSkips at h
  unfold totalSkips
  dsimp only at h ⊢
  rw [Bool.or_eq_true] at h ⊢
  apply h.imp_right
  intro hskip
  rw [reserveSkips_iff hreserve] at hskip ⊢
  obtain ⟨hlane, hwaits, hcount⟩ := hskip
  have hle := countBy_le_length ReservedActiveJob.provider (active ++ taken.map asReserved) (asReserved job).provider
  exact ⟨hlane, hwaits, by omega⟩

theorem othersNeverHoldBack_of_stepsHonour (hreserve : 0 < limits.manualCommandReserve)
    {eligible : List ReviewQueueJobRecord} (h : StepsHonour lower limits active eligible) :
    OthersNeverHoldBack lower limits active eligible := by
  -- a job that only the total holds back would be taken by the code, and leave too little
  have hsame : ∀ taken job rest,
      Scanned (scanStops limits active) (providerSkips lower limits active) eligible taken (job :: rest) →
      scanStops limits active taken = false →
      totalSkips lower limits active taken job rest = providerSkips lower limits active taken job rest := by
    intro taken job rest hscanned hstops
    cases hcode : providerSkips lower limits active taken job rest with
    | true => exact providerSkips_imp_totalSkips hreserve hcode
    | false =>
      unfold providerSkips at hcode
      obtain ⟨hcaps, -⟩ := Bool.or_eq_false_iff.mp hcode
      unfold totalSkips
      rw [Bool.or_eq_false_iff]
      refine ⟨hcaps, Bool.eq_false_iff.mpr fun hskip => ?_⟩
      obtain ⟨hlane, hwaits, hcount⟩ := (reserveSkips_iff hreserve).mp hskip
      have hslots := h taken job rest ⟨hscanned, hstops, hcode⟩ hlane hwaits
      rw [length_held] at hcount
      omega
  intro taken job rest hscanned hstops hcaps hlane hwaits htotal
  have hcode := hscanned.transfer hsame
  by_contra hcount
  have hskips : providerSkips lower limits active taken job rest = false := by
    unfold providerSkips
    rw [Bool.or_eq_false_iff]
    refine ⟨hcaps, Bool.eq_false_iff.mpr fun hskip => ?_⟩
    exact hcount ((reserveSkips_iff hreserve).mp hskip).2.2
  have hslots := h taken job rest ⟨hcode, hstops, hskips⟩ hlane hwaits
  rw [length_held] at htotal
  omega

theorem stepsHonour_of_othersNeverHoldBack (hreserve : 0 < limits.manualCommandReserve)
    {eligible : List ReviewQueueJobRecord} (h : OthersNeverHoldBack lower limits active eligible) :
    StepsHonour lower limits active eligible := by
  have hsame : ∀ taken job rest,
      Scanned (scanStops limits active) (totalSkips lower limits active) eligible taken (job :: rest) →
      scanStops limits active taken = false →
      providerSkips lower limits active taken job rest = totalSkips lower limits active taken job rest := by
    intro taken job rest hscanned hstops
    cases hcode : providerSkips lower limits active taken job rest with
    | true => exact (providerSkips_imp_totalSkips hreserve hcode).symm
    | false =>
      unfold providerSkips at hcode
      obtain ⟨hcaps, hfree⟩ := Bool.or_eq_false_iff.mp hcode
      unfold totalSkips
      symm
      rw [Bool.or_eq_false_iff]
      refine ⟨hcaps, Bool.eq_false_iff.mpr fun hskip => ?_⟩
      obtain ⟨hlane, hwaits, hcount⟩ := (reserveSkips_iff hreserve).mp hskip
      have hown := h taken job rest hscanned hstops hcaps hlane hwaits hcount
      rw [(reserveSkips_iff hreserve).mpr ⟨hlane, hwaits, hown⟩] at hfree
      cases hfree
  rintro taken job rest ⟨hscanned, hstops, hskips⟩ hlane hwaits
  have htotal := (hsame taken job rest (hscanned.transfer hsame) hstops).symm.trans hskips
  unfold totalSkips at htotal
  obtain ⟨-, hfree⟩ := Bool.or_eq_false_iff.mp htotal
  by_contra hfull
  rw [(reserveSkips_iff hreserve).mpr ⟨hlane, hwaits, by rw [length_held]; omega⟩] at hfree
  cases hfree

/-! ## The call -/

section
variable (dateParse : String → Option Int) (input : LeaseInput) (limits : LeaseLimits) (now : Int) (s : State)

def leaseCandidates : List ReviewQueueJobRecord :=
  eligibleJobs dateParse input now (listReviewQueueJobs (requeuedState limits now s))

def jobsInFlight : List ReservedActiveJob :=
  activeJobs input.reservedActiveJobs (listReviewQueueJobs (requeuedState limits now s))

end

/-- A lease call honours the reserve just when the jobs of other providers never make the difference. -/
theorem reserve_honoured_iff (lower : String → String) (dateParse : String → Option Int) (uuid : Nat → String)
    (input : LeaseInput) (now : Int) (s s' : State) (leased : List ReviewQueueJobRecord) (limits : LeaseLimits)
    (hlimits : input.limits lower = .ok limits) (hreserve : 0 < limits.manualCommandReserve)
    (hcall : leaseNextReviewQueueJobs lower dateParse uuid input now s = .ok (leased, s')) :
    ReserveHonoured lower limits (leaseCandidates dateParse input limits now s) (jobsInFlight input limits now s) leased ↔
      OthersNeverHoldBack lower limits (jobsInFlight input limits now s) (leaseCandidates dateParse input limits now s) := by
  unfold leaseNextReviewQueueJobs at hcall
  rw [hlimits] at hcall
  obtain ⟨rfl, -⟩ := Prod.mk.inj (Except.ok.inj hcall)
  have hscan := leaseLoop_eq_scan uuid (leaseCandidates dateParse input limits now s) []
    (.start lower (jobsInFlight input limits now s) (requeuedState limits now s))
    (scanInv_start lower dateParse input now limits (requeuedState limits now s) (limits_limit hlimits) _) rfl
  have hsteps := reserveHonoured_iff_steps (eligibleJobs_nodup (requeuedState limits now s)) hscan
  exact hsteps.trans ⟨othersNeverHoldBack_of_stepsHonour hreserve, stepsHonour_of_othersNeverHoldBack hreserve⟩

/-- Two background jobs of two providers, and a manual one behind them. -/
def mixedState : State where
  jobs := {
    rows := [{ queuedJob "a" "a" none with providerId := some "zai", priority := 1 },
      { queuedJob "b" "b" none with providerId := some "codex", priority := 2 },
      { queuedJob "m" "m" none with providerId := some "zai", lane := .manual, source := .manualCommand, priority := 3 }]
    nodup := by decide
    attempts := by decide }

def mixedInput : LeaseInput where
  maxGlobalActive := some 2
  maxProviderActive := 2
  maxOrgActive := 3
  maxRepoActive := 3
  manualCommandReserve := some 1

theorem reserve_honoured_iff_of_mixed :
    ∃ limits r, mixedInput.limits id = .ok limits ∧
      leaseNextReviewQueueJobs id (fun _ => none) toString mixedInput 0 mixedState = .ok r ∧
      (ReserveHonoured id limits (leaseCandidates (fun _ => none) mixedInput limits 0 mixedState)
          (jobsInFlight mixedInput limits 0 mixedState) r.1 ↔
        OthersNeverHoldBack id limits (jobsInFlight mixedInput limits 0 mixedState)
          (leaseCandidates (fun _ => none) mixedInput limits 0 mixedState)) := by
  refine ⟨_, _, rfl, rfl, ?_⟩
  exact reserve_honoured_iff id (fun _ => none) toString mixedInput 0 mixedState _ _ _ rfl (by decide) rfl

/-- The second background job takes the last slot, and the manual one behind it waits. -/
theorem reserve_lost_to_another_provider :
    ∃ limits r, mixedInput.limits id = .ok limits ∧ 0 < limits.manualCommandReserve ∧
      leaseNextReviewQueueJobs id (fun _ => none) toString mixedInput 0 mixedState = .ok r ∧
      ¬ReserveHonoured id limits (leaseCandidates (fun _ => none) mixedInput limits 0 mixedState)
        (jobsInFlight mixedInput limits 0 mixedState) r.1 := by
  refine ⟨_, _, rfl, by decide, rfl, fun h => ?_⟩
  have hslots := h [_] _ [_] [_] _ [] rfl rfl rfl rfl
    ⟨_, List.mem_singleton.mpr rfl, rfl, by decide, by decide⟩
  revert hslots
  decide

theorem othersNeverHoldBack_of_one_provider {eligible : List ReviewQueueJobRecord} {provider : String}
    (hactive : ∀ job ∈ active, job.provider = provider)
    (heligible : ∀ job ∈ eligible, (asReserved job).provider = provider) : OthersNeverHoldBack lower limits active eligible := by
  intro taken job rest hscanned _ _ _ _ hfull
  have htaken : ∀ {taken rest}, Scanned (scanStops limits active) (totalSkips lower limits active) eligible taken rest →
      (∀ j ∈ taken, (asReserved j).provider = provider) ∧ ∀ j ∈ rest, (asReserved j).provider = provider := by
    intro taken rest h
    induction h with
    | start => exact ⟨fun j hj => absurd hj List.not_mem_nil, heligible⟩
    | pass _ _ _ ih => exact ⟨ih.1, fun j hj => ih.2 j (List.mem_cons_of_mem _ hj)⟩
    | take _ _ _ ih =>
      refine ⟨fun j hj => ?_, fun j hj => ih.2 j (List.mem_cons_of_mem _ hj)⟩
      rcases List.mem_append.mp hj with hj | hj
      · exact ih.1 j hj
      · rw [List.mem_singleton.mp hj]
        exact ih.2 _ List.mem_cons_self
  obtain ⟨htakenAll, hrest⟩ := htaken hscanned
  have hall : countBy ReservedActiveJob.provider (active ++ taken.map asReserved) (asReserved job).provider =
      (active ++ taken.map asReserved).length := by
    unfold countBy
    rw [List.countP_eq_length]
    intro held hheld
    rw [decide_eq_true_eq, hrest job List.mem_cons_self]
    rcases List.mem_append.mp hheld with hheld | hheld
    · exact hactive held hheld
    · obtain ⟨j, hj, rfl⟩ := List.mem_map.mp hheld
      exact htakenAll j hj
  rwa [hall]

end NeonDiff.Lease
