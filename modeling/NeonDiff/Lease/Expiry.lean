import NeonDiff.Budget.Model
import NeonDiff.Lease.Safety

/-! # Expired leases, in seconds and in milliseconds -/

namespace NeonDiff.Lease

open NeonDiff.Lib NeonDiff.Store NeonDiff.Budget

def leaseMark (row : ReviewQueueJobRecord) : Int := row.leaseExpiresAt.getD row.updatedAt

/-- The time that the mark is held against. -/
def leaseCutoff (row : ReviewQueueJobRecord) (leaseTtlMs now : Int) : Int :=
  if row.leaseExpiresAt.isSome then now else now - leaseTtlMs

/-- The lease still runs, but ends before the second of the cutoff is over. -/
def EndsWithinTheSecond (row : ReviewQueueJobRecord) (leaseTtlMs now : Int) : Prop :=
  leaseCutoff row leaseTtlMs now < leaseMark row ∧ leaseMark row / 1000 = leaseCutoff row leaseTtlMs now / 1000

/-- No lease is taken back before its time, and the lease call and the budget view agree on which ones are. -/
structure KeepsLiveLeases (lower : String → String) (dateParse : String → Option Int) (uuid : Nat → String)
    (input : LeaseInput) (limits : LeaseLimits) (now : Int) (s : State) : Prop where
  classified : ∀ row ∈ s.jobs.rows, row.isActive = true →
    leaseExpired row limits.leaseTtlMs now = isExpiredLeaseJob (mapReviewQueueJobRow row) now limits.leaseTtlMs
  requeued : ∀ row ∈ s.jobs.rows, row.isActive = true → ∀ row' ∈ (requeuedState limits now s).jobs.rows,
    row'.jobId = row.jobId → row'.state = .queued →
      match row.leaseExpiresAt with
      | some expiresAt => expiresAt ≤ now
      | none => row.updatedAt ≤ now - limits.leaseTtlMs
  kept : ∀ leased s', leaseNextReviewQueueJobs lower dateParse uuid input now s = .ok (leased, s') →
    ∀ row ∈ s.jobs.rows, row.isActive = true →
      isExpiredLeaseJob (mapReviewQueueJobRow row) now limits.leaseTtlMs = false → row ∈ s'.jobs.rows
  budget : (requeuedState limits now s).jobs.rows.map mapReviewQueueJobRow =
    (s.jobs.rows.map mapReviewQueueJobRow).map fun job => normalizeExpiredLeaseJob job now limits.leaseTtlMs

/-! ## One row -/

variable {row : ReviewQueueJobRecord} {leaseTtlMs now : Int}

theorem leaseExpired_iff (hactive : row.isActive = true) :
    leaseExpired row leaseTtlMs now = true ↔ leaseMark row / 1000 ≤ leaseCutoff row leaseTtlMs now / 1000 := by
  unfold leaseExpired leaseMark leaseCutoff
  rw [hactive, Bool.true_and]
  cases row.leaseExpiresAt <;> simp

theorem isExpiredLeaseJob_iff :
    isExpiredLeaseJob (mapReviewQueueJobRow row) now leaseTtlMs = true ↔ leaseMark row ≤ leaseCutoff row leaseTtlMs now := by
  unfold isExpiredLeaseJob leaseMark leaseCutoff
  have hexpires : (mapReviewQueueJobRow row).leaseExpiresAt = row.leaseExpiresAt := rfl
  have hupdated : (mapReviewQueueJobRow row).updatedAt = row.updatedAt := rfl
  rw [hexpires, hupdated]
  cases row.leaseExpiresAt <;> simp

theorem mark_le_cutoff_iff : leaseMark row ≤ leaseCutoff row leaseTtlMs now ↔
    match row.leaseExpiresAt with
    | some expiresAt => expiresAt ≤ now
    | none => row.updatedAt ≤ now - leaseTtlMs := by
  unfold leaseMark leaseCutoff
  cases row.leaseExpiresAt <;> simp

theorem leaseExpired_eq_iff (hactive : row.isActive = true) :
    leaseExpired row leaseTtlMs now = isExpiredLeaseJob (mapReviewQueueJobRow row) now leaseTtlMs ↔
      ¬ EndsWithinTheSecond row leaseTtlMs now := by
  rw [Bool.eq_iff_iff, leaseExpired_iff hactive, isExpiredLeaseJob_iff]
  unfold EndsWithinTheSecond
  omega

/-! ## The requeueing -/

theorem mem_requeuedState {limits : LeaseLimits} {s : State} {row' : ReviewQueueJobRecord} :
    row' ∈ (requeuedState limits now s).jobs.rows ↔ ∃ row ∈ s.jobs.rows,
      (if leaseExpired row limits.leaseTtlMs now then Store.requeued "queue_lease_expired_requeued" now row else row) =
        row' := by
  exact List.mem_map

theorem leaseExpired_of_requeued {limits : LeaseLimits} {s : State} (hrow : row ∈ s.jobs.rows)
    (hactive : row.isActive = true) {row' : ReviewQueueJobRecord} (hrow' : row' ∈ (requeuedState limits now s).jobs.rows)
    (hid : row'.jobId = row.jobId) (hqueued : row'.state = .queued) : leaseExpired row limits.leaseTtlMs now = true := by
  obtain ⟨old, hold, heq⟩ := mem_requeuedState.mp hrow'
  have hsame : old = row := by
    apply s.jobs.toTable.eq_of_key_eq hold hrow
    rw [← hid, ← heq]
    split <;> rfl
  subst hsame
  by_contra hlive
  rw [if_neg hlive] at heq
  subst heq
  simp [ReviewQueueJobRecord.isActive, hqueued] at hactive

theorem mapReviewQueueJobRow_requeue
    (hsame : row.isActive = true →
      leaseExpired row leaseTtlMs now = isExpiredLeaseJob (mapReviewQueueJobRow row) now leaseTtlMs) :
    mapReviewQueueJobRow
        (if leaseExpired row leaseTtlMs now then Store.requeued "queue_lease_expired_requeued" now row else row) =
      normalizeExpiredLeaseJob (mapReviewQueueJobRow row) now leaseTtlMs := by
  unfold normalizeExpiredLeaseJob
  have hmapped : (mapReviewQueueJobRow row).isActive = row.isActive := rfl
  rw [hmapped]
  cases hactive : row.isActive with
  | false => simp [leaseExpired, hactive]
  | true =>
    rw [← hsame hactive]
    cases leaseExpired row leaseTtlMs now
    · rfl
    · rfl

/-! ## The whole call -/

section
variable {lower : String → String} {limits : LeaseLimits} {uuid : Nat → String}

theorem mem_lease {st : LeaseScan} {job : ReviewQueueJobRecord} (hrow : row ∈ st.jobs.rows)
    (hactive : row.isActive = true) : row ∈ (st.lease lower limits uuid now job).jobs.rows := by
  apply (mem_leaseRow ..).mpr
  refine ⟨row, hrow, if_neg ?_⟩
  intro hleasable
  simp only [leasable, Bool.and_eq_true, Bool.or_eq_true, decide_eq_true_eq] at hleasable
  simp only [ReviewQueueJobRecord.isActive] at hactive
  rcases hleasable.2 with (h | h) | h <;> simp [h] at hactive

theorem mem_leaseLoop {activeCount : Nat} (todo : List ReviewQueueJobRecord) (st : LeaseScan)
    (hrow : row ∈ st.jobs.rows) (hactive : row.isActive = true) :
    row ∈ (leaseLoop lower limits uuid now activeCount todo st).jobs.rows := by
  induction todo generalizing st with
  | nil => exact hrow
  | cons job rest ih =>
    unfold leaseLoop
    split
    · exact hrow
    · split
      · exact hrow
      · split
        · exact ih st hrow
        · exact ih _ (mem_lease hrow hactive)

/-- A row whose lease SQLite reads as running comes through the call as it was. -/
theorem mem_leaseNextReviewQueueJobs {dateParse : String → Option Int} {input : LeaseInput} {s s' : State}
    {leased : List ReviewQueueJobRecord} (hlimits : input.limits lower = .ok limits)
    (h : leaseNextReviewQueueJobs lower dateParse uuid input now s = .ok (leased, s')) (hrow : row ∈ s.jobs.rows)
    (hactive : row.isActive = true) (hlive : leaseExpired row limits.leaseTtlMs now = false) : row ∈ s'.jobs.rows := by
  unfold leaseNextReviewQueueJobs at h
  rw [hlimits] at h
  obtain ⟨-, rfl⟩ := Prod.mk.inj (Except.ok.inj h)
  apply mem_leaseLoop _ _ _ hactive
  apply mem_requeuedState.mpr
  exact ⟨row, hrow, by rw [hlive]; rfl⟩

end

/-- The call steals no lease exactly where no active row has a lease that ends within the second of its cutoff. -/
theorem keepsLiveLeases_iff (lower : String → String) (dateParse : String → Option Int) (uuid : Nat → String)
    (input : LeaseInput) (limits : LeaseLimits) (now : Int) (s : State) (hlimits : input.limits lower = .ok limits) :
    KeepsLiveLeases lower dateParse uuid input limits now s ↔
      ∀ row ∈ s.jobs.rows, row.isActive = true → ¬ EndsWithinTheSecond row limits.leaseTtlMs now := by
  constructor
  · intro h row hrow hactive
    exact (leaseExpired_eq_iff hactive).mp (h.classified row hrow hactive)
  · intro h
    have hsame : ∀ row ∈ s.jobs.rows, row.isActive = true →
        leaseExpired row limits.leaseTtlMs now = isExpiredLeaseJob (mapReviewQueueJobRow row) now limits.leaseTtlMs :=
      fun row hrow hactive => (leaseExpired_eq_iff hactive).mpr (h row hrow hactive)
    constructor
    case classified => exact hsame
    case requeued =>
      intro row hrow hactive row' hrow' hid hqueued
      have hexpired := leaseExpired_of_requeued hrow hactive hrow' hid hqueued
      rw [hsame row hrow hactive, isExpiredLeaseJob_iff] at hexpired
      exact mark_le_cutoff_iff.mp hexpired
    case kept =>
      intro leased s' hcall row hrow hactive hlive
      rw [← hsame row hrow hactive] at hlive
      exact mem_leaseNextReviewQueueJobs hlimits hcall hrow hactive hlive
    case budget =>
      have hrows : (requeuedState limits now s).jobs.rows = s.jobs.rows.map fun row =>
        if leaseExpired row limits.leaseTtlMs now then Store.requeued "queue_lease_expired_requeued" now row else row := rfl
      rw [hrows, List.map_map, List.map_map, List.map_inj_left]
      exact fun row hrow => mapReviewQueueJobRow_requeue (hsame row hrow)

def leasedState : State where
  jobs := {
    rows := [{ queuedJob "r" "a" none with state := .running, leaseId := some "l", leaseExpiresAt := some 10900 }]
    nodup := by decide
    attempts := by decide }

theorem keepsLiveLeases_iff_leased : ∃ limits, (oneSlot []).limits id = .ok limits ∧
    (KeepsLiveLeases id (fun _ => none) toString (oneSlot []) limits 9000 leasedState ↔
      ∀ row ∈ leasedState.jobs.rows, row.isActive = true → ¬ EndsWithinTheSecond row limits.leaseTtlMs 9000) :=
  ⟨_, rfl, keepsLiveLeases_iff id (fun _ => none) toString (oneSlot []) _ 9000 leasedState rfl⟩

/-- At 10.100 s the job is requeued, and leased to another worker. -/
theorem lease_stolen_within_the_second : ∃ limits, (oneSlot []).limits id = .ok limits ∧
    ¬ KeepsLiveLeases id (fun _ => none) toString (oneSlot []) limits 10100 leasedState := by
  refine ⟨_, rfl, fun h => ?_⟩
  have hclassified := h.classified _ (List.mem_singleton.mpr rfl) rfl
  exact absurd hclassified (by decide)

end NeonDiff.Lease
