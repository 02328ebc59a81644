import NeonDiff.Queue.Machine

/-! # How far a lease fences its job -/

namespace NeonDiff.Queue

open NeonDiff.Lib NeonDiff.Lib.JsText NeonDiff.Store NeonDiff.Lease

/-! ## A current lease, and the calls that leave it alone -/

/-- What a lease call wrote for the worker it returned the job to. -/
structure CurrentLease where
  leaseId : String
  expiresAt : Int
  lastError : Option String
  deriving DecidableEq, Repr

structure CurrentLease.OnRow (lease : CurrentLease) (row : ReviewQueueJobRecord) : Prop where
  active : row.isActive = true
  leaseId : row.leaseId = some lease.leaseId
  expiresAt : row.leaseExpiresAt = some lease.expiresAt
  lastError : row.lastError = lease.lastError

def CurrentLease.Holds (lease : CurrentLease) (jobId : String) (s : State) : Prop :=
  ∃ row, s.jobs.toTable.find? jobId = some row ∧ lease.OnRow row

structure BareUpdate (input : UpdateJobInput) : Prop where
  leaseId : input.leaseId = none
  leaseExpiresAt : input.leaseExpiresAt = none
  clearLease : input.clearLease = none

def keepsLease (state : ReviewQueueJobState) : Bool := state = .leased || state = .running

/-- The calls that do not end the lease: no update of the job but a bare one to `leased` or `running` without an
error, no lease cycle at the expiry, and no operator call that takes the job. -/
def Spares (jobId : String) (lease : CurrentLease) (s : State) : QueueCall → Prop
  | .update input _ => input.jobId = jobId →
      BareUpdate input ∧ keepsLease input.state = true ∧ truthy input.lastError = none
  | .leaseNext _ _ now => now / 1000 < lease.expiresAt / 1000
  | .clearLeases input staleRunLeaseIds now => input.dryRun = true ∨
      ∀ row, s.jobs.toTable.find? jobId = some row → clearCandidate input staleRunLeaseIds now row = none
  | _ => True

/-- The store under one call of anyone. -/
def queueStep (texts : Texts) (s : State) (act : QueueCall) : Option State := some (act.exec texts s).2

/-! ## The row after each call -/

section
variable {jobId : String} {lease : CurrentLease} {row : ReviewQueueJobRecord}

theorem updatedJob_bare (redactSecrets : String → String) (now : Int) {input : UpdateJobInput}
    (hbare : BareUpdate input) (hrow : lease.OnRow row) :
    (updatedJob redactSecrets input now row).state = input.state ∧
    (updatedJob redactSecrets input now row).leaseId =
      (if keepsLease input.state then some lease.leaseId else none) ∧
    (updatedJob redactSecrets input now row).leaseExpiresAt =
      (if keepsLease input.state then some lease.expiresAt else none) ∧
    (updatedJob redactSecrets input now row).lastError =
      (((truthy input.lastError).map redactSecrets).orElse fun _ => lease.lastError) := by
  have hclears : input.clearsLease = !keepsLease input.state := by
    rw [UpdateJobInput.clearsLease, hbare.clearLease]
    cases input.state <;> rfl
  refine ⟨rfl, ?_, ?_, by rw [← hrow.lastError]; rfl⟩
  · simp only [updatedJob, hclears, hbare.leaseId, hrow.leaseId]
    cases keepsLease input.state <;> rfl
  · simp only [updatedJob, hclears, hbare.leaseExpiresAt, hrow.expiresAt]
    cases keepsLease input.state <;> rfl

theorem update_find? (redactSecrets : String → String) (input : UpdateJobInput) (now : Int) (s : State) (id : String) :
    (settle (updateReviewQueueJobState redactSecrets input now s) s).2.jobs.toTable.find? id =
      (s.jobs.toTable.find? id).map fun j =>
        if j.jobId = input.jobId then updatedJob redactSecrets input now j else j := by
  unfold updateReviewQueueJobState
  split
  · rename_i hnone
    change s.jobs.toTable.find? id = _
    cases hfind : s.jobs.toTable.find? id with
    | none => rfl
    | some j =>
      have : j.jobId ≠ input.jobId := Table.find?_eq_none.mp hnone j (Table.mem_of_find? hfind)
      rw [Option.map_some, if_neg this]
  · exact Table.find?_update _ _ (fun j => by split <;> rfl) _

theorem leaseLoop_find?_active {lower : String → String} {limits : LeaseLimits} {uuid : Nat → String} {now : Int}
    {activeCount : Nat} (hactive : row.isActive = true) : ∀ (todo : List ReviewQueueJobRecord) (st : LeaseScan),
      st.jobs.toTable.find? jobId = some row →
        (leaseLoop lower limits uuid now activeCount todo st).jobs.toTable.find? jobId = some row
  | [], _, h => h
  | job :: rest, st, h => by
    unfold leaseLoop
    split
    · exact h
    split
    · exact h
    split
    · exact leaseLoop_find?_active hactive rest st h
    · refine leaseLoop_find?_active hactive rest _ ?_
      have hnot : ∀ id, leasable id row = false := by
        intro id
        simp only [ReviewQueueJobRecord.isActive, Bool.or_eq_true, decide_eq_true_eq] at hactive
        rcases hactive with h | h <;> simp [leasable, h]
      simp only [LeaseScan.lease, leaseRow]
      rw [JobTable.find?_updateJobs, h, Option.map_some, if_neg (by simp [hnot])]

theorem leaseNext_find?_active {texts : Texts} {input : LeaseInput} {uuid : Nat → String} {now : Int} {s : State}
    (hfind : s.jobs.toTable.find? jobId = some row) (hrow : lease.OnRow row)
    (hlive : now / 1000 < lease.expiresAt / 1000) :
    ((QueueCall.leaseNext input uuid now).exec texts s).2.jobs.toTable.find? jobId = some row := by
  simp only [QueueCall.exec, leaseNextReviewQueueJobs]
  split
  · exact hfind
  · refine leaseLoop_find?_active hrow.active _ _ ?_
    have hlease : ∀ ttl, leaseExpired row ttl now = false := by
      intro ttl
      simp only [leaseExpired, hrow.expiresAt, hrow.active, Bool.true_and, decide_eq_false_iff_not]
      omega
    simp only [LeaseScan.start, requeuedState, requeueExpiredLeases]
    rw [JobTable.find?_updateJobs, hfind, Option.map_some, if_neg (by simp [hlease])]

theorem clearLeases_find? {texts : Texts} {input : ClearLeasesInput} {stale : List String} {now : Int} {s : State}
    (hfind : s.jobs.toTable.find? jobId = some row)
    (hspared : input.dryRun = true ∨ clearCandidate input stale now row = none) :
    ((QueueCall.clearLeases input stale now).exec texts s).2.jobs.toTable.find? jobId = some row := by
  simp only [QueueCall.exec, clearReviewQueueLeases]
  split
  · exact hfind
  split
  · exact hfind
  · rename_i hdry
    refine (Table.find?_update _ _ (fun j => by split <;> rfl) _).trans ?_
    rw [hfind, Option.map_some, hspared.resolve_left hdry]

theorem CurrentLease.Holds.exec {texts : Texts} {s : State} {act : QueueCall} (hholds : lease.Holds jobId s)
    (hspared : Spares jobId lease s act) : lease.Holds jobId (act.exec texts s).2 := by
  obtain ⟨row, hfind, hrow⟩ := hholds
  cases act with
  | getByAttempt _ => exact ⟨row, hfind, hrow⟩
  | getActiveRetry _ => exact ⟨row, hfind, hrow⟩
  | insert job =>
    refine ⟨row, ?_, hrow⟩
    simp only [QueueCall.exec, insertReviewQueueJob]
    split
    · exact hfind
    · rename_i jobs hins
      have hmem := (Table.find?_eq_some.mp hfind)
      exact Table.find?_eq_some.mpr
        ⟨(JobTable.insertJob?_eq_some hins).1 ▸ List.mem_append_left _ hmem.1, hmem.2⟩
  | update input now =>
    refine ⟨_, (update_find? _ _ _ _ _).trans (by rw [hfind, Option.map_some]), ?_⟩
    split
    · rename_i hid
      obtain ⟨hbare, hkeeps, herror⟩ := hspared (hid.symm.trans (Table.key_of_find? hfind))
      obtain ⟨hstate, hleaseId, hexpires, hlast⟩ := updatedJob_bare texts.redactSecrets now
        hbare hrow
      rw [hkeeps] at hleaseId hexpires
      refine ⟨?_, hleaseId, hexpires, ?_⟩
      · rw [ReviewQueueJobRecord.isActive, hstate]
        exact hkeeps
      · rw [hlast, herror]
        rfl
    · exact hrow
  | updatePriority id priority now =>
    simp only [QueueCall.exec, updateReviewQueueJobPriority]
    split
    · exact ⟨row, hfind, hrow⟩
    split
    · exact ⟨row, hfind, hrow⟩
    · refine ⟨_, (Table.find?_update _ _ (fun j => by split <;> rfl) _).trans (by rw [hfind, Option.map_some]), ?_⟩
      split
      · exact ⟨hrow.active, hrow.leaseId, hrow.expiresAt, hrow.lastError⟩
      · exact hrow
  | leaseNext input uuid now => exact ⟨row, leaseNext_find?_active hfind hrow hspared, hrow⟩
  | clearLeases input stale now =>
    exact ⟨row, clearLeases_find? hfind (hspared.imp_right fun h => h row hfind), hrow⟩
  | retireFailed head retiredError now =>
    refine ⟨row, (Table.find?_update _ _ (fun j => by split <;> rfl) _).trans ?_, hrow⟩
    have hnot : ¬ (row.head = head ∧ row.state = .failed) := by
      rintro ⟨-, hfailed⟩
      have := hrow.active
      simp [ReviewQueueJobRecord.isActive, hfailed] at this
    rw [hfind, Option.map_some, if_neg hnot]
  | listFailed => exact ⟨row, hfind, hrow⟩
  | getProcessed _ => exact ⟨row, hfind, hrow⟩

/-! ## Runs, and a late update -/

/-- A lease stays current through any calls that spare it. A late update of the job, whoever issues it, is then not
compared with the lease: it sets its state, keeps the lease exactly when that state is `leased` or `running`, and
touches no other job. -/
theorem lease_current_until_updated {texts : Texts} {s s' : State} {acts : List QueueCall}
    (hholds : lease.Holds jobId s) (hspared : Along (queueStep texts) (Spares jobId lease) s acts)
    (hrun : run (queueStep texts) s acts = some s') :
    lease.Holds jobId s' ∧
    ∀ input now, input.jobId = jobId → BareUpdate input →
      (∃ row, ((QueueCall.update input now).exec texts s').2.jobs.toTable.find? jobId = some row ∧
        row.state = input.state ∧
        row.leaseId = (if keepsLease input.state then some lease.leaseId else none) ∧
        row.leaseExpiresAt = (if keepsLease input.state then some lease.expiresAt else none) ∧
        row.lastError = ((truthy input.lastError).map texts.redactSecrets).orElse fun _ => lease.lastError) ∧
      ∀ other, other ≠ jobId → ((QueueCall.update input now).exec texts s').2.jobs.toTable.find? other =
        s'.jobs.toTable.find? other := by
  have hholds' : lease.Holds jobId s' := by
    refine hspared.invariant (fun t act u ht hact hstep => ?_) hholds hrun
    obtain rfl := Option.some.inj hstep
    exact ht.exec hact
  refine ⟨hholds', fun input now hid hbare => ⟨?_, fun other hother => ?_⟩⟩
  · obtain ⟨row, hfind, hrow⟩ := hholds'
    refine ⟨updatedJob texts.redactSecrets input now row, ?_, updatedJob_bare _ _ hbare hrow⟩
    refine (update_find? _ _ _ _ _).trans ?_
    rw [hfind, Option.map_some, if_pos ((Table.key_of_find? hfind).trans hid.symm)]
  · refine (update_find? _ _ _ _ _).trans ?_
    cases hfind : s'.jobs.toTable.find? other with
    | none => rfl
    | some j =>
      have : j.jobId ≠ input.jobId := fun h => hother ((Table.key_of_find? hfind).symm.trans (h.trans hid))
      rw [Option.map_some, if_neg this]

end

/-! ## A late update that takes the job away -/

def oneJobState : State where
  jobs := {
    rows := [{ jobId := "q", attemptId := "automatic:o/r#1@h:base=b", source := .automatic, lane := .background
               repo := "o/r", org := "o", pullNumber := 1, headSha := "h", priority := 50, state := .queued
               createdAt := 0, updatedAt := 0 }]
    nodup := by decide
    attempts := by decide }

def leaseCall (leaseId : String) (now : Int) : QueueCall :=
  .leaseNext { maxProviderActive := 1, maxOrgActive := 1, maxRepoActive := 1 } (fun _ => leaseId) now

def plainTexts : Texts := ⟨id, fun _ => none, id⟩

/-- Worker A leases the job and starts it; a quarter of an hour later its lease is expired and worker B leases it. -/
def takeOver : List QueueCall :=
  [leaseCall "A" 0, .update { jobId := "q", state := .running } 1000, leaseCall "B" 1000000]

def leaseOfB : CurrentLease := ⟨"B", 1900000, some "queue_lease_expired_requeued"⟩

/-- B starts its job, and A's `running` comes late. -/
def lateRunning : List QueueCall :=
  [.update { jobId := "q", state := .running } 1001000, .update { jobId := "q", state := .running } 1002000]

theorem lease_current_until_updated_running :
    ∃ s s', run (queueStep plainTexts) oneJobState takeOver = some s ∧
      run (queueStep plainTexts) s lateRunning = some s' ∧ leaseOfB.Holds "q" s' := by
  have hspared : ∀ s now, Spares "q" leaseOfB s (.update { jobId := "q", state := .running } now) :=
    fun _ _ _ => ⟨⟨rfl, rfl, rfl⟩, rfl, rfl⟩
  have halong : ∀ s, Along (queueStep plainTexts) (Spares "q" leaseOfB) s lateRunning :=
    fun s => .cons (hspared s _) rfl (.cons (hspared _ _) rfl trivial)
  exact ⟨_, _, rfl, rfl, (lease_current_until_updated ⟨_, rfl, rfl, rfl, rfl, rfl⟩ (halong _) rfl).1⟩

/-- While B's lease is current, A's late completion sets the state and drops the lease, the expiry and the error. -/
theorem lease_not_fenced :
    ∃ s s', run (queueStep plainTexts) oneJobState takeOver = some s ∧ leaseOfB.Holds "q" s ∧
      run (queueStep plainTexts) s [.update { jobId := "q", state := .posted, lastError := some "reviewed" } 1001000] =
        some s' ∧
      ∃ row, s'.jobs.toTable.find? "q" = some row ∧ row.state = .posted ∧ row.leaseId = none ∧
        row.leaseExpiresAt = none ∧ row.lastError = some "reviewed" :=
  ⟨_, _, rfl, ⟨_, rfl, rfl, rfl, rfl, rfl⟩, rfl, _, rfl, rfl, rfl, rfl, rfl⟩

end NeonDiff.Queue
