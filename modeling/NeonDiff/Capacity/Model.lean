import NeonDiff.Lib.Table
import NeonDiff.Lib.Program

/-! # Review run leases and the worktree cleanup guard

Both live in one store, and every process knows which processes are alive. The store compares times as ISO texts, whose
order is that of the numbers here while years have four digits.
-/

namespace NeonDiff.Capacity

open NeonDiff.Lib

/-! ## Rows -/

structure ReviewRunLeaseRow where
  leaseId : String
  startedAt : Int
  expiresAt : Int
  ownerPid : Option Nat
  deriving DecidableEq, Repr

/-- The one row of `worktree_cleanup_guard`. -/
structure WorktreeCleanupGuard where
  ownerPid : Nat
  expiresAt : Int
  deriving DecidableEq, Repr

structure RunStore where
  leases : Table ReviewRunLeaseRow.leaseId := .empty
  guard : Option WorktreeCleanupGuard := none

structure ReviewRunLease where
  leaseId : String
  expiresAt : Int
  ownerPid : Nat
  deriving DecidableEq, Repr

def WORKTREE_CLEANUP_GUARD_TTL_MS : Int := 60000

/-! ## Store operations -/

section
variable (isProcessAlive : Nat → Bool)

/-- A row that counts as active: a row without an owner never does. -/
def ReviewRunLeaseRow.ownerAlive (row : ReviewRunLeaseRow) : Bool := row.ownerPid.any isProcessAlive

def pruneInactiveReviewRunLeases (s : RunStore) : RunStore :=
  { s with leases := s.leases.delete fun row => !row.ownerAlive isProcessAlive }

def pruneInactiveWorktreeCleanupGuard (now : Int) (s : RunStore) : RunStore :=
  { s with guard := s.guard.filter fun g => !(decide (g.expiresAt ≤ now) || !isProcessAlive g.ownerPid) }

/-- `leaseId` is the `randomUUID()` of the call. -/
def tryAcquireReviewRunLease (maxActiveRuns leaseTtlMs now : Int) (ownerPid : Nat) (leaseId : String) (s : RunStore) :
    Except String (Option ReviewRunLease × RunStore) :=
  if maxActiveRuns < 1 then .error "maxActiveRuns must be at least 1"
  else if leaseTtlMs < 1 then .error "leaseTtlMs must be at least 1"
  else if ownerPid < 1 then .error "ownerPid must be a positive integer"
  else
    let s := { s with leases := s.leases.delete fun row => row.expiresAt ≤ now }
    let s := pruneInactiveReviewRunLeases isProcessAlive s
    let s := pruneInactiveWorktreeCleanupGuard isProcessAlive now s
    if s.guard.isSome then .ok (none, s)
    else if maxActiveRuns ≤ s.leases.rows.length then .ok (none, s)
    else match s.leases.insert? ⟨leaseId, now, now + leaseTtlMs, some ownerPid⟩ with
      | none => .error "UNIQUE constraint failed: review_run_leases.lease_id"
      | some leases => .ok (some ⟨leaseId, now + leaseTtlMs, ownerPid⟩, { s with leases := leases })

def releaseReviewRunLease (leaseId : String) (s : RunStore) : RunStore :=
  { s with leases := s.leases.delete fun row => row.leaseId = leaseId }

/-- An expired row of a live process still counts. -/
def hasActiveReviewRunLease (s : RunStore) : Bool := s.leases.rows.any fun row => row.ownerAlive isProcessAlive

/-- The first transaction of `runWithExclusiveReviewIdleGuard`. -/
def acquireIdleGuard (startedAt : Int) (ownerPid : Nat) (s : RunStore) : Bool × RunStore :=
  let s := pruneInactiveWorktreeCleanupGuard isProcessAlive startedAt s
  if s.guard.isSome || hasActiveReviewRunLease isProcessAlive s then (false, s)
  else (true, { s with guard := some ⟨ownerPid, startedAt + WORKTREE_CLEANUP_GUARD_TTL_MS⟩ })

/-- The last transaction of `runWithExclusiveReviewIdleGuard`: the guard goes by its owner. -/
def releaseIdleGuard (ownerPid : Nat) (s : RunStore) : RunStore :=
  { s with guard := s.guard.filter fun g => g.ownerPid ≠ ownerPid }

end

/-! ## Programs of a process -/

inductive RunCall where
  | tryAcquireReviewRunLease (leaseTtlMs : Int)
  | releaseReviewRunLease (leaseId : String)
  | hasActiveReviewRunLease
  | acquireIdleGuard
  | releaseIdleGuard

abbrev RunAnswer : RunCall → Type
  | .tryAcquireReviewRunLease _ => Except String (Option ReviewRunLease)
  | .releaseReviewRunLease _ => Unit
  | .hasActiveReviewRunLease => Bool
  | .acquireIdleGuard => Bool
  | .releaseIdleGuard => Unit

abbrev RunProg (α : Type) := Prog RunAnswer String α

/-- `none` is `{ ran: false }`. -/
def runWithExclusiveReviewIdleGuard {α : Type} (operation : RunProg α) : RunProg (Option α) :=
  .call .acquireIdleGuard fun
    | false => .done none
    | true => (operation.bind fun value => .done (some value)).tryFinally (.call .releaseIdleGuard fun _ => .done ())

/-! ## Processes over one store -/

/-- A pid is used once: a dead process stays dead. -/
inductive ProcessStatus where
  | unborn | alive | dead
  deriving DecidableEq, Repr

/-- The leases and guards that a call has granted and none has given back since. No operation reads it. -/
structure Granted where
  leases : List ReviewRunLease := []
  guards : List WorktreeCleanupGuard := []

structure Host where
  store : RunStore := {}
  granted : Granted := {}
  clock : Int
  processes : Nat → ProcessStatus

def Host.isAlive (h : Host) (pid : Nat) : Bool := h.processes pid = .alive

inductive HostEvent where
  | tick (ms : Nat)
  | start (pid : Nat)
  | die (pid : Nat)
  deriving DecidableEq, Repr

/-- The clock the call read, before its transaction began, and its random id. -/
structure RunEnv where
  now : Int
  leaseId : String

/-- What a call of `pid` grants or gives back by its answer. A release of the guard names the process alone. -/
def Granted.after (granted : Granted) (pid : Nat) (env : RunEnv) : (call : RunCall) → RunAnswer call → Granted
  | .tryAcquireReviewRunLease _, .ok (some lease) => { granted with leases := granted.leases ++ [lease] }
  | .tryAcquireReviewRunLease _, _ => granted
  | .releaseReviewRunLease leaseId, _ =>
    { granted with leases := granted.leases.filter fun lease => lease.leaseId ≠ leaseId }
  | .hasActiveReviewRunLease, _ => granted
  | .acquireIdleGuard, true =>
    { granted with guards := granted.guards ++ [⟨pid, env.now + WORKTREE_CLEANUP_GUARD_TTL_MS⟩] }
  | .acquireIdleGuard, false => granted
  | .releaseIdleGuard, _ => { granted with guards := granted.guards.filter fun g => g.ownerPid ≠ pid }

section
variable (maxActiveRuns : Int)

def RunCall.exec (pid : Nat) (h : Host) (env : RunEnv) : (call : RunCall) → RunAnswer call × RunStore
  | .tryAcquireReviewRunLease leaseTtlMs =>
    match Capacity.tryAcquireReviewRunLease h.isAlive maxActiveRuns leaseTtlMs env.now pid env.leaseId h.store with
    | .error e => (.error e, h.store)
    | .ok (lease, store) => (.ok lease, store)
  | .releaseReviewRunLease leaseId => ((), Capacity.releaseReviewRunLease leaseId h.store)
  | .hasActiveReviewRunLease => (Capacity.hasActiveReviewRunLease h.isAlive h.store, h.store)
  | .acquireIdleGuard => Capacity.acquireIdleGuard h.isAlive env.now pid h.store
  | .releaseIdleGuard => ((), Capacity.releaseIdleGuard pid h.store)

/-- Only a live process calls, and it read the clock before now. -/
def runSemantics : Semantics RunAnswer Nat Host RunEnv HostEvent where
  exec pid call env h :=
    if h.isAlive pid && env.now ≤ h.clock then
      let r := call.exec maxActiveRuns pid h env
      some (r.1, { h with store := r.2, granted := h.granted.after pid env call r.1 })
    else none
  ambient
    | .tick ms, h => some { h with clock := h.clock + ms }
    | .start pid, h =>
      if h.processes pid = .unborn then some { h with processes := Function.update h.processes pid .alive } else none
    | .die pid, h =>
      if h.processes pid = .alive then some { h with processes := Function.update h.processes pid .dead } else none

end

end NeonDiff.Capacity
