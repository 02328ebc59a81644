import Mathlib.Data.List.Sort
import Mathlib.Data.Rat.Defs
import NeonDiff.Lib.Checked
import NeonDiff.Lib.IsoDate
import NeonDiff.Store.Types

/-! # Reviewer sessions

A session serves the heads of one repository until its head limit or its end, and a job row says which session
a head is served by. Both tables keep their times as the texts `toISOString` writes.
-/

namespace NeonDiff.Sessions

open NeonDiff.Lib NeonDiff.Lib.IsoDate NeonDiff.Store

/-! ## Rows -/

inductive ReviewerSessionState where
  | warming | active | draining | expired | failed
  deriving DecidableEq, Repr

inductive ReviewerSessionJobState where
  | assigned | running | completed | skipped | failed
  deriving DecidableEq, Repr

/-- `in ('completed', 'skipped', 'failed')`. -/
def ReviewerSessionJobState.isFinished : ReviewerSessionJobState → Bool
  | .completed | .skipped | .failed => true
  | .assigned | .running => false

inductive ReviewerSessionAssignmentReason where
  | sameRepoActiveSession | newSession | sessionExpiredNewSession | manualCommandPriority
  deriving DecidableEq, Repr

structure ReviewerSessionRecord where
  sessionId : String
  repo : String
  repoFamily : Option String := none
  state : ReviewerSessionState
  startedAt : String
  lastUsedAt : String
  expiresAt : String
  headCountUsed : Nat
  headCountLimit : Nat
  workerPid : Option Nat := none
  model : Option String := none
  provider : Option String := none
  zcodeCliVersion : Option String := none
  lastError : Option String := none
  deriving DecidableEq, Repr

structure ReviewerSessionJobRecord where
  sessionId : String
  head : HeadKey
  jobState : ReviewerSessionJobState
  assignmentReason : ReviewerSessionAssignmentReason
  createdAt : String
  startedAt : Option String := none
  finishedAt : Option String := none
  processedReviewStatus : Option ProcessedStatus := none
  deriving DecidableEq, Repr

structure SessionStore where
  sessions : Table ReviewerSessionRecord.sessionId := .empty
  jobs : Table ReviewerSessionJobRecord.head := .empty

def mapReviewerSessionRow (row : ReviewerSessionRecord) : ReviewerSessionRecord :=
  { row with
    repoFamily := truthy row.repoFamily
    workerPid := row.workerPid.filter (· ≠ 0)
    model := truthy row.model
    provider := truthy row.provider
    zcodeCliVersion := truthy row.zcodeCliVersion
    lastError := truthy row.lastError }

@[simp] theorem sessionId_mapReviewerSessionRow (row : ReviewerSessionRecord) :
    (mapReviewerSessionRow row).sessionId = row.sessionId := rfl

@[simp] theorem headCountUsed_mapReviewerSessionRow (row : ReviewerSessionRecord) :
    (mapReviewerSessionRow row).headCountUsed = row.headCountUsed := rfl

@[simp] theorem headCountLimit_mapReviewerSessionRow (row : ReviewerSessionRecord) :
    (mapReviewerSessionRow row).headCountLimit = row.headCountLimit := rfl

def mapReviewerSessionJobRow (row : ReviewerSessionJobRecord) : ReviewerSessionJobRecord :=
  { row with startedAt := truthy row.startedAt, finishedAt := truthy row.finishedAt }

/-! ## Times -/

/-- `new Date(t).toISOString()`, which throws outside the time values. -/
def isoText (t : Int) : Except String String :=
  if isTime t then .ok (toISOString t) else .error "Invalid time value"

/-- What `datetime(text)` sorts by: the text to its seconds, and null for a year of more than four digits. -/
def datetime (text : String) : Option String :=
  if text.length = 24 then some (String.ofList (text.toList.take 19)) else none

/-- `order by datetime(last_used_at) desc`, where null stands last. -/
def usedBefore (a b : ReviewerSessionRecord) : Bool :=
  match datetime b.lastUsedAt, datetime a.lastUsedAt with
  | none, _ => true
  | some _, none => false
  | some b, some a => b ≤ a

/-! ## Sessions -/

namespace SessionStore

/-- `update reviewer_sessions set f where p`. -/
def updateSessions (s : SessionStore) (p : ReviewerSessionRecord → Bool)
    (f : ReviewerSessionRecord → ReviewerSessionRecord) (hf : ∀ r, (f r).sessionId = r.sessionId) : SessionStore :=
  { s with sessions := s.sessions.update (fun r => if p r then f r else r) fun r => by split <;> simp [hf] }

/-- `update reviewer_session_jobs set f` for one head. -/
def updateJob (s : SessionStore) (head : HeadKey) (f : ReviewerSessionJobRecord → ReviewerSessionJobRecord)
    (hf : ∀ job, (f job).head = job.head) : SessionStore :=
  { s with
    jobs := s.jobs.update (fun job => if job.head = head then f job else job) fun job => by split <;> simp [hf] }

def getReviewerSession (s : SessionStore) (sessionId : String) : Option ReviewerSessionRecord :=
  (s.sessions.find? sessionId).map mapReviewerSessionRow

def getReviewerSessionJob (s : SessionStore) (head : HeadKey) : Option ReviewerSessionJobRecord :=
  (s.jobs.find? head).map mapReviewerSessionJobRow

def hasReviewerSessionForRepo (s : SessionStore) (repo : String) : Bool :=
  s.sessions.rows.any fun r => r.repo = repo

/-- `state in ('warming', 'active', 'draining')`. -/
def isOpen (r : ReviewerSessionRecord) : Bool := r.state = .warming || r.state = .active || r.state = .draining

/-- `state in ('warming', 'active')`. -/
def isServing (r : ReviewerSessionRecord) : Bool := r.state = .warming || r.state = .active

/-- A session of the repository, or any session where none is given. -/
def ofRepo (repo : Option String) (r : ReviewerSessionRecord) : Bool := (truthy repo).all fun repo => r.repo = repo

/-- The rows that `expireReviewerSessions` sets to `expired`. -/
def isOverdue (nowIso : String) (repo : Option String) (r : ReviewerSessionRecord) : Bool :=
  ofRepo repo r && isOpen r && (r.expiresAt ≤ nowIso || isServing r && r.headCountLimit ≤ r.headCountUsed)

def expireReviewerSessions (nowIso : String) (repo : Option String) (s : SessionStore) : Nat × SessionStore :=
  (s.sessions.rows.countP (isOverdue nowIso repo),
    s.updateSessions (isOverdue nowIso repo) (fun r => { r with state := .expired }) fun _ => rfl)

/-- A session whose worker is gone. -/
def failSession (pid : Nat) (sessionId : String) (s : SessionStore) : SessionStore :=
  s.updateSessions (fun r => r.sessionId = sessionId)
    (fun r => { r with state := .failed, lastError := some ("owner_pid_not_alive:" ++ toString pid) }) fun _ => rfl

/-- The rows `reconcileReviewerSessions` reads after the expiry, one after the other. -/
def failDeadWorkers (isProcessAlive : Nat → Bool) : List ReviewerSessionRecord → SessionStore → Nat × SessionStore
  | [], s => (0, s)
  | row :: rows, s =>
    match row.workerPid with
    | none => failDeadWorkers isProcessAlive rows s
    | some pid =>
      if isProcessAlive pid then failDeadWorkers isProcessAlive rows s
      else
        let (failed, s) := failDeadWorkers isProcessAlive rows (s.failSession pid row.sessionId)
        (failed + 1, s)

def reconcileReviewerSessions (isProcessAlive : Nat → Bool) (nowIso : String) (repo : Option String)
    (s : SessionStore) : (Nat × Nat) × SessionStore :=
  let (expired, s) := s.expireReviewerSessions nowIso repo
  let rows := s.sessions.rows.filter fun r => ofRepo repo r && isOpen r && r.workerPid.isSome
  let (failedDeadWorkers, s) := failDeadWorkers isProcessAlive rows s
  ((expired, failedDeadWorkers), s)

/-- The first session of the rows whose worker lives; those before it fail. -/
def firstLiveSession (isProcessAlive : Nat → Bool) :
    List ReviewerSessionRecord → SessionStore → Option ReviewerSessionRecord × SessionStore
  | [], s => (none, s)
  | row :: rows, s =>
    let session := mapReviewerSessionRow row
    match session.workerPid with
    | none => (some session, s)
    | some pid =>
      if isProcessAlive pid then (some session, s)
      else firstLiveSession isProcessAlive rows (s.failSession pid session.sessionId)

/-- The rows `getReusableReviewerSession` selects. -/
def isReusable (repo nowIso : String) (r : ReviewerSessionRecord) : Bool :=
  r.repo = repo && isServing r && nowIso < r.expiresAt && r.headCountUsed < r.headCountLimit

def getReusableReviewerSession (isProcessAlive : Nat → Bool) (repo nowIso : String) (s : SessionStore) :
    Option ReviewerSessionRecord × SessionStore :=
  firstLiveSession isProcessAlive ((s.sessions.rows.filter (isReusable repo nowIso)).insertionSort fun a b => usedBefore a b) s

def createReviewerSession (session : ReviewerSessionRecord) (s : SessionStore) :
    Except String (ReviewerSessionRecord × SessionStore) :=
  match s.sessions.insert? session with
  | none => .error "UNIQUE constraint failed: reviewer_sessions.session_id"
  | some sessions => .ok (mapReviewerSessionRow session, { s with sessions := sessions })

def unfinishedJobs (s : SessionStore) (sessionId : String) : Nat :=
  s.jobs.rows.countP fun job => job.sessionId = sessionId && !job.jobState.isFinished

def expireDrainedReviewerSessionIfComplete (sessionId : String) (s : SessionStore) : SessionStore :=
  match s.getReviewerSession sessionId with
  | none => s
  | some session =>
    if session.state ≠ .draining then s
    else if 0 < s.unfinishedJobs sessionId then s
    else s.updateSessions (fun r => r.sessionId = sessionId) (fun r => { r with state := .expired }) fun _ => rfl

end SessionStore

/-! ## Assigning a job -/

/-- A number that is not finite is refused as a fraction is. -/
def validateReviewerSessionInput (ttlMs headCountLimit : Rat) (workerPid : Option Rat) : Except String Unit := do
  require ttlMs.isInt "ttlMs must be an integer"
  require (1 ≤ ttlMs) "ttlMs must be at least 1"
  require headCountLimit.isInt "headCountLimit must be an integer"
  require (1 ≤ headCountLimit) "headCountLimit must be at least 1"
  require (workerPid.all fun pid => pid.isInt && 1 ≤ pid) "workerPid must be a positive integer"

structure AssignInput where
  head : HeadKey
  ttlMs : Rat
  headCountLimit : Rat
  now : Int
  workerPid : Option Rat := none
  model : Option String := none
  provider : Option String := none
  zcodeCliVersion : Option String := none
  repoFamily : Option String := none
  assignmentReason : Option ReviewerSessionAssignmentReason := none
  allowProcessed : Bool := false

/-- What the call reads outside the two tables: its own pid, its `randomUUID()`, the living processes, and the
processed heads. -/
structure SessionEnv where
  pid : Nat
  uuid : String
  isProcessAlive : Nat → Bool
  hasProcessed : HeadKey → Bool

inductive ReviewerSessionAssignResult where
  | alreadyProcessed
  | alreadyAssigned (session : Option ReviewerSessionRecord) (job : ReviewerSessionJobRecord)
  | assigned (session : Option ReviewerSessionRecord) (job : Option ReviewerSessionJobRecord)

/-- The session the job goes to, with the reason: a reusable one, or a new one. -/
def chooseSession (env : SessionEnv) (input : AssignInput) (nowIso expiresAt : String) (s : SessionStore) :
    Except String ((ReviewerSessionRecord × ReviewerSessionAssignmentReason) × SessionStore) :=
  let hadPreviousRepoSession := s.hasReviewerSessionForRepo input.head.repo
  let (expiredRepoSessions, s) := s.expireReviewerSessions nowIso (some input.head.repo)
  match s.getReusableReviewerSession env.isProcessAlive input.head.repo nowIso with
  | (some session, s) => .ok ((session, input.assignmentReason.getD .sameRepoActiveSession), s)
  | (none, s) => do
    let (session, s) ← s.createReviewerSession
      { sessionId := env.uuid, repo := input.head.repo, repoFamily := input.repoFamily, state := .active,
        startedAt := nowIso, lastUsedAt := nowIso, expiresAt := expiresAt, headCountUsed := 0,
        headCountLimit := input.headCountLimit.num.toNat,
        workerPid := some ((input.workerPid.map fun pid => pid.num.toNat).getD env.pid), model := input.model,
        provider := input.provider, zcodeCliVersion := input.zcodeCliVersion }
    return ((session, input.assignmentReason.getD
      (if hadPreviousRepoSession || 0 < expiredRepoSessions then .sessionExpiredNewSession else .newSession)), s)

/-- The job's row, and the session's count, last use and state. -/
def takeJob (session : ReviewerSessionRecord) (reason : ReviewerSessionAssignmentReason) (head : HeadKey)
    (nowIso : String) (s : SessionStore) : Except String SessionStore :=
  match s.jobs.insert? ⟨session.sessionId, head, .assigned, reason, nowIso, none, none, none⟩ with
  | none => .error "UNIQUE constraint failed: reviewer_session_jobs.repo, pull_number, head_sha"
  | some jobs =>
    let nextHeadCount := session.headCountUsed + 1
    let nextState := if session.headCountLimit ≤ nextHeadCount then ReviewerSessionState.draining else .active
    .ok ({ s with jobs := jobs }.updateSessions (fun r => r.sessionId = session.sessionId)
      (fun r => { r with headCountUsed := nextHeadCount, lastUsedAt := nowIso, state := nextState }) fun _ => rfl)

/-- One transaction: what it threw after `begin immediate` is rolled back. -/
def assignReviewerSessionJob (env : SessionEnv) (input : AssignInput) (s : SessionStore) :
    Except String (ReviewerSessionAssignResult × SessionStore) := do
  validateReviewerSessionInput input.ttlMs input.headCountLimit input.workerPid
  let nowIso ← isoText input.now
  let expiresAt ← isoText (input.now + input.ttlMs.num)
  if !input.allowProcessed && env.hasProcessed input.head then return (.alreadyProcessed, s)
  match s.getReviewerSessionJob input.head with
  | some existingJob => return (.alreadyAssigned (s.getReviewerSession existingJob.sessionId) existingJob, s)
  | none =>
    let ((session, reason), s) ← chooseSession env input nowIso expiresAt s
    let s ← takeJob session reason input.head nowIso s
    let assignedJob := s.getReviewerSessionJob input.head
    return (.assigned (assignedJob.bind fun job => s.getReviewerSession job.sessionId) assignedJob, s)

/-! ## A job's state -/

structure UpdateJobStateInput where
  head : HeadKey
  jobState : ReviewerSessionJobState
  processedReviewStatus : Option ProcessedStatus := none
  now : Int

/-- The columns the update writes. -/
def withJobState (input : UpdateJobStateInput) (timestamp : String) (job : ReviewerSessionJobRecord) :
    ReviewerSessionJobRecord :=
  { job with
    jobState := input.jobState
    startedAt := if input.jobState = .running ∧ job.startedAt = none then some timestamp else job.startedAt
    finishedAt := if input.jobState.isFinished then some timestamp else job.finishedAt
    processedReviewStatus := input.processedReviewStatus.or job.processedReviewStatus }

@[simp] theorem head_withJobState (input : UpdateJobStateInput) (timestamp : String) (job : ReviewerSessionJobRecord) :
    (withJobState input timestamp job).head = job.head := rfl

@[simp] theorem sessionId_withJobState (input : UpdateJobStateInput) (timestamp : String)
    (job : ReviewerSessionJobRecord) : (withJobState input timestamp job).sessionId = job.sessionId := rfl

def setJobState (input : UpdateJobStateInput) (timestamp : String) (s : SessionStore) : SessionStore :=
  s.updateJob input.head (withJobState input timestamp) (head_withJobState input timestamp)

def updateReviewerSessionJobState (input : UpdateJobStateInput) (s : SessionStore) :
    Except String (Option ReviewerSessionJobRecord × SessionStore) := do
  match s.getReviewerSessionJob input.head with
  | none => throw ("No reviewer session job for " ++ input.head.repo ++ "#" ++ toString input.head.pullNumber ++
      "@" ++ input.head.headSha)
  | some existing =>
    let timestamp ← isoText input.now
    let s := setJobState input timestamp s
    let updated := s.getReviewerSessionJob input.head
    if input.jobState.isFinished then
      return (updated, s.expireDrainedReviewerSessionIfComplete existing.sessionId)
    else return (updated, s)

/-! ## Sequences of operations -/

inductive SessionOp where
  | assign (env : SessionEnv) (input : AssignInput)
  | updateJobState (input : UpdateJobStateInput)
  | expire (now : Int) (repo : Option String)
  | reconcile (isProcessAlive : Nat → Bool) (now : Int) (repo : Option String)

/-- What the operation commits, or nothing where it throws. -/
def SessionOp.commit (s : SessionStore) : SessionOp → Except String SessionStore
  | .assign env input => (assignReviewerSessionJob env input s).map Prod.snd
  | .updateJobState input => (updateReviewerSessionJobState input s).map Prod.snd
  | .expire now repo => (isoText now).map fun nowIso => (s.expireReviewerSessions nowIso repo).2
  | .reconcile isProcessAlive now repo =>
    (isoText now).map fun nowIso => (s.reconcileReviewerSessions isProcessAlive nowIso repo).2

/-- An operation that throws leaves the store as it was. -/
def SessionOp.exec (s : SessionStore) (op : SessionOp) : SessionStore :=
  match op.commit s with
  | .error _ => s
  | .ok s' => s'

def runOps (ops : List SessionOp) : SessionStore := ops.foldl SessionOp.exec {}

end NeonDiff.Sessions
