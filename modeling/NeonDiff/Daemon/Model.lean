import NeonDiff.Heartbeat.Safety
import NeonDiff.Lib.History
import NeonDiff.Lib.Transition

/-! # The daemon process

Cycle runs after cycle, and an issue-enrichment pass that one of them starts runs on beside the next. A step goes from
one `await` to the next, and nothing comes in between.
-/

namespace NeonDiff.Daemon

open NeonDiff.Heartbeat

structure DaemonConfig where
  dryRun : Bool
  runOnce : Bool
  reviewLane : DaemonReviewLane
  reviewSchedulerEnabled : Bool
  issueEnrichmentEnabled : Bool
  worktreeCleanupEnabled : Bool
  intervalMs : Nat
  pollIntervalMs : Nat
  intervalMs_pos : 0 < intervalMs
  pollIntervalMs_pos : 0 < pollIntervalMs

/-- `Math.max(1, Math.ceil(intervalMs / pollIntervalMs))`. -/
def DaemonConfig.cleanupIntervalCycles (config : DaemonConfig) : Nat :=
  max 1 ((config.intervalMs + config.pollIntervalMs - 1) / config.pollIntervalMs)

def DaemonConfig.worktreeCleanupDue (config : DaemonConfig) (cycle : Nat) : Bool :=
  config.worktreeCleanupEnabled && (cycle = 1 || (cycle - 1) % config.cleanupIntervalCycles = 0)

inductive DaemonCycleResult where
  | ok | admissionDenied | runtimeFailure
  deriving DecidableEq

def shouldExitDaemonAfterFailedCycle (result : DaemonCycleResult) (runOnce : Bool) : Bool :=
  result ≠ .ok && (runOnce || result = .admissionDenied)

structure DaemonCycleAdmissions where
  issueEnrichment : Bool

/-- A pass as the process refers to it; the serial number stands for the object. -/
structure PassRef where
  serial : Nat
  cycle : Nat

/-- A pass that has not settled: it awaits its analysis, or has ended it. -/
structure Pass where
  serial : Nat
  cycle : Nat
  runId : String
  working : Bool

/-- Where the loop of the process awaits something. -/
inductive Stage where
  | sleeping
  | admitting
  | denying
  | reviewing (runId : String)
  | retrying (runId : String)
  | failing (runId : String)
  | returned (result : DaemonCycleResult)
  | exiting (awaits : Option Nat) (failed : Bool)
  | exited (failed : Bool)

inductive Event where
  | admitted (cycle : Nat) (due : Bool)
  | cleanup (cycle : Nat)
  | cleanupDeferred (cycle startedCycle : Nat)
  | started (cycle : Nat) (runId : String) (stored : Bool)
  | passBegun (serial cycle : Nat)
  | passInFlight (cycle startedCycle : Nat)
  | analysisSkipped (serial : Nat)
  | analysisBegun (serial : Nat)
  | analysisEnded (serial : Nat) (ok : Bool)
  | passSettled (serial : Nat)
  | reviewBegun (cycle : Nat)
  | finished (cycle : Nat) (runId : String) (ok stored : Bool)
  | denied (cycle : Nat)
  | exited (failed : Bool)

/-- The variables of the process, its coroutines, the heartbeat row and what happened so far, newest first. -/
structure Process (Time : Type) where
  cycle : Nat
  stage : Stage
  issueEnrichmentPassInFlight : Option PassRef
  worktreeCleanupPending : Bool
  publicOnlyEnrichmentNoticeLogged : Bool
  passes : List Pass
  passesBegun : Nat
  runsBegun : Nat
  beats : Nat
  row : Option (DaemonHeartbeatRow Time)
  log : List Event

/-- What the process gets from outside: the clock at each heartbeat, whether the store takes the heartbeat, and the ids
of its runs. -/
structure Env (Time : Type) where
  now : Nat → Time
  stored : Nat → Bool
  randomUUID : Nat → String

variable {Time : Type} [LinearOrder Time] (env : Env Time) (config : DaemonConfig)

/-- The process has just been started; the row is another process's. -/
def Process.init (row : Option (DaemonHeartbeatRow Time)) : Process Time where
  cycle := 0
  stage := .sleeping
  issueEnrichmentPassInFlight := none
  worktreeCleanupPending := false
  publicOnlyEnrichmentNoticeLogged := false
  passes := []
  passesBegun := 0
  runsBegun := 0
  beats := 0
  row := row
  log := []

def Process.note (d : Process Time) (event : Event) : Process Time := { d with log := event :: d.log }

def Process.heartbeat (d : Process Time) (event : DaemonHeartbeatEvent) (error : Option String) (cycle : Nat)
    (runId : String) : DaemonHeartbeatRecord Time where
  cycle := cycle
  event := event
  dryRun := config.dryRun
  reviewLane := some config.reviewLane
  runId := some runId
  recordedAt := env.now d.beats
  error := error

/-- What throws on the way to the store is caught and logged, and the cycle goes on. -/
def Process.recordHeartbeat (d : Process Time) (event : DaemonHeartbeatEvent) (error : Option String) (cycle : Nat)
    (runId : String) : Process Time :=
  { d with
    row :=
      if env.stored d.beats then recordDaemonHeartbeat d.row (d.heartbeat env config event error cycle runId)
      else d.row
    beats := d.beats + 1 }

/-! ## A cycle behind its admission -/

def noteDue (d : Process Time) : Process Time :=
  let due := config.worktreeCleanupDue d.cycle
  { d with worktreeCleanupPending := d.worktreeCleanupPending || due }.note (.admitted d.cycle due)

def cleanWorktrees (d : Process Time) : Process Time :=
  { d with worktreeCleanupPending := false }.note (.cleanup d.cycle)

/-- A pass may still use its worktree, so that a cleanup waits for a cycle that finds none. -/
def sweepWorktrees (d : Process Time) : Process Time :=
  if d.worktreeCleanupPending then
    match d.issueEnrichmentPassInFlight with
    | some pass => d.note (.cleanupDeferred d.cycle pass.cycle)
    | none => cleanWorktrees d
  else d

/-- The pass up to its first `await`. -/
def runIssueEnrichmentLane (admissions : Option DaemonCycleAdmissions) (pass : Pass) (d : Process Time) :
    Process Time :=
  if admissions.any fun a => !a.issueEnrichment then
    { d with publicOnlyEnrichmentNoticeLogged := true, passes := { pass with working := false } :: d.passes }.note
      (.analysisSkipped pass.serial)
  else { d with passes := { pass with working := true } :: d.passes }.note (.analysisBegun pass.serial)

def startIssueEnrichmentPass (admissions : Option DaemonCycleAdmissions) (runId : String) (d : Process Time) :
    Process Time :=
  match d.issueEnrichmentPassInFlight with
  | some pass => d.note (.passInFlight d.cycle pass.cycle)
  | none =>
    runIssueEnrichmentLane admissions ⟨d.passesBegun, d.cycle, runId, true⟩
      ({ d with
        issueEnrichmentPassInFlight := some ⟨d.passesBegun, d.cycle⟩
        passesBegun := d.passesBegun + 1 }.note (.passBegun d.passesBegun d.cycle))

/-- The cycle has come to its end and returns. -/
def Process.finish (d : Process Time) (runId : String) (ok : Bool) : Process Time :=
  let stored := env.stored d.beats
  let d := d.recordHeartbeat env config (if ok then .daemon_cycle_complete else .daemon_cycle_failed)
    (if ok then none else some "daemon_cycle_failed") d.cycle runId
  { d with stage := .returned (if ok then .ok else .runtimeFailure) }.note (.finished d.cycle runId ok stored)

/-- `recordHeartbeat("daemon_cycle_start")`. -/
def Process.begin (d : Process Time) : Process Time :=
  let runId := env.randomUUID d.runsBegun
  let stored := env.stored d.beats
  let d := d.recordHeartbeat env config .daemon_cycle_start none d.cycle runId
  { d with runsBegun := d.runsBegun + 1 }.note (.started d.cycle runId stored)

/-- `runDaemonCycle` from its admission to the `await` of the review. -/
def runDaemonCycle (admissions : Option DaemonCycleAdmissions) (d : Process Time) : Process Time :=
  let runId := env.randomUUID d.runsBegun
  let d := (sweepWorktrees (noteDue config d)).begin env config
  let d := if config.issueEnrichmentEnabled then startIssueEnrichmentPass admissions runId d else d
  if config.reviewLane = .held then d.finish env config runId true
  else { d with stage := .reviewing runId }.note (.reviewBegun d.cycle)

/-! ## Steps -/

/-- What comes next: a timer, or the end of something that was awaited. -/
inductive Act where
  | wake
  | allow (admissions : Option DaemonCycleAdmissions)
  | deny
  | failureRecorded
  | reviewed (ok : Bool)
  | retried
  | resume
  | analysed (serial : Nat) (ok : Bool)
  | settled (serial : Nat)
  | awaited

def afterCycle (result : DaemonCycleResult) (d : Process Time) : Process Time :=
  let awaits := d.issueEnrichmentPassInFlight.map PassRef.serial
  if shouldExitDaemonAfterFailedCycle result config.runOnce then { d with stage := .exiting awaits true }
  else if config.runOnce then { d with stage := .exiting awaits false }
  else { d with stage := .sleeping }

def afterReview (runId : String) (ok : Bool) (d : Process Time) : Process Time :=
  if ok then
    let d := d.recordHeartbeat env config .daemon_cycle_progress none d.cycle runId
    if config.reviewSchedulerEnabled then d.finish env config runId true else { d with stage := .retrying runId }
  else { d with stage := .failing runId }

def Pass.ended (serial : Nat) (pass : Pass) : Pass :=
  if pass.serial = serial then { pass with working := false } else pass

def afterAnalysis (pass : Pass) (ok : Bool) (d : Process Time) : Process Time :=
  let d := d.recordHeartbeat env config .daemon_cycle_progress (if ok then none else some "issue_enrichment_failed")
    pass.cycle pass.runId
  { d with passes := d.passes.map (Pass.ended pass.serial) }.note (.analysisEnded pass.serial ok)

/-- The `finally` of a pass. -/
def settle (serial : Nat) (d : Process Time) : Process Time :=
  { d with
    passes := d.passes.filter fun p => p.serial ≠ serial
    issueEnrichmentPassInFlight := d.issueEnrichmentPassInFlight.filter fun pass => pass.serial ≠ serial }.note
    (.passSettled serial)

def step (d : Process Time) (act : Act) : Option (Process Time) :=
  match act, d.stage with
  | .wake, .sleeping => some { d with cycle := d.cycle + 1, stage := .admitting }
  | .allow admissions, .admitting => some (runDaemonCycle env config admissions d)
  | .deny, .admitting => some { d with stage := .denying }
  | .failureRecorded, .denying => some ({ d with stage := .returned .admissionDenied }.note (.denied d.cycle))
  | .failureRecorded, .failing runId => some (d.finish env config runId false)
  | .reviewed ok, .reviewing runId => some (afterReview env config runId ok d)
  | .retried, .retrying runId => some (d.finish env config runId true)
  | .resume, .returned result => some (afterCycle config result d)
  | .awaited, .exiting awaits failed =>
    if awaits.all fun serial => d.passes.all fun p => p.serial ≠ serial then
      some ({ d with stage := .exited failed }.note (.exited failed))
    else none
  | .analysed serial ok, _ =>
    (d.passes.find? fun p => p.serial = serial && p.working).map fun pass => afterAnalysis env config pass ok d
  | .settled serial, _ =>
    (d.passes.find? fun p => p.serial = serial && !p.working).map fun pass => settle pass.serial d
  | _, _ => none

/-- What a step can do. -/
inductive Takes (d : Process Time) : Process Time → Prop where
  | wake : Takes d { d with cycle := d.cycle + 1, stage := .admitting }
  | allow (admissions : Option DaemonCycleAdmissions) : Takes d (runDaemonCycle env config admissions d)
  | deny : Takes d { d with stage := .denying }
  | denied : Takes d ({ d with stage := .returned .admissionDenied }.note (.denied d.cycle))
  | failed (runId : String) (h : d.stage = .failing runId) : Takes d (d.finish env config runId false)
  | reviewed (runId : String) (h : d.stage = .reviewing runId) (ok : Bool) : Takes d (afterReview env config runId ok d)
  | retried (runId : String) (h : d.stage = .retrying runId) : Takes d (d.finish env config runId true)
  | resume (result : DaemonCycleResult) (h : d.stage = .returned result) : Takes d (afterCycle config result d)
  | awaited (awaits : Option Nat) (failed : Bool) (h : d.stage = .exiting awaits failed)
    (hsettled : ∀ serial ∈ awaits, ∀ p ∈ d.passes, p.serial ≠ serial) :
    Takes d ({ d with stage := .exited failed }.note (.exited failed))
  | analysed (pass : Pass) (h : pass ∈ d.passes) (hworking : pass.working = true) (ok : Bool) :
    Takes d (afterAnalysis env config pass ok d)
  | settled (pass : Pass) (h : pass ∈ d.passes) (hended : pass.working = false) : Takes d (settle pass.serial d)

variable {env config}

theorem step_takes {d d' : Process Time} {act : Act} (h : step env config d act = some d') : Takes env config d d' := by
  unfold step at h
  cases act with
  | analysed serial ok =>
    obtain ⟨pass, hfind, rfl⟩ := Option.map_eq_some_iff.mp h
    have hgood := List.find?_some hfind
    rw [Bool.and_eq_true] at hgood
    exact .analysed pass (List.mem_of_find?_eq_some hfind) hgood.2 ok
  | settled serial =>
    obtain ⟨pass, hfind, rfl⟩ := Option.map_eq_some_iff.mp h
    have hgood := List.find?_some hfind
    rw [Bool.and_eq_true, Bool.not_eq_true'] at hgood
    exact .settled pass (List.mem_of_find?_eq_some hfind) hgood.2
  | wake =>
    cases hstage : d.stage <;> rw [hstage] at h <;> cases h
    exact .wake
  | allow admissions =>
    cases hstage : d.stage <;> rw [hstage] at h <;> cases h
    exact .allow admissions
  | deny =>
    cases hstage : d.stage <;> rw [hstage] at h <;> cases h
    exact .deny
  | failureRecorded =>
    cases hstage : d.stage <;> rw [hstage] at h <;> cases h
    · exact .denied
    · exact .failed _ hstage
  | reviewed ok =>
    cases hstage : d.stage <;> rw [hstage] at h <;> cases h
    exact .reviewed _ hstage ok
  | retried =>
    cases hstage : d.stage <;> rw [hstage] at h <;> cases h
    exact .retried _ hstage
  | resume =>
    cases hstage : d.stage <;> rw [hstage] at h <;> cases h
    exact .resume _ hstage
  | awaited =>
    cases hstage : d.stage with
    | exiting awaits failed =>
      rw [hstage] at h
      dsimp only at h
      split_ifs at h with hall
      obtain rfl := Option.some.inj h
      simp only [Option.all_eq_true, List.all_eq_true, decide_eq_true_eq] at hall
      exact .awaited awaits failed hstage hall
    | _ =>
      rw [hstage] at h
      cases h

variable (env config)

/-- What the process can come to, in whatever order things end. -/
def Reachable (row : Option (DaemonHeartbeatRow Time)) (d : Process Time) : Prop :=
  ∃ acts, Lib.run (step env config) (Process.init row) acts = some d

variable {env config}

theorem Reachable.invariant {row : Option (DaemonHeartbeatRow Time)} {d : Process Time} {I : Process Time → Prop}
    (h : Reachable env config row d) (hinit : I (Process.init row))
    (hstep : ∀ d d', I d → Takes env config d d' → I d') : I d := by
  obtain ⟨acts, hrun⟩ := h
  exact Lib.run_invariant (fun d act d' hd hact => hstep d d' hd (step_takes hact)) hinit hrun

end NeonDiff.Daemon
