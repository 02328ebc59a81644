import Mathlib.Order.Lattice
import Mathlib.Data.Option.Basic

/-! # The daemon's heartbeat row -/

namespace NeonDiff.Heartbeat

inductive DaemonHeartbeatEvent where
  | daemon_cycle_start | daemon_cycle_progress | daemon_cycle_complete | daemon_cycle_failed
  deriving DecidableEq, Repr

inductive DaemonReviewLane where
  | active | held
  deriving DecidableEq, Repr

inductive DaemonHeartbeatFailureCode where
  | issue_enrichment_failed | daemon_cycle_failed
  deriving DecidableEq, Repr

/-- A recorded time is an ISO text, in the order the database has on texts. -/
structure DaemonHeartbeatRecord (Time : Type) where
  cycle : Nat
  event : DaemonHeartbeatEvent
  dryRun : Bool
  reviewLane : Option DaemonReviewLane
  runId : Option String
  recordedAt : Time
  error : Option String

/-- The row with `id = 1`; nothing stands for `null`. -/
structure DaemonHeartbeatRow (Time : Type) where
  cycle : Option Nat
  event : Option DaemonHeartbeatEvent
  dryRun : Option Bool
  reviewLane : Option DaemonReviewLane
  recordedAt : Option Time
  error : Option DaemonHeartbeatFailureCode
  startedCycle : Option Nat
  startedAt : Option Time
  runId : Option String
  lastProgressAt : Option Time
  completedAt : Option Time
  deriving DecidableEq, Repr

variable {Time : Type}

def normalizeDaemonHeartbeatError (event : DaemonHeartbeatEvent) (error : Option String) :
    Option DaemonHeartbeatFailureCode :=
  if error = some "issue_enrichment_failed" then some .issue_enrichment_failed
  else if error = some "daemon_cycle_failed" then some .daemon_cycle_failed
  else if event = .daemon_cycle_failed && error.any (· ≠ "") then some .daemon_cycle_failed
  else none

/-- `event in ('daemon_cycle_complete', 'daemon_cycle_failed')`. -/
def isTerminalEvent (event : Option DaemonHeartbeatEvent) : Bool :=
  event = some .daemon_cycle_complete || event = some .daemon_cycle_failed

def isRepeatedStart (current : DaemonHeartbeatRow Time) (record : DaemonHeartbeatRecord Time) : Bool :=
  current.runId = record.runId && current.completedAt.isNone &&
    (current.event = none || current.event = some .daemon_cycle_start || current.event = some .daemon_cycle_progress)

def startedRow (record : DaemonHeartbeatRecord Time) : DaemonHeartbeatRow Time where
  cycle := none
  event := none
  dryRun := none
  reviewLane := record.reviewLane
  recordedAt := none
  error := none
  startedCycle := some record.cycle
  startedAt := some record.recordedAt
  runId := record.runId
  lastProgressAt := none
  completedAt := none

def terminalRow (record : DaemonHeartbeatRecord Time) : DaemonHeartbeatRow Time where
  cycle := some record.cycle
  event := some record.event
  dryRun := some record.dryRun
  reviewLane := record.reviewLane
  recordedAt := some record.recordedAt
  error := normalizeDaemonHeartbeatError record.event record.error
  startedCycle := some record.cycle
  startedAt := some record.recordedAt
  runId := record.runId
  lastProgressAt := none
  completedAt := some record.recordedAt

/-- What progress and terminal events set alike. -/
def touchedRow (current : DaemonHeartbeatRow Time) (record : DaemonHeartbeatRecord Time) : DaemonHeartbeatRow Time :=
  { current with
    cycle := some record.cycle
    event := some record.event
    dryRun := some record.dryRun
    reviewLane := record.reviewLane.or current.reviewLane
    recordedAt := some record.recordedAt
    error := (normalizeDaemonHeartbeatError record.event record.error).or current.error }

variable [LinearOrder Time]

/-- A comparison with `null` does not hold. -/
def isBefore (stored : Option Time) (time : Time) : Bool := stored.any (· ≤ time)

/-- `stored is null or stored <= time`. -/
def isNotAfter (stored : Option Time) (time : Time) : Bool := stored.all (· ≤ time)

/-- The row takes progress and terminal events of its own run, until one is terminal, that go forward in time. -/
def takesEvent (current : DaemonHeartbeatRow Time) (record : DaemonHeartbeatRecord Time) : Bool :=
  !isTerminalEvent current.event && current.runId = record.runId && current.completedAt.isNone &&
    isBefore current.startedAt record.recordedAt && isNotAfter current.lastProgressAt record.recordedAt

def recordDaemonHeartbeat (current : Option (DaemonHeartbeatRow Time)) (record : DaemonHeartbeatRecord Time) :
    Option (DaemonHeartbeatRow Time) :=
  match record.event with
  | .daemon_cycle_start =>
    if current.any fun row => isRepeatedStart row record then current else some (startedRow record)
  | .daemon_cycle_progress =>
    current.map fun row =>
      if takesEvent row record then { touchedRow row record with lastProgressAt := some record.recordedAt } else row
  | .daemon_cycle_complete | .daemon_cycle_failed =>
    match current with
    | none => some (terminalRow record)
    | some row =>
      some (if takesEvent row record then { touchedRow row record with completedAt := some record.recordedAt } else row)

end NeonDiff.Heartbeat
