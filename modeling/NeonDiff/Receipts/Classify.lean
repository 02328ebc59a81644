import Mathlib.Data.List.Sort
import NeonDiff.Receipts.Lane

/-! # The receipt of a cycle's result

The daemon reads the result of an issue-enrichment cycle field by field, caps its counts and checks them against one
another before it says how the lane went.
-/

namespace NeonDiff.Receipts

/-! ## What is read of a result -/

inductive StatusState where
  | disabled | blocked | ready | dryRunOnly
  deriving DecidableEq, Repr

/-- The fields of a result object; nothing stands for one that is missing or of another type. -/
structure ResultFields where
  /-- The own fields of the summary that are integers. -/
  summary : CountKey → Option Int
  state : Option StatusState
  /-- The entries of the blocker array; nothing stands for an entry that is not among `BLOCKERS`. -/
  blockers : Option (List (Option LaneReason))
  dryRun : Option Bool
  ok : Option Bool

def snapshotSummary (summary : CountKey → Option Int) : Option Counts :=
  if countKeys.all fun key => (summary key).any fun n => 0 ≤ n then
    some fun key => min countCap ((summary key).getD 0)
  else none

/-- `BLOCKERS`, in the order of `BLOCKER_RANK`. -/
def rankedBlockers : List LaneReason :=
  [.issueEnrichmentDisabled, .allowlistEmpty, .livePostingDisabled, .liveRepoThresholdsRequired,
    .modelRuntimeRequired, .appCredentialsRequired, .appIssuesPermissionRequired]

/-- `ISSUE_ENRICHMENT_RECEIPT_BLOCKER_LIMIT`. -/
def blockerLimit : Nat := 32

structure BlockersSnapshot where
  readable : Bool := false
  complete : Bool := false
  reasons : List LaneReason := []
  deriving DecidableEq

def blockerRank (reason : LaneReason) : Nat := rankedBlockers.idxOf reason

def snapshotBlockers : Option (List (Option LaneReason)) → BlockersSnapshot
  | none => {}
  | some value =>
    { readable := true
      complete := value.length ≤ blockerLimit && (value.take blockerLimit).all Option.isSome
      reasons := ((value.take blockerLimit).filterMap id).insertionSort fun a b => blockerRank a ≤ blockerRank b }

/-! ## The matrix -/

/-- `USEFUL_KEYS` are the work keys of the lane. -/
def usefulKeys : List CountKey := workKeys

def dryRunForbidden : List CountKey := [.workerSkipped, .posted, .dryRunRecorded, .skippedRecorded, .deferredRecorded]

/-- `RELATIONS`: a part and its whole. -/
def relations : List (CountKey × CountKey) :=
  [(.readFailures, .reposScanned), (.truncatedRepos, .reposScanned), (.wouldEnrich, .eligible),
    (.wouldComment, .wouldEnrich), (.deferred, .eligible), (.posted, .wouldComment),
    (.dryRunRecorded, .wouldEnrich), (.skippedRecorded, .skipped), (.deferredRecorded, .deferred),
    (.alreadyProcessed, .issuesSeen), (.failed, .issuesSeen)]

/-- `BLOCKING_REASONS` are the reasons of a blocked receipt. -/
def blockingReasons : List LaneReason := blockedReasons

def disabledReasons : List LaneReason := [.issueEnrichmentDisabled, .allowlistEmpty, .livePostingDisabled]

def dryRunIgnoredReasons : List LaneReason := [.appCredentialsRequired, .livePostingDisabled, .modelRuntimeRequired]

def zeroExcept (counts : Counts) (exception : Option CountKey) : Bool :=
  countKeys.all fun key => if exception = some key then counts key = 1 else counts key = 0

def anyCount (counts : Counts) (keys : List CountKey) : Bool := keys.any fun key => 0 < counts key

def effectiveBlocker (state : StatusState) (dryRun : Bool) (reasons : List LaneReason) : Option LaneReason :=
  let mayIgnore := state = .dryRunOnly || (dryRun && state = .blocked)
  reasons.find? fun reason => !mayIgnore || !dryRunIgnoredReasons.contains reason

/-- `matrixAccepts`, of a result with a state and both flags. -/
def matrixAccepts (state : StatusState) (blockers : BlockersSnapshot) (dryRun ok : Bool) (counts : Counts) : Bool :=
  if !blockers.readable || !blockers.complete then false
  else if ¬blockers.reasons.Nodup then false
  else if state = .ready && !blockers.reasons.isEmpty then false
  else if state = .dryRunOnly && blockers.reasons ≠ [.livePostingDisabled] then false
  else if state = .blocked && !blockers.reasons.any blockingReasons.contains then false
  else if state = .disabled then
    blockers.reasons.contains .issueEnrichmentDisabled && blockers.reasons.all disabledReasons.contains && ok &&
      zeroExcept counts none
  else if relations.any (fun r => counts r.2 < counts r.1) || counts .issuesSeen < counts .skipped + counts .eligible then
    false
  else if ok && (0 < counts .readFailures || 0 < counts .failed) then false
  else if 0 < counts .workerSkipped then
    !dryRun && ok && (state = .ready || state = .dryRunOnly) && zeroExcept counts (some .workerSkipped)
  else if dryRun && anyCount counts dryRunForbidden then false
  else if !dryRun && state = .ready && 0 < counts .dryRunRecorded then false
  else if !dryRun && state = .dryRunOnly && 0 < counts .posted then false
  else if 0 < counts .posted && 0 < counts .dryRunRecorded then false
  else state ≠ .blocked || (effectiveBlocker state dryRun blockers.reasons).isNone || (!ok && zeroExcept counts none)

/-! ## `classifyIssueEnrichmentReceipt` -/

/-- A receipt as the classifier emits it. -/
structure Receipt where
  ok : Bool
  code : LaneCode
  counts : Counts
  reason : Option LaneReason := none

def zeroCounts : Counts := fun _ => 0

def acceptedReceipt (state : StatusState) (reasons : List LaneReason) (dryRun ok : Bool) (counts : Counts) : Receipt :=
  if counts .workerSkipped = 1 then
    { ok := true, code := .leaseSkipped, counts, reason := some .workerLeaseHeld }
  else if state = .disabled then { ok := true, code := .disabled, counts := zeroCounts }
  else if 0 < counts .readFailures then
    { ok := false, code := .resultNotOk, counts, reason := some .readFailure }
  else if 0 < counts .failed then { ok := false, code := .resultNotOk, counts, reason := some .itemFailure }
  else
    match effectiveBlocker state dryRun reasons with
    | some blocker => { ok := false, code := .blocked, counts, reason := some blocker }
    | none =>
      if !ok then { ok := false, code := .resultNotOk, counts, reason := some .unknownFailure }
      else { ok := true, code := if anyCount counts usefulKeys then .completed else .noCandidates, counts }

def classifyIssueEnrichmentReceipt (result : ResultFields) : Receipt :=
  match snapshotSummary result.summary with
  | none => { ok := false, code := .malformedSummary, counts := zeroCounts, reason := some .malformedSummary }
  | some counts =>
    match result.state, result.dryRun, result.ok with
    | some state, some dryRun, some ok =>
      if matrixAccepts state (snapshotBlockers result.blockers) dryRun ok counts then
        acceptedReceipt state (snapshotBlockers result.blockers).reasons dryRun ok counts
      else { ok := false, code := .resultNotOk, counts, reason := some .unknownFailure }
    | _, _, _ => { ok := false, code := .resultNotOk, counts, reason := some .unknownFailure }

end NeonDiff.Receipts
