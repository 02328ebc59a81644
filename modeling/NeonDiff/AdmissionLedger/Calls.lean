import NeonDiff.AdmissionLedger.Snapshot
import Mathlib.Data.Finset.Insert
import Mathlib.Data.Finset.Erase
import Mathlib.Logic.Function.Basic

/-! # The ledger and its calls

The ledger hands out its candidates under the caps, one at a call. A call that throws keeps what it had changed
before.
-/

namespace NeonDiff.AdmissionLedger

open Lib

inductive LedgerReason where
  | source_probe
  | eligible
  | held
  | already_recorded
  | released
  | repository_blocked
  | burst_threshold_exceeded
  | repo_max_issues_per_cycle
  | repo_max_comments_per_cycle
  | global_max_issues_per_cycle
  | global_max_comments_per_cycle
  deriving DecidableEq, Repr

/-- `IssueEnrichmentAdmissionLedgerCandidate`. -/
structure Entry where
  candidate : IssueEnrichmentAdmissionCandidate
  classification : IssueEnrichmentAdmissionDecision
  intendedAction : Action
  deriving DecidableEq

/-- `IssueEnrichmentAdmissionLedgerDecision`. -/
structure LedgerDecision where
  entry : Entry
  outputAction : ScanAction
  reason : LedgerReason
  deriving DecidableEq

def legacyBurstDeferral (entry : Entry) : Bool :=
  !entry.candidate.isNew && entry.classification.reason = .persisted_defer_due_or_unknown &&
    (entry.candidate.record.bind fun record => record.reason) = some "burst_threshold_exceeded"

def countsTowardBurst (entry : Entry) : Bool := !entry.candidate.isNew && !legacyBurstDeferral entry

structure Usage where
  globalIssues : Nat
  globalComments : Nat
  issues : String → Nat
  comments : String → Nat

/-- The variables that the calls share. -/
structure Ledger where
  limits : Limits
  entries : List Entry
  active : Finset String
  released : Finset String
  blocked : Finset String
  probed : Finset String
  requeued : Finset String
  deferred : List (String × LedgerReason)
  issueOnly : Finset String
  eligibleByRepo : String → Nat

section Ledger

variable (lower : String → String)

def Entry.key (entry : Entry) : String := entry.candidate.key lower

def Entry.repo (entry : Entry) : String := repoKey lower entry.candidate.repo

def addIssue (usage : Usage) (entry : Entry) : Usage :=
  { usage with
    globalIssues := usage.globalIssues + 1
    issues := Function.update usage.issues (entry.repo lower) (usage.issues (entry.repo lower) + 1) }

def addFull (usage : Usage) (entry : Entry) : Usage :=
  let usage := addIssue lower usage entry
  if entry.intendedAction = .would_comment then
    { usage with
      globalComments := usage.globalComments + 1
      comments := Function.update usage.comments (entry.repo lower) (usage.comments (entry.repo lower) + 1) }
  else usage

def noUsage : Usage := { globalIssues := 0, globalComments := 0, issues := fun _ => 0, comments := fun _ => 0 }

def addCurrent (active issueOnly : Finset String) (usage : Usage) (entry : Entry) : Usage :=
  if entry.key lower ∈ active then addFull lower usage entry
  else if entry.key lower ∈ issueOnly then addIssue lower usage entry
  else usage

def currentUsage (entries : List Entry) (active issueOnly : Finset String) : Usage :=
  entries.foldl (addCurrent lower active issueOnly) noUsage

def commentReason (reason : LedgerReason) : Bool :=
  reason = .repo_max_comments_per_cycle || reason = .global_max_comments_per_cycle

def projected (entry : Entry) (outputAction : ScanAction) (reason : LedgerReason) : LedgerDecision :=
  { entry, outputAction, reason }

namespace Ledger

def eligible (l : Ledger) (entry : Entry) : Bool :=
  entry.classification.state = .pending || decide (entry.key lower ∈ l.requeued)

def deferredReason (l : Ledger) (key : String) : Option LedgerReason :=
  (l.deferred.find? fun d => d.1 = key).map Prod.snd

/-- Why a candidate cannot be admitted; the limits of its repository may be missing. -/
def capReason (l : Ledger) (entry : Entry) (usage : Usage) : Except String (Option LedgerReason) :=
  if legacyBurstDeferral entry then .ok (some .burst_threshold_exceeded)
  else
    let repo := entry.repo lower
    match repoLimits lower l.limits repo with
    | none => failed ("missing_repo_limits:" ++ repo)
    | some cap => .ok <|
      if repo ∈ l.blocked then some .repository_blocked
      else if countsTowardBurst entry &&
          (entry.classification.state ≠ .source_dependent || decide (entry.key lower ∈ l.requeued)) &&
          decide (cap.burst < l.eligibleByRepo repo) then some .burst_threshold_exceeded
      else if cap.issues ≤ usage.issues repo then some .repo_max_issues_per_cycle
      else if l.limits.globalIssues ≤ usage.globalIssues then some .global_max_issues_per_cycle
      else if entry.intendedAction = .would_comment && decide (cap.comments ≤ usage.comments repo) then
        some .repo_max_comments_per_cycle
      else if entry.intendedAction = .would_comment && decide (l.limits.globalComments ≤ usage.globalComments) then
        some .global_max_comments_per_cycle
      else none

/-- `deferred.set(key, reason)`, with the issue slot that a comment cap takes. -/
def putOff (l : Ledger) (key : String) (reason : LedgerReason) : Ledger :=
  { l with
    deferred := (key, reason) :: l.deferred
    issueOnly := if commentReason reason then insert key l.issueOnly else l.issueOnly }

def usageAfter (usage : Usage) (entry : Entry) (reason : LedgerReason) : Usage :=
  if commentReason reason then addIssue lower usage entry else usage

def wantsProbe (l : Ledger) (entry : Entry) : Bool :=
  entry.classification.state = .source_dependent && decide (entry.key lower ∉ l.probed) &&
    decide (entry.key lower ∉ l.released) && decide (entry.repo lower ∉ l.blocked)

/-- The second loop of `next`. -/
def admitFirst : List Entry → Ledger → Usage → Except String (Option LedgerDecision) × Ledger
  | [], l, _ => (.ok none, l)
  | entry :: rest, l, usage =>
    let key := entry.key lower
    if !l.eligible lower entry || decide (key ∈ l.active) || decide (key ∈ l.released) || (l.deferredReason key).isSome then
      admitFirst rest l usage
    else
      match l.capReason lower entry usage with
      | .error e => (.error e, l)
      | .ok (some reason) => admitFirst rest (l.putOff key reason) (usageAfter lower usage entry reason)
      | .ok none => (.ok (some (projected entry entry.intendedAction.scan .eligible)), { l with active := insert key l.active })

def next (l : Ledger) : Except String (Option LedgerDecision) × Ledger :=
  match l.entries.find? (l.wantsProbe lower) with
  | some entry =>
    (.ok (some (projected entry entry.intendedAction.scan .source_probe)), { l with probed := insert (entry.key lower) l.probed })
  | none => admitFirst lower l.entries l (currentUsage lower l.entries l.active l.issueOnly)

/-- The loop of `snapshot`, with the output so far. -/
def projectAll : List Entry → Ledger → Usage → List LedgerDecision → Except String (List LedgerDecision) × Ledger
  | [], l, _, output => (.ok output, l)
  | entry :: rest, l, usage, output =>
    let key := entry.key lower
    if entry.classification.state = .held then projectAll rest l usage (output ++ [projected entry .deferred .held])
    else if entry.classification.state = .already_recorded then
      projectAll rest l usage (output ++ [projected entry .deferred .already_recorded])
    else if key ∈ l.released then projectAll rest l usage (output ++ [projected entry .deferred .released])
    else if key ∈ l.active then projectAll rest l usage (output ++ [projected entry entry.intendedAction.scan .eligible])
    else
      match l.deferredReason key with
      | some reason => projectAll rest l usage (output ++ [projected entry (deferral reason) reason])
      | none =>
        match l.capReason lower entry usage with
        | .error e => (.error e, l)
        | .ok (some reason) =>
          projectAll rest (l.putOff key reason) (usageAfter lower usage entry reason)
            (output ++ [projected entry (deferral reason) reason])
        | .ok none =>
          projectAll rest l (addFull lower usage entry) (output ++ [projected entry entry.intendedAction.scan .eligible])
where
  deferral (reason : LedgerReason) : ScanAction :=
    if reason = .burst_threshold_exceeded then .skipped else .deferred

def snapshot (l : Ledger) : Except String (List LedgerDecision) × Ledger :=
  projectAll lower l.entries l (currentUsage lower l.entries l.active l.issueOnly) []

def release (l : Ledger) (candidate : IssueEnrichmentAdmissionCandidate) : Ledger :=
  { l with active := l.active.erase (candidate.key lower), released := insert (candidate.key lower) l.released }

def requeue (l : Ledger) (candidate : IssueEnrichmentAdmissionCandidate) : Ledger :=
  if candidate.key lower ∈ l.requeued then l
  else
    let l := { l with requeued := insert (candidate.key lower) l.requeued }
    match l.entries.find? fun entry => entry.key lower = candidate.key lower with
    | none => l
    | some entry =>
      if countsTowardBurst entry then
        let repo := repoKey lower candidate.repo
        { l with eligibleByRepo := Function.update l.eligibleByRepo repo (l.eligibleByRepo repo + 1) }
      else l

def blockRepo (l : Ledger) (repo : String) : Ledger :=
  let normalized := repoKey lower repo
  if l.entries.any fun entry => entry.repo lower = normalized then
    { l with
      blocked := insert normalized l.blocked
      deferred := []
      issueOnly := ∅
      active := (l.entries.filter fun entry => entry.repo lower = normalized).foldl
        (fun active entry => active.erase (entry.key lower)) l.active }
  else l

end Ledger

/-! ## Creation -/

def intendedActionOf (candidate : IssueEnrichmentAdmissionCandidate) : Option Action :=
  match candidate.action with
  | .would_enrich => some .would_enrich
  | .would_comment => some .would_comment
  | .deferred | .skipped => candidate.intendedAction

/-- The entry of a candidate with its decision; a skipped candidate has none. -/
def ledgerCandidate (canonical : IssueEnrichmentAdmissionDecision) (classification : IssueEnrichmentAdmissionDecision)
    (candidate : IssueEnrichmentAdmissionCandidate) : Except String (Option Entry) :=
  if classification.candidate ≠ candidate || classification.key ≠ candidate.key lower ||
      classification.state ≠ canonical.state || classification.reason ≠ canonical.reason then failed "decision_mismatch"
  else if candidate.action = .skipped then .ok none
  else
    match intendedActionOf candidate with
    | none => failed "missing_intent"
    | some intendedAction => .ok (some { candidate, classification, intendedAction })

def ledgerCandidates : List IssueEnrichmentAdmissionDecision → List IssueEnrichmentAdmissionDecision →
    List IssueEnrichmentAdmissionCandidate → Except String (List Entry)
  | canonical :: canonicals, classification :: decisions, candidate :: candidates => do
    let entry ← ledgerCandidate lower canonical classification candidate
    let entries ← ledgerCandidates canonicals decisions candidates
    pure (entry.toList ++ entries)
  | _, _, _ => .ok []

def createIssueEnrichmentAdmissionLedger (snapshot : IssueEnrichmentAdmissionSnapshot lower)
    (decisions : List IssueEnrichmentAdmissionDecision) : Except String Ledger :=
  if decisions.length ≠ snapshot.candidates.length then failed "invalid_inputs"
  else do
    let limits ← readLimits lower snapshot.limits
    let entries ← ledgerCandidates lower (classifyIssueEnrichmentAdmission snapshot) decisions snapshot.candidates
    pure
      { limits, entries, active := ∅, released := ∅, blocked := ∅, probed := ∅, requeued := ∅, deferred := [],
        issueOnly := ∅,
        eligibleByRepo := fun repo => entries.countP fun entry =>
          entry.classification.state = .pending && countsTowardBurst entry && entry.repo lower = repo }

/-! ## Runs -/

inductive Call where
  | next
  | snapshot
  | release (candidate : IssueEnrichmentAdmissionCandidate)
  | requeue (candidate : IssueEnrichmentAdmissionCandidate)
  | blockRepo (repo : String)

inductive Answer where
  | returned (decision : Option LedgerDecision)
  | listed (decisions : List LedgerDecision)
  | done
  | threw (message : String)

def returnedOf (r : Except String (Option LedgerDecision) × Ledger) : Answer × Ledger :=
  match r with
  | (.ok decision, l) => (.returned decision, l)
  | (.error e, l) => (.threw e, l)

def listedOf (r : Except String (List LedgerDecision) × Ledger) : Answer × Ledger :=
  match r with
  | (.ok decisions, l) => (.listed decisions, l)
  | (.error e, l) => (.threw e, l)

def answer (l : Ledger) (call : Call) : Answer × Ledger :=
  match call with
  | .next => returnedOf (l.next lower)
  | .snapshot => listedOf (l.snapshot lower)
  | .release candidate => (.done, l.release lower candidate)
  | .requeue candidate => (.done, l.requeue lower candidate)
  | .blockRepo repo => (.done, l.blockRepo lower repo)

/-- The calls made so far with their answers, the first one first, and the ledger they left. -/
abbrev Log := List (Call × Answer)

def logged (past : Log × Ledger) (call : Call) : Log × Ledger :=
  (past.1 ++ [(call, (answer lower past.2 call).1)], (answer lower past.2 call).2)

def history (l : Ledger) (calls : List Call) : Log × Ledger := calls.foldl (logged lower) ([], l)

end Ledger

end NeonDiff.AdmissionLedger
