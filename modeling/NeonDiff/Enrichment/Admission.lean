import Mathlib.Data.List.Nodup
import NeonDiff.Enrichment.Types

/-! # The admission ledger of one enrichment cycle

The ledger hands out the issues of a cycle under its caps and says at the end what became of each.
-/

open NeonDiff.Lib

namespace NeonDiff.Enrichment

/-! ## Scan items -/

/-- A cycle leaves every cap to the ledger, so its scan never defers. -/
inductive Action where
  | wouldEnrich | wouldComment | skipped
  deriving DecidableEq, Repr

structure ScanItem where
  repo : String
  issue : Issue
  action : Action
  reason : Reason
  deriving DecidableEq, Repr

abbrev IssueKey := String × Nat

def ScanItem.key (item : ScanItem) : IssueKey := (item.repo, item.issue.number)

def planRepoIssueScan (texts : Texts) (config : Config) (repo : String) (issues : List Issue) : List ScanItem :=
  issues.map fun issue =>
    match getIssueEnrichmentEligibility texts issue with
    | some reason => ⟨repo, issue, .skipped, reason⟩
    | none => ⟨repo, issue, if config.postIssueComment then .wouldComment else .wouldEnrich, .eligible⟩

/-- An issue opened during the cycle is new as well. -/
def isNewIssue (issue : Issue) (checkedAt : Time) : Bool := checkedAt - issue.createdAt ≤ 24 * 60 * 60000

/-! ## Classification -/

inductive DecisionState where
  | pending | held | alreadyRecorded | sourceDependent
  deriving DecidableEq, Repr

inductive DecisionReason where
  | noRecord
  | recordFailed
  | recordSkipped
  | persistedDeferActive
  | persistedDeferIdentityUnknownOrChanged
  | persistedDeferDueOrUnknown
  | dryRunEqualIdentity
  | dryRunIdentityUnknownOrChanged
  | dryRunRequiresLive
  | postedRequiresSourceComparison
  deriving DecidableEq, Repr

def future (deadline : Option Time) (checkedAt : Time) : Bool := deadline.any fun t => checkedAt < t

def classify (item : ScanItem) (record : Option IssueRecord) (checkedAt : Time) : DecisionState × DecisionReason :=
  match record with
  | none => (.pending, .noRecord)
  | some record =>
    let sameKnownIdentity := record.issueUpdatedAt = some item.issue.updatedAt
    match record.status with
    | .failed => (.pending, .recordFailed)
    | .skipped => (.pending, .recordSkipped)
    | .posted => (.sourceDependent, .postedRequiresSourceComparison)
    | .deferred =>
      if !sameKnownIdentity then (.pending, .persistedDeferIdentityUnknownOrChanged)
      else if future record.nextEligibleAt checkedAt then (.held, .persistedDeferActive)
      else (.pending, .persistedDeferDueOrUnknown)
    | .dryRun =>
      if item.action = .wouldComment then (.pending, .dryRunRequiresLive)
      else if sameKnownIdentity then (.alreadyRecorded, .dryRunEqualIdentity)
      else (.pending, .dryRunIdentityUnknownOrChanged)

/-- A candidate with its record as the cycle found it. -/
structure Entry where
  item : ScanItem
  record : Option IssueRecord
  isNew : Bool
  state : DecisionState
  reason : DecisionReason

def Entry.key (e : Entry) : IssueKey := e.item.key

def legacyBurstDeferral (e : Entry) : Bool :=
  !e.isNew && e.reason = .persistedDeferDueOrUnknown && e.record.bind (·.reason) = some .burstThresholdExceeded

def countsTowardBurst (e : Entry) : Bool := !e.isNew && !legacyBurstDeferral e

/-! ## Caps -/

structure RepoLimits where
  issues : Nat
  comments : Nat
  burst : Nat

structure Limits where
  globalIssues : Nat
  globalComments : Nat
  repos : String → RepoLimits

structure Usage where
  globalIssues : Nat := 0
  globalComments : Nat := 0
  issues : String → Nat := fun _ => 0
  comments : String → Nat := fun _ => 0

def Usage.addIssue (u : Usage) (e : Entry) : Usage :=
  { u with
    globalIssues := u.globalIssues + 1
    issues := fun r => if r = e.item.repo then u.issues r + 1 else u.issues r }

def Usage.addFull (u : Usage) (e : Entry) : Usage :=
  let u := u.addIssue e
  if e.item.action = .wouldComment then
    { u with
      globalComments := u.globalComments + 1
      comments := fun r => if r = e.item.repo then u.comments r + 1 else u.comments r }
  else u

structure Ledger where
  limits : Limits
  entries : List Entry
  active : List IssueKey := []
  released : List IssueKey := []
  blocked : List String := []
  probed : List IssueKey := []
  requeued : List IssueKey := []
  deferred : List (IssueKey × Reason) := []
  issueOnly : List IssueKey := []
  eligibleByRepo : String → Nat

namespace Ledger

def eligible (l : Ledger) (e : Entry) : Bool := e.state = .pending || l.requeued.contains e.key

def storedReason (l : Ledger) (key : IssueKey) : Option Reason := (l.deferred.find? fun p => p.1 = key).map (·.2)

def currentUsage (l : Ledger) : Usage :=
  l.entries.foldl (fun u e =>
    if l.active.contains e.key then u.addFull e else if l.issueOnly.contains e.key then u.addIssue e else u) {}

def capReason (l : Ledger) (usage : Usage) (e : Entry) : Option Reason :=
  let repo := e.item.repo
  let cap := l.limits.repos repo
  if legacyBurstDeferral e then some .burstThresholdExceeded
  else if l.blocked.contains repo then some .repositoryBlocked
  else if countsTowardBurst e && (e.state ≠ .sourceDependent || l.requeued.contains e.key) &&
      cap.burst < l.eligibleByRepo repo then some .burstThresholdExceeded
  else if cap.issues ≤ usage.issues repo then some .repoMaxIssuesPerCycle
  else if l.limits.globalIssues ≤ usage.globalIssues then some .globalMaxIssuesPerCycle
  else if e.item.action = .wouldComment && cap.comments ≤ usage.comments repo then some .repoMaxCommentsPerCycle
  else if e.item.action = .wouldComment && l.limits.globalComments ≤ usage.globalComments then
    some .globalMaxCommentsPerCycle
  else none

def commentReason (r : Reason) : Bool := r = .repoMaxCommentsPerCycle || r = .globalMaxCommentsPerCycle

/-! ## Handing out -/

def wantsProbe (l : Ledger) (e : Entry) : Bool :=
  e.state = .sourceDependent && !l.probed.contains e.key && !l.released.contains e.key &&
    !l.blocked.contains e.item.repo

/-- Entries over a cap are put off on the way to the first one that is under all of them. -/
def admitFirst (l : Ledger) (usage : Usage) : List Entry → Option Entry × Ledger
  | [] => (none, l)
  | e :: rest =>
    if !l.eligible e || l.active.contains e.key || l.released.contains e.key || (l.storedReason e.key).isSome then
      admitFirst l usage rest
    else
      match l.capReason usage e with
      | none => (some e, { l with active := e.key :: l.active })
      | some reason =>
        if commentReason reason then
          admitFirst { l with deferred := (e.key, reason) :: l.deferred, issueOnly := e.key :: l.issueOnly }
            (usage.addIssue e) rest
        else admitFirst { l with deferred := (e.key, reason) :: l.deferred } usage rest

def next (l : Ledger) : Option (Entry × Reason) × Ledger :=
  match l.entries.find? l.wantsProbe with
  | some e => (some (e, .sourceProbe), { l with probed := e.key :: l.probed })
  | none =>
    match l.admitFirst l.currentUsage l.entries with
    | (some e, l') => (some (e, .eligible), l')
    | (none, l') => (none, l')

def release (l : Ledger) (e : Entry) : Ledger :=
  { l with active := l.active.filter (· ≠ e.key), released := e.key :: l.released }

def requeue (l : Ledger) (e : Entry) : Ledger :=
  if l.requeued.contains e.key then l
  else
    { l with
      requeued := e.key :: l.requeued
      eligibleByRepo := fun r =>
        if r = e.item.repo && countsTowardBurst e then l.eligibleByRepo r + 1 else l.eligibleByRepo r }

def blockRepo (l : Ledger) (repo : String) : Ledger :=
  if l.entries.any fun e => e.item.repo = repo then
    { l with
      blocked := repo :: l.blocked
      deferred := []
      issueOnly := []
      active := l.active.filter fun key => key.1 ≠ repo }
  else l

/-! ## What became of each -/

def snapshotFrom (l : Ledger) (usage : Usage) : List Entry → List (Entry × Reason)
  | [] => []
  | e :: rest =>
    if e.state = .held then (e, .held) :: snapshotFrom l usage rest
    else if e.state = .alreadyRecorded then (e, .alreadyRecorded) :: snapshotFrom l usage rest
    else if l.released.contains e.key then (e, .released) :: snapshotFrom l usage rest
    else if l.active.contains e.key then (e, .eligible) :: snapshotFrom l usage rest
    else
      match l.storedReason e.key with
      | some reason => (e, reason) :: snapshotFrom l usage rest
      | none =>
        match l.capReason usage e with
        | some reason =>
          (e, reason) :: snapshotFrom l (if commentReason reason then usage.addIssue e else usage) rest
        | none => (e, .eligible) :: snapshotFrom l (usage.addFull e) rest

def snapshot (l : Ledger) : List (Entry × Reason) := l.snapshotFrom l.currentUsage l.entries

end Ledger

/-! ## The ledger of a scan -/

def repoLimits (throttle : ThrottlePolicy) : RepoLimits :=
  { issues := throttle.maxIssuesPerCycle, comments := throttle.maxCommentsPerCycle, burst := throttle.maxIssuesPerBurst }

def validLimits (issues comments : Nat) : Bool := 0 < issues && comments ≤ issues

def admissionEntry (records : Records) (checkedAt : Time) (item : ScanItem) : Entry :=
  let record := getIssueEnrichmentRecord records item.repo item.issue.number
  { item, record, isNew := isNewIssue item.issue checkedAt
    state := (classify item record checkedAt).1
    reason := (classify item record checkedAt).2 }

/-- Nothing when the snapshot or the ledger throws: an issue was listed twice, or a cap is out of range. -/
def createIssueEnrichmentAdmissionLedger (texts : Texts) (config : Config) (repos : List String) (records : Records)
    (checkedAt : Time) (items : List ScanItem) : Option Ledger :=
  let throttle := fun repo => (resolveIssueEnrichmentRepoPolicy texts config repo).throttle
  if ¬(items.map ScanItem.key).Nodup then none
  else if !repos.all fun repo => validLimits (throttle repo).maxIssuesPerCycle (throttle repo).maxCommentsPerCycle &&
      0 < (throttle repo).maxIssuesPerBurst then none
  else if !validLimits config.globalMaxIssuesPerCycle config.globalMaxCommentsPerCycle then none
  else
    let entries := (items.filter fun item => item.action ≠ .skipped).map (admissionEntry records checkedAt)
    some
      { limits :=
          { globalIssues := config.globalMaxIssuesPerCycle
            globalComments := config.globalMaxCommentsPerCycle
            repos := fun repo => repoLimits (throttle repo) }
        entries
        eligibleByRepo := fun repo =>
          (entries.filter fun e => e.item.repo = repo && e.state = .pending && countsTowardBurst e).length }

end NeonDiff.Enrichment
