import NeonDiff.Enrichment.Model
import NeonDiff.Receipts.Classify

/-! # The result of one enrichment cycle

`runIssueEnrichmentCycle` for any caller, as far as its counts go. What the reader lists, what the store says of an
issue and how each outside call ends are answers that the cycle is given.
-/

open NeonDiff.Lib NeonDiff.Receipts

namespace NeonDiff.Enrichment

/-! ## The status -/

structure CycleCall where
  config : Config
  enabled : Bool
  canPost : Bool
  /-- `codexRuntime?.enabled === true`. -/
  codexRuntime : Bool
  /-- The caller brings an analyzer of its own. -/
  analyzeIssue : Bool := false
  dryRun : Bool
  checkedAt : Time
  repo : Option String := none
  includeExisting : Bool := false
  since : Option Time := none
  force : Bool := false

structure Status where
  ok : Bool
  state : StatusState
  blockers : List LaneReason

/-- A field of `LIVE_REPO_THRESHOLD_FIELDS` is missing. -/
def RepoOverride.missesThreshold (o : RepoOverride) : Bool :=
  o.maxIssuesPerCycle.isNone || o.maxCommentsPerCycle.isNone || o.cooldownMs.isNone || o.burstWindowMs.isNone ||
    o.maxIssuesPerBurst.isNone || o.lookbackMs.isNone

def reposMissingLiveIssueEnrichmentThresholds (texts : Texts) (config : Config) : List String :=
  (canonicalIssueEnrichmentRepositories texts config).filter fun repo =>
    match config.override repo with
    | none => true
    | some override => override.enabled ≠ some false && override.missesThreshold

/-- A cycle makes no read checks, so the permission blocker never stands in it. -/
def buildIssueEnrichmentStatus (texts : Texts) (c : CycleCall) (modelAnalysisAvailable : Bool) : Status :=
  let live := c.enabled && c.config.postIssueComment
  let blockers :=
    (if !c.enabled then [LaneReason.issueEnrichmentDisabled] else []) ++
    (if c.config.allowlist.isEmpty then [.allowlistEmpty] else []) ++
    (if !c.config.postIssueComment then [.livePostingDisabled] else []) ++
    (if live && !(reposMissingLiveIssueEnrichmentThresholds texts c.config).isEmpty then
      [.liveRepoThresholdsRequired] else []) ++
    (if live && !modelAnalysisAvailable then [.modelRuntimeRequired] else []) ++
    (if live && !c.canPost then [.appCredentialsRequired] else [])
  let blocking := blockers.filter fun blocker =>
    [.appCredentialsRequired, .appIssuesPermissionRequired, .liveRepoThresholdsRequired,
      .modelRuntimeRequired].contains blocker || (c.enabled && blocker = .allowlistEmpty)
  { ok := blocking.isEmpty
    state :=
      if !c.enabled then .disabled
      else if !blocking.isEmpty then .blocked
      else if c.config.postIssueComment then .ready
      else .dryRunOnly
    blockers }

def CycleCall.status (texts : Texts) (c : CycleCall) : Status :=
  buildIssueEnrichmentStatus texts c (c.analyzeIssue || c.codexRuntime)

/-- The status of `collectIssueEnrichmentScan`, which is not told of the caller's analyzer. -/
def CycleCall.scanStatus (texts : Texts) (c : CycleCall) : Status :=
  buildIssueEnrichmentStatus texts c c.codexRuntime

/-! ## What the cycle is given -/

/-- What one round meets: the record of the store, and how its calls end. -/
structure RoundAnswers where
  existing : Option IssueRecord := none
  source : Except String Unit := .ok ()
  evidence : Except String Unit := .ok ()
  identityHash : String := ""
  /-- The body hash of the rendered comment, or what failed on the way to it. -/
  analysis : Except String String := .ok ""
  post : Except String Unit := .ok ()

structure CycleWorld where
  /-- The run lease was acquired here or by the caller. -/
  leased : Bool := true
  watermarked : String → Bool := fun _ => false
  /-- What the reader lists, with whether that was cut; nothing when it throws. -/
  listing : String → Option (Reading × Bool)
  records : Records := .empty
  rounds : List RoundAnswers := []

/-! ## Repositories -/

def CycleCall.candidateRepos (texts : Texts) (c : CycleCall) : List String :=
  match c.repo with
  | some repo => canonicalIssueEnrichmentRepositories texts { c.config with allowlist := [repo] }
  | none => canonicalIssueEnrichmentRepositories texts c.config

def CycleCall.scansRepo (texts : Texts) (c : CycleCall) (w : CycleWorld) (repo : String) : Bool :=
  let policy := resolveIssueEnrichmentRepoPolicy texts c.config repo
  let canUseActivationWatermark := !c.includeExisting && c.since.isNone
  !policy.allowed || !canUseActivationWatermark || w.watermarked repo ||
    policy.throttle.processExistingOpenIssuesOnActivation

def CycleCall.reposToScan (texts : Texts) (c : CycleCall) (w : CycleWorld) : List String :=
  (c.candidateRepos texts).filter (c.scansRepo texts w)

/-- The counts of one repository, as the cycle's result has them. -/
structure RepoCounts where
  repo : String
  ok : Bool := true
  allowed : Bool := true
  baselined : Bool := false
  truncated : Bool := false
  issuesSeen : Nat := 0
  eligible : Nat := 0
  skipped : Nat := 0
  wouldEnrich : Nat := 0
  wouldComment : Nat := 0
  deferred : Nat := 0

def CycleCall.baselineRepos (texts : Texts) (c : CycleCall) (w : CycleWorld) : List RepoCounts :=
  ((c.candidateRepos texts).filter fun repo => !c.scansRepo texts w repo).map fun repo => { repo, baselined := true }

def CycleCall.scan (texts : Texts) (c : CycleCall) (w : CycleWorld) (repo : String) : RepoScan :=
  if !(resolveIssueEnrichmentRepoPolicy texts c.config repo).allowed then { repo, allowed := false }
  else
    match w.listing repo with
    | none => { repo, ok := false }
    | some (reading, truncated) => { repo, truncated, reading }

def CycleCall.scans (texts : Texts) (c : CycleCall) (w : CycleWorld) : List RepoScan :=
  (c.reposToScan texts w).map (c.scan texts w)

/-! ## Counting -/

inductive ResultAction where
  | wouldEnrich | wouldComment | deferred | skipped
  deriving DecidableEq, Repr

def Action.result : Action → ResultAction
  | .wouldEnrich => .wouldEnrich
  | .wouldComment => .wouldComment
  | .skipped => .skipped

structure ResultItem where
  repo : String
  action : ResultAction
  skippedExisting : Bool := false

def ScanItem.result (item : ScanItem) : ResultItem := { repo := item.repo, action := item.action.result }

abbrev Summary := CountKey → Nat

/-- What the loops of the cycle have so far. -/
structure Tally where
  ledger : Ledger
  items : List ResultItem := []
  settled : List IssueKey := []
  /-- The repositories whose source snapshot is there. -/
  sources : List String := []
  summary : Summary := fun _ => 0

def Tally.note (t : Tally) (item : ResultItem) (counter : Option CountKey) : Tally :=
  { t with
    items := t.items ++ [item]
    summary := fun key => if counter = some key then t.summary key + 1 else t.summary key }

def Tally.settle (t : Tally) (e : Entry) (item : ResultItem) (counter : Option CountKey) : Tally :=
  { t.note item counter with settled := e.key :: t.settled }

def CycleCall.counter (c : CycleCall) (key : CountKey) : Option CountKey := if c.dryRun then none else some key

def tallyReadFailure (scan : RepoScan) (t : Tally) (item : ScanItem) : Tally :=
  if (scan.reading.readFailure item).isSome then t.note item.result (some .failed) else t

def tallySkipped (c : CycleCall) (t : Tally) (item : ScanItem) : Tally :=
  if item.action = .skipped then t.note item.result (c.counter .skippedRecorded) else t

def CycleCall.collectsModelEvidence (c : CycleCall) : Bool :=
  !c.dryRun && c.config.postIssueComment && !c.analyzeIssue

/-- The evidence of an admitted issue; an error is the tally as the failure leaves the ledger. -/
def tallyEvidence (c : CycleCall) (a : RoundAnswers) (t : Tally) (e : Entry) : Except Tally Tally :=
  if !c.collectsModelEvidence then .ok t
  else if t.sources.contains e.item.repo then
    match a.evidence with
    | .ok _ => .ok t
    | .error _ => .error { t with ledger := t.ledger.release e }
  else
    match a.source with
    | .error _ => .error { t with ledger := t.ledger.blockRepo e.item.repo }
    | .ok _ =>
      let t := { t with sources := e.item.repo :: t.sources }
      match a.evidence with
      | .ok _ => .ok t
      | .error _ => .error { t with ledger := t.ledger.release e }

/-- The analysis and the comment of an admitted issue. -/
def tallyPost (c : CycleCall) (a : RoundAnswers) (t : Tally) (e : Entry) : Tally :=
  let released := { t with ledger := t.ledger.release e }
  match a.analysis with
  | .error _ => released.settle e e.item.result (some .failed)
  | .ok bodyHash =>
    if !c.force && a.existing.any fun f => f.status = .posted && f.bodyHash = some bodyHash then
      released.settle e { e.item.result with skippedExisting := true } (some .alreadyProcessed)
    else
      match a.post with
      | .error _ => released.settle e e.item.result (some .failed)
      | .ok _ => t.settle e e.item.result (some .posted)

/-- One round of the loop over what the ledger hands out. -/
def tallyRound (c : CycleCall) (a : RoundAnswers) (t : Tally) (e : Entry) (reason : Reason) : Tally :=
  match tallyEvidence c a t e with
  | .error t => t.settle e e.item.result (some .failed)
  | .ok t =>
    let updatedAt := e.item.issue.updatedAt
    let analysisInputHash :=
      if a.existing.any fun f => shouldCompareIssueEnrichmentAnalysisInputHash f ||
          shouldBackfillIssueEnrichmentAnalysisInputHash f updatedAt then some a.identityHash
      else none
    if !c.force && a.existing.any fun f =>
        shouldSkipIssueEnrichmentRecord f updatedAt c.checkedAt analysisInputHash e.item.action then
      { t with ledger := t.ledger.release e }.settle e { e.item.result with skippedExisting := true }
        (some .alreadyProcessed)
    else if reason = .sourceProbe then { t with ledger := t.ledger.requeue e }
    else if c.dryRun then t.settle e e.item.result none
    else if !c.config.postIssueComment || e.item.action = .wouldEnrich then
      t.settle e e.item.result (some .dryRunRecorded)
    else tallyPost c a t e

/-- The rounds until the ledger has nothing left; nothing when the answers run out before. -/
def tallyRounds (c : CycleCall) : List RoundAnswers → Tally → Option Tally
  | answers, t =>
    match t.ledger.next, answers with
    | (none, ledger), _ => some { t with ledger }
    | (some _, _), [] => none
    | (some (e, reason), ledger), a :: rest => tallyRounds c rest (tallyRound c a { t with ledger } e reason)

def tallyDecision (c : CycleCall) (t : Tally) (d : Entry × Reason) : Tally :=
  let (e, reason) := d
  if t.settled.contains e.key || reason = .released || reason = .eligible then t
  else if reason = .alreadyRecorded then
    t.note { e.item.result with skippedExisting := true } (some .alreadyProcessed)
  else if reason = .repositoryBlocked then t.note e.item.result (c.counter .failed)
  else if reason = .burstThresholdExceeded then
    t.note { e.item.result with action := .skipped } (c.counter .skippedRecorded)
  else t.note { e.item.result with action := .deferred } (c.counter .deferredRecorded)

/-! ## The result -/

def ResultItem.eligible (i : ResultItem) : Bool := i.action ≠ .skipped && !i.skippedExisting

def ResultItem.skipped (i : ResultItem) : Bool := i.action = .skipped

def ResultItem.wouldEnrich (i : ResultItem) : Bool :=
  (i.action = .wouldEnrich || i.action = .wouldComment) && !i.skippedExisting

def ResultItem.wouldComment (i : ResultItem) : Bool := i.action = .wouldComment && !i.skippedExisting

def ResultItem.deferred (i : ResultItem) : Bool := i.action = .deferred

/-- The counts of a scanned repository after the rounds; those of the scan are written over. -/
def RepoScan.counts (items : List ResultItem) (scan : RepoScan) : RepoCounts :=
  let counts : RepoCounts :=
    { repo := scan.repo, ok := scan.ok, allowed := scan.allowed, truncated := scan.truncated
      issuesSeen := scan.reading.issues.length }
  if !scan.allowed || !scan.ok then counts
  else
    let repoItems := items.filter fun i => i.repo = scan.repo
    { counts with
      eligible := (repoItems.filter ResultItem.eligible).length
      skipped := (repoItems.filter ResultItem.skipped).length
      wouldEnrich := (repoItems.filter ResultItem.wouldEnrich).length
      wouldComment := (repoItems.filter ResultItem.wouldComment).length
      deferred := (repoItems.filter ResultItem.deferred).length }

def sum (repos : List RepoCounts) (count : RepoCounts → Nat) : Nat := (repos.map count).sum

/-- `summarizeScan`, over a summary whose other counters stay. -/
def summarizeScan (repos : List RepoCounts) (summary : Summary) : Summary
  | .reposScanned => (repos.filter fun r => r.allowed && !r.baselined).length
  | .reposSkipped => (repos.filter fun r => !r.allowed).length
  | .readFailures => (repos.filter fun r => !r.ok).length
  | .issuesSeen => sum repos (·.issuesSeen)
  | .eligible => sum repos (·.eligible)
  | .skipped => sum repos (·.skipped)
  | .wouldEnrich => sum repos (·.wouldEnrich)
  | .wouldComment => sum repos (·.wouldComment)
  | .deferred => sum repos (·.deferred)
  | .baselinedRepos => (repos.filter fun r => r.baselined).length
  | .truncatedRepos => (repos.filter fun r => r.truncated).length
  | .workerSkipped => 0
  | key => summary key

def emptyCycleSummary : Summary := fun _ => 0

structure CycleResult where
  ok : Bool
  dryRun : Bool
  status : Status
  summary : Summary

/-- `DRY_RUN_IGNORED_ISSUE_ENRICHMENT_BLOCKERS`. -/
def dryRunIgnoredBlockers : List LaneReason := [.appCredentialsRequired, .livePostingDisabled, .modelRuntimeRequired]

def CycleCall.blockedForRun (texts : Texts) (c : CycleCall) : Bool :=
  (c.status texts).state = .blocked &&
    !(c.dryRun && (c.status texts).blockers.all dryRunIgnoredBlockers.contains)

def RepoScan.tallyReadFailures (texts : Texts) (config : Config) (t : Tally) (scan : RepoScan) : Tally :=
  (scan.items texts config).foldl (tallyReadFailure scan) t

def tallyCycle (texts : Texts) (c : CycleCall) (w : CycleWorld) : Option Tally := do
  let scans := c.scans texts w
  let items := scans.flatMap (RepoScan.readable texts c.config)
  let ledger ← createIssueEnrichmentAdmissionLedger texts c.config (c.reposToScan texts w)
    (if c.force then .empty else w.records) c.checkedAt items
  let failed := scans.foldl (RepoScan.tallyReadFailures texts c.config) { ledger }
  let settled ← tallyRounds c w.rounds (items.foldl (tallySkipped c) failed)
  some (settled.ledger.snapshot.foldl (tallyDecision c) settled)

def scannedResult (texts : Texts) (c : CycleCall) (w : CycleWorld) (t : Tally) : CycleResult :=
  let scans := c.scans texts w
  { ok := scans.all (·.ok) && t.summary .failed = 0
    dryRun := c.dryRun
    status := if scans.isEmpty then c.status texts else c.scanStatus texts
    summary := summarizeScan (c.baselineRepos texts w ++ scans.map (RepoScan.counts t.items)) t.summary }

/-- Nothing when the cycle throws. -/
def runIssueEnrichmentCycle (texts : Texts) (c : CycleCall) (w : CycleWorld) : Option CycleResult :=
  let status := c.status texts
  if !c.enabled then some { ok := true, dryRun := c.dryRun, status, summary := emptyCycleSummary }
  else if c.blockedForRun texts then some { ok := false, dryRun := c.dryRun, status, summary := emptyCycleSummary }
  else if !c.dryRun && !w.leased then
    some
      { ok := status.ok, dryRun := c.dryRun, status
        summary := fun key => if key = .workerSkipped then 1 else emptyCycleSummary key }
  else (tallyCycle texts c w).map (scannedResult texts c w)

/-- The result object as the classifier reads it. -/
def CycleResult.fields (r : CycleResult) : ResultFields where
  summary := fun key => some (r.summary key)
  state := some r.status.state
  blockers := some (r.status.blockers.map some)
  dryRun := some r.dryRun
  ok := some r.ok

end NeonDiff.Enrichment
