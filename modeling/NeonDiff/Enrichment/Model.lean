import NeonDiff.Enrichment.Admission
import NeonDiff.Lib.Paging
import NeonDiff.Lib.Transition

/-! # Enrichment cycles

A cycle reads the open issues of its repositories page by page, settles what it admits one issue at a time, and
then moves the watermarks. Issues may change between any two of these steps. `settled` is the log of what finished
cycles settled and is read by nothing.
-/

open NeonDiff.Lib

namespace NeonDiff.Enrichment

/-! ## Preparing one listed issue -/

/-- What one repository's scan has gathered; issue numbers stand for the keys of the source's maps and sets. -/
structure Reading where
  listed : List Issue := []
  prepared : Table Issue.number := .empty
  settledSkipped : List Issue := []
  terminalEventHistory : List Nat := []
  authorGated : List Nat := []
  eventReadFailures : List (Nat × String) := []
  preservedEventReadFailures : List Nat := []
  postedProbes : Nat := 0

def Reading.prepare (r : Reading) (issue : Issue) : Reading := { r with prepared := r.prepared.upsert issue }

/-- What the caller of a cycle asks for; the daemon leaves all but the first two as they are. -/
structure CycleOptions where
  config : Config
  dryRun : Bool
  /-- The records are not looked at. -/
  force : Bool := false
  repo : Option String := none
  includeExisting : Bool := false
  explicitSince : Option Time := none
  advanceWatermarks : Bool := true
  /-- The caller brings an analyzer of its own. -/
  analyzeIssue : Bool := false
  /-- The issues that an operator names; they are read in place of the listing. -/
  issueNumbers : Option (List Nat) := none

/-- What a cycle fixes at its start. -/
structure CycleInput extends CycleOptions where
  checkedAt : Time
  /-- `reposToScan`. -/
  repos : List String := []
  sinceByRepo : String → Option Time := fun _ => none

def CycleInput.collectsModelEvidence (c : CycleInput) : Bool :=
  !c.dryRun && c.config.postIssueComment && !c.analyzeIssue

/-- The records that the scan and the admission look at. -/
def CycleInput.knownRecords (c : CycleInput) (records : Records) : Records := if c.force then .empty else records

def prepareFromEvents (texts : Texts) (override : RepoOverride) (answers : IssueAnswers) (recordStands : Bool)
    (r : Reading) (issue : Issue) : Reading :=
  match answers.events with
  | .error message =>
    { r.prepare (evaluateIssuePromotion texts override false answers.trustedPromotion issue) with
      eventReadFailures := (issue.number, texts.redactSecrets message) :: r.eventReadFailures
      preservedEventReadFailures :=
        if recordStands then issue.number :: r.preservedEventReadFailures else r.preservedEventReadFailures }
  | .ok events =>
    if events = some (some .eventHistoryUnbounded) then
      { r.prepare issue with terminalEventHistory := issue.number :: r.terminalEventHistory }
    else r.prepare (evaluateIssuePromotion texts override events.isSome answers.trustedPromotion issue)

def qualifyPrepared (texts : Texts) (c : CycleInput) (override : RepoOverride) (postedProbeCap : Nat)
    (answers : IssueAnswers) (existing : Option IssueRecord) (r : Reading) (issue : Issue) : Reading :=
  let preview := getIssueEnrichmentEligibility texts issue
  let sameIdentity := existing.any fun f => f.issueUpdatedAt = some issue.updatedAt
  let activeDeferred := existing.any fun f => f.status = .deferred && future f.nextEligibleAt c.checkedAt
  let promotionNeedsEvents := preview = some .preservationOnlyUpstreamIntake && !override.promotionMaintainers.isEmpty
  -- only unchanged posted rows count toward the cap
  let unchangedPosted := sameIdentity && existing.any fun f => f.status = .posted
  let postedProbes := if unchangedPosted then r.postedProbes + 1 else r.postedProbes
  if sameIdentity && existing.any (fun f => f.status = .skipped) then
    { r.prepare issue with settledSkipped := issue :: r.settledSkipped }
  else if isIssueAuthorGated texts c.config.authorGate issue answers.repository then
    { r.prepare issue with authorGated := issue.number :: r.authorGated }
  else if sameIdentity && activeDeferred then r.prepare issue
  else if preview.isSome && !promotionNeedsEvents then r.prepare issue
  else if unchangedPosted && postedProbeCap < postedProbes then
    { r.prepare issue with postedProbes, settledSkipped := issue :: r.settledSkipped }
  else if !c.collectsModelEvidence && !promotionNeedsEvents then { r.prepare issue with postedProbes }
  else
    prepareFromEvents texts override answers (sameIdentity && existing.any fun f => f.status ≠ .failed)
      { r with postedProbes } issue

/-- `qualifyForMinimum`; the cycle asks for no minimum, so what it returns counts for nothing. -/
def qualifyForMinimum (texts : Texts) (c : CycleInput) (repo : String) (postedProbeCap : Nat) (answers : IssueAnswers)
    (records : Records) (r : Reading) (issue : Issue) : Records × Reading :=
  let r := { r with listed := r.listed ++ [issue] }
  let found := getIssueEnrichmentRecord (c.knownRecords records) repo issue.number
  if found.any fun f => f.status = .skipped && f.reason = some .eventHistoryUnbounded &&
      f.issueUpdatedAt = some issue.updatedAt then
    (records, { r.prepare issue with terminalEventHistory := issue.number :: r.terminalEventHistory })
  else
    -- the gate decision can change, so its skip does not settle the issue
    let cleared := !isIssueAuthorGated texts c.config.authorGate issue answers.repository &&
      found.any fun f => f.status = .skipped && f.reason = some .untrustedAuthorPublicRepo
    (if cleared && !c.dryRun then clearIssueEnrichmentAuthorGateSkip records repo issue.number else records,
      qualifyPrepared texts c ((c.config.override repo).getD {}) postedProbeCap answers
        (if cleared then none else found) r issue)

/-! ## Reading pages -/

def perPage : Nat := 100

def buildIssueScanPageLimit (throttle : ThrottlePolicy) : Nat :=
  let threshold := max throttle.maxIssuesPerCycle throttle.maxIssuesPerBurst + 1
  max 10 (min 10 ((threshold + perPage - 1) / perPage))

def buildIssueScanMinIssueResults (throttle : ThrottlePolicy) : Nat :=
  max throttle.maxIssuesPerCycle throttle.maxIssuesPerBurst + 1

def buildIssueScanSince (checkedAt : Time) (includeExisting : Bool) (throttle : ThrottlePolicy) : Option Time :=
  if includeExisting then none else some (checkedAt - max throttle.lookbackMs throttle.burstWindowMs)

def openIssues (issues : Table Issue.number) (since : Option Time) : List Issue :=
  issues.rows.filter fun i => i.isOpen && since.all fun t => t ≤ i.updatedAt

structure RepoScan where
  repo : String
  ok : Bool := true
  allowed : Bool := true
  truncated : Bool := false
  reading : Reading := {}

/-! ## The items of a scan -/

/-- The issues of a scan as prepared, without those whose record settles them. -/
def Reading.issues (r : Reading) : List Issue :=
  r.listed.filterMap fun i =>
    if (r.settledSkipped.map (·.number)).contains i.number then none else r.prepared.find? i.number

def Reading.recordedSkip (r : Reading) (item : ScanItem) : ScanItem :=
  if r.terminalEventHistory.contains item.issue.number then
    { item with action := .skipped, reason := .eventHistoryUnbounded }
  else if r.authorGated.contains item.issue.number then
    { item with action := .skipped, reason := .untrustedAuthorPublicRepo }
  else item

def Reading.readFailure (r : Reading) (item : ScanItem) : Option String :=
  (r.eventReadFailures.find? fun p => p.1 = item.issue.number).map (·.2)

/-- The items of one repository; a repository that could not be read has none. -/
def RepoScan.items (texts : Texts) (config : Config) (scan : RepoScan) : List ScanItem :=
  (planRepoIssueScan texts config scan.repo scan.reading.issues).map scan.reading.recordedSkip

/-! ## The state -/

/-- An item of the cycle's result: what was recorded for it, or found recorded. -/
structure CycleItem where
  item : ScanItem
  recordStatus : Option RecordStatus
  skippedExisting : Bool := false
  deriving DecidableEq, Repr

structure Settling where
  scans : List RepoScan
  ledger : Ledger
  out : List CycleItem := []
  settled : List IssueKey := []
  /-- The repositories whose source snapshot is there. -/
  sources : List String := []

inductive Phase where
  | scanning (todo : List String) (pagesRead : Nat) (reading : Reading) (scans : List RepoScan)
  | settling (s : Settling)

structure Cycle where
  input : CycleInput
  phase : Phase

structure State where
  now : Time := 0
  issues : String → Table Issue.number := fun _ => .empty
  records : Records := .empty
  watermarks : Watermarks := .empty
  cycle : Option Cycle := none
  /-- Repository, number and version of what finished cycles settled. -/
  settled : List (String × Nat × Nat) := []

/-! ## Starting -/

def CycleOptions.candidateRepos (texts : Texts) (options : CycleOptions) : List String :=
  match options.repo with
  | some repo => canonicalIssueEnrichmentRepositories texts { options.config with allowlist := [repo] }
  | none => canonicalIssueEnrichmentRepositories texts options.config

def CycleOptions.canUseActivationWatermark (options : CycleOptions) : Bool :=
  !options.includeExisting && options.explicitSince.isNone

/-- A repository is scanned from its watermark; without one it is baselined, unless its open issues count. -/
def scansRepo (texts : Texts) (options : CycleOptions) (watermarks : Watermarks) (repo : String) : Bool :=
  let policy := resolveIssueEnrichmentRepoPolicy texts options.config repo
  !policy.allowed || !options.canUseActivationWatermark ||
    (getIssueEnrichmentRepoWatermark watermarks repo).isSome || policy.throttle.processExistingOpenIssuesOnActivation

def baselineRepos (texts : Texts) (options : CycleOptions) (watermarks : Watermarks) : List String :=
  (options.candidateRepos texts).filter fun repo => !scansRepo texts options watermarks repo

def startCycle (texts : Texts) (options : CycleOptions) (s : State) : State :=
  let repos := (options.candidateRepos texts).filter (scansRepo texts options s.watermarks)
  { s with
    watermarks :=
      if !options.dryRun && options.advanceWatermarks then
        (baselineRepos texts options s.watermarks).foldl
          (fun w repo => recordIssueEnrichmentRepoWatermark w ⟨repo, s.now, s.now⟩) s.watermarks
      else s.watermarks
    cycle := some
      { input :=
          { options with
            checkedAt := s.now
            repos
            sinceByRepo := fun repo =>
              if options.canUseActivationWatermark then
                (getIssueEnrichmentRepoWatermark s.watermarks repo).map (·.lastCheckedAt)
              else none }
        phase := .scanning repos 0 {} [] } }

/-- One cycle runs at a time. -/
def beginCycle (texts : Texts) (options : CycleOptions) (s : State) : Option State :=
  if s.cycle.isNone then some (startCycle texts options s) else none

def CycleInput.throttle (texts : Texts) (c : CycleInput) (repo : String) : ThrottlePolicy :=
  (resolveIssueEnrichmentRepoPolicy texts c.config repo).throttle

def CycleInput.since (texts : Texts) (c : CycleInput) (repo : String) : Option Time :=
  match c.explicitSince.or (c.sinceByRepo repo) with
  | some t => some t
  | none =>
    buildIssueScanSince c.checkedAt
      (c.includeExisting || (c.throttle texts repo).processExistingOpenIssuesOnActivation) (c.throttle texts repo)

/-! ## Scanning -/

/-- The next page of the repository's open issues; named issues come all at once. -/
def CycleInput.chunk (texts : Texts) (c : CycleInput) (repo : String) (pagesRead : Nat) (s : State) : List Issue :=
  match c.issueNumbers with
  | some numbers => if pagesRead = 0 then numbers.filterMap (s.issues repo).find? else []
  | none => Paging.page Issue.updatedAt (pagesRead * perPage) perPage (openIssues (s.issues repo) (c.since texts repo))

def qualifyPage (texts : Texts) (c : CycleInput) (repo : String) (answers : Issue → IssueAnswers) (records : Records)
    (r : Reading) (chunk : List Issue) : Records × Reading :=
  (chunk.filter fun i => !i.pullRequest).foldl (fun p i =>
    qualifyForMinimum texts c repo (buildIssueScanMinIssueResults (c.throttle texts repo)) (answers i) p.1 p.2 i)
    (records, r)

def readPage (texts : Texts) (answers : Issue → IssueAnswers) (s : State) : Option State := do
  let c ← s.cycle
  match c.phase with
  | .settling _ | .scanning [] _ _ _ => none
  | .scanning (repo :: todo) pagesRead reading scans =>
    if !(resolveIssueEnrichmentRepoPolicy texts c.input.config repo).allowed then
      some { s with cycle := some { c with phase := .scanning todo 0 {} (scans ++ [{ repo, allowed := false }]) } }
    else
      let chunk := c.input.chunk texts repo pagesRead s
      let (records, reading) := qualifyPage texts c.input repo answers s.records reading chunk
      if chunk.length < perPage then
        some { s with
          records
          cycle := some { c with phase := .scanning todo 0 {} (scans ++ [{ repo, reading }]) } }
      else if buildIssueScanPageLimit (c.input.throttle texts repo) ≤ pagesRead + 1 then
        some { s with
          records
          cycle := some { c with phase := .scanning todo 0 {} (scans ++ [{ repo, truncated := true, reading }]) } }
      else
        some { s with
          records
          cycle := some { c with phase := .scanning (repo :: todo) (pagesRead + 1) reading scans } }

/-- The listing throws: the repository's scan is not ok and has no items. -/
def readFails (texts : Texts) (s : State) : Option State := do
  let c ← s.cycle
  match c.phase with
  | .settling _ | .scanning [] _ _ _ => none
  | .scanning (repo :: todo) _ _ scans =>
    if (resolveIssueEnrichmentRepoPolicy texts c.input.config repo).allowed then
      some { s with cycle := some { c with phase := .scanning todo 0 {} (scans ++ [{ repo, ok := false }]) } }
    else none

/-! ## Settling -/

def record (texts : Texts) (c : CycleInput) (records : Records) (input : IssueRecord) : Records :=
  if c.dryRun then records else recordIssueEnrichment texts records input

def ScanItem.record (item : ScanItem) (status : RecordStatus) (reason : Reason) : IssueRecord :=
  { repo := item.repo, issueNumber := item.issue.number, issueUpdatedAt := some item.issue.updatedAt, status
    reason := some reason }

def CycleInput.status (c : CycleInput) (status : RecordStatus) : Option RecordStatus :=
  if c.dryRun then none else some status

/-- An issue whose events could not be read fails; a record that still stands is kept. -/
def settleReadFailure (texts : Texts) (c : CycleInput) (scan : RepoScan) (p : Records × List CycleItem)
    (item : ScanItem) : Records × List CycleItem :=
  match scan.reading.readFailure item with
  | none => p
  | some error =>
    (if scan.reading.preservedEventReadFailures.contains item.issue.number then p.1
      else record texts c p.1 { item.record .failed .sourceOrEvidenceFailed with error := some error },
      p.2 ++ [{ item, recordStatus := c.status .failed }])

def settleSkipped (texts : Texts) (c : CycleInput) (p : Records × List CycleItem) (item : ScanItem) :
    Records × List CycleItem :=
  if item.action = .skipped then
    (record texts c p.1 (item.record .skipped item.reason), p.2 ++ [{ item, recordStatus := c.status .skipped }])
  else p

def RepoScan.readable (texts : Texts) (config : Config) (scan : RepoScan) : List ScanItem :=
  (scan.items texts config).filter fun item => (scan.reading.readFailure item).isNone

def planSettling (texts : Texts) (s : State) : Option State := do
  let c ← s.cycle
  match c.phase with
  | .settling _ | .scanning (_ :: _) _ _ _ => none
  | .scanning [] _ _ scans =>
    let items := scans.flatMap (RepoScan.readable texts c.input.config)
    match createIssueEnrichmentAdmissionLedger texts c.input.config c.input.repos (c.input.knownRecords s.records)
        c.input.checkedAt items with
    | none => some { s with cycle := none }
    | some ledger =>
      let failed := scans.foldl
        (fun p scan => (scan.items texts c.input.config).foldl (settleReadFailure texts c.input scan) p) (s.records, [])
      let (records, out) := items.foldl (settleSkipped texts c.input) failed
      some { s with records, cycle := some { c with phase := .settling { scans, ledger, out } } }

/-- What one admitted issue meets outside: its source, its evidence, the analysis and the comment. -/
structure Answers where
  source : Except String Unit := .ok ()
  evidence : Except String Unit := .ok ()
  identityHash : String := ""
  /-- The body hash of the rendered comment, or what failed on the way to it. -/
  analysis : Except String String := .ok ""
  post : Except String (Option String) := .ok none

def shouldSkipIssueEnrichmentRecord (existing : IssueRecord) (issueUpdatedAt checkedAt : Time)
    (analysisInputHash : Option String) (action : Action) : Bool :=
  let unchanged :=
    if existing.status = .dryRun && action = .wouldComment then false
    else existing.issueUpdatedAt = some issueUpdatedAt
  if existing.status = .failed then false
  else if existing.status = .deferred && existing.nextEligibleAt.any (fun t => t ≤ checkedAt) then false
  else
    match existing.analysisInputHash, analysisInputHash with
    | some kept, some hash => if existing.status = .posted then kept = hash else unchanged
    | _, _ => unchanged

def shouldCompareIssueEnrichmentAnalysisInputHash (existing : IssueRecord) : Bool :=
  existing.status = .posted && existing.analysisInputHash.isSome

def shouldBackfillIssueEnrichmentAnalysisInputHash (existing : IssueRecord) (issueUpdatedAt : Time) : Bool :=
  existing.status = .posted && existing.analysisInputHash.isNone && existing.issueUpdatedAt = some issueUpdatedAt

def Settling.settle (s : Settling) (e : Entry) (o : CycleItem) : Settling :=
  { s with out := s.out ++ [o], settled := e.key :: s.settled }

/-- The evidence of an admitted issue: `error` is the failure with the ledger as the failure leaves it. -/
def collectEvidence (c : CycleInput) (answers : Answers) (s : Settling) (e : Entry) :
    Except (String × Settling) Settling :=
  if !c.collectsModelEvidence then .ok s
  else if s.sources.contains e.item.repo then
    match answers.evidence with
    | .ok _ => .ok s
    | .error message => .error (message, { s with ledger := s.ledger.release e })
  else
    match answers.source with
    | .error message => .error (message, { s with ledger := s.ledger.blockRepo e.item.repo })
    | .ok _ =>
      let s := { s with sources := e.item.repo :: s.sources }
      match answers.evidence with
      | .ok _ => .ok s
      | .error message => .error (message, { s with ledger := s.ledger.release e })

def analyzeAndPost (texts : Texts) (c : CycleInput) (answers : Answers) (existing : Option IssueRecord)
    (analysisInputHash : Option String) (records : Records) (s : Settling) (e : Entry) : Records × Settling :=
  let failed := fun message =>
    (recordIssueEnrichment texts records
        { e.item.record .failed .analysisOrPostFailed with
          analysisInputHash, error := some (texts.redactSecrets message) },
      { s with ledger := s.ledger.release e }.settle e { item := e.item, recordStatus := some .failed })
  let posted := fun bodyHash =>
    { repo := e.item.repo, issueNumber := e.item.issue.number, issueUpdatedAt := some e.item.issue.updatedAt
      bodyHash := some bodyHash, analysisInputHash := some answers.identityHash
      status := RecordStatus.posted : IssueRecord }
  match answers.analysis with
  | .error message => failed message
  | .ok bodyHash =>
    match existing.filter fun f => !c.force && (f.status = .posted && f.bodyHash = some bodyHash) with
    | some f =>
      (recordIssueEnrichment texts records { posted bodyHash with reason := f.reason, commentUrl := f.commentUrl },
        { s with ledger := s.ledger.release e }.settle e
          { item := e.item, recordStatus := some .posted, skippedExisting := true })
    | none =>
      match answers.post with
      | .error message => failed message
      | .ok commentUrl =>
        (recordIssueEnrichment texts records
            { posted bodyHash with commentUrl := commentUrl.map texts.redactSecrets },
          s.settle e { item := e.item, recordStatus := some .posted })

/-- One round of the loop over what the ledger hands out. -/
def settleAdmitted (texts : Texts) (c : CycleInput) (answers : Answers) (records : Records) (s : Settling) (e : Entry)
    (reason : Reason) : Records × Settling :=
  let existing := getIssueEnrichmentRecord records e.item.repo e.item.issue.number
  match collectEvidence c answers s e with
  | .error (message, s) =>
    (recordIssueEnrichment texts records
        { e.item.record .failed .sourceOrEvidenceFailed with error := some (texts.redactSecrets message) },
      s.settle e { item := e.item, recordStatus := some .failed })
  | .ok s =>
    let updatedAt := e.item.issue.updatedAt
    let analysisInputHash :=
      if existing.any fun f => shouldCompareIssueEnrichmentAnalysisInputHash f ||
          shouldBackfillIssueEnrichmentAnalysisInputHash f updatedAt then some answers.identityHash
      else none
    match existing.filter fun f =>
      !c.force && shouldSkipIssueEnrichmentRecord f updatedAt c.checkedAt analysisInputHash e.item.action with
    | some f =>
      let refreshed := f.analysisInputHash.or analysisInputHash
      let records :=
        if f.issueUpdatedAt ≠ some updatedAt || refreshed ≠ f.analysisInputHash then
          record texts c records { f with issueUpdatedAt := some updatedAt, analysisInputHash := refreshed }
        else records
      (records, { s with ledger := s.ledger.release e }.settle e
        { item := e.item, recordStatus := some f.status, skippedExisting := true })
    | none =>
      if reason = .sourceProbe then (records, { s with ledger := s.ledger.requeue e })
      else if c.dryRun then (records, s.settle e { item := e.item, recordStatus := none })
      else if !c.config.postIssueComment then
        (recordIssueEnrichment texts records
            { e.item.record .dryRun .dryRunOnly with analysisInputHash := some answers.identityHash },
          s.settle e { item := e.item, recordStatus := some .dryRun })
      else analyzeAndPost texts c answers existing analysisInputHash records s e

/-! ## Finishing -/

def nextEligibleAt (checkedAt : Time) (throttle : ThrottlePolicy) : Time := checkedAt + throttle.cooldownMs

def globalNextEligibleAt (checkedAt : Time) (config : Config) (throttle : ThrottlePolicy) : Time :=
  nextEligibleAt checkedAt { throttle with cooldownMs := max config.throttle.cooldownMs throttle.cooldownMs }

def settleDecision (texts : Texts) (c : CycleInput) (settled : List IssueKey) (p : Records × List CycleItem)
    (d : Entry × Reason) : Records × List CycleItem :=
  let (e, reason) := d
  let existing := getIssueEnrichmentRecord p.1 e.item.repo e.item.issue.number
  let throttle := (resolveIssueEnrichmentRepoPolicy texts c.config e.item.repo).throttle
  if settled.contains e.key || reason = .released || reason = .eligible then p
  else if reason = .alreadyRecorded then
    (p.1, p.2 ++ [{ item := e.item, recordStatus := existing.map (·.status), skippedExisting := true }])
  else if reason = .repositoryBlocked then
    (record texts c p.1
        { e.item.record .failed .sourceOrEvidenceFailed with error := some "issue_enrichment_repository_unavailable" },
      p.2 ++ [{ item := e.item, recordStatus := c.status .failed }])
  else if reason = .burstThresholdExceeded then
    (record texts c p.1 (e.item.record .skipped .burstThresholdExceeded),
      p.2 ++ [{ item := e.item, recordStatus := c.status .skipped }])
  else
    let retainedReason :=
      if reason = .held then (existing.bind (·.reason)).getD .persistedDeferActive else reason
    let deferredUntil :=
      if reason = .held then
        ((e.record.bind (·.nextEligibleAt)).getD (nextEligibleAt c.checkedAt throttle))
      else if reason = .globalMaxIssuesPerCycle || reason = .globalMaxCommentsPerCycle then
        globalNextEligibleAt c.checkedAt c.config throttle
      else nextEligibleAt c.checkedAt throttle
    (record texts c p.1 { e.item.record .deferred retainedReason with nextEligibleAt := some deferredUntil },
      p.2 ++ [{ item := e.item, recordStatus := c.status .deferred }])

/-- Whether a scan lets the watermark of its repository move, given the items of the cycle. -/
def RepoScan.advances (scan : RepoScan) (items : List CycleItem) : Bool :=
  scan.allowed && scan.ok && !scan.truncated &&
    !items.any fun o => o.item.repo = scan.repo && (o.recordStatus = some .deferred || o.recordStatus = some .failed)

def advanceWatermarks (c : CycleInput) (scans : List RepoScan) (items : List CycleItem) (watermarks : Watermarks) :
    Watermarks :=
  if !c.dryRun && c.advanceWatermarks then
    (scans.filter fun scan => scan.advances items).foldl
      (fun w scan => recordIssueEnrichmentRepoWatermark w ⟨scan.repo, c.checkedAt, c.checkedAt⟩) watermarks
  else watermarks

/-- The statuses that settle an issue. -/
def RecordStatus.settles : RecordStatus → Bool
  | .posted | .dryRun | .skipped => true
  | .deferred | .failed => false

def CycleItem.settledVersion (o : CycleItem) : Option (String × Nat × Nat) :=
  if o.recordStatus.any RecordStatus.settles then some (o.item.repo, o.item.issue.number, o.item.issue.version)
  else none

/-- What a finished cycle settled: by its items, or by finding the record in the scan. -/
def settledVersions (scans : List RepoScan) (items : List CycleItem) : List (String × Nat × Nat) :=
  items.filterMap CycleItem.settledVersion ++
    scans.flatMap fun scan => scan.reading.settledSkipped.map fun i => (scan.repo, i.number, i.version)

def finishCycle (texts : Texts) (c : Cycle) (st : Settling) (s : State) : State :=
  let (records, items) := st.ledger.snapshot.foldl (settleDecision texts c.input st.settled) (s.records, st.out)
  { s with
    records
    watermarks := advanceWatermarks c.input st.scans items s.watermarks
    cycle := none
    settled := s.settled ++ settledVersions st.scans items }

def settleNext (texts : Texts) (answers : Answers) (s : State) : Option State := do
  let c ← s.cycle
  match c.phase with
  | .scanning .. => none
  | .settling st =>
    match st.ledger.next with
    | (some (e, reason), ledger) =>
      let (records, st) := settleAdmitted texts c.input answers s.records { st with ledger } e reason
      some { s with records, cycle := some { c with phase := .settling st } }
    | (none, ledger) => some (finishCycle texts c { st with ledger } s)

/-! ## Runs -/

inductive Label where
  /-- Time passes. -/
  | tick (now : Time)
  /-- An issue is opened, updated, closed or reopened: it becomes as given, at a new version. -/
  | change (repo : String) (issue : Issue)
  | start (config : Config) (dryRun : Bool)
  | readPage (answers : Issue → IssueAnswers)
  | readFails
  | planSettling
  | settleNext (answers : Answers)
  /-- The cycle throws or its process ends. -/
  | abort

def changed (s : State) (repo : String) (issue : Issue) : Issue :=
  { issue with
    touchedAt := s.now
    version := (((s.issues repo).find? issue.number).map (·.version)).getD 0 + 1 }

def step (texts : Texts) (s : State) : Label → Option State
  | .tick now => if s.now ≤ now then some { s with now } else none
  | .change repo issue =>
    some { s with issues := fun r => if r = repo then (s.issues r).upsert (changed s repo issue) else s.issues r }
  | .start config dryRun => beginCycle texts { config, dryRun } s
  | .readPage answers => readPage texts answers s
  | .readFails => readFails texts s
  | .planSettling => planSettling texts s
  | .settleNext answers => settleNext texts answers s
  | .abort => if s.cycle.isSome then some { s with cycle := none } else none

end NeonDiff.Enrichment
