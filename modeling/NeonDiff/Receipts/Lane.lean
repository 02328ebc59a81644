import NeonDiff.Lib.IsoDate
import NeonDiff.Lib.Json

/-! # The receipts of the issue-enrichment lane

A receipt text in the row is kept as the value that `JSON.parse` reads from it.
-/

open NeonDiff.Lib NeonDiff.Lib.IsoDate

namespace NeonDiff.Receipts

/-! ## Receipts -/

inductive CountKey where
  | reposScanned | reposSkipped | readFailures | issuesSeen | eligible | skipped | wouldEnrich
  | wouldComment | deferred | baselinedRepos | truncatedRepos | workerSkipped | posted | dryRunRecorded
  | skippedRecorded | deferredRecorded | alreadyProcessed | failed
  deriving DecidableEq, Repr

/-- `ISSUE_ENRICHMENT_RECEIPT_COUNT_KEYS`. -/
def countKeys : List CountKey :=
  [.reposScanned, .reposSkipped, .readFailures, .issuesSeen, .eligible, .skipped, .wouldEnrich,
    .wouldComment, .deferred, .baselinedRepos, .truncatedRepos, .workerSkipped, .posted, .dryRunRecorded,
    .skippedRecorded, .deferredRecorded, .alreadyProcessed, .failed]

def CountKey.name : CountKey → String
  | .reposScanned => "reposScanned"
  | .reposSkipped => "reposSkipped"
  | .readFailures => "readFailures"
  | .issuesSeen => "issuesSeen"
  | .eligible => "eligible"
  | .skipped => "skipped"
  | .wouldEnrich => "wouldEnrich"
  | .wouldComment => "wouldComment"
  | .deferred => "deferred"
  | .baselinedRepos => "baselinedRepos"
  | .truncatedRepos => "truncatedRepos"
  | .workerSkipped => "workerSkipped"
  | .posted => "posted"
  | .dryRunRecorded => "dryRunRecorded"
  | .skippedRecorded => "skippedRecorded"
  | .deferredRecorded => "deferredRecorded"
  | .alreadyProcessed => "alreadyProcessed"
  | .failed => "failed"

/-- `ISSUE_ENRICHMENT_RECEIPT_COUNT_CAP`. -/
def countCap : Int := 1000000

abbrev Counts := CountKey → Int

/-- `ISSUE_ENRICHMENT_LANE_CODES`. -/
inductive LaneCode where
  | completed | noCandidates | leaseSkipped | disabled | blocked | resultNotOk | cycleFailed | malformedSummary
  deriving DecidableEq, Repr

namespace LaneCode

def all : List LaneCode :=
  [.completed, .noCandidates, .leaseSkipped, .disabled, .blocked, .resultNotOk, .cycleFailed, .malformedSummary]

def name : LaneCode → String
  | .completed => "completed"
  | .noCandidates => "no_candidates"
  | .leaseSkipped => "lease_skipped"
  | .disabled => "disabled"
  | .blocked => "blocked"
  | .resultNotOk => "result_not_ok"
  | .cycleFailed => "cycle_failed"
  | .malformedSummary => "malformed_summary"

/-- `ISSUE_ENRICHMENT_LANE_SUCCESS_CODES`; the other codes are the failure codes. -/
def success : LaneCode → Bool
  | .completed | .noCandidates | .leaseSkipped | .disabled => true
  | _ => false

def ofName (s : String) : Option LaneCode := all.find? fun c => c.name = s

end LaneCode

/-- `ISSUE_ENRICHMENT_LANE_REASONS`. -/
inductive LaneReason where
  | issueEnrichmentDisabled | allowlistEmpty | livePostingDisabled | appCredentialsRequired
  | appIssuesPermissionRequired | liveRepoThresholdsRequired | modelRuntimeRequired
  | workerLeaseHeld | readFailure | itemFailure | unknownFailure | malformedSummary
  deriving DecidableEq, Repr

namespace LaneReason

def all : List LaneReason :=
  [.issueEnrichmentDisabled, .allowlistEmpty, .livePostingDisabled, .appCredentialsRequired,
    .appIssuesPermissionRequired, .liveRepoThresholdsRequired, .modelRuntimeRequired, .workerLeaseHeld, .readFailure,
    .itemFailure, .unknownFailure, .malformedSummary]

def name : LaneReason → String
  | .issueEnrichmentDisabled => "issue_enrichment_disabled"
  | .allowlistEmpty => "issue_enrichment_allowlist_empty"
  | .livePostingDisabled => "issue_enrichment_live_posting_disabled"
  | .appCredentialsRequired => "github_app_credentials_required_for_live_issue_comments"
  | .appIssuesPermissionRequired => "github_app_issues_permission_required"
  | .liveRepoThresholdsRequired => "issue_enrichment_live_repo_thresholds_required"
  | .modelRuntimeRequired => "issue_enrichment_model_runtime_required"
  | .workerLeaseHeld => "worker_lease_held"
  | .readFailure => "read_failure"
  | .itemFailure => "item_failure"
  | .unknownFailure => "unknown_failure"
  | .malformedSummary => "malformed_summary"

def ofName (s : String) : Option LaneReason := all.find? fun r => r.name = s

end LaneReason

/-! ## `validateIssueEnrichmentLaneReceipt` -/

def cycleFailureReasons : List LaneReason :=
  [.issueEnrichmentDisabled, .allowlistEmpty, .livePostingDisabled, .appCredentialsRequired,
    .appIssuesPermissionRequired, .liveRepoThresholdsRequired, .modelRuntimeRequired, .unknownFailure]

def blockedReasons : List LaneReason :=
  [.allowlistEmpty, .appCredentialsRequired, .appIssuesPermissionRequired, .liveRepoThresholdsRequired,
    .modelRuntimeRequired]

def resultFailureReasons : List LaneReason := [.readFailure, .itemFailure, .unknownFailure]

/-- `set.has(reason ?? "")`. -/
def hasReason (set : List LaneReason) (reason : Option LaneReason) : Bool := reason.any set.contains

def someCount (counts : Counts) : Bool := countKeys.any fun key => counts key ≠ 0

def roleInvalid (code : LaneCode) (counts : Counts) (reason : Option LaneReason) : Bool :=
  (code == .leaseSkipped && (reason != some .workerLeaseHeld ||
    countKeys.any fun key => counts key ≠ if key = .workerSkipped then 1 else 0)) ||
  (code == .malformedSummary && (reason != some .malformedSummary || someCount counts)) ||
  (code == .cycleFailed && (!hasReason cycleFailureReasons reason || someCount counts)) ||
  (code == .disabled && someCount counts) ||
  (code == .blocked && (!hasReason blockedReasons reason || someCount counts)) ||
  (code == .resultNotOk &&
    ((reason == some .readFailure && counts .readFailures = 0) ||
      (reason == some .itemFailure && (counts .failed = 0 || counts .readFailures > 0)) ||
      !hasReason resultFailureReasons reason))

/-- The counts of which a completed cycle has one. -/
def workKeys : List CountKey :=
  [.eligible, .wouldEnrich, .wouldComment, .posted, .dryRunRecorded, .skippedRecorded, .deferredRecorded,
    .alreadyProcessed]

def countsWholeCycle (code : LaneCode) (reason : Option LaneReason) : Bool :=
  code == .completed || code == .noCandidates ||
    (code == .resultNotOk && hasReason [.readFailure, .itemFailure] reason)

def countRoleInvalid (code : LaneCode) (counts : Counts) (reason : Option LaneReason) : Bool :=
  (code == .completed && !workKeys.any fun key => counts key > 0) ||
  (code == .noCandidates && workKeys.any fun key => counts key > 0) ||
  ((code == .completed || code == .noCandidates) && (counts .readFailures > 0 || counts .failed > 0)) ||
  (countsWholeCycle code reason && counts .workerSkipped > 0) ||
  (countsWholeCycle code reason && counts .posted > 0 && counts .dryRunRecorded > 0) ||
  (countsWholeCycle code reason &&
    (counts .readFailures > counts .reposScanned || counts .truncatedRepos > counts .reposScanned ||
      counts .wouldEnrich > counts .eligible || counts .wouldComment > counts .wouldEnrich ||
      counts .deferred > counts .eligible || counts .posted > counts .wouldComment ||
      counts .dryRunRecorded > counts .wouldEnrich || counts .skippedRecorded > counts .skipped ||
      counts .deferredRecorded > counts .deferred || counts .alreadyProcessed > counts .issuesSeen ||
      counts .failed > counts .issuesSeen || counts .skipped + counts .eligible > counts .issuesSeen))

def validateIssueEnrichmentLaneReceipt (ok : Bool) (code : LaneCode) (counts : Counts)
    (reason : Option LaneReason) : Bool :=
  ok == code.success && !roleInvalid code counts reason && !countRoleInvalid code counts reason &&
    !(ok && code != .leaseSkipped && reason.isSome)

structure LaneReceipt where
  ok : Bool
  code : LaneCode
  counts : Counts
  reason : Option LaneReason
  counted : ∀ key, 0 ≤ counts key ∧ counts key ≤ countCap
  valid : validateIssueEnrichmentLaneReceipt ok code counts reason = true

/-! ## Reading and writing a receipt -/

def LaneReceipt.toJson (r : LaneReceipt) : Json :=
  .obj ([("ok", .bool r.ok), ("stage", .str "issue_enrichment"), ("code", .str r.code.name),
    ("counts", .obj (countKeys.map fun key => (key.name, .int (r.counts key))))] ++
    (r.reason.map fun reason => ("reason", Json.str reason.name)).toList)

/-- `JSON.stringify(receipt)`. -/
def LaneReceipt.text (r : LaneReceipt) : String := String.ofList r.toJson.stringify

def laneRootKeys : List String := ["ok", "stage", "code", "counts", "reason"]

/-- A count of the object, within its bounds. -/
def readCount (fields : List (String × Json)) (key : CountKey) : Option Int :=
  match Json.field fields key.name with
  | some (.int n) => if Json.isSafeInteger n ∧ 0 ≤ n ∧ n ≤ countCap then some n else none
  | _ => none

/-- The own field `reason`, when there is one. -/
def readReason (fields : List (String × Json)) : Option (Option LaneReason) :=
  match Json.field fields "reason" with
  | none => some none
  | some (.str s) => (LaneReason.ofName s).map some
  | some _ => none

def laneReceipt (ok : Bool) (code : LaneCode) (counts : Counts) (reason : Option LaneReason) : Option LaneReceipt :=
  if h : (∀ key ∈ countKeys, 0 ≤ counts key ∧ counts key ≤ countCap) ∧
      validateIssueEnrichmentLaneReceipt ok code counts reason = true then
    some ⟨ok, code, counts, reason, fun key => h.1 key (by cases key <;> decide), h.2⟩
  else none

def snapshotIssueEnrichmentLaneReceipt : Json → Option LaneReceipt
  | .obj fields =>
    match Json.field fields "ok", Json.field fields "stage", Json.field fields "code", Json.field fields "counts" with
    | some (.bool ok), some (.str stage), some (.str codeName), some (.obj counts) =>
      if (fields.all fun f => laneRootKeys.contains f.1) ∧ stage = "issue_enrichment" ∧
          counts.length = countKeys.length ∧ ∀ key ∈ countKeys, (readCount counts key).isSome then
        (LaneCode.ofName codeName).bind fun code => (readReason fields).bind fun reason =>
          laneReceipt ok code (fun key => (readCount counts key).getD 0) reason
      else none
    | _, _, _, _ => none
  | _ => none

/-! ## Slots -/

/-- A canonical ISO timestamp. -/
structure Timestamp where
  ms : Int
  valid : isTime ms = true

theorem Timestamp.eq_of_ms {s t : Timestamp} (h : s.ms = t.ms) : s = t := by
  cases s
  cases t
  subst h
  rfl

theorem Timestamp.eq_iff {s t : Timestamp} : s.ms = t.ms ↔ s = t := ⟨Timestamp.eq_of_ms, congrArg Timestamp.ms⟩

instance : DecidableEq Timestamp := fun _ _ => decidable_of_iff _ Timestamp.eq_iff

def Timestamp.text (t : Timestamp) : String := toISOString t.ms

/-- `isCanonicalIsoTimestamp`, with the time the text stands for. -/
def Timestamp.read (s : String) : Option Timestamp :=
  if h : isTime (readTime s.toList) = true ∧ toISOString (readTime s.toList) = s then some ⟨_, h.1⟩ else none

def isLowerHex (c : Char) : Bool := c.isDigit || ('a' ≤ c && c ≤ 'f')

def dash (c : Char) : Bool := c = '-'

/-- The classes of the characters of `ISSUE_ENRICHMENT_LANE_UUID_V4`. -/
def uuidV4Classes : List (Char → Bool) :=
  List.replicate 8 isLowerHex ++ dash :: List.replicate 4 isLowerHex ++ dash :: (fun c => c = '4') ::
    List.replicate 3 isLowerHex ++ dash :: (fun c => "89ab".toList.contains c) ::
    List.replicate 3 isLowerHex ++ dash :: List.replicate 12 isLowerHex

def isUuidV4 (s : String) : Bool :=
  s.toList.length = uuidV4Classes.length && (List.zipWith (fun p c => p c) uuidV4Classes s.toList).all id

/-- `ISSUE_ENRICHMENT_LANE_MAX_CYCLE`. -/
def laneMaxCycle : Int := 1000000

/-- `IssueEnrichmentLaneReceiptSlot`, and what `admitIssueEnrichmentLaneReceiptInput` returns. -/
structure LaneSlot where
  receipt : LaneReceipt
  runId : String
  runStartedAt : Timestamp
  cycle : Int
  recordedAt : Timestamp
  bound : isUuidV4 runId = true ∧ (1 ≤ cycle ∧ cycle ≤ laneMaxCycle) ∧ runStartedAt.ms ≤ recordedAt.ms

/-- The slot of these values, when the binding is valid. -/
def laneSlot (receipt : LaneReceipt) (runId : String) (runStartedAt : Timestamp) (cycle : Int)
    (recordedAt : Timestamp) : Option LaneSlot :=
  if h : isUuidV4 runId = true ∧ (1 ≤ cycle ∧ cycle ≤ laneMaxCycle) ∧ runStartedAt.ms ≤ recordedAt.ms then
    some ⟨receipt, runId, runStartedAt, cycle, recordedAt, h⟩
  else none

/-- A `Date | string`; an invalid date has no time. -/
inductive Stamp where
  | text (s : String)
  | date (time : Option Int)

def canonicalIssueEnrichmentLaneTimestamp : Stamp → Option Timestamp
  | .text s => Timestamp.read s
  | .date (some t) => if h : isTime t = true then some ⟨t, h⟩ else none
  | .date none => none

/-- `RecordIssueEnrichmentLaneReceiptInput`. -/
structure Input where
  receipt : Json
  runId : Json
  runStartedAt : Stamp
  cycle : Json
  recordedAt : Option Stamp

def admitIssueEnrichmentLaneReceiptInput (now : Timestamp) (input : Input) : Option LaneSlot :=
  match snapshotIssueEnrichmentLaneReceipt input.receipt,
      canonicalIssueEnrichmentLaneTimestamp input.runStartedAt,
      canonicalIssueEnrichmentLaneTimestamp (input.recordedAt.getD (.date (some now.ms))), input.runId, input.cycle with
  | some receipt, some runStartedAt, some recordedAt, .str runId, .int cycle =>
    laneSlot receipt runId runStartedAt cycle recordedAt
  | _, _, _, _, _ => none

/-! ## The row -/

structure SlotColumns where
  receiptJson : Option Json := none
  runId : Option String := none
  runStartedAt : Option String := none
  cycle : Option Int := none
  recordedAt : Option String := none

structure Row where
  latest : SlotColumns := {}
  recentFailure : SlotColumns := {}

/-- `IssueEnrichmentLaneReceiptStateSlot`. -/
inductive StateSlot where
  | unavailable
  | held (slot : LaneSlot)

def LaneSlot.columns (a : LaneSlot) : SlotColumns where
  receiptJson := some a.receipt.toJson
  runId := some a.runId
  runStartedAt := some a.runStartedAt.text
  cycle := some a.cycle
  recordedAt := some a.recordedAt.text

def SlotColumns.isNull (c : SlotColumns) : Bool :=
  c.receiptJson.isNone && c.runId.isNone && c.runStartedAt.isNone && c.cycle.isNone && c.recordedAt.isNone

/-- The slot of the columns; nothing when one of them is invalid, or a success stands among the failures. -/
def SlotColumns.read (recentFailure : Bool) (c : SlotColumns) : Option LaneSlot := do
  let json ← c.receiptJson
  let runId ← c.runId
  let runStartedAt ← c.runStartedAt.bind Timestamp.read
  let cycle ← c.cycle
  let recordedAt ← c.recordedAt.bind Timestamp.read
  let receipt ← snapshotIssueEnrichmentLaneReceipt json
  if recentFailure && receipt.ok then none else laneSlot receipt runId runStartedAt cycle recordedAt

/-- `decodeIssueEnrichmentLaneReceiptSlot`; `recentFailure` says which slot is read. -/
def decodeSlot (recentFailure : Bool) (c : SlotColumns) : Option StateSlot :=
  if c.isNull then none else some ((c.read recentFailure).elim .unavailable .held)

def isNewerIssueEnrichmentTuple (input prior : LaneSlot) : Bool :=
  if input.runStartedAt.ms ≠ prior.runStartedAt.ms then decide (input.runStartedAt.ms > prior.runStartedAt.ms)
  else input.runId = prior.runId &&
    (if input.cycle ≠ prior.cycle then decide (input.cycle > prior.cycle)
    else input.recordedAt.ms > prior.recordedAt.ms ||
      (input.recordedAt.ms = prior.recordedAt.ms && input.receipt.text = prior.receipt.text))

def ambiguous (admitted : LaneSlot) : Option StateSlot → Bool
  | some (.held prior) => prior.runStartedAt.text = admitted.runStartedAt.text && prior.runId ≠ admitted.runId
  | _ => false

def newerThanSlot (admitted : LaneSlot) : Option StateSlot → Bool
  | some (.held prior) => isNewerIssueEnrichmentTuple admitted prior
  | _ => true

/-- `recordIssueEnrichmentLaneReceipt` on the row with the id 1, in one transaction. -/
def recordIssueEnrichmentLaneReceipt (now : Timestamp) (input : Input) (db : Option Row) : Except String Row :=
  match admitIssueEnrichmentLaneReceiptInput now input with
  | none => .error "issue enrichment receipt input is unavailable"
  | some admitted =>
    let latest := db.bind fun row => decodeSlot false row.latest
    let failure := db.bind fun row => decodeSlot true row.recentFailure
    let latestNewer := newerThanSlot admitted latest
    if ambiguous admitted latest || ambiguous admitted failure then
      .error "issue enrichment receipt has an ambiguous run identity"
    else if !latestNewer && admitted.receipt.ok then .error "issue enrichment receipt is stale"
    else
      let row := db.getD {}
      let row := if latestNewer then { row with latest := admitted.columns } else row
      if admitted.receipt.ok then .ok row
      else if newerThanSlot admitted failure then .ok { row with recentFailure := admitted.columns }
      else .error "issue enrichment failure receipt is stale"

/-- `getIssueEnrichmentLaneReceiptState`. -/
def getLatest (db : Option Row) : Option StateSlot := db.bind fun row => decodeSlot false row.latest

def getRecentFailure (db : Option Row) : Option StateSlot := db.bind fun row => decodeSlot true row.recentFailure

/-! ## Deliveries -/

structure Delivery where
  input : Input
  now : Timestamp

def Delivery.admitted (d : Delivery) : Option LaneSlot := admitIssueEnrichmentLaneReceiptInput d.now d.input

/-- A delivery that throws is rolled back. -/
def deliver (db : Option Row) (d : Delivery) : Option Row :=
  match recordIssueEnrichmentLaneReceipt d.now d.input db with
  | .ok row => some row
  | .error _ => db

end NeonDiff.Receipts
