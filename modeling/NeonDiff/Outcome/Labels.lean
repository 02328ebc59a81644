import Mathlib.Algebra.Order.Ring.Rat
import Mathlib.Data.List.Sort
import NeonDiff.Lib.Checked
import NeonDiff.Lib.JsText
import NeonDiff.Lib.Table
import NeonDiff.Store.Authorization

/-! # Outcome labels of findings -/

namespace NeonDiff.Outcome

open NeonDiff.Lib NeonDiff.Store

inductive FindingOutcomeLabelSource where
  | revert | hotfix | mergedFix | humanThread | noneObserved
  /-- An operator declared a clean run. -/
  | explicitControl
  deriving DecidableEq, Repr

inductive FindingOutcomeVerdict where
  | truePositive | falsePositive | unvalidated
  deriving DecidableEq, Repr

structure FindingOutcomeLabelRecord where
  fingerprint : String
  repo : String
  pullNumber : Int
  headSha : String
  severity : String
  category : String
  confidence : ℚ
  labelSource : FindingOutcomeLabelSource
  verdict : FindingOutcomeVerdict
  observedAt : String
  evidenceRef : Option String := none
  deriving DecidableEq

/-- The primary key of `finding_outcome_labels`. -/
def FindingOutcomeLabelRecord.key (r : FindingOutcomeLabelRecord) : String × String × Int × String :=
  (r.fingerprint, r.repo, r.pullNumber, r.headSha)

abbrev LabelTable := Table FindingOutcomeLabelRecord.key

/-! ## The store -/

def isHexDigit (c : Char) : Bool := c.isDigit || ('a' ≤ c && c ≤ 'f')

/-- `/^finding:[a-f0-9]{64}$/`. -/
def isFindingFingerprint (fingerprint : String) : Bool :=
  "finding:".toList.isPrefixOf fingerprint.toList &&
    (fingerprint.toList.drop 8).length = 64 && (fingerprint.toList.drop 8).all isHexDigit

section
variable (redactSecrets : String → String)

/-- `record.evidenceRef ? redactSecrets(record.evidenceRef).trim() : null`. -/
def storedEvidenceRef (ref : String) : String := String.ofList (JsText.trim (redactSecrets ref).toList)

def writeFindingOutcomeLabel (labels : LabelTable) (record : FindingOutcomeLabelRecord) : Except String LabelTable := do
  validateRepoName record.repo "repo"
  require (isFindingFingerprint record.fingerprint) "finding outcome label fingerprint must match finding:<64-hex>"
  require (1 ≤ record.pullNumber) "pullNumber must be a positive integer"
  require (0 ≤ record.confidence ∧ record.confidence ≤ 1) "confidence must be a number from 0 to 1"
  return labels.replace
    { record with evidenceRef := (record.evidenceRef.filter (· ≠ "")).map (storedEvidenceRef redactSecrets) }

/-- One transaction: a record that is refused takes the whole batch back. -/
def recordFindingOutcomeLabels (labels : LabelTable) (records : List FindingOutcomeLabelRecord) :
    Except String LabelTable :=
  records.foldlM (writeFindingOutcomeLabel redactSecrets) labels

inductive Recorded : LabelTable → Prop where
  | empty : Recorded .empty
  | batch {labels labels' : LabelTable} {records : List FindingOutcomeLabelRecord} (h : Recorded labels)
      (hrecord : recordFindingOutcomeLabels redactSecrets labels records = .ok labels') : Recorded labels'

end

/-- Without a repository all labels, latest first; `datetime` reads the times. -/
def listFindingOutcomeLabels (datetime : String → Int) (repo : Option String) (labels : LabelTable) :
    List FindingOutcomeLabelRecord :=
  (labels.rows.filter fun r => repo.all fun name => name = "" || r.repo = name).insertionSort
    fun a b => datetime b.observedAt ≤ datetime a.observedAt

def ConfidenceInRange (labels : List FindingOutcomeLabelRecord) : Prop :=
  ∀ label ∈ labels, 0 ≤ label.confidence ∧ label.confidence ≤ 1

variable {redactSecrets : String → String}

theorem writeFindingOutcomeLabel_eq_ok (labels : LabelTable) {record : FindingOutcomeLabelRecord}
    (hrepo : validateRepoName record.repo "repo" = .ok ()) (hfingerprint : isFindingFingerprint record.fingerprint = true)
    (hpull : 1 ≤ record.pullNumber) (hconfidence : 0 ≤ record.confidence ∧ record.confidence ≤ 1)
    (href : record.evidenceRef = none) :
    writeFindingOutcomeLabel redactSecrets labels record = .ok (labels.replace record) := by
  unfold writeFindingOutcomeLabel
  simp only [hrepo, hfingerprint, hpull, hconfidence, href, require, decide_true, if_true, and_self]
  obtain ⟨⟩ := record
  subst href
  rfl

theorem writeFindingOutcomeLabel_inRange {labels labels' : LabelTable} {record : FindingOutcomeLabelRecord}
    (h : writeFindingOutcomeLabel redactSecrets labels record = .ok labels') (hrange : ConfidenceInRange labels.rows) :
    ConfidenceInRange labels'.rows := by
  unfold writeFindingOutcomeLabel at h
  obtain ⟨_, -, h⟩ := bind_eq_ok h
  obtain ⟨_, -, h⟩ := bind_eq_ok h
  obtain ⟨_, -, h⟩ := bind_eq_ok h
  obtain ⟨_, hconfidence, h⟩ := bind_eq_ok h
  rw [require_eq_ok, decide_eq_true_eq] at hconfidence
  obtain rfl := Except.ok.inj h
  intro label hlabel
  rcases Table.mem_replace.mp hlabel with ⟨hkept, -⟩ | rfl
  · exact hrange label hkept
  · exact hconfidence

theorem Recorded.listed {labels : LabelTable} (h : Recorded redactSecrets labels) (datetime : String → Int)
    (repo : Option String) : ConfidenceInRange (listFindingOutcomeLabels datetime repo labels) ∧
      ((listFindingOutcomeLabels datetime repo labels).map FindingOutcomeLabelRecord.key).Nodup := by
  have hrange : ConfidenceInRange labels.rows := by
    induction h with
    | empty => exact fun label hlabel => absurd hlabel List.not_mem_nil
    | @batch labels labels' records h hrecord ih =>
      exact foldlM_preserves (fun t => ConfidenceInRange t.rows) (fun _ _ _ _ ht hwrite =>
        writeFindingOutcomeLabel_inRange hwrite ht) hrecord ih
  constructor
  · intro label hlabel
    exact hrange label (List.mem_of_mem_filter ((List.mem_insertionSort _).mp hlabel))
  · have hsorted := List.perm_insertionSort (fun a b : FindingOutcomeLabelRecord =>
      datetime b.observedAt ≤ datetime a.observedAt) (labels.rows.filter fun r => repo.all fun name =>
        name = "" || r.repo = name)
    exact (hsorted.map _).nodup_iff.mpr (labels.nodup.sublist (List.filter_sublist.map _))

end NeonDiff.Outcome
