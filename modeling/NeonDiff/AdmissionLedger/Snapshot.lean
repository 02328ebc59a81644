import NeonDiff.Lib.Json
import NeonDiff.Lib.Fields
import Mathlib.Data.List.Nodup

/-! # Admission snapshots

A snapshot freezes the candidates of a cycle, each with its record, and the caps they are admitted under. Times are
milliseconds since the epoch; a snapshot keeps no other time than one it has brought into its canonical text.
-/

namespace NeonDiff.AdmissionLedger

open Lib

inductive Action where
  | would_enrich
  | would_comment
  deriving DecidableEq, Repr

inductive ScanAction where
  | would_enrich
  | would_comment
  | deferred
  | skipped
  deriving DecidableEq, Repr

def Action.scan : Action → ScanAction
  | .would_enrich => .would_enrich
  | .would_comment => .would_comment

inductive RecordStatus where
  | dry_run
  | posted
  | skipped
  | deferred
  | failed
  deriving DecidableEq, Repr

structure IssueEnrichmentAdmissionRecord where
  status : RecordStatus
  issueUpdatedAt : Option Int := none
  nextEligibleAt : Option Int := none
  reason : Option String := none
  deriving DecidableEq

structure IssueEnrichmentAdmissionCandidate where
  repo : String
  issueNumber : Nat
  action : ScanAction
  intendedAction : Option Action := none
  issueUpdatedAt : Option Int := none
  nextEligibleAt : Option Int := none
  isNew : Bool := false
  record : Option IssueEnrichmentAdmissionRecord := none
  deriving DecidableEq

section Snapshot

/- `lower` is `toLowerCase`. -/
variable (lower : String → String)

def repoKey (repo : String) : String := lower repo

def IssueEnrichmentAdmissionCandidate.key (candidate : IssueEnrichmentAdmissionCandidate) : String :=
  repoKey lower candidate.repo ++ "#" ++ toString candidate.issueNumber

/-- A snapshot as `snapshotIssueEnrichmentAdmission` makes it: no issue stands in it twice. -/
structure IssueEnrichmentAdmissionSnapshot where
  checkedAt : Int
  limits : Json
  candidates : List IssueEnrichmentAdmissionCandidate
  distinct : (candidates.map (IssueEnrichmentAdmissionCandidate.key lower)).Nodup

theorem hash_notMem_toString (n : Nat) : '#' ∉ (toString n).toList := by
  rw [Nat.toString_eq_ofList_toDigits, String.toList_ofList]
  intro hmem
  have hdigit := JsText.isDigit_of_mem_toDigits hmem
  revert hdigit
  decide

/-- A text ends in one way only behind a sign that its end does not have. -/
theorem front_eq_of_append_sign {front front' rest rest' : List Char} {c : Char} (hrest : c ∉ rest) (hrest' : c ∉ rest')
    (h : front ++ c :: rest = front' ++ c :: rest') : front = front' := by
  rcases List.append_eq_append_iff.mp h with ⟨mid, rfl, hmid⟩ | ⟨mid, rfl, hmid⟩
  · cases mid with
    | nil => simp
    | cons d mid =>
      obtain ⟨-, rfl⟩ := List.cons.inj hmid
      simp at hrest
  · cases mid with
    | nil => simp
    | cons d mid =>
      obtain ⟨-, rfl⟩ := List.cons.inj hmid
      simp at hrest'

variable {lower}

theorem repoKey_eq_of_key_eq {c c' : IssueEnrichmentAdmissionCandidate} (h : c.key lower = c'.key lower) :
    repoKey lower c.repo = repoKey lower c'.repo := by
  have hlist := congrArg String.toList h
  simp only [IssueEnrichmentAdmissionCandidate.key, String.toList_append, List.append_assoc] at hlist
  exact String.toList_inj.mp
    (front_eq_of_append_sign (hash_notMem_toString c.issueNumber) (hash_notMem_toString c'.issueNumber) hlist)

end Snapshot

/-! ## Classification -/

inductive DecisionState where
  | pending
  | held
  | already_recorded
  | source_dependent
  deriving DecidableEq, Repr

inductive DecisionReason where
  | no_record
  | record_failed
  | record_skipped
  | persisted_defer_active
  | persisted_defer_identity_unknown_or_changed
  | persisted_defer_due_or_unknown
  | dry_run_equal_identity
  | dry_run_identity_unknown_or_changed
  | dry_run_requires_live
  | posted_requires_source_comparison
  | current_defer_active
  | current_defer_due_or_unknown
  | current_scan_skipped
  deriving DecidableEq, Repr

structure IssueEnrichmentAdmissionDecision where
  key : String
  state : DecisionState
  reason : DecisionReason
  candidate : IssueEnrichmentAdmissionCandidate
  deriving DecidableEq

def future (value : Option Int) (checkedAt : Int) : Bool :=
  match value with
  | none => false
  | some deadline => decide (checkedAt < deadline)

def stateOf (candidate : IssueEnrichmentAdmissionCandidate) (checkedAt : Int) : DecisionState × DecisionReason :=
  match candidate.action with
  | .deferred =>
    if future candidate.nextEligibleAt checkedAt then (.held, .current_defer_active)
    else (.pending, .current_defer_due_or_unknown)
  | .skipped => (.pending, .current_scan_skipped)
  | .would_enrich | .would_comment =>
    match candidate.record with
    | none => (.pending, .no_record)
    | some record =>
      let sameKnownIdentity := candidate.issueUpdatedAt.isSome && candidate.issueUpdatedAt = record.issueUpdatedAt
      match record.status with
      | .failed => (.pending, .record_failed)
      | .skipped => (.pending, .record_skipped)
      | .posted => (.source_dependent, .posted_requires_source_comparison)
      | .deferred =>
        if !sameKnownIdentity then (.pending, .persisted_defer_identity_unknown_or_changed)
        else if future record.nextEligibleAt checkedAt then (.held, .persisted_defer_active)
        else (.pending, .persisted_defer_due_or_unknown)
      | .dry_run =>
        if candidate.action = .would_comment then (.pending, .dry_run_requires_live)
        else if sameKnownIdentity then (.already_recorded, .dry_run_equal_identity)
        else (.pending, .dry_run_identity_unknown_or_changed)

def classify (lower : String → String) (candidate : IssueEnrichmentAdmissionCandidate) (checkedAt : Int) :
    IssueEnrichmentAdmissionDecision :=
  { key := candidate.key lower
    state := (stateOf candidate checkedAt).1
    reason := (stateOf candidate checkedAt).2
    candidate }

def classifyIssueEnrichmentAdmission {lower : String → String} (snapshot : IssueEnrichmentAdmissionSnapshot lower) :
    List IssueEnrichmentAdmissionDecision :=
  snapshot.candidates.map fun candidate => classify lower candidate snapshot.checkedAt

/-! ## Caps -/

structure RepoLimits where
  issues : Nat
  comments : Nat
  burst : Nat
  deriving DecidableEq, Repr

structure Limits where
  globalIssues : Nat
  globalComments : Nat
  repos : List (String × RepoLimits)

def failed {α : Type} (reason : String) : Except String α := .error ("issue_enrichment_admission_ledger_" ++ reason)

def plain (value : Option Json) : Except String (List (String × Json)) :=
  match value with
  | some (.obj fields) => .ok fields
  | _ => failed "invalid_limits"

def count (value : Option Json) : Except String Nat :=
  match value with
  | some (.int n) => if Json.isSafeInteger n && decide (0 ≤ n) then .ok n.toNat else failed "invalid_limit"
  | _ => failed "invalid_limit"

def positive (value : Option Json) : Except String Nat := do
  let parsed ← count value
  if parsed = 0 then failed "invalid_limit" else pure parsed

section Limits

variable (lower : String → String)

def readRepoLimits (parsed : List (String × RepoLimits)) (entry : String × Json) : Except String (List (String × RepoLimits)) := do
  let normalized := repoKey lower entry.1
  if parsed.any fun p => p.1 = normalized then failed "invalid_limit" else do
    let limits ← plain (some entry.2)
    let issues ← positive (Json.field limits "maxIssuesPerCycle")
    let comments ← count (Json.field limits "maxCommentsPerCycle")
    let burst ← positive (Json.field limits "maxIssuesPerBurst")
    if issues < comments then failed "invalid_limit" else pure (parsed ++ [(normalized, ⟨issues, comments, burst⟩)])

def readLimits (value : Json) : Except String Limits := do
  let root ← plain (some value)
  let repos ← plain (Json.field root "repos")
  let parsed ← repos.foldlM (readRepoLimits lower) []
  let globalIssues ← positive (Json.field root "globalMaxIssuesPerCycle")
  let globalComments ← count (Json.field root "globalMaxCommentsPerCycle")
  if globalIssues < globalComments then failed "invalid_limit"
  else pure { globalIssues, globalComments, repos := parsed }

/-- The limits of a repository, which are looked up under its lowered name once more. -/
def repoLimits (limits : Limits) (repo : String) : Option RepoLimits :=
  (limits.repos.find? fun p => p.1 = repoKey lower repo).map Prod.snd

end Limits

end NeonDiff.AdmissionLedger
