import NeonDiff.Store.Changes

/-! # One dry run approves one live claim -/

namespace NeonDiff.Store

open NeonDiff.Lib

variable {redactSecrets : String → String}

/-! ## Approvals -/

def Approved (s : State) (head : HeadKey) (revision : String) : Prop :=
  ∃ row, s.processed.find? head = some row ∧ row.status = .dryRun ∧ row.configRevision = some revision

/-- A `tryRecordDryRun` that was admitted, and recorded the revision. -/
def RecordsDryRun (c : TimedCall) (head : HeadKey) (revision : String) (s : State) : Prop :=
  ∃ input : DryRunInput, c.call = .tryRecordDryRun input ∧ input.head = head ∧
    input.configRevision = some revision ∧ (tryRecordDryRun input c.now s).1 = true

/-- A `recordProcessed` that writes a dry run of the revision itself. -/
def WritesDryRun (c : TimedCall) (head : HeadKey) (revision : String) : Prop :=
  ∃ record : ProcessedReviewRecord, c.call = .recordProcessed record ∧ record.head = head ∧
    record.status = .dryRun ∧ record.configRevision = some revision

structure Consuming (c : TimedCall) (head : HeadKey) (input : ReviewHeadClaimInput) : Prop where
  call : c.call = .tryClaimReviewHeadWithOutcome input
  head : input.head = head
  consumes : input.consumeProcessedApprovalOnAcquire = true

/-- The attempt got the claim. -/
def Acquires (redactSecrets : String → String) (c : TimedCall) (s : State) : Prop :=
  ∃ input claim s', c.call = .tryClaimReviewHeadWithOutcome input ∧
    tryClaimReviewHeadWithOutcome input c.uuid c.now s = .ok (.acquired claim, s') ∧
    c.call.after redactSecrets c.now c.uuid s = s'

theorem dryRun_of_recordedRow {record : ProcessedReviewRecord} {now : Int} {old : Option StoredProcessedReviewRecord}
    (h : (recordedRow record now old).status = .dryRun) :
    record.status = .dryRun ∧ (recordedRow record now old).configRevision = record.configRevision := by
  cases old with
  | none => exact ⟨h, rfl⟩
  | some row =>
    simp only [recordedRow, upsertedRow] at h ⊢
    split at h
    · rename_i hkept
      rw [hkept.2] at h
      cases h
    · rename_i hkept
      rw [if_neg hkept]
      exact ⟨h, rfl⟩

theorem approved_after {c : TimedCall} {s : State} {head : HeadKey} {revision : String}
    (h : Approved (c.call.after redactSecrets c.now c.uuid s) head revision) :
    Approved s head revision ∨ RecordsDryRun c head revision s ∨ WritesDryRun c head revision := by
  obtain ⟨call, now, uuid⟩ := c
  cases hexec : call.exec redactSecrets now uuid s with
  | error e =>
    rw [after_of_error hexec] at h
    exact Or.inl h
  | ok r =>
    obtain ⟨v, s'⟩ := r
    rw [after_of_ok hexec] at h
    obtain ⟨row, hfind, hstatus, hrevision⟩ := h
    have hchange := rowChange_of_ok hexec head
    rw [hfind] at hchange
    generalize hnew : some row = new at hchange
    cases hchange with
    | kept => exact Or.inl ⟨row, hnew.symm, hstatus, hrevision⟩
    | recorded record hhead =>
      obtain rfl := Option.some.inj hnew
      obtain ⟨hdry, hrev⟩ := dryRun_of_recordedRow hstatus
      exact Or.inr (Or.inr ⟨record, rfl, hhead, hdry, hrev.symm.trans hrevision⟩)
    | carried record carried hhead admits status error =>
      obtain rfl := Option.some.inj hnew
      rw [status] at hstatus
      cases hstatus
    | dryRun input recorded hhead ok free admits status rev =>
      obtain rfl := Option.some.inj hnew
      exact Or.inr (Or.inl ⟨input, rfl, hhead, rev.symm.trans hrevision, ok⟩)
    | cleared => cases hnew
    | consumed input old hhead found ok consumes =>
      obtain rfl := Option.some.inj hnew
      cases hstatus
    | authorized input hhead =>
      obtain rfl := Option.some.inj hnew
      obtain ⟨hdry, -⟩ := dryRun_of_recordedRow hstatus
      cases hdry

theorem approved_afterCalls {s : State} {calls : List TimedCall} {head : HeadKey} {revision : String}
    (h : Approved (afterCalls redactSecrets s calls) head revision) :
    Approved s head revision ∨ ∃ pre c post, calls = pre ++ c :: post ∧
      (RecordsDryRun c head revision (afterCalls redactSecrets s pre) ∨ WritesDryRun c head revision) := by
  induction calls generalizing s with
  | nil => exact Or.inl h
  | cons c calls ih =>
    obtain hstood | ⟨pre, d, post, rfl, hd⟩ := ih h
    · obtain hbefore | hrec := approved_after hstood
      · exact Or.inl hbefore
      · exact Or.inr ⟨[], c, calls, rfl, hrec⟩
    · exact Or.inr ⟨c :: pre, d, post, rfl, hd⟩

/-! ## Consuming claims -/

section Consuming

variable {c : TimedCall} {s : State} {head : HeadKey} {input : ReviewHeadClaimInput}

theorem Consuming.required {u : Unit} (h : Consuming c head input) (hv : validateReviewHeadClaim input = .ok u) :
    input.requiredProcessedStatusForSupersession = some .dryRun ∧
      ∃ revision, input.requiredProcessedConfigRevisionForSupersession = some revision := by
  unfold validateReviewHeadClaim at hv
  simp only [h.consumes, if_true] at hv
  split at hv
  · cases hv
  split at hv
  · cases hv
  split at hv
  · cases hv
  split at hv
  · cases hv
  rename_i hstatus hrevision
  refine ⟨by simpa using hstatus, ?_⟩
  cases hr : input.requiredProcessedConfigRevisionForSupersession with
  | none => simp [hr] at hrevision
  | some revision => exact ⟨revision, rfl⟩

theorem validate_of_acquired {claimId : String} {now : Int} {r : ReviewHeadClaimAttempt × State}
    (h : tryClaimReviewHeadWithOutcome input claimId now s = .ok r) : validateReviewHeadClaim input = .ok () := by
  unfold tryClaimReviewHeadWithOutcome at h
  cases hv : validateReviewHeadClaim input with
  | error e =>
    rw [hv] at h
    cases h
  | ok u => rfl

theorem Consuming.acquired (h : Consuming c head input) (hacq : Acquires redactSecrets c s) :
    (∃ revision, input.requiredProcessedConfigRevisionForSupersession = some revision ∧ Approved s head revision) ∧
      ∀ revision, ¬ Approved (c.call.after redactSecrets c.now c.uuid s) head revision := by
  obtain ⟨input', claim, s', hcall, htry, hafter⟩ := hacq
  obtain rfl : input = input' := by
    have := h.call.symm.trans hcall
    exact StoreCall.tryClaimReviewHeadWithOutcome.inj this
  obtain ⟨hstatus, revision, hrevision⟩ := h.required (validate_of_acquired htry)
  generalize hattempt : ReviewHeadClaimAttempt.acquired claim = attempt at htry
  cases tryClaim_step htry with
  | activeClaim => cases hattempt
  | processed => cases hattempt
  | acquired s' ttl free allowed claims rows =>
    cases rows with
    | kept hkeep same =>
      rw [h.consumes] at hkeep
      cases hkeep
    | consumed row hconsumes found ok rows =>
      simp only [consumable, hstatus, hrevision, Bool.and_eq_true, decide_eq_true_eq, Option.some.injEq] at ok
      rw [h.head] at found rows
      refine ⟨⟨revision, hrevision, row, found, ok.1.1.symm, ok.2⟩, ?_⟩
      rintro rev ⟨after, hfind, hdry, -⟩
      rw [hafter, rows head, if_pos rfl] at hfind
      obtain rfl := Option.some.inj hfind
      cases hdry

theorem Consuming.refused (h : Consuming c head input) (hno : ¬ Acquires redactSecrets c s) :
    (c.call.after redactSecrets c.now c.uuid s).processed = s.processed ∧
    (∀ row ∈ (c.call.after redactSecrets c.now c.uuid s).claims.rows, row ∈ s.claims.rows) ∧
    ∀ row ∈ s.claims.rows, row ∈ (c.call.after redactSecrets c.now c.uuid s).claims.rows ∨
      (row.head = head ∧ row.expiresAt ≤ c.now) := by
  have hswept : (∀ row ∈ (sweepExpiredClaim input.head c.now s).claims.rows, row ∈ s.claims.rows) ∧
      ∀ row ∈ s.claims.rows, row ∈ (sweepExpiredClaim input.head c.now s).claims.rows ∨
        (row.head = head ∧ row.expiresAt ≤ c.now) := by
    constructor
    · intro row hrow
      exact (Table.mem_delete.mp hrow).1
    · intro row hrow
      by_cases hgone : row.head = input.head ∧ row.expiresAt ≤ c.now
      · exact Or.inr ⟨hgone.1.trans h.head, hgone.2⟩
      · refine Or.inl (Table.mem_delete.mpr ⟨hrow, ?_⟩)
        simpa using hgone
  cases htry : tryClaimReviewHeadWithOutcome input c.uuid c.now s with
  | error e =>
    have hexec : c.call.exec redactSecrets c.now c.uuid s = .error e := by
      rw [h.call]
      exact htry
    rw [after_of_error hexec]
    exact ⟨rfl, fun row hrow => hrow, fun row hrow => Or.inl hrow⟩
  | ok r =>
    obtain ⟨attempt, s'⟩ := r
    have hafter : c.call.after redactSecrets c.now c.uuid s = s' := by
      rw [h.call]
      exact after_of_ok htry
    rw [hafter]
    cases hstep : tryClaim_step htry with
    | activeClaim => exact ⟨rfl, hswept⟩
    | processed => exact ⟨rfl, hswept⟩
    | acquired => exact absurd ⟨input, _, s', h.call, htry, hafter⟩ hno

end Consuming

/-! ## One shot -/

/-- Between two consuming claims of a head the approval was recorded again, with the revision the second requires;
and an attempt that gets no claim leaves the approval alone. -/
theorem approval_oneShot (redactSecrets : String → String) :
    (∀ (s : State) (first second : TimedCall) (between : List TimedCall) (head : HeadKey)
        (input input' : ReviewHeadClaimInput),
      Consuming first head input → Acquires redactSecrets first s →
      Consuming second head input' → Acquires redactSecrets second (afterCalls redactSecrets s (first :: between)) →
      ∃ revision pre c post, input'.requiredProcessedConfigRevisionForSupersession = some revision ∧
        between = pre ++ c :: post ∧
        (RecordsDryRun c head revision (afterCalls redactSecrets s (first :: pre)) ∨ WritesDryRun c head revision)) ∧
    (∀ (s : State) (c : TimedCall) (head : HeadKey) (input : ReviewHeadClaimInput),
      Consuming c head input → ¬ Acquires redactSecrets c s →
      (c.call.after redactSecrets c.now c.uuid s).processed = s.processed ∧
      (∀ row ∈ (c.call.after redactSecrets c.now c.uuid s).claims.rows, row ∈ s.claims.rows) ∧
      ∀ row ∈ s.claims.rows, row ∈ (c.call.after redactSecrets c.now c.uuid s).claims.rows ∨
        (row.head = head ∧ row.expiresAt ≤ c.now)) := by
  constructor
  · intro s first second between head input input' hfirst hacq hsecond hacq'
    rw [afterCalls_cons] at hacq'
    obtain ⟨revision, hrequired, happroved⟩ := (hsecond.acquired hacq').1
    obtain hstood | ⟨pre, c, post, hsplit, hc⟩ := approved_afterCalls happroved
    · exact absurd hstood ((hfirst.acquired hacq).2 revision)
    · exact ⟨revision, pre, c, post, hrequired, hsplit, hc⟩
  · intro s c head input hc hno
    exact hc.refused hno

/-! ## Runs -/

def approvedHead : HeadKey := ⟨"o/r", 1, "head"⟩

def approvedRevision : String := "0123456789abcdef0123456789abcdef0123456789abcdef0123456789abcdef"

def consumingInput : ReviewHeadClaimInput where
  head := approvedHead
  claimTtlMs := 1000
  ownerPid := 1
  allowProcessedOwnerSupersession := true
  requiredProcessedStatusForSupersession := some .dryRun
  requiredProcessedConfigRevisionForSupersession := some approvedRevision
  consumeProcessedApprovalOnAcquire := true

def consumingClaim (now : Int) (uuid : String) : TimedCall := ⟨.tryClaimReviewHeadWithOutcome consumingInput, now, uuid⟩

def dryRunCall (now : Int) : TimedCall :=
  ⟨.tryRecordDryRun { head := approvedHead, configRevision := some approvedRevision }, now, ""⟩

/-- A live attempt that failed before its POST. -/
def prePostFailure (now : Int) : TimedCall :=
  ⟨.recordProcessed {
    head := approvedHead, status := .skipped
    error := some "approved_dry_run_consumed_for_live_post; post_error=timeout" }, now, ""⟩

/-- The dry run as `recordProcessed` writes it. -/
def writtenDryRun (now : Int) : TimedCall :=
  ⟨.recordProcessed { head := approvedHead, status := .dryRun, configRevision := some approvedRevision }, now, ""⟩

theorem consuming_consumingClaim (now : Int) (uuid : String) :
    Consuming (consumingClaim now uuid) approvedHead consumingInput := ⟨rfl, rfl, rfl⟩

theorem approval_oneShot_retry :
    ∃ revision pre c post, consumingInput.requiredProcessedConfigRevisionForSupersession = some revision ∧
      [prePostFailure 3, dryRunCall 4] = pre ++ c :: post ∧
      (RecordsDryRun c approvedHead revision (afterCalls id (afterCalls id {} [dryRunCall 1])
        (consumingClaim 2 "a" :: pre)) ∨ WritesDryRun c approvedHead revision) := by
  refine (approval_oneShot id).1 (afterCalls id {} [dryRunCall 1]) (consumingClaim 2 "a") (consumingClaim 5 "b")
    [prePostFailure 3, dryRunCall 4] approvedHead consumingInput consumingInput (consuming_consumingClaim 2 "a") ?_
    (consuming_consumingClaim 5 "b") ?_
  · exact ⟨consumingInput, _, _, rfl, rfl, rfl⟩
  · exact ⟨consumingInput, _, _, rfl, rfl, rfl⟩

/-- Two consuming claims of a head, and no `tryRecordDryRun` anywhere. -/
theorem approval_withoutDryRun :
    Consuming (consumingClaim 2 "a") approvedHead consumingInput ∧
    Consuming (consumingClaim 4 "b") approvedHead consumingInput ∧
    Acquires id (consumingClaim 2 "a") (afterCalls id {} [writtenDryRun 1]) ∧
    Acquires id (consumingClaim 4 "b")
      (afterCalls id (afterCalls id {} [writtenDryRun 1]) [consumingClaim 2 "a", writtenDryRun 3]) ∧
    ∀ c ∈ [writtenDryRun 3], ∀ revision s, ¬ RecordsDryRun c approvedHead revision s := by
  refine ⟨consuming_consumingClaim 2 "a", consuming_consumingClaim 4 "b", ⟨consumingInput, _, _, rfl, rfl, rfl⟩,
    ⟨consumingInput, _, _, rfl, rfl, rfl⟩, ?_⟩
  intro c hc revision s hrecords
  obtain rfl := List.mem_singleton.mp hc
  obtain ⟨input, hcall, -⟩ := hrecords
  cases hcall

end NeonDiff.Store
