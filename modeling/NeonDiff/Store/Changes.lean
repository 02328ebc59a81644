import NeonDiff.Store.Calls

/-! # What one call does to a processed row and to a claim -/

namespace NeonDiff.Store

open NeonDiff.Lib

/-! ## Processed rows -/

section Rows

variable {redactSecrets : String → String} {now : Int} {s s' : State}

@[simp] theorem recordedRow_head (record : ProcessedReviewRecord) (now : Int)
    {old : Option StoredProcessedReviewRecord} (h : ∀ row, old = some row → row.head = record.head) :
    (recordedRow record now old).head = record.head := by
  cases old with
  | none => rfl
  | some row =>
    show (upsertedRow record now row).head = record.head
    unfold upsertedRow
    split
    · exact h row rfl
    · rfl

theorem find?_upsert_recordedRow (record : ProcessedReviewRecord) (now : Int) (s : State) (k : HeadKey) :
    (s.processed.upsert (recordedRow record now (s.processed.find? record.head))).find? k =
      if record.head = k then some (recordedRow record now (s.processed.find? k)) else s.processed.find? k := by
  have hhead : (recordedRow record now (s.processed.find? record.head)).key = record.head :=
    recordedRow_head record now fun row hrow => head_of_find? hrow
  rw [Table.find?_upsert]
  by_cases hk : record.head = k
  · subst hk
    rw [if_pos hhead, if_pos rfl]
  · rw [if_neg hk, if_neg]
    exact fun h => hk (hhead.symm.trans h)

/-- What a call may leave under the head `k` of the processed rows. -/
inductive RowChange (now : Int) (s : State) (k : HeadKey) : StoreCall → Option StoredProcessedReviewRecord → Prop where
  | kept (call : StoreCall) : RowChange now s k call (s.processed.find? k)
  | recorded (record : ProcessedReviewRecord) (head : record.head = k) :
      RowChange now s k (.recordProcessed record) (some (recordedRow record now (s.processed.find? k)))
  | carried (record : ProcessedReviewRecord) (row : StoredProcessedReviewRecord) (head : record.head = k)
      (admits : ∀ old, s.processed.find? k = some old → isRetryableRow (mapProcessedReviewRow old) = true)
      (status : row.status = .skipped) (error : row.error = some baseMergeOnly) :
      RowChange now s k (.recordBaseMergeOnlySkip record) (some row)
  | dryRun (input : DryRunInput) (row : StoredProcessedReviewRecord) (head : input.head = k)
      (recorded : (tryRecordDryRun input now s).1 = true) (free : liveClaim s k now = none)
      (admits : ∀ old, s.processed.find? k = some old → dryRunAdmits input old = true)
      (status : row.status = .dryRun) (revision : row.configRevision = input.configRevision) :
      RowChange now s k (.tryRecordDryRun input) (some row)
  | cleared (reason : String) (row : StoredProcessedReviewRecord) (found : s.processed.find? k = some row)
      (status : row.status = .skipped) (error : row.error = some reason) :
      RowChange now s k (.clearAuthorGateSkip k reason) none
  | consumed (input : ReviewHeadClaimInput) (row : StoredProcessedReviewRecord) (head : input.head = k)
      (found : s.processed.find? k = some row) (ok : consumable input row = true)
      (consumes : input.consumeProcessedApprovalOnAcquire = true) :
      RowChange now s k (.tryClaimReviewHeadWithOutcome input) (some (consumedRow now row))
  | authorized (input : AuthorizedPostedInput) (head : input.head = k) :
      RowChange now s k (.recordAuthorizedReviewPosted input)
        (some (recordedRow (authorizedPostedRecord input) now (s.processed.find? k)))

theorem recordProcessed_row (record : ProcessedReviewRecord) (k : HeadKey) :
    RowChange now s k (.recordProcessed record) ((recordProcessed record now s).processed.find? k) := by
  rw [recordProcessed, find?_upsert_recordedRow]
  split
  · rename_i hk
    exact .recorded record hk
  · exact .kept _

theorem recordBaseMergeOnlySkip_row (record : ProcessedReviewRecord) (k : HeadKey) :
    RowChange now s k (.recordBaseMergeOnlySkip record)
      ((recordBaseMergeOnlySkip record now s).2.processed.find? k) := by
  unfold recordBaseMergeOnlySkip
  split
  · exact .kept _
  split
  · exact .kept _
  rename_i hadmits
  split
  · exact .kept _
  split
  · exact .kept _
  rw [Table.find?_upsert]
  split
  · rename_i hk
    have hk : record.head = k := hk
    refine .carried record _ hk ?_ rfl rfl
    intro old hold
    simpa [getProcessedReview, hk, hold] using hadmits
  · exact .kept _

theorem tryRecordDryRun_row (input : DryRunInput) (k : HeadKey) :
    RowChange now s k (.tryRecordDryRun input) ((tryRecordDryRun input now s).2.processed.find? k) := by
  by_cases hblocked : ((sweepExpiredClaim input.head now s).claims.find? input.head).isSome ||
      ((sweepExpiredClaim input.head now s).processed.find? input.head).any fun r => !dryRunAdmits input r
  · have hsame : (tryRecordDryRun input now s).2.processed = s.processed := by
      unfold tryRecordDryRun
      dsimp only
      rw [if_pos hblocked]
      rfl
    rw [hsame]
    exact .kept _
  · have hrun : tryRecordDryRun input now s = (true, { sweepExpiredClaim input.head now s with
        processed := s.processed.replace {
          head := input.head, status := .dryRun, configRevision := input.configRevision, event := input.event
          createdAt := .iso now } }) := by
      unfold tryRecordDryRun
      exact if_neg hblocked
    have hrecorded : (tryRecordDryRun input now s).1 = true := by rw [hrun]
    rw [hrun]
    dsimp only
    rw [Table.find?_replace]
    split
    · rename_i hk
      have hk : input.head = k := hk
      subst hk
      simp only [Bool.or_eq_true, not_or, Bool.not_eq_true, Option.isSome_eq_false_iff, Option.isNone_iff_eq_none,
        sweepExpiredClaim_claims, if_true, sweepExpiredClaim_processed] at hblocked
      refine .dryRun input _ rfl hrecorded hblocked.1 ?_ rfl rfl
      intro old hold
      simpa [hold] using hblocked.2
    · exact .kept _

theorem clearAuthorGateSkip_row (head : HeadKey) (reason : String) (k : HeadKey) :
    RowChange now s k (.clearAuthorGateSkip head reason) ((clearAuthorGateSkip head reason s).2.processed.find? k) := by
  unfold clearAuthorGateSkip
  rw [Table.find?_delete]
  cases hold : s.processed.find? k with
  | none =>
    rw [Option.filter_none, ← hold]
    exact .kept _
  | some row =>
    have hrow := head_of_find? hold
    by_cases hgone : row.head = head ∧ row.status = .skipped ∧ row.error = some reason
    · obtain ⟨hhead, hstatus, herror⟩ := hgone
      obtain rfl : head = k := hhead.symm.trans hrow
      simp only [Option.filter, hrow, hstatus, herror, decide_true, Bool.and_self, Bool.not_true, Bool.false_eq_true,
        if_false]
      exact .cleared reason row hold hstatus herror
    · have : (!(decide (row.head = head) && decide (row.status = .skipped) && decide (row.error = some reason))) =
          true := by
        simp only [Bool.not_eq_true', Bool.and_eq_false_iff, decide_eq_false_iff_not]
        tauto
      simp only [Option.filter, this, if_true, ← hold]
      exact .kept _

theorem recordAuthorizedReviewPosted_row {input : AuthorizedPostedInput} {u : Unit}
    (h : recordAuthorizedReviewPosted input now s = .ok (u, s')) (k : HeadKey) :
    RowChange now s k (.recordAuthorizedReviewPosted input) (s'.processed.find? k) := by
  unfold recordAuthorizedReviewPosted at h
  split at h
  · cases h
  split at h
  · cases h
  dsimp only at h
  split at h
  · obtain ⟨-, rfl⟩ := Prod.mk.inj (Except.ok.inj h)
    dsimp only
    split
    · exact .kept _
    · have := find?_upsert_recordedRow (authorizedPostedRecord input) now s k
      rw [show (authorizedPostedRecord input).head = input.head from rfl] at this
      rw [this]
      split
      · rename_i hk
        exact .authorized input hk
      · exact .kept _
  · cases h

theorem tryClaim_row {input : ReviewHeadClaimInput} {claimId : String} {attempt : ReviewHeadClaimAttempt}
    (h : tryClaimReviewHeadWithOutcome input claimId now s = .ok (attempt, s')) (k : HeadKey) :
    RowChange now s k (.tryClaimReviewHeadWithOutcome input) (s'.processed.find? k) := by
  cases tryClaim_step h with
  | activeClaim => exact .kept _
  | processed => exact .kept _
  | acquired s' ttl free allowed claims rows =>
    cases rows with
    | kept hkeep same =>
      rw [same]
      exact .kept _
    | consumed row hconsumes found ok rows =>
      rw [rows k]
      split
      · rename_i hk
        subst hk
        exact .consumed input row rfl found ok hconsumes
      · exact .kept _

theorem rowChange_of_ok {uuid : String} {call : StoreCall} {v : call.Value}
    (h : call.exec redactSecrets now uuid s = .ok (v, s')) (k : HeadKey) :
    RowChange now s k call (s'.processed.find? k) := by
  cases call with
  | recordProcessed record =>
    obtain ⟨-, rfl⟩ := Prod.mk.inj (Except.ok.inj h)
    exact recordProcessed_row record k
  | recordBaseMergeOnlySkip record =>
    obtain ⟨-, rfl⟩ := Prod.mk.inj (Except.ok.inj h)
    exact recordBaseMergeOnlySkip_row record k
  | tryRecordDryRun input =>
    obtain ⟨-, rfl⟩ := Prod.mk.inj (Except.ok.inj h)
    exact tryRecordDryRun_row input k
  | clearAuthorGateSkip head reason =>
    obtain ⟨-, rfl⟩ := Prod.mk.inj (Except.ok.inj h)
    exact clearAuthorGateSkip_row head reason k
  | tryClaimReviewHeadWithOutcome input => exact tryClaim_row h k
  | recordAuthorizedReviewPosted input => exact recordAuthorizedReviewPosted_row h k
  | recordReviewReadiness input =>
    rw [(recordReviewReadiness_frame h).1]
    exact .kept _
  | tryConsumeReviewEventAuthorization head commentId author =>
    rw [(tryConsume_frame h).1]
    exact .kept _
  | getReviewEventAuthorizationConsumption head =>
    obtain rfl := getConsumption_state h
    exact .kept _
  | recordAuthorizedReviewNoop input =>
    rw [(recordAuthorizedReviewNoop_cases h).1]
    exact .kept _
  | recordReviewEventAuthorizationIncident input =>
    rw [(recordIncident_frame h).1]
    exact .kept _
  | _ =>
    obtain ⟨-, rfl⟩ := Prod.mk.inj (Except.ok.inj h)
    exact .kept _

end Rows

/-! ## Claims -/

section Claims

variable {redactSecrets : String → String} {now : Int} {uuid : String} {s s' : State}

/-- What a call may leave under the head `k` of the claims. -/
inductive ClaimChange (now : Int) (uuid : String) (s : State) (k : HeadKey) :
    StoreCall → Option ReviewHeadClaimRow → Prop where
  | kept (call : StoreCall) : ClaimChange now uuid s k call (s.claims.find? k)
  | recorded (record : ProcessedReviewRecord) (head : record.head = k) :
      ClaimChange now uuid s k (.recordProcessed record) none
  | posted (input : AuthorizedPostedInput) (head : input.head = k) :
      ClaimChange now uuid s k (.recordAuthorizedReviewPosted input) none
  | noop (input : AuthorizedNoopInput) (head : input.head = k) :
      ClaimChange now uuid s k (.recordAuthorizedReviewNoop input) none
  | swept (call : StoreCall) : ClaimChange now uuid s k call (liveClaim s k now)
  | acquired (input : ReviewHeadClaimInput) (head : input.head = k) (ttl : 0 < input.claimTtlMs)
      (free : liveClaim s k now = none)
      (allowed : ∀ row, s.processed.find? k = some row → supersessionAllowed input row = true) :
      ClaimChange now uuid s k (.tryClaimReviewHeadWithOutcome input) (some (input.claimRow uuid now))
  | released (claim : ReviewHeadClaimRow) (found : s.claims.find? k = some claim) :
      ClaimChange now uuid s k (.releaseReviewHeadClaim claim.claimId) none

theorem find?_deleteHead (s : State) (head k : HeadKey) :
    (s.claims.delete fun c => c.head = head).find? k = if head = k then none else s.claims.find? k := by
  rw [Table.find?_delete]
  cases hold : s.claims.find? k with
  | none => simp
  | some c =>
    have hc : c.head = k := Table.key_of_find? hold
    by_cases hk : head = k
    · simp [Option.filter, hc, hk]
    · simp [Option.filter, hc, hk, Ne.symm hk]

theorem tryClaim_claim {input : ReviewHeadClaimInput} {attempt : ReviewHeadClaimAttempt}
    (h : tryClaimReviewHeadWithOutcome input uuid now s = .ok (attempt, s')) (k : HeadKey) :
    ClaimChange now uuid s k (.tryClaimReviewHeadWithOutcome input) (s'.claims.find? k) := by
  cases tryClaim_step h with
  | activeClaim c held =>
    rw [sweepExpiredClaim_claims]
    split
    · exact .swept _
    · exact .kept _
  | processed row free found refused =>
    rw [sweepExpiredClaim_claims]
    split
    · exact .swept _
    · exact .kept _
  | acquired s' ttl free allowed claims rows =>
    rw [claims k]
    split
    · rename_i hk
      subst hk
      exact .acquired input rfl ttl free allowed
    · exact .kept _

theorem tryRecordDryRun_claim (input : DryRunInput) (k : HeadKey) :
    ClaimChange now uuid s k (.tryRecordDryRun input) ((tryRecordDryRun input now s).2.claims.find? k) := by
  have hclaims : (tryRecordDryRun input now s).2.claims = (sweepExpiredClaim input.head now s).claims := by
    unfold tryRecordDryRun
    dsimp only
    split <;> rfl
  rw [hclaims, sweepExpiredClaim_claims]
  split
  · exact .swept _
  · exact .kept _

theorem recordBaseMergeOnlySkip_claim (record : ProcessedReviewRecord) (k : HeadKey) :
    ClaimChange now uuid s k (.recordBaseMergeOnlySkip record)
      ((recordBaseMergeOnlySkip record now s).2.claims.find? k) := by
  rw [(recordBaseMergeOnlySkip_frame record now s).1]
  exact .kept _

theorem releaseReviewHeadClaim_claim (claimId : String) (k : HeadKey) :
    ClaimChange now uuid s k (.releaseReviewHeadClaim claimId) ((releaseReviewHeadClaim claimId s).claims.find? k) := by
  rw [releaseReviewHeadClaim, Table.find?_delete]
  cases hold : s.claims.find? k with
  | none =>
    rw [Option.filter_none, ← hold]
    exact .kept _
  | some c =>
    by_cases hid : c.claimId = claimId
    · subst hid
      simp only [Option.filter, decide_true, Bool.not_true, Bool.false_eq_true, if_false]
      exact .released c hold
    · simp only [Option.filter, hid, decide_false, Bool.not_false, if_true, ← hold]
      exact .kept _

theorem claimChange_of_ok {call : StoreCall} {v : call.Value}
    (h : call.exec redactSecrets now uuid s = .ok (v, s')) (k : HeadKey) :
    ClaimChange now uuid s k call (s'.claims.find? k) := by
  cases call with
  | recordProcessed record =>
    obtain ⟨-, rfl⟩ := Prod.mk.inj (Except.ok.inj h)
    show ClaimChange now uuid s k _ ((s.claims.delete fun c => c.head = record.head).find? k)
    rw [find?_deleteHead]
    split
    · rename_i hk
      exact .recorded record hk
    · exact .kept _
  | recordBaseMergeOnlySkip record =>
    obtain ⟨-, rfl⟩ := Prod.mk.inj (Except.ok.inj h)
    exact recordBaseMergeOnlySkip_claim record k
  | tryRecordDryRun input =>
    obtain ⟨-, rfl⟩ := Prod.mk.inj (Except.ok.inj h)
    exact tryRecordDryRun_claim input k
  | tryClaimReviewHeadWithOutcome input => exact tryClaim_claim h k
  | releaseReviewHeadClaim claimId =>
    obtain ⟨-, rfl⟩ := Prod.mk.inj (Except.ok.inj h)
    exact releaseReviewHeadClaim_claim claimId k
  | recordAuthorizedReviewPosted input =>
    rw [recordAuthorizedReviewPosted_claims h, find?_deleteHead]
    split
    · rename_i hk
      exact .posted input hk
    · exact .kept _
  | recordAuthorizedReviewNoop input =>
    obtain hsame | hgone := (recordAuthorizedReviewNoop_cases h).2
    · rw [hsame]
      exact .kept _
    · rw [hgone, find?_deleteHead]
      split
      · rename_i hk
        exact .noop input hk
      · exact .kept _
  | recordReviewReadiness input =>
    rw [(recordReviewReadiness_frame h).2]
    exact .kept _
  | tryConsumeReviewEventAuthorization head commentId author =>
    rw [(tryConsume_frame h).2]
    exact .kept _
  | getReviewEventAuthorizationConsumption head =>
    obtain rfl := getConsumption_state h
    exact .kept _
  | recordReviewEventAuthorizationIncident input =>
    rw [(recordIncident_frame h).2]
    exact .kept _
  | _ =>
    obtain ⟨-, rfl⟩ := Prod.mk.inj (Except.ok.inj h)
    exact .kept _

end Claims

end NeonDiff.Store
