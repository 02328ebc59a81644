import NeonDiff.Store.Queue

/-! # The transactions of the review state store

Each call is one statement or one transaction. A call that throws rolls back.
-/

namespace NeonDiff.Store

open NeonDiff.Lib NeonDiff.Lib.JsText

inductive StoreCall where
  | getProcessedReview (head : HeadKey)
  | hasProcessed (head : HeadKey)
  | recordProcessed (record : ProcessedReviewRecord)
  | getBaseMergeOnlyAnchor (repo : String) (pullNumber : Nat)
  | recordBaseMergeOnlySkip (record : ProcessedReviewRecord)
  | tryRecordDryRun (input : DryRunInput)
  | clearAuthorGateSkip (head : HeadKey) (reason : String)
  | tryClaimReviewHeadWithOutcome (input : ReviewHeadClaimInput)
  | releaseReviewHeadClaim (claimId : String)
  | getReviewReadiness (head : HeadKey)
  | recordReviewReadiness (input : ReadinessInput)
  | tryConsumeReviewEventAuthorization (head : HeadKey) (commentId : Nat) (author : String)
  | getReviewEventAuthorizationConsumption (head : HeadKey)
  | recordAuthorizedReviewPosted (input : AuthorizedPostedInput)
  | recordAuthorizedReviewNoop (input : AuthorizedNoopInput)
  | recordReviewEventAuthorizationIncident (input : AuthorizationIncidentInput)
  | retireFailedReviewQueueJobs (head : HeadKey) (retiredError : String)
  deriving DecidableEq, Repr

/-- What a call answers when it does not throw. -/
abbrev StoreCall.Value : StoreCall → Type
  | .getProcessedReview _ => Option StoredProcessedReviewRecord
  | .hasProcessed _ => Bool
  | .recordProcessed _ => Unit
  | .getBaseMergeOnlyAnchor .. => Option StoredProcessedReviewRecord
  | .recordBaseMergeOnlySkip _ => Except BaseMergeOnlyRefusal Unit
  | .tryRecordDryRun _ => Bool
  | .clearAuthorGateSkip .. => Bool
  | .tryClaimReviewHeadWithOutcome _ => ReviewHeadClaimAttempt
  | .releaseReviewHeadClaim _ => Unit
  | .getReviewReadiness _ => Option ReviewReadinessRecord
  | .recordReviewReadiness _ => Unit
  | .tryConsumeReviewEventAuthorization .. => Bool
  | .getReviewEventAuthorizationConsumption _ => Option ReviewEventAuthorizationConsumptionRecord
  | .recordAuthorizedReviewPosted _ => Unit
  | .recordAuthorizedReviewNoop _ => Bool
  | .recordReviewEventAuthorizationIncident _ => Bool
  | .retireFailedReviewQueueJobs .. => Unit

section
variable (redactSecrets : String → String)

/-- One call at the clock `now`; `uuid` is the `randomUUID()` of a claim attempt. -/
def StoreCall.exec (now : Int) (uuid : String) (s : State) : (call : StoreCall) → Outcome call.Value
  | .getProcessedReview head => .ok (Store.getProcessedReview s head, s)
  | .hasProcessed head => .ok (Store.hasProcessed s head, s)
  | .recordProcessed record => .ok ((), Store.recordProcessed record now s)
  | .getBaseMergeOnlyAnchor repo pullNumber => .ok (Store.getBaseMergeOnlyAnchor s repo pullNumber, s)
  | .recordBaseMergeOnlySkip record => .ok (Store.recordBaseMergeOnlySkip record now s)
  | .tryRecordDryRun input => .ok (Store.tryRecordDryRun input now s)
  | .clearAuthorGateSkip head reason => .ok (Store.clearAuthorGateSkip head reason s)
  | .tryClaimReviewHeadWithOutcome input => Store.tryClaimReviewHeadWithOutcome input uuid now s
  | .releaseReviewHeadClaim claimId => .ok ((), Store.releaseReviewHeadClaim claimId s)
  | .getReviewReadiness head => .ok (Store.getReviewReadiness s head, s)
  | .recordReviewReadiness input => Store.recordReviewReadiness redactSecrets input now s
  | .tryConsumeReviewEventAuthorization head commentId author =>
    Store.tryConsumeReviewEventAuthorization head commentId author now s
  | .getReviewEventAuthorizationConsumption head =>
    (Store.getReviewEventAuthorizationConsumption head s).map fun c => (c, s)
  | .recordAuthorizedReviewPosted input => Store.recordAuthorizedReviewPosted input now s
  | .recordAuthorizedReviewNoop input => Store.recordAuthorizedReviewNoop input now s
  | .recordReviewEventAuthorizationIncident input =>
    Store.recordReviewEventAuthorizationIncident redactSecrets input now s
  | .retireFailedReviewQueueJobs head retiredError => .ok ((), Store.retireFailedReviewQueueJobs head retiredError now s)

def StoreCall.after (now : Int) (uuid : String) (s : State) (call : StoreCall) : State :=
  match call.exec redactSecrets now uuid s with
  | .error _ => s
  | .ok (_, s') => s'

/-- A call with its clock and its random id. -/
structure TimedCall where
  call : StoreCall
  now : Int
  uuid : String
  deriving DecidableEq, Repr

/-- The store after the calls, in their order. -/
def afterCalls (s : State) (calls : List TimedCall) : State :=
  calls.foldl (fun s c => c.call.after redactSecrets c.now c.uuid s) s

variable {redactSecrets}

@[simp] theorem afterCalls_nil (s : State) : afterCalls redactSecrets s [] = s := rfl

@[simp] theorem afterCalls_cons (s : State) (c : TimedCall) (calls : List TimedCall) :
    afterCalls redactSecrets s (c :: calls) =
      afterCalls redactSecrets (c.call.after redactSecrets c.now c.uuid s) calls := rfl

theorem after_of_ok {now : Int} {uuid : String} {s s' : State} {call : StoreCall} {v : call.Value}
    (h : call.exec redactSecrets now uuid s = .ok (v, s')) : call.after redactSecrets now uuid s = s' := by
  simp only [StoreCall.after, h]

theorem after_of_error {now : Int} {uuid : String} {s : State} {call : StoreCall} {e : String}
    (h : call.exec redactSecrets now uuid s = .error e) : call.after redactSecrets now uuid s = s := by
  simp only [StoreCall.after, h]

end

/-! ## Frames -/

section Frames

variable {now : Int} {s s' : State}

theorem tryClaim_consumptions {input : ReviewHeadClaimInput} {claimId : String} {attempt : ReviewHeadClaimAttempt}
    (h : tryClaimReviewHeadWithOutcome input claimId now s = .ok (attempt, s')) : s'.consumptions = s.consumptions := by
  unfold tryClaimReviewHeadWithOutcome consumeApproval at h
  split at h
  · cases h
  dsimp only at h
  split at h
  · obtain ⟨-, rfl⟩ := Prod.mk.inj (Except.ok.inj h)
    rfl
  split at h
  · obtain ⟨-, rfl⟩ := Prod.mk.inj (Except.ok.inj h)
    rfl
  split at h
  · split at h
    · obtain ⟨-, rfl⟩ := Prod.mk.inj (Except.ok.inj h)
      rfl
    · cases h
  · obtain ⟨-, rfl⟩ := Prod.mk.inj (Except.ok.inj h)
    rfl

theorem recordBaseMergeOnlySkip_frame (record : ProcessedReviewRecord) (now : Int) (s : State) :
    (recordBaseMergeOnlySkip record now s).2.claims = s.claims ∧
      (recordBaseMergeOnlySkip record now s).2.consumptions = s.consumptions := by
  unfold recordBaseMergeOnlySkip
  split
  · exact ⟨rfl, rfl⟩
  split
  · exact ⟨rfl, rfl⟩
  split
  · exact ⟨rfl, rfl⟩
  split <;> exact ⟨rfl, rfl⟩

theorem tryRecordDryRun_consumptions (input : DryRunInput) (now : Int) (s : State) :
    (tryRecordDryRun input now s).2.consumptions = s.consumptions := by
  unfold tryRecordDryRun
  dsimp only
  split <;> rfl

theorem recordReviewReadiness_frame {redactSecrets : String → String} {input : ReadinessInput} {u : Unit}
    (h : recordReviewReadiness redactSecrets input now s = .ok (u, s')) :
    s'.processed = s.processed ∧ s'.claims = s.claims := by
  unfold recordReviewReadiness at h
  split at h
  · cases h
  dsimp only at h
  split at h <;> obtain ⟨-, rfl⟩ := Prod.mk.inj (Except.ok.inj h) <;> exact ⟨rfl, rfl⟩

theorem recordReviewReadiness_consumptions {redactSecrets : String → String} {input : ReadinessInput} {u : Unit}
    (h : recordReviewReadiness redactSecrets input now s = .ok (u, s')) : s'.consumptions = s.consumptions := by
  unfold recordReviewReadiness at h
  split at h
  · cases h
  dsimp only at h
  split at h <;> obtain ⟨-, rfl⟩ := Prod.mk.inj (Except.ok.inj h) <;> rfl

theorem tryConsume_frame {head : HeadKey} {commentId : Nat} {author : String} {b : Bool}
    (h : tryConsumeReviewEventAuthorization head commentId author now s = .ok (b, s')) :
    s'.processed = s.processed ∧ s'.claims = s.claims := by
  unfold tryConsumeReviewEventAuthorization at h
  split at h
  · cases h
  split at h <;> obtain ⟨-, rfl⟩ := Prod.mk.inj (Except.ok.inj h) <;> exact ⟨rfl, rfl⟩

theorem recordIncident_frame {redactSecrets : String → String} {input : AuthorizationIncidentInput} {b : Bool}
    (h : recordReviewEventAuthorizationIncident redactSecrets input now s = .ok (b, s')) :
    s'.processed = s.processed ∧ s'.claims = s.claims := by
  unfold recordReviewEventAuthorizationIncident at h
  split at h
  · cases h
  dsimp only at h
  split at h
  · cases h
  split at h
  · cases h
  split at h
  · cases h
  split at h <;> obtain ⟨-, rfl⟩ := Prod.mk.inj (Except.ok.inj h) <;> exact ⟨rfl, rfl⟩

theorem recordAuthorizedReviewNoop_cases {input : AuthorizedNoopInput} {b : Bool}
    (h : recordAuthorizedReviewNoop input now s = .ok (b, s')) :
    s'.processed = s.processed ∧
      (s'.claims = s.claims ∨ s'.claims = s.claims.delete fun c => c.head = input.head) := by
  unfold recordAuthorizedReviewNoop at h
  split at h
  · cases h
  split at h
  · cases h
  split at h
  · obtain ⟨-, rfl⟩ := Prod.mk.inj (Except.ok.inj h)
    exact ⟨rfl, Or.inl rfl⟩
  split at h
  · cases h
  dsimp only at h
  split at h
  · cases h
  · obtain ⟨-, rfl⟩ := Prod.mk.inj (Except.ok.inj h)
    exact ⟨rfl, Or.inr rfl⟩

theorem recordAuthorizedReviewPosted_claims {input : AuthorizedPostedInput} {u : Unit}
    (h : recordAuthorizedReviewPosted input now s = .ok (u, s')) :
    s'.claims = s.claims.delete fun c => c.head = input.head := by
  unfold recordAuthorizedReviewPosted at h
  split at h
  · cases h
  split at h
  · cases h
  dsimp only at h
  split at h
  · obtain ⟨-, rfl⟩ := Prod.mk.inj (Except.ok.inj h)
    rfl
  · cases h

theorem getConsumption_state {head : HeadKey} {c : Option ReviewEventAuthorizationConsumptionRecord}
    (h : ((getReviewEventAuthorizationConsumption head s).map fun c => (c, s)) = .ok (c, s')) : s' = s := by
  cases hg : getReviewEventAuthorizationConsumption head s with
  | error e =>
    rw [hg] at h
    cases h
  | ok c =>
    rw [hg] at h
    exact (Prod.mk.inj (Except.ok.inj h)).2.symm

end Frames

end NeonDiff.Store
