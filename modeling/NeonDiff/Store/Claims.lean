import NeonDiff.Store.Processed

/-! # Head claims: the compare-and-set before a POST -/

namespace NeonDiff.Store

open NeonDiff.Lib NeonDiff.Lib.JsText

structure ReviewHeadClaimInput where
  head : HeadKey
  claimTtlMs : Int
  ownerPid : Int
  allowProcessedOwnerSupersession : Bool := false
  requiredProcessedStatusForSupersession : Option ProcessedStatus := none
  requiredProcessedConfigRevisionForSupersession : Option String := none
  requiredProcessedErrorForSupersession : Option String := none
  consumeProcessedApprovalOnAcquire : Bool := false
  deriving DecidableEq, Repr

structure ReviewHeadClaim where
  claimId : String
  expiresAt : Int
  ownerPid : Nat
  deriving DecidableEq, Repr

inductive ReviewHeadClaimAttempt where
  | acquired (claim : ReviewHeadClaim)
  | activeClaim
  | processed
  deriving DecidableEq, Repr

/-- `/^[a-f0-9]{64}$/`. -/
def isSha256Hex (s : String) : Bool :=
  s.toList.length = 64 && s.toList.all fun c => ('a' ≤ c && c ≤ 'f') || ('0' ≤ c && c ≤ '9')

/-- The checks before the transaction. -/
def validateReviewHeadClaim (input : ReviewHeadClaimInput) : Except String Unit :=
  if input.claimTtlMs < 1 then .error "claimTtlMs must be at least 1"
  else if input.ownerPid < 1 then .error "ownerPid must be a positive integer"
  else if input.consumeProcessedApprovalOnAcquire then
    if input.requiredProcessedStatusForSupersession ≠ some .dryRun then
      .error "consuming a processed approval requires dry_run status"
    else if !(input.requiredProcessedConfigRevisionForSupersession.any isSha256Hex) then
      .error "consuming a processed approval requires a lowercase SHA-256 configuration revision"
    else .ok ()
  else .ok ()

/-- Whether the claim may stand over the processed row it finds. -/
def supersessionAllowed (input : ReviewHeadClaimInput) (row : StoredProcessedReviewRecord) : Bool :=
  input.allowProcessedOwnerSupersession &&
  (input.requiredProcessedStatusForSupersession.all fun st => row.status = st) &&
  (input.requiredProcessedConfigRevisionForSupersession.all fun rev => row.configRevision = some rev) &&
  (input.requiredProcessedErrorForSupersession.all fun e => row.error = some e)

/-- The row the consuming update may rewrite. -/
def consumable (input : ReviewHeadClaimInput) (row : StoredProcessedReviewRecord) : Bool :=
  input.requiredProcessedStatusForSupersession = some row.status &&
  input.requiredProcessedConfigRevisionForSupersession.isSome &&
  row.configRevision = input.requiredProcessedConfigRevisionForSupersession

/-- The approval is consumed: `created_at` becomes SQLite's `datetime('now')`. -/
def consumedRow (now : Int) (row : StoredProcessedReviewRecord) : StoredProcessedReviewRecord :=
  { row with
    status := .skipped
    error := some APPROVED_DRY_RUN_LIVE_CLAIM_ERROR
    createdAt := .sqlite (now / 1000) }

def ReviewHeadClaimInput.claimRow (input : ReviewHeadClaimInput) (claimId : String) (now : Int) :
    ReviewHeadClaimRow where
  head := input.head
  claimId := claimId
  ownerPid := input.ownerPid.toNat
  claimedAt := now
  expiresAt := now + input.claimTtlMs

/-- The update that consumes an approved dry run, and must change exactly one row. -/
def consumeApproval (input : ReviewHeadClaimInput) (now : Int) (s : State) : Except String State :=
  if input.consumeProcessedApprovalOnAcquire then
    if (s.processed.find? input.head).any (consumable input) then
      .ok { s with
        processed := s.processed.update
          (fun row => if row.head = input.head then consumedRow now row else row)
          (fun row => by split <;> rfl) }
    else .error "processed approval changed before it could be consumed"
  else .ok s

/-- `claimId` is the `randomUUID()` of the call. -/
def tryClaimReviewHeadWithOutcome (input : ReviewHeadClaimInput) (claimId : String) (now : Int) (s : State) :
    Outcome ReviewHeadClaimAttempt :=
  match validateReviewHeadClaim input with
  | .error e => .error e
  | .ok () =>
    -- the backstop: a claim whose holder died mid-review
    let s := sweepExpiredClaim input.head now s
    match s.claims.insert? (input.claimRow claimId now) with
    | none => .ok (.activeClaim, s)
    | some claims =>
      if (s.processed.find? input.head).any fun row => !supersessionAllowed input row then .ok (.processed, s)
      else (consumeApproval input now { s with claims := claims }).map fun s =>
        (.acquired ⟨claimId, now + input.claimTtlMs, input.ownerPid.toNat⟩, s)

def releaseReviewHeadClaim (claimId : String) (s : State) : State :=
  { s with claims := s.claims.delete fun c => c.claimId = claimId }

/-! ## The unexpired claim on a head -/

def liveClaim (s : State) (head : HeadKey) (now : Int) : Option ReviewHeadClaimRow :=
  (s.claims.find? head).filter fun c => now < c.expiresAt

theorem liveClaim_eq_some {s : State} {head : HeadKey} {now : Int} {c : ReviewHeadClaimRow} :
    liveClaim s head now = some c ↔ s.claims.find? head = some c ∧ now < c.expiresAt := by
  simp [liveClaim, Option.filter_eq_some_iff]

theorem liveClaim_eq_none {s : State} {head : HeadKey} {now : Int} :
    liveClaim s head now = none ↔ ∀ c, s.claims.find? head = some c → c.expiresAt ≤ now := by
  simp [liveClaim, Option.filter_eq_none_iff]

theorem sweepExpiredClaim_claims (head : HeadKey) (now : Int) (s : State) (k : HeadKey) :
    (sweepExpiredClaim head now s).claims.find? k = if k = head then liveClaim s k now else s.claims.find? k := by
  rw [sweepExpiredClaim, Table.find?_delete, liveClaim]
  cases hf : s.claims.find? k with
  | none => simp
  | some c =>
    have hc : c.head = k := Table.key_of_find? hf
    by_cases hk : k = head <;> simp [Option.filter, hc, hk]

@[simp] theorem sweepExpiredClaim_processed (head : HeadKey) (now : Int) (s : State) :
    (sweepExpiredClaim head now s).processed = s.processed := rfl

/-! ## What a claim attempt does -/

theorem claimTtl_pos {input : ReviewHeadClaimInput} {u : Unit} (h : validateReviewHeadClaim input = .ok u) :
    0 < input.claimTtlMs := by
  unfold validateReviewHeadClaim at h
  split at h
  · cases h
  · omega

theorem insertClaim_cases (input : ReviewHeadClaimInput) (claimId : String) (now : Int) (s : State) :
    ((∃ c, liveClaim s input.head now = some c) ∧
      (sweepExpiredClaim input.head now s).claims.insert? (input.claimRow claimId now) = none) ∨
    (liveClaim s input.head now = none ∧ ∃ claims,
      (sweepExpiredClaim input.head now s).claims.insert? (input.claimRow claimId now) = some claims ∧
      ∀ k, claims.find? k = if input.head = k then some (input.claimRow claimId now) else s.claims.find? k) := by
  have hfind : (sweepExpiredClaim input.head now s).claims.find? (input.claimRow claimId now).head =
      liveClaim s input.head now := by
    rw [sweepExpiredClaim_claims]
    exact if_pos rfl
  cases hl : liveClaim s input.head now with
  | some c =>
    refine Or.inl ⟨⟨c, rfl⟩, ?_⟩
    rw [Table.insert?, dif_neg]
    rw [hfind, hl]
    exact Option.some_ne_none c
  | none =>
    have hfree := hfind.trans hl
    refine Or.inr ⟨rfl, _, Table.insert?_eq_some.mpr ⟨hfree, rfl⟩, ?_⟩
    intro k
    rw [Table.find?_append]
    by_cases hk : input.head = k
    · rw [if_pos hk, if_pos (show (input.claimRow claimId now).head = k from hk)]
    · rw [if_neg hk, if_neg (show ¬ (input.claimRow claimId now).head = k from hk), sweepExpiredClaim_claims,
        if_neg (Ne.symm hk)]

inductive Consumed (input : ReviewHeadClaimInput) (now : Int) (s s' : State) : Prop where
  | kept (h : input.consumeProcessedApprovalOnAcquire = false) (same : s'.processed = s.processed)
  | consumed (row : StoredProcessedReviewRecord) (h : input.consumeProcessedApprovalOnAcquire = true)
      (found : s.processed.find? input.head = some row) (ok : consumable input row = true)
      (rows : ∀ k, s'.processed.find? k = if input.head = k then some (consumedRow now row) else s.processed.find? k)

theorem consumeApproval_ok {input : ReviewHeadClaimInput} {now : Int} {s s' : State}
    (h : consumeApproval input now s = .ok s') : s'.claims = s.claims ∧ Consumed input now s s' := by
  unfold consumeApproval at h
  by_cases hc : input.consumeProcessedApprovalOnAcquire = true
  · rw [if_pos hc] at h
    split at h
    · rename_i hany
      obtain ⟨row, hr, hok⟩ := (Option.any_eq_true _ _).mp hany
      obtain rfl := Except.ok.inj h
      refine ⟨rfl, .consumed row hc hr hok fun k => ?_⟩
      have hrow := head_of_find? hr
      rw [Table.find?_update]
      by_cases hk : input.head = k
      · subst hk
        rw [if_pos rfl, show s.processed.find? input.head = some row from hr, Option.map_some, if_pos hrow]
      · rw [if_neg hk]
        cases hs : s.processed.find? k with
        | none => rfl
        | some r =>
          have hrk := head_of_find? hs
          rw [Option.map_some, if_neg fun e => hk (e.symm.trans hrk)]
    · cases h
  · rw [if_neg hc] at h
    obtain rfl := Except.ok.inj h
    exact ⟨rfl, .kept (by simpa using hc) rfl⟩

/-- Everything a claim attempt that did not throw can have done. -/
inductive ClaimStep (input : ReviewHeadClaimInput) (claimId : String) (now : Int) (s : State) :
    ReviewHeadClaimAttempt → State → Prop where
  | activeClaim (c : ReviewHeadClaimRow) (held : liveClaim s input.head now = some c) :
      ClaimStep input claimId now s .activeClaim (sweepExpiredClaim input.head now s)
  | processed (row : StoredProcessedReviewRecord) (free : liveClaim s input.head now = none)
      (found : s.processed.find? input.head = some row) (refused : supersessionAllowed input row = false) :
      ClaimStep input claimId now s .processed (sweepExpiredClaim input.head now s)
  | acquired (s' : State) (ttl : 0 < input.claimTtlMs) (free : liveClaim s input.head now = none)
      (allowed : ∀ row, s.processed.find? input.head = some row → supersessionAllowed input row = true)
      (claims : ∀ k, s'.claims.find? k =
        if input.head = k then some (input.claimRow claimId now) else s.claims.find? k)
      (rows : Consumed input now s s') :
      ClaimStep input claimId now s (.acquired ⟨claimId, now + input.claimTtlMs, input.ownerPid.toNat⟩) s'

theorem tryClaim_step {input : ReviewHeadClaimInput} {claimId : String} {now : Int} {s s' : State}
    {attempt : ReviewHeadClaimAttempt} (h : tryClaimReviewHeadWithOutcome input claimId now s = .ok (attempt, s')) :
    ClaimStep input claimId now s attempt s' := by
  unfold tryClaimReviewHeadWithOutcome at h
  cases hv : validateReviewHeadClaim input with
  | error e =>
    rw [hv] at h
    cases h
  | ok u =>
    rw [hv] at h
    obtain ⟨⟨c, hl⟩, hi⟩ | ⟨hfree, claims, hi, hclaims⟩ := insertClaim_cases input claimId now s
    · simp only [hi, Except.ok.injEq, Prod.mk.injEq] at h
      obtain ⟨rfl, rfl⟩ := h
      exact .activeClaim c hl
    · simp only [hi] at h
      by_cases hany : (((sweepExpiredClaim input.head now s).processed.find? input.head).any
          fun row => !supersessionAllowed input row) = true
      · rw [if_pos hany, Except.ok.injEq, Prod.mk.injEq] at h
        obtain ⟨rfl, rfl⟩ := h
        obtain ⟨row, hr, hs⟩ := (Option.any_eq_true _ _).mp hany
        exact .processed row hfree hr (by simpa using hs)
      · rw [if_neg hany] at h
        cases hcons : consumeApproval input now { sweepExpiredClaim input.head now s with claims := claims } with
        | error e =>
          rw [show _ = _ from hcons] at h
          cases h
        | ok t =>
          rw [show _ = _ from hcons] at h
          simp only [Except.map, Except.ok.injEq, Prod.mk.injEq] at h
          obtain ⟨rfl, rfl⟩ := h
          obtain ⟨hsame, hrows⟩ := consumeApproval_ok hcons
          refine .acquired _ (claimTtl_pos hv) hfree ?_ ?_ ?_
          · intro row hr
            rw [sweepExpiredClaim_processed, hr] at hany
            simpa using hany
          · intro k
            rw [hsame]
            exact hclaims k
          · cases hrows with
            | kept hc same => exact .kept hc same
            | consumed row hc found ok rows => exact .consumed row hc found ok rows

end NeonDiff.Store
