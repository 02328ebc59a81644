import NeonDiff.License.Managed

/-! # Lifecycle events in any order

Renewals raise an expiry, a revocation ends it for good, and the other commands leave the licence alone: what
is left of a set of new events does not depend on the order in which they come.
-/

namespace NeonDiff.License

open NeonDiff.Lib

/-! ## One event, on the licence row -/

def CommandDetail.isRevoke : CommandDetail → Bool
  | revoke _ => true
  | _ => false

def CommandDetail.paidPeriodEnd (env : Env) : CommandDetail → Option Int
  | renewPaid _ _ currentPeriodEnd => env.dateParse currentPeriodEnd
  | _ => none

def storedExpiry (env : Env) (row : LicenseRecord) : Option Int := row.expiresAt.bind env.dateParse

def paidUntil (row : LicenseRecord) (ms : Int) : LicenseRecord :=
  { row with expiresAt := some (IsoDate.toISOString ms), status := .active }

def revokedBy (r : SubscriptionLifecycleRequest) (row : LicenseRecord) : LicenseRecord :=
  { row with
    expiresAt := some (IsoDate.toISOString (r.eventCreatedAt * 1000))
    status := .revoked
    revocationReason := revokeReasonForStatus r.subscriptionStatus }

/-- What one new event makes of the row. -/
def settle (env : Env) (row : LicenseRecord) (r : SubscriptionLifecycleRequest) : LicenseRecord :=
  if row.status = .revoked then row
  else if r.detail.isRevoke then revokedBy r row
  else match storedExpiry env row, r.detail.paidPeriodEnd env with
    | some stored, some incoming => paidUntil row (max stored incoming)
    | _, _ => row

/-! ## All events, on the licence row -/

def periodEnds (env : Env) (requests : List SubscriptionLifecycleRequest) : List Int :=
  requests.filterMap fun r => r.detail.paidPeriodEnd env

/-- Revoked by the revocation, or paid until the latest of the stored expiry and the paid period ends, or as it was. -/
def settledRow (env : Env) (row : LicenseRecord) (requests : List SubscriptionLifecycleRequest) : LicenseRecord :=
  match requests.find? fun r => r.detail.isRevoke with
  | some r => revokedBy r row
  | none => match periodEnds env requests, storedExpiry env row with
    | [], _ => row
    | _ :: _, none => row
    | ends, some stored => paidUntil row (ends.foldl max stored)

variable {env : Env}

theorem storedExpiry_paidUntil {row : LicenseRecord} {ms : Int} (h : IsoDate.isTime ms = true) :
    storedExpiry env (paidUntil row ms) = some ms := by
  unfold storedExpiry paidUntil
  rw [Option.bind_some, Env.dateParse, IsoDate.dateParse_toISOString _ h]

theorem isTime_of_storedExpiry {row : LicenseRecord} {ms : Int} (h : storedExpiry env row = some ms) :
    IsoDate.isTime ms = true := by
  obtain ⟨text, -, hparse⟩ := Option.bind_eq_some_iff.mp h
  exact IsoDate.isTime_of_dateParse hparse

theorem isTime_of_paidPeriodEnd {detail : CommandDetail} {ms : Int} (h : detail.paidPeriodEnd env = some ms) :
    IsoDate.isTime ms = true := by
  cases detail with
  | renewPaid _ _ currentPeriodEnd => exact IsoDate.isTime_of_dateParse h
  | _ => cases h

theorem isTime_max {a b : Int} (ha : IsoDate.isTime a = true) (hb : IsoDate.isTime b = true) :
    IsoDate.isTime (max a b) = true := by
  obtain h | h := max_choice a b
  · rwa [h]
  · rwa [h]

theorem settle_of_revoked {row : LicenseRecord} (h : row.status = .revoked) (r : SubscriptionLifecycleRequest) :
    settle env row r = row := by
  rw [settle, if_pos h]

theorem settle_of_idle (row : LicenseRecord) {r : SubscriptionLifecycleRequest} (hrevoke : r.detail.isRevoke = false)
    (hpaid : r.detail.paidPeriodEnd env = none) : settle env row r = row := by
  unfold settle
  rw [hrevoke, hpaid]
  split
  · rfl
  · cases storedExpiry env row with
    | none => rfl
    | some stored => rfl

theorem foldl_settle_of_revoked {row : LicenseRecord} (h : row.status = .revoked)
    (requests : List SubscriptionLifecycleRequest) : requests.foldl (settle env) row = row := by
  induction requests with
  | nil => rfl
  | cons r requests ih => rw [List.foldl_cons, settle_of_revoked h, ih]

theorem periodEnds_cons (r : SubscriptionLifecycleRequest) (requests : List SubscriptionLifecycleRequest) :
    periodEnds env (r :: requests) = (r.detail.paidPeriodEnd env).toList ++ periodEnds env requests := by
  unfold periodEnds
  cases h : r.detail.paidPeriodEnd env with
  | none => rw [List.filterMap_cons, h]; rfl
  | some ms => rw [List.filterMap_cons, h]; rfl

theorem foldl_settle_of_no_revoke {row : LicenseRecord} {stored : Int} {requests : List SubscriptionLifecycleRequest}
    (hstatus : row.status ≠ .revoked) (hstored : storedExpiry env row = some stored)
    (hnone : ∀ r ∈ requests, r.detail.isRevoke = false) :
    requests.foldl (settle env) row =
      if periodEnds env requests = [] then row else paidUntil row ((periodEnds env requests).foldl max stored) := by
  induction requests generalizing row stored with
  | nil => rfl
  | cons r requests ih =>
    have hr := hnone r List.mem_cons_self
    have hrest := fun q hq => hnone q (List.mem_cons_of_mem r hq)
    rw [List.foldl_cons, settle, if_neg hstatus, hr, if_neg Bool.false_ne_true, hstored, periodEnds_cons]
    cases hend : r.detail.paidPeriodEnd env with
    | none => exact ih hstatus hstored hrest
    | some incoming =>
      have htime := isTime_max (isTime_of_storedExpiry hstored) (isTime_of_paidPeriodEnd hend)
      have hlive : (paidUntil row (max stored incoming)).status ≠ .revoked := LicenseStatus.noConfusion
      dsimp only
      rw [ih hlive (storedExpiry_paidUntil htime) hrest, Option.toList_some, List.singleton_append,
        if_neg (List.cons_ne_nil _ _), List.foldl_cons]
      split
      · rename_i hnil
        rw [hnil]
        rfl
      · rfl

theorem revokedBy_settled {row row' : LicenseRecord} (r : SubscriptionLifecycleRequest)
    (h : row' = row ∨ ∃ ms, row' = paidUntil row ms) : revokedBy r row' = revokedBy r row := by
  obtain rfl | ⟨ms, rfl⟩ := h
  · rfl
  · rfl

theorem foldl_settle {row : LicenseRecord} {stored : Int} (hstatus : row.status ≠ .revoked)
    (hstored : storedExpiry env row = some stored) (requests : List SubscriptionLifecycleRequest) :
    requests.foldl (settle env) row = settledRow env row requests := by
  unfold settledRow
  cases hfind : requests.find? fun r => r.detail.isRevoke with
  | none =>
    have hnone : ∀ r ∈ requests, r.detail.isRevoke = false := by simpa using hfind
    rw [foldl_settle_of_no_revoke hstatus hstored hnone, hstored]
    split
    · rename_i hnil
      rw [hnil]
    · rename_i hcons
      cases hends : periodEnds env requests with
      | nil => exact absurd hends hcons
      | cons _ _ => rfl
  | some r =>
    obtain ⟨hr, before, rest, rfl, hbefore⟩ := List.find?_eq_some_iff_append.mp hfind
    have hbefore : ∀ q ∈ before, q.detail.isRevoke = false := by simpa using hbefore
    have hfront := foldl_settle_of_no_revoke hstatus hstored hbefore
    rw [List.foldl_append, List.foldl_cons]
    have hlive : before.foldl (settle env) row = row ∨ ∃ ms, before.foldl (settle env) row = paidUntil row ms := by
      rw [hfront]
      split
      · exact Or.inl rfl
      · exact Or.inr ⟨_, rfl⟩
    have hnotRevoked : (before.foldl (settle env) row).status ≠ .revoked := by
      obtain h | ⟨ms, h⟩ := hlive
      · rwa [h]
      · rw [h]
        exact LicenseStatus.noConfusion
    have hstep : settle env (before.foldl (settle env) row) r = revokedBy r row := by
      rw [settle, if_neg hnotRevoked, if_pos hr, revokedBy_settled r hlive]
    rw [hstep, foldl_settle_of_revoked rfl]

theorem find?_isRevoke_perm {requests order : List SubscriptionLifecycleRequest} (hperm : order.Perm requests)
    (hone : requests.countP (fun r => r.detail.isRevoke) ≤ 1) :
    (order.find? fun r => r.detail.isRevoke) = requests.find? fun r => r.detail.isRevoke := by
  have hfilter := hperm.filter fun r => r.detail.isRevoke
  rw [List.countP_eq_length_filter] at hone
  rw [← List.head?_filter, ← List.head?_filter]
  cases hrevokes : requests.filter fun r => r.detail.isRevoke with
  | nil =>
    rw [hrevokes] at hfilter
    rw [hfilter.eq_nil]
  | cons r rest =>
    have hrest : rest = [] := by
      rw [hrevokes, List.length_cons] at hone
      exact List.eq_nil_of_length_eq_zero (by omega)
    rw [hrevokes, hrest] at hfilter
    rw [List.perm_singleton.mp hfilter, hrest]

theorem settledRow_perm {requests order : List SubscriptionLifecycleRequest} (hperm : order.Perm requests)
    (hone : requests.countP (fun r => r.detail.isRevoke) ≤ 1) (row : LicenseRecord) :
    settledRow env row order = settledRow env row requests := by
  have hends : (periodEnds env order).Perm (periodEnds env requests) := hperm.filterMap _
  unfold settledRow
  rw [find?_isRevoke_perm hperm hone]
  cases requests.find? fun r => r.detail.isRevoke with
  | some r => rfl
  | none =>
    dsimp only
    cases hstored : storedExpiry env row with
    | none => cases periodEnds env order <;> cases periodEnds env requests <;> rfl
    | some stored =>
      have hmax : (periodEnds env order).foldl max stored = (periodEnds env requests).foldl max stored :=
        hends.foldl_eq stored
      cases ho : periodEnds env order with
      | nil =>
        rw [ho] at hends
        rw [hends.symm.eq_nil]
      | cons e es =>
        cases hq : periodEnds env requests with
        | nil =>
          rw [hq] at hends
          rw [hends.eq_nil] at ho
          cases ho
        | cons f fs =>
          rw [ho, hq] at hmax
          dsimp only
          rw [hmax]

/-! ## One event, on the store -/

def CommandDetail.passes (env : Env) (appliedAt : Int) (plan : String) (eventCreatedAt : Int) : CommandDetail → Bool
  | renewPaid _ _ currentPeriodEnd => (validatePaidPeriodEnd env currentPeriodEnd plan appliedAt).isOk
  | reconcile periodEnd => periodEnd.all fun value => (validateNonPaidPeriodEnd env value appliedAt).isOk
  | cancelAtPeriodEnd periodEnd => (validateNonPaidPeriodEnd env periodEnd appliedAt).isOk
  | paymentAttention periodEnd => periodEnd.all fun value => (validateNonPaidPeriodEnd env value appliedAt).isOk
  | revoke _ => IsoDate.isTime (eventCreatedAt * 1000)

/-- A request for the binding's subscription whose period ends pass at some time. -/
structure ValidFor (env : Env) (appliedAt : Int) (plan : String) (binding : CheckoutSubscriptionBindingRow)
    (r : SubscriptionLifecycleRequest) : Prop where
  key : r.issuanceIdempotencyKey = binding.issuanceIdempotencyKey
  account : r.providerAccountId = binding.providerAccountId
  mode : r.providerMode = binding.providerMode
  subscription : r.externalSubscriptionId = binding.externalSubscriptionId
  detail : r.detail.passes env appliedAt plan r.eventCreatedAt = true

/-- The two rows bind the same issuance to the same subscription; only the watermark may differ. -/
def SameBinding (b b' : CheckoutSubscriptionBindingRow) : Prop :=
  b'.issuanceIdempotencyKey = b.issuanceIdempotencyKey ∧ b'.licenseKeyHash = b.licenseKeyHash ∧
  b'.toCheckoutSubscriptionBindingInput = b.toCheckoutSubscriptionBindingInput

/-- The licence behind a checkout binding. -/
structure CheckoutBound (env : Env) (s : Licenses) (binding : CheckoutSubscriptionBindingRow) (row : LicenseRecord) :
    Prop where
  issuance : ∃ i, s.getIssuanceEvent binding.issuanceIdempotencyKey = some i ∧ i.source = some "checkout" ∧
    i.licenseKeyHash = binding.licenseKeyHash
  bound : ∃ b, s.getCheckoutSubscriptionBinding binding.issuanceIdempotencyKey = some b ∧ SameBinding binding b
  license : s.licenses.find? binding.licenseKeyHash = some row
  compatible : isLifecycleCompatibleEntitlement env (mapLicense row) = true

variable {s t : Licenses} {binding : CheckoutSubscriptionBindingRow} {row : LicenseRecord} {appliedAt : Int}
  {r : SubscriptionLifecycleRequest}

theorem exists_ok_of_isOk {ε α : Type} {x : Except ε α} (h : x.isOk = true) : ∃ a, x = .ok a := by
  cases x with
  | ok a => exact ⟨a, rfl⟩
  | error e => cases h

theorem dateParse_of_validatePaidPeriodEnd {currentPeriodEnd plan : String} {ms : Int}
    (h : validatePaidPeriodEnd env currentPeriodEnd plan appliedAt = .ok ms) :
    env.dateParse currentPeriodEnd = some ms := by
  unfold validatePaidPeriodEnd at h
  dsimp only at h
  split_ifs at h
  split at h
  · cases h
  · rename_i milliseconds hparse
    obtain ⟨_, -, h⟩ := bind_eq_ok h
    obtain ⟨maximumPeriodDays, -, h⟩ := bind_eq_ok h
    obtain ⟨_, -, h⟩ := bind_eq_ok h
    rw [hparse]
    exact congrArg some (Except.ok.inj h)

theorem storedExpiry_of_compatible (h : isLifecycleCompatibleEntitlement env (mapLicense row) = true) :
    ∃ stored, storedExpiry env row = some stored ∧ (mapLicense row).expiresAt.bind env.dateParse = some stored := by
  rw [isLifecycleCompatibleEntitlement, Bool.and_eq_true, Option.any_eq_true] at h
  obtain ⟨⟨expiresAt, hexpires, hparse⟩, -⟩ := h
  obtain ⟨stored, hstored⟩ := Option.isSome_iff_exists.mp hparse
  have hrow : row.expiresAt = some expiresAt := (Option.filter_eq_some_iff.mp hexpires).1
  refine ⟨stored, ?_, ?_⟩
  · rw [storedExpiry, hrow]
    exact hstored
  · rw [hexpires]
    exact hstored

theorem find?_updateLicense {hash : String} {f : LicenseRecord → LicenseRecord}
    {hf : ∀ r, (f r).licenseKeyHash = r.licenseKeyHash} (hrow : s.licenses.find? hash = some row) :
    (updateLicense hash f hf s).licenses.find? hash = some (f row) := by
  have hkey : row.licenseKeyHash = hash := Table.key_of_find? hrow
  rw [updateLicense, Table.find?_update, hrow, Option.map_some, if_pos hkey]

/-- What an accepted command leaves, besides the event it records. -/
structure Settles (env : Env) (s t : Licenses) (binding : CheckoutSubscriptionBindingRow) (row : LicenseRecord) :
    Prop where
  issuances : t.issuanceEvents = s.issuanceEvents
  events : t.lifecycleEvents = s.lifecycleEvents
  bound : ∃ b, t.getCheckoutSubscriptionBinding binding.issuanceIdempotencyKey = some b ∧ SameBinding binding b
  license : t.licenses.find? binding.licenseKeyHash = some row

theorem applyNonMutating_settles {b : CheckoutSubscriptionBindingRow} {periodEnd : Option String}
    (hbound : CheckoutBound env s binding row)
    (hperiod : (periodEnd.all fun value => (validateNonPaidPeriodEnd env value appliedAt).isOk) = true)
    (fresh : LifecycleApplyStatus) :
    ∃ result t, applyNonMutating env appliedAt r b periodEnd fresh s = .ok (result, t) ∧
      Settles env s t binding row := by
  have hcheck : (periodEnd.elim (.ok ()) fun value => validateNonPaidPeriodEnd env value appliedAt) = .ok () := by
    cases periodEnd with
    | none => rfl
    | some value =>
      obtain ⟨_, hok⟩ := exists_ok_of_isOk (hperiod : (validateNonPaidPeriodEnd env value appliedAt).isOk = true)
      exact hok
  obtain ⟨stored, hstored, hsame⟩ := hbound.bound
  rw [applyNonMutating, hcheck, ok_bind]
  split
  · exact ⟨_, s, rfl, rfl, rfl, ⟨stored, hstored, hsame⟩, hbound.license⟩
  · refine ⟨_, _, rfl, rfl, rfl, ?_, hbound.license⟩
    rw [Licenses.getCheckoutSubscriptionBinding] at hstored
    rw [Licenses.getCheckoutSubscriptionBinding, Table.find?_update, hstored, Option.map_some]
    refine ⟨_, rfl, ?_⟩
    split
    · exact hsame
    · exact hsame

theorem applyCommand_settles {b : CheckoutSubscriptionBindingRow} (hbound : CheckoutBound env s binding row)
    (hvalid : ValidFor env appliedAt row.plan binding r) (hstatus : row.status ≠ .revoked) :
    ∃ result t, applyCommand env appliedAt r (mapLicense row) b s = .ok (result, t) ∧
      Settles env s t binding (settle env row r) := by
  obtain ⟨stored, hstored, hrecord⟩ := storedExpiry_of_compatible hbound.compatible
  have hhash : row.licenseKeyHash = binding.licenseKeyHash := Table.key_of_find? hbound.license
  have hhash : (mapLicense row).licenseKeyHash = binding.licenseKeyHash := hhash
  have hdetail := hvalid.detail
  cases hcommand : r.detail with
  | renewPaid fingerprint amount currentPeriodEnd =>
    rw [hcommand] at hdetail
    obtain ⟨incoming, hincoming⟩ := exists_ok_of_isOk hdetail
    have hparse := dateParse_of_validatePaidPeriodEnd hincoming
    have htime : IsoDate.isTime (max stored incoming) = true :=
      isTime_max (isTime_of_storedExpiry hstored) (IsoDate.isTime_of_dateParse hparse)
    have hsettle : settle env row r = paidUntil row (max stored incoming) := by
      have hlive : (CommandDetail.renewPaid fingerprint amount currentPeriodEnd).isRevoke = false := rfl
      have hend : (CommandDetail.renewPaid fingerprint amount currentPeriodEnd).paidPeriodEnd env = some incoming :=
        hparse
      rw [settle, if_neg hstatus, hcommand, hlive, if_neg Bool.false_ne_true, hstored, hend]
    have hplan : (mapLicense row).plan = row.plan := rfl
    rw [hsettle, applyCommand, hcommand]
    dsimp only
    rw [hplan, hincoming, ok_bind, hrecord]
    dsimp only
    rw [isoText_eq_ok.mpr ⟨htime, rfl⟩, ok_bind, hhash]
    exact ⟨_, _, rfl, rfl, rfl, hbound.bound, find?_updateLicense hbound.license⟩
  | reconcile periodEnd =>
    rw [hcommand] at hdetail
    rw [settle_of_idle row (by rw [hcommand]; rfl) (by rw [hcommand]; rfl), applyCommand, hcommand]
    exact applyNonMutating_settles hbound hdetail _
  | cancelAtPeriodEnd periodEnd =>
    rw [hcommand] at hdetail
    rw [settle_of_idle row (by rw [hcommand]; rfl) (by rw [hcommand]; rfl), applyCommand, hcommand]
    have hperiod : ((some periodEnd).all fun value => (validateNonPaidPeriodEnd env value appliedAt).isOk) = true :=
      hdetail
    exact applyNonMutating_settles hbound hperiod _
  | paymentAttention periodEnd =>
    rw [hcommand] at hdetail
    rw [settle_of_idle row (by rw [hcommand]; rfl) (by rw [hcommand]; rfl), applyCommand, hcommand]
    exact applyNonMutating_settles hbound hdetail _
  | revoke reasonProvided =>
    rw [hcommand] at hdetail
    have hrevoke : (CommandDetail.revoke reasonProvided).isRevoke = true := rfl
    rw [settle, if_neg hstatus, hcommand, hrevoke, if_pos rfl, applyCommand, hcommand]
    dsimp only
    rw [isoText_eq_ok.mpr ⟨hdetail, rfl⟩, ok_bind, hhash]
    exact ⟨_, _, rfl, rfl, rfl, hbound.bound, find?_updateLicense hbound.license⟩

/-! ## The run -/

def isNew (s : Licenses) (r : SubscriptionLifecycleRequest) : Bool :=
  (s.getSubscriptionLifecycleEvent r.eventId).isNone

def applied (env : Env) (appliedAt : Int) (s : Licenses) (r : SubscriptionLifecycleRequest) : Licenses :=
  ((StoreCall.applyCheckoutSubscriptionLifecycle r).commit env appliedAt s).toOption.getD s

theorem applied_of_ok {result : SubscriptionLifecycleApplyResult}
    (h : applyCheckoutSubscriptionLifecycle env appliedAt r s = .ok (result, t)) : applied env appliedAt s r = t := by
  rw [applied, StoreCall.commit, h]
  rfl

theorem applied_of_error {e : StoreError} (h : applyCheckoutSubscriptionLifecycle env appliedAt r s = .error e) :
    applied env appliedAt s r = s := by
  rw [applied, StoreCall.commit, h]
  rfl

theorem apply_eq_replay (appliedAt : Int) (hbound : CheckoutBound env s binding row)
    (hkey : r.issuanceIdempotencyKey = binding.issuanceIdempotencyKey) {existing : SubscriptionLifecycleEventRow}
    (hexisting : s.getSubscriptionLifecycleEvent r.eventId = some existing) :
    applyCheckoutSubscriptionLifecycle env appliedAt r s = replayLifecycleEvent env appliedAt r existing s := by
  obtain ⟨issuance, hissuance, hsource, -⟩ := hbound.issuance
  rw [applyCheckoutSubscriptionLifecycle, hkey, hissuance]
  dsimp only
  rw [hsource, hexisting]
  rfl

theorem apply_eq_record (appliedAt : Int) (hbound : CheckoutBound env s binding row)
    (hkey : r.issuanceIdempotencyKey = binding.issuanceIdempotencyKey)
    (hnew : s.getSubscriptionLifecycleEvent r.eventId = none) :
    ∃ issuance, issuance.licenseKeyHash = binding.licenseKeyHash ∧
      applyCheckoutSubscriptionLifecycle env appliedAt r s = recordLifecycleEvent env appliedAt r issuance s := by
  obtain ⟨issuance, hissuance, hsource, hhash⟩ := hbound.issuance
  refine ⟨issuance, hhash, ?_⟩
  rw [applyCheckoutSubscriptionLifecycle, hkey, hissuance]
  dsimp only
  rw [hsource, hnew]
  rfl

theorem applied_of_known (hbound : CheckoutBound env s binding row)
    (hkey : r.issuanceIdempotencyKey = binding.issuanceIdempotencyKey) (hknown : isNew s r = false) :
    applied env appliedAt s r = s := by
  obtain ⟨existing, hexisting⟩ := Option.isSome_iff_exists.mp (Option.isNone_eq_false_iff.mp hknown)
  have happly := apply_eq_replay appliedAt hbound hkey hexisting
  cases h : replayLifecycleEvent env appliedAt r existing s with
  | error e => exact applied_of_error (happly.trans h)
  | ok p =>
    obtain ⟨result, t⟩ := p
    obtain ⟨rfl, -⟩ := replayLifecycleEvent_state h
    exact applied_of_ok (happly.trans h)

theorem sameLifecycleBinding_of_valid {b : CheckoutSubscriptionBindingRow} {plan : String} (hsame : SameBinding binding b)
    (hvalid : ValidFor env appliedAt plan binding r) : sameLifecycleBinding b r = true := by
  have haccount : b.providerAccountId = binding.providerAccountId := congrArg (·.providerAccountId) hsame.2.2
  have hmode : b.providerMode = binding.providerMode := congrArg (·.providerMode) hsame.2.2
  have hsubscription : b.externalSubscriptionId = binding.externalSubscriptionId :=
    congrArg (·.externalSubscriptionId) hsame.2.2
  simp [sameLifecycleBinding, haccount, hmode, hsubscription, hvalid.account, hvalid.mode, hvalid.subscription]

theorem record_eq (hbound : CheckoutBound env s binding row) (hvalid : ValidFor env appliedAt row.plan binding r)
    {issuance : LicenseIssuanceRow} (hhash : issuance.licenseKeyHash = binding.licenseKeyHash) :
    ∃ b, recordLifecycleEvent env appliedAt r issuance s = do
      require ((mapLicense row).status ≠ .revoked)
        ⟨.subscriptionLifecycleTerminal, "subscription entitlement is terminal"⟩
      let (result, s) ← applyCommand env appliedAt r (mapLicense row) b s
      let s ← insertLifecycleEvent (lifecycleEventRow env r (mapLicense row).licenseKeyHash result) s
      match s.getLicenseByHash (mapLicense row).licenseKeyHash with
      | none => .error ⟨.error, "subscription entitlement update did not persist"⟩
      | some updated => do
        let response ← lifecycleResult env result false updated appliedAt
        return (response, s) := by
  obtain ⟨b, hb, hsame⟩ := hbound.bound
  have hlookup : (b.licenseKeyHash = issuance.licenseKeyHash && sameLifecycleBinding b r) = true := by
    rw [sameLifecycleBinding_of_valid hsame hvalid, hhash, hsame.2.1]
    simp
  have hlicense : s.getLicenseByHash binding.licenseKeyHash = some (mapLicense row) := by
    rw [Licenses.getLicenseByHash, hbound.license, Option.map_some]
  refine ⟨b, ?_⟩
  rw [recordLifecycleEvent, hvalid.key, hb]
  dsimp only
  rw [hlookup, hhash, hlicense]
  dsimp only
  rw [hbound.compatible]
  rfl

theorem applied_of_revoked (hbound : CheckoutBound env s binding row)
    (hvalid : ValidFor env appliedAt row.plan binding r) (hstatus : row.status = .revoked) (hnew : isNew s r = true) :
    applied env appliedAt s r = s := by
  obtain ⟨issuance, hhash, happly⟩ := apply_eq_record appliedAt hbound hvalid.key (Option.isNone_iff_eq_none.mp hnew)
  obtain ⟨b, hrecord⟩ := record_eq hbound hvalid hhash
  have hrevoked : (mapLicense row).status = .revoked := hstatus
  rw [hrevoked] at hrecord
  exact applied_of_error (happly.trans hrecord)

theorem applied_of_live (hbound : CheckoutBound env s binding row)
    (hvalid : ValidFor env appliedAt row.plan binding r) (hstatus : row.status ≠ .revoked) (hnew : isNew s r = true) :
    CheckoutBound env (applied env appliedAt s r) binding (settle env row r) ∧
      ∀ id, id ≠ r.eventId → (applied env appliedAt s r).getSubscriptionLifecycleEvent id =
        s.getSubscriptionLifecycleEvent id := by
  have hnew := Option.isNone_iff_eq_none.mp hnew
  obtain ⟨issuance, hhash, happly⟩ := apply_eq_record appliedAt hbound hvalid.key hnew
  obtain ⟨b, hrecord⟩ := record_eq hbound hvalid hhash
  obtain ⟨result, s1, hcommand, hsettles⟩ := applyCommand_settles (b := b) hbound hvalid hstatus
  have hkeyHash : (mapLicense row).licenseKeyHash = binding.licenseKeyHash :=
    (Table.key_of_find? hbound.license : row.licenseKeyHash = _)
  have hlive : (mapLicense row).status ≠ .revoked := hstatus
  have hlicense : s.getLicenseByHash binding.licenseKeyHash = some (mapLicense row) := by
    rw [Licenses.getLicenseByHash, hbound.license, Option.map_some]
  have hsettled : s1.getLicenseByHash binding.licenseKeyHash = some (mapLicense (settle env row r)) := by
    rw [Licenses.getLicenseByHash, hsettles.license, Option.map_some]
  have hcompatible : isLifecycleCompatibleEntitlement env (mapLicense (settle env row r)) = true := by
    obtain ⟨later, hlater, hkeep⟩ := (applyCommand_grows hcommand).license hlicense
    rw [hsettled] at hlater
    obtain rfl := Option.some.inj hlater
    exact hkeep hbound.compatible
  -- the event's row goes in, since nothing of the command touches the ledger
  have hfree : s1.lifecycleEvents.find?
      (lifecycleEventRow env r (mapLicense row).licenseKeyHash result).eventId = none := by
    rw [hsettles.events]
    exact hnew
  have hinsert : insertLifecycleEvent (lifecycleEventRow env r (mapLicense row).licenseKeyHash result) s1 =
      .ok { s1 with lifecycleEvents := s1.lifecycleEvents.append _ hfree } := by
    rw [insertLifecycleEvent, Table.insert?_eq_some.mpr ⟨hfree, rfl⟩]
  obtain ⟨response, hresponse, -⟩ := lifecycleResult_of_compatible result false appliedAt hsettled hcompatible
  have hok : recordLifecycleEvent env appliedAt r issuance s =
      .ok (response, { s1 with lifecycleEvents := s1.lifecycleEvents.append _ hfree }) := by
    have hfinal : Licenses.getLicenseByHash { s1 with lifecycleEvents := s1.lifecycleEvents.append _ hfree }
        (mapLicense row).licenseKeyHash = some (mapLicense (settle env row r)) := by
      rw [hkeyHash]
      exact hsettled
    have hpass : decide ((mapLicense row).status ≠ .revoked) = true := decide_eq_true hlive
    rw [hrecord, require_eq_ok (u := ()) |>.mpr hpass, ok_bind, hcommand, ok_bind]
    dsimp only
    rw [hinsert, ok_bind, hfinal]
    dsimp only
    rw [hresponse]
    rfl
  rw [applied_of_ok (happly.trans hok)]
  refine ⟨⟨?_, hsettles.bound, hsettles.license, hcompatible⟩, fun id hid => ?_⟩
  · rw [Licenses.getIssuanceEvent, hsettles.issuances]
    exact hbound.issuance
  · have hother : (lifecycleEventRow env r (mapLicense row).licenseKeyHash result).eventId ≠ id := Ne.symm hid
    rw [Licenses.getSubscriptionLifecycleEvent, Table.find?_append, if_neg hother, hsettles.events]
    rfl

theorem settle_plan (row : LicenseRecord) (r : SubscriptionLifecycleRequest) : (settle env row r).plan = row.plan := by
  unfold settle
  split_ifs
  · rfl
  · rfl
  · split
    · rfl
    · rfl

theorem applied_settles (hbound : CheckoutBound env s binding row) (hvalid : ValidFor env appliedAt row.plan binding r) :
    CheckoutBound env (applied env appliedAt s r) binding (if isNew s r then settle env row r else row) ∧
      ∀ q : SubscriptionLifecycleRequest, q.eventId ≠ r.eventId → isNew (applied env appliedAt s r) q = isNew s q := by
  by_cases hnew : isNew s r = true
  · rw [if_pos hnew]
    by_cases hstatus : row.status = .revoked
    · rw [applied_of_revoked hbound hvalid hstatus hnew, settle_of_revoked hstatus]
      exact ⟨hbound, fun _ _ => rfl⟩
    · obtain ⟨hbound', hevents⟩ := applied_of_live hbound hvalid hstatus hnew
      refine ⟨hbound', fun q hq => ?_⟩
      rw [isNew, hevents q.eventId hq, isNew]
  · rw [if_neg hnew, applied_of_known hbound hvalid.key (Bool.eq_false_iff.mpr hnew)]
    exact ⟨hbound, fun _ _ => rfl⟩

theorem foldl_applied_settles {requests : List SubscriptionLifecycleRequest} (hbound : CheckoutBound env s binding row)
    (hvalid : ∀ r ∈ requests, ValidFor env appliedAt row.plan binding r)
    (hids : (requests.map (·.eventId)).Nodup) :
    CheckoutBound env (requests.foldl (applied env appliedAt) s) binding
      ((requests.filter (isNew s)).foldl (settle env) row) := by
  induction requests generalizing s row with
  | nil => exact hbound
  | cons r requests ih =>
    rw [List.map_cons, List.nodup_cons] at hids
    obtain ⟨hbound', hnew⟩ := applied_settles hbound (hvalid r List.mem_cons_self)
    have hrest : requests.filter (isNew (applied env appliedAt s r)) = requests.filter (isNew s) :=
      List.filter_congr fun q hq => hnew q fun he => hids.1 (he ▸ List.mem_map_of_mem hq)
    have hplan : (if isNew s r then settle env row r else row).plan = row.plan := by
      split
      · exact settle_plan row r
      · rfl
    have hrun := ih hbound' (fun q hq => hplan ▸ hvalid q (List.mem_cons_of_mem r hq)) hids.2
    rw [hrest] at hrun
    rw [List.foldl_cons, List.filter_cons]
    split
    · rename_i hr
      rw [if_pos hr] at hrun
      exact hrun
    · rename_i hr
      rw [if_neg hr] at hrun
      exact hrun

/-! ## Any order -/

theorem after_map_apply (requests : List SubscriptionLifecycleRequest) :
    after env s (requests.map fun r => (appliedAt, .applyCheckoutSubscriptionLifecycle r)) =
      requests.foldl (applied env appliedAt) s := by
  induction requests generalizing s with
  | nil => rfl
  | cons r requests ih => exact ih

theorem bound_of_managed {key : String} (hmanaged : BindingsManaged env s)
    (hbinding : s.getCheckoutSubscriptionBinding key = some binding)
    (hrow : s.licenses.find? binding.licenseKeyHash = some row) : CheckoutBound env s binding row := by
  have hkey : binding.issuanceIdempotencyKey = key := Table.key_of_find? hbinding
  obtain ⟨hissuance, record, hrecord, hcompat⟩ := hmanaged key binding hbinding
  rw [Licenses.getLicenseByHash, hrow] at hrecord
  obtain rfl := Option.some.inj hrecord
  exact ⟨hkey ▸ hissuance, ⟨binding, hkey ▸ hbinding, rfl, rfl, rfl⟩, hrow, hcompat⟩

/-- Whatever the order, the new events leave what they say together; those the ledger holds change nothing. -/
theorem lifecycle_order_plays_no_part (calls : List (Int × StoreCall)) {key : String}
    {requests : List SubscriptionLifecycleRequest}
    (hbinding : (after env {} calls).getCheckoutSubscriptionBinding key = some binding)
    (hrow : (after env {} calls).licenses.find? binding.licenseKeyHash = some row) (hlive : row.status ≠ .revoked)
    (hvalid : ∀ r ∈ requests, ValidFor env appliedAt row.plan binding r)
    (hids : (requests.map (·.eventId)).Nodup) (hone : requests.countP (fun r => r.detail.isRevoke) ≤ 1)
    {order : List SubscriptionLifecycleRequest} (hperm : order.Perm requests) :
    (after env (after env {} calls)
        (order.map fun r => (appliedAt, .applyCheckoutSubscriptionLifecycle r))).licenses.find?
        binding.licenseKeyHash =
      some (settledRow env row (requests.filter (isNew (after env {} calls)))) := by
  have hbound := bound_of_managed (reachable_managed calls) hbinding hrow
  obtain ⟨stored, hstored, -⟩ := storedExpiry_of_compatible hbound.compatible
  have hrun := foldl_applied_settles hbound (fun r hr => hvalid r (hperm.mem_iff.mp hr))
    ((hperm.map _).nodup_iff.mpr hids)
  have hnew := hperm.filter (isNew (after env {} calls))
  have hone : (requests.filter (isNew (after env {} calls))).countP (fun r => r.detail.isRevoke) ≤ 1 :=
    le_trans (List.filter_sublist.countP_le) hone
  rw [after_map_apply, hrun.license, foldl_settle hlive hstored, settledRow_perm hnew hone]

/-- A service whose digests are the texts themselves. -/
def plainEnv : Env := ⟨id, fun secret text => secret ++ text, fun _ => none⟩

def trialCalls : List (Int × StoreCall) :=
  [(1700000000000, .issueBoundCheckoutLicense "nd_live_1"
    ⟨"checkout-session:cs_1", "neondiff_monthly", ⟨"stripe", "acct_1", "test", "sub_1", "cs_1"⟩⟩)]

def trialBinding : CheckoutSubscriptionBindingRow :=
  { providerAccountId := "acct_1", providerMode := .test, externalSubscriptionId := "sub_1", externalCheckoutId := "cs_1"
    issuanceIdempotencyKey := "checkout-session:cs_1", licenseKeyHash := "nd_live_1" }

def trialRow : LicenseRecord :=
  { licenseKeyHash := "nd_live_1", plan := "monthly_support", repoVisibilityScope := .priv, privateRepoAllowed := true
    updateEntitlement := true, seats := 1, expiresAt := some "2023-11-21T22:13:20.000Z", status := .active }

def trialCommon (eventId : String) (eventCreatedAt : Int) : CommonRequest :=
  ⟨"checkout-session:cs_1", eventId, eventCreatedAt, "acct_1", .test, "sub_1"⟩

/-- The first payment, the cancellation and the end of the subscription. -/
def trialEvents : List SubscriptionLifecycleRequest :=
  [{ trialCommon "evt_1" 1700000010 with
      cancelAtPeriodEnd := false, providerEventType := .invoicePaid, subscriptionStatus := .active
      detail := .renewPaid "pi_1" 1900 "2023-12-14T22:13:20.000Z" },
    { trialCommon "evt_2" 1700000020 with
      cancelAtPeriodEnd := true, providerEventType := .subscriptionUpdated, subscriptionStatus := .active
      detail := .cancelAtPeriodEnd "2023-12-14T22:13:20.000Z" },
    { trialCommon "evt_3" 1700000030 with
      cancelAtPeriodEnd := false, providerEventType := .subscriptionDeleted, subscriptionStatus := .canceled
      detail := .revoke true }]

theorem trialEvents_valid : ∀ r ∈ trialEvents, ValidFor plainEnv 1700000100000 trialRow.plan trialBinding r := by
  intro r hr
  simp only [trialEvents, List.mem_cons, List.not_mem_nil, or_false] at hr
  obtain rfl | rfl | rfl := hr
  · exact ⟨rfl, rfl, rfl, rfl, by decide +kernel⟩
  · exact ⟨rfl, rfl, rfl, rfl, by decide +kernel⟩
  · exact ⟨rfl, rfl, rfl, rfl, by decide +kernel⟩

/-- Delivered last to first, the events end as they do first to last: revoked at the second of the revocation. -/
theorem trialEvents_reversed :
    (after plainEnv (after plainEnv {} trialCalls)
        (trialEvents.reverse.map fun r => (1700000100000, .applyCheckoutSubscriptionLifecycle r))).licenses.find?
        trialBinding.licenseKeyHash =
      some (settledRow plainEnv trialRow (trialEvents.filter (isNew (after plainEnv {} trialCalls)))) :=
  lifecycle_order_plays_no_part trialCalls
    (show (after plainEnv {} trialCalls).getCheckoutSubscriptionBinding "checkout-session:cs_1" = some trialBinding by
      decide +kernel)
    (by decide +kernel) (by decide) trialEvents_valid (by decide) (by decide) trialEvents.reverse_perm

end NeonDiff.License
