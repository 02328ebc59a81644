import NeonDiff.License.Request

/-! # The licence store's operations

Every operation is one transaction: it answers with the store it commits, or throws and rolls back.
-/

namespace NeonDiff.License

open NeonDiff.Lib NeonDiff.Lib.JsText

/-! ## Errors -/

inductive StoreErrorKind where
  | checkoutIssuanceConflict | checkoutIssuancePolicy
  | checkoutRedemptionNotFound | checkoutRedemptionInvalid | checkoutRedemptionExpired
  | checkoutRedemptionConsumed | checkoutRedemptionTransient
  | checkoutBindingNotFound | checkoutBindingWrongSource | checkoutBindingConflict | checkoutBindingPolicy
  | subscriptionLifecycleNotFound | subscriptionLifecycleConflict | subscriptionLifecyclePolicy
  | subscriptionLifecycleTerminal
  | error
  deriving DecidableEq, Repr

structure StoreError where
  kind : StoreErrorKind
  message : String
  deriving DecidableEq, Repr

/-- `new Date(t).toISOString()`, which throws outside the time values. -/
def isoText (t : Int) : Except StoreError String :=
  if IsoDate.isTime t then .ok (IsoDate.toISOString t) else .error ⟨.error, "Invalid time value"⟩

theorem isoText_eq_ok {t : Int} {text : String} :
    isoText t = .ok text ↔ IsoDate.isTime t = true ∧ IsoDate.toISOString t = text := by
  unfold isoText
  split <;> simp_all

/-! ## Inputs -/

/-- `readBoundedCheckoutString` and `readCheckoutBindingString`: they differ in the error they throw. -/
def readBoundedString (kind : StoreErrorKind) (value field : String) (max : Nat) : Except StoreError String :=
  let trimmed := trim value.toList
  if trimmed = [] then .error ⟨kind, field ++ " is required"⟩
  else if max < length trimmed then .error ⟨kind, field ++ " is too long"⟩
  else .ok (String.ofList trimmed)

/-- `/^[A-Za-z0-9._:-]+$/`. -/
def isReferenceText (s : String) : Bool :=
  s ≠ "" && s.toList.all fun c => c.isAlphanum || c = '.' || c = '_' || c = ':' || c = '-'

/-- `/^[a-f0-9]{64}$/`. -/
def isHex64 (s : String) : Bool :=
  s.toList.length = 64 && s.toList.all fun c => c.isDigit || ('a' ≤ c && c ≤ 'f')

structure BindingFields where
  provider : String
  providerAccountId : String
  providerMode : String
  externalSubscriptionId : String
  externalCheckoutId : String
  deriving DecidableEq, Repr

structure IssueBoundCheckoutLicenseFields where
  idempotencyKey : String
  checkoutLookupKey : String
  binding : BindingFields
  deriving DecidableEq, Repr

structure IssueBoundCheckoutLicenseInput where
  idempotencyKey : String
  checkoutLookupKey : CheckoutLookupKey
  binding : CheckoutSubscriptionBindingInput
  deriving DecidableEq, Repr

structure StripeCheckoutFulfillmentInput where
  stripeEventId : String
  eventHash : String
  fulfillmentTokenHash : String
  fulfillmentExpiresAt : String
  issuance : IssueBoundCheckoutLicenseFields
  deriving DecidableEq, Repr

def readProviderMode (kind : StoreErrorKind) (value : String) : Except StoreError ProviderMode :=
  if value = "test" then .ok .test
  else if value = "live" then .ok .live
  else .error ⟨kind, "providerMode must be test or live"⟩

/-- The binding's fields, behind the checks on its provider and mode. -/
def readBinding (kind : StoreErrorKind) (fields : BindingFields) : Except StoreError CheckoutSubscriptionBindingInput := do
  require (fields.provider = "stripe") ⟨kind, "provider must be stripe"⟩
  let providerMode ← readProviderMode kind fields.providerMode
  let providerAccountId ← readBoundedString kind fields.providerAccountId "providerAccountId" 160
  let externalSubscriptionId ← readBoundedString kind fields.externalSubscriptionId "externalSubscriptionId" 160
  let externalCheckoutId ← readBoundedString kind fields.externalCheckoutId "externalCheckoutId" 160
  return ⟨providerAccountId, providerMode, externalSubscriptionId, externalCheckoutId⟩

def validateBoundCheckoutInput (input : IssueBoundCheckoutLicenseFields) :
    Except StoreError IssueBoundCheckoutLicenseInput := do
  let idempotencyKey ← readBoundedString .checkoutIssuancePolicy input.idempotencyKey "idempotencyKey" 200
  require (isReferenceText idempotencyKey)
    ⟨.checkoutIssuancePolicy, "idempotencyKey contains unsupported characters"⟩
  let lookupKeyText ← readBoundedString .checkoutIssuancePolicy input.checkoutLookupKey "checkoutLookupKey" 80
  match checkoutLookupKeyOf lookupKeyText with
  | none => .error ⟨.checkoutIssuancePolicy,
      "checkoutLookupKey must be one of: neondiff_monthly, neondiff_yearly, neondiff_org_yearly"⟩
  | some checkoutLookupKey => do
    let binding ← readBinding .checkoutIssuancePolicy input.binding
    return ⟨idempotencyKey, checkoutLookupKey, binding⟩

/-- `/^evt_[A-Za-z0-9_]+$/`. -/
def isStripeEventId (s : String) : Bool :=
  startsWith s "evt_" && s.toList.drop 4 ≠ [] && (s.toList.drop 4).all fun c => c.isAlphanum || c = '_'

structure ValidFulfillment where
  stripeEventId : String
  eventHash : String
  fulfillmentTokenHash : String
  fulfillmentExpiresAt : String
  issuance : IssueBoundCheckoutLicenseInput

def validateStripeCheckoutFulfillmentInput (env : Env) (input : StripeCheckoutFulfillmentInput) (now : Int) :
    Except StoreError ValidFulfillment := do
  let stripeEventId ← readBoundedString .checkoutIssuancePolicy input.stripeEventId "stripeEventId" 200
  require (isStripeEventId stripeEventId) ⟨.checkoutIssuancePolicy, "stripeEventId is invalid"⟩
  let eventHash ← readBoundedString .checkoutIssuancePolicy input.eventHash "eventHash" 64
  require (isHex64 eventHash) ⟨.checkoutIssuancePolicy, "eventHash is invalid"⟩
  let fulfillmentTokenHash ←
    readBoundedString .checkoutIssuancePolicy input.fulfillmentTokenHash "fulfillmentTokenHash" 64
  require (isHex64 fulfillmentTokenHash) ⟨.checkoutIssuancePolicy, "fulfillmentTokenHash is invalid"⟩
  let fulfillmentExpiresAt ←
    readBoundedString .checkoutIssuancePolicy input.fulfillmentExpiresAt "fulfillmentExpiresAt" 40
  require ((env.dateParse fulfillmentExpiresAt).any fun expiresAt =>
      IsoDate.toISOString expiresAt = fulfillmentExpiresAt && now < expiresAt && expiresAt ≤ now + 24 * 60 * 60 * 1000)
    ⟨.checkoutIssuancePolicy, "fulfillmentExpiresAt is invalid"⟩
  let issuance ← validateBoundCheckoutInput input.issuance
  return ⟨stripeEventId, eventHash, fulfillmentTokenHash, fulfillmentExpiresAt, issuance⟩

/-! ## Rows -/

structure IssueLicenseInput where
  plan : String
  repoVisibilityScope : RepoVisibilityScope
  privateRepoAllowed : Option Bool := none
  updateEntitlement : Option Bool := none
  seats : Option Int := none
  expiresAt : Option String := none
  deriving DecidableEq, Repr

def insertLicense (env : Env) (rawKey : String) (input : IssueLicenseInput) (s : Licenses) :
    Except StoreError (LicenseRecord × Licenses) :=
  let row : LicenseRecord :=
    { licenseKeyHash := Licenses.hashLicenseKey env.sha256 rawKey
      plan := input.plan
      repoVisibilityScope := input.repoVisibilityScope
      privateRepoAllowed := input.privateRepoAllowed.getD (input.repoVisibilityScope ≠ .pub)
      updateEntitlement := input.updateEntitlement.getD false
      seats := input.seats.getD 1
      expiresAt := input.expiresAt
      status := .active }
  if row.seats < 1 then .error ⟨.error, "seats must be a positive integer"⟩
  else match s.licenses.insert? row with
    | none => .error ⟨.error, "UNIQUE constraint failed: licenses.license_key_hash"⟩
    | some licenses => .ok (mapLicense row, { s with licenses })

def insertIssuanceEvent (row : LicenseIssuanceRow) (s : Licenses) : Except StoreError Licenses :=
  match s.issuanceEvents.insert? row with
  | none => .error ⟨.error, "UNIQUE constraint failed: license_issuance_events.idempotency_key"⟩
  | some issuanceEvents => .ok { s with issuanceEvents }

def CheckoutSubscriptionBindingInput.tuple (b : CheckoutSubscriptionBindingInput) : String × ProviderMode × String :=
  (b.providerAccountId, b.providerMode, b.externalSubscriptionId)

/-- The insert, or the error for a violated key or unique column. -/
def insertBinding (onConflict : StoreError) (row : CheckoutSubscriptionBindingRow) (s : Licenses) :
    Except StoreError Licenses :=
  if s.bindings.rows.any fun b => b.licenseKeyHash = row.licenseKeyHash || b.tuple = row.tuple then
    .error onConflict
  else match s.bindings.insert? row with
    | none => .error onConflict
    | some bindings => .ok { s with bindings }

def insertFulfillment (row : StripeCheckoutFulfillmentRow) (s : Licenses) : Except StoreError Licenses :=
  let onConflict : StoreError := ⟨.checkoutIssuanceConflict, "checkout correlation is already bound"⟩
  if s.fulfillments.rows.any fun f => f.issuanceIdempotencyKey = row.issuanceIdempotencyKey ||
      f.licenseKeyHash = row.licenseKeyHash || f.externalCheckoutId = row.externalCheckoutId ||
      f.fulfillmentTokenHash = row.fulfillmentTokenHash then
    .error onConflict
  else match s.fulfillments.insert? row with
    | none => .error onConflict
    | some fulfillments => .ok { s with fulfillments }

def updateLicense (licenseKeyHash : String) (f : LicenseRecord → LicenseRecord)
    (hf : ∀ r, (f r).licenseKeyHash = r.licenseKeyHash) (s : Licenses) : Licenses :=
  { s with
    licenses := s.licenses.update (fun r => if r.licenseKeyHash = licenseKeyHash then f r else r)
      fun r => by split <;> simp [hf] }

/-! ## Entitlements -/

def isLifecycleCompatibleEntitlement (env : Env) (record : LicenseRecord) : Bool :=
  (record.expiresAt.any fun e => (env.dateParse e).isSome) &&
  checkoutLookupKeys.any fun lookupKey =>
    let policy := checkoutPolicyFor lookupKey
    record.plan = policy.plan && record.seats = policy.seats &&
    record.repoVisibilityScope = policy.repoVisibilityScope &&
    record.privateRepoAllowed = policy.privateRepoAllowed && record.updateEntitlement = policy.updateEntitlement

def validateStoredCheckoutEntitlement (env : Env) (record : LicenseRecord) (policy : CheckoutPolicy) (now : Int) :
    Except StoreError Unit :=
  match record.expiresAt.bind env.dateParse with
  | none => .error ⟨.checkoutIssuanceConflict, "checkout issuance entitlement does not match server policy"⟩
  | some expiresAt => do
    require (record.plan = policy.plan && record.repoVisibilityScope = policy.repoVisibilityScope &&
        record.privateRepoAllowed = policy.privateRepoAllowed &&
        record.updateEntitlement = policy.updateEntitlement && record.seats = policy.seats)
      ⟨.checkoutIssuanceConflict, "checkout issuance entitlement does not match server policy"⟩
    require (record.status = .active && now < expiresAt)
      ⟨.checkoutIssuanceConflict, "checkout issuance is no longer usable"⟩

/-! ## Issuing -/

def issueLicense (env : Env) (rawKey : String) (input : IssueLicenseInput) (s : Licenses) :
    Except StoreError (LicenseRecord × Licenses) :=
  insertLicense env rawKey input s

structure IssueIdempotentLicenseInput extends IssueLicenseInput where
  idempotencyKey : String
  requestHash : String
  source : Option String := none
  externalRef : Option String := none

/-- The record and whether the call was a replay. -/
def issueIdempotentLicense (env : Env) (rawKey : String) (input : IssueIdempotentLicenseInput) (s : Licenses) :
    Except StoreError ((LicenseRecord × Bool) × Licenses) :=
  match s.getIssuanceEvent input.idempotencyKey with
  | some existing => do
    require (existing.requestHash = input.requestHash)
      ⟨.error, "idempotency key was already used with different request data"⟩
    require (Licenses.hashLicenseKey env.sha256 rawKey = existing.licenseKeyHash)
      ⟨.error, "idempotency key was issued with a different key derivation secret"⟩
    match s.getLicenseByHash existing.licenseKeyHash with
    | none => .error ⟨.error, "idempotency key points to a missing license record"⟩
    | some record => .ok ((record, true), s)
  | none => do
    let (record, s) ← insertLicense env rawKey input.toIssueLicenseInput s
    let s ← insertIssuanceEvent
      ⟨input.idempotencyKey, record.licenseKeyHash, input.requestHash, input.source, input.externalRef⟩ s
    return ((record, false), s)

def boundCheckoutRequestHash (env : Env) (input : IssueBoundCheckoutLicenseInput) : String :=
  env.sha256 (String.ofList (Json.stringify (.obj
    [("checkoutLookupKey", .str input.checkoutLookupKey.text), ("provider", .str "stripe"),
      ("providerAccountId", .str input.binding.providerAccountId),
      ("providerMode", .str input.binding.providerMode.text),
      ("externalSubscriptionId", .str input.binding.externalSubscriptionId),
      ("externalCheckoutId", .str input.binding.externalCheckoutId)])))

structure BoundIssuance where
  record : LicenseRecord
  binding : CheckoutSubscriptionBindingRow
  replayed : Bool

def issueBoundCheckoutLicenseInOpenTransaction (env : Env) (rawKey : String) (input : IssueBoundCheckoutLicenseInput)
    (issuedAt : Int) (s : Licenses) : Except StoreError (BoundIssuance × Licenses) :=
  let policy := checkoutPolicyFor input.checkoutLookupKey
  let requestHash := boundCheckoutRequestHash env input
  match s.getIssuanceEvent input.idempotencyKey with
  | some existing => do
    require (existing.source = some "checkout")
      ⟨.checkoutIssuanceConflict, "issuance reference is not checkout-owned"⟩
    match s.getCheckoutSubscriptionBinding input.idempotencyKey with
    | none => .error ⟨.checkoutIssuanceConflict, "legacy checkout issuance is not bound"⟩
    | some binding => match s.getLicenseByHash existing.licenseKeyHash with
      | none => .error ⟨.error, "issuance reference points to a missing license record"⟩
      | some record => do
        validateStoredCheckoutEntitlement env record policy issuedAt
        require (Licenses.hashLicenseKey env.sha256 rawKey = existing.licenseKeyHash)
          ⟨.checkoutIssuanceConflict, "issuance reference was issued with a different key derivation secret"⟩
        require (existing.requestHash = requestHash)
          ⟨.checkoutIssuanceConflict, "issuance reference was already used with different request data"⟩
        require (binding.toCheckoutSubscriptionBindingInput = input.binding)
          ⟨.checkoutIssuanceConflict, "issuance reference was already used with different checkout correlation"⟩
        return (⟨record, binding, true⟩, s)
  | none => do
    let expiresAt ← isoText (issuedAt + policy.trialDays * 24 * 60 * 60 * 1000)
    let (record, s) ← insertLicense env rawKey
      { plan := policy.plan
        repoVisibilityScope := policy.repoVisibilityScope
        privateRepoAllowed := some policy.privateRepoAllowed
        updateEntitlement := some policy.updateEntitlement
        seats := some policy.seats
        expiresAt := some expiresAt } s
    let s ← insertIssuanceEvent
      ⟨input.idempotencyKey, record.licenseKeyHash, requestHash, some "checkout", some input.binding.externalCheckoutId⟩ s
    let row : CheckoutSubscriptionBindingRow :=
      { input.binding with
        issuanceIdempotencyKey := input.idempotencyKey, licenseKeyHash := record.licenseKeyHash }
    let s ← insertBinding ⟨.checkoutIssuanceConflict, "checkout correlation is already bound"⟩ row s
    return (⟨record, row, false⟩, s)

def issueBoundCheckoutLicense (env : Env) (now : Int) (rawKey : String) (input : IssueBoundCheckoutLicenseFields)
    (s : Licenses) : Except StoreError (BoundIssuance × Licenses) := do
  let validated ← validateBoundCheckoutInput input
  issueBoundCheckoutLicenseInOpenTransaction env rawKey validated now s

structure FulfilledCheckout extends BoundIssuance where
  fulfillment : StripeCheckoutFulfillmentRow

def fulfillStripeCheckout (env : Env) (now : Int) (rawKey : String) (input : StripeCheckoutFulfillmentInput)
    (s : Licenses) : Except StoreError (FulfilledCheckout × Licenses) := do
  let validated ← validateStripeCheckoutFulfillmentInput env input now
  let (issuance, s) ← issueBoundCheckoutLicenseInOpenTransaction env rawKey validated.issuance now s
  match s.getStripeCheckoutFulfillmentForEvent validated.stripeEventId with
  | some existing => do
    require (existing.eventHash = validated.eventHash &&
        existing.issuanceIdempotencyKey = validated.issuance.idempotencyKey &&
        existing.licenseKeyHash = issuance.record.licenseKeyHash &&
        existing.externalCheckoutId = validated.issuance.binding.externalCheckoutId &&
        existing.fulfillmentTokenHash = validated.fulfillmentTokenHash)
      ⟨.checkoutIssuanceConflict, "Stripe event was already used with different checkout fulfillment data"⟩
    return (⟨{ issuance with replayed := true }, existing⟩, s)
  | none => do
    let row : StripeCheckoutFulfillmentRow :=
      { stripeEventId := validated.stripeEventId
        eventHash := validated.eventHash
        issuanceIdempotencyKey := validated.issuance.idempotencyKey
        licenseKeyHash := issuance.record.licenseKeyHash
        externalCheckoutId := validated.issuance.binding.externalCheckoutId
        fulfillmentTokenHash := validated.fulfillmentTokenHash
        fulfillmentExpiresAt := validated.fulfillmentExpiresAt }
    let s ← insertFulfillment row s
    return (⟨{ issuance with replayed := false }, row⟩, s)

/-! ## Redeeming -/

/-- `/^[A-Za-z0-9]{32,128}$/`. -/
def isFulfillmentToken (s : String) : Bool :=
  32 ≤ s.toList.length && s.toList.length ≤ 128 && s.toList.all Char.isAlphanum

def safeEqualHex (a b : String) : Bool := isHex64 a && isHex64 b && a = b

def redeemStripeCheckout (env : Env) (now : Int) (rawKey externalCheckoutId fulfillmentToken : String)
    (s : Licenses) : Except StoreError ((LicenseRecord × StripeCheckoutFulfillmentRow) × Licenses) := do
  let invalidRequest : StoreError := ⟨.checkoutRedemptionInvalid, "checkout fulfillment request is invalid"⟩
  let externalCheckoutId ←
    (readBoundedString .checkoutIssuancePolicy externalCheckoutId "externalCheckoutId" 160).mapError fun _ => invalidRequest
  let fulfillmentToken ←
    (readBoundedString .checkoutIssuancePolicy fulfillmentToken "fulfillmentToken" 128).mapError fun _ => invalidRequest
  require (isFulfillmentToken fulfillmentToken) ⟨.checkoutRedemptionInvalid, "fulfillment token is invalid"⟩
  match s.getStripeCheckoutFulfillment externalCheckoutId with
  | none => .error ⟨.checkoutRedemptionNotFound, "checkout fulfillment was not found"⟩
  | some row => do
    require ((env.dateParse row.fulfillmentExpiresAt).any (now < ·))
      ⟨.checkoutRedemptionExpired, "checkout fulfillment has expired"⟩
    require (safeEqualHex (env.sha256 fulfillmentToken) row.fulfillmentTokenHash)
      ⟨.checkoutRedemptionInvalid, "checkout fulfillment authorization failed"⟩
    require (Licenses.hashLicenseKey env.sha256 rawKey = row.licenseKeyHash)
      ⟨.checkoutRedemptionInvalid, "checkout fulfillment key derivation failed"⟩
    match s.getLicenseByHash row.licenseKeyHash with
    | none => .error ⟨.checkoutRedemptionInvalid, "checkout entitlement is unavailable"⟩
    | some record => do
      require (record.status = .active) ⟨.checkoutRedemptionInvalid, "checkout entitlement is unavailable"⟩
      require (!(record.expiresAt.bind env.dateParse).any (· ≤ now))
        ⟨.checkoutRedemptionExpired, "checkout entitlement has expired"⟩
      if nonEmpty row.redeemedAt ≠ none then return ((record, row), s)
      else do
        let redeemedAt ← (isoText now).mapError fun _ => ⟨.checkoutRedemptionTransient, "checkout redemption failed"⟩
        -- the guarded update takes a row whose column is null
        require row.redeemedAt.isNone ⟨.checkoutRedemptionConsumed, "checkout fulfillment was already consumed"⟩
        let fulfillments := s.fulfillments.update
          (fun f => if f.stripeEventId = row.stripeEventId then { f with redeemedAt := some redeemedAt } else f)
          fun f => by split <;> rfl
        return ((record, { row with redeemedAt := some redeemedAt }), { s with fulfillments })

/-! ## Binding a legacy issuance -/

inductive BindResult where
  | bound | alreadyBound | wouldBind
  deriving DecidableEq, Repr

def bindCheckoutSubscription (env : Env) (issuanceIdempotencyKey : String) (fields : BindingFields) (dryRun : Bool)
    (s : Licenses) : Except StoreError (BindResult × Licenses) := do
  let key ← readBoundedString .checkoutBindingPolicy issuanceIdempotencyKey "issuanceIdempotencyKey" 200
  require (isReferenceText key)
    ⟨.checkoutBindingPolicy, "issuanceIdempotencyKey contains unsupported characters"⟩
  let requested ← readBinding .checkoutBindingPolicy fields
  match s.getIssuanceEvent key with
  | none => .error ⟨.checkoutBindingNotFound, "checkout issuance was not found"⟩
  | some issuance => do
    require (issuance.source = some "checkout") ⟨.checkoutBindingWrongSource, "issuance is not checkout-owned"⟩
    match s.getLicenseByHash issuance.licenseKeyHash with
    | none => .error ⟨.checkoutBindingNotFound, "checkout issuance license was not found"⟩
    | some record => do
      require (isLifecycleCompatibleEntitlement env record)
        ⟨.checkoutBindingConflict, "checkout issuance entitlement is incompatible with subscription lifecycle"⟩
      require (checkoutLookupKeyForPlan record.plan).isSome
        ⟨.checkoutBindingConflict, "checkout issuance plan has no authoritative lookup key"⟩
      match s.getCheckoutSubscriptionBinding key with
      | some existing => do
        require (existing.licenseKeyHash = issuance.licenseKeyHash &&
            existing.toCheckoutSubscriptionBindingInput = requested)
          ⟨.checkoutBindingConflict, "checkout issuance is already bound to different correlation"⟩
        return (.alreadyBound, s)
      | none =>
        if dryRun then return (.wouldBind, s)
        else do
          let row : CheckoutSubscriptionBindingRow :=
            { requested with issuanceIdempotencyKey := key, licenseKeyHash := issuance.licenseKeyHash }
          let s ← insertBinding ⟨.checkoutBindingConflict, "checkout correlation is already bound"⟩ row s
          return (.bound, s)

/-! ## Subscription lifecycle events -/

structure SubscriptionLifecycleEntitlement where
  status : LicenseStatus
  plan : String
  seats : Int
  expiresAt : String
  deriving DecidableEq, Repr

structure SubscriptionLifecycleApplyResult where
  status : LifecycleApplyStatus
  replayed : Bool
  entitlement : SubscriptionLifecycleEntitlement
  deriving DecidableEq, Repr

def lifecycleResult (env : Env) (status : LifecycleApplyStatus) (replayed : Bool) (record : LicenseRecord)
    (appliedAt : Int) : Except StoreError SubscriptionLifecycleApplyResult :=
  let invalidExpiry : StoreError := ⟨.subscriptionLifecyclePolicy, "subscription entitlement expiry is invalid"⟩
  match nonEmpty record.expiresAt with
  | none => .error invalidExpiry
  | some expiresAt => match env.dateParse expiresAt with
    | none => .error invalidExpiry
    | some expiresAtMs =>
      let effectiveStatus :=
        if record.status = .active && expiresAtMs ≤ appliedAt then LicenseStatus.expired else record.status
      .ok ⟨status, replayed, ⟨effectiveStatus, record.plan, record.seats, expiresAt⟩⟩

def maximumPeriodDaysForPlan (plan : String) : Except StoreError Int :=
  match checkoutLookupKeyForPlan plan with
  | some key => .ok (checkoutPolicyFor key).maximumPeriodDays
  | none => .error ⟨.subscriptionLifecyclePolicy, "subscription entitlement plan is invalid"⟩

def validatePaidPeriodEnd (env : Env) (currentPeriodEnd plan : String) (now : Int) : Except StoreError Int :=
  let invalid : StoreError := ⟨.subscriptionLifecyclePolicy, "paid period end is invalid"⟩
  if !isStrictTimestamp currentPeriodEnd then .error invalid
  else match env.dateParse currentPeriodEnd with
    | none => .error invalid
    | some milliseconds => do
      require (IsoDate.toISOString milliseconds = currentPeriodEnd && now < milliseconds) invalid
      let maximumPeriodDays ← maximumPeriodDaysForPlan plan
      require (milliseconds ≤ now + maximumPeriodDays * 24 * 60 * 60 * 1000)
        ⟨.subscriptionLifecyclePolicy, "paid period end exceeds the plan maximum"⟩
      return milliseconds

def validateNonPaidPeriodEnd (env : Env) (value : String) (now : Int) : Except StoreError Unit :=
  require ((env.dateParse value).any (now < ·))
    ⟨.subscriptionLifecyclePolicy, "cancellation period end is invalid"⟩

def isStaleNonMutatingEvent (eventCreatedAt : Int) (lastEventCreatedAt : Option Int) : Bool :=
  lastEventCreatedAt.any (eventCreatedAt < ·)

/-- The branch of `reconcile`, `cancel_at_period_end` and `payment_attention`, which leave the licence alone. -/
def applyNonMutating (env : Env) (appliedAt : Int) (input : SubscriptionLifecycleRequest)
    (binding : CheckoutSubscriptionBindingRow) (periodEnd : Option String) (fresh : LifecycleApplyStatus)
    (s : Licenses) : Except StoreError (LifecycleApplyStatus × Licenses) := do
  periodEnd.elim (.ok ()) fun value => validateNonPaidPeriodEnd env value appliedAt
  if isStaleNonMutatingEvent input.eventCreatedAt binding.lastNonMutatingEventCreatedAt then
    return (.ignoredStale, s)
  else
    let bindings := s.bindings.update
      (fun b => if b.issuanceIdempotencyKey = input.issuanceIdempotencyKey then
          { b with
            lastNonMutatingEventCreatedAt :=
              some (max (b.lastNonMutatingEventCreatedAt.getD input.eventCreatedAt) input.eventCreatedAt) }
        else b)
      fun b => by split <;> rfl
    return (fresh, { s with bindings })

/-- The `switch` over the command. -/
def applyCommand (env : Env) (appliedAt : Int) (input : SubscriptionLifecycleRequest) (record : LicenseRecord)
    (binding : CheckoutSubscriptionBindingRow) (s : Licenses) :
    Except StoreError (LifecycleApplyStatus × Licenses) :=
  match input.detail with
  | .renewPaid _ _ currentPeriodEnd => do
    let incomingPeriodEnd ← validatePaidPeriodEnd env currentPeriodEnd record.plan appliedAt
    match record.expiresAt.bind env.dateParse with
    | none => .error ⟨.subscriptionLifecyclePolicy, "subscription entitlement expiry is invalid"⟩
    | some storedPeriodEnd => do
      let expiresAt ← isoText (max storedPeriodEnd incomingPeriodEnd)
      return (.updated, updateLicense record.licenseKeyHash
        (fun r => { r with expiresAt := some expiresAt, status := .active }) (fun _ => rfl) s)
  | .reconcile periodEnd => applyNonMutating env appliedAt input binding periodEnd .updated s
  | .cancelAtPeriodEnd periodEnd => applyNonMutating env appliedAt input binding (some periodEnd) .updated s
  | .paymentAttention periodEnd => applyNonMutating env appliedAt input binding periodEnd .paymentAttention s
  | .revoke _ => do
    let terminalExpiry ← isoText (input.eventCreatedAt * 1000)
    return (.terminallyRevoked, updateLicense record.licenseKeyHash
      (fun r => { r with
        expiresAt := some terminalExpiry
        status := .revoked
        revocationReason := revokeReasonForStatus input.subscriptionStatus }) (fun _ => rfl) s)

def insertLifecycleEvent (row : SubscriptionLifecycleEventRow) (s : Licenses) : Except StoreError Licenses :=
  match s.lifecycleEvents.insert? row with
  | none => .error ⟨.error, "UNIQUE constraint failed: license_subscription_lifecycle_events.event_id"⟩
  | some lifecycleEvents => .ok { s with lifecycleEvents }

def lifecycleEventRow (env : Env) (input : SubscriptionLifecycleRequest) (licenseKeyHash : String)
    (result : LifecycleApplyStatus) : SubscriptionLifecycleEventRow :=
  { eventId := input.eventId
    issuanceIdempotencyKey := input.issuanceIdempotencyKey
    licenseKeyHash
    externalSubscriptionId := input.externalSubscriptionId
    requestHash := canonicalSubscriptionLifecycleRequestHash env input
    eventCreatedAt := input.eventCreatedAt
    providerAccountId := input.providerAccountId
    providerMode := input.providerMode
    providerEventType := input.providerEventType
    command := input.detail.command
    paymentReferenceFingerprint := match input.detail with
      | .renewPaid fingerprint _ _ => some fingerprint
      | _ => none
    result }

/-- `sameLifecycleBinding`. -/
def sameLifecycleBinding (binding : CheckoutSubscriptionBindingRow) (input : SubscriptionLifecycleRequest) : Bool :=
  binding.providerAccountId = input.providerAccountId && binding.providerMode = input.providerMode &&
  binding.externalSubscriptionId = input.externalSubscriptionId

/-- The answer to an event that the ledger holds. -/
def replayLifecycleEvent (env : Env) (appliedAt : Int) (input : SubscriptionLifecycleRequest)
    (existing : SubscriptionLifecycleEventRow) (s : Licenses) :
    Except StoreError (SubscriptionLifecycleApplyResult × Licenses) := do
  require (existing.requestHash = canonicalSubscriptionLifecycleRequestHash env input)
    ⟨.subscriptionLifecycleConflict, "subscription lifecycle event conflicts with an existing event"⟩
  match s.getLicenseByHash existing.licenseKeyHash with
  | none => .error ⟨.error, "subscription lifecycle event points to a missing license"⟩
  | some record => do
    require (isLifecycleCompatibleEntitlement env record)
      ⟨.subscriptionLifecyclePolicy, "subscription entitlement is incompatible with lifecycle management"⟩
    let response ← lifecycleResult env .replayed true record appliedAt
    return (response, s)

/-- The first acceptance of an event. -/
def recordLifecycleEvent (env : Env) (appliedAt : Int) (input : SubscriptionLifecycleRequest)
    (issuance : LicenseIssuanceRow) (s : Licenses) :
    Except StoreError (SubscriptionLifecycleApplyResult × Licenses) :=
  let notFound : StoreError := ⟨.subscriptionLifecycleNotFound, "checkout subscription binding was not found"⟩
  match s.getCheckoutSubscriptionBinding input.issuanceIdempotencyKey with
  | none => .error notFound
  | some binding => do
    require (binding.licenseKeyHash = issuance.licenseKeyHash && sameLifecycleBinding binding input) notFound
    match s.getLicenseByHash issuance.licenseKeyHash with
    | none => .error notFound
    | some record => do
      require (isLifecycleCompatibleEntitlement env record)
        ⟨.subscriptionLifecyclePolicy, "subscription entitlement is incompatible with lifecycle management"⟩
      require (record.status ≠ .revoked) ⟨.subscriptionLifecycleTerminal, "subscription entitlement is terminal"⟩
      let (result, s) ← applyCommand env appliedAt input record binding s
      let s ← insertLifecycleEvent (lifecycleEventRow env input record.licenseKeyHash result) s
      match s.getLicenseByHash record.licenseKeyHash with
      | none => .error ⟨.error, "subscription entitlement update did not persist"⟩
      | some updated => do
        let response ← lifecycleResult env result false updated appliedAt
        return (response, s)

def applyCheckoutSubscriptionLifecycle (env : Env) (appliedAt : Int) (input : SubscriptionLifecycleRequest)
    (s : Licenses) : Except StoreError (SubscriptionLifecycleApplyResult × Licenses) :=
  let notFound : StoreError := ⟨.subscriptionLifecycleNotFound, "checkout subscription binding was not found"⟩
  match s.getIssuanceEvent input.issuanceIdempotencyKey with
  | none => .error notFound
  | some issuance => do
    require (issuance.source = some "checkout") notFound
    match s.getSubscriptionLifecycleEvent input.eventId with
    | some existing => replayLifecycleEvent env appliedAt input existing s
    | none => recordLifecycleEvent env appliedAt input issuance s

/-- `isBoundedLookupValue`. -/
def isBoundedLookupValue (value : String) (maxLength : Nat) : Bool :=
  value ≠ "" && length value.toList ≤ maxLength && trim value.toList = value.toList

def resolveCheckoutIssuanceIdempotencyKey (providerAccountId : String) (providerMode : ProviderMode)
    (externalSubscriptionId : String) (s : Licenses) : Option String :=
  if isBoundedLookupValue providerAccountId 160 && isBoundedLookupValue externalSubscriptionId 160 then
    (s.bindings.rows.find? fun b => b.tuple = (providerAccountId, providerMode, externalSubscriptionId)).map
      (·.issuanceIdempotencyKey)
  else none

/-! ## The admin's and the devices' operations -/

def revokeLicense (env : Env) (rawKey : String) (reason : Option String) (s : Licenses) : Licenses :=
  updateLicense (Licenses.hashLicenseKey env.sha256 rawKey)
    (fun r => { r with status := .revoked, revocationReason := reason }) (fun _ => rfl) s

/-- A first activation is inserted; a later one refreshes `last_seen_at` and binds a repository where none is bound. -/
def upsertActivation (licenseKeyHash machineId : String) (repo : Option String) (now : String) (s : Licenses) :
    Licenses :=
  let row := (s.activations.find? (licenseKeyHash, machineId)).elim ⟨licenseKeyHash, machineId, repo, now, now⟩
    fun row => { row with repo := row.repo.or repo, lastSeenAt := now }
  { s with activations := s.activations.upsert row }

def touchActivation (licenseKeyHash machineId now : String) (s : Licenses) : Licenses :=
  { s with
    activations := s.activations.update
      (fun row => if row.key = (licenseKeyHash, machineId) then { row with lastSeenAt := now } else row)
      fun row => by split <;> rfl }

def removeActivation (licenseKeyHash machineId : String) (s : Licenses) : Licenses :=
  { s with activations := s.activations.delete fun row => row.key = (licenseKeyHash, machineId) }

/-! ## Runs of the store -/

inductive StoreCall where
  | issueLicense (rawKey : String) (input : IssueLicenseInput)
  | issueIdempotentLicense (rawKey : String) (input : IssueIdempotentLicenseInput)
  | issueBoundCheckoutLicense (rawKey : String) (input : IssueBoundCheckoutLicenseFields)
  | fulfillStripeCheckout (rawKey : String) (input : StripeCheckoutFulfillmentInput)
  | redeemStripeCheckout (rawKey externalCheckoutId fulfillmentToken : String)
  | bindCheckoutSubscription (issuanceIdempotencyKey : String) (fields : BindingFields) (dryRun : Bool)
  | applyCheckoutSubscriptionLifecycle (input : SubscriptionLifecycleRequest)
  | revokeLicense (rawKey : String) (reason : Option String)
  | upsertActivation (licenseKeyHash machineId : String) (repo : Option String)
  | touchActivation (licenseKeyHash machineId : String)
  | removeActivation (licenseKeyHash machineId : String)

def StoreCall.ofDevice : StoreCall → Bool
  | upsertActivation .. => true
  | touchActivation .. => true
  | removeActivation .. => true
  | _ => false

def StoreCall.commit (env : Env) (now : Int) (s : Licenses) : StoreCall → Except StoreError Licenses
  | issueLicense rawKey input => Prod.snd <$> License.issueLicense env rawKey input s
  | issueIdempotentLicense rawKey input => Prod.snd <$> License.issueIdempotentLicense env rawKey input s
  | issueBoundCheckoutLicense rawKey input => Prod.snd <$> License.issueBoundCheckoutLicense env now rawKey input s
  | fulfillStripeCheckout rawKey input => Prod.snd <$> License.fulfillStripeCheckout env now rawKey input s
  | redeemStripeCheckout rawKey externalCheckoutId token =>
    Prod.snd <$> License.redeemStripeCheckout env now rawKey externalCheckoutId token s
  | bindCheckoutSubscription key fields dryRun =>
    Prod.snd <$> License.bindCheckoutSubscription env key fields dryRun s
  | applyCheckoutSubscriptionLifecycle input =>
    Prod.snd <$> License.applyCheckoutSubscriptionLifecycle env now input s
  | revokeLicense rawKey reason => .ok (License.revokeLicense env rawKey reason s)
  | upsertActivation hash machine repo =>
    .ok (License.upsertActivation hash machine repo (IsoDate.toISOString now) s)
  | touchActivation hash machine => .ok (License.touchActivation hash machine (IsoDate.toISOString now) s)
  | removeActivation hash machine => .ok (License.removeActivation hash machine s)

/-- The store after calls at their times; a call that throws leaves it as it was. -/
def after (env : Env) (s : Licenses) : List (Int × StoreCall) → Licenses
  | [] => s
  | (now, call) :: calls => after env ((call.commit env now s).toOption.getD s) calls

end NeonDiff.License
