import NeonDiff.License.Managed

/-! # What one call does to the licence store

Each operation is inverted once: what its answer says of the store before, and which rows it wrote.
-/

namespace NeonDiff.License

open NeonDiff.Lib

variable {env : Env} {s t u : Licenses}

/-! ## Inserts -/

/-- The row that `insertLicense` inserts. -/
def licenseRow (env : Env) (rawKey : String) (input : IssueLicenseInput) : LicenseRecord where
  licenseKeyHash := Licenses.hashLicenseKey env.sha256 rawKey
  plan := input.plan
  repoVisibilityScope := input.repoVisibilityScope
  privateRepoAllowed := input.privateRepoAllowed.getD (input.repoVisibilityScope ≠ .pub)
  updateEntitlement := input.updateEntitlement.getD false
  seats := input.seats.getD 1
  expiresAt := input.expiresAt
  status := .active

/-- The row goes into its table under a free key, and the other tables stay. -/
structure InsertedLicense (row : LicenseRecord) (s t : Licenses) : Prop where
  seats : 1 ≤ row.seats
  free : s.licenses.find? row.licenseKeyHash = none
  find : ∀ k, t.licenses.find? k = if row.licenseKeyHash = k then some row else s.licenses.find? k
  frame : t = { s with licenses := t.licenses }

theorem insertLicense_spec {rawKey : String} {input : IssueLicenseInput} {record : LicenseRecord}
    (h : insertLicense env rawKey input s = .ok (record, t)) :
    record = mapLicense (licenseRow env rawKey input) ∧ InsertedLicense (licenseRow env rawKey input) s t := by
  unfold insertLicense at h
  dsimp only at h
  split_ifs at h with hseats
  split at h
  · cases h
  · rename_i licenses hins
    obtain ⟨hfree, hlicenses⟩ := Table.insert?_eq_some.mp hins
    obtain ⟨rfl, rfl⟩ := Prod.mk.inj (Except.ok.inj h)
    refine ⟨rfl, ?_, hfree, ?_, rfl⟩
    · exact not_lt.mp hseats
    · intro k
      rw [show licenses = _ from hlicenses, Table.find?_append]
      rfl

structure InsertedIssuance (row : LicenseIssuanceRow) (s t : Licenses) : Prop where
  free : s.getIssuanceEvent row.idempotencyKey = none
  find : ∀ k, t.getIssuanceEvent k = if row.idempotencyKey = k then some row else s.getIssuanceEvent k
  frame : t = { s with issuanceEvents := t.issuanceEvents }

theorem insertIssuanceEvent_spec {row : LicenseIssuanceRow} (h : insertIssuanceEvent row s = .ok t) :
    InsertedIssuance row s t := by
  unfold insertIssuanceEvent at h
  split at h
  · cases h
  · rename_i issuanceEvents hins
    obtain ⟨hfree, hevents⟩ := Table.insert?_eq_some.mp hins
    obtain rfl := Except.ok.inj h
    refine ⟨hfree, ?_, rfl⟩
    intro k
    rw [Licenses.getIssuanceEvent, show issuanceEvents = _ from hevents, Table.find?_append]
    rfl

/-- A binding's unique columns differ from those of every binding before. -/
structure InsertedBinding (row : CheckoutSubscriptionBindingRow) (s t : Licenses) : Prop where
  fresh : ∀ b ∈ s.bindings.rows, b.licenseKeyHash ≠ row.licenseKeyHash ∧ b.tuple ≠ row.tuple
  free : s.getCheckoutSubscriptionBinding row.issuanceIdempotencyKey = none
  rows : t.bindings.rows = s.bindings.rows ++ [row]
  frame : t = { s with bindings := t.bindings }

theorem insertBinding_spec {e : StoreError} {row : CheckoutSubscriptionBindingRow}
    (h : insertBinding e row s = .ok t) : InsertedBinding row s t := by
  unfold insertBinding at h
  split_ifs at h with hunique
  split at h
  · cases h
  · rename_i bindings hins
    obtain ⟨hfree, hbindings⟩ := Table.insert?_eq_some.mp hins
    obtain rfl := Except.ok.inj h
    refine ⟨?_, hfree, ?_, rfl⟩
    · intro b hb
      have hb := fun hand => hunique (List.any_eq_true.mpr ⟨b, hb, hand⟩)
      simpa [not_or] using hb
    · show bindings.rows = _
      rw [show bindings = _ from hbindings]
      rfl

structure InsertedFulfillment (row : StripeCheckoutFulfillmentRow) (s t : Licenses) : Prop where
  fresh : ∀ f ∈ s.fulfillments.rows, f.issuanceIdempotencyKey ≠ row.issuanceIdempotencyKey ∧
    f.licenseKeyHash ≠ row.licenseKeyHash ∧ f.externalCheckoutId ≠ row.externalCheckoutId ∧
    f.fulfillmentTokenHash ≠ row.fulfillmentTokenHash
  free : s.getStripeCheckoutFulfillmentForEvent row.stripeEventId = none
  rows : t.fulfillments.rows = s.fulfillments.rows ++ [row]
  frame : t = { s with fulfillments := t.fulfillments }

theorem insertFulfillment_spec {row : StripeCheckoutFulfillmentRow} (h : insertFulfillment row s = .ok t) :
    InsertedFulfillment row s t := by
  unfold insertFulfillment at h
  dsimp only at h
  split_ifs at h with hunique
  split at h
  · cases h
  · rename_i fulfillments hins
    obtain ⟨hfree, hfulfillments⟩ := Table.insert?_eq_some.mp hins
    obtain rfl := Except.ok.inj h
    refine ⟨?_, hfree, ?_, rfl⟩
    · intro f hf
      have hf := fun hand => hunique (List.any_eq_true.mpr ⟨f, hf, hand⟩)
      simpa [not_or, and_assoc] using hf
    · show fulfillments.rows = _
      rw [show fulfillments = _ from hfulfillments]
      rfl

/-! ## Issuing -/

/-- The licence that a checkout buys. -/
def checkoutLicense (input : IssueBoundCheckoutLicenseInput) (expiresAt : String) : IssueLicenseInput :=
  let policy := checkoutPolicyFor input.checkoutLookupKey
  { plan := policy.plan
    repoVisibilityScope := policy.repoVisibilityScope
    privateRepoAllowed := some policy.privateRepoAllowed
    updateEntitlement := some policy.updateEntitlement
    seats := some policy.seats
    expiresAt := some expiresAt }

def trialEnd (input : IssueBoundCheckoutLicenseInput) (issuedAt : Int) : Int :=
  issuedAt + (checkoutPolicyFor input.checkoutLookupKey).trialDays * 24 * 60 * 60 * 1000

def bindingRow (input : CheckoutSubscriptionBindingInput) (key hash : String) : CheckoutSubscriptionBindingRow :=
  { input with issuanceIdempotencyKey := key, licenseKeyHash := hash }

/-- A checkout that was issued before is answered with what the store holds. -/
structure ReplayedBound (env : Env) (rawKey : String) (input : IssueBoundCheckoutLicenseInput) (issuedAt : Int)
    (s : Licenses) (r : BoundIssuance) (existing : LicenseIssuanceRow) : Prop where
  issuance : s.getIssuanceEvent input.idempotencyKey = some existing
  source : existing.source = some "checkout"
  binding : s.getCheckoutSubscriptionBinding input.idempotencyKey = some r.binding
  record : s.getLicenseByHash existing.licenseKeyHash = some r.record
  active : r.record.status = .active
  unexpired : ∃ expiresAt, r.record.expiresAt.bind env.dateParse = some expiresAt ∧ issuedAt < expiresAt
  hash : Licenses.hashLicenseKey env.sha256 rawKey = existing.licenseKeyHash
  requestHash : existing.requestHash = boundCheckoutRequestHash env input
  same : r.binding.toCheckoutSubscriptionBindingInput = input.binding
  replayed : r.replayed = true

/-- A new checkout gets its licence, its issuance event and its binding. -/
structure IssuedBound (env : Env) (rawKey : String) (input : IssueBoundCheckoutLicenseInput) (issuedAt : Int)
    (s t : Licenses) (r : BoundIssuance) (s1 s2 : Licenses) : Prop where
  time : IsoDate.isTime (trialEnd input issuedAt) = true
  record : r.record = mapLicense (licenseRow env rawKey
    (checkoutLicense input (IsoDate.toISOString (trialEnd input issuedAt))))
  license : InsertedLicense (licenseRow env rawKey
    (checkoutLicense input (IsoDate.toISOString (trialEnd input issuedAt)))) s s1
  issuance : InsertedIssuance ⟨input.idempotencyKey, Licenses.hashLicenseKey env.sha256 rawKey,
    boundCheckoutRequestHash env input, some "checkout", some input.binding.externalCheckoutId⟩ s1 s2
  row : r.binding = bindingRow input.binding input.idempotencyKey (Licenses.hashLicenseKey env.sha256 rawKey)
  binding : InsertedBinding r.binding s2 t
  replayed : r.replayed = false

theorem validateStoredCheckoutEntitlement_ok {record : LicenseRecord} {policy : CheckoutPolicy} {now : Int} {u : Unit}
    (h : validateStoredCheckoutEntitlement env record policy now = .ok u) :
    record.status = .active ∧ ∃ expiresAt, record.expiresAt.bind env.dateParse = some expiresAt ∧ now < expiresAt := by
  unfold validateStoredCheckoutEntitlement at h
  split at h
  · cases h
  · rename_i expiresAt hexpires
    obtain ⟨_, -, h⟩ := bind_eq_ok h
    rw [require_eq_ok, Bool.and_eq_true, decide_eq_true_eq, decide_eq_true_eq] at h
    exact ⟨h.1, expiresAt, hexpires, h.2⟩

theorem issueBound_cases {rawKey : String} {input : IssueBoundCheckoutLicenseInput} {issuedAt : Int}
    {r : BoundIssuance} (h : issueBoundCheckoutLicenseInOpenTransaction env rawKey input issuedAt s = .ok (r, t)) :
    (t = s ∧ ∃ existing, ReplayedBound env rawKey input issuedAt s r existing) ∨
      ∃ s1 s2, IssuedBound env rawKey input issuedAt s t r s1 s2 := by
  unfold issueBoundCheckoutLicenseInOpenTransaction at h
  dsimp only at h
  split at h
  · rename_i existing hissuance
    obtain ⟨_, hsource, h⟩ := bind_eq_ok h
    split at h
    · cases h
    · rename_i binding hbinding
      split at h
      · cases h
      · rename_i record hrecord
        obtain ⟨_, hstored, h⟩ := bind_eq_ok h
        obtain ⟨_, hhash, h⟩ := bind_eq_ok h
        obtain ⟨_, hrequest, h⟩ := bind_eq_ok h
        obtain ⟨_, hsame, h⟩ := bind_eq_ok h
        obtain ⟨rfl, rfl⟩ := Prod.mk.inj (Except.ok.inj h)
        rw [require_eq_ok, decide_eq_true_eq] at hsource hhash hrequest hsame
        obtain ⟨hactive, hunexpired⟩ := validateStoredCheckoutEntitlement_ok hstored
        exact .inl ⟨rfl, existing, hissuance, hsource, hbinding, hrecord, hactive, hunexpired, hhash, hrequest, hsame,
          rfl⟩
  · obtain ⟨expiresAt, hexpires, h⟩ := bind_eq_ok h
    obtain ⟨hms, rfl⟩ := isoText_eq_ok.mp hexpires
    obtain ⟨⟨record, s1⟩, hlicense, h⟩ := bind_eq_ok h
    obtain ⟨s2, hissuance, h⟩ := bind_eq_ok h
    obtain ⟨s3, hbinding, h⟩ := bind_eq_ok h
    obtain ⟨rfl, rfl⟩ := Prod.mk.inj (Except.ok.inj h)
    obtain ⟨rfl, hinserted⟩ := insertLicense_spec hlicense
    exact .inr ⟨s1, s2, hms, rfl, hinserted, insertIssuanceEvent_spec hissuance, rfl, insertBinding_spec hbinding, rfl⟩

/-- What an idempotent issuance that answered did. -/
inductive IssuedIdempotent (env : Env) (rawKey : String) (input : IssueIdempotentLicenseInput) (s : Licenses) :
    LicenseRecord × Bool → Licenses → Prop where
  | replayed (existing : LicenseIssuanceRow) (record : LicenseRecord)
      (issuance : s.getIssuanceEvent input.idempotencyKey = some existing)
      (requestHash : existing.requestHash = input.requestHash)
      (hash : Licenses.hashLicenseKey env.sha256 rawKey = existing.licenseKeyHash)
      (found : s.getLicenseByHash existing.licenseKeyHash = some record) :
      IssuedIdempotent env rawKey input s (record, true) s
  | issued (s1 t : Licenses)
      (license : InsertedLicense (licenseRow env rawKey input.toIssueLicenseInput) s s1)
      (issuance : InsertedIssuance ⟨input.idempotencyKey, Licenses.hashLicenseKey env.sha256 rawKey, input.requestHash,
        input.source, input.externalRef⟩ s1 t) :
      IssuedIdempotent env rawKey input s (mapLicense (licenseRow env rawKey input.toIssueLicenseInput), false) t

theorem issueIdempotent_cases {rawKey : String} {input : IssueIdempotentLicenseInput} {r : LicenseRecord × Bool}
    (h : issueIdempotentLicense env rawKey input s = .ok (r, t)) : IssuedIdempotent env rawKey input s r t := by
  unfold issueIdempotentLicense at h
  split at h
  · rename_i existing hissuance
    obtain ⟨_, hrequest, h⟩ := bind_eq_ok h
    obtain ⟨_, hhash, h⟩ := bind_eq_ok h
    rw [require_eq_ok, decide_eq_true_eq] at hrequest hhash
    split at h
    · cases h
    · rename_i record hrecord
      obtain ⟨rfl, rfl⟩ := Prod.mk.inj (Except.ok.inj h)
      exact .replayed existing record hissuance hrequest hhash hrecord
  · obtain ⟨⟨record, s1⟩, hlicense, h⟩ := bind_eq_ok h
    obtain ⟨s2, hissuance, h⟩ := bind_eq_ok h
    obtain ⟨rfl, rfl⟩ := Prod.mk.inj (Except.ok.inj h)
    obtain ⟨rfl, hinserted⟩ := insertLicense_spec hlicense
    exact .issued s1 s2 hinserted (insertIssuanceEvent_spec hissuance)

/-- What a fulfilment that answered did, after it issued or found its checkout's licence. -/
inductive Fulfilled (validated : ValidFulfillment) (issuance : BoundIssuance) (s1 : Licenses) :
    FulfilledCheckout → Licenses → Prop where
  | replayed (existing : StripeCheckoutFulfillmentRow)
      (event : s1.getStripeCheckoutFulfillmentForEvent validated.stripeEventId = some existing)
      (eventHash : existing.eventHash = validated.eventHash)
      (key : existing.issuanceIdempotencyKey = validated.issuance.idempotencyKey)
      (hash : existing.licenseKeyHash = issuance.record.licenseKeyHash)
      (checkout : existing.externalCheckoutId = validated.issuance.binding.externalCheckoutId)
      (token : existing.fulfillmentTokenHash = validated.fulfillmentTokenHash) :
      Fulfilled validated issuance s1 ⟨{ issuance with replayed := true }, existing⟩ s1
  | fulfilled (row : StripeCheckoutFulfillmentRow) (t : Licenses)
      (event : row.stripeEventId = validated.stripeEventId) (eventHash : row.eventHash = validated.eventHash)
      (key : row.issuanceIdempotencyKey = validated.issuance.idempotencyKey)
      (hash : row.licenseKeyHash = issuance.record.licenseKeyHash)
      (checkout : row.externalCheckoutId = validated.issuance.binding.externalCheckoutId)
      (token : row.fulfillmentTokenHash = validated.fulfillmentTokenHash)
      (inserted : InsertedFulfillment row s1 t) :
      Fulfilled validated issuance s1 ⟨{ issuance with replayed := false }, row⟩ t

theorem fulfillStripeCheckout_cases {now : Int} {rawKey : String} {input : StripeCheckoutFulfillmentInput}
    {r : FulfilledCheckout} (h : fulfillStripeCheckout env now rawKey input s = .ok (r, t)) :
    ∃ validated issuance s1, validateStripeCheckoutFulfillmentInput env input now = .ok validated ∧
      issueBoundCheckoutLicenseInOpenTransaction env rawKey validated.issuance now s = .ok (issuance, s1) ∧
      Fulfilled validated issuance s1 r t := by
  obtain ⟨validated, hvalidated, h⟩ := bind_eq_ok h
  obtain ⟨⟨issuance, s1⟩, hissuance, h⟩ := bind_eq_ok h
  refine ⟨validated, issuance, s1, hvalidated, hissuance, ?_⟩
  dsimp only at h
  split at h
  · rename_i existing hevent
    obtain ⟨_, hsame, h⟩ := bind_eq_ok h
    obtain ⟨rfl, rfl⟩ := Prod.mk.inj (Except.ok.inj h)
    simp only [require_eq_ok, Bool.and_eq_true, decide_eq_true_eq] at hsame
    obtain ⟨⟨⟨⟨heventHash, hkey⟩, hhash⟩, hcheckout⟩, htoken⟩ := hsame
    exact .replayed existing hevent heventHash hkey hhash hcheckout htoken
  · obtain ⟨s2, hfulfillment, h⟩ := bind_eq_ok h
    obtain ⟨rfl, rfl⟩ := Prod.mk.inj (Except.ok.inj h)
    exact .fulfilled _ s2 rfl rfl rfl rfl rfl rfl (insertFulfillment_spec hfulfillment)

inductive BoundLegacy (key : String) (requested : CheckoutSubscriptionBindingInput) (issuance : LicenseIssuanceRow)
    (dryRun : Bool) (s : Licenses) : Licenses → Prop where
  | kept (b : CheckoutSubscriptionBindingRow) (existing : s.getCheckoutSubscriptionBinding key = some b)
      (hash : b.licenseKeyHash = issuance.licenseKeyHash)
      (same : b.toCheckoutSubscriptionBindingInput = requested) : BoundLegacy key requested issuance dryRun s s
  | dry (free : s.getCheckoutSubscriptionBinding key = none) (dry : dryRun = true) :
      BoundLegacy key requested issuance dryRun s s
  | bound (t : Licenses) (free : s.getCheckoutSubscriptionBinding key = none)
      (inserted : InsertedBinding (bindingRow requested key issuance.licenseKeyHash) s t) :
      BoundLegacy key requested issuance dryRun s t

theorem bindCheckoutSubscription_cases {key : String} {fields : BindingFields} {dryRun : Bool} {r : BindResult}
    (h : bindCheckoutSubscription env key fields dryRun s = .ok (r, t)) :
    ∃ trimmed requested issuance, readBoundedString .checkoutBindingPolicy key "issuanceIdempotencyKey" 200 = .ok trimmed ∧
      readBinding .checkoutBindingPolicy fields = .ok requested ∧ s.getIssuanceEvent trimmed = some issuance ∧
      issuance.source = some "checkout" ∧ BoundLegacy trimmed requested issuance dryRun s t := by
  obtain ⟨trimmed, htrimmed, h⟩ := bind_eq_ok h
  obtain ⟨_, -, h⟩ := bind_eq_ok h
  obtain ⟨requested, hrequested, h⟩ := bind_eq_ok h
  split at h
  · cases h
  · rename_i issuance hissuance
    obtain ⟨_, hsource, h⟩ := bind_eq_ok h
    rw [require_eq_ok, decide_eq_true_eq] at hsource
    refine ⟨trimmed, requested, issuance, htrimmed, hrequested, hissuance, hsource, ?_⟩
    split at h
    · cases h
    · obtain ⟨_, -, h⟩ := bind_eq_ok h
      obtain ⟨_, -, h⟩ := bind_eq_ok h
      split at h
      · rename_i existing hexisting
        obtain ⟨_, hsame, h⟩ := bind_eq_ok h
        obtain ⟨rfl, rfl⟩ := Prod.mk.inj (Except.ok.inj h)
        rw [require_eq_ok, Bool.and_eq_true, decide_eq_true_eq, decide_eq_true_eq] at hsame
        exact .kept existing hexisting hsame.1 hsame.2
      · rename_i hnone
        split_ifs at h with hdry
        · obtain ⟨rfl, rfl⟩ := Prod.mk.inj (Except.ok.inj h)
          exact .dry hnone hdry
        · obtain ⟨s1, hbinding, h⟩ := bind_eq_ok h
          obtain ⟨rfl, rfl⟩ := Prod.mk.inj (Except.ok.inj h)
          exact .bound _ hnone (insertBinding_spec hbinding)

/-! ## Redeeming -/

/-- The redemption of a fulfilled checkout: the row of the session, its licence, and at most the time of redemption
written. -/
structure Redeemed (env : Env) (now : Int) (rawKey : String) (s t : Licenses) (record : LicenseRecord)
    (row : StripeCheckoutFulfillmentRow) : Prop where
  stored : ∃ f ∈ s.fulfillments.rows, row = { f with redeemedAt := row.redeemedAt }
  hash : Licenses.hashLicenseKey env.sha256 rawKey = row.licenseKeyHash
  found : s.getLicenseByHash row.licenseKeyHash = some record
  active : record.status = .active
  unexpired : ∀ expiresAt, record.expiresAt.bind env.dateParse = some expiresAt → now < expiresAt
  rows : t.fulfillments.rows = s.fulfillments.rows ∨ ∃ redeemedAt, t.fulfillments.rows =
    s.fulfillments.rows.map fun f => if f.stripeEventId = row.stripeEventId then { f with redeemedAt } else f
  frame : t = { s with fulfillments := t.fulfillments }

theorem redeemStripeCheckout_cases {now : Int} {rawKey checkoutId token : String}
    {r : LicenseRecord × StripeCheckoutFulfillmentRow}
    (h : redeemStripeCheckout env now rawKey checkoutId token s = .ok (r, t)) :
    Redeemed env now rawKey s t r.1 r.2 := by
  obtain ⟨_, -, h⟩ := bind_eq_ok h
  obtain ⟨_, -, h⟩ := bind_eq_ok h
  obtain ⟨_, -, h⟩ := bind_eq_ok h
  split at h
  · cases h
  · rename_i row hrow
    have hmem : row ∈ s.fulfillments.rows := List.mem_of_find?_eq_some hrow
    obtain ⟨_, -, h⟩ := bind_eq_ok h
    obtain ⟨_, -, h⟩ := bind_eq_ok h
    obtain ⟨_, hhash, h⟩ := bind_eq_ok h
    rw [require_eq_ok, decide_eq_true_eq] at hhash
    split at h
    · cases h
    · rename_i record hrecord
      obtain ⟨_, hactive, h⟩ := bind_eq_ok h
      obtain ⟨_, hexpires, h⟩ := bind_eq_ok h
      rw [require_eq_ok, decide_eq_true_eq] at hactive
      have hunexpired : ∀ expiresAt, record.expiresAt.bind env.dateParse = some expiresAt → now < expiresAt := by
        intro expiresAt hparse
        rw [require_eq_ok, hparse] at hexpires
        simpa using hexpires
      split_ifs at h
      · obtain ⟨rfl, rfl⟩ := Prod.mk.inj (Except.ok.inj h)
        exact ⟨⟨row, hmem, rfl⟩, hhash, hrecord, hactive, hunexpired, .inl rfl, rfl⟩
      · obtain ⟨redeemedAt, -, h⟩ := bind_eq_ok h
        obtain ⟨_, -, h⟩ := bind_eq_ok h
        obtain ⟨rfl, rfl⟩ := Prod.mk.inj (Except.ok.inj h)
        exact ⟨⟨row, hmem, rfl⟩, hhash, hrecord, hactive, hunexpired, .inr ⟨some redeemedAt, rfl⟩, rfl⟩

/-! ## Lifecycle events -/

/-- What the switch over a lifecycle command did to the licences, and to the bindings. -/
inductive Commanded (env : Env) (appliedAt : Int) (input : SubscriptionLifecycleRequest) (record : LicenseRecord)
    (s : Licenses) : Licenses → Prop where
  | renewed (fingerprint : String) (amount : Int) (periodEnd : String) (stored incoming : Int)
      (detail : input.detail = .renewPaid fingerprint amount periodEnd)
      (old : record.expiresAt.bind env.dateParse = some stored)
      (paid : validatePaidPeriodEnd env periodEnd record.plan appliedAt = .ok incoming)
      (time : IsoDate.isTime (max stored incoming) = true) :
      Commanded env appliedAt input record s (updateLicense record.licenseKeyHash
        (fun r => { r with expiresAt := some (IsoDate.toISOString (max stored incoming)), status := .active })
        (fun _ => rfl) s)
  | noted (t : Licenses) (f : CheckoutSubscriptionBindingRow → CheckoutSubscriptionBindingRow)
      (same : ∀ b, (f b).toCheckoutSubscriptionBindingInput = b.toCheckoutSubscriptionBindingInput ∧
        (f b).issuanceIdempotencyKey = b.issuanceIdempotencyKey ∧ (f b).licenseKeyHash = b.licenseKeyHash)
      (rows : t.bindings.rows = s.bindings.rows.map f) (frame : t = { s with bindings := t.bindings }) :
      Commanded env appliedAt input record s t
  | revoked (detail : input.detail.command = .revoke) (time : IsoDate.isTime (input.eventCreatedAt * 1000) = true) :
      Commanded env appliedAt input record s (updateLicense record.licenseKeyHash
        (fun r => { r with
          expiresAt := some (IsoDate.toISOString (input.eventCreatedAt * 1000))
          status := .revoked
          revocationReason := revokeReasonForStatus input.subscriptionStatus }) (fun _ => rfl) s)

theorem applyNonMutating_commanded {appliedAt : Int} {input : SubscriptionLifecycleRequest} {record : LicenseRecord}
    {binding : CheckoutSubscriptionBindingRow} {periodEnd : Option String} {fresh result : LifecycleApplyStatus}
    (h : applyNonMutating env appliedAt input binding periodEnd fresh s = .ok (result, t)) :
    Commanded env appliedAt input record s t := by
  obtain ⟨_, -, h⟩ := bind_eq_ok h
  split_ifs at h
  · obtain ⟨-, rfl⟩ := Prod.mk.inj (Except.ok.inj h)
    exact .noted s id (fun b => ⟨rfl, rfl, rfl⟩) (List.map_id _).symm rfl
  · obtain ⟨-, rfl⟩ := Prod.mk.inj (Except.ok.inj h)
    refine .noted _ _ ?_ rfl rfl
    intro b
    split
    · exact ⟨rfl, rfl, rfl⟩
    · exact ⟨rfl, rfl, rfl⟩

theorem applyCommand_commanded {appliedAt : Int} {input : SubscriptionLifecycleRequest} {record : LicenseRecord}
    {binding : CheckoutSubscriptionBindingRow} {result : LifecycleApplyStatus}
    (h : applyCommand env appliedAt input record binding s = .ok (result, t)) :
    Commanded env appliedAt input record s t := by
  unfold applyCommand at h
  split at h
  · rename_i fingerprint amount periodEnd hdetail
    obtain ⟨incoming, hpaid, h⟩ := bind_eq_ok h
    split at h
    · cases h
    · rename_i stored hstored
      obtain ⟨expiresAt, hexpires, h⟩ := bind_eq_ok h
      obtain ⟨hms, rfl⟩ := isoText_eq_ok.mp hexpires
      obtain ⟨-, rfl⟩ := Prod.mk.inj (Except.ok.inj h)
      exact .renewed fingerprint amount periodEnd stored incoming hdetail hstored hpaid hms
  · exact applyNonMutating_commanded h
  · exact applyNonMutating_commanded h
  · exact applyNonMutating_commanded h
  · rename_i reasonProvided hdetail
    obtain ⟨expiry, hexpiry, h⟩ := bind_eq_ok h
    obtain ⟨hms, rfl⟩ := isoText_eq_ok.mp hexpiry
    obtain ⟨-, rfl⟩ := Prod.mk.inj (Except.ok.inj h)
    exact .revoked (by rw [hdetail]; rfl) hms

/-- The first acceptance of an event: its licence is not revoked, its command is applied, and the ledger grows. -/
structure Accepted (env : Env) (appliedAt : Int) (input : SubscriptionLifecycleRequest) (s t : Licenses)
    (record : LicenseRecord) (s1 : Licenses) : Prop where
  found : s.getLicenseByHash record.licenseKeyHash = some record
  alive : record.status ≠ .revoked
  commanded : Commanded env appliedAt input record s s1
  frame : t = { s1 with lifecycleEvents := t.lifecycleEvents }

theorem applyLifecycle_cases {appliedAt : Int} {input : SubscriptionLifecycleRequest}
    {r : SubscriptionLifecycleApplyResult}
    (h : applyCheckoutSubscriptionLifecycle env appliedAt input s = .ok (r, t)) :
    t = s ∨ ∃ record s1, Accepted env appliedAt input s t record s1 := by
  unfold applyCheckoutSubscriptionLifecycle at h
  dsimp only at h
  split at h
  · cases h
  · rename_i issuance hissuance
    obtain ⟨_, -, h⟩ := bind_eq_ok h
    split at h
    · exact .inl (replayLifecycleEvent_state h).1
    · right
      unfold recordLifecycleEvent at h
      dsimp only at h
      split at h
      · cases h
      · rename_i binding _
        obtain ⟨_, -, h⟩ := bind_eq_ok h
        split at h
        · cases h
        · rename_i record hrecord
          obtain ⟨_, -, h⟩ := bind_eq_ok h
          obtain ⟨_, halive, h⟩ := bind_eq_ok h
          obtain ⟨⟨result, s1⟩, hcommand, h⟩ := bind_eq_ok h
          obtain ⟨s2, hevent, h⟩ := bind_eq_ok h
          split at h
          · cases h
          · obtain ⟨response, -, h⟩ := bind_eq_ok h
            obtain ⟨-, rfl⟩ := Prod.mk.inj (Except.ok.inj h)
            rw [require_eq_ok, decide_eq_true_eq] at halive
            have hhash : record.licenseKeyHash = issuance.licenseKeyHash := by
              obtain ⟨row, hrow, rfl⟩ := Option.map_eq_some_iff.mp hrecord
              exact (Table.key_of_find? hrow : row.licenseKeyHash = _)
            refine ⟨record, s1, hhash ▸ hrecord, halive, applyCommand_commanded hcommand, ?_⟩
            unfold insertLifecycleEvent at hevent
            split at hevent
            · cases hevent
            · obtain rfl := Except.ok.inj hevent
              rfl

/-! ## One licence -/

/-- What a call can make of a licence row. -/
inductive LicenseChange (env : Env) (now : Int) (call : StoreCall) (r : LicenseRecord) : LicenseRecord → Prop where
  | same : LicenseChange env now call r r
  | renewed (input : SubscriptionLifecycleRequest) (fingerprint : String) (amount : Int) (periodEnd : String)
      (stored incoming : Int) (applied : call = .applyCheckoutSubscriptionLifecycle input)
      (detail : input.detail = .renewPaid fingerprint amount periodEnd) (alive : r.status ≠ .revoked)
      (old : (nonEmpty r.expiresAt).bind env.dateParse = some stored)
      (paid : validatePaidPeriodEnd env periodEnd r.plan now = .ok incoming)
      (time : IsoDate.isTime (max stored incoming) = true) :
      LicenseChange env now call r
        { r with expiresAt := some (IsoDate.toISOString (max stored incoming)), status := .active }
  | revoked (input : SubscriptionLifecycleRequest) (applied : call = .applyCheckoutSubscriptionLifecycle input)
      (detail : input.detail.command = .revoke) (alive : r.status ≠ .revoked) :
      LicenseChange env now call r
        { r with
          expiresAt := some (IsoDate.toISOString (input.eventCreatedAt * 1000))
          status := .revoked
          revocationReason := revokeReasonForStatus input.subscriptionStatus }
  | revokedByAdmin (rawKey : String) (reason : Option String) (applied : call = .revokeLicense rawKey reason) :
      LicenseChange env now call r { r with status := .revoked, revocationReason := reason }

theorem licenses_updateLicense (hash : String) (f : LicenseRecord → LicenseRecord)
    (hf : ∀ r, (f r).licenseKeyHash = r.licenseKeyHash) (s : Licenses) (k : String) :
    (updateLicense hash f hf s).licenses.find? k =
      (s.licenses.find? k).map fun r => if r.licenseKeyHash = hash then f r else r := by
  unfold updateLicense
  rw [Table.find?_update]

/-- What a call does to the licences: nothing, one new row, or a change of the row of one key. -/
inductive LicenseWrite (env : Env) (now : Int) (call : StoreCall) (s t : Licenses) : Prop where
  | kept (licenses : t.licenses = s.licenses)
  | inserted (row : LicenseRecord) (seats : 1 ≤ row.seats) (free : s.licenses.find? row.licenseKeyHash = none)
      (find : ∀ k, t.licenses.find? k = if row.licenseKeyHash = k then some row else s.licenses.find? k)
  | updated (hash : String) (f : LicenseRecord → LicenseRecord)
      (find : ∀ k, t.licenses.find? k =
        (s.licenses.find? k).map fun r => if r.licenseKeyHash = hash then f r else r)
      (change : ∀ r, s.licenses.find? hash = some r → LicenseChange env now call r (f r))

theorem InsertedLicense.write {row : LicenseRecord} (h : InsertedLicense row s t) (now : Int) (call : StoreCall)
    (hlicenses : u.licenses = t.licenses) : LicenseWrite env now call s u := by
  refine .inserted row h.seats h.free ?_
  intro k
  rw [hlicenses, h.find]

theorem InsertedIssuance.licenses {row : LicenseIssuanceRow} (h : InsertedIssuance row s t) :
    t.licenses = s.licenses := by
  rw [h.frame]

theorem InsertedBinding.licenses {row : CheckoutSubscriptionBindingRow} (h : InsertedBinding row s t) :
    t.licenses = s.licenses := by
  rw [h.frame]

theorem InsertedFulfillment.licenses {row : StripeCheckoutFulfillmentRow} (h : InsertedFulfillment row s t) :
    t.licenses = s.licenses := by
  rw [h.frame]

theorem issueBound_write {rawKey : String} {input : IssueBoundCheckoutLicenseInput} {issuedAt : Int}
    {r : BoundIssuance} (h : issueBoundCheckoutLicenseInOpenTransaction env rawKey input issuedAt s = .ok (r, t))
    (now : Int) (call : StoreCall) (hlicenses : u.licenses = t.licenses) :
    LicenseWrite env now call s u ∧ t.activations = s.activations := by
  rcases issueBound_cases h with ⟨rfl, -⟩ | ⟨s1, s2, hissued⟩
  · exact ⟨.kept hlicenses, rfl⟩
  · constructor
    · apply hissued.license.write
      rw [hlicenses, hissued.binding.licenses, hissued.issuance.licenses]
    · rw [hissued.binding.frame, hissued.issuance.frame, hissued.license.frame]

theorem Commanded.write {appliedAt : Int} {input : SubscriptionLifecycleRequest} {record : LicenseRecord}
    (h : Commanded env appliedAt input record s t) (hfound : s.getLicenseByHash record.licenseKeyHash = some record)
    (halive : record.status ≠ .revoked) (hlicenses : u.licenses = t.licenses) :
    LicenseWrite env appliedAt (.applyCheckoutSubscriptionLifecycle input) s u ∧ t.activations = s.activations := by
  obtain ⟨row, hrow, hmap⟩ := Option.map_eq_some_iff.mp hfound
  cases h with
  | renewed fingerprint amount periodEnd stored incoming detail old paid time =>
    refine ⟨.updated _ _ (fun k => by rw [hlicenses, licenses_updateLicense]) ?_, rfl⟩
    intro r hr
    obtain rfl := Option.some.inj (hrow.symm.trans hr)
    rw [← hmap] at halive old paid
    exact .renewed input fingerprint amount periodEnd stored incoming rfl detail halive old paid time
  | noted t f same rows frame =>
    rw [frame] at hlicenses ⊢
    exact ⟨.kept hlicenses, rfl⟩
  | revoked detail time =>
    refine ⟨.updated _ _ (fun k => by rw [hlicenses, licenses_updateLicense]) ?_, rfl⟩
    intro r hr
    obtain rfl := Option.some.inj (hrow.symm.trans hr)
    rw [← hmap] at halive
    exact .revoked input rfl detail halive

theorem commit_write {now : Int} {call : StoreCall} (h : call.commit env now s = .ok t) :
    LicenseWrite env now call s t ∧ (call.ofDevice = false → t.activations = s.activations) := by
  cases call with
  | issueLicense =>
    obtain ⟨record, h⟩ := map_snd_eq_ok h
    have hinserted := (insertLicense_spec h).2
    exact ⟨hinserted.write now _ rfl, fun _ => by rw [hinserted.frame]⟩
  | issueIdempotentLicense =>
    obtain ⟨answer, h⟩ := map_snd_eq_ok h
    cases issueIdempotent_cases h with
    | replayed => exact ⟨.kept rfl, fun _ => rfl⟩
    | issued s1 t license issuance =>
      exact ⟨license.write now _ issuance.licenses, fun _ => by rw [issuance.frame, license.frame]⟩
  | issueBoundCheckoutLicense =>
    obtain ⟨answer, h⟩ := map_snd_eq_ok h
    obtain ⟨validated, -, h⟩ := bind_eq_ok h
    obtain ⟨hwrite, hactivations⟩ := issueBound_write h now _ rfl
    exact ⟨hwrite, fun _ => hactivations⟩
  | fulfillStripeCheckout =>
    obtain ⟨answer, h⟩ := map_snd_eq_ok h
    obtain ⟨validated, issuance, s1, -, hissuance, hfulfilled⟩ := fulfillStripeCheckout_cases h
    cases hfulfilled with
    | replayed =>
      obtain ⟨hwrite, hactivations⟩ := issueBound_write hissuance now _ rfl
      exact ⟨hwrite, fun _ => hactivations⟩
    | fulfilled row t event eventHash key hash checkout token inserted =>
      obtain ⟨hwrite, hactivations⟩ := issueBound_write hissuance now _ inserted.licenses
      exact ⟨hwrite, fun _ => by rw [inserted.frame, hactivations]⟩
  | redeemStripeCheckout =>
    obtain ⟨answer, h⟩ := map_snd_eq_ok h
    rw [(redeemStripeCheckout_cases h).frame]
    exact ⟨.kept rfl, fun _ => rfl⟩
  | bindCheckoutSubscription =>
    obtain ⟨answer, h⟩ := map_snd_eq_ok h
    obtain ⟨trimmed, requested, issuance, -, -, -, -, hbound⟩ := bindCheckoutSubscription_cases h
    cases hbound with
    | kept => exact ⟨.kept rfl, fun _ => rfl⟩
    | dry => exact ⟨.kept rfl, fun _ => rfl⟩
    | bound t free inserted => exact ⟨.kept inserted.licenses, fun _ => by rw [inserted.frame]⟩
  | applyCheckoutSubscriptionLifecycle input =>
    obtain ⟨answer, h⟩ := map_snd_eq_ok h
    rcases applyLifecycle_cases h with rfl | ⟨record, s1, haccepted⟩
    · exact ⟨.kept rfl, fun _ => rfl⟩
    · have hlicenses : t.licenses = s1.licenses := by rw [haccepted.frame]
      obtain ⟨hwrite, hactivations⟩ := haccepted.commanded.write haccepted.found haccepted.alive hlicenses
      exact ⟨hwrite, fun _ => by rw [haccepted.frame, hactivations]⟩
  | revokeLicense rawKey reason =>
    obtain rfl := Except.ok.inj h
    refine ⟨.updated _ _ (fun k => licenses_updateLicense _ _ _ s k) ?_, fun _ => rfl⟩
    intro r hr
    exact .revokedByAdmin rawKey reason rfl
  | upsertActivation =>
    obtain rfl := Except.ok.inj h
    exact ⟨.kept rfl, nofun⟩
  | touchActivation =>
    obtain rfl := Except.ok.inj h
    exact ⟨.kept rfl, nofun⟩
  | removeActivation =>
    obtain rfl := Except.ok.inj h
    exact ⟨.kept rfl, nofun⟩

theorem commit_change {now : Int} {call : StoreCall} {k : String} {r : LicenseRecord}
    (h : call.commit env now s = .ok t) (hr : s.licenses.find? k = some r) :
    ∃ r', t.licenses.find? k = some r' ∧ LicenseChange env now call r r' := by
  cases (commit_write h).1 with
  | kept licenses => exact ⟨r, by rw [licenses, hr], .same⟩
  | inserted row seats free find =>
    refine ⟨r, ?_, .same⟩
    rw [find, if_neg, hr]
    rintro rfl
    rw [free] at hr
    cases hr
  | updated hash f find change =>
    refine ⟨_, by rw [find, hr, Option.map_some], ?_⟩
    split
    · rename_i hhash
      have hkey : r.licenseKeyHash = k := Table.key_of_find? hr
      exact change r (hhash ▸ hkey ▸ hr)
    · exact .same

theorem commit_fresh {now : Int} {call : StoreCall} {k : String} {r : LicenseRecord}
    (h : call.commit env now s = .ok t) (hk : s.licenses.find? k = none) (hr : t.licenses.find? k = some r) :
    1 ≤ r.seats := by
  cases (commit_write h).1 with
  | kept licenses =>
    rw [licenses, hk] at hr
    cases hr
  | inserted row seats free find =>
    rw [find] at hr
    split at hr
    · exact Option.some.inj hr ▸ seats
    · rw [hk] at hr
      cases hr
  | updated hash f find change =>
    rw [find, hk] at hr
    cases hr

end NeonDiff.License
