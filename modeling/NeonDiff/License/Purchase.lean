import NeonDiff.Lib.Program
import NeonDiff.License.Store

/-! # Purchases on several connections

`issueIdempotentLicense` looks its issuance up before its transaction begins, and reads the licence of a replay on its
own. Every other operation is one transaction.
-/

namespace NeonDiff.License

open NeonDiff.Lib

/-! ## Calls of the database -/

inductive PurchaseAct where
  | getIssuanceEvent (idempotencyKey : String)
  | getLicenseByHash (licenseKeyHash : String)
  | insertIdempotentLicense (rawKey : String) (input : IssueIdempotentLicenseInput)
  | issueBoundCheckoutLicense (rawKey : String) (input : IssueBoundCheckoutLicenseFields)
  | fulfillStripeCheckout (rawKey : String) (input : StripeCheckoutFulfillmentInput)
  | bindCheckoutSubscription (issuanceIdempotencyKey : String) (fields : BindingFields) (dryRun : Bool)

abbrev PurchaseAct.Answer : PurchaseAct → Type
  | getIssuanceEvent _ => Option LicenseIssuanceRow
  | getLicenseByHash _ => Option LicenseRecord
  | insertIdempotentLicense .. => Except StoreError LicenseRecord
  | issueBoundCheckoutLicense .. => Except StoreError BoundIssuance
  | fulfillStripeCheckout .. => Except StoreError FulfilledCheckout
  | bindCheckoutSubscription .. => Except StoreError BindResult

/-- The transaction of `issueIdempotentLicense`. -/
def insertIdempotentLicense (env : Env) (rawKey : String) (input : IssueIdempotentLicenseInput) (s : Licenses) :
    Except StoreError (LicenseRecord × Licenses) := do
  let (record, s) ← insertLicense env rawKey input.toIssueLicenseInput s
  let s ← insertIssuanceEvent
    ⟨input.idempotencyKey, record.licenseKeyHash, input.requestHash, input.source, input.externalRef⟩ s
  return (record, s)

/-- `begin immediate`, and then `commit` or `rollback`. -/
def transaction {α : Type} (body : Licenses → Except StoreError (α × Licenses)) (s : Licenses) :
    Except StoreError α × Licenses :=
  match body s with
  | .ok (a, t) => (.ok a, t)
  | .error e => (.error e, s)

def PurchaseAct.exec (env : Env) (now : Int) (s : Licenses) : (act : PurchaseAct) → act.Answer × Licenses
  | getIssuanceEvent key => (s.getIssuanceEvent key, s)
  | getLicenseByHash hash => (s.getLicenseByHash hash, s)
  | insertIdempotentLicense rawKey input => transaction (License.insertIdempotentLicense env rawKey input) s
  | issueBoundCheckoutLicense rawKey input => transaction (License.issueBoundCheckoutLicense env now rawKey input) s
  | fulfillStripeCheckout rawKey input => transaction (License.fulfillStripeCheckout env now rawKey input) s
  | bindCheckoutSubscription key fields dryRun => transaction (License.bindCheckoutSubscription env key fields dryRun) s

/-! ## The operations -/

inductive PurchaseAnswer where
  | issued (record : LicenseRecord) (replayed : Bool)
  | checkout (issuance : BoundIssuance)
  | fulfilled (fulfillment : FulfilledCheckout)
  | binding (result : BindResult)

/-- The licence that the answer returns; a binding returns none. -/
def PurchaseAnswer.license : PurchaseAnswer → Option String
  | issued record _ => some record.licenseKeyHash
  | checkout issuance => some issuance.record.licenseKeyHash
  | fulfilled fulfillment => some fulfillment.record.licenseKeyHash
  | binding _ => none

abbrev PurchaseProg := Prog PurchaseAct.Answer StoreError PurchaseAnswer

def answering : Except StoreError PurchaseAnswer → PurchaseProg
  | .ok a => .done a
  | .error e => .fail e

/-- The answer to a replay, from the licence that was read. -/
def replayedAnswer : Option LicenseRecord → PurchaseProg
  | none => .fail ⟨.error, "idempotency key points to a missing license record"⟩
  | some record => .done (.issued record true)

/-- What `issueIdempotentLicense` does once it looked for its issuance. -/
def issueAfterLookup (env : Env) (rawKey : String) (input : IssueIdempotentLicenseInput) :
    Option LicenseIssuanceRow → PurchaseProg
  | some existing =>
    if existing.requestHash ≠ input.requestHash then
      .fail ⟨.error, "idempotency key was already used with different request data"⟩
    else if Licenses.hashLicenseKey env.sha256 rawKey ≠ existing.licenseKeyHash then
      .fail ⟨.error, "idempotency key was issued with a different key derivation secret"⟩
    else .call (.getLicenseByHash existing.licenseKeyHash) replayedAnswer
  | none =>
    .call (.insertIdempotentLicense rawKey input) fun (r : Except StoreError LicenseRecord) =>
      answering (r.map fun record => .issued record false)

inductive PurchaseCall where
  | issueIdempotentLicense (rawKey : String) (input : IssueIdempotentLicenseInput)
  | issueBoundCheckoutLicense (rawKey : String) (input : IssueBoundCheckoutLicenseFields)
  | fulfillStripeCheckout (rawKey : String) (input : StripeCheckoutFulfillmentInput)
  | bindCheckoutSubscription (issuanceIdempotencyKey : String) (fields : BindingFields) (dryRun : Bool)

def PurchaseCall.prog (env : Env) : PurchaseCall → PurchaseProg
  | issueIdempotentLicense rawKey input =>
    .call (.getIssuanceEvent input.idempotencyKey) (issueAfterLookup env rawKey input)
  | issueBoundCheckoutLicense rawKey input =>
    .call (.issueBoundCheckoutLicense rawKey input) fun (r : Except StoreError BoundIssuance) =>
      answering (r.map .checkout)
  | fulfillStripeCheckout rawKey input =>
    .call (.fulfillStripeCheckout rawKey input) fun (r : Except StoreError FulfilledCheckout) =>
      answering (r.map .fulfilled)
  | bindCheckoutSubscription key fields dryRun =>
    .call (.bindCheckoutSubscription key fields dryRun) fun (r : Except StoreError BindResult) =>
      answering (r.map .binding)

/-- The idempotency key of a call that returns a licence, where the key is a valid one. -/
def PurchaseCall.idempotencyKey : PurchaseCall → Option String
  | issueIdempotentLicense _ input => some input.idempotencyKey
  | issueBoundCheckoutLicense _ input => (validateBoundCheckoutInput input).toOption.map (·.idempotencyKey)
  | fulfillStripeCheckout _ input => (validateBoundCheckoutInput input.issuance).toOption.map (·.idempotencyKey)
  | bindCheckoutSubscription .. => none

/-! ## Conflicts -/

/-- The store holds the key of a checkout under other data, or its subscription under another key. -/
def CheckoutConflict (env : Env) (s : Licenses) (rawKey : String) (input : IssueBoundCheckoutLicenseInput) : Prop :=
  (∃ i, s.getIssuanceEvent input.idempotencyKey = some i ∧ (i.source ≠ some "checkout" ∨
      i.requestHash ≠ boundCheckoutRequestHash env input ∨
      i.licenseKeyHash ≠ Licenses.hashLicenseKey env.sha256 rawKey)) ∨
    ∃ b ∈ s.bindings.rows,
      (b.issuanceIdempotencyKey = input.idempotencyKey ∧ b.toCheckoutSubscriptionBindingInput ≠ input.binding) ∨
      (b.tuple = input.binding.tuple ∧ b.issuanceIdempotencyKey ≠ input.idempotencyKey)

/-- The store holds the event under other data, or its session or issuance under another event. -/
def FulfillmentConflict (env : Env) (s : Licenses) (rawKey : String) (validated : ValidFulfillment) : Prop :=
  ∃ f ∈ s.fulfillments.rows,
    (f.stripeEventId = validated.stripeEventId ∧ (f.eventHash ≠ validated.eventHash ∨
      f.issuanceIdempotencyKey ≠ validated.issuance.idempotencyKey ∨
      f.licenseKeyHash ≠ Licenses.hashLicenseKey env.sha256 rawKey ∨
      f.externalCheckoutId ≠ validated.issuance.binding.externalCheckoutId ∨
      f.fulfillmentTokenHash ≠ validated.fulfillmentTokenHash)) ∨
    (f.stripeEventId ≠ validated.stripeEventId ∧
      (f.externalCheckoutId = validated.issuance.binding.externalCheckoutId ∨
        f.issuanceIdempotencyKey = validated.issuance.idempotencyKey))

def BindConflict (s : Licenses) (key : String) (requested : CheckoutSubscriptionBindingInput) (dryRun : Bool) : Prop :=
  (∃ i, s.getIssuanceEvent key = some i ∧ i.source ≠ some "checkout") ∨
    ∃ b ∈ s.bindings.rows,
      (b.issuanceIdempotencyKey = key ∧ b.toCheckoutSubscriptionBindingInput ≠ requested) ∨
      (dryRun = false ∧ b.tuple = requested.tuple ∧ b.issuanceIdempotencyKey ≠ key)

/-- What the call asks for is at odds with what the store holds. -/
def PurchaseCall.Conflicts (env : Env) (s : Licenses) : PurchaseCall → Prop
  | issueIdempotentLicense rawKey input =>
    ∃ i, s.getIssuanceEvent input.idempotencyKey = some i ∧
      (i.requestHash ≠ input.requestHash ∨ i.licenseKeyHash ≠ Licenses.hashLicenseKey env.sha256 rawKey)
  | issueBoundCheckoutLicense rawKey input =>
    ∃ validated, validateBoundCheckoutInput input = .ok validated ∧ CheckoutConflict env s rawKey validated
  | fulfillStripeCheckout rawKey input =>
    ∃ now validated, validateStripeCheckoutFulfillmentInput env input now = .ok validated ∧
      (CheckoutConflict env s rawKey validated.issuance ∨ FulfillmentConflict env s rawKey validated)
  | bindCheckoutSubscription key fields dryRun =>
    ∃ trimmed requested, readBoundedString .checkoutBindingPolicy key "issuanceIdempotencyKey" 200 = .ok trimmed ∧
      readBinding .checkoutBindingPolicy fields = .ok requested ∧ BindConflict s trimmed requested dryRun

/-! ## Interleavings -/

variable {ι : Type} [DecidableEq ι]

/-- Each connection runs its call at its own times; between the calls' statements the store may answer any other
operation. -/
def purchases (env : Env) : Semantics PurchaseAct.Answer ι Licenses Int (Int × StoreCall) where
  exec _ act now s := some (act.exec env now s)
  ambient t s := (t.2.commit env t.1 s).toOption

abbrev PurchaseWorld (ι : Type) := World PurchaseAct.Answer StoreError PurchaseAnswer ι Licenses

def purchasing (env : Env) (calls : ι → PurchaseCall) : PurchaseWorld ι := ⟨{}, fun i => (calls i).prog env⟩

end NeonDiff.License
