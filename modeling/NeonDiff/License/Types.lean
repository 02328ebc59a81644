import NeonDiff.Lib.IsoDate
import NeonDiff.Lib.Json
import NeonDiff.Lib.Table

/-! # The rows of the licence store

A text column that is null in SQLite is `none`. The only provider the store knows is `stripe`, so no row
carries it.
-/

namespace NeonDiff.License

open NeonDiff.Lib NeonDiff.Lib.JsText

/-! ## Licences and activations -/

inductive LicenseStatus where
  | active | revoked | expired
  deriving DecidableEq, Repr

inductive RepoVisibilityScope where
  | pub | priv | all
  deriving DecidableEq, Repr

structure LicenseRecord where
  licenseKeyHash : String
  plan : String
  repoVisibilityScope : RepoVisibilityScope
  privateRepoAllowed : Bool
  updateEntitlement : Bool
  seats : Int
  expiresAt : Option String := none
  status : LicenseStatus
  revocationReason : Option String := none
  deriving DecidableEq, Repr

structure ActivationRecord where
  licenseKeyHash : String
  machineId : String
  repo : Option String := none
  activatedAt : String
  lastSeenAt : String
  deriving DecidableEq, Repr

def ActivationRecord.key (row : ActivationRecord) : String × String := (row.licenseKeyHash, row.machineId)

/-- A text column that `...(row.field ? { field } : {})` maps. -/
def nonEmpty (v : Option String) : Option String := v.filter (· ≠ "")

/-- `mapLicense`. -/
def mapLicense (row : LicenseRecord) : LicenseRecord :=
  { row with expiresAt := nonEmpty row.expiresAt, revocationReason := nonEmpty row.revocationReason }

/-- `mapActivation`. -/
def mapActivation (row : ActivationRecord) : ActivationRecord := { row with repo := nonEmpty row.repo }

/-! ## Checkout -/

inductive CheckoutLookupKey where
  | neondiffMonthly | neondiffYearly | neondiffOrgYearly
  deriving DecidableEq, Repr

structure CheckoutPolicy where
  plan : String
  trialDays : Int
  maximumPeriodDays : Int
  seats : Int := 1
  repoVisibilityScope : RepoVisibilityScope := .priv
  privateRepoAllowed : Bool := true
  updateEntitlement : Bool := true
  deriving DecidableEq, Repr

def CheckoutLookupKey.text : CheckoutLookupKey → String
  | neondiffMonthly => "neondiff_monthly"
  | neondiffYearly => "neondiff_yearly"
  | neondiffOrgYearly => "neondiff_org_yearly"

def checkoutLookupKeys : List CheckoutLookupKey := [.neondiffMonthly, .neondiffYearly, .neondiffOrgYearly]

def checkoutPolicyFor : CheckoutLookupKey → CheckoutPolicy
  | .neondiffMonthly => { plan := "monthly_support", trialDays := 7, maximumPeriodDays := 62 }
  | .neondiffYearly => { plan := "yearly_support", trialDays := 7, maximumPeriodDays := 400 }
  | .neondiffOrgYearly => { plan := "org_yearly_support", trialDays := 30, maximumPeriodDays := 400 }

def checkoutLookupKeyForPlan (plan : String) : Option CheckoutLookupKey :=
  checkoutLookupKeys.find? fun key => (checkoutPolicyFor key).plan = plan

/-- `isCheckoutLookupKey`, with the key it recognises. -/
def checkoutLookupKeyOf (value : String) : Option CheckoutLookupKey :=
  checkoutLookupKeys.find? fun key => key.text = value

inductive ProviderMode where
  | test | live
  deriving DecidableEq, Repr

def ProviderMode.text : ProviderMode → String
  | test => "test"
  | live => "live"

structure CheckoutSubscriptionBindingInput where
  providerAccountId : String
  providerMode : ProviderMode
  externalSubscriptionId : String
  externalCheckoutId : String
  deriving DecidableEq, Repr

structure LicenseIssuanceRow where
  idempotencyKey : String
  licenseKeyHash : String
  requestHash : String
  source : Option String := none
  externalRef : Option String := none
  deriving DecidableEq, Repr

structure CheckoutSubscriptionBindingRow extends CheckoutSubscriptionBindingInput where
  issuanceIdempotencyKey : String
  licenseKeyHash : String
  lastNonMutatingEventCreatedAt : Option Int := none
  deriving DecidableEq, Repr

structure StripeCheckoutFulfillmentRow where
  stripeEventId : String
  eventHash : String
  issuanceIdempotencyKey : String
  licenseKeyHash : String
  externalCheckoutId : String
  fulfillmentTokenHash : String
  fulfillmentExpiresAt : String
  redeemedAt : Option String := none
  deriving DecidableEq, Repr

/-! ## Subscription lifecycle events -/

inductive ProviderEventType where
  | invoicePaid | invoicePaymentSucceeded | invoicePaymentFailed | subscriptionUpdated | subscriptionDeleted
  deriving DecidableEq, Repr

def ProviderEventType.text : ProviderEventType → String
  | invoicePaid => "invoice.paid"
  | invoicePaymentSucceeded => "invoice.payment_succeeded"
  | invoicePaymentFailed => "invoice.payment_failed"
  | subscriptionUpdated => "customer.subscription.updated"
  | subscriptionDeleted => "customer.subscription.deleted"

def stripeLifecycleEventTypes : List ProviderEventType :=
  [.invoicePaid, .invoicePaymentSucceeded, .invoicePaymentFailed, .subscriptionUpdated, .subscriptionDeleted]

inductive SubscriptionLifecycleCommand where
  | renewPaid | reconcile | cancelAtPeriodEnd | paymentAttention | revoke
  deriving DecidableEq, Repr

def SubscriptionLifecycleCommand.text : SubscriptionLifecycleCommand → String
  | renewPaid => "renew_paid"
  | reconcile => "reconcile"
  | cancelAtPeriodEnd => "cancel_at_period_end"
  | paymentAttention => "payment_attention"
  | revoke => "revoke"

inductive SubscriptionStatus where
  | active | trialing | pastDue | incomplete | paused | canceled | unpaid | incompleteExpired
  deriving DecidableEq, Repr

def SubscriptionStatus.text : SubscriptionStatus → String
  | active => "active"
  | trialing => "trialing"
  | pastDue => "past_due"
  | incomplete => "incomplete"
  | paused => "paused"
  | canceled => "canceled"
  | unpaid => "unpaid"
  | incompleteExpired => "incomplete_expired"

inductive LifecycleApplyStatus where
  | updated | replayed | ignoredStale | paymentAttention | terminallyRevoked
  deriving DecidableEq, Repr

structure SubscriptionLifecycleEventRow where
  eventId : String
  issuanceIdempotencyKey : String
  licenseKeyHash : String
  externalSubscriptionId : String
  requestHash : String
  eventCreatedAt : Int
  providerAccountId : String
  providerMode : ProviderMode
  providerEventType : ProviderEventType
  command : SubscriptionLifecycleCommand
  paymentReferenceFingerprint : Option String
  result : LifecycleApplyStatus
  deriving DecidableEq, Repr

/-! ## The store -/

structure Licenses where
  licenses : Table LicenseRecord.licenseKeyHash := .empty
  activations : Table ActivationRecord.key := .empty
  issuanceEvents : Table LicenseIssuanceRow.idempotencyKey := .empty
  bindings : Table CheckoutSubscriptionBindingRow.issuanceIdempotencyKey := .empty
  lifecycleEvents : Table SubscriptionLifecycleEventRow.eventId := .empty
  fulfillments : Table StripeCheckoutFulfillmentRow.stripeEventId := .empty

namespace Licenses

/-- `hashLicenseKey`, given the hash function. -/
def hashLicenseKey (sha256 : String → String) (rawKey : String) : String :=
  sha256 (String.ofList (trim rawKey.toList))

def getLicenseByHash (s : Licenses) (licenseKeyHash : String) : Option LicenseRecord :=
  (s.licenses.find? licenseKeyHash).map mapLicense

def getLicenseByKey (sha256 : String → String) (s : Licenses) (rawKey : String) : Option LicenseRecord :=
  s.getLicenseByHash (hashLicenseKey sha256 rawKey)

def getActivation (s : Licenses) (licenseKeyHash machineId : String) : Option ActivationRecord :=
  (s.activations.find? (licenseKeyHash, machineId)).map mapActivation

def countActivations (s : Licenses) (licenseKeyHash : String) : Nat :=
  s.activations.rows.countP fun row => row.licenseKeyHash = licenseKeyHash

def getIssuanceEvent (s : Licenses) (idempotencyKey : String) : Option LicenseIssuanceRow :=
  s.issuanceEvents.find? idempotencyKey

def getCheckoutSubscriptionBinding (s : Licenses) (idempotencyKey : String) :
    Option CheckoutSubscriptionBindingRow :=
  s.bindings.find? idempotencyKey

def getSubscriptionLifecycleEvent (s : Licenses) (eventId : String) : Option SubscriptionLifecycleEventRow :=
  s.lifecycleEvents.find? eventId

def getStripeCheckoutFulfillmentForEvent (s : Licenses) (stripeEventId : String) :
    Option StripeCheckoutFulfillmentRow :=
  s.fulfillments.find? stripeEventId

/-- `getStripeCheckoutFulfillmentByCheckoutId`. -/
def getStripeCheckoutFulfillment (s : Licenses) (externalCheckoutId : String) :
    Option StripeCheckoutFulfillmentRow :=
  s.fulfillments.rows.find? fun row => row.externalCheckoutId = externalCheckoutId

end Licenses

end NeonDiff.License
