import NeonDiff.License.Store

/-! # The Stripe webhook -/

namespace NeonDiff.Billing

open NeonDiff.Lib NeonDiff.Lib.JsText NeonDiff.License

/-! ## What a delivery brings -/

inductive WebhookError where
  | invalid (message : String)
  | conflict (message : String)
  | unavailable (message : String)
  | other (message : String)
  deriving DecidableEq, Repr

/-- What Stripe answers during one delivery. Nothing stands for a call that throws. -/
structure StripeCheckoutGateway where
  verifyEvent : String → String → String → Option Json
  retrieveAccount : String → Option Json
  retrieveCheckoutSession : String → Option Json
  retrieveSubscription : String → Option Json

structure AllowedStripePrice where
  priceId : String
  productId : String
  deriving DecidableEq, Repr

/-- What `validateRuntime` lets through. -/
structure StripeCheckoutRuntime where
  webhookSecret : String
  expectedAccountId : String
  mode : ProviderMode
  licenseDerivationSecret : String
  allowedPrices : CheckoutLookupKey → AllowedStripePrice
  redemptionTtlMs : Int

structure Delivery where
  rawBody : String
  signature : String
  now : Int
  /-- The store's own clock. -/
  storeNow : Int
  gateway : StripeCheckoutGateway

structure StripeCheckoutLifecycleResult where
  status : LifecycleApplyStatus
  replayed : Bool
  deriving DecidableEq, Repr

inductive StripeCheckoutWebhookResult where
  | fulfilled (replayed : Bool)
  | lifecycle (result : StripeCheckoutLifecycleResult)
  deriving DecidableEq, Repr

/-! ## Reading Stripe's objects -/

def invalidField {α : Type} (field : String) : Except WebhookError α := .error (.invalid (field ++ " is invalid"))

def record : Option Json → Except WebhookError Body
  | some (.obj fields) => .ok fields
  | _ => .error (.invalid "Stripe response shape is invalid")

def requiredString (value : Option Json) (field : String) (max : Nat) : Except WebhookError String :=
  match value with
  | some (.str s) =>
    if s = "" || trim s.toList ≠ s.toList || max < length s.toList then invalidField field else .ok s
  | _ => invalidField field

def optionalString : Option Json → Except WebhookError (Option String)
  | none | some .null => .ok none
  | some value => some <$> requiredString (some value) "optional string" 200

/-- `STRIPE_ID_PATTERN`. -/
def isStripeId (id : String) : Bool :=
  ["acct_", "cs_live_", "cs_test_", "cus_", "evt_", "in_", "price_", "prod_", "sub_"].any fun p =>
    startsWith id p && id.toList.drop p.length ≠ [] && (id.toList.drop p.length).all fun c => c.isAlphanum || c = '_'

def stripeId (value : Option Json) (pre field : String) : Except WebhookError String := do
  let id ← requiredString value field 200
  if startsWith id pre && isStripeId id then return id else invalidField field

def positiveInteger (value : Option Json) (field : String) : Except WebhookError Int :=
  match value with
  | some (.int n) => if Json.isSafeInteger n && 0 < n then .ok n else invalidField field
  | _ => invalidField field

def nonNegativeInteger (value : Option Json) (field : String) : Except WebhookError Int :=
  match value with
  | some (.int n) => if Json.isSafeInteger n && 0 ≤ n then .ok n else invalidField field
  | _ => invalidField field

/-- `value === text`. -/
def isText (value : Option Json) (text : String) : Bool :=
  match value with
  | some (.str s) => s = text
  | _ => false

def exactString (value : Option Json) (expected field : String) : Except WebhookError String :=
  if isText value expected then .ok expected else invalidField field

def boolean (value : Option Json) (field : String) : Except WebhookError Bool :=
  match value with
  | some (.bool b) => .ok b
  | _ => invalidField field

def stringMatching (value : Option Json) (pattern : String → Bool) (field : String) : Except WebhookError String := do
  let result ← requiredString value field 256
  if pattern result then return result else invalidField field

def stripeReference : Option Json → Except WebhookError (Option String)
  | some (.str s) => .ok (some s)
  | some (.obj fields) => optionalString (Json.field fields "id")
  | _ => .ok none

/-- The items of an array field; any other value counts as none. -/
def itemsOf : Option Json → List Json
  | some (.arr items) => items
  | _ => []

/-- A call to Stripe whose answer must be an object. -/
def retrieve (answer : Option Json) (onThrow : String) : Except WebhookError Body :=
  match answer with
  | none => .error (.unavailable onThrow)
  | some value => record (some value)

/-! ## Lifecycle events -/

structure SubscriptionSnapshot where
  status : String
  cancelAtPeriodEnd : Bool
  deriving DecidableEq, Repr

def normalizeSubscriptionSnapshot (value : Body) (mode : ProviderMode) (expectedSubscriptionId : String) :
    Except WebhookError SubscriptionSnapshot := do
  let subscriptionId ← stripeId (Json.field value "id") "sub_" "subscription id"
  require (subscriptionId = expectedSubscriptionId) (.invalid "Stripe subscription changed")
  let livemode ← boolean (Json.field value "livemode") "subscription livemode"
  require (livemode = (mode = .live)) (.invalid "Stripe subscription mode is invalid")
  let status ← requiredString (Json.field value "status") "subscription status" 40
  let cancelAtPeriodEnd ← boolean (Json.field value "cancel_at_period_end") "subscription cancel at period end"
  return ⟨status, cancelAtPeriodEnd⟩

def retrieveLifecycleSubscription (runtime : StripeCheckoutRuntime) (gateway : StripeCheckoutGateway)
    (expectedSubscriptionId : String) : Except WebhookError SubscriptionSnapshot := do
  let raw ← retrieve (gateway.retrieveSubscription expectedSubscriptionId)
    "Stripe subscription verification is unavailable"
  normalizeSubscriptionSnapshot raw runtime.mode expectedSubscriptionId

def lifecycleSubscriptionId (eventType : ProviderEventType) (eventObject : Body) : Except WebhookError String :=
  match eventType with
  | .subscriptionUpdated | .subscriptionDeleted => stripeId (Json.field eventObject "id") "sub_" "subscription id"
  | _ => do
    let direct ← stripeReference (Json.field eventObject "subscription")
    match nonEmpty direct with
    | some direct => stripeId (some (.str direct)) "sub_" "subscription id"
    | none => do
      let parent ← record (Json.field eventObject "parent")
      require (isText (Json.field parent "type") "subscription_details")
        (.invalid "Stripe invoice subscription is invalid")
      let details ← record (Json.field parent "subscription_details")
      let reference ← stripeReference (Json.field details "subscription")
      stripeId (reference.map .str) "sub_" "subscription id"

def invoicePeriodEnds (externalSubscriptionId : String) : List Json → Except WebhookError (List Int)
  | [] => .ok []
  | entry :: entries => do
    let line ← record (some entry)
    let parent ← record (Json.field line "parent")
    if !isText (Json.field parent "type") "subscription_item_details" then
      invoicePeriodEnds externalSubscriptionId entries
    else do
      let details ← record (Json.field parent "subscription_item_details")
      let subscription ← stripeReference (Json.field details "subscription")
      let legacySubscription ← stripeReference (Json.field line "subscription")
      require (nonEmpty legacySubscription = none || nonEmpty subscription = none || legacySubscription = subscription)
        (.invalid "Stripe invoice subscription correlation conflicts")
      if subscription ≠ some externalSubscriptionId then invoicePeriodEnds externalSubscriptionId entries
      else do
        let period ← record (Json.field line "period")
        let periodEnd ← positiveInteger (Json.field period "end") "invoice service period end"
        let rest ← invoicePeriodEnds externalSubscriptionId entries
        return periodEnd :: rest

def invoiceSubscriptionPeriodEnd (invoice : Body) (externalSubscriptionId : String) : Except WebhookError Int := do
  let lines ← record (Json.field invoice "lines")
  let periodEnds ← invoicePeriodEnds externalSubscriptionId (itemsOf (Json.field lines "data"))
  match periodEnds with
  | first :: rest =>
    if rest.all (· = first) then return first else .error (.invalid "Stripe invoice service period is ambiguous")
  | [] => .error (.invalid "Stripe invoice service period is ambiguous")

def requiredSubscriptionPeriodEnd (subscription : Body) : Except WebhookError Int :=
  match Json.field subscription "current_period_end" with
  | some value => positiveInteger (some value) "subscription period end"
  | none => do
    let items ← record (Json.field subscription "items")
    match itemsOf (Json.field items "data") with
    | [item] => do
      let item ← record (some item)
      positiveInteger (Json.field item "current_period_end") "subscription period end"
    | _ => .error (.invalid "Stripe subscription must contain exactly one item")

def invoicePaidOutOfBand (invoice : Body) : Except WebhookError Bool := do
  let outOfBand : WebhookError := .invalid "Stripe invoice paid out of band is invalid"
  match Json.field invoice "amount_paid_off_stripe" with
  | some value => do
    let paidOffStripe ← nonNegativeInteger (some value) "invoice amount paid off Stripe"
    require (paidOffStripe = 0) outOfBand
    require (match Json.field invoice "paid_out_of_band" with | some (.bool true) => false | _ => true) outOfBand
    return false
  | none => do
    require (match Json.field invoice "paid_out_of_band" with | some (.bool false) => true | _ => false) outOfBand
    return false

/-- `new Date(seconds * 1_000).toISOString()`, which throws outside the time values. -/
def periodEndText (seconds : Int) : Except WebhookError String :=
  if IsoDate.isTime (seconds * 1000) then .ok (IsoDate.toISOString (seconds * 1000))
  else .error (.unavailable "Stripe lifecycle verification is unavailable")

structure LifecycleEvent where
  eventId : String
  eventType : ProviderEventType
  eventCreatedAt : Int
  eventObject : Body

def commonBody (event : LifecycleEvent) (runtime : StripeCheckoutRuntime)
    (issuanceIdempotencyKey accountId externalSubscriptionId : String) : Body :=
  [("schemaVersion", .int 1), ("issuanceIdempotencyKey", .str issuanceIdempotencyKey), ("eventId", .str event.eventId),
    ("eventCreatedAt", .int event.eventCreatedAt), ("provider", .str "stripe"), ("providerAccountId", .str accountId),
    ("providerMode", .str runtime.mode.text), ("externalSubscriptionId", .str externalSubscriptionId),
    ("providerEventType", .str event.eventType.text)]

/-- What follows the common fields of a command without a payment or a period end. -/
def commandBody (command status : String) (cancelAtPeriodEnd : Bool) : Body :=
  [("command", .str command), ("subscriptionStatus", .str status), ("cancelAtPeriodEnd", .bool cancelAtPeriodEnd)]

/-- The body of `invoice.payment_failed`, from the subscription as it is now. -/
def failedPaymentBody (subscription : SubscriptionSnapshot) : Except WebhookError Body := do
  require (["active", "past_due", "incomplete", "paused"].contains subscription.status)
    (.invalid "Stripe failed-payment subscription state is invalid")
  return commandBody "payment_attention" subscription.status subscription.cancelAtPeriodEnd

def paidInvoiceBody (invoice : Body) (externalSubscriptionId : String) : Except WebhookError Body := do
  let paymentReference ← stripeId (Json.field invoice "id") "in_" "invoice id"
  let amountPaidMinor ← positiveInteger (Json.field invoice "amount_paid") "invoice amount paid"
  let currency ← exactString (Json.field invoice "currency") "usd" "invoice currency"
  let paidOutOfBand ← invoicePaidOutOfBand invoice
  let billingReason ← exactString (Json.field invoice "billing_reason") "subscription_cycle" "invoice billing reason"
  let periodEnd ← invoiceSubscriptionPeriodEnd invoice externalSubscriptionId
  let currentPeriodEnd ← periodEndText periodEnd
  return commandBody "renew_paid" "active" false ++
    [("paymentReference", .str paymentReference), ("amountPaidMinor", .int amountPaidMinor),
      ("currency", .str currency), ("paidOutOfBand", .bool paidOutOfBand), ("billingReason", .str billingReason),
      ("currentPeriodEnd", .str currentPeriodEnd)]

def subscriptionEventBody (eventType : ProviderEventType) (eventObject : Body) (subscription : SubscriptionSnapshot) :
    Except WebhookError Body :=
  let terminal := ["canceled", "unpaid", "incomplete_expired"].contains subscription.status
  let running := subscription.status = "active" || subscription.status = "trialing"
  if eventType = .subscriptionDeleted then
    if terminal then .ok (commandBody "revoke" subscription.status false)
    else .error (.invalid "Stripe deleted subscription state is invalid")
  else if terminal then .ok (commandBody "revoke" subscription.status false)
  else if running && subscription.cancelAtPeriodEnd then do
    let periodEnd ← requiredSubscriptionPeriodEnd eventObject
    let currentPeriodEnd ← periodEndText periodEnd
    return commandBody "cancel_at_period_end" subscription.status true ++ [("currentPeriodEnd", .str currentPeriodEnd)]
  else if running then .ok (commandBody "reconcile" subscription.status false)
  else if ["past_due", "incomplete", "paused"].contains subscription.status then
    .ok (commandBody "payment_attention" subscription.status subscription.cancelAtPeriodEnd)
  else .error (.invalid "Stripe subscription state is unsupported")

def normalizeStripeLifecycleEvent (runtime : StripeCheckoutRuntime) (gateway : StripeCheckoutGateway)
    (event : LifecycleEvent) (issuanceIdempotencyKey externalSubscriptionId accountId : String) :
    Except WebhookError Body := do
  let livemode ← boolean (Json.field event.eventObject "livemode") "lifecycle object livemode"
  require (livemode = (runtime.mode = .live)) (.invalid "Stripe lifecycle object mode is invalid")
  let common := commonBody event runtime issuanceIdempotencyKey accountId externalSubscriptionId
  match event.eventType with
  | .invoicePaymentFailed => do
    let subscription ← retrieveLifecycleSubscription runtime gateway externalSubscriptionId
    let rest ← failedPaymentBody subscription
    return common ++ rest
  | .invoicePaid | .invoicePaymentSucceeded => do
    let subscription ← retrieveLifecycleSubscription runtime gateway externalSubscriptionId
    require (subscription.status = "active") (.invalid "Stripe paid invoice subscription is not active")
    let rest ← paidInvoiceBody event.eventObject externalSubscriptionId
    return common ++ rest
  | .subscriptionUpdated | .subscriptionDeleted => do
    let subscription ← normalizeSubscriptionSnapshot event.eventObject runtime.mode externalSubscriptionId
    let rest ← subscriptionEventBody event.eventType event.eventObject subscription
    return common ++ rest

def lifecycleError (e : StoreError) : WebhookError :=
  match e.kind with
  | .subscriptionLifecycleConflict => .conflict "Stripe lifecycle event conflicts"
  | .subscriptionLifecycleNotFound => .unavailable "Stripe lifecycle binding is unavailable"
  | .subscriptionLifecyclePolicy | .subscriptionLifecycleTerminal => .invalid "Stripe lifecycle event is invalid"
  | _ => .unavailable "Stripe lifecycle application failed"

/-- The bytes of `JSON.stringify(body)` in UTF-8. -/
def bodyBytes (body : Body) : Nat := ((Json.stringify (.obj body)).map Char.utf8Size).sum

/-- The account the API key belongs to, which must be the expected one. -/
def lifecycleAccount (runtime : StripeCheckoutRuntime) (gateway : StripeCheckoutGateway) : Except WebhookError String := do
  let account ← retrieve (gateway.retrieveAccount runtime.expectedAccountId)
    "Stripe lifecycle verification is unavailable"
  let accountId ← stripeId (Json.field account "id") "acct_" "account id"
  require (accountId = runtime.expectedAccountId) (.invalid "Stripe API account is invalid")
  return accountId

/-- The normalised request goes to the store. -/
def applyLifecycleBody (env : Env) (d : Delivery) (body : Body) (s : Licenses) :
    Except WebhookError (StripeCheckoutLifecycleResult × Licenses) := do
  let request ← (parseSubscriptionLifecycleRequest env (bodyBytes body) (.obj body) d.now).mapError fun _ =>
    .invalid "Stripe lifecycle event is invalid"
  let (applied, s) ← (applyCheckoutSubscriptionLifecycle env d.storeNow request s).mapError lifecycleError
  return (⟨applied.status, applied.replayed⟩, s)

def fulfillStripeSubscriptionLifecycle (env : Env) (runtime : StripeCheckoutRuntime) (d : Delivery)
    (event : LifecycleEvent) (s : Licenses) : Except WebhookError (StripeCheckoutLifecycleResult × Licenses) := do
  let accountId ← lifecycleAccount runtime d.gateway
  let externalSubscriptionId ← lifecycleSubscriptionId event.eventType event.eventObject
  match resolveCheckoutIssuanceIdempotencyKey accountId runtime.mode externalSubscriptionId s with
  | none => .error (.unavailable "Stripe lifecycle binding is unavailable")
  | some issuanceIdempotencyKey => do
    let body ← normalizeStripeLifecycleEvent runtime d.gateway event issuanceIdempotencyKey externalSubscriptionId accountId
    applyLifecycleBody env d body s

/-! ## Checkout events -/

structure RecurringItem where
  priceId : String
  productId : String
  lookupKey : CheckoutLookupKey
  deriving DecidableEq, Repr

def checkoutLookupKey (value : Option Json) : Except WebhookError CheckoutLookupKey :=
  match value with
  | some (.str s) => match checkoutLookupKeyOf s with
    | some key => .ok key
    | none => .error (.invalid "Stripe checkout lookup key is invalid")
  | _ => .error (.invalid "Stripe checkout lookup key is invalid")

def singleRecurringItem (value : Option Json) (owner : String) : Except WebhookError RecurringItem := do
  let container ← record value
  match itemsOf (Json.field container "data") with
  | [item] => do
    let item ← record (some item)
    require (match Json.field item "quantity" with | some (.int 1) => true | _ => false)
      (.invalid (owner ++ " quantity is invalid"))
    let price ← record (Json.field item "price")
    require (isText (Json.field price "type") "recurring" && isText (Json.field price "currency") "usd")
      (.invalid (owner ++ " price is invalid"))
    let product ← match Json.field price "product" with
      | some (.str product) => .ok product
      | other => do
        let product ← record other
        requiredString (Json.field product "id") (owner ++ " product id") 160
    let priceId ← stripeId (Json.field price "id") "price_" (owner ++ " price id")
    let productId ← stripeId (some (.str product)) "prod_" (owner ++ " product id")
    let lookupKey ← checkoutLookupKey (Json.field price "lookup_key")
    return ⟨priceId, productId, lookupKey⟩
  | _ => .error (.invalid (owner ++ " must contain exactly one item"))

structure NormalizedCheckout where
  sessionId : String
  subscriptionId : String
  checkoutLookupKey : CheckoutLookupKey
  fulfillmentTokenHash : String
  deriving DecidableEq, Repr

def normalizeCheckout (eventSessionId : String) (session subscription : Body) (runtime : StripeCheckoutRuntime) :
    Except WebhookError NormalizedCheckout := do
  let sessionId ← stripeId (Json.field session "id") "cs_" "checkout session id"
  require (sessionId = eventSessionId) (.invalid "Stripe checkout session changed")
  let sessionLive ← boolean (Json.field session "livemode") "session livemode"
  require (sessionLive = (runtime.mode = .live)) (.invalid "Stripe checkout session mode is invalid")
  require (isText (Json.field session "mode") "subscription" && isText (Json.field session "status") "complete")
    (.invalid "Stripe checkout session is incomplete")
  require (isText (Json.field session "payment_status") "paid" ||
      isText (Json.field session "payment_status") "no_payment_required")
    (.invalid "Stripe checkout payment is incomplete")
  let sessionCustomerId ← stripeId (Json.field session "customer") "cus_" "customer id"
  let subscriptionId ← stripeId (Json.field session "subscription") "sub_" "subscription id"
  let sessionMetadata ← record (Json.field session "metadata")
  let lookupKey ← checkoutLookupKey (Json.field sessionMetadata "priceLookupKey")
  let fulfillmentTokenHash ←
    stringMatching (Json.field sessionMetadata "fulfillmentTokenHash") isHex64 "fulfillment token hash"
  let sessionItem ← singleRecurringItem (Json.field session "line_items") "checkout session"
  require (sessionItem = ⟨(runtime.allowedPrices lookupKey).priceId, (runtime.allowedPrices lookupKey).productId, lookupKey⟩)
    (.invalid "Stripe checkout price is not allowed")
  let retrievedSubscriptionId ← stripeId (Json.field subscription "id") "sub_" "retrieved subscription id"
  require (retrievedSubscriptionId = subscriptionId) (.invalid "Stripe subscription changed")
  let subscriptionLive ← boolean (Json.field subscription "livemode") "subscription livemode"
  require (subscriptionLive = (runtime.mode = .live)) (.invalid "Stripe subscription mode is invalid")
  require (isText (Json.field subscription "status") "active" || isText (Json.field subscription "status") "trialing")
    (.invalid "Stripe subscription is not active")
  let subscriptionCustomerId ← stripeId (Json.field subscription "customer") "cus_" "subscription customer id"
  require (subscriptionCustomerId = sessionCustomerId) (.invalid "Stripe subscription customer changed")
  let subscriptionMetadata ← record (Json.field subscription "metadata")
  let subscriptionLookupKey ← checkoutLookupKey (Json.field subscriptionMetadata "priceLookupKey")
  require (subscriptionLookupKey = lookupKey) (.invalid "Stripe subscription metadata changed")
  let subscriptionTokenHash ←
    stringMatching (Json.field subscriptionMetadata "fulfillmentTokenHash") isHex64 "subscription fulfillment token hash"
  require (subscriptionTokenHash = fulfillmentTokenHash) (.invalid "Stripe subscription metadata changed")
  let subscriptionItem ← singleRecurringItem (Json.field subscription "items") "subscription"
  require (subscriptionItem = sessionItem) (.invalid "Stripe subscription price changed")
  return ⟨sessionId, subscriptionId, lookupKey, fulfillmentTokenHash⟩

def fulfillmentError (e : StoreError) : WebhookError :=
  match e.kind with
  | .checkoutIssuanceConflict => .conflict "Stripe checkout fulfillment conflicts"
  | .checkoutIssuancePolicy => .invalid "Stripe checkout fulfillment conflicts"
  | _ => .unavailable "Stripe checkout fulfillment failed"

def deriveCheckoutLicenseKey (env : Env) (secret idempotencyKey : String) : String :=
  "nd_live_" ++ env.hmac24 secret ("checkout-license:" ++ idempotencyKey)

/-- The branch of `checkout.session.completed`. -/
def fulfillStripeCheckoutSession (env : Env) (runtime : StripeCheckoutRuntime) (d : Delivery) (eventId : String)
    (eventSession : Body) (s : Licenses) : Except WebhookError (Bool × Licenses) := do
  let eventSessionId ← stripeId (Json.field eventSession "id") "cs_" "checkout session id"
  let eventHash := env.sha256 d.rawBody
  match s.getStripeCheckoutFulfillmentForEvent eventId with
  | some existing =>
    if existing.eventHash = eventHash && existing.externalCheckoutId = eventSessionId then return (true, s)
    else .error (.conflict "Stripe checkout event conflicts")
  | none => do
    let onThrow := "Stripe checkout verification is unavailable"
    let account ← retrieve (d.gateway.retrieveAccount runtime.expectedAccountId) onThrow
    let session ← retrieve (d.gateway.retrieveCheckoutSession eventSessionId) onThrow
    let subscriptionId ← stripeId (Json.field session "subscription") "sub_" "subscription id"
    let subscription ← retrieve (d.gateway.retrieveSubscription subscriptionId) onThrow
    let accountId ← stripeId (Json.field account "id") "acct_" "account id"
    require (accountId = runtime.expectedAccountId) (.invalid "Stripe API account is invalid")
    let normalized ← normalizeCheckout eventSessionId session subscription runtime
    let idempotencyKey := "checkout-session:" ++ normalized.sessionId
    let rawKey := deriveCheckoutLicenseKey env runtime.licenseDerivationSecret idempotencyKey
    let fulfillmentExpiresAt ← (isoText (d.now + runtime.redemptionTtlMs)).mapError fun e => .other e.message
    let (fulfilled, s) ← (fulfillStripeCheckout env d.storeNow rawKey
      { stripeEventId := eventId
        eventHash
        fulfillmentTokenHash := normalized.fulfillmentTokenHash
        fulfillmentExpiresAt
        issuance :=
          { idempotencyKey
            checkoutLookupKey := normalized.checkoutLookupKey.text
            binding := ⟨"stripe", accountId, runtime.mode.text, normalized.subscriptionId, normalized.sessionId⟩ } }
      s).mapError fulfillmentError
    return (fulfilled.replayed, s)

/-! ## The webhook -/

structure VerifiedEvent where
  eventId : String
  eventType : String
  eventCreatedAt : Int
  eventObject : Body

/-- The checks on the event itself, up to its object. -/
def verifiedEvent (runtime : StripeCheckoutRuntime) (d : Delivery) : Except WebhookError VerifiedEvent := do
  let event ← match d.gateway.verifyEvent d.rawBody d.signature runtime.webhookSecret with
    | some (.obj event) => .ok event
    | _ => .error (.invalid "Stripe signature verification failed")
  let eventId ← stripeId (Json.field event "id") "evt" "event id"
  let eventType ← requiredString (Json.field event "type") "event type" 80
  let eventCreatedAt ← positiveInteger (Json.field event "created") "event created"
  let eventLiveMode ← boolean (Json.field event "livemode") "event livemode"
  require (eventLiveMode = (runtime.mode = .live)) (.invalid "Stripe event mode is invalid")
  let eventAccount ← optionalString (Json.field event "account")
  require (eventAccount.all (· = runtime.expectedAccountId)) (.invalid "Stripe event account is invalid")
  let eventData ← record (Json.field event "data")
  let eventObject ← record (Json.field eventData "object")
  return ⟨eventId, eventType, eventCreatedAt, eventObject⟩

/-- The event, if its type is one of `STRIPE_LIFECYCLE_EVENT_TYPES`. -/
def lifecycleEvent (event : VerifiedEvent) : Option LifecycleEvent :=
  (stripeLifecycleEventTypes.find? fun t => t.text = event.eventType).map fun eventType =>
    ⟨event.eventId, eventType, event.eventCreatedAt, event.eventObject⟩

def fulfillStripeCheckoutWebhook (env : Env) (runtime : StripeCheckoutRuntime) (d : Delivery) (s : Licenses) :
    Except WebhookError (StripeCheckoutWebhookResult × Licenses) := do
  let event ← verifiedEvent runtime d
  if event.eventType = "checkout.session.completed" then do
    let (replayed, s) ← fulfillStripeCheckoutSession env runtime d event.eventId event.eventObject s
    return (.fulfilled replayed, s)
  else match lifecycleEvent event with
    | none => .error (.invalid "Stripe event type is unsupported")
    | some event => do
      let (result, s) ← fulfillStripeSubscriptionLifecycle env runtime d event s
      return (.lifecycle result, s)

/-- The answers to deliveries one after another, and the store at the end; an error leaves the store alone. -/
def deliverAll (env : Env) (runtime : StripeCheckoutRuntime) (s : Licenses) :
    List Delivery → List (Except WebhookError StripeCheckoutWebhookResult) × Licenses
  | [] => ([], s)
  | d :: ds =>
    match fulfillStripeCheckoutWebhook env runtime d s with
    | .ok (answer, t) => (.ok answer :: (deliverAll env runtime t ds).1, (deliverAll env runtime t ds).2)
    | .error e => (.error e :: (deliverAll env runtime s ds).1, (deliverAll env runtime s ds).2)

end NeonDiff.Billing
