import NeonDiff.Lib.Checked
import NeonDiff.License.Types

/-! # Subscription lifecycle requests: the parser and the canonical hash -/

namespace NeonDiff.License

open NeonDiff.Lib NeonDiff.Lib.JsText

/-- What the service takes from its runtime. -/
structure Env where
  sha256 : String → String
  /-- The first 24 bytes of the keyed hash of a text, in base64url. -/
  hmac24 : String → String → String
  /-- `Date.parse` of a text that `toISOString` does not write. -/
  legacyDate : String → Option Int

def Env.dateParse (env : Env) : String → Option Int := IsoDate.dateParse env.legacyDate

/-! ## Parsed requests -/

/-- What a command carries besides the common fields. The currency, the billing reason and the flag of a
payment out of band have one value each, and the reason of a revocation follows from its status. -/
inductive CommandDetail where
  | renewPaid (paymentReferenceFingerprint : String) (amountPaidMinor : Int) (currentPeriodEnd : String)
  | reconcile (diagnosticCurrentPeriodEnd : Option String)
  | cancelAtPeriodEnd (currentPeriodEnd : String)
  | paymentAttention (diagnosticCurrentPeriodEnd : Option String)
  | revoke (reasonProvided : Bool)
  deriving DecidableEq, Repr

def CommandDetail.command : CommandDetail → SubscriptionLifecycleCommand
  | renewPaid .. => .renewPaid
  | reconcile _ => .reconcile
  | cancelAtPeriodEnd _ => .cancelAtPeriodEnd
  | paymentAttention _ => .paymentAttention
  | revoke _ => .revoke

structure CommonRequest where
  issuanceIdempotencyKey : String
  eventId : String
  eventCreatedAt : Int
  providerAccountId : String
  providerMode : ProviderMode
  externalSubscriptionId : String
  deriving DecidableEq, Repr

structure SubscriptionLifecycleRequest extends CommonRequest where
  cancelAtPeriodEnd : Bool
  providerEventType : ProviderEventType
  subscriptionStatus : SubscriptionStatus
  detail : CommandDetail
  deriving DecidableEq, Repr

/-- `revokeReasonForStatus`; nothing for a status that no revocation has. -/
def revokeReasonForStatus : SubscriptionStatus → Option String
  | .canceled => some "subscription_canceled"
  | .unpaid => some "subscription_unpaid"
  | .incompleteExpired => some "subscription_incomplete_expired"
  | _ => none

/-! ## The canonical hash -/

def jsonOf (v : Option String) : Json := v.elim .null .str

def CommandDetail.canonicalFields (status : SubscriptionStatus) : CommandDetail → List Json
  | renewPaid paymentReferenceFingerprint amountPaidMinor currentPeriodEnd =>
    [.str paymentReferenceFingerprint, .int amountPaidMinor, .str "usd", .bool false, .str "subscription_cycle",
      .str currentPeriodEnd]
  | reconcile diagnosticCurrentPeriodEnd => [jsonOf diagnosticCurrentPeriodEnd]
  | cancelAtPeriodEnd currentPeriodEnd => [.str currentPeriodEnd]
  | paymentAttention diagnosticCurrentPeriodEnd => [jsonOf diagnosticCurrentPeriodEnd]
  | revoke reasonProvided => [if reasonProvided then jsonOf (revokeReasonForStatus status) else .null]

def canonicalFields (r : SubscriptionLifecycleRequest) : List Json :=
  [.int 1, .str r.issuanceIdempotencyKey, .str r.eventId, .int r.eventCreatedAt, .str "stripe",
    .str r.providerAccountId, .str r.providerMode.text, .str r.externalSubscriptionId,
    .str r.detail.command.text, .str r.providerEventType.text, .str r.subscriptionStatus.text,
    .bool r.cancelAtPeriodEnd] ++ r.detail.canonicalFields r.subscriptionStatus

def canonicalText (r : SubscriptionLifecycleRequest) : String :=
  "neondiff:subscription-lifecycle-request:v1\n" ++ String.ofList (Json.stringify (.arr (canonicalFields r)))

theorem items_eq_of_canonicalText_eq {r r' : SubscriptionLifecycleRequest} (h : canonicalText r = canonicalText r') :
    Json.stringifyItems (canonicalFields r) = Json.stringifyItems (canonicalFields r') := by
  have hchars := congrArg String.toList ((String.append_right_inj _).mp h)
  rw [String.toList_ofList, String.toList_ofList] at hchars
  exact List.append_cancel_right (List.cons.inj hchars).2

def canonicalSubscriptionLifecycleRequestHash (env : Env) (r : SubscriptionLifecycleRequest) : String :=
  env.sha256 (canonicalText r)

def paymentReferenceFingerprint (env : Env) (paymentReference : String) : String :=
  env.sha256 ("neondiff:subscription-lifecycle-payment-reference:v1\n" ++ paymentReference)

/-! ## The parser -/

def maxLifecycleBodyBytes : Nat := 16 * 1024

def maxFutureSkewSeconds : Int := 5 * 60

def requestFields : List String :=
  ["schemaVersion", "issuanceIdempotencyKey", "eventId", "eventCreatedAt", "provider", "providerAccountId",
    "providerMode", "externalSubscriptionId", "providerEventType", "command", "paymentReference",
    "amountPaidMinor", "currency", "paidOutOfBand", "billingReason", "subscriptionStatus", "currentPeriodEnd",
    "cancelAtPeriodEnd", "reason"]

def paymentFields : List String :=
  ["paymentReference", "amountPaidMinor", "currency", "paidOutOfBand", "billingReason"]

abbrev Body : Type := List (String × Json)

def readRequiredString (body : Body) (field : String) (maxLength : Nat) : Except String String :=
  match Json.field body field with
  | some (.str value) =>
    let trimmed := trim value.toList
    if trimmed = [] then .error (field ++ " is required")
    else if maxLength < length trimmed then .error (field ++ " is too long")
    else .ok (String.ofList trimmed)
  | _ => .error (field ++ " is required")

def readEventCreatedAt (value : Option Json) (now : Int) : Except String Int :=
  match value with
  | some (.int timestamp) =>
    if !Json.isSafeInteger timestamp || timestamp < 0 then .error "eventCreatedAt must be an integer epoch"
    else if now / 1000 + maxFutureSkewSeconds < timestamp then .error "eventCreatedAt is too far in the future"
    else .ok timestamp
  | _ => .error "eventCreatedAt must be an integer epoch"

/-- Whether a text has the digits of a shape where the shape says `d`, and its other characters. -/
def hasShape (shape text : List Char) : Bool :=
  shape.length = text.length && (shape.zip text).all fun p => if p.1 = 'd' then p.2.isDigit else p.1 = p.2

/-- `/^\d{4}-\d{2}-\d{2}T\d{2}:\d{2}:\d{2}\.\d{3}Z$/`. -/
def isStrictTimestamp (value : String) : Bool := hasShape "dddd-dd-ddTdd:dd:dd.dddZ".toList value.toList

def readStrictPeriodEnd (env : Env) (value : Option Json) (required : Bool) : Except String String :=
  match value with
  | some (.str value) =>
    if !isStrictTimestamp value then .error "currentPeriodEnd must be a strict UTC timestamp"
    else if (env.dateParse value).any fun ms => IsoDate.toISOString ms = value then .ok value
    else .error "currentPeriodEnd must be a valid timestamp"
  | _ => .error (if required then "currentPeriodEnd is required" else "currentPeriodEnd must be a timestamp")

/-- `isLifecycleCommand`, with the command it recognises. -/
def lifecycleCommandOf (value : String) : Option SubscriptionLifecycleCommand :=
  [SubscriptionLifecycleCommand.renewPaid, .reconcile, .cancelAtPeriodEnd, .paymentAttention, .revoke].find?
    fun c => c.text = value

def commandMatrix : SubscriptionLifecycleCommand → List ProviderEventType × List SubscriptionStatus
  | .renewPaid => ([.invoicePaid, .invoicePaymentSucceeded], [.active])
  | .reconcile => ([.subscriptionUpdated], [.active, .trialing])
  | .cancelAtPeriodEnd => ([.subscriptionUpdated], [.active, .trialing])
  | .paymentAttention => ([.invoicePaymentFailed, .subscriptionUpdated], [.active, .pastDue, .incomplete, .paused])
  | .revoke => ([.subscriptionDeleted, .subscriptionUpdated], [.canceled, .unpaid, .incompleteExpired])

/-- `validateCommandMatrix`, with the event and the status it lets through. -/
def validateCommandMatrix (command : SubscriptionLifecycleCommand) (providerEventType subscriptionStatus : String) :
    Except String (ProviderEventType × SubscriptionStatus) :=
  match (commandMatrix command).1.find? fun e => e.text = providerEventType with
  | none => .error ("providerEventType is invalid for " ++ command.text)
  | some event => match (commandMatrix command).2.find? fun t => t.text = subscriptionStatus with
    | none => .error ("subscriptionStatus is invalid for " ++ command.text)
    | some status => .ok (event, status)

def providerModeOf (value : String) : Except String ProviderMode :=
  if value = "test" then .ok .test
  else if value = "live" then .ok .live
  else .error "providerMode must be test or live"

/-- The fields every command has, up to the subscription. -/
def parseCommon (body : Body) (now : Int) : Except String CommonRequest := do
  require (body.all fun f => requestFields.contains f.1) "request contains an unknown field"
  require (match Json.field body "schemaVersion" with | some (.int 1) => true | _ => false)
    "schemaVersion must be 1"
  let issuanceIdempotencyKey ← readRequiredString body "issuanceIdempotencyKey" 200
  let eventId ← readRequiredString body "eventId" 200
  let eventCreatedAt ← readEventCreatedAt (Json.field body "eventCreatedAt") now
  let provider ← readRequiredString body "provider" 16
  require (provider = "stripe") "provider must be stripe"
  let providerAccountId ← readRequiredString body "providerAccountId" 160
  let providerMode ← readRequiredString body "providerMode" 16 >>= providerModeOf
  let externalSubscriptionId ← readRequiredString body "externalSubscriptionId" 160
  return ⟨issuanceIdempotencyKey, eventId, eventCreatedAt, providerAccountId, providerMode, externalSubscriptionId⟩

/-- The payment of a `renew_paid` request: its fingerprint and its amount. -/
def parsePayment (env : Env) (body : Body) : Except String (String × Int) := do
  let paymentReference ← readRequiredString body "paymentReference" 200
  let amountPaidMinor ← match Json.field body "amountPaidMinor" with
    | some (.int n) =>
      if Json.isSafeInteger n && 0 < n then .ok n else .error "amountPaidMinor must be a positive integer"
    | _ => .error "amountPaidMinor must be a positive integer"
  require (match Json.field body "currency" with | some (.str c) => c = "usd" | _ => false) "currency must be usd"
  require (match Json.field body "paidOutOfBand" with | some (.bool b) => !b | _ => false)
    "paidOutOfBand must be false"
  require (match Json.field body "billingReason" with | some (.str r) => r = "subscription_cycle" | _ => false)
    "billingReason must be subscription_cycle"
  return (paymentReferenceFingerprint env paymentReference, amountPaidMinor)

def noPayment (body : Body) : Except String Unit :=
  require (!paymentFields.any fun field => (Json.field body field).isSome)
    "payment fields are forbidden for this command"

def noReason (body : Body) : Except String Unit :=
  require (Json.field body "reason").isNone "reason is only allowed for revoke"

/-- The period end of a command that may leave it out. -/
def parseDiagnosticPeriodEnd (env : Env) (body : Body) : Except String (Option String) :=
  match Json.field body "currentPeriodEnd" with
  | none => .ok none
  | some value => some <$> readStrictPeriodEnd env (some value) false

/-- The checks of one command, behind the command matrix. -/
def parseDetail (env : Env) (body : Body) (cancelAtPeriodEnd : Bool) (status : SubscriptionStatus) :
    SubscriptionLifecycleCommand → Except String CommandDetail
  | .renewPaid => do
    let (fingerprint, amountPaidMinor) ← parsePayment env body
    let periodEnd ← readStrictPeriodEnd env (Json.field body "currentPeriodEnd") true
    require (!cancelAtPeriodEnd) "cancelAtPeriodEnd must be false for renew_paid"
    noReason body
    return .renewPaid fingerprint amountPaidMinor periodEnd
  | .reconcile => do
    noPayment body
    let periodEnd ← parseDiagnosticPeriodEnd env body
    require (!cancelAtPeriodEnd) "cancelAtPeriodEnd must be false for reconcile"
    noReason body
    return .reconcile periodEnd
  | .cancelAtPeriodEnd => do
    noPayment body
    let periodEnd ← readStrictPeriodEnd env (Json.field body "currentPeriodEnd") true
    require cancelAtPeriodEnd "cancelAtPeriodEnd must be true for cancel_at_period_end"
    noReason body
    return .cancelAtPeriodEnd periodEnd
  | .paymentAttention => do
    noPayment body
    let periodEnd ← parseDiagnosticPeriodEnd env body
    noReason body
    return .paymentAttention periodEnd
  | .revoke => do
    noPayment body
    require (Json.field body "currentPeriodEnd").isNone "currentPeriodEnd is forbidden for revoke"
    match revokeReasonForStatus status with
    | none => .error "subscriptionStatus is invalid for revoke"
    | some reason => match Json.field body "reason" with
      | none => return .revoke false
      | some _ => do
        let supplied ← readRequiredString body "reason" 40
        require (supplied = reason) "reason must match the server-derived code"
        return .revoke true

def parseCommand (env : Env) (body : Body) (common : CommonRequest) : Except String SubscriptionLifecycleRequest := do
  let providerEventType ← readRequiredString body "providerEventType" 80
  let commandValue ← readRequiredString body "command" 40
  match lifecycleCommandOf commandValue with
  | none => .error "command is unsupported"
  | some command => do
    let subscriptionStatus ← readRequiredString body "subscriptionStatus" 40
    match Json.field body "cancelAtPeriodEnd" with
    | some (.bool cancelAtPeriodEnd) => do
      let (event, status) ← validateCommandMatrix command providerEventType subscriptionStatus
      let detail ← parseDetail env body cancelAtPeriodEnd status command
      return { common with
        cancelAtPeriodEnd, providerEventType := event, subscriptionStatus := status, detail }
    | _ => .error "cancelAtPeriodEnd must be a boolean"

/-- `parseSubscriptionLifecycleRequest` of a text of so many bytes that `JSON.parse` reads as `parsed`. -/
def parseSubscriptionLifecycleRequest (env : Env) (bytes : Nat) (parsed : Json) (now : Int) :
    Except String SubscriptionLifecycleRequest := do
  require (bytes ≤ maxLifecycleBodyBytes) "request body is too large"
  match parsed with
  | .obj body => do
    let common ← parseCommon body now
    parseCommand env body common
  | _ => .error "request body must be a JSON object"

/-! ## A later clock accepts what an earlier one did -/

theorem readEventCreatedAt_later {value : Option Json} {now later timestamp : Int} (hle : now ≤ later)
    (h : readEventCreatedAt value now = .ok timestamp) : readEventCreatedAt value later = .ok timestamp := by
  unfold readEventCreatedAt at h ⊢
  split at h
  · split_ifs at h with hsafe hskew
    rw [if_neg hsafe, if_neg (by omega)]
    exact h
  · cases h

theorem parseCommon_later {body : Body} {now later : Int} {common : CommonRequest} (hle : now ≤ later)
    (h : parseCommon body now = .ok common) : parseCommon body later = .ok common := by
  obtain ⟨_, hfields, h⟩ := bind_eq_ok h
  obtain ⟨_, hschema, h⟩ := bind_eq_ok h
  obtain ⟨key, hkey, h⟩ := bind_eq_ok h
  obtain ⟨eventId, heventId, h⟩ := bind_eq_ok h
  obtain ⟨createdAt, hcreatedAt, h⟩ := bind_eq_ok h
  rw [parseCommon, hfields, ok_bind, hschema, ok_bind, hkey, ok_bind, heventId, ok_bind,
    readEventCreatedAt_later hle hcreatedAt, ok_bind]
  exact h

theorem parseSubscriptionLifecycleRequest_later {env : Env} {bytes : Nat} {parsed : Json} {now later : Int}
    {r : SubscriptionLifecycleRequest} (hle : now ≤ later)
    (h : parseSubscriptionLifecycleRequest env bytes parsed now = .ok r) :
    parseSubscriptionLifecycleRequest env bytes parsed later = .ok r := by
  cases parsed with
  | obj body =>
    obtain ⟨_, hbytes, h⟩ := bind_eq_ok h
    obtain ⟨common, hcommon, h⟩ := bind_eq_ok h
    change (require _ _ >>= fun _ => parseCommon body later >>= parseCommand env body) = _
    rw [hbytes, ok_bind, parseCommon_later hle hcommon, ok_bind]
    exact h
  | _ =>
    obtain ⟨_, -, h⟩ := bind_eq_ok h
    cases h

end NeonDiff.License
