import Mathlib.Data.List.Infix
import NeonDiff.Billing.Webhook
import NeonDiff.License.Service

/-! # The endpoints that hand out a licence key

A checkout's issuance and its redemption, and the issuance to a release workflow that GitHub vouches for.
-/

namespace NeonDiff.Issuance

open NeonDiff.Lib NeonDiff.License NeonDiff.Billing

/-! ## Checkout issuance -/

structure LicenseIssuanceRequest where
  idempotencyKey : String
  checkoutLookupKey : String
  provider : String
  providerAccountId : String
  providerMode : String
  externalSubscriptionId : String
  externalCheckoutId : String

def LicenseIssuanceRequest.issueInput (req : LicenseIssuanceRequest) : IssueBoundCheckoutLicenseFields :=
  { idempotencyKey := req.idempotencyKey
    checkoutLookupKey := req.checkoutLookupKey
    binding := ⟨req.provider, req.providerAccountId, req.providerMode, req.externalSubscriptionId,
      req.externalCheckoutId⟩ }

def entitlementFromRecord (record : LicenseRecord) : List (String × Json) :=
  [("status", .str "active"), ("repoVisibilityScope", .str record.repoVisibilityScope.text),
    ("privateRepoAllowed", .bool record.privateRepoAllowed), ("updateEntitlement", .bool record.updateEntitlement),
    ("plan", .str record.plan), ("seats", .int record.seats)] ++ optionalField "expiresAt" record.expiresAt

def issueCheckoutLicense (env : Env) (now : Int) (req : LicenseIssuanceRequest) (issuanceSecret : String)
    (s : Licenses) : ServiceResult × Licenses :=
  let rawKey := deriveCheckoutLicenseKey env issuanceSecret req.idempotencyKey
  match issueBoundCheckoutLicense env now rawKey req.issueInput s with
  | .ok (issued, s) =>
    (⟨200, [("status", .str "issued"), ("replayed", .bool issued.replayed),
      ("idempotencyKey", .str req.idempotencyKey), ("licenseKey", .str rawKey),
      ("licenseKeyHash", .str issued.record.licenseKeyHash),
      ("entitlement", .obj (entitlementFromRecord issued.record))]⟩, s)
  | .error e =>
    if e.kind = .checkoutIssuanceConflict then (⟨409, [("status", .str "conflict"), ("detail", .str e.message)]⟩, s)
    else (⟨500, [("status", .str "server"), ("detail", .str "license issuance failed")]⟩, s)

/-! ## Redemption of a fulfilled checkout -/

inductive RedeemError where
  | request (e : WebhookError)
  | store (e : StoreError)

def entitlement (record : LicenseRecord) : List (String × Json) :=
  [("status", .str "active"), ("plan", .str record.plan), ("seats", .int record.seats)] ++
    optionalField "expiresAt" record.expiresAt ++ [("updateEntitlement", .bool record.updateEntitlement)]

def redeemStripeCheckout (env : Env) (now : Int) (runtime : StripeCheckoutRuntime)
    (sessionId fulfillmentToken : String) (s : Licenses) : Except RedeemError (ServiceResult × Licenses) := do
  let canonicalSessionId ←
    (stripeId (some (.str sessionId)) "cs_" "checkout session id").mapError RedeemError.request
  let rawKey := deriveCheckoutLicenseKey env runtime.licenseDerivationSecret ("checkout-session:" ++ canonicalSessionId)
  let (redeemed, s) ←
    (License.redeemStripeCheckout env now rawKey canonicalSessionId fulfillmentToken s).mapError RedeemError.store
  return (⟨200, [("status", .str "redeemed"), ("licenseKey", .str rawKey),
    ("entitlement", .obj (entitlement redeemed.1))]⟩, s)

/-! ## Issuance to a release workflow -/

structure LifecycleIssuanceRequest where
  releaseVersion : String
  candidateHead : String
  packShasum : String
  packIntegrity : String

structure LifecycleOidcClaims where
  repository : String
  repositoryId : String
  runId : String
  sha : String

/-- One issuance for each run of the workflow. -/
def LifecycleOidcClaims.idempotencyKey (claims : LifecycleOidcClaims) : String :=
  "github-oidc:" ++ claims.repositoryId ++ ":" ++ claims.runId

def lifecycleRequestHash (env : Env) (request : LifecycleIssuanceRequest) : String :=
  env.sha256 (String.ofList (Json.stringify (.obj
    [("releaseVersion", .str request.releaseVersion), ("candidateHead", .str request.candidateHead),
      ("packShasum", .str request.packShasum), ("packIntegrity", .str request.packIntegrity)])))

def lifecycleLicenseKey (env : Env) (issuanceSecret : String) (claims : LifecycleOidcClaims) : String :=
  "nd_live_" ++ env.hmac24 issuanceSecret ("lifecycle-license:" ++ claims.idempotencyKey)

def lifecycleInput (env : Env) (request : LifecycleIssuanceRequest) (claims : LifecycleOidcClaims)
    (expiresAt : String) : IssueIdempotentLicenseInput :=
  { idempotencyKey := claims.idempotencyKey
    requestHash := lifecycleRequestHash env request
    source := some "github_actions_oidc_lifecycle"
    externalRef := some (claims.repository ++ ":" ++ claims.runId)
    plan := "release_lifecycle"
    repoVisibilityScope := .all
    privateRepoAllowed := some true
    updateEntitlement := some true
    seats := some 1
    expiresAt := some expiresAt }

/-- The date arithmetic stands before the `try`, so an expiry past the last date throws. -/
def issueLifecycleLicense (env : Env) (now : Int) (request : LifecycleIssuanceRequest) (claims : LifecycleOidcClaims)
    (issuanceSecret : String) (s : Licenses) : Except StoreError (ServiceResult × Licenses) :=
  if request.candidateHead ≠ claims.sha then
    .ok (⟨403, [("status", .str "forbidden"),
      ("detail", .str "candidate head is not the authorized workflow SHA")]⟩, s)
  else do
    let rawKey := lifecycleLicenseKey env issuanceSecret claims
    let expiresAt ← isoText (now + 15 * 60000)
    match issueIdempotentLicense env rawKey (lifecycleInput env request claims expiresAt) s with
    | .ok ((record, replayed), s) =>
      return (⟨200, [("status", .str "issued"), ("replayed", .bool replayed), ("licenseKey", .str rawKey),
        ("licenseKeyHash", .str record.licenseKeyHash), ("entitlement", .obj (entitlementFromRecord record))]⟩, s)
    | .error e =>
      if "idempotency key".toList <:+: e.message.toList then
        return (⟨409, [("status", .str "conflict"),
          ("detail", .str "workflow run was already used with different release data")]⟩, s)
      else return (⟨500, [("status", .str "server"), ("detail", .str "license issuance failed")]⟩, s)

end NeonDiff.Issuance
