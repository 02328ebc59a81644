import NeonDiff.Lib.Checked
import NeonDiff.Lib.Json
import NeonDiff.License.Types

/-! # The GitHub broker: issuing installation tokens -/

namespace NeonDiff.Broker

open NeonDiff.Lib NeonDiff.Lib.JsText NeonDiff.License

/-! ## Refusals -/

inductive BrokerReason where
  | invalidRequest | deviceNotRegistered | invalidDeviceCredential | stateNotFound | stateExpired | stateReplayed
  | bindingNotFound | installationNotFound | installationUninstalled | installationSuspended
  | installationAuthorizationUnverified | accountLinkRequired | accountIdentityUnverified
  | accountAuthorityUnavailable | repoOutsideInstallation | repoOutsideAuthorization | repoRenamedOrTransferred
  | visibilityUnknown | entitlementMissing | entitlementExpired | entitlementRevoked | entitlementInvalid
  | entitlementScopeInsufficient | entitlementSeatExhausted | entitlementReplayConflict
  | entitlementServiceUnavailable | rateLimited | brokerUnavailable
  deriving DecidableEq, Repr

structure BrokerError where
  reason : BrokerReason
  detail : String
  deriving DecidableEq, Repr

/-! ## The request -/

def minimalReviewPermissions : List (String × String) :=
  [("actions", "read"), ("checks", "read"), ("contents", "read"), ("metadata", "read"), ("pull_requests", "write")]

def permissionScopeRank : List (String × Nat) := [("read", 1), ("write", 2), ("admin", 3)]

structure TokenRequest where
  installationId : Int
  repositories : List String
  permissions : Option (List (String × String))
  activationKey : Option String
  deriving DecidableEq, Repr

def invalid (detail : String) : BrokerError := ⟨.invalidRequest, detail⟩

def asObject : Json → Except BrokerError (List (String × Json))
  | .obj fields => .ok fields
  | _ => .error (invalid "request body must be a JSON object")

/-- `numberOf` is `Number(text)`, where that is an integer. -/
def parseInstallationId (numberOf : String → Option Int) (value : Option Json) : Except BrokerError Int :=
  let numeric : Option Int := match value with
    | some (.str s) => numberOf s
    | some (.int n) => some n
    | _ => none
  match numeric with
  | some n => if 0 < n then .ok n else .error (invalid "installationId must be a positive integer")
  | none => .error (invalid "installationId must be a positive integer")

/-- `/^[^/\s]+\/[^/\s]+$/`. -/
def isOwnerName (name : String) : Bool :=
  match split '/' name.toList with
  | [owner, repo] => owner ≠ [] && repo ≠ [] && !owner.any isSpace && !repo.any isSpace
  | _ => false

def parseRepository : Json → Except BrokerError String
  | .str s => if isOwnerName s then .ok s else .error (invalid "each repository must be 'owner/name'")
  | _ => .error (invalid "each repository must be 'owner/name'")

/-- `/^[a-z_]{1,40}$/`. -/
def isPermissionKey (key : String) : Bool :=
  key ≠ "" && key.toList.length ≤ 40 && key.toList.all fun c => ('a' ≤ c && c ≤ 'z') || c = '_'

/-- `PERMISSION_SCOPE_RANK[scope] > PERMISSION_SCOPE_RANK[allowed]`: a comparison with `undefined` is false. -/
def outranks (scope : String) (allowed : Found String) : Bool :=
  match lookup permissionScopeRank scope, allowed with
  | .own rank, .own a => match lookup permissionScopeRank a with
    | .own allowedRank => allowedRank < rank
    | _ => false
  | _, _ => false

/-- The loop of `parsePermissions` over the entries, on the permissions so far. -/
def parsePermissionEntries : List (String × Json) → List (String × String) →
    Except BrokerError (List (String × String))
  | [], permissions => .ok permissions
  | (key, value) :: rest, permissions =>
    match value with
    | .str scope =>
      if !isPermissionKey key || !(permissionScopeRank.any fun e => e.1 = scope) then
        .error (invalid "permissions must map scope names to read/write/admin")
      else
        let allowed := lookup minimalReviewPermissions key
        if allowed = .undefined || outranks scope allowed then
          .error (invalid "permissions exceed the minimal review allowlist")
        else parsePermissionEntries rest (assign permissions key scope)
    | _ => .error (invalid "permissions must map scope names to read/write/admin")

def parsePermissions : Option Json → Except BrokerError (Option (List (String × String)))
  | none => .ok none
  | some (.obj entries) => do
    let permissions ← parsePermissionEntries entries []
    return if permissions = [] then none else some permissions
  | some _ => .error (invalid "permissions must be an object")

def parseActivationKey : Option Json → Except BrokerError (Option String)
  | none => .ok none
  | some (.str value) =>
    let trimmed := trim value.toList
    if trimmed = [] || length trimmed > 512 then .error (invalid "activationKey is invalid")
    else .ok (some (String.ofList trimmed))
  | some _ => .error (invalid "activationKey must be a string")

def parseRepositories : Option Json → Except BrokerError (List String)
  | some (.arr (item :: items)) =>
    if (item :: items).length > 50 then .error (invalid "too many repositories requested")
    else (item :: items).mapM parseRepository
  | _ => .error (invalid "repositories must be a non-empty array")

def parseTokenRequest (numberOf : String → Option Int) (body : Json) : Except BrokerError TokenRequest := do
  let record ← asObject body
  let installationId ← parseInstallationId numberOf (Json.field record "installationId")
  let repositories ← parseRepositories (Json.field record "repositories")
  let permissions ← parsePermissions (Json.field record "permissions")
  let activationKey ← parseActivationKey (Json.field record "activationKey")
  return ⟨installationId, repositories, permissions, activationKey⟩

/-! ## The store and the rate limiter -/

structure DeviceRow where
  deviceId : String
  publicJwk : String
  lastSeenAt : Int
  deriving DecidableEq, Repr

structure InstallationBindingRow where
  deviceId : String
  installationId : Int
  accountLogin : Option String
  deriving DecidableEq, Repr

def InstallationBindingRow.key (row : InstallationBindingRow) : String × Int := (row.deviceId, row.installationId)

structure BindingRepositoryRow where
  deviceId : String
  installationId : Int
  fullName : String
  deriving DecidableEq, Repr

inductive LedgerDecision where
  | allow | deny
  deriving DecidableEq, Repr

structure DecisionLedgerRow where
  deviceId : String
  installationId : Int
  decision : LedgerDecision
  /-- Nothing stands for the reason code `issued`. -/
  reasonCode : Option BrokerReason
  createdAt : Int
  deriving DecidableEq, Repr

structure BrokerStore where
  devices : Table DeviceRow.deviceId := .empty
  bindings : Table InstallationBindingRow.key := .empty
  bindingRepositories : List BindingRepositoryRow := []
  ledger : List DecisionLedgerRow := []

namespace BrokerStore

def getBinding (s : BrokerStore) (deviceId : String) (installationId : Int) : Option InstallationBindingRow :=
  s.bindings.find? (deviceId, installationId)

def listBindingRepositories (s : BrokerStore) (deviceId : String) (installationId : Int) : List String :=
  (s.bindingRepositories.filter fun r => r.deviceId = deviceId && r.installationId = installationId).map (·.fullName)

def touchDevice (s : BrokerStore) (deviceId : String) (now : Int) : BrokerStore :=
  { s with
    devices := s.devices.update (fun d => if d.deviceId = deviceId then { d with lastSeenAt := now } else d)
      (fun d => by split <;> rfl) }

def appendDecision (s : BrokerStore) (row : DecisionLedgerRow) : BrokerStore := { s with ledger := s.ledger ++ [row] }

end BrokerStore

/-- The times of the requests let through, under each key. -/
structure RateLimiter where
  maxPerWindow : Nat := 60
  windowMs : Int := 60000
  hits : String → List Int := fun _ => []

def RateLimiter.allow (limiter : RateLimiter) (key : String) (now : Int) : Bool × RateLimiter :=
  let recent := (limiter.hits key).filter fun t => now - limiter.windowMs < t
  if limiter.maxPerWindow ≤ recent.length then
    (false, { limiter with hits := fun k => if k = key then recent else limiter.hits k })
  else (true, { limiter with hits := fun k => if k = key then recent ++ [now] else limiter.hits k })

/-! ## The installation client and the device credential -/

inductive Visibility where
  | pub | priv | internal | unknown
  deriving DecidableEq, Repr

structure InstallationSummary where
  accountLogin : Option String := none
  suspended : Bool
  deriving DecidableEq, Repr

structure InstallationRepository where
  id : Int
  fullName : String
  visibility : Visibility
  deriving DecidableEq, Repr

structure MintCall where
  installationId : Int
  repositoryIds : List Int
  permissions : List (String × String)
  deriving DecidableEq, Repr

structure InstallationAccessToken where
  token : String
  expiresAt : String
  deriving DecidableEq, Repr

/-- What the client throws: one of its classes, or anything else. -/
inductive ClientError where
  | rateLimited | renamedOrTransferred | unavailable | untyped
  deriving DecidableEq, Repr

structure InstallationClient where
  getInstallation : Int → Except ClientError (Option InstallationSummary)
  listInstallationRepositories : Int → Except ClientError (List InstallationRepository)
  createInstallationAccessToken : MintCall → Except ClientError InstallationAccessToken

def mapClientError : ClientError → BrokerError
  | .rateLimited => ⟨.rateLimited, "GitHub rate limit reached"⟩
  | .renamedOrTransferred => ⟨.repoRenamedOrTransferred, "a repository was renamed or transferred"⟩
  | .unavailable => ⟨.brokerUnavailable, "GitHub is temporarily unavailable"⟩
  | .untyped => ⟨.brokerUnavailable, "GitHub is temporarily unavailable"⟩

def clientCall {α : Type} (answer : Except ClientError α) : Except BrokerError α := answer.mapError mapClientError

/-- The token library: the subject of a token that decodes, and whether a key imports and verifies a token. -/
structure Jose where
  decodeSub : String → Option String
  importable : String → Bool
  verifies : String → String → String → Int → Bool

/-- `bearerToken`. -/
def bearerToken (header : Option String) : Option String :=
  header.bind fun value =>
    if startsWith value "Bearer " && value ≠ "Bearer " then some (String.ofList (value.toList.drop 7)) else none

def authenticateDevice (jose : Jose) (store : BrokerStore) (authorization : Option String) (now : Int) :
    Except BrokerError (String × BrokerStore) := do
  let some token := bearerToken authorization
    | throw ⟨.invalidDeviceCredential, "a device-signed bearer token is required"⟩
  let some subject := (jose.decodeSub token).filter (· ≠ "")
    | throw ⟨.invalidDeviceCredential, "device credential is malformed"⟩
  let some device := store.devices.find? subject
    | throw ⟨.deviceNotRegistered, "device is not registered"⟩
  require (jose.importable device.publicJwk) ⟨.invalidDeviceCredential, "device key could not be loaded"⟩
  require (jose.verifies token device.publicJwk subject now)
    ⟨.invalidDeviceCredential, "device credential failed verification"⟩
  return (subject, store.touchDevice subject now)

/-! ## Entitlement -/

inductive EntitlementSnapshot where
  | active (coveredPrivateRepositories : List String)
  | expired | revoked | invalid | seatExhausted | replayConflict | serviceUnavailable | none
  deriving DecidableEq, Repr

structure EntitlementResolutionContext where
  deviceId : String
  installationId : Int
  accountLogin : Option String
  privateRepositories : List String
  activationKey : Option String
  deriving DecidableEq, Repr

/-- A resolver; nothing stands for a throw. -/
abbrev EntitlementResolver := EntitlementResolutionContext → Option EntitlementSnapshot

/-- `normalizeActivationKey`. -/
def normalizeActivationKey (value : Option String) : Option String :=
  value.bind fun v =>
    let trimmed := trim v.toList
    if trimmed = [] || length trimmed > 512 then none else some (String.ofList trimmed)

section
variable (sha256 : String → String) (dateParse : String → Option Int)

/-- Whether the licence counts as expired at `now`: marked so, or past an expiry, or under one that does not parse. -/
def licenseExpired (license : LicenseRecord) (now : Int) : Bool :=
  license.status = .expired || license.expiresAt.any fun e => (dateParse e).all (· ≤ now)

/-- `createLicenseStoreEntitlementResolver`, on a licence store that answers. -/
def licenseStoreEntitlement (licenses : Licenses) (now : Int) (context : EntitlementResolutionContext) :
    EntitlementSnapshot :=
  match normalizeActivationKey context.activationKey with
  | none => .none
  | some activationKey =>
    match licenses.getLicenseByKey sha256 activationKey with
    | none => .invalid
    | some license =>
      if license.status = .revoked then .revoked
      else if licenseExpired dateParse license now then .expired
      else match licenses.getActivation license.licenseKeyHash context.deviceId with
        | none => .replayConflict
        | some activation =>
          match activation.repo with
          | none => .active []
          | some repo =>
            if !license.privateRepoAllowed || license.repoVisibilityScope = .pub then .active []
            else .active (if context.privateRepositories.contains repo then [repo] else [])

/-- The resolver over a licence store; without one its lookups throw. -/
def createLicenseStoreEntitlementResolver (licenses : Option Licenses) (now : Int) : EntitlementResolver :=
  fun context => licenses.map fun l => licenseStoreEntitlement sha256 dateParse l now context

end

/-! ## The seam -/

structure RequestedRepository where
  fullName : String
  id : Int
  visibility : Visibility
  deriving DecidableEq, Repr

def entitlementDenialReason : EntitlementSnapshot → BrokerReason
  | .active _ => .entitlementScopeInsufficient
  | .expired => .entitlementExpired
  | .revoked => .entitlementRevoked
  | .invalid => .entitlementInvalid
  | .seatExhausted => .entitlementSeatExhausted
  | .replayConflict => .entitlementReplayConflict
  | .serviceUnavailable => .entitlementServiceUnavailable
  | .none => .entitlementMissing

/-- The one decision point: the names to mint for, or the reason of the denial. -/
def authorizeTokenIssuance (repositories : List RequestedRepository) (entitlement : EntitlementSnapshot) :
    Except BrokerReason (List String) :=
  if repositories = [] then .error .invalidRequest
  else if repositories.any fun r => r.visibility = .unknown then .error .visibilityUnknown
  else
    let nonPublic := repositories.filter fun r => r.visibility ≠ .pub
    if nonPublic = [] then .ok (repositories.map (·.fullName))
    else match entitlement with
      | .active covered =>
        if nonPublic.all fun r => covered.contains r.fullName then .ok (repositories.map (·.fullName))
        else .error .entitlementScopeInsufficient
      | e => .error (entitlementDenialReason e)

/-! ## Issuing -/

/-- What one request meets outside the broker: texts and clocks, the client's answers, the entitlement authority,
and what other requests do to the store while this one waits for the client. -/
structure Surroundings where
  sha256 : String → String
  numberOf : String → Option Int
  jose : Jose
  now : Int
  client : InstallationClient
  resolveEntitlement : EntitlementResolver
  meanwhile : BrokerStore → BrokerStore

structure BrokerState where
  store : BrokerStore
  tokenRateLimiter : RateLimiter := {}
  /-- Every call of the mint endpoint, whatever it answered. -/
  mints : List MintCall := []

structure IssuedToken where
  token : String
  expiresAt : String
  repositories : List String
  permissions : List (String × String)
  deriving DecidableEq, Repr

section
variable (env : Surroundings)

def resolveInstallation (installationId : Int) : Except BrokerError InstallationSummary := do
  match ← clientCall (env.client.getInstallation installationId) with
  | some installation => return installation
  | none => throw ⟨.installationUninstalled, "installation was not found"⟩

/-- The entries of `byName`. -/
def repositoriesByName (available : List InstallationRepository) : List (String × InstallationRepository) :=
  available.map fun r => (r.fullName, r)

def resolveRequestedRepository (available : List InstallationRepository) (fullName : String) :
    Except BrokerError RequestedRepository :=
  match mapGet (repositoriesByName available) fullName with
  | some found => .ok ⟨fullName, found.id, found.visibility⟩
  | none => .error ⟨.repoOutsideInstallation, "a requested repository is not in the installation selection"⟩

def resolveRequestedRepositories (installationId : Int) (repositories : List String) :
    Except BrokerError (List RequestedRepository) := do
  let available ← clientCall (env.client.listInstallationRepositories installationId)
  repositories.mapM (resolveRequestedRepository available)

def resolveEntitlementForRequest (deviceId : String) (installationId : Int) (accountLogin : Option String)
    (requested : List RequestedRepository) (activationKey : Option String) : EntitlementSnapshot :=
  let privateRepositories := (requested.filter fun r => r.visibility ≠ .pub).map (·.fullName)
  if requested.any fun r => r.visibility = .unknown then .none
  else if privateRepositories = [] then .none
  else (env.resolveEntitlement ⟨deviceId, installationId, accountLogin.filter (· ≠ ""), privateRepositories,
    activationKey.filter (· ≠ "")⟩).getD .serviceUnavailable

/-- The part of the `try` block before the mint: what is to be minted, and for which names. -/
def prepareMint (store : BrokerStore) (deviceId : String) (request : TokenRequest) :
    Except BrokerError (MintCall × List String) := do
  let some _ := store.getBinding deviceId request.installationId
    | throw ⟨.bindingNotFound, "no binding for this device and installation"⟩
  let installation ← resolveInstallation env request.installationId
  require (!installation.suspended) ⟨.installationSuspended, "installation is suspended"⟩
  let requested ← resolveRequestedRepositories env request.installationId request.repositories
  let authorizedRepositories := (env.meanwhile store).listBindingRepositories deviceId request.installationId
  require (requested.all fun r => authorizedRepositories.contains r.fullName)
    ⟨.repoOutsideAuthorization, "a requested repository is outside the connecting user's authorized set"⟩
  let entitlement := resolveEntitlementForRequest env deviceId request.installationId installation.accountLogin
    requested request.activationKey
  let names ← (authorizeTokenIssuance requested entitlement).mapError fun reason =>
    ⟨reason, "token issuance is not authorized for the requested repositories"⟩
  -- `idByName.get(fullName) as number`: every name is there
  let repositoryIds := names.filterMap (mapGet (requested.map fun r => (r.fullName, r.id)))
  return (⟨request.installationId, repositoryIds, request.permissions.getD minimalReviewPermissions⟩, names)

/-- The `try` block: what it prepares is minted, and the decision is appended either way. -/
def decideAndMint (broker : BrokerState) (deviceId : String) (request : TokenRequest) :
    Except BrokerError IssuedToken × BrokerState :=
  let store := env.meanwhile broker.store
  let append (decision : LedgerDecision) (reasonCode : Option BrokerReason) : BrokerStore :=
    store.appendDecision ⟨deviceId, request.installationId, decision, reasonCode, env.now⟩
  match prepareMint env broker.store deviceId request with
  | .error e => (.error e, { broker with store := append .deny (some e.reason) })
  | .ok (call, names) =>
    let broker := { broker with mints := broker.mints ++ [call] }
    match clientCall (env.client.createInstallationAccessToken call) with
    | .error e => (.error e, { broker with store := append .deny (some e.reason) })
    | .ok minted => (.ok ⟨minted.token, minted.expiresAt, names, call.permissions⟩,
        { broker with store := append .allow none })

def issueToken (authorization : Option String) (body : Json) (broker : BrokerState) :
    Except BrokerError IssuedToken × BrokerState :=
  match authenticateDevice env.jose broker.store authorization env.now with
  | .error e => (.error e, broker)
  | .ok (deviceId, store) =>
    let broker := { broker with store := store }
    match parseTokenRequest env.numberOf body with
    | .error e => (.error e, broker)
    | .ok request =>
      let (allowed, limiter) := broker.tokenRateLimiter.allow (env.sha256 ("token:" ++ deviceId)) env.now
      let broker := { broker with tokenRateLimiter := limiter }
      if !allowed then (.error ⟨.rateLimited, "too many token requests for this device"⟩, broker)
      else
        let (allowed, limiter) := broker.tokenRateLimiter.allow
          (env.sha256 ("token-inst:" ++ toString request.installationId)) env.now
        let broker := { broker with tokenRateLimiter := limiter }
        if !allowed then (.error ⟨.rateLimited, "too many token requests for this installation"⟩, broker)
        else decideAndMint env broker deviceId request

end

end NeonDiff.Broker
