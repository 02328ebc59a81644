import NeonDiff.Lib.IsoDate
import NeonDiff.Lib.Json

/-! # The licence client

The client keeps the licence key and the last active entitlement in two files, and asks the licence API.
-/

namespace NeonDiff.Admission

open NeonDiff.Lib NeonDiff.Lib.JsText

/-! ## Types -/

inductive LicenseStatus where
  | active | expired | revoked | invalid | missing | network | server | scopeMismatch | rateLimited
  | unsupportedClient | clockSkew
  deriving DecidableEq, Repr

def LicenseStatus.text : LicenseStatus → String
  | active => "active"
  | expired => "expired"
  | revoked => "revoked"
  | invalid => "invalid"
  | missing => "missing"
  | network => "network"
  | server => "server"
  | scopeMismatch => "scope_mismatch"
  | rateLimited => "rate_limited"
  | unsupportedClient => "unsupported_client"
  | clockSkew => "clock_skew"

/-- The statuses of `LicenseApiBodyStatus`. -/
def licenseApiBodyStatuses : List LicenseStatus :=
  [.active, .expired, .revoked, .invalid, .scopeMismatch, .rateLimited, .unsupportedClient, .clockSkew]

inductive RepoVisibilityScope where
  | pub | priv | all
  deriving DecidableEq, Repr

def RepoVisibilityScope.text : RepoVisibilityScope → String
  | pub => "public"
  | priv => "private"
  | all => "all"

inductive Visibility where
  | pub | priv | unknown
  deriving DecidableEq, Repr

def Visibility.text : Visibility → String
  | pub => "public"
  | priv => "private"
  | unknown => "unknown"

inductive LicenseStorageBackend where
  | keychain | file
  deriving DecidableEq, Repr

structure LicenseConfig where
  enabled : Bool := true
  apiBaseUrl : Option String := none
  storageBackend : LicenseStorageBackend := .file
  keyPath : Option String := none
  keychainService : String := ""
  keychainAccount : String := ""
  offlineGraceMs : Int := 0
  publicReposFree : Bool := true
  privateReposRequireEntitlement : Bool := true
  updateEntitlementRequiresLicense : Bool := true
  deriving DecidableEq, Repr

inductive JsonNumber where
  | int (n : Int)
  | fraction (text : String)
  deriving DecidableEq, Repr

def JsonNumber.json : JsonNumber → Json
  | int n => .int n
  | fraction text => .fraction text

structure LicenseEntitlement where
  status : LicenseStatus
  checkedAt : String
  expiresAt : Option String := none
  repoVisibilityScope : RepoVisibilityScope
  privateRepoAllowed : Option Bool := none
  updateEntitlement : Bool
  offlineGraceMs : Option JsonNumber := none
  graceUntil : Option String := none
  revocationReason : Option String := none
  plan : Option String := none
  seats : Option JsonNumber := none
  licenseFingerprint : Option String := none
  deriving DecidableEq, Repr

inductive Source where
  | cache | api | none
  deriving DecidableEq, Repr

structure LicenseStatusResult where
  ok : Bool
  status : LicenseStatus
  source : Source
  checkedAt : String
  entitlement : Option LicenseEntitlement := none
  stale : Bool := false
  classification : Option LicenseStatus := none
  detail : String
  deriving DecidableEq, Repr

/-- A `Date` that is not `Invalid Date`. -/
structure Date where
  getTime : Int
  valid : IsoDate.isTime getTime = true
  deriving DecidableEq

def Date.toISOString (date : Date) : String := IsoDate.toISOString date.getTime

/-- What the client takes from its runtime. -/
structure Env where
  /-- The hex digits of the digest. -/
  sha256 : String → Fin 64 → Fin 16
  redactSecrets : String → String
  localMachineId : String
  /-- The URL of a path below a base URL, or why there is none. -/
  buildApiUrl : String → String → Except String String
  /-- `Date.parse` of a text that `toISOString` does not write. -/
  legacyDate : String → Option Int

def Env.dateParse (env : Env) : String → Option Int := IsoDate.dateParse env.legacyDate

theorem Env.dateParse_toISOString (env : Env) (date : Date) : env.dateParse date.toISOString = some date.getTime := by
  rw [Env.dateParse, Date.toISOString, IsoDate.dateParse_toISOString _ date.valid]

/-- `fingerprintLicenseKey`: the first 16 hex digits of the key's digest. -/
def fingerprintLicenseKey (env : Env) (key : String) : String :=
  String.ofList (((List.ofFn (env.sha256 key)).take 16).map fun digit => Json.hexDigit digit.val)

/-! ## Reading JSON records -/

def readString (body : Json) (key : String) : Option String :=
  match body with
  | .obj fields => match Json.field fields key with
    | some (.str value) => if trim value.toList = [] then none else some value
    | _ => none
  | _ => none

def readBoolean (body : Json) (key : String) : Option Bool :=
  match body with
  | .obj fields => match Json.field fields key with
    | some (.bool value) => some value
    | _ => none
  | _ => none

def readNumber (body : Json) (key : String) : Option JsonNumber :=
  match body with
  | .obj fields => match Json.field fields key with
    | some (.int n) => some (.int n)
    | some (.fraction text) => some (.fraction text)
    | _ => none
  | _ => none

def readBodyStatus (body : Json) : Option LicenseStatus :=
  (readString body "status").bind fun value => licenseApiBodyStatuses.find? fun status => status.text = value

def readRepoVisibilityScope (body : Json) : Option RepoVisibilityScope :=
  ((readString body "repoVisibilityScope").or (readString body "repoScope")).bind fun value =>
    [RepoVisibilityScope.pub, .priv, .all].find? fun scope => scope.text = value

/-! ## Texts -/

def maxRevocationReasonLength : Nat := 240

/-- `text.split(part).join(by)` for a part that is not empty. -/
def replaceAll (part replacement : List Char) : List Char → List Char
  | [] => []
  | c :: cs =>
    if part ≠ [] && part.isPrefixOf (c :: cs) then
      replacement ++ replaceAll part replacement (cs.drop (part.length - 1))
    else c :: replaceAll part replacement cs
termination_by text => text.length
decreasing_by
  all_goals
    simp only [List.length_drop, List.length_cons]
    omega

def redactSubmittedLicenseKey (env : Env) (text licenseKey : String) : String :=
  if licenseKey = "" then env.redactSecrets text
  else env.redactSecrets
    (String.ofList (replaceAll licenseKey.toList "[REDACTED_LICENSE_KEY]".toList text.toList))

/-- Every character that is not printable ASCII becomes a space, and every run of spaces one space. -/
def printable : List Char → List Char
  | [] => []
  | c :: cs =>
    let rest := printable cs
    if ' ' < c && c ≤ '~' then c :: rest
    else if rest.head? = some ' ' then rest else ' ' :: rest

def sanitizeRevocationReason (env : Env) (value : Option String) (licenseKey : String) : Option String :=
  value.bind fun value =>
    let normalized := trim (printable (redactSubmittedLicenseKey env value licenseKey).toList)
    if normalized = [] then none
    else if normalized.length ≤ maxRevocationReasonLength then some (String.ofList normalized)
    else some (String.ofList (normalized.take (maxRevocationReasonLength - 3) ++ "...".toList))

/-! ## Results -/

def missingResult (now : Date) (detail : String) : LicenseStatusResult :=
  { ok := false, status := .missing, source := .none, checkedAt := now.toISOString, classification := some .missing
    detail }

def serverResult (now : Date) (detail : String) : LicenseStatusResult :=
  { ok := false, status := .server, source := .none, checkedAt := now.toISOString, classification := some .server
    detail }

def invalidApiResult (now : Date) (detail : String) : LicenseStatusResult :=
  { ok := false, status := .invalid, source := .api, checkedAt := now.toISOString, classification := some .invalid
    detail }

/-! ## The licence API -/

structure ApiRequest where
  url : String
  licenseKey : String
  repo : Option String
  machineId : String
  deriving DecidableEq, Repr

/-- What a request comes to: it throws, or the response has a status and a body. An empty body and one
that is no JSON text count as an empty record. -/
inductive ApiOutcome where
  | throws (message : String)
  | response (status : Nat) (body : Json)

abbrev Fetch : Type := ApiRequest → ApiOutcome

def shouldDeleteLicenseCacheForStatus (status : LicenseStatus) : Bool :=
  status = .expired || status = .revoked || status = .invalid || status = .scopeMismatch ||
  status = .unsupportedClient

def shouldTrustApiBodyStatusForError (statusCode : Nat) (status : LicenseStatus) : Bool :=
  if status = .active then false
  else if shouldDeleteLicenseCacheForStatus status then true
  else if status = .rateLimited then statusCode = 429
  else if status = .clockSkew then statusCode = 400
  else false

def statusFromCode (statusCode : Nat) : LicenseStatus :=
  if statusCode = 402 then .expired
  else if statusCode = 429 then .rateLimited
  else if statusCode = 426 then .unsupportedClient
  else if statusCode = 409 then .scopeMismatch
  else if statusCode = 403 || statusCode = 410 then .revoked
  else if statusCode = 401 || statusCode = 404 then .invalid
  else .server

def statusFromApiError (statusCode : Nat) (body : Json) : LicenseStatus :=
  match readBodyStatus body with
  | some bodyStatus =>
    if shouldTrustApiBodyStatusForError statusCode bodyStatus then bodyStatus else statusFromCode statusCode
  | none => statusFromCode statusCode

def apiFailureResult (env : Env) (statusCode : Nat) (body : Json) (now : Date) (licenseKey : String) :
    LicenseStatusResult :=
  let status := if 500 ≤ statusCode then .server else statusFromApiError statusCode body
  let statusDetail := match readBodyStatus body with
    | some bodyStatus => if bodyStatus ≠ status then " classified=" ++ bodyStatus.text else ""
    | none => ""
  { ok := false, status, source := .api, checkedAt := now.toISOString, classification := some status
    detail := redactSubmittedLicenseKey env
      ("license API returned " ++ toString statusCode ++ ": " ++ status.text ++ statusDetail) licenseKey }

def entitlementRecord (body : Json) : Json :=
  match body with
  | .obj fields => match Json.field fields "entitlement" with
    | some (.obj inner) => .obj inner
    | _ => body
  | _ => body

def normalizeEntitlement (env : Env) (body : Json) (licenseKey : String) (now : Date) : Option LicenseEntitlement :=
  let record := entitlementRecord body
  match readBodyStatus record, readRepoVisibilityScope record with
  | some status, some repoVisibilityScope =>
    let expiresAt := readString record "expiresAt"
    if status = .active && expiresAt.any fun text => !(env.dateParse text).any (now.getTime < ·) then none
    else some
      { status
        checkedAt := now.toISOString
        expiresAt
        repoVisibilityScope
        privateRepoAllowed := readBoolean record "privateRepoAllowed"
        updateEntitlement := (readBoolean record "updateEntitlement").getD false
        offlineGraceMs := readNumber record "offlineGraceMs"
        graceUntil := readString record "graceUntil"
        revocationReason :=
          if status = .active then none
          else sanitizeRevocationReason env (readString record "revocationReason") licenseKey
        plan := readString record "plan"
        seats := readNumber record "seats"
        licenseFingerprint := some (fingerprintLicenseKey env licenseKey) }
  | _, _ => none

/-- What an answer of the API says, classified. -/
def classifyResponse (env : Env) (statusCode : Nat) (body : Json) (licenseKey : String) (now : Date) :
    LicenseStatusResult :=
  if !(200 ≤ statusCode && statusCode ≤ 299) then apiFailureResult env statusCode body now licenseKey
  else match normalizeEntitlement env body licenseKey now with
    | none => invalidApiResult now "license API returned malformed success response"
    | some entitlement =>
      { ok := entitlement.status = .active
        status := entitlement.status
        source := .api
        checkedAt := now.toISOString
        entitlement := some entitlement
        classification := if entitlement.status = .active then none else some entitlement.status
        detail :=
          if entitlement.status = .active then "license API returned active entitlement"
          else "license API returned " ++ entitlement.status.text }

def networkResult (env : Env) (message licenseKey : String) (now : Date) : LicenseStatusResult :=
  { ok := false, status := .network, source := .none, checkedAt := now.toISOString, classification := some .network
    detail := "license API network failure: " ++ redactSubmittedLicenseKey env message licenseKey }

structure ApiCall where
  path : String
  licenseKey : String
  repo : Option String := none
  machineId : Option String := none

def ApiCall.request (env : Env) (call : ApiCall) (url : String) : ApiRequest :=
  ⟨url, call.licenseKey, call.repo, call.machineId.getD env.localMachineId⟩

def callLicenseApi (env : Env) (config : LicenseConfig) (fetchImpl : Fetch) (now : Date) (call : ApiCall) :
    LicenseStatusResult :=
  match env.buildApiUrl (config.apiBaseUrl.getD "") call.path with
  | .error message => networkResult env message call.licenseKey now
  | .ok url => match fetchImpl (call.request env url) with
    | .throws message => networkResult env message call.licenseKey now
    | .response statusCode body => classifyResponse env statusCode body call.licenseKey now

/-! ## The key file and the cache -/

structure ApiAnswer where
  licenseKey : String
  askedAt : Date
  result : LicenseStatusResult
  deriving DecidableEq

/-- The key, the cached entitlement as `JSON.parse` reads it, what the keychain answers, and all answers
of the API, last first. -/
structure World where
  keyFile : Option String := none
  cacheFile : Option Json := none
  keychain : Except String (Option String) := .ok none
  answers : List ApiAnswer := []

/-- `callLicenseApi`, with its answer kept. -/
def askLicenseApi (env : Env) (config : LicenseConfig) (fetchImpl : Fetch) (now : Date) (call : ApiCall) (w : World) :
    LicenseStatusResult × World :=
  let result := callLicenseApi env config fetchImpl now call
  (result, { w with answers := ⟨call.licenseKey, now, result⟩ :: w.answers })

/-- A text that is not `undefined` and not empty. -/
def nonEmpty (text : Option String) : Option String := text.filter (· ≠ "")

def readFileLicenseKey (config : LicenseConfig) (w : World) : Option String :=
  (nonEmpty config.keyPath).bind fun _ =>
    nonEmpty (w.keyFile.map fun content => String.ofList (trim content.toList))

def readLicenseKey (config : LicenseConfig) (w : World) : Except String (Option String) :=
  match config.storageBackend with
  | .file => .ok (readFileLicenseKey config w)
  | .keychain => w.keychain

def readCacheRedactionLicenseKey (config : LicenseConfig) (w : World) : Option String :=
  (readLicenseKey config w).toOption.join

def optionalField (key : String) (value : Option Json) : List (String × Json) := (value.map fun v => (key, v)).toList

def LicenseEntitlement.fields (e : LicenseEntitlement) : List (String × Json) :=
  [("status", .str e.status.text), ("checkedAt", .str e.checkedAt)] ++
  optionalField "expiresAt" (e.expiresAt.map .str) ++
  [("repoVisibilityScope", .str e.repoVisibilityScope.text)] ++
  optionalField "privateRepoAllowed" (e.privateRepoAllowed.map .bool) ++
  [("updateEntitlement", .bool e.updateEntitlement)] ++
  optionalField "offlineGraceMs" (e.offlineGraceMs.map JsonNumber.json) ++
  optionalField "graceUntil" (e.graceUntil.map .str) ++
  optionalField "revocationReason" (e.revocationReason.map .str) ++
  optionalField "plan" (e.plan.map .str) ++
  optionalField "seats" (e.seats.map JsonNumber.json) ++
  optionalField "licenseFingerprint" (e.licenseFingerprint.map .str)

/-- `JSON.stringify(entitlement)`, as the value that it is the text of. -/
def LicenseEntitlement.json (e : LicenseEntitlement) : Json := .obj e.fields

def readLicenseCache (env : Env) (config : LicenseConfig) (w : World) : Option LicenseEntitlement :=
  w.cacheFile.bind fun parsed =>
    match readBodyStatus parsed, readRepoVisibilityScope parsed, readString parsed "checkedAt" with
    | some status, some repoVisibilityScope, some checkedAt =>
      some
        { status
          checkedAt
          expiresAt := readString parsed "expiresAt"
          repoVisibilityScope
          privateRepoAllowed := readBoolean parsed "privateRepoAllowed"
          updateEntitlement := (readBoolean parsed "updateEntitlement").getD false
          offlineGraceMs := readNumber parsed "offlineGraceMs"
          graceUntil := readString parsed "graceUntil"
          revocationReason :=
            if status = .active then none
            else sanitizeRevocationReason env (readString parsed "revocationReason")
              ((readCacheRedactionLicenseKey config w).getD "")
          plan := readString parsed "plan"
          seats := readNumber parsed "seats"
          licenseFingerprint := readString parsed "licenseFingerprint" }
    | _, _, _ => none

/-! ## Using the cache -/

def entitlementCurrentlyUsable (env : Env) (entitlement : LicenseEntitlement) (now : Date) : Bool :=
  entitlement.status = .active &&
  match entitlement.expiresAt with
  | none => true
  | some expiresAt => (env.dateParse expiresAt).any (now.getTime < ·)

def entitlementUsableDuringOutage (env : Env) (entitlement : LicenseEntitlement) (now : Date) (offlineGraceMs : Int) :
    Bool :=
  entitlementCurrentlyUsable env entitlement now &&
  (env.dateParse entitlement.checkedAt).any fun checkedAtMs => now.getTime ≤ checkedAtMs + offlineGraceMs

def statusFromCache (env : Env) (entitlement : Option LicenseEntitlement) (now : Date) : LicenseStatusResult :=
  match entitlement with
  | none => missingResult now "no entitlement cache exists"
  | some entitlement =>
    if entitlement.status ≠ .active then
      { ok := false, status := entitlement.status, source := .cache, checkedAt := now.toISOString
        entitlement := some entitlement, classification := some entitlement.status
        detail := "cached entitlement status is " ++ entitlement.status.text }
    else if !entitlementCurrentlyUsable env entitlement now then
      { ok := false, status := .expired, source := .cache, checkedAt := now.toISOString
        entitlement := some entitlement, classification := some .expired
        detail := "cached entitlement expired at " ++ entitlement.expiresAt.getD "unknown" }
    else
      { ok := true, status := .active, source := .cache, checkedAt := now.toISOString
        entitlement := some entitlement, detail := "cached entitlement is active" }

def cachedEntitlementMatchesLicenseKey (env : Env) (entitlement : Option LicenseEntitlement) (licenseKey : String) :
    Bool :=
  entitlement.bind (·.licenseFingerprint) = some (fingerprintLicenseKey env licenseKey)

/-! ## The operations -/

/-- `/^[A-Za-z0-9_-]{43}$/`. -/
def isThumbprint (text : String) : Bool :=
  text.toList.length = 43 && text.toList.all fun c => c.isAlphanum || c = '_' || c = '-'

abbrev LicenseSecretReader : Type := LicenseConfig → Except String (Option String)

structure StatusInput where
  config : LicenseConfig
  repo : Option String := none
  machineId : Option String := none
  refresh : Bool := false
  now : Date
  fetchImpl : Fetch
  licenseSecretReader : Option LicenseSecretReader := none
  /-- What writing the cache file throws. -/
  writeFault : Option String := none

/-- A result and the world it leaves; nothing of the world changes back when a call throws. -/
abbrev Outcome (α : Type) : Type := Except String α × World

def writeLicenseCache (entitlement : LicenseEntitlement) (w : World) : World :=
  { w with cacheFile := some entitlement.json }

def deleteLicenseCache (w : World) : World := { w with cacheFile := none }

/-- `getLicenseStatus`, once the API has answered for the key that was read. -/
def settleStatus (env : Env) (input : StatusInput) (cached : Option LicenseEntitlement) (licenseKey : String)
    (response : LicenseStatusResult) (w : World) : Outcome LicenseStatusResult :=
  match response.ok, response.entitlement with
  | true, some answered =>
    let entitlement := { answered with licenseFingerprint := some (fingerprintLicenseKey env licenseKey) }
    match input.writeFault with
    | some message => (.error message, w)
    | none => (.ok { response with entitlement := some entitlement }, writeLicenseCache entitlement w)
  | _, _ =>
    let usable := cached.filter fun entitlement =>
      input.licenseSecretReader.isNone && (response.status = .network || response.status = .server) &&
      entitlementUsableDuringOutage env entitlement input.now input.config.offlineGraceMs
    match usable with
    | some entitlement =>
      (.ok
        { ok := true, status := .active, source := .cache, checkedAt := input.now.toISOString
          entitlement := some entitlement, stale := true, classification := some response.status
          detail := "using cached entitlement after " ++ response.status.text ++ " license API failure" }, w)
    | none =>
      if shouldDeleteLicenseCacheForStatus response.status && cachedEntitlementMatchesLicenseKey env cached licenseKey then
        (.ok response, deleteLicenseCache w)
      else (.ok response, w)

/-- The key that `getLicenseStatus` asks the API for. -/
def statusLicenseKey (input : StatusInput) (w : World) : Except String (Option String) :=
  match input.licenseSecretReader with
  | some read => nonEmpty <$> read input.config
  | none => readLicenseKey input.config w

def getLicenseStatus (env : Env) (input : StatusInput) (w : World) : Outcome LicenseStatusResult :=
  if input.machineId.any fun machineId => !isThumbprint machineId then
    (.ok (invalidApiResult input.now "license machine ID must be one RFC 7638 SHA-256 broker device id"), w)
  else
    let cached := readLicenseCache env input.config w
    -- without an answer, the cache speaks for the headless client and nothing for production
    let unanswered := fun (result : LicenseStatusResult) =>
      if input.licenseSecretReader.isNone && cached.isSome then statusFromCache env cached input.now else result
    if !input.refresh then (.ok (statusFromCache env cached input.now), w)
    else match statusLicenseKey input w with
      | .error message => (.ok (invalidApiResult input.now message), w)
      | .ok none => (.ok (unanswered (missingResult input.now "no license key is stored")), w)
      | .ok (some licenseKey) =>
        if (nonEmpty input.config.apiBaseUrl).isNone then
          (.ok (unanswered (serverResult input.now "license API base URL is not configured")), w)
        else
          let call : ApiCall := ⟨"/v1/license/validate", licenseKey, input.repo, input.machineId⟩
          let (response, w) := askLicenseApi env input.config input.fetchImpl input.now call w
          settleStatus env input cached licenseKey response w

def writeLicenseKey (config : LicenseConfig) (licenseKey : String) (w : World) : Except String World :=
  match config.storageBackend with
  | .file =>
    if (nonEmpty config.keyPath).isNone then .error "license.keyPath is required when storageBackend=file"
    else .ok { w with keyFile := some (licenseKey ++ "\n") }
  | .keychain => .error ("Keychain license activation is disabled in headless CLI until native no-argv secret " ++
      "storage is available; use storageBackend=file with 0600 permissions")

def deleteLicenseKey (config : LicenseConfig) (w : World) : World :=
  match config.storageBackend with
  | .file => if (nonEmpty config.keyPath).isSome then { w with keyFile := none } else w
  | .keychain => { w with keychain := w.keychain.map fun _ => none }

/-- `CANONICAL_GITHUB_REPOSITORY_PATTERN`. -/
def isCanonicalRepository (text : String) : Bool :=
  match split '/' text.toList with
  | [owner, name] =>
    owner.length ≤ 39 && owner.head?.any Char.isAlphanum && owner.getLast?.any Char.isAlphanum &&
    owner.all (fun c => c.isAlphanum || c = '-') &&
    1 ≤ name.length && name.length ≤ 100 && name.all fun c => c.isAlphanum || c = '_' || c = '.' || c = '-'
  | _ => false

/-- A text of the input that is there, has no space around it and passes a pattern. -/
def isExact (pattern : String → Bool) (text : Option String) : Bool :=
  text.any fun t => trim t.toList ≠ [] && trim t.toList = t.toList && pattern t

structure ActivateInput where
  config : LicenseConfig
  licenseKey : String
  repo : Option String := none
  machineId : Option String := none
  persistLocalState : Bool := true
  /-- What `keychainCredentialVerifier` answers; a verifier that throws answers no. -/
  credentialMatches : Bool := false
  now : Date
  /-- The clock when the API is asked, which is `now` where the caller gives it. -/
  askedAt : Date
  fetchImpl : Fetch
  keyFault : Option String := none
  writeFault : Option String := none

def refusedActivation (now : Date) (detail : String) : LicenseStatusResult :=
  { ok := false, status := .invalid, source := .none, checkedAt := now.toISOString, classification := some .invalid
    detail }

/-- What `activateLicense` checks before it asks the API. -/
def activationRefusal (input : ActivateInput) : Option LicenseStatusResult :=
  let refused := fun detail => some (refusedActivation input.now detail)
  if !input.persistLocalState && input.config.storageBackend ≠ .keychain then
    refused "no-local-state activation requires storageBackend=keychain"
  else if input.config.storageBackend = .keychain && input.persistLocalState then
    refused ("Keychain license activation is disabled in headless CLI until native no-argv secret storage is " ++
      "available; use storageBackend=file")
  else if !input.persistLocalState && !isExact isThumbprint input.machineId then
    refused "no-local-state activation requires an RFC 7638 broker device identity"
  else if input.persistLocalState && input.machineId.any fun machineId => trim machineId.toList ≠ [] then
    refused "broker device identity requires native no-local-state activation"
  else if !input.persistLocalState && !isExact isCanonicalRepository input.repo then
    refused "no-local-state activation requires one canonical repository"
  else if trim input.licenseKey.toList = [] then some (missingResult input.now "license key is empty")
  else if (nonEmpty input.config.apiBaseUrl).isNone then
    some (serverResult input.now "license API base URL is not configured")
  else if !input.persistLocalState && !input.credentialMatches then
    refused "no-local-state activation requires the matching native Keychain credential"
  else none

/-- Both files written, or what the first write that fails throws. -/
def persistActivation (input : ActivateInput) (licenseKey : String) (entitlement : LicenseEntitlement) (w : World) :
    Outcome Unit :=
  match input.keyFault with
  | some message => (.error message, w)
  | none => match writeLicenseKey input.config licenseKey w with
    | .error message => (.error message, w)
    | .ok w => match input.writeFault with
      | some message => (.error message, w)
      | none => (.ok (), writeLicenseCache entitlement w)

def activateLicense (env : Env) (input : ActivateInput) (w : World) : Outcome LicenseStatusResult :=
  match activationRefusal input with
  | some refusal => (.ok refusal, w)
  | none =>
    let licenseKey := String.ofList (trim input.licenseKey.toList)
    let call : ApiCall := ⟨"/v1/license/activate", licenseKey, input.repo, input.machineId⟩
    let (response, w) := askLicenseApi env input.config input.fetchImpl input.askedAt call w
    match response.ok, response.entitlement with
    | true, some answered =>
      let entitlement := { answered with licenseFingerprint := some (fingerprintLicenseKey env licenseKey) }
      if !input.persistLocalState then
        (.ok { response with
          entitlement := some entitlement, detail := "license activated without local key or cache persistence" }, w)
      else match persistActivation input licenseKey entitlement w with
        | (.ok (), w) =>
          (.ok { response with
            entitlement := some entitlement, detail := "license activated and entitlement cache updated" }, w)
        | (.error message, w) =>
          let rollback : ApiCall := { call with path := "/v1/license/deactivate" }
          let (_, w) := askLicenseApi env input.config input.fetchImpl input.now rollback w
          (.error message, deleteLicenseCache (deleteLicenseKey input.config w))
    | _, _ => (.ok response, w)

structure DeactivateInput where
  config : LicenseConfig
  notifyApi : Bool := false
  now : Date
  /-- The clock when the API is asked, which is `now` where the caller gives it. -/
  askedAt : Date
  fetchImpl : Fetch

structure DeactivateResult where
  ok : Bool
  deactivated : Bool
  checkedAt : String
  apiNotified : Bool
  detail : String
  deriving DecidableEq, Repr

def removeLicense (input : DeactivateInput) (apiNotified : Bool) (w : World) : Outcome DeactivateResult :=
  (.ok
    { ok := true, deactivated := true, checkedAt := input.now.toISOString, apiNotified
      detail := if apiNotified then "license removed and API notified" else "license removed locally" },
    deleteLicenseCache (deleteLicenseKey input.config w))

def deactivateLicense (env : Env) (input : DeactivateInput) (w : World) : Outcome DeactivateResult :=
  match readLicenseKey input.config w with
  | .error message => (.error message, w)
  | .ok stored => match nonEmpty stored with
    | some licenseKey =>
      if input.notifyApi && (nonEmpty input.config.apiBaseUrl).isSome then
        let call : ApiCall := { path := "/v1/license/deactivate", licenseKey }
        let (response, w) := askLicenseApi env input.config input.fetchImpl input.askedAt call w
        if !response.ok then
          (.ok
            { ok := false, deactivated := false, checkedAt := input.now.toISOString, apiNotified := false
              detail := "license API deactivation failed; local license was kept: " ++ response.detail }, w)
        else removeLicense input true w
      else removeLicense input false w
    | none => removeLicense input false w

/-! ## The review gate -/

structure GateInput where
  config : LicenseConfig
  repo : String
  visibility : Visibility
  now : Date
  /-- The clock once the status is known, which is `now` where the caller gives it. -/
  later : Date
  fetchImpl : Fetch
  refresh : Bool := true
  writeFault : Option String := none

structure LicenseReviewGateResult where
  ok : Bool
  repo : String
  visibility : Visibility
  status : LicenseStatus
  reason : String
  entitlement : Option LicenseEntitlement := none
  deriving DecidableEq, Repr

def repoVisibilityRequiresEntitlement (visibility : Visibility) (config : LicenseConfig) : Bool :=
  match visibility with
  | .priv => config.privateReposRequireEntitlement
  | .pub => !config.publicReposFree
  | .unknown => config.privateReposRequireEntitlement

def entitlementCoversRepoVisibility (entitlement : LicenseEntitlement) (visibility : Visibility) : Bool :=
  if visibility = .priv && entitlement.privateRepoAllowed = some false then false
  else if entitlement.repoVisibilityScope = .all then true
  else match visibility with
    | .pub => entitlement.repoVisibilityScope = .pub || entitlement.repoVisibilityScope = .priv
    | .priv => entitlement.repoVisibilityScope = .priv
    | .unknown => false

def gateResult (input : GateInput) (ok : Bool) (status : LicenseStatus) (reason : String)
    (entitlement : Option LicenseEntitlement := none) : LicenseReviewGateResult :=
  { ok, repo := input.repo, visibility := input.visibility, status, reason, entitlement }

def gateOfStatus (env : Env) (input : GateInput) (status : LicenseStatusResult) : LicenseReviewGateResult :=
  match status.ok, status.entitlement.filter (·.status = .active) with
  | true, some entitlement =>
    if status.source ≠ .api &&
        !entitlementUsableDuringOutage env entitlement input.later input.config.offlineGraceMs then
      gateResult input false .expired
        (input.visibility.text ++ " repo review requires a fresh entitlement cache within offlineGraceMs=" ++
          toString input.config.offlineGraceMs) (some entitlement)
    else if !entitlementCoversRepoVisibility entitlement input.visibility then
      gateResult input false status.status
        (if input.visibility = .priv && entitlement.privateRepoAllowed = some false then
          "entitlement privateRepoAllowed=false does not allow private repos"
        else
          "entitlement scope " ++ entitlement.repoVisibilityScope.text ++ " does not cover " ++
            input.visibility.text ++ " repos") (some entitlement)
    else
      gateResult input true .active ("active entitlement covers " ++ input.visibility.text ++ " repo review")
        (some entitlement)
  | _, _ =>
    gateResult input false status.status
      (input.visibility.text ++ " repo review requires active entitlement: " ++ status.detail)

def GateInput.statusInput (input : GateInput) : StatusInput :=
  { config := input.config, repo := some input.repo, refresh := input.refresh, now := input.now
    fetchImpl := input.fetchImpl, writeFault := input.writeFault }

def evaluateLicenseReviewGate (env : Env) (input : GateInput) (w : World) : Outcome LicenseReviewGateResult :=
  if !input.config.enabled then (.ok (gateResult input true .active "license enforcement disabled"), w)
  else if input.visibility = .pub && input.config.publicReposFree then
    (.ok (gateResult input true .active "public repo path is free"), w)
  else if input.visibility = .unknown && input.config.privateReposRequireEntitlement then
    (.ok (gateResult input false .network
      "repo visibility is unknown; private repo entitlement gate fails closed"), w)
  else if !repoVisibilityRequiresEntitlement input.visibility input.config then
    (.ok (gateResult input true .active "repo visibility does not require entitlement"), w)
  else match getLicenseStatus env input.statusInput w with
    | (.error message, w) => (.error message, w)
    | (.ok status, w) => (.ok (gateOfStatus env input status), w)

/-- A runtime whose digest is the text itself. -/
def plainEnv : Env where
  sha256 key i := Fin.ofNat 16 (key.toList.getD i.val '0').toNat
  redactSecrets := id
  localMachineId := "machine"
  buildApiUrl base path := .ok (base ++ path)
  legacyDate _ := none

/-! ## What an active answer is -/

structure AnswersActive (env : Env) (config : LicenseConfig) (fetchImpl : Fetch) (now : Date) (call : ApiCall)
    (entitlement : LicenseEntitlement) : Prop where
  answered : ∃ url statusCode body, env.buildApiUrl (config.apiBaseUrl.getD "") call.path = .ok url ∧
    fetchImpl (call.request env url) = .response statusCode body ∧ 200 ≤ statusCode ∧ statusCode ≤ 299 ∧
    normalizeEntitlement env body call.licenseKey now = some entitlement
  active : entitlement.status = .active

theorem callLicenseApi_ok {env : Env} {config : LicenseConfig} {fetchImpl : Fetch} {now : Date} {call : ApiCall}
    (h : (callLicenseApi env config fetchImpl now call).ok = true) :
    ∃ entitlement, AnswersActive env config fetchImpl now call entitlement ∧
      (callLicenseApi env config fetchImpl now call).entitlement = some entitlement ∧
      (callLicenseApi env config fetchImpl now call).status = .active ∧
      (callLicenseApi env config fetchImpl now call).source = .api := by
  unfold callLicenseApi at h ⊢
  cases hurl : env.buildApiUrl (config.apiBaseUrl.getD "") call.path with
  | error message =>
    rw [hurl] at h
    cases h
  | ok url =>
    rw [hurl] at h
    dsimp only at h ⊢
    cases hfetch : fetchImpl (call.request env url) with
    | throws message =>
      rw [hfetch] at h
      cases h
    | response statusCode body =>
      rw [hfetch] at h
      dsimp only at h ⊢
      unfold classifyResponse at h ⊢
      by_cases hcode : 200 ≤ statusCode ∧ statusCode ≤ 299
      · have hcode' : (!(decide (200 ≤ statusCode) && decide (statusCode ≤ 299))) = false := by simp [hcode]
        rw [hcode', if_neg Bool.false_ne_true] at h ⊢
        cases hnormal : normalizeEntitlement env body call.licenseKey now with
        | none =>
          rw [hnormal] at h
          cases h
        | some entitlement =>
          rw [hnormal] at h
          dsimp only at h ⊢
          have hactive : entitlement.status = .active := by simpa using h
          exact ⟨entitlement, ⟨⟨url, statusCode, body, hurl, hfetch, hcode.1, hcode.2, hnormal⟩, hactive⟩, rfl, hactive,
            rfl⟩
      · have hcode' : (!(decide (200 ≤ statusCode) && decide (statusCode ≤ 299))) = true := by
          rw [Bool.not_eq_true', Bool.and_eq_false_iff]
          simpa [imp_iff_not_or] using hcode
        rw [hcode', if_pos rfl] at h
        cases h

/-! ## What a status call does -/

def StatusInput.call (input : StatusInput) (licenseKey : String) : ApiCall :=
  ⟨"/v1/license/validate", licenseKey, input.repo, input.machineId⟩

theorem getLicenseStatus_cases {env : Env} {input : StatusInput} {w w' : World}
    {outcome : Except String LicenseStatusResult} (h : getLicenseStatus env input w = (outcome, w')) :
    (w' = w ∧ ∃ status, outcome = .ok status ∧
      (status.ok = false ∨ (input.refresh = false ∨ input.licenseSecretReader = none) ∧
        status = statusFromCache env (readLicenseCache env input.config w) input.now)) ∨
    ∃ licenseKey, statusLicenseKey input w = .ok (some licenseKey) ∧
      (outcome, w') = settleStatus env input (readLicenseCache env input.config w) licenseKey
        (callLicenseApi env input.config input.fetchImpl input.now (input.call licenseKey))
        (askLicenseApi env input.config input.fetchImpl input.now (input.call licenseKey) w).2 := by
  have unanswered (result : LicenseStatusResult) (hresult : result.ok = false)
      (h : (Except.ok (if input.licenseSecretReader.isNone && (readLicenseCache env input.config w).isSome then
        statusFromCache env (readLicenseCache env input.config w) input.now else result), w) = (outcome, w')) :
      w' = w ∧ ∃ status, outcome = .ok status ∧
        (status.ok = false ∨ (input.refresh = false ∨ input.licenseSecretReader = none) ∧
          status = statusFromCache env (readLicenseCache env input.config w) input.now) := by
    obtain ⟨rfl, rfl⟩ := Prod.mk.inj h
    refine ⟨rfl, _, rfl, ?_⟩
    split
    · rename_i hcached
      rw [Bool.and_eq_true, Option.isNone_iff_eq_none] at hcached
      exact Or.inr ⟨Or.inr hcached.1, rfl⟩
    · exact Or.inl hresult
  unfold getLicenseStatus at h
  dsimp only at h
  by_cases hmachine : (input.machineId.any fun machineId => !isThumbprint machineId) = true
  · rw [if_pos hmachine] at h
    obtain ⟨rfl, rfl⟩ := Prod.mk.inj h
    exact Or.inl ⟨rfl, _, rfl, Or.inl rfl⟩
  rw [if_neg hmachine] at h
  by_cases hrefresh : input.refresh = true
  · have hrefresh' : (!input.refresh) = false := by rw [hrefresh]; rfl
    rw [hrefresh', if_neg Bool.false_ne_true] at h
    cases hkey : statusLicenseKey input w with
    | error message =>
      rw [hkey] at h
      obtain ⟨rfl, rfl⟩ := Prod.mk.inj h
      exact Or.inl ⟨rfl, _, rfl, Or.inl rfl⟩
    | ok stored =>
      rw [hkey] at h
      cases stored with
      | none => exact Or.inl (unanswered _ rfl h)
      | some licenseKey =>
        dsimp only at h
        by_cases hurl : (nonEmpty input.config.apiBaseUrl).isNone = true
        · rw [if_pos hurl] at h
          exact Or.inl (unanswered _ rfl h)
        · rw [if_neg hurl] at h
          exact Or.inr ⟨licenseKey, rfl, h.symm⟩
  · rw [Bool.not_eq_true] at hrefresh
    have hrefresh' : (!input.refresh) = true := by rw [hrefresh]; rfl
    rw [hrefresh', if_pos rfl] at h
    obtain ⟨rfl, rfl⟩ := Prod.mk.inj h
    exact Or.inl ⟨rfl, _, rfl, Or.inr ⟨Or.inl hrefresh, rfl⟩⟩

/-- What the API's answer comes to: an active one is cached, an outage may fall back on the cache, and a
denial of the cached key clears it. -/
theorem settleStatus_cases {env : Env} {input : StatusInput} {cached : Option LicenseEntitlement} {licenseKey : String}
    {response : LicenseStatusResult} {w w' : World} {outcome : Except String LicenseStatusResult}
    (h : (outcome, w') = settleStatus env input cached licenseKey response w) :
    (∃ answered, response.ok = true ∧ response.entitlement = some answered ∧
      ((∃ message, outcome = .error message ∧ w' = w) ∨
        ∃ entitlement,
          entitlement = { answered with licenseFingerprint := some (fingerprintLicenseKey env licenseKey) } ∧
          outcome = .ok { response with entitlement := some entitlement } ∧ w' = writeLicenseCache entitlement w)) ∨
    ((response.ok = false ∨ response.entitlement = none) ∧
      ((∃ entitlement status, cached = some entitlement ∧ input.licenseSecretReader = none ∧
          (response.status = .network ∨ response.status = .server) ∧
          entitlementUsableDuringOutage env entitlement input.now input.config.offlineGraceMs = true ∧
          outcome = .ok status ∧ status.source = .cache ∧ status.entitlement = some entitlement ∧ w' = w) ∨
        outcome = .ok response ∧
          (w' = deleteLicenseCache w ∨ w' = w ∧
            (shouldDeleteLicenseCacheForStatus response.status = true →
              cachedEntitlementMatchesLicenseKey env cached licenseKey = false)))) := by
  unfold settleStatus at h
  split at h
  · rename_i answered hok hanswered
    refine Or.inl ⟨answered, hok, hanswered, ?_⟩
    dsimp only at h
    split at h
    · obtain ⟨rfl, rfl⟩ := Prod.mk.inj h
      exact Or.inl ⟨_, rfl, rfl⟩
    · obtain ⟨rfl, rfl⟩ := Prod.mk.inj h
      exact Or.inr ⟨_, rfl, rfl, rfl⟩
  · rename_i hno
    refine Or.inr ⟨?_, ?_⟩
    · cases hok : response.ok with
      | false => exact Or.inl rfl
      | true =>
        cases hentitlement : response.entitlement with
        | none => exact Or.inr rfl
        | some answered => exact (hno answered hok hentitlement).elim
    dsimp only at h
    split at h
    · rename_i entitlement husable
      obtain ⟨rfl, rfl⟩ := Prod.mk.inj h
      obtain ⟨hcached, hoffline⟩ := Option.filter_eq_some_iff.mp husable
      simp only [Bool.and_eq_true, Option.isNone_iff_eq_none, Bool.or_eq_true, decide_eq_true_eq] at hoffline
      exact Or.inl ⟨entitlement, _, hcached, hoffline.1.1, hoffline.1.2, hoffline.2, rfl, rfl, rfl, rfl⟩
    · refine Or.inr ?_
      split at h
      · obtain ⟨rfl, rfl⟩ := Prod.mk.inj h
        exact ⟨rfl, Or.inl rfl⟩
      · rename_i hkeep
        obtain ⟨rfl, rfl⟩ := Prod.mk.inj h
        refine ⟨rfl, Or.inr ⟨rfl, fun hdelete => ?_⟩⟩
        rw [hdelete, Bool.true_and, Bool.not_eq_true] at hkeep
        exact hkeep

end NeonDiff.Admission
