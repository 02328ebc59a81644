import Mathlib.Logic.Function.Basic
import NeonDiff.Lib.Transition
import NeonDiff.Broker.Model

/-! # Connecting a device to an installation or to an account

A request runs from one `await` to the next at once. Between its steps other requests run and the clock advances.
-/

namespace NeonDiff.Broker

open NeonDiff.Lib NeonDiff.Lib.JsText

def STATE_TTL_MS : Int := 10 * 60 * 1000

def ACCOUNT_CONNECT_CONSUMED_RETENTION_MS : Int := 24 * 60 * 60 * 1000

/-! ## Rows -/

structure ConnectStateRow where
  state : String
  deviceId : String
  installationId : Option Int := none
  createdAt : Int
  expiresAt : Int
  consumedAt : Option Int := none
  deriving DecidableEq, Repr

structure AccountConnectStateRow where
  stateHash : String
  deviceId : String
  createdAt : Int
  expiresAt : Int
  consumedAt : Option Int := none
  boundUserId : Option String := none
  deriving DecidableEq, Repr

structure AccountBindingRow where
  deviceId : String
  userId : String
  linkedAt : Int
  deriving DecidableEq, Repr

structure ConnectStore extends BrokerStore where
  connectStates : Table ConnectStateRow.state := .empty
  accountConnectStates : Table AccountConnectStateRow.stateHash := .empty
  accountBindings : Table AccountBindingRow.deviceId := .empty

/-! ## The store -/

namespace ConnectStore

def upsertDevice (s : ConnectStore) (deviceId publicJwk : String) (now : Int) : ConnectStore :=
  { s with devices := s.devices.upsert ⟨deviceId, publicJwk, now⟩ }

/-- A taken state is a constraint violation. -/
def createConnectState (s : ConnectStore) (state deviceId : String) (createdAt expiresAt : Int) : Option ConnectStore :=
  (s.connectStates.insert? { state, deviceId, createdAt, expiresAt }).map fun states => { s with connectStates := states }

def getConnectState (s : ConnectStore) (state : String) : Option ConnectStateRow := s.connectStates.find? state

/-- `where state = ? and consumed_at is null`. -/
def consumesState (state : String) (row : ConnectStateRow) : Bool := row.state = state && row.consumedAt.isNone

def consumedState (state : String) (installationId consumedAt : Int) (row : ConnectStateRow) : ConnectStateRow :=
  if consumesState state row then { row with consumedAt := some consumedAt, installationId := some installationId }
  else row

theorem state_consumedState (state : String) (installationId consumedAt : Int) (row : ConnectStateRow) :
    (consumedState state installationId consumedAt row).state = row.state := by
  unfold consumedState
  split <;> rfl

/-- True where a row changed. -/
def consumeConnectState (s : ConnectStore) (state : String) (installationId consumedAt : Int) : Bool × ConnectStore :=
  (s.connectStates.rows.any (consumesState state), { s with
    connectStates := s.connectStates.update (consumedState state installationId consumedAt)
      (state_consumedState state installationId consumedAt) })

def upsertBinding (s : ConnectStore) (deviceId : String) (installationId : Int) (accountLogin : Option String)
    (authorizedRepositories : List String) : ConnectStore :=
  { s with
    bindings := s.bindings.upsert ⟨deviceId, installationId, accountLogin⟩
    bindingRepositories :=
      (s.bindingRepositories.filter fun r => !(r.deviceId = deviceId && r.installationId = installationId)) ++
        authorizedRepositories.eraseDups.map fun fullName => ⟨deviceId, installationId, fullName⟩ }

def isSwept (createdAt : Int) (row : AccountConnectStateRow) : Bool :=
  row.expiresAt ≤ createdAt || row.consumedAt.any fun c => c ≤ createdAt - ACCOUNT_CONNECT_CONSUMED_RETENTION_MS

/-- Two statements: a taken hash is a constraint violation, after the sweep. -/
def createAccountConnectState (s : ConnectStore) (stateHash deviceId : String) (createdAt expiresAt : Int) :
    Bool × ConnectStore :=
  let swept := s.accountConnectStates.delete (isSwept createdAt)
  match swept.insert? { stateHash, deviceId, createdAt, expiresAt } with
  | none => (false, { s with accountConnectStates := swept })
  | some states => (true, { s with accountConnectStates := states })

def getAccountConnectState (s : ConnectStore) (stateHash : String) : Option AccountConnectStateRow :=
  s.accountConnectStates.find? stateHash

/-- `where state_hash = ? and consumed_at is null and expires_at > ?`. -/
def consumesAccountState (stateHash : String) (consumedAt : Int) (row : AccountConnectStateRow) : Bool :=
  row.stateHash = stateHash && row.consumedAt.isNone && consumedAt < row.expiresAt

def consumedAccountState (stateHash userId : String) (consumedAt : Int) (row : AccountConnectStateRow) :
    AccountConnectStateRow :=
  if consumesAccountState stateHash consumedAt row then
    { row with consumedAt := some consumedAt, boundUserId := some userId }
  else row

theorem stateHash_consumedAccountState (stateHash userId : String) (consumedAt : Int) (row : AccountConnectStateRow) :
    (consumedAccountState stateHash userId consumedAt row).stateHash = row.stateHash := by
  unfold consumedAccountState
  split <;> rfl

/-- One transaction: it answers the device that it bound. -/
def consumeAccountConnectStateAndBind (s : ConnectStore) (stateHash userId : String) (consumedAt : Int) :
    Option String × ConnectStore :=
  match s.getAccountConnectState stateHash with
  | none => (none, s)
  | some state =>
    if state.consumedAt.isSome || state.expiresAt ≤ consumedAt then (none, s)
    else if !s.accountConnectStates.rows.any (consumesAccountState stateHash consumedAt) then (none, s)
    else (some state.deviceId, { s with
      accountConnectStates := s.accountConnectStates.update (consumedAccountState stateHash userId consumedAt)
        (stateHash_consumedAccountState stateHash userId consumedAt)
      accountBindings := s.accountBindings.upsert ⟨state.deviceId, userId, consumedAt⟩ })

end ConnectStore

/-! ## What happened -/

/-- A connect state: the text of a GitHub one, the hash of an account's. -/
inductive StateKey where
  | github (state : String)
  | account (stateHash : String)
  deriving DecidableEq, Repr

inductive Identity where
  | installation (installationId : Int)
  | user (userId : String)
  deriving DecidableEq, Repr

/-- `request` is the request that did it, and `clock` the time at which the row was written. -/
inductive ConnectEvent where
  | created (key : StateKey) (deviceId : String) (expiresAt : Int)
  | proven (request : Nat) (identity : Identity)
  | consumed (key : StateKey) (request : Nat) (clock : Int)
  | bound (key : StateKey) (request : Nat) (deviceId : String) (identity : Identity)
  deriving DecidableEq, Repr

/-- What the requests share. The history, newest first, is read by no request. -/
structure Shared where
  clock : Int
  store : ConnectStore := {}
  connectRateLimiter : RateLimiter := { maxPerWindow := 30 }
  accountConnectRateLimiter : RateLimiter := { maxPerWindow := 30 }
  accountCompleteRateLimiter : RateLimiter := { maxPerWindow := 10 }
  history : List ConnectEvent := []

namespace Shared

def record (s : Shared) (event : ConnectEvent) : Shared := { s with history := event :: s.history }

def touchDevice (s : Shared) (deviceId : String) (now : Int) : Shared :=
  { s with store := { s.store with toBrokerStore := s.store.toBrokerStore.touchDevice deviceId now } }

def allowConnect (s : Shared) (key : String) (now : Int) : Bool × Shared :=
  let (allowed, limiter) := s.connectRateLimiter.allow key now
  (allowed, { s with connectRateLimiter := limiter })

def allowAccountConnect (s : Shared) (key : String) (now : Int) : Bool × Shared :=
  let (allowed, limiter) := s.accountConnectRateLimiter.allow key now
  (allowed, { s with accountConnectRateLimiter := limiter })

def allowAccountComplete (s : Shared) (key : String) (now : Int) : Bool × Shared :=
  let (allowed, limiter) := s.accountCompleteRateLimiter.allow key now
  (allowed, { s with accountCompleteRateLimiter := limiter })

def createConnectState (s : Shared) (state deviceId : String) (createdAt expiresAt : Int) : Option Shared :=
  (s.store.createConnectState state deviceId createdAt expiresAt).map fun store =>
    { s with store := store }.record (.created (.github state) deviceId expiresAt)

def createAccountConnectState (s : Shared) (stateHash deviceId : String) (createdAt expiresAt : Int) : Bool × Shared :=
  match s.store.createAccountConnectState stateHash deviceId createdAt expiresAt with
  | (false, store) => (false, { s with store := store })
  | (true, store) => (true, { s with store := store }.record (.created (.account stateHash) deviceId expiresAt))

/-- The state is consumed, and then the binding is written, with no `await` between the two. -/
def consumeAndBind (s : Shared) (request : Nat) (state deviceId : String) (installationId : Int)
    (installation : InstallationSummary) (authorizedRepositories : List String) (now : Int) : Bool × Shared :=
  match s.store.consumeConnectState state installationId now with
  | (false, store) => (false, { s with store := store })
  | (true, store) =>
    let s := { s with store := store }.record (.consumed (.github state) request s.clock)
    let store := s.store.upsertBinding deviceId installationId installation.accountLogin authorizedRepositories
    (true, { s with store := store }.record (.bound (.github state) request deviceId (.installation installationId)))

def consumeAccountConnectStateAndBind (s : Shared) (request : Nat) (stateHash userId : String) (consumedAt : Int) :
    Bool × Shared :=
  match s.store.consumeAccountConnectStateAndBind stateHash userId consumedAt with
  | (none, store) => (false, { s with store := store })
  | (some deviceId, store) =>
    let s := { s with store := store }.record (.consumed (.account stateHash) request s.clock)
    (true, s.record (.bound (.account stateHash) request deviceId (.user userId)))

end Shared

/-! ## Device authentication, up to its `await` and after it -/

structure PendingAuthentication where
  token : String
  subject : String
  publicJwk : String
  deriving DecidableEq, Repr

def beginAuthentication (jose : Jose) (devices : Table DeviceRow.deviceId) (authorization : Option String) :
    Except BrokerError PendingAuthentication := do
  let some token := bearerToken authorization
    | throw ⟨.invalidDeviceCredential, "a device-signed bearer token is required"⟩
  let some subject := (jose.decodeSub token).filter (· ≠ "")
    | throw ⟨.invalidDeviceCredential, "device credential is malformed"⟩
  let some device := devices.find? subject
    | throw ⟨.deviceNotRegistered, "device is not registered"⟩
  return ⟨token, subject, device.publicJwk⟩

def finishAuthentication (jose : Jose) (pending : PendingAuthentication) (now : Int) : Except BrokerError String := do
  require (jose.importable pending.publicJwk) ⟨.invalidDeviceCredential, "device key could not be loaded"⟩
  require (jose.verifies pending.token pending.publicJwk pending.subject now)
    ⟨.invalidDeviceCredential, "device credential failed verification"⟩
  return pending.subject

/-! ## Requests and their steps -/

inductive ConnectError where
  | refused (error : BrokerError)
  | constraint (message : String)
  deriving DecidableEq, Repr

inductive ConnectAnswer where
  | connectStarted (installUrl state : String) (expiresAt : Int)
  | returned
  | bound (installationId : Int)
  | accountConnectStarted (connectUrl state : String) (expiresAt : Int)
  | accountLinked
  deriving DecidableEq, Repr

structure CallbackQuery where
  installationId : Option String := none
  state : Option String := none
  code : Option String := none
  setupAction : Option String := none

structure ExistingAuthorizationRequest where
  state : String
  installationId : Int
  userAccessToken : String
  deriving DecidableEq, Repr

/-- The requests, each with what it reads before its first `await`. -/
inductive Request where
  | connectStart (authorization : Option String)
  | connectCallback (query : CallbackQuery)
  | connectAuthorizeExisting (authorization : Option String) (body : Json)
  | accountConnectStart (authorization : Option String)
  | accountConnectComplete (authorization : Option String) (body : Json)

/-- A request at the `await` it waits in, with the locals it goes on with; `now` is its `at`. -/
inductive Task where
  | idle
  | starting (now : Int) (pending : PendingAuthentication)
  | callbackProving (now : Int) (state : String) (stored : ConnectStateRow) (installationId : Int) (code : String)
  | callbackResolving (now : Int) (state : String) (stored : ConnectStateRow) (installationId : Int)
      (authorizedRepositories : List String)
  | existingAuthenticating (now : Int) (pending : PendingAuthentication) (body : Json)
  | existingProving (now : Int) (deviceId : String) (request : ExistingAuthorizationRequest) (stored : ConnectStateRow)
  | existingResolving (now : Int) (deviceId : String) (request : ExistingAuthorizationRequest)
      (stored : ConnectStateRow) (authorizedRepositories : List String)
  | accountStarting (now : Int) (pending : PendingAuthentication)
  | completing (stateHash : String) (stored : AccountConnectStateRow) (token : String)
  | finished (answer : Except ConnectError ConnectAnswer)

/-- What the awaited call answered: each step reads the one it waits for. `verifyAccessToken` throws a broker error
or anything else. -/
structure Answers where
  randomBytes : String := ""
  verifyInstallation : Except ClientError (Option (List String)) := .ok none
  getInstallation : Except ClientError (Option InstallationSummary) := .ok none
  verifyAccessToken : Except (Option BrokerError) (Option String) := .ok none

/-- The token library, the hash, `Number(text)`, and the URLs with the state in them. -/
structure ConnectEnv where
  jose : Jose
  sha256 : String → String
  numberOf : String → Option Int
  installUrl : String → String
  connectUrl : String → String

def refuse (e : BrokerError) (s : Shared) : Task × Shared := (.finished (.error (.refused e)), s)

/-- The end of a step that throws or waits. -/
def settle (outcome : Except BrokerError Task) (s : Shared) : Task × Shared :=
  match outcome with
  | .error e => refuse e s
  | .ok task => (task, s)

def given (value : Option String) : Option String := value.filter (· ≠ "")

section
variable (env : ConnectEnv) (i : Nat)

/-! ### `connectStart` -/

def connectStart (authorization : Option String) (s : Shared) : Task × Shared :=
  settle ((beginAuthentication env.jose s.store.devices authorization).map (.starting s.clock)) s

def connectStartAuthenticated (answers : Answers) (now : Int) (pending : PendingAuthentication) (s : Shared) :
    Task × Shared :=
  match finishAuthentication env.jose pending now with
  | .error e => refuse e s
  | .ok deviceId =>
    let s := s.touchDevice deviceId now
    let (allowed, s) := s.allowConnect (env.sha256 ("connect:" ++ deviceId)) now
    if !allowed then refuse ⟨.rateLimited, "too many connect attempts"⟩ s
    else
      let state := answers.randomBytes
      let expiresAt := now + STATE_TTL_MS
      match s.createConnectState state deviceId now expiresAt with
      | none => (.finished (.error (.constraint "UNIQUE constraint failed: connect_states.state")), s)
      | some s => (.finished (.ok (.connectStarted (env.installUrl state) state expiresAt)), s)

/-! ### `connectCallback` -/

/-- The checks of a GitHub state that are made before the proof. -/
def checkConnectState (stored : ConnectStateRow) (now : Int) : Except BrokerError Unit := do
  require stored.consumedAt.isNone ⟨.stateReplayed, "connect state was already used"⟩
  require (now < stored.expiresAt) ⟨.stateExpired, "connect state has expired"⟩

def beginCallback (query : CallbackQuery) (store : ConnectStore) (now : Int) : Except BrokerError Task := do
  let (some state, some installationIdRaw) := (given query.state, given query.installationId)
    | throw ⟨.invalidRequest, "installation_id and state are required"⟩
  let installationId ← parseInstallationId env.numberOf (some (.str installationIdRaw))
  let some stored := store.getConnectState state
    | throw ⟨.stateNotFound, "connect state is not recognized"⟩
  checkConnectState stored now
  match given query.code with
  | some code => return .callbackProving now state stored installationId code
  | none =>
    require (given query.setupAction).isSome
      ⟨.installationAuthorizationUnverified, "installation authorization was not proven for this identity"⟩
    return .finished (.ok .returned)

def connectCallback (query : CallbackQuery) (s : Shared) : Task × Shared :=
  settle (beginCallback env query s.store s.clock) s

/-- The repositories of the proof; `null` is no proof. -/
def provenRepositories (answers : Answers) : Except BrokerError (List String) := do
  match ← clientCall answers.verifyInstallation with
  | some authorized => return authorized
  | none => throw ⟨.installationAuthorizationUnverified,
      "installation authorization could not be verified for this identity"⟩

def connectCallbackProven (answers : Answers) (now : Int) (state : String) (stored : ConnectStateRow)
    (installationId : Int) (s : Shared) : Task × Shared :=
  match provenRepositories answers with
  | .error e => refuse e s
  | .ok authorized =>
    (.callbackResolving now state stored installationId authorized, s.record (.proven i (.installation installationId)))

def resolvedInstallation (answers : Answers) : Except BrokerError InstallationSummary := do
  match ← clientCall answers.getInstallation with
  | some installation => return installation
  | none => throw ⟨.installationNotFound, "installation was not found"⟩

/-- The end of both GitHub flows: the expiry is not read again. -/
def bindInstallation (answers : Answers) (now : Int) (state deviceId : String) (installationId : Int)
    (authorized : List String) (answer : ConnectAnswer) (s : Shared) : Task × Shared :=
  match resolvedInstallation answers with
  | .error e => refuse e s
  | .ok installation =>
    match s.consumeAndBind i state deviceId installationId installation authorized now with
    | (false, s) => refuse ⟨.stateReplayed, "connect state was already used"⟩ s
    | (true, s) => (.finished (.ok answer), s)

def connectCallbackResolved (answers : Answers) (now : Int) (state : String) (stored : ConnectStateRow)
    (installationId : Int) (authorized : List String) (s : Shared) : Task × Shared :=
  bindInstallation i answers now state stored.deviceId installationId authorized .returned s

/-! ### `connectAuthorizeExisting` -/

def parseExistingAuthorizationRequest (body : Json) : Except BrokerError ExistingAuthorizationRequest := do
  let record ← asObject body
  let some (.str state) := Json.field record "state" | throw (invalid "state is invalid")
  require (state ≠ "" && state.toList.length ≤ 512) (invalid "state is invalid")
  let some (.str userAccessToken) := Json.field record "userAccessToken"
    | throw (invalid "userAccessToken is invalid")
  require (userAccessToken ≠ "" && userAccessToken.toList.length ≤ 4096 && !userAccessToken.toList.any isSpace)
    (invalid "userAccessToken is invalid")
  let installationId ← parseInstallationId env.numberOf (Json.field record "installationId")
  return ⟨state, installationId, userAccessToken⟩

def connectAuthorizeExisting (authorization : Option String) (body : Json) (s : Shared) : Task × Shared :=
  settle ((beginAuthentication env.jose s.store.devices authorization).map fun pending =>
    .existingAuthenticating s.clock pending body) s

def beginExisting (body : Json) (store : ConnectStore) (deviceId : String) (now : Int) : Except BrokerError Task := do
  let request ← parseExistingAuthorizationRequest env body
  let some stored := (store.getConnectState request.state).filter (·.deviceId = deviceId)
    | throw ⟨.stateNotFound, "connect state is not recognized"⟩
  checkConnectState stored now
  return .existingProving now deviceId request stored

def connectAuthorizeExistingAuthenticated (now : Int) (pending : PendingAuthentication) (body : Json) (s : Shared) :
    Task × Shared :=
  match finishAuthentication env.jose pending now with
  | .error e => refuse e s
  | .ok deviceId =>
    let s := s.touchDevice deviceId now
    let (allowed, s) := s.allowConnect (env.sha256 ("connect-existing:" ++ deviceId)) now
    if !allowed then refuse ⟨.rateLimited, "too many existing-install authorization attempts"⟩ s
    else settle (beginExisting env body s.store deviceId now) s

def connectAuthorizeExistingProven (answers : Answers) (now : Int) (deviceId : String)
    (request : ExistingAuthorizationRequest) (stored : ConnectStateRow) (s : Shared) : Task × Shared :=
  match provenRepositories answers with
  | .error e => refuse e s
  | .ok authorized =>
    (.existingResolving now deviceId request stored authorized,
      s.record (.proven i (.installation request.installationId)))

def connectAuthorizeExistingResolved (answers : Answers) (now : Int) (deviceId : String)
    (request : ExistingAuthorizationRequest) (authorized : List String) (s : Shared) : Task × Shared :=
  bindInstallation i answers now request.state deviceId request.installationId authorized
    (.bound request.installationId) s

/-! ### The account's `connectStart` and `connectComplete` -/

def accountConnectStart (authorization : Option String) (s : Shared) : Task × Shared :=
  settle ((beginAuthentication env.jose s.store.devices authorization).map (.accountStarting s.clock)) s

def accountConnectStartAuthenticated (answers : Answers) (now : Int) (pending : PendingAuthentication) (s : Shared) :
    Task × Shared :=
  match finishAuthentication env.jose pending now with
  | .error e => refuse e s
  | .ok deviceId =>
    let s := s.touchDevice deviceId now
    let (allowed, s) := s.allowAccountConnect (env.sha256 ("account-connect:" ++ deviceId)) now
    if !allowed then refuse ⟨.rateLimited, "too many account link attempts"⟩ s
    else
      let state := answers.randomBytes
      let expiresAt := now + STATE_TTL_MS
      match s.createAccountConnectState (env.sha256 state) deviceId now expiresAt with
      | (false, s) =>
        (.finished (.error (.constraint "UNIQUE constraint failed: account_connect_states.state_hash")), s)
      | (true, s) => (.finished (.ok (.accountConnectStarted (env.connectUrl state) state expiresAt)), s)

/-- `/^[A-Za-z0-9_-]{43}$/`. -/
def isStateText (state : String) : Bool :=
  state.toList.length = 43 && state.toList.all fun c => c.isAlphanum || c = '_' || c = '-'

def requiredState (body : Json) : Except BrokerError String := do
  let record ← asObject body
  let some (.str state) := Json.field record "state" | throw (invalid "state is invalid")
  require (isStateText state) (invalid "state is invalid")
  return state

def accountBearerToken (authorization : Option String) : Except BrokerError String := do
  let some value := authorization.filter fun value => startsWith value "Bearer "
    | throw ⟨.accountIdentityUnverified, "signed-in account proof is required"⟩
  let token := String.ofList (value.toList.drop 7)
  require (token ≠ "" && token.toList.length ≤ 4096 && !token.toList.any isSpace)
    ⟨.accountIdentityUnverified, "signed-in account proof is invalid"⟩
  return token

/-- The stored state of a completion, checked before the proof. -/
def checkedAccountState (body : Json) (store : ConnectStore) (now : Int) :
    Except BrokerError (String × AccountConnectStateRow) := do
  let state ← requiredState body
  let stateHash := env.sha256 state
  let some stored := store.getAccountConnectState stateHash
    | throw ⟨.stateNotFound, "account link state is not recognized"⟩
  require stored.consumedAt.isNone ⟨.stateReplayed, "account link state was already used"⟩
  require (now < stored.expiresAt) ⟨.stateExpired, "account link state has expired"⟩
  return (stateHash, stored)

def accountConnectComplete (authorization : Option String) (body : Json) (s : Shared) : Task × Shared :=
  match checkedAccountState env body s.store s.clock with
  | .error e => refuse e s
  | .ok (stateHash, stored) =>
    let (allowed, s) := s.allowAccountComplete (env.sha256 ("account-complete:" ++ stored.deviceId)) s.clock
    if !allowed then refuse ⟨.rateLimited, "too many account completion attempts"⟩ s
    else settle ((accountBearerToken authorization).map (.completing stateHash stored)) s

/-- The user of the proof; an empty answer is no proof. -/
def provenUser (answers : Answers) : Except BrokerError String :=
  match answers.verifyAccessToken with
  | .error (some e) => .error e
  | .error none => .error ⟨.accountAuthorityUnavailable, "account identity service is unavailable"⟩
  | .ok userId => match given userId with
    | none => .error ⟨.accountIdentityUnverified, "the signed-in account identity could not be verified"⟩
    | some userId => .ok userId

def accountConnectCompleteProven (answers : Answers) (stateHash : String) (stored : AccountConnectStateRow)
    (s : Shared) : Task × Shared :=
  match provenUser answers with
  | .error e => refuse e s
  | .ok userId =>
    let s := s.record (.proven i (.user userId))
    let completedAt := s.clock
    if stored.expiresAt ≤ completedAt then refuse ⟨.stateExpired, "account link state has expired"⟩ s
    else match s.consumeAccountConnectStateAndBind i stateHash userId completedAt with
      | (false, s) => refuse ⟨.stateReplayed, "account link state was already used"⟩ s
      | (true, s) => (.finished (.ok .accountLinked), s)

/-! ### Every step of every request -/

def Request.arrive (s : Shared) : Request → Task × Shared
  | .connectStart authorization => Broker.connectStart env authorization s
  | .connectCallback query => Broker.connectCallback env query s
  | .connectAuthorizeExisting authorization body => Broker.connectAuthorizeExisting env authorization body s
  | .accountConnectStart authorization => Broker.accountConnectStart env authorization s
  | .accountConnectComplete authorization body => Broker.accountConnectComplete env authorization body s

def Task.resume (answers : Answers) (s : Shared) : Task → Option (Task × Shared)
  | .idle => none
  | .starting now pending => some (connectStartAuthenticated env answers now pending s)
  | .callbackProving now state stored installationId _ =>
    some (connectCallbackProven i answers now state stored installationId s)
  | .callbackResolving now state stored installationId authorized =>
    some (connectCallbackResolved i answers now state stored installationId authorized s)
  | .existingAuthenticating now pending body => some (connectAuthorizeExistingAuthenticated env now pending body s)
  | .existingProving now deviceId request stored =>
    some (connectAuthorizeExistingProven i answers now deviceId request stored s)
  | .existingResolving now deviceId request _ authorized =>
    some (connectAuthorizeExistingResolved i answers now deviceId request authorized s)
  | .accountStarting now pending => some (accountConnectStartAuthenticated env answers now pending s)
  | .completing stateHash stored _ => some (accountConnectCompleteProven i answers stateHash stored s)
  | .finished _ => none

end

/-! ## Interleavings -/

structure ConnectServer where
  shared : Shared
  tasks : Nat → Task := fun _ => .idle

inductive ConnectLabel where
  | tick (ms : Nat)
  | registerDevice (deviceId publicJwk : String) (now : Int)
  | arrive (i : Nat) (request : Request)
  | resume (i : Nat) (answers : Answers)

/-- A request's id is its own: another request under it does not arrive. -/
def ConnectServer.step (env : ConnectEnv) (w : ConnectServer) : ConnectLabel → Option ConnectServer
  | .tick ms => some { w with shared := { w.shared with clock := w.shared.clock + ms } }
  | .registerDevice deviceId publicJwk now =>
    some { w with shared := { w.shared with store := w.shared.store.upsertDevice deviceId publicJwk now } }
  | .arrive i request => match w.tasks i with
    | .idle =>
      let (task, shared) := request.arrive env w.shared
      some ⟨shared, Function.update w.tasks i task⟩
    | _ => none
  | .resume i answers =>
    ((w.tasks i).resume env i answers w.shared).map fun (task, shared) => ⟨shared, Function.update w.tasks i task⟩

def startServer (clock : Int) : ConnectServer := { shared := { clock := clock } }

end NeonDiff.Broker
