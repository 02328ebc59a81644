import NeonDiff.License.Store

/-! # The licence service: activation, validation and deactivation of a device

Each answer is an HTTP status and a JSON body, next to the store that the call leaves.
-/

namespace NeonDiff.License

open NeonDiff.Lib

/-! ## Answers -/

inductive EntitlementStatus where
  | active | expired | revoked | invalid | scopeMismatch
  deriving DecidableEq, Repr

def EntitlementStatus.text : EntitlementStatus → String
  | active => "active"
  | expired => "expired"
  | revoked => "revoked"
  | invalid => "invalid"
  | scopeMismatch => "scope_mismatch"

def RepoVisibilityScope.text : RepoVisibilityScope → String
  | pub => "public"
  | priv => "private"
  | all => "all"

structure ServiceResult where
  httpStatus : Nat
  body : List (String × Json)

/-- `...(value ? { [key]: value } : {})`. -/
def optionalField (key : String) (value : Option String) : List (String × Json) :=
  (nonEmpty value).elim [] fun value => [(key, .str value)]

def entitlementFrom (record : LicenseRecord) (status : EntitlementStatus) : List (String × Json) :=
  [("status", .str status.text), ("repoVisibilityScope", .str record.repoVisibilityScope.text),
    ("privateRepoAllowed", .bool record.privateRepoAllowed), ("updateEntitlement", .bool record.updateEntitlement)] ++
    optionalField "expiresAt" record.expiresAt ++ optionalField "plan" (some record.plan) ++
    [("seats", .int record.seats)] ++
    if status = .active then [] else optionalField "revocationReason" record.revocationReason

def activeEntitlementBody (record : LicenseRecord) : ServiceResult :=
  ⟨200, [("entitlement", .obj (entitlementFrom record .active))]⟩

def invalidResult : ServiceResult :=
  ⟨404, [("status", .str "invalid"), ("detail", .str "license key is not recognized")]⟩

def revokedResult (record : LicenseRecord) : ServiceResult :=
  ⟨403, [("status", .str "revoked")] ++ optionalField "revocationReason" record.revocationReason ++
    [("detail", .str "license is revoked")]⟩

def expiredResult : ServiceResult := ⟨402, [("status", .str "expired"), ("detail", .str "license is expired")]⟩

def seatExhaustedResult (record : LicenseRecord) : ServiceResult :=
  ⟨409, [("status", .str "scope_mismatch"), ("seats", .int record.seats),
    ("detail", .str "license seats are exhausted; deactivate another machine before activating this one")]⟩

def repositoryBindingMismatchResult : ServiceResult :=
  ⟨409, [("status", .str "scope_mismatch"),
    ("detail", .str "license activation is already bound to a different repository")]⟩

def deactivatedResult (record : LicenseRecord) : ServiceResult :=
  ⟨200, [("status", .str "active"), ("repoVisibilityScope", .str record.repoVisibilityScope.text),
    ("updateEntitlement", .bool record.updateEntitlement), ("detail", .str "machine deactivated")]⟩

/-- The answer is an entitlement whose status is `active`. -/
def ServiceResult.isActive (result : ServiceResult) : Bool :=
  match Json.field result.body "entitlement" with
  | some (.obj entitlement) =>
    match Json.field entitlement "status" with
    | some (.str status) => result.httpStatus = 200 && status = "active"
    | _ => false
  | _ => false

/-! ## Requests -/

structure LicenseRequest where
  licenseKey : String
  repo : Option String := none
  machineId : String
  deriving DecidableEq, Repr

/-- An expiry that is no date never comes. -/
def isExpired (env : Env) (record : LicenseRecord) (now : Int) : Bool :=
  ((nonEmpty record.expiresAt).bind env.dateParse).any fun ms => ms ≤ now

/-- The licence of a request, where it is active and unexpired, or the denial. -/
def resolveActiveLicense (env : Env) (s : Licenses) (req : LicenseRequest) (now : Int) :
    Except ServiceResult LicenseRecord :=
  match s.getLicenseByKey env.sha256 req.licenseKey with
  | none => .error invalidResult
  | some record =>
    if record.status = .revoked then .error (revokedResult record)
    else if record.status = .expired || isExpired env record now then .error expiredResult
    else .ok record

def activate (env : Env) (now : Int) (req : LicenseRequest) (s : Licenses) : ServiceResult × Licenses :=
  match resolveActiveLicense env s req now with
  | .error denial => (denial, s)
  | .ok record =>
    let activated :=
      (activeEntitlementBody record,
        upsertActivation record.licenseKeyHash req.machineId req.repo (IsoDate.toISOString now) s)
    match s.getActivation record.licenseKeyHash req.machineId with
    | some existing =>
      match nonEmpty existing.repo, nonEmpty req.repo with
      | some bound, some repo => if bound ≠ repo then (repositoryBindingMismatchResult, s) else activated
      | _, _ => activated
    | none =>
      if record.seats ≤ s.countActivations record.licenseKeyHash then (seatExhaustedResult record, s) else activated

def validate (env : Env) (now : Int) (req : LicenseRequest) (s : Licenses) : ServiceResult × Licenses :=
  match resolveActiveLicense env s req now with
  | .error denial => (denial, s)
  | .ok record =>
    match s.getActivation record.licenseKeyHash req.machineId with
    | none => (seatExhaustedResult record, s)
    | some _ =>
      (activeEntitlementBody record,
        touchActivation record.licenseKeyHash req.machineId (IsoDate.toISOString now) s)

def deactivate (env : Env) (req : LicenseRequest) (s : Licenses) : ServiceResult × Licenses :=
  match s.getLicenseByKey env.sha256 req.licenseKey with
  | none => (invalidResult, s)
  | some record => (deactivatedResult record, removeActivation record.licenseKeyHash req.machineId s)

/-! ## Runs of the service -/

/-- The calls that reach the store: a device's requests, and every operation that is not a device's. -/
inductive ServiceCall where
  | activate (req : LicenseRequest)
  | validate (req : LicenseRequest)
  | deactivate (req : LicenseRequest)
  | store (call : StoreCall) (notOfDevice : call.ofDevice = false)

/-- The answer to a device, where the call is one's, and the store after the call. -/
def ServiceCall.run (env : Env) (now : Int) (s : Licenses) : ServiceCall → Option ServiceResult × Licenses
  | activate req => Prod.map some id (License.activate env now req s)
  | validate req => Prod.map some id (License.validate env now req s)
  | deactivate req => Prod.map some id (License.deactivate env req s)
  | store call _ => (none, (call.commit env now s).toOption.getD s)

/-- The store after calls at their times. -/
def serve (env : Env) (s : Licenses) : List (Int × ServiceCall) → Licenses
  | [] => s
  | (now, call) :: calls => serve env (call.run env now s).2 calls

end NeonDiff.License
