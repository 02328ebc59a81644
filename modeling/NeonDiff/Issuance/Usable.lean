import NeonDiff.Issuance.Model
import NeonDiff.License.Seats

/-! # Whether a key that was handed out can be used -/

namespace NeonDiff.Issuance

open NeonDiff.Lib NeonDiff.License NeonDiff.Billing

variable {env : Env} {now : Int} {s t : Licenses} {result : ServiceResult} {rawKey : String}

/-! ## Activating a usable licence -/

theorem isActive_activeEntitlementBody (record : LicenseRecord) : (activeEntitlementBody record).isActive = true := by
  simp [ServiceResult.isActive, activeEntitlementBody, entitlementFrom, Json.field, EntitlementStatus.text]

theorem resolveActiveLicense_of_usable {req : LicenseRequest} {row : LicenseRecord}
    (h : Usable env s req.licenseKey now row) : resolveActiveLicense env s req now = .ok (mapLicense row) := by
  have hfound : s.getLicenseByKey env.sha256 req.licenseKey = some (mapLicense row) := by
    unfold Licenses.getLicenseByKey Licenses.getLicenseByHash
    rw [h.found, Option.map_some]
  have hactive : (mapLicense row).status = .active := h.active
  have hexpired : isExpired env (mapLicense row) now = false := by
    have hexpiry : (nonEmpty (mapLicense row).expiresAt).bind env.dateParse = expiryTime env row :=
      expiryTime_mapLicense row
    unfold isExpired
    rw [hexpiry]
    cases htime : expiryTime env row with
    | none => rfl
    | some expiresAt =>
      have hlt := h.unexpired expiresAt htime
      simp only [Option.any_some, decide_eq_false_iff_not]
      omega
  unfold resolveActiveLicense
  simp [hfound, hactive, hexpired]

theorem activate_of_usable {req : LicenseRequest} {row : LicenseRecord} (h : Usable env s req.licenseKey now row)
    (hnew : s.activations.find? (row.licenseKeyHash, req.machineId) = none)
    (hfree : (s.countActivations row.licenseKeyHash : Int) < row.seats) :
    (activate env now req s).1.isActive = true := by
  have hnone : s.getActivation row.licenseKeyHash req.machineId = none := by
    unfold Licenses.getActivation
    rw [hnew, Option.map_none]
  unfold activate
  rw [resolveActiveLicense_of_usable h]
  dsimp only
  rw [show (mapLicense row).licenseKeyHash = row.licenseKeyHash from rfl, hnone]
  dsimp only
  rw [if_neg (not_le.mpr (show (s.countActivations row.licenseKeyHash : Int) < (mapLicense row).seats from hfree))]
  exact isActive_activeEntitlementBody _

/-- The key's licence is stored, active and unexpired, and a new machine can take a free seat of it. -/
def UsableKey (env : Env) (t : Licenses) (rawKey : String) (now : Int) : Prop :=
  ∃ row, Usable env t rawKey now row ∧ ∀ machineId repo,
    t.activations.find? (row.licenseKeyHash, machineId) = none →
    (t.countActivations row.licenseKeyHash : Int) < row.seats →
    (activate env now ⟨rawKey, repo, machineId⟩ t).1.isActive = true

theorem usableKey_of_usable {row : LicenseRecord} (h : Usable env t rawKey now row) : UsableKey env t rawKey now :=
  ⟨row, h, fun machineId repo => @activate_of_usable _ _ _ ⟨rawKey, repo, machineId⟩ _ h⟩

theorem usable_of_record {hash : String} {record : LicenseRecord} (hfound : t.getLicenseByHash hash = some record)
    (hhash : Licenses.hashLicenseKey env.sha256 rawKey = hash) (hactive : record.status = .active)
    (hunexpired : ∀ expiresAt, record.expiresAt.bind env.dateParse = some expiresAt → now < expiresAt) :
    ∃ row, Usable env t rawKey now row := by
  obtain ⟨row, hrow, rfl⟩ := Option.map_eq_some_iff.mp hfound
  exact ⟨row, hhash ▸ hrow, hactive, hunexpired⟩

/-! ## Handing out a key -/

structure Hands (result : ServiceResult) (rawKey : String) : Prop where
  active : result.isActive = true
  key : Json.field result.body "licenseKey" = some (.str rawKey)

/-- The licence that the run of the workflow was issued before, where there is one, is active and unexpired. -/
def StillUsable (env : Env) (s : Licenses) (idempotencyKey : String) (now : Int) : Prop :=
  ∀ existing row, s.getIssuanceEvent idempotencyKey = some existing →
    s.licenses.find? existing.licenseKeyHash = some row →
    row.status = .active ∧ ∀ expiresAt, expiryTime env row = some expiresAt → now < expiresAt

theorem trialEnd_lt (input : IssueBoundCheckoutLicenseInput) (issuedAt : Int) : issuedAt < trialEnd input issuedAt := by
  unfold trialEnd
  have hdays : 1 ≤ (checkoutPolicyFor input.checkoutLookupKey).trialDays := by
    cases input.checkoutLookupKey <;> decide
  omega

theorem usable_of_inserted {input : IssueLicenseInput} {ms : Int} {u : Licenses}
    (h : InsertedLicense (licenseRow env rawKey input) s t) (hlicenses : u.licenses = t.licenses)
    (hexpires : input.expiresAt = some (IsoDate.toISOString ms)) (htime : IsoDate.isTime ms = true) (hlt : now < ms) :
    Usable env u rawKey now (licenseRow env rawKey input) := by
  refine ⟨?_, rfl, ?_⟩
  · rw [hlicenses, h.find]
    exact if_pos rfl
  · intro expiresAt hexpiry
    rw [expiryTime_iso htime hexpires] at hexpiry
    obtain rfl := Option.some.inj hexpiry
    exact hlt

theorem issueBound_usable {input : IssueBoundCheckoutLicenseFields} {r : BoundIssuance}
    (h : issueBoundCheckoutLicense env now rawKey input s = .ok (r, t)) : UsableKey env t rawKey now := by
  obtain ⟨validated, -, h⟩ := bind_eq_ok h
  rcases issueBound_cases h with ⟨rfl, existing, hreplayed⟩ | ⟨s1, s2, hissued⟩
  · obtain ⟨expiresAt, hparse, hlt⟩ := hreplayed.unexpired
    obtain ⟨row, hrow⟩ : ∃ row, Usable env t rawKey now row := by
      apply usable_of_record hreplayed.record hreplayed.hash hreplayed.active
      intro other hother
      obtain rfl := Option.some.inj (hparse.symm.trans hother)
      exact hlt
    exact usableKey_of_usable hrow
  · have hlicenses : t.licenses = s1.licenses := hissued.binding.licenses.trans hissued.issuance.licenses
    exact usableKey_of_usable (usable_of_inserted hissued.license hlicenses rfl hissued.time (trialEnd_lt validated now))

theorem issueCheckoutLicense_usable {req : LicenseIssuanceRequest} {secret : String}
    (h : issueCheckoutLicense env now req secret s = (result, t)) (hands : Hands result rawKey) :
    UsableKey env t rawKey now := by
  unfold issueCheckoutLicense at h
  dsimp only at h
  split at h
  · rename_i issued u hissued
    obtain ⟨rfl, rfl⟩ := Prod.mk.inj h
    obtain rfl : deriveCheckoutLicenseKey env secret req.idempotencyKey = rawKey := by
      simpa [Json.field] using hands.key
    exact issueBound_usable hissued
  · have hkey := hands.key
    split at h
    · obtain ⟨rfl, rfl⟩ := Prod.mk.inj h
      simp [Json.field] at hkey
    · obtain ⟨rfl, rfl⟩ := Prod.mk.inj h
      simp [Json.field] at hkey

theorem redeemStripeCheckout_usable {runtime : StripeCheckoutRuntime} {sessionId token : String}
    (h : redeemStripeCheckout env now runtime sessionId token s = .ok (result, t)) (hands : Hands result rawKey) :
    UsableKey env t rawKey now := by
  obtain ⟨canonical, -, h⟩ := bind_eq_ok h
  obtain ⟨⟨redeemed, u⟩, hredeemed, h⟩ := bind_eq_ok h
  obtain ⟨rfl, rfl⟩ := Prod.mk.inj (Except.ok.inj h)
  obtain rfl : deriveCheckoutLicenseKey env runtime.licenseDerivationSecret ("checkout-session:" ++ canonical) = rawKey := by
    simpa [Json.field] using hands.key
  have hstored := redeemStripeCheckout_cases (mapError_eq_ok.mp hredeemed)
  have hfound : u.getLicenseByHash redeemed.2.licenseKeyHash = some redeemed.1 := by
    rw [hstored.frame]
    exact hstored.found
  obtain ⟨row, hrow⟩ := usable_of_record hfound hstored.hash hstored.active hstored.unexpired
  exact usableKey_of_usable hrow

theorem issueLifecycleLicense_usable {request : LifecycleIssuanceRequest} {claims : LifecycleOidcClaims}
    {secret : String} (h : issueLifecycleLicense env now request claims secret s = .ok (result, t))
    (hands : Hands result rawKey) :
    UsableKey env t rawKey now ↔ StillUsable env s claims.idempotencyKey now := by
  have hkey := hands.key
  unfold issueLifecycleLicense at h
  split at h
  · obtain ⟨rfl, rfl⟩ := Prod.mk.inj (Except.ok.inj h)
    simp [Json.field] at hkey
  · obtain ⟨expiresAt, hexpires, h⟩ := bind_eq_ok h
    obtain ⟨htime, rfl⟩ := isoText_eq_ok.mp hexpires
    split at h
    · rename_i record replayed u hissued
      obtain ⟨rfl, rfl⟩ := Prod.mk.inj (Except.ok.inj h)
      obtain rfl : lifecycleLicenseKey env secret claims = rawKey := by simpa [Json.field] using hkey
      cases issueIdempotent_cases hissued with
      | replayed existing record issuance requestHash hash found =>
        obtain ⟨row, hrow, -⟩ := Option.map_eq_some_iff.mp found
        constructor
        · rintro ⟨usableRow, husable, -⟩ other otherRow hother hotherRow
          obtain rfl := Option.some.inj (issuance.symm.trans hother)
          have hfound := husable.found
          rw [hash] at hfound
          obtain rfl := Option.some.inj (hfound.symm.trans hotherRow)
          exact ⟨husable.active, husable.unexpired⟩
        · intro hstill
          obtain ⟨hactive, hunexpired⟩ := hstill existing row issuance hrow
          exact usableKey_of_usable ⟨hash ▸ hrow, hactive, hunexpired⟩
      | issued s1 t license issuance =>
        constructor
        · intro _ existing row hexisting
          have hfree : s1.getIssuanceEvent claims.idempotencyKey = none := issuance.free
          rw [license.frame] at hfree
          exact absurd (hfree.symm.trans hexisting) (by simp)
        · intro _
          exact usableKey_of_usable (usable_of_inserted license issuance.licenses rfl htime (by omega))
    · split at h
      · obtain ⟨rfl, rfl⟩ := Prod.mk.inj (Except.ok.inj h)
        simp [Json.field] at hkey
      · obtain ⟨rfl, rfl⟩ := Prod.mk.inj (Except.ok.inj h)
        simp [Json.field] at hkey

/-- On every store and at every time, a checkout's issuance and its redemption hand out usable keys only; the issuance
to a workflow's run does exactly when the run had no licence before or still has a usable one. -/
theorem issued_keys_are_usable (env : Env) (s t : Licenses) (now : Int) (result : ServiceResult) (rawKey : String)
    (hands : Hands result rawKey) :
    (∀ req secret, issueCheckoutLicense env now req secret s = (result, t) → UsableKey env t rawKey now) ∧
    (∀ runtime sessionId token, redeemStripeCheckout env now runtime sessionId token s = .ok (result, t) →
      UsableKey env t rawKey now) ∧
    (∀ request claims secret, issueLifecycleLicense env now request claims secret s = .ok (result, t) →
      (UsableKey env t rawKey now ↔ StillUsable env s claims.idempotencyKey now)) := by
  refine ⟨?_, ?_, ?_⟩
  · intro req secret h
    exact issueCheckoutLicense_usable h hands
  · intro runtime sessionId token h
    exact redeemStripeCheckout_usable h hands
  · intro request claims secret h
    exact issueLifecycleLicense_usable h hands

/-! ## A run that is issued its licence again -/

/-- A service whose texts all have one digest. -/
def releaseEnv : Env := ⟨fun _ => "digest", fun _ _ => "key", fun _ => none⟩

def releaseRequest : LifecycleIssuanceRequest where
  releaseVersion := "v1.0.4"
  candidateHead := "0123456789abcdef0123456789abcdef01234567"
  packShasum := "89abcdef0123456789abcdef0123456789abcdef"
  packIntegrity := "sha512-" ++ String.ofList (List.replicate 86 'A') ++ "=="

def releaseClaims : LifecycleOidcClaims :=
  ⟨"electricsheephq/evaos-code-review-bot-neondiff", "1285247004", "7", releaseRequest.candidateHead⟩

/-- The store after the run's first issuance. -/
def releasedStore : Licenses :=
  after releaseEnv {} [(1700000000000, .issueIdempotentLicense (lifecycleLicenseKey releaseEnv "s" releaseClaims)
    (lifecycleInput releaseEnv releaseRequest releaseClaims "2023-11-14T22:28:20.000Z"))]

/-- The answer to the run at the given time. -/
def releaseAnswer (now : Int) (s : Licenses) : ServiceResult × Licenses :=
  (issueLifecycleLicense releaseEnv now releaseRequest releaseClaims "s" s).toOption.getD (⟨500, []⟩, s)

theorem releaseAnswer_ok {now : Int} {s : Licenses}
    (h : (issueLifecycleLicense releaseEnv now releaseRequest releaseClaims "s" s).toOption.isSome = true) :
    issueLifecycleLicense releaseEnv now releaseRequest releaseClaims "s" s = .ok (releaseAnswer now s) := by
  unfold releaseAnswer
  cases hanswer : issueLifecycleLicense releaseEnv now releaseRequest releaseClaims "s" s with
  | error e =>
    rw [hanswer] at h
    cases h
  | ok answer => rfl

def releaseRow : LicenseRecord :=
  { licenseKeyHash := "digest", plan := "release_lifecycle"
    repoVisibilityScope := .all, privateRepoAllowed := true, updateEntitlement := true, seats := 1
    expiresAt := some "2023-11-14T22:28:20.000Z", status := .active }

theorem releaseAnswer_key {now : Int} {s : Licenses}
    (h : (match Json.field (releaseAnswer now s).1.body "licenseKey" with
      | some (.str key) => decide (key = lifecycleLicenseKey releaseEnv "s" releaseClaims)
      | _ => false) = true) :
    Json.field (releaseAnswer now s).1.body "licenseKey" =
      some (.str (lifecycleLicenseKey releaseEnv "s" releaseClaims)) := by
  split at h
  · rename_i key hkey
    rw [hkey, of_decide_eq_true h]
  · cases h

/-- A minute later the licence that the run is issued again is good. -/
theorem issued_keys_are_usable_again :
    UsableKey releaseEnv (releaseAnswer 1700000060000 releasedStore).2
      (lifecycleLicenseKey releaseEnv "s" releaseClaims) 1700000060000 := by
  have hands : Hands (releaseAnswer 1700000060000 releasedStore).1 (lifecycleLicenseKey releaseEnv "s" releaseClaims) :=
    ⟨by decide +kernel, releaseAnswer_key (by decide +kernel)⟩
  have hstill : StillUsable releaseEnv releasedStore releaseClaims.idempotencyKey 1700000060000 := by
    intro existing row hexisting hrow
    have hevent : (releasedStore.getIssuanceEvent releaseClaims.idempotencyKey).map (·.licenseKeyHash) =
        some releaseRow.licenseKeyHash := by decide +kernel
    rw [hexisting, Option.map_some] at hevent
    rw [Option.some.inj hevent] at hrow
    have hstored : releasedStore.licenses.find? releaseRow.licenseKeyHash = some releaseRow := by decide +kernel
    obtain rfl := Option.some.inj (hstored.symm.trans hrow)
    have hexpiry : expiryTime releaseEnv releaseRow = some 1700000900000 := by decide +kernel
    refine ⟨rfl, ?_⟩
    intro expiresAt hexpires
    obtain rfl := Option.some.inj (hexpiry.symm.trans hexpires)
    decide
  exact ((issued_keys_are_usable releaseEnv releasedStore _ 1700000060000 _ _ hands).2.2 releaseRequest releaseClaims "s"
    (releaseAnswer_ok (by decide +kernel))).mpr hstill

/-- A quarter of an hour later the run is handed the same key as an active one, which no machine can activate. -/
theorem lifecycle_key_has_expired :
    issueLifecycleLicense releaseEnv 1700000900000 releaseRequest releaseClaims "s" releasedStore =
        .ok (releaseAnswer 1700000900000 releasedStore) ∧
      Hands (releaseAnswer 1700000900000 releasedStore).1 (lifecycleLicenseKey releaseEnv "s" releaseClaims) ∧
      ¬ UsableKey releaseEnv (releaseAnswer 1700000900000 releasedStore).2
        (lifecycleLicenseKey releaseEnv "s" releaseClaims) 1700000900000 ∧
      (activate releaseEnv 1700000900000 ⟨lifecycleLicenseKey releaseEnv "s" releaseClaims, none, "machine-1"⟩
        (releaseAnswer 1700000900000 releasedStore).2).1.httpStatus = 402 := by
  refine ⟨releaseAnswer_ok (by decide +kernel), ⟨by decide +kernel, releaseAnswer_key (by decide +kernel)⟩, ?_,
    by decide +kernel⟩
  rintro ⟨row, husable, -⟩
  have hstored : (releaseAnswer 1700000900000 releasedStore).2.licenses.find?
      (Licenses.hashLicenseKey releaseEnv.sha256 (lifecycleLicenseKey releaseEnv "s" releaseClaims)) = some releaseRow := by
    decide +kernel
  obtain rfl := Option.some.inj (hstored.symm.trans husable.found)
  have hexpiry : expiryTime releaseEnv releaseRow = some 1700000900000 := by decide +kernel
  exact absurd (husable.unexpired _ hexpiry) (by decide)

end NeonDiff.Issuance
