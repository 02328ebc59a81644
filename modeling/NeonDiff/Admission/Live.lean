import NeonDiff.Admission.License

/-! # Production admissions

Work is admitted by a frozen object that only a live validation mints. Public review is admitted without a
licence, and the daemon's admissions are derived from one validation.
-/

namespace NeonDiff.Admission

open NeonDiff.Lib NeonDiff.Lib.JsText

/-! ## The production policy and the secret -/

def officialLicenseApiBaseUrl : String := "https://neondiff-license.fly.dev"

def resolveProductionLicensePolicy (input : LicenseConfig) : LicenseConfig :=
  { input with
    enabled := true
    apiBaseUrl := some officialLicenseApiBaseUrl
    offlineGraceMs := 0
    publicReposFree := true
    privateReposRequireEntitlement := true
    updateEntitlementRequiresLicense := true
    keychainService := "com.electricsheephq.NeonDiffDesktop.secrets"
    keychainAccount := "license/default" }

structure RuntimeCredentials where
  licenseKey : Option String := none
  licenseMachineId : Option String := none
  readProductionFileLicenseSecret : String → Except String (Option String)

def productionLicenseSecretReader (runtime : RuntimeCredentials) : LicenseSecretReader := fun config =>
  match nonEmpty runtime.licenseKey with
  | some runtimeKey => .ok (some runtimeKey)
  | none =>
    if config.storageBackend ≠ .file then
      .error ("license secret storage is not supported for production admission; " ++
        "use the approved file backend")
    else match nonEmpty config.keyPath with
      | none => .ok none
      | some path => runtime.readProductionFileLicenseSecret path

/-! ## Admissions -/

inductive ProductionLicenseOperation where
  | reviewDiscovery | reviewCycle | providerVerify | providerSmoke | daemonCycle | issueEnrichment | updateCheck
  deriving DecidableEq, Repr

structure ProductionLicenseAdmission where
  operation : ProductionLicenseOperation
  checkedAt : String
  fingerprint : String
  repoVisibilityScope : RepoVisibilityScope
  privateRepoAllowed : Bool
  updateEntitlement : Bool
  /-- Whether `mintedProductionAdmissions` holds the object. -/
  minted : Bool := false
  deriving DecidableEq, Repr

structure RedactedLicenseDecision where
  status : LicenseStatus
  checkedAt : String
  classification : Option LicenseStatus
  detail : String
  deriving DecidableEq, Repr

abbrev Decision (α : Type) : Type := Except RedactedLicenseDecision α

def mintProductionLicenseAdmission (input : ProductionLicenseAdmission) : ProductionLicenseAdmission :=
  { input with minted := true }

def isAuthenticProductionLicenseAdmission (admission : ProductionLicenseAdmission) : Bool := admission.minted

def admissionCovers (admission : ProductionLicenseAdmission) (visibility : Visibility) : Bool :=
  match visibility with
  | .pub =>
    admission.repoVisibilityScope = .pub || admission.repoVisibilityScope = .priv || admission.repoVisibilityScope = .all
  | .priv =>
    admission.privateRepoAllowed && (admission.repoVisibilityScope = .priv || admission.repoVisibilityScope = .all)
  | .unknown => false

def authorizeAdmissionForVisibility (admission : ProductionLicenseAdmission) (visibility : Visibility)
    (expectedOperation : Option ProductionLicenseOperation) : Decision Unit :=
  if !isAuthenticProductionLicenseAdmission admission then
    .error ⟨.invalid, "1970-01-01T00:00:00.000Z", some .invalid,
      "production license admission was not minted by live validation"⟩
  else if expectedOperation.any (admission.operation ≠ ·) then
    .error ⟨.invalid, admission.checkedAt, some .invalid,
      "production license admission does not authorize this operation"⟩
  else if admissionCovers admission visibility then .ok ()
  else
    let status := if visibility = .unknown then LicenseStatus.network else .scopeMismatch
    .error ⟨status, admission.checkedAt, some status,
      if visibility = .unknown then
        "repository visibility is unknown; production license admission fails closed"
      else "active entitlement does not cover " ++ visibility.text ++ " repository work"⟩

structure ValidationInput where
  config : LicenseConfig
  repo : Option String := none
  machineId : Option String := none
  now : Date
  fetchImpl : Fetch
  secretReader : Option LicenseSecretReader := none
  runtime : RuntimeCredentials
  /-- What writing the cache file throws. -/
  writeFault : Option String := none

def ValidationInput.reader (input : ValidationInput) : LicenseSecretReader :=
  input.secretReader.getD (productionLicenseSecretReader input.runtime)

def ValidationInput.statusInput (input : ValidationInput) : StatusInput :=
  { config := resolveProductionLicensePolicy input.config
    repo := nonEmpty input.repo
    machineId := input.machineId.or input.runtime.licenseMachineId
    refresh := true
    now := input.now
    fetchImpl := input.fetchImpl
    licenseSecretReader := some input.reader
    writeFault := input.writeFault }

def publicFreeAdmission (operation : ProductionLicenseOperation) (checkedAt : String) : ProductionLicenseAdmission :=
  mintProductionLicenseAdmission
    { operation, checkedAt, fingerprint := "public-free", repoVisibilityScope := .pub, privateRepoAllowed := false
      updateEntitlement := false }

/-- The operations that a client without a licence may do on public repositories. -/
def publicFreeOperations : List ProductionLicenseOperation :=
  [.providerVerify, .providerSmoke, .daemonCycle, .reviewDiscovery]

def admissionOfEntitlement (operation : ProductionLicenseOperation) (checkedAt licenseFingerprint : String)
    (entitlement : LicenseEntitlement) : ProductionLicenseAdmission :=
  mintProductionLicenseAdmission
    { operation
      checkedAt
      fingerprint := licenseFingerprint
      repoVisibilityScope := entitlement.repoVisibilityScope
      privateRepoAllowed := entitlement.privateRepoAllowed ≠ some false &&
        (entitlement.repoVisibilityScope = .priv || entitlement.repoVisibilityScope = .all)
      updateEntitlement := entitlement.updateEntitlement }

def checkAdmission (admission : ProductionLicenseAdmission) (visibility : Visibility) :
    Decision ProductionLicenseAdmission :=
  let scopeMismatch := fun detail =>
    (.error ⟨.scopeMismatch, admission.checkedAt, some .scopeMismatch, detail⟩ : Decision ProductionLicenseAdmission)
  if admission.operation = .updateCheck && !admission.updateEntitlement then
    scopeMismatch "active entitlement does not include update access"
  else if admission.operation = .issueEnrichment && !admission.privateRepoAllowed then
    scopeMismatch "issue_enrichment requires an active entitlement covering private repository work"
  else if admission.operation = .reviewCycle then
    (authorizeAdmissionForVisibility admission visibility none).map fun _ => admission
  else .ok admission

/-- What `requireActiveProductionLicense` makes of a licence status. -/
def admissionOfStatus (config : LicenseConfig) (operation : ProductionLicenseOperation) (visibility : Visibility)
    (status : LicenseStatusResult) : Decision ProductionLicenseAdmission :=
  if status.status = .missing && status.classification = some .missing && config.publicReposFree &&
      publicFreeOperations.contains operation then
    .ok (publicFreeAdmission operation status.checkedAt)
  else
    let refused := (.error ⟨status.status, status.checkedAt, status.classification, status.detail⟩ :
      Decision ProductionLicenseAdmission)
    match status.entitlement with
    | none => refused
    | some entitlement => match nonEmpty entitlement.licenseFingerprint with
      | none => refused
      | some licenseFingerprint =>
        if !status.ok || status.status ≠ .active || status.source ≠ .api || entitlement.status ≠ .active then refused
        else checkAdmission (admissionOfEntitlement operation status.checkedAt licenseFingerprint entitlement) visibility

/-- Only a review cycle has a visibility; the other operations do not read theirs. -/
def requireActiveProductionLicense (env : Env) (input : ValidationInput) (operation : ProductionLicenseOperation)
    (visibility : Visibility) (w : World) : Outcome (Decision ProductionLicenseAdmission) :=
  let config := resolveProductionLicensePolicy input.config
  if operation = .reviewCycle && visibility = .pub && config.publicReposFree then
    (.ok (.ok (publicFreeAdmission .reviewCycle input.now.toISOString)), w)
  else match getLicenseStatus env input.statusInput w with
    | (.error message, w) => (.error message, w)
    | (.ok status, w) => (.ok (admissionOfStatus config operation visibility status), w)

structure DaemonCycleAdmissions where
  daemonCycle : ProductionLicenseAdmission
  reviewDiscovery : ProductionLicenseAdmission
  issueEnrichment : Option ProductionLicenseAdmission
  deriving DecidableEq, Repr

def deriveProductionLicenseAdmission (source : ProductionLicenseAdmission) (operation : ProductionLicenseOperation) :
    ProductionLicenseAdmission :=
  mintProductionLicenseAdmission { source with operation }

def deriveDaemonAdmissions (shared : ProductionLicenseAdmission) : DaemonCycleAdmissions :=
  { daemonCycle := shared
    reviewDiscovery := deriveProductionLicenseAdmission shared .reviewDiscovery
    issueEnrichment :=
      if shared.privateRepoAllowed then some (deriveProductionLicenseAdmission shared .issueEnrichment) else none }

def requireActiveDaemonCycleAdmissions (env : Env) (input : ValidationInput) (w : World) :
    Outcome (Decision DaemonCycleAdmissions) :=
  match requireActiveProductionLicense env input .daemonCycle .unknown w with
  | (.error message, w) => (.error message, w)
  | (.ok daemon, w) => (.ok (daemon.map deriveDaemonAdmissions), w)

/-! ## A live status -/

variable {env : Env} {w w' : World}

theorem getLicenseStatus_live {input : StatusInput} {read : LicenseSecretReader} {status : LicenseStatusResult}
    (hreader : input.licenseSecretReader = some read) (hrefresh : input.refresh = true)
    (h : getLicenseStatus env input w = (.ok status, w')) (hok : status.ok = true) :
    ∃ key entitlement, read input.config = .ok (some key) ∧
      AnswersActive env input.config input.fetchImpl input.now (input.call key) entitlement ∧
      status.entitlement = some { entitlement with licenseFingerprint := some (fingerprintLicenseKey env key) } := by
  obtain ⟨-, other, hother, hquiet⟩ | ⟨key, hkey, hsettle⟩ := getLicenseStatus_cases h
  · obtain rfl := Except.ok.inj hother
    obtain hfalse | ⟨hcache, -⟩ := hquiet
    · rw [hok] at hfalse
      cases hfalse
    · rw [hrefresh, hreader] at hcache
      obtain hcache | hcache := hcache
      · cases hcache
      · cases hcache
  · have hread : read input.config = .ok (some key) := by
      rw [statusLicenseKey, hreader] at hkey
      dsimp only at hkey
      cases hstored : read input.config with
      | error message =>
        rw [hstored] at hkey
        cases hkey
      | ok stored =>
        rw [hstored] at hkey
        rw [(Option.filter_eq_some_iff.mp (Except.ok.inj hkey : nonEmpty stored = some key)).1]
    obtain ⟨answered, hanswer, hanswered, herror | ⟨e, rfl, hresult, -⟩⟩ | ⟨hno, hstale | ⟨hresult, -⟩⟩ :=
      settleStatus_cases hsettle
    · obtain ⟨message, hmessage, -⟩ := herror
      cases hmessage
    · obtain ⟨entitlement, hactive, hentitlement, -⟩ := callLicenseApi_ok hanswer
      rw [hanswered] at hentitlement
      obtain rfl := Option.some.inj hentitlement
      obtain rfl := Except.ok.inj hresult
      exact ⟨key, answered, hread, hactive, rfl⟩
    · obtain ⟨_, _, -, hnoReader, -⟩ := hstale
      rw [hreader] at hnoReader
      cases hnoReader
    · obtain rfl := Except.ok.inj hresult
      obtain ⟨entitlement, -, hentitlement, -⟩ := callLicenseApi_ok hok
      rw [hok, hentitlement] at hno
      obtain hno | hno := hno
      · cases hno
      · cases hno

/-! ## What an admission says -/

def AnsweredFor (env : Env) (input : ValidationInput) (key : String) (entitlement : LicenseEntitlement) : Prop :=
  input.reader (resolveProductionLicensePolicy input.config) = .ok (some key) ∧
  AnswersActive env (resolveProductionLicensePolicy input.config) input.fetchImpl input.now
    (input.statusInput.call key) entitlement

def CoversPrivate (entitlement : LicenseEntitlement) : Prop :=
  (entitlement.repoVisibilityScope = .priv ∨ entitlement.repoVisibilityScope = .all) ∧
  entitlement.privateRepoAllowed ≠ some false

structure Within (admission : ProductionLicenseAdmission) (entitlement : LicenseEntitlement) : Prop where
  scope : admission.repoVisibilityScope = entitlement.repoVisibilityScope
  privateRepo : admission.privateRepoAllowed = true → CoversPrivate entitlement
  update : admission.updateEntitlement = true → entitlement.updateEntitlement = true

structure PublicOnly (admission : ProductionLicenseAdmission) : Prop where
  privateRepo : admission.privateRepoAllowed = false
  privateWork : ∀ expected, authorizeAdmissionForVisibility admission .priv expected ≠ .ok ()
  issueEnrichment : admission.operation ≠ .issueEnrichment
  updates : admission.operation ≠ .updateCheck ∧ admission.updateEntitlement = false

/-- What every admission of a validation is: free and public only, or within a live answer. -/
structure Backed (env : Env) (input : ValidationInput) (admission : ProductionLicenseAdmission) : Prop where
  publicFree : admission.fingerprint = "public-free" → PublicOnly admission
  answered : admission.fingerprint = "public-free" ∨
    ∃ key entitlement, AnsweredFor env input key entitlement ∧ Within admission entitlement

theorem hexDigit_ne_p : ∀ digit : Fin 16, Json.hexDigit digit.val ≠ 'p' := by decide

theorem fingerprint_ne_publicFree (env : Env) (key : String) : fingerprintLicenseKey env key ≠ "public-free" := by
  intro h
  have hchars := congrArg String.toList h
  rw [fingerprintLicenseKey, String.toList_ofList] at hchars
  have hmem : 'p' ∈ ((List.ofFn (env.sha256 key)).take 16).map fun digit => Json.hexDigit digit.val := by
    rw [hchars]
    decide
  obtain ⟨digit, -, hdigit⟩ := List.mem_map.mp hmem
  exact hexDigit_ne_p digit hdigit

theorem authorize_ok {admission : ProductionLicenseAdmission} {visibility : Visibility}
    {expected : Option ProductionLicenseOperation}
    (h : authorizeAdmissionForVisibility admission visibility expected = .ok ()) :
    admissionCovers admission visibility = true := by
  unfold authorizeAdmissionForVisibility at h
  split_ifs at h with _ _ hcovers
  exact hcovers

theorem authorize_unknown (admission : ProductionLicenseAdmission) (expected : Option ProductionLicenseOperation) :
    authorizeAdmissionForVisibility admission .unknown expected ≠ .ok () := fun h => by
  cases authorize_ok h

theorem authorize_private_of_not_allowed {admission : ProductionLicenseAdmission}
    (hallowed : admission.privateRepoAllowed = false) (expected : Option ProductionLicenseOperation) :
    authorizeAdmissionForVisibility admission .priv expected ≠ .ok () := fun h => by
  have hcovers := authorize_ok h
  rw [admissionCovers, hallowed] at hcovers
  cases hcovers

theorem publicFreeAdmission_backed (input : ValidationInput) {operation : ProductionLicenseOperation} (checkedAt : String)
    (hissue : operation ≠ .issueEnrichment) (hupdate : operation ≠ .updateCheck) :
    Backed env input (publicFreeAdmission operation checkedAt) where
  publicFree _ := ⟨rfl, authorize_private_of_not_allowed rfl, hissue, hupdate, rfl⟩
  answered := Or.inl rfl

theorem admissionOfEntitlement_within (operation : ProductionLicenseOperation) (checkedAt fingerprint : String)
    (entitlement : LicenseEntitlement) :
    Within (admissionOfEntitlement operation checkedAt fingerprint entitlement) entitlement where
  scope := rfl
  privateRepo h := by
    have hallowed : (entitlement.privateRepoAllowed ≠ some false && (entitlement.repoVisibilityScope = .priv ||
        entitlement.repoVisibilityScope = .all)) = true := h
    simp only [Bool.and_eq_true, Bool.or_eq_true, decide_eq_true_eq] at hallowed
    exact ⟨hallowed.2, hallowed.1⟩
  update h := h

theorem checkAdmission_ok {admission result : ProductionLicenseAdmission} {visibility : Visibility}
    (h : checkAdmission admission visibility = .ok result) : result = admission := by
  unfold checkAdmission at h
  dsimp only at h
  split_ifs at h
  · cases hauthorize : authorizeAdmissionForVisibility admission visibility none with
    | error decision =>
      rw [hauthorize] at h
      cases h
    | ok _ =>
      rw [hauthorize] at h
      exact (Except.ok.inj h).symm
  · exact (Except.ok.inj h).symm

/-! ## Every admission is backed -/

theorem admissionOfStatus_backed {input : ValidationInput} {operation : ProductionLicenseOperation}
    {visibility : Visibility} {status : LicenseStatusResult} {admission : ProductionLicenseAdmission}
    (hstatus : getLicenseStatus env input.statusInput w = (.ok status, w'))
    (h : admissionOfStatus (resolveProductionLicensePolicy input.config) operation visibility status = .ok admission) :
    Backed env input admission := by
  unfold admissionOfStatus at h
  dsimp only at h
  split at h
  · rename_i hfree
    obtain rfl := Except.ok.inj h
    simp only [Bool.and_eq_true] at hfree
    have hmember : operation ∈ publicFreeOperations := List.contains_iff_mem.mp hfree.2
    refine publicFreeAdmission_backed input _ ?_ ?_
    · rintro rfl
      exact absurd hmember (by decide)
    · rintro rfl
      exact absurd hmember (by decide)
  · split at h
    · cases h
    · rename_i entitlement hentitlement
      split at h
      · cases h
      · rename_i fingerprint hfingerprint
        split at h
        · cases h
        · rename_i hlive
          obtain rfl := checkAdmission_ok h
          have hok : status.ok = true := by
            by_contra hno
            rw [Bool.not_eq_true] at hno
            exact hlive (by rw [hno]; rfl)
          obtain ⟨key, answered, hread, hactive, hstamped⟩ := getLicenseStatus_live rfl rfl hstatus hok
          rw [hentitlement] at hstamped
          obtain rfl := Option.some.inj hstamped
          have hkey : fingerprint = fingerprintLicenseKey env key :=
            (Option.some.inj (Option.filter_eq_some_iff.mp hfingerprint).1).symm
          refine ⟨fun hpublic => ?_, Or.inr ⟨key, answered, ⟨hread, hactive⟩, ?_⟩⟩
          · exact absurd (hkey.symm.trans hpublic) (fingerprint_ne_publicFree env key)
          · obtain ⟨hscope, hprivate, hupdate⟩ := admissionOfEntitlement_within operation status.checkedAt fingerprint
              { answered with licenseFingerprint := some (fingerprintLicenseKey env key) }
            exact ⟨hscope, hprivate, hupdate⟩

theorem requireActiveProductionLicense_backed {input : ValidationInput} {operation : ProductionLicenseOperation}
    {visibility : Visibility} {admission : ProductionLicenseAdmission}
    (h : requireActiveProductionLicense env input operation visibility w = (.ok (.ok admission), w')) :
    Backed env input admission := by
  unfold requireActiveProductionLicense at h
  dsimp only at h
  split at h
  · obtain rfl := Except.ok.inj (Except.ok.inj (Prod.mk.inj h).1)
    exact publicFreeAdmission_backed input _ (by decide) (by decide)
  · cases hstatus : getLicenseStatus env input.statusInput w with
    | mk outcome t =>
      rw [hstatus] at h
      cases outcome with
      | error message => cases (Prod.mk.inj h).1
      | ok status => exact admissionOfStatus_backed hstatus (Except.ok.inj (Prod.mk.inj h).1)

def DaemonCycleAdmissions.all (admissions : DaemonCycleAdmissions) : List ProductionLicenseAdmission :=
  [admissions.daemonCycle, admissions.reviewDiscovery] ++ admissions.issueEnrichment.toList

theorem derived_backed {input : ValidationInput} {shared : ProductionLicenseAdmission} (h : Backed env input shared)
    {operation : ProductionLicenseOperation} (hupdate : operation ≠ .updateCheck)
    (hissue : operation = .issueEnrichment → shared.privateRepoAllowed = true) :
    Backed env input (deriveProductionLicenseAdmission shared operation) where
  publicFree hpublic := by
    have hnot := (h.publicFree hpublic).privateRepo
    refine ⟨hnot, authorize_private_of_not_allowed hnot, ?_, hupdate, (h.publicFree hpublic).updates.2⟩
    rintro rfl
    rw [hissue rfl] at hnot
    cases hnot
  answered := by
    obtain hpublic | ⟨key, entitlement, hanswered, hscope, hprivate, hwithin⟩ := h.answered
    · exact Or.inl hpublic
    · exact Or.inr ⟨key, entitlement, hanswered, hscope, hprivate, hwithin⟩

theorem requireActiveDaemonCycleAdmissions_backed {input : ValidationInput} {admissions : DaemonCycleAdmissions}
    {admission : ProductionLicenseAdmission}
    (h : requireActiveDaemonCycleAdmissions env input w = (.ok (.ok admissions), w'))
    (hmem : admission ∈ admissions.all) : Backed env input admission := by
  unfold requireActiveDaemonCycleAdmissions at h
  cases hdaemon : requireActiveProductionLicense env input .daemonCycle .unknown w with
  | mk outcome t =>
    rw [hdaemon] at h
    cases outcome with
    | error message => cases (Prod.mk.inj h).1
    | ok daemon =>
      cases daemon with
      | error decision => cases Except.ok.inj (Prod.mk.inj h).1
      | ok shared =>
        obtain rfl : deriveDaemonAdmissions shared = admissions := Except.ok.inj (Except.ok.inj (Prod.mk.inj h).1)
        have hshared := requireActiveProductionLicense_backed hdaemon
        simp only [DaemonCycleAdmissions.all, deriveDaemonAdmissions, List.mem_append, List.mem_cons,
          List.not_mem_nil, or_false, Option.mem_toList] at hmem
        obtain (rfl | rfl) | hissue := hmem
        · exact hshared
        · exact derived_backed hshared (by decide) (fun h => by cases h)
        · split at hissue
          · rename_i hprivate
            obtain rfl := Option.some.inj hissue
            exact derived_backed hshared (by decide) fun _ => hprivate
          · cases hissue

inductive Returned (env : Env) (input : ValidationInput) (w : World) (admission : ProductionLicenseAdmission) : Prop
  | one (operation : ProductionLicenseOperation) (visibility : Visibility) (w' : World)
      (h : requireActiveProductionLicense env input operation visibility w = (.ok (.ok admission), w'))
  | daemon (admissions : DaemonCycleAdmissions) (w' : World)
      (h : requireActiveDaemonCycleAdmissions env input w = (.ok (.ok admissions), w'))
      (hmem : admission ∈ admissions.all)

theorem Returned.backed {input : ValidationInput} {admission : ProductionLicenseAdmission}
    (h : Returned env input w admission) : Backed env input admission := by
  cases h with
  | one operation visibility w' h => exact requireActiveProductionLicense_backed h
  | daemon admissions w' h hmem => exact requireActiveDaemonCycleAdmissions_backed h hmem

/-- Private work needs a live answer: an admission for it comes from an active answer of the API for the key
that was read, with a private scope. Unknown visibility is never admitted, a free admission covers public
reviews only, and no admission carries more than its answer. -/
theorem private_work_is_live {input : ValidationInput} {admission : ProductionLicenseAdmission}
    (h : Returned env input w admission) :
    (∀ expected, authorizeAdmissionForVisibility admission .priv expected = .ok () →
      ∃ key entitlement, AnsweredFor env input key entitlement ∧ CoversPrivate entitlement) ∧
    (∀ other expected, authorizeAdmissionForVisibility other .unknown expected ≠ .ok ()) ∧
    (admission.fingerprint = "public-free" → PublicOnly admission) ∧
    (admission.fingerprint = "public-free" ∨
      ∃ key entitlement, AnsweredFor env input key entitlement ∧ Within admission entitlement) := by
  have hbacked := h.backed
  refine ⟨fun expected hauthorized => ?_, authorize_unknown, hbacked.publicFree, hbacked.answered⟩
  obtain hpublic | ⟨key, entitlement, hanswered, hwithin⟩ := hbacked.answered
  · exact absurd hauthorized ((hbacked.publicFree hpublic).privateWork expected)
  · have hcovers := authorize_ok hauthorized
    rw [admissionCovers, Bool.and_eq_true] at hcovers
    exact ⟨key, entitlement, hanswered, hwithin.privateRepo hcovers.1⟩

/-! ### A daemon with a private licence -/

def privateLicenceInput : ValidationInput where
  config := { keyPath := some "license.key" }
  now := ⟨1700000000000, by decide⟩
  fetchImpl _ := .response 200 (.obj [("status", .str "active"), ("repoVisibilityScope", .str "private")])
  runtime := { licenseKey := some "nd_live_12345678", readProductionFileLicenseSecret := fun _ => .ok none }

def privateEnrichment : ProductionLicenseAdmission :=
  { operation := .issueEnrichment
    checkedAt := "2023-11-14T22:13:20.000Z"
    fingerprint := "e4fc965f12345678"
    repoVisibilityScope := .priv
    privateRepoAllowed := true
    updateEntitlement := false
    minted := true }

theorem privateEnrichment_returned : Returned plainEnv privateLicenceInput {} privateEnrichment :=
  .daemon
    ⟨{ privateEnrichment with operation := .daemonCycle }, { privateEnrichment with operation := .reviewDiscovery },
      some privateEnrichment⟩ (requireActiveDaemonCycleAdmissions plainEnv privateLicenceInput {}).2
    (Prod.ext (by decide +kernel) rfl) (by decide)

/-- The daemon's issue enrichment rests on an answer for the key that the worker was started with. -/
theorem privateEnrichment_is_live :
    (∀ expected, authorizeAdmissionForVisibility privateEnrichment .priv expected = .ok () →
      ∃ key entitlement, AnsweredFor plainEnv privateLicenceInput key entitlement ∧ CoversPrivate entitlement) ∧
    (∀ other expected, authorizeAdmissionForVisibility other .unknown expected ≠ .ok ()) ∧
    (privateEnrichment.fingerprint = "public-free" → PublicOnly privateEnrichment) ∧
    (privateEnrichment.fingerprint = "public-free" ∨ ∃ key entitlement,
      AnsweredFor plainEnv privateLicenceInput key entitlement ∧ Within privateEnrichment entitlement) :=
  private_work_is_live privateEnrichment_returned

end NeonDiff.Admission
