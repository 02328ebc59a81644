import NeonDiff.Broker.Model

/-! # What a minted token may reach -/

namespace NeonDiff.Broker

open NeonDiff.Lib NeonDiff.Lib.JsText NeonDiff.License

/-! ## The permission clamp -/

def WithinAllowlist (permission : String × String) : Prop :=
  ∃ allowed rank allowedRank, (permission.1, allowed) ∈ minimalReviewPermissions ∧
    (permission.2, rank) ∈ permissionScopeRank ∧ (allowed, allowedRank) ∈ permissionScopeRank ∧ rank ≤ allowedRank

theorem minimalReviewPermissions_within : ∀ p ∈ minimalReviewPermissions, WithinAllowlist p := by
  intro p hp
  simp only [minimalReviewPermissions, List.mem_cons, List.not_mem_nil, or_false] at hp
  rcases hp with rfl | rfl | rfl | rfl | rfl
  all_goals first
    | exact ⟨"read", 1, 1, by decide, by decide, by decide, by decide⟩
    | exact ⟨"write", 2, 2, by decide, by decide, by decide, by decide⟩

theorem not_withinAllowlist_constructor (scope : String) : ¬ WithinAllowlist ("constructor", scope) := by
  rintro ⟨allowed, _, _, hmem, -⟩
  simp [minimalReviewPermissions] at hmem

theorem inherited_permissionKey {key : String} (hkey : isPermissionKey key = true)
    (h : lookup minimalReviewPermissions key = .inherited) : key = "constructor" ∨ key = "__proto__" := by
  unfold lookup at h
  split at h
  · cases h
  split at h
  · rename_i hmem
    rw [List.contains_eq_mem, decide_eq_true_eq] at hmem
    simp only [objectPrototypeMembers, List.mem_cons, List.not_mem_nil, or_false] at hmem
    rcases hmem with rfl | rfl | rfl | rfl | rfl | rfl | rfl | rfl | rfl | rfl | rfl | rfl <;>
      first
      | exact .inl rfl
      | exact .inr rfl
      | exact absurd hkey (by decide)
  · cases h

theorem own_within {key scope allowed : String} (hscope : (permissionScopeRank.any fun e => e.1 = scope) = true)
    (h : lookup minimalReviewPermissions key = .own allowed) (hrank : outranks scope (.own allowed) = false) :
    WithinAllowlist (key, scope) := by
  have hkey : (key, allowed) ∈ minimalReviewPermissions := by
    unfold lookup at h
    split at h
    · rename_i e he
      have hfst : e.1 = key := by simpa using List.find?_some he
      obtain rfl := Found.own.inj h
      exact hfst ▸ List.mem_of_find?_eq_some he
    · split at h <;> cases h
  obtain ⟨⟨s, rank⟩, hmem, hs⟩ := List.any_eq_true.mp hscope
  obtain rfl : s = scope := by simpa using hs
  have hallowed : allowed = "read" ∨ allowed = "write" := by
    simp only [minimalReviewPermissions, List.mem_cons, Prod.mk.injEq, List.not_mem_nil, or_false] at hkey
    tauto
  simp only [permissionScopeRank, List.mem_cons, Prod.mk.injEq, List.not_mem_nil, or_false] at hmem
  rcases hmem with ⟨rfl, rfl⟩ | ⟨rfl, rfl⟩ | ⟨rfl, rfl⟩ <;> rcases hallowed with rfl | rfl
  · exact ⟨_, 1, 1, hkey, by simp [permissionScopeRank], by decide, by decide⟩
  · exact ⟨_, 1, 2, hkey, by simp [permissionScopeRank], by decide, by decide⟩
  · exact absurd hrank (by decide)
  · exact ⟨_, 2, 2, hkey, by simp [permissionScopeRank], by decide, by decide⟩
  · exact absurd hrank (by decide)
  · exact absurd hrank (by decide)

theorem mem_assign {object : List (String × String)} {key value : String} {p : String × String}
    (h : p ∈ assign object key value) : p ∈ object ∨ (p = (key, value) ∧ key ≠ "__proto__") := by
  unfold assign at h
  split at h
  · exact .inl h
  rename_i hproto
  split at h
  · obtain ⟨e, he, rfl⟩ := List.mem_map.mp h
    split
    · exact .inr ⟨rfl, hproto⟩
    · exact .inl he
  · rcases List.mem_append.mp h with h | h
    · exact .inl h
    · exact .inr ⟨List.mem_singleton.mp h, hproto⟩

theorem mem_keys_assign {object : List (String × String)} {key value k : String} (hproto : k ≠ "__proto__") :
    k ∈ (assign object key value).map Prod.fst ↔ k ∈ object.map Prod.fst ∨ k = key := by
  unfold assign
  split
  · rename_i h
    simp only [List.mem_map, iff_self_or]
    exact fun hk => absurd (hk.trans h) hproto
  split
  · rename_i hany
    obtain ⟨e, he, hkey⟩ := List.any_eq_true.mp hany
    have hkeys : (object.map fun e => if e.1 = key then (key, value) else e).map Prod.fst = object.map Prod.fst := by
      rw [List.map_map]
      refine List.map_congr_left fun e _ => ?_
      by_cases h : e.1 = key <;> simp [h]
    rw [hkeys]
    simp only [iff_self_or]
    rintro rfl
    exact List.mem_map.mpr ⟨e, he, by simpa using hkey⟩
  · simp

theorem parsePermissionEntries_ok : ∀ {entries : List (String × Json)} {permissions out : List (String × String)},
    parsePermissionEntries entries permissions = .ok out →
      (∀ p ∈ out, p ∈ permissions ∨ WithinAllowlist p ∨ p.1 = "constructor") ∧
      ("constructor" ∈ out.map Prod.fst ↔
        "constructor" ∈ permissions.map Prod.fst ∨ "constructor" ∈ entries.map Prod.fst)
  | [], permissions, out, h => by
    obtain rfl := Except.ok.inj h
    exact ⟨fun p hp => .inl hp, by simp⟩
  | (key, value) :: rest, permissions, out, h => by
    cases value with
    | str scope =>
      simp only [parsePermissionEntries] at h
      split at h
      · cases h
      rename_i hform
      split at h
      · cases h
      rename_i hallowed
      simp only [Bool.or_eq_true, Bool.not_eq_true', not_or, Bool.not_eq_false, decide_eq_true_eq,
        Bool.not_eq_true] at hform hallowed
      obtain ⟨hmem, hkeys⟩ := parsePermissionEntries_ok h
      refine ⟨fun p hp => ?_, ?_⟩
      · rcases hmem p hp with hp | hp | hp
        · rcases mem_assign hp with hp | ⟨rfl, hproto⟩
          · exact .inl hp
          · cases hfound : lookup minimalReviewPermissions key with
            | own allowed => exact .inr (.inl (own_within hform.2 hfound (hfound ▸ hallowed.2)))
            | inherited => exact .inr (.inr ((inherited_permissionKey hform.1 hfound).resolve_right hproto))
            | undefined => exact absurd hfound hallowed.1
        · exact .inr (.inl hp)
        · exact .inr (.inr hp)
      · rw [hkeys, mem_keys_assign (by decide), List.map_cons, List.mem_cons, or_assoc]
    | _ => cases h

def permissionKeys : Option Json → List String
  | some (.obj entries) => entries.map Prod.fst
  | _ => []

theorem parsePermissions_ok {value : Option Json} {permissions : Option (List (String × String))}
    (h : parsePermissions value = .ok permissions) :
    (∀ p ∈ permissions.getD minimalReviewPermissions, WithinAllowlist p ∨ p.1 = "constructor") ∧
    ("constructor" ∈ (permissions.getD minimalReviewPermissions).map Prod.fst ↔ "constructor" ∈ permissionKeys value) := by
  have hminimal : "constructor" ∉ minimalReviewPermissions.map Prod.fst := by decide
  unfold parsePermissions at h
  split at h
  · obtain rfl := Except.ok.inj h
    exact ⟨fun p hp => .inl (minimalReviewPermissions_within p hp), by simpa [permissionKeys] using hminimal⟩
  · rename_i entries
    obtain ⟨out, hout, h⟩ := bind_eq_ok h
    obtain ⟨hmem, hkeys⟩ := parsePermissionEntries_ok hout
    simp only [List.map_nil, List.not_mem_nil, false_or] at hmem hkeys
    obtain rfl := Except.ok.inj h
    split
    · rename_i hnil
      subst hnil
      refine ⟨fun p hp => .inl (minimalReviewPermissions_within p hp), ?_⟩
      simpa [permissionKeys, ← hkeys] using hminimal
    · exact ⟨hmem, hkeys⟩
  · cases h

/-! ## The checks, one by one -/

section
variable (env : Surroundings) (dateParse : String → Option Int) (licenses : Option Licenses) (licenseNow : Int)

def withLicenses : Surroundings :=
  { env with
    resolveEntitlement := createLicenseStoreEntitlementResolver env.sha256 dateParse licenses licenseNow }

/-- The presented licence is active and unexpired, and its activation binds this very device to the repository. -/
def Covered (deviceId : String) (activationKey : Option String) (fullName : String) : Prop :=
  ∃ key store license activation, normalizeActivationKey activationKey = some key ∧ licenses = some store ∧
    store.getLicenseByKey env.sha256 key = some license ∧ license.status = .active ∧
    licenseExpired dateParse license licenseNow = false ∧ license.privateRepoAllowed = true ∧
    license.repoVisibilityScope ≠ .pub ∧
    store.getActivation license.licenseKeyHash deviceId = some activation ∧ activation.repo = some fullName

structure RepositoryAdmitted (store : BrokerStore) (deviceId : String) (request : TokenRequest)
    (available : List InstallationRepository) (fullName : String) : Prop where
  listed : ∃ found, mapGet (repositoriesByName available) fullName = some found ∧ found.visibility ≠ .unknown ∧
    (found.visibility ≠ .pub → Covered env dateParse licenses licenseNow deviceId request.activationKey fullName)
  authorized : fullName ∈ (env.meanwhile store).listBindingRepositories deviceId request.installationId

/-- The five checks: the binding, the installation, the selection with the authorized set, and the entitlement of
every repository that is not public. -/
structure Issuable (store : BrokerStore) (deviceId : String) (request : TokenRequest) : Prop where
  bound : (store.getBinding deviceId request.installationId).isSome = true
  installed : ∃ installation, env.client.getInstallation request.installationId = .ok (some installation) ∧
    installation.suspended = false
  nonempty : request.repositories ≠ []
  repositories : ∃ available, env.client.listInstallationRepositories request.installationId = .ok available ∧
    ∀ fullName ∈ request.repositories,
      RepositoryAdmitted env dateParse licenses licenseNow store deviceId request available fullName

variable {env dateParse licenses licenseNow}

/-- An entitlement that unlocks the repository. -/
def EntitlementSnapshot.Covers (entitlement : EntitlementSnapshot) (fullName : String) : Prop :=
  ∃ covered, entitlement = .active covered ∧ fullName ∈ covered

theorem licenseStoreEntitlement_covers {store : Licenses} {context : EntitlementResolutionContext} {fullName : String}
    (hprivate : fullName ∈ context.privateRepositories) :
    (licenseStoreEntitlement env.sha256 dateParse store licenseNow context).Covers fullName ↔
      Covered env dateParse (some store) licenseNow context.deviceId context.activationKey fullName := by
  unfold licenseStoreEntitlement
  constructor
  · rintro ⟨covered, hactive, hmem⟩
    split at hactive
    · cases hactive
    rename_i key hkey
    split at hactive
    · cases hactive
    rename_i license hlicense
    split at hactive
    · cases hactive
    rename_i hrevoked
    split at hactive
    · cases hactive
    rename_i hexpired
    split at hactive
    · cases hactive
    rename_i activation hactivation
    split at hactive
    · cases hactive
      cases hmem
    rename_i repo hrepo
    split at hactive
    · cases hactive
      cases hmem
    rename_i hscope
    obtain rfl := EntitlementSnapshot.active.inj hactive
    split at hmem
    · obtain rfl := List.mem_singleton.mp hmem
      simp only [Bool.or_eq_true, Bool.not_eq_true', decide_eq_true_eq, not_or, Bool.not_eq_false] at hscope
      have hexpired : licenseExpired dateParse license licenseNow = false := by simpa using hexpired
      have hstatus : license.status = .active := by
        cases hs : license.status with
        | active => rfl
        | revoked => exact absurd hs hrevoked
        | expired => simp [licenseExpired, hs] at hexpired
      exact ⟨key, store, license, activation, hkey, rfl, hlicense, hstatus, hexpired, hscope.1, hscope.2,
        hactivation, hrepo⟩
    · cases hmem
  · rintro ⟨key, store', license, activation, hkey, hstore, hlicense, hstatus, hexpired, hallowed, hscope,
      hactivation, hrepo⟩
    obtain rfl := Option.some.inj hstore
    refine ⟨[fullName], ?_, List.mem_singleton.mpr rfl⟩
    simp only [hkey, hlicense, hstatus, hexpired, hactivation, hrepo, hallowed, hscope]
    simp [hprivate]

theorem normalizeActivationKey_filter (value : Option String) :
    normalizeActivationKey (value.filter (· ≠ "")) = normalizeActivationKey value := by
  cases value with
  | none => rfl
  | some v =>
    by_cases hv : v = ""
    · subst hv
      rfl
    · simp [Option.filter, hv]

theorem covered_filter {deviceId : String} {activationKey : Option String} {fullName : String} :
    Covered env dateParse licenses licenseNow deviceId (activationKey.filter (· ≠ "")) fullName ↔
      Covered env dateParse licenses licenseNow deviceId activationKey fullName := by
  unfold Covered
  rw [normalizeActivationKey_filter]

theorem authorizeTokenIssuance_ok {requested : List RequestedRepository} {entitlement : EntitlementSnapshot}
    {names : List String} : authorizeTokenIssuance requested entitlement = .ok names ↔
      requested ≠ [] ∧ (∀ r ∈ requested, r.visibility ≠ .unknown) ∧
      (∀ r ∈ requested, r.visibility ≠ .pub → entitlement.Covers r.fullName) ∧
      names = requested.map (·.fullName) := by
  unfold authorizeTokenIssuance
  by_cases hnil : requested = []
  · simp [hnil]
  by_cases hunknown : ∃ r ∈ requested, r.visibility = .unknown
  · have hany : (requested.any fun r => r.visibility = .unknown) = true := by simpa using hunknown
    obtain ⟨r, hr, hvisibility⟩ := hunknown
    rw [if_neg hnil, if_pos hany]
    exact ⟨fun h => (nomatch h), fun h => absurd hvisibility (h.2.1 r hr)⟩
  have hany : (requested.any fun r => r.visibility = .unknown) = false := by simpa using hunknown
  have hvisible : ∀ r ∈ requested, r.visibility ≠ .unknown := fun r hr h => hunknown ⟨r, hr, h⟩
  simp only [hnil, if_false, hany, Bool.false_eq_true, ne_eq, not_false_eq_true, true_and]
  by_cases hpublic : (requested.filter fun r => r.visibility ≠ .pub) = []
  · have hall : ∀ r ∈ requested, r.visibility = .pub := by simpa [List.filter_eq_nil_iff] using hpublic
    rw [if_pos (by simpa using hpublic)]
    constructor
    · intro h
      exact ⟨hvisible, fun r hr hne => absurd (hall r hr) hne, (Except.ok.inj h).symm⟩
    · rintro ⟨-, -, rfl⟩
      rfl
  · rw [if_neg (by simpa using hpublic)]
    cases entitlement with
    | active covered =>
      have hall : ((requested.filter fun r => r.visibility ≠ .pub).all fun r => covered.contains r.fullName) = true ↔
          ∀ r ∈ requested, r.visibility ≠ .pub → r.fullName ∈ covered := by
        simp [List.all_eq_true, or_iff_not_imp_left]
      have hcovers : (∀ r ∈ requested, r.visibility ≠ .pub → (EntitlementSnapshot.active covered).Covers r.fullName) ↔
          ∀ r ∈ requested, r.visibility ≠ .pub → r.fullName ∈ covered := by
        refine forall₃_congr fun r _ _ => ⟨?_, fun h => ⟨covered, rfl, h⟩⟩
        rintro ⟨c, hc, hmem⟩
        exact EntitlementSnapshot.active.inj hc ▸ hmem
      simp only [ne_eq] at hall hcovers
      rw [hcovers, ← hall]
      dsimp only
      split
      · rename_i h
        exact ⟨fun heq => ⟨hvisible, h, (Except.ok.inj heq).symm⟩, fun heq => heq.2.2 ▸ rfl⟩
      · rename_i h
        exact ⟨fun heq => (nomatch heq), fun heq => absurd heq.2.1 h⟩
    | _ =>
      constructor
      · intro h
        cases h
      · rintro ⟨-, hcovers, -⟩
        exfalso
        obtain ⟨r, hr⟩ := List.exists_mem_of_ne_nil _ hpublic
        have hr := List.mem_filter.mp hr
        obtain ⟨_, hc, -⟩ := hcovers r hr.1 (by simpa using hr.2)
        cases hc

/-! ## What is minted -/

def mintCallOf (request : TokenRequest) (available : List InstallationRepository) : MintCall where
  installationId := request.installationId
  repositoryIds := request.repositories.filterMap fun fullName =>
    (mapGet (repositoriesByName available) fullName).map (·.id)
  permissions := request.permissions.getD minimalReviewPermissions

theorem resolveRequestedRepository_ok {available : List InstallationRepository} {fullName : String}
    {r : RequestedRepository} : resolveRequestedRepository available fullName = .ok r ↔
      ∃ found, mapGet (repositoriesByName available) fullName = some found ∧
        r = ⟨fullName, found.id, found.visibility⟩ := by
  unfold resolveRequestedRepository
  split
  · rename_i found hfound
    simp only [hfound, Except.ok.injEq, Option.some.injEq, exists_eq_left']
    exact eq_comm
  · rename_i hnone
    simp [hnone]

theorem fullName_of_resolved {available : List InstallationRepository} {names : List String}
    {requested : List RequestedRepository}
    (h : List.Forall₂ (fun n r => resolveRequestedRepository available n = .ok r) names requested) :
    requested.map (·.fullName) = names := by
  induction h with
  | nil => rfl
  | cons hr _ ih =>
    obtain ⟨found, -, rfl⟩ := resolveRequestedRepository_ok.mp hr
    rw [List.map_cons, ih]

theorem mem_resolved {available : List InstallationRepository} {names : List String}
    {requested : List RequestedRepository}
    (h : List.Forall₂ (fun n r => resolveRequestedRepository available n = .ok r) names requested) :
    ∀ r ∈ requested, ∃ found, mapGet (repositoriesByName available) r.fullName = some found ∧
      r.id = found.id ∧ r.visibility = found.visibility := by
  induction h with
  | nil => simp
  | cons hr _ ih =>
    obtain ⟨found, hfound, rfl⟩ := resolveRequestedRepository_ok.mp hr
    intro r hmem
    rcases List.mem_cons.mp hmem with rfl | hmem
    · exact ⟨found, hfound, rfl, rfl⟩
    · exact ih r hmem

theorem repositoryIds_eq {available : List InstallationRepository} {names : List String}
    {requested : List RequestedRepository}
    (h : List.Forall₂ (fun n r => resolveRequestedRepository available n = .ok r) names requested) :
    names.filterMap (mapGet (requested.map fun r => (r.fullName, r.id))) =
      names.filterMap fun n => (mapGet (repositoriesByName available) n).map (·.id) := by
  refine List.filterMap_congr fun n hn => ?_
  rw [← fullName_of_resolved h] at hn
  obtain ⟨r, hr, rfl⟩ := List.mem_map.mp hn
  have hsome : (mapGet (requested.map fun r => (r.fullName, r.id)) r.fullName).isSome = true :=
    mapGet_isSome ⟨r.id, List.mem_map.mpr ⟨r, hr, rfl⟩⟩
  obtain ⟨id, hid⟩ := Option.isSome_iff_exists.mp hsome
  obtain ⟨r', hr', heq⟩ := List.mem_map.mp (mem_of_mapGet hid)
  obtain ⟨hname, rfl⟩ := Prod.mk.inj heq
  obtain ⟨found, hfound, hfid, -⟩ := mem_resolved h r' hr'
  rw [hid, ← hname, hfound, Option.map_some, hfid]

theorem entitlement_covers {deviceId : String} {accountLogin : Option String} {request : TokenRequest}
    {requested : List RequestedRepository} (hvisible : ∀ r ∈ requested, r.visibility ≠ .unknown)
    {r : RequestedRepository} (hr : r ∈ requested) (hprivate : r.visibility ≠ .pub) :
    (resolveEntitlementForRequest (withLicenses env dateParse licenses licenseNow) deviceId request.installationId
        accountLogin requested request.activationKey).Covers r.fullName ↔
      Covered env dateParse licenses licenseNow deviceId request.activationKey r.fullName := by
  have hmem : r.fullName ∈ (requested.filter fun r => r.visibility ≠ .pub).map (·.fullName) :=
    List.mem_map_of_mem (List.mem_filter.mpr ⟨hr, by simpa using hprivate⟩)
  have hunknown : (requested.any fun r => r.visibility = .unknown) = false := by simpa using hvisible
  unfold resolveEntitlementForRequest
  simp only [hunknown, Bool.false_eq_true, if_false]
  rw [if_neg (List.ne_nil_of_mem hmem)]
  simp only [withLicenses, createLicenseStoreEntitlementResolver]
  cases licenses with
  | none =>
    constructor
    · rintro ⟨covered, hc, -⟩
      cases hc
    · rintro ⟨_, store, _, _, -, hstore, -⟩
      cases hstore
  | some store =>
    rw [Option.map_some, Option.getD_some, licenseStoreEntitlement_covers hmem]
    exact covered_filter

theorem resolveInstallation_ok {installationId : Int} {installation : InstallationSummary} :
    resolveInstallation env installationId = .ok installation ↔
      env.client.getInstallation installationId = .ok (some installation) := by
  unfold resolveInstallation clientCall
  rcases env.client.getInstallation installationId with _ | _ | found
  · exact ⟨fun h => (nomatch h), fun h => (nomatch h)⟩
  · exact ⟨fun h => (nomatch h), fun h => (nomatch h)⟩
  · exact ⟨fun h => Except.ok.inj h ▸ rfl, fun h => Option.some.inj (Except.ok.inj h) ▸ rfl⟩

theorem resolveRequestedRepositories_ok {installationId : Int} {names : List String}
    {requested : List RequestedRepository} :
    resolveRequestedRepositories env installationId names = .ok requested ↔
      ∃ available, env.client.listInstallationRepositories installationId = .ok available ∧
        List.Forall₂ (fun n r => resolveRequestedRepository available n = .ok r) names requested := by
  unfold resolveRequestedRepositories clientCall
  rcases env.client.listInstallationRepositories installationId with _ | available
  · exact ⟨fun h => (nomatch h), fun ⟨_, h, _⟩ => (nomatch h)⟩
  · refine ⟨fun h => ⟨available, rfl, mapM_eq_ok.mp h⟩, ?_⟩
    rintro ⟨_, hlist, h⟩
    obtain rfl := Except.ok.inj hlist
    exact mapM_eq_ok.mpr h

/-- The mint is prepared exactly when the five checks pass, and for the requested repositories only. -/
theorem prepareMint_ok {store : BrokerStore} {deviceId : String} {request : TokenRequest} {call : MintCall}
    {names : List String} :
    prepareMint (withLicenses env dateParse licenses licenseNow) store deviceId request = .ok (call, names) ↔
      Issuable env dateParse licenses licenseNow store deviceId request ∧ names = request.repositories ∧
      ∃ available, env.client.listInstallationRepositories request.installationId = .ok available ∧
        call = mintCallOf request available := by
  constructor
  · intro h
    unfold prepareMint at h
    split at h
    · rename_i hbound
      obtain ⟨installation, hinstallation, h⟩ := bind_eq_ok h
      obtain ⟨_, hsuspended, h⟩ := bind_eq_ok h
      obtain ⟨requested, hrequested, h⟩ := bind_eq_ok h
      obtain ⟨_, hauthorized, h⟩ := bind_eq_ok h
      obtain ⟨names', hnames, h⟩ := bind_eq_ok h
      obtain ⟨rfl, rfl⟩ := Prod.mk.inj (Except.ok.inj h)
      obtain ⟨available, hlisted, hresolved⟩ := resolveRequestedRepositories_ok.mp hrequested
      obtain ⟨hnil, hvisible, hcovers, rfl⟩ := authorizeTokenIssuance_ok.mp (mapError_eq_ok.mp hnames)
      have hnamed := fullName_of_resolved hresolved
      refine ⟨⟨?_, ⟨installation, resolveInstallation_ok.mp hinstallation, by simpa using hsuspended⟩, ?_,
        available, hlisted, fun n hn => ?_⟩, hnamed, available, hlisted, ?_⟩
      · rw [hbound]
        rfl
      · rw [← hnamed]
        simpa using hnil
      · rw [← hnamed] at hn
        obtain ⟨r, hr, rfl⟩ := List.mem_map.mp hn
        obtain ⟨found, hfound, -, hvisibility⟩ := mem_resolved hresolved r hr
        refine ⟨⟨found, hfound, hvisibility ▸ hvisible r hr, fun hprivate => ?_⟩, ?_⟩
        · rw [← hvisibility] at hprivate
          exact (entitlement_covers hvisible hr hprivate).mp (hcovers r hr hprivate)
        · have := List.all_eq_true.mp (require_eq_ok.mp hauthorized) r hr
          exact List.contains_iff_mem.mp this
      · rw [hnamed, repositoryIds_eq hresolved]
        rfl
    · cases h
  · rintro ⟨hissuable, rfl, available, hlisted, rfl⟩
    obtain ⟨binding, hbinding⟩ := Option.isSome_iff_exists.mp hissuable.bound
    obtain ⟨installation, hinstallation, hsuspended⟩ := hissuable.installed
    obtain ⟨available', hlisted', hadmitted⟩ := hissuable.repositories
    obtain rfl := Except.ok.inj (hlisted.symm.trans hlisted')
    obtain ⟨requested, hresolved⟩ := exists_mapM_eq_ok (resolveRequestedRepository available)
      request.repositories fun n hn => by
        obtain ⟨found, hfound, -⟩ := (hadmitted n hn).listed
        exact ⟨_, resolveRequestedRepository_ok.mpr ⟨found, hfound, rfl⟩⟩
    have hnamed := fullName_of_resolved hresolved
    have hmem : ∀ r ∈ requested, r.fullName ∈ request.repositories := fun r hr => hnamed ▸ List.mem_map_of_mem hr
    have hvisible : ∀ r ∈ requested, r.visibility ≠ .unknown := by
      intro r hr
      obtain ⟨found, hfound, -, hvisibility⟩ := mem_resolved hresolved r hr
      obtain ⟨found', hfound', hknown, -⟩ := (hadmitted _ (hmem r hr)).listed
      obtain rfl := Option.some.inj (hfound.symm.trans hfound')
      exact hvisibility ▸ hknown
    have hauthorized : (requested.all fun r =>
        (((withLicenses env dateParse licenses licenseNow).meanwhile store).listBindingRepositories deviceId
          request.installationId).contains r.fullName) = true :=
      List.all_eq_true.mpr fun r hr => List.contains_iff_mem.mpr (hadmitted _ (hmem r hr)).authorized
    have hcovers : ∀ r ∈ requested, r.visibility ≠ .pub →
        (resolveEntitlementForRequest (withLicenses env dateParse licenses licenseNow) deviceId
          request.installationId installation.accountLogin requested request.activationKey).Covers r.fullName := by
      intro r hr hprivate
      obtain ⟨found, hfound, -, hvisibility⟩ := mem_resolved hresolved r hr
      obtain ⟨found', hfound', -, hcovered⟩ := (hadmitted _ (hmem r hr)).listed
      obtain rfl := Option.some.inj (hfound.symm.trans hfound')
      exact (entitlement_covers hvisible hr hprivate).mpr (hcovered (hvisibility ▸ hprivate))
    have hne : requested ≠ [] := by
      rintro rfl
      exact hissuable.nonempty hnamed.symm
    have hinstalled : resolveInstallation (withLicenses env dateParse licenses licenseNow) request.installationId =
        .ok installation := resolveInstallation_ok.mpr hinstallation
    have hrequested : resolveRequestedRepositories (withLicenses env dateParse licenses licenseNow)
        request.installationId request.repositories = .ok requested :=
      resolveRequestedRepositories_ok.mpr ⟨available, hlisted, hresolved⟩
    unfold prepareMint
    rw [hbinding, hinstalled]
    simp only [ok_bind, hsuspended, hrequested]
    rw [show require (!false) _ = Except.ok () from rfl, ok_bind,
      show require _ _ = Except.ok () from require_eq_ok.mpr hauthorized, ok_bind,
      mapError_eq_ok.mpr (authorizeTokenIssuance_ok.mpr ⟨hne, hvisible, hcovers, rfl⟩), ok_bind, hnamed,
      repositoryIds_eq hresolved]
    rfl

/-! ## The whole request -/

theorem parseTokenRequest_ok {numberOf : String → Option Int} {body : Json} {request : TokenRequest}
    (h : parseTokenRequest numberOf body = .ok request) :
    ∃ fields, body = .obj fields ∧ parsePermissions (Json.field fields "permissions") = .ok request.permissions := by
  obtain ⟨fields, hfields, h⟩ := bind_eq_ok h
  obtain ⟨_, _, h⟩ := bind_eq_ok h
  obtain ⟨_, _, h⟩ := bind_eq_ok h
  obtain ⟨permissions, hpermissions, h⟩ := bind_eq_ok h
  obtain ⟨_, _, h⟩ := bind_eq_ok h
  obtain rfl := Except.ok.inj h
  refine ⟨fields, ?_, hpermissions⟩
  unfold asObject at hfields
  split at hfields
  · exact congrArg Json.obj (Except.ok.inj hfields)
  · cases hfields

variable (env dateParse licenses licenseNow) (authorization : Option String) (body : Json) (broker : BrokerState)

def WithinRate (deviceId : String) (request : TokenRequest) : Prop :=
  (broker.tokenRateLimiter.allow (env.sha256 ("token:" ++ deviceId)) env.now).1 = true ∧
  ((broker.tokenRateLimiter.allow (env.sha256 ("token:" ++ deviceId)) env.now).2.allow
    (env.sha256 ("token-inst:" ++ toString request.installationId)) env.now).1 = true

/-- The request of a registered device that parses, is within the rate limits and passes every check. -/
structure Admitted (deviceId : String) (store : BrokerStore) (request : TokenRequest) : Prop where
  device : authenticateDevice env.jose broker.store authorization env.now = .ok (deviceId, store)
  parsed : parseTokenRequest env.numberOf body = .ok request
  rate : WithinRate env broker deviceId request
  issuable : Issuable env dateParse licenses licenseNow store deviceId request

/-- A mint call that reaches nothing else: the ids are those of the requested repositories, and the permissions stay
within the minimal review allowlist. -/
structure CallConfined (deviceId : String) (store : BrokerStore) (request : TokenRequest) (call : MintCall) : Prop where
  admitted : Admitted env dateParse licenses licenseNow authorization body broker deviceId store request
  installation : call.installationId = request.installationId
  ids : ∃ available, env.client.listInstallationRepositories request.installationId = .ok available ∧
    call.repositoryIds.map some =
      request.repositories.map fun fullName => (mapGet (repositoriesByName available) fullName).map (·.id)
  permissions : ∀ p ∈ call.permissions, WithinAllowlist p

def mintsAfter : List MintCall :=
  (issueToken (withLicenses env dateParse licenses licenseNow) authorization body broker).2.mints

/-- Confinement of one request: what it mints is confined, and a denied request mints nothing. -/
structure TokenConfined : Prop where
  minted : ∀ call ∈ (mintsAfter env dateParse licenses licenseNow authorization body broker).drop broker.mints.length,
    ∃ deviceId store request,
      CallConfined env dateParse licenses licenseNow authorization body broker deviceId store request call
  denied : (¬ ∃ deviceId store request,
      Admitted env dateParse licenses licenseNow authorization body broker deviceId store request) →
    mintsAfter env dateParse licenses licenseNow authorization body broker = broker.mints

variable {env dateParse licenses licenseNow authorization body broker}

theorem decideAndMint_refused {deviceId : String} {request : TokenRequest} {e : BrokerError}
    (h : prepareMint env broker.store deviceId request = .error e) :
    (decideAndMint env broker deviceId request).2.mints = broker.mints := by
  simp only [decideAndMint, h]

theorem decideAndMint_minted {deviceId : String} {request : TokenRequest} {call : MintCall} {names : List String}
    (h : prepareMint env broker.store deviceId request = .ok (call, names)) :
    (decideAndMint env broker deviceId request).2.mints = broker.mints ++ [call] := by
  simp only [decideAndMint, h]
  split
  · rfl
  · rfl

theorem mintsAfter_cases :
    (mintsAfter env dateParse licenses licenseNow authorization body broker = broker.mints ∧
      ¬ ∃ deviceId store request,
        Admitted env dateParse licenses licenseNow authorization body broker deviceId store request) ∨
    ∃ deviceId store request available,
      Admitted env dateParse licenses licenseNow authorization body broker deviceId store request ∧
      env.client.listInstallationRepositories request.installationId = .ok available ∧
      mintsAfter env dateParse licenses licenseNow authorization body broker =
        broker.mints ++ [mintCallOf request available] := by
  unfold mintsAfter issueToken
  cases hdevice : authenticateDevice (withLicenses env dateParse licenses licenseNow).jose broker.store authorization
    (withLicenses env dateParse licenses licenseNow).now with
  | error e =>
    refine .inl ⟨rfl, ?_⟩
    rintro ⟨_, _, _, h⟩
    exact nomatch hdevice.symm.trans h.device
  | ok authenticated =>
  obtain ⟨deviceId, store⟩ := authenticated
  dsimp only
  cases hparsed : parseTokenRequest (withLicenses env dateParse licenses licenseNow).numberOf body with
  | error e =>
    refine .inl ⟨rfl, ?_⟩
    rintro ⟨_, _, _, h⟩
    exact nomatch hparsed.symm.trans h.parsed
  | ok request =>
  have hunique : ∀ {d st r}, Admitted env dateParse licenses licenseNow authorization body broker d st r →
      WithinRate env broker deviceId request ∧ Issuable env dateParse licenses licenseNow store deviceId request := by
    intro d st r h
    obtain ⟨rfl, rfl⟩ := Prod.mk.inj (Except.ok.inj (h.device.symm.trans hdevice))
    obtain rfl := Except.ok.inj (h.parsed.symm.trans hparsed)
    exact ⟨h.rate, h.issuable⟩
  dsimp only
  split
  · rename_i hrate
    refine .inl ⟨rfl, ?_⟩
    rintro ⟨_, _, _, h⟩
    have := (hunique h).1.1
    simp only [Bool.not_eq_true'] at hrate
    exact nomatch this.symm.trans hrate
  rename_i hdeviceRate
  split
  · rename_i hrate
    refine .inl ⟨rfl, ?_⟩
    rintro ⟨_, _, _, h⟩
    have := (hunique h).1.2
    simp only [Bool.not_eq_true'] at hrate
    exact nomatch this.symm.trans hrate
  rename_i hinstallationRate
  have hrate : WithinRate env broker deviceId request := by
    simp only [Bool.not_eq_true', Bool.not_eq_false] at hdeviceRate hinstallationRate
    exact ⟨hdeviceRate, hinstallationRate⟩
  cases hprepare : prepareMint (withLicenses env dateParse licenses licenseNow) store deviceId request with
  | error e =>
    refine .inl ⟨decideAndMint_refused hprepare, ?_⟩
    rintro ⟨_, _, _, h⟩
    obtain ⟨available, hlisted, -⟩ := (hunique h).2.repositories
    exact nomatch hprepare.symm.trans (prepareMint_ok.mpr ⟨(hunique h).2, rfl, available, hlisted, rfl⟩)
  | ok prepared =>
    obtain ⟨call, names⟩ := prepared
    obtain ⟨hissuable, -, available, hlisted, rfl⟩ := prepareMint_ok.mp hprepare
    exact .inr ⟨deviceId, store, request, available, ⟨hdevice, hparsed, hrate, hissuable⟩, hlisted,
      decideAndMint_minted hprepare⟩

def requestPermissionKeys : Json → List String
  | .obj fields => permissionKeys (Json.field fields "permissions")
  | _ => []

theorem mintCallOf_ids {deviceId : String} {store : BrokerStore} {request : TokenRequest}
    {available : List InstallationRepository} (hissuable : Issuable env dateParse licenses licenseNow store deviceId request)
    (hlisted : env.client.listInstallationRepositories request.installationId = .ok available) :
    (mintCallOf request available).repositoryIds.map some =
      request.repositories.map fun fullName => (mapGet (repositoriesByName available) fullName).map (·.id) := by
  obtain ⟨available', hlisted', hadmitted⟩ := hissuable.repositories
  obtain rfl := Except.ok.inj (hlisted.symm.trans hlisted')
  have hsome : ∀ n ∈ request.repositories, ∃ found, mapGet (repositoriesByName available) n = some found := by
    intro n hn
    obtain ⟨found, hfound, -⟩ := (hadmitted n hn).listed
    exact ⟨found, hfound⟩
  simp only [mintCallOf]
  generalize request.repositories = names at hsome
  induction names with
  | nil => rfl
  | cons n names ih =>
    obtain ⟨found, hfound⟩ := hsome n List.mem_cons_self
    rw [List.filterMap_cons, hfound, List.map_cons, hfound]
    simp only [Option.map_some, List.map_cons]
    rw [ih fun n hn => hsome n (List.mem_cons_of_mem _ hn)]

/-- Issuing confines the token except where an admitted request asks for a permission called `constructor`, which
the allowlist literal inherits. -/
theorem tokenConfined_iff : TokenConfined env dateParse licenses licenseNow authorization body broker ↔
    ¬ ((∃ deviceId store request,
        Admitted env dateParse licenses licenseNow authorization body broker deviceId store request) ∧
      "constructor" ∈ requestPermissionKeys body) := by
  rcases @mintsAfter_cases env dateParse licenses licenseNow authorization body broker with
    ⟨hnone, hnot⟩ | ⟨deviceId, store, request, available, hadmitted, hlisted, hmints⟩
  · refine ⟨fun _ h => hnot h.1, fun _ => ⟨fun call hcall => ?_, fun _ => hnone⟩⟩
    rw [hnone, List.drop_length] at hcall
    cases hcall
  obtain ⟨fields, rfl, hpermissions⟩ := parseTokenRequest_ok hadmitted.parsed
  obtain ⟨hwithin, hconstructor⟩ := parsePermissions_ok hpermissions
  constructor
  · rintro hconfined ⟨-, hkey⟩
    obtain ⟨⟨_, scope⟩, hmem, rfl⟩ := List.mem_map.mp (hconstructor.mpr hkey)
    obtain ⟨_, _, _, hcall⟩ := hconfined.minted (mintCallOf request available) (by rw [hmints]; simp)
    exact not_withinAllowlist_constructor scope (hcall.permissions _ hmem)
  · intro hnot
    refine ⟨fun call hcall => ?_, fun hdenied => absurd ⟨_, _, _, hadmitted⟩ hdenied⟩
    rw [hmints, List.drop_left, List.mem_singleton] at hcall
    subst hcall
    refine ⟨deviceId, store, request, hadmitted, rfl,
      ⟨available, hlisted, mintCallOf_ids hadmitted.issuable hlisted⟩, fun p hp => ?_⟩
    refine (hwithin p hp).resolve_right fun hname => hnot ⟨⟨_, _, _, hadmitted⟩, hconstructor.mp ?_⟩
    exact hname ▸ List.mem_map_of_mem hp

end

/-! ## A permission called `constructor` -/

/-- A registered device, bound to an installation of one public repository. -/
def demoSurroundings : Surroundings where
  sha256 := id
  numberOf := fun _ => none
  jose := ⟨fun _ => some "device", fun _ => true, fun _ _ _ _ => true⟩
  now := 0
  client := {
    getInstallation := fun _ => .ok (some ⟨some "acme", false⟩)
    listInstallationRepositories := fun _ => .ok [⟨7, "acme/app", .pub⟩]
    createInstallationAccessToken := fun _ => .ok ⟨"token", "later"⟩ }
  resolveEntitlement := fun _ => none
  meanwhile := id

def demoBroker : BrokerState where
  store := {
    devices := ⟨[⟨"device", "jwk", 0⟩], by decide⟩
    bindings := ⟨[⟨"device", 1, some "acme"⟩], by decide⟩
    bindingRepositories := [⟨"device", 1, "acme/app"⟩] }

def constructorBody : Json :=
  .obj [("installationId", .int 1), ("repositories", .arr [.str "acme/app"]),
    ("permissions", .obj [("constructor", .str "admin")])]

/-- The broker asks GitHub for `constructor: admin`, which is no permission of the minimal review set. -/
theorem token_unconfined_constructor :
    ¬ TokenConfined demoSurroundings (fun _ => none) none 0 (some "Bearer jwt") constructorBody demoBroker := by
  intro h
  have hminted : (⟨1, [7], [("constructor", "admin")]⟩ : MintCall) ∈
      (mintsAfter demoSurroundings (fun _ => none) none 0 (some "Bearer jwt") constructorBody demoBroker).drop 0 := by
    decide
  obtain ⟨_, _, _, hcall⟩ := h.minted _ hminted
  exact not_withinAllowlist_constructor "admin" (hcall.permissions _ (List.mem_singleton.mpr rfl))

end NeonDiff.Broker
