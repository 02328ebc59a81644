import NeonDiff.Admission.Cache
import NeonDiff.Lib.Transition

/-! # Offline grace

The cache stands for an answer of the API about the stored key, as long as every denial of that key clears it.
-/

namespace NeonDiff.Admission

open NeonDiff.Lib NeonDiff.Lib.JsText

/-! ## Runs of the client -/

inductive Call where
  | activate (input : ActivateInput)
  | status (input : StatusInput)
  | deactivate (input : DeactivateInput)
  | gate (input : GateInput)

def Call.config : Call → LicenseConfig
  | activate input => input.config
  | status input => input.config
  | deactivate input => input.config
  | gate input => input.config

/-- The world after a call, whether it answers or throws. -/
def Call.next (env : Env) (w : World) : Call → World
  | activate input => (activateLicense env input w).2
  | status input => (getLicenseStatus env input w).2
  | deactivate input => (deactivateLicense env input w).2
  | gate input => (evaluateLicenseReviewGate env input w).2

def step (env : Env) (w : World) (call : Call) : Option World := some (call.next env w)

/-! ## What stands behind an allowed review -/

def sinceDenial (licenseKey : String) (answers : List ApiAnswer) : List ApiAnswer :=
  answers.takeWhile fun answer =>
    !(answer.licenseKey = licenseKey && shouldDeleteLicenseCacheForStatus answer.result.status)

/-- The stored key has had an active answer for private review, during the call or within the grace before it,
that is not expired yet and that no denial has followed. -/
def Vouched (env : Env) (input : GateInput) (w w' : World) : Prop :=
  ∃ licenseKey answer entitlement, readFileLicenseKey input.config w' = some licenseKey ∧
    answer ∈ sinceDenial licenseKey w'.answers ∧ answer.licenseKey = licenseKey ∧
    answer.result.ok = true ∧ answer.result.entitlement = some entitlement ∧ entitlement.status = .active ∧
    entitlementCoversRepoVisibility entitlement .priv = true ∧
    entitlementCurrentlyUsable env entitlement input.now = true ∧
    (w'.answers = answer :: w.answers ∨
      input.now.getTime ≤ answer.askedAt.getTime + input.config.offlineGraceMs)

def stamped (env : Env) (licenseKey : String) (entitlement : LicenseEntitlement) : LicenseEntitlement :=
  { entitlement with licenseFingerprint := some (fingerprintLicenseKey env licenseKey) }

structure Holds (env : Env) (config : LicenseConfig) (w : World) (licenseKey : String) (answer : ApiAnswer)
    (entitlement : LicenseEntitlement) : Prop where
  cached : w.cacheFile = some (stamped env licenseKey entitlement).json
  stored : readFileLicenseKey config w = some licenseKey
  since : answer ∈ sinceDenial licenseKey w.answers
  key : answer.licenseKey = licenseKey
  ok : answer.result.ok = true
  answered : answer.result.entitlement = some entitlement
  checkedAt : entitlement.checkedAt = answer.askedAt.toISOString
  cacheable : Cacheable (stamped env licenseKey entitlement)

def Honest (env : Env) (config : LicenseConfig) (w : World) : Prop :=
  w.cacheFile = none ∨ ∃ licenseKey answer entitlement, Holds env config w licenseKey answer entitlement

variable {env : Env} {config : LicenseConfig} {w w' : World} {licenseKey : String}

theorem mem_sinceDenial_cons {answers : List ApiAnswer} {answer new : ApiAnswer}
    (h : answer ∈ sinceDenial licenseKey answers)
    (hnew : new.licenseKey = licenseKey → shouldDeleteLicenseCacheForStatus new.result.status = false) :
    answer ∈ sinceDenial licenseKey (new :: answers) := by
  unfold sinceDenial at h ⊢
  rw [List.takeWhile_cons, if_pos]
  · exact List.mem_cons_of_mem new h
  · by_cases hkey : new.licenseKey = licenseKey
    · rw [hnew hkey, Bool.and_false]
      rfl
    · rw [decide_eq_false hkey]
      rfl

theorem mem_sinceDenial_self {answers : List ApiAnswer} {new : ApiAnswer} (h : new.result.status = .active) :
    new ∈ sinceDenial licenseKey (new :: answers) := by
  unfold sinceDenial
  rw [List.takeWhile_cons, if_pos]
  · exact List.mem_cons_self
  · rw [h, show shouldDeleteLicenseCacheForStatus .active = false from rfl, Bool.and_false]
    rfl

theorem Honest.ask (h : Honest env config w) {fetchImpl : Fetch} {now : Date} {call : ApiCall} {asked : LicenseConfig}
    (hcalm : w.cacheFile.isSome = true → readFileLicenseKey config w = some call.licenseKey →
      shouldDeleteLicenseCacheForStatus (callLicenseApi env asked fetchImpl now call).status = false) :
    Honest env config (askLicenseApi env asked fetchImpl now call w).2 := by
  obtain hnone | ⟨licenseKey, answer, entitlement, hcached, hstored, hsince, hkey, hok, hanswered, hcheckedAt, hcacheable⟩ := h
  · exact Or.inl hnone
  · refine Or.inr ⟨licenseKey, answer, entitlement, hcached, hstored, ?_, hkey, hok, hanswered, hcheckedAt, hcacheable⟩
    refine mem_sinceDenial_cons hsince fun hsame => ?_
    have hsame : call.licenseKey = licenseKey := hsame
    exact hcalm (by rw [hcached]; rfl) (by rw [hsame]; exact hstored)

theorem Honest.of_answer {fetchImpl : Fetch} {now : Date} {call : ApiCall} {asked : LicenseConfig}
    {entitlement : LicenseEntitlement}
    (hok : (callLicenseApi env asked fetchImpl now call).ok = true)
    (hanswered : (callLicenseApi env asked fetchImpl now call).entitlement = some entitlement)
    (hcached : w'.cacheFile = some (stamped env call.licenseKey entitlement).json)
    (hstored : readFileLicenseKey config w' = some call.licenseKey)
    (hanswers : w'.answers = (askLicenseApi env asked fetchImpl now call w).2.answers) : Honest env config w' := by
  obtain ⟨e, ⟨⟨url, statusCode, body, -, -, -, -, hnormal⟩, hactive⟩, he, hstatus, -⟩ := callLicenseApi_ok hok
  rw [hanswered] at he
  obtain rfl := Option.some.inj he
  refine Or.inr ⟨call.licenseKey, ⟨call.licenseKey, now, callLicenseApi env asked fetchImpl now call⟩, entitlement,
    hcached, hstored, ?_, rfl, hok, hanswered, ?_, cacheable_of_normalize hnormal hactive _⟩
  · rw [hanswers]
    exact mem_sinceDenial_self hstatus
  · unfold normalizeEntitlement at hnormal
    dsimp only at hnormal
    split at hnormal
    · split at hnormal
      · cases hnormal
      · rw [← Option.some.inj hnormal]
    · cases hnormal

/-! ## Each call keeps the cache honest -/

/-- No call loses a denial of the stored key: an activation or a deactivation of a cached key is not denied,
and a status call for another key than the stored one gets no active answer. -/
def Calm (env : Env) (w : World) : Call → Prop
  | .activate input =>
    w.cacheFile.isSome = true → activationRefusal input = none →
    readFileLicenseKey input.config w = some (String.ofList (trim input.licenseKey.toList)) →
    shouldDeleteLicenseCacheForStatus
      (callLicenseApi env input.config input.fetchImpl input.askedAt
        ⟨"/v1/license/activate", String.ofList (trim input.licenseKey.toList), input.repo, input.machineId⟩).status = false
  | .status input =>
    ∀ licenseKey, statusLicenseKey input w = .ok (some licenseKey) →
      (callLicenseApi env input.config input.fetchImpl input.now (input.call licenseKey)).ok = true →
      readFileLicenseKey input.config w = some licenseKey
  | .deactivate input =>
    ∀ licenseKey, w.cacheFile.isSome = true → input.notifyApi = true →
      readFileLicenseKey input.config w = some licenseKey →
      shouldDeleteLicenseCacheForStatus
        (callLicenseApi env input.config input.fetchImpl input.askedAt
          { path := "/v1/license/deactivate", licenseKey }).status = false
  | .gate _ => True

theorem Holds.read {answer : ApiAnswer} {entitlement : LicenseEntitlement}
    (h : Holds env config w licenseKey answer entitlement) :
    readLicenseCache env config w = some (stamped env licenseKey entitlement) :=
  readLicenseCache_write h.cacheable h.cached

theorem Holds.matches {answer : ApiAnswer} {entitlement : LicenseEntitlement}
    (h : Holds env config w licenseKey answer entitlement) :
    cachedEntitlementMatchesLicenseKey env (readLicenseCache env config w) licenseKey = true := by
  rw [h.read]
  exact decide_eq_true rfl

theorem settleStatus_honest {input : StatusInput} {outcome : Except String LicenseStatusResult}
    (hhonest : Honest env input.config w)
    (hstored : (callLicenseApi env input.config input.fetchImpl input.now (input.call licenseKey)).ok = true →
      readFileLicenseKey input.config w = some licenseKey)
    (h : (outcome, w') = settleStatus env input (readLicenseCache env input.config w) licenseKey
        (callLicenseApi env input.config input.fetchImpl input.now (input.call licenseKey))
        (askLicenseApi env input.config input.fetchImpl input.now (input.call licenseKey) w).2) :
    Honest env input.config w' := by
  obtain ⟨answered, hok, hanswered, ⟨_, _, rfl⟩ | ⟨e, rfl, _, rfl⟩⟩ | ⟨hno, ⟨_, _, _, _, hoffline, _, _, _, _, rfl⟩ | ⟨-, rfl | ⟨rfl, hkept⟩⟩⟩ :=
    settleStatus_cases h
  · -- the answer is active, but writing the cache throws
    refine hhonest.ask fun _ _ => ?_
    obtain ⟨_, -, -, hstatus, -⟩ := callLicenseApi_ok hok
    rw [hstatus]
    rfl
  · exact .of_answer hok hanswered rfl (hstored hok) rfl
  · refine hhonest.ask fun _ _ => ?_
    obtain hoffline | hoffline := hoffline
    · rw [hoffline]
      rfl
    · rw [hoffline]
      rfl
  · exact Or.inl rfl
  · -- a denial that clears nothing is about another key than the cached one
    obtain hnone | ⟨key, answer, entitlement, hholds⟩ := hhonest
    · exact Or.inl hnone
    · refine Honest.ask (Or.inr ⟨key, answer, entitlement, hholds⟩) fun _ hkey => ?_
      have hsame : key = licenseKey := Option.some.inj (hholds.stored.symm.trans hkey)
      by_contra hdenied
      rw [Bool.not_eq_false] at hdenied
      have hmatches := hholds.matches
      rw [hsame, hkept hdenied] at hmatches
      cases hmatches

theorem getLicenseStatus_honest {input : StatusInput} (hhonest : Honest env input.config w)
    (hcalm : Calm env w (.status input)) : Honest env input.config (getLicenseStatus env input w).2 := by
  have hrun : getLicenseStatus env input w = ((getLicenseStatus env input w).1, (getLicenseStatus env input w).2) := rfl
  obtain ⟨hsame, -⟩ | ⟨key, hkey, hsettle⟩ := getLicenseStatus_cases hrun
  · rwa [hsame]
  · exact settleStatus_honest hhonest (hcalm key hkey) hsettle

theorem deleteLicenseCache_honest : Honest env config (deleteLicenseCache w) := Or.inl rfl

theorem notRefused_key {input : ActivateInput} (h : activationRefusal input = none) :
    trim input.licenseKey.toList ≠ [] := by
  intro hempty
  unfold activationRefusal at h
  dsimp only at h
  rw [if_pos hempty] at h
  split_ifs at h

theorem notRefused_persists {input : ActivateInput} (hfile : input.config.storageBackend = .file)
    (h : activationRefusal input = none) : input.persistLocalState = true := by
  by_contra hno
  rw [Bool.not_eq_true] at hno
  unfold activationRefusal at h
  dsimp only at h
  rw [hno, hfile, if_pos (by decide)] at h
  cases h

theorem persistActivation_ok {input : ActivateInput} {entitlement : LicenseEntitlement}
    (hfile : input.config.storageBackend = .file) (htrim : trim licenseKey.toList = licenseKey.toList)
    (hkey : licenseKey.toList ≠ []) (h : persistActivation input licenseKey entitlement w = (.ok (), w')) :
    w'.cacheFile = some entitlement.json ∧ readFileLicenseKey input.config w' = some licenseKey ∧
      w'.answers = w.answers := by
  unfold persistActivation at h
  split at h
  · cases (Prod.mk.inj h).1
  · split at h
    · cases (Prod.mk.inj h).1
    · rename_i t hwrite
      obtain ⟨hstored, -, hanswers⟩ := readFileLicenseKey_write hfile htrim hkey hwrite
      split at h
      · cases (Prod.mk.inj h).1
      · obtain rfl := (Prod.mk.inj h).2
        exact ⟨rfl, hstored, hanswers⟩

theorem activateLicense_honest {input : ActivateInput} (hfile : input.config.storageBackend = .file)
    (hhonest : Honest env input.config w) (hcalm : Calm env w (.activate input)) :
    Honest env input.config (activateLicense env input w).2 := by
  unfold activateLicense
  cases hrefusal : activationRefusal input with
  | some refusal => exact hhonest
  | none =>
    dsimp only [askLicenseApi]
    split
    · rename_i answered hok hanswered
      rw [notRefused_persists hfile hrefusal]
      rw [if_neg (by decide)]
      split
      · rename_i t hpersist
        have htrim : trim (String.ofList (trim input.licenseKey.toList)).toList =
            (String.ofList (trim input.licenseKey.toList)).toList := by
          rw [String.toList_ofList, trim_trim]
        have hkey : (String.ofList (trim input.licenseKey.toList)).toList ≠ [] := by
          rw [String.toList_ofList]
          exact notRefused_key hrefusal
        obtain ⟨hcached, hstored, hanswers⟩ := persistActivation_ok hfile htrim hkey hpersist
        exact .of_answer (w := w) hok hanswered hcached hstored hanswers
      · exact deleteLicenseCache_honest
    · exact hhonest.ask fun hcached hstored => hcalm hcached hrefusal hstored

theorem removeLicense_honest {input : DeactivateInput} (apiNotified : Bool) :
    Honest env config (removeLicense input apiNotified w).2 := deleteLicenseCache_honest

theorem deactivateLicense_honest {input : DeactivateInput} (hfile : input.config.storageBackend = .file)
    (hhonest : Honest env input.config w) (hcalm : Calm env w (.deactivate input)) :
    Honest env input.config (deactivateLicense env input w).2 := by
  unfold deactivateLicense
  rw [readLicenseKey, hfile]
  dsimp only [askLicenseApi]
  split
  · rename_i licenseKey hkey
    have hstored : readFileLicenseKey input.config w = some licenseKey := (Option.filter_eq_some_iff.mp hkey).1
    split
    · rename_i hnotify
      rw [Bool.and_eq_true] at hnotify
      split
      · have hasked : Honest env input.config (askLicenseApi env input.config input.fetchImpl input.askedAt
            { path := "/v1/license/deactivate", licenseKey } w).2 :=
          hhonest.ask fun hcached _ => hcalm licenseKey hcached hnotify.1 hstored
        exact hasked
      · exact removeLicense_honest true
    · exact removeLicense_honest false
  · exact removeLicense_honest false

theorem evaluateLicenseReviewGate_world (env : Env) (w : World) (input : GateInput) :
    (evaluateLicenseReviewGate env input w).2 = w ∨
      (evaluateLicenseReviewGate env input w).2 = (getLicenseStatus env input.statusInput w).2 := by
  unfold evaluateLicenseReviewGate
  split_ifs
  · exact Or.inl rfl
  · exact Or.inl rfl
  · exact Or.inl rfl
  · exact Or.inl rfl
  · refine Or.inr ?_
    split
    · rename_i h
      rw [h]
    · rename_i h
      rw [h]

theorem gate_key {input : GateInput} (hfile : input.config.storageBackend = .file)
    (hkey : statusLicenseKey input.statusInput w = .ok (some licenseKey)) :
    readFileLicenseKey input.config w = some licenseKey := by
  have hread : statusLicenseKey input.statusInput w = .ok (readFileLicenseKey input.config w) := by
    rw [statusLicenseKey]
    dsimp only [GateInput.statusInput]
    rw [readLicenseKey, hfile]
  exact Except.ok.inj (hread.symm.trans hkey)

theorem gate_calm (input : GateInput) (hfile : input.config.storageBackend = .file) :
    Calm env w (.status input.statusInput) := fun _ hkey _ => gate_key hfile hkey

theorem next_honest {call : Call} (hconfig : call.config = config) (hfile : config.storageBackend = .file)
    (hcalm : Calm env w call) (hhonest : Honest env config w) : Honest env config (call.next env w) := by
  subst hconfig
  cases call with
  | activate input => exact activateLicense_honest hfile hhonest hcalm
  | status input => exact getLicenseStatus_honest hhonest hcalm
  | deactivate input => exact deactivateLicense_honest hfile hhonest hcalm
  | gate input =>
    have hgate : (Call.gate input).next env w = (evaluateLicenseReviewGate env input w).2 := rfl
    rw [hgate]
    obtain hsame | hstatus := evaluateLicenseReviewGate_world env w input
    · rw [hsame]
      exact hhonest
    · rw [hstatus]
      exact getLicenseStatus_honest hhonest (gate_calm input hfile)

/-! ## The gate -/

theorem gateOfStatus_ok {input : GateInput} {status : LicenseStatusResult} (hprivate : input.visibility = .priv)
    (h : (gateOfStatus env input status).ok = true) :
    status.ok = true ∧ ∃ entitlement, status.entitlement = some entitlement ∧ entitlement.status = .active ∧
      entitlementCoversRepoVisibility entitlement .priv = true ∧
      (status.source = .api ∨
        entitlementUsableDuringOutage env entitlement input.later input.config.offlineGraceMs = true) := by
  unfold gateOfStatus at h
  split at h
  · rename_i entitlement hok hentitlement
    obtain ⟨hentitlement, hactive⟩ := Option.filter_eq_some_iff.mp hentitlement
    refine ⟨hok, entitlement, hentitlement, by simpa using hactive, ?_⟩
    by_cases hstale : (status.source ≠ .api &&
        !entitlementUsableDuringOutage env entitlement input.later input.config.offlineGraceMs) = true
    · rw [if_pos hstale] at h
      cases h
    · rw [if_neg hstale] at h
      by_cases hcovers : entitlementCoversRepoVisibility entitlement input.visibility = true
      · rw [hprivate] at hcovers
        refine ⟨hcovers, ?_⟩
        simp only [Bool.and_eq_true, decide_eq_true_eq, Bool.not_eq_true', not_and, Bool.not_eq_false] at hstale
        by_cases hapi : status.source = .api
        · exact Or.inl hapi
        · exact Or.inr (hstale hapi)
      · rw [Bool.not_eq_true] at hcovers
        rw [hcovers] at h
        cases h
  · cases h

theorem gate_private {input : GateInput} {result : LicenseReviewGateResult} (henabled : input.config.enabled = true)
    (hrequired : input.config.privateReposRequireEntitlement = true) (hprivate : input.visibility = .priv)
    (h : evaluateLicenseReviewGate env input w = (.ok result, w')) :
    ∃ status, getLicenseStatus env input.statusInput w = (.ok status, w') ∧ result = gateOfStatus env input status := by
  unfold evaluateLicenseReviewGate at h
  rw [henabled, hprivate, repoVisibilityRequiresEntitlement, hrequired] at h
  have hpublic : (decide (Visibility.priv = .pub) && input.config.publicReposFree) = false := rfl
  have hunknown : (decide (Visibility.priv = .unknown) && true) = false := rfl
  have hon : (!true) = false := rfl
  rw [hpublic, hunknown, hon] at h
  rw [if_neg Bool.false_ne_true, if_neg Bool.false_ne_true, if_neg Bool.false_ne_true, if_neg Bool.false_ne_true] at h
  cases hstatus : getLicenseStatus env input.statusInput w with
  | mk outcome t =>
    rw [hstatus] at h
    cases outcome with
    | error message => cases (Prod.mk.inj h).1
    | ok status =>
      obtain ⟨hresult, rfl⟩ := Prod.mk.inj h
      exact ⟨status, rfl, (Except.ok.inj hresult).symm⟩

theorem usable_of_normalize {body : Json} {now : Date} {e : LicenseEntitlement}
    (h : normalizeEntitlement env body licenseKey now = some e) (hactive : e.status = .active) :
    entitlementCurrentlyUsable env e now = true := by
  unfold normalizeEntitlement at h
  dsimp only at h
  split at h
  · split at h
    · cases h
    · rename_i status scope _ _ hexpired
      obtain rfl := Option.some.inj h
      have hstatus : status = .active := hactive
      rw [entitlementCurrentlyUsable, decide_eq_true hactive, Bool.true_and]
      dsimp only
      rw [hstatus, decide_eq_true rfl, Bool.true_and] at hexpired
      cases hexpires : readString (entitlementRecord body) "expiresAt" with
      | none => rfl
      | some expiresAt => simpa [hexpires] using hexpired
  · cases h

/-- An entitlement usable in an outage is unexpired and was checked within the grace. -/
theorem usableDuringOutage_iff {e : LicenseEntitlement} {now checked : Date} {grace : Int}
    (hchecked : e.checkedAt = checked.toISOString) :
    entitlementUsableDuringOutage env e now grace = true ↔
      entitlementCurrentlyUsable env e now = true ∧ now.getTime ≤ checked.getTime + grace := by
  rw [entitlementUsableDuringOutage, hchecked, Env.dateParse_toISOString, Bool.and_eq_true, Option.any_some,
    decide_eq_true_eq]

theorem statusFromCache_ok {cached : Option LicenseEntitlement} {now : Date}
    (h : (statusFromCache env cached now).ok = true) :
    ∃ e, cached = some e ∧ entitlementCurrentlyUsable env e now = true ∧
      (statusFromCache env cached now).entitlement = some e ∧ (statusFromCache env cached now).source = .cache := by
  cases cached with
  | none => cases h
  | some e =>
    unfold statusFromCache at h ⊢
    dsimp only at h ⊢
    split_ifs at h ⊢ with hactive husable
    exact ⟨e, rfl, by simpa using husable, rfl, rfl⟩

theorem Honest.read (h : Honest env config w) {e : LicenseEntitlement} (hread : readLicenseCache env config w = some e) :
    ∃ licenseKey answer entitlement, Holds env config w licenseKey answer entitlement ∧
      e = stamped env licenseKey entitlement := by
  obtain hnone | ⟨licenseKey, answer, entitlement, hholds⟩ := h
  · rw [readLicenseCache, hnone] at hread
    cases hread
  · rw [hholds.read] at hread
    exact ⟨licenseKey, answer, entitlement, hholds, (Option.some.inj hread).symm⟩

theorem gate_vouched {input : GateInput} {result : LicenseReviewGateResult}
    (hfile : input.config.storageBackend = .file) (henabled : input.config.enabled = true)
    (hrequired : input.config.privateReposRequireEntitlement = true) (hprivate : input.visibility = .priv)
    (hclock : input.now.getTime ≤ input.later.getTime) (hhonest : Honest env input.config w)
    (h : evaluateLicenseReviewGate env input w = (.ok result, w')) (hok : result.ok = true) :
    Vouched env input w w' := by
  obtain ⟨status, hstatus, rfl⟩ := gate_private henabled hrequired hprivate h
  obtain ⟨hstatusOk, e, he, hactive, hcovers, hsource⟩ := gateOfStatus_ok hprivate hok
  obtain ⟨rfl, other, hother, hquiet⟩ | ⟨key, hkey, hsettle⟩ := getLicenseStatus_cases hstatus
  · -- the cache alone: the gate itself checks the grace
    obtain rfl := Except.ok.inj hother
    obtain hfalse | ⟨-, rfl⟩ := hquiet
    · rw [hstatusOk] at hfalse
      cases hfalse
    · obtain ⟨e', hread, husable, he', hcache⟩ := statusFromCache_ok hstatusOk
      obtain rfl : e' = e := Option.some.inj (he'.symm.trans he)
      obtain ⟨licenseKey, answer, entitlement, hholds, rfl⟩ := hhonest.read hread
      have hoffline := hsource.resolve_left fun hapi => by
        rw [hcache] at hapi
        cases hapi
      have hgrace := ((usableDuringOutage_iff hholds.checkedAt).mp hoffline).2
      exact ⟨licenseKey, answer, entitlement, hholds.stored, hholds.since, hholds.key, hholds.ok, hholds.answered,
        hactive, hcovers, husable, Or.inr (le_trans hclock hgrace)⟩
  · have hstored := gate_key hfile hkey
    obtain ⟨answered, hansweredOk, hanswered, herror | ⟨_, rfl, hresult, rfl⟩⟩ | ⟨hno, hstale | ⟨hresult, -⟩⟩ :=
      settleStatus_cases hsettle
    · obtain ⟨message, hmessage, -⟩ := herror
      cases hmessage
    · -- the API answered active during the call
      obtain ⟨answer, ⟨⟨url, statusCode, body, -, -, -, -, hnormal⟩, hanswerActive⟩, hanswer, hanswerStatus, -⟩ :=
        callLicenseApi_ok hansweredOk
      rw [hanswered] at hanswer
      obtain rfl := Option.some.inj hanswer
      obtain rfl := Except.ok.inj hresult
      obtain rfl := Option.some.inj he
      exact ⟨key, _, answered, hstored, mem_sinceDenial_self hanswerStatus, rfl, hansweredOk, hanswered,
        hanswerActive, hcovers, usable_of_normalize hnormal hanswerActive, Or.inl rfl⟩
    · -- an outage, and the cache stands in
      obtain ⟨e', status', hread, -, hoffline, hgrace, hresult, -, he', rfl⟩ := hstale
      obtain rfl := Except.ok.inj hresult
      obtain rfl : e' = e := Option.some.inj (he'.symm.trans he)
      obtain ⟨licenseKey, answer, entitlement, hholds, rfl⟩ := hhonest.read hread
      obtain ⟨husable, hwithin⟩ := (usableDuringOutage_iff hholds.checkedAt).mp hgrace
      refine ⟨licenseKey, answer, entitlement, hholds.stored, mem_sinceDenial_cons hholds.since fun _ => ?_, hholds.key,
        hholds.ok, hholds.answered, hactive, hcovers, husable, Or.inr hwithin⟩
      obtain hoffline | hoffline := hoffline
      · dsimp only
        rw [hoffline]
        rfl
      · dsimp only
        rw [hoffline]
        rfl
    · obtain rfl := Except.ok.inj hresult
      obtain ⟨entitlement, -, hentitlement, -⟩ := callLicenseApi_ok hstatusOk
      rw [hstatusOk, hentitlement] at hno
      obtain hno | hno := hno
      · cases hno
      · cases hno

/-! ## Runs -/

/-- Calls of one configuration with the file backend, none of which loses a denial of the stored key. -/
def CalmCall (env : Env) (config : LicenseConfig) (w : World) (call : Call) : Prop :=
  call.config = config ∧ Calm env w call

theorem run_honest (hfile : config.storageBackend = .file) {calls : List Call}
    (hcalm : Along (step env) (CalmCall env config) {} calls) (hrun : run (step env) {} calls = some w) :
    Honest env config w :=
  hcalm.invariant
    (fun _ _ _ hhonest hcall hstep => Option.some.inj hstep ▸ next_honest hcall.1 hfile hcall.2 hhonest)
    (Or.inl rfl) hrun

/-- After any run of calm calls, the gate allows a private review only for a stored key whose active answer
covers it, is within the grace, unexpired and not denied since. -/
theorem private_review_vouched (hfile : config.storageBackend = .file) (henabled : config.enabled = true)
    (hrequired : config.privateReposRequireEntitlement = true) {calls : List Call}
    (hcalm : Along (step env) (CalmCall env config) {} calls) (hrun : run (step env) {} calls = some w)
    {input : GateInput} (hconfig : input.config = config) (hprivate : input.visibility = .priv)
    (hclock : input.now.getTime ≤ input.later.getTime) {result : LicenseReviewGateResult}
    (h : evaluateLicenseReviewGate env input w = (.ok result, w')) (hok : result.ok = true) :
    Vouched env input w w' := by
  subst hconfig
  exact gate_vouched hfile henabled hrequired hprivate hclock (run_honest hfile hcalm hrun) h hok

/-! ### An activation, and a second one that the API denies -/

def graceConfig : LicenseConfig :=
  { apiBaseUrl := some "https://licence.test", keyPath := some "license.key", offlineGraceMs := 60000 }

def activation (now : Date) (fetchImpl : Fetch) : Call :=
  .activate { config := graceConfig, licenseKey := "nd_1", now, askedAt := now, fetchImpl }

theorem activated_valid : IsoDate.isTime 1700000000000 = true := by decide

def activated : Call :=
  activation ⟨1700000000000, activated_valid⟩ fun _ =>
    .response 200 (.obj [("status", .str "active"), ("repoVisibilityScope", .str "private")])

def revoked : Call := activation ⟨1700000001000, by decide⟩ fun _ => .response 403 (.obj [])

/-- A review of a private repository while the API is out of reach. -/
def outageGate : GateInput where
  config := graceConfig
  repo := "owner/private"
  visibility := .priv
  now := ⟨1700000002000, by decide⟩
  later := ⟨1700000002000, by decide⟩
  fetchImpl _ := .throws "offline"

def outageResult : LicenseReviewGateResult :=
  { ok := true, repo := "owner/private", visibility := .priv, status := .active
    reason := "active entitlement covers private repo review"
    entitlement := some
      { status := .active, checkedAt := "2023-11-14T22:13:20.000Z", repoVisibilityScope := .priv
        updateEntitlement := false, licenseFingerprint := some "e4f1000000000000" } }

theorem activated_calm : Along (step plainEnv) (CalmCall plainEnv graceConfig) {} [activated] :=
  ⟨⟨rfl, fun hcached => by cases hcached⟩, fun _ _ => trivial⟩

/-- An activated key is vouched for through an outage. -/
theorem activated_key_vouched :
    Vouched plainEnv outageGate (activated.next plainEnv {})
      (evaluateLicenseReviewGate plainEnv outageGate (activated.next plainEnv {})).2 :=
  private_review_vouched rfl rfl rfl activated_calm rfl rfl rfl (le_refl _)
    (Prod.ext (by decide +kernel) rfl : evaluateLicenseReviewGate plainEnv outageGate (activated.next plainEnv {}) =
      (.ok outageResult, _)) rfl

def deniedWorld : World := revoked.next plainEnv (activated.next plainEnv {})

/-- The second activation of the key is answered `revoked`, and an outage later the cached entitlement still
admits the review. -/
theorem denied_key_reviewed :
    run (step plainEnv) {} [activated, revoked] = some deniedWorld ∧
    (evaluateLicenseReviewGate plainEnv outageGate deniedWorld).1 = .ok outageResult ∧ outageResult.ok = true ∧
    ¬ Vouched plainEnv outageGate deniedWorld (evaluateLicenseReviewGate plainEnv outageGate deniedWorld).2 := by
  refine ⟨rfl, by decide +kernel, rfl, ?_⟩
  rintro ⟨licenseKey, answer, entitlement, hstored, hsince, -, hok, -⟩
  have hkey : readFileLicenseKey graceConfig (evaluateLicenseReviewGate plainEnv outageGate deniedWorld).2 = some "nd_1" := by
    decide +kernel
  obtain rfl := Option.some.inj (hkey.symm.trans hstored)
  have hnone : (sinceDenial "nd_1" (evaluateLicenseReviewGate plainEnv outageGate deniedWorld).2.answers).all
      (fun answer => !answer.result.ok) = true := by
    decide +kernel
  have hdown := List.all_eq_true.mp hnone answer hsince
  rw [hok] at hdown
  cases hdown

end NeonDiff.Admission
