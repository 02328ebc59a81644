import NeonDiff.Admission.License

/-! # The two files read back what was written -/

namespace NeonDiff.Admission

open NeonDiff.Lib NeonDiff.Lib.JsText

/-! ## Fields of a record -/

@[simp] theorem field_append (front back : List (String × Json)) (key : String) :
    Json.field (front ++ back) key = (Json.field front key).or (Json.field back key) := by
  rw [Json.field, List.find?_append, Json.field, Json.field]
  cases front.find? fun f => f.1 = key with
  | none => rfl
  | some f => rfl

@[simp] theorem field_cons (name : String) (value : Json) (rest : List (String × Json)) (key : String) :
    Json.field ((name, value) :: rest) key = if name = key then some value else Json.field rest key := by
  rw [Json.field, List.find?_cons]
  by_cases h : name = key
  · simp [h]
  · simp [h, Json.field]

@[simp] theorem field_nil (key : String) : Json.field [] key = none := rfl

@[simp] theorem field_optionalField (name : String) (value : Option Json) (key : String) :
    Json.field (optionalField name value) key = if name = key then value else none := by
  cases value with
  | none => simp [optionalField, Json.field]
  | some v => rw [optionalField, Option.map_some, Option.toList_some, field_cons, field_nil]

/-! ## Texts that are not blank -/

def NotBlank (text : String) : Prop := trim text.toList ≠ []

theorem notBlank_of_mem {text : String} {c : Char} (hc : c ∈ text.toList) (hspace : isSpace c = false) :
    NotBlank text := by
  intro hblank
  rw [trim_eq_nil.mp hblank c hc] at hspace
  cases hspace

theorem notBlank_of_readString {body : Json} {key text : String} (h : readString body key = some text) :
    NotBlank text := by
  unfold readString at h
  split at h
  · split at h
    · split_ifs at h with hblank
      rw [← Option.some.inj h]
      exact hblank
    · cases h
  · cases h

theorem notBlank_toISOString (date : Date) : NotBlank date.toISOString := by
  refine notBlank_of_mem (c := 'T') ?_ (by decide)
  rw [Date.toISOString, IsoDate.toISOString, String.toList_ofList]
  simp [IsoDate.restText]

theorem hexDigit_notSpace : ∀ digit : Fin 16, isSpace (Json.hexDigit digit.val) = false := by decide

theorem notBlank_fingerprint (env : Env) (key : String) : NotBlank (fingerprintLicenseKey env key) := by
  refine notBlank_of_mem (c := Json.hexDigit (env.sha256 key 0).val) ?_ (hexDigit_notSpace _)
  rw [fingerprintLicenseKey, String.toList_ofList]
  refine List.mem_map.mpr ⟨env.sha256 key 0, ?_, rfl⟩
  rw [List.ofFn_succ, List.take_succ_cons]
  exact List.mem_cons_self

/-! ## The cache file -/

/-- What a cached entitlement has, as the API's answers do. -/
structure Cacheable (e : LicenseEntitlement) : Prop where
  active : e.status = .active
  checkedAt : NotBlank e.checkedAt
  expiresAt : ∀ text, e.expiresAt = some text → NotBlank text
  graceUntil : ∀ text, e.graceUntil = some text → NotBlank text
  plan : ∀ text, e.plan = some text → NotBlank text
  licenseFingerprint : ∀ text, e.licenseFingerprint = some text → NotBlank text
  revocationReason : e.revocationReason = none

theorem readString_of_field {fields : List (String × Json)} {key : String} {text : Option String}
    (hfield : Json.field fields key = text.map .str) (hblank : ∀ t, text = some t → NotBlank t) :
    readString (.obj fields) key = text := by
  unfold readString
  dsimp only
  rw [hfield]
  cases text with
  | none => rfl
  | some t => exact if_neg (hblank t rfl)

theorem readBoolean_of_field {fields : List (String × Json)} {key : String} {value : Option Bool}
    (hfield : Json.field fields key = value.map .bool) : readBoolean (.obj fields) key = value := by
  unfold readBoolean
  dsimp only
  rw [hfield]
  cases value with
  | none => rfl
  | some v => rfl

theorem readNumber_of_field {fields : List (String × Json)} {key : String} {value : Option JsonNumber}
    (hfield : Json.field fields key = value.map JsonNumber.json) : readNumber (.obj fields) key = value := by
  unfold readNumber
  dsimp only
  rw [hfield]
  cases value with
  | none => rfl
  | some v =>
    cases v with
    | int n => rfl
    | fraction text => rfl

theorem readBodyStatus_fields {e : LicenseEntitlement} (h : e.status = .active) :
    readBodyStatus e.json = some .active := by
  have hfield : Json.field e.fields "status" = (some "active").map .str := by
    rw [LicenseEntitlement.fields, h]
    rfl
  rw [readBodyStatus, LicenseEntitlement.json,
    readString_of_field hfield fun t ht => by cases ht; exact notBlank_of_mem (c := 'a') (by decide) (by decide)]
  decide

theorem readRepoVisibilityScope_fields (e : LicenseEntitlement) :
    readRepoVisibilityScope e.json = some e.repoVisibilityScope := by
  have hfield : Json.field e.fields "repoVisibilityScope" = (some e.repoVisibilityScope.text).map .str := by
    simp [LicenseEntitlement.fields]
  rw [readRepoVisibilityScope, LicenseEntitlement.json, readString_of_field hfield, Option.some_or, Option.bind_some]
  · cases e.repoVisibilityScope with
    | pub => decide
    | priv => decide
    | all => decide
  · intro t ht
    obtain rfl := Option.some.inj ht
    cases e.repoVisibilityScope with
    | pub => exact notBlank_of_mem (c := 'p') (by decide) (by decide)
    | priv => exact notBlank_of_mem (c := 'p') (by decide) (by decide)
    | all => exact notBlank_of_mem (c := 'a') (by decide) (by decide)

theorem readLicenseCache_write {env : Env} {config : LicenseConfig} {w : World} {e : LicenseEntitlement}
    (h : Cacheable e) (hfile : w.cacheFile = some e.json) : readLicenseCache env config w = some e := by
  have htext (key : String) (text : Option String) (hfield : Json.field e.fields key = text.map .str)
      (hblank : ∀ t, text = some t → NotBlank t) : readString e.json key = text := readString_of_field hfield hblank
  have hcheckedAt : readString e.json "checkedAt" = some e.checkedAt :=
    htext _ _ (by simp [LicenseEntitlement.fields])
      fun t ht => Option.some.inj ht ▸ h.checkedAt
  have hexpiresAt : readString e.json "expiresAt" = e.expiresAt :=
    htext _ _ (by simp [LicenseEntitlement.fields]) h.expiresAt
  have hgraceUntil : readString e.json "graceUntil" = e.graceUntil :=
    htext _ _ (by simp [LicenseEntitlement.fields]) h.graceUntil
  have hplan : readString e.json "plan" = e.plan :=
    htext _ _ (by simp [LicenseEntitlement.fields]) h.plan
  have hfingerprint : readString e.json "licenseFingerprint" = e.licenseFingerprint :=
    htext _ _ (by simp [LicenseEntitlement.fields])
      h.licenseFingerprint
  have hprivate : readBoolean e.json "privateRepoAllowed" = e.privateRepoAllowed :=
    readBoolean_of_field (by simp [LicenseEntitlement.fields])
  have hupdate : readBoolean e.json "updateEntitlement" = some e.updateEntitlement :=
    readBoolean_of_field (by simp [LicenseEntitlement.fields])
  have hgrace : readNumber e.json "offlineGraceMs" = e.offlineGraceMs :=
    readNumber_of_field (by simp [LicenseEntitlement.fields])
  have hseats : readNumber e.json "seats" = e.seats :=
    readNumber_of_field (by simp [LicenseEntitlement.fields])
  rw [readLicenseCache, hfile, Option.bind_some, readBodyStatus_fields h.active, readRepoVisibilityScope_fields,
    hcheckedAt]
  dsimp only
  rw [if_pos rfl, hexpiresAt, hgraceUntil, hplan, hfingerprint, hprivate, hupdate, hgrace, hseats, Option.getD_some,
    ← h.active, ← h.revocationReason]

theorem cacheable_of_normalize {env : Env} {body : Json} {licenseKey : String} {now : Date} {e : LicenseEntitlement}
    (h : normalizeEntitlement env body licenseKey now = some e) (hactive : e.status = .active) (key : String) :
    Cacheable { e with licenseFingerprint := some (fingerprintLicenseKey env key) } := by
  unfold normalizeEntitlement at h
  dsimp only at h
  split at h
  · split at h
    · cases h
    · obtain rfl := Option.some.inj h
      have hstatus := hactive
      dsimp only at hstatus
      refine ⟨hactive, notBlank_toISOString now, fun _ => notBlank_of_readString, fun _ => notBlank_of_readString,
        fun _ => notBlank_of_readString, fun text htext => ?_, if_pos hstatus⟩
      rw [← Option.some.inj htext]
      exact notBlank_fingerprint env key
  · cases h

/-! ## The key file -/

theorem readFileLicenseKey_write {config : LicenseConfig} {licenseKey : String} {w w' : World}
    (hfile : config.storageBackend = .file) (htrim : trim licenseKey.toList = licenseKey.toList)
    (hkey : licenseKey.toList ≠ []) (h : writeLicenseKey config licenseKey w = .ok w') :
    readFileLicenseKey config w' = some licenseKey ∧ w'.cacheFile = w.cacheFile ∧ w'.answers = w.answers := by
  unfold writeLicenseKey at h
  rw [hfile] at h
  dsimp only at h
  split_ifs at h with hpath
  obtain rfl := Except.ok.inj h
  refine ⟨?_, rfl, rfl⟩
  obtain ⟨path, hpath⟩ := Option.ne_none_iff_exists'.mp fun hnone => hpath (Option.isNone_iff_eq_none.mpr hnone)
  have hchars : trim (licenseKey ++ "\n").toList = licenseKey.toList := by
    rw [String.toList_append]
    exact trim_concat_newline htrim
  have hne : licenseKey ≠ "" := fun h => hkey (by rw [h]; rfl)
  rw [readFileLicenseKey, hpath, Option.bind_some, Option.map_some, hchars, String.ofList_toList, nonEmpty,
    Option.filter_some, if_pos (decide_eq_true hne)]

end NeonDiff.Admission
