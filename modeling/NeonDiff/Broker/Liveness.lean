import NeonDiff.Broker.Model
import NeonDiff.License.Changes
import NeonDiff.License.Confluence
import NeonDiff.License.Service

/-! # Whether a licence is live: what the licence service answers, and what the broker does

The two read the same record, and part over an active licence whose stored expiry is no date: the service lets it
never expire, the broker fails closed.
-/

namespace NeonDiff.Broker

open NeonDiff.Lib NeonDiff.Lib.JsText NeonDiff.License

variable {env : Env} {s t : Licenses}

inductive Liveness where
  | live | expired | revoked
  deriving DecidableEq, Repr

/-- What an answer of the licence service to a device says: nothing for a key that it does not know. -/
def ofServiceResult (result : ServiceResult) : Option Liveness :=
  if result.httpStatus = 404 then none
  else if result.httpStatus = 403 then some .revoked
  else if result.httpStatus = 402 then some .expired
  else some .live

/-- What the broker's resolver says. -/
def EntitlementSnapshot.liveness : EntitlementSnapshot → Option Liveness
  | active _ => some .live
  | replayConflict => some .live
  | expired => some .expired
  | revoked => some .revoked
  | _ => Option.none

def livenessOf (record : LicenseRecord) (expired : Bool) : Liveness :=
  if record.status = .revoked then .revoked else if expired then .expired else .live

/-! ## The two readings of a record -/

theorem resolveActiveLicense_of_key {req : LicenseRequest} {record : LicenseRecord} (now : Int)
    (h : s.getLicenseByKey env.sha256 req.licenseKey = some record) :
    resolveActiveLicense env s req now =
      if record.status = .revoked then .error (revokedResult record)
      else if record.status = .expired || isExpired env record now then .error expiredResult
      else .ok record := by
  unfold resolveActiveLicense
  rw [h]

theorem activate_liveness {req : LicenseRequest} {record : LicenseRecord} (now : Int)
    (h : s.getLicenseByKey env.sha256 req.licenseKey = some record) :
    ofServiceResult (activate env now req s).1 =
      some (livenessOf record (record.status = .expired || isExpired env record now)) := by
  unfold activate livenessOf
  rw [resolveActiveLicense_of_key now h]
  by_cases hrevoked : record.status = .revoked
  · rw [if_pos hrevoked, if_pos hrevoked]
    rfl
  rw [if_neg hrevoked, if_neg hrevoked]
  by_cases hexpired : (record.status = .expired || isExpired env record now) = true
  · rw [if_pos hexpired, if_pos hexpired]
    rfl
  rw [if_neg hexpired, if_neg hexpired]
  dsimp only
  split
  · split
    · split <;> rfl
    · rfl
  · split <;> rfl

theorem validate_liveness {req : LicenseRequest} {record : LicenseRecord} (now : Int)
    (h : s.getLicenseByKey env.sha256 req.licenseKey = some record) :
    ofServiceResult (validate env now req s).1 =
      some (livenessOf record (record.status = .expired || isExpired env record now)) := by
  unfold validate livenessOf
  rw [resolveActiveLicense_of_key now h]
  by_cases hrevoked : record.status = .revoked
  · rw [if_pos hrevoked, if_pos hrevoked]
    rfl
  rw [if_neg hrevoked, if_neg hrevoked]
  by_cases hexpired : (record.status = .expired || isExpired env record now) = true
  · rw [if_pos hexpired, if_pos hexpired]
    rfl
  rw [if_neg hexpired, if_neg hexpired]
  dsimp only
  split <;> rfl

theorem getLicenseByKey_of_normalize {key activationKey : String}
    (h : normalizeActivationKey (some key) = some activationKey) :
    s.getLicenseByKey env.sha256 activationKey = s.getLicenseByKey env.sha256 key := by
  unfold normalizeActivationKey at h
  rw [Option.bind_some] at h
  dsimp only at h
  split_ifs at h
  obtain rfl := Option.some.inj h
  unfold Licenses.getLicenseByKey Licenses.hashLicenseKey
  rw [String.toList_ofList, trim_trim]

theorem licenseStoreEntitlement_liveness {context : EntitlementResolutionContext} {key activationKey : String}
    {record : LicenseRecord} (now : Int) (hcontext : context.activationKey = some key)
    (hkey : normalizeActivationKey (some key) = some activationKey)
    (h : s.getLicenseByKey env.sha256 key = some record) :
    (licenseStoreEntitlement env.sha256 env.dateParse s now context).liveness =
      some (livenessOf record (licenseExpired env.dateParse record now)) := by
  unfold licenseStoreEntitlement livenessOf
  rw [hcontext, hkey]
  dsimp only
  rw [getLicenseByKey_of_normalize hkey, h]
  dsimp only
  by_cases hrevoked : record.status = .revoked
  · rw [if_pos hrevoked, if_pos hrevoked]
    rfl
  rw [if_neg hrevoked, if_neg hrevoked]
  by_cases hexpired : licenseExpired env.dateParse record now = true
  · rw [if_pos hexpired, if_pos hexpired]
    rfl
  rw [if_neg hexpired, if_neg hexpired]
  split
  · rfl
  split
  · rfl
  split <;> rfl

/-! ## Expiries that are no dates -/

/-- The stored text of an expiry is missing, empty, or one that `Date.parse` reads. -/
def Readable (env : Env) (expiresAt : Option String) : Prop :=
  ∀ text, nonEmpty expiresAt = some text → (env.dateParse text).isSome = true

def Unreadable (env : Env) (record : LicenseRecord) : Prop :=
  record.status = .active ∧ ¬ Readable env record.expiresAt

theorem isExpired_of_readable {record : LicenseRecord} (now : Int) (h : Readable env record.expiresAt)
    (hmapped : nonEmpty record.expiresAt = record.expiresAt) :
    licenseExpired env.dateParse record now = (record.status = .expired || isExpired env record now) := by
  unfold licenseExpired isExpired
  rw [hmapped]
  cases htext : record.expiresAt with
  | none => rfl
  | some text =>
    obtain ⟨ms, hms⟩ := Option.isSome_iff_exists.mp (h text (hmapped.trans htext))
    simp [hms]

theorem expired_of_unreadable {record : LicenseRecord} (now : Int) (h : Unreadable env record)
    (hmapped : nonEmpty record.expiresAt = record.expiresAt) :
    licenseExpired env.dateParse record now = true ∧
      (record.status = .expired || isExpired env record now) = false := by
  obtain ⟨hactive, hunreadable⟩ := h
  obtain ⟨text, hunreadable⟩ := not_forall.mp hunreadable
  obtain ⟨htext, hnone⟩ := Classical.not_imp.mp hunreadable
  rw [Option.not_isSome_iff_eq_none] at hnone
  rw [hmapped] at htext
  unfold licenseExpired isExpired
  rw [hmapped, htext, hactive]
  simp [hnone]

theorem nonEmpty_expiresAt_of_key {key : String} {record : LicenseRecord}
    (h : s.getLicenseByKey env.sha256 key = some record) : nonEmpty record.expiresAt = record.expiresAt := by
  obtain ⟨row, -, rfl⟩ := Option.map_eq_some_iff.mp h
  simp [mapLicense, nonEmpty]

/-- The service and the broker read a record alike exactly when it is not an active one with an expiry that is no
date; they make such a record live and expired. -/
theorem livenessOf_agree {record : LicenseRecord} (now : Int)
    (hmapped : nonEmpty record.expiresAt = record.expiresAt) :
    (Unreadable env record →
      livenessOf record (record.status = .expired || isExpired env record now) = .live ∧
      livenessOf record (licenseExpired env.dateParse record now) = .expired) ∧
    (¬ Unreadable env record →
      livenessOf record (record.status = .expired || isExpired env record now) =
        livenessOf record (licenseExpired env.dateParse record now)) := by
  constructor
  · intro h
    obtain ⟨hbroker, hservice⟩ := expired_of_unreadable now h hmapped
    have halive : record.status ≠ .revoked := by
      rw [h.1]
      nofun
    unfold livenessOf
    rw [if_neg halive, if_neg halive, hbroker, hservice]
    exact ⟨rfl, rfl⟩
  · intro h
    by_cases hread : Readable env record.expiresAt
    · rw [isExpired_of_readable now hread hmapped]
    unfold livenessOf
    cases hstatus : record.status with
    | active => exact absurd ⟨hstatus, hread⟩ h
    | revoked => rfl
    | expired => simp [licenseExpired, hstatus]

/-! ## The stores that the operations make -/

def givenExpiry : StoreCall → Option String
  | .issueLicense _ input => input.expiresAt
  | .issueIdempotentLicense _ input => input.expiresAt
  | _ => none

theorem InsertedLicense.expiry {row r : LicenseRecord} {k : String} (h : InsertedLicense row s t)
    (hk : s.licenses.find? k = none) (hr : t.licenses.find? k = some r) : r.expiresAt = row.expiresAt := by
  rw [h.find] at hr
  split at hr
  · rw [Option.some.inj hr]
  · rw [hk] at hr
    cases hr

theorem readable_iso {ms : Int} (h : IsoDate.isTime ms = true) : Readable env (some (IsoDate.toISOString ms)) := by
  intro text htext
  obtain ⟨htext, -⟩ := Option.filter_eq_some_iff.mp htext
  obtain rfl := Option.some.inj htext
  rw [Env.dateParse, IsoDate.dateParse_toISOString _ h]
  rfl

theorem issueBound_readable {rawKey k : String} {input : IssueBoundCheckoutLicenseInput} {issuedAt : Int}
    {answer : BoundIssuance} {r : LicenseRecord}
    (h : issueBoundCheckoutLicenseInOpenTransaction env rawKey input issuedAt s = .ok (answer, t))
    (hk : s.licenses.find? k = none) (hr : t.licenses.find? k = some r) : Readable env r.expiresAt := by
  rcases issueBound_cases h with ⟨rfl, -⟩ | ⟨s1, s2, hissued⟩
  · rw [hk] at hr
    cases hr
  · rw [hissued.binding.licenses, hissued.issuance.licenses] at hr
    rw [InsertedLicense.expiry hissued.license hk hr]
    exact readable_iso hissued.time

theorem applyLifecycle_fresh {now : Int} {input : SubscriptionLifecycleRequest} {k : String}
    {answer : SubscriptionLifecycleApplyResult}
    (h : applyCheckoutSubscriptionLifecycle env now input s = .ok (answer, t))
    (hk : s.licenses.find? k = none) : t.licenses.find? k = none := by
  rcases applyLifecycle_cases h with rfl | ⟨record, s1, haccepted⟩
  · exact hk
  have hsame : t.licenses = s1.licenses := by rw [haccepted.frame]
  rw [hsame]
  cases haccepted.commanded with
  | renewed => rw [licenses_updateLicense, hk, Option.map_none]
  | noted t f same rows frame => rw [frame, hk]
  | revoked => rw [licenses_updateLicense, hk, Option.map_none]

theorem fresh_readable {now : Int} {call : StoreCall} {k : String} {r : LicenseRecord}
    (h : call.commit env now s = .ok t) (hgiven : Readable env (givenExpiry call))
    (hk : s.licenses.find? k = none) (hr : t.licenses.find? k = some r) : Readable env r.expiresAt := by
  cases call with
  | issueLicense rawKey input =>
    obtain ⟨record, h⟩ := map_snd_eq_ok h
    rw [InsertedLicense.expiry (insertLicense_spec h).2 hk hr]
    exact hgiven
  | issueIdempotentLicense rawKey input =>
    obtain ⟨answer, h⟩ := map_snd_eq_ok h
    cases issueIdempotent_cases h with
    | replayed =>
      rw [hk] at hr
      cases hr
    | issued s1 t license issuance =>
      rw [issuance.licenses] at hr
      rw [InsertedLicense.expiry license hk hr]
      exact hgiven
  | issueBoundCheckoutLicense =>
    obtain ⟨answer, h⟩ := map_snd_eq_ok h
    obtain ⟨validated, -, h⟩ := bind_eq_ok h
    exact issueBound_readable h hk hr
  | fulfillStripeCheckout =>
    obtain ⟨answer, h⟩ := map_snd_eq_ok h
    obtain ⟨validated, issuance, s1, -, hissuance, hfulfilled⟩ := fulfillStripeCheckout_cases h
    have hsame : t.licenses = s1.licenses := by
      cases hfulfilled with
      | replayed => rfl
      | fulfilled row t event eventHash key hash checkout token inserted => exact inserted.licenses
    rw [hsame] at hr
    exact issueBound_readable hissuance hk hr
  | redeemStripeCheckout =>
    obtain ⟨answer, h⟩ := map_snd_eq_ok h
    rw [(redeemStripeCheckout_cases h).frame, hk] at hr
    cases hr
  | bindCheckoutSubscription =>
    obtain ⟨answer, h⟩ := map_snd_eq_ok h
    obtain ⟨trimmed, requested, issuance, -, -, -, -, hbound⟩ := bindCheckoutSubscription_cases h
    have hsame : t.licenses = s.licenses := by
      cases hbound with
      | kept => rfl
      | dry => rfl
      | bound t free inserted => exact inserted.licenses
    rw [hsame, hk] at hr
    cases hr
  | applyCheckoutSubscriptionLifecycle input =>
    obtain ⟨answer, h⟩ := map_snd_eq_ok h
    rw [applyLifecycle_fresh h hk] at hr
    cases hr
  | revokeLicense rawKey reason =>
    obtain rfl := Except.ok.inj h
    rw [License.revokeLicense, licenses_updateLicense, hk] at hr
    cases hr
  | upsertActivation =>
    obtain rfl := Except.ok.inj h
    rw [License.upsertActivation, hk] at hr
    cases hr
  | touchActivation =>
    obtain rfl := Except.ok.inj h
    rw [License.touchActivation, hk] at hr
    cases hr
  | removeActivation =>
    obtain rfl := Except.ok.inj h
    rw [License.removeActivation, hk] at hr
    cases hr

def Settled (env : Env) (row : LicenseRecord) : Prop := row.status = .revoked ∨ Readable env row.expiresAt

theorem LicenseChange.settled {now : Int} {call : StoreCall} {r r' : LicenseRecord}
    (h : LicenseChange env now call r r') (hr : Settled env r) : Settled env r' := by
  cases h with
  | same => exact hr
  | renewed input fingerprint amount periodEnd stored incoming applied detail alive old paid time =>
    exact .inr (readable_iso time)
  | revoked => exact .inl rfl
  | revokedByAdmin => exact .inl rfl

theorem commit_settled {now : Int} {call : StoreCall} (h : call.commit env now s = .ok t)
    (hgiven : Readable env (givenExpiry call)) (hs : ∀ k r, s.licenses.find? k = some r → Settled env r) :
    ∀ k r, t.licenses.find? k = some r → Settled env r := by
  intro k r hr
  cases hk : s.licenses.find? k with
  | none => exact .inr (fresh_readable h hgiven hk hr)
  | some old =>
    obtain ⟨r', hr', hchange⟩ := commit_change h hk
    obtain rfl := Option.some.inj (hr'.symm.trans hr)
    exact LicenseChange.settled hchange (hs k old hk)

theorem after_settled (calls : List (Int × StoreCall)) (hgiven : ∀ c ∈ calls, Readable env (givenExpiry c.2))
    (hs : ∀ k r, s.licenses.find? k = some r → Settled env r) :
    ∀ k r, (after env s calls).licenses.find? k = some r → Settled env r := by
  induction calls generalizing s with
  | nil => exact hs
  | cons c calls ih =>
    obtain ⟨now, call⟩ := c
    have hrest := fun c hc => hgiven c (List.mem_cons_of_mem _ hc)
    show ∀ k r, (after env ((call.commit env now s).toOption.getD s) calls).licenses.find? k = some r → _
    cases hcommit : call.commit env now s with
    | error e => exact ih hrest hs
    | ok t => exact ih hrest (commit_settled hcommit (hgiven _ List.mem_cons_self) hs)

theorem not_unreadable_of_settled {key : String} {record : LicenseRecord}
    (hs : ∀ k r, s.licenses.find? k = some r → Settled env r)
    (h : s.getLicenseByKey env.sha256 key = some record) : ¬ Unreadable env record := by
  rintro ⟨hactive, hunreadable⟩
  obtain ⟨row, hrow, rfl⟩ := Option.map_eq_some_iff.mp h
  rcases hs _ _ hrow with hrevoked | hread
  · have hstatus : row.status = .active := hactive
    rw [hrevoked] at hstatus
    cases hstatus
  · apply hunreadable
    intro text htext
    apply hread text
    simpa [mapLicense, nonEmpty] using htext

/-! ## The admin's command line -/

/-- The flags that have a value, a later one of a name before an earlier one, and those that have none. -/
structure Flags where
  values : List (String × String) := []
  bare : List String := []
  deriving DecidableEq, Repr

def Flags.string (flags : Flags) (name : String) : Option String :=
  (flags.values.find? fun e => e.1 = name).map (·.2)

def Flags.has (flags : Flags) (name : String) : Bool :=
  (flags.string name).isSome || flags.bare.contains name

/-- `arg.slice(2)`, of a text that starts with `--`. -/
def flagName (arg : String) : String := String.ofList (arg.toList.drop 2)

def parseFlags : List String → Flags
  | [] => {}
  | [arg] => if startsWith arg "--" then { bare := [flagName arg] } else {}
  | arg :: next :: rest =>
    if !startsWith arg "--" then parseFlags (next :: rest)
    else if startsWith next "--" then
      let later := parseFlags (next :: rest)
      { later with bare := flagName arg :: later.bare }
    else
      let later := parseFlags rest
      { later with values := later.values ++ [(flagName arg, next)] }

def scopeOf (text : Option String) : Option RepoVisibilityScope :=
  match text with
  | some "public" => some .pub
  | some "private" => some .priv
  | some "all" => some .all
  | _ => none

/-- `cmdIssue` up to its call of the store, given how `Number` reads a text. The store refuses a number that is no
integer as it refuses zero. -/
def cmdIssue (number : String → Option Int) (flags : Flags) : Except String IssueLicenseInput :=
  match nonEmpty (flags.string "plan") with
  | none => .error "issue requires --plan"
  | some plan => match scopeOf (flags.string "scope") with
    | none => .error "issue requires --scope <public|private|all>"
    | some scope => .ok
      { plan := plan
        repoVisibilityScope := scope
        seats := if flags.has "seats" then some (((flags.string "seats").bind number).getD 0) else none
        expiresAt := if flags.has "expires" then flags.string "expires" else none
        privateRepoAllowed :=
          if flags.has "private-repo-allowed" then some (flags.string "private-repo-allowed" ≠ some "false") else none
        updateEntitlement := if flags.has "update-entitlement" then some true else none }

/-- What writes to the licence store: an operation of it, or the admin's `issue` with the key that the store draws. The
admin's other commands that write are operations of the store. -/
inductive Operation where
  | store (call : StoreCall)
  | issue (rawKey : String) (args : List String)

def Operation.call (number : String → Option Int) : Operation → Option StoreCall
  | store call => some call
  | issue rawKey args => (cmdIssue number (parseFlags args)).toOption.map (StoreCall.issueLicense rawKey)

def storeCalls (number : String → Option Int) (operations : List (Int × Operation)) : List (Int × StoreCall) :=
  operations.filterMap fun o => (o.2.call number).map (o.1, ·)

def Operation.givenExpiry : Operation → Option String
  | store call => Broker.givenExpiry call
  | issue _ args => (parseFlags args).string "expires"

theorem Operation.readable_call {number : String → Option Int} {o : Operation} {call : StoreCall}
    (h : o.call number = some call) (hread : Readable env o.givenExpiry) : Readable env (Broker.givenExpiry call) := by
  cases o with
  | store given =>
    obtain rfl := Option.some.inj h
    exact hread
  | issue rawKey args =>
    obtain ⟨input, hinput, rfl⟩ := Option.map_eq_some_iff.mp h
    cases hissue : cmdIssue number (parseFlags args) with
    | error e =>
      rw [hissue] at hinput
      cases hinput
    | ok issued =>
      rw [hissue] at hinput
      obtain rfl := Option.some.inj hinput
      unfold cmdIssue at hissue
      split at hissue
      · cases hissue
      split at hissue
      · cases hissue
      obtain rfl := Except.ok.inj hissue
      show Readable env (if (parseFlags args).has "expires" then (parseFlags args).string "expires" else none)
      split
      · exact hread
      · exact nofun

theorem readable_storeCalls {number : String → Option Int} {operations : List (Int × Operation)}
    (h : ∀ o ∈ operations, Readable env o.2.givenExpiry) :
    ∀ c ∈ storeCalls number operations, Readable env (givenExpiry c.2) := by
  intro c hc
  obtain ⟨o, ho, hmap⟩ := List.mem_filterMap.mp hc
  obtain ⟨call, hcall, rfl⟩ := Option.map_eq_some_iff.mp hmap
  exact Operation.readable_call hcall (h o ho)

/-- At every clock the licence service's activation and validation say the same of a licence, and the broker says that
too, unless the licence is active under an expiry that is no date: the service keeps it alive, the broker has it
expired. Where every expiry that an operation was given is a date or left out, there is no such licence. -/
theorem liveness_read_alike (env : Env) (number : String → Option Int) (operations : List (Int × Operation))
    (now : Int) (req : LicenseRequest) (context : EntitlementResolutionContext) (activationKey : String)
    (record : LicenseRecord)
    (hkey : normalizeActivationKey (some req.licenseKey) = some activationKey)
    (hcontext : context.activationKey = some req.licenseKey)
    (hrecord : (after env {} (storeCalls number operations)).getLicenseByKey env.sha256 req.licenseKey = some record) :
    ∃ served brokered,
      ofServiceResult (activate env now req (after env {} (storeCalls number operations))).1 = some served ∧
      ofServiceResult (validate env now req (after env {} (storeCalls number operations))).1 = some served ∧
      (licenseStoreEntitlement env.sha256 env.dateParse (after env {} (storeCalls number operations)) now
        context).liveness = some brokered ∧
      (served = brokered ↔ ¬ Unreadable env record) ∧
      (Unreadable env record → served = .live ∧ brokered = .expired) ∧
      ((∀ o ∈ operations, Readable env o.2.givenExpiry) → served = brokered) := by
  obtain ⟨hapart, halike⟩ := livenessOf_agree now (nonEmpty_expiresAt_of_key hrecord)
  refine ⟨_, _, activate_liveness now hrecord, validate_liveness now hrecord,
    licenseStoreEntitlement_liveness now hcontext hkey hrecord, ⟨?_, halike⟩, hapart, ?_⟩
  · intro hsame hunreadable
    obtain ⟨hlive, hexpired⟩ := hapart hunreadable
    rw [hlive, hexpired] at hsame
    cases hsame
  · intro hread
    have hsettled := after_settled (s := {}) _ (@readable_storeCalls env number operations hread) nofun
    exact halike (not_unreadable_of_settled hsettled hrecord)

/-- The admin issues a licence under an expiry, and a device asks with it. -/
def issuedUntil (expires : String) : List (Int × Operation) :=
  [(0, .issue "nd_live_1" ["--plan", "yearly", "--scope", "private", "--expires", expires])]

def issuedRow (expires : String) : LicenseRecord :=
  { licenseKeyHash := "nd_live_1", plan := "yearly", repoVisibilityScope := .priv, privateRepoAllowed := true
    updateEntitlement := false, seats := 1, expiresAt := some expires, status := .active }

def deviceRequest : LicenseRequest := ⟨"nd_live_1", some "octo/private", "device-1"⟩

def deviceContext : EntitlementResolutionContext := ⟨"device-1", 1, none, ["octo/private"], some "nd_live_1"⟩

theorem liveness_read_alike_dated :
    ∃ served, ofServiceResult (activate plainEnv 0 deviceRequest
      (after plainEnv {} (storeCalls (fun _ => none) (issuedUntil "2027-01-01T00:00:00.000Z")))).1 = some served := by
  obtain ⟨served, -, hserved, -⟩ := liveness_read_alike plainEnv (fun _ => none)
    (issuedUntil "2027-01-01T00:00:00.000Z") 0 deviceRequest deviceContext "nd_live_1"
    (issuedRow "2027-01-01T00:00:00.000Z") (by decide +kernel) rfl (by decide +kernel)
  exact ⟨served, hserved⟩

/-- An expiry that is no date: the device activates, and the broker has the licence expired. -/
theorem undated_read_apart :
    ofServiceResult (activate plainEnv 0 deviceRequest
      (after plainEnv {} (storeCalls (fun _ => none) (issuedUntil "not-a-timestamp")))).1 = some .live ∧
    (licenseStoreEntitlement plainEnv.sha256 plainEnv.dateParse
      (after plainEnv {} (storeCalls (fun _ => none) (issuedUntil "not-a-timestamp"))) 0 deviceContext).liveness =
        some .expired := by
  constructor <;> decide +kernel

end NeonDiff.Broker
