import NeonDiff.License.Entitlement
import NeonDiff.License.Service

/-! # The seats of a licence -/

namespace NeonDiff.License

open NeonDiff.Lib

variable {env : Env} {s t : Licenses} {now : Int} {req : LicenseRequest}

/-! ## What an endpoint did -/

theorem expiryTime_mapLicense (r : LicenseRecord) : expiryTime env (mapLicense r) = expiryTime env r := by
  unfold expiryTime mapLicense nonEmpty
  cases r.expiresAt with
  | none => rfl
  | some text => by_cases h : text = "" <;> simp [h]

/-- The stored licence of a request, active and unexpired. -/
structure Usable (env : Env) (s : Licenses) (licenseKey : String) (now : Int) (row : LicenseRecord) : Prop where
  found : s.licenses.find? (Licenses.hashLicenseKey env.sha256 licenseKey) = some row
  active : row.status = .active
  unexpired : ∀ expiresAt, expiryTime env row = some expiresAt → now < expiresAt

theorem resolveActiveLicense_ok {record : LicenseRecord} (h : resolveActiveLicense env s req now = .ok record) :
    ∃ row, Usable env s req.licenseKey now row ∧ record = mapLicense row := by
  unfold resolveActiveLicense at h
  split at h
  · cases h
  · rename_i found hfound
    obtain ⟨row, hrow, rfl⟩ := Option.map_eq_some_iff.mp hfound
    split_ifs at h with hrevoked hexpired
    obtain rfl := Except.ok.inj h
    simp only [Bool.or_eq_true, decide_eq_true_eq, not_or] at hexpired
    refine ⟨row, ⟨hrow, ?_, ?_⟩, rfl⟩
    · cases hstatus : row.status with
      | active => rfl
      | revoked => exact absurd hstatus hrevoked
      | expired => exact absurd hstatus hexpired.1
    · intro expiresAt hexpires
      rw [← expiryTime_mapLicense] at hexpires
      have hnot := hexpired.2
      unfold isExpired at hnot
      unfold expiryTime at hexpires
      rw [hexpires] at hnot
      simpa using hnot

theorem resolveActiveLicense_error {denial : ServiceResult} (h : resolveActiveLicense env s req now = .error denial) :
    denial.httpStatus ≠ 200 := by
  unfold resolveActiveLicense at h
  split at h
  · obtain rfl := Except.error.inj h
    simp [invalidResult]
  · split_ifs at h
    · obtain rfl := Except.error.inj h
      simp [revokedResult]
    · obtain rfl := Except.error.inj h
      simp [expiredResult]

theorem isActive_httpStatus {result : ServiceResult} (h : result.isActive = true) : result.httpStatus = 200 := by
  unfold ServiceResult.isActive at h
  split at h
  · split at h
    · rw [Bool.and_eq_true, decide_eq_true_eq] at h
      exact h.1
    · cases h
  · cases h

/-- What an activation does: it is denied, or its device keeps or takes a seat of a usable licence. -/
inductive Activated (env : Env) (now : Int) (req : LicenseRequest) (s : Licenses) : ServiceResult × Licenses → Prop
  | denied (result : ServiceResult) (status : result.httpStatus ≠ 200) : Activated env now req s (result, s)
  | seated (row : LicenseRecord) (usable : Usable env s req.licenseKey now row)
      (room : s.activations.find? (row.licenseKeyHash, req.machineId) = none →
        (s.countActivations row.licenseKeyHash : Int) < row.seats) :
      Activated env now req s (activeEntitlementBody (mapLicense row),
        upsertActivation row.licenseKeyHash req.machineId req.repo (IsoDate.toISOString now) s)

theorem activate_cases {run : ServiceResult × Licenses} (h : activate env now req s = run) : Activated env now req s run := by
  subst h
  unfold activate
  split
  · rename_i denial hdenial
    exact .denied denial (resolveActiveLicense_error hdenial)
  · rename_i record hrecord
    obtain ⟨row, husable, rfl⟩ := resolveActiveLicense_ok hrecord
    dsimp only
    split
    · rename_i existing hexisting
      have hseated : Activated env now req s (activeEntitlementBody (mapLicense row),
          upsertActivation row.licenseKeyHash req.machineId req.repo (IsoDate.toISOString now) s) := by
        refine .seated row husable ?_
        intro hnone
        obtain ⟨activation, hactivation, -⟩ := Option.map_eq_some_iff.mp hexisting
        exact absurd (hnone.symm.trans hactivation) (by simp)
      split
      · split
        · exact .denied _ (by simp [repositoryBindingMismatchResult])
        · exact hseated
      · exact hseated
    · split
      · exact .denied _ (by simp [seatExhaustedResult])
      · rename_i hroom
        exact .seated row husable fun _ => not_le.mp hroom

inductive Validated (env : Env) (now : Int) (req : LicenseRequest) (s : Licenses) : ServiceResult × Licenses → Prop
  | denied (result : ServiceResult) (status : result.httpStatus ≠ 200) : Validated env now req s (result, s)
  | seated (row : LicenseRecord) (activation : ActivationRecord) (usable : Usable env s req.licenseKey now row)
      (found : s.activations.find? (row.licenseKeyHash, req.machineId) = some activation) :
      Validated env now req s (activeEntitlementBody (mapLicense row),
        touchActivation row.licenseKeyHash req.machineId (IsoDate.toISOString now) s)

theorem validate_cases {run : ServiceResult × Licenses} (h : validate env now req s = run) : Validated env now req s run := by
  subst h
  unfold validate
  split
  · rename_i denial hdenial
    exact .denied denial (resolveActiveLicense_error hdenial)
  · rename_i record hrecord
    obtain ⟨row, husable, rfl⟩ := resolveActiveLicense_ok hrecord
    split
    · exact .denied _ (by simp [seatExhaustedResult])
    · rename_i found hfound
      obtain ⟨activation, hactivation, -⟩ := Option.map_eq_some_iff.mp hfound
      exact .seated row activation husable hactivation

inductive Deactivated (req : LicenseRequest) (s : Licenses) : ServiceResult × Licenses → Prop
  | denied (result : ServiceResult) (status : result.httpStatus ≠ 200) : Deactivated req s (result, s)
  | removed (record : LicenseRecord) :
      Deactivated req s (deactivatedResult record, removeActivation record.licenseKeyHash req.machineId s)

theorem deactivate_cases {run : ServiceResult × Licenses} (h : deactivate env req s = run) : Deactivated req s run := by
  subst h
  unfold deactivate
  split
  · exact .denied _ (by simp [invalidResult])
  · rename_i record _
    exact .removed record

/-! ## Activations and their counts -/

/-- The row that `upsertActivation` writes. -/
def activatedRow (hash machine : String) (repo : Option String) (now : String) (s : Licenses) : ActivationRecord :=
  (s.activations.find? (hash, machine)).elim ⟨hash, machine, repo, now, now⟩
    fun row => { row with repo := row.repo.or repo, lastSeenAt := now }

theorem activatedRow_key (hash machine : String) (repo : Option String) (now : String) (s : Licenses) :
    (activatedRow hash machine repo now s).key = (hash, machine) := by
  unfold activatedRow
  cases hfind : s.activations.find? (hash, machine) with
  | none => rfl
  | some row => exact (Table.key_of_find? hfind : row.key = _)

theorem find_upsertActivation (hash machine : String) (repo : Option String) (now : String) (s : Licenses)
    (k : String × String) :
    (upsertActivation hash machine repo now s).activations.find? k =
      if (hash, machine) = k then some (activatedRow hash machine repo now s) else s.activations.find? k := by
  have hfind := Table.find?_upsert s.activations (activatedRow hash machine repo now s) k
  simp only [activatedRow_key] at hfind
  exact hfind

theorem countActivations_upsert (hash machine : String) (repo : Option String) (now : String) (s : Licenses)
    (k : String) :
    (upsertActivation hash machine repo now s).countActivations k =
      s.countActivations k + if s.activations.find? (hash, machine) = none ∧ hash = k then 1 else 0 := by
  have hcount := Table.countP_upsert s.activations (activatedRow hash machine repo now s) fun key => key.1 = k
  simp only [activatedRow_key, decide_eq_true_eq] at hcount
  exact hcount

theorem touched_key (hash machine now : String) (row : ActivationRecord) :
    (if row.key = (hash, machine) then { row with lastSeenAt := now } else row).key = row.key := by
  split
  · rfl
  · rfl

theorem countActivations_touch (hash machine now : String) (s : Licenses) (k : String) :
    (touchActivation hash machine now s).countActivations k = s.countActivations k :=
  Table.countP_update s.activations _ (touched_key hash machine now) fun key => key.1 = k

theorem find_touchActivation (hash machine now : String) (s : Licenses) (k : String × String) :
    (touchActivation hash machine now s).activations.find? k =
      (s.activations.find? k).map fun row => if row.key = (hash, machine) then { row with lastSeenAt := now } else row :=
  Table.find?_update s.activations _ (touched_key hash machine now) k

theorem find_removeActivation (hash machine : String) (s : Licenses) (k : String × String) :
    (removeActivation hash machine s).activations.find? k =
      (s.activations.find? k).filter fun row => !decide (row.key = (hash, machine)) :=
  Table.find?_delete s.activations _ k

theorem countActivations_remove (hash machine : String) (s : Licenses) (k : String) :
    (removeActivation hash machine s).countActivations k ≤ s.countActivations k := by
  unfold removeActivation Licenses.countActivations
  exact Table.countP_delete_le s.activations _ fun key => key.1 = k

/-! ## Seats -/

/-- A licence has no more activations than seats, and what is no licence has none. -/
def Seated (s : Licenses) : Prop :=
  ∀ hash, (s.countActivations hash : Int) ≤ (s.licenses.find? hash).elim 0 (·.seats)

theorem seated_activate (hs : Seated s) : Seated (activate env now req s).2 := by
  generalize hrun : activate env now req s = run
  cases activate_cases hrun with
  | denied result status => exact hs
  | seated row usable room =>
    intro hash
    have hle := hs hash
    rw [countActivations_upsert]
    split
    · rename_i hnew
      obtain ⟨hnone, rfl⟩ := hnew
      have hroom := room hnone
      have hhash : row.licenseKeyHash = Licenses.hashLicenseKey env.sha256 req.licenseKey :=
        Table.key_of_find? usable.found
      have hfound : s.licenses.find? row.licenseKeyHash = some row := hhash ▸ usable.found
      show ((s.countActivations row.licenseKeyHash + 1 : Nat) : Int) ≤
        (s.licenses.find? row.licenseKeyHash).elim 0 (·.seats)
      rw [hfound, Option.elim_some]
      omega
    · exact hle

theorem seated_validate (hs : Seated s) : Seated (validate env now req s).2 := by
  generalize hrun : validate env now req s = run
  cases validate_cases hrun with
  | denied result status => exact hs
  | seated row activation usable found =>
    intro hash
    rw [countActivations_touch]
    exact hs hash

theorem seated_deactivate (hs : Seated s) : Seated (deactivate env req s).2 := by
  generalize hrun : deactivate env req s = run
  cases deactivate_cases hrun with
  | denied result status => exact hs
  | removed record =>
    intro hash
    have hle := countActivations_remove record.licenseKeyHash req.machineId s hash
    have hseats := hs hash
    show ((removeActivation record.licenseKeyHash req.machineId s).countActivations hash : Int) ≤
      (s.licenses.find? hash).elim 0 (·.seats)
    omega

theorem seated_commit {call : StoreCall} (h : call.commit env now s = .ok t) (hdevice : call.ofDevice = false)
    (hs : Seated s) : Seated t := by
  intro hash
  have hle := hs hash
  have hactivations := (commit_write h).2 hdevice
  have hcount : t.countActivations hash = s.countActivations hash := by
    unfold Licenses.countActivations
    rw [hactivations]
  rw [hcount]
  cases hfind : s.licenses.find? hash with
  | some row =>
    obtain ⟨row', hrow', hchange⟩ := commit_change h hfind
    rw [hfind, Option.elim_some] at hle
    rw [hrow', Option.elim_some, hchange.lasts.seats]
    exact hle
  | none =>
    rw [hfind, Option.elim_none] at hle
    cases hnew : t.licenses.find? hash with
    | none => exact hle
    | some row =>
      have hseats := commit_fresh h hfind hnew
      rw [Option.elim_some]
      omega

theorem seated_run (call : ServiceCall) (hs : Seated s) : Seated (call.run env now s).2 := by
  cases call with
  | activate req => exact seated_activate hs
  | validate req => exact seated_validate hs
  | deactivate req => exact seated_deactivate hs
  | store call notOfDevice =>
    show Seated ((call.commit env now s).toOption.getD s)
    cases hcommit : call.commit env now s with
    | error e => exact hs
    | ok t => exact seated_commit hcommit notOfDevice hs

/-! ## The repository of a machine -/

def Bound (s : Licenses) (k : String × String) (repo : String) : Prop :=
  ∃ row, s.activations.find? k = some row ∧ row.repo = some repo

theorem bound_run {call : ServiceCall} {k : String × String} {repo : String} (h : Bound s k repo)
    (hstays : (call.run env now s).2.activations.find? k ≠ none) : Bound (call.run env now s).2 k repo := by
  obtain ⟨row, hrow, hrepo⟩ := h
  cases call with
  | activate req =>
    generalize hrun : activate env now req s = run
    show Bound (activate env now req s).2 k repo
    rw [hrun]
    cases activate_cases hrun with
    | denied result status => exact ⟨row, hrow, hrepo⟩
    | seated licence usable room =>
      unfold Bound
      rw [find_upsertActivation]
      split
      · rename_i hk
        rw [← hk] at hrow
        refine ⟨_, rfl, ?_⟩
        unfold activatedRow
        rw [hrow, Option.elim_some, hrepo]
        rfl
      · exact ⟨row, hrow, hrepo⟩
  | validate req =>
    generalize hrun : validate env now req s = run
    show Bound (validate env now req s).2 k repo
    rw [hrun]
    cases validate_cases hrun with
    | denied result status => exact ⟨row, hrow, hrepo⟩
    | seated licence activation usable found =>
      unfold Bound
      rw [find_touchActivation, hrow]
      refine ⟨_, rfl, ?_⟩
      dsimp only
      split
      · exact hrepo
      · exact hrepo
  | deactivate req =>
    generalize hrun : deactivate env req s = run
    have hstays : (deactivate env req s).2.activations.find? k ≠ none := hstays
    show Bound (deactivate env req s).2 k repo
    rw [hrun] at hstays ⊢
    cases deactivate_cases hrun with
    | denied result status => exact ⟨row, hrow, hrepo⟩
    | removed record =>
      unfold Bound
      dsimp only at hstays ⊢
      rw [find_removeActivation, hrow, Option.filter_some] at hstays ⊢
      split at hstays
      · rename_i hother
        rw [if_pos hother]
        exact ⟨row, rfl, hrepo⟩
      · exact absurd rfl hstays
  | store call notOfDevice =>
    show Bound ((call.commit env now s).toOption.getD s) k repo
    cases hcommit : call.commit env now s with
    | error e => exact ⟨row, hrow, hrepo⟩
    | ok t =>
      show Bound t k repo
      unfold Bound
      rw [(commit_write hcommit).2 notOfDevice]
      exact ⟨row, hrow, hrepo⟩

theorem bound_serve {k : String × String} {repo : String} (calls : List (Int × ServiceCall)) (h : Bound s k repo)
    (hstays : ∀ front, front <+: calls → (serve env s front).activations.find? k ≠ none) :
    Bound (serve env s calls) k repo := by
  induction calls generalizing s with
  | nil => exact h
  | cons call calls ih =>
    apply ih
    · apply bound_run h
      exact hstays [call] (List.prefix_append [call] calls)
    · intro front hfront
      exact hstays (call :: front) (List.cons_prefix_cons.mpr ⟨rfl, hfront⟩)

/-! ## Runs -/

theorem serve_append (s : Licenses) (calls more : List (Int × ServiceCall)) :
    serve env s (calls ++ more) = serve env (serve env s calls) more := by
  induction calls generalizing s with
  | nil => rfl
  | cons call calls ih => exact ih _

theorem seated_serve (calls : List (Int × ServiceCall)) (hs : Seated s) : Seated (serve env s calls) := by
  induction calls generalizing s with
  | nil => exact hs
  | cons call calls ih => exact ih (seated_run call.2 hs)

/-- An active answer to an activation or a validation: the licence is usable and the machine is activated. -/
def Served (env : Env) (t : Licenses) (req : LicenseRequest) (now : Int) : Prop :=
  ∃ row, Usable env t req.licenseKey now row ∧ ∃ activation,
    t.getActivation row.licenseKeyHash req.machineId = some activation

theorem activate_active (h : (activate env now req s).1.isActive = true) :
    Served env (activate env now req s).2 req now := by
  generalize hrun : activate env now req s = run at h
  cases activate_cases hrun with
  | denied result status => exact absurd (isActive_httpStatus h) status
  | seated row usable room =>
    refine ⟨row, ⟨usable.found, usable.active, usable.unexpired⟩, mapActivation (activatedRow row.licenseKeyHash
      req.machineId req.repo (IsoDate.toISOString now) s), ?_⟩
    unfold Licenses.getActivation
    dsimp only
    rw [find_upsertActivation, if_pos rfl, Option.map_some]

theorem validate_active (h : (validate env now req s).1.isActive = true) :
    Served env (validate env now req s).2 req now := by
  generalize hrun : validate env now req s = run at h
  cases validate_cases hrun with
  | denied result status => exact absurd (isActive_httpStatus h) status
  | seated row activation usable found =>
    refine ⟨row, ⟨usable.found, usable.active, usable.unexpired⟩, Option.isSome_iff_exists.mp ?_⟩
    unfold Licenses.getActivation
    dsimp only
    rw [find_touchActivation, found]
    rfl

theorem run_denied {call : ServiceCall} {result : ServiceResult} (h : (call.run env now s).1 = some result)
    (hdenied : result.httpStatus ≠ 200) : (call.run env now s).2 = s := by
  cases call with
  | activate req =>
    generalize hrun : activate env now req s = run
    have hresult : (activate env now req s).1 = result := Option.some.inj h
    show (activate env now req s).2 = s
    rw [hrun] at hresult ⊢
    cases activate_cases hrun with
    | denied => rfl
    | seated => exact absurd (hresult ▸ rfl : result.httpStatus = 200) hdenied
  | validate req =>
    generalize hrun : validate env now req s = run
    have hresult : (validate env now req s).1 = result := Option.some.inj h
    show (validate env now req s).2 = s
    rw [hrun] at hresult ⊢
    cases validate_cases hrun with
    | denied => rfl
    | seated => exact absurd (hresult ▸ rfl : result.httpStatus = 200) hdenied
  | deactivate req =>
    generalize hrun : deactivate env req s = run
    have hresult : (deactivate env req s).1 = result := Option.some.inj h
    show (deactivate env req s).2 = s
    rw [hrun] at hresult ⊢
    cases deactivate_cases hrun with
    | denied => rfl
    | removed => exact absurd (hresult ▸ rfl : result.httpStatus = 200) hdenied
  | store call notOfDevice => cases h

/-- Over every run of the service: no licence has more activations than seats, an activation keeps the repository it
is bound to for as long as it exists, an active answer is given to an activated machine of an active and unexpired
licence only, and a denial changes nothing. -/
theorem seats_are_kept (env : Env) (calls : List (Int × ServiceCall)) :
    (∀ hash row, (serve env {} calls).licenses.find? hash = some row →
      ((serve env {} calls).countActivations hash : Int) ≤ row.seats) ∧
    (∀ (more : List (Int × ServiceCall)) (hash machine repo : String) (activation later : ActivationRecord),
      (serve env {} calls).getActivation hash machine = some activation → activation.repo = some repo →
      (∀ front, front <+: more → (serve env {} (calls ++ front)).getActivation hash machine ≠ none) →
      (serve env {} (calls ++ more)).getActivation hash machine = some later → later.repo = some repo) ∧
    (∀ (now : Int) (req : LicenseRequest),
      ((activate env now req (serve env {} calls)).1.isActive = true →
        Served env (activate env now req (serve env {} calls)).2 req now) ∧
      ((validate env now req (serve env {} calls)).1.isActive = true →
        Served env (validate env now req (serve env {} calls)).2 req now)) ∧
    (∀ (now : Int) (call : ServiceCall) (result : ServiceResult),
      (call.run env now (serve env {} calls)).1 = some result → result.httpStatus ≠ 200 →
      (call.run env now (serve env {} calls)).2 = serve env {} calls) := by
  refine ⟨?_, ?_, ?_, ?_⟩
  · intro hash row hrow
    have hseated : Seated (serve env {} calls) := seated_serve calls fun hash => le_refl _
    have hle := hseated hash
    rw [hrow] at hle
    exact hle
  · intro more hash machine repo activation later hactivation hrepo hstays hlater
    obtain ⟨row, hrow, rfl⟩ := Option.map_eq_some_iff.mp hactivation
    obtain ⟨row', hrow', rfl⟩ := Option.map_eq_some_iff.mp hlater
    have hfilter := Option.mem_filter_iff.mp hrepo
    have hbound : Bound (serve env (serve env {} calls) more) (hash, machine) repo := by
      apply bound_serve more ⟨row, hrow, hfilter.1⟩
      intro front hfront hnone
      apply hstays front hfront
      rw [serve_append, Licenses.getActivation, hnone]
      rfl
    rw [← serve_append] at hbound
    obtain ⟨found, hfound, hlater⟩ := hbound
    obtain rfl := Option.some.inj (hrow'.symm.trans hfound)
    exact Option.mem_filter_iff.mpr ⟨hlater, hfilter.2⟩
  · intro now req
    exact ⟨activate_active, validate_active⟩
  · intro now call result h hdenied
    exact run_denied h hdenied

/-- A licence with one seat, and the machine that takes it. -/
def seatedCalls : List (Int × ServiceCall) :=
  [(1700000000000, .store (.issueLicense "nd_live_1" { plan := "monthly_support", repoVisibilityScope := .priv }) rfl),
    (1700000001000, .activate ⟨"nd_live_1", some "octo/cat", "machine-1"⟩)]

def seatedRow : LicenseRecord :=
  { licenseKeyHash := "nd_live_1", plan := "monthly_support", repoVisibilityScope := .priv, privateRepoAllowed := true
    updateEntitlement := false, seats := 1, status := .active }

def seatedActivation : ActivationRecord :=
  { licenseKeyHash := "nd_live_1", machineId := "machine-1", repo := some "octo/cat"
    activatedAt := "2023-11-14T22:13:21.000Z", lastSeenAt := "2023-11-14T22:13:21.000Z" }

/-- The machine validates its seat again, and a second machine is refused. -/
theorem seats_are_kept_one_seat :
    ((serve plainEnv {} seatedCalls).countActivations "nd_live_1" : Int) ≤ 1 ∧
    ({ seatedActivation with lastSeenAt := "2023-11-14T22:13:22.000Z" } : ActivationRecord).repo = some "octo/cat" ∧
    Served plainEnv (validate plainEnv 1700000002000 ⟨"nd_live_1", none, "machine-1"⟩
      (serve plainEnv {} seatedCalls)).2 ⟨"nd_live_1", none, "machine-1"⟩ 1700000002000 ∧
    (ServiceCall.run plainEnv 1700000002000 (serve plainEnv {} seatedCalls)
      (.activate ⟨"nd_live_1", none, "machine-2"⟩)).2 = serve plainEnv {} seatedCalls := by
  obtain ⟨hseats, hrepo, hactive, hdenied⟩ := seats_are_kept plainEnv seatedCalls
  refine ⟨?_, ?_, ?_, ?_⟩
  · exact hseats "nd_live_1" seatedRow (by decide +kernel)
  · apply hrepo [(1700000002000, .validate ⟨"nd_live_1", none, "machine-1"⟩)] "nd_live_1" "machine-1" "octo/cat"
      seatedActivation _ (by decide +kernel) rfl
    · intro front hfront
      rcases List.prefix_cons_iff.mp hfront with rfl | ⟨rest, rfl, hrest⟩
      · decide +kernel
      · obtain rfl := List.prefix_nil.mp hrest
        decide +kernel
    · decide +kernel
  · exact (hactive 1700000002000 ⟨"nd_live_1", none, "machine-1"⟩).2 (by decide +kernel)
  · exact hdenied 1700000002000 (.activate ⟨"nd_live_1", none, "machine-2"⟩) (seatExhaustedResult seatedRow) rfl
      (by decide)

end NeonDiff.License
