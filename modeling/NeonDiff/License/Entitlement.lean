import NeonDiff.License.Changes
import NeonDiff.License.Confluence

/-! # How long a licence lasts -/

namespace NeonDiff.License

open NeonDiff.Lib

variable {env : Env} {s t : Licenses} {r r' r'' : LicenseRecord}

def expiryTime (env : Env) (r : LicenseRecord) : Option Int := (nonEmpty r.expiresAt).bind env.dateParse

theorem expiryTime_iso {ms : Int} (hms : IsoDate.isTime ms = true)
    (h : r.expiresAt = some (IsoDate.toISOString ms)) : expiryTime env r = some ms := by
  have hkeep : nonEmpty r.expiresAt = some (IsoDate.toISOString ms) := by
    simp [h, nonEmpty, IsoDate.toISOString_ne_empty]
  unfold expiryTime
  rw [hkeep, Option.bind_some, Env.dateParse, IsoDate.dateParse_toISOString _ hms]

/-- What becomes of a licence: what it entitles to stays, a revocation is final with its expiry, and before one the
expiry is never brought forward. -/
structure Lasts (env : Env) (r r' : LicenseRecord) : Prop where
  plan : r'.plan = r.plan
  scope : r'.repoVisibilityScope = r.repoVisibilityScope ∧ r'.privateRepoAllowed = r.privateRepoAllowed
  seats : r'.seats = r.seats
  updates : r'.updateEntitlement = r.updateEntitlement
  revoked : r.status = .revoked → r'.status = .revoked ∧ r'.expiresAt = r.expiresAt
  expiry : r'.status ≠ .revoked → r'.expiresAt = r.expiresAt ∨
    ∃ a b, expiryTime env r = some a ∧ expiryTime env r' = some b ∧ a ≤ b

namespace Lasts

theorem refl (r : LicenseRecord) : Lasts env r r := ⟨rfl, ⟨rfl, rfl⟩, rfl, rfl, fun h => ⟨h, rfl⟩, fun _ => .inl rfl⟩

theorem expiryTime_eq (h : r'.expiresAt = r.expiresAt) : expiryTime env r' = expiryTime env r := by
  unfold expiryTime
  rw [h]

theorem trans (h : Lasts env r r') (h' : Lasts env r' r'') : Lasts env r r'' := by
  refine ⟨h'.plan.trans h.plan, ⟨h'.scope.1.trans h.scope.1, h'.scope.2.trans h.scope.2⟩, h'.seats.trans h.seats,
    h'.updates.trans h.updates, ?_, ?_⟩
  · intro hrevoked
    obtain ⟨hrevoked', hsame⟩ := h.revoked hrevoked
    obtain ⟨hrevoked'', hsame'⟩ := h'.revoked hrevoked'
    exact ⟨hrevoked'', hsame'.trans hsame⟩
  · intro halive
    have halive' : r'.status ≠ .revoked := fun hrevoked => halive (h'.revoked hrevoked).1
    rcases h.expiry halive' with hsame | ⟨a, b, ha, hb, hab⟩
    · rcases h'.expiry halive with hsame' | ⟨b, c, hb, hc, hbc⟩
      · exact .inl (hsame'.trans hsame)
      · rw [expiryTime_eq hsame] at hb
        exact .inr ⟨b, c, hb, hc, hbc⟩
    · rcases h'.expiry halive with hsame' | ⟨b', c, hb', hc, hbc⟩
      · rw [← expiryTime_eq hsame'] at hb
        exact .inr ⟨a, b, ha, hb, hab⟩
      · obtain rfl := Option.some.inj (hb.symm.trans hb')
        exact .inr ⟨a, c, ha, hc, hab.trans hbc⟩

end Lasts

theorem LicenseChange.lasts {now : Int} {call : StoreCall} (h : LicenseChange env now call r r') : Lasts env r r' := by
  cases h with
  | same => exact .refl r
  | renewed input fingerprint amount periodEnd stored incoming applied detail alive old paid time =>
    refine ⟨rfl, ⟨rfl, rfl⟩, rfl, rfl, fun hrevoked => absurd hrevoked alive, fun _ => .inr ?_⟩
    exact ⟨stored, max stored incoming, old, expiryTime_iso time rfl, le_max_left _ _⟩
  | revoked input applied detail alive =>
    exact ⟨rfl, ⟨rfl, rfl⟩, rfl, rfl, fun hrevoked => absurd hrevoked alive, fun halive => absurd rfl halive⟩
  | revokedByAdmin rawKey reason applied =>
    exact ⟨rfl, ⟨rfl, rfl⟩, rfl, rfl, fun _ => ⟨rfl, rfl⟩, fun halive => absurd rfl halive⟩

theorem validatePaidPeriodEnd_le {periodEnd plan : String} {now incoming : Int}
    (h : validatePaidPeriodEnd env periodEnd plan now = .ok incoming) :
    ∃ days, maximumPeriodDaysForPlan plan = .ok days ∧ incoming ≤ now + days * 24 * 60 * 60 * 1000 := by
  unfold validatePaidPeriodEnd at h
  dsimp only at h
  split at h
  · cases h
  split at h
  · cases h
  obtain ⟨_, -, h⟩ := bind_eq_ok h
  obtain ⟨days, hdays, h⟩ := bind_eq_ok h
  obtain ⟨_, hle, h⟩ := bind_eq_ok h
  obtain rfl := Except.ok.inj h
  rw [require_eq_ok, decide_eq_true_eq] at hle
  exact ⟨days, hdays, hle⟩

theorem LicenseChange.renewal {now : Int} {call : StoreCall} (h : LicenseChange env now call r r')
    (halive : r'.status ≠ .revoked) (hother : r'.expiresAt ≠ r.expiresAt) :
    ∃ input a b, call = .applyCheckoutSubscriptionLifecycle input ∧ input.detail.command = .renewPaid ∧
      expiryTime env r = some a ∧ expiryTime env r' = some b ∧ a ≤ b ∧
      (a < b → ∃ days, maximumPeriodDaysForPlan r.plan = .ok days ∧ b ≤ now + days * 24 * 60 * 60 * 1000) := by
  cases h with
  | same => exact absurd rfl hother
  | renewed input fingerprint amount periodEnd stored incoming applied detail alive old paid time =>
    refine ⟨input, stored, max stored incoming, applied, by rw [detail]; rfl, old, expiryTime_iso time rfl,
      le_max_left _ _, ?_⟩
    intro hlt
    obtain ⟨days, hdays, hle⟩ := validatePaidPeriodEnd_le paid
    exact ⟨days, hdays, by omega⟩
  | revoked => exact absurd rfl halive
  | revokedByAdmin => exact absurd rfl halive

/-! ## Runs -/

theorem after_append (s : Licenses) (calls more : List (Int × StoreCall)) :
    after env s (calls ++ more) = after env (after env s calls) more := by
  induction calls generalizing s with
  | nil => rfl
  | cons call calls ih => exact ih _

theorem after_one_of_ok {now : Int} {call : StoreCall} (h : call.commit env now s = .ok t) :
    after env s [(now, call)] = t := by
  simp [after, h, Except.toOption]

theorem after_one_of_error {now : Int} {call : StoreCall} {e : StoreError} (h : call.commit env now s = .error e) :
    after env s [(now, call)] = s := by
  simp [after, h, Except.toOption]

theorem after_lasts (calls : List (Int × StoreCall)) {hash : String} (hr : s.licenses.find? hash = some r) :
    ∃ r', (after env s calls).licenses.find? hash = some r' ∧ Lasts env r r' := by
  induction calls generalizing s r with
  | nil => exact ⟨r, hr, .refl r⟩
  | cons call calls ih =>
    obtain ⟨now, call⟩ := call
    cases hcommit : call.commit env now s with
    | error e =>
      have hafter : after env s ((now, call) :: calls) = after env s calls := by
        simp [after, hcommit, Except.toOption]
      rw [hafter]
      exact ih hr
    | ok t =>
      have hafter : after env s ((now, call) :: calls) = after env t calls := by
        simp [after, hcommit, Except.toOption]
      obtain ⟨mid, hmid, hchange⟩ := commit_change hcommit hr
      obtain ⟨r', hr', hlasts⟩ := ih hmid
      rw [hafter]
      exact ⟨r', hr', hchange.lasts.trans hlasts⟩

/-- Over every run a licence keeps what it entitles to, stays revoked with its expiry once it is revoked, and before
that expires no earlier than it did; each step that moves the expiry of a living licence is an accepted paid renewal
and moves it to within the plan's longest period from the step's clock; and a call that throws changes nothing. -/
theorem entitlement_lasts (env : Env) :
    (∀ (calls more : List (Int × StoreCall)) (hash : String) (r : LicenseRecord),
      (after env {} calls).licenses.find? hash = some r →
      ∃ r', (after env {} (calls ++ more)).licenses.find? hash = some r' ∧
        r'.plan = r.plan ∧ r'.repoVisibilityScope = r.repoVisibilityScope ∧
        r'.privateRepoAllowed = r.privateRepoAllowed ∧ r'.seats = r.seats ∧
        r'.updateEntitlement = r.updateEntitlement ∧
        (r.status = .revoked → r'.status = .revoked ∧ r'.expiresAt = r.expiresAt) ∧
        (r'.status ≠ .revoked → r'.expiresAt = r.expiresAt ∨
          ∃ a b, expiryTime env r = some a ∧ expiryTime env r' = some b ∧ a ≤ b)) ∧
    (∀ (calls : List (Int × StoreCall)) (now : Int) (call : StoreCall) (hash : String) (r r' : LicenseRecord),
      (after env {} calls).licenses.find? hash = some r →
      (after env {} (calls ++ [(now, call)])).licenses.find? hash = some r' →
      r'.status ≠ .revoked → r'.expiresAt ≠ r.expiresAt →
      ∃ input t a b, call = .applyCheckoutSubscriptionLifecycle input ∧ input.detail.command = .renewPaid ∧
        call.commit env now (after env {} calls) = .ok t ∧
        expiryTime env r = some a ∧ expiryTime env r' = some b ∧ a ≤ b ∧
        (a < b → ∃ days, maximumPeriodDaysForPlan r.plan = .ok days ∧ b ≤ now + days * 24 * 60 * 60 * 1000)) ∧
    (∀ (calls : List (Int × StoreCall)) (now : Int) (call : StoreCall) (e : StoreError),
      call.commit env now (after env {} calls) = .error e →
      after env {} (calls ++ [(now, call)]) = after env {} calls) := by
  refine ⟨?_, ?_, ?_⟩
  · intro calls more hash r hr
    rw [after_append]
    obtain ⟨r', hr', hlasts⟩ := after_lasts more hr
    exact ⟨r', hr', hlasts.plan, hlasts.scope.1, hlasts.scope.2, hlasts.seats, hlasts.updates, hlasts.revoked,
      hlasts.expiry⟩
  · intro calls now call hash r r' hr hr' halive hother
    rw [after_append] at hr'
    cases hcommit : call.commit env now (after env {} calls) with
    | error e =>
      rw [after_one_of_error hcommit, hr] at hr'
      obtain rfl := Option.some.inj hr'
      exact absurd rfl hother
    | ok t =>
      rw [after_one_of_ok hcommit] at hr'
      obtain ⟨later, hlater, hchange⟩ := commit_change hcommit hr
      obtain rfl := Option.some.inj (hlater.symm.trans hr')
      obtain ⟨input, a, b, hcall, hrenew, ha, hb, hab, hle⟩ := hchange.renewal halive hother
      exact ⟨input, t, a, b, hcall, hrenew, rfl, ha, hb, hab, hle⟩
  · intro calls now call e hcommit
    rw [after_append, after_one_of_error hcommit]

/-- The first payment of the trial's subscription. -/
def trialRenewal : Int × StoreCall :=
  (1700000100000, .applyCheckoutSubscriptionLifecycle
    { trialCommon "evt_1" 1700000010 with
      cancelAtPeriodEnd := false, providerEventType := .invoicePaid, subscriptionStatus := .active
      detail := .renewPaid "pi_1" 1900 "2023-12-14T22:13:20.000Z" })

def renewedRow : LicenseRecord := { trialRow with expiresAt := some "2023-12-14T22:13:20.000Z" }

/-- The trial's checkout under another product. -/
def conflictingCheckout : StoreCall :=
  .issueBoundCheckoutLicense "nd_live_1"
    ⟨"checkout-session:cs_1", "neondiff_yearly", ⟨"stripe", "acct_1", "test", "sub_1", "cs_1"⟩⟩

/-- The payment renews the trial within its plan's longest period, and a conflicting checkout changes nothing. -/
theorem entitlement_lasts_renewed :
    (∃ r', (after plainEnv {} (trialCalls ++ [trialRenewal])).licenses.find? "nd_live_1" = some r' ∧
      r'.seats = trialRow.seats) ∧
    (∃ a b, expiryTime plainEnv trialRow = some a ∧ expiryTime plainEnv renewedRow = some b ∧ a ≤ b) ∧
    after plainEnv {} (trialCalls ++ [(1700000100000, conflictingCheckout)]) = after plainEnv {} trialCalls := by
  obtain ⟨hlasts, hrenews, hthrows⟩ := entitlement_lasts plainEnv
  refine ⟨?_, ?_, ?_⟩
  · obtain ⟨r', hr', -, -, -, hseats, -⟩ := hlasts trialCalls [trialRenewal] "nd_live_1" trialRow (by decide +kernel)
    exact ⟨r', hr', hseats⟩
  · obtain ⟨_, _, a, b, -, -, -, ha, hb, hab, -⟩ :=
      hrenews trialCalls trialRenewal.1 trialRenewal.2 "nd_live_1" trialRow renewedRow (by decide +kernel)
        (by decide +kernel) (by decide) (by decide)
    exact ⟨a, b, ha, hb, hab⟩
  · have hnone : (conflictingCheckout.commit plainEnv 1700000100000 (after plainEnv {} trialCalls)).toOption.isNone := by
      decide +kernel
    cases hcommit : conflictingCheckout.commit plainEnv 1700000100000 (after plainEnv {} trialCalls) with
    | error e => exact hthrows trialCalls 1700000100000 conflictingCheckout e hcommit
    | ok t =>
      rw [hcommit] at hnone
      cases hnone

end NeonDiff.License
