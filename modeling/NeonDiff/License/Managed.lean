import NeonDiff.License.Ledger

/-! # The licences behind checkout bindings

In every store that calls lead to, a binding belongs to a checkout issuance, and its licence is one that a
subscription may manage.
-/

namespace NeonDiff.License

open NeonDiff.Lib

variable {env : Env} {s t : Licenses}

def BindingsManaged (env : Env) (s : Licenses) : Prop :=
  ∀ key b, s.getCheckoutSubscriptionBinding key = some b →
    (∃ i, s.getIssuanceEvent key = some i ∧ i.source = some "checkout" ∧ i.licenseKeyHash = b.licenseKeyHash) ∧
    ∃ record, s.getLicenseByHash b.licenseKeyHash = some record ∧ isLifecycleCompatibleEntitlement env record = true

/-- A call on the way from `s` to `t` either knew the binding of a key or made one that is managed. -/
def BindsManaged (env : Env) (s t : Licenses) : Prop :=
  ∀ key b, t.getCheckoutSubscriptionBinding key = some b →
    (∃ b', s.getCheckoutSubscriptionBinding key = some b' ∧ b'.licenseKeyHash = b.licenseKeyHash) ∨
    ((∃ i, t.getIssuanceEvent key = some i ∧ i.source = some "checkout" ∧ i.licenseKeyHash = b.licenseKeyHash) ∧
      ∃ record, t.getLicenseByHash b.licenseKeyHash = some record ∧ isLifecycleCompatibleEntitlement env record = true)

theorem BindsManaged.of_bindings_eq (h : t.bindings = s.bindings) : BindsManaged env s t := by
  intro key b hb
  rw [Licenses.getCheckoutSubscriptionBinding, h] at hb
  exact Or.inl ⟨b, hb, rfl⟩

theorem BindingsManaged.step (hmanaged : BindingsManaged env s) (hgrows : Grows env s t)
    (hbinds : BindsManaged env s t) : BindingsManaged env t := by
  intro key b hb
  obtain ⟨b', hb', hhash⟩ | hnew := hbinds key b hb
  · obtain ⟨⟨i, hi, hsource, hihash⟩, record, hrecord, hcompat⟩ := hmanaged key b' hb'
    rw [hhash] at hihash hrecord
    obtain ⟨later, hlater, hkeep⟩ := hgrows.license hrecord
    exact ⟨⟨i, hgrows.issuance hi, hsource, hihash⟩, later, hlater, hkeep hcompat⟩
  · exact hnew

/-! ## Inserts -/

theorem getIssuanceEvent_of_insert {row : LicenseIssuanceRow} (h : insertIssuanceEvent row s = .ok t) :
    t.getIssuanceEvent row.idempotencyKey = some row ∧ t.licenses = s.licenses ∧ t.bindings = s.bindings := by
  unfold insertIssuanceEvent at h
  split at h
  · cases h
  · rename_i issuanceEvents hins
    cases h
    obtain ⟨hfree, rfl⟩ := Table.insert?_eq_some.mp hins
    exact ⟨(Table.find?_append _ _ hfree _).trans (if_pos rfl), rfl, rfl⟩

theorem insertBinding_bindsManaged {e : StoreError} {row : CheckoutSubscriptionBindingRow} {issuance : LicenseIssuanceRow}
    {record : LicenseRecord} (hissuance : s.getIssuanceEvent row.issuanceIdempotencyKey = some issuance)
    (hsource : issuance.source = some "checkout") (hhash : issuance.licenseKeyHash = row.licenseKeyHash)
    (hrecord : s.getLicenseByHash row.licenseKeyHash = some record)
    (hcompat : isLifecycleCompatibleEntitlement env record = true) (h : insertBinding e row s = .ok t) :
    BindsManaged env s t := by
  unfold insertBinding at h
  split_ifs at h
  split at h
  · cases h
  · rename_i bindings hins
    cases h
    obtain ⟨hfree, rfl⟩ := Table.insert?_eq_some.mp hins
    intro key b hb
    rw [Licenses.getCheckoutSubscriptionBinding, Table.find?_append] at hb
    split_ifs at hb with hkey
    · obtain rfl := Option.some.inj hb
      obtain rfl := hkey
      exact Or.inr ⟨⟨issuance, hissuance, hsource, hhash⟩, record, hrecord, hcompat⟩
    · exact Or.inl ⟨b, hb, rfl⟩

theorem insertLicense_bindings {rawKey : String} {input : IssueLicenseInput} {record : LicenseRecord}
    (h : insertLicense env rawKey input s = .ok (record, t)) : t.bindings = s.bindings := by
  unfold insertLicense at h
  dsimp only at h
  split_ifs at h
  split at h
  · cases h
  · cases h
    rfl

theorem insertLicense_checkout {rawKey : String} {lookupKey : CheckoutLookupKey} {ms : Int} {record : LicenseRecord}
    (hms : IsoDate.isTime ms = true)
    (h : insertLicense env rawKey
      { plan := (checkoutPolicyFor lookupKey).plan
        repoVisibilityScope := (checkoutPolicyFor lookupKey).repoVisibilityScope
        privateRepoAllowed := some (checkoutPolicyFor lookupKey).privateRepoAllowed
        updateEntitlement := some (checkoutPolicyFor lookupKey).updateEntitlement
        seats := some (checkoutPolicyFor lookupKey).seats
        expiresAt := some (IsoDate.toISOString ms) } s = .ok (record, t)) :
    t.getLicenseByHash record.licenseKeyHash = some record ∧ isLifecycleCompatibleEntitlement env record = true ∧
      t.bindings = s.bindings := by
  unfold insertLicense at h
  dsimp only at h
  split_ifs at h
  split at h
  · cases h
  · rename_i licenses hins
    cases h
    obtain ⟨hfree, rfl⟩ := Table.insert?_eq_some.mp hins
    refine ⟨?_, ?_, rfl⟩
    · exact congrArg (Option.map mapLicense) ((Table.find?_append _ _ hfree _).trans (if_pos rfl))
    · have hkeep : nonEmpty (some (IsoDate.toISOString ms)) = some (IsoDate.toISOString ms) := by
        simp [nonEmpty, IsoDate.toISOString_ne_empty]
      rw [isLifecycleCompatibleEntitlement, Bool.and_eq_true]
      constructor
      · simp [mapLicense, hkeep, Env.dateParse, IsoDate.dateParse_toISOString _ hms]
      · rw [List.any_eq_true]
        exact ⟨lookupKey, by cases lookupKey <;> decide, by simp [mapLicense]⟩

/-! ## Operations -/

theorem issueBoundInOpenTransaction_bindsManaged {rawKey : String} {input : IssueBoundCheckoutLicenseInput}
    {issuedAt : Int} {r : BoundIssuance}
    (h : issueBoundCheckoutLicenseInOpenTransaction env rawKey input issuedAt s = .ok (r, t)) :
    BindsManaged env s t := by
  unfold issueBoundCheckoutLicenseInOpenTransaction at h
  dsimp only at h
  split at h
  · obtain ⟨_, -, h⟩ := bind_eq_ok h
    split at h
    · cases h
    · split at h
      · cases h
      · obtain ⟨_, -, h⟩ := bind_eq_ok h
        obtain ⟨_, -, h⟩ := bind_eq_ok h
        obtain ⟨_, -, h⟩ := bind_eq_ok h
        obtain ⟨_, -, h⟩ := bind_eq_ok h
        cases h
        exact .of_bindings_eq rfl
  · obtain ⟨expiresAt, hexpires, h⟩ := bind_eq_ok h
    obtain ⟨hms, rfl⟩ := isoText_eq_ok.mp hexpires
    obtain ⟨⟨record, s1⟩, hlicense, h⟩ := bind_eq_ok h
    obtain ⟨s2, hissuance, h⟩ := bind_eq_ok h
    obtain ⟨s3, hbinding, h⟩ := bind_eq_ok h
    cases h
    obtain ⟨hrecord, hcompat, hbindings⟩ := insertLicense_checkout hms hlicense
    obtain ⟨hevent, hlicenses, hbindings'⟩ := getIssuanceEvent_of_insert hissuance
    have hrecord : s2.getLicenseByHash record.licenseKeyHash = some record := by
      rwa [Licenses.getLicenseByHash, hlicenses]
    have hbinds := insertBinding_bindsManaged hevent rfl rfl hrecord hcompat hbinding
    intro key b hb
    have hkept : s2.bindings = s.bindings := hbindings'.trans hbindings
    have hstep := hbinds key b hb
    rwa [Licenses.getCheckoutSubscriptionBinding, hkept] at hstep

theorem issueIdempotentLicense_bindsManaged {rawKey : String} {input : IssueIdempotentLicenseInput}
    {r : LicenseRecord × Bool} (h : issueIdempotentLicense env rawKey input s = .ok (r, t)) :
    BindsManaged env s t := by
  unfold issueIdempotentLicense at h
  split at h
  · obtain ⟨_, -, h⟩ := bind_eq_ok h
    obtain ⟨_, -, h⟩ := bind_eq_ok h
    split at h
    · cases h
    · cases h
      exact .of_bindings_eq rfl
  · obtain ⟨⟨record, s1⟩, hlicense, h⟩ := bind_eq_ok h
    obtain ⟨s2, hissuance, h⟩ := bind_eq_ok h
    cases h
    exact .of_bindings_eq ((getIssuanceEvent_of_insert hissuance).2.2.trans (insertLicense_bindings hlicense))

theorem redeemStripeCheckout_bindings {now : Int} {rawKey checkoutId token : String}
    {r : LicenseRecord × StripeCheckoutFulfillmentRow}
    (h : redeemStripeCheckout env now rawKey checkoutId token s = .ok (r, t)) : t.bindings = s.bindings := by
  obtain ⟨_, -, h⟩ := bind_eq_ok h
  obtain ⟨_, -, h⟩ := bind_eq_ok h
  obtain ⟨_, -, h⟩ := bind_eq_ok h
  split at h
  · cases h
  · obtain ⟨_, -, h⟩ := bind_eq_ok h
    obtain ⟨_, -, h⟩ := bind_eq_ok h
    obtain ⟨_, -, h⟩ := bind_eq_ok h
    split at h
    · cases h
    · obtain ⟨_, -, h⟩ := bind_eq_ok h
      obtain ⟨_, -, h⟩ := bind_eq_ok h
      split_ifs at h
      · cases h
        rfl
      · obtain ⟨_, -, h⟩ := bind_eq_ok h
        obtain ⟨_, -, h⟩ := bind_eq_ok h
        cases h
        rfl

theorem fulfillStripeCheckout_bindsManaged {now : Int} {rawKey : String} {input : StripeCheckoutFulfillmentInput}
    {r : FulfilledCheckout} (h : fulfillStripeCheckout env now rawKey input s = .ok (r, t)) :
    BindsManaged env s t := by
  obtain ⟨validated, -, h⟩ := bind_eq_ok h
  obtain ⟨⟨issuance, s1⟩, hissuance, h⟩ := bind_eq_ok h
  have hbinds := issueBoundInOpenTransaction_bindsManaged hissuance
  dsimp only at h
  split at h
  · obtain ⟨_, -, h⟩ := bind_eq_ok h
    cases h
    exact hbinds
  · obtain ⟨s2, hfulfillment, h⟩ := bind_eq_ok h
    cases h
    unfold insertFulfillment at hfulfillment
    split_ifs at hfulfillment
    split at hfulfillment
    · cases hfulfillment
    · cases hfulfillment
      exact hbinds

theorem bindCheckoutSubscription_bindsManaged {key : String} {fields : BindingFields} {dryRun : Bool} {r : BindResult}
    (h : bindCheckoutSubscription env key fields dryRun s = .ok (r, t)) : BindsManaged env s t := by
  obtain ⟨key, -, h⟩ := bind_eq_ok h
  obtain ⟨_, -, h⟩ := bind_eq_ok h
  obtain ⟨_, -, h⟩ := bind_eq_ok h
  split at h
  · cases h
  · rename_i issuance hissuance
    obtain ⟨_, hsource, h⟩ := bind_eq_ok h
    split at h
    · cases h
    · rename_i record hrecord
      obtain ⟨_, hcompat, h⟩ := bind_eq_ok h
      obtain ⟨_, -, h⟩ := bind_eq_ok h
      split at h
      · obtain ⟨_, -, h⟩ := bind_eq_ok h
        cases h
        exact .of_bindings_eq rfl
      · split_ifs at h
        · cases h
          exact .of_bindings_eq rfl
        · obtain ⟨s1, hbinding, h⟩ := bind_eq_ok h
          cases h
          exact insertBinding_bindsManaged hissuance (by simpa using hsource) rfl hrecord (by simpa using hcompat)
            hbinding

theorem applyNonMutating_bindsManaged {appliedAt : Int} {input : SubscriptionLifecycleRequest}
    {binding : CheckoutSubscriptionBindingRow} {periodEnd : Option String} {fresh result : LifecycleApplyStatus}
    (h : applyNonMutating env appliedAt input binding periodEnd fresh s = .ok (result, t)) :
    BindsManaged env s t := by
  obtain ⟨_, -, h⟩ := bind_eq_ok h
  split_ifs at h
  · cases h
    exact .of_bindings_eq rfl
  · cases h
    intro key b hb
    rw [Licenses.getCheckoutSubscriptionBinding, Table.find?_update, Option.map_eq_some_iff] at hb
    obtain ⟨b', hb', rfl⟩ := hb
    refine Or.inl ⟨b', hb', ?_⟩
    split
    · rfl
    · rfl

theorem applyCommand_bindsManaged {appliedAt : Int} {input : SubscriptionLifecycleRequest} {record : LicenseRecord}
    {binding : CheckoutSubscriptionBindingRow} {result : LifecycleApplyStatus}
    (h : applyCommand env appliedAt input record binding s = .ok (result, t)) : BindsManaged env s t := by
  unfold applyCommand at h
  split at h
  · obtain ⟨incoming, -, h⟩ := bind_eq_ok h
    split at h
    · cases h
    · obtain ⟨expiresAt, -, h⟩ := bind_eq_ok h
      cases h
      exact .of_bindings_eq rfl
  · exact applyNonMutating_bindsManaged h
  · exact applyNonMutating_bindsManaged h
  · exact applyNonMutating_bindsManaged h
  · obtain ⟨expiry, -, h⟩ := bind_eq_ok h
    cases h
    exact .of_bindings_eq rfl

theorem applyCheckoutSubscriptionLifecycle_bindsManaged {appliedAt : Int} {input : SubscriptionLifecycleRequest}
    {r : SubscriptionLifecycleApplyResult}
    (h : applyCheckoutSubscriptionLifecycle env appliedAt input s = .ok (r, t)) : BindsManaged env s t := by
  unfold applyCheckoutSubscriptionLifecycle at h
  dsimp only at h
  split at h
  · cases h
  · obtain ⟨_, -, h⟩ := bind_eq_ok h
    split at h
    · obtain ⟨rfl, -⟩ := replayLifecycleEvent_state h
      exact .of_bindings_eq rfl
    · obtain ⟨_, _, _, s1, -, -, hcommand, hevent⟩ := recordLifecycleEvent_ok h
      have hbinds := applyCommand_bindsManaged hcommand
      unfold insertLifecycleEvent at hevent
      split at hevent
      · cases hevent
      · cases hevent
        exact hbinds

theorem commit_bindsManaged {now : Int} {call : StoreCall} (h : call.commit env now s = .ok t) :
    BindsManaged env s t := by
  cases call with
  | issueLicense =>
    obtain ⟨r, h⟩ := map_snd_eq_ok h
    exact .of_bindings_eq (insertLicense_bindings h)
  | issueIdempotentLicense =>
    obtain ⟨r, h⟩ := map_snd_eq_ok h
    exact issueIdempotentLicense_bindsManaged h
  | issueBoundCheckoutLicense =>
    obtain ⟨r, h⟩ := map_snd_eq_ok h
    obtain ⟨validated, -, h⟩ := bind_eq_ok h
    exact issueBoundInOpenTransaction_bindsManaged h
  | fulfillStripeCheckout =>
    obtain ⟨r, h⟩ := map_snd_eq_ok h
    exact fulfillStripeCheckout_bindsManaged h
  | redeemStripeCheckout =>
    obtain ⟨r, h⟩ := map_snd_eq_ok h
    exact .of_bindings_eq (redeemStripeCheckout_bindings h)
  | bindCheckoutSubscription =>
    obtain ⟨r, h⟩ := map_snd_eq_ok h
    exact bindCheckoutSubscription_bindsManaged h
  | applyCheckoutSubscriptionLifecycle =>
    obtain ⟨r, h⟩ := map_snd_eq_ok h
    exact applyCheckoutSubscriptionLifecycle_bindsManaged h
  | revokeLicense =>
    cases h
    exact .of_bindings_eq rfl
  | upsertActivation =>
    cases h
    exact .of_bindings_eq rfl
  | touchActivation =>
    cases h
    exact .of_bindings_eq rfl
  | removeActivation =>
    cases h
    exact .of_bindings_eq rfl

/-! ## Runs -/

theorem after_managed (calls : List (Int × StoreCall)) (h : BindingsManaged env s) :
    BindingsManaged env (after env s calls) := by
  induction calls generalizing s with
  | nil => exact h
  | cons call calls ih =>
    obtain ⟨now, call⟩ := call
    refine ih ?_
    cases hcommit : call.commit env now s with
    | error e => exact h
    | ok t => exact h.step (commit_grows hcommit) (commit_bindsManaged hcommit)

theorem reachable_managed (calls : List (Int × StoreCall)) : BindingsManaged env (after env {} calls) :=
  after_managed calls fun _ _ hb => by cases hb

end NeonDiff.License
