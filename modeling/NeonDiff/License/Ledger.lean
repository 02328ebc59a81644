import NeonDiff.License.Store

/-! # What the licence store never takes back

Issuances, bindings and lifecycle events stay as they are, and a licence that a subscription may manage
stays one.
-/

namespace NeonDiff.License

open NeonDiff.Lib

variable {env : Env} {s t u : Licenses}

/-! ## The order on stores -/

/-- The later store has what the earlier one had. -/
structure Grows (env : Env) (s t : Licenses) : Prop where
  issuance : ∀ {key row}, s.getIssuanceEvent key = some row → t.getIssuanceEvent key = some row
  event : ∀ {id row}, s.getSubscriptionLifecycleEvent id = some row → t.getSubscriptionLifecycleEvent id = some row
  license : ∀ {hash record}, s.getLicenseByHash hash = some record → ∃ later, t.getLicenseByHash hash = some later ∧
    (isLifecycleCompatibleEntitlement env record = true → isLifecycleCompatibleEntitlement env later = true)
  resolve : ∀ {account mode subscription key},
    resolveCheckoutIssuanceIdempotencyKey account mode subscription s = some key →
    resolveCheckoutIssuanceIdempotencyKey account mode subscription t = some key

namespace Grows

theorem refl (s : Licenses) : Grows env s s := ⟨id, id, fun h => ⟨_, h, id⟩, id⟩

theorem trans (h : Grows env s t) (h' : Grows env t u) : Grows env s u where
  issuance hr := h'.issuance (h.issuance hr)
  event hr := h'.event (h.event hr)
  license hr := by
    obtain ⟨mid, hmid, hcompat⟩ := h.license hr
    obtain ⟨later, hlater, hcompat'⟩ := h'.license hmid
    exact ⟨later, hlater, hcompat' ∘ hcompat⟩
  resolve hr := h'.resolve (h.resolve hr)

theorem of_eq (hl : t.licenses = s.licenses) (hi : t.issuanceEvents = s.issuanceEvents)
    (hb : t.bindings = s.bindings) (he : t.lifecycleEvents = s.lifecycleEvents) : Grows env s t where
  issuance hr := by rwa [Licenses.getIssuanceEvent, hi]
  event hr := by rwa [Licenses.getSubscriptionLifecycleEvent, he]
  license {hash record} hr := ⟨record, by rwa [Licenses.getLicenseByHash, hl], id⟩
  resolve hr := by rwa [resolveCheckoutIssuanceIdempotencyKey, hb]

end Grows

/-! ## Inserts -/

theorem find?_of_insert? {κ ρ : Type} {key : ρ → κ} [DecidableEq κ] {table table' : Table key} {row found : ρ} {k : κ}
    (hins : table.insert? row = some table') (hf : table.find? k = some found) : table'.find? k = some found := by
  obtain ⟨hfree, rfl⟩ := Table.insert?_eq_some.mp hins
  rw [Table.find?_append, if_neg, hf]
  rintro rfl
  rw [hfree] at hf
  cases hf

theorem insertLicense_grows {rawKey : String} {input : IssueLicenseInput} {record : LicenseRecord}
    (h : insertLicense env rawKey input s = .ok (record, t)) : Grows env s t := by
  unfold insertLicense at h
  dsimp only at h
  split_ifs at h
  split at h
  · cases h
  · rename_i licenses hins
    cases h
    refine ⟨id, id, fun {hash found} hf => ?_, id⟩
    obtain ⟨row, hrow, rfl⟩ := Option.map_eq_some_iff.mp hf
    exact ⟨mapLicense row, Option.map_eq_some_iff.mpr ⟨row, find?_of_insert? hins hrow, rfl⟩, id⟩

theorem insertIssuanceEvent_grows {row : LicenseIssuanceRow} (h : insertIssuanceEvent row s = .ok t) :
    Grows env s t := by
  unfold insertIssuanceEvent at h
  split at h
  · cases h
  · rename_i issuanceEvents hins
    cases h
    exact ⟨find?_of_insert? hins, id, fun hf => ⟨_, hf, id⟩, id⟩

theorem insertLifecycleEvent_grows {row : SubscriptionLifecycleEventRow} (h : insertLifecycleEvent row s = .ok t) :
    Grows env s t := by
  unfold insertLifecycleEvent at h
  split at h
  · cases h
  · rename_i lifecycleEvents hins
    cases h
    exact ⟨id, find?_of_insert? hins, fun hf => ⟨_, hf, id⟩, id⟩

theorem insertFulfillment_grows {row : StripeCheckoutFulfillmentRow} (h : insertFulfillment row s = .ok t) :
    Grows env s t := by
  unfold insertFulfillment at h
  split_ifs at h
  split at h
  · cases h
  · cases h
    exact .of_eq rfl rfl rfl rfl

theorem insertBinding_grows {e : StoreError} {row : CheckoutSubscriptionBindingRow} (h : insertBinding e row s = .ok t) :
    Grows env s t := by
  unfold insertBinding at h
  split_ifs at h
  split at h
  · cases h
  · rename_i bindings hins
    cases h
    refine ⟨id, id, fun hf => ⟨_, hf, id⟩, fun {account mode subscription key} hr => ?_⟩
    obtain ⟨hfree, rfl⟩ := Table.insert?_eq_some.mp hins
    unfold resolveCheckoutIssuanceIdempotencyKey at hr ⊢
    split_ifs at hr ⊢ with hbounded
    obtain ⟨found, hfound, rfl⟩ := Option.map_eq_some_iff.mp hr
    rw [Table.append, List.find?_append, hfound]
    rfl

/-! ## Updates -/

theorem compatible_of_setExpiry {record : LicenseRecord} {ms : Int} {status : LicenseStatus} {reason : Option String}
    (hms : IsoDate.isTime ms = true) (h : isLifecycleCompatibleEntitlement env (mapLicense record) = true) :
    isLifecycleCompatibleEntitlement env (mapLicense { record with
      expiresAt := some (IsoDate.toISOString ms), status := status, revocationReason := reason }) = true := by
  rw [isLifecycleCompatibleEntitlement, Bool.and_eq_true] at h ⊢
  refine ⟨?_, h.2⟩
  have hkeep : nonEmpty (some (IsoDate.toISOString ms)) = some (IsoDate.toISOString ms) := by
    simp [nonEmpty, IsoDate.toISOString_ne_empty]
  simp [mapLicense, hkeep, Env.dateParse, IsoDate.dateParse_toISOString _ hms]

theorem updateLicense_grows {hash : String} {f : LicenseRecord → LicenseRecord}
    {hf : ∀ r, (f r).licenseKeyHash = r.licenseKeyHash}
    (hcompat : ∀ r, isLifecycleCompatibleEntitlement env (mapLicense r) = true →
      isLifecycleCompatibleEntitlement env (mapLicense (f r)) = true) :
    Grows env s (updateLicense hash f hf s) := by
  refine ⟨id, id, fun {h record} hr => ?_, id⟩
  obtain ⟨row, hrow, rfl⟩ := Option.map_eq_some_iff.mp hr
  refine ⟨mapLicense (if row.licenseKeyHash = hash then f row else row), ?_, ?_⟩
  · rw [Licenses.getLicenseByHash, updateLicense, Table.find?_update, hrow]
    rfl
  · split
    · exact hcompat row
    · exact id

theorem updateBindings_grows {f : CheckoutSubscriptionBindingRow → CheckoutSubscriptionBindingRow}
    (hf : ∀ b, (f b).issuanceIdempotencyKey = b.issuanceIdempotencyKey) (htuple : ∀ b, (f b).tuple = b.tuple) :
    Grows env s { s with bindings := s.bindings.update f hf } := by
  refine ⟨id, id, fun hr => ⟨_, hr, id⟩, fun {account mode subscription key} hr => ?_⟩
  unfold resolveCheckoutIssuanceIdempotencyKey at hr ⊢
  split_ifs at hr ⊢ with hbounded
  obtain ⟨found, hfound, rfl⟩ := Option.map_eq_some_iff.mp hr
  simp only [Table.update, List.find?_map, Function.comp_def, htuple, hfound, Option.map_some, hf]

/-! ## Operations -/

theorem issueBoundInOpenTransaction_grows {rawKey : String} {input : IssueBoundCheckoutLicenseInput} {issuedAt : Int}
    {r : BoundIssuance} (h : issueBoundCheckoutLicenseInOpenTransaction env rawKey input issuedAt s = .ok (r, t)) :
    Grows env s t := by
  unfold issueBoundCheckoutLicenseInOpenTransaction at h
  dsimp only at h
  split at h
  · obtain ⟨_, -, h⟩ := bind_eq_ok h
    split at h
    · cases h
    · split at h
      · cases h
      · obtain ⟨_, -, h⟩ := bind_eq_ok h
        obtain ⟨_, -, h⟩ := bind_eq_ok h
        obtain ⟨_, -, h⟩ := bind_eq_ok h
        obtain ⟨_, -, h⟩ := bind_eq_ok h
        cases h
        exact .refl s
  · obtain ⟨expiresAt, -, h⟩ := bind_eq_ok h
    obtain ⟨⟨record, s1⟩, hlicense, h⟩ := bind_eq_ok h
    obtain ⟨s2, hissuance, h⟩ := bind_eq_ok h
    obtain ⟨s3, hbinding, h⟩ := bind_eq_ok h
    cases h
    exact (insertLicense_grows hlicense).trans
      ((insertIssuanceEvent_grows hissuance).trans (insertBinding_grows hbinding))

theorem fulfillStripeCheckout_grows {now : Int} {rawKey : String} {input : StripeCheckoutFulfillmentInput}
    {r : FulfilledCheckout} (h : fulfillStripeCheckout env now rawKey input s = .ok (r, t)) : Grows env s t := by
  obtain ⟨validated, -, h⟩ := bind_eq_ok h
  obtain ⟨⟨issuance, s1⟩, hissuance, h⟩ := bind_eq_ok h
  refine (issueBoundInOpenTransaction_grows hissuance).trans ?_
  dsimp only at h
  split at h
  · obtain ⟨_, -, h⟩ := bind_eq_ok h
    cases h
    exact .refl _
  · obtain ⟨s2, hfulfillment, h⟩ := bind_eq_ok h
    cases h
    exact insertFulfillment_grows hfulfillment

theorem issueIdempotentLicense_grows {rawKey : String} {input : IssueIdempotentLicenseInput}
    {r : LicenseRecord × Bool} (h : issueIdempotentLicense env rawKey input s = .ok (r, t)) : Grows env s t := by
  unfold issueIdempotentLicense at h
  split at h
  · obtain ⟨_, -, h⟩ := bind_eq_ok h
    obtain ⟨_, -, h⟩ := bind_eq_ok h
    split at h
    · cases h
    · cases h
      exact .refl s
  · obtain ⟨⟨record, s1⟩, hlicense, h⟩ := bind_eq_ok h
    obtain ⟨s2, hissuance, h⟩ := bind_eq_ok h
    cases h
    exact (insertLicense_grows hlicense).trans (insertIssuanceEvent_grows hissuance)

theorem redeemStripeCheckout_grows {now : Int} {rawKey checkoutId token : String}
    {r : LicenseRecord × StripeCheckoutFulfillmentRow}
    (h : redeemStripeCheckout env now rawKey checkoutId token s = .ok (r, t)) : Grows env s t := by
  obtain ⟨_, -, h⟩ := bind_eq_ok h
  obtain ⟨_, -, h⟩ := bind_eq_ok h
  obtain ⟨_, -, h⟩ := bind_eq_ok h
  split at h
  · cases h
  · obtain ⟨_, -, h⟩ := bind_eq_ok h
    obtain ⟨_, -, h⟩ := bind_eq_ok h
    obtain ⟨_, -, h⟩ := bind_eq_ok h
    split at h
    · cases h
    · obtain ⟨_, -, h⟩ := bind_eq_ok h
      obtain ⟨_, -, h⟩ := bind_eq_ok h
      split_ifs at h
      · cases h
        exact .refl s
      · obtain ⟨_, -, h⟩ := bind_eq_ok h
        obtain ⟨_, -, h⟩ := bind_eq_ok h
        cases h
        exact .of_eq rfl rfl rfl rfl

theorem bindCheckoutSubscription_grows {key : String} {fields : BindingFields} {dryRun : Bool} {r : BindResult}
    (h : bindCheckoutSubscription env key fields dryRun s = .ok (r, t)) : Grows env s t := by
  obtain ⟨_, -, h⟩ := bind_eq_ok h
  obtain ⟨_, -, h⟩ := bind_eq_ok h
  obtain ⟨_, -, h⟩ := bind_eq_ok h
  split at h
  · cases h
  · obtain ⟨_, -, h⟩ := bind_eq_ok h
    split at h
    · cases h
    · obtain ⟨_, -, h⟩ := bind_eq_ok h
      obtain ⟨_, -, h⟩ := bind_eq_ok h
      split at h
      · obtain ⟨_, -, h⟩ := bind_eq_ok h
        cases h
        exact .refl s
      · split_ifs at h
        · cases h
          exact .refl s
        · obtain ⟨s1, hbinding, h⟩ := bind_eq_ok h
          cases h
          exact insertBinding_grows hbinding

theorem applyNonMutating_grows {appliedAt : Int} {input : SubscriptionLifecycleRequest}
    {binding : CheckoutSubscriptionBindingRow} {periodEnd : Option String} {fresh result : LifecycleApplyStatus}
    (h : applyNonMutating env appliedAt input binding periodEnd fresh s = .ok (result, t)) : Grows env s t := by
  obtain ⟨_, -, h⟩ := bind_eq_ok h
  split_ifs at h
  · cases h
    exact .refl s
  · cases h
    exact updateBindings_grows _ fun b => by split <;> rfl

theorem applyCommand_grows {appliedAt : Int} {input : SubscriptionLifecycleRequest} {record : LicenseRecord}
    {binding : CheckoutSubscriptionBindingRow} {result : LifecycleApplyStatus}
    (h : applyCommand env appliedAt input record binding s = .ok (result, t)) : Grows env s t := by
  unfold applyCommand at h
  split at h
  · obtain ⟨incoming, -, h⟩ := bind_eq_ok h
    split at h
    · cases h
    · obtain ⟨expiresAt, hexpires, h⟩ := bind_eq_ok h
      obtain ⟨hms, rfl⟩ := isoText_eq_ok.mp hexpires
      cases h
      exact updateLicense_grows fun r hr => compatible_of_setExpiry hms hr
  · exact applyNonMutating_grows h
  · exact applyNonMutating_grows h
  · exact applyNonMutating_grows h
  · obtain ⟨expiry, hexpiry, h⟩ := bind_eq_ok h
    obtain ⟨hms, rfl⟩ := isoText_eq_ok.mp hexpiry
    cases h
    exact updateLicense_grows fun r hr => compatible_of_setExpiry hms hr

theorem recordLifecycleEvent_ok {appliedAt : Int} {input : SubscriptionLifecycleRequest}
    {issuance : LicenseIssuanceRow} {r : SubscriptionLifecycleApplyResult}
    (h : recordLifecycleEvent env appliedAt input issuance s = .ok (r, t)) :
    ∃ binding record result s1, s.getLicenseByHash issuance.licenseKeyHash = some record ∧
      isLifecycleCompatibleEntitlement env record = true ∧
      applyCommand env appliedAt input record binding s = .ok (result, s1) ∧
      insertLifecycleEvent (lifecycleEventRow env input record.licenseKeyHash result) s1 = .ok t := by
  unfold recordLifecycleEvent at h
  dsimp only at h
  split at h
  · cases h
  · rename_i binding _
    obtain ⟨_, -, h⟩ := bind_eq_ok h
    split at h
    · cases h
    · rename_i record hrecord
      obtain ⟨_, hcompat, h⟩ := bind_eq_ok h
      obtain ⟨_, -, h⟩ := bind_eq_ok h
      obtain ⟨⟨result, s1⟩, hcommand, h⟩ := bind_eq_ok h
      obtain ⟨s2, hevent, h⟩ := bind_eq_ok h
      split at h
      · cases h
      · obtain ⟨response, -, h⟩ := bind_eq_ok h
        cases h
        exact ⟨binding, record, result, s1, hrecord, by simpa using hcompat, hcommand, hevent⟩

theorem recordLifecycleEvent_grows {appliedAt : Int} {input : SubscriptionLifecycleRequest}
    {issuance : LicenseIssuanceRow} {r : SubscriptionLifecycleApplyResult}
    (h : recordLifecycleEvent env appliedAt input issuance s = .ok (r, t)) : Grows env s t := by
  obtain ⟨_, _, _, s1, -, -, hcommand, hevent⟩ := recordLifecycleEvent_ok h
  exact (applyCommand_grows hcommand).trans (insertLifecycleEvent_grows hevent)

theorem replayLifecycleEvent_state {appliedAt : Int} {input : SubscriptionLifecycleRequest}
    {existing : SubscriptionLifecycleEventRow} {r : SubscriptionLifecycleApplyResult}
    (h : replayLifecycleEvent env appliedAt input existing s = .ok (r, t)) : t = s ∧ r.status = .replayed ∧
      existing.requestHash = canonicalSubscriptionLifecycleRequestHash env input ∧
      ∃ record, s.getLicenseByHash existing.licenseKeyHash = some record ∧
        isLifecycleCompatibleEntitlement env record = true := by
  obtain ⟨_, hhash, h⟩ := bind_eq_ok h
  split at h
  · cases h
  · rename_i record hrecord
    obtain ⟨_, hcompat, h⟩ := bind_eq_ok h
    obtain ⟨response, hresponse, h⟩ := bind_eq_ok h
    cases h
    refine ⟨rfl, ?_, by simpa using hhash, record, hrecord, by simpa using hcompat⟩
    unfold lifecycleResult at hresponse
    dsimp only at hresponse
    split at hresponse
    · cases hresponse
    · split at hresponse
      · cases hresponse
      · cases hresponse
        rfl

theorem applyCheckoutSubscriptionLifecycle_grows {appliedAt : Int} {input : SubscriptionLifecycleRequest}
    {r : SubscriptionLifecycleApplyResult}
    (h : applyCheckoutSubscriptionLifecycle env appliedAt input s = .ok (r, t)) : Grows env s t := by
  unfold applyCheckoutSubscriptionLifecycle at h
  dsimp only at h
  split at h
  · cases h
  · obtain ⟨_, -, h⟩ := bind_eq_ok h
    split at h
    · obtain ⟨rfl, -⟩ := replayLifecycleEvent_state h
      exact .refl t
    · exact recordLifecycleEvent_grows h

theorem map_snd_eq_ok {α : Type} {x : Except StoreError (α × Licenses)} (h : Prod.snd <$> x = .ok t) :
    ∃ a, x = .ok (a, t) := by
  cases x with
  | error e => cases h
  | ok r => exact ⟨r.1, congrArg Except.ok (Prod.ext rfl (Except.ok.inj h))⟩

theorem commit_grows {now : Int} {call : StoreCall} (h : call.commit env now s = .ok t) : Grows env s t := by
  cases call with
  | issueLicense =>
    obtain ⟨r, h⟩ := map_snd_eq_ok h
    exact insertLicense_grows h
  | issueIdempotentLicense =>
    obtain ⟨r, h⟩ := map_snd_eq_ok h
    exact issueIdempotentLicense_grows h
  | issueBoundCheckoutLicense =>
    obtain ⟨r, h⟩ := map_snd_eq_ok h
    obtain ⟨validated, -, h⟩ := bind_eq_ok h
    exact issueBoundInOpenTransaction_grows h
  | fulfillStripeCheckout =>
    obtain ⟨r, h⟩ := map_snd_eq_ok h
    exact fulfillStripeCheckout_grows h
  | redeemStripeCheckout =>
    obtain ⟨r, h⟩ := map_snd_eq_ok h
    exact redeemStripeCheckout_grows h
  | bindCheckoutSubscription =>
    obtain ⟨r, h⟩ := map_snd_eq_ok h
    exact bindCheckoutSubscription_grows h
  | applyCheckoutSubscriptionLifecycle =>
    obtain ⟨r, h⟩ := map_snd_eq_ok h
    exact applyCheckoutSubscriptionLifecycle_grows h
  | revokeLicense =>
    cases h
    exact updateLicense_grows fun r hr => hr
  | upsertActivation =>
    cases h
    exact .of_eq rfl rfl rfl rfl
  | touchActivation =>
    cases h
    exact .of_eq rfl rfl rfl rfl
  | removeActivation =>
    cases h
    exact .of_eq rfl rfl rfl rfl

theorem after_grows (calls : List (Int × StoreCall)) : Grows env s (after env s calls) := by
  induction calls generalizing s with
  | nil => exact .refl s
  | cons call calls ih =>
    obtain ⟨now, call⟩ := call
    have hstep : Grows env s ((call.commit env now s).toOption.getD s) := by
      cases h : call.commit env now s with
      | error e => exact .refl s
      | ok t => exact commit_grows h
    exact hstep.trans ih

/-! ## Accepted lifecycle events -/

structure Recorded (env : Env) (r : SubscriptionLifecycleRequest) (s : Licenses) : Prop where
  issuance : ∃ row, s.getIssuanceEvent r.issuanceIdempotencyKey = some row ∧ row.source = some "checkout"
  event : ∃ row record, s.getSubscriptionLifecycleEvent r.eventId = some row ∧
    row.requestHash = canonicalSubscriptionLifecycleRequestHash env r ∧
    s.getLicenseByHash row.licenseKeyHash = some record ∧ isLifecycleCompatibleEntitlement env record = true

theorem Recorded.later {r : SubscriptionLifecycleRequest} (h : Recorded env r s) (hgrows : Grows env s t) :
    Recorded env r t where
  issuance := by
    obtain ⟨row, hrow, hsource⟩ := h.issuance
    exact ⟨row, hgrows.issuance hrow, hsource⟩
  event := by
    obtain ⟨row, record, hrow, hhash, hrecord, hcompat⟩ := h.event
    obtain ⟨later, hlater, hkeep⟩ := hgrows.license hrecord
    exact ⟨row, later, hgrows.event hrow, hhash, hlater, hkeep hcompat⟩

theorem getSubscriptionLifecycleEvent_of_insert {row : SubscriptionLifecycleEventRow}
    (h : insertLifecycleEvent row s = .ok t) : t.getSubscriptionLifecycleEvent row.eventId = some row := by
  unfold insertLifecycleEvent at h
  split at h
  · cases h
  · rename_i lifecycleEvents hins
    cases h
    obtain ⟨hfree, rfl⟩ := Table.insert?_eq_some.mp hins
    exact (Table.find?_append _ _ hfree _).trans (if_pos rfl)

theorem recorded_of_recordLifecycleEvent {appliedAt : Int} {input : SubscriptionLifecycleRequest}
    {issuance : LicenseIssuanceRow} {r : SubscriptionLifecycleApplyResult}
    (hissuance : s.getIssuanceEvent input.issuanceIdempotencyKey = some issuance)
    (hsource : issuance.source = some "checkout")
    (h : recordLifecycleEvent env appliedAt input issuance s = .ok (r, t)) : Recorded env input t := by
  have hgrows := recordLifecycleEvent_grows h
  obtain ⟨_, record, result, s1, hrecord, hcompat, -, hevent⟩ := recordLifecycleEvent_ok h
  have hhash : record.licenseKeyHash = issuance.licenseKeyHash := by
    obtain ⟨row, hrow, rfl⟩ := Option.map_eq_some_iff.mp hrecord
    exact (Table.key_of_find? hrow : row.licenseKeyHash = _)
  obtain ⟨later, hlater, hkeep⟩ := hgrows.license hrecord
  exact ⟨⟨issuance, hgrows.issuance hissuance, hsource⟩, lifecycleEventRow env input record.licenseKeyHash result,
    later, getSubscriptionLifecycleEvent_of_insert hevent, rfl, hhash ▸ hlater, hkeep hcompat⟩

theorem recorded_of_apply {appliedAt : Int} {input : SubscriptionLifecycleRequest}
    {r : SubscriptionLifecycleApplyResult}
    (h : applyCheckoutSubscriptionLifecycle env appliedAt input s = .ok (r, t)) : Recorded env input t := by
  unfold applyCheckoutSubscriptionLifecycle at h
  dsimp only at h
  split at h
  · cases h
  · rename_i issuance hissuance
    obtain ⟨_, hsource, h⟩ := bind_eq_ok h
    have hsource : issuance.source = some "checkout" := by simpa using hsource
    split at h
    · rename_i existing hexisting
      obtain ⟨rfl, -, hhash, record, hrecord, hcompat⟩ := replayLifecycleEvent_state h
      exact ⟨⟨issuance, hissuance, hsource⟩, existing, record, hexisting, hhash, hrecord, hcompat⟩
    · exact recorded_of_recordLifecycleEvent hissuance hsource h

theorem lifecycleResult_of_compatible (status : LifecycleApplyStatus) (replayed : Bool) {record : LicenseRecord}
    {hash : String} (appliedAt : Int) (hrecord : s.getLicenseByHash hash = some record)
    (h : isLifecycleCompatibleEntitlement env record = true) :
    ∃ r, lifecycleResult env status replayed record appliedAt = .ok r ∧ r.status = status ∧ r.replayed = replayed := by
  rw [isLifecycleCompatibleEntitlement, Bool.and_eq_true, Option.any_eq_true] at h
  obtain ⟨⟨expiresAt, hexpires, hparse⟩, -⟩ := h
  obtain ⟨ms, hms⟩ := Option.isSome_iff_exists.mp hparse
  have hkeep : nonEmpty record.expiresAt = some expiresAt := by
    obtain ⟨row, -, rfl⟩ := Option.map_eq_some_iff.mp hrecord
    have hrow : nonEmpty row.expiresAt = some expiresAt := hexpires
    simp only [mapLicense, hrow]
    simpa [nonEmpty] using (Option.filter_eq_some_iff.mp hrow).2
  unfold lifecycleResult
  dsimp only
  rw [hkeep]
  dsimp only
  rw [hms]
  exact ⟨_, rfl, rfl, rfl⟩

theorem apply_of_recorded {first again : SubscriptionLifecycleRequest} (h : Recorded env first s)
    (hkey : again.issuanceIdempotencyKey = first.issuanceIdempotencyKey) (hid : again.eventId = first.eventId)
    (appliedAt : Int) :
    (canonicalSubscriptionLifecycleRequestHash env again = canonicalSubscriptionLifecycleRequestHash env first ∧
      ∃ r, applyCheckoutSubscriptionLifecycle env appliedAt again s = .ok (r, s) ∧ r.status = .replayed ∧
        r.replayed = true) ∨
    (canonicalSubscriptionLifecycleRequestHash env again ≠ canonicalSubscriptionLifecycleRequestHash env first ∧
      applyCheckoutSubscriptionLifecycle env appliedAt again s =
        .error ⟨.subscriptionLifecycleConflict, "subscription lifecycle event conflicts with an existing event"⟩) := by
  obtain ⟨issuance, hissuance, hsource⟩ := h.issuance
  obtain ⟨row, record, hrow, hhash, hrecord, hcompat⟩ := h.event
  have happly : applyCheckoutSubscriptionLifecycle env appliedAt again s =
      replayLifecycleEvent env appliedAt again row s := by
    rw [applyCheckoutSubscriptionLifecycle, hkey, hissuance]
    dsimp only
    rw [hsource, hid, hrow]
    rfl
  rw [happly, replayLifecycleEvent, hhash]
  by_cases heq : canonicalSubscriptionLifecycleRequestHash env again = canonicalSubscriptionLifecycleRequestHash env first
  · obtain ⟨r, hr, hstatus, hreplayed⟩ := lifecycleResult_of_compatible .replayed true appliedAt hrecord hcompat
    refine .inl ⟨heq, r, ?_, hstatus, hreplayed⟩
    rw [heq, hrecord]
    dsimp only
    rw [hcompat, hr]
    simp [require, ok_bind]
  · exact .inr ⟨heq, by simp [require, Ne.symm heq]; rfl⟩

end NeonDiff.License
