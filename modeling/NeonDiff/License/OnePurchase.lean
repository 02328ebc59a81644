import NeonDiff.License.Confluence
import NeonDiff.License.Owned
import NeonDiff.License.Purchase

/-! # One licence for a purchase -/

namespace NeonDiff.License

open NeonDiff.Lib

variable {env : Env} {now : Int} {s t : Licenses}

/-! ## The parts of an operation are the operation -/

theorem transaction_cases {α : Type} {body : Licenses → Except StoreError (α × Licenses)} {r : Except StoreError α}
    (h : transaction body s = (r, t)) :
    (∃ a, r = .ok a ∧ body s = .ok (a, t)) ∨ (∃ e, r = .error e ∧ t = s) := by
  unfold transaction at h
  split at h
  · rename_i a u hbody
    obtain ⟨rfl, rfl⟩ := Prod.mk.inj h
    exact .inl ⟨a, rfl, hbody⟩
  · rename_i e hbody
    obtain ⟨rfl, rfl⟩ := Prod.mk.inj h
    exact .inr ⟨e, rfl, rfl⟩

/-- With no other connection, the statements of `issueIdempotentLicense` do what the operation does at once. -/
theorem issueIdempotentLicense_alone (env : Env) (now : Int) (rawKey : String) (input : IssueIdempotentLicenseInput)
    (s : Licenses) :
    ((PurchaseCall.issueIdempotentLicense rawKey input).prog env).alone (fun s act => act.exec env now s) s =
      transaction (fun s => (issueIdempotentLicense env rawKey input s).map
        fun r => (PurchaseAnswer.issued r.1.1 r.1.2, r.2)) s := by
  simp only [PurchaseCall.prog, Prog.alone, PurchaseAct.exec, issueAfterLookup, issueIdempotentLicense, transaction]
  cases hissuance : s.getIssuanceEvent input.idempotencyKey with
  | some existing =>
    by_cases hrequest : existing.requestHash = input.requestHash
    · by_cases hhash : Licenses.hashLicenseKey env.sha256 rawKey = existing.licenseKeyHash
      · cases hrecord : s.getLicenseByHash existing.licenseKeyHash with
        | none => simp [hrequest, hhash, hrecord, replayedAnswer, require, ok_bind, Except.map]
        | some record =>
          simp [hrequest, hhash, hrecord, replayedAnswer, require, ok_bind, Except.map]
      · simp [hrequest, hhash, require, ok_bind, Except.map]
        rfl
    · simp [hrequest, require, Except.map]
      rfl
  | none =>
    simp only [Prog.alone, insertIdempotentLicense]
    cases hlicense : insertLicense env rawKey input.toIssueLicenseInput s with
    | error e => rfl
    | ok r =>
      obtain ⟨record, s1⟩ := r
      simp only [ok_bind]
      cases hevent : insertIssuanceEvent
        ⟨input.idempotencyKey, record.licenseKeyHash, input.requestHash, input.source, input.externalRef⟩ s1 with
      | error e => rfl
      | ok s2 => rfl

/-! ## Conflicts -/

theorem validateFulfillment_issuance {input : StripeCheckoutFulfillmentInput} {validated : ValidFulfillment}
    (h : validateStripeCheckoutFulfillmentInput env input now = .ok validated) :
    validateBoundCheckoutInput input.issuance = .ok validated.issuance := by
  obtain ⟨_, -, h⟩ := bind_eq_ok h
  obtain ⟨_, -, h⟩ := bind_eq_ok h
  obtain ⟨_, -, h⟩ := bind_eq_ok h
  obtain ⟨_, -, h⟩ := bind_eq_ok h
  obtain ⟨_, -, h⟩ := bind_eq_ok h
  obtain ⟨_, -, h⟩ := bind_eq_ok h
  obtain ⟨_, -, h⟩ := bind_eq_ok h
  obtain ⟨_, -, h⟩ := bind_eq_ok h
  obtain ⟨issuance, hissuance, h⟩ := bind_eq_ok h
  obtain rfl := Except.ok.inj h
  exact hissuance

theorem validateFulfillment_unique {input : StripeCheckoutFulfillmentInput} {v v' : ValidFulfillment} {now' : Int}
    (h : validateStripeCheckoutFulfillmentInput env input now = .ok v)
    (h' : validateStripeCheckoutFulfillmentInput env input now' = .ok v') : v = v' := by
  obtain ⟨event, hevent, h⟩ := bind_eq_ok h
  obtain ⟨_, -, h⟩ := bind_eq_ok h
  obtain ⟨hash, hhash, h⟩ := bind_eq_ok h
  obtain ⟨_, -, h⟩ := bind_eq_ok h
  obtain ⟨token, htoken, h⟩ := bind_eq_ok h
  obtain ⟨_, -, h⟩ := bind_eq_ok h
  obtain ⟨expiry, hexpiry, h⟩ := bind_eq_ok h
  obtain ⟨_, -, h⟩ := bind_eq_ok h
  obtain ⟨issuance, hissuance, h⟩ := bind_eq_ok h
  obtain ⟨event', hevent', h'⟩ := bind_eq_ok h'
  obtain ⟨_, -, h'⟩ := bind_eq_ok h'
  obtain ⟨hash', hhash', h'⟩ := bind_eq_ok h'
  obtain ⟨_, -, h'⟩ := bind_eq_ok h'
  obtain ⟨token', htoken', h'⟩ := bind_eq_ok h'
  obtain ⟨_, -, h'⟩ := bind_eq_ok h'
  obtain ⟨expiry', hexpiry', h'⟩ := bind_eq_ok h'
  obtain ⟨_, -, h'⟩ := bind_eq_ok h'
  obtain ⟨issuance', hissuance', h'⟩ := bind_eq_ok h'
  obtain rfl := Except.ok.inj (hevent.symm.trans hevent')
  obtain rfl := Except.ok.inj (hhash.symm.trans hhash')
  obtain rfl := Except.ok.inj (htoken.symm.trans htoken')
  obtain rfl := Except.ok.inj (hexpiry.symm.trans hexpiry')
  obtain rfl := Except.ok.inj (hissuance.symm.trans hissuance')
  exact (Except.ok.inj h).symm.trans (Except.ok.inj h')

section Mono

variable (hk : Keeps s t)
include hk

theorem CheckoutConflict.mono {rawKey : String} {input : IssueBoundCheckoutLicenseInput}
    (h : CheckoutConflict env s rawKey input) : CheckoutConflict env t rawKey input := by
  rcases h with ⟨i, hi, hbad⟩ | ⟨b, hb, hbad⟩
  · exact .inl ⟨i, hk.issuance _ i hi, hbad⟩
  · obtain ⟨b', hb', hinput, hkey, -⟩ := hk.binding b hb
    refine .inr ⟨b', hb', ?_⟩
    rw [hinput, hkey]
    exact hbad

theorem FulfillmentConflict.mono {rawKey : String} {validated : ValidFulfillment}
    (h : FulfillmentConflict env s rawKey validated) : FulfillmentConflict env t rawKey validated := by
  obtain ⟨f, hf, hbad⟩ := h
  obtain ⟨f', hf', hsame⟩ := hk.fulfillment f hf
  refine ⟨f', hf', ?_⟩
  rw [hsame]
  exact hbad

theorem BindConflict.mono {key : String} {requested : CheckoutSubscriptionBindingInput} {dryRun : Bool}
    (h : BindConflict s key requested dryRun) : BindConflict t key requested dryRun := by
  rcases h with ⟨i, hi, hbad⟩ | ⟨b, hb, hbad⟩
  · exact .inl ⟨i, hk.issuance _ i hi, hbad⟩
  · obtain ⟨b', hb', hinput, hkey, -⟩ := hk.binding b hb
    refine .inr ⟨b', hb', ?_⟩
    rw [hinput, hkey]
    exact hbad

theorem PurchaseCall.Conflicts.mono {call : PurchaseCall} (h : call.Conflicts env s) : call.Conflicts env t := by
  cases call with
  | issueIdempotentLicense rawKey input =>
    obtain ⟨i, hi, hbad⟩ := h
    exact ⟨i, hk.issuance _ i hi, hbad⟩
  | issueBoundCheckoutLicense rawKey input =>
    obtain ⟨validated, hvalid, hconflict⟩ := h
    exact ⟨validated, hvalid, hconflict.mono hk⟩
  | fulfillStripeCheckout rawKey input =>
    obtain ⟨now, validated, hvalid, hconflict⟩ := h
    exact ⟨now, validated, hvalid, hconflict.imp (·.mono hk) (·.mono hk)⟩
  | bindCheckoutSubscription key fields dryRun =>
    obtain ⟨trimmed, requested, htrimmed, hrequested, hconflict⟩ := h
    exact ⟨trimmed, requested, htrimmed, hrequested, hconflict.mono hk⟩

end Mono

theorem CheckoutOwned.no_conflict {rawKey : String} {input : IssueBoundCheckoutLicenseInput} {r : BoundIssuance}
    {i : LicenseIssuanceRow} (hs : Owned s) (h : CheckoutOwned env rawKey input s r i) :
    ¬ CheckoutConflict env s rawKey input := by
  rintro (⟨i', hi', hbad⟩ | ⟨b, hb, hbad⟩)
  · obtain rfl := Option.some.inj (h.issued.symm.trans hi')
    rcases hbad with hbad | hbad | hbad
    · exact hbad h.source
    · exact hbad h.requestHash
    · exact hbad h.hash
  · rcases hbad with ⟨hkey, hbad⟩ | ⟨htuple, hbad⟩
    · have hsame := s.bindings.eq_of_key_eq hb h.bound (hkey.trans h.key.symm)
      rw [hsame] at hbad
      exact hbad h.input
    · have hsame := hs.tuple b hb r.binding h.bound (by rw [htuple, h.input])
      rw [← hsame] at hbad
      exact hbad h.key

structure EventHeld (validated : ValidFulfillment) (hash : String) (s : Licenses) (f : StripeCheckoutFulfillmentRow) :
    Prop where
  stored : f ∈ s.fulfillments.rows
  event : f.stripeEventId = validated.stripeEventId
  eventHash : f.eventHash = validated.eventHash
  key : f.issuanceIdempotencyKey = validated.issuance.idempotencyKey
  hash : f.licenseKeyHash = hash
  checkout : f.externalCheckoutId = validated.issuance.binding.externalCheckoutId
  token : f.fulfillmentTokenHash = validated.fulfillmentTokenHash

theorem Fulfilled.held {validated : ValidFulfillment} {issuance : BoundIssuance} {r : FulfilledCheckout}
    (h : Fulfilled validated issuance s r t) : ∃ f, EventHeld validated issuance.record.licenseKeyHash t f := by
  cases h with
  | replayed existing event eventHash key hash checkout token =>
    exact ⟨existing, Table.mem_of_find? event, Table.key_of_find? event, eventHash, key, hash, checkout, token⟩
  | fulfilled row t event eventHash key hash checkout token inserted =>
    refine ⟨row, ?_, event, eventHash, key, hash, checkout, token⟩
    rw [inserted.rows]
    exact List.mem_append_right _ (List.mem_singleton_self _)

theorem EventHeld.no_conflict {validated : ValidFulfillment} {rawKey : String} {f : StripeCheckoutFulfillmentRow}
    (hs : Owned s) (h : EventHeld validated (Licenses.hashLicenseKey env.sha256 rawKey) s f) :
    ¬ FulfillmentConflict env s rawKey validated := by
  rintro ⟨f', hf', ⟨hevent, hbad⟩ | ⟨hevent, hbad⟩⟩
  · obtain rfl := s.fulfillments.eq_of_key_eq hf' h.stored (hevent.trans h.event.symm)
    rcases hbad with hbad | hbad | hbad | hbad | hbad
    · exact hbad h.eventHash
    · exact hbad h.key
    · exact hbad h.hash
    · exact hbad h.checkout
    · exact hbad h.token
  · rcases hbad with hcheckout | hkey
    · have hsame := hs.session f' hf' f h.stored (h.checkout.trans hcheckout.symm)
      exact hevent (hsame ▸ h.event)
    · have hsame := hs.key f' hf' f h.stored (h.key.trans hkey.symm)
      exact hevent (hsame ▸ h.event)

/-! ## One statement -/

def Settled (s : Licenses) (call : PurchaseCall) (a : PurchaseAnswer) : Prop :=
  ∀ hash, a.license = some hash → ∃ key i, call.idempotencyKey = some key ∧ s.getIssuanceEvent key = some i ∧
    i.licenseKeyHash = hash

theorem Settled.mono {call : PurchaseCall} {a : PurchaseAnswer} (hk : Keeps s t) (h : Settled s call a) :
    Settled t call a := by
  intro hash hlicense
  obtain ⟨key, i, hkey, hi, hhash⟩ := h hash hlicense
  exact ⟨key, i, hkey, hk.issuance key i hi, hhash⟩

/-- How far a connection is with its call. -/
inductive Stage (env : Env) (s : Licenses) (call : PurchaseCall) (p : PurchaseProg) : Prop
  | start (h : p = call.prog env)
  | inserting (rawKey : String) (input : IssueIdempotentLicenseInput) (hcall : call = .issueIdempotentLicense rawKey input)
      (h : p = issueAfterLookup env rawKey input none)
  | replaying (rawKey : String) (input : IssueIdempotentLicenseInput) (i : LicenseIssuanceRow)
      (hcall : call = .issueIdempotentLicense rawKey input) (issued : s.getIssuanceEvent input.idempotencyKey = some i)
      (requestHash : i.requestHash = input.requestHash)
      (hash : i.licenseKeyHash = Licenses.hashLicenseKey env.sha256 rawKey)
      (h : p = .call (.getLicenseByHash i.licenseKeyHash) replayedAnswer)
  | finished (a : PurchaseAnswer) (h : p = .done a) (settled : Settled s call a)
  | failed (e : StoreError) (h : p = .fail e)

theorem Stage.mono {call : PurchaseCall} {p : PurchaseProg} (hk : Keeps s t) (h : Stage env s call p) :
    Stage env t call p := by
  cases h with
  | start h => exact .start h
  | inserting rawKey input hcall h => exact .inserting rawKey input hcall h
  | replaying rawKey input i hcall issued requestHash hash h =>
    exact .replaying rawKey input i hcall (hk.issuance _ i issued) requestHash hash h
  | finished a h settled => exact .finished a h (settled.mono hk)
  | failed e h => exact .failed e h

theorem Stage.settled {call : PurchaseCall} {a : PurchaseAnswer} (h : Stage env s call (.done a)) :
    Settled s call a := by
  cases h with
  | start h =>
    cases call with
    | issueIdempotentLicense => cases h
    | issueBoundCheckoutLicense => cases h
    | fulfillStripeCheckout => cases h
    | bindCheckoutSubscription => cases h
  | inserting rawKey input hcall h => cases h
  | replaying rawKey input i hcall issued requestHash hash h => cases h
  | finished b h settled =>
    cases h
    exact settled
  | failed e h => cases h

/-- What a statement does: it only writes, it writes nothing unless it ends its call well, and a call that ends well
was not at odds with the store. -/
structure Stepped (env : Env) (s t : Licenses) (call : PurchaseCall) (p : PurchaseProg) : Prop where
  writes : Writes s t
  stage : Stage env t call p
  silent : t = s ∨ ∃ a, p = .done a
  agrees : ∀ a, p = .done a → ¬ call.Conflicts env s

theorem Stepped.still {call : PurchaseCall} {p : PurchaseProg} (hstage : Stage env s call p) (hp : ∀ a, p ≠ .done a) :
    Stepped env s s call p :=
  ⟨.refl, hstage, .inl rfl, fun a ha => absurd ha (hp a)⟩

theorem stepped_fail {call : PurchaseCall} (e : StoreError) : Stepped env s s call (.fail e) := by
  refine .still (.failed e rfl) ?_
  intro a ha
  cases ha

theorem stepped_lookup {rawKey : String} {input : IssueIdempotentLicenseInput} :
    Stepped env s s (.issueIdempotentLicense rawKey input)
      (issueAfterLookup env rawKey input (s.getIssuanceEvent input.idempotencyKey)) := by
  cases hissuance : s.getIssuanceEvent input.idempotencyKey with
  | none =>
    refine .still (.inserting rawKey input rfl rfl) ?_
    intro a ha
    cases ha
  | some i =>
    unfold issueAfterLookup
    dsimp only
    split
    · exact stepped_fail _
    · rename_i hrequest
      split
      · exact stepped_fail _
      · rename_i hhash
        refine .still
          (.replaying rawKey input i rfl hissuance (not_not.mp hrequest) (not_not.mp hhash).symm rfl) ?_
        intro a ha
        cases ha

theorem stepped_insert {rawKey : String} {input : IssueIdempotentLicenseInput} {r : Except StoreError LicenseRecord}
    (h : transaction (insertIdempotentLicense env rawKey input) s = (r, t)) :
    Stepped env s t (.issueIdempotentLicense rawKey input) (answering (r.map fun record => .issued record false)) := by
  rcases transaction_cases h with ⟨record, rfl, hbody⟩ | ⟨e, rfl, rfl⟩
  · obtain ⟨⟨record', s1⟩, hlicense, hbody⟩ := bind_eq_ok hbody
    obtain ⟨s2, hissuance, hbody⟩ := bind_eq_ok hbody
    obtain ⟨rfl, rfl⟩ := Prod.mk.inj (Except.ok.inj hbody)
    obtain ⟨rfl, hinserted⟩ := insertLicense_spec hlicense
    show Stepped env s _ _ (.done (.issued _ false))
    have hevent := insertIssuanceEvent_spec hissuance
    have hfree : s.getIssuanceEvent input.idempotencyKey = none := by
      have hnone : s1.getIssuanceEvent input.idempotencyKey = none := hevent.free
      rw [hinserted.frame] at hnone
      exact hnone
    refine ⟨?_, .finished _ rfl ?_, .inr ⟨_, rfl⟩, ?_⟩
    · exact (Relation.ReflTransGen.single hinserted.writes).tail (.issuance _ hevent hinserted.licensed)
    · intro hash hlicense
      refine ⟨_, _, rfl, (hevent.find _).trans (if_pos rfl), Option.some.inj hlicense⟩
    · rintro a - ⟨i, hi, -⟩
      rw [hfree] at hi
      cases hi
  · exact stepped_fail e

theorem stepped_replay {rawKey : String} {input : IssueIdempotentLicenseInput} {i : LicenseIssuanceRow}
    (issued : s.getIssuanceEvent input.idempotencyKey = some i) (requestHash : i.requestHash = input.requestHash)
    (hash : i.licenseKeyHash = Licenses.hashLicenseKey env.sha256 rawKey) :
    Stepped env s s (.issueIdempotentLicense rawKey input) (replayedAnswer (s.getLicenseByHash i.licenseKeyHash)) := by
  cases hrecord : s.getLicenseByHash i.licenseKeyHash with
  | none => exact stepped_fail _
  | some record =>
    show Stepped env s s _ (.done (.issued record true))
    obtain ⟨row, hrow, hmap⟩ := Option.map_eq_some_iff.mp hrecord
    have hhash : record.licenseKeyHash = i.licenseKeyHash := by
      rw [← hmap]
      exact (Table.key_of_find? hrow : row.licenseKeyHash = _)
    refine ⟨.refl, .finished _ rfl ?_, .inl rfl, ?_⟩
    · intro found hfound
      exact ⟨_, i, rfl, issued, hhash.symm.trans (Option.some.inj hfound)⟩
    · rintro a - ⟨other, hother, hbad⟩
      obtain rfl := Option.some.inj (issued.symm.trans hother)
      rcases hbad with hbad | hbad
      · exact hbad requestHash
      · exact hbad hash

theorem stepped_bound {rawKey : String} {input : IssueBoundCheckoutLicenseFields} {r : Except StoreError BoundIssuance}
    (hs : Owned s) (h : transaction (issueBoundCheckoutLicense env now rawKey input) s = (r, t)) :
    Stepped env s t (.issueBoundCheckoutLicense rawKey input) (answering (r.map .checkout)) := by
  rcases transaction_cases h with ⟨issuance, rfl, hbody⟩ | ⟨e, rfl, rfl⟩
  · show Stepped env s t _ (.done (.checkout issuance))
    obtain ⟨validated, hvalid, hbody⟩ := bind_eq_ok hbody
    have hwrites := issueBound_writes hbody
    obtain ⟨i, howned⟩ := issueBound_owned hs hbody
    refine ⟨hwrites, .finished _ rfl ?_, .inr ⟨_, rfl⟩, ?_⟩
    · intro hash hlicense
      refine ⟨validated.idempotencyKey, i, ?_, howned.issued, howned.record.symm.trans (Option.some.inj hlicense)⟩
      simp [PurchaseCall.idempotencyKey, hvalid, Except.toOption]
    · rintro a - ⟨other, hother, hconflict⟩
      obtain rfl := Except.ok.inj (hvalid.symm.trans hother)
      exact howned.no_conflict (hwrites.owned hs) (hconflict.mono hwrites.keeps)
  · exact stepped_fail e

theorem stepped_fulfill {rawKey : String} {input : StripeCheckoutFulfillmentInput}
    {r : Except StoreError FulfilledCheckout} (hs : Owned s)
    (h : transaction (fulfillStripeCheckout env now rawKey input) s = (r, t)) :
    Stepped env s t (.fulfillStripeCheckout rawKey input) (answering (r.map .fulfilled)) := by
  rcases transaction_cases h with ⟨fulfillment, rfl, hbody⟩ | ⟨e, rfl, rfl⟩
  · show Stepped env s t _ (.done (.fulfilled fulfillment))
    obtain ⟨validated, issuance, s1, hvalid, hissuance, hfulfilled⟩ := fulfillStripeCheckout_cases hbody
    have hwrites := issueBound_writes hissuance
    obtain ⟨i, howned⟩ := issueBound_owned hs hissuance
    have hfulfill := fulfilled_writes howned hfulfilled
    have hall : Writes s t := hwrites.trans hfulfill
    have hsame : fulfillment.record = issuance.record := by cases hfulfilled <;> rfl
    obtain ⟨f, hheld⟩ := hfulfilled.held
    rw [howned.record, howned.hash] at hheld
    refine ⟨hall, .finished _ rfl ?_, .inr ⟨_, rfl⟩, ?_⟩
    · intro hash hlicense
      refine ⟨validated.issuance.idempotencyKey, i, ?_, hfulfill.keeps.issuance _ i howned.issued, ?_⟩
      · simp [PurchaseCall.idempotencyKey, validateFulfillment_issuance hvalid, Except.toOption]
      · rw [← Option.some.inj hlicense, hsame, howned.record]
    · rintro a - ⟨other, validated', hother, hconflict⟩
      obtain rfl := validateFulfillment_unique hvalid hother
      rcases hconflict with hconflict | hconflict
      · exact howned.no_conflict (hwrites.owned hs) (hconflict.mono hwrites.keeps)
      · exact hheld.no_conflict (hall.owned hs) (hconflict.mono hall.keeps)
  · exact stepped_fail e

theorem BoundLegacy.no_conflict {key : String} {requested : CheckoutSubscriptionBindingInput}
    {issuance : LicenseIssuanceRow} {dryRun : Bool} (hs : Owned s) (h : BoundLegacy key requested issuance dryRun s t)
    (hissuance : s.getIssuanceEvent key = some issuance) (hsource : issuance.source = some "checkout") :
    ¬ BindConflict s key requested dryRun := by
  rintro (⟨i, hi, hbad⟩ | ⟨b, hb, hbad⟩)
  · obtain rfl := Option.some.inj (hissuance.symm.trans hi)
    exact hbad hsource
  · cases h with
    | kept b' existing hash same =>
      have hmem := Table.mem_of_find? existing
      have hkey' : b'.issuanceIdempotencyKey = key := Table.key_of_find? existing
      rcases hbad with ⟨hkey, hbad⟩ | ⟨-, htuple, hbad⟩
      · obtain rfl := s.bindings.eq_of_key_eq hb hmem (hkey.trans hkey'.symm)
        exact hbad same
      · obtain rfl := hs.tuple b hb b' hmem (by rw [htuple, same])
        exact hbad hkey'
    | dry free dry =>
      rcases hbad with ⟨hkey, -⟩ | ⟨hdry, -⟩
      · exact Table.find?_eq_none.mp free b hb hkey
      · rw [dry] at hdry
        cases hdry
    | bound t free inserted =>
      rcases hbad with ⟨hkey, -⟩ | ⟨-, htuple, -⟩
      · exact Table.find?_eq_none.mp free b hb hkey
      · exact (inserted.fresh b hb).2 htuple

theorem stepped_bind {key : String} {fields : BindingFields} {dryRun : Bool} {r : Except StoreError BindResult}
    (hs : Owned s) (h : transaction (bindCheckoutSubscription env key fields dryRun) s = (r, t)) :
    Stepped env s t (.bindCheckoutSubscription key fields dryRun) (answering (r.map .binding)) := by
  rcases transaction_cases h with ⟨result, rfl, hbody⟩ | ⟨e, rfl, rfl⟩
  · show Stepped env s t _ (.done (.binding result))
    obtain ⟨trimmed, requested, issuance, htrimmed, hrequested, hissuance, hsource, hbound⟩ :=
      bindCheckoutSubscription_cases hbody
    refine ⟨hbound.writes hissuance hsource, .finished _ rfl ?_, .inr ⟨_, rfl⟩, ?_⟩
    · intro hash hlicense
      cases hlicense
    · rintro a - ⟨trimmed', requested', htrimmed', hrequested', hconflict⟩
      obtain rfl := Except.ok.inj (htrimmed.symm.trans htrimmed')
      obtain rfl := Except.ok.inj (hrequested.symm.trans hrequested')
      exact hbound.no_conflict hs hissuance hsource hconflict
  · exact stepped_fail e

theorem stepped_exec {call : PurchaseCall} {act : PurchaseAct} {k : act.Answer → PurchaseProg} {r : act.Answer}
    (hs : Owned s) (hstage : Stage env s call (.call act k)) (hexec : act.exec env now s = (r, t)) :
    Stepped env s t call (k r) := by
  cases hstage with
  | start h =>
    cases call with
    | issueIdempotentLicense rawKey input =>
      cases h
      obtain ⟨rfl, rfl⟩ := Prod.mk.inj hexec
      exact stepped_lookup
    | issueBoundCheckoutLicense rawKey input =>
      cases h
      exact stepped_bound hs hexec
    | fulfillStripeCheckout rawKey input =>
      cases h
      exact stepped_fulfill hs hexec
    | bindCheckoutSubscription key fields dryRun =>
      cases h
      exact stepped_bind hs hexec
  | inserting rawKey input hcall h =>
    subst hcall
    cases h
    exact stepped_insert hexec
  | replaying rawKey input i hcall issued requestHash hash h =>
    subst hcall
    cases h
    obtain ⟨rfl, rfl⟩ := Prod.mk.inj hexec
    exact stepped_replay issued requestHash hash
  | finished a h settled => cases h
  | failed e h => cases h

/-! ## Interleavings -/

variable {ι : Type} [DecidableEq ι] {calls : ι → PurchaseCall} {w w' : PurchaseWorld ι}

/-- The store's owners are in order, and every connection is somewhere in its call. -/
structure Purchasing (env : Env) (calls : ι → PurchaseCall) (w : PurchaseWorld ι) : Prop where
  owned : Owned w.shared
  stage : ∀ i, Stage env w.shared (calls i) (w.progs i)

omit [DecidableEq ι] in
theorem purchasing_start (env : Env) (calls : ι → PurchaseCall) : Purchasing env calls (purchasing env calls) :=
  ⟨.empty, fun _ => .start rfl⟩

theorem purchase_act {i : ι} {now : Int} (hw : Purchasing env calls w)
    (h : World.step (purchases env) w (.act i now) = some w') :
    Stepped env w.shared w'.shared (calls i) (w'.progs i) ∧ ∀ j, j ≠ i → w'.progs j = w.progs j := by
  obtain ⟨act, k, r, t, hprog, hexec, rfl⟩ := World.act_cases h
  have hstage := hw.stage i
  rw [hprog] at hstage
  have hstep := stepped_exec hw.owned hstage (Option.some.inj hexec)
  constructor
  · show Stepped env w.shared t (calls i) (Function.update w.progs i (k r) i)
    rw [Function.update_self]
    exact hstep
  · intro j hj
    exact Function.update_of_ne hj _ _

theorem purchase_ambient {now : Int} {call : StoreCall} (hw : Purchasing env calls w)
    (h : World.step (purchases env) w (.ambient (now, call)) = some w') :
    Writes w.shared w'.shared ∧ w'.progs = w.progs := by
  obtain ⟨t, ht, rfl⟩ := World.ambient_cases h
  refine ⟨?_, rfl⟩
  cases hcommit : call.commit env now w.shared with
  | error e =>
    have ht : (call.commit env now w.shared).toOption = some t := ht
    rw [hcommit] at ht
    cases ht
  | ok u =>
    have ht : (call.commit env now w.shared).toOption = some t := ht
    rw [hcommit] at ht
    obtain rfl := Option.some.inj ht
    exact commit_writes hw.owned hcommit

theorem purchase_writes {l : Label ι Int (Int × StoreCall)} (hw : Purchasing env calls w)
    (h : World.step (purchases env) w l = some w') : Writes w.shared w'.shared := by
  cases l with
  | act i now => exact (purchase_act hw h).1.writes
  | ambient t => exact (purchase_ambient hw h).1

theorem purchasing_step {l : Label ι Int (Int × StoreCall)} (hw : Purchasing env calls w)
    (h : World.step (purchases env) w l = some w') : Purchasing env calls w' := by
  have hwrites := purchase_writes hw h
  refine ⟨hwrites.owned hw.owned, ?_⟩
  intro j
  cases l with
  | act i now =>
    obtain ⟨hstep, hothers⟩ := purchase_act hw h
    by_cases hj : j = i
    · exact hj ▸ hstep.stage
    · rw [hothers j hj]
      exact (hw.stage j).mono hwrites.keeps
  | ambient t =>
    rw [(purchase_ambient hw h).2]
    exact (hw.stage j).mono hwrites.keeps

theorem purchasing_run {labels : List (Label ι Int (Int × StoreCall))}
    (h : run (World.step (purchases env)) (purchasing env calls) labels = some w) : Purchasing env calls w :=
  run_invariant (fun _ _ _ hw hstep => purchasing_step hw hstep) (purchasing_start env calls) h

theorem conflict_step {l : Label ι Int (Int × StoreCall)} {i : ι} (hw : Purchasing env calls w)
    (hconflict : (calls i).Conflicts env w.shared) (hopen : ∀ a, w.progs i ≠ .done a)
    (h : World.step (purchases env) w l = some w') :
    (calls i).Conflicts env w'.shared ∧ ∀ a, w'.progs i ≠ .done a := by
  refine ⟨hconflict.mono (purchase_writes hw h).keeps, ?_⟩
  cases l with
  | act j now =>
    obtain ⟨hstep, hothers⟩ := purchase_act hw h
    by_cases hj : i = j
    · subst hj
      intro a ha
      exact hstep.agrees a ha hconflict
    · rw [hothers i hj]
      exact hopen
  | ambient t =>
    rw [(purchase_ambient hw h).2]
    exact hopen

theorem conflict_run {labels : List (Label ι Int (Int × StoreCall))} {i : ι} (hw : Purchasing env calls w)
    (hconflict : (calls i).Conflicts env w.shared) (hopen : ∀ a, w.progs i ≠ .done a)
    (h : run (World.step (purchases env)) w labels = some w') : ∀ a, w'.progs i ≠ .done a := by
  have hkept : Purchasing env calls w' ∧ (calls i).Conflicts env w'.shared ∧ ∀ a, w'.progs i ≠ .done a := by
    apply run_invariant (I := fun w : PurchaseWorld ι =>
      Purchasing env calls w ∧ (calls i).Conflicts env w.shared ∧ ∀ a, w.progs i ≠ .done a) ?_ ⟨hw, hconflict, hopen⟩ h
    rintro w l w' ⟨hw, hconflict, hopen⟩ hstep
    exact ⟨purchasing_step hw hstep, conflict_step hw hconflict hopen hstep⟩
  exact hkept.2.2

/-! ## Exactly one licence -/

/-- One stored licence is named by `R`, and no other. -/
def OneLicense (s : Licenses) (R : String → Prop) : Prop :=
  ∃ row, s.licenses.find? row.licenseKeyHash = some row ∧ R row.licenseKeyHash ∧
    ∀ hash, R hash → hash = row.licenseKeyHash

def OfSubscription (s : Licenses) (tuple : String × ProviderMode × String) (hash : String) : Prop :=
  ∃ b ∈ s.bindings.rows, b.tuple = tuple ∧ b.licenseKeyHash = hash

/-- An issuance event, a binding or a fulfilment names the licence for an idempotency key. -/
def OfKey (s : Licenses) (key hash : String) : Prop :=
  (∃ i, s.getIssuanceEvent key = some i ∧ i.licenseKeyHash = hash) ∨
    (∃ b ∈ s.bindings.rows, b.issuanceIdempotencyKey = key ∧ b.licenseKeyHash = hash) ∨
    ∃ f ∈ s.fulfillments.rows, f.issuanceIdempotencyKey = key ∧ f.licenseKeyHash = hash

def OfSession (s : Licenses) (externalCheckoutId hash : String) : Prop :=
  ∃ f ∈ s.fulfillments.rows, f.externalCheckoutId = externalCheckoutId ∧ f.licenseKeyHash = hash

def OfEvent (s : Licenses) (stripeEventId hash : String) : Prop :=
  ∃ f ∈ s.fulfillments.rows, f.stripeEventId = stripeEventId ∧ f.licenseKeyHash = hash

namespace Owned

theorem ofKey (hs : Owned s) {key : String} {i : LicenseIssuanceRow} (hi : s.getIssuanceEvent key = some i)
    {hash : String} (h : OfKey s key hash) : hash = i.licenseKeyHash := by
  rcases h with ⟨i', hi', rfl⟩ | ⟨b, hb, rfl, rfl⟩ | ⟨f, hf, rfl, rfl⟩
  · rw [Option.some.inj (hi'.symm.trans hi)]
  · obtain ⟨i', hi', -, hhash⟩ := hs.bound b hb
    rw [← hhash, Option.some.inj (hi'.symm.trans hi)]
  · obtain ⟨b, hb, hkey, hhash, -⟩ := hs.fulfilled f hf
    obtain ⟨i', hi', -, hhash'⟩ := hs.bound b hb
    rw [hkey] at hi'
    rw [← hhash, ← hhash', Option.some.inj (hi'.symm.trans hi)]

theorem licensed (hs : Owned s) {b : CheckoutSubscriptionBindingRow} (hb : b ∈ s.bindings.rows) :
    ∃ row, s.licenses.find? row.licenseKeyHash = some row ∧ row.licenseKeyHash = b.licenseKeyHash := by
  obtain ⟨i, hi, -, hhash⟩ := hs.bound b hb
  obtain ⟨row, hrow⟩ := hs.issued _ i hi
  have hkey : row.licenseKeyHash = i.licenseKeyHash := Table.key_of_find? hrow
  exact ⟨row, by rw [hkey]; exact hrow, hkey.trans hhash⟩

theorem oneForSubscription (hs : Owned s) {b : CheckoutSubscriptionBindingRow} (hb : b ∈ s.bindings.rows) :
    OneLicense s (OfSubscription s b.tuple) := by
  obtain ⟨row, hrow, hhash⟩ := hs.licensed hb
  refine ⟨row, hrow, ⟨b, hb, rfl, hhash.symm⟩, ?_⟩
  rintro hash ⟨b', hb', htuple, rfl⟩
  rw [hs.tuple b hb b' hb' htuple, hhash]

theorem oneForKey (hs : Owned s) {b : CheckoutSubscriptionBindingRow} (hb : b ∈ s.bindings.rows) :
    OneLicense s (OfKey s b.issuanceIdempotencyKey) := by
  obtain ⟨row, hrow, hhash⟩ := hs.licensed hb
  obtain ⟨i, hi, -, hihash⟩ := hs.bound b hb
  refine ⟨row, hrow, .inr (.inl ⟨b, hb, rfl, hhash.symm⟩), ?_⟩
  intro hash h
  rw [hs.ofKey hi h, hihash, hhash]

theorem oneForFulfillment (hs : Owned s) {f : StripeCheckoutFulfillmentRow} (hf : f ∈ s.fulfillments.rows) :
    OneLicense s (OfSession s f.externalCheckoutId) ∧ OneLicense s (OfEvent s f.stripeEventId) ∧
      OneLicense s (OfKey s f.issuanceIdempotencyKey) := by
  obtain ⟨b, hb, hkey, hhash, -⟩ := hs.fulfilled f hf
  obtain ⟨row, hrow, hrowHash⟩ := hs.licensed hb
  refine ⟨⟨row, hrow, ⟨f, hf, rfl, (hrowHash.trans hhash).symm⟩, ?_⟩,
    ⟨row, hrow, ⟨f, hf, rfl, (hrowHash.trans hhash).symm⟩, ?_⟩, hkey ▸ hs.oneForKey hb⟩
  · rintro hash ⟨f', hf', hsession, rfl⟩
    rw [hs.session f hf f' hf' hsession, hrowHash, hhash]
  · rintro hash ⟨f', hf', hevent, rfl⟩
    rw [s.fulfillments.eq_of_key_eq hf' hf hevent, hrowHash, hhash]

end Owned

/-- Over every interleaving of the calls of any connections: each bound subscription, each checkout-bound key and each
fulfilled session and event belongs to exactly one licence, and the issuance, the binding and the fulfilment of a key
name the same one; calls that return a licence for one key return one licence; a statement that does not end its call
well leaves the store as it was; and a call that is at odds with the store never ends well. -/
theorem one_licence_per_purchase {labels : List (Label ι Int (Int × StoreCall))}
    (hrun : run (World.step (purchases env)) (purchasing env calls) labels = some w) :
    (∀ b ∈ w.shared.bindings.rows, OneLicense w.shared (OfSubscription w.shared b.tuple) ∧
      OneLicense w.shared (OfKey w.shared b.issuanceIdempotencyKey)) ∧
    (∀ f ∈ w.shared.fulfillments.rows, OneLicense w.shared (OfSession w.shared f.externalCheckoutId) ∧
      OneLicense w.shared (OfEvent w.shared f.stripeEventId) ∧
      OneLicense w.shared (OfKey w.shared f.issuanceIdempotencyKey)) ∧
    (∀ i j a b key hash hash', (calls i).idempotencyKey = some key → (calls j).idempotencyKey = some key →
      w.progs i = .done a → w.progs j = .done b → a.license = some hash → b.license = some hash' → hash = hash') ∧
    (∀ i now w', World.step (purchases env) w (.act i now) = some w' →
      w'.shared = w.shared ∨ ∃ a, w'.progs i = .done a) ∧
    (∀ i more w', (calls i).Conflicts env w.shared → (∀ a, w.progs i ≠ .done a) →
      run (World.step (purchases env)) w more = some w' → ∀ a, w'.progs i ≠ .done a) := by
  have hw := purchasing_run hrun
  refine ⟨?_, ?_, ?_, ?_, ?_⟩
  · intro b hb
    exact ⟨hw.owned.oneForSubscription hb, hw.owned.oneForKey hb⟩
  · intro f hf
    exact hw.owned.oneForFulfillment hf
  · intro i j a b key hash hash' hi hj ha hb hlicense hlicense'
    obtain ⟨key', k, hkey, hk, rfl⟩ := (ha ▸ hw.stage i).settled hash hlicense
    obtain ⟨key'', k', hkey', hk', rfl⟩ := (hb ▸ hw.stage j).settled hash' hlicense'
    obtain rfl := Option.some.inj (hi.symm.trans hkey)
    obtain rfl := Option.some.inj (hj.symm.trans hkey')
    rw [Option.some.inj (hk.symm.trans hk')]
  · intro i now w' hstep
    exact (purchase_act hw hstep).1.silent
  · intro i more w' hconflict hopen hmore
    exact conflict_run hw hconflict hopen hmore

/-- Two connections with the same checkout, one of which is the first. -/
def twoCheckouts : Bool → PurchaseCall := fun _ =>
  .issueBoundCheckoutLicense "nd_live_1"
    ⟨"checkout-session:cs_1", "neondiff_monthly", ⟨"stripe", "acct_1", "test", "sub_1", "cs_1"⟩⟩

def twoCheckoutsRun : Option (PurchaseWorld Bool) :=
  run (World.step (purchases plainEnv)) (purchasing plainEnv twoCheckouts)
    [.act true 1700000000000, .act false 1700000001000]

/-- Both are done, and there is one binding, whose subscription has one licence. -/
theorem one_licence_per_purchase_twice :
    ∃ w, twoCheckoutsRun = some w ∧ w.shared.bindings.rows.length = 1 ∧
      ∀ b ∈ w.shared.bindings.rows, OneLicense w.shared (OfSubscription w.shared b.tuple) := by
  have hlength : twoCheckoutsRun.map (fun w => w.shared.bindings.rows.length) = some 1 := by decide +kernel
  obtain ⟨w, hw, hone⟩ := Option.map_eq_some_iff.mp hlength
  refine ⟨w, hw, hone, ?_⟩
  intro b hb
  exact ((one_licence_per_purchase hw).1 b hb).1

end NeonDiff.License
