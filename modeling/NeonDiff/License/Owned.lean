import Mathlib.Logic.Relation
import NeonDiff.License.Changes

/-! # What belongs to a licence

Every operation is a chain of writes, each of one table. What the tables say of the owner of a checkout is kept by
every write.
-/

namespace NeonDiff.License

open NeonDiff.Lib Relation

variable {env : Env} {s t u : Licenses}

/-! ## Writes -/

/-- One write of a table, with what the operations make sure of before it. -/
inductive Write (s t : Licenses) : Prop
  | licenses (kept : ∀ k row, s.licenses.find? k = some row → ∃ row', t.licenses.find? k = some row')
      (frame : t = { s with licenses := t.licenses })
  | issuance (row : LicenseIssuanceRow) (inserted : InsertedIssuance row s t)
      (licensed : ∃ license, s.licenses.find? row.licenseKeyHash = some license)
  | binding (row : CheckoutSubscriptionBindingRow) (inserted : InsertedBinding row s t) (i : LicenseIssuanceRow)
      (issued : s.getIssuanceEvent row.issuanceIdempotencyKey = some i) (source : i.source = some "checkout")
      (hash : i.licenseKeyHash = row.licenseKeyHash)
  | noted (f : CheckoutSubscriptionBindingRow → CheckoutSubscriptionBindingRow)
      (same : ∀ b, (f b).toCheckoutSubscriptionBindingInput = b.toCheckoutSubscriptionBindingInput ∧
        (f b).issuanceIdempotencyKey = b.issuanceIdempotencyKey ∧ (f b).licenseKeyHash = b.licenseKeyHash)
      (rows : t.bindings.rows = s.bindings.rows.map f) (frame : t = { s with bindings := t.bindings })
  | fulfillment (row : StripeCheckoutFulfillmentRow) (inserted : InsertedFulfillment row s t)
      (b : CheckoutSubscriptionBindingRow) (bound : b ∈ s.bindings.rows)
      (key : b.issuanceIdempotencyKey = row.issuanceIdempotencyKey) (hash : b.licenseKeyHash = row.licenseKeyHash)
      (checkout : b.externalCheckoutId = row.externalCheckoutId)
  | redeemed (g : StripeCheckoutFulfillmentRow → StripeCheckoutFulfillmentRow)
      (same : ∀ f, g f = { f with redeemedAt := (g f).redeemedAt })
      (rows : t.fulfillments.rows = s.fulfillments.rows.map g) (frame : t = { s with fulfillments := t.fulfillments })
  | other (frame : t = { s with activations := t.activations, lifecycleEvents := t.lifecycleEvents })

/-! ## Owners -/

/-- An issuance's licence is stored, a binding is that of a checkout issuance with the same licence, no two bindings
have one subscription, a fulfilment is that of a binding, and no two fulfilments have one session or one issuance. -/
structure Owned (s : Licenses) : Prop where
  issued : ∀ key i, s.getIssuanceEvent key = some i → ∃ row, s.licenses.find? i.licenseKeyHash = some row
  bound : ∀ b ∈ s.bindings.rows, ∃ i, s.getIssuanceEvent b.issuanceIdempotencyKey = some i ∧
    i.source = some "checkout" ∧ i.licenseKeyHash = b.licenseKeyHash
  tuple : ∀ b ∈ s.bindings.rows, ∀ b' ∈ s.bindings.rows, b'.tuple = b.tuple → b' = b
  fulfilled : ∀ f ∈ s.fulfillments.rows, ∃ b ∈ s.bindings.rows, b.issuanceIdempotencyKey = f.issuanceIdempotencyKey ∧
    b.licenseKeyHash = f.licenseKeyHash ∧ b.externalCheckoutId = f.externalCheckoutId
  session : ∀ f ∈ s.fulfillments.rows, ∀ f' ∈ s.fulfillments.rows, f'.externalCheckoutId = f.externalCheckoutId → f' = f
  key : ∀ f ∈ s.fulfillments.rows, ∀ f' ∈ s.fulfillments.rows,
    f'.issuanceIdempotencyKey = f.issuanceIdempotencyKey → f' = f

theorem Owned.empty : Owned {} := by
  refine ⟨?_, ?_, ?_, ?_, ?_, ?_⟩
  · intro key i h
    cases h
  · intro b hb
    cases hb
  · intro b hb
    cases hb
  · intro f hf
    cases hf
  · intro f hf
    cases hf
  · intro f hf
    cases hf

theorem unique_concat {ρ ν : Type} {n : ρ → ν} {rows : List ρ} {row : ρ}
    (h : ∀ a ∈ rows, ∀ b ∈ rows, n b = n a → b = a) (hnew : ∀ a ∈ rows, n a ≠ n row) :
    ∀ a ∈ rows ++ [row], ∀ b ∈ rows ++ [row], n b = n a → b = a := by
  intro a ha b hb hname
  rw [List.mem_append, List.mem_singleton] at ha hb
  rcases ha with ha | rfl
  · rcases hb with hb | rfl
    · exact h a ha b hb hname
    · exact absurd hname.symm (hnew a ha)
  · rcases hb with hb | rfl
    · exact absurd hname (hnew b hb)
    · rfl

theorem unique_map {ρ ν : Type} {n : ρ → ν} {rows : List ρ} {f : ρ → ρ} (hf : ∀ r, n (f r) = n r)
    (h : ∀ a ∈ rows, ∀ b ∈ rows, n b = n a → b = a) :
    ∀ a ∈ rows.map f, ∀ b ∈ rows.map f, n b = n a → b = a := by
  intro a ha b hb hname
  obtain ⟨a', ha', rfl⟩ := List.mem_map.mp ha
  obtain ⟨b', hb', rfl⟩ := List.mem_map.mp hb
  rw [hf, hf] at hname
  rw [h a' ha' b' hb' hname]

theorem InsertedIssuance.kept {row i : LicenseIssuanceRow} {key : String} (h : InsertedIssuance row s t)
    (hi : s.getIssuanceEvent key = some i) : t.getIssuanceEvent key = some i := by
  rw [h.find, if_neg]
  · exact hi
  · rintro rfl
    rw [h.free] at hi
    cases hi

theorem InsertedLicense.kept {row r : LicenseRecord} {k : String} (h : InsertedLicense row s t)
    (hr : s.licenses.find? k = some r) : t.licenses.find? k = some r := by
  rw [h.find, if_neg]
  · exact hr
  · rintro rfl
    rw [h.free] at hr
    cases hr

theorem Write.owned (h : Write s t) (hs : Owned s) : Owned t := by
  cases h with
  | licenses kept frame =>
    rw [frame]
    refine ⟨?_, hs.bound, hs.tuple, hs.fulfilled, hs.session, hs.key⟩
    intro key i hi
    obtain ⟨row, hrow⟩ := hs.issued key i hi
    exact kept _ row hrow
  | issuance row inserted licensed =>
    have hbindings : t.bindings = s.bindings := by rw [inserted.frame]
    have hfulfillments : t.fulfillments = s.fulfillments := by rw [inserted.frame]
    refine ⟨?_, ?_, hbindings ▸ hs.tuple, ?_, hfulfillments ▸ hs.session, hfulfillments ▸ hs.key⟩
    · intro key i hi
      rw [inserted.find] at hi
      rw [inserted.licenses]
      split at hi
      · exact Option.some.inj hi ▸ licensed
      · exact hs.issued key i hi
    · intro b hb
      obtain ⟨i, hi, hrest⟩ := hs.bound b (hbindings ▸ hb)
      exact ⟨i, inserted.kept hi, hrest⟩
    · rw [hbindings, hfulfillments]
      exact hs.fulfilled
  | binding row inserted i issued source hash =>
    have hevents : ∀ key, t.getIssuanceEvent key = s.getIssuanceEvent key := by
      intro key
      rw [inserted.frame]
      rfl
    have hfulfillments : t.fulfillments = s.fulfillments := by rw [inserted.frame]
    refine ⟨?_, ?_, ?_, ?_, hfulfillments ▸ hs.session, hfulfillments ▸ hs.key⟩
    · intro key i hi
      rw [hevents] at hi
      rw [inserted.licenses]
      exact hs.issued key i hi
    · intro b hb
      rw [inserted.rows, List.mem_append, List.mem_singleton] at hb
      rw [hevents]
      rcases hb with hb | rfl
      · exact hs.bound b hb
      · exact ⟨i, issued, source, hash⟩
    · rw [inserted.rows]
      exact unique_concat (n := fun b : CheckoutSubscriptionBindingRow => b.tuple) hs.tuple
        fun b hb => (inserted.fresh b hb).2
    · intro f hf
      obtain ⟨b, hb, hrest⟩ := hs.fulfilled f (hfulfillments ▸ hf)
      exact ⟨b, by rw [inserted.rows]; exact List.mem_append_left _ hb, hrest⟩
  | noted f same rows frame =>
    have hevents : ∀ key, t.getIssuanceEvent key = s.getIssuanceEvent key := by
      intro key
      rw [frame]
      rfl
    have hlicenses : t.licenses = s.licenses := by rw [frame]
    have hfulfillments : t.fulfillments = s.fulfillments := by rw [frame]
    refine ⟨?_, ?_, ?_, ?_, hfulfillments ▸ hs.session, hfulfillments ▸ hs.key⟩
    · intro key i hi
      rw [hevents] at hi
      rw [hlicenses]
      exact hs.issued key i hi
    · intro b hb
      rw [rows] at hb
      obtain ⟨old, hold, rfl⟩ := List.mem_map.mp hb
      rw [hevents, (same old).2.1, (same old).2.2]
      exact hs.bound old hold
    · rw [rows]
      apply unique_map (n := fun b : CheckoutSubscriptionBindingRow => b.tuple) _ hs.tuple
      intro b
      rw [(same b).1]
    · intro fulfillment hf
      obtain ⟨b, hb, hkey, hhash, hcheckout⟩ := hs.fulfilled fulfillment (hfulfillments ▸ hf)
      refine ⟨f b, by rw [rows]; exact List.mem_map_of_mem hb, (same b).2.1.trans hkey, (same b).2.2.trans hhash, ?_⟩
      rw [(same b).1]
      exact hcheckout
  | fulfillment row inserted b bound key hash checkout =>
    have hevents : ∀ key, t.getIssuanceEvent key = s.getIssuanceEvent key := by
      intro key
      rw [inserted.frame]
      rfl
    have hbindings : t.bindings = s.bindings := by rw [inserted.frame]
    refine ⟨?_, ?_, hbindings ▸ hs.tuple, ?_, ?_, ?_⟩
    · intro key i hi
      rw [hevents] at hi
      rw [inserted.licenses]
      exact hs.issued key i hi
    · intro b hb
      rw [hevents]
      exact hs.bound b (hbindings ▸ hb)
    · intro f hf
      rw [hbindings]
      rw [inserted.rows, List.mem_append, List.mem_singleton] at hf
      rcases hf with hf | rfl
      · exact hs.fulfilled f hf
      · exact ⟨b, bound, key, hash, checkout⟩
    · rw [inserted.rows]
      exact unique_concat (n := fun f : StripeCheckoutFulfillmentRow => f.externalCheckoutId) hs.session
        fun f hf => (inserted.fresh f hf).2.2.1
    · rw [inserted.rows]
      exact unique_concat (n := fun f : StripeCheckoutFulfillmentRow => f.issuanceIdempotencyKey) hs.key
        fun f hf => (inserted.fresh f hf).1
  | redeemed g same rows frame =>
    have hevents : ∀ key, t.getIssuanceEvent key = s.getIssuanceEvent key := by
      intro key
      rw [frame]
      rfl
    have hlicenses : t.licenses = s.licenses := by rw [frame]
    have hbindings : t.bindings = s.bindings := by rw [frame]
    refine ⟨?_, ?_, hbindings ▸ hs.tuple, ?_, ?_, ?_⟩
    · intro key i hi
      rw [hevents] at hi
      rw [hlicenses]
      exact hs.issued key i hi
    · intro b hb
      rw [hevents]
      exact hs.bound b (hbindings ▸ hb)
    · intro f hf
      rw [hbindings]
      rw [rows] at hf
      obtain ⟨old, hold, rfl⟩ := List.mem_map.mp hf
      rw [same old]
      exact hs.fulfilled old hold
    · rw [rows]
      apply unique_map (n := fun f : StripeCheckoutFulfillmentRow => f.externalCheckoutId) _ hs.session
      intro f
      rw [same f]
    · rw [rows]
      apply unique_map (n := fun f : StripeCheckoutFulfillmentRow => f.issuanceIdempotencyKey) _ hs.key
      intro f
      rw [same f]
  | other frame =>
    rw [frame]
    exact ⟨hs.issued, hs.bound, hs.tuple, hs.fulfilled, hs.session, hs.key⟩

/-! ## What stays -/

/-- The later store keeps every issuance, and every binding and fulfilment up to what is noted in them. -/
structure Keeps (s t : Licenses) : Prop where
  issuance : ∀ key i, s.getIssuanceEvent key = some i → t.getIssuanceEvent key = some i
  binding : ∀ b ∈ s.bindings.rows, ∃ b' ∈ t.bindings.rows,
    b'.toCheckoutSubscriptionBindingInput = b.toCheckoutSubscriptionBindingInput ∧
      b'.issuanceIdempotencyKey = b.issuanceIdempotencyKey ∧ b'.licenseKeyHash = b.licenseKeyHash
  fulfillment : ∀ f ∈ s.fulfillments.rows, ∃ f' ∈ t.fulfillments.rows, f' = { f with redeemedAt := f'.redeemedAt }

namespace Keeps

theorem refl (s : Licenses) : Keeps s s :=
  ⟨fun _ _ h => h, fun b hb => ⟨b, hb, rfl, rfl, rfl⟩, fun f hf => ⟨f, hf, rfl⟩⟩

theorem trans (h : Keeps s t) (h' : Keeps t u) : Keeps s u := by
  refine ⟨fun key i hi => h'.issuance key i (h.issuance key i hi), ?_, ?_⟩
  · intro b hb
    obtain ⟨b', hb', hinput, hkey, hhash⟩ := h.binding b hb
    obtain ⟨b'', hb'', hinput', hkey', hhash'⟩ := h'.binding b' hb'
    exact ⟨b'', hb'', hinput'.trans hinput, hkey'.trans hkey, hhash'.trans hhash⟩
  · intro f hf
    obtain ⟨f', hf', hsame⟩ := h.fulfillment f hf
    obtain ⟨f'', hf'', hsame'⟩ := h'.fulfillment f' hf'
    refine ⟨f'', hf'', ?_⟩
    rw [hsame', hsame]

theorem of_eq (hi : t.issuanceEvents = s.issuanceEvents) (hb : t.bindings = s.bindings)
    (hf : t.fulfillments = s.fulfillments) : Keeps s t := by
  refine ⟨?_, ?_, ?_⟩
  · intro key i h
    rwa [Licenses.getIssuanceEvent, hi]
  · intro b h
    exact ⟨b, by rwa [hb], rfl, rfl, rfl⟩
  · intro f h
    exact ⟨f, by rwa [hf], rfl⟩

end Keeps

theorem Write.keeps (h : Write s t) : Keeps s t := by
  cases h with
  | licenses kept frame =>
    rw [frame]
    exact .of_eq rfl rfl rfl
  | issuance row inserted licensed =>
    refine ⟨fun key i hi => inserted.kept hi, ?_, ?_⟩
    · intro b hb
      exact ⟨b, by rw [inserted.frame]; exact hb, rfl, rfl, rfl⟩
    · intro f hf
      exact ⟨f, by rw [inserted.frame]; exact hf, rfl⟩
  | binding row inserted i issued source hash =>
    refine ⟨?_, ?_, ?_⟩
    · intro key i hi
      rw [inserted.frame]
      exact hi
    · intro b hb
      exact ⟨b, by rw [inserted.rows]; exact List.mem_append_left _ hb, rfl, rfl, rfl⟩
    · intro f hf
      exact ⟨f, by rw [inserted.frame]; exact hf, rfl⟩
  | noted f same rows frame =>
    refine ⟨?_, ?_, ?_⟩
    · intro key i hi
      rw [frame]
      exact hi
    · intro b hb
      exact ⟨f b, by rw [rows]; exact List.mem_map_of_mem hb, same b⟩
    · intro fulfillment hf
      exact ⟨fulfillment, by rw [frame]; exact hf, rfl⟩
  | fulfillment row inserted b bound key hash checkout =>
    refine ⟨?_, ?_, ?_⟩
    · intro key i hi
      rw [inserted.frame]
      exact hi
    · intro b hb
      exact ⟨b, by rw [inserted.frame]; exact hb, rfl, rfl, rfl⟩
    · intro f hf
      exact ⟨f, by rw [inserted.rows]; exact List.mem_append_left _ hf, rfl⟩
  | redeemed g same rows frame =>
    refine ⟨?_, ?_, ?_⟩
    · intro key i hi
      rw [frame]
      exact hi
    · intro b hb
      exact ⟨b, by rw [frame]; exact hb, rfl, rfl, rfl⟩
    · intro f hf
      exact ⟨g f, by rw [rows]; exact List.mem_map_of_mem hf, same f⟩
  | other frame =>
    rw [frame]
    exact .of_eq rfl rfl rfl

/-- The later store came by writes. -/
abbrev Writes : Licenses → Licenses → Prop := ReflTransGen Write

theorem Writes.owned (h : Writes s t) (hs : Owned s) : Owned t := by
  induction h with
  | refl => exact hs
  | tail _ hwrite ih => exact hwrite.owned ih

theorem Writes.keeps (h : Writes s t) : Keeps s t := by
  induction h with
  | refl => exact .refl s
  | tail _ hwrite ih => exact ih.trans hwrite.keeps

/-! ## The writes of a call -/

theorem InsertedLicense.writes {row : LicenseRecord} (h : InsertedLicense row s t) : Write s t :=
  .licenses (fun _ r hr => ⟨r, h.kept hr⟩) h.frame

theorem InsertedLicense.licensed {row : LicenseRecord} (h : InsertedLicense row s t) :
    ∃ license, t.licenses.find? row.licenseKeyHash = some license :=
  ⟨row, by rw [h.find]; exact if_pos rfl⟩

def checkoutIssuance (env : Env) (rawKey : String) (input : IssueBoundCheckoutLicenseInput) : LicenseIssuanceRow :=
  ⟨input.idempotencyKey, Licenses.hashLicenseKey env.sha256 rawKey, boundCheckoutRequestHash env input, some "checkout",
    some input.binding.externalCheckoutId⟩

theorem IssuedBound.event {rawKey : String} {input : IssueBoundCheckoutLicenseInput} {issuedAt : Int}
    {r : BoundIssuance} {s1 s2 : Licenses} (h : IssuedBound env rawKey input issuedAt s t r s1 s2) :
    s2.getIssuanceEvent input.idempotencyKey = some (checkoutIssuance env rawKey input) := by
  rw [h.issuance.find]
  exact if_pos rfl

theorem IssuedBound.writes {rawKey : String} {input : IssueBoundCheckoutLicenseInput} {issuedAt : Int}
    {r : BoundIssuance} {s1 s2 : Licenses} (h : IssuedBound env rawKey input issuedAt s t r s1 s2) : Writes s t := by
  have hissuance : Write s1 s2 := .issuance _ h.issuance h.license.licensed
  have hbinding : Write s2 t := by
    refine .binding _ h.binding (checkoutIssuance env rawKey input) ?_ rfl ?_
    · rw [h.row]
      exact h.event
    · rw [h.row]
      rfl
  exact ((ReflTransGen.single h.license.writes).tail hissuance).tail hbinding

theorem issueBound_writes {rawKey : String} {input : IssueBoundCheckoutLicenseInput} {issuedAt : Int}
    {r : BoundIssuance}
    (h : issueBoundCheckoutLicenseInOpenTransaction env rawKey input issuedAt s = .ok (r, t)) : Writes s t := by
  rcases issueBound_cases h with ⟨rfl, -⟩ | ⟨s1, s2, hissued⟩
  · exact .refl
  · exact hissued.writes

/-- An issued or replayed checkout: its issuance, its binding and the record it is answered with name one licence. -/
structure CheckoutOwned (env : Env) (rawKey : String) (input : IssueBoundCheckoutLicenseInput) (t : Licenses)
    (r : BoundIssuance) (i : LicenseIssuanceRow) : Prop where
  issued : t.getIssuanceEvent input.idempotencyKey = some i
  source : i.source = some "checkout"
  requestHash : i.requestHash = boundCheckoutRequestHash env input
  hash : i.licenseKeyHash = Licenses.hashLicenseKey env.sha256 rawKey
  record : r.record.licenseKeyHash = i.licenseKeyHash
  bound : r.binding ∈ t.bindings.rows
  key : r.binding.issuanceIdempotencyKey = input.idempotencyKey
  input : r.binding.toCheckoutSubscriptionBindingInput = input.binding
  binding : r.binding.licenseKeyHash = i.licenseKeyHash

theorem issueBound_owned {rawKey : String} {input : IssueBoundCheckoutLicenseInput} {issuedAt : Int}
    {r : BoundIssuance} (hs : Owned s)
    (h : issueBoundCheckoutLicenseInOpenTransaction env rawKey input issuedAt s = .ok (r, t)) :
    ∃ i, CheckoutOwned env rawKey input t r i := by
  rcases issueBound_cases h with ⟨rfl, existing, hreplayed⟩ | ⟨s1, s2, hissued⟩
  · have hbound := Table.mem_of_find? hreplayed.binding
    have hkey : r.binding.issuanceIdempotencyKey = input.idempotencyKey := Table.key_of_find? hreplayed.binding
    obtain ⟨i, hi, -, hhash⟩ := hs.bound _ hbound
    rw [hkey, hreplayed.issuance] at hi
    obtain rfl := Option.some.inj hi
    obtain ⟨row, hrow, hmap⟩ := Option.map_eq_some_iff.mp hreplayed.record
    have hrecord : r.record.licenseKeyHash = existing.licenseKeyHash := by
      rw [← hmap]
      exact (Table.key_of_find? hrow : row.licenseKeyHash = _)
    exact ⟨existing, hreplayed.issuance, hreplayed.source, hreplayed.requestHash, hreplayed.hash.symm, hrecord, hbound,
      hkey, hreplayed.same, hhash.symm⟩
  · refine ⟨checkoutIssuance env rawKey input, ?_, rfl, rfl, rfl, ?_, ?_, ?_, ?_, ?_⟩
    · rw [hissued.binding.frame]
      exact hissued.event
    · rw [hissued.record]
      rfl
    · rw [hissued.binding.rows]
      exact List.mem_append_right _ (List.mem_singleton_self _)
    · rw [hissued.row]
      rfl
    · rw [hissued.row]
      rfl
    · rw [hissued.row]
      rfl

theorem fulfilled_writes {validated : ValidFulfillment} {rawKey : String} {issuance : BoundIssuance}
    {r : FulfilledCheckout} {i : LicenseIssuanceRow}
    (howned : CheckoutOwned env rawKey validated.issuance s issuance i)
    (h : Fulfilled validated issuance s r t) : Writes s t := by
  cases h with
  | replayed => exact .refl
  | fulfilled row t event eventHash key hash checkout token inserted =>
    refine .single (.fulfillment row inserted issuance.binding howned.bound (howned.key.trans key.symm) ?_ ?_)
    · rw [howned.binding, ← howned.record, hash]
    · rw [howned.input, checkout]

theorem BoundLegacy.writes {key : String} {requested : CheckoutSubscriptionBindingInput}
    {issuance : LicenseIssuanceRow} {dryRun : Bool} (h : BoundLegacy key requested issuance dryRun s t)
    (hissuance : s.getIssuanceEvent key = some issuance) (hsource : issuance.source = some "checkout") :
    Writes s t := by
  cases h with
  | kept => exact .refl
  | dry => exact .refl
  | bound t free inserted => exact .single (.binding _ inserted issuance hissuance hsource rfl)

theorem commanded_writes {appliedAt : Int} {input : SubscriptionLifecycleRequest} {record : LicenseRecord}
    (h : Commanded env appliedAt input record s t) : Write s t := by
  cases h with
  | renewed fingerprint amount periodEnd stored incoming detail old paid time =>
    exact .licenses (fun k row hrow => ⟨_, by rw [licenses_updateLicense, hrow, Option.map_some]⟩) rfl
  | noted t f same rows frame => exact .noted f same rows frame
  | revoked detail time =>
    exact .licenses (fun k row hrow => ⟨_, by rw [licenses_updateLicense, hrow, Option.map_some]⟩) rfl

theorem redeemed_writes {now : Int} {rawKey : String} {record : LicenseRecord} {row : StripeCheckoutFulfillmentRow}
    (h : Redeemed env now rawKey s t record row) : Write s t := by
  rcases h.rows with hrows | ⟨redeemedAt, hrows⟩
  · exact .redeemed id (fun f => rfl) (hrows.trans (List.map_id _).symm) h.frame
  · refine .redeemed _ ?_ hrows h.frame
    intro f
    split
    · rfl
    · rfl

theorem commit_writes {now : Int} {call : StoreCall} (hs : Owned s) (h : call.commit env now s = .ok t) :
    Writes s t := by
  cases call with
  | issueLicense =>
    obtain ⟨record, h⟩ := map_snd_eq_ok h
    exact .single (insertLicense_spec h).2.writes
  | issueIdempotentLicense =>
    obtain ⟨answer, h⟩ := map_snd_eq_ok h
    cases issueIdempotent_cases h with
    | replayed => exact .refl
    | issued s1 t license issuance =>
      exact (ReflTransGen.single license.writes).tail (.issuance _ issuance license.licensed)
  | issueBoundCheckoutLicense =>
    obtain ⟨answer, h⟩ := map_snd_eq_ok h
    obtain ⟨validated, -, h⟩ := bind_eq_ok h
    exact issueBound_writes h
  | fulfillStripeCheckout =>
    obtain ⟨answer, h⟩ := map_snd_eq_ok h
    obtain ⟨validated, issuance, s1, -, hissuance, hfulfilled⟩ := fulfillStripeCheckout_cases h
    obtain ⟨i, howned⟩ := issueBound_owned hs hissuance
    exact (issueBound_writes hissuance).trans (fulfilled_writes howned hfulfilled)
  | redeemStripeCheckout =>
    obtain ⟨answer, h⟩ := map_snd_eq_ok h
    exact .single (redeemed_writes (redeemStripeCheckout_cases h))
  | bindCheckoutSubscription =>
    obtain ⟨answer, h⟩ := map_snd_eq_ok h
    obtain ⟨trimmed, requested, issuance, -, -, hissuance, hsource, hbound⟩ := bindCheckoutSubscription_cases h
    exact hbound.writes hissuance hsource
  | applyCheckoutSubscriptionLifecycle input =>
    obtain ⟨answer, h⟩ := map_snd_eq_ok h
    rcases applyLifecycle_cases h with rfl | ⟨record, s1, haccepted⟩
    · exact .refl
    · refine (ReflTransGen.single (commanded_writes haccepted.commanded)).tail (.other ?_)
      rw [haccepted.frame]
  | revokeLicense rawKey reason =>
    obtain rfl := Except.ok.inj h
    exact .single
      (.licenses (fun k row hrow => ⟨_, by rw [revokeLicense, licenses_updateLicense, hrow, Option.map_some]⟩) rfl)
  | upsertActivation =>
    obtain rfl := Except.ok.inj h
    exact .single (.other rfl)
  | touchActivation =>
    obtain rfl := Except.ok.inj h
    exact .single (.other rfl)
  | removeActivation =>
    obtain rfl := Except.ok.inj h
    exact .single (.other rfl)

end NeonDiff.License
