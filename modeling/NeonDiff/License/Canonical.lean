import NeonDiff.Lib.JsonScalars
import NeonDiff.License.Matrix

/-! # The canonical text tells requests apart -/

namespace NeonDiff.License

open NeonDiff.Lib NeonDiff.Lib.Json

/-! ## Enumerations by their texts -/

theorem ProviderMode.text_injective : Function.Injective ProviderMode.text := by
  intro a b h
  cases a <;> cases b <;> first | rfl | exact absurd h (by decide)

theorem SubscriptionLifecycleCommand.text_injective : Function.Injective SubscriptionLifecycleCommand.text := by
  intro a b h
  cases a <;> cases b <;> first | rfl | exact absurd h (by decide)

theorem ProviderEventType.text_injective : Function.Injective ProviderEventType.text := by
  intro a b h
  cases a <;> cases b <;> first | rfl | exact absurd h (by decide)

theorem SubscriptionStatus.text_injective : Function.Injective SubscriptionStatus.text := by
  intro a b h
  cases a <;> cases b <;> first | rfl | exact absurd h (by decide)

/-! ## The fields as a row of scalars -/

theorem scalar_jsonOf (v : Option String) : Scalar (jsonOf v) := by
  cases v with
  | none => exact .plain .null
  | some s => exact .str s

theorem jsonOf_injective : Function.Injective jsonOf := by
  intro a b h
  cases a <;> cases b <;> cases h <;> rfl

theorem CommandDetail.scalar_canonicalFields (detail : CommandDetail) (status : SubscriptionStatus) :
    ∀ v ∈ detail.canonicalFields status, Scalar v := by
  intro v hv
  cases detail with
  | renewPaid fingerprint amount periodEnd =>
    simp only [canonicalFields, List.mem_cons, List.not_mem_nil, or_false] at hv
    rcases hv with rfl | rfl | rfl | rfl | rfl | rfl
    · exact .str _
    · exact .plain (.int _)
    · exact .str _
    · exact .plain (.bool _)
    · exact .str _
    · exact .str _
  | reconcile periodEnd =>
    obtain rfl := List.mem_singleton.mp hv
    exact scalar_jsonOf _
  | cancelAtPeriodEnd periodEnd =>
    obtain rfl := List.mem_singleton.mp hv
    exact .str _
  | paymentAttention periodEnd =>
    obtain rfl := List.mem_singleton.mp hv
    exact scalar_jsonOf _
  | revoke reasonProvided =>
    obtain rfl := List.mem_singleton.mp hv
    cases reasonProvided
    · exact .plain .null
    · exact scalar_jsonOf _

theorem scalar_canonicalFields (r : SubscriptionLifecycleRequest) : ∀ v ∈ canonicalFields r, Scalar v := by
  intro v hv
  rcases List.mem_append.mp hv with hv | hv
  · simp only [List.mem_cons, List.not_mem_nil, or_false] at hv
    rcases hv with rfl | rfl | rfl | rfl | rfl | rfl | rfl | rfl | rfl | rfl | rfl | rfl
    all_goals first | exact .str _ | exact .plain (.int _) | exact .plain (.bool _)
  · exact r.detail.scalar_canonicalFields _ v hv

theorem canonicalFields_eq_of_canonicalText_eq {r r' : SubscriptionLifecycleRequest}
    (h : canonicalText r = canonicalText r') : canonicalFields r = canonicalFields r' :=
  stringifyItems_inj (scalar_canonicalFields r) (scalar_canonicalFields r') (items_eq_of_canonicalText_eq h)

/-! ## From the fields back to the request -/

def Reasoned (r : SubscriptionLifecycleRequest) : Prop :=
  r.detail.command = .revoke → (revokeReasonForStatus r.subscriptionStatus).isSome = true

theorem reasoned_of_parsed {env : Env} {body : Body} {r : SubscriptionLifecycleRequest} (h : Parsed env body r) :
    Reasoned r := by
  intro hrevoke
  have hlisted := h.statusListed
  rw [hrevoke] at hlisted
  simp only [commandMatrix, List.mem_cons, List.not_mem_nil, or_false] at hlisted
  rcases hlisted with hstatus | hstatus | hstatus
  all_goals
    rw [hstatus]
    rfl

theorem CommandDetail.eq_of_canonicalFields_eq {detail detail' : CommandDetail} {status : SubscriptionStatus}
    (hcommand : detail.command = detail'.command)
    (hreason : detail.command = .revoke → (revokeReasonForStatus status).isSome = true)
    (h : detail.canonicalFields status = detail'.canonicalFields status) : detail = detail' := by
  cases detail with
  | renewPaid fingerprint amount periodEnd =>
    cases detail' <;> cases hcommand
    simp only [canonicalFields, List.cons.injEq, Json.str.injEq, Json.int.injEq, true_and, and_true] at h
    obtain ⟨rfl, rfl, rfl⟩ := h
    rfl
  | reconcile periodEnd =>
    cases detail' <;> cases hcommand
    rw [jsonOf_injective (List.cons.inj h).1]
  | cancelAtPeriodEnd periodEnd =>
    cases detail' <;> cases hcommand
    rw [Json.str.inj (List.cons.inj h).1]
  | paymentAttention periodEnd =>
    cases detail' <;> cases hcommand
    rw [jsonOf_injective (List.cons.inj h).1]
  | revoke reasonProvided =>
    cases detail' with
    | revoke reasonProvided' =>
      obtain ⟨reason, hsome⟩ := Option.isSome_iff_exists.mp (hreason rfl)
      simp only [canonicalFields, hsome] at h
      cases reasonProvided <;> cases reasonProvided' <;> first | rfl | cases h
    | _ => cases hcommand

/-- No two requests have one canonical text, the omitted reason being told from the explicit one. -/
theorem eq_of_canonicalText_eq {r r' : SubscriptionLifecycleRequest} (hr : Reasoned r)
    (h : canonicalText r = canonicalText r') : r = r' := by
  have hfields := canonicalFields_eq_of_canonicalText_eq h
  obtain ⟨⟨key, eventId, createdAt, account, mode, subscription⟩, cancel, event, status, detail⟩ := r
  obtain ⟨⟨key', eventId', createdAt', account', mode', subscription'⟩, cancel', event', status', detail'⟩ := r'
  simp only [canonicalFields, List.cons_append, List.nil_append, List.cons.injEq, Json.str.injEq, Json.int.injEq,
    Json.bool.injEq, true_and] at hfields
  obtain ⟨rfl, rfl, rfl, rfl, hmode, rfl, hcommand, hevent, hstatus, rfl, hdetail⟩ := hfields
  obtain rfl := ProviderMode.text_injective hmode
  obtain rfl := ProviderEventType.text_injective hevent
  obtain rfl := SubscriptionStatus.text_injective hstatus
  have hsame := SubscriptionLifecycleCommand.text_injective hcommand
  rw [CommandDetail.eq_of_canonicalFields_eq hsame hr hdetail]

/-! ## Payment references -/

def paymentReferenceOf : Json → Option String
  | .obj body => textField body "paymentReference"
  | _ => none

theorem reference_of_renewPaid {env : Env} {body : Body} {r : SubscriptionLifecycleRequest} (h : Parsed env body r)
    {fingerprint periodEnd : String} {amount : Int} (hdetail : r.detail = .renewPaid fingerprint amount periodEnd) :
    ∃ reference, textField body "paymentReference" = some reference ∧
      fingerprint = paymentReferenceFingerprint env reference := by
  have hparse := h.detail
  rw [hdetail] at hparse
  obtain ⟨payment, hpayment, hparse⟩ := bind_eq_ok hparse
  obtain ⟨_, -, hparse⟩ := bind_eq_ok hparse
  obtain ⟨_, -, hparse⟩ := bind_eq_ok hparse
  obtain ⟨_, -, hparse⟩ := bind_eq_ok hparse
  obtain ⟨-, reference, hreference, hfingerprint⟩ := paymentGiven_of_parsePayment hpayment
  cases hparse
  exact ⟨reference, hreference, hfingerprint⟩

theorem reference_of_other {env : Env} {body : Body} {r : SubscriptionLifecycleRequest} (h : Parsed env body r)
    (hother : r.detail.command ≠ .renewPaid) : textField body "paymentReference" = none := by
  have hrow := (detailMeets_of_parseDetail h.detail).payment
  have habsent : PaymentAbsent body := by
    cases hcommand : r.detail.command <;> rw [hcommand] at hrow <;> first | exact hrow | exact absurd hcommand hother
  unfold textField
  rw [habsent "paymentReference" List.mem_cons_self]

theorem reference_eq {env : Env} (hsha : Function.Injective env.sha256) {body body' : Body}
    {r : SubscriptionLifecycleRequest} (h : Parsed env body r) (h' : Parsed env body' r) :
    textField body "paymentReference" = textField body' "paymentReference" := by
  by_cases hcommand : r.detail.command = .renewPaid
  · obtain ⟨fingerprint, amount, periodEnd, hdetail⟩ : ∃ fingerprint amount periodEnd,
        r.detail = .renewPaid fingerprint amount periodEnd := by
      revert hcommand
      cases r.detail <;> first | exact fun _ => ⟨_, _, _, rfl⟩ | nofun
    obtain ⟨reference, hreference, hfingerprint⟩ := reference_of_renewPaid h hdetail
    obtain ⟨reference', hreference', hfingerprint'⟩ := reference_of_renewPaid h' hdetail
    have hsame := hsha (hfingerprint.symm.trans hfingerprint')
    rw [hreference, hreference', (String.append_right_inj _).mp hsame]
  · rw [reference_of_other h hcommand, reference_of_other h' hcommand]

/-! ## The law -/

/-- The canonical texts of two accepted bodies are one exactly where the requests are, which for a hash that is
injective have one payment reference; and an accepted body is in the command matrix. -/
theorem canonical_encoding_faithful {env : Env} {bytes bytes' : Nat} {parsed parsed' : Json} {now now' : Int}
    {r r' : SubscriptionLifecycleRequest} (h : parseSubscriptionLifecycleRequest env bytes parsed now = .ok r)
    (h' : parseSubscriptionLifecycleRequest env bytes' parsed' now' = .ok r') :
    (canonicalText r = canonicalText r' ↔ r = r') ∧
      (Function.Injective env.sha256 → r = r' → paymentReferenceOf parsed = paymentReferenceOf parsed') ∧
      ∃ body, parsed = .obj body ∧ MeetsMatrix body := by
  obtain ⟨body, rfl, hbody⟩ := parsed_of_parseSubscriptionLifecycleRequest h
  obtain ⟨body', rfl, hbody'⟩ := parsed_of_parseSubscriptionLifecycleRequest h'
  refine ⟨⟨eq_of_canonicalText_eq (reasoned_of_parsed hbody), congrArg canonicalText⟩, ?_, body, rfl,
    hbody.meetsMatrix⟩
  rintro hsha rfl
  exact reference_eq hsha hbody hbody'

/-! ## A period that is over -/

def renewalEnv : Env where
  sha256 := id
  hmac24 _ text := text
  legacyDate _ := none

def renewalBody (periodEnd : String) : Body :=
  [("schemaVersion", .int 1), ("issuanceIdempotencyKey", .str "k"), ("eventId", .str "evt"),
    ("eventCreatedAt", .int 0), ("provider", .str "stripe"), ("providerAccountId", .str "acct"),
    ("providerMode", .str "test"), ("externalSubscriptionId", .str "sub"), ("providerEventType", .str "invoice.paid"),
    ("command", .str "renew_paid"), ("subscriptionStatus", .str "active"), ("cancelAtPeriodEnd", .bool false),
    ("paymentReference", .str "ch"), ("amountPaidMinor", .int 100), ("currency", .str "usd"),
    ("paidOutOfBand", .bool false), ("billingReason", .str "subscription_cycle"),
    ("currentPeriodEnd", .str periodEnd)]

theorem renewalBody_accepted :
    ∃ r, parseSubscriptionLifecycleRequest renewalEnv 600 (.obj (renewalBody "2020-01-01T00:00:00.000Z"))
      1700000000000 = .ok r ∧ ∃ fingerprint, r.detail = .renewPaid fingerprint 100 "2020-01-01T00:00:00.000Z" :=
  ⟨_, rfl, _, rfl⟩

theorem later_renewalBody_accepted :
    ∃ r, parseSubscriptionLifecycleRequest renewalEnv 600 (.obj (renewalBody "2031-01-01T00:00:00.000Z"))
      1700000000000 = .ok r ∧ ∃ fingerprint, r.detail = .renewPaid fingerprint 100 "2031-01-01T00:00:00.000Z" :=
  ⟨_, rfl, _, rfl⟩

theorem canonical_encoding_faithful_of_two_renewals :
    ∃ r r', parseSubscriptionLifecycleRequest renewalEnv 600 (.obj (renewalBody "2020-01-01T00:00:00.000Z"))
        1700000000000 = .ok r ∧
      parseSubscriptionLifecycleRequest renewalEnv 600 (.obj (renewalBody "2031-01-01T00:00:00.000Z"))
        1700000000000 = .ok r' ∧
      canonicalText r ≠ canonicalText r' ∧
      ∃ body, Json.obj (renewalBody "2020-01-01T00:00:00.000Z") = .obj body ∧ MeetsMatrix body := by
  obtain ⟨r, hr, fingerprint, hdetail⟩ := renewalBody_accepted
  obtain ⟨r', hr', fingerprint', hdetail'⟩ := later_renewalBody_accepted
  obtain ⟨hsame, -, hmatrix⟩ := canonical_encoding_faithful hr hr'
  refine ⟨r, r', hr, hr', fun htext => ?_, hmatrix⟩
  rw [hsame.mp htext, hdetail'] at hdetail
  have hperiod := (CommandDetail.renewPaid.inj hdetail).2.2
  exact absurd hperiod (by decide)

/-- The matrix wants a period that ends in the future; the parser accepts one that has ended. -/
theorem period_over_accepted :
    ¬∀ (env : Env) (bytes : Nat) (parsed : Json) (now : Int) (r : SubscriptionLifecycleRequest),
      parseSubscriptionLifecycleRequest env bytes parsed now = .ok r →
      ∃ body, parsed = .obj body ∧ MeetsMatrix body ∧ FuturePeriodEnd now body := by
  intro h
  obtain ⟨r, hr, -⟩ := renewalBody_accepted
  obtain ⟨body, hbody, -, hfuture⟩ := h _ _ _ _ r hr
  cases hbody
  have hstrict : StrictUtc 1577836800000 "2020-01-01T00:00:00.000Z" := ⟨by decide, by decide⟩
  have hlater := hfuture _ _ rfl hstrict
  omega

end NeonDiff.License
