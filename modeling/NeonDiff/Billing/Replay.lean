import NeonDiff.Billing.Webhook
import NeonDiff.License.Ledger
import Mathlib.Tactic.FinCases

/-! # Delivering a lifecycle event again -/

namespace NeonDiff.Billing

open NeonDiff.Lib NeonDiff.License

section

variable {env : Env} {runtime : StripeCheckoutRuntime} {s t u : Licenses}

/-! ## The request of a failed payment -/

/-- The request that a failed payment makes of the subscription's state. -/
def attentionRequest (common : CommonRequest) (status : SubscriptionStatus) (cancelAtPeriodEnd : Bool) :
    SubscriptionLifecycleRequest :=
  { common with
    cancelAtPeriodEnd
    providerEventType := .invoicePaymentFailed
    subscriptionStatus := status
    detail := .paymentAttention none }

def attentionStatuses : List SubscriptionStatus := (commandMatrix .paymentAttention).2

theorem find_status {status : SubscriptionStatus} (h : status ∈ attentionStatuses) :
    (attentionStatuses.find? fun t => t.text = status.text) = some status := by
  fin_cases h <;> rfl

theorem statusText_inj {status status' : SubscriptionStatus} (h : status ∈ attentionStatuses)
    (h' : status' ∈ attentionStatuses) (htext : status.text = status'.text) : status = status' := by
  have hfind := find_status h
  rw [htext, find_status h'] at hfind
  exact (Option.some.inj hfind).symm

/-- The canonical fields of a failed payment that its event fixes. -/
def attentionFront (c : CommonRequest) : List Json :=
  [.int 1, .str c.issuanceIdempotencyKey, .str c.eventId, .int c.eventCreatedAt, .str "stripe",
    .str c.providerAccountId, .str c.providerMode.text, .str c.externalSubscriptionId, .str "payment_attention",
    .str "invoice.payment_failed"]

theorem canonicalFields_attention (common : CommonRequest) (status : SubscriptionStatus) (cancel : Bool) :
    canonicalFields (attentionRequest common status cancel) =
      attentionFront common ++ [.str status.text, .bool cancel, .null] := rfl

theorem canonicalText_attention_inj {common : CommonRequest} {status status' : SubscriptionStatus}
    {cancel cancel' : Bool} (hs : status ∈ attentionStatuses) (hs' : status' ∈ attentionStatuses)
    (h : canonicalText (attentionRequest common status cancel) = canonicalText (attentionRequest common status' cancel')) :
    status = status' ∧ cancel = cancel' := by
  have hitems := items_eq_of_canonicalText_eq h
  rw [canonicalFields_attention, canonicalFields_attention] at hitems
  obtain ⟨hstatus, hrest⟩ := Json.quote_append_inj (Json.stringifyItems_append_inj hitems)
  have hcancel : Json.stringifyItems [.bool cancel, .null] = Json.stringifyItems [.bool cancel', .null] :=
    (List.cons.inj hrest).2
  refine ⟨statusText_inj hs hs' hstatus, ?_⟩
  cases cancel <;> cases cancel' <;> first | rfl | exact absurd hcancel (by decide)

theorem parseCommand_attention {event : LifecycleEvent} (hevent : event.eventType = .invoicePaymentFailed)
    {status : SubscriptionStatus} (hstatus : status ∈ attentionStatuses) (key account subscription : String)
    (cancel : Bool) (common : CommonRequest) :
    parseCommand env (commonBody event runtime key account subscription ++ commandBody "payment_attention" status.text cancel)
      common = .ok (attentionRequest common status cancel) := by
  generalize hbody : commonBody event runtime key account subscription ++
    commandBody "payment_attention" status.text cancel = body
  have hevent' : readRequiredString body "providerEventType" 80 = .ok "invoice.payment_failed" := by
    rw [← hbody, commonBody, hevent]
    rfl
  have hcommand : readRequiredString body "command" 40 = .ok "payment_attention" := by
    rw [← hbody]
    rfl
  have hstatusText : readRequiredString body "subscriptionStatus" 40 = .ok status.text := by
    rw [← hbody]
    fin_cases hstatus <;> rfl
  have hmatrix : validateCommandMatrix .paymentAttention "invoice.payment_failed" status.text =
      .ok (.invoicePaymentFailed, status) := by
    fin_cases hstatus <;> rfl
  have hcancel : Json.field body "cancelAtPeriodEnd" = some (.bool cancel) := by
    rw [← hbody]
    rfl
  have hdetail : parseDetail env body cancel status .paymentAttention = .ok (.paymentAttention none) := by
    rw [← hbody]
    rfl
  rw [parseCommand, hevent', ok_bind, hcommand, ok_bind]
  change (readRequiredString body "subscriptionStatus" 40 >>= _) = _
  rw [hstatusText, ok_bind, hcancel]
  dsimp only
  rw [hmatrix, ok_bind]
  dsimp only
  rw [hdetail]
  rfl

theorem parseCommon_attention (event : LifecycleEvent) (key account subscription : String)
    (command status status' : String) (cancel cancel' : Bool) (now : Int) :
    parseCommon (commonBody event runtime key account subscription ++ commandBody command status cancel) now =
    parseCommon (commonBody event runtime key account subscription ++ commandBody command status' cancel') now := rfl

theorem failedPaymentBody_ok {snapshot : SubscriptionSnapshot} {rest : Body} (h : failedPaymentBody snapshot = .ok rest) :
    ∃ status ∈ attentionStatuses, snapshot.status = status.text ∧
      rest = commandBody "payment_attention" status.text snapshot.cancelAtPeriodEnd := by
  obtain ⟨_, hstate, h⟩ := bind_eq_ok h
  cases h
  have hmem : snapshot.status ∈ attentionStatuses.map SubscriptionStatus.text := by
    simpa [attentionStatuses, commandMatrix, SubscriptionStatus.text] using hstate
  obtain ⟨status, hstatus, htext⟩ := List.mem_map.mp hmem
  exact ⟨status, hstatus, htext.symm, by rw [htext]⟩

theorem parse_attention {event : LifecycleEvent} (hevent : event.eventType = .invoicePaymentFailed)
    {status : SubscriptionStatus} (hstatus : status ∈ attentionStatuses) {key account subscription : String}
    {cancel : Bool} {bytes : Nat} {now : Int} {r : SubscriptionLifecycleRequest}
    (h : parseSubscriptionLifecycleRequest env bytes
      (.obj (commonBody event runtime key account subscription ++ commandBody "payment_attention" status.text cancel))
      now = .ok r) :
    ∃ common, parseCommon (commonBody event runtime key account subscription ++
      commandBody "payment_attention" status.text cancel) now = .ok common ∧ r = attentionRequest common status cancel := by
  obtain ⟨_, -, h⟩ := bind_eq_ok h
  obtain ⟨common, hcommon, h⟩ := bind_eq_ok h
  rw [parseCommand_attention hevent hstatus] at h
  exact ⟨common, hcommon, (Except.ok.inj h).symm⟩

/-! ## One delivery -/

theorem lifecycle_ok {d : Delivery} {event : LifecycleEvent} {r : StripeCheckoutLifecycleResult}
    (h : fulfillStripeSubscriptionLifecycle env runtime d event s = .ok (r, t)) :
    ∃ account subscription key body request applied, lifecycleAccount runtime d.gateway = .ok account ∧
      lifecycleSubscriptionId event.eventType event.eventObject = .ok subscription ∧
      resolveCheckoutIssuanceIdempotencyKey account runtime.mode subscription s = some key ∧
      normalizeStripeLifecycleEvent runtime d.gateway event key subscription account = .ok body ∧
      parseSubscriptionLifecycleRequest env (bodyBytes body) (.obj body) d.now = .ok request ∧
      applyCheckoutSubscriptionLifecycle env d.storeNow request s = .ok (applied, t) := by
  obtain ⟨account, haccount, h⟩ := bind_eq_ok h
  obtain ⟨subscription, hsubscription, h⟩ := bind_eq_ok h
  split at h
  · cases h
  · rename_i key hkey
    obtain ⟨body, hbody, h⟩ := bind_eq_ok h
    obtain ⟨request, hrequest, h⟩ := bind_eq_ok h
    obtain ⟨⟨applied, s1⟩, happlied, h⟩ := bind_eq_ok h
    cases h
    exact ⟨account, subscription, key, body, request, applied, haccount, hsubscription, hkey, hbody,
      mapError_eq_ok.mp hrequest, mapError_eq_ok.mp happlied⟩

/-- The result of a delivery that changes nothing. -/
def replayed : StripeCheckoutLifecycleResult := ⟨.replayed, true⟩

/-- A body whose request the ledger holds is replayed. -/
theorem applyLifecycleBody_of_recorded {d : Delivery} {body : Body} {request : SubscriptionLifecycleRequest}
    (hrecorded : Recorded env request u)
    (hparse : parseSubscriptionLifecycleRequest env (bodyBytes body) (.obj body) d.now = .ok request) :
    applyLifecycleBody env d body u = .ok (replayed, u) := by
  rcases apply_of_recorded hrecorded rfl rfl d.storeNow with ⟨-, r, hr, hstatus, hreplayed⟩ | ⟨hne, -⟩
  · rw [applyLifecycleBody, mapError_eq_ok.mpr hparse, ok_bind, mapError_eq_ok.mpr hr, ok_bind]
    dsimp only
    rw [hstatus, hreplayed]
    rfl
  · exact absurd rfl hne

/-- A body whose request has the key and the event of a recorded one, and not its hash, is refused. -/
theorem applyLifecycleBody_of_conflict {d : Delivery} {body : Body} {first again : SubscriptionLifecycleRequest}
    (hrecorded : Recorded env first u) (hcommon : again.toCommonRequest = first.toCommonRequest)
    (hparse : parseSubscriptionLifecycleRequest env (bodyBytes body) (.obj body) d.now = .ok again)
    (hhash : canonicalSubscriptionLifecycleRequestHash env again ≠ canonicalSubscriptionLifecycleRequestHash env first) :
    ∃ e, applyLifecycleBody env d body u = .error e := by
  rcases apply_of_recorded hrecorded (congrArg CommonRequest.issuanceIdempotencyKey hcommon)
    (congrArg CommonRequest.eventId hcommon) d.storeNow with ⟨heq, -⟩ | ⟨-, herr⟩
  · exact absurd heq hhash
  · refine ⟨.conflict "Stripe lifecycle event conflicts", ?_⟩
    rw [applyLifecycleBody, mapError_eq_ok.mpr hparse, ok_bind, herr]
    rfl

/-! ## When a redelivery is a replay -/

structure SameEvent (runtime : StripeCheckoutRuntime) (first again : Delivery) : Prop where
  event : again.gateway.verifyEvent again.rawBody again.signature runtime.webhookSecret =
    first.gateway.verifyEvent first.rawBody first.signature runtime.webhookSecret
  account : again.gateway.retrieveAccount = first.gateway.retrieveAccount
  clock : first.now ≤ again.now

/-- What the subscription must still look like for an event of each type. -/
def SettledFor (runtime : StripeCheckoutRuntime) (first again : StripeCheckoutGateway) (subscription : String) :
    ProviderEventType → Prop
  | .invoicePaymentFailed => retrieveLifecycleSubscription runtime again subscription =
      retrieveLifecycleSubscription runtime first subscription
  | .invoicePaid | .invoicePaymentSucceeded =>
    ∃ cancelAtPeriodEnd, retrieveLifecycleSubscription runtime again subscription = .ok ⟨"active", cancelAtPeriodEnd⟩
  | .subscriptionUpdated | .subscriptionDeleted => True

def Settled (runtime : StripeCheckoutRuntime) (first again : Delivery) : Prop :=
  ∀ verified event subscription, verifiedEvent runtime first = .ok verified → lifecycleEvent verified = some event →
    lifecycleSubscriptionId event.eventType event.eventObject = .ok subscription →
    SettledFor runtime first.gateway again.gateway subscription event.eventType

theorem normalize_settled {first again : StripeCheckoutGateway} {event : LifecycleEvent} {key subscription account : String}
    {body : Body} (h : normalizeStripeLifecycleEvent runtime first event key subscription account = .ok body)
    (hsettled : SettledFor runtime first again subscription event.eventType) :
    normalizeStripeLifecycleEvent runtime again event key subscription account = .ok body := by
  obtain ⟨id, type, created, object⟩ := event
  obtain ⟨livemode, hlivemode, h⟩ := bind_eq_ok h
  obtain ⟨_, hmode, h⟩ := bind_eq_ok h
  rw [normalizeStripeLifecycleEvent, hlivemode, ok_bind, hmode, ok_bind]
  cases type with
  | invoicePaymentFailed =>
    have hsame : retrieveLifecycleSubscription runtime again subscription = _ := hsettled
    dsimp only
    rw [hsame]
    exact h
  | invoicePaid | invoicePaymentSucceeded =>
    obtain ⟨cancel, hactive⟩ := hsettled
    obtain ⟨snapshot, -, h⟩ := bind_eq_ok h
    obtain ⟨_, -, h⟩ := bind_eq_ok h
    dsimp only
    rw [hactive]
    exact h
  | subscriptionUpdated | subscriptionDeleted => exact h

theorem normalize_failedPayment {gateway : StripeCheckoutGateway} {event : LifecycleEvent}
    {key subscription account : String} {body : Body} (hevent : event.eventType = .invoicePaymentFailed)
    (h : normalizeStripeLifecycleEvent runtime gateway event key subscription account = .ok body) :
    ∃ status cancel, status ∈ attentionStatuses ∧
      retrieveLifecycleSubscription runtime gateway subscription = .ok ⟨SubscriptionStatus.text status, cancel⟩ ∧
      body = commonBody event runtime key account subscription ++ commandBody "payment_attention" status.text cancel := by
  obtain ⟨id, type, created, object⟩ := event
  obtain rfl : type = .invoicePaymentFailed := hevent
  obtain ⟨_, -, h⟩ := bind_eq_ok h
  obtain ⟨_, -, h⟩ := bind_eq_ok h
  obtain ⟨⟨text, cancel⟩, hsnapshot, h⟩ := bind_eq_ok h
  obtain ⟨rest, hrest, h⟩ := bind_eq_ok h
  cases h
  obtain ⟨status, hstatus, rfl, rfl⟩ := failedPaymentBody_ok hrest
  exact ⟨status, cancel, hstatus, hsnapshot, rfl⟩

theorem redelivered_failedPayment (hinj : Function.Injective env.sha256) {first : StripeCheckoutGateway}
    {again : Delivery} {event : LifecycleEvent} {key subscription account : String} {body body' : Body} {now : Int}
    {request : SubscriptionLifecycleRequest} (hevent : event.eventType = .invoicePaymentFailed)
    (hrecorded : Recorded env request u) (hclock : now ≤ again.now)
    (hbody : normalizeStripeLifecycleEvent runtime first event key subscription account = .ok body)
    (hparse : parseSubscriptionLifecycleRequest env (bodyBytes body) (.obj body) now = .ok request)
    (hbody' : normalizeStripeLifecycleEvent runtime again.gateway event key subscription account = .ok body')
    (hchanged : retrieveLifecycleSubscription runtime again.gateway subscription ≠
      retrieveLifecycleSubscription runtime first subscription) :
    ∃ e, applyLifecycleBody env again body' u = .error e := by
  obtain ⟨status, cancel, hstatus, hsnapshot, rfl⟩ := normalize_failedPayment hevent hbody
  obtain ⟨status', cancel', hstatus', hsnapshot', rfl⟩ := normalize_failedPayment hevent hbody'
  obtain ⟨common, hcommon, rfl⟩ := parse_attention hevent hstatus hparse
  generalize hbytes : bodyBytes (commonBody event runtime key account subscription ++
    commandBody "payment_attention" status'.text cancel') = bytes
  cases hparse' : parseSubscriptionLifecycleRequest env bytes (.obj (commonBody event runtime key account subscription ++
      commandBody "payment_attention" status'.text cancel')) again.now with
  | error e =>
    refine ⟨.invalid "Stripe lifecycle event is invalid", ?_⟩
    rw [applyLifecycleBody, hbytes, hparse']
    rfl
  | ok request' =>
    obtain ⟨common', hcommon', rfl⟩ := parse_attention hevent hstatus' hparse'
    have hlater := (parseCommon_attention event key account subscription _ status'.text status.text cancel' cancel
      again.now).trans (parseCommon_later hclock hcommon)
    obtain rfl := Except.ok.inj (hlater.symm.trans hcommon')
    have hhash : canonicalSubscriptionLifecycleRequestHash env (attentionRequest common status' cancel') ≠
        canonicalSubscriptionLifecycleRequestHash env (attentionRequest common status cancel) := by
      intro heq
      obtain ⟨rfl, rfl⟩ := canonicalText_attention_inj hstatus' hstatus (hinj heq)
      exact hchanged (hsnapshot'.trans hsnapshot.symm)
    rw [← hbytes] at hparse'
    exact applyLifecycleBody_of_conflict hrecorded (@rfl _ common) hparse' hhash

theorem redelivered_unsettled (hinj : Function.Injective env.sha256) {first : StripeCheckoutGateway}
    {again : Delivery} {event : LifecycleEvent} {key subscription account : String} {body body' : Body} {now : Int}
    {request : SubscriptionLifecycleRequest} (hrecorded : Recorded env request u) (hclock : now ≤ again.now)
    (hbody : normalizeStripeLifecycleEvent runtime first event key subscription account = .ok body)
    (hparse : parseSubscriptionLifecycleRequest env (bodyBytes body) (.obj body) now = .ok request)
    (hbody' : normalizeStripeLifecycleEvent runtime again.gateway event key subscription account = .ok body')
    (hunsettled : ¬ SettledFor runtime first again.gateway subscription event.eventType) :
    ∃ e, applyLifecycleBody env again body' u = .error e := by
  cases htype : event.eventType with
  | invoicePaymentFailed =>
    rw [htype] at hunsettled
    exact redelivered_failedPayment hinj htype hrecorded hclock hbody hparse hbody' hunsettled
  | invoicePaid | invoicePaymentSucceeded =>
    -- a paid invoice has a body only while the subscription is active
    obtain ⟨id, type, created, object⟩ := event
    obtain rfl : type = _ := htype
    obtain ⟨_, -, hbody'⟩ := bind_eq_ok hbody'
    obtain ⟨_, -, hbody'⟩ := bind_eq_ok hbody'
    obtain ⟨⟨text, cancel⟩, hsnapshot, hbody'⟩ := bind_eq_ok hbody'
    obtain ⟨_, hactive, -⟩ := bind_eq_ok hbody'
    obtain rfl : text = "active" := by simpa using hactive
    exact absurd ⟨cancel, hsnapshot⟩ hunsettled
  | subscriptionUpdated | subscriptionDeleted =>
    rw [htype] at hunsettled
    exact absurd trivial hunsettled

theorem lifecycle_redelivered (hinj : Function.Injective env.sha256) {first again : Delivery} {event : LifecycleEvent}
    {r : StripeCheckoutLifecycleResult} (hsame : SameEvent runtime first again)
    (h : fulfillStripeSubscriptionLifecycle env runtime first event s = .ok (r, t)) (hgrows : Grows env t u)
    {subscription : String} (hsub : lifecycleSubscriptionId event.eventType event.eventObject = .ok subscription) :
    (SettledFor runtime first.gateway again.gateway subscription event.eventType ∧
      fulfillStripeSubscriptionLifecycle env runtime again event u = .ok (replayed, u)) ∨
    (¬ SettledFor runtime first.gateway again.gateway subscription event.eventType ∧
      ∃ e, fulfillStripeSubscriptionLifecycle env runtime again event u = .error e) := by
  obtain ⟨account, subscription', key, body, request, applied, haccount, hsub', hkey, hbody, hparse, happly⟩ :=
    lifecycle_ok h
  obtain rfl := Except.ok.inj (hsub.symm.trans hsub')
  have hrecorded : Recorded env request u := (recorded_of_apply happly).later hgrows
  have hkey' := hgrows.resolve ((applyCheckoutSubscriptionLifecycle_grows happly).resolve hkey)
  have haccount' : lifecycleAccount runtime again.gateway = .ok account := by
    rw [lifecycleAccount, hsame.account]
    exact haccount
  have hreduce : fulfillStripeSubscriptionLifecycle env runtime again event u =
      normalizeStripeLifecycleEvent runtime again.gateway event key subscription account >>= fun body =>
        applyLifecycleBody env again body u := by
    rw [fulfillStripeSubscriptionLifecycle, haccount', ok_bind, hsub, ok_bind, hkey']
  by_cases hsettled : SettledFor runtime first.gateway again.gateway subscription event.eventType
  · refine .inl ⟨hsettled, ?_⟩
    rw [hreduce, normalize_settled hbody hsettled, ok_bind]
    exact applyLifecycleBody_of_recorded hrecorded (parseSubscriptionLifecycleRequest_later hsame.clock hparse)
  · refine .inr ⟨hsettled, ?_⟩
    rw [hreduce]
    cases hnew : normalizeStripeLifecycleEvent runtime again.gateway event key subscription account with
    | error e => exact ⟨e, rfl⟩
    | ok body' =>
      rw [ok_bind]
      exact redelivered_unsettled hinj hrecorded hsame.clock hbody hparse hnew hsettled

/-- A later delivery of an accepted event replays it when the subscription is settled, and throws otherwise. -/
theorem webhook_redelivered (hinj : Function.Injective env.sha256) {first again : Delivery}
    {r : StripeCheckoutLifecycleResult} (hsame : SameEvent runtime first again)
    (h : fulfillStripeCheckoutWebhook env runtime first s = .ok (.lifecycle r, t)) (hgrows : Grows env t u) :
    (Settled runtime first again ∧ fulfillStripeCheckoutWebhook env runtime again u = .ok (.lifecycle replayed, u)) ∨
    (¬ Settled runtime first again ∧ ∃ e, fulfillStripeCheckoutWebhook env runtime again u = .error e) := by
  obtain ⟨verified, hverified, h⟩ := bind_eq_ok h
  split_ifs at h with hcheckout
  · obtain ⟨_, -, h⟩ := bind_eq_ok h
    cases h
  cases hevent : lifecycleEvent verified with
  | none =>
    rw [hevent] at h
    cases h
  | some event =>
    rw [hevent] at h
    obtain ⟨⟨result, s1⟩, hlifecycle, h⟩ := bind_eq_ok h
    cases h
    obtain ⟨_, subscription, _, _, _, _, _, hsub, -⟩ := lifecycle_ok hlifecycle
    have hsettled : Settled runtime first again ↔
        SettledFor runtime first.gateway again.gateway subscription event.eventType := by
      constructor
      · exact fun hs => hs verified event subscription hverified hevent hsub
      · intro hs verified' event' subscription' hverified' hevent' hsub'
        obtain rfl := Except.ok.inj (hverified.symm.trans hverified')
        obtain rfl := Option.some.inj (hevent.symm.trans hevent')
        obtain rfl := Except.ok.inj (hsub.symm.trans hsub')
        exact hs
    have hverified' : verifiedEvent runtime again = .ok verified := by
      rw [verifiedEvent, hsame.event]
      exact hverified
    have hreduce : fulfillStripeCheckoutWebhook env runtime again u =
        fulfillStripeSubscriptionLifecycle env runtime again event u >>= fun result =>
          .ok (.lifecycle result.1, result.2) := by
      rw [fulfillStripeCheckoutWebhook, hverified', ok_bind, if_neg hcheckout, hevent]
      rfl
    rw [hsettled, hreduce]
    rcases lifecycle_redelivered hinj hsame hlifecycle hgrows hsub with ⟨hs, heq⟩ | ⟨hs, e, heq⟩
    · exact .inl ⟨hs, by rw [heq]; rfl⟩
    · exact .inr ⟨hs, e, by rw [heq]; rfl⟩

/-- Once a lifecycle event is accepted and whatever the store did since, redeliveries of it, however many,
are all replays that change nothing exactly when each finds the subscription settled. -/
theorem redelivered_iff (hinj : Function.Injective env.sha256) {first : Delivery} {r : StripeCheckoutLifecycleResult}
    (haccepted : fulfillStripeCheckoutWebhook env runtime first s = .ok (.lifecycle r, t))
    (calls : List (Int × StoreCall)) (agains : List Delivery) (hsame : ∀ again ∈ agains, SameEvent runtime first again) :
    deliverAll env runtime (after env t calls) agains =
        (agains.map fun _ => .ok (.lifecycle replayed), after env t calls) ↔
      ∀ again ∈ agains, Settled runtime first again := by
  have hgrows : Grows env t (after env t calls) := after_grows calls
  generalize after env t calls = u at hgrows ⊢
  induction agains with
  | nil => exact ⟨fun _ _ h => absurd h List.not_mem_nil, fun _ => rfl⟩
  | cons again agains ih =>
    have hrest := ih fun d hd => hsame d (List.mem_cons_of_mem _ hd)
    rcases webhook_redelivered hinj (hsame again List.mem_cons_self) haccepted hgrows with ⟨hs, heq⟩ | ⟨hs, e, heq⟩
    · simp only [deliverAll, heq, List.map_cons, Prod.ext_iff, List.cons.injEq, true_and, List.forall_mem_cons, hs,
        ← hrest]
    · simp [deliverAll, heq, hs]

end

/-! ## A redelivery that is refused -/

/-- Digests stand for themselves, and no other date text is read. -/
def sampleEnv : Env := ⟨fun text => "digest of " ++ text, fun secret text => secret ++ text, fun _ => none⟩

def sampleRuntime : StripeCheckoutRuntime :=
  { webhookSecret := "whsec_1"
    expectedAccountId := "acct_1"
    mode := .test
    licenseDerivationSecret := "a secret of sufficient length"
    allowedPrices := fun _ => ⟨"price_1", "prod_1"⟩
    redemptionTtlMs := 1800000 }

def boundCheckout : IssueBoundCheckoutLicenseFields :=
  ⟨"checkout-session:cs_test_1", "neondiff_monthly", ⟨"stripe", "acct_1", "test", "sub_1", "cs_test_1"⟩⟩

def sampleStore : Licenses :=
  after sampleEnv {} [(1700000000000, .issueBoundCheckoutLicense "nd_live_1" boundCheckout)]

def failedInvoice : Json :=
  .obj [("id", .str "evt_1"), ("type", .str "invoice.payment_failed"), ("created", .int 1700000000),
    ("livemode", .bool false),
    ("data", .obj [("object", .obj [("id", .str "in_1"), ("livemode", .bool false), ("subscription", .str "sub_1")])])]

def failedInvoiceDelivery (status : String) : Delivery :=
  { rawBody := "raw"
    signature := "signature"
    now := 1700000100000
    storeNow := 1700000100000
    gateway :=
      { verifyEvent := fun _ _ _ => some failedInvoice
        retrieveAccount := fun _ => some (.obj [("id", .str "acct_1")])
        retrieveCheckoutSession := fun _ => none
        retrieveSubscription := fun id => some (.obj [("id", .str id), ("livemode", .bool false),
          ("status", .str status), ("cancel_at_period_end", .bool false)]) } }

/-- The store after the first delivery. -/
def acceptedStore : Licenses :=
  ((fulfillStripeCheckoutWebhook sampleEnv sampleRuntime (failedInvoiceDelivery "past_due") sampleStore).toOption.map
    Prod.snd).getD sampleStore

theorem eq_ok_of_map_fst {ε α β : Type} {x : Except ε (α × β)} {a : α} (d : β) (h : x.map Prod.fst = .ok a) :
    x = .ok (a, (x.toOption.map Prod.snd).getD d) := by
  cases x with
  | error e => cases h
  | ok p => exact congrArg Except.ok (Prod.ext (Except.ok.inj h) rfl)

theorem eq_error_of_map_fst {ε α β : Type} {x : Except ε (α × β)} {e : ε} (h : x.map Prod.fst = .error e) :
    x = .error e := by
  cases x with
  | error e' => exact congrArg Except.error (Except.error.inj h)
  | ok p => cases h

theorem failedInvoice_accepted :
    fulfillStripeCheckoutWebhook sampleEnv sampleRuntime (failedInvoiceDelivery "past_due") sampleStore =
      .ok (.lifecycle ⟨.paymentAttention, false⟩, acceptedStore) :=
  eq_ok_of_map_fst _ (by decide +kernel)

theorem failedInvoice_sameEvent (status : String) :
    SameEvent sampleRuntime (failedInvoiceDelivery "past_due") (failedInvoiceDelivery status) :=
  ⟨rfl, rfl, le_refl _⟩

theorem sampleEnv_injective : Function.Injective sampleEnv.sha256 :=
  fun _ _ h => (String.append_right_inj _).mp h

/-- The failed invoice is accepted while the subscription is past due and refused once it is paid up. -/
theorem failedInvoice_refused :
    fulfillStripeCheckoutWebhook sampleEnv sampleRuntime (failedInvoiceDelivery "past_due") sampleStore =
      .ok (.lifecycle ⟨.paymentAttention, false⟩, acceptedStore) ∧
    SameEvent sampleRuntime (failedInvoiceDelivery "past_due") (failedInvoiceDelivery "active") ∧
    fulfillStripeCheckoutWebhook sampleEnv sampleRuntime (failedInvoiceDelivery "active") acceptedStore =
      .error (.conflict "Stripe lifecycle event conflicts") :=
  ⟨failedInvoice_accepted, failedInvoice_sameEvent _, eq_error_of_map_fst (by decide +kernel)⟩

/-- While it stays past due, two more deliveries are replays. -/
theorem redelivered_iff_pastDue :
    deliverAll sampleEnv sampleRuntime (after sampleEnv acceptedStore [])
        [failedInvoiceDelivery "past_due", failedInvoiceDelivery "past_due"] =
        ([.ok (.lifecycle replayed), .ok (.lifecycle replayed)], acceptedStore) ↔
      ∀ again ∈ [failedInvoiceDelivery "past_due", failedInvoiceDelivery "past_due"],
        Settled sampleRuntime (failedInvoiceDelivery "past_due") again :=
  redelivered_iff sampleEnv_injective failedInvoice_accepted [] _ (by
    intro again h
    obtain rfl : again = failedInvoiceDelivery "past_due" := by simpa using h
    exact failedInvoice_sameEvent _)

end NeonDiff.Billing
