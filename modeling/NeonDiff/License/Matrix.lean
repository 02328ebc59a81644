import NeonDiff.License.Request

/-! # The documented command matrix

The matrix is written down here as its table has it. The parser reads every text without the white space around it.
-/

namespace NeonDiff.License

open NeonDiff.Lib NeonDiff.Lib.JsText

/-! ## The matrix -/

inductive Presence where
  | required | optional | forbidden
  deriving DecidableEq, Repr

/-- A row of the matrix. No flag means either one; `reasons` has the code of each status. -/
structure MatrixRow where
  command : String
  events : List String
  statuses : List String
  payment : Presence := .forbidden
  periodEnd : Presence
  cancelAtPeriodEnd : Option Bool
  reasons : List (String × String) := []

def renewPaidRow : MatrixRow where
  command := "renew_paid"
  events := ["invoice.paid", "invoice.payment_succeeded"]
  statuses := ["active"]
  payment := .required
  periodEnd := .required
  cancelAtPeriodEnd := some false

def reconcileRow : MatrixRow where
  command := "reconcile"
  events := ["customer.subscription.updated"]
  statuses := ["active", "trialing"]
  periodEnd := .optional
  cancelAtPeriodEnd := some false

def cancelAtPeriodEndRow : MatrixRow where
  command := "cancel_at_period_end"
  events := ["customer.subscription.updated"]
  statuses := ["active", "trialing"]
  periodEnd := .required
  cancelAtPeriodEnd := some true

def paymentAttentionRow : MatrixRow where
  command := "payment_attention"
  events := ["invoice.payment_failed", "customer.subscription.updated"]
  statuses := ["active", "past_due", "incomplete", "paused"]
  periodEnd := .optional
  cancelAtPeriodEnd := none

def revokeRow : MatrixRow where
  command := "revoke"
  events := ["customer.subscription.deleted", "customer.subscription.updated"]
  statuses := ["canceled", "unpaid", "incomplete_expired"]
  periodEnd := .forbidden
  cancelAtPeriodEnd := none
  reasons := [("canceled", "subscription_canceled"), ("unpaid", "subscription_unpaid"),
    ("incomplete_expired", "subscription_incomplete_expired")]

def matrixRows : List MatrixRow :=
  [renewPaidRow, reconcileRow, cancelAtPeriodEndRow, paymentAttentionRow, revokeRow]

/-- A text field without the white space around it. -/
def textField (body : Body) (field : String) : Option String :=
  match Json.field body field with
  | some (.str value) => some (String.ofList (trim value.toList))
  | _ => none

def StrictUtc (ms : Int) (value : String) : Prop := IsoDate.toISOString ms = value ∧ value.toList.length = 24

structure PaymentGiven (body : Body) : Prop where
  reference : ∃ reference, textField body "paymentReference" = some reference ∧ reference ≠ ""
  amount : ∃ n : Int, Json.field body "amountPaidMinor" = some (.int n) ∧ 0 < n
  currency : Json.field body "currency" = some (.str "usd")
  paidOutOfBand : Json.field body "paidOutOfBand" = some (.bool false)
  billingReason : Json.field body "billingReason" = some (.str "subscription_cycle")

def PaymentAbsent (body : Body) : Prop := ∀ field ∈ paymentFields, Json.field body field = none

def PeriodEndGiven (body : Body) : Prop :=
  ∃ value ms, Json.field body "currentPeriodEnd" = some (.str value) ∧ StrictUtc ms value

def PeriodEndAbsent (body : Body) : Prop := Json.field body "currentPeriodEnd" = none

/-- Whether a field is there where it has to be and away where it must not be. -/
def Presence.Holds (given absent : Prop) : Presence → Prop
  | required => given
  | optional => given ∨ absent
  | forbidden => absent

structure MatrixRow.Meets (row : MatrixRow) (body : Body) : Prop where
  command : textField body "command" = some row.command
  event : ∃ event ∈ row.events, textField body "providerEventType" = some event
  status : ∃ status ∈ row.statuses, textField body "subscriptionStatus" = some status
  payment : row.payment.Holds (PaymentGiven body) (PaymentAbsent body)
  periodEnd : row.periodEnd.Holds (PeriodEndGiven body) (PeriodEndAbsent body)
  cancel : ∃ flag, Json.field body "cancelAtPeriodEnd" = some (.bool flag) ∧ ∀ b, row.cancelAtPeriodEnd = some b → flag = b
  reason : Json.field body "reason" = none ∨ ∃ entry ∈ row.reasons,
    textField body "subscriptionStatus" = some entry.1 ∧ textField body "reason" = some entry.2

def MeetsMatrix (body : Body) : Prop := ∃ row ∈ matrixRows, row.Meets body

def FuturePeriodEnd (now : Int) (body : Body) : Prop :=
  ∀ value ms, Json.field body "currentPeriodEnd" = some (.str value) → StrictUtc ms value → now < ms

/-! ## What the parser has read -/

theorem textField_of_readRequiredString {body : Body} {field : String} {maxLength : Nat} {value : String}
    (h : readRequiredString body field maxLength = .ok value) : textField body field = some value ∧ value ≠ "" := by
  unfold readRequiredString at h
  unfold textField
  cases hfield : Json.field body field with
  | none =>
    rw [hfield] at h
    cases h
  | some given =>
    rw [hfield] at h
    cases given with
    | str text =>
      dsimp only at h ⊢
      split_ifs at h with hempty hlong
      obtain rfl := Except.ok.inj h
      refine ⟨rfl, ?_⟩
      intro hnil
      exact hempty (String.ofList_eq_empty_iff.mp hnil)
    | _ => cases h

theorem strictUtc_of_readStrictPeriodEnd {env : Env} {value : Option Json} {needed : Bool} {text : String}
    (h : readStrictPeriodEnd env value needed = .ok text) : value = some (.str text) ∧ ∃ ms, StrictUtc ms text := by
  unfold readStrictPeriodEnd at h
  split at h
  · rename_i value
    split_ifs at h with hshape hdate
    obtain rfl := Except.ok.inj h
    refine ⟨rfl, ?_⟩
    obtain ⟨ms, -, hms⟩ := (Option.any_eq_true _ _).mp hdate
    refine ⟨ms, of_decide_eq_true hms, ?_⟩
    have hlength : isStrictTimestamp value = true := by simpa using hshape
    unfold isStrictTimestamp hasShape at hlength
    rw [Bool.and_eq_true] at hlength
    exact (of_decide_eq_true hlength.1).symm
  · cases h

theorem lifecycleCommandOf_text {value : String} {command : SubscriptionLifecycleCommand}
    (h : lifecycleCommandOf value = some command) : value = command.text := by
  have := List.find?_some h
  exact (of_decide_eq_true this).symm

theorem validateCommandMatrix_eq_ok {command : SubscriptionLifecycleCommand} {event status : String}
    {p : ProviderEventType × SubscriptionStatus} (h : validateCommandMatrix command event status = .ok p) :
    (p.1 ∈ (commandMatrix command).1 ∧ event = p.1.text) ∧ p.2 ∈ (commandMatrix command).2 ∧ status = p.2.text := by
  unfold validateCommandMatrix at h
  split at h
  · cases h
  · rename_i foundEvent hevent
    split at h
    · cases h
    · rename_i foundStatus hstatus
      obtain rfl := Except.ok.inj h
      have heventText := List.find?_some hevent
      have hstatusText := List.find?_some hstatus
      exact ⟨⟨List.mem_of_find?_eq_some hevent, (of_decide_eq_true heventText).symm⟩,
        List.mem_of_find?_eq_some hstatus, (of_decide_eq_true hstatusText).symm⟩

/-- What the parser has read of a body it accepts. -/
structure Parsed (env : Env) (body : Body) (r : SubscriptionLifecycleRequest) : Prop where
  command : textField body "command" = some r.detail.command.text
  event : textField body "providerEventType" = some r.providerEventType.text
  status : textField body "subscriptionStatus" = some r.subscriptionStatus.text
  eventListed : r.providerEventType ∈ (commandMatrix r.detail.command).1
  statusListed : r.subscriptionStatus ∈ (commandMatrix r.detail.command).2
  cancel : Json.field body "cancelAtPeriodEnd" = some (.bool r.cancelAtPeriodEnd)
  detail : parseDetail env body r.cancelAtPeriodEnd r.subscriptionStatus r.detail.command = .ok r.detail

theorem parseDetail_command {env : Env} {body : Body} {cancel : Bool} {status : SubscriptionStatus}
    {command : SubscriptionLifecycleCommand} {detail : CommandDetail}
    (h : parseDetail env body cancel status command = .ok detail) : detail.command = command := by
  cases command with
  | renewPaid =>
    obtain ⟨_, -, h⟩ := bind_eq_ok h
    obtain ⟨_, -, h⟩ := bind_eq_ok h
    obtain ⟨_, -, h⟩ := bind_eq_ok h
    obtain ⟨_, -, h⟩ := bind_eq_ok h
    exact Except.ok.inj h ▸ rfl
  | reconcile =>
    obtain ⟨_, -, h⟩ := bind_eq_ok h
    obtain ⟨_, -, h⟩ := bind_eq_ok h
    obtain ⟨_, -, h⟩ := bind_eq_ok h
    obtain ⟨_, -, h⟩ := bind_eq_ok h
    exact Except.ok.inj h ▸ rfl
  | cancelAtPeriodEnd =>
    obtain ⟨_, -, h⟩ := bind_eq_ok h
    obtain ⟨_, -, h⟩ := bind_eq_ok h
    obtain ⟨_, -, h⟩ := bind_eq_ok h
    obtain ⟨_, -, h⟩ := bind_eq_ok h
    exact Except.ok.inj h ▸ rfl
  | paymentAttention =>
    obtain ⟨_, -, h⟩ := bind_eq_ok h
    obtain ⟨_, -, h⟩ := bind_eq_ok h
    obtain ⟨_, -, h⟩ := bind_eq_ok h
    exact Except.ok.inj h ▸ rfl
  | revoke =>
    obtain ⟨_, -, h⟩ := bind_eq_ok h
    obtain ⟨_, -, h⟩ := bind_eq_ok h
    split at h
    · cases h
    · split at h
      · exact Except.ok.inj h ▸ rfl
      · obtain ⟨_, -, h⟩ := bind_eq_ok h
        obtain ⟨_, -, h⟩ := bind_eq_ok h
        exact Except.ok.inj h ▸ rfl

theorem parsed_of_parseSubscriptionLifecycleRequest {env : Env} {bytes : Nat} {parsed : Json} {now : Int}
    {r : SubscriptionLifecycleRequest} (h : parseSubscriptionLifecycleRequest env bytes parsed now = .ok r) :
    ∃ body, parsed = .obj body ∧ Parsed env body r := by
  obtain ⟨_, -, h⟩ := bind_eq_ok h
  cases parsed with
  | obj body =>
    refine ⟨body, rfl, ?_⟩
    obtain ⟨common, -, h⟩ := bind_eq_ok h
    obtain ⟨event, hevent, h⟩ := bind_eq_ok h
    obtain ⟨commandValue, hcommand, h⟩ := bind_eq_ok h
    split at h
    · cases h
    · rename_i command hknown
      obtain ⟨status, hstatus, h⟩ := bind_eq_ok h
      split at h
      · rename_i flag hflag
        obtain ⟨⟨foundEvent, foundStatus⟩, hmatrix, h⟩ := bind_eq_ok h
        obtain ⟨detail, hdetail, h⟩ := bind_eq_ok h
        obtain rfl := Except.ok.inj h
        obtain ⟨⟨hlisted, rfl⟩, hlisted', rfl⟩ := validateCommandMatrix_eq_ok hmatrix
        obtain rfl := lifecycleCommandOf_text hknown
        have hsame := parseDetail_command hdetail
        subst hsame
        exact ⟨(textField_of_readRequiredString hcommand).1, (textField_of_readRequiredString hevent).1,
          (textField_of_readRequiredString hstatus).1, hlisted, hlisted', hflag, hdetail⟩
      · cases h
  | _ => cases h

/-! ## The parser keeps to the matrix -/

theorem paymentGiven_of_parsePayment {env : Env} {body : Body} {p : String × Int} (h : parsePayment env body = .ok p) :
    PaymentGiven body ∧ ∃ reference, textField body "paymentReference" = some reference ∧
      p.1 = paymentReferenceFingerprint env reference := by
  obtain ⟨reference, hreference, h⟩ := bind_eq_ok h
  obtain ⟨htext, hne⟩ := textField_of_readRequiredString hreference
  dsimp only at h
  split at h
  · rename_i n hn
    split at h
    · rename_i hpositive
      rw [ok_bind] at h
      obtain ⟨_, hcurrency, h⟩ := bind_eq_ok h
      obtain ⟨_, hband, h⟩ := bind_eq_ok h
      obtain ⟨_, hreason, h⟩ := bind_eq_ok h
      obtain rfl := Except.ok.inj h
      rw [require_eq_ok] at hcurrency hband hreason
      rw [Bool.and_eq_true] at hpositive
      refine ⟨⟨⟨reference, htext, hne⟩, ⟨n, hn, of_decide_eq_true hpositive.2⟩, ?_, ?_, ?_⟩, reference, htext, rfl⟩
      · split at hcurrency
        · rename_i c hc
          rw [hc, of_decide_eq_true hcurrency]
        · cases hcurrency
      · split at hband
        · rename_i b hb
          rw [hb]
          cases b
          · rfl
          · cases hband
        · cases hband
      · split at hreason
        · rename_i c hc
          rw [hc, of_decide_eq_true hreason]
        · cases hreason
    · cases h
  · cases h

theorem paymentAbsent_of_noPayment {body : Body} {u : Unit} (h : noPayment body = .ok u) : PaymentAbsent body := by
  unfold noPayment at h
  rw [require_eq_ok, Bool.not_eq_true', List.any_eq_false] at h
  intro field hfield
  have hnot := h field hfield
  exact Option.not_isSome_iff_eq_none.mp hnot

theorem noReason_eq_ok {body : Body} {u : Unit} (h : noReason body = .ok u) : Json.field body "reason" = none := by
  unfold noReason at h
  rw [require_eq_ok] at h
  exact Option.isNone_iff_eq_none.mp h

theorem periodEndGiven_of_readStrictPeriodEnd {env : Env} {body : Body} {needed : Bool} {text : String}
    (h : readStrictPeriodEnd env (Json.field body "currentPeriodEnd") needed = .ok text) : PeriodEndGiven body := by
  obtain ⟨hfield, ms, hms⟩ := strictUtc_of_readStrictPeriodEnd h
  exact ⟨text, ms, hfield, hms⟩

theorem periodEnd_of_parseDiagnosticPeriodEnd {env : Env} {body : Body} {periodEnd : Option String}
    (h : parseDiagnosticPeriodEnd env body = .ok periodEnd) : PeriodEndGiven body ∨ PeriodEndAbsent body := by
  unfold parseDiagnosticPeriodEnd at h
  split at h
  · rename_i hfield
    exact .inr hfield
  · rename_i value hfield
    obtain ⟨text, htext, -⟩ := map_eq_ok.mp h
    obtain ⟨hvalue, ms, hms⟩ := strictUtc_of_readStrictPeriodEnd htext
    exact .inl ⟨text, ms, hfield.trans hvalue, hms⟩

structure DetailMeets (row : MatrixRow) (body : Body) (cancel : Bool) (status : SubscriptionStatus) : Prop where
  payment : row.payment.Holds (PaymentGiven body) (PaymentAbsent body)
  periodEnd : row.periodEnd.Holds (PeriodEndGiven body) (PeriodEndAbsent body)
  cancel : ∀ b, row.cancelAtPeriodEnd = some b → cancel = b
  reason : Json.field body "reason" = none ∨ ∃ code, (status.text, code) ∈ row.reasons ∧
    textField body "reason" = some code

theorem reason_listed {status : SubscriptionStatus} {reason : String}
    (h : revokeReasonForStatus status = some reason) : (status.text, reason) ∈ revokeRow.reasons := by
  cases status <;> first | (cases h; decide) | cases h

def rowOf : SubscriptionLifecycleCommand → MatrixRow
  | .renewPaid => renewPaidRow
  | .reconcile => reconcileRow
  | .cancelAtPeriodEnd => cancelAtPeriodEndRow
  | .paymentAttention => paymentAttentionRow
  | .revoke => revokeRow

theorem detailMeets_of_parseDetail {env : Env} {body : Body} {cancel : Bool} {status : SubscriptionStatus}
    {command : SubscriptionLifecycleCommand} {detail : CommandDetail}
    (h : parseDetail env body cancel status command = .ok detail) : DetailMeets (rowOf command) body cancel status := by
  cases command with
  | renewPaid =>
    obtain ⟨payment, hpayment, h⟩ := bind_eq_ok h
    obtain ⟨_, hperiod, h⟩ := bind_eq_ok h
    obtain ⟨_, hcancel, h⟩ := bind_eq_ok h
    obtain ⟨_, hreason, -⟩ := bind_eq_ok h
    rw [require_eq_ok, Bool.not_eq_true'] at hcancel
    refine ⟨(paymentGiven_of_parsePayment hpayment).1, periodEndGiven_of_readStrictPeriodEnd hperiod, ?_,
      .inl (noReason_eq_ok hreason)⟩
    rintro b hb
    cases hb
    exact hcancel
  | reconcile =>
    obtain ⟨_, hpayment, h⟩ := bind_eq_ok h
    obtain ⟨_, hperiod, h⟩ := bind_eq_ok h
    obtain ⟨_, hcancel, h⟩ := bind_eq_ok h
    obtain ⟨_, hreason, -⟩ := bind_eq_ok h
    rw [require_eq_ok, Bool.not_eq_true'] at hcancel
    refine ⟨paymentAbsent_of_noPayment hpayment, periodEnd_of_parseDiagnosticPeriodEnd hperiod, ?_,
      .inl (noReason_eq_ok hreason)⟩
    rintro b hb
    cases hb
    exact hcancel
  | cancelAtPeriodEnd =>
    obtain ⟨_, hpayment, h⟩ := bind_eq_ok h
    obtain ⟨_, hperiod, h⟩ := bind_eq_ok h
    obtain ⟨_, hcancel, h⟩ := bind_eq_ok h
    obtain ⟨_, hreason, -⟩ := bind_eq_ok h
    rw [require_eq_ok] at hcancel
    refine ⟨paymentAbsent_of_noPayment hpayment, periodEndGiven_of_readStrictPeriodEnd hperiod, ?_,
      .inl (noReason_eq_ok hreason)⟩
    rintro b hb
    cases hb
    exact hcancel
  | paymentAttention =>
    obtain ⟨_, hpayment, h⟩ := bind_eq_ok h
    obtain ⟨_, hperiod, h⟩ := bind_eq_ok h
    obtain ⟨_, hreason, -⟩ := bind_eq_ok h
    exact ⟨paymentAbsent_of_noPayment hpayment, periodEnd_of_parseDiagnosticPeriodEnd hperiod, nofun,
      .inl (noReason_eq_ok hreason)⟩
  | revoke =>
    obtain ⟨_, hpayment, h⟩ := bind_eq_ok h
    obtain ⟨_, hperiod, h⟩ := bind_eq_ok h
    rw [require_eq_ok] at hperiod
    have habsent : PeriodEndAbsent body := Option.isNone_iff_eq_none.mp hperiod
    refine ⟨paymentAbsent_of_noPayment hpayment, habsent, nofun, ?_⟩
    split at h
    · cases h
    · rename_i reason hreason
      split at h
      · rename_i hfield
        exact .inl hfield
      · obtain ⟨supplied, hsupplied, h⟩ := bind_eq_ok h
        obtain ⟨_, hsame, -⟩ := bind_eq_ok h
        rw [require_eq_ok, decide_eq_true_iff] at hsame
        subst hsame
        exact .inr ⟨supplied, reason_listed hreason, (textField_of_readRequiredString hsupplied).1⟩

theorem rowOf_command (command : SubscriptionLifecycleCommand) : (rowOf command).command = command.text := by
  cases command <;> rfl

theorem rowOf_events (command : SubscriptionLifecycleCommand) :
    (rowOf command).events = (commandMatrix command).1.map ProviderEventType.text := by
  cases command <;> rfl

theorem rowOf_statuses (command : SubscriptionLifecycleCommand) :
    (rowOf command).statuses = (commandMatrix command).2.map SubscriptionStatus.text := by
  cases command <;> rfl

theorem rowOf_mem (command : SubscriptionLifecycleCommand) : rowOf command ∈ matrixRows := by
  cases command <;> simp [rowOf, matrixRows]

theorem Parsed.meetsMatrix {env : Env} {body : Body} {r : SubscriptionLifecycleRequest} (h : Parsed env body r) :
    MeetsMatrix body := by
  refine ⟨rowOf r.detail.command, rowOf_mem _, ?_⟩
  have hdetail := detailMeets_of_parseDetail h.detail
  refine ⟨?_, ?_, ?_, hdetail.payment, hdetail.periodEnd, ⟨_, h.cancel, hdetail.cancel⟩, ?_⟩
  · rw [rowOf_command]
    exact h.command
  · rw [rowOf_events]
    exact ⟨_, List.mem_map_of_mem h.eventListed, h.event⟩
  · rw [rowOf_statuses]
    exact ⟨_, List.mem_map_of_mem h.statusListed, h.status⟩
  · rcases hdetail.reason with hnone | ⟨code, hlisted, hcode⟩
    · exact .inl hnone
    · exact .inr ⟨_, hlisted, h.status, hcode⟩

end NeonDiff.License
