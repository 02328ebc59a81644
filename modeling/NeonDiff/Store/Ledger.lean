import NeonDiff.Store.Calls

/-! # The shapes of the authorization ledger

A row is pending, an incident, a no-op or posted, and it only moves forward.
-/

namespace NeonDiff.Store

open NeonDiff.Lib

/-! ## Shapes -/

inductive LedgerShape where
  | pending | incident | noOp | posted
  deriving DecidableEq, Repr

namespace ReviewEventAuthorizationConsumptionRecord

variable (row : ReviewEventAuthorizationConsumptionRecord)

def PostedColumns (set : Bool) : Prop :=
  row.postedEvent.isSome = set ∧ row.reviewUrl.isSome = set ∧ row.postedAt.isSome = set

def TerminalColumns (set : Bool) : Prop :=
  row.terminalOutcome = (if set then some "no_op" else none) ∧ row.terminalReason.isSome = set ∧
  row.terminalAt.isSome = set

def IncidentColumns (set : Bool) : Prop :=
  row.incidentError.isSome = set ∧ row.incidentCommentId.isSome = set ∧ row.incidentAt.isSome = set

/-- The columns of one shape are set, and the six others are null. -/
def HasShape (shape : LedgerShape) : Prop :=
  row.PostedColumns (shape = .posted) ∧ row.TerminalColumns (shape = .noOp) ∧ row.IncidentColumns (shape = .incident)

variable {row}

theorem HasShape.unique {a b : LedgerShape} (ha : row.HasShape a) (hb : row.HasShape b) : a = b := by
  have hposted : decide (a = .posted) = decide (b = .posted) := ha.1.1.symm.trans hb.1.1
  have hnoOp : decide (a = .noOp) = decide (b = .noOp) := ha.2.1.2.1.symm.trans hb.2.1.2.1
  have hincident : decide (a = .incident) = decide (b = .incident) := ha.2.2.1.symm.trans hb.2.2.1
  cases a <;> cases b <;> simp at hposted hnoOp hincident ⊢

end ReviewEventAuthorizationConsumptionRecord

/-- What a shape may turn into. -/
def LedgerShape.Leads : LedgerShape → LedgerShape → Prop
  | .pending, _ => True
  | .incident, b => b ≠ .pending
  | .noOp, b => b = .noOp ∨ b = .posted
  | .posted, b => b = .posted

theorem LedgerShape.Leads.refl (a : LedgerShape) : a.Leads a := by
  cases a <;> simp [Leads]

theorem LedgerShape.Leads.trans {a b c : LedgerShape} (hab : a.Leads b) (hbc : b.Leads c) : a.Leads c := by
  cases a <;> cases b <;> cases c <;> simp [Leads] at hab hbc ⊢

/-! ## One row -/

/-- Everything the store can do to a row of the ledger. -/
inductive Advance (row : ReviewEventAuthorizationConsumptionRecord) :
    ReviewEventAuthorizationConsumptionRecord → Prop where
  | same : Advance row row
  | incident (error : String) (commentId : Nat) (at_ : Int) (unposted : row.postedAt = none)
      (open_ : row.terminalAt = none) :
      Advance row
        { row with incidentError := some error, incidentCommentId := some commentId, incidentAt := some at_ }
  | noOp (reason : String) (at_ : Int) (unposted : row.postedAt = none) (open_ : row.terminalAt = none) :
      Advance row { row with
        terminalOutcome := some "no_op", terminalReason := some reason, terminalAt := some at_
        incidentError := none, incidentCommentId := none, incidentAt := none }
  | posted (event : ReviewEvent) (url : String) (at_ : Int) :
      Advance row
        { head := row.head, commentId := row.commentId, author := row.author, consumedAt := row.consumedAt
          postedEvent := some event, reviewUrl := some url, postedAt := some at_ }

/-- The identity of a row stays, and its shape only moves forward. -/
structure Evolves (row row' : ReviewEventAuthorizationConsumptionRecord) : Prop where
  head : row'.head = row.head
  commentId : row'.commentId = row.commentId
  author : row'.author = row.author
  consumedAt : row'.consumedAt = row.consumedAt
  leads : ∀ a, row.HasShape a → ∃ b, row'.HasShape b ∧ a.Leads b

theorem Evolves.refl (row : ReviewEventAuthorizationConsumptionRecord) : Evolves row row :=
  ⟨rfl, rfl, rfl, rfl, fun a ha => ⟨a, ha, .refl a⟩⟩

theorem Evolves.trans {a b c : ReviewEventAuthorizationConsumptionRecord} (hab : Evolves a b) (hbc : Evolves b c) :
    Evolves a c where
  head := hbc.head.trans hab.head
  commentId := hbc.commentId.trans hab.commentId
  author := hbc.author.trans hab.author
  consumedAt := hbc.consumedAt.trans hab.consumedAt
  leads := by
    intro x hx
    obtain ⟨y, hy, hxy⟩ := hab.leads x hx
    obtain ⟨z, hz, hyz⟩ := hbc.leads y hy
    exact ⟨z, hz, hxy.trans hyz⟩

theorem Advance.evolves {row row' : ReviewEventAuthorizationConsumptionRecord} (h : Advance row row') :
    Evolves row row' := by
  cases h with
  | same => exact .refl row
  | incident error commentId at_ unposted open_ =>
    refine ⟨rfl, rfl, rfl, rfl, fun a ha => ⟨.incident, ?_, ?_⟩⟩
    · have hposted : decide (a = .posted) = false := by rw [← ha.1.2.2, unposted]; rfl
      have hnoOp : decide (a = .noOp) = false := by rw [← ha.2.1.2.2, open_]; rfl
      obtain ⟨hp, ht, -⟩ := ha
      rw [hposted] at hp
      rw [hnoOp] at ht
      exact ⟨hp, ht, rfl, rfl, rfl⟩
    · have hposted : decide (a = .posted) = false := by rw [← ha.1.2.2, unposted]; rfl
      have hnoOp : decide (a = .noOp) = false := by rw [← ha.2.1.2.2, open_]; rfl
      cases a <;> simp [LedgerShape.Leads] at hposted hnoOp ⊢
  | noOp reason at_ unposted open_ =>
    have hposted : ∀ a, row.HasShape a → decide (a = .posted) = false := by
      intro a ha
      rw [← ha.1.2.2, unposted]
      rfl
    refine ⟨rfl, rfl, rfl, rfl, fun a ha => ⟨.noOp, ?_, ?_⟩⟩
    · obtain ⟨hp, -⟩ := id ha
      rw [hposted a ha] at hp
      exact ⟨hp, ⟨rfl, rfl, rfl⟩, rfl, rfl, rfl⟩
    · have := hposted a ha
      cases a <;> simp [LedgerShape.Leads] at this ⊢
  | posted event url at_ =>
    refine ⟨rfl, rfl, rfl, rfl, fun a _ => ⟨.posted, ⟨⟨rfl, rfl, rfl⟩, ⟨rfl, rfl, rfl⟩, rfl, rfl, rfl⟩, ?_⟩⟩
    cases a <;> simp [LedgerShape.Leads]

/-! ## One call -/

/-- A row as `tryConsumeReviewEventAuthorization` inserts it. -/
structure Inserted (row : ReviewEventAuthorizationConsumptionRecord) : Prop where
  lower : ∃ head, row.head = ledgerKey head
  pending : row.HasShape .pending

/-- What a call leaves of the ledger. -/
structure LedgerStep (s t : State) : Prop where
  kept : ∀ row ∈ s.consumptions.rows, ∃ row' ∈ t.consumptions.rows, Advance row row'
  origin : ∀ row' ∈ t.consumptions.rows, (∃ row ∈ s.consumptions.rows, Advance row row') ∨ Inserted row'

theorem LedgerStep.of_eq {s t : State} (h : t.consumptions = s.consumptions) : LedgerStep s t := by
  constructor
  · intro row hrow
    exact ⟨row, h ▸ hrow, .same⟩
  · intro row hrow
    exact Or.inl ⟨row, h ▸ hrow, .same⟩

theorem LedgerStep.of_update {s t : State} {f : ReviewEventAuthorizationConsumptionRecord →
    ReviewEventAuthorizationConsumptionRecord} (h : t.consumptions.rows = s.consumptions.rows.map f)
    (hadv : ∀ row ∈ s.consumptions.rows, Advance row (f row)) : LedgerStep s t := by
  constructor
  · intro row hrow
    refine ⟨f row, ?_, hadv row hrow⟩
    rw [h]
    exact List.mem_map_of_mem hrow
  · intro row' hrow'
    rw [h] at hrow'
    obtain ⟨row, hrow, rfl⟩ := List.mem_map.mp hrow'
    exact Or.inl ⟨row, hrow, hadv row hrow⟩

section Calls

variable {redactSecrets : String → String} {now : Int} {s s' : State}

theorem tryConsume_ledger {head : HeadKey} {commentId : Nat} {author : String} {b : Bool}
    (h : tryConsumeReviewEventAuthorization head commentId author now s = .ok (b, s')) : LedgerStep s s' := by
  unfold tryConsumeReviewEventAuthorization at h
  split at h
  · cases h
  split at h
  · obtain ⟨-, rfl⟩ := Prod.mk.inj (Except.ok.inj h)
    exact .of_eq rfl
  · rename_i consumptions hinsert
    obtain ⟨-, rfl⟩ := Prod.mk.inj (Except.ok.inj h)
    obtain ⟨hfree, rfl⟩ := Table.insert?_eq_some.mp hinsert
    constructor
    · intro row hrow
      exact ⟨row, List.mem_append_left _ hrow, .same⟩
    · intro row hrow
      obtain hrow | hrow := List.mem_append.mp hrow
      · exact Or.inl ⟨row, hrow, .same⟩
      · obtain rfl := List.mem_singleton.mp hrow
        exact Or.inr ⟨⟨head, rfl⟩, ⟨rfl, rfl, rfl⟩, ⟨rfl, rfl, rfl⟩, rfl, rfl, rfl⟩

theorem recordAuthorizedReviewPosted_ledger {input : AuthorizedPostedInput} {u : Unit}
    (h : recordAuthorizedReviewPosted input now s = .ok (u, s')) : LedgerStep s s' := by
  unfold recordAuthorizedReviewPosted at h
  split at h
  · cases h
  split at h
  · cases h
  dsimp only at h
  split at h
  · obtain ⟨-, rfl⟩ := Prod.mk.inj (Except.ok.inj h)
    refine .of_update rfl fun row _ => ?_
    split
    · exact .posted _ _ _
    · exact .same
  · cases h

theorem recordAuthorizedReviewNoop_ledger {input : AuthorizedNoopInput} {b : Bool}
    (h : recordAuthorizedReviewNoop input now s = .ok (b, s')) : LedgerStep s s' := by
  unfold recordAuthorizedReviewNoop at h
  split at h
  · cases h
  split at h
  · cases h
  rename_i c hfound
  split at h
  · obtain ⟨-, rfl⟩ := Prod.mk.inj (Except.ok.inj h)
    exact .of_eq rfl
  rename_i hopen
  simp only [Bool.or_eq_true, Option.isSome_iff_ne_none, not_or, not_not] at hopen
  split at h
  · cases h
  dsimp only at h
  split at h
  · cases h
  · obtain ⟨-, rfl⟩ := Prod.mk.inj (Except.ok.inj h)
    refine .of_update rfl fun row hrow => ?_
    split
    · rename_i hhead
      obtain rfl := s.consumptions.eq_of_key_eq hrow (Table.mem_of_find? hfound) hhead
      exact .noOp _ _ hopen.1 hopen.2
    · exact .same

theorem recordIncident_ledger {input : AuthorizationIncidentInput} {b : Bool}
    (h : recordReviewEventAuthorizationIncident redactSecrets input now s = .ok (b, s')) : LedgerStep s s' := by
  unfold recordReviewEventAuthorizationIncident at h
  split at h
  · cases h
  dsimp only at h
  split at h
  · cases h
  split at h
  · cases h
  split at h
  · cases h
  rename_i c hfound
  split at h
  · obtain ⟨-, rfl⟩ := Prod.mk.inj (Except.ok.inj h)
    exact .of_eq rfl
  rename_i hopen
  simp only [Bool.or_eq_true, Option.isSome_iff_ne_none, not_or, not_not] at hopen
  obtain ⟨-, rfl⟩ := Prod.mk.inj (Except.ok.inj h)
  refine .of_update rfl fun row hrow => ?_
  split
  · rename_i hhead
    obtain rfl := s.consumptions.eq_of_key_eq hrow (Table.mem_of_find? hfound) hhead
    exact .incident _ _ _ hopen.1 hopen.2
  · exact .same

theorem ledgerStep_of_ok {uuid : String} {call : StoreCall} {v : call.Value}
    (h : call.exec redactSecrets now uuid s = .ok (v, s')) : LedgerStep s s' := by
  cases call with
  | tryConsumeReviewEventAuthorization head commentId author => exact tryConsume_ledger h
  | recordAuthorizedReviewPosted input => exact recordAuthorizedReviewPosted_ledger h
  | recordAuthorizedReviewNoop input => exact recordAuthorizedReviewNoop_ledger h
  | recordReviewEventAuthorizationIncident input => exact recordIncident_ledger h
  | getReviewEventAuthorizationConsumption head =>
    obtain rfl := getConsumption_state h
    exact .of_eq rfl
  | recordReviewReadiness input => exact .of_eq (recordReviewReadiness_consumptions h)
  | tryClaimReviewHeadWithOutcome input => exact .of_eq (tryClaim_consumptions h)
  | recordBaseMergeOnlySkip record =>
    obtain ⟨-, rfl⟩ := Prod.mk.inj (Except.ok.inj h)
    exact .of_eq (recordBaseMergeOnlySkip_frame record now s).2
  | tryRecordDryRun input =>
    obtain ⟨-, rfl⟩ := Prod.mk.inj (Except.ok.inj h)
    exact .of_eq (tryRecordDryRun_consumptions input now s)
  | _ =>
    obtain ⟨-, rfl⟩ := Prod.mk.inj (Except.ok.inj h)
    exact .of_eq rfl

end Calls

/-! ## Runs -/

structure LedgerOk (s : State) : Prop where
  shape : ∀ row ∈ s.consumptions.rows, ∃ shape, row.HasShape shape
  lower : ∀ row ∈ s.consumptions.rows, ledgerKey row.head = row.head

theorem ledgerKey_ledgerKey (head : HeadKey) : ledgerKey (ledgerKey head) = ledgerKey head := by
  have hidem : Char.toLower ∘ Char.toLower = Char.toLower := funext JsText.toLower_toLower
  simp [ledgerKey, hidem]

theorem LedgerOk.step {s t : State} (hs : LedgerOk s) (h : LedgerStep s t) : LedgerOk t := by
  constructor
  · intro row' hrow'
    obtain ⟨row, hrow, hadv⟩ | hnew := h.origin row' hrow'
    · obtain ⟨a, ha⟩ := hs.shape row hrow
      obtain ⟨b, hb, -⟩ := hadv.evolves.leads a ha
      exact ⟨b, hb⟩
    · exact ⟨_, hnew.pending⟩
  · intro row' hrow'
    obtain ⟨row, hrow, hadv⟩ | hnew := h.origin row' hrow'
    · rw [hadv.evolves.head]
      exact hs.lower row hrow
    · obtain ⟨head, hhead⟩ := hnew.lower
      rw [hhead]
      exact ledgerKey_ledgerKey head

variable {redactSecrets : String → String}

theorem ledgerStep_after (c : TimedCall) (s : State) :
    LedgerStep s (c.call.after redactSecrets c.now c.uuid s) := by
  cases h : c.call.exec redactSecrets c.now c.uuid s with
  | error e =>
    rw [after_of_error h]
    exact .of_eq rfl
  | ok r =>
    rw [after_of_ok h]
    exact ledgerStep_of_ok h

theorem LedgerOk.after {s : State} (hs : LedgerOk s) (calls : List TimedCall) :
    LedgerOk (afterCalls redactSecrets s calls) := by
  induction calls generalizing s with
  | nil => exact hs
  | cons c calls ih => exact ih (hs.step (ledgerStep_after c s))

theorem evolves_after (s : State) (calls : List TimedCall) :
    ∀ row ∈ s.consumptions.rows, ∃ row' ∈ (afterCalls redactSecrets s calls).consumptions.rows, Evolves row row' := by
  induction calls generalizing s with
  | nil =>
    intro row hrow
    exact ⟨row, hrow, .refl row⟩
  | cons c calls ih =>
    intro row hrow
    obtain ⟨row', hrow', hadv⟩ := (ledgerStep_after c s).kept row hrow
    obtain ⟨row'', hrow'', hev⟩ := ih _ row' hrow'
    exact ⟨row'', hrow'', hadv.evolves.trans hev⟩

/-- Whatever the calls, from a well-formed ledger: every row is in one shape, no two rows are of one head, every
row keeps its identity and only moves forward, and a call that throws leaves the store alone. -/
theorem ledger_wellFormed (redactSecrets : String → String) (s : State) (calls : List TimedCall) (hs : LedgerOk s) :
    (∀ row ∈ (afterCalls redactSecrets s calls).consumptions.rows, ∃! shape, row.HasShape shape) ∧
    (∀ row ∈ (afterCalls redactSecrets s calls).consumptions.rows,
      ∀ row' ∈ (afterCalls redactSecrets s calls).consumptions.rows,
        ledgerKey row.head = ledgerKey row'.head → row = row') ∧
    (∀ row ∈ s.consumptions.rows, ∃ row' ∈ (afterCalls redactSecrets s calls).consumptions.rows, Evolves row row') ∧
    (∀ (c : TimedCall) (e : String),
      c.call.exec redactSecrets c.now c.uuid (afterCalls redactSecrets s calls) = .error e →
      afterCalls redactSecrets s (calls ++ [c]) = afterCalls redactSecrets s calls) := by
  have hok : LedgerOk (afterCalls redactSecrets s calls) := hs.after calls
  refine ⟨?_, ?_, evolves_after s calls, ?_⟩
  · intro row hrow
    obtain ⟨a, ha⟩ := hok.shape row hrow
    exact ⟨a, ha, fun b hb => hb.unique ha⟩
  · intro row hrow row' hrow' hkey
    rw [hok.lower row hrow, hok.lower row' hrow'] at hkey
    exact Table.eq_of_key_eq _ hrow hrow' hkey
  · intro c e hthrow
    rw [afterCalls, List.foldl_append]
    exact after_of_error hthrow

def incidentThenPosted (head : HeadKey) : List TimedCall :=
  [⟨.tryConsumeReviewEventAuthorization head 7 "owner", 1, ""⟩,
   ⟨.recordReviewEventAuthorizationIncident ⟨head, 9, "crashed"⟩, 2, ""⟩,
   ⟨.recordAuthorizedReviewPosted ⟨head, 7, "owner", .comment, "https://github.com/o/r/pull/1", none, none, none, false⟩,
    3, ""⟩]

def sampleHead : HeadKey := ⟨"o/r", 1, "0123456789abcdef0123456789abcdef0123ABCD"⟩

theorem ledger_wellFormed_incident :
    (afterCalls id {} (incidentThenPosted sampleHead)).consumptions.rows.map (·.postedAt) = [some 3] ∧
    (∀ row ∈ (afterCalls id {} (incidentThenPosted sampleHead)).consumptions.rows, ∃! shape, row.HasShape shape) ∧
    ∀ row ∈ (afterCalls id {} ((incidentThenPosted sampleHead).take 2)).consumptions.rows,
      ∃ row' ∈ (afterCalls id {} (incidentThenPosted sampleHead)).consumptions.rows, Evolves row row' := by
  have hempty : LedgerOk {} := by
    constructor <;> intro row hrow <;> cases hrow
  have hbefore : LedgerOk (afterCalls id {} ((incidentThenPosted sampleHead).take 2)) := hempty.after _
  refine ⟨by decide +kernel, (ledger_wellFormed id {} (incidentThenPosted sampleHead) hempty).1, ?_⟩
  exact (ledger_wellFormed id _ ((incidentThenPosted sampleHead).drop 2) hbefore).2.2.1

end NeonDiff.Store
