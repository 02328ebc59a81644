import NeonDiff.Lib.Transition
import NeonDiff.Store.Changes
import NeonDiff.Worker.Writers
import Mathlib.Logic.Function.Basic

/-! # Who removes a claim of a head

Any number of parties call the store: workers, schedulers and operators. The world remembers which party drew the id
of each claim. A party releases only claims of its own.
-/

namespace NeonDiff.Worker

open NeonDiff.Lib NeonDiff.Store

/-! ## Parties -/

structure PartyCall (P : Type) where
  party : P
  timed : TimedCall

structure Parties (P : Type) where
  store : State
  clock : Int
  /-- The party that drew the id of a claim. -/
  owner : String → Option P

/-- The clock does not go back, a drawn id is new, and a release names an id of the party. -/
def Parties.allows {P : Type} [DecidableEq P] (w : Parties P) (m : PartyCall P) : Bool :=
  w.clock ≤ m.timed.now &&
    match m.timed.call with
    | .tryClaimReviewHeadWithOutcome _ => (w.owner m.timed.uuid).isNone
    | .releaseReviewHeadClaim claimId => w.owner claimId = some m.party
    | _ => true

def Parties.ownerAfter {P : Type} (w : Parties P) (m : PartyCall P) : String → Option P :=
  match m.timed.call with
  | .tryClaimReviewHeadWithOutcome _ => Function.update w.owner m.timed.uuid (some m.party)
  | _ => w.owner

def Parties.step {P : Type} [DecidableEq P] (redactSecrets : String → String) (w : Parties P) (m : PartyCall P) :
    Option (Parties P) :=
  if w.allows m then some {
    store := m.timed.call.after redactSecrets m.timed.now m.timed.uuid w.store
    clock := m.timed.now
    owner := w.ownerAfter m }
  else none

section
variable {P : Type} [DecidableEq P] {redactSecrets : String → String} {w w' : Parties P} {m : PartyCall P}

def Completes (head : HeadKey) : StoreCall → Prop
  | .recordProcessed record => record.head = head
  | .recordAuthorizedReviewPosted input => input.head = head
  | .recordAuthorizedReviewNoop input => input.head = head
  | _ => False

/-- A step of the party that holds the claim: its release, or the record that completes its review. -/
def RemovedByHolder (w : Parties P) (m : PartyCall P) (claim : ReviewHeadClaimRow) : Prop :=
  w.owner claim.claimId = some m.party ∧
    (m.timed.call = .releaseReviewHeadClaim claim.claimId ∨ Completes claim.head m.timed.call)

/-- A head has one claim, and a claim that has not expired stands unless its holder removes it. -/
structure Exclusive (w w' : Parties P) (m : PartyCall P) : Prop where
  one : ∀ claim ∈ w'.store.claims.rows, ∀ other ∈ w'.store.claims.rows, claim.head = other.head → claim = other
  stands : ∀ claim ∈ w.store.claims.rows, m.timed.now < claim.expiresAt →
    claim ∈ w'.store.claims.rows ∨ RemovedByHolder w m claim

def OwnHeads (w : Parties P) (m : PartyCall P) : Prop :=
  ∀ claim ∈ w.store.claims.rows, m.timed.now < claim.expiresAt → Completes claim.head m.timed.call →
    w.owner claim.claimId = some m.party

omit [DecidableEq P] in
theorem one_claim (t : Table ReviewHeadClaimRow.head) :
    ∀ claim ∈ t.rows, ∀ other ∈ t.rows, claim.head = other.head → claim = other := by
  intro claim hclaim other hother hhead
  exact t.eq_of_key_eq hclaim hother hhead

theorem claim_after {call : StoreCall} {v : call.Value} {now : Int} {uuid : String} {s s' : State}
    {claim : ReviewHeadClaimRow} (hexec : call.exec redactSecrets now uuid s = .ok (v, s'))
    (hclaim : s.claims.find? claim.head = some claim) (hlive : now < claim.expiresAt) :
    s'.claims.find? claim.head = some claim ∨ call = .releaseReviewHeadClaim claim.claimId ∨
      Completes claim.head call := by
  have hstands : liveClaim s claim.head now = some claim := liveClaim_eq_some.mpr ⟨hclaim, hlive⟩
  have hchange := claimChange_of_ok hexec claim.head
  obtain ⟨left, hleft⟩ : ∃ left, s'.claims.find? claim.head = left := ⟨_, rfl⟩
  rw [hleft] at hchange ⊢
  cases hchange with
  | kept => exact Or.inl hclaim
  | recorded record hhead => exact Or.inr (Or.inr hhead)
  | posted input hhead => exact Or.inr (Or.inr hhead)
  | noop input hhead => exact Or.inr (Or.inr hhead)
  | swept => exact Or.inl hstands
  | acquired input hhead ttl free allowed =>
    rw [free] at hstands
    cases hstands
  | released other found =>
    obtain rfl := Option.some.inj (hclaim.symm.trans found)
    exact Or.inr (Or.inl rfl)

theorem Parties.step_cases (h : w.step redactSecrets m = some w') :
    w.allows m = true ∧ w'.store = m.timed.call.after redactSecrets m.timed.now m.timed.uuid w.store := by
  unfold Parties.step at h
  split at h
  · rename_i hallows
    obtain rfl := Option.some.inj h
    exact ⟨hallows, rfl⟩
  · cases h

theorem owner_of_release {claimId : String} (h : w.allows m = true)
    (hcall : m.timed.call = .releaseReviewHeadClaim claimId) : w.owner claimId = some m.party := by
  unfold Parties.allows at h
  rw [hcall] at h
  simp only [Bool.and_eq_true, decide_eq_true_eq] at h
  exact h.2

theorem exclusive_step (hown : OwnHeads w m) (h : w.step redactSecrets m = some w') : Exclusive w w' m := by
  obtain ⟨hallows, hstore⟩ := Parties.step_cases h
  refine ⟨one_claim w'.store.claims, ?_⟩
  intro claim hclaim hlive
  have hfound : w.store.claims.find? claim.head = some claim := Table.find?_eq_some.mpr ⟨hclaim, rfl⟩
  rw [hstore]
  cases hexec : m.timed.call.exec redactSecrets m.timed.now m.timed.uuid w.store with
  | error e =>
    rw [after_of_error hexec]
    exact Or.inl hclaim
  | ok result =>
    rw [after_of_ok hexec]
    obtain hstands | hrelease | hcompletes := claim_after hexec hfound hlive
    · exact Or.inl (Table.mem_of_find? hstands)
    · exact Or.inr ⟨owner_of_release hallows hrelease, Or.inl hrelease⟩
    · exact Or.inr ⟨hown claim hclaim hlive hcompletes, Or.inr hcompletes⟩

theorem not_exclusive_of_record {record : ProcessedReviewRecord} {claim : ReviewHeadClaimRow}
    (h : w.step redactSecrets m = some w') (hcall : m.timed.call = .recordProcessed record)
    (hclaim : claim ∈ w.store.claims.rows) (hhead : claim.head = record.head) (hlive : m.timed.now < claim.expiresAt)
    (howner : w.owner claim.claimId ≠ some m.party) : ¬Exclusive w w' m := by
  intro hexclusive
  obtain hstands | ⟨hholder, -⟩ := hexclusive.stands claim hclaim hlive
  · rw [(Parties.step_cases h).2, hcall] at hstands
    have hgone : (recordProcessed record m.timed.now w.store).claims.find? claim.head = none := by
      unfold recordProcessed
      rw [find?_deleteHead, if_pos hhead.symm]
    exact Table.find?_eq_none.mp hgone claim hstands rfl
  · exact howner hholder

/-- In a run where no party records a head under an unexpired claim of another, each head has one claim, and an
unexpired claim is removed by its holder alone. -/
theorem claims_stay_with_holder (redactSecrets : String → String) (w : Parties P) (calls : List (PartyCall P))
    (h : Along (Parties.step redactSecrets) OwnHeads w calls) :
    Along (Parties.step redactSecrets) (fun w m => ∀ w', w.step redactSecrets m = some w' → Exclusive w w' m)
      w calls := by
  apply h.mono
  intro w m hown w' hstep
  exact exclusive_step hown hstep

end

namespace OwnershipExample

inductive Party where
  | first | second
  deriving DecidableEq

def head : HeadKey := ⟨"owner/repo", 7, "a"⟩

def start : Parties Party := ⟨{}, 0, fun _ => none⟩

/-- The first worker claims the head for ten seconds. -/
def claimed : PartyCall Party :=
  ⟨.first, .tryClaimReviewHeadWithOutcome { head := head, claimTtlMs := 10000, ownerPid := 1 }, 1, "u"⟩

def stale : PartyCall Party := ⟨.second, .recordProcessed (skipped head "stale_head_before_review: live=b"), 2, ""⟩

def posted : PartyCall Party :=
  ⟨.first, .recordProcessed { head := head, status := .posted, reviewUrl := some "u" }, 3, ""⟩

def claimedWorld : Parties Party where
  store := claimed.timed.call.after id 1 "u" {}
  clock := 1
  owner := Function.update (fun _ => none) "u" (some .first)

def claimRow : ReviewHeadClaimRow := ⟨head, "u", 1, 1, 10001⟩

end OwnershipExample

open OwnershipExample

theorem claims_stay_with_holder_posted :
    Along (Parties.step id) (fun w m => ∀ w', w.step id m = some w' → Exclusive w w' m) start [claimed, posted] := by
  apply claims_stay_with_holder id start [claimed, posted]
  refine .cons nofun rfl (.cons ?_ rfl trivial)
  intro claim hclaim _ _
  obtain rfl := List.mem_singleton.mp hclaim
  rfl

/-- The skip of the second worker removes the claim of the first, nine seconds before it expires. -/
theorem stale_skip_removes_claim :
    ¬∀ calls : List (PartyCall Party), Along (Parties.step id)
      (fun w m => ∀ w', w.step id m = some w' → Exclusive w w' m) start calls := by
  intro h
  have hclaimed : start.step id claimed = some claimedWorld := rfl
  have hstale : claimedWorld.step id stale = some ⟨_, 2, _⟩ := rfl
  have hexclusive := ((h [claimed, stale]).2 _ hclaimed).1 _ hstale
  have hclaim : claimRow ∈ claimedWorld.store.claims.rows := List.mem_singleton.mpr rfl
  exact not_exclusive_of_record hstale rfl hclaim rfl (by decide) (by decide) hexclusive

end NeonDiff.Worker
