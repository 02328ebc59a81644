import NeonDiff.Worker.Phases
import NeonDiff.Worker.Posted

/-! # How many reviews one head gets

Any number of live reviews of one head run beside each other, and stop at each store call, each question and each
POST.
-/

namespace NeonDiff.Worker

open NeonDiff.Lib NeonDiff.Store
open NeonDiff.Retire (Unposted recordedRow_unposted)

/-! ## The world -/

/-- The store, who drew the id of each claim, and how many POSTs there were. -/
structure Shared (ι : Type) where
  store : State
  owner : String → Option ι
  posts : Nat

structure ReviewEnv where
  now : Int
  uuid : String
  answer : (question : Question) → Except String question.Value
  reviewUrl : String

def drawsId : StoreCall → Bool
  | .tryClaimReviewHeadWithOutcome _ => true
  | _ => false

section
variable {ι : Type} [DecidableEq ι] (redactSecrets : String → String) (head : HeadKey)

/-- A store call of run `i`; a claim attempt draws an id that is new. -/
def storeStep (i : ι) (call : StoreCall) (env : ReviewEnv) (x : Shared ι) :
    Option (Except String call.Value × Shared ι) :=
  if drawsId call && (x.owner env.uuid).isSome then none
  else match call.exec redactSecrets env.now env.uuid x.store with
    | .error e => some (.error e, x)
    | .ok (value, s) => some (.ok value, { x with
        store := s
        owner := if drawsId call then Function.update x.owner env.uuid (some i) else x.owner })

def reviewSemantics (ι : Type) [DecidableEq ι] : Semantics ReviewAct.Answer ι (Shared ι) ReviewEnv Empty where
  exec i act env x := match act with
    | .store call => storeStep redactSecrets i call env x
    | .ask question => some (env.answer question, x)
    | .createReview _ => some (env.reviewUrl, { x with posts := x.posts + 1 })
  ambient t _ := nomatch t

abbrev ReviewWorld (ι : Type) := World ReviewAct.Answer String Unit ι (Shared ι)

def reviewWorld {ι : Type} (s : State) (runs : ι → LiveReview) : ReviewWorld ι :=
  ⟨⟨s, fun _ => none, 0⟩, fun i => reviewPull redactSecrets (runs i) head⟩

def InTime (w : ReviewWorld ι) : Label ι ReviewEnv Empty → Prop
  | .act _ env => ∀ claim ∈ w.shared.store.claims.find? head, env.now < claim.expiresAt
  | .ambient _ => True

def nextClaims : ReviewProg → Bool
  | .call (.store (.tryClaimReviewHeadWithOutcome _)) _ => true
  | _ => false

def nextRecord : ReviewProg → Option ProcessedReviewRecord
  | .call (.store (.recordProcessed record)) _ => some record
  | _ => none

/-- The retry of a failed head comes to its claim before the row is posted. -/
def RetriesUnposted (runs : ι → LiveReview) (w : ReviewWorld ι) : Label ι ReviewEnv Empty → Prop
  | .act i _ => (runs i).policy = .retryFailedHead → nextClaims (w.progs i) = true → Unposted w.shared.store head
  | .ambient _ => True

/-- A run records under its own claim or under none, and no skip or failure over a posted row. -/
def RecordsAlone (w : ReviewWorld ι) : Label ι ReviewEnv Empty → Prop
  | .act i _ => ∀ record ∈ nextRecord (w.progs i),
    (∀ claim ∈ w.shared.store.claims.find? head, w.shared.owner claim.claimId = some i) ∧
      (record.status ≠ .posted → Unposted w.shared.store head)
  | .ambient _ => True

/-- What spares the code its defect: no retry of a failed head claims over a posted row, and no run records beside
the claim of another or over a posted row. -/
def Spared (runs : ι → LiveReview) (w : ReviewWorld ι) (l : Label ι ReviewEnv Empty) : Prop :=
  RetriesUnposted head runs w l ∧ RecordsAlone head w l

end

/-! ## The invariant -/

def Holds : Phase → String → Prop
  | .held id _, claimId => id = claimId
  | .posted id, claimId => id = claimId
  | _, _ => False

def Carries : Phase → String → Prop
  | .held id _, claimId => id = claimId
  | .posted id, claimId => id = claimId
  | .ended id, claimId => id = claimId
  | _, _ => False

theorem Holds.carries {phase : Phase} {claimId : String} (h : Holds phase claimId) : Carries phase claimId := by
  cases phase with
  | held => exact h
  | posted => exact h
  | _ => exact h.elim

section

variable {ι : Type} [DecidableEq ι] {redactSecrets : String → String} {head : HeadKey} {runs : ι → LiveReview}

def PostedRow (head : HeadKey) (s : State) : Prop := ∃ row, s.processed.find? head = some row ∧ row.status = .posted

theorem not_postedRow_of_unposted {s : State} (h : Unposted s head) : ¬PostedRow head s := by
  rintro ⟨row, hrow, hposted⟩
  exact h row hrow hposted

def ClaimStands (head : HeadKey) (s : State) (claimId : String) : Prop :=
  ∃ claim, s.claims.find? head = some claim ∧ claim.claimId = claimId

theorem ClaimStands.unique {s : State} {a b : String} (ha : ClaimStands head s a) (hb : ClaimStands head s b) : a = b := by
  obtain ⟨claim, hclaim, rfl⟩ := ha
  obtain ⟨other, hother, rfl⟩ := hb
  rw [Option.some.inj (hclaim.symm.trans hother)]

def Counted (head : HeadKey) (x : Shared ι) (φ : ι → Phase) : Prop :=
  x.posts = 0 ∨ x.posts = 1 ∧ ((∃ i id, φ i = .posted id) ∨ PostedRow head x.store)

/-- Each run is in its phase; a run that holds has its claim on the head, and the row under it is not posted. -/
structure InPhase (head : HeadKey) (runs : ι → LiveReview) (w : ReviewWorld ι) (φ : ι → Phase) : Prop where
  keeping : ∀ i, Keeping (runs i).policy head (φ i) (w.progs i)
  possible : ∀ i, φ i ≠ .impossible
  owned : ∀ i id, Carries (φ i) id → w.shared.owner id = some i
  stands : ∀ i id, Holds (φ i) id → ClaimStands head w.shared.store id
  unposted : ∀ i id, Holds (φ i) id → Unposted w.shared.store head
  unseen : ∀ i id sawPosted, φ i = .held id sawPosted → sawPosted = false
  counted : Counted head w.shared φ

variable {w : ReviewWorld ι} {φ : ι → Phase} {i : ι}

omit [DecidableEq ι] in
theorem InPhase.holder_unique (h : InPhase head runs w φ) {j : ι} {a b : String} (ha : Holds (φ i) a)
    (hb : Holds (φ j) b) : i = j := by
  have hab : a = b := (h.stands i a ha).unique (h.stands j b hb)
  subst hab
  have hi := h.owned i a ha.carries
  have hj := h.owned j a hb.carries
  exact Option.some.inj (hi.symm.trans hj)

theorem InPhase.move (h : InPhase head runs w φ) {x : Shared ι} {prog : ReviewProg} {next : Phase}
    (hkeep : Keeping (runs i).policy head next prog) (hpossible : next ≠ .impossible)
    (howner : ∀ id j, w.shared.owner id = some j → x.owner id = some j)
    (hown : ∀ id, Carries next id → x.owner id = some i)
    (hothers : ∀ j id, j ≠ i → Holds (φ j) id → ClaimStands head x.store id ∧ Unposted x.store head)
    (hself : ∀ id, Holds next id → ClaimStands head x.store id ∧ Unposted x.store head)
    (hunseen : ∀ id sawPosted, next = .held id sawPosted → sawPosted = false)
    (hcounted : Counted head x (Function.update φ i next)) :
    InPhase head runs ⟨x, Function.update w.progs i prog⟩ (Function.update φ i next) := by
  have hfor (P : ι → Phase → Prop) (hi : P i next) (hrest : ∀ j, j ≠ i → P j (φ j)) (j : ι) :
      P j (Function.update φ i next j) := by
    by_cases hj : j = i
    · subst hj
      rw [Function.update_self]
      exact hi
    · rw [Function.update_of_ne hj]
      exact hrest j hj
  constructor
  case keeping =>
    intro j
    show Keeping (runs j).policy head (Function.update φ i next j) (Function.update w.progs i prog j)
    by_cases hj : j = i
    · subst hj
      rw [Function.update_self, Function.update_self]
      exact hkeep
    · rw [Function.update_of_ne hj, Function.update_of_ne hj]
      exact h.keeping j
  case possible => exact hfor (fun _ phase => phase ≠ .impossible) hpossible fun j _ => h.possible j
  case owned =>
    exact hfor (fun j phase => ∀ id, Carries phase id → x.owner id = some j) hown
      fun j _ id hid => howner id j (h.owned j id hid)
  case stands =>
    exact hfor (fun _ phase => ∀ id, Holds phase id → ClaimStands head x.store id) (fun id hid => (hself id hid).1)
      fun j hj id hid => (hothers j id hj hid).1
  case unposted =>
    exact hfor (fun _ phase => ∀ id, Holds phase id → Unposted x.store head) (fun id hid => (hself id hid).2)
      fun j hj id hid => (hothers j id hj hid).2
  case unseen =>
    exact hfor (fun _ phase => ∀ id sawPosted, phase = .held id sawPosted → sawPosted = false) hunseen
      fun j _ => h.unseen j
  case counted => exact hcounted

theorem InPhase.quiet (h : InPhase head runs w φ) {x : Shared ι} {prog : ReviewProg}
    (hkeep : Keeping (runs i).policy head (φ i) prog) (hposts : x.posts = w.shared.posts)
    (howner : ∀ id j, w.shared.owner id = some j → x.owner id = some j)
    (hclaims : ∀ j id, Holds (φ j) id → ClaimStands head x.store id)
    (hunposted : Unposted w.shared.store head → Unposted x.store head)
    (hposted : PostedRow head w.shared.store → PostedRow head x.store) :
    InPhase head runs ⟨x, Function.update w.progs i prog⟩ φ := by
  rw [← Function.update_eq_self i φ]
  apply h.move hkeep (h.possible i) howner
  · exact fun id hid => howner id i (h.owned i id hid)
  · exact fun j id _ hid => ⟨hclaims j id hid, hunposted (h.unposted j id hid)⟩
  · exact fun id hid => ⟨hclaims i id hid, hunposted (h.unposted i id hid)⟩
  · exact h.unseen i
  · rw [Function.update_eq_self]
    unfold Counted
    rw [hposts]
    obtain hzero | ⟨hone, hsome | hrow⟩ := h.counted
    · exact Or.inl hzero
    · exact Or.inr ⟨hone, Or.inl hsome⟩
    · exact Or.inr ⟨hone, Or.inr (hposted hrow)⟩

/-! ## What the store calls do to the head -/

section Calls

variable {now : Int} {uuid : String} {s s' : State}

theorem PostedRow.after {call : StoreCall} {v : call.Value} (h : PostedRow head s)
    (hexec : call.exec redactSecrets now uuid s = .ok (v, s')) (hnot : ¬Records head call) : PostedRow head s' := by
  obtain ⟨row, hrow, hposted⟩ := h
  exact ⟨row, posted_row_kept hexec hnot hrow hposted, hposted⟩

theorem postedRow_of_posting {record : ProcessedReviewRecord} (h : Posting head record) :
    PostedRow head (recordProcessed record now s) := by
  obtain ⟨rfl, hposted⟩ := h
  refine ⟨recordedRow record now (s.processed.find? record.head), ?_, ?_⟩
  · unfold recordProcessed
    rw [find?_upsert_recordedRow, if_pos rfl]
  · cases s.processed.find? record.head with
    | none => exact hposted
    | some row =>
      show (upsertedRow record now row).status = .posted
      unfold upsertedRow
      split
      · rename_i hkept
        exact hkept.2
      · exact hposted

theorem ClaimStands.congr {id : String} (h : ClaimStands head s id)
    (heq : s'.claims.find? head = s.claims.find? head) : ClaimStands head s' id := by
  obtain ⟨claim, hclaim, hid⟩ := h
  exact ⟨claim, heq.trans hclaim, hid⟩

theorem ClaimStands.release {id other : String} (h : ClaimStands head s id) (hne : id ≠ other) :
    ClaimStands head (releaseReviewHeadClaim other s) id := by
  obtain ⟨claim, hclaim, rfl⟩ := h
  refine ⟨claim, ?_, rfl⟩
  unfold releaseReviewHeadClaim
  rw [Table.find?_delete, hclaim]
  simp [Option.filter, hne]

end Calls

/-! ## The calls of a run -/

section Steps

variable {env : ReviewEnv} {x' : Shared ι}

omit [DecidableEq ι] in
theorem InPhase.afterRead_eq (h : InPhase head runs w φ) (i : ι) :
    afterRead (getProcessedReview w.shared.store head) (φ i) = φ i := by
  cases hphase : φ i with
  | held id sawPosted =>
    have hfree := h.unposted i id (by rw [hphase]; exact rfl)
    have hsaw := h.unseen i id sawPosted hphase
    subst hsaw
    have hread : isPosted (getProcessedReview w.shared.store head) = false := by
      unfold getProcessedReview isPosted
      cases hrow : w.shared.store.processed.find? head with
      | none => rfl
      | some row =>
        have hstatus := hfree row hrow
        simpa [mapProcessedReviewRow] using hstatus
    show Phase.held id _ = _
    rw [hread]
  | _ => rfl

omit [DecidableEq ι] in
theorem storeStep_cases {call : StoreCall} {answer : Except String call.Value}
    (h : storeStep redactSecrets i call env w.shared = some (answer, x')) :
    (∃ e, call.exec redactSecrets env.now env.uuid w.shared.store = .error e ∧ answer = .error e ∧ x' = w.shared) ∨
    ∃ value s, call.exec redactSecrets env.now env.uuid w.shared.store = .ok (value, s) ∧ answer = .ok value ∧
      (drawsId call = true → w.shared.owner env.uuid = none) ∧
      x' = { w.shared with
        store := s
        owner := if drawsId call then Function.update w.shared.owner env.uuid (some i) else w.shared.owner } := by
  unfold storeStep at h
  split at h
  · cases h
  rename_i hfresh
  cases hexec : call.exec redactSecrets env.now env.uuid w.shared.store with
  | error e =>
    rw [hexec] at h
    obtain ⟨rfl, rfl⟩ := Prod.mk.inj (Option.some.inj h)
    exact Or.inl ⟨e, rfl, rfl, rfl⟩
  | ok result =>
    rw [hexec] at h
    obtain ⟨rfl, rfl⟩ := Prod.mk.inj (Option.some.inj h)
    refine Or.inr ⟨result.1, result.2, rfl, rfl, ?_, rfl⟩
    intro hdraws
    rw [hdraws, Bool.true_and] at hfresh
    simpa using hfresh

theorem next_plain {policy : LivePolicy} {phase : Phase} {call : StoreCall} {answer : Except String call.Value}
    (hplain : isPlain call = true) :
    (reviewDiscipline policy head).next phase (.store call) answer = phase := by
  cases call with
  | hasProcessed _ => cases phase <;> rfl
  | clearAuthorGateSkip _ _ => cases phase <;> rfl
  | _ => cases hplain

theorem next_get {policy : LivePolicy} {phase : Phase} {head' : HeadKey}
    {existing : Option StoredProcessedReviewRecord} :
    (reviewDiscipline policy head).next phase (.store (.getProcessedReview head')) (.ok existing) =
      afterRead existing phase := by
  cases phase <;> rfl

theorem next_record {policy : LivePolicy} {phase : Phase} {record : ProcessedReviewRecord} {u : Unit} :
    (reviewDiscipline policy head).next phase (.store (.recordProcessed record)) (.ok u) = afterRecord phase := by
  cases phase <;> rfl

theorem next_release {policy : LivePolicy} {phase : Phase} {claimId : String} {u : Unit} :
    (reviewDiscipline policy head).next phase (.store (.releaseReviewHeadClaim claimId)) (.ok u) =
      afterRelease phase := by
  cases phase <;> rfl

theorem allowed_get {policy : LivePolicy} {phase : Phase} {head' : HeadKey} (hpossible : phase ≠ .impossible)
    (h : (reviewDiscipline policy head).allows phase (.store (.getProcessedReview head'))) : head' = head := by
  cases phase with
  | impossible => exact absurd rfl hpossible
  | _ => exact h

theorem allowed_write {policy : LivePolicy} {phase : Phase} {call : StoreCall} (hpossible : phase ≠ .impossible)
    (hget : ∀ head', call ≠ .getProcessedReview head')
    (h : (reviewDiscipline policy head).allows phase (.store call)) :
    isPlain call = true ∨ allowedWrite policy head phase call := by
  cases phase with
  | impossible => exact absurd rfl hpossible
  | _ =>
    cases call with
    | getProcessedReview head' => exact absurd rfl (hget head')
    | _ => exact h

variable {k : ReviewProg} {s : State}

theorem step_quiet (h : InPhase head runs w φ) {call : StoreCall} {v : call.Value} {owner : String → Option ι}
    (hexec : call.exec redactSecrets env.now env.uuid w.shared.store = .ok (v, s))
    (hclaims : s.claims.find? head = w.shared.store.claims.find? head) (hnot : ¬Records head call)
    (howner : ∀ id j, w.shared.owner id = some j → owner id = some j)
    (hkeep : Keeping (runs i).policy head (φ i) k) :
    InPhase head runs ⟨⟨s, owner, w.shared.posts⟩, Function.update w.progs i k⟩ φ := by
  refine h.quiet hkeep ?_ howner ?_ ?_ ?_
  · rfl
  · intro j id hid
    exact (h.stands j id hid).congr hclaims
  · intro hunposted
    exact hunposted.after_ok (fun hposts => hnot (posts_records hposts)) hexec
  · intro hposted
    exact hposted.after hexec hnot

theorem step_claim (h : InPhase head runs w φ) {input : ReviewHeadClaimInput} {attempt : ReviewHeadClaimAttempt}
    (hfree : φ i = .free) (hhead : input.head = head) (hsupersedes : SupersedesUnposted (runs i).policy input)
    (hexec : tryClaimReviewHeadWithOutcome input env.uuid env.now w.shared.store = .ok (attempt, s))
    (hfresh : w.shared.owner env.uuid = none)
    (hintime : ∀ claim ∈ w.shared.store.claims.find? head, env.now < claim.expiresAt)
    (hretry : (runs i).policy = .retryFailedHead → Unposted w.shared.store head)
    (hkeep : Keeping (runs i).policy head (afterClaim (.ok attempt)) k) :
    ∃ φ', InPhase head runs
      ⟨⟨s, Function.update w.shared.owner env.uuid (some i), w.shared.posts⟩, Function.update w.progs i k⟩ φ' := by
  subst hhead
  have howner (id : String) (j : ι) (hid : w.shared.owner id = some j) :
      Function.update w.shared.owner env.uuid (some i) id = some j := by
    rw [Function.update_of_ne]
    · exact hid
    · rintro rfl
      rw [hfresh] at hid
      cases hid
  have hlive : liveClaim w.shared.store input.head env.now = w.shared.store.claims.find? input.head := by
    unfold liveClaim
    cases hclaim : w.shared.store.claims.find? input.head with
    | none => rfl
    | some claim => simp [Option.filter, hintime claim hclaim]
  have hsweep : (sweepExpiredClaim input.head env.now w.shared.store).claims.find? input.head =
      w.shared.store.claims.find? input.head := by
    rw [sweepExpiredClaim_claims, if_pos rfl, hlive]
  have hrefused (hs : s = sweepExpiredClaim input.head env.now w.shared.store)
      (hkeep : Keeping (runs i).policy input.head .free k) : InPhase input.head runs
        ⟨⟨s, Function.update w.shared.owner env.uuid (some i), w.shared.posts⟩, Function.update w.progs i k⟩ φ := by
    subst hs
    rw [← hfree] at hkeep
    refine h.quiet hkeep ?_ howner ?_ ?_ ?_
    · rfl
    · intro j id hid
      exact (h.stands j id hid).congr hsweep
    · exact id
    · exact id
  cases tryClaim_step hexec with
  | activeClaim c held => exact ⟨φ, hrefused rfl hkeep⟩
  | processed row free found refused => exact ⟨φ, hrefused rfl hkeep⟩
  | acquired s ttl free allowed claims rows =>
    have hnobody (j : ι) (id : String) (hid : Holds (φ j) id) : False := by
      obtain ⟨claim, hclaim, -⟩ := h.stands j id hid
      rw [← hlive, free] at hclaim
      cases hclaim
    have hbefore : Unposted w.shared.store input.head := by
      intro row hrow hposted
      have hallowed := allowed row hrow
      obtain hnone | ⟨status, hstatus, hne⟩ | hpolicy := hsupersedes
      · unfold supersessionAllowed at hallowed
        rw [hnone] at hallowed
        cases hallowed
      · unfold supersessionAllowed at hallowed
        rw [hstatus] at hallowed
        simp only [Bool.and_eq_true, Option.all_some, decide_eq_true_eq] at hallowed
        exact hne (hallowed.1.1.2.symm.trans hposted)
      · exact hretry hpolicy row hrow hposted
    have hafter : Unposted s input.head := by
      cases rows with
      | kept hkeeps same =>
        intro row hrow
        rw [same] at hrow
        exact hbefore row hrow
      | consumed row hconsumes found ok rows =>
        intro row' hrow'
        rw [rows, if_pos rfl] at hrow'
        obtain rfl := Option.some.inj hrow'
        exact nofun
    have hstands : ClaimStands input.head s env.uuid := ⟨_, (claims input.head).trans (if_pos rfl), rfl⟩
    refine ⟨Function.update φ i (.held env.uuid false), ?_⟩
    apply h.move hkeep nofun howner
    · rintro id rfl
      exact Function.update_self ..
    · intro j id _ hid
      exact (hnobody j id hid).elim
    · rintro id rfl
      exact ⟨hstands, hafter⟩
    · intro id sawPosted heq
      cases heq
      rfl
    · obtain hzero | ⟨-, ⟨j, id, hj⟩ | hrow⟩ := h.counted
      · exact Or.inl hzero
      · exact (hnobody j id (by rw [hj]; exact rfl)).elim
      · exact (not_postedRow_of_unposted hbefore hrow).elim

theorem step_record (h : InPhase head runs w φ) {record : ProcessedReviewRecord}
    (hallowed : allowedWrite (runs i).policy head (φ i) (.recordProcessed record))
    (halone : ∀ claim, w.shared.store.claims.find? head = some claim → w.shared.owner claim.claimId = some i)
    (hover : record.status ≠ .posted → Unposted w.shared.store head)
    (hkeep : Keeping (runs i).policy head (afterRecord (φ i)) k) :
    InPhase head runs
      ⟨⟨recordProcessed record env.now w.shared.store, w.shared.owner, w.shared.posts⟩, Function.update w.progs i k⟩
      (Function.update φ i (afterRecord (φ i))) := by
  have hnobody (j : ι) (id : String) (hj : j ≠ i) (hid : Holds (φ j) id) : False := by
    obtain ⟨claim, hclaim, rfl⟩ := h.stands j id hid
    have hmine := halone claim hclaim
    rw [h.owned j _ hid.carries] at hmine
    exact hj (Option.some.inj hmine)
  have hend (id : String) : ¬Holds (afterRecord (φ i)) id := by
    cases φ i <;> exact fun hid => hid
  apply h.move hkeep
  · cases hphase : φ i with
    | impossible => exact absurd hphase (h.possible i)
    | _ => exact nofun
  · exact fun id j hid => hid
  · intro id hid
    apply h.owned i id
    cases hphase : φ i with
    | free =>
      rw [hphase] at hid
      exact hid.elim
    | impossible => exact absurd hphase (h.possible i)
    | _ =>
      rw [hphase] at hid
      exact hid
  · intro j id hj hid
    exact (hnobody j id hj hid).elim
  · intro id hid
    exact (hend id hid).elim
  · intro id sawPosted heq
    exact (hend id (by rw [heq]; exact rfl)).elim
  · have hposting (hrecord : Posting head record) :
        Counted head ⟨recordProcessed record env.now w.shared.store, w.shared.owner, w.shared.posts⟩
          (Function.update φ i (afterRecord (φ i))) := by
      obtain hzero | ⟨hone, -⟩ := h.counted
      · exact Or.inl hzero
      · exact Or.inr ⟨hone, Or.inr (postedRow_of_posting hrecord)⟩
    have hunposting (hrecord : Unposting head record) (hi : ∀ id, φ i ≠ .posted id) :
        Counted head ⟨recordProcessed record env.now w.shared.store, w.shared.owner, w.shared.posts⟩
          (Function.update φ i (afterRecord (φ i))) := by
      obtain hzero | ⟨-, ⟨j, id, hj⟩ | hrow⟩ := h.counted
      · exact Or.inl hzero
      · have hne : j ≠ i := by
          rintro rfl
          exact hi id hj
        exact (hnobody j id hne (by rw [hj]; exact rfl)).elim
      · exact (not_postedRow_of_unposted (hover hrecord.2) hrow).elim
    cases hphase : φ i with
    | free =>
      rw [hphase] at hallowed hunposting
      exact hunposting hallowed nofun
    | held id sawPosted =>
      rw [hphase] at hallowed hunposting
      exact hunposting hallowed nofun
    | posted id =>
      rw [hphase] at hallowed hposting
      exact hposting hallowed
    | ended id =>
      rw [hphase] at hallowed hposting
      exact hposting hallowed
    | impossible => exact absurd hphase (h.possible i)

theorem step_release (h : InPhase head runs w φ) {claimId : String}
    (hallowed : allowedWrite (runs i).policy head (φ i) (.releaseReviewHeadClaim claimId))
    (hkeep : Keeping (runs i).policy head (afterRelease (φ i)) k) :
    InPhase head runs
      ⟨⟨releaseReviewHeadClaim claimId w.shared.store, w.shared.owner, w.shared.posts⟩, Function.update w.progs i k⟩
      (Function.update φ i (afterRelease (φ i))) := by
  have hcarries : Carries (φ i) claimId := by
    cases hphase : φ i with
    | held id sawPosted =>
      rw [hphase] at hallowed
      exact hallowed.symm
    | ended id =>
      rw [hphase] at hallowed
      exact hallowed.symm
    | impossible => exact absurd hphase (h.possible i)
    | _ =>
      rw [hphase] at hallowed
      exact hallowed.elim
  have hmine := h.owned i claimId hcarries
  have hnotPosted (id : String) : φ i ≠ .posted id := by
    intro hphase
    rw [hphase] at hallowed
    exact hallowed
  have hend (id : String) : ¬Holds (afterRelease (φ i)) id := by
    cases hphase : φ i with
    | posted id' => exact absurd hphase (hnotPosted id')
    | _ => exact fun hid => hid
  apply h.move hkeep
  · cases hphase : φ i with
    | impossible => exact absurd hphase (h.possible i)
    | _ => exact nofun
  · exact fun id j hid => hid
  · intro id hid
    apply h.owned i id
    cases hphase : φ i with
    | ended id' =>
      rw [hphase] at hid
      exact hid
    | posted id' => exact absurd hphase (hnotPosted id')
    | _ =>
      rw [hphase] at hid
      exact hid.elim
  · intro j id hj hid
    refine ⟨(h.stands j id hid).release ?_, h.unposted j id hid⟩
    rintro rfl
    rw [h.owned j _ hid.carries] at hmine
    exact hj (Option.some.inj hmine)
  · intro id hid
    exact (hend id hid).elim
  · intro id sawPosted heq
    exact (hend id (by rw [heq]; exact rfl)).elim
  · obtain hzero | ⟨hone, ⟨j, id, hj⟩ | hrow⟩ := h.counted
    · exact Or.inl hzero
    · refine Or.inr ⟨hone, Or.inl ⟨j, id, ?_⟩⟩
      rw [Function.update_of_ne]
      · exact hj
      · rintro rfl
        exact hnotPosted id hj
    · exact Or.inr ⟨hone, Or.inr hrow⟩

theorem step_post (h : InPhase head runs w φ) {id : String} {sawPosted : Bool} (hheld : φ i = .held id sawPosted)
    (hkeep : Keeping (runs i).policy head (afterPost (φ i)) k) :
    InPhase head runs ⟨⟨w.shared.store, w.shared.owner, w.shared.posts + 1⟩, Function.update w.progs i k⟩
      (Function.update φ i (.posted id)) := by
  have hsaw := h.unseen i id sawPosted hheld
  subst hsaw
  rw [hheld] at hkeep
  have hholds : Holds (φ i) id := by
    rw [hheld]
    exact rfl
  apply h.move hkeep nofun
  · exact fun id j hid => hid
  · rintro _ rfl
    exact h.owned i id hholds.carries
  · intro j id' _ hid
    exact ⟨h.stands j id' hid, h.unposted j id' hid⟩
  · rintro _ rfl
    exact ⟨h.stands i id hholds, h.unposted i id hholds⟩
  · exact nofun
  · refine Or.inr ⟨?_, Or.inl ⟨i, id, Function.update_self ..⟩⟩
    obtain hzero | ⟨-, ⟨j, id', hj⟩ | hrow⟩ := h.counted
    · dsimp only
      omega
    · have hji := h.holder_unique (show Holds (φ j) id' by rw [hj]; exact rfl) hholds
      rw [hji, hheld] at hj
      cases hj
    · exact (not_postedRow_of_unposted (h.unposted i id hholds) hrow).elim

/-! ## Steps and runs -/

omit [DecidableEq ι] in
theorem free_of_claim {policy : LivePolicy} {phase : Phase} {input : ReviewHeadClaimInput} (hpossible : phase ≠ .impossible)
    (h : allowedWrite policy head phase (.tryClaimReviewHeadWithOutcome input)) :
    phase = .free ∧ input.head = head ∧ SupersedesUnposted policy input := by
  cases phase with
  | free => exact ⟨rfl, h⟩
  | impossible => exact absurd rfl hpossible
  | _ => exact h.elim

theorem step_store (h : InPhase head runs w φ) {call : StoreCall} {answer : Except String call.Value}
    {k : Except String call.Value → ReviewProg} (hprog : w.progs i = .call (.store call) k)
    (hintime : InTime head w (.act i env)) (hretry : RetriesUnposted head runs w (.act i env))
    (halone : RecordsAlone head w (.act i env))
    (hexec : storeStep redactSecrets i call env w.shared = some (answer, x')) :
    ∃ φ', InPhase head runs ⟨x', Function.update w.progs i (k answer)⟩ φ' := by
  have hkeeping := h.keeping i
  rw [hprog] at hkeeping
  obtain ⟨hallowed, hrest⟩ := hkeeping
  have hkeep := hrest answer
  have hpossible := h.possible i
  by_cases hget : ∃ head', call = .getProcessedReview head'
  · obtain ⟨head', rfl⟩ := hget
    obtain rfl := allowed_get hpossible hallowed
    obtain ⟨e, hcall, -⟩ | ⟨value, s, hcall, rfl, -, rfl⟩ := storeStep_cases hexec
    · cases hcall
    · have hvalue := (Prod.mk.inj (Except.ok.inj hcall)).1
      rw [next_get, ← hvalue, h.afterRead_eq] at hkeep
      rw [hvalue] at hkeep
      have hs := (Prod.mk.inj (Except.ok.inj hcall)).2
      exact ⟨φ, step_quiet h hcall (by rw [hs]) id (fun _ _ hid => hid) hkeep⟩
  have hwrite := allowed_write hpossible (fun head' hcall => hget ⟨head', hcall⟩) hallowed
  cases call with
  | hasProcessed head' =>
    rw [next_plain rfl] at hkeep
    obtain ⟨e, hcall, -⟩ | ⟨value, s, hcall, rfl, -, rfl⟩ := storeStep_cases hexec
    · cases hcall
    · have hs := (Prod.mk.inj (Except.ok.inj hcall)).2
      exact ⟨φ, step_quiet h hcall (by rw [hs]) id (fun _ _ hid => hid) hkeep⟩
  | clearAuthorGateSkip head' reason =>
    rw [next_plain rfl] at hkeep
    obtain ⟨e, hcall, -⟩ | ⟨value, s, hcall, rfl, -, rfl⟩ := storeStep_cases hexec
    · cases hcall
    · obtain ⟨-, rfl⟩ := Prod.mk.inj (Except.ok.inj hcall)
      exact ⟨φ, step_quiet h hcall rfl id (fun _ _ hid => hid) hkeep⟩
  | recordBaseMergeOnlySkip record =>
    have hnext : (reviewDiscipline (runs i).policy head).next (φ i) (.store (.recordBaseMergeOnlySkip record)) answer =
        φ i := by
      cases φ i <;> rfl
    rw [hnext] at hkeep
    obtain ⟨e, hcall, -⟩ | ⟨value, s, hcall, rfl, -, rfl⟩ := storeStep_cases hexec
    · cases hcall
    · have hs : (recordBaseMergeOnlySkip record env.now w.shared.store).2 = s := (Prod.mk.inj (Except.ok.inj hcall)).2
      have hclaims := (recordBaseMergeOnlySkip_frame record env.now w.shared.store).1
      rw [hs] at hclaims
      exact ⟨φ, step_quiet h hcall (by rw [hclaims]) id (fun _ _ hid => hid) hkeep⟩
  | tryClaimReviewHeadWithOutcome input =>
    obtain hplain | hclaim := hwrite
    · cases hplain
    obtain ⟨hfree, hhead, hsupersedes⟩ := free_of_claim hpossible hclaim
    rw [hfree] at hkeep
    obtain ⟨e, -, rfl, rfl⟩ | ⟨attempt, s, hcall, rfl, hfresh, rfl⟩ := storeStep_cases hexec
    · refine ⟨φ, h.quiet ?_ rfl (fun _ _ hid => hid) h.stands id id⟩
      rw [hfree]
      exact hkeep
    · exact step_claim h hfree hhead hsupersedes hcall (hfresh rfl) hintime
        (fun hpolicy => hretry hpolicy (by rw [hprog]; rfl)) hkeep
  | recordProcessed record =>
    obtain hplain | hrecord := hwrite
    · cases hplain
    obtain ⟨hclaims, hover⟩ := halone record (by rw [hprog]; exact rfl)
    obtain ⟨e, hcall, -⟩ | ⟨value, s, hcall, rfl, -, rfl⟩ := storeStep_cases hexec
    · cases hcall
    · rw [next_record] at hkeep
      obtain ⟨-, rfl⟩ := Prod.mk.inj (Except.ok.inj hcall)
      exact ⟨_, step_record h hrecord hclaims hover hkeep⟩
  | releaseReviewHeadClaim claimId =>
    obtain hplain | hrelease := hwrite
    · cases hplain
    obtain ⟨e, hcall, -⟩ | ⟨value, s, hcall, rfl, -, rfl⟩ := storeStep_cases hexec
    · cases hcall
    · rw [next_release] at hkeep
      obtain ⟨-, rfl⟩ := Prod.mk.inj (Except.ok.inj hcall)
      exact ⟨_, step_release h hrelease hkeep⟩
  | getProcessedReview head' => exact absurd ⟨head', rfl⟩ hget
  | _ =>
    obtain hplain | hother := hwrite
    · cases hplain
    · cases hphase : φ i with
      | impossible => exact absurd hphase hpossible
      | _ =>
        rw [hphase] at hother
        exact hother.elim

theorem inPhase_act {w' : ReviewWorld ι} (h : InPhase head runs w φ) (hintime : InTime head w (.act i env))
    (hretry : RetriesUnposted head runs w (.act i env)) (halone : RecordsAlone head w (.act i env))
    (hstep : w.step (reviewSemantics redactSecrets ι) (.act i env) = some w') : ∃ φ', InPhase head runs w' φ' := by
  obtain ⟨act, k, answer, x', hprog, hexec, rfl⟩ := World.act_cases hstep
  cases act with
  | store call => exact step_store h hprog hintime hretry halone hexec
  | ask question =>
    have hkeeping := h.keeping i
    rw [hprog] at hkeeping
    have hkeep := hkeeping.2 answer
    have hnext : (reviewDiscipline (runs i).policy head).next (φ i) (.ask question) answer = φ i := by
      cases φ i <;> rfl
    rw [hnext] at hkeep
    obtain ⟨-, rfl⟩ := Prod.mk.inj (Option.some.inj hexec)
    exact ⟨φ, h.quiet hkeep rfl (fun _ _ hid => hid) h.stands id id⟩
  | createReview event =>
    have hkeeping := h.keeping i
    rw [hprog] at hkeeping
    obtain ⟨hallowed, hrest⟩ := hkeeping
    have hkeep := hrest answer
    obtain ⟨-, rfl⟩ := Prod.mk.inj (Option.some.inj hexec)
    cases hphase : φ i with
    | held id sawPosted =>
      rw [hphase] at hkeep
      exact ⟨_, step_post h hphase (by rw [hphase]; exact hkeep)⟩
    | impossible => exact absurd hphase (h.possible i)
    | _ =>
      rw [hphase] at hallowed
      exact hallowed.elim

omit [DecidableEq ι] in
theorem inPhase_start (redactSecrets : String → String) (head : HeadKey) (s : State) (runs : ι → LiveReview) :
    InPhase head runs (reviewWorld redactSecrets head s runs) (fun _ => .free) where
  keeping i := keeping_reviewPull redactSecrets (runs i) head
  possible _ := nofun
  owned _ _ hid := hid.elim
  stands _ _ hid := hid.elim
  unposted _ _ hid := hid.elim
  unseen _ _ _ heq := nomatch heq
  counted := Or.inl rfl

/-- Live reviews of one head that no command asked for POST at most once in all. -/
theorem at_most_one_review (redactSecrets : String → String) (head : HeadKey) (s : State) (runs : ι → LiveReview)
    (ls : List (Label ι ReviewEnv Empty)) (w : ReviewWorld ι)
    (h : Along (World.step (reviewSemantics redactSecrets ι)) (fun w l => InTime head w l ∧ Spared head runs w l)
      (reviewWorld redactSecrets head s runs) ls)
    (hrun : run (World.step (reviewSemantics redactSecrets ι)) (reviewWorld redactSecrets head s runs) ls = some w) :
    w.shared.posts ≤ 1 := by
  obtain ⟨φ, hphases⟩ : ∃ φ, InPhase head runs w φ := by
    refine Along.invariant (I := fun w => ∃ φ, InPhase head runs w φ) ?_ ⟨_, inPhase_start redactSecrets head s runs⟩ h hrun
    rintro w l w' ⟨φ, hphases⟩ ⟨hintime, hretry, halone⟩ hstep
    cases l with
    | act i env => exact inPhase_act hphases hintime hretry halone hstep
    | ambient t => exact nomatch t
  obtain hzero | ⟨hone, -⟩ := hphases.counted
  · omega
  · omega

end Steps

end

/-! ## Runs of two reviews -/

section
variable {ι : Type} [DecidableEq ι] {head : HeadKey} {runs : ι → LiveReview}

instance (s : State) (head : HeadKey) : Decidable (Unposted s head) :=
  inferInstanceAs (Decidable (∀ row ∈ s.processed.find? head, row.status ≠ .posted))

instance (w : ReviewWorld ι) : ∀ l, Decidable (InTime head w l)
  | .act _ env => inferInstanceAs (Decidable (∀ claim ∈ w.shared.store.claims.find? head, env.now < claim.expiresAt))
  | .ambient _ => isTrue trivial

instance (w : ReviewWorld ι) : ∀ l, Decidable (RetriesUnposted head runs w l)
  | .act i _ => inferInstanceAs (Decidable
    ((runs i).policy = .retryFailedHead → nextClaims (w.progs i) = true → Unposted w.shared.store head))
  | .ambient _ => isTrue trivial

instance (w : ReviewWorld ι) : ∀ l, Decidable (RecordsAlone head w l)
  | .act i _ => inferInstanceAs (Decidable (∀ record ∈ nextRecord (w.progs i),
      (∀ claim ∈ w.shared.store.claims.find? head, w.shared.owner claim.claimId = some i) ∧
        (record.status ≠ .posted → Unposted w.shared.store head)))
  | .ambient _ => isTrue trivial

instance (w : ReviewWorld ι) (l : Label ι ReviewEnv Empty) : Decidable (Spared head runs w l) :=
  inferInstanceAs (Decidable (RetriesUnposted head runs w l ∧ RecordsAlone head w l))

end

namespace ReviewExample

def head : HeadKey := ⟨"owner/repo", 7, "a"⟩

def failed : State := recordProcessed (failedRow head "timeout") 1 {}

def retries : Bool → LiveReview := fun _ => {
  policy := .retryFailedHead
  configRevision := none
  explicitPullReview := false
  allowActivationBaselineCommandLookup := false
  manualQueueJob := false
  claimTtlMs := 60000
  ownerPid := 1
  extraLooks := 0 }

/-- The author is not blocked, the pull stays open at the head, and the work comes to a plan. -/
def answer : (question : Question) → Except String question.Value
  | .authorGate => .ok ⟨false, false, false⟩
  | .preActivation => .ok false
  | .activeCooldown => .ok none
  | .live => .ok ⟨none, none⟩
  | .preparation => .ok none
  | .carry => .ok none
  | .work => .ok (.planned ⟨.comment, none, none, none⟩)

def act (i : Bool) : Label Bool ReviewEnv Empty :=
  .act i { now := 10, uuid := if i then "t" else "f", answer := answer, reviewUrl := "u" }

/-- The ten calls before the claim. -/
def toClaim (i : Bool) : List (Label Bool ReviewEnv Empty) := List.replicate 10 (act i)

def claimed (i : Bool) : List (Label Bool ReviewEnv Empty) := List.replicate 6 (act i)

/-- The second retry begins after the first has posted. -/
def inTurn : List (Label Bool ReviewEnv Empty) := toClaim true ++ claimed true ++ List.replicate 5 (act false)

/-- The second retry has read the failed row before the first posts. -/
def overtaken : List (Label Bool ReviewEnv Empty) := toClaim false ++ toClaim true ++ claimed true ++ claimed false

end ReviewExample

open ReviewExample

theorem at_most_one_review_inTurn :
    ∃ w, run (World.step (reviewSemantics id Bool)) (reviewWorld id head failed retries) inTurn = some w ∧
      w.shared.posts ≤ 1 := by
  have hruns : (run (World.step (reviewSemantics id Bool)) (reviewWorld id head failed retries) inTurn).isSome = true := by
    decide +kernel
  obtain ⟨w, hw⟩ := Option.isSome_iff_exists.mp hruns
  refine ⟨w, hw, at_most_one_review id head failed retries inTurn w ?_ hw⟩
  decide +kernel

theorem overtaken_posts :
    (run (World.step (reviewSemantics id Bool)) (reviewWorld id head failed retries) overtaken).map (·.shared.posts) =
      some 2 := by
  decide +kernel

/-- The second retry claims over the row of the review that was posted, and posts again. -/
theorem retry_posts_again :
    ¬∀ (ls : List (Label Bool ReviewEnv Empty)) (w : ReviewWorld Bool),
      Along (World.step (reviewSemantics id Bool)) (InTime head) (reviewWorld id head failed retries) ls →
      run (World.step (reviewSemantics id Bool)) (reviewWorld id head failed retries) ls = some w →
      w.shared.posts ≤ 1 := by
  intro h
  obtain ⟨w, hw, hposts⟩ := Option.map_eq_some_iff.mp overtaken_posts
  have hone := h overtaken w (by decide +kernel) hw
  omega

end NeonDiff.Worker
