import NeonDiff.Worker.Review

/-! # The phases of a live review

A review is free, holds its claim, has posted and not recorded, or has recorded. A phase says which calls may come.
-/

namespace NeonDiff.Worker

open NeonDiff.Lib NeonDiff.Store

/-- `sawPosted`: under the claim, the review has read the row as posted. No review is in the phase `impossible`:
it is behind a record that threw. -/
inductive Phase where
  | free
  | held (claimId : String) (sawPosted : Bool)
  | posted (claimId : String)
  | ended (claimId : String)
  | impossible
  deriving DecidableEq, Repr

/-- What a claim attempt may supersede: nothing, one kind of row that is not a posted one, or any row for the retry
of a failed head. -/
def SupersedesUnposted (policy : LivePolicy) (input : ReviewHeadClaimInput) : Prop :=
  input.allowProcessedOwnerSupersession = false ∨
    (∃ status, input.requiredProcessedStatusForSupersession = some status ∧ status ≠ .posted) ∨ policy = .retryFailedHead

section
variable (policy : LivePolicy) (head : HeadKey)

def Unposting (record : ProcessedReviewRecord) : Prop := record.head = head ∧ record.status ≠ .posted

def Posting (record : ProcessedReviewRecord) : Prop := record.head = head ∧ record.status = .posted

def allowedWrite : Phase → StoreCall → Prop
  | .free, .recordProcessed record => Unposting head record
  | .free, .recordBaseMergeOnlySkip _ => True
  | .free, .tryClaimReviewHeadWithOutcome input => input.head = head ∧ SupersedesUnposted policy input
  | .held .., .recordProcessed record => Unposting head record
  | .held id _, .releaseReviewHeadClaim claimId => claimId = id
  | .posted _, .recordProcessed record => Posting head record
  | .ended _, .recordProcessed record => Posting head record
  | .ended id, .releaseReviewHeadClaim claimId => claimId = id
  | .impossible, _ => True
  | _, _ => False

def isPlain : StoreCall → Bool
  | .hasProcessed _ | .clearAuthorGateSkip .. => true
  | _ => false

def afterClaim : Except String ReviewHeadClaimAttempt → Phase
  | .ok (.acquired claim) => .held claim.claimId false
  | _ => .free

def afterRead (existing : Option StoredProcessedReviewRecord) : Phase → Phase
  | .held id _ => .held id (isPosted existing)
  | phase => phase

def afterRecord : Phase → Phase
  | .held id _ | .posted id | .ended id => .ended id
  | .free => .free
  | .impossible => .impossible

def afterRelease : Phase → Phase
  | .held .. => .free
  | phase => phase

/-- A review that has read a posted row under its claim records nothing after its post. -/
def afterPost : Phase → Phase
  | .held id sawPosted => if sawPosted then .ended id else .posted id
  | phase => phase

def reviewDiscipline : Discipline ReviewAct.Answer Phase where
  allows
    | .impossible, _ => True
    | _, .ask _ => True
    | .held .., .createReview _ => True
    | _, .store (.getProcessedReview head') => head' = head
    | phase, .store call => isPlain call = true ∨ allowedWrite policy head phase call
    | _, _ => False
  next
    | .impossible, _, _ => .impossible
    | phase, .createReview _, _ => afterPost phase
    | phase, .store (.getProcessedReview _), .ok existing => afterRead existing phase
    | phase, .store (.recordProcessed _), .ok _ => afterRecord phase
    | _, .store (.recordProcessed _), .error _ => .impossible
    | phase, .store (.releaseReviewHeadClaim _), .ok _ => afterRelease phase
    | _, .store (.tryClaimReviewHeadWithOutcome _), answer => afterClaim answer
    | phase, _, _ => phase

/-- The program keeps to the discipline of the phases from `phase` on, and ends in a phase of `Q`. -/
abbrev Runs (Q : Phase → Prop) (phase : Phase) (prog : ReviewProg) : Prop :=
  Follows (reviewDiscipline policy head) phase (fun _ last => Q last) prog

/-- The store calls of the discipline, where one that throws leaves a phase of `Q`. -/
def writerPhases (Q : Phase → Prop) : Discipline StoreCall.Value Phase where
  allows phase call := (reviewDiscipline policy head).allows phase (.store call) ∧
    ∀ e, Q ((reviewDiscipline policy head).next phase (.store call) (.error e))
  next phase call value := (reviewDiscipline policy head).next phase (.store call) (.ok value)

abbrev Writes (Q : Phase → Prop) (phase : Phase) (writer : WriterProg) : Prop :=
  Follows (writerPhases policy head Q) phase (fun _ last => Q last) writer

end

def Releasable (claimId : String) : Phase → Prop
  | .held id _ | .ended id => id = claimId
  | .impossible => True
  | _ => False

/-- The review may write a skip here, and end with it. -/
structure Skips (Q : Phase → Prop) (phase : Phase) : Prop where
  unclaimed : phase = .free ∨ ∃ id sawPosted, phase = .held id sawPosted
  here : Q phase
  read : ∀ existing, Q (afterRead existing phase)
  recorded : Q (afterRecord phase)
  impossible : Q .impossible

section Follows

variable {policy : LivePolicy} {head : HeadKey} {phase : Phase} {Q : Phase → Prop}

theorem skips_free (hfree : Q .free) (himpossible : Q .impossible) : Skips Q .free where
  unclaimed := Or.inl rfl
  here := hfree
  read _ := hfree
  recorded := hfree
  impossible := himpossible

theorem skips_held (claimId : String) (sawPosted : Bool) : Skips (Releasable claimId) (.held claimId sawPosted) where
  unclaimed := Or.inr ⟨claimId, sawPosted, rfl⟩
  here := rfl
  read _ := rfl
  recorded := rfl
  impossible := trivial

theorem Skips.afterRead (h : Skips Q phase) (existing : Option StoredProcessedReviewRecord) :
    Skips Q (afterRead existing phase) := by
  obtain rfl | ⟨id, sawPosted, rfl⟩ := h.unclaimed
  · exact h
  · exact ⟨Or.inr ⟨id, isPosted existing, rfl⟩, h.read existing, h.read, h.recorded, h.impossible⟩

/-! ## Writers -/

theorem writes_record {record : ProcessedReviewRecord} (h : Skips Q phase) (hrecord : Unposting head record) :
    Writes policy head Q phase (.call (.recordProcessed record) .done) := by
  obtain rfl | ⟨id, sawPosted, rfl⟩ := h.unclaimed
  · exact ⟨⟨Or.inr hrecord, fun _ => h.impossible⟩, fun _ => h.recorded⟩
  · exact ⟨⟨Or.inr hrecord, fun _ => h.impossible⟩, fun _ => h.recorded⟩

theorem writes_recordSkip {error : String} (h : Skips Q phase) : Writes policy head Q phase (recordSkip head error) :=
  writes_record h ⟨rfl, nofun⟩

theorem writes_get {k : Option StoredProcessedReviewRecord → WriterProg} (h : Skips Q phase)
    (hk : ∀ existing, Writes policy head Q (afterRead existing phase) (k existing)) :
    Writes policy head Q phase (.call (.getProcessedReview head) k) := by
  obtain rfl | ⟨id, sawPosted, rfl⟩ := h.unclaimed
  · exact ⟨⟨rfl, fun _ => h.here⟩, hk⟩
  · exact ⟨⟨rfl, fun _ => h.here⟩, hk⟩

theorem writes_plain {call : StoreCall} {k : call.Value → WriterProg} (hplain : isPlain call = true)
    (h : Skips Q phase) (hk : ∀ value, Writes policy head Q phase (k value)) :
    Writes policy head Q phase (.call call k) := by
  cases call with
  | hasProcessed _ =>
    obtain rfl | ⟨id, sawPosted, rfl⟩ := h.unclaimed
    · exact ⟨⟨Or.inl rfl, fun _ => h.here⟩, hk⟩
    · exact ⟨⟨Or.inl rfl, fun _ => h.here⟩, hk⟩
  | clearAuthorGateSkip _ _ =>
    obtain rfl | ⟨id, sawPosted, rfl⟩ := h.unclaimed
    · exact ⟨⟨Or.inl rfl, fun _ => h.here⟩, hk⟩
    · exact ⟨⟨Or.inl rfl, fun _ => h.here⟩, hk⟩
  | _ => cases hplain

theorem writes_skipUnlessPosted {error : String} (h : Skips Q phase) :
    Writes policy head Q phase (skipUnlessPosted head error) := by
  apply writes_get h
  intro existing
  split
  · exact h.read existing
  · exact writes_recordSkip (h.afterRead existing)

theorem writes_skipUnlessDecided {error : String} (h : Skips Q phase) (existing : Option StoredProcessedReviewRecord) :
    Writes policy head Q phase (skipUnlessDecided head error existing) := by
  unfold skipUnlessDecided
  split
  · exact writes_recordSkip h
  · exact h.here

theorem writes_skipUnlessProcessed {error : String} (h : Skips Q phase) :
    Writes policy head Q phase (skipUnlessProcessed head error) := by
  apply writes_plain rfl h
  intro processed
  split
  · exact h.here
  · exact writes_recordSkip h

theorem writes_authorGate (h : Skips Q phase) : Writes policy head Q phase (recordPublicRepoAuthorGateSkip head) := by
  apply writes_get h
  intro existing
  have hread := h.afterRead existing
  split
  · apply writes_plain rfl hread
    intro cleared
    exact writes_skipUnlessDecided hread _
  · exact writes_skipUnlessDecided hread existing

theorem writes_failure {errorMessage : Option String → String} {preserve : Bool} (h : Skips Q phase) :
    Writes policy head Q phase (recordFailedReview errorMessage preserve head) := by
  apply writes_get h
  intro previous
  have hread := h.afterRead previous
  dsimp only
  split
  · exact writes_record hread ⟨rfl, nofun⟩
  split
  · exact hread.here
  · exact writes_record hread ⟨rfl, nofun⟩

theorem writes_exit (h : Skips Q phase) (exit : ReviewExit) : Writes policy head Q phase (exit.prog head) := by
  cases exit with
  | silent => exact h.here
  | restricted reason =>
    apply writes_get h
    intro existing
    exact writes_skipUnlessDecided (h.afterRead existing) existing
  | contextBudget reason => exact writes_record h ⟨rfl, nofun⟩
  | deferredFailure errorMessage => exact writes_failure h
  | staleHead stale => exact writes_skipUnlessPosted h

theorem writes_passAuthorGate (author : AuthorAnswer) :
    Writes policy head (fun last => last = .free ∨ last = .impossible) .free (passAuthorGate head author) := by
  have hfree : Skips (fun last => last = .free ∨ last = .impossible) .free := skips_free (Or.inl rfl) (Or.inr rfl)
  have hclear (reason : String) (when : Bool) (k : Bool → WriterProg)
      (hk : ∀ cleared, Writes policy head (fun last => last = .free ∨ last = .impossible) .free (k cleared)) :
      Writes policy head (fun last => last = .free ∨ last = .impossible) .free
        (if when then .call (.clearAuthorGateSkip head reason) k else k false) := by
    split
    · exact writes_plain rfl hfree hk
    · exact hk false
  apply writes_get hfree
  intro existing
  apply hclear
  intro cleared
  apply hclear
  intro _
  apply hclear
  intro _
  exact hfree.here

/-! ## The program -/

theorem runs_impossible (prog : ReviewProg) (h : Q .impossible) : Runs policy head Q .impossible prog := by
  induction prog with
  | done a => exact h
  | fail e => exact h
  | call act k ih => exact ⟨trivial, fun answer => ih answer⟩

theorem runs_ask {question : Question} {k : question.Value → ReviewProg} (hfail : Q phase)
    (h : ∀ value, Runs policy head Q phase (k value)) : Runs policy head Q phase (ask question k) := by
  have hnext (answer : Except String question.Value) :
      (reviewDiscipline policy head).next phase (.ask question) answer = phase := by
    cases phase <;> rfl
  refine ⟨by cases phase <;> trivial, ?_⟩
  intro answer
  rw [hnext]
  cases answer with
  | error e => exact hfail
  | ok value => exact h value

theorem runs_store {call : StoreCall} {k : call.Value → ReviewProg}
    (hallowed : (reviewDiscipline policy head).allows phase (.store call))
    (hfail : ∀ e, Q ((reviewDiscipline policy head).next phase (.store call) (.error e)))
    (h : ∀ value, Runs policy head Q ((reviewDiscipline policy head).next phase (.store call) (.ok value)) (k value)) :
    Runs policy head Q phase (store call k) := by
  refine ⟨hallowed, ?_⟩
  intro answer
  cases answer with
  | error e => exact hfail e
  | ok value => exact h value

theorem runs_calls {writer : WriterProg} {k : ReviewProg} {R : Phase → Prop} (h : Writes policy head R phase writer)
    (hR : ∀ last, R last → Q last) (hk : ∀ last, R last → Runs policy head Q last k) :
    Runs policy head Q phase (calls writer k) := by
  induction writer generalizing phase with
  | done => exact hk phase h
  | fail e => exact hR phase h
  | call call c ih =>
    unfold calls
    refine ⟨h.1.1, ?_⟩
    intro answer
    cases answer with
    | error e => exact hR _ (h.1.2 e)
    | ok value => exact ih value (h.2 value)

theorem runs_writes {writer : WriterProg} (h : Writes policy head Q phase writer) :
    Runs policy head Q phase (writes writer) :=
  runs_calls h (fun _ hlast => hlast) fun _ hlast => hlast

/-! ## Under the claim -/

theorem runs_lifecycle {k : ReviewProg} (h : Skips Q phase) (hk : Runs policy head Q phase k) :
    Runs policy head Q phase (recordPullLifecycleBeforePost head k) := by
  apply runs_ask h.here
  intro live
  split
  · exact runs_writes (writes_skipUnlessPosted h)
  · exact runs_writes (writes_skipUnlessPosted h)
  · exact hk

theorem runs_lifecycles {k : ReviewProg} (n : Nat) (h : Skips Q phase) (hk : Runs policy head Q phase k) :
    Runs policy head Q phase (lifecycles head n k) := by
  induction n with
  | zero => exact hk
  | succ n ih => exact runs_lifecycle h ih

theorem runs_markUncertain {id : String} (hended : Q (.ended id)) (himpossible : Q .impossible) (reason : String) :
    Runs policy head Q (.ended id) (markUncertain head reason) := by
  apply runs_store
  · exact rfl
  · intro e
    exact hended
  intro durablePosted
  split
  · exact hended
  · apply runs_store
    · exact Or.inr ⟨rfl, rfl⟩
    · intro e
      exact himpossible
    · intro _
      exact hended

theorem runs_lookAfterPost {id : String} (hended : Q (.ended id)) (himpossible : Q .impossible) (verified : Bool) :
    Runs policy head Q (.ended id) (lookAfterPost head verified) := by
  refine ⟨trivial, ?_⟩
  intro live
  dsimp only
  cases uncertaintyReason live with
  | none => exact hended
  | some reason =>
    dsimp only
    split
    · exact hended
    · exact runs_markUncertain hended himpossible reason

theorem isPosted_of_preserved {plan : ReviewPlan} {priorPosted : Option StoredProcessedReviewRecord}
    (h : preservedPriorBlockingRow plan priorPosted = true) : isPosted priorPosted = true := by
  unfold preservedPriorBlockingRow at h
  cases priorPosted with
  | none => cases h
  | some row =>
    simp only [Option.any_some, Bool.and_eq_true] at h
    exact h.1.1

theorem runs_recordPosted {id : String} (hphase : phase = .posted id ∨ phase = .ended id) (hended : Q (.ended id))
    (himpossible : Q .impossible) (plan : ReviewPlan) (reviewUrl : String) :
    Runs policy head Q phase (recordPosted head plan reviewUrl) := by
  have hrecord : Posting head (postedRecord head plan reviewUrl) := ⟨rfl, rfl⟩
  obtain rfl | rfl := hphase
  all_goals
    refine ⟨Or.inr hrecord, ?_⟩
    intro answer
    cases answer with
    | error e => exact himpossible
    | ok _ => exact runs_lookAfterPost hended himpossible false

theorem runs_postReview {id : String} {sawPosted : Bool} (hheld : ∀ saw, Q (.held id saw)) (hended : Q (.ended id))
    (himpossible : Q .impossible) (plan : ReviewPlan) :
    Runs policy head Q (.held id sawPosted) (postReview head plan) := by
  apply runs_store
  · exact rfl
  · intro e
    exact hheld sawPosted
  intro priorPosted
  refine ⟨trivial, ?_⟩
  intro reviewUrl
  show Runs policy head Q (if isPosted priorPosted then .ended id else .posted id)
    (if preservedPriorBlockingRow plan priorPosted then
      lookAfterPost head (priorPosted.all fun row => row.error.isNone)
    else recordPosted head plan reviewUrl)
  by_cases hpreserved : preservedPriorBlockingRow plan priorPosted = true
  · rw [if_pos (isPosted_of_preserved hpreserved), if_pos hpreserved]
    exact runs_lookAfterPost hended himpossible _
  · rw [if_neg hpreserved]
    refine runs_recordPosted ?_ hended himpossible plan reviewUrl
    split
    · exact Or.inr rfl
    · exact Or.inl rfl

/-! ## The claim -/

theorem supersedesUnposted (run : LiveReview) (baseMergeOnlySupersession : Bool) :
    SupersedesUnposted run.policy (claimInput run head baseMergeOnlySupersession) := by
  unfold SupersedesUnposted claimInput
  cases run.policy with
  | retryFailedHead => exact Or.inr (Or.inr rfl)
  | approvedDryRun => exact Or.inr (Or.inl ⟨.dryRun, rfl, nofun⟩)
  | normal =>
    cases baseMergeOnlySupersession with
    | false => exact Or.inl rfl
    | true => exact Or.inr (Or.inl ⟨.skipped, rfl, nofun⟩)

/-- The program keeps to the discipline, however it ends. -/
abbrev Keeping (policy : LivePolicy) (head : HeadKey) (phase : Phase) (prog : ReviewProg) : Prop :=
  Runs policy head (fun _ => True) phase prog

theorem keeping_release {id : String} (h : Releasable id phase) :
    Keeping policy head phase (store (.releaseReviewHeadClaim id) .done) := by
  cases phase with
  | free => exact h.elim
  | posted _ => exact h.elim
  | impossible => exact runs_impossible _ trivial
  | held id' sawPosted =>
    obtain rfl : id' = id := h
    exact runs_store (Or.inr rfl) (fun _ => trivial) fun _ => trivial
  | ended id' =>
    obtain rfl : id' = id := h
    exact runs_store (Or.inr rfl) (fun _ => trivial) fun _ => trivial

theorem keeping_claimAndPost (run : LiveReview) (processed : Option StoredProcessedReviewRecord) (plan : ReviewPlan) :
    Keeping run.policy head .free (claimAndPost run head processed plan) := by
  apply runs_store
  · exact rfl
  · intro _
    trivial
  intro processedBeforeClaim
  apply runs_store
  · exact Or.inr ⟨rfl, supersedesUnposted run _⟩
  · intro _
    trivial
  intro attempt
  cases attempt with
  | acquired claim =>
    show Keeping run.policy head (.held claim.claimId false) _
    apply follows_tryFinally.mpr
    have hpost := @runs_postReview run.policy head (Releasable claim.claimId) claim.claimId false
      (fun _ => rfl) rfl trivial plan
    refine (runs_lifecycles (run.extraLooks + 2) (skips_held claim.claimId false) hpost).mono ?_
    intro result last hlast
    have hrelease : Keeping run.policy head last _ := keeping_release hlast
    cases result with
    | ok _ =>
      refine hrelease.mono ?_
      intro released _ _
      cases released <;> trivial
    | error e =>
      refine hrelease.mono ?_
      intro released _ _
      cases released <;> trivial
  | activeClaim => trivial
  | processed => trivial

/-! ## Before the claim -/

theorem skips_true : Skips (fun _ => True) .free := skips_free trivial trivial

theorem keeping_workAndPost (run : LiveReview) (processed : Option StoredProcessedReviewRecord) :
    Keeping run.policy head .free (workAndPost run head processed) := by
  apply runs_ask trivial
  intro work
  cases work with
  | ended exit => exact runs_writes (writes_exit skips_true exit)
  | planned plan => exact keeping_claimAndPost run processed plan

theorem keeping_prepareReview (run : LiveReview) (processed : Option StoredProcessedReviewRecord) :
    Keeping run.policy head .free (prepareReview run head processed) := by
  apply runs_ask trivial
  intro preparation
  cases preparation with
  | some exit => exact runs_writes (writes_exit skips_true exit)
  | none =>
    apply runs_ask trivial
    intro carry
    cases carry with
    | none => exact keeping_workAndPost run processed
    | some record =>
      apply runs_store
      · exact Or.inr trivial
      · intro _
        trivial
      intro recorded
      cases recorded with
      | ok _ => trivial
      | error refusal =>
        cases refusal with
        | anchorChanged => exact keeping_workAndPost run processed
        | activeClaim => trivial
        | existingRow => trivial

theorem keeping_deferOrReview (redactSecrets : String → String) (run : LiveReview)
    (processed : Option StoredProcessedReviewRecord) :
    Keeping run.policy head .free (deferOrReview redactSecrets run head processed) := by
  apply runs_ask trivial
  intro activeCooldown
  split
  · apply runs_store
    · exact rfl
    · intro _
      trivial
    intro current
    split
    · apply runs_ask trivial
      intro live
      split
      · exact runs_writes (writes_skipUnlessPosted skips_true)
      · exact keeping_prepareReview run processed
    · trivial
  · cases activeCooldown with
    | some cooldown =>
      dsimp only
      split
      · exact runs_writes (writes_recordSkip skips_true)
      · trivial
    | none => exact keeping_prepareReview run processed

theorem keeping_enterLiveReview (redactSecrets : String → String) (run : LiveReview)
    (processed : Option StoredProcessedReviewRecord) :
    Keeping run.policy head .free (enterLiveReview redactSecrets run head processed) := by
  unfold enterLiveReview
  cases run.entry.step processed with
  | stop => trivial
  | unlessProcessed =>
    apply runs_store
    · exact Or.inl rfl
    · intro _
      trivial
    intro processedNow
    split
    · trivial
    · exact keeping_deferOrReview redactSecrets run processed
  | goOn => exact keeping_deferOrReview redactSecrets run processed

/-- Every live review keeps to the phases. -/
theorem keeping_reviewPull (redactSecrets : String → String) (run : LiveReview) (head : HeadKey) :
    Keeping run.policy head .free (reviewPull redactSecrets run head) := by
  apply runs_ask trivial
  intro author
  split
  · exact runs_writes (writes_authorGate skips_true)
  refine runs_calls (writes_passAuthorGate author) (fun _ _ => trivial) ?_
  rintro last (rfl | rfl)
  · apply runs_store
    · exact rfl
    · intro _
      trivial
    intro processed
    show Keeping run.policy head .free _
    split
    · apply runs_ask trivial
      intro isPreActivation
      split
      · exact runs_writes (writes_skipUnlessProcessed skips_true)
      · exact keeping_enterLiveReview redactSecrets run processed
    · exact keeping_enterLiveReview redactSecrets run processed
  · exact runs_impossible _ trivial

end Follows

end NeonDiff.Worker
