import NeonDiff.Retire.Safety
import NeonDiff.Store.Approval
import NeonDiff.Store.Carry
import NeonDiff.Worker.Writers

/-! # How long a posted row stands

Any number of writers run beside the other calls of the store. The records of posted reviews are among the other
calls: each follows a review that GitHub has taken.
-/

namespace NeonDiff.Worker

open NeonDiff.Lib NeonDiff.Store NeonDiff.Retire

/-! ## Calls that leave a posted row -/

def Records (head : HeadKey) : StoreCall → Prop
  | .recordProcessed record => record.head = head
  | .recordAuthorizedReviewPosted input => input.head = head
  | _ => False

section
variable {redactSecrets : String → String} {now : Int} {uuid : String} {s s' : State} {head : HeadKey}

theorem posted_row_kept {call : StoreCall} {v : call.Value} {row : StoredProcessedReviewRecord}
    (hexec : call.exec redactSecrets now uuid s = .ok (v, s')) (hnot : ¬Records head call)
    (hrow : s.processed.find? head = some row) (hposted : row.status = .posted) :
    s'.processed.find? head = some row := by
  have hchange := rowChange_of_ok hexec head
  obtain ⟨left, hleft⟩ : ∃ left, s'.processed.find? head = left := ⟨_, rfl⟩
  rw [hleft] at hchange ⊢
  cases hchange with
  | kept => exact hrow
  | recorded record hhead => exact absurd hhead hnot
  | carried record row' hhead admits status error =>
    exact absurd hposted (status_of_isRetryableRow (admits row hrow)).1
  | dryRun input row' hhead recorded free admits status revision =>
    have hadmits := admits row hrow
    unfold dryRunAdmits isRetryableApprovedDryRunPrePostFailure isActivationBaselineProcessedReview at hadmits
    rw [hposted] at hadmits
    simp at hadmits
  | cleared reason row' found status error =>
    obtain rfl := Option.some.inj (hrow.symm.trans found)
    rw [hposted] at status
    cases status
  | consumed input row' hhead found ok consumes =>
    obtain rfl := Option.some.inj (hrow.symm.trans found)
    have hconsuming : Consuming ⟨.tryClaimReviewHeadWithOutcome input, now, uuid⟩ head input := ⟨rfl, hhead, consumes⟩
    have hrequired := (hconsuming.required (validate_of_acquired hexec)).1
    unfold consumable at ok
    rw [hrequired, hposted] at ok
    simp at ok
  | authorized input hhead => exact absurd hhead hnot

end

/-! ## What the writers know -/

/-- The head that a writer has looked at last, where the row was not posted then. A writer that spares posted rows
writes no other. -/
def writerDiscipline (spares : Bool) : Discipline StoreCall.Value (Option HeadKey) where
  allows
    | _, .getProcessedReview _ => True
    | _, .hasProcessed _ => True
    | _, .clearAuthorGateSkip .. => True
    | seen, .recordProcessed record => record.status ≠ .posted ∧ (spares = true → seen = some record.head)
    | _, _ => False
  next
    | _, .getProcessedReview head, existing => if isPosted existing then none else some head
    | _, .hasProcessed head, processed => if processed then none else some head
    | seen, .clearAuthorGateSkip head _, cleared => if cleared || seen = some head then some head else none
    | _, _, _ => none

section Follows

variable {spares : Bool} {head : HeadKey} {seen : Option HeadKey} {error : String}

abbrev Keeps (spares : Bool) (seen : Option HeadKey) (prog : WriterProg) : Prop :=
  Follows (writerDiscipline spares) seen (fun _ _ => True) prog

theorem keeps_done : Keeps spares seen (.done ()) := trivial

theorem keeps_get {k : Option StoredProcessedReviewRecord → WriterProg}
    (hposted : ∀ existing, isPosted existing = true → Keeps spares none (k existing))
    (hfree : ∀ existing, isPosted existing = false → Keeps spares (some head) (k existing)) :
    Keeps spares seen (.call (.getProcessedReview head) k) := by
  refine ⟨trivial, ?_⟩
  intro existing
  show Follows _ (if isPosted existing then none else some head) _ _
  split
  · exact hposted existing ‹_›
  · exact hfree existing (by simpa using ‹¬isPosted existing = true›)

theorem keeps_hasProcessed {k : Bool → WriterProg} (hyes : k true = .done ())
    (hno : Keeps spares (some head) (k false)) : Keeps spares seen (.call (.hasProcessed head) k) := by
  refine ⟨trivial, ?_⟩
  intro processed
  cases processed with
  | true =>
    rw [hyes]
    trivial
  | false => exact hno

theorem keeps_record {record : ProcessedReviewRecord} (hstatus : record.status ≠ .posted)
    (hseen : spares = true → seen = some record.head) :
    Keeps spares seen (.call (.recordProcessed record) .done) :=
  ⟨⟨hstatus, hseen⟩, fun _ => trivial⟩

theorem keeps_recordSkip (hseen : spares = true → seen = some head) : Keeps spares seen (recordSkip head error) :=
  keeps_record nofun hseen

theorem keeps_skipUnlessPosted : Keeps spares seen (skipUnlessPosted head error) := by
  unfold skipUnlessPosted
  apply keeps_get
  · intro existing hposted
    rw [if_pos hposted]
    exact keeps_done
  · intro existing hfree
    rw [hfree, if_neg Bool.false_ne_true]
    exact keeps_recordSkip fun _ => rfl

theorem keeps_skipUnlessProcessed : Keeps spares seen (skipUnlessProcessed head error) := by
  unfold skipUnlessProcessed
  apply keeps_hasProcessed
  · rfl
  · exact keeps_recordSkip fun _ => rfl

theorem keeps_skipUnlessDecided {existing : Option StoredProcessedReviewRecord}
    (hseen : seen = some head ∨ isPosted existing = true) : Keeps spares seen (skipUnlessDecided head error existing) := by
  unfold skipUnlessDecided
  split
  · rename_i hfailed
    rcases hseen with hseen | hposted
    · exact keeps_recordSkip fun _ => hseen
    · cases existing with
      | none => cases hposted
      | some row =>
        simp only [Option.all_some, decide_eq_true_eq] at hfailed
        simp [isPosted, hfailed] at hposted
  · exact keeps_done

theorem keeps_authorGate : Keeps spares seen (recordPublicRepoAuthorGateSkip head) := by
  have hrest (existing : Option StoredProcessedReviewRecord) (seen : Option HeadKey)
      (hseen : seen = some head ∨ isPosted existing = true) :
      Keeps spares seen (if existing.any fun row => row.error = some "untrusted_author_provider_unavailable" then
        .call (.clearAuthorGateSkip head "untrusted_author_provider_unavailable") fun cleared =>
          skipUnlessDecided head "untrusted_author_public_repo" (if cleared then none else existing)
      else skipUnlessDecided head "untrusted_author_public_repo" existing) := by
    split
    · refine ⟨trivial, ?_⟩
      intro cleared
      cases cleared with
      | true => exact keeps_skipUnlessDecided (Or.inl rfl)
      | false =>
        refine keeps_skipUnlessDecided (hseen.imp_left fun hseen => ?_)
        subst hseen
        exact if_pos (by simp)
    · exact keeps_skipUnlessDecided hseen
  unfold recordPublicRepoAuthorGateSkip
  apply keeps_get
  · intro existing hposted
    exact hrest existing none (Or.inr hposted)
  · intro existing _
    exact hrest existing (some head) (Or.inl rfl)

theorem keeps_queueCapacity : Keeps spares seen (recordQueueCapacitySkip head) := by
  have hrest (existing : Option StoredProcessedReviewRecord) (seen : Option HeadKey) :
      Keeps spares seen (if existing.isSome then .done () else skipUnlessProcessed head "repo_queue_capacity_full") := by
    split
    · exact keeps_done
    · exact keeps_skipUnlessProcessed
  unfold recordQueueCapacitySkip
  apply keeps_get
  · intro existing _
    exact hrest existing none
  · intro existing _
    exact hrest existing (some head)

theorem keeps_failure (errorMessage : Option String → String) (preserve : Bool) :
    Keeps spares seen (recordFailedReview errorMessage preserve head) := by
  unfold recordFailedReview
  apply keeps_get
  · intro existing hposted
    have hnot : existing.any isDryRunClaim = false := by
      cases existing with
      | none => rfl
      | some row =>
        simp only [isPosted, Option.any_some, decide_eq_true_eq] at hposted
        simp [isDryRunClaim, hposted]
    dsimp only
    rw [hnot, hposted, Bool.true_or, if_neg Bool.false_ne_true, if_pos rfl]
    exact keeps_done
  · intro existing _
    dsimp only
    split
    · exact keeps_record nofun fun _ => rfl
    split
    · exact keeps_done
    · exact keeps_record nofun fun _ => rfl

theorem keeps_retryRestore (retryTarget : FailedHeadRetryTarget) (reason : String) :
    Keeps spares seen (restoreFailedRetryRowIfNeeded retryTarget reason) := by
  unfold restoreFailedRetryRowIfNeeded
  apply keeps_get
  · intro existing hposted
    rw [if_pos hposted]
    exact keeps_done
  · intro existing hfree
    rw [hfree, if_neg Bool.false_ne_true]
    split
    · exact keeps_done
    split
    · exact keeps_done
    split
    · exact keeps_done
    · refine keeps_record ?_ fun _ => rfl
      dsimp only
      split <;> exact nofun

/-! ## The writers that a posted row does not stop -/

theorem keeps_closedRetry {redactSecrets : String → String} {pull : ClosedPull} :
    Keeps false seen (recordClosedRetrySkip redactSecrets head pull) := by
  unfold recordClosedRetrySkip
  apply keeps_get
  · intro existing _
    exact keeps_recordSkip nofun
  · intro existing _
    exact keeps_recordSkip nofun

theorem keeps_rateLimit {redactSecrets : String → String} {cooldown : Option String → CooldownSkip}
    {errorMessage : Option String → String} {preserve : Bool} :
    Keeps false seen (recordProviderRateLimitCooldownIfNeeded redactSecrets cooldown errorMessage preserve head) := by
  have hrest (existing : Option StoredProcessedReviewRecord) (seen : Option HeadKey) :
      Keeps false seen (if preserve && existing.any isDryRunClaim then recordFailedReview errorMessage true head
        else if preserve && existing.any fun row => row.status = .dryRun then .done ()
        else recordSkip head ((cooldown (existing.bind (·.error))).error redactSecrets)) := by
    split
    · exact keeps_failure errorMessage true
    split
    · exact keeps_done
    · exact keeps_recordSkip nofun
  unfold recordProviderRateLimitCooldownIfNeeded
  apply keeps_get
  · intro existing _
    exact hrest existing none
  · intro existing _
    exact hrest existing (some head)

/-! ## Reviews -/

theorem posted_has_no_exception {entry : ReviewEntry} {processed : Option StoredProcessedReviewRecord}
    (hposted : isPosted processed = true) :
    entry.approvedDryRunTransition processed = false ∧ entry.retryableApprovedDryRunPrePostFailure processed = false ∧
    entry.refreshableDryRun processed = false ∧ entry.scopedActivationBaselineOverride processed = false ∧
    entry.baseMergeOnlyOverride processed = false ∧ processed.isSome = true := by
  cases processed with
  | none => cases hposted
  | some row =>
    simp only [isPosted, Option.any_some, decide_eq_true_eq] at hposted
    simp [ReviewEntry.approvedDryRunTransition, ReviewEntry.retryableApprovedDryRunPrePostFailure,
      ReviewEntry.refreshableDryRun, ReviewEntry.scopedActivationBaselineOverride, ReviewEntry.baseMergeOnlyOverride,
      isRetryableApprovedDryRunPrePostFailure, isActivationBaselineProcessedReview, hposted]

theorem step_of_posted {entry : ReviewEntry} {processed : Option StoredProcessedReviewRecord}
    (hposted : isPosted processed = true) (hgoesOn : entry.step processed ≠ .stop) :
    entry.step processed = .goOn ∧ (entry.stopsAtPosted = false ∨ entry.processedHeadPolicy = .retryFailedHead) := by
  obtain ⟨htransition, hretryable, hrefreshable, hscoped, hmerge, hsome⟩ := @posted_has_no_exception entry _ hposted
  unfold ReviewEntry.step at hgoesOn ⊢
  unfold ReviewEntry.stopsAtPosted
  rw [htransition, hretryable, hrefreshable, hscoped, hmerge, hsome] at hgoesOn ⊢
  split at hgoesOn
  · exact absurd rfl hgoesOn
  rename_i hpolicy
  split at hgoesOn
  · exact absurd rfl hgoesOn
  rename_i hbaseline
  split at hgoesOn
  · exact absurd rfl hgoesOn
  rename_i hmanual
  rw [if_neg hpolicy, if_neg hbaseline, if_neg hmanual]
  simp at hpolicy hmanual ⊢
  by_cases hretry : entry.processedHeadPolicy = .retryFailedHead
  · exact Or.inr hretry
  · exact Or.inl ⟨⟨hmanual hretry, hpolicy⟩, hretry⟩

theorem keeps_enterReview {entry : ReviewEntry} {goOn : Option StoredProcessedReviewRecord → WriterProg}
    (hfree : ∀ processed, Keeps spares (some head) (goOn processed))
    (hposted : spares = false ∨ entry.processedHeadPolicy = .retryFailedHead →
      ∀ processed, Keeps spares none (goOn processed))
    (hspares : spares = entry.stopsAtPosted) : Keeps spares seen (enterReview entry head goOn) := by
  unfold enterReview
  apply keeps_get
  · intro processed hrow
    cases hstep : entry.step processed with
    | stop => exact keeps_done
    | unlessProcessed =>
      have hgo := (step_of_posted hrow (by rw [hstep]; exact nofun)).1
      rw [hstep] at hgo
      cases hgo
    | goOn =>
      apply hposted
      rw [hspares]
      exact (step_of_posted hrow (by rw [hstep]; exact nofun)).2
  · intro processed _
    cases entry.step processed with
    | stop => exact keeps_done
    | unlessProcessed => exact keeps_hasProcessed rfl (hfree processed)
    | goOn => exact hfree processed

theorem keeps_activeCooldown {redactSecrets : String → String} {entry : ReviewEntry} {cooldown : CooldownSkip} :
    Keeps entry.stopsAtPosted seen (recordActiveCooldownSkip redactSecrets entry cooldown head) := by
  apply keeps_enterReview
  · intro processed
    split
    · exact keeps_recordSkip fun _ => rfl
    · exact keeps_done
  · intro hpasses processed
    split
    · rename_i hwrites
      rcases hpasses with hfalse | hretry
      · rw [hfalse]
        exact keeps_recordSkip nofun
      · simp [ReviewEntry.defersToCooldown, hretry] at hwrites
    · exact keeps_done
  · rfl

theorem keeps_contextBudget {entry : ReviewEntry} {reason : String} :
    Keeps entry.stopsAtPosted seen (recordContextBudgetSkip entry reason head) := by
  have hretried (spares : Bool) (seen : Option HeadKey) : Keeps spares seen
      (.call (.getProcessedReview head) fun current =>
        if current.any fun row => row.status = .failed || isProviderCooldownProcessedReview row then
          .call (.recordProcessed (failedRow head reason)) .done
        else .done ()) := by
    apply keeps_get
    · intro current hposted
      rw [if_neg]
      · exact keeps_done
      · cases current with
        | none => exact Bool.false_ne_true
        | some row =>
          simp only [isPosted, Option.any_some, decide_eq_true_eq] at hposted
          simp [isProviderCooldownProcessedReview, hposted]
    · intro current _
      split
      · exact keeps_record nofun fun _ => rfl
      · exact keeps_done
  apply keeps_enterReview
  · intro processed
    split
    · exact hretried _ _
    · exact keeps_record nofun fun _ => rfl
  · intro hpasses processed
    split
    · exact hretried _ _
    · rename_i hretry
      rcases hpasses with hfalse | hretry'
      · rw [hfalse]
        exact keeps_record nofun nofun
      · exact absurd hretry' hretry
  · rfl

/-- Every writer keeps to the discipline of its kind. -/
theorem keeps_prog (redactSecrets : String → String) (writer : Writer) :
    Keeps writer.sparesPosted none (writer.prog redactSecrets head) := by
  cases writer with
  | staleHead => exact keeps_skipUnlessPosted
  | closedBeforePost => exact keeps_skipUnlessPosted
  | commandStop => exact keeps_skipUnlessPosted
  | closedRetry => exact keeps_closedRetry
  | authorGate => exact keeps_authorGate
  | restricted reason =>
    apply keeps_get
    · intro existing hposted
      exact keeps_skipUnlessDecided (Or.inr hposted)
    · intro existing _
      exact keeps_skipUnlessDecided (Or.inl rfl)
  | activationBaseline => exact keeps_skipUnlessProcessed
  | queueCapacity => exact keeps_queueCapacity
  | failure errorMessage preserve => exact keeps_failure errorMessage preserve
  | rateLimit => exact keeps_rateLimit
  | retryRestore previousStatus previousError reason => exact keeps_retryRestore _ reason
  | activeCooldown => exact keeps_activeCooldown
  | contextBudget => exact keeps_contextBudget

end Follows

/-! ## Writers beside the other calls -/

def isOtherCall : StoreCall → Bool
  | .recordProcessed record => record.status = .posted
  | _ => true

def writerSemantics (redactSecrets : String → String) (ι : Type) : Semantics StoreCall.Value ι State Env TimedCall where
  exec _ act env s := (act.exec redactSecrets env.now env.uuid s).toOption
  ambient c s := if isOtherCall c.call then some (c.call.after redactSecrets c.now c.uuid s) else none

abbrev WriterWorld (ι : Type) := World StoreCall.Value String Unit ι State

structure Task where
  writer : Writer
  head : HeadKey

/-- None of the writers has begun. -/
def writerWorld {ι : Type} (redactSecrets : String → String) (s : State) (tasks : ι → Task) : WriterWorld ι :=
  ⟨s, fun i => (tasks i).writer.prog redactSecrets (tasks i).head⟩

section Writers

variable {ι : Type} [DecidableEq ι] {redactSecrets : String → String} {tasks : ι → Task} {w w' : WriterWorld ι}

/-- The writer has looked at the row of the head and acts on it next. -/
def Standing (head : HeadKey) : WriterProg → Prop
  | .call (.recordProcessed record) _ => record.head = head
  | .call (.clearAuthorGateSkip head' _) _ => head' = head
  | _ => False

def Guarded (tasks : ι → Task) (w : WriterWorld ι) : Label ι Env TimedCall → Prop
  | .act i _ => (tasks i).writer.sparesPosted = false → ∀ head, Standing head (w.progs i) → Unposted w.shared head
  | .ambient c => ∀ i head, (tasks i).writer.sparesPosted = true → Standing head (w.progs i) → ¬Records head c.call

/-- A posted row keeps its status, event and review URL, unless the step records a post of its head. -/
def PostedKept (w w' : WriterWorld ι) (l : Label ι Env TimedCall) : Prop :=
  ∀ head row, w.shared.processed.find? head = some row → row.status = .posted →
    (∀ c, l = .ambient c → ¬Records head c.call) →
    ∃ row', w'.shared.processed.find? head = some row' ∧
      row'.status = .posted ∧ row'.event = row.event ∧ row'.reviewUrl = row.reviewUrl

/-- What a writer has seen, and that it still holds where the writer acts on it. -/
structure Safe (tasks : ι → Task) (w : WriterWorld ι) : Prop where
  seen : ∀ i, ∃ seen, Keeps (tasks i).writer.sparesPosted seen (w.progs i) ∧
    ∀ head, (tasks i).writer.sparesPosted = true → seen = some head → Standing head (w.progs i) → Unposted w.shared head

omit [DecidableEq ι] in
theorem safe_writerWorld (redactSecrets : String → String) (s : State) (tasks : ι → Task) :
    Safe tasks (writerWorld redactSecrets s tasks) := by
  constructor
  intro i
  exact ⟨none, keeps_prog redactSecrets (tasks i).writer, nofun⟩

theorem unposted_of_isPosted {s : State} {head : HeadKey} (h : isPosted (getProcessedReview s head) = false) :
    Unposted s head := by
  intro row hrow hposted
  unfold getProcessedReview isPosted at h
  rw [hrow] at h
  simp [mapProcessedReviewRow, hposted] at h

theorem unposted_after_allowed {spares : Bool} {seen : Option HeadKey} {act : StoreCall} {answer : act.Value} {env : Env}
    {s s' : State} {head : HeadKey} (hallowed : (writerDiscipline spares).allows seen act)
    (hexec : act.exec redactSecrets env.now env.uuid s = .ok (answer, s')) (h : Unposted s head) : Unposted s' head := by
  apply h.after_ok _ hexec
  cases act with
  | recordProcessed record =>
    rintro ⟨-, hposted⟩
    exact hallowed.1 hposted
  | recordAuthorizedReviewPosted input => exact hallowed.elim
  | _ => exact id

theorem unposted_of_cleared {head : HeadKey} {reason : String} {s : State}
    (h : (clearAuthorGateSkip head reason s).1 = true) : Unposted s head := by
  intro row hrow hposted
  unfold clearAuthorGateSkip at h
  dsimp only at h
  rw [hrow] at h
  simp [hposted] at h

theorem unposted_of_next {spares : Bool} {seen : Option HeadKey} {act : StoreCall} {answer : act.Value} {env : Env}
    {s s' : State} {head : HeadKey} (hallowed : (writerDiscipline spares).allows seen act)
    (hexec : act.exec redactSecrets env.now env.uuid s = .ok (answer, s'))
    (hold : seen = some head → ∀ reason, act = .clearAuthorGateSkip head reason → Unposted s head)
    (hnext : (writerDiscipline spares).next seen act answer = some head) : Unposted s' head := by
  refine unposted_after_allowed hallowed hexec ?_
  cases act with
  | getProcessedReview head' =>
    obtain ⟨rfl, -⟩ := Prod.mk.inj (Except.ok.inj hexec)
    simp only [writerDiscipline, Option.ite_none_left_eq_some, Option.some.injEq] at hnext
    obtain ⟨hfree, rfl⟩ := hnext
    exact unposted_of_isPosted (by simpa using hfree)
  | hasProcessed head' =>
    obtain ⟨rfl, -⟩ := Prod.mk.inj (Except.ok.inj hexec)
    simp only [writerDiscipline, Option.ite_none_left_eq_some, Option.some.injEq] at hnext
    obtain ⟨hfree, rfl⟩ := hnext
    intro row hrow
    unfold Store.hasProcessed at hfree
    rw [hrow] at hfree
    exact absurd rfl hfree
  | clearAuthorGateSkip head' reason =>
    have hcleared := (Prod.mk.inj (Except.ok.inj hexec)).1
    simp only [writerDiscipline] at hnext
    split at hnext
    · rename_i hyes
      obtain rfl := Option.some.inj hnext
      rcases Bool.or_eq_true_iff.mp hyes with hgone | hseen
      · exact unposted_of_cleared (hcleared.trans hgone)
      · exact hold (of_decide_eq_true hseen) reason rfl
    · cases hnext
  | _ => cases hnext

omit [DecidableEq ι] in
theorem exec_of_sem {i : ι} {act : StoreCall} {env : Env} {s s' : State} {answer : act.Value}
    (h : (writerSemantics redactSecrets ι).exec i act env s = some (answer, s')) :
    act.exec redactSecrets env.now env.uuid s = .ok (answer, s') := by
  change (act.exec redactSecrets env.now env.uuid s).toOption = _ at h
  cases hcall : act.exec redactSecrets env.now env.uuid s with
  | error e =>
    rw [hcall] at h
    cases h
  | ok result =>
    rw [hcall] at h
    rw [Option.some.inj h]

omit [DecidableEq ι] in
theorem unposted_of_record {i : ι} {env : Env} {record : ProcessedReviewRecord} {k : Unit → WriterProg}
    (h : Safe tasks w) (hC : Guarded tasks w (.act i env)) (hprog : w.progs i = .call (.recordProcessed record) k) :
    Unposted w.shared record.head := by
  have hstanding : Standing record.head (w.progs i) := by
    rw [hprog]
    exact rfl
  obtain ⟨seen, hkeeps, hseen⟩ := h.seen i
  cases hspares : (tasks i).writer.sparesPosted with
  | false => exact hC hspares _ hstanding
  | true =>
    rw [hprog] at hkeeps
    exact hseen record.head hspares (hkeeps.1.2 hspares) hstanding

theorem safe_act {i : ι} {env : Env} (h : Safe tasks w)
    (hstep : w.step (writerSemantics redactSecrets ι) (.act i env) = some w') : Safe tasks w' := by
  obtain ⟨act, k, answer, s', hprog, hexec, rfl⟩ := World.act_cases hstep
  replace hexec := exec_of_sem hexec
  obtain ⟨seen, hkeeps, hseen⟩ := h.seen i
  rw [hprog] at hkeeps hseen
  constructor
  intro j
  by_cases hj : j = i
  · subst hj
    refine ⟨(writerDiscipline (tasks j).writer.sparesPosted).next seen act answer, ?_, ?_⟩
    · dsimp only
      rw [Function.update_self]
      exact hkeeps.2 answer
    · intro head hspares hnext _
      refine unposted_of_next hkeeps.1 hexec ?_ hnext
      intro hold reason hact
      subst hact
      exact hseen head hspares hold rfl
  · obtain ⟨seen', hkeeps', hseen'⟩ := h.seen j
    refine ⟨seen', ?_, ?_⟩
    · dsimp only
      rw [Function.update_of_ne hj]
      exact hkeeps'
    · intro head hspares hold hstanding
      dsimp only at hstanding
      rw [Function.update_of_ne hj] at hstanding
      exact unposted_after_allowed hkeeps.1 hexec (hseen' head hspares hold hstanding)

theorem posts_records {head : HeadKey} {call : StoreCall} (h : Posts head call) : Records head call := by
  cases call with
  | recordProcessed record => exact h.1
  | recordAuthorizedReviewPosted input => exact h
  | _ => exact h.elim

theorem safe_ambient {c : TimedCall} (h : Safe tasks w) (hC : Guarded tasks w (.ambient c))
    (hstep : w.step (writerSemantics redactSecrets ι) (.ambient c) = some w') : Safe tasks w' := by
  obtain ⟨s', hs', rfl⟩ := World.ambient_cases hstep
  obtain rfl : c.call.after redactSecrets c.now c.uuid w.shared = s' := by
    simp only [writerSemantics, Option.ite_none_right_eq_some, Option.some.injEq] at hs'
    exact hs'.2
  constructor
  intro i
  obtain ⟨seen, hkeeps, hseen⟩ := h.seen i
  refine ⟨seen, hkeeps, ?_⟩
  intro head hspares hold hstanding
  apply (hseen head hspares hold hstanding).after
  intro hposts
  exact hC i head hspares hstanding (posts_records hposts)

theorem safe_step {l : Label ι Env TimedCall} (h : Safe tasks w) (hC : Guarded tasks w l)
    (hstep : w.step (writerSemantics redactSecrets ι) l = some w') : Safe tasks w' := by
  cases l with
  | act i env => exact safe_act h hstep
  | ambient c => exact safe_ambient h hC hstep

/-! ## What a step does to posted rows -/

theorem postedKept_act {i : ι} {env : Env} (h : Safe tasks w) (hC : Guarded tasks w (.act i env))
    (hstep : w.step (writerSemantics redactSecrets ι) (.act i env) = some w') : PostedKept w w' (.act i env) := by
  obtain ⟨act, k, answer, s', hprog, hexec, rfl⟩ := World.act_cases hstep
  replace hexec := exec_of_sem hexec
  intro head row hrow hposted _
  refine ⟨row, posted_row_kept hexec ?_ hrow hposted, hposted, rfl, rfl⟩
  intro hrecords
  obtain ⟨seen, hkeeps, -⟩ := h.seen i
  rw [hprog] at hkeeps
  cases act with
  | recordProcessed record =>
    obtain rfl : record.head = head := hrecords
    exact unposted_of_record h hC hprog row hrow hposted
  | recordAuthorizedReviewPosted input => exact hkeeps.1.elim
  | _ => exact hrecords.elim

theorem postedKept_ambient {c : TimedCall}
    (hstep : w.step (writerSemantics redactSecrets ι) (.ambient c) = some w') : PostedKept w w' (.ambient c) := by
  obtain ⟨s', hs', rfl⟩ := World.ambient_cases hstep
  obtain rfl : c.call.after redactSecrets c.now c.uuid w.shared = s' := by
    simp only [writerSemantics, Option.ite_none_right_eq_some, Option.some.injEq] at hs'
    exact hs'.2
  intro head row hrow hposted hnot
  refine ⟨row, ?_, hposted, rfl, rfl⟩
  dsimp only
  cases hexec : c.call.exec redactSecrets c.now c.uuid w.shared with
  | error e =>
    rw [after_of_error hexec]
    exact hrow
  | ok result =>
    rw [after_of_ok hexec]
    exact posted_row_kept hexec (hnot c rfl) hrow hposted

/-- In a run where no writer that reads the row is overtaken by a post, and no other writer comes to a posted head,
a posted row keeps its status, event and review URL until a post of its head is recorded. -/
theorem posted_truth_is_durable (redactSecrets : String → String) (s : State) (tasks : ι → Task)
    (ls : List (Label ι Env TimedCall))
    (h : Along (World.step (writerSemantics redactSecrets ι)) (Guarded tasks) (writerWorld redactSecrets s tasks) ls) :
    Along (World.step (writerSemantics redactSecrets ι))
      (fun w l => ∀ w', w.step (writerSemantics redactSecrets ι) l = some w' → PostedKept w w' l)
      (writerWorld redactSecrets s tasks) ls := by
  refine Along.of_invariant (I := Safe tasks) ?_ ?_ (safe_writerWorld redactSecrets s tasks) h
  · intro w l w' hsafe hC hstep
    exact safe_step hsafe hC hstep
  · intro w l hsafe hC w' hstep
    cases l with
    | act i env => exact postedKept_act hsafe hC hstep
    | ambient c => exact postedKept_ambient hstep

end Writers

namespace PostedExample

def head : HeadKey := ⟨"owner/repo", 7, "a"⟩

def posted : State := recordProcessed { head := head, status := .posted, reviewUrl := some "u" } 1 {}

def postedRow : StoredProcessedReviewRecord :=
  { head := head, status := .posted, reviewUrl := some "u", createdAt := .iso 1 }

def post : TimedCall := ⟨.recordProcessed { head := head, status := .posted, reviewUrl := some "u" }, 4, ""⟩

def tasks : Bool → Task
  | true => ⟨.staleHead ⟨"stale_head_before_review", "b"⟩, head⟩
  | false => ⟨.failure (fun _ => "timeout") false, head⟩

/-- The skip is written, the review is posted, and the failure finds the posted row. -/
def followed : List (Label Bool Env TimedCall) :=
  [.act true ⟨2, ""⟩, .act true ⟨3, ""⟩, .ambient post, .act false ⟨5, ""⟩]

def closed : ClosedPull := ⟨some "closed", none⟩

/-- A retry of a pull that was closed after the review. -/
def closedRetry : Unit → Task := fun _ => ⟨.closedRetry closed, head⟩

def retried : List (Label Unit Env TimedCall) := [.act () ⟨2, ""⟩, .act () ⟨3, ""⟩]

end PostedExample

open PostedExample

theorem posted_truth_is_durable_followed :
    Along (World.step (writerSemantics id Bool))
      (fun w l => ∀ w', w.step (writerSemantics id Bool) l = some w' → PostedKept w w' l)
      (writerWorld id {} tasks) followed := by
  apply posted_truth_is_durable id {} tasks followed
  refine .cons nofun rfl (.cons nofun rfl (.cons ?_ rfl (.cons nofun rfl trivial)))
  rintro (_ | _) k - hstanding
  · exact hstanding.elim
  · exact hstanding.elim

theorem lost_to_closedRetry :
    ((recordProcessed (skipped head (closedRetryError id closed none)) 3 posted).processed.find? head).map (·.status) =
      some .skipped := by
  decide +kernel

/-- The retry of a closed pull replaces the posted row of the head by a skip. -/
theorem closed_retry_loses_posted :
    ¬∀ ls : List (Label Unit Env TimedCall), Along (World.step (writerSemantics id Unit))
      (fun w l => ∀ w', w.step (writerSemantics id Unit) l = some w' → PostedKept w w' l)
      (writerWorld id posted closedRetry) ls := by
  intro h
  let progs (prog : WriterProg) : Unit → WriterProg :=
    Function.update (writerWorld id posted closedRetry).progs () prog
  have hget : World.step (writerSemantics id Unit) (writerWorld id posted closedRetry) (.act () ⟨2, ""⟩) =
      some ⟨posted, progs (recordSkip head (closedRetryError id closed none))⟩ := rfl
  have hwrite : World.step (writerSemantics id Unit)
      ⟨posted, progs (recordSkip head (closedRetryError id closed none))⟩ (.act () ⟨3, ""⟩) =
      some ⟨recordProcessed (skipped head (closedRetryError id closed none)) 3 posted,
        Function.update (progs (recordSkip head (closedRetryError id closed none))) () (.done ())⟩ := rfl
  have hkept := ((h retried).2 _ hget).1 _ hwrite
  have hfound : posted.processed.find? head = some postedRow := by decide
  have hact (c : TimedCall) (hc : (.act () ⟨3, ""⟩ : Label Unit Env TimedCall) = .ambient c) : ¬Records head c.call := by
    cases hc
  obtain ⟨row', hrow', hposted, -⟩ := hkept head postedRow hfound rfl hact
  have hlost := lost_to_closedRetry
  have hleft : (recordProcessed (skipped head (closedRetryError id closed none)) 3 posted).processed.find? head =
      some row' := hrow'
  rw [hleft, Option.map_some, hposted] at hlost
  exact absurd hlost (by decide)

end NeonDiff.Worker
