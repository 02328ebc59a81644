import NeonDiff.Worker.AfterPost
import NeonDiff.Worker.Posted

/-! # Where the row of a posted review ends

One lemma follows each part of the run, with the faults that stop it.
-/

namespace NeonDiff.Worker

open NeonDiff.Lib NeonDiff.Lib.JsText NeonDiff.Store

/-! ## The rows -/

/-- A later run may review the head again. -/
def isRetried (row : StoredProcessedReviewRecord) : Bool :=
  isRetryableRow row || isRetryableApprovedDryRunPrePostFailure row.status row.error

structure PostedUnder (review : PostedReview) (before : Option StoredProcessedReviewRecord)
    (row : StoredProcessedReviewRecord) : Prop where
  posted : row.status = .posted
  url : row.reviewUrl = truthy review.htmlUrl ∨ row.reviewUrl = truthy (some review.receiptUrl) ∨
    preservedPriorBlockingRow review.plan before = true ∧ row.reviewUrl = before.bind (·.reviewUrl)

/-- The head's row is left or posted, and no later run retries it. -/
def Settled (review : PostedReview) (before after : Option StoredProcessedReviewRecord) : Prop :=
  (after = before ∨ ∃ row, after = some row ∧ PostedUnder review before row) ∧ after.any isRetried = false

theorem not_isRetried_of_posted {row : StoredProcessedReviewRecord} (h : row.status = .posted) :
    isRetried row = false := by
  simp [isRetried, isRetryableRow, isRetryableApprovedDryRunPrePostFailure, h]

theorem not_isRetried_of_dryRun {row : StoredProcessedReviewRecord} (h : row.status = .dryRun) :
    isRetried row = false := by
  simp [isRetried, isRetryableRow, isRetryableApprovedDryRunPrePostFailure, h]

theorem isRetried_of_cooldown {row : StoredProcessedReviewRecord} {redactSecrets : String → String} {head : HeadKey}
    {cooldown : Cooldown} (hstatus : row.status = .skipped)
    (herror : row.error = some ((cooldown.skip head).error redactSecrets)) : isRetried row = true := by
  have hparse := parse_tailed (IsoDate.toISOString_ne_empty cooldown.cooldownUntil)
    (clean_toISOString cooldown.cooldownUntil) (toList_error redactSecrets (cooldown.skip head))
  simp [isRetried, isRetryableRow, hstatus, herror, hparse]

/-! ## Reading back what is recorded -/

section
variable {now : Int} {s : State} {head : HeadKey}

theorem getProcessedReview_recordProcessed (record : ProcessedReviewRecord) (now : Int) (s : State)
    (h : record.error = some baseMergeOnly → isPosted (getProcessedReview s record.head) = false) :
    ∃ row, getProcessedReview (recordProcessed record now s) record.head = some row ∧
      row.status = record.status ∧ row.reviewUrl = truthy record.reviewUrl ∧ row.error = truthy record.error := by
  unfold getProcessedReview at h ⊢
  unfold recordProcessed
  rw [find?_upsert_recordedRow, if_pos rfl]
  refine ⟨_, rfl, ?_⟩
  cases hold : s.processed.find? record.head with
  | none => exact ⟨rfl, rfl, rfl⟩
  | some old =>
    have hrow : recordedRow record now (some old) = { record with
        createdAt := if old.status = .posted ∧ old.reviewUrl = record.reviewUrl then old.createdAt else .iso now } := by
      apply if_neg
      rintro ⟨herror, hposted⟩
      have hunposted := h herror
      rw [hold] at hunposted
      simp [isPosted, mapProcessedReviewRow, hposted] at hunposted
    rw [hrow]
    exact ⟨rfl, rfl, rfl⟩

theorem getProcessedReview_congr {s s' : State} (h : s'.processed = s.processed) (head : HeadKey) :
    getProcessedReview s' head = getProcessedReview s head := by
  unfold getProcessedReview
  rw [h]

theorem truthy_of_ne {text : String} (h : text ≠ "") : truthy (some text) = some text := by
  simp [truthy, h]

theorem truthy_truthy (text : Option String) : truthy (truthy text) = truthy text := by
  unfold truthy
  cases text with
  | none => rfl
  | some t =>
    by_cases ht : t = "" <;> simp [ht]

theorem truthy_reviewUrl {row : StoredProcessedReviewRecord} (h : getProcessedReview s head = some row) :
    truthy row.reviewUrl = row.reviewUrl := by
  obtain ⟨stored, -, rfl⟩ := Option.map_eq_some_iff.mp h
  exact truthy_truthy stored.reviewUrl

end

/-! ## Single calls -/

section Calls

variable {α : Type} {course : Course} {redactSecrets : String → String} {step : PostStep} {call : StoreCall}
  {k : call.Value → PostProg α} {s s' : State} {e : String}

theorem alone_storeAt_of_fault (h : course.fault step = some e) :
    (storeAt step call k).alone (course.exec redactSecrets) s = (.error (.other e), s) := by
  unfold storeAt
  simp only [Prog.alone_call, Course.exec, h, Prog.alone_fail]

theorem alone_storeAt_of_ok {v : call.Value} (h : course.fault step = none)
    (hexec : call.exec redactSecrets (course.now step) "" s = .ok (v, s')) :
    (storeAt step call k).alone (course.exec redactSecrets) s = (k v).alone (course.exec redactSecrets) s' := by
  unfold storeAt
  simp only [Prog.alone_call, Course.exec, h, hexec]

theorem alone_storeAt_of_error (h : course.fault step = none)
    (hexec : call.exec redactSecrets (course.now step) "" s = .error e) :
    (storeAt step call k).alone (course.exec redactSecrets) s = (.error (.other e), s) := by
  unfold storeAt
  simp only [Prog.alone_call, Course.exec, h, hexec, Prog.alone_fail]

theorem alone_asideAt_of_fault {k : PostProg α} (h : course.fault step = some e) :
    (asideAt step k).alone (course.exec redactSecrets) s = (.error (.other e), s) := by
  unfold asideAt
  simp only [Prog.alone_call, Course.exec, h, Prog.alone_fail]

theorem alone_asideAt_of_ok {k : PostProg α} (h : course.fault step = none) :
    (asideAt step k).alone (course.exec redactSecrets) s = k.alone (course.exec redactSecrets) s := by
  unfold asideAt
  simp only [Prog.alone_call, Course.exec, h]

end Calls

/-! ## The receipt -/

/-- Why the store takes no receipt of an authorized review. -/
def authorizedRefusal (input : AuthorizedPostedInput) (s : State) : Option String :=
  match validateReviewEventAuthorizationConsumption input.head input.commentId input.author with
  | .error e => some e
  | .ok () =>
    if !startsWith input.reviewUrl "https://github.com/" then some "reviewUrl must be a GitHub URL"
    else if (s.consumptions.find? (ledgerKey input.head)).any fun c =>
        c.head = ledgerKey input.head && c.commentId = input.commentId && c.author = input.author then none
    else some "refusing to record an authorized review without its exact consumption row"

section Authorized

variable {input : AuthorizedPostedInput} {now : Int} {s s' : State} {e : String}

theorem recordAuthorizedReviewPosted_of_refused (h : authorizedRefusal input s = some e) :
    recordAuthorizedReviewPosted input now s = .error e := by
  unfold authorizedRefusal at h
  unfold recordAuthorizedReviewPosted
  cases hvalid : validateReviewEventAuthorizationConsumption input.head input.commentId input.author with
  | error text =>
    rw [hvalid] at h
    exact congrArg _ (Option.some.inj h)
  | ok value =>
    rw [hvalid] at h
    dsimp only at h ⊢
    split at h
    · rw [if_pos ‹_›]
      exact congrArg _ (Option.some.inj h)
    · rw [if_neg ‹_›]
      split at h
      · cases h
      · rw [if_neg ‹_›]
        exact congrArg _ (Option.some.inj h)

theorem recordAuthorizedReviewPosted_of_taken (h : authorizedRefusal input s = none) :
    ∃ s', recordAuthorizedReviewPosted input now s = .ok ((), s') ∧
      if preservesBlocking input (getProcessedReview s input.head) then s'.processed = s.processed
      else s'.processed = (recordProcessed (authorizedPostedRecord input) now s).processed := by
  unfold authorizedRefusal at h
  unfold recordAuthorizedReviewPosted
  cases hvalid : validateReviewEventAuthorizationConsumption input.head input.commentId input.author with
  | error text =>
    rw [hvalid] at h
    cases h
  | ok value =>
    rw [hvalid] at h
    dsimp only at h ⊢
    split at h
    · cases h
    rename_i hurl
    rw [if_neg hurl]
    split at h
    · rename_i hreceipt
      rw [if_pos hreceipt]
      refine ⟨_, rfl, ?_⟩
      split
      · rfl
      · rfl
    · cases h

end Authorized

/-- Why no receipt is stored: a call that throws, or a receipt that is not whole. -/
def receiptRefusal (course : Course) (head : HeadKey) (review : PostedReview) (time : Time) (reviewUrl : Option String)
    (preserve : Bool) (s : State) : Option String :=
  match review.authorization with
  | some authorization =>
    match truthy reviewUrl with
    | none => some "consumed owner authorization did not produce a durable review receipt"
    | some url =>
      (course.fault (.record time)).or (authorizedRefusal (authorizedInput head review authorization url preserve) s)
  | none => if preserve then none else course.fault (.record time)

section Receipt

variable {course : Course} {redactSecrets : String → String} {head : HeadKey} {review : PostedReview} {time : Time}
  {reviewUrl : Option String} {preserve : Bool} {s : State} {before : Option StoredProcessedReviewRecord}

theorem storeReceipt_refused {e : String} (h : receiptRefusal course head review time reviewUrl preserve s = some e) :
    (storeReceipt head review time reviewUrl preserve).alone (course.exec redactSecrets) s =
      (.error (.other e), s) := by
  unfold receiptRefusal at h
  unfold storeReceipt
  cases hauthorization : review.authorization with
  | none =>
    rw [hauthorization] at h
    dsimp only at h ⊢
    split at h
    · cases h
    · rw [if_neg ‹_›]
      exact alone_storeAt_of_fault h
  | some authorization =>
    rw [hauthorization] at h
    dsimp only at h ⊢
    cases hurl : truthy reviewUrl with
    | none =>
      rw [hurl] at h
      obtain rfl := Option.some.inj h
      rfl
    | some url =>
      rw [hurl] at h
      dsimp only at h ⊢
      cases hfault : course.fault (.record time) with
      | some fault =>
        rw [hfault, Option.some_or] at h
        obtain rfl := Option.some.inj h
        exact alone_storeAt_of_fault hfault
      | none =>
        rw [hfault, Option.none_or] at h
        exact alone_storeAt_of_error hfault (recordAuthorizedReviewPosted_of_refused h)

theorem postedUnder_of_preserved {row : StoredProcessedReviewRecord}
    (hpreserved : preservedPriorBlockingRow review.plan before = true) (hrow : before = some row) :
    PostedUnder review before row := by
  have hposted := hpreserved
  rw [hrow] at hposted
  simp only [preservedPriorBlockingRow, Option.any_some, Bool.and_eq_true, decide_eq_true_eq] at hposted
  exact ⟨hposted.1.1, Or.inr (Or.inr ⟨hpreserved, by rw [hrow]; rfl⟩)⟩

theorem exists_of_preserved (h : preservedPriorBlockingRow review.plan before = true) : ∃ row, before = some row := by
  cases before with
  | none => cases h
  | some row => exact ⟨row, rfl⟩

theorem storeReceipt_stored (h : receiptRefusal course head review time reviewUrl preserve s = none)
    (hbefore : getProcessedReview s head = before) (hpreserve : preserve = preservedPriorBlockingRow review.plan before)
    (hurl : truthy reviewUrl = truthy review.htmlUrl ∨ truthy reviewUrl = truthy (some review.receiptUrl)) :
    ∃ s', (storeReceipt head review time reviewUrl preserve).alone (course.exec redactSecrets) s = (.ok (), s') ∧
      ∃ row, getProcessedReview s' head = some row ∧ PostedUnder review before row := by
  have hkept {s' : State} (hpreserved : preserve = true) (hsame : s'.processed = s.processed) :
      ∃ row, getProcessedReview s' head = some row ∧ PostedUnder review before row := by
    rw [hpreserve] at hpreserved
    obtain ⟨row, hrow⟩ := exists_of_preserved hpreserved
    rw [getProcessedReview_congr hsame, hbefore]
    exact ⟨row, hrow, postedUnder_of_preserved hpreserved hrow⟩
  have hrecorded (record : ProcessedReviewRecord) (now : Int) {s' : State}
      (hsame : s'.processed = (recordProcessed record now s).processed) (hhead : record.head = head)
      (hstatus : record.status = .posted) (herror : record.error = none)
      (hrecordUrl : truthy record.reviewUrl = truthy reviewUrl) :
      ∃ row, getProcessedReview s' head = some row ∧ PostedUnder review before row := by
    obtain ⟨row, hrow, hrowStatus, hrowUrl, -⟩ :=
      getProcessedReview_recordProcessed record now s (by rw [herror]; exact nofun)
    rw [getProcessedReview_congr hsame, ← hhead]
    refine ⟨row, hrow, hrowStatus.trans hstatus, ?_⟩
    rw [hrowUrl, hrecordUrl]
    exact hurl.imp_right Or.inl
  unfold receiptRefusal at h
  unfold storeReceipt
  cases hauthorization : review.authorization with
  | none =>
    rw [hauthorization] at h
    dsimp only at h ⊢
    split at h
    · rename_i hpreserved
      rw [if_pos hpreserved]
      exact ⟨s, rfl, hkept hpreserved rfl⟩
    · rw [if_neg ‹_›]
      exact ⟨_, alone_storeAt_of_ok h rfl, hrecorded (receiptRecord head review reviewUrl) _ rfl rfl rfl rfl rfl⟩
  | some authorization =>
    rw [hauthorization] at h
    dsimp only at h ⊢
    cases htruthy : truthy reviewUrl with
    | none =>
      rw [htruthy] at h
      cases h
    | some url =>
      rw [htruthy] at h
      obtain ⟨hfault, htaken⟩ := Option.or_eq_none_iff.mp h
      obtain ⟨s', hexec, hrow⟩ :=
        @recordAuthorizedReviewPosted_of_taken _ (course.now (.record time)) _ htaken
      refine ⟨s', alone_storeAt_of_ok hfault hexec, ?_⟩
      split at hrow
      · rename_i hpreserves
        unfold preservesBlocking at hpreserves
        rw [Bool.and_eq_true] at hpreserves
        exact hkept hpreserves.1 hrow
      · refine hrecorded _ _ hrow rfl rfl rfl ?_
        show truthy (some url) = truthy reviewUrl
        rw [← htruthy, truthy_truthy]

end Receipt

/-! ## The look at the head -/

def readinessRefusal (head : HeadKey) (commandCommentId : Option Nat) : Option String :=
  match validateReviewQueueInput head none commandCommentId with
  | .error e => some e
  | .ok () => none

def markRefusal (course : Course) (head : HeadKey) (time : Time) (live : Except String LivePull)
    (preservedPriorVerifiedBlockingRow : Bool) (commandCommentId : Option Nat) : Option String :=
  if (uncertaintyReason live).isSome && !preservedPriorVerifiedBlockingRow then
    (course.fault (.durableRead time)).or <| (course.fault (.mark time)).or <|
      (course.fault (.readiness time)).or (readinessRefusal head commandCommentId)
  else none

/-- A result, and no more than an error where there is one. -/
def outcome (error : Option ReviewError) : Except ReviewError Unit :=
  match error with
  | some e => .error e
  | none => .ok ()

section Look

variable {course : Course} {redactSecrets : String → String} {head : HeadKey} {review : PostedReview} {time : Time}
  {s : State} {before : Option StoredProcessedReviewRecord}

theorem uncertaintyReason_ne {live : Except String LivePull} {reason : String}
    (h : uncertaintyReason live = some reason) : some reason ≠ some baseMergeOnly := by
  unfold uncertaintyReason at h
  cases live with
  | error e =>
    obtain rfl := Option.some.inj h
    decide
  | ok live =>
    dsimp only at h
    split at h
    · obtain rfl := Option.some.inj h
      decide
    · cases h

theorem readiness_exec {input : ReadinessInput} {now : Int} :
    (readinessRefusal input.head input.commandCommentId = none ∧ ∃ s',
      recordReviewReadiness redactSecrets input now s = .ok ((), s') ∧ s'.processed = s.processed) ∨
    ∃ e, readinessRefusal input.head input.commandCommentId = some e ∧
      recordReviewReadiness redactSecrets input now s = .error e := by
  unfold readinessRefusal recordReviewReadiness
  cases validateReviewQueueInput input.head none input.commandCommentId with
  | error e => exact Or.inr ⟨e, rfl, rfl⟩
  | ok value =>
    refine Or.inl ⟨rfl, ?_⟩
    dsimp only
    split
    · exact ⟨_, rfl, rfl⟩
    · exact ⟨_, rfl, rfl⟩

theorem markAfterLook_spec (live : Except String LivePull) (verified : Bool) (commandCommentId : Option Nat)
    (hrow : ∃ row, getProcessedReview s head = some row ∧ PostedUnder review before row) :
    ∃ s', (markAfterLook head time live verified commandCommentId).alone (course.exec redactSecrets) s =
        (outcome ((markRefusal course head time live verified commandCommentId).map .other), s') ∧
      ∃ row, getProcessedReview s' head = some row ∧ PostedUnder review before row := by
  unfold markAfterLook markRefusal
  cases hreason : uncertaintyReason live with
  | none => exact ⟨s, rfl, hrow⟩
  | some reason =>
    cases verified with
    | true => exact ⟨s, rfl, hrow⟩
    | false =>
      simp only [Option.isSome_some, Bool.not_false, Bool.and_self, if_true, Bool.false_eq_true, if_false]
      cases hread : course.fault (.durableRead time) with
      | some e => exact ⟨s, alone_storeAt_of_fault hread, hrow⟩
      | none =>
        obtain ⟨row, hget, hposted⟩ := hrow
        rw [alone_storeAt_of_ok hread rfl]
        rw [hget, Option.filter_some, if_pos (by simpa using hposted.posted)]
        dsimp only
        cases hmark : course.fault (.mark time) with
        | some e => exact ⟨s, alone_storeAt_of_fault hmark, row, hget, hposted⟩
        | none =>
          rw [alone_storeAt_of_ok hmark rfl]
          obtain ⟨marked, hmarked, hstatus, hurl, -⟩ := getProcessedReview_recordProcessed
            (uncertainRecord head row reason) (course.now (.mark time)) s
            fun h => absurd h (uncertaintyReason_ne hreason)
          have hmarkedUnder : PostedUnder review before marked := by
            refine ⟨hstatus, ?_⟩
            rw [hurl, show (uncertainRecord head row reason).reviewUrl = row.reviewUrl from rfl, truthy_reviewUrl hget]
            exact hposted.url
          cases hreadiness : course.fault (.readiness time) with
          | some e => exact ⟨_, alone_storeAt_of_fault hreadiness, marked, hmarked, hmarkedUnder⟩
          | none =>
            simp only [Option.none_or]
            rcases @readiness_exec redactSecrets (recordProcessed (uncertainRecord head row reason)
              (course.now (.mark time)) s) (uncertainReadiness head row reason (uncertaintyState live) commandCommentId)
              (course.now (.readiness time))
              with ⟨hnone, s', hexec, hsame⟩ | ⟨e, hsome, hexec⟩
            · have hnone : readinessRefusal head commandCommentId = none := hnone
              rw [hnone]
              refine ⟨s', alone_storeAt_of_ok hreadiness hexec, marked, ?_, hmarkedUnder⟩
              rw [getProcessedReview_congr hsame]
              exact hmarked
            · have hsome : readinessRefusal head commandCommentId = some e := hsome
              rw [hsome]
              exact ⟨_, alone_storeAt_of_error hreadiness hexec, marked, hmarked, hmarkedUnder⟩

end Look

/-! ## The release -/

/-- The first call of the `finally` block that throws. -/
def finallyFault (course : Course) (claimHeld : Bool) : Option String :=
  (if claimHeld then course.fault (.releaseClaim .second) else none).or (course.fault (.releaseLease .second))

/-- What the release before the return throws: the `finally` block runs behind it. -/
def earlyFault (course : Course) : Option String :=
  match course.fault (.releaseClaim .first) with
  | some e => some ((finallyFault course true).getD e)
  | none => (course.fault (.releaseLease .first)).map fun e => (finallyFault course false).getD e

def SameRows (s s' : State) : Prop := s'.processed = s.processed ∧ s'.consumptions = s.consumptions

section Release

variable {course : Course} {redactSecrets : String → String} {review : PostedReview} {s : State} {claimHeld : Bool}

theorem releaseFinally_done (h : finallyFault course claimHeld = none) : ∃ s', SameRows s s' ∧
    ∀ (α : Type) (k : PostProg α), (releaseFinally review claimHeld k).alone (course.exec redactSecrets) s =
      k.alone (course.exec redactSecrets) s' := by
  unfold finallyFault at h
  obtain ⟨hclaim, hlease⟩ := Option.or_eq_none_iff.mp h
  cases claimHeld with
  | false => exact ⟨s, ⟨rfl, rfl⟩, fun α k => alone_asideAt_of_ok hlease⟩
  | true =>
    refine ⟨releaseReviewHeadClaim review.claimId s, ⟨rfl, rfl⟩, fun α k => ?_⟩
    exact (alone_storeAt_of_ok hclaim rfl).trans (alone_asideAt_of_ok hlease)

theorem releaseFinally_stopped {e : String} (h : finallyFault course claimHeld = some e) : ∃ s', SameRows s s' ∧
    ∀ (α : Type) (k : PostProg α), (releaseFinally review claimHeld k).alone (course.exec redactSecrets) s =
      (.error (.other e), s') := by
  unfold finallyFault at h
  cases claimHeld with
  | false => exact ⟨s, ⟨rfl, rfl⟩, fun α k => alone_asideAt_of_fault h⟩
  | true =>
    rw [if_pos rfl] at h
    cases hclaim : course.fault (.releaseClaim .second) with
    | some fault =>
      rw [hclaim, Option.some_or] at h
      obtain rfl := Option.some.inj h
      exact ⟨s, ⟨rfl, rfl⟩, fun α k => alone_storeAt_of_fault hclaim⟩
    | none =>
      rw [hclaim, Option.none_or] at h
      refine ⟨releaseReviewHeadClaim review.claimId s, ⟨rfl, rfl⟩, fun α k => ?_⟩
      exact (alone_storeAt_of_ok hclaim rfl).trans (alone_asideAt_of_fault h)

theorem releaseFinally_fail (error : ReviewError) : ∃ s', SameRows s s' ∧
    (releaseFinally review claimHeld (.fail error : PostProg Unit)).alone (course.exec redactSecrets) s =
      (.error (((finallyFault course claimHeld).map .other).getD error), s') := by
  cases hfault : finallyFault course claimHeld with
  | none =>
    obtain ⟨s', hsame, hrun⟩ := @releaseFinally_done _ redactSecrets review s _ hfault
    exact ⟨s', hsame, hrun Unit (.fail error)⟩
  | some e =>
    obtain ⟨s', hsame, hrun⟩ := @releaseFinally_stopped _ redactSecrets review s _ _ hfault
    exact ⟨s', hsame, hrun Unit (.fail error)⟩

theorem releaseFinally_return : ∃ s', SameRows s s' ∧
    (releaseFinally review claimHeld (.done () : PostProg Unit)).alone (course.exec redactSecrets) s =
      (outcome ((finallyFault course claimHeld).map .other), s') := by
  cases hfault : finallyFault course claimHeld with
  | none =>
    obtain ⟨s', hsame, hrun⟩ := @releaseFinally_done _ redactSecrets review s _ hfault
    exact ⟨s', hsame, hrun Unit (.done ())⟩
  | some e =>
    obtain ⟨s', hsame, hrun⟩ := @releaseFinally_stopped _ redactSecrets review s _ _ hfault
    exact ⟨s', hsame, hrun Unit (.done ())⟩

theorem other_getD (fault : Option String) (e : String) :
    (fault.map ReviewError.other).getD (.other e) = .other (fault.getD e) := by
  cases fault <;> rfl

theorem releaseEarly_spec : ∃ s', SameRows s s' ∧
    (releaseEarly review).alone (course.exec redactSecrets) s = (outcome ((earlyFault course).map .other), s') := by
  unfold releaseEarly earlyFault
  cases hclaim : course.fault (.releaseClaim .first) with
  | some e =>
    simp only [Prog.alone_call, Course.exec, hclaim]
    obtain ⟨s', hsame, hrun⟩ := @releaseFinally_fail course redactSecrets review s true (.other e)
    exact ⟨s', hsame, by rw [hrun, other_getD]; rfl⟩
  | none =>
    simp only [Prog.alone_call, Course.exec, hclaim, StoreCall.exec]
    cases hlease : course.fault (.releaseLease .first) with
    | some e =>
      obtain ⟨s', hsame, hrun⟩ :=
        @releaseFinally_fail course redactSecrets review (releaseReviewHeadClaim review.claimId s) false (.other e)
      exact ⟨s', hsame, by rw [hrun, other_getD]; rfl⟩
    | none => exact ⟨releaseReviewHeadClaim review.claimId s, ⟨rfl, rfl⟩, rfl⟩

end Release

/-! ## The review -/

section
variable (course : Course) (head : HeadKey) (review : PostedReview) (s : State)

def recordRefusal : Option String :=
  receiptRefusal course head review .first review.htmlUrl
    (preservedPriorBlockingRow review.plan (getProcessedReview s head)) s

/-- What stops the review after its receipt is stored. -/
def lookRefusal : Option String :=
  markRefusal course head .first review.liveAfterPost
    (preservedPriorBlockingRow review.plan (getProcessedReview s head) &&
      (getProcessedReview s head).all fun row => row.error.isNone)
    (review.commandCommentId.filter (· ≠ 0))

/-- What `reviewPull` throws after the POST. -/
def thrown : Option ReviewError :=
  match recordRefusal course head review s with
  | some cause => some (((finallyFault course true).map .other).getD (.persistence cause))
  | none =>
    match lookRefusal course head review s with
    | some e => some (((finallyFault course true).map .other).getD (.other e))
    | none => (if review.ensemble then finallyFault course true else earlyFault course).map .other

def recoveryRefusal : Option String :=
  match truthy (some review.receiptUrl) with
  | none => some "review posted but its recovery receipt is incomplete"
  | some reviewUrl => receiptRefusal course head review .second (some reviewUrl)
      (preservedPriorBlockingRow review.plan (getProcessedReview s head)) s

end

section Review

variable {course : Course} {redactSecrets : String → String} {head : HeadKey} {review : PostedReview} {s s' : State}

theorem getProcessedReview_of_same (h : SameRows s s') (head : HeadKey) :
    getProcessedReview s' head = getProcessedReview s head :=
  getProcessedReview_congr h.1 head

abbrev Stands (head : HeadKey) (review : PostedReview) (s s' : State) : Prop :=
  ∃ row, getProcessedReview s' head = some row ∧ PostedUnder review (getProcessedReview s head) row

theorem stands_of_same {t : State} (h : Stands head review s s') (hsame : SameRows s' t) : Stands head review s t := by
  obtain ⟨row, hrow, hposted⟩ := h
  exact ⟨row, (getProcessedReview_of_same hsame head).trans hrow, hposted⟩

theorem reviewAfterPost_spec : ∃ s',
    (reviewAfterPost head review (getProcessedReview s head)).alone (course.exec redactSecrets) s =
      (outcome (thrown course head review s), s') ∧
    (recordRefusal course head review s ≠ none → SameRows s s') ∧
    (recordRefusal course head review s = none → Stands head review s s') := by
  unfold reviewAfterPost thrown
  dsimp only
  rw [Prog.alone_attempt, Prog.alone_attempt]
  cases hrecord : recordRefusal course head review s with
  | some cause =>
    rw [storeReceipt_refused hrecord]
    obtain ⟨s', hsame, hrun⟩ := @releaseFinally_fail course redactSecrets review s true (.persistence cause)
    exact ⟨s', hrun, fun _ => hsame, nofun⟩
  | none =>
    obtain ⟨s₁, hstored, hstands⟩ := storeReceipt_stored hrecord rfl rfl (Or.inl rfl)
    rw [hstored]
    obtain ⟨s₂, hlook, hstands⟩ := @markAfterLook_spec course redactSecrets head review .first s₁ _
      review.liveAfterPost (preservedPriorBlockingRow review.plan (getProcessedReview s head) &&
        (getProcessedReview s head).all fun row => row.error.isNone) (review.commandCommentId.filter (· ≠ 0)) hstands
    dsimp only
    rw [hlook]
    cases hrefusal : lookRefusal course head review s with
    | some e =>
      have hrefusal : markRefusal course head .first review.liveAfterPost _ _ = some e := hrefusal
      rw [hrefusal]
      obtain ⟨s', hsame, hrun⟩ := @releaseFinally_fail course redactSecrets review s₂ true (.other e)
      exact ⟨s', hrun, nofun, fun _ => stands_of_same hstands hsame⟩
    | none =>
      have hrefusal : markRefusal course head .first review.liveAfterPost _ _ = none := hrefusal
      rw [hrefusal]
      simp only [Option.map_none, outcome]
      cases review.ensemble with
      | true =>
        obtain ⟨s', hsame, hrun⟩ := @releaseFinally_return course redactSecrets review s₂ true
        exact ⟨s', hrun, nofun, fun _ => stands_of_same hstands hsame⟩
      | false =>
        obtain ⟨s', hsame, hrun⟩ := @releaseEarly_spec course redactSecrets review s₂
        exact ⟨s', hrun, nofun, fun _ => stands_of_same hstands hsame⟩

/-! ## The recovery -/

theorem receiptRefusal_of_same (h : SameRows s s') (time : Time) (reviewUrl : Option String) (preserve : Bool) :
    receiptRefusal course head review time reviewUrl preserve s' =
      receiptRefusal course head review time reviewUrl preserve s := by
  unfold receiptRefusal authorizedRefusal
  rw [h.2]

theorem recover_spec (hsame : SameRows s s') (cause : String) : ∃ result t,
    (recoverPostedReviewReceiptForCurrentHead head review
      (preservedPriorBlockingRow review.plan (getProcessedReview s head)) (.persistence cause)).alone
        (course.exec redactSecrets) s' = (result, t) ∧ result ≠ .ok false ∧
    (course.fault .priorRead = none ∧ recoveryRefusal course head review s = none → Stands head review s t) ∧
    (¬(course.fault .priorRead = none ∧ recoveryRefusal course head review s = none) → SameRows s t) := by
  have hposted : reviewWasAlreadyPosted (.persistence cause) = true := rfl
  unfold recoverPostedReviewReceiptForCurrentHead recoverPostedReviewReceipt recoveryRefusal
  rw [if_pos hposted]
  cases hread : course.fault .priorRead with
  | some e => exact ⟨_, s', alone_storeAt_of_fault hread, nofun, nofun, fun _ => hsame⟩
  | none =>
    rw [alone_storeAt_of_ok hread rfl, Prog.alone_attempt]
    cases hurl : truthy (some review.receiptUrl) with
    | none => exact ⟨.ok true, s', rfl, nofun, nofun, fun _ => hsame⟩
    | some reviewUrl =>
      dsimp only
      cases hrefusal : receiptRefusal course head review .second (some reviewUrl)
          (preservedPriorBlockingRow review.plan (getProcessedReview s head)) s with
      | some e =>
        rw [storeReceipt_refused ((receiptRefusal_of_same hsame ..).trans hrefusal)]
        exact ⟨.ok true, s', rfl, nofun, nofun, fun _ => hsame⟩
      | none =>
        have hreceiptUrl : truthy (some reviewUrl) = truthy (some review.receiptUrl) := by
          rw [← hurl, truthy_truthy]
        obtain ⟨s₁, hstored, hstands⟩ := @storeReceipt_stored course redactSecrets head review .second (some reviewUrl)
          _ s' _ ((receiptRefusal_of_same hsame ..).trans hrefusal) (getProcessedReview_of_same hsame head) rfl
          (Or.inr hreceiptUrl)
        rw [hstored]
        obtain ⟨s₂, hlook, hstands⟩ := @markAfterLook_spec course redactSecrets head review .second s₁ _
          review.liveAfterRecovery (preservedPriorBlockingRow review.plan (getProcessedReview s head) &&
            (getProcessedReview s' head).any isVerifiedBlocking) none hstands
        dsimp only
        cases hmark : markRefusal course head .second review.liveAfterRecovery
            (preservedPriorBlockingRow review.plan (getProcessedReview s head) &&
              (getProcessedReview s' head).any isVerifiedBlocking) none with
        | some e =>
          rw [hmark] at hlook
          exact ⟨_, s₂, Prog.alone_bind_of_error _ hlook, nofun, fun _ => hstands, fun h => absurd ⟨rfl, rfl⟩ h⟩
        | none =>
          rw [hmark] at hlook
          exact ⟨_, s₂, Prog.alone_bind_of_ok _ hlook, nofun, fun _ => hstands, fun h => absurd ⟨rfl, rfl⟩ h⟩

end Review

/-! ## The catch blocks -/

def handlerRuns (course : Course) : Bool := (course.fault .handlerRead).isNone && (course.fault .handlerWrite).isNone

/-- The catch block leaves the row that it finds. -/
def handlerLeaves (errors : ErrorPolicy) (preserveExistingDryRun : Bool) (error : ReviewError)
    (before : Option StoredProcessedReviewRecord) : Bool :=
  let dryRunKept := preserveExistingDryRun && before.any fun row => row.status = .dryRun
  match errors.cooldown error with
  | some _ => dryRunKept
  | none => isPosted before || dryRunKept

section Handling

variable {course : Course} {errors : ErrorPolicy} {redactSecrets : String → String} {head : HeadKey} {s : State}
  {preserve : Bool} {error : ReviewError}

theorem handling_without_write {e : String} (hwrite : course.fault .handlerWrite = some e) (writer : WriterProg)
    (s : State) :
    ((handling writer).alone (course.exec redactSecrets) s).2 = s := by
  induction writer generalizing s with
  | done value => rfl
  | fail e => rfl
  | call call k ih =>
    unfold handling writing
    cases call with
    | getProcessedReview head =>
      cases hread : course.fault .handlerRead with
      | some e =>
        have hread : course.fault (handlerStep (.getProcessedReview head)) = some e := hread
        rw [alone_storeAt_of_fault hread]
      | none =>
        have hread : course.fault (handlerStep (.getProcessedReview head)) = none := hread
        rw [alone_storeAt_of_ok hread rfl]
        exact ih _ s
    | _ =>
      rw [alone_storeAt_of_fault]
      exact hwrite

theorem handling_read_stopped {e : String} (hread : course.fault .handlerRead = some e)
    (k : Option StoredProcessedReviewRecord → WriterProg) :
    ((handling (.call (.getProcessedReview head) k)).alone (course.exec redactSecrets) s).2 = s := by
  unfold handling writing
  rw [alone_storeAt_of_fault]
  exact hread

theorem recordError_reads : ∃ k, recordError head errors preserve error = .call (.getProcessedReview head) k := by
  unfold recordError
  split
  · exact ⟨_, rfl⟩
  · exact ⟨_, rfl⟩

theorem handling_stopped (h : handlerRuns course = false) :
    ((handling (recordError head errors preserve error)).alone (course.exec redactSecrets) s).2 = s := by
  unfold handlerRuns at h
  cases hwrite : course.fault .handlerWrite with
  | some e => exact handling_without_write hwrite _ s
  | none =>
    cases hread : course.fault .handlerRead with
    | some e =>
      obtain ⟨k, hreads⟩ := @recordError_reads errors head preserve error
      rw [hreads]
      exact handling_read_stopped hread k
    | none =>
      rw [hread, hwrite] at h
      cases h

theorem handling_read (h : handlerRuns course = true) (k : Option StoredProcessedReviewRecord → WriterProg) :
    (handling (.call (.getProcessedReview head) k)).alone (course.exec redactSecrets) s =
      (handling (k (getProcessedReview s head))).alone (course.exec redactSecrets) s := by
  unfold handlerRuns at h
  rw [Bool.and_eq_true, Option.isNone_iff_eq_none] at h
  rw [handling, writing]
  exact alone_storeAt_of_ok h.1 rfl

theorem handling_record (h : handlerRuns course = true) (record : ProcessedReviewRecord) :
    ((handling (.call (.recordProcessed record) .done)).alone (course.exec redactSecrets) s).2 =
      recordProcessed record (course.now .handlerWrite) s := by
  unfold handlerRuns at h
  rw [Bool.and_eq_true, Option.isNone_iff_eq_none, Option.isNone_iff_eq_none] at h
  rw [handling, writing]
  exact congrArg Prod.snd (alone_storeAt_of_ok h.2 rfl)

theorem retried_of_handling (h : handlerRuns course = true) {record : ProcessedReviewRecord}
    (hhead : record.head = head)
    (herror : record.error = some baseMergeOnly → isPosted (getProcessedReview s head) = false)
    (hretried : ∀ row : StoredProcessedReviewRecord, row.status = record.status → row.error = truthy record.error →
      isRetried row = true) :
    (getProcessedReview ((handling (.call (.recordProcessed record) .done)).alone (course.exec redactSecrets) s).2
      head).any isRetried = true := by
  subst hhead
  rw [handling_record h]
  obtain ⟨row, hrow, hstatus, -, hrowError⟩ :=
    getProcessedReview_recordProcessed record (course.now .handlerWrite) s herror
  rw [hrow]
  exact hretried row hstatus hrowError

theorem isRetried_of_failed {row : StoredProcessedReviewRecord} (h : row.status = .failed) : isRetried row = true := by
  simp [isRetried, isRetryableRow, h]

theorem isRetried_of_post_error {row : StoredProcessedReviewRecord} {message : String} (hstatus : row.status = .skipped)
    (herror : row.error = some (APPROVED_DRY_RUN_LIVE_CLAIM_ERROR ++ "; post_error=" ++ message)) :
    isRetried row = true := by
  have hstarts : startsWith (APPROVED_DRY_RUN_LIVE_CLAIM_ERROR ++ "; post_error=" ++ message)
      (APPROVED_DRY_RUN_LIVE_CLAIM_ERROR ++ "; post_error=") = true := by
    rw [startsWith_iff, String.toList_append (t := message)]
    exact List.prefix_append _ _
  simp [isRetried, isRetryableApprovedDryRunPrePostFailure, hstatus, herror, hstarts]

theorem not_posted_of_dryRunClaim {previous : Option StoredProcessedReviewRecord}
    (h : previous.any isDryRunClaim = true) :
    isPosted previous = false ∧ (previous.any fun row => row.status = .dryRun) = false := by
  obtain ⟨row, rfl, hrow⟩ := (Option.any_eq_true _ _).mp h
  simp only [isDryRunClaim, Bool.and_eq_true, decide_eq_true_eq] at hrow
  simp [isPosted, hrow.1]

theorem recordFailedReview_spec (hruns : handlerRuns course = true) (errorMessage : Option String → String) :
    if isPosted (getProcessedReview s head) ||
        (preserve && (getProcessedReview s head).any fun row => row.status = .dryRun) then
      ((handling (recordFailedReview errorMessage preserve head)).alone (course.exec redactSecrets) s).2 = s
    else (getProcessedReview ((handling (recordFailedReview errorMessage preserve head)).alone
      (course.exec redactSecrets) s).2 head).any isRetried = true := by
  unfold recordFailedReview
  rw [handling_read hruns]
  dsimp only
  by_cases hclaim : (getProcessedReview s head).any isDryRunClaim = true
  · obtain ⟨hposted, hdryRun⟩ := not_posted_of_dryRunClaim hclaim
    rw [if_pos hclaim, hposted, hdryRun, Bool.and_false, Bool.or_false, if_neg Bool.false_ne_true]
    refine retried_of_handling hruns rfl (fun _ => hposted) ?_
    intro row hstatus herror
    apply isRetried_of_post_error hstatus
    rw [herror]
    apply truthy_of_ne
    intro h
    have hlist := congrArg String.toList h
    simp [APPROVED_DRY_RUN_LIVE_CLAIM_ERROR] at hlist
  · rw [if_neg hclaim]
    split
    · rfl
    · rename_i hleaves
      rw [Bool.or_eq_true, not_or, Bool.not_eq_true] at hleaves
      refine retried_of_handling hruns rfl (fun _ => hleaves.1) ?_
      intro row hstatus _
      exact isRetried_of_failed hstatus

theorem recordError_spec (hruns : handlerRuns course = true) :
    if handlerLeaves errors preserve error (getProcessedReview s head) then
      ((handling (recordError head errors preserve error)).alone (course.exec redactSecrets) s).2 = s
    else (getProcessedReview ((handling (recordError head errors preserve error)).alone
      (course.exec redactSecrets) s).2 head).any isRetried = true := by
  unfold recordError handlerLeaves
  cases errors.cooldown error with
  | none => exact recordFailedReview_spec hruns (errors.errorMessage error)
  | some cooldown =>
    dsimp only
    unfold recordProviderRateLimitCooldownIfNeeded
    rw [handling_read hruns]
    dsimp only
    by_cases hclaim : (preserve && (getProcessedReview s head).any isDryRunClaim) = true
    · rw [if_pos hclaim]
      rw [Bool.and_eq_true] at hclaim
      obtain ⟨hposted, hdryRun⟩ := not_posted_of_dryRunClaim hclaim.2
      rw [hdryRun, Bool.and_false, if_neg Bool.false_ne_true]
      have hspec := @recordFailedReview_spec course redactSecrets head s true hruns (errors.errorMessage error)
      rw [hposted, hdryRun, Bool.and_false, Bool.or_false, if_neg Bool.false_ne_true] at hspec
      exact hspec
    · rw [if_neg hclaim]
      split
      · rfl
      · refine retried_of_handling hruns rfl ?_ ?_
        · intro h
          exact absurd (Option.some.inj h) (error_ne_baseMergeOnly _ _)
        · intro row hstatus herror
          exact isRetried_of_cooldown hstatus (herror.trans (truthy_of_ne (error_ne_empty _ _)))

end Handling

/-! ## The whole run -/

section
variable (errors : ErrorPolicy) (course : Course) (caller : Caller) (head : HeadKey) (review : PostedReview) (s : State)

/-- The error that a catch block records: the direct caller recovers a lost receipt instead. -/
def handledError : Option ReviewError :=
  if handlerRuns course then
    match caller, thrown course head review s with
    | .direct _, some (.other message) => some (.other message)
    | .direct _, _ => none
    | .scheduler, error => error.or ((course.fault .completion).map .other)
    | .retry _ previousError _, error =>
      (error.or (((course.fault .completion).or (course.fault .restoreRead)).map .other)).map (retryError previousError)
  else none

def recovers : Bool :=
  match caller, thrown course head review s with
  | .direct _, some (.persistence _) =>
    (course.fault .priorRead).isNone && (recoveryRefusal course head review s).isNone
  | _, _ => false

/-- With this error recorded, or this recovery, no failure stands over the row that the run has to leave. -/
def settlesWith (preserve recovered : Bool) (handled : Option ReviewError) : Bool :=
  let recorded := (recordRefusal course head review s).isNone
  match handled with
  | some error =>
    if recorded then (errors.cooldown error).isNone
    else handlerLeaves errors preserve error (getProcessedReview s head)
  | none => recorded || recovered || !(getProcessedReview s head).any isRetried

def settles : Bool :=
  settlesWith errors course head review s (caller = .direct .approvedDryRun) (recovers course caller head review s)
    (handledError course caller head review s)

end

section Run

variable {errors : ErrorPolicy} {course : Course} {head : HeadKey} {review : PostedReview} {s s' t : State}
  {preserve : Bool} {error : ReviewError}

theorem settled_of_stands (h : Stands head review s t) :
    Settled review (getProcessedReview s head) (getProcessedReview t head) := by
  obtain ⟨row, hrow, hposted⟩ := h
  refine ⟨Or.inr ⟨row, hrow, hposted⟩, ?_⟩
  rw [hrow, Option.any_some]
  exact not_isRetried_of_posted hposted.posted

theorem settled_iff_of_same (h : getProcessedReview t head = getProcessedReview s head) :
    Settled review (getProcessedReview s head) (getProcessedReview t head) ↔
      (!(getProcessedReview s head).any isRetried) = true := by
  rw [h, Bool.not_eq_true']
  exact ⟨fun hsettled => hsettled.2, fun hretried => ⟨Or.inl rfl, hretried⟩⟩

theorem not_settled_of_retried (h : (getProcessedReview t head).any isRetried = true) :
    ¬Settled review (getProcessedReview s head) (getProcessedReview t head) := by
  rintro ⟨-, hretried⟩
  rw [h] at hretried
  cases hretried

theorem not_isRetried_of_leaves (h : handlerLeaves errors preserve error (getProcessedReview s head) = true) :
    (!(getProcessedReview s head).any isRetried) = true := by
  unfold handlerLeaves at h
  cases hrow : getProcessedReview s head with
  | none => rfl
  | some row =>
    rw [hrow] at h
    have hstatus : row.status = .posted ∨ row.status = .dryRun := by
      cases hcooldown : errors.cooldown error with
      | none =>
        rw [hcooldown] at h
        simp only [isPosted, Option.any_some, Bool.or_eq_true, Bool.and_eq_true, decide_eq_true_eq] at h
        exact h.imp_right And.right
      | some cooldown =>
        rw [hcooldown] at h
        simp only [Option.any_some, Bool.and_eq_true, decide_eq_true_eq] at h
        exact Or.inr h.2
    rw [Option.any_some, Bool.not_eq_true']
    rcases hstatus with hposted | hdryRun
    · exact not_isRetried_of_posted hposted
    · exact not_isRetried_of_dryRun hdryRun

theorem handlerLeaves_of_stands (h : Stands head review s s') :
    handlerLeaves errors preserve error (getProcessedReview s' head) = (errors.cooldown error).isNone := by
  obtain ⟨row, hrow, hposted⟩ := h
  unfold handlerLeaves
  rw [hrow]
  cases errors.cooldown error with
  | none => simp [isPosted, hposted.posted]
  | some cooldown => simp [hposted.posted]

theorem settled_iff_unhandled (hsame : recordRefusal course head review s ≠ none → SameRows s t)
    (hstands : recordRefusal course head review s = none → Stands head review s t) :
    Settled review (getProcessedReview s head) (getProcessedReview t head) ↔
      ((recordRefusal course head review s).isNone || !(getProcessedReview s head).any isRetried) = true := by
  cases hrecord : recordRefusal course head review s with
  | none =>
    rw [Option.isNone_none, Bool.true_or]
    exact iff_of_true (settled_of_stands (hstands hrecord)) rfl
  | some cause =>
    rw [Option.isNone_some, Bool.false_or]
    exact settled_iff_of_same (getProcessedReview_of_same (hsame (by rw [hrecord]; exact nofun)) head)

theorem settled_iff_handled (hruns : handlerRuns course = true)
    (hsame : recordRefusal course head review s ≠ none → SameRows s s')
    (hstands : recordRefusal course head review s = none → Stands head review s s')
    (ht : ((handling (recordError head errors preserve error)).alone (course.exec errors.redactSecrets) s').2 = t) :
    Settled review (getProcessedReview s head) (getProcessedReview t head) ↔
      (if (recordRefusal course head review s).isNone then (errors.cooldown error).isNone
        else handlerLeaves errors preserve error (getProcessedReview s head)) = true := by
  have hspec := @recordError_spec course errors errors.redactSecrets head s' preserve error hruns
  rw [ht] at hspec
  cases hrecord : recordRefusal course head review s with
  | none =>
    rw [handlerLeaves_of_stands (hstands hrecord)] at hspec
    rw [Option.isNone_none, if_pos rfl]
    split at hspec
    · rename_i hnone
      subst hspec
      exact iff_of_true (settled_of_stands (hstands hrecord)) hnone
    · rename_i hsome
      exact iff_of_false (not_settled_of_retried hspec) hsome
  | some cause =>
    have hsame := getProcessedReview_of_same (hsame (by rw [hrecord]; exact nofun)) head
    rw [hsame] at hspec
    rw [Option.isNone_some, if_neg Bool.false_ne_true]
    split at hspec
    · rename_i hleaves
      subst hspec
      exact iff_of_true ((settled_iff_of_same hsame).mpr (not_isRetried_of_leaves hleaves)) hleaves
    · rename_i hwrites
      exact iff_of_false (not_settled_of_retried hspec) hwrites

theorem recordRefusal_of_persistence {cause : String} (h : thrown course head review s = some (.persistence cause)) :
    recordRefusal course head review s ≠ none := by
  intro hrecord
  unfold thrown at h
  rw [hrecord] at h
  dsimp only at h
  cases hlook : lookRefusal course head review s with
  | some e =>
    rw [hlook] at h
    dsimp only at h
    rw [other_getD] at h
    cases Option.some.inj h
  | none =>
    rw [hlook] at h
    obtain ⟨e, -, hother⟩ := Option.map_eq_some_iff.mp h
    cases hother

end Run

/-- A review that returns has stored its receipt. -/
theorem recordRefusal_of_returned {course : Course} {head : HeadKey} {review : PostedReview} {s : State}
    (h : thrown course head review s = none) : recordRefusal course head review s = none := by
  cases hrecord : recordRefusal course head review s with
  | none => rfl
  | some cause =>
    unfold thrown at h
    rw [hrecord] at h
    cases h

theorem direct_settles (errors : ErrorPolicy) (course : Course) (policy : RunOncePolicy) (head : HeadKey)
    (review : PostedReview) (s : State) :
    Settled review (getProcessedReview s head)
        (getProcessedReview (storeAfterPost errors course (.direct policy) head review s) head) ↔
      settles errors course (.direct policy) head review s = true := by
  obtain ⟨s', hrun, hsame, hstands⟩ := @reviewAfterPost_spec course errors.redactSecrets head review s
  unfold storeAfterPost Caller.runAfterPost settles settlesWith handledError recovers
  dsimp only
  rw [Prog.alone_attempt, hrun]
  cases hthrown : thrown course head review s with
  | none =>
    rw [ite_self, Bool.or_false]
    exact settled_iff_unhandled hsame hstands
  | some error =>
    cases error with
    | persistence cause =>
      have hrefused := recordRefusal_of_persistence hthrown
      obtain ⟨result, t, hrecover, hresult, hrecovered, hlost⟩ :=
        @recover_spec course errors.redactSecrets head review s s' (hsame hrefused) cause
      have hend (handler : PostProg Unit) : (((recoverPostedReviewReceiptForCurrentHead head review
          (preservedPriorBlockingRow review.plan (getProcessedReview s head)) (.persistence cause)).bind
            fun recovered => if recovered then .done () else handler).alone (course.exec errors.redactSecrets) s').2 =
          t := by
        cases result with
        | error e => rw [Prog.alone_bind_of_error _ hrecover]
        | ok recovered =>
          rw [Prog.alone_bind_of_ok _ hrecover]
          cases recovered with
          | true => rfl
          | false => exact absurd rfl hresult
      dsimp only [outcome]
      rw [hend, ite_self]
      obtain ⟨refused, hrecord⟩ := Option.ne_none_iff_exists'.mp hrefused
      rw [hrecord, Option.isNone_some, Bool.false_or]
      by_cases hrecovers : course.fault .priorRead = none ∧ recoveryRefusal course head review s = none
      · rw [hrecovers.1, hrecovers.2]
        exact iff_of_true (settled_of_stands (hrecovered hrecovers)) rfl
      · have hnot : ((course.fault .priorRead).isNone && (recoveryRefusal course head review s).isNone) = false := by
          rw [Bool.and_eq_false_iff]
          by_contra hboth
          rw [not_or, Bool.not_eq_false, Bool.not_eq_false, Option.isNone_iff_eq_none,
            Option.isNone_iff_eq_none] at hboth
          exact hrecovers hboth
        dsimp only
        rw [hnot, Bool.false_or]
        exact settled_iff_of_same (getProcessedReview_of_same (hlost hrecovers) head)
    | other message =>
      have hcaught : (recoverPostedReviewReceiptForCurrentHead head review
          (preservedPriorBlockingRow review.plan (getProcessedReview s head)) (.other message)).alone
            (course.exec errors.redactSecrets) s' = (.ok false, s') := rfl
      dsimp only [outcome]
      rw [Prog.alone_bind_of_ok _ hcaught, if_neg Bool.false_ne_true]
      cases hruns : handlerRuns course with
      | false =>
        rw [handling_stopped hruns, if_neg Bool.false_ne_true, Bool.or_false]
        exact settled_iff_unhandled hsame hstands
      | true =>
        have hpolicy : (decide (policy = .approvedDryRun) && !reviewWasAlreadyPosted (.other message)) =
            decide (Caller.direct policy = .direct .approvedDryRun) := by
          simp [reviewWasAlreadyPosted]
        rw [if_pos rfl, hpolicy]
        exact settled_iff_handled hruns hsame hstands rfl

/-- A caller that records every error, the lost receipt included; what it does behind the review leaves the row. -/
theorem recordingErrors_settles (errors : ErrorPolicy) (course : Course) (head : HeadKey) (review : PostedReview)
    (s : State) (tell : ReviewError → ReviewError) {behind : PostProg Unit} {fault : Option ReviewError}
    (hbehind : ∀ s', Stands head review s s' →
      behind.alone (course.exec errors.redactSecrets) s' = (outcome fault, s')) :
    Settled review (getProcessedReview s head) (getProcessedReview
        ((recordingErrors head errors tell ((reviewAfterPost head review (getProcessedReview s head)).bind fun _ =>
          behind)).alone (course.exec errors.redactSecrets) s).2 head) ↔
      settlesWith errors course head review s false false
        (if handlerRuns course then ((thrown course head review s).or fault).map tell else none) = true := by
  obtain ⟨s', hrun, hsame, hstands⟩ := @reviewAfterPost_spec course errors.redactSecrets head review s
  have hhandled (error : ReviewError) : Settled review (getProcessedReview s head) (getProcessedReview
        ((handling (recordError head errors false (tell error))).alone (course.exec errors.redactSecrets) s').2 head) ↔
      settlesWith errors course head review s false false
        (if handlerRuns course then some (tell error) else none) = true := by
    unfold settlesWith
    cases hruns : handlerRuns course with
    | false =>
      rw [handling_stopped hruns, if_neg Bool.false_ne_true]
      dsimp only
      rw [Bool.or_false]
      exact settled_iff_unhandled hsame hstands
    | true =>
      rw [if_pos rfl]
      exact settled_iff_handled hruns hsame hstands rfl
  unfold recordingErrors
  rw [Prog.alone_attempt]
  cases hthrown : thrown course head review s with
  | some error =>
    rw [hthrown] at hrun
    rw [Prog.alone_bind_of_error _ hrun]
    exact hhandled error
  | none =>
    rw [hthrown] at hrun
    have hstored : Stands head review s s' := hstands (recordRefusal_of_returned hthrown)
    rw [Prog.alone_bind_of_ok _ hrun, hbehind s' hstored]
    cases fault with
    | some error => exact hhandled error
    | none =>
      rw [Option.or_none, Option.map_none, ite_self]
      unfold settlesWith
      dsimp only
      rw [Bool.or_false]
      exact settled_iff_unhandled hsame hstands

theorem scheduler_settles (errors : ErrorPolicy) (course : Course) (head : HeadKey) (review : PostedReview)
    (s : State) :
    Settled review (getProcessedReview s head)
        (getProcessedReview (storeAfterPost errors course .scheduler head review s) head) ↔
      settles errors course .scheduler head review s = true := by
  have hbehind : ∀ s', Stands head review s s' →
      (asideAt .completion (.done ()) : PostProg Unit).alone (course.exec errors.redactSecrets) s' =
        (outcome ((course.fault .completion).map .other), s') := by
    intro s' _
    cases hfault : course.fault .completion with
    | some e => exact alone_asideAt_of_fault hfault
    | none => exact alone_asideAt_of_ok hfault
  have hsettles := recordingErrors_settles errors course head review s id hbehind
  rw [Option.map_id] at hsettles
  exact hsettles

theorem alone_afterRetry {course : Course} {redactSecrets : String → String} {head : HeadKey} {review : PostedReview}
    {s s' : State} (h : Stands head review s s') (previousStatus : ProcessedStatus) (previousError : Option String)
    (retryStatus : String) :
    (afterRetry head previousStatus previousError retryStatus).alone (course.exec redactSecrets) s' =
      (outcome (((course.fault .completion).or (course.fault .restoreRead)).map .other), s') := by
  obtain ⟨row, hrow, hposted⟩ := h
  unfold afterRetry
  cases hcompletion : course.fault .completion with
  | some e => exact alone_asideAt_of_fault hcompletion
  | none =>
    rw [alone_asideAt_of_ok hcompletion, Option.none_or]
    unfold restoreFailedRetryRowIfNeeded writing
    cases hread : course.fault .restoreRead with
    | some e => exact alone_storeAt_of_fault hread
    | none =>
      have hread : course.fault (restoreStep (.getProcessedReview head)) = none := hread
      have hisPosted : isPosted (some row) = true := by simp [isPosted, hposted.posted]
      rw [alone_storeAt_of_ok hread rfl, hrow]
      dsimp only
      rw [if_pos hisPosted]
      rfl

theorem retry_settles (errors : ErrorPolicy) (course : Course) (previousStatus : ProcessedStatus)
    (previousError : Option String) (retryStatus : String) (head : HeadKey) (review : PostedReview) (s : State) :
    Settled review (getProcessedReview s head) (getProcessedReview
        (storeAfterPost errors course (.retry previousStatus previousError retryStatus) head review s) head) ↔
      settles errors course (.retry previousStatus previousError retryStatus) head review s = true :=
  recordingErrors_settles errors course head review s (retryError previousError) fun _ h =>
    alone_afterRetry h previousStatus previousError retryStatus

/-- Whatever throws after the POST, the row is left or posted, and is not retried, exactly where no catch block records
the error over it: under the direct caller a lost receipt is recovered, under the scheduler and on a retry it is a
failure. -/
theorem posted_review_settles (errors : ErrorPolicy) (course : Course) (caller : Caller) (head : HeadKey)
    (review : PostedReview) (s : State) :
    Settled review (getProcessedReview s head)
        (getProcessedReview (storeAfterPost errors course caller head review s) head) ↔
      settles errors course caller head review s = true := by
  cases caller with
  | direct policy => exact direct_settles errors course policy head review s
  | scheduler => exact scheduler_settles errors course head review s
  | retry previousStatus previousError retryStatus =>
    exact retry_settles errors course previousStatus previousError retryStatus head review s

/-! ## A locked database -/

def plainErrors : ErrorPolicy where
  redactSecrets := id
  cooldown := fun _ => none
  errorMessage := fun error _ => error.message

def lockedOnRecord : Course where
  now := fun _ => 0
  fault := fun step => if step = .record .first then some "database is locked" else none

def commentReview : PostedReview where
  plan := ⟨.comment, none, none, none⟩
  htmlUrl := some "https://github.com/acme/widgets/pull/7#pullrequestreview-1"
  fallbackUrl := "https://github.com/acme/widgets/pull/7#pullrequestreview-1"
  authorization := none
  commandCommentId := none
  claimId := "c1"
  ensemble := false
  liveAfterPost := .ok ⟨none, none⟩
  liveAfterRecovery := .ok ⟨none, none⟩

example : settles plainErrors lockedOnRecord (.direct .normal) ⟨"acme/widgets", 7, "a1"⟩ commentReview {} = true := by
  decide

example : settles plainErrors lockedOnRecord (.retry .failed (some "timeout") "reviewed") ⟨"acme/widgets", 7, "a1"⟩
    commentReview {} = false := by
  decide

/-- Under the scheduler the head of the posted review ends as failed. -/
theorem scheduler_fails_posted_review : ¬ ∀ (errors : ErrorPolicy) (course : Course) (caller : Caller) (head : HeadKey)
    (review : PostedReview) (s : State), Settled review (getProcessedReview s head)
      (getProcessedReview (storeAfterPost errors course caller head review s) head) := by
  intro h
  refine not_settled_of_retried ?_
    (h plainErrors lockedOnRecord .scheduler ⟨"acme/widgets", 7, "a1"⟩ commentReview {})
  decide

end NeonDiff.Worker
