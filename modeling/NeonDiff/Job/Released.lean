import NeonDiff.Job.Model

/-! # No stranded lease -/

namespace NeonDiff.Job

open NeonDiff.Lib NeonDiff.Store

section
variable {E α β : Type}

/-! ## The store under the run -/

/-- The row is in no worker's hands. -/
structure IsReleased (row : ReviewQueueJobRecord) : Prop where
  inactive : row.isActive = false
  noLease : row.leaseId = none
  noExpiry : row.leaseExpiresAt = none

def Present (jobId : String) (s : State) : Prop := ∃ row, s.jobs.toTable.find? jobId = some row

def Released (jobId : String) (s : State) : Prop := ∃ row, s.jobs.toTable.find? jobId = some row ∧ IsReleased row

/-- The calls during which other processes may do anything to the job. -/
def isLong : JobCall E → Bool
  | .getPull .. | .reviewPull _ | .continueReviewPull _ => true
  | _ => false

/-- The rows of jobs are never deleted, and the shorter calls are over before another process leases the job again. -/
structure Undisturbed (jobId : String) (act : JobCall E) (s s' : State) : Prop where
  present : Present jobId s → Present jobId s'
  released : isLong act = false → Released jobId s → Released jobId s'

/-- A call of the run: the update of the job is the store's own, and any other call may get any answer. -/
def jobStep (redactSecrets : String → String) (jobId : String) (s : State) :
    (act : JobCall E) → JobAnswer act → State → Prop
  | .updateReviewQueueJobState input now, answer, s' =>
    match Store.updateReviewQueueJobState redactSecrets input now s with
    | .ok (_, updated) => answer = .ok () ∧ s' = updated
    | .error message => answer = .error message ∧ s' = s
  | act, _, s' => Undisturbed jobId act s s'

/-! ## What one update does -/

def releases (input : UpdateJobInput) : Bool :=
  input.clearsLease && input.state ≠ .leased && input.state ≠ .running

theorem releases_of_default {input : UpdateJobInput} (hclear : input.clearLease = none) (hleased : input.state ≠ .leased)
    (hrunning : input.state ≠ .running) : releases input = true := by
  unfold releases UpdateJobInput.clearsLease
  rw [hclear]
  cases hstate : input.state <;> simp_all [ReviewQueueJobState.isTerminal]

theorem isReleased_updatedJob {redactSecrets : String → String} {input : UpdateJobInput} {now : Int}
    {row : ReviewQueueJobRecord} (h : releases input = true) :
    IsReleased (updatedJob redactSecrets input now row) := by
  simp only [releases, Bool.and_eq_true, decide_eq_true_eq] at h
  obtain ⟨⟨hclears, hleased⟩, hrunning⟩ := h
  constructor
  · simp [ReviewQueueJobRecord.isActive, updatedJob, hleased, hrunning]
  · simp [updatedJob, hclears]
  · simp [updatedJob, hclears]

theorem update_of_present (redactSecrets : String → String) {input : UpdateJobInput} (now : Int) {s : State}
    {row : ReviewQueueJobRecord} (h : s.jobs.toTable.find? input.jobId = some row) :
    ∃ s', Store.updateReviewQueueJobState redactSecrets input now s = .ok ((), s') ∧
      s'.jobs.toTable.find? input.jobId = some (updatedJob redactSecrets input now row) := by
  refine ⟨_, by unfold Store.updateReviewQueueJobState; rw [h], ?_⟩
  rw [JobTable.find?_updateJobs, h, Option.map_some]
  have hid : row.jobId = input.jobId := Table.key_of_find? h
  rw [if_pos hid]

/-! ## What the run knows of the job -/

/-- What the run knows of the job's row; `broken` is a run that the store has thrown at. -/
inductive Hold where
  | held | free | broken
  deriving DecidableEq

def Hold.after (hold : Hold) : (act : JobCall E) → JobAnswer act → Hold
  | .updateReviewQueueJobState input _, answer =>
    match hold, answer with
    | .broken, _ => .broken
    | _, .ok () => if releases input then .free else .held
    | _, .error _ => .broken
  | act, _ => if hold = .free && isLong act then .held else hold

def onlyJob (jobId : String) : JobCall E → Prop
  | .updateReviewQueueJobState input _ => input.jobId = jobId
  | _ => True

def holdDiscipline (E : Type) (jobId : String) : Discipline (JobAnswer (E := E)) Hold where
  allows _ act := onlyJob jobId act
  next hold act answer := hold.after act answer

/-- What the run knows is so. -/
def Hold.Tells (jobId : String) (s : State) : Hold → Prop
  | .held => Present jobId s
  | .free => Released jobId s
  | .broken => False

theorem Released.present {jobId : String} {s : State} (h : Released jobId s) : Present jobId s := by
  obtain ⟨row, hrow, _⟩ := h
  exact ⟨row, hrow⟩

theorem Hold.Tells.present {jobId : String} {s : State} {hold : Hold} (h : hold.Tells jobId s) : Present jobId s := by
  cases hold with
  | held => exact h
  | free => exact Released.present h
  | broken => cases h

theorem Hold.Tells.update {redactSecrets : String → String} {jobId : String} {s s' : State} {hold : Hold}
    {input : UpdateJobInput} {now : Int} {answer : Except String Unit} (h : hold.Tells jobId s)
    (hid : input.jobId = jobId)
    (hstep : jobStep redactSecrets jobId s (.updateReviewQueueJobState input now : JobCall E) answer s') :
    (hold.after (.updateReviewQueueJobState input now : JobCall E) answer).Tells jobId s' := by
  subst hid
  obtain ⟨row, hrow⟩ := h.present
  obtain ⟨updated, hupdate, hfind⟩ := update_of_present redactSecrets now hrow
  simp only [jobStep, hupdate] at hstep
  obtain ⟨rfl, rfl⟩ := hstep
  have hafter : hold.after (.updateReviewQueueJobState input now : JobCall E) (.ok ()) =
      if releases input then .free else .held := by
    cases hold with
    | broken => cases h
    | held => rfl
    | free => rfl
  rw [hafter]
  split
  · rename_i hreleases
    exact ⟨_, hfind, isReleased_updatedJob hreleases⟩
  · exact ⟨_, hfind⟩

theorem Hold.Tells.undisturbed {jobId : String} {s s' : State} {hold : Hold} {act : JobCall E}
    (h : hold.Tells jobId s) (hstep : Undisturbed jobId act s s') :
    (if hold = .free && isLong act then .held else hold : Hold).Tells jobId s' := by
  cases hold with
  | held => exact hstep.present h
  | free =>
    cases hlong : isLong act with
    | true => exact hstep.present (Released.present h)
    | false => exact hstep.released hlong h
  | broken => cases h

theorem Hold.Tells.step {redactSecrets : String → String} {jobId : String} (hold : Hold) (s : State) (act : JobCall E)
    (answer : JobAnswer act) (s' : State) (h : hold.Tells jobId s) (hallowed : onlyJob jobId act)
    (hstep : jobStep redactSecrets jobId s act answer s') : (hold.after act answer).Tells jobId s' := by
  cases act
  case updateReviewQueueJobState input now => exact h.update hallowed hstep
  all_goals exact h.undisturbed hstep

/-! ## How a part of the run ends -/

/-- Wherever it starts, and whatever the answers, the program updates no other job and ends in `Q`. -/
def Ends (jobId : String) (Q : Hold → Except (Thrown E) α → Hold → Prop) (p : JobProg E α) : Prop :=
  ∀ hold, Follows (holdDiscipline E jobId) hold (Q hold) p

/-- It returns, and what the run knows stays. -/
def Quietly (hold : Hold) (outcome : Except (Thrown E) α) (after : Hold) : Prop :=
  (∃ a, outcome = .ok a) ∧ after = hold

def Steadily (_ : Hold) (outcome : Except (Thrown E) α) (after : Hold) : Prop := after = .broken ∨ ∃ a, outcome = .ok a

/-- It returns with the job free, unless the store throws. -/
def Freeing (_ : Hold) (outcome : Except (Thrown E) α) (after : Hold) : Prop :=
  after = .broken ∨ ((∃ a, outcome = .ok a) ∧ after = .free)

def FreeOnReturn (_ : Hold) (outcome : Except (Thrown E) α) (after : Hold) : Prop :=
  after = .broken ∨ ∀ a, outcome = .ok a → after = .free

/-- It returns with the job free, or the evidence of a failed review could not be written. -/
def Settled (_ : Hold) (outcome : Except (Thrown E) α) (after : Hold) : Prop :=
  after = .broken ∨ match outcome with
    | .ok _ => after = .free
    | .error e => ∃ cause, e = .evidence cause

def Anyhow (_ : Hold) (_ : Except (Thrown E) α) (_ : Hold) : Prop := True

section
variable {jobId : String} {Q : Hold → Except (Thrown E) α → Hold → Prop} {R : Hold → Except (Thrown E) β → Hold → Prop}
variable {p : JobProg E α} {f : α → JobProg E β}

theorem Ends.mono {Q' : Hold → Except (Thrown E) α → Hold → Prop} (h : Ends jobId Q p)
    (hQ : ∀ hold outcome after, Q hold outcome after → Q' hold outcome after) : Ends jobId Q' p :=
  fun hold => (h hold).mono fun outcome after => hQ hold outcome after

theorem Ends.bind (hp : Ends jobId Q p)
    (hok : ∀ hold a after, Q hold (.ok a) after → Follows (holdDiscipline E jobId) after (R hold) (f a))
    (herror : ∀ hold e after, Q hold (.error e) after → R hold (.error e) after) : Ends jobId R (p.bind f) := by
  intro hold
  refine follows_bind.mpr ((hp hold).mono ?_)
  intro outcome after hQ
  cases outcome with
  | ok a => exact hok hold a after hQ
  | error e => exact herror hold e after hQ

theorem Ends.quiet_bind (hp : Ends jobId Quietly p) (hf : ∀ a, Ends jobId R (f a)) : Ends jobId R (p.bind f) := by
  refine hp.bind ?_ ?_
  · rintro hold a after ⟨_, rfl⟩
    exact hf a _
  · rintro hold e after ⟨⟨a, ha⟩, _⟩
    cases ha

theorem Ends.anyhow_bind (hp : Ends jobId Anyhow p) (hf : ∀ a, Ends jobId FreeOnReturn (f a)) :
    Ends jobId FreeOnReturn (p.bind f) := by
  refine hp.bind ?_ ?_
  · intro hold a after _
    exact hf a after
  · intro hold e after _
    exact .inr nofun

theorem Ends.steady_bind {post : Except (Thrown E) β → Hold → Prop} (hp : Ends jobId Steadily p)
    (hbroken : ∀ e, post (.error e) .broken) (hf : ∀ a, Ends jobId (fun _ => post) (f a)) :
    Ends jobId (fun _ => post) (p.bind f) := by
  refine hp.bind ?_ ?_
  · intro hold a after _
    exact hf a after
  · rintro hold e after (rfl | ⟨a, ha⟩)
    · exact hbroken e
    · cases ha

theorem Ends.bind_quiet (hp : Ends jobId Freeing p) (hf : ∀ a, Ends jobId Quietly (f a)) :
    Ends jobId Freeing (p.bind f) := by
  refine hp.bind ?_ ?_
  · rintro hold a after hfree
    refine (hf a after).mono ?_
    rintro outcome last ⟨hreturns, rfl⟩
    rcases hfree with rfl | ⟨_, rfl⟩
    · exact .inl rfl
    · exact .inr ⟨hreturns, rfl⟩
  · rintro hold e after (rfl | ⟨⟨a, ha⟩, _⟩)
    · exact .inl rfl
    · cases ha

theorem Ends.catch {handler : Thrown E → JobProg E α} (hp : Ends jobId FreeOnReturn p)
    (hhandler : ∀ e, Ends jobId Settled (handler e)) : Ends jobId Settled (p.tryCatch handler) := by
  intro hold
  refine follows_tryCatch.mpr ((hp hold).mono ?_)
  intro outcome after hafter
  cases outcome with
  | ok a =>
    rcases hafter with rfl | hfree
    · exact .inl rfl
    · exact .inr (hfree a rfl)
  | error e => exact hhandler e after

theorem Freeing.settled {hold after : Hold} {outcome : Except (Thrown E) α} (h : Freeing hold outcome after) :
    Settled hold outcome after := by
  rcases h with hbroken | ⟨⟨a, rfl⟩, hfree⟩
  · exact .inl hbroken
  · exact .inr hfree

theorem Ends.settled (h : Ends jobId Freeing p) : Ends jobId Settled p := h.mono fun _ _ _ => Freeing.settled

theorem Ends.freeOnReturn (h : Ends jobId Freeing p) : Ends jobId FreeOnReturn p := by
  refine h.mono ?_
  rintro hold outcome after (hbroken | ⟨_, hfree⟩)
  · exact .inl hbroken
  · exact .inr fun _ _ => hfree

theorem Ends.steadily (h : Ends jobId Quietly p) : Ends jobId Steadily p :=
  h.mono fun _ _ _ hquiet => .inr hquiet.1

theorem Ends.anyhow (h : Ends jobId Q p) : Ends jobId Anyhow p := h.mono fun _ _ _ _ => trivial

theorem Ends.ite {c : Prop} [Decidable c] {p q : JobProg E α} (hp : Ends jobId Q p) (hq : Ends jobId Q q) :
    Ends jobId Q (if c then p else q) := by
  split
  · exact hp
  · exact hq

theorem quiet_done (a : α) : Ends jobId Quietly (.done a : JobProg E α) := fun _ => ⟨⟨a, rfl⟩, rfl⟩

def IsQuiet : JobCall E → Prop
  | .updateReviewQueueJobState .. => False
  | act => isLong act = false

theorem quiet_call {act : JobCall E} {k : JobAnswer act → JobProg E α} (hact : IsQuiet act)
    (hk : ∀ answer, Ends jobId Quietly (k answer)) : Ends jobId Quietly (.call act k) := by
  intro hold
  have hallowed : onlyJob jobId act := by
    cases act
    case updateReviewQueueJobState input now => exact hact.elim
    all_goals trivial
  have hlong : isLong act = false := by
    cases act
    case updateReviewQueueJobState input now => exact hact.elim
    all_goals exact hact
  have hkeep : (if hold = .free && isLong act then .held else hold : Hold) = hold := by simp [hlong]
  have hafter : ∀ answer, hold.after act answer = hold := by
    intro answer
    cases act
    case updateReviewQueueJobState input now => exact hact.elim
    all_goals exact hkeep
  refine ⟨hallowed, fun answer => ?_⟩
  rw [show (holdDiscipline E jobId).next hold act answer = hold from hafter answer]
  exact hk answer hold

theorem quiet_ask {act : JobCall E} (hact : IsQuiet act) : Ends jobId Quietly (ask act) := quiet_call hact quiet_done

theorem quiet_ask_bind {act : JobCall E} {f : JobAnswer act → JobProg E β} (hact : IsQuiet act)
    (hf : ∀ answer, Ends jobId R (f answer)) : Ends jobId R ((ask act).bind f) :=
  (quiet_ask hact).quiet_bind hf

theorem Ends.onlyIf {c : Bool} {p : JobProg E Unit} (hp : Ends jobId Quietly p) : Ends jobId Quietly (onlyIf c p) :=
  Ends.ite hp (quiet_done _)

theorem quiet_getProcessedReview (head : HeadKey) : Ends jobId Quietly (getProcessedReview head : JobProg E Processed) :=
  quiet_ask rfl

theorem update_ends {input : UpdateJobInput} {now : Int} (hid : input.jobId = jobId) :
    Ends jobId (fun _ outcome after => after = .broken ∨
      ((∃ a, outcome = .ok a) ∧ after = if releases input then .free else .held))
      (updateReviewQueueJobState input now : JobProg E Unit) := by
  intro hold
  refine ⟨hid, ?_⟩
  intro answer
  cases answer with
  | error message => cases hold <;> exact .inl rfl
  | ok _ =>
    cases hold with
    | broken => exact .inl rfl
    | held => exact .inr ⟨⟨(), rfl⟩, rfl⟩
    | free => exact .inr ⟨⟨(), rfl⟩, rfl⟩

theorem freeing_update {input : UpdateJobInput} {now : Int} (hid : input.jobId = jobId)
    (hclear : input.clearLease = none) (hleased : input.state ≠ .leased) (hrunning : input.state ≠ .running) :
    Ends jobId Freeing (updateReviewQueueJobState input now : JobProg E Unit) := by
  refine (update_ends hid).mono ?_
  rw [releases_of_default hclear hleased hrunning]
  exact fun _ _ _ h => h

theorem steady_update {input : UpdateJobInput} {now : Int} (hid : input.jobId = jobId) :
    Ends jobId Steadily (updateReviewQueueJobState input now : JobProg E Unit) :=
  (update_ends hid).mono fun _ _ _ h => h.imp_right And.left

end

/-! ## Readiness, sessions and comments keep quiet -/

section
variable {jobId : String} {input : JobInput E} {pull : PullRequestSummary} {now : Int}

theorem quiet_readiness {repo : String} {readinessState : ReviewReadinessState} {reason : String}
    {event : Option ReviewEvent} {reviewUrl : Option String} :
    Ends jobId Quietly (recordReadinessTransition repo pull readinessState reason now event reviewUrl : JobProg E Unit) :=
  quiet_ask rfl

theorem quiet_shouldMark {job : ReviewQueueJobRecord} :
    Ends jobId Quietly (shouldMarkJobReviewing job : JobProg E Bool) := by
  unfold shouldMarkJobReviewing
  refine Ends.ite (quiet_done _) ?_
  exact quiet_ask_bind rfl fun _ => quiet_done _

theorem quiet_session {jobState : ReviewerSessionJobState} {status : Option ProcessedStatus} :
    Ends jobId Quietly (updateReviewerSessionJobFromQueueStatus input now jobState status) := by
  unfold updateReviewerSessionJobFromQueueStatus
  exact Ends.ite (quiet_done _) (quiet_ask rfl)

theorem quiet_sessionAfterStatus {status : ReviewPullResult} :
    Ends jobId Quietly (updateReviewerSessionJobAfterReviewStatus input status now) := by
  unfold updateReviewerSessionJobAfterReviewStatus
  cases status
  case skipped_processed =>
    refine (quiet_getProcessedReview _).quiet_bind fun processed => ?_
    exact Ends.ite quiet_session quiet_session
  all_goals exact quiet_session

theorem quiet_post {comment : StatusComment} : Ends jobId Quietly (postReviewStatusComment input comment) := by
  unfold postReviewStatusComment
  refine Ends.ite (quiet_done _) (Ends.ite (quiet_done _) (Ends.ite (quiet_done _) ?_))
  split
  · exact quiet_done _
  · refine quiet_call rfl fun answer => ?_
    cases answer <;> exact quiet_done _

theorem quiet_comment {comment : StatusComment} : Ends jobId Quietly (syncReviewStatusComment input pull comment) := by
  unfold syncReviewStatusComment
  refine Ends.ite (quiet_done _) ?_
  refine quiet_post.quiet_bind fun result => ?_
  exact Ends.ite (quiet_ask rfl) (quiet_done _)

theorem quiet_settleComment : Ends jobId Quietly (settleBaseMergeOnlyStatusComment input pull now) := by
  unfold settleBaseMergeOnlyStatusComment
  refine Ends.ite (quiet_done _) ?_
  refine (quiet_getProcessedReview _).quiet_bind fun processed => ?_
  split
  · exact quiet_done _
  · refine (quiet_getProcessedReview _).quiet_bind fun anchor => ?_
    split
    · exact quiet_done _
    · split
      · exact quiet_done _
      · refine quiet_call rfl fun answer => ?_
        cases answer with
        | error e => exact quiet_done _
        | ok comments => exact Ends.ite (quiet_post.quiet_bind fun _ => quiet_done _) (quiet_done _)

theorem quiet_commentForResult {status : ReviewPullResult} :
    Ends jobId Quietly (syncReviewStatusCommentForReviewResult input pull status now) := by
  unfold syncReviewStatusCommentForReviewResult
  refine (quiet_getProcessedReview _).quiet_bind fun processed => ?_
  refine Ends.ite ?_ ?_
  · refine Ends.ite (quiet_done _) ?_
    refine quiet_settleComment.quiet_bind fun result => ?_
    exact Ends.ite (quiet_ask rfl) (quiet_done _)
  · split
    · exact quiet_done _
    · exact quiet_comment

theorem quiet_readinessForResult {status : ReviewPullResult} :
    Ends jobId Quietly (syncReadinessForReviewResult input pull status now) := by
  unfold syncReadinessForReviewResult
  have hconsumption : Ends jobId Quietly (consumptionForResult input pull status) :=
    Ends.ite (quiet_ask rfl) (quiet_done _)
  have hreadiness : Ends jobId Quietly (readinessForResult input pull status) :=
    Ends.ite (quiet_ask rfl) (quiet_done _)
  refine hconsumption.quiet_bind fun authorization => ?_
  refine Ends.ite (quiet_done _) ?_
  refine (quiet_getProcessedReview _).quiet_bind fun processed => ?_
  split
  · exact quiet_done _
  · exact hreadiness.quiet_bind fun existing => quiet_readiness

theorem quiet_onReviewStarted {deferStatus : Bool} :
    Ends jobId Quietly (onReviewStarted input pull deferStatus now) := by
  unfold onReviewStarted
  refine Ends.ite (Ends.ite ?_ quiet_comment) (quiet_done _)
  exact quiet_comment.quiet_bind fun _ => quiet_comment

theorem quiet_deferComments : Ends jobId Quietly (deferAutomaticStatusComments input pull) := by
  unfold deferAutomaticStatusComments
  refine Ends.ite (quiet_done _) ?_
  exact quiet_ask_bind rfl fun _ => quiet_done _

theorem quiet_deferStatus : Ends jobId Quietly (deferStatusComments input pull) :=
  Ends.ite (quiet_done _) quiet_deferComments

theorem quiet_startAfterReview {status : ReviewPullResult} {started : Bool} {start : JobProg E Unit}
    (hstart : Ends jobId Quietly start) : Ends jobId Quietly (startAfterReview input pull status started start) := by
  unfold startAfterReview
  refine Ends.ite (quiet_done _) ?_
  exact (quiet_getProcessedReview _).quiet_bind fun _ => hstart.onlyIf

theorem quiet_headPolicy : Ends jobId Quietly (processedHeadPolicyForQueueJob input pull) := by
  unfold processedHeadPolicyForQueueJob
  refine Ends.ite (quiet_done _) ?_
  exact (quiet_getProcessedReview _).quiet_bind fun _ => quiet_done _

/-! ## Every status frees the job -/

theorem reviewQueueJobState_idle (status : Option ProcessedStatus) (error : Option String) :
    reviewQueueJobStateForProcessedStatus status error ≠ .leased ∧
      reviewQueueJobStateForProcessedStatus status error ≠ .running := by
  unfold reviewQueueJobStateForProcessedStatus
  split
  · exact ⟨nofun, nofun⟩
  · split
    · exact ⟨nofun, nofun⟩
    · split <;> exact ⟨nofun, nofun⟩

theorem freeing_providerDeferred {error : Option (Thrown E)} :
    Ends input.jobId Freeing (markQueueJobProviderDeferredFromProcessed input pull now error) := by
  unfold markQueueJobProviderDeferredFromProcessed
  refine (quiet_getProcessedReview _).quiet_bind fun processed => ?_
  refine quiet_ask_bind rfl fun repoCooldown => ?_
  exact freeing_update rfl rfl nofun nofun

theorem freeing_afterReviewStatus {status : ReviewPullResult} :
    Ends input.jobId Freeing (updateQueueJobAfterReviewStatus input pull status now) := by
  unfold updateQueueJobAfterReviewStatus
  cases status
  case reviewed | reviewed_command =>
    refine (quiet_getProcessedReview _).quiet_bind fun processed => ?_
    cases hdryRun : input.dryRun <;> exact freeing_update rfl rfl nofun nofun
  case posted_stale_head | posted_head_unverified | skipped_closed | skipped_context_budget =>
    refine (quiet_getProcessedReview _).quiet_bind fun processed => ?_
    exact freeing_update rfl rfl nofun nofun
  case skipped_provider_cooldown => exact freeing_providerDeferred
  case skipped_processed =>
    refine (quiet_getProcessedReview _).quiet_bind fun processed => ?_
    refine Ends.ite freeing_providerDeferred ?_
    have hidle := reviewQueueJobState_idle processed.status processed.error
    exact freeing_update rfl rfl hidle.1 hidle.2
  case skipped_license_gate =>
    refine quiet_ask_bind rfl fun readiness => ?_
    exact freeing_update rfl rfl nofun nofun
  all_goals exact freeing_update rfl rfl nofun nofun

/-! ## The exits -/

theorem freeing_retire {retirement : Retirement} (hterminal : retirement.state.isTerminal = true) :
    Ends input.jobId Freeing (retireBeforeReview input pull now retirement) := by
  unfold retireBeforeReview
  have hidle : retirement.state ≠ .leased ∧ retirement.state ≠ .running := by
    constructor <;> intro h <;> rw [h] at hterminal <;> cases hterminal
  refine (freeing_update rfl rfl hidle.1 hidle.2).bind_quiet fun _ => ?_
  refine quiet_readiness.quiet_bind fun _ => ?_
  refine quiet_session.quiet_bind fun _ => ?_
  exact quiet_comment.quiet_bind fun _ => quiet_done _

theorem freeing_failed {errorMessage : String} :
    Ends input.jobId Freeing (updateReviewQueueJobState
      { jobId := input.jobId, state := .failed, lastError := some errorMessage } now : JobProg E Unit) :=
  freeing_update rfl rfl nofun nofun

theorem freeing_failRefetch {errorMessage : String} : Ends input.jobId Freeing (failRefetch input now errorMessage) := by
  unfold failRefetch
  refine freeing_failed.bind_quiet fun _ => ?_
  refine quiet_readiness.quiet_bind fun _ => ?_
  refine quiet_session.quiet_bind fun _ => ?_
  exact Ends.ite (quiet_comment.quiet_bind fun _ => quiet_done _) (quiet_done _)

theorem freeing_exitWithStatus {status : ReviewPullResult} :
    Ends input.jobId Freeing (exitWithStatus input pull now status) := by
  unfold exitWithStatus
  refine freeing_afterReviewStatus.bind_quiet fun _ => ?_
  exact quiet_sessionAfterStatus.quiet_bind fun _ => quiet_done _

theorem freeing_deferReview {sessionId : Option String} {error : Thrown E} :
    Ends input.jobId Freeing (deferReview input sessionId pull error now) := by
  unfold deferReview
  refine freeing_providerDeferred.bind_quiet fun _ => ?_
  refine quiet_readiness.quiet_bind fun _ => ?_
  refine quiet_comment.quiet_bind fun _ => ?_
  exact quiet_session.quiet_bind fun _ => quiet_done _

theorem freeing_failReview {sessionId : Option String} {errorMessage : String} :
    Ends input.jobId Freeing (failReview input sessionId pull now errorMessage) := by
  unfold failReview
  refine freeing_failed.bind_quiet fun _ => ?_
  refine quiet_readiness.quiet_bind fun _ => ?_
  refine quiet_comment.quiet_bind fun _ => ?_
  exact quiet_session.quiet_bind fun _ => quiet_done _

theorem settled_catchReviewError {sessionId : Option String} {error : Thrown E} :
    Ends input.jobId Settled (catchReviewError input sessionId pull error) := by
  unfold catchReviewError
  refine quiet_ask_bind rfl fun failureNow => ?_
  refine quiet_ask_bind rfl fun deferred => ?_
  refine Ends.ite freeing_deferReview.settled ?_
  intro hold
  refine ⟨trivial, fun answer => ?_⟩
  cases answer with
  | error e => exact .inr ⟨e, rfl⟩
  | ok errorMessage => exact freeing_failReview.settled _

/-! ## The review -/

theorem anyhow_endReview {outcome : Except E ReviewPullResult} : Ends jobId Anyhow (endReview outcome) := by
  cases outcome <;> exact fun _ => trivial

theorem Ends.anyhow_then {p : JobProg E α} {f : α → JobProg E β} (hp : Ends jobId Anyhow p)
    (hf : ∀ a, Ends jobId Anyhow (f a)) : Ends jobId Anyhow (p.bind f) :=
  hp.bind (fun _ a after _ => hf a after) fun _ _ _ _ => trivial

theorem anyhow_reviewPull {reviewInput : ReviewPullInput} {started : Bool} {start : JobProg E Unit}
    (hstart : Ends jobId Quietly start) : Ends jobId Anyhow (reviewPull reviewInput started start) := by
  intro hold
  refine ⟨trivial, fun progress => ?_⟩
  cases progress with
  | settled outcome => exact (anyhow_endReview.anyhow_then fun _ => (quiet_done _).anyhow) _
  | callsOnReviewStarted =>
    refine Ends.anyhow_then hstart.onlyIf.anyhow (fun _ => ?_) _
    intro hold
    refine ⟨trivial, fun outcome => ?_⟩
    exact (anyhow_endReview.anyhow_then fun _ => (quiet_done _).anyhow) _

theorem freeOnReturn_reviewLeasedJob {sessionId : Option String} {deferStatus : Bool} :
    Ends input.jobId FreeOnReturn (reviewLeasedJob input sessionId pull deferStatus now) := by
  unfold reviewLeasedJob
  refine quiet_headPolicy.quiet_bind fun policy => ?_
  refine (anyhow_reviewPull quiet_onReviewStarted).anyhow_bind fun ⟨status, started⟩ => ?_
  refine (quiet_startAfterReview quiet_onReviewStarted).quiet_bind fun _ => ?_
  refine quiet_ask_bind rfl fun completionNow => ?_
  refine (freeing_afterReviewStatus.bind_quiet fun _ => ?_).freeOnReturn
  refine quiet_readinessForResult.quiet_bind fun _ => ?_
  refine quiet_commentForResult.quiet_bind fun _ => ?_
  exact quiet_sessionAfterStatus.quiet_bind fun _ => quiet_done _

/-! ## The run -/

theorem steady_ensureSession :
    Ends input.jobId Steadily (ensureReviewerSessionForLeasedJob input now) := by
  unfold ensureReviewerSessionForLeasedJob
  refine Ends.ite (quiet_done _).steadily (Ends.ite (quiet_done _).steadily ?_)
  refine quiet_ask_bind rfl fun assigned => ?_
  split
  · exact (steady_update rfl).steady_bind (fun _ => .inl rfl) fun _ => (quiet_done _).steadily
  · exact (quiet_done _).steadily

theorem settled_runAdmittedJob : Ends input.jobId Settled (runAdmittedJob input pull now) := by
  unfold runAdmittedJob
  refine steady_ensureSession.steady_bind (fun _ => .inl rfl) fun sessionId => ?_
  refine quiet_session.quiet_bind fun _ => ?_
  refine quiet_deferStatus.quiet_bind fun deferStatus => ?_
  refine quiet_onReviewStarted.onlyIf.quiet_bind fun _ => ?_
  exact freeOnReturn_reviewLeasedJob.catch fun e => settled_catchReviewError

theorem settled_runFetchedJob : Ends input.jobId Settled (runFetchedJob input pull now) := by
  unfold runFetchedJob
  refine Ends.ite freeing_exitWithStatus.settled ?_
  refine Ends.ite (freeing_retire rfl).settled ?_
  refine Ends.ite (freeing_retire rfl).settled ?_
  refine quiet_ask_bind rfl fun blocked => ?_
  refine Ends.ite freeing_exitWithStatus.settled ?_
  exact Ends.ite (freeing_retire rfl).settled settled_runAdmittedJob

theorem settled_runLeasedQueueJob (input : JobInput E) : Ends input.jobId Settled (runLeasedQueueJob input) := by
  unfold runLeasedQueueJob
  refine quiet_ask_bind rfl fun now => ?_
  refine (steady_update rfl).steady_bind (fun _ => .inl rfl) fun _ => ?_
  refine quiet_shouldMark.quiet_bind fun reviewing => ?_
  refine quiet_readiness.onlyIf.quiet_bind fun _ => ?_
  intro hold
  refine ⟨trivial, fun answer => ?_⟩
  cases answer with
  | error e => exact freeing_failRefetch.settled _
  | ok pull => exact settled_runFetchedJob _

end

/-- A run that returns leaves its job with no worker and no lease; it returns unless the evidence of a failed review
cannot be written. -/
theorem runLeasedQueueJob_strands_no_lease (redactSecrets : String → String) (input : JobInput E) (s s' : State)
    (outcome : Except (Thrown E) QueueJobResult) (hjob : Present input.jobId s)
    (hrun : Runs (jobStep redactSecrets input.jobId) (runLeasedQueueJob input) s outcome s') :
    (∀ result, outcome = .ok result → Released input.jobId s') ∧
      ∀ e, outcome = .error e → ∃ cause, e = .evidence cause := by
  obtain ⟨hold, hsettled, htells⟩ := Follows.of_runs (I := fun hold s => Hold.Tells input.jobId s hold)
    (fun hold s act answer s' h hallowed hstep => Hold.Tells.step hold s act answer s' h hallowed hstep)
    (settled_runLeasedQueueJob input .held) hjob hrun
  rcases hsettled with rfl | hsettled
  · exact htells.elim
  · constructor
    · rintro result rfl
      obtain rfl : hold = .free := hsettled
      exact htells
    · rintro e rfl
      exact hsettled

end

/-! ## A review that throws -/

def brokenReviewJob : ReviewQueueJobRecord where
  jobId := "q"
  attemptId := "automatic:o/r#1@h:base=b"
  source := .automatic
  lane := .background
  repo := "o/r"
  org := "o"
  pullNumber := 1
  headSha := "h"
  baseSha := some "b"
  priority := 50
  state := .leased
  leaseId := some "l"
  leaseExpiresAt := some 900000
  createdAt := 0
  updatedAt := 0

def brokenReviewState : State where
  jobs := { rows := [brokenReviewJob], nodup := by decide, attempts := by decide }

def brokenReviewInput : JobInput String where
  dryRun := false
  statusCommentsEnabled := true
  hasStatusCommentApi := true
  canPost := true
  botLogin := "neondiff[bot]"
  privateRepoAllowed := true
  admits _ := true
  isPublicRepoAuthorBlocked _ := false
  isRoutedToUntrustedProvider _ := false
  baseMergeOnlySkipEnabled := true
  baseMergeOnlySkipExcludeRepos := []
  reviewerSessionsEnabled := false
  zcodeProviderId := none
  zcodeModel := none
  toLowerCase := id
  message := id
  buildReviewStatusMarker _ := some "marker"
  buildReviewStatusComment _ := some ("marker", "body")
  parseReviewStatusCommentState _ := none
  providerCooldownFromError _ _ := none
  job := brokenReviewJob

/-- The pull is fetched, the review throws, and so does every comment. -/
def brokenReviewAnswer : State → (act : JobCall String) → JobAnswer act × State
  | s, .clock => ((1000 : Int), s)
  | s, .updateReviewQueueJobState input now =>
    match Store.updateReviewQueueJobState id input now s with
    | .ok (_, updated) => (.ok (), updated)
    | .error message => (.error message, s)
  | s, .getReviewReadiness _ => (none, s)
  | s, .recordReviewReadiness _ => ((), s)
  | s, .updateReviewerSessionJobState _ => ((), s)
  | s, .assignReviewerSessionJob _ => (none, s)
  | s, .getProcessedReview _ => (none, s)
  | s, .getActiveRepoProviderCooldown .. => (none, s)
  | s, .getReviewEventAuthorizationConsumption _ => (none, s)
  | s, .getBaseMergeOnlyAnchor .. => (none, s)
  | s, .recordPublicRepoAuthorGateSkip .. => (false, s)
  | s, .recordProviderRateLimitCooldownIfNeeded .. => (false, s)
  | s, .recordFailedReview .. => (.ok "boom", s)
  | s, .getPull .. => (.ok (pullForQueueJobWithoutLive brokenReviewJob), s)
  | s, .listIssueComments .. => (.error "bad gateway", s)
  | s, .upsertIssueComment .. => (.error "bad gateway", s)
  | s, .onStatusCommentFailure => ((), s)
  | s, .reviewPull _ => (.settled (.error "boom"), s)
  | s, .continueReviewPull _ => (.error "boom", s)

theorem jobStep_brokenReviewAnswer (s : State) (act : JobCall String) :
    jobStep id "q" s act (brokenReviewAnswer s act).1 (brokenReviewAnswer s act).2 := by
  cases act
  case updateReviewQueueJobState input now =>
    simp only [jobStep, brokenReviewAnswer]
    cases Store.updateReviewQueueJobState id input now s <;> exact ⟨rfl, rfl⟩
  all_goals exact ⟨id, fun _ => id⟩

theorem runLeasedQueueJob_strands_no_lease_of_broken_review :
    Released "q" ((runLeasedQueueJob brokenReviewInput).alone brokenReviewAnswer brokenReviewState).2 :=
  (runLeasedQueueJob_strands_no_lease id brokenReviewInput brokenReviewState _ _ ⟨brokenReviewJob, by decide⟩
    (runs_alone jobStep_brokenReviewAnswer _ _)).1 .failed (by decide +kernel)

end NeonDiff.Job
