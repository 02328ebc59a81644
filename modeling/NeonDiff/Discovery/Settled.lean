import NeonDiff.Discovery.Queued
import NeonDiff.Store.Changes

/-! # What the status of a pull says of the store -/

namespace NeonDiff.Discovery

open NeonDiff.Lib NeonDiff.Lib.JsText NeonDiff.Store

/-! ## Statuses -/

def ReadinessIs (head : HeadKey) (state : ReviewReadinessState) (s : State) : Prop :=
  ∃ row, s.readiness.find? head = some row ∧ row.state = state

def HasIncident (head : HeadKey) (s : State) : Prop :=
  ∃ row, s.consumptions.find? (ledgerKey head) = some row ∧ (openIncident row).isSome = true

section
variable (settings : ScanSettings) (pull : OpenPull)

def Means : EnqueueStatus → State → Prop
  | .closed_retired, s => Job.isClosedPull pull.toPullRequestSummary = true ∧
      ∀ j ∈ s.jobs.rows, OfPull settings pull j.head → isWaiting j = false
  | .skipped_draft, s => (settings.skipDrafts && pull.draft) = true ∧ ReadinessIs (settings.headOf pull) .skipped s
  | .skipped_canary, s => settings.isCanaryAllowed pull.number = false ∧ ReadinessIs (settings.headOf pull) .skipped s
  | .skipped_processed, s => hasProcessed s (settings.headOf pull) = true ∨ HasIncident (settings.headOf pull) s
  | .skipped_capacity, s => hasProcessed s (settings.headOf pull) = true ∨
      ReadinessIs (settings.headOf pull) .providerDeferred s
  | .enqueued, s | .already_queued, s => ∃ j ∈ s.jobs.rows, j.head = settings.headOf pull ∧ j.state.isTerminal = false
  | .provider_deferred, s => ∃ j ∈ s.jobs.rows, j.head = settings.headOf pull ∧ j.state = .providerDeferred
  | .skipped_finishing_touch_draft, s | .skipped_stale_head, s =>
      ∃ j ∈ s.jobs.rows, j.head = settings.headOf pull ∧ j.state = .commandRecorded

/-- The pull was looked at for its head. -/
def EnqueueStatus.isExamined : EnqueueStatus → Bool
  | .closed_retired | .skipped_draft | .skipped_canary => false
  | .enqueued | .already_queued | .skipped_processed | .skipped_capacity | .skipped_finishing_touch_draft
  | .skipped_stale_head | .provider_deferred => true

/-- A command without a review leaves the queued jobs of older heads alone. -/
def PullAnswers.supersedes {head : HeadKey} (answers : PullAnswers head) : Bool :=
  match answers.decision with
  | .none => true
  | .act _ shouldReview => shouldReview

/-- What a call leaves of its pull. -/
structure Settled (answers : PullAnswers (settings.headOf pull)) (status : EnqueueStatus) (s : State) : Prop where
  means : Means settings pull status s
  board : status ≠ .closed_retired → Board settings pull s
  live : EnqueueStatus.isExamined status = true → PullAnswers.supersedes answers = true → OnlyLive settings pull s

end

section
variable {settings : ScanSettings} {pull : OpenPull} {answers : PullAnswers (settings.headOf pull)}
  {s s' s'' : State} {d : Desk}

/-! ## Writes of readiness rows only -/

variable (settings pull) in
/-- Only readiness rows of the pull are written. -/
structure Still (s s' : State) : Prop extends Aside settings pull s s' where
  sameJobs : s'.jobs = s.jobs
  sameProcessed : s'.processed = s.processed
  sameConsumptions : s'.consumptions = s.consumptions

theorem Still.refl (s : State) : Still settings pull s s := ⟨.refl s, rfl, rfl, rfl⟩

theorem Still.trans (h : Still settings pull s s') (h' : Still settings pull s' s'') : Still settings pull s s'' :=
  ⟨h.toAside.trans h'.toAside, h'.sameJobs.trans h.sameJobs, h'.sameProcessed.trans h.sameProcessed,
    h'.sameConsumptions.trans h.sameConsumptions⟩

theorem Still.retired (h : Still settings pull s s') : Retired settings pull s s' :=
  .of_aside h.toAside h.sameJobs h.sameProcessed h.sameConsumptions

theorem Still.grows (h : Still settings pull s s') : Grows settings pull answers s s' := .of_aside h.toAside h.sameJobs

theorem Still.hasProcessed (h : Still settings pull s s') (head : HeadKey) :
    hasProcessed s' head = hasProcessed s head := by
  unfold Store.hasProcessed
  rw [h.sameProcessed]

theorem transition_ends {input : ReadinessInput} (hhead : input.head = settings.headOf pull) :
    Ends (recordReadinessTransition settings input) d
      (fun _ d' => Still settings pull d.store d'.store ∧ ReadinessIs (settings.headOf pull) input.state d'.store)
      (fun d' => Still settings pull d.store d'.store) := by
  refine (recordReadinessTransition_ends input d).mono ?_ ?_
  · intro _ d' h
    rw [hhead] at h
    exact ⟨⟨h.aside ofPull_headOf (.inl rfl), h.jobs, h.processed, h.consumptions⟩, h.row⟩
  · rintro d' rfl
    exact .refl _

theorem look_bind {α β : Type} {f : State → α} {k : α → Scan β} {Q : β → Desk → Prop} {R : Desk → Prop} :
    Ends (look f >>= k) d Q R ↔ Ends (k (f d.store)) d Q R := Iff.rfl

theorem backfillProcessed_ends :
    Ends (backfillReadinessFromProcessedHead settings pull) d (fun _ d' => Still settings pull d.store d'.store)
      (fun d' => Still settings pull d.store d'.store) := by
  refine look_bind.mpr ?_
  cases getProcessedReview d.store (settings.headOf pull) with
  | none => exact .refl _
  | some processed =>
    refine look_bind.mpr (Ends.ite (fun _ => .refl _) fun _ => ?_)
    exact (transition_ends rfl).mono (fun _ _ h => h.1) fun _ h => h

theorem enqueueReadiness_ends (command : Option Commands.ReviewCommand) :
    Ends (recordReadinessForEnqueue settings pull command) d (fun _ d' => Still settings pull d.store d'.store)
      (fun d' => Still settings pull d.store d'.store) := by
  cases command with
  | none => exact (transition_ends rfl).mono (fun _ _ h => h.1) fun _ h => h
  | some command => exact (transition_ends rfl).mono (fun _ _ h => h.1) fun _ h => h

/-! ## Enqueueing -/

variable (settings pull answers) in
/-- What an enqueue of a scan comes to, in a store whose jobs are named after their heads. -/
inductive Enqueued (command : Option Commands.ReviewCommand) (assignsSession : Bool) (d : Desk) :
    Queue.EnqueueResult → Desk → Prop where
  | already (row : ReviewQueueJobRecord) (hrow : row ∈ d.store.jobs.rows) (hhead : row.head = settings.headOf pull)
      (hopen : row.state.isTerminal = false) :
      Enqueued command assignsSession d (.alreadyQueued (mapReviewQueueJobRow row)) d
  | inserted (job : ReviewQueueJobRecord) (d' : Desk)
      (h : Inserted (enqueueInput settings pull answers command assignsSession) d.store job d'.store) :
      Enqueued command assignsSession d (.enqueued (mapReviewQueueJobRow job)) d'

theorem enqueueReviewJob_ends (command : Option Commands.ReviewCommand) (assignsSession : Bool)
    (hclean : Clean (settings.headOf pull)) (hnamed : Named d.store) :
    Ends (enqueueReviewJob settings pull answers command assignsSession) d
      (Enqueued settings pull answers command assignsSession d) (fun d' => d' = d) := by
  have h : EnqueueEnds (enqueueInput settings pull answers command assignsSession) d.store
      ((Queue.enqueueReviewQueueJob (enqueueInput settings pull answers command assignsSession) answers.ids
        settings.now).alone (fun s act => act.exec settings.texts s) d.store) := enqueueReviewQueueJob_ends rfl
  unfold Ends enqueueReviewJob callReview
  revert h
  generalize (Queue.enqueueReviewQueueJob (enqueueInput settings pull answers command assignsSession) answers.ids
    settings.now).alone (fun s act => act.exec settings.texts s) d.store = out
  intro h
  cases h with
  | refused e => rfl
  | already row hrow hopen hrowNamed =>
    obtain ⟨hrowClean, hrowHead⟩ := hnamed row hrow
    exact .already row hrow (head_of_namedAfter hrowHead hrowNamed hrowClean hclean) hopen
  | inserted job s' h => exact .inserted job { d with store := s' } h

theorem Enqueued.inserts {d' : Desk} {command : Option Commands.ReviewCommand} {assignsSession : Bool}
    {result : Queue.EnqueueResult} (h : Enqueued settings pull answers command assignsSession d result d')
    (hroom : HasRoom settings pull d.store) :
    ∃ job, Inserted (enqueueInput settings pull answers command assignsSession) d.store job d'.store ∧
      result = .enqueued (mapReviewQueueJobRow job) := by
  cases h with
  | already row hrow hhead hopen =>
    have hfinished := hroom.free row hrow hhead
    rw [hopen] at hfinished
    cases hfinished
  | inserted job d' h => exact ⟨job, h, rfl⟩

theorem Enqueued.grows {d' : Desk} {command : Option Commands.ReviewCommand} {assignsSession : Bool}
    {result : Queue.EnqueueResult} (h : Enqueued settings pull answers command assignsSession d result d')
    (hadmission : Admission settings pull answers d.store command) :
    Grows settings pull answers d.store d'.store ∧
      ∃ j ∈ d'.store.jobs.rows, j.head = settings.headOf pull ∧ j.state.isTerminal = false := by
  cases h with
  | already row hrow hhead hopen => exact ⟨.refl _, row, hrow, hhead, hopen⟩
  | inserted job d' h =>
    refine ⟨h.grows hadmission, job, ?_, h.head, ?_⟩
    · rw [h.rows]
      exact List.mem_append_right _ (List.mem_singleton_self _)
    · rw [h.state]
      rfl

/-! ## The branches that grow the queue -/

/-- What a branch behind the retirements comes to. -/
def Branch (settings : ScanSettings) (pull : OpenPull) (answers : PullAnswers (settings.headOf pull))
    (p : Scan EnqueueStatus) (d : Desk) : Prop :=
  Ends p d (fun status d' => Grows settings pull answers d.store d'.store ∧ Means settings pull status d'.store ∧
    EnqueueStatus.isExamined status = true) (fun d' => Grows settings pull answers d.store d'.store)

theorem ends_still {α : Type} {p : Scan α} {X : Desk → Prop} (hgrows : Grows settings pull answers s d.store)
    (hp : Ends p d (fun _ d' => Still settings pull d.store d'.store ∧ X d')
      (fun d' => Still settings pull d.store d'.store)) :
    Ends p d (fun _ d' => Grows settings pull answers s d'.store ∧ d'.store.jobs = d.store.jobs ∧ X d')
      (fun d' => Grows settings pull answers s d'.store) :=
  hp.mono (fun _ _ h => ⟨hgrows.then h.1.toAside h.1.sameJobs, h.1.sameJobs, h.2⟩)
    fun _ h => hgrows.then h.toAside h.sameJobs

theorem onlyIf_ask_ends {c : Bool} {a : Ask} {Q : PUnit → Desk → Prop} {R : Desk → Prop}
    (h : ∀ asks, Q ⟨⟩ { d with asks := asks }) : Ends (onlyIf c (ask a)) d Q R := by
  unfold onlyIf
  split
  · exact h _
  · exact h d.asks

theorem comment_ends {c : Bool} {a : Ask} {status : EnqueueStatus} (hgrows : Grows settings pull answers s d.store)
    (hmeans : Means settings pull status d.store) (hexamined : EnqueueStatus.isExamined status = true) :
    Ends (onlyIf c (ask a) >>= fun _ => (return status : Scan EnqueueStatus)) d
      (fun status d' => Grows settings pull answers s d'.store ∧ Means settings pull status d'.store ∧
        EnqueueStatus.isExamined status = true) (fun d' => Grows settings pull answers s d'.store) := by
  refine Ends.bind (Q := fun _ d' => d'.store = d.store) (onlyIf_ask_ends fun _ => rfl) ?_
  intro _ d' hstore
  rw [ends_pure, hstore]
  exact ⟨hgrows, hmeans, hexamined⟩

theorem means_of_queued (result : Queue.EnqueueResult)
    (h : ∃ j ∈ s.jobs.rows, j.head = settings.headOf pull ∧ j.state.isTerminal = false) :
    Means settings pull (EnqueueResult.status result) s ∧
      EnqueueStatus.isExamined (EnqueueResult.status result) = true := by
  cases result with
  | enqueued job => exact ⟨h, rfl⟩
  | alreadyQueued job => exact ⟨h, rfl⟩

theorem enqueueAutomatically_ends (hclean : Clean (settings.headOf pull)) (hnamed : Named d.store)
    (hdecision : answers.decision = .none) (hroom : HasRoom settings pull d.store) :
    Branch settings pull answers (enqueueAutomatically settings pull answers) d := by
  refine Ends.bind ((enqueueReviewJob_ends none true hclean hnamed).mono (fun _ _ h => h) fun _ h => h ▸ .refl _) ?_
  intro result t hresult
  have hadmission : Admission settings pull answers d.store none := ⟨hdecision, hroom⟩
  obtain ⟨hgrows, hqueued⟩ := hresult.grows hadmission
  refine Ends.bind (ends_still (X := fun _ => True) hgrows
    ((enqueueReadiness_ends none).mono (fun _ _ h => ⟨h, trivial⟩) fun _ h => h)) ?_
  rintro _ u ⟨hgrowsu, hjobs, -⟩
  rw [← hjobs] at hqueued
  obtain ⟨hmeans, hexamined⟩ := means_of_queued result hqueued
  exact look_bind.mpr (comment_ends hgrowsu hmeans hexamined)

theorem deferToCooldown_ends (cooldown : Job.RepoProviderCooldown) (hclean : Clean (settings.headOf pull))
    (hnamed : Named d.store) (hdecision : answers.decision = .none) (hroom : HasRoom settings pull d.store) :
    Branch settings pull answers (deferToCooldown settings pull answers cooldown) d := by
  refine Ends.bind ((enqueueReviewJob_ends none true hclean hnamed).mono (fun _ _ h => h) fun _ h => h ▸ .refl _) ?_
  intro result t hresult
  have hadmission : Admission settings pull answers d.store none := ⟨hdecision, hroom⟩
  obtain ⟨job, hinserted, rfl⟩ := hresult.inserts hroom
  refine Ends.bind ((updateReviewQueueJobState_ends _ t).mono (fun _ u h =>
    hinserted.updated hadmission (.refl _) rfl h rfl) fun u h => h ▸ hinserted.grows hadmission) ?_
  rintro _ u ⟨hgrows, hdeferred⟩
  refine Ends.bind (ends_still (X := fun _ => True) hgrows
    ((transition_ends rfl).mono (fun _ _ h => ⟨h.1, trivial⟩) fun _ h => h)) ?_
  rintro _ v ⟨hgrowsv, hjobs, -⟩
  rw [← hjobs] at hdeferred
  exact comment_ends hgrowsv hdeferred rfl

/-! ## Finishing touches and commands -/

theorem Confined.aside {head : HeadKey} {review : State → Except String Job.ReviewPullResult × State}
    (h : Confined head review) (hhead : head = settings.headOf pull) : Aside settings pull s (review s).2 where
  processed head' hother := h.processed s head' fun heq => hother (heq ▸ hhead ▸ ofPull_headOf)
  readiness head' hother := h.readiness s head' fun heq => hother (heq ▸ hhead ▸ ofPull_headOf)
  consumptions head' hother := h.consumptions s head' fun heq => hother (heq ▸ hhead ▸ ofPull_headOf)
  board head' hlive hon := by
    obtain ⟨row, hrow, hshown⟩ := hon
    rw [h.readiness s head' (hhead ▸ hlive)] at hrow
    exact ⟨row, hrow, hshown⟩

theorem callReview_ends {α : Type} {f : State → Except String α × State} {Q : α → Desk → Prop} {R : Desk → Prop}
    (hok : ∀ a, Q a { d with store := (f d.store).2 }) (herror : R { d with store := (f d.store).2 }) :
    Ends (callReview f) d Q R := by
  unfold Ends callReview
  rcases h : f d.store with ⟨out, s'⟩
  rw [h] at hok herror
  cases out with
  | ok a => exact hok a
  | error e => exact herror

theorem draftFinishingTouch_ends {command : Commands.ReviewCommand} {assignsSession : Bool} {t u : Desk}
    {result : Queue.EnqueueResult}
    (hresult : Enqueued settings pull answers (some command) assignsSession d result t)
    (hadmission : Admission settings pull answers d.store (some command))
    (hstill : Still settings pull t.store u.store) (hdrafts : PullAnswers.drafts answers = true) :
    Ends (draftFinishingTouch settings pull answers result) u
      (fun status d' => Grows settings pull answers d.store d'.store ∧ Means settings pull status d'.store ∧
        EnqueueStatus.isExamined status = true) (fun d' => Grows settings pull answers d.store d'.store) := by
  obtain ⟨hgrows, hqueued⟩ := hresult.grows hadmission
  have hgrowsu := hgrows.then hstill.toAside hstill.sameJobs
  cases hresult with
  | already row hrow hhead hopen =>
    rw [← hstill.sameJobs] at hqueued
    exact ⟨hgrowsu, hqueued, rfl⟩
  | inserted job t hinserted =>
    refine Ends.bind ((updateReviewQueueJobState_ends _ u).mono (fun _ v h =>
      hinserted.updated hadmission hstill.toAside hstill.sameJobs h rfl) fun v h => h ▸ hgrowsu) ?_
    rintro _ v ⟨hgrowsv, hrecorded⟩
    have hreview : Aside settings pull v.store (answers.reviewPull v.store).2 := answers.confined.aside rfl
    have hjobs := answers.confined.jobs v.store
    have hgrowsw := hgrowsv.reconciled hreview (hjobs.mono fun _ _ h => ⟨h, hdrafts⟩)
    -- the job of the touch is finished already, so the review leaves it
    obtain ⟨touch, htouch, hhead, hstate⟩ := hrecorded
    have hrecorded : ∃ j ∈ (answers.reviewPull v.store).2.jobs.rows, j.head = settings.headOf pull ∧
        j.state = .commandRecorded := by
      refine ⟨touch, hjobs.stays htouch fun j' h => ?_, hhead, hstate⟩
      have hopen := h.unfinished
      rw [hstate] at hopen
      cases hopen
    refine Ends.bind (callReview_ends (Q := fun _ d' => d'.store = (answers.reviewPull v.store).2)
      (fun _ => rfl) hgrowsw) ?_
    intro status w hstore
    rw [ends_pure, hstore]
    refine ⟨hgrowsw, ?_, ?_⟩ <;> split
    · exact hrecorded
    · exact hrecorded
    · rfl
    · rfl

theorem admitCommand_ends {command : Commands.ReviewCommand} {shouldReview : Bool}
    (hclean : Clean (settings.headOf pull)) (hnamed : Named d.store)
    (hdecision : answers.decision = .act command shouldReview) :
    Branch settings pull answers (admitCommand settings pull answers command shouldReview) d := by
  refine Ends.bind ((enqueueReviewJob_ends (some command) shouldReview hclean hnamed).mono (fun _ _ h => h)
    fun _ h => h ▸ .refl _) ?_
  intro result t hresult
  have hadmission : Admission settings pull answers d.store (some command) := by
    intro hnone
    rw [hdecision] at hnone
    cases hnone
  obtain ⟨hgrows, hqueued⟩ := hresult.grows hadmission
  refine Ends.bind (Q := fun _ u => u.store = t.store) (onlyIf_ask_ends fun _ => rfl) ?_
  intro _ u hstore
  refine Ends.bind ((enqueueReadiness_ends (some command)).mono (fun _ _ h => h)
    fun v h => hgrows.then (hstore ▸ h.toAside) (hstore ▸ h.sameJobs)) ?_
  intro _ v hstill
  rw [hstore] at hstill
  refine Ends.ite (fun htouch => draftFinishingTouch_ends hresult hadmission hstill ?_) fun _ => ?_
  · rw [PullAnswers.drafts, hdecision]
    exact htouch
  rw [← hstill.sameJobs] at hqueued
  obtain ⟨hmeans, hexamined⟩ := means_of_queued result hqueued
  exact comment_ends (hgrows.then hstill.toAside hstill.sameJobs) hmeans hexamined

/-! ## The branches that leave the queue alone -/

theorem change_bind {α : Type} {f : State → State} {k : PUnit → Scan α} {Q : α → Desk → Prop} {R : Desk → Prop} :
    Ends (change f >>= k) d Q R ↔ Ends (k ⟨⟩) { d with store := f d.store } Q R := Iff.rfl

theorem recordProcessed_aside {record : ProcessedReviewRecord} {now : Int}
    (hhead : record.head = settings.headOf pull) :
    Aside settings pull s (recordProcessed record now s) ∧
      hasProcessed (recordProcessed record now s) (settings.headOf pull) = true := by
  have hfind : ∀ head, (recordProcessed record now s).processed.find? head = _ :=
    find?_upsert_recordedRow record now s
  refine ⟨⟨?_, fun _ _ => rfl, fun _ _ => rfl, fun _ _ h => h⟩, ?_⟩
  · intro head hother
    rw [hfind, if_neg]
    rintro rfl
    exact hother (hhead ▸ ofPull_headOf)
  · unfold hasProcessed
    rw [hfind, if_pos hhead]
    rfl

theorem still_ends {p : Scan PUnit} {status : EnqueueStatus} (hgrows : Grows settings pull answers s d.store)
    (hp : Ends p d (fun _ d' => Still settings pull d.store d'.store ∧ Means settings pull status d'.store)
      (fun d' => Still settings pull d.store d'.store)) (hexamined : EnqueueStatus.isExamined status = true) :
    Ends (p >>= fun _ => (return status : Scan EnqueueStatus)) d
      (fun status d' => Grows settings pull answers s d'.store ∧ Means settings pull status d'.store ∧
        EnqueueStatus.isExamined status = true) (fun d' => Grows settings pull answers s d'.store) := by
  refine Ends.bind (ends_still hgrows hp) ?_
  rintro _ t ⟨hgrowst, -, hmeans⟩
  exact ⟨hgrowst, hmeans, hexamined⟩

theorem skipProcessedHead_ends (hprocessed : hasProcessed d.store (settings.headOf pull) = true)
    (hgrows : Grows settings pull answers s d.store) :
    Ends (skipProcessedHead settings pull) d
      (fun status d' => Grows settings pull answers s d'.store ∧ Means settings pull status d'.store ∧
        EnqueueStatus.isExamined status = true) (fun d' => Grows settings pull answers s d'.store) :=
  still_ends hgrows (backfillProcessed_ends.mono
    (fun _ _ h => ⟨h, .inl ((h.hasProcessed _).trans hprocessed)⟩) fun _ h => h) rfl

theorem skipBaselineHead_ends : Branch settings pull answers (skipBaselineHead settings pull) d := by
  refine change_bind.mpr ?_
  split
  · exact skipProcessedHead_ends ‹_› (.refl _)
  · exact skipProcessedHead_ends (recordProcessed_aside rfl).2 (.of_aside (recordProcessed_aside rfl).1 rfl)

theorem ask_bind {α : Type} {a : Ask} {k : PUnit → Scan α} {Q : α → Desk → Prop} {R : Desk → Prop} :
    Ends (ask a >>= k) d Q R ↔ Ends (k ⟨⟩) { d with asks := d.asks ++ [a] } Q R := Iff.rfl

theorem skipOverflow_ends : Branch settings pull answers (skipOverflow settings pull) d := by
  refine change_bind.mpr ?_
  refine Ends.bind (ends_still (.of_aside (recordProcessed_aside rfl).1 rfl) ((transition_ends rfl).mono
    (fun _ _ h => ⟨h.1, (h.1.hasProcessed _).trans (recordProcessed_aside rfl).2⟩) fun _ h => h)) ?_
  rintro _ t ⟨hgrows, -, hprocessed⟩
  exact ask_bind.mpr ⟨hgrows, .inl hprocessed, rfl⟩

theorem readinessIs_of_capacityDeferred (h : isCapacityDeferredReadiness (settings.headOf pull) s = true) :
    ReadinessIs (settings.headOf pull) .providerDeferred s := by
  unfold isCapacityDeferredReadiness at h
  cases hreadiness : getReviewReadiness s (settings.headOf pull) with
  | none =>
    rw [hreadiness] at h
    cases h
  | some readiness =>
    obtain ⟨row, hrow, rfl⟩ := Option.map_eq_some_iff.mp hreadiness
    rw [hreadiness] at h
    simp only [Option.any_some, Bool.and_eq_true, decide_eq_true_eq] at h
    exact ⟨row, hrow, h.1⟩

theorem deferOverflow_ends : Branch settings pull answers (deferOverflow settings pull) d := by
  refine look_bind.mpr (Ends.ite (fun hdeferred => ?_) fun _ => ?_)
  · exact ⟨.refl _, .inr (readinessIs_of_capacityDeferred hdeferred), rfl⟩
  · refine Ends.bind (ends_still (.refl _) (transition_ends rfl)) ?_
    rintro _ t ⟨hgrows, -, hdeferred⟩
    exact ask_bind.mpr ⟨hgrows, .inr hdeferred, rfl⟩

theorem admitHead_ends (hclean : Clean (settings.headOf pull)) (hnamed : Named d.store)
    (hdecision : answers.decision = .none)
    (hfree : ∀ j ∈ d.store.jobs.rows, j.head = settings.headOf pull → j.state.isTerminal = true) :
    Branch settings pull answers (admitHead settings pull answers) d := by
  refine look_bind.mpr (Ends.ite (fun _ => ?_) fun hcapacity => ?_)
  · exact Ends.ite (fun _ => skipOverflow_ends) fun _ => deferOverflow_ends
  · have hroom : HasRoom settings pull d.store := by
      refine ⟨hfree, ?_⟩
      simpa [hasRepoQueueCapacity] using hcapacity
    cases answers.repoCooldown with
    | some cooldown => exact deferToCooldown_ends cooldown hclean hnamed hdecision hroom
    | none => exact enqueueAutomatically_ends hclean hnamed hdecision hroom

theorem skipQueuedHead_ends {job : ReviewQueueJobRecord}
    (h : ∃ j ∈ d.store.jobs.rows, j.head = settings.headOf pull ∧ j.state.isTerminal = false) :
    Branch settings pull answers (skipQueuedHead settings pull job) d := by
  refine still_ends (.refl _) ((transition_ends rfl).mono (fun _ t ht => ⟨ht.1, ?_⟩) fun _ ht => ht) rfl
  rw [← ht.1.sameJobs] at h
  exact h

theorem passAuthorization_ends {processed : Option StoredProcessedReviewRecord} (hclean : Clean (settings.headOf pull))
    (hnamed : Named d.store) (hdecision : answers.decision = .none)
    (hprocessed : processed.isSome = true → hasProcessed d.store (settings.headOf pull) = true) :
    Branch settings pull answers (passAuthorization settings pull answers processed) d := by
  refine look_bind.mpr (Ends.ite (fun hknown => ?_) fun _ => look_bind.mpr ?_)
  · have hhas : hasProcessed d.store (settings.headOf pull) = true := by
      rcases Bool.or_eq_true _ _ |>.mp hknown with h | h
      · exact hprocessed h
      · exact h
    refine Ends.bind (ends_still (.refl _) (backfillProcessed_ends.mono
      (fun _ _ h => ⟨h, (h.hasProcessed _).trans hhas⟩) fun _ h => h)) ?_
    rintro _ t ⟨hgrows, -, hhas⟩
    exact ask_bind.mpr ⟨hgrows, .inl hhas, rfl⟩
  · cases hactive : getActiveQueueJobForHead (settings.headOf pull) d.store with
    | some job => exact skipQueuedHead_ends (getActiveQueueJobForHead_eq_some hactive)
    | none => exact admitHead_ends hclean hnamed hdecision (getActiveQueueJobForHead_eq_none hactive)

theorem unresolvedAuthorization_ends :
    Ends (unresolvedAuthorization settings pull) d
      (fun row d' => d' = d ∧
        ∀ r, row = some r → d.store.consumptions.find? (ledgerKey (settings.headOf pull)) = some r)
      (fun d' => d' = d) := by
  refine Ends.ite (fun _ => callStore_ends (fun row s' h => ?_) rfl) fun _ => ⟨rfl, fun r h => by cases h⟩
  unfold getReviewEventAuthorizationConsumption at h
  split at h
  · cases h
  · obtain ⟨rfl, rfl⟩ := Prod.mk.inj (Except.ok.inj h)
    exact ⟨rfl, fun r hr => hr⟩

theorem lookAtHead_ends {processed : Option StoredProcessedReviewRecord} (hclean : Clean (settings.headOf pull))
    (hnamed : Named d.store) (hdecision : answers.decision = .none)
    (hprocessed : processed.isSome = true → hasProcessed d.store (settings.headOf pull) = true) :
    Branch settings pull answers (lookAtHead settings pull answers processed) d := by
  refine Ends.bind (unresolvedAuthorization_ends.mono (fun _ _ h => h) fun _ h => h ▸ .refl _) ?_
  rintro authorization d' ⟨rfl, hconsumption⟩
  cases hopen : authorization.filter fun row => (openIncident row).isSome with
  | some row =>
    obtain ⟨hrow, hincident⟩ := Option.filter_eq_some_iff.mp hopen
    refine still_ends (.refl _) ((transition_ends rfl).mono (fun _ t ht => ⟨ht.1, .inr ⟨row, ?_, hincident⟩⟩)
      fun _ ht => ht) rfl
    rw [ht.1.sameConsumptions]
    exact hconsumption row hrow
  | none => exact passAuthorization_ends hclean hnamed hdecision hprocessed

/-! ## A whole call -/

/-- What a call comes to that looks at the head. -/
def Examines (settings : ScanSettings) (pull : OpenPull) (answers : PullAnswers (settings.headOf pull))
    (p : Scan EnqueueStatus) (d : Desk) : Prop :=
  Ends p d (fun status d' => Moves settings pull answers d.store d'.store ∧ Means settings pull status d'.store ∧
    EnqueueStatus.isExamined status = true ∧ (PullAnswers.supersedes answers = true → OnlyLive settings pull d'.store))
    (fun d' => Moves settings pull answers d.store d'.store)

theorem Grows.onlyLive (h : Grows settings pull answers s s') (hs : OnlyLive settings pull s) :
    OnlyLive settings pull s' := by
  intro j hj hof hwaiting
  obtain ⟨rows, hdrafted, hadded⟩ := h.rows
  have hj := mem_of_finishes (drafted_finishes hdrafted) hj (isTerminal_of_isWaiting hwaiting)
  rcases hadded with rfl | ⟨job, rfl, hadd⟩
  · exact hs j hj hof hwaiting
  · rw [List.mem_append, List.mem_singleton] at hj
    rcases hj with hj | rfl
    · exact hs j hj hof hwaiting
    · exact hadd.head

theorem superseding_ends {p : Scan EnqueueStatus}
    (hp : ∀ t : Desk, Retired settings pull d.store t.store → Branch settings pull answers p t) :
    Examines settings pull answers (superseding settings pull p) d := by
  refine Ends.bind ((retireSupersededQueueJobsForPull_ends d).mono (fun _ _ h => h) fun _ h => .of_retired h) ?_
  rintro _ t ⟨hretired, honly⟩
  refine (hp t hretired).mono ?_ fun u h => ⟨t.store, hretired, h⟩
  rintro status u ⟨hgrows, hmeans, hexamined⟩
  exact ⟨⟨t.store, hretired, hgrows⟩, hmeans, hexamined, fun _ => hgrows.onlyLive honly⟩

theorem enqueueCommand_ends {command : Commands.ReviewCommand} {shouldReview : Bool}
    (hclean : Clean (settings.headOf pull)) (hnamed : Named d.store)
    (hdecision : answers.decision = .act command shouldReview) :
    Examines settings pull answers (enqueueCommand settings pull answers command shouldReview) d := by
  cases shouldReview with
  | true =>
    exact superseding_ends fun t ht => admitCommand_ends hclean (ht.named hnamed) hdecision
  | false =>
    refine Ends.bind (Q := fun _ t => t = d) rfl ?_
    rintro _ t rfl
    refine (admitCommand_ends hclean hnamed hdecision).mono ?_ fun u h => ⟨_, .refl _, h⟩
    rintro status u ⟨hgrows, hmeans, hexamined⟩
    refine ⟨⟨_, .refl _, hgrows⟩, hmeans, hexamined, ?_⟩
    intro hsupersedes
    rw [PullAnswers.supersedes, hdecision] at hsupersedes
    cases hsupersedes

theorem hasProcessed_of_some (h : (getProcessedReview s (settings.headOf pull)).isSome = true) :
    hasProcessed s (settings.headOf pull) = true := by
  unfold getProcessedReview at h
  rw [Option.isSome_map] at h
  exact h

theorem discoverEligible_ends (hclean : Clean (settings.headOf pull)) (hnamed : Named d.store) :
    Examines settings pull answers (discoverEligible settings pull answers) d := by
  have hkeeps : ∀ t : Desk, Retired settings pull d.store t.store →
      (getProcessedReview d.store (settings.headOf pull)).isSome = true →
      hasProcessed t.store (settings.headOf pull) = true := by
    intro t ht h
    unfold hasProcessed
    rw [ht.sameProcessed]
    exact hasProcessed_of_some h
  refine look_bind.mpr (look_bind.mpr ?_)
  refine Ends.ite (fun _ => superseding_ends fun t _ => skipBaselineHead_ends) fun _ => ?_
  refine Ends.ite (fun hbaseline => superseding_ends fun t ht => skipProcessedHead_ends (hkeeps t ht ?_) (.refl _))
    fun _ => ?_
  · cases hprocessed : getProcessedReview d.store (settings.headOf pull) with
    | none => simp [hprocessed] at hbaseline
    | some row => rfl
  unfold passBaseline
  cases hdecision : answers.decision with
  | act command shouldReview => exact enqueueCommand_ends hclean hnamed hdecision
  | none => exact superseding_ends fun t ht => lookAtHead_ends hclean (ht.named hnamed) hdecision (hkeeps t ht)

theorem enqueuePullIfEligible_ends (hclean : Clean (settings.headOf pull)) (hnamed : Named d.store) :
    Ends (enqueuePullIfEligible settings pull answers) d
      (fun status d' => Moves settings pull answers d.store d'.store ∧ Settled settings pull answers status d'.store)
      (fun d' => Moves settings pull answers d.store d'.store) := by
  refine Ends.ite (fun hclosed => ?_) fun _ => ?_
  · refine Ends.bind ((retireQueuedJobsForClosedPull_ends d).mono (fun _ _ h => h) fun _ h => .of_retired h) ?_
    rintro _ t ⟨hretired, hdone⟩
    exact ⟨.of_retired hretired, ⟨hclosed, hdone⟩, fun h => absurd rfl h, fun h => by cases h⟩
  refine Ends.bind ((markSupersededReadinessRowsForPull_ends d).mono (fun _ _ h => h) fun _ h => .of_retired h) ?_
  rintro _ t ⟨hretired, hboard⟩
  have hskip : ∀ (reason : String) (status : EnqueueStatus), EnqueueStatus.isExamined status = false →
      (∀ u : Desk, ReadinessIs (settings.headOf pull) .skipped u.store → Means settings pull status u.store) →
      Ends (skipWithReadiness settings pull reason status) t
        (fun status d' => Moves settings pull answers d.store d'.store ∧ Settled settings pull answers status d'.store)
        (fun d' => Moves settings pull answers d.store d'.store) := by
    intro reason status hexamined hmeans
    refine Ends.bind ((transition_ends rfl).mono (fun _ _ h => h) fun _ h => .of_retired (hretired.trans h.retired)) ?_
    rintro _ u ⟨hstill, hskipped⟩
    refine ⟨.of_retired (hretired.trans hstill.retired), hmeans u hskipped, fun _ => hstill.keeps_board hboard, ?_⟩
    intro h
    rw [hexamined] at h
    cases h
  refine Ends.ite (fun hdraft => hskip _ _ rfl fun u h => ⟨hdraft, h⟩) fun _ => ?_
  refine Ends.ite (fun hcanary => hskip _ _ rfl fun u h => ⟨by simpa using hcanary, h⟩) fun _ => ?_
  refine (discoverEligible_ends hclean (hretired.named hnamed)).mono ?_ fun _ h => .after_retired hretired h
  rintro status u ⟨hmoves, hmeans, hexamined, honly⟩
  exact ⟨.after_retired hretired hmoves, hmeans, fun _ => hmoves.aside.keeps_board hboard, fun _ => honly⟩

end

end NeonDiff.Discovery
