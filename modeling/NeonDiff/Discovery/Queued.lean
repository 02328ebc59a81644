import NeonDiff.Discovery.Names
import NeonDiff.Discovery.Steps

/-! # What a scan adds to the queue -/

namespace NeonDiff.Discovery

open NeonDiff.Lib NeonDiff.Lib.JsText NeonDiff.Store

/-! ## One enqueue -/

/-- The inserted job: of the head, queued, and named after it. -/
structure Inserted (input : EnqueueInput) (s : State) (job : ReviewQueueJobRecord) (s' : State) : Prop where
  rows : s'.jobs.rows = s.jobs.rows ++ [job]
  fresh : ∀ j ∈ s.jobs.rows, j.jobId ≠ job.jobId
  head : job.head = input.head
  source : job.source = input.source
  state : job.state = .queued
  named : NamedAfter input.head job.attemptId
  processed : s'.processed = s.processed
  readiness : s'.readiness = s.readiness
  consumptions : s'.consumptions = s.consumptions

/-- What an enqueue by itself comes to. -/
inductive EnqueueEnds (input : EnqueueInput) (s : State) : Except String Queue.EnqueueResult × State → Prop where
  | refused (e : String) : EnqueueEnds input s (.error e, s)
  | already (row : ReviewQueueJobRecord) (hrow : row ∈ s.jobs.rows) (hopen : row.state.isTerminal = false)
      (hnamed : NamedAfter input.head row.attemptId) :
      EnqueueEnds input s (.ok (.alreadyQueued (mapReviewQueueJobRow row)), s)
  | inserted (job : ReviewQueueJobRecord) (s' : State) (h : Inserted input s job s') :
      EnqueueEnds input s (.ok (.enqueued (mapReviewQueueJobRow job)), s')

section
variable {texts : Queue.Texts} {input : EnqueueInput} {ids : Queue.EnqueueIds} {now : Int} {s : State}

theorem exec_getByAttempt (attemptId : String) :
    (Queue.QueueCall.getByAttempt attemptId).exec texts s = (getReviewQueueJobByAttemptId s attemptId, s) := rfl

theorem exec_getActiveRetry (attemptId : String) :
    (Queue.QueueCall.getActiveRetry attemptId).exec texts s =
      (getActiveReviewQueueRetryJobByAttemptId s attemptId, s) := rfl

theorem exec_insert (job : ReviewQueueJobRecord) :
    (Queue.QueueCall.insert job).exec texts s = Queue.settle (insertReviewQueueJob job s) s := rfl

theorem insert_ends {attemptId : String} (hnamed : NamedAfter input.head attemptId) :
    EnqueueEnds input s ((Prog.call (.insert (input.job ids.jobId.text attemptId now)) (Queue.orThrow fun _ =>
      .done (.enqueued (mapReviewQueueJobRow (input.job ids.jobId.text attemptId now)))) :
        Queue.QueueProg Queue.EnqueueResult).alone (fun s act => act.exec texts s) s) := by
  rw [Prog.alone_call, exec_insert]
  unfold insertReviewQueueJob
  cases hinsert : s.jobs.insertJob? (input.job ids.jobId.text attemptId now) with
  | none => exact .refused _
  | some jobs =>
    obtain ⟨hrows, hfresh, -⟩ := JobTable.insertJob?_eq_some hinsert
    exact .inserted _ _ ⟨hrows, hfresh, rfl, rfl, rfl, hnamed, rfl, rfl, rfl⟩

theorem activeRetry_eq_some {attemptId : String} {job : ReviewQueueJobRecord}
    (h : getActiveReviewQueueRetryJobByAttemptId s attemptId = some job) :
    ∃ row ∈ s.jobs.rows, row.state.isTerminal = false ∧ Queue.IsRetryOf attemptId row.attemptId ∧
      job = mapReviewQueueJobRow row := by
  obtain ⟨row, hlatest, rfl⟩ := Option.map_eq_some_iff.mp h
  have hmem := List.mem_insertionSort _ |>.mp (List.mem_of_head? hlatest)
  obtain ⟨hrow, hretry⟩ := List.mem_filter.mp hmem
  simp only [Bool.and_eq_true, Bool.not_eq_true'] at hretry
  exact ⟨row, hrow, hretry.2, hretry.1, rfl⟩

theorem enqueueReviewQueueJob_ends (hattempt : input.attemptId = none) :
    EnqueueEnds input s ((Queue.enqueueReviewQueueJob input ids now).alone (fun s act => act.exec texts s) s) := by
  unfold Queue.enqueueReviewQueueJob
  cases validateReviewQueueInput input.head input.priority input.commentId with
  | error e => exact .refused e
  | ok u =>
    dsimp only
    generalize hid : input.attemptId.getD (buildReviewQueueAttemptId input ids.manual.text) = attemptId
    rw [hattempt, Option.getD_none] at hid
    have hnamed : ∀ other, Queue.InFamily attemptId other → NamedAfter input.head other := fun other h =>
      ⟨input, ids.manual.text, rfl, hid ▸ h⟩
    rw [Prog.alone_call, exec_getByAttempt]
    cases hexisting : getReviewQueueJobByAttemptId s attemptId with
    | none => exact insert_ends (hnamed _ (.inl rfl))
    | some existing =>
      obtain ⟨row, hbyAttempt, rfl⟩ := Option.map_eq_some_iff.mp hexisting
      obtain ⟨hrow, hrowId⟩ := JobTable.byAttempt?_eq_some.mp hbyAttempt
      cases hopen : row.state.isTerminal with
      | false =>
        have hif : (!(mapReviewQueueJobRow row).state.isTerminal) = true := by
          rw [show (mapReviewQueueJobRow row).state = row.state from rfl, hopen]
          rfl
        simp only [hif, if_true, Prog.alone_done]
        exact .already row hrow hopen (hnamed _ (.inl hrowId))
      | true =>
        have hif : (!(mapReviewQueueJobRow row).state.isTerminal) = false := by
          rw [show (mapReviewQueueJobRow row).state = row.state from rfl, hopen]
          rfl
        simp only [hif, Bool.false_eq_true, if_false]
        rw [Prog.alone_call, exec_getActiveRetry]
        cases hretry : getActiveReviewQueueRetryJobByAttemptId s attemptId with
        | none => exact insert_ends (hnamed _ (.inr (by simp [Queue.IsRetryOf])))
        | some existingRetry =>
          obtain ⟨retry, hretryRow, hretryOpen, hisRetry, rfl⟩ := activeRetry_eq_some hretry
          exact .already retry hretryRow hretryOpen (hnamed _ (.inr hisRetry))

end

/-! ## Reading the queue -/

def countsAgainst (repo : String) (j : ReviewQueueJobRecord) : Bool :=
  j.repo = repo && !j.state.isTerminal && j.state ≠ .blockedOnProof

section
variable {s : State}

theorem queuedHeads_eq (repo : String) : queuedHeads repo s = s.jobs.rows.countP (countsAgainst repo) := by
  have hsorted : s.jobs.rows.countP (countsAgainst repo) = (orderJobs s.jobs.rows).countP (countsAgainst repo) :=
    ((List.perm_insertionSort listedBefore s.jobs.rows).countP_eq _).symm
  rw [hsorted]
  unfold queuedHeads unfinishedJobs listReviewQueueJobs
  rw [← List.countP_eq_length_filter, List.countP_filter, List.countP_map]
  refine List.countP_congr ?_
  intro j _
  simp only [Function.comp_apply, countsAgainst, mapReviewQueueJobRow, Bool.and_eq_true]
  tauto

theorem getActiveQueueJobForHead_eq_none {head : HeadKey} (h : getActiveQueueJobForHead head s = none) :
    ∀ j ∈ s.jobs.rows, j.head = head → j.state.isTerminal = true := by
  rintro j hj rfl
  cases hopen : j.state.isTerminal with
  | true => rfl
  | false =>
    have hlisted : mapReviewQueueJobRow j ∈ unfinishedJobs j.repo s := by
      refine List.mem_filter.mpr ⟨List.mem_map_of_mem (List.mem_insertionSort _ |>.mpr hj), ?_⟩
      simp [mapReviewQueueJobRow, hopen]
    have hnone := List.find?_eq_none.mp h _ hlisted
    simp [mapReviewQueueJobRow, ReviewQueueJobRecord.head] at hnone

theorem getActiveQueueJobForHead_eq_some {head : HeadKey} {job : ReviewQueueJobRecord}
    (h : getActiveQueueJobForHead head s = some job) :
    ∃ row ∈ s.jobs.rows, row.head = head ∧ row.state.isTerminal = false := by
  have hfound := List.find?_some h
  obtain ⟨hlisted, hopen⟩ := List.mem_filter.mp (List.mem_of_find?_eq_some h)
  obtain ⟨row, hrow, rfl⟩ := List.mem_map.mp hlisted
  simp only [Bool.and_eq_true, Bool.not_eq_true', decide_eq_true_eq] at hfound hopen
  refine ⟨row, List.mem_insertionSort _ |>.mp hrow, ?_, hopen.2⟩
  cases head
  simp only [ReviewQueueJobRecord.head, HeadKey.mk.injEq]
  exact ⟨hopen.1, hfound.1, hfound.2⟩

end

/-! ## Growing the queue -/

section
variable (settings : ScanSettings) (pull : OpenPull)

structure HasRoom (s : State) : Prop where
  free : ∀ j ∈ s.jobs.rows, j.head = settings.headOf pull → j.state.isTerminal = true
  below : (queuedHeads settings.repo s : Int) < settings.queueLimit

/-- A job that a scan may add: by a command, or where there is room. -/
structure Addable (answers : PullAnswers (settings.headOf pull)) (s : State) (job : ReviewQueueJobRecord) : Prop where
  head : job.head = settings.headOf pull
  named : NamedAfter (settings.headOf pull) job.attemptId
  admitted : answers.decision ≠ .none ∧ job.source = .manualCommand ∨
    answers.decision = .none ∧ HasRoom settings pull s

def PullAnswers.drafts {head : HeadKey} (answers : PullAnswers head) : Bool :=
  match answers.decision with
  | .none => false
  | .act command _ => isFinishingTouchCommandAction command.action

structure Drafted {head : HeadKey} (answers : PullAnswers head) (j j' : ReviewQueueJobRecord) : Prop
    extends Reconciles head j j' where
  drafts : PullAnswers.drafts answers = true

/-- At most one job is added, behind the others, and a finishing touch may settle those of the head. -/
structure Grows (answers : PullAnswers (settings.headOf pull)) (s s' : State) : Prop
    extends Aside settings pull s s' where
  rows : ∃ rows, Rewritten (Drafted answers) rows s'.jobs.rows ∧
    (rows = s.jobs.rows ∨ ∃ job, rows = s.jobs.rows ++ [job] ∧ Addable settings pull answers s job)

/-- What one call makes of the store: jobs of the pull are retired, and then one may be added. -/
def Moves (answers : PullAnswers (settings.headOf pull)) (s s' : State) : Prop :=
  ∃ s₁, Retired settings pull s s₁ ∧ Grows settings pull answers s₁ s'

end

section
variable {settings : ScanSettings} {pull : OpenPull} {answers : PullAnswers (settings.headOf pull)}
  {s s' s'' : State}

theorem Grows.of_aside (h : Aside settings pull s s') (hjobs : s'.jobs = s.jobs) : Grows settings pull answers s s' :=
  ⟨h, _, .refl _, .inl (by rw [hjobs])⟩

theorem Grows.refl (s : State) : Grows settings pull answers s s := .of_aside (.refl s) rfl

theorem Grows.then (h : Grows settings pull answers s s') (haside : Aside settings pull s' s'')
    (hjobs : s''.jobs = s'.jobs) : Grows settings pull answers s s'' :=
  ⟨h.toAside.trans haside, by rw [hjobs]; exact h.rows⟩

theorem drafted_finishes {head : HeadKey} {answers : PullAnswers head} {rows rows' : List ReviewQueueJobRecord}
    (h : Rewritten (Drafted answers) rows rows') : Rewritten Finishes rows rows' :=
  h.mono fun _ _ hdrafted => hdrafted.toFinishes

theorem Drafted.trans {head : HeadKey} {answers : PullAnswers head} {i j k : ReviewQueueJobRecord}
    (h : Drafted answers i j) (h' : Drafted answers j k) : Drafted answers i k where
  toFinishes := h.toFinishes.trans h'.toFinishes
  ofHead := h.ofHead
  unfinished := h.unfinished
  posted := h'.posted
  drafts := h.drafts

theorem Grows.reconciled (h : Grows settings pull answers s s') (haside : Aside settings pull s' s'')
    (hjobs : Rewritten (Drafted answers) s'.jobs.rows s''.jobs.rows) : Grows settings pull answers s s'' := by
  obtain ⟨rows, hrewritten, hadded⟩ := h.rows
  exact ⟨h.toAside.trans haside, rows, hrewritten.trans (fun _ _ _ => Drafted.trans) hjobs, hadded⟩

theorem Moves.of_retired (h : Retired settings pull s s') : Moves settings pull answers s s' := ⟨s', h, .refl s'⟩

theorem Moves.after_retired (h : Retired settings pull s s') (h' : Moves settings pull answers s' s'') :
    Moves settings pull answers s s'' := by
  obtain ⟨s₁, hretired, hgrows⟩ := h'
  exact ⟨s₁, h.trans hretired, hgrows⟩

theorem Inserted.aside {input : EnqueueInput} {job : ReviewQueueJobRecord} (h : Inserted input s job s') :
    Aside settings pull s s' where
  processed _ _ := by rw [h.processed]
  readiness _ _ := by rw [h.readiness]
  consumptions _ _ := by rw [h.consumptions]
  board _ _ hon := by
    obtain ⟨row, hrow, hshown⟩ := hon
    exact ⟨row, h.readiness ▸ hrow, hshown⟩

def Admission (settings : ScanSettings) (pull : OpenPull) (answers : PullAnswers (settings.headOf pull)) (s : State)
    (command : Option Commands.ReviewCommand) : Prop :=
  if command.isSome then answers.decision ≠ .none else answers.decision = .none ∧ HasRoom settings pull s

theorem Inserted.addable {command : Option Commands.ReviewCommand} {assignsSession : Bool} {job : ReviewQueueJobRecord}
    (h : Inserted (enqueueInput settings pull answers command assignsSession) s job s')
    (hadmission : Admission settings pull answers s command) : Addable settings pull answers s job where
  head := h.head
  named := h.named
  admitted := by
    unfold Admission at hadmission
    cases command with
    | none => exact .inr hadmission
    | some command => exact .inl ⟨hadmission, h.source⟩

theorem Inserted.grows {command : Option Commands.ReviewCommand} {assignsSession : Bool} {job : ReviewQueueJobRecord}
    (h : Inserted (enqueueInput settings pull answers command assignsSession) s job s')
    (hadmission : Admission settings pull answers s command) : Grows settings pull answers s s' :=
  ⟨h.aside, _, .refl _, .inr ⟨job, h.rows, h.addable hadmission⟩⟩

theorem Inserted.updated {command : Option Commands.ReviewCommand} {assignsSession : Bool} {job : ReviewQueueJobRecord}
    {t : State} {input : UpdateJobInput}
    (h : Inserted (enqueueInput settings pull answers command assignsSession) s job s')
    (hadmission : Admission settings pull answers s command) (haside : Aside settings pull s' t)
    (hjobs : t.jobs = s'.jobs) (hupdate : UpdatedQueue settings input t s'') (hid : input.jobId = job.jobId) :
    Grows settings pull answers s s'' ∧
      ∃ j ∈ s''.jobs.rows, j.head = settings.headOf pull ∧ j.state = input.state := by
  have hadd := h.addable hadmission
  have hold : s.jobs.rows.map (fun j =>
      if j.jobId = input.jobId then updatedJob settings.texts.redactSecrets input settings.now j else j) =
      s.jobs.rows := by
    refine (List.map_congr_left fun j hj => ?_).trans (List.map_id _)
    rw [if_neg (hid ▸ h.fresh j hj)]
    rfl
  have hrows : s''.jobs.rows = s.jobs.rows ++ [updatedJob settings.texts.redactSecrets input settings.now job] := by
    rw [hupdate.rows, hjobs, h.rows, List.map_append, hold, List.map_singleton, if_pos hid.symm]
  refine ⟨⟨(h.aside.trans haside).trans hupdate.aside, _, .refl _,
    .inr ⟨_, hrows, hadd.head, hadd.named, hadd.admitted⟩⟩, ?_⟩
  refine ⟨updatedJob settings.texts.redactSecrets input settings.now job, ?_, hadd.head, rfl⟩
  rw [hrows]
  exact List.mem_append_right _ (List.mem_singleton_self _)

/-! ## The invariants of the queue -/

def OneAutomatic (s : State) : Prop :=
  ∀ i ∈ s.jobs.rows, ∀ j ∈ s.jobs.rows, i.head = j.head → i.source = .automatic → j.source = .automatic →
    i.state.isTerminal = false → j.state.isTerminal = false → i = j

theorem named_of_finishes {rows rows' : List ReviewQueueJobRecord} (h : Rewritten Finishes rows rows')
    (hrows : ∀ j ∈ rows, Clean j.head ∧ NamedAfter j.head j.attemptId) :
    ∀ j ∈ rows', Clean j.head ∧ NamedAfter j.head j.attemptId := by
  intro j' hj'
  obtain ⟨j, hj, rfl | hfinishes⟩ := h.before hj'
  · exact hrows _ hj
  · rw [hfinishes.head, hfinishes.attemptId]
    exact hrows j hj

theorem countsAgainst_of_finishes {rows rows' : List ReviewQueueJobRecord} (h : Rewritten Finishes rows rows')
    (repo : String) : rows'.countP (countsAgainst repo) ≤ rows.countP (countsAgainst repo) := by
  refine h.countP_le ?_
  intro j j' hfinishes hcounts
  simp [countsAgainst, hfinishes.finished] at hcounts

theorem Retired.named (h : Retired settings pull s s') (hs : Named s) : Named s' := named_of_finishes h.finishes hs

theorem Retired.oneAutomatic (h : Retired settings pull s s') (hs : OneAutomatic s) : OneAutomatic s' := by
  intro i hi j hj hhead hiauto hjauto hiopen hjopen
  exact hs i (mem_of_finishes h.finishes hi hiopen) j (mem_of_finishes h.finishes hj hjopen) hhead hiauto hjauto
    hiopen hjopen

theorem Moves.named (h : Moves settings pull answers s s') (hclean : Clean (settings.headOf pull)) (hs : Named s) :
    Named s' := by
  obtain ⟨s₁, hretired, hgrows⟩ := h
  have hs₁ := hretired.named hs
  obtain ⟨rows, hdrafted, hadded⟩ := hgrows.rows
  refine named_of_finishes (drafted_finishes hdrafted) ?_
  rcases hadded with rfl | ⟨job, rfl, hadd⟩
  · exact hs₁
  · intro j hj
    rcases List.mem_append.mp hj with hj | hj
    · exact hs₁ j hj
    · obtain rfl := List.mem_singleton.mp hj
      rw [hadd.head]
      exact ⟨hclean, hadd.named⟩

theorem Moves.oneAutomatic (h : Moves settings pull answers s s') (hs : OneAutomatic s) : OneAutomatic s' := by
  obtain ⟨s₁, hretired, hgrows⟩ := h
  have hs₁ := hretired.oneAutomatic hs
  obtain ⟨rows, hdrafted, hadded⟩ := hgrows.rows
  have hopen := fun j => mem_of_finishes (j := j) (drafted_finishes hdrafted)
  rcases hadded with rfl | ⟨job, rfl, hadd⟩
  · intro i hi j hj hhead hiauto hjauto hiopen hjopen
    exact hs₁ i (hopen i hi hiopen) j (hopen j hj hjopen) hhead hiauto hjauto hiopen hjopen
  -- an automatic job is added only where the head has no unfinished one
  have halone : ∀ i ∈ s₁.jobs.rows, i.head = job.head → i.state.isTerminal = false → job.source ≠ .automatic := by
    intro i hi hhead hopen hauto
    rcases hadd.admitted with ⟨-, hmanual⟩ | ⟨-, hroom⟩
    · rw [hauto] at hmanual
      cases hmanual
    · have hfinished := hroom.free i hi (hhead.trans hadd.head)
      rw [hopen] at hfinished
      cases hfinished
  intro i hi j hj hhead hiauto hjauto hiopen hjopen
  have hi := hopen i hi hiopen
  have hj := hopen j hj hjopen
  rw [List.mem_append, List.mem_singleton] at hi hj
  rcases hi with hi | rfl <;> rcases hj with hj | rfl
  · exact hs₁ i hi j hj hhead hiauto hjauto hiopen hjopen
  · exact absurd hjauto (halone i hi hhead hiopen)
  · exact absurd hiauto (halone j hj hhead.symm hjopen)
  · rfl

theorem Moves.queuedHeads_le (h : Moves settings pull answers s s') :
    (queuedHeads settings.repo s' : Int) ≤ max (queuedHeads settings.repo s : Int) settings.queueLimit +
      (if answers.decision = .none then 0 else 1) := by
  obtain ⟨s₁, hretired, hgrows⟩ := h
  have hle := countsAgainst_of_finishes hretired.finishes settings.repo
  obtain ⟨rows, hdrafted, hadded⟩ := hgrows.rows
  have hafter := countsAgainst_of_finishes (drafted_finishes hdrafted) settings.repo
  rw [← queuedHeads_eq] at hle hafter
  rw [← queuedHeads_eq] at hle
  rcases hadded with rfl | ⟨job, rfl, hadd⟩
  · rw [← queuedHeads_eq] at hafter
    split <;> omega
  · have hone : [job].countP (countsAgainst settings.repo) ≤ 1 := List.countP_le_length
    rw [List.countP_append, ← queuedHeads_eq] at hafter
    rcases hadd.admitted with ⟨hcommand, -⟩ | ⟨hnone, hroom⟩
    · rw [if_neg hcommand]
      omega
    · rw [if_pos hnone]
      have := hroom.below
      omega

theorem Grows.mem_before_drafts (h : Grows settings pull answers s s') {j : ReviewQueueJobRecord}
    (hj : j ∈ s.jobs.rows) : ∃ rows, Rewritten (Drafted answers) rows s'.jobs.rows ∧ j ∈ rows := by
  obtain ⟨rows, hdrafted, rfl | ⟨job, rfl, -⟩⟩ := h.rows
  · exact ⟨_, hdrafted, hj⟩
  · exact ⟨_, hdrafted, List.mem_append_left _ hj⟩

theorem Moves.keeps_active (h : Moves settings pull answers s s') {j : ReviewQueueJobRecord} (hj : j ∈ s.jobs.rows)
    (hactive : j.isActive = true) : j ∈ s'.jobs.rows ∨ ∃ j' ∈ s'.jobs.rows, Drafted answers j j' := by
  obtain ⟨s₁, hretired, hgrows⟩ := h
  have hj₁ : j ∈ s₁.jobs.rows := by
    refine hretired.rows.stays hj ?_
    intro j' hretires
    rw [hretires.idle] at hactive
    cases hactive
  obtain ⟨rows, hdrafted, hmem⟩ := hgrows.mem_before_drafts hj₁
  exact hdrafted.after hmem

theorem Moves.keeps_posted (h : Moves settings pull answers s s') {j : ReviewQueueJobRecord} (hj : j ∈ s.jobs.rows)
    (hposted : j.state = .posted) : j ∈ s'.jobs.rows := by
  obtain ⟨s₁, hretired, hgrows⟩ := h
  have hj₁ : j ∈ s₁.jobs.rows := hretired.rows.stays hj fun j' hretires => hretires.notPosted.1 hposted
  obtain ⟨rows, hdrafted, hmem⟩ := hgrows.mem_before_drafts hj₁
  refine hdrafted.stays hmem ?_
  intro j' hchanged
  have hopen := hchanged.unfinished
  rw [hposted] at hopen
  cases hopen

theorem Moves.mem_iff (h : Moves settings pull answers s s') {j : ReviewQueueJobRecord}
    (hother : ¬OfPull settings pull j.head) : j ∈ s'.jobs.rows ↔ j ∈ s.jobs.rows := by
  obtain ⟨s₁, hretired, hgrows⟩ := h
  have hretain : j ∈ s₁.jobs.rows ↔ j ∈ s.jobs.rows :=
    hretired.rows.mem_iff (fun _ hretires => hother hretires.ofPull)
      fun _ hretires => hother (hretires.head ▸ hretires.ofPull)
  obtain ⟨rows, hdrafted, hadded⟩ := hgrows.rows
  have hkept : j ∈ s'.jobs.rows ↔ j ∈ rows :=
    hdrafted.mem_iff (fun _ hchanged => hother (hchanged.ofHead ▸ ofPull_headOf))
      fun _ hchanged => hother (hchanged.head ▸ hchanged.ofHead ▸ ofPull_headOf)
  rcases hadded with rfl | ⟨job, rfl, hadd⟩
  · rw [hkept]
    exact hretain
  · rw [hkept, List.mem_append, List.mem_singleton, hretain]
    constructor
    · rintro (hj | rfl)
      · exact hj
      · exact absurd (hadd.head ▸ ofPull_headOf) hother
    · exact .inl

theorem Moves.aside (h : Moves settings pull answers s s') : Aside settings pull s s' := by
  obtain ⟨s₁, hretired, hgrows⟩ := h
  exact hretired.toAside.trans hgrows.toAside

end

end NeonDiff.Discovery
