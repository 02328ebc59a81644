import NeonDiff.Discovery.Settled

/-! # A scan of the pulls of a repository -/

namespace NeonDiff.Discovery

open NeonDiff.Lib NeonDiff.Lib.JsText NeonDiff.Store

/-! ## Rows of one head -/

structure SameHead (head : HeadKey) (s s' : State) : Prop where
  jobs : ∀ j : ReviewQueueJobRecord, j.head = head → (j ∈ s'.jobs.rows ↔ j ∈ s.jobs.rows)
  processed : s'.processed.find? head = s.processed.find? head
  readiness : s'.readiness.find? head = s.readiness.find? head
  consumptions : s'.consumptions.find? head = s.consumptions.find? head

theorem SameHead.refl (head : HeadKey) (s : State) : SameHead head s s := ⟨fun _ _ => Iff.rfl, rfl, rfl, rfl⟩

theorem SameHead.trans {head : HeadKey} {s t u : State} (h : SameHead head s t) (h' : SameHead head t u) :
    SameHead head s u where
  jobs j hj := (h'.jobs j hj).trans (h.jobs j hj)
  processed := h'.processed.trans h.processed
  readiness := h'.readiness.trans h.readiness
  consumptions := h'.consumptions.trans h.consumptions

section
variable {settings : ScanSettings} {pull : OpenPull} {answers : PullAnswers (settings.headOf pull)} {s s' : State}

theorem Moves.sameHead (h : Moves settings pull answers s s') {head : HeadKey} (hother : ¬OfPull settings pull head) :
    SameHead head s s' where
  jobs _ hj := h.mem_iff (hj ▸ hother)
  processed := h.aside.processed head hother
  readiness := h.aside.readiness head hother
  consumptions := h.aside.consumptions head hother

theorem ReadinessIs.congr {head : HeadKey} {state : ReviewReadinessState} (h : SameHead head s s')
    (hs : ReadinessIs head state s) : ReadinessIs head state s' := by
  obtain ⟨row, hrow, hstate⟩ := hs
  exact ⟨row, h.readiness.trans hrow, hstate⟩

theorem hasProcessed_congr {head : HeadKey} (h : SameHead head s s') (hs : hasProcessed s head = true) :
    hasProcessed s' head = true := by
  unfold hasProcessed at hs ⊢
  rw [h.processed]
  exact hs

theorem Means.congr {status : EnqueueStatus} (h : ∀ head, OfPull settings pull head → SameHead head s s')
    (hs : Means settings pull status s) : Means settings pull status s' := by
  have hlive := h _ ofPull_headOf
  have hjob : ∀ P : ReviewQueueJobRecord → Prop, (∃ j ∈ s.jobs.rows, j.head = settings.headOf pull ∧ P j) →
      ∃ j ∈ s'.jobs.rows, j.head = settings.headOf pull ∧ P j := by
    rintro P ⟨j, hj, hhead, hP⟩
    exact ⟨j, (hlive.jobs j hhead).mpr hj, hhead, hP⟩
  cases status with
  | closed_retired => exact ⟨hs.1, fun j hj hof => hs.2 j (((h _ hof).jobs j rfl).mp hj) hof⟩
  | skipped_draft => exact ⟨hs.1, hs.2.congr hlive⟩
  | skipped_canary => exact ⟨hs.1, hs.2.congr hlive⟩
  | skipped_processed =>
    rcases hs with hprocessed | ⟨row, hrow, hincident⟩
    · exact .inl (hasProcessed_congr hlive hprocessed)
    · exact .inr ⟨row, (h (ledgerKey (settings.headOf pull)) ofPull_headOf).consumptions.trans hrow, hincident⟩
  | skipped_capacity => exact hs.imp (hasProcessed_congr hlive) (ReadinessIs.congr hlive)
  | enqueued => exact hjob _ hs
  | already_queued => exact hjob _ hs
  | provider_deferred => exact hjob _ hs
  | skipped_finishing_touch_draft => exact hjob _ hs
  | skipped_stale_head => exact hjob _ hs

theorem Settled.congr {status : EnqueueStatus} (h : ∀ head, OfPull settings pull head → SameHead head s s')
    (hs : Settled settings pull answers status s) : Settled settings pull answers status s' where
  means := hs.means.congr h
  board hstatus head hof hother hon := by
    obtain ⟨row, hrow, hshown⟩ := hon
    exact hs.board hstatus head hof hother ⟨row, (h head hof).readiness.symm.trans hrow, hshown⟩
  live hexamined hsupersedes j hj hof hwaiting :=
    hs.live hexamined hsupersedes j (((h _ hof).jobs j rfl).mp hj) hof hwaiting

end

/-! ## Scans -/

section
variable {settings : ScanSettings}

def commands (pulls : List (Scanned settings)) : Nat := pulls.countP fun scanned => scanned.answers.decision ≠ .none

/-- What a scan keeps, however it ends. -/
structure ScanKept (pulls : List (Scanned settings)) (s s' : State) : Prop where
  named : Named s → Named s'
  oneAutomatic : OneAutomatic s → OneAutomatic s'
  active : ∀ j ∈ s.jobs.rows, j.isActive = true → j ∈ s'.jobs.rows ∨
    ∃ scanned ∈ pulls, ∃ j' ∈ s'.jobs.rows, Drafted scanned.answers j j'
  posted : ∀ j ∈ s.jobs.rows, j.state = .posted → j ∈ s'.jobs.rows
  others : ∀ head, (∀ scanned ∈ pulls, ¬OfPull settings scanned.pull head) → SameHead head s s'
  limit : (queuedHeads settings.repo s' : Int) ≤
    max (queuedHeads settings.repo s : Int) settings.queueLimit + commands pulls

theorem ScanKept.refl (pulls : List (Scanned settings)) (s : State) : ScanKept pulls s s :=
  ⟨id, id, fun _ h _ => .inl h, fun _ h _ => h, fun head _ => .refl head s, by omega⟩

theorem ScanKept.cons {scanned : Scanned settings} {rest : List (Scanned settings)} {s t u : State}
    (h : Moves settings scanned.pull scanned.answers s t) (hclean : Clean (settings.headOf scanned.pull))
    (hrest : ScanKept rest t u) : ScanKept (scanned :: rest) s u where
  named hs := hrest.named (h.named hclean hs)
  oneAutomatic hs := hrest.oneAutomatic (h.oneAutomatic hs)
  active j hj hactive := by
    rcases h.keeps_active hj hactive with hj' | ⟨j', hj', hdrafted⟩
    · rcases hrest.active j hj' hactive with hj'' | ⟨later, hlater, hdrafted⟩
      · exact .inl hj''
      · exact .inr ⟨later, List.mem_cons_of_mem _ hlater, hdrafted⟩
    · exact .inr ⟨scanned, List.mem_cons_self .., j', hrest.posted j' hj' hdrafted.posted, hdrafted⟩
  posted j hj hposted := hrest.posted j (h.keeps_posted hj hposted) hposted
  others head hother := (h.sameHead (hother scanned (List.mem_cons_self ..))).trans
    (hrest.others head fun q hq => hother q (List.mem_cons_of_mem _ hq))
  limit := by
    have hfirst := h.queuedHeads_le
    have hlast := hrest.limit
    rw [commands, List.countP_cons]
    rw [commands] at hlast
    by_cases hdecision : scanned.answers.decision = .none
    · rw [if_pos hdecision] at hfirst
      omega
    · rw [if_neg hdecision] at hfirst
      rw [if_pos (decide_eq_true hdecision)]
      omega

theorem ScanKept.of_moves {scanned : Scanned settings} {s s' : State} (rest : List (Scanned settings))
    (h : Moves settings scanned.pull scanned.answers s s') (hclean : Clean (settings.headOf scanned.pull)) :
    ScanKept (scanned :: rest) s s' := .cons h hclean (.refl rest s')

/-- Every pull that does not come again stands as its status says. -/
def EachSettled : List (Scanned settings) → List EnqueueStatus → State → Prop
  | [], [], _ => True
  | scanned :: rest, status :: statuses, s =>
    ((∀ later ∈ rest, later.pull.number ≠ scanned.pull.number) →
      Settled settings scanned.pull scanned.answers status s) ∧ EachSettled rest statuses s
  | _, _, _ => False

theorem scanPulls_ends (pulls : List (Scanned settings)) (d : Desk)
    (hclean : ∀ scanned ∈ pulls, Clean (settings.headOf scanned.pull)) (hnamed : Named d.store) :
    Ends (scanPulls settings pulls) d
      (fun statuses d' => ScanKept pulls d.store d'.store ∧ EachSettled pulls statuses d'.store)
      (fun d' => ScanKept pulls d.store d'.store) := by
  induction pulls generalizing d with
  | nil => exact ⟨.refl [] _, trivial⟩
  | cons scanned rest ih =>
    have hcleanHead := hclean scanned (List.mem_cons_self ..)
    refine Ends.bind ((enqueuePullIfEligible_ends hcleanHead hnamed).mono (fun _ _ h => h)
      fun _ h => .of_moves rest h hcleanHead) ?_
    rintro status t ⟨hmoves, hsettled⟩
    refine Ends.bind ((ih t (fun q hq => hclean q (List.mem_cons_of_mem _ hq)) (hmoves.named hcleanHead hnamed)).mono
      (fun _ _ h => h) fun _ h => .cons hmoves hcleanHead h) ?_
    rintro statuses u ⟨hrest, heach⟩
    refine ⟨.cons hmoves hcleanHead hrest, fun hlater => hsettled.congr fun head hof => ?_, heach⟩
    refine hrest.others head fun later hmem hofLater => hlater later hmem ?_
    exact hofLater.2.symm.trans hof.2

theorem EachSettled.get {front behind : List (Scanned settings)} {scanned : Scanned settings}
    {statuses : List EnqueueStatus} {s : State} (h : EachSettled (front ++ scanned :: behind) statuses s)
    (hlater : ∀ later ∈ behind, later.pull.number ≠ scanned.pull.number) :
    ∃ status, statuses[front.length]? = some status ∧ Settled settings scanned.pull scanned.answers status s := by
  induction front generalizing statuses with
  | nil =>
    cases statuses with
    | nil => exact h.elim
    | cons status statuses => exact ⟨status, rfl, h.1 hlater⟩
  | cons first front ih =>
    cases statuses with
    | nil => exact h.elim
    | cons status statuses => exact ih h.2

/-- A scan that returns has told the truth: after it, the rows of every pull bear out the status that the pull got, no
older head of a pull is on the board, and none waits unless the pull was skipped as a draft or a canary, or taken on by
a command without a review. -/
theorem scan_tells_truth (pulls : List (Scanned settings)) (d d' : Desk) (statuses : List EnqueueStatus)
    (hclean : ∀ scanned ∈ pulls, Clean (settings.headOf scanned.pull)) (hnamed : Named d.store)
    (hrun : scanPulls settings pulls d = .ok statuses d') (front behind : List (Scanned settings))
    (scanned : Scanned settings) (hpulls : pulls = front ++ scanned :: behind)
    (hlater : ∀ later ∈ behind, later.pull.number ≠ scanned.pull.number) :
    ∃ status, statuses[front.length]? = some status ∧
      Settled settings scanned.pull scanned.answers status d'.store := by
  have hends := scanPulls_ends pulls d hclean hnamed
  rw [ends_of_ok hrun] at hends
  subst hpulls
  exact hends.2.get hlater

end

/-! ## A scan of one open pull -/

def smallScan : ScanSettings where
  repo := "o/r"
  providerId := "p"
  now := 0
  skipDrafts := true
  isCanaryAllowed _ := true
  reviewExistingOpenPrsOnActivation := true
  allowActivationBaselineCommandLookup := false
  maxQueuedHeads := none
  maxQueuedPerRepo := none
  overflowAction := none
  backgroundPriority := none
  baseMergeOnlySkipEnabled := true
  baseMergeOnlySkipExcludeRepos := []
  texts := ⟨id, fun _ => none, id⟩

def openPull : OpenPull where
  number := 1
  title := "t"
  state := some "open"
  headSha := "h"
  baseSha := "b"
  htmlUrl := "u"
  baseRepoPrivate := none
  baseRepoVisibility := none
  authorAssociation := none
  authorLogin := none
  draft := false
  createdAt := none

theorem plain_uuid : ':' ∉ "1".toList := by decide

def plainUuid : Queue.Uuid := ⟨"1", plain_uuid⟩

def idleReview (s : State) : Except String Job.ReviewPullResult × State := (.ok .skipped_finishing_touch_draft, s)

theorem confined_idleReview (head : HeadKey) : Confined head idleReview :=
  ⟨fun _ => .refl _, fun _ _ _ => rfl, fun _ _ _ => rfl, fun _ _ _ => rfl⟩

def quietAnswers (head : HeadKey) : PullAnswers head where
  activatedAt := none
  decision := .none
  sessionId := none
  repoCooldown := none
  priorityOverride := none
  ids := ⟨plainUuid, plainUuid, plainUuid⟩
  reviewPull := idleReview
  confined := confined_idleReview head

def scannedPull : Scanned smallScan := ⟨openPull, quietAnswers _⟩

def emptyDesk : Desk := ⟨{}, []⟩

theorem clean_headOf_openPull : Clean (smallScan.headOf openPull) := ⟨by decide, by decide⟩

theorem clean_scannedPull : ∀ scanned ∈ [scannedPull], Clean (smallScan.headOf scanned.pull) := by
  intro scanned hscanned
  rw [List.mem_singleton.mp hscanned]
  exact clean_headOf_openPull

theorem named_emptyDesk : Named emptyDesk.store := by
  intro j hj
  cases hj

theorem scan_tells_truth_of_open_pull : ∃ d' status, scanPulls smallScan [scannedPull] emptyDesk = .ok [.enqueued] d' ∧
    [EnqueueStatus.enqueued][0]? = some status ∧ Settled smallScan openPull scannedPull.answers status d'.store := by
  obtain ⟨d', hrun⟩ : ∃ d', scanPulls smallScan [scannedPull] emptyDesk = .ok [.enqueued] d' := ⟨_, rfl⟩
  obtain ⟨status, hstatus, hsettled⟩ := scan_tells_truth [scannedPull] emptyDesk d' [.enqueued] clean_scannedPull
    named_emptyDesk hrun [] [] scannedPull rfl fun later hlater => absurd hlater List.not_mem_nil
  exact ⟨d', status, hrun, hstatus, hsettled⟩

section
variable {settings : ScanSettings}

/-- However a scan ends, leased and running jobs stay unless the review of a finishing touch settles them, the rows of
other pulls stay, no head gets a second unfinished automatic job, and the queue of the repository is not over its limit
but for commands. -/
theorem scan_keeps_queue (pulls : List (Scanned settings)) (d : Desk)
    (hclean : ∀ scanned ∈ pulls, Clean (settings.headOf scanned.pull)) (hnamed : Named d.store) :
    Ends (scanPulls settings pulls) d (fun _ d' => ScanKept pulls d.store d'.store)
      (fun d' => ScanKept pulls d.store d'.store) :=
  (scanPulls_ends pulls d hclean hnamed).mono (fun _ _ h => h.1) fun _ h => h

end

/-! ## A finishing touch on a posted head whose job still runs -/

def settledJob (head : HeadKey) (j : ReviewQueueJobRecord) : ReviewQueueJobRecord :=
  if j.head = head && !j.state.isTerminal then updatedJob id {
    jobId := j.jobId
    state := .posted
    lastError := some "direct_review_reconciled_processed_head=posted" } 0 j
  else j

theorem settledJob_jobId (head : HeadKey) (j : ReviewQueueJobRecord) : (settledJob head j).jobId = j.jobId := by
  unfold settledJob
  split <;> rfl

theorem settledJob_attemptId (head : HeadKey) (j : ReviewQueueJobRecord) :
    (settledJob head j).attemptId = j.attemptId := by
  unfold settledJob
  split <;> rfl

def settledJobs (head : HeadKey) (s : State) : State :=
  { s with jobs := s.jobs.updateJobs (settledJob head) (settledJob_jobId head) (settledJob_attemptId head) }

def settledReadiness (head : HeadKey) : ReadinessInput where
  head := head
  state := .readyForHuman
  reason := some "direct_review_reconciled_processed_head; previous_reason=trusted_generate_docs_command"

def postedReview (head : HeadKey) (s : State) : Except String Job.ReviewPullResult × State :=
  match Store.recordReviewReadiness id (settledReadiness head) 0 (settledJobs head s) with
  | .ok (_, s') => (.ok .skipped_processed, s')
  | .error _ => (.ok .skipped_processed, settledJobs head s)

theorem postedReview_cases (head : HeadKey) (s : State) : (postedReview head s).2 = settledJobs head s ∨
    WroteReadiness head .readyForHuman (settledJobs head s) (postedReview head s).2 := by
  unfold postedReview
  cases h : Store.recordReviewReadiness id (settledReadiness head) 0 (settledJobs head s) with
  | error e => exact .inl rfl
  | ok r =>
    obtain ⟨u, s'⟩ := r
    exact .inr (.of_ok h)

theorem rewritten_settledJobs (head : HeadKey) (s : State) :
    Rewritten (Reconciles head) s.jobs.rows (settledJobs head s).jobs.rows := by
  refine ⟨settledJob head, rfl, ?_⟩
  intro j _
  unfold settledJob
  split
  · rename_i hjob
    simp only [Bool.and_eq_true, decide_eq_true_eq, Bool.not_eq_true'] at hjob
    exact .inr ⟨⟨rfl, rfl, rfl, rfl, rfl⟩, hjob.1, hjob.2, rfl⟩
  · exact .inl rfl

theorem confined_postedReview (head : HeadKey) : Confined head (postedReview head) := by
  have hjobs := rewritten_settledJobs head
  constructor <;> intro s <;> rcases postedReview_cases head s with h | h
  · rw [h]
    exact hjobs s
  · rw [h.jobs]
    exact hjobs s
  · rw [h]
    exact fun _ _ => rfl
  · rw [h.processed]
    exact fun _ _ => rfl
  · rw [h]
    exact fun _ _ => rfl
  · exact h.others
  · rw [h]
    exact fun _ _ => rfl
  · rw [h.consumptions]
    exact fun _ _ => rfl

def touch : Commands.ReviewCommand where
  action := .finishingTouch "generate_docs"
  commentId := 7
  author := "a"
  body := ""

def touchedPull : Scanned smallScan where
  pull := openPull
  answers := { quietAnswers (smallScan.headOf openPull) with
    decision := .act touch false
    reviewPull := postedReview (smallScan.headOf openPull)
    confined := confined_postedReview (smallScan.headOf openPull) }

def automaticInput : EnqueueInput where
  head := smallScan.headOf openPull
  source := .automatic
  baseSha := some "b"

def runningJob : ReviewQueueJobRecord :=
  { automaticInput.job "j" (buildReviewQueueAttemptId automaticInput "") 0 with state := .running }

def runningDesk : Desk where
  store := recordProcessed { head := smallScan.headOf openPull, status := .posted } 0
    { jobs := ⟨⟨[runningJob], List.nodup_singleton _⟩, List.nodup_singleton _⟩ }

theorem named_runningDesk : Named runningDesk.store := by
  intro j hj
  obtain rfl := List.mem_singleton.mp hj
  exact ⟨clean_headOf_openPull, automaticInput, "", rfl, .inl rfl⟩

theorem scan_keeps_queue_of_finishing_touch :
    Ends (scanPulls smallScan [touchedPull]) runningDesk (fun _ d' => ScanKept [touchedPull] runningDesk.store d'.store)
      (fun d' => ScanKept [touchedPull] runningDesk.store d'.store) ∧
    (after (scanPulls smallScan [touchedPull]) runningDesk).store.jobs.rows.map (·.state) =
      [.posted, .commandRecorded] := by
  refine ⟨scan_keeps_queue [touchedPull] runningDesk ?_ named_runningDesk, by decide +kernel⟩
  intro scanned hscanned
  rw [List.mem_singleton.mp hscanned]
  exact clean_headOf_openPull

end NeonDiff.Discovery
