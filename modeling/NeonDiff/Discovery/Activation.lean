import NeonDiff.Discovery.Scan

/-! # Pulls that were open before their repository was activated

New-only review starts from a baseline: a skipped row for each pull that is open then.
-/

namespace NeonDiff.Discovery

open NeonDiff.Lib NeonDiff.Lib.JsText NeonDiff.Store

/-! ## `activateRepoForNewOnlyReview` -/

structure ActivationInput where
  repo : String
  reviewExistingOpenPrsOnActivation : Bool
  skipDrafts : Bool
  canaryPulls : List String
  scopedPullNumber : Option Nat
  hasRepoActivation : Bool
  repositoryCovered : Option Bool
  /-- The visibility of the pull is known, and the admission does not cover it. -/
  isUncovered : OpenPull → Bool
  now : Int

/-- Whether the repository was activated, at `now`, and how many pulls were baselined. -/
structure Activation where
  activated : Bool
  baselined : Nat
  deriving DecidableEq, Repr

namespace ActivationInput

variable (input : ActivationInput)

def headOf (pull : OpenPull) : HeadKey := ⟨input.repo, pull.number, pull.headSha⟩

def defers (pulls : List OpenPull) : Bool :=
  input.scopedPullNumber.isSome || (input.canaryPulls.any fun entry => startsWith entry (input.repo ++ "#")) ||
  input.hasRepoActivation || input.repositoryCovered = some false || pulls.any input.isUncovered

def baselineRecord (pull : OpenPull) : ProcessedReviewRecord where
  head := input.headOf pull
  status := .skipped
  error := some ACTIVATION_BASELINE_EXISTING_HEAD_ERROR

def isBaselined (pull : OpenPull) (s : State) : Bool :=
  !(input.skipDrafts && pull.draft) && !hasProcessed s (input.headOf pull)

def baselinePulls : List OpenPull → Nat → State → Nat × State
  | [], baselined, s => (baselined, s)
  | pull :: rest, baselined, s =>
    if input.isBaselined pull s then
      baselinePulls rest (baselined + 1) (recordProcessed (input.baselineRecord pull) input.now s)
    else baselinePulls rest baselined s

end ActivationInput

def activateRepoForNewOnlyReview (input : ActivationInput) (pulls : List OpenPull) (s : State) : Activation × State :=
  if input.defers pulls then (⟨false, 0⟩, s)
  else if input.reviewExistingOpenPrsOnActivation then (⟨true, 0⟩, s)
  else (⟨true, (input.baselinePulls pulls 0 s).1⟩, (input.baselinePulls pulls 0 s).2)

/-! ## The baseline of a pull -/

def Baselined (repo : String) (pullNumber : Nat) (s : State) : Prop :=
  ∃ row ∈ s.processed.rows, row.head.repo = repo ∧ row.head.pullNumber = pullNumber ∧
    isActivationBaselineProcessedReview row.status (truthy row.error) = true

section
variable {repo : String} {pullNumber : Nat} {s s' : State}

theorem Baselined.recordProcessed {record : ProcessedReviewRecord} {now : Int} (hs : Baselined repo pullNumber s)
    (hfree : hasProcessed s record.head = false) : Baselined repo pullNumber (recordProcessed record now s) := by
  obtain ⟨row, hrow, hrepo, hnumber, hbaseline⟩ := hs
  refine ⟨row, ?_, hrepo, hnumber, hbaseline⟩
  have hfind : s.processed.find? row.head = some row := Table.find?_eq_some.mpr ⟨hrow, rfl⟩
  have hother : record.head ≠ row.head := by
    rintro hsame
    rw [hasProcessed, hsame, hfind] at hfree
    cases hfree
  have hafter : (Store.recordProcessed record now s).processed.find? row.head = some row := by
    refine (find?_upsert_recordedRow record now s row.head).trans ?_
    rw [if_neg hother, hfind]
  exact (Table.find?_eq_some.mp hafter).1

theorem baselined_recordProcessed (input : ActivationInput) (pull : OpenPull)
    (hfree : hasProcessed s (input.headOf pull) = false) :
    Baselined input.repo pull.number (recordProcessed (input.baselineRecord pull) input.now s) := by
  have hnone : s.processed.find? (input.headOf pull) = none := by
    unfold hasProcessed at hfree
    exact Option.isNone_iff_eq_none.mp (by rw [← Option.not_isSome, hfree]; rfl)
  have hafter := find?_upsert_recordedRow (input.baselineRecord pull) input.now s (input.headOf pull)
  rw [if_pos (show (input.baselineRecord pull).head = input.headOf pull from rfl), hnone] at hafter
  exact ⟨_, (Table.find?_eq_some.mp hafter).1, rfl, rfl, rfl⟩

theorem baselinePulls_keeps (input : ActivationInput) (pulls : List OpenPull) (baselined : Nat)
    (hs : Baselined repo pullNumber s) : Baselined repo pullNumber (input.baselinePulls pulls baselined s).2 := by
  induction pulls generalizing baselined s with
  | nil => exact hs
  | cons pull rest ih =>
    unfold ActivationInput.baselinePulls
    split
    · rename_i hbaselined
      have hfree : hasProcessed s (input.headOf pull) = false := by
        simpa using (Bool.and_eq_true _ _ |>.mp hbaselined).2
      exact ih _ (hs.recordProcessed hfree)
    · exact ih _ hs

theorem baselinePulls_baselines (input : ActivationInput) (pulls : List OpenPull) (baselined : Nat) {pull : OpenPull}
    (hpull : pull ∈ pulls) (hdraft : (input.skipDrafts && pull.draft) = false)
    (hfree : hasProcessed s (input.headOf pull) = false) :
    Baselined input.repo pull.number (input.baselinePulls pulls baselined s).2 := by
  induction pulls generalizing baselined s with
  | nil => cases hpull
  | cons first rest ih =>
    unfold ActivationInput.baselinePulls
    split
    · rename_i hfirst
      by_cases hsame : input.headOf first = input.headOf pull
      · have hnumber : first.number = pull.number := congrArg HeadKey.pullNumber hsame
        refine baselinePulls_keeps input rest _ ?_
        rw [← hnumber]
        exact baselined_recordProcessed input first (hsame ▸ hfree)
      · rcases List.mem_cons.mp hpull with rfl | hrest
        · exact absurd rfl hsame
        refine ih _ hrest ?_
        unfold hasProcessed at hfree ⊢
        rw [show (recordProcessed (input.baselineRecord first) input.now s).processed.find? (input.headOf pull) = _ from
          find?_upsert_recordedRow _ _ _ _, if_neg (show (input.baselineRecord first).head ≠ _ from hsame)]
        exact hfree
    · rename_i hfirst
      rcases List.mem_cons.mp hpull with rfl | hrest
      · exact absurd (by simp [ActivationInput.isBaselined, hdraft, hfree]) hfirst
      · exact ih _ hrest hfree

theorem activateRepoForNewOnlyReview_baselines (input : ActivationInput) (pulls : List OpenPull) {pull : OpenPull}
    (hactivated : (activateRepoForNewOnlyReview input pulls s).1.activated = true)
    (hnew : input.reviewExistingOpenPrsOnActivation = false) (hpull : pull ∈ pulls)
    (hdraft : (input.skipDrafts && pull.draft) = false) (hfree : hasProcessed s (input.headOf pull) = false) :
    Baselined input.repo pull.number (activateRepoForNewOnlyReview input pulls s).2 := by
  unfold activateRepoForNewOnlyReview at hactivated ⊢
  split at hactivated
  · cases hactivated
  · rename_i hdefers
    rw [if_neg hdefers, hnew]
    exact baselinePulls_baselines input pulls 0 hpull hdraft hfree

theorem baselinePulls_jobs (input : ActivationInput) (pulls : List OpenPull) (baselined : Nat) (s : State) :
    (input.baselinePulls pulls baselined s).2.jobs = s.jobs := by
  induction pulls generalizing baselined s with
  | nil => rfl
  | cons pull rest ih =>
    unfold ActivationInput.baselinePulls
    split
    · exact ih _ _
    · exact ih _ s

theorem activateRepoForNewOnlyReview_jobs (input : ActivationInput) (pulls : List OpenPull) (s : State) :
    (activateRepoForNewOnlyReview input pulls s).2.jobs = s.jobs := by
  unfold activateRepoForNewOnlyReview
  split
  · rfl
  split
  · rfl
  · exact baselinePulls_jobs input pulls 0 s

/-! ## What spares a pull -/

/-- No job of the pull comes into being, and its baseline stands. -/
structure Spares (repo : String) (pullNumber : Nat) (s s' : State) : Prop where
  jobs : ∀ j ∈ s'.jobs.rows, j.repo = repo → j.pullNumber = pullNumber →
    ∃ i ∈ s.jobs.rows, i.jobId = j.jobId ∧ i.head = j.head
  baseline : Baselined repo pullNumber s → Baselined repo pullNumber s'
  named : Named s → Named s'

theorem Spares.refl (s : State) : Spares repo pullNumber s s := ⟨fun j hj _ _ => ⟨j, hj, rfl, rfl⟩, id, id⟩

theorem Spares.trans {t : State} (h : Spares repo pullNumber s t) (h' : Spares repo pullNumber t s') :
    Spares repo pullNumber s s' where
  jobs j hj hrepo hnumber := by
    obtain ⟨i, hi, hid, hhead⟩ := h'.jobs j hj hrepo hnumber
    obtain ⟨k, hk, hkid, hkhead⟩ := h.jobs i hi ((congrArg HeadKey.repo hhead).trans hrepo)
      ((congrArg HeadKey.pullNumber hhead).trans hnumber)
    exact ⟨k, hk, hkid.trans hid, hkhead.trans hhead⟩
  baseline hs := h'.baseline (h.baseline hs)
  named hs := h'.named (h.named hs)

end

section
variable {settings : ScanSettings} {pull : OpenPull} {answers : PullAnswers (settings.headOf pull)}
  {repo : String} {pullNumber : Nat} {s s' : State} {d : Desk}

theorem Retired.spares (h : Retired settings pull s s') : Spares repo pullNumber s s' where
  jobs j hj _ _ := by
    obtain ⟨i, hi, rfl | hretires⟩ := h.rows.before hj
    · exact ⟨_, hi, rfl, rfl⟩
    · exact ⟨i, hi, hretires.jobId.symm, hretires.head.symm⟩
  baseline hs := by
    unfold Baselined
    rw [h.sameProcessed]
    exact hs
  named := h.named

theorem Moves.spares (h : Moves settings pull answers s s') (hclean : Clean (settings.headOf pull))
    (hother : ¬(settings.repo = repo ∧ pull.number = pullNumber)) : Spares repo pullNumber s s' where
  jobs j hj hrepo hnumber := by
    have hpull : ¬OfPull settings pull j.head := fun hof => hother ⟨hof.1.symm.trans hrepo, hof.2.symm.trans hnumber⟩
    exact ⟨j, (h.mem_iff hpull).mp hj, rfl, rfl⟩
  baseline := by
    rintro ⟨row, hrow, hrepo, hnumber, hbaseline⟩
    have hpull : ¬OfPull settings pull row.head := fun hof => hother ⟨hof.1.symm.trans hrepo, hof.2.symm.trans hnumber⟩
    have hbefore : s.processed.find? row.head = some row := Table.find?_eq_some.mpr ⟨hrow, rfl⟩
    have hfind := (h.aside.processed row.head hpull).trans hbefore
    exact ⟨row, (Table.find?_eq_some.mp hfind).1, hrepo, hnumber, hbaseline⟩
  named := h.named hclean

variable (settings pull answers) in
/-- New-only review of a pull that was open at the activation, while no command asks for it. -/
structure NewOnly : Prop where
  policy : settings.reviewExistingOpenPrsOnActivation = false
  unscoped : settings.allowActivationBaselineCommandLookup = false
  existing : ∃ activatedAt createdAt, answers.activatedAt = some activatedAt ∧ pull.createdAt = some createdAt ∧
    createdAt ≤ activatedAt
  noCommand : answers.decision = .none

theorem NewOnly.preActivation (h : NewOnly settings pull answers) (hs : Baselined settings.repo pull.number s) :
    isPreActivationExistingPull settings pull answers s = true := by
  obtain ⟨activatedAt, createdAt, hactivated, hcreated, hle⟩ := h.existing
  obtain ⟨row, hrow, hrepo, hnumber, hbaseline⟩ := hs
  unfold isPreActivationExistingPull
  rw [h.policy, hactivated, hcreated]
  simp only [Option.any_some, hle, decide_true, Bool.not_false, Bool.true_and, List.any_eq_true]
  refine ⟨row, hrow, ?_⟩
  simp only [hrepo, hnumber, hbaseline, decide_true, Bool.true_and]

def EndsSparing (settings : ScanSettings) (pull : OpenPull) {α : Type} (p : Scan α) (d : Desk) : Prop :=
  Ends p d (fun _ d' => Spares settings.repo pull.number d.store d'.store)
    (fun d' => Spares settings.repo pull.number d.store d'.store)

theorem EndsSparing.bind {α β : Type} {p : Scan α} {f : α → Scan β} (hp : EndsSparing settings pull p d)
    (hf : ∀ a t, EndsSparing settings pull (f a) t) : EndsSparing settings pull (p >>= f) d := by
  refine Ends.bind hp ?_
  intro a t ht
  exact (hf a t).mono (fun _ _ h => ht.trans h) fun _ h => ht.trans h

theorem sparing_of_still {α : Type} {p : Scan α} (h : Ends p d (fun _ d' => Still settings pull d.store d'.store)
    (fun d' => Still settings pull d.store d'.store)) : EndsSparing settings pull p d :=
  h.mono (fun _ _ h => h.retired.spares) fun _ h => h.retired.spares

theorem transition_sparing {input : ReadinessInput} (hhead : input.head = settings.headOf pull) :
    EndsSparing settings pull (recordReadinessTransition settings input) d :=
  sparing_of_still ((transition_ends hhead).mono (fun _ _ h => h.1) fun _ h => h)

theorem skipProcessedHead_sparing : EndsSparing settings pull (skipProcessedHead settings pull) d :=
  (sparing_of_still backfillProcessed_ends).bind fun _ t => .refl t.store

theorem spares_recordProcessed (record : ProcessedReviewRecord) (now : Int)
    (hfree : hasProcessed s record.head = false) : Spares repo pullNumber s (recordProcessed record now s) :=
  ⟨fun j hj _ _ => ⟨j, hj, rfl, rfl⟩, fun hs => hs.recordProcessed hfree, id⟩

theorem skipBaselineHead_sparing : EndsSparing settings pull (skipBaselineHead settings pull) d := by
  refine change_bind.mpr ?_
  split
  · exact skipProcessedHead_sparing
  · rename_i hfree
    have hwritten : Spares settings.repo pull.number d.store _ := spares_recordProcessed
      { head := settings.headOf pull, status := .skipped, error := some ACTIVATION_BASELINE_EXISTING_HEAD_ERROR }
      settings.now (Bool.not_eq_true _ |>.mp hfree)
    exact skipProcessedHead_sparing.mono (fun _ _ h => hwritten.trans h) fun _ h => hwritten.trans h

theorem lookAtHead_sparing {row : StoredProcessedReviewRecord} :
    EndsSparing settings pull (lookAtHead settings pull answers (some row)) d := by
  refine Ends.bind (unresolvedAuthorization_ends.mono (fun _ _ h => h) fun _ h => h ▸ .refl _) ?_
  rintro authorization d' ⟨rfl, -⟩
  cases authorization.filter fun row => (openIncident row).isSome with
  | some row =>
    exact (transition_sparing rfl).bind fun _ t => .refl t.store
  | none =>
    refine look_bind.mpr ?_
    rw [Option.isSome_some, Bool.true_or, if_pos rfl]
    exact (sparing_of_still backfillProcessed_ends).bind fun _ t => .refl t.store

theorem superseding_sparing {p : Scan EnqueueStatus} (hp : ∀ t, EndsSparing settings pull p t) :
    EndsSparing settings pull (superseding settings pull p) d :=
  EndsSparing.bind ((retireSupersededQueueJobsForPull_ends d).mono (fun _ _ h => h.1.spares) fun _ h => h.spares)
    fun _ t => hp t

theorem discoverEligible_sparing (hnew : NewOnly settings pull answers)
    (hs : Baselined settings.repo pull.number d.store) :
    EndsSparing settings pull (discoverEligible settings pull answers) d := by
  refine look_bind.mpr (look_bind.mpr ?_)
  rw [hnew.unscoped, hnew.preActivation hs]
  cases getProcessedReview d.store (settings.headOf pull) with
  | none =>
    exact superseding_sparing fun t => skipBaselineHead_sparing
  | some row =>
    refine Ends.ite (fun h => ?_) fun _ => ?_
    · simp at h
    refine Ends.ite (fun _ => superseding_sparing fun t => skipProcessedHead_sparing) fun _ => ?_
    unfold passBaseline
    rw [hnew.noCommand]
    exact superseding_sparing fun t => lookAtHead_sparing

theorem enqueuePullIfEligible_sparing (hnew : NewOnly settings pull answers)
    (hs : Baselined settings.repo pull.number d.store) :
    EndsSparing settings pull (enqueuePullIfEligible settings pull answers) d := by
  refine Ends.ite (fun _ => ?_) fun _ => ?_
  · exact EndsSparing.bind ((retireQueuedJobsForClosedPull_ends d).mono (fun _ _ h => h.1.spares) fun _ h => h.spares)
      fun _ t => .refl t.store
  refine Ends.bind ((markSupersededReadinessRowsForPull_ends d).mono (fun _ _ h => h) fun _ h => h.spares) ?_
  rintro _ t ⟨hretired, -⟩
  have hspares : Spares settings.repo pull.number d.store t.store := hretired.spares
  have hskip : ∀ reason status, EndsSparing settings pull (skipWithReadiness settings pull reason status) t := by
    intro reason status
    exact (transition_sparing rfl).bind fun _ u => .refl u.store
  have hrest : EndsSparing settings pull (if settings.skipDrafts && pull.draft then
      skipWithReadiness settings pull "draft_pr" .skipped_draft
    else if !settings.isCanaryAllowed pull.number then skipWithReadiness settings pull "canary_policy" .skipped_canary
    else discoverEligible settings pull answers) t := by
    refine Ends.ite (fun _ => hskip _ _) fun _ => Ends.ite (fun _ => hskip _ _) fun _ => ?_
    exact discoverEligible_sparing hnew (hspares.baseline hs)
  exact hrest.mono (fun _ _ h => hspares.trans h) fun _ h => hspares.trans h

/-! ## Runs -/

theorem scanPulls_sparing (pulls : List (Scanned settings))
    (hclean : ∀ scanned ∈ pulls, Clean (settings.headOf scanned.pull))
    (hnew : ∀ scanned ∈ pulls, settings.repo = repo → scanned.pull.number = pullNumber →
      NewOnly settings scanned.pull scanned.answers)
    (hs : Baselined repo pullNumber d.store) (hnamed : Named d.store) :
    Ends (scanPulls settings pulls) d (fun _ d' => Spares repo pullNumber d.store d'.store)
      (fun d' => Spares repo pullNumber d.store d'.store) := by
  induction pulls generalizing d with
  | nil => exact .refl d.store
  | cons scanned rest ih =>
    have hcleanHead := hclean scanned (List.mem_cons_self ..)
    have hfirst : Ends (enqueuePullIfEligible settings scanned.pull scanned.answers) d
        (fun _ d' => Spares repo pullNumber d.store d'.store)
        (fun d' => Spares repo pullNumber d.store d'.store) := by
      by_cases hown : settings.repo = repo ∧ scanned.pull.number = pullNumber
      · obtain ⟨rfl, rfl⟩ := hown
        exact enqueuePullIfEligible_sparing (hnew scanned (List.mem_cons_self ..) rfl rfl) hs
      · exact (enqueuePullIfEligible_ends hcleanHead hnamed).mono (fun _ _ h => h.1.spares hcleanHead hown)
          fun _ h => h.spares hcleanHead hown
    refine Ends.bind hfirst ?_
    intro status t ht
    refine Ends.bind ((ih (fun q hq => hclean q (List.mem_cons_of_mem _ hq))
      (fun q hq => hnew q (List.mem_cons_of_mem _ hq)) (ht.baseline hs) (ht.named hnamed)).mono
        (fun _ _ h => ht.trans h) fun _ h => ht.trans h) ?_
    intro statuses u hu
    exact hu

end

section
variable {repo : String} {pullNumber : Nat} {s s' : State}

/-- What the workers do between the scans: jobs are rewritten under their names, and the processed rows of the pull
stay. -/
structure Worked (repo : String) (pullNumber : Nat) (s s' : State) : Prop where
  jobs : ∃ f : ReviewQueueJobRecord → ReviewQueueJobRecord, s'.jobs.rows = s.jobs.rows.map f ∧
    ∀ j ∈ s.jobs.rows, (f j).jobId = j.jobId ∧ (f j).head = j.head ∧ (f j).attemptId = j.attemptId
  processed : ∀ row ∈ s.processed.rows, row.head.repo = repo → row.head.pullNumber = pullNumber →
    row ∈ s'.processed.rows

theorem Worked.spares (h : Worked repo pullNumber s s') : Spares repo pullNumber s s' where
  jobs j hj _ _ := by
    obtain ⟨f, hrows, hkeep⟩ := h.jobs
    rw [hrows] at hj
    obtain ⟨i, hi, rfl⟩ := List.mem_map.mp hj
    exact ⟨i, hi, (hkeep i hi).1.symm, (hkeep i hi).2.1.symm⟩
  baseline := by
    rintro ⟨row, hrow, hrepo, hnumber, hbaseline⟩
    exact ⟨row, h.processed row hrow hrepo hnumber, hrepo, hnumber, hbaseline⟩
  named hs := by
    obtain ⟨f, hrows, hkeep⟩ := h.jobs
    intro j hj
    rw [hrows] at hj
    obtain ⟨i, hi, rfl⟩ := List.mem_map.mp hj
    obtain ⟨-, hhead, hattempt⟩ := hkeep i hi
    rw [hhead, hattempt]
    exact hs i hi

/-- Scans, of any repository, in which no command asks for the pull, and the work in between. -/
inductive NewOnlyRun (repo : String) (pullNumber : Nat) (s : State) : State → Prop where
  | start : NewOnlyRun repo pullNumber s s
  | scan {t : State} (settings : ScanSettings) (pulls : List (Scanned settings)) (asks : List Ask)
    (hrun : NewOnlyRun repo pullNumber s t)
    (hclean : ∀ scanned ∈ pulls, Clean (settings.headOf scanned.pull))
    (hnew : ∀ scanned ∈ pulls, settings.repo = repo → scanned.pull.number = pullNumber →
      NewOnly settings scanned.pull scanned.answers) :
    NewOnlyRun repo pullNumber s (after (scanPulls settings pulls) ⟨t, asks⟩).store
  | work {t u : State} (hrun : NewOnlyRun repo pullNumber s t) (h : Worked repo pullNumber t u) :
    NewOnlyRun repo pullNumber s u

theorem NewOnlyRun.spares (hs : Baselined repo pullNumber s) (hnamed : Named s)
    (hrun : NewOnlyRun repo pullNumber s s') : Spares repo pullNumber s s' := by
  induction hrun with
  | start => exact .refl s
  | scan settings pulls asks hrun hclean hnew ih =>
    have hscan := scanPulls_sparing (d := ⟨_, asks⟩) pulls hclean hnew (ih.baseline hs) (ih.named hnamed)
    exact ih.trans (ends_after (R := fun d' : Desk => Spares repo pullNumber _ d'.store) |>.mp hscan)
  | work hrun h ih => exact ih.trans h.spares

end

/-- The baseline of an activation stands for good. However often the repository is scanned, whatever heads the pull is
pushed to, and wherever a scan breaks off, no job of a baselined pull comes into being while no command and no scoped
scan asks for it. -/
theorem baseline_never_taken_on (input : ActivationInput) (pulls : List OpenPull) (pull : OpenPull) (s s' : State)
    (hnamed : Named s) (hactivated : (activateRepoForNewOnlyReview input pulls s).1.activated = true)
    (hnew : input.reviewExistingOpenPrsOnActivation = false) (hpull : pull ∈ pulls)
    (hdraft : (input.skipDrafts && pull.draft) = false) (hfree : hasProcessed s (input.headOf pull) = false)
    (hrun : NewOnlyRun input.repo pull.number (activateRepoForNewOnlyReview input pulls s).2 s') :
    ∀ j ∈ s'.jobs.rows, j.repo = input.repo → j.pullNumber = pull.number →
      ∃ i ∈ s.jobs.rows, i.jobId = j.jobId ∧ i.head = j.head := by
  have hbaselined := activateRepoForNewOnlyReview_baselines input pulls hactivated hnew hpull hdraft hfree
  have hjobs := activateRepoForNewOnlyReview_jobs input pulls s
  have hnamedAfter : Named (activateRepoForNewOnlyReview input pulls s).2 := by
    unfold Named
    rw [hjobs]
    exact hnamed
  intro j hj hrepo hnumber
  have hspares := hrun.spares hbaselined hnamedAfter
  rw [← hjobs]
  exact hspares.jobs j hj hrepo hnumber

/-! ## A pull that is pushed to after the activation -/

def newRepo : ActivationInput where
  repo := "o/r"
  reviewExistingOpenPrsOnActivation := false
  skipDrafts := true
  canaryPulls := []
  scopedPullNumber := none
  hasRepoActivation := false
  repositoryCovered := none
  isUncovered _ := false
  now := 0

def newOnlyScan : ScanSettings := { smallScan with reviewExistingOpenPrsOnActivation := false }

def oldPull : OpenPull := { openPull with createdAt := some 0 }

def pushedPull : OpenPull := { oldPull with headSha := "h2" }

def pushedAnswers : PullAnswers (newOnlyScan.headOf pushedPull) := { quietAnswers _ with activatedAt := some 0 }

def scannedPush : Scanned newOnlyScan := ⟨pushedPull, pushedAnswers⟩

theorem newOnly_push : NewOnly newOnlyScan pushedPull pushedAnswers :=
  ⟨rfl, rfl, ⟨0, 0, rfl, rfl, le_refl 0⟩, rfl⟩

theorem clean_scannedPush : ∀ scanned ∈ [scannedPush], Clean (newOnlyScan.headOf scanned.pull) := by
  intro scanned hscanned
  rw [List.mem_singleton.mp hscanned]
  exact ⟨by decide, by decide⟩

theorem baseline_never_taken_on_push :
    ((after (scanPulls newOnlyScan [scannedPush])
      ⟨(activateRepoForNewOnlyReview newRepo [oldPull] emptyDesk.store).2, []⟩).store.jobs.rows.filter
        fun j => j.repo = "o/r" && j.pullNumber = 1) = [] := by
  have hrun := NewOnlyRun.scan newOnlyScan [scannedPush] [] (.start (s :=
    (activateRepoForNewOnlyReview newRepo [oldPull] emptyDesk.store).2)) clean_scannedPush
      fun scanned hscanned (_ : "o/r" = "o/r") (_ : scanned.pull.number = 1) =>
        List.mem_singleton.mp hscanned ▸ newOnly_push
  have hnone := baseline_never_taken_on newRepo [oldPull] oldPull emptyDesk.store _ named_emptyDesk rfl rfl
    (List.mem_singleton.mpr rfl) rfl rfl hrun
  rw [List.filter_eq_nil_iff]
  intro j hj hpull
  rw [Bool.and_eq_true, decide_eq_true_eq, decide_eq_true_eq] at hpull
  obtain ⟨i, hi, -⟩ := hnone j hj hpull.1 hpull.2
  cases hi

end NeonDiff.Discovery
