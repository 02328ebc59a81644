import NeonDiff.Discovery.Model
import NeonDiff.Queue.Unfinished

/-! # What a scan makes of the rows of a pull -/

namespace NeonDiff.Discovery

open NeonDiff.Lib NeonDiff.Lib.JsText NeonDiff.Store

/-! ## The rows of a pull -/

def OfPull (settings : ScanSettings) (pull : OpenPull) (head : HeadKey) : Prop :=
  head.repo = settings.repo ∧ head.pullNumber = pull.number

def OnBoard (s : State) (head : HeadKey) : Prop :=
  ∃ row, s.readiness.find? head = some row ∧ isSupersedable row.state = true

def Finished (s : State) (jobId : String) : Prop := ∀ j ∈ s.jobs.rows, j.jobId = jobId → j.state.isTerminal = true

section
variable (settings : ScanSettings) (pull : OpenPull)

/-- The rows of every other pull stay, and no head but the live one comes onto the board. -/
structure Aside (s s' : State) : Prop where
  processed : ∀ head, ¬OfPull settings pull head → s'.processed.find? head = s.processed.find? head
  readiness : ∀ head, ¬OfPull settings pull head → s'.readiness.find? head = s.readiness.find? head
  consumptions : ∀ head, ¬OfPull settings pull head → s'.consumptions.find? head = s.consumptions.find? head
  board : ∀ head, head ≠ settings.headOf pull → OnBoard s' head → OnBoard s head

structure Retires (j j' : ReviewQueueJobRecord) : Prop extends Finishes j j' where
  ofPull : OfPull settings pull j.head
  idle : j.isActive = false
  notPosted : j.state ≠ .posted ∧ j'.state ≠ .posted

/-- Jobs of the pull are retired, and nothing else happens to the queue. -/
structure Retired (s s' : State) : Prop extends Aside settings pull s s' where
  sameProcessed : s'.processed = s.processed
  sameConsumptions : s'.consumptions = s.consumptions
  rows : Rewritten (Retires settings pull) s.jobs.rows s'.jobs.rows

def IdleOfPull (s : State) (jobId : String) : Prop :=
  ∀ j ∈ s.jobs.rows, j.jobId = jobId → OfPull settings pull j.head ∧ j.isActive = false ∧ j.state ≠ .posted

def Board (s : State) : Prop := ∀ head, OfPull settings pull head → head ≠ settings.headOf pull → ¬OnBoard s head

def OnlyLive (s : State) : Prop :=
  ∀ j ∈ s.jobs.rows, OfPull settings pull j.head → isWaiting j = true → j.head = settings.headOf pull

end

section
variable {settings : ScanSettings} {pull : OpenPull} {s s' s'' : State}

theorem ofPull_headOf : OfPull settings pull (settings.headOf pull) := ⟨rfl, rfl⟩

theorem headOf_of_sha {head : HeadKey} (hof : OfPull settings pull head) (hsha : head.headSha = pull.headSha) :
    head = settings.headOf pull := by
  cases head
  obtain ⟨rfl, rfl⟩ := hof
  cases hsha
  rfl

theorem isTerminal_of_isWaiting {j : ReviewQueueJobRecord} (h : isWaiting j = true) : j.state.isTerminal = false := by
  simp only [isWaiting, Bool.or_eq_true, decide_eq_true_eq] at h
  rcases h with (h | h) | h <;> rw [h] <;> rfl

theorem isActive_of_isWaiting {j : ReviewQueueJobRecord} (h : isWaiting j = true) : j.isActive = false := by
  simp only [isWaiting, Bool.or_eq_true, decide_eq_true_eq] at h
  rcases h with (h | h) | h <;> simp [ReviewQueueJobRecord.isActive, h]

theorem isActive_of_isTerminal {j : ReviewQueueJobRecord} (h : j.state.isTerminal = true) : j.isActive = false := by
  cases hactive : j.isActive with
  | false => rfl
  | true =>
    have hterminal := Queue.isTerminal_of_isActive hactive
    rw [h] at hterminal
    cases hterminal

/-! ## The rows aside -/

theorem Aside.refl (s : State) : Aside settings pull s s :=
  ⟨fun _ _ => rfl, fun _ _ => rfl, fun _ _ => rfl, fun _ _ h => h⟩

theorem Aside.trans (h : Aside settings pull s s') (h' : Aside settings pull s' s'') : Aside settings pull s s'' where
  processed head hhead := (h'.processed head hhead).trans (h.processed head hhead)
  readiness head hhead := (h'.readiness head hhead).trans (h.readiness head hhead)
  consumptions head hhead := (h'.consumptions head hhead).trans (h.consumptions head hhead)
  board head hhead hon := h.board head hhead (h'.board head hhead hon)

theorem Aside.keeps_board (h : Aside settings pull s s') (hs : Board settings pull s) : Board settings pull s' := by
  intro head hof hhead hon
  exact hs head hof hhead (h.board head hhead hon)

/-! ## Retiring -/

theorem Finishes.trans {i j k : ReviewQueueJobRecord} (h : Finishes i j) (h' : Finishes j k) : Finishes i k where
  finished := h'.finished
  jobId := h'.jobId.trans h.jobId
  attemptId := h'.attemptId.trans h.attemptId
  head := h'.head.trans h.head
  source := h'.source.trans h.source

theorem Retires.trans {i j k : ReviewQueueJobRecord} (h : Retires settings pull i j) (h' : Retires settings pull j k) :
    Retires settings pull i k where
  toFinishes := h.toFinishes.trans h'.toFinishes
  ofPull := h.ofPull
  idle := h.idle
  notPosted := ⟨h.notPosted.1, h'.notPosted.2⟩

theorem Retired.of_aside (h : Aside settings pull s s') (hjobs : s'.jobs = s.jobs)
    (hprocessed : s'.processed = s.processed) (hconsumptions : s'.consumptions = s.consumptions) :
    Retired settings pull s s' where
  toAside := h
  sameProcessed := hprocessed
  sameConsumptions := hconsumptions
  rows := hjobs ▸ .refl _

theorem Retired.refl (s : State) : Retired settings pull s s := .of_aside (.refl s) rfl rfl rfl

theorem Retired.trans (h : Retired settings pull s s') (h' : Retired settings pull s' s'') :
    Retired settings pull s s'' where
  toAside := h.toAside.trans h'.toAside
  sameProcessed := h'.sameProcessed.trans h.sameProcessed
  sameConsumptions := h'.sameConsumptions.trans h.sameConsumptions
  rows := h.rows.trans (fun _ _ _ => Retires.trans) h'.rows

/-- An unfinished row is an old one. -/
theorem mem_of_finishes {rows rows' : List ReviewQueueJobRecord} (h : Rewritten Finishes rows rows')
    {j : ReviewQueueJobRecord} (hj : j ∈ rows') (hopen : j.state.isTerminal = false) : j ∈ rows := by
  obtain ⟨i, hi, rfl | hfinishes⟩ := h.before hj
  · exact hi
  · have := hfinishes.finished
    rw [hopen] at this
    cases this

theorem Retired.finishes (h : Retired settings pull s s') : Rewritten Finishes s.jobs.rows s'.jobs.rows :=
  h.rows.mono fun _ _ => Retires.toFinishes

theorem Retired.keeps_finished (h : Retired settings pull s s') {jobId : String}
    (hs : Finished s jobId) : Finished s' jobId := by
  intro j hj hid
  obtain ⟨i, hi, rfl | hretires⟩ := h.rows.before hj
  · exact hs j hi hid
  · exact hretires.finished

theorem Retired.keeps_idle (h : Retired settings pull s s') {jobId : String}
    (hs : IdleOfPull settings pull s jobId) : IdleOfPull settings pull s' jobId := by
  intro j hj hid
  obtain ⟨i, hi, rfl | hretires⟩ := h.rows.before hj
  · exact hs j hi hid
  · exact ⟨hretires.head ▸ hretires.ofPull, isActive_of_isTerminal hretires.finished, hretires.notPosted.2⟩

/-! ## Readiness rows -/

/-- A readiness row is written, and nothing else. -/
structure WroteReadiness (head : HeadKey) (state : ReviewReadinessState) (s s' : State) : Prop where
  row : ∃ row, s'.readiness.find? head = some row ∧ row.state = state
  others : ∀ head', head' ≠ head → s'.readiness.find? head' = s.readiness.find? head'
  jobs : s'.jobs = s.jobs
  processed : s'.processed = s.processed
  consumptions : s'.consumptions = s.consumptions

theorem WroteReadiness.of_ok {redactSecrets : String → String} {input : ReadinessInput} {now : Int} {u : Unit}
    (h : Store.recordReviewReadiness redactSecrets input now s = .ok (u, s')) :
    WroteReadiness input.head input.state s s' := by
  unfold Store.recordReviewReadiness at h
  split at h
  · cases h
  dsimp only at h
  split at h
  · rename_i hsame
    obtain ⟨-, rfl⟩ := Prod.mk.inj (Except.ok.inj h)
    cases hexisting : getReviewReadiness s input.head with
    | none =>
      rw [hexisting] at hsame
      cases hsame
    | some existing =>
      rw [hexisting] at hsame
      obtain ⟨row, hrow, rfl⟩ := Option.map_eq_some_iff.mp hexisting
      have hstate : input.state = row.state := by
        simp only [Option.any_some, sameReadiness, readinessRow, Bool.and_eq_true, decide_eq_true_eq] at hsame
        exact hsame.1.1.1.1.1
      exact ⟨⟨row, hrow, hstate.symm⟩, fun _ _ => rfl, rfl, rfl, rfl⟩
  · obtain ⟨-, rfl⟩ := Prod.mk.inj (Except.ok.inj h)
    refine ⟨⟨readinessRow redactSecrets input now (getReviewReadiness s input.head), ?_, rfl⟩, ?_, rfl, rfl, rfl⟩
    · rw [Table.find?_upsert]
      exact if_pos rfl
    · intro head' hhead
      rw [Table.find?_upsert]
      exact if_neg hhead.symm

theorem callStore_ends {α : Type} {f : State → Outcome α} {d : Desk} {Q : α → Desk → Prop} {R : Desk → Prop}
    (hok : ∀ a s', f d.store = .ok (a, s') → Q a { d with store := s' }) (herror : R d) : Ends (callStore f) d Q R := by
  unfold Ends callStore
  cases h : f d.store with
  | error e => exact herror
  | ok r => exact hok r.1 r.2 h

theorem recordReviewReadiness_ends (input : ReadinessInput) (d : Desk) :
    Ends (recordReviewReadiness settings input) d
      (fun _ d' => WroteReadiness input.head input.state d.store d'.store) (fun d' => d' = d) := by
  refine Ends.bind (callStore_ends (fun u s' h => ?_) rfl) (fun _ _ h => h)
  exact WroteReadiness.of_ok h

theorem recordReadinessTransition_ends (input : ReadinessInput) (d : Desk) :
    Ends (recordReadinessTransition settings input) d
      (fun _ d' => WroteReadiness input.head input.state d.store d'.store) (fun d' => d' = d) :=
  recordReviewReadiness_ends _ d

theorem WroteReadiness.aside {head : HeadKey} {state : ReviewReadinessState} (h : WroteReadiness head state s s')
    (hof : OfPull settings pull head) (hboard : head = settings.headOf pull ∨ isSupersedable state = false) :
    Aside settings pull s s' where
  processed _ _ := by rw [h.processed]
  readiness head' hhead' := h.others head' fun heq => hhead' (heq ▸ hof)
  consumptions _ _ := by rw [h.consumptions]
  board head' hlive hon := by
    obtain ⟨row, hrow, hshown⟩ := hon
    by_cases heq : head' = head
    · subst heq
      obtain ⟨row', hrow', hstate⟩ := h.row
      obtain rfl := Option.some.inj (hrow.symm.trans hrow')
      rcases hboard with hboard | hboard
      · exact absurd hboard hlive
      · rw [hstate, hboard] at hshown
        cases hshown
    · rw [h.others head' heq] at hrow
      exact ⟨row, hrow, hshown⟩

/-! ## The board -/

theorem mem_listReviewReadinessForPull {repo : String} {pullNumber : Nat} {rows : List ReviewReadinessRecord}
    (h : listReviewReadinessForPull repo pullNumber s = .ok (rows, s')) :
    s' = s ∧ ∀ r ∈ s.readiness.rows, r.head.repo = repo → r.head.pullNumber = pullNumber →
      isSupersedable r.state = true → mapReviewReadinessRow r ∈ rows := by
  unfold listReviewReadinessForPull at h
  split at h
  · cases h
  obtain ⟨rfl, rfl⟩ := Prod.mk.inj (Except.ok.inj h)
  refine ⟨rfl, ?_⟩
  intro r hr hrepo hnumber hshown
  refine List.mem_map_of_mem (List.mem_insertionSort _ |>.mpr (List.mem_filter.mpr ⟨hr, ?_⟩))
  simp [hrepo, hnumber, hshown]

theorem markSupersededReadinessRowsForPull_ends (d : Desk) :
    Ends (markSupersededReadinessRowsForPull settings pull) d
      (fun _ d' => Retired settings pull d.store d'.store ∧ Board settings pull d'.store)
      (fun d' => Retired settings pull d.store d'.store) := by
  refine Ends.bind (Q := fun rows d' => d' = d ∧ ∀ r ∈ d.store.readiness.rows, r.head.repo = settings.repo →
    r.head.pullNumber = pull.number → isSupersedable r.state = true → mapReviewReadinessRow r ∈ rows)
    (callStore_ends (fun rows s' h => ?_) (.refl _)) ?_
  · obtain ⟨rfl, hrows⟩ := mem_listReviewReadinessForPull h
    exact ⟨rfl, hrows⟩
  rintro rows _ ⟨rfl, hrows⟩
  refine (Ends.forM (T := fun d d' => Retired settings pull d.store d'.store)
    (P := fun readiness d' => readiness.head.headSha ≠ pull.headSha →
      ¬OnBoard d'.store ⟨settings.repo, pull.number, readiness.head.headSha⟩)
    (fun _ => .refl _) (fun _ _ _ => Retired.trans) ?_ ?_).mono ?_ fun _ h => h
  · intro readiness t u htu ht hsha hon
    refine ht hsha (htu.board _ (fun heq => hsha ?_) hon)
    exact congrArg HeadKey.headSha heq
  · intro readiness _ t _
    refine Ends.ite (fun hsha => ⟨.refl _, fun hne => absurd hsha hne⟩) fun hsha => ?_
    refine (recordReviewReadiness_ends _ t).mono ?_ ?_
    · intro _ u hwrote
      refine ⟨.of_aside (hwrote.aside ⟨rfl, rfl⟩ (.inr rfl)) hwrote.jobs hwrote.processed hwrote.consumptions, ?_⟩
      rintro - ⟨row, hrow, hshown⟩
      obtain ⟨row', hrow', hstate⟩ := hwrote.row
      obtain rfl := Option.some.inj (hrow.symm.trans hrow')
      rw [hstate] at hshown
      cases hshown
    · rintro u rfl
      exact .refl _
  · rintro _ d' ⟨hretired, hdone⟩
    refine ⟨hretired, ?_⟩
    rintro head ⟨hrepo, hnumber⟩ hlive hon
    obtain ⟨row, hrow, hshown⟩ := hretired.board head hlive hon
    obtain ⟨hmem, rfl⟩ := Table.find?_eq_some.mp hrow
    refine hdone _ (hrows row hmem hrepo hnumber hshown) (fun hsha => hlive ?_) ?_
    · exact headOf_of_sha ⟨hrepo, hnumber⟩ hsha
    · rw [← hrepo, ← hnumber]
      exact hon

/-! ## Queue rows -/

/-- One job is updated, and nothing else. -/
structure UpdatedQueue (settings : ScanSettings) (input : UpdateJobInput) (s s' : State) : Prop where
  rows : s'.jobs.rows = s.jobs.rows.map fun j =>
    if j.jobId = input.jobId then updatedJob settings.texts.redactSecrets input settings.now j else j
  processed : s'.processed = s.processed
  readiness : s'.readiness = s.readiness
  consumptions : s'.consumptions = s.consumptions

theorem updateReviewQueueJobState_ends (input : UpdateJobInput) (d : Desk) :
    Ends (updateReviewQueueJobState settings input) d
      (fun _ d' => UpdatedQueue settings input d.store d'.store) (fun d' => d' = d) := by
  refine Ends.bind (callStore_ends (fun u s' h => ?_) rfl) (fun _ _ h => h)
  unfold Store.updateReviewQueueJobState at h
  split at h
  · cases h
  · obtain ⟨-, rfl⟩ := Prod.mk.inj (Except.ok.inj h)
    exact ⟨rfl, rfl, rfl, rfl⟩

theorem UpdatedQueue.aside {input : UpdateJobInput} (h : UpdatedQueue settings input s s') :
    Aside settings pull s s' where
  processed _ _ := by rw [h.processed]
  readiness _ _ := by rw [h.readiness]
  consumptions _ _ := by rw [h.consumptions]
  board _ _ hon := by
    obtain ⟨row, hrow, hshown⟩ := hon
    exact ⟨row, h.readiness ▸ hrow, hshown⟩

theorem UpdatedQueue.retired {input : UpdateJobInput} (h : UpdatedQueue settings input s s')
    (hidle : IdleOfPull settings pull s input.jobId) (hterminal : input.state.isTerminal = true)
    (hposted : input.state ≠ .posted) : Retired settings pull s s' ∧ Finished s' input.jobId := by
  refine ⟨⟨h.aside, h.processed, h.consumptions, _, h.rows, ?_⟩, ?_⟩
  · intro j hj
    by_cases hid : j.jobId = input.jobId
    · rw [if_pos hid]
      obtain ⟨hof, hfree, hold⟩ := hidle j hj hid
      exact .inr ⟨⟨hterminal, rfl, rfl, rfl, rfl⟩, hof, hfree, hold, hposted⟩
    · rw [if_neg hid]
      exact .inl rfl
  · intro j' hj' hid'
    rw [h.rows] at hj'
    obtain ⟨j, -, rfl⟩ := List.mem_map.mp hj'
    by_cases hid : j.jobId = input.jobId
    · rw [if_pos hid]
      exact hterminal
    · rw [if_neg hid] at hid'
      exact absurd hid' hid

theorem ask_ends {a : Ask} {d : Desk} {Q : PUnit → Desk → Prop} {R : Desk → Prop}
    (h : ∀ asks, Q ⟨⟩ { d with asks := asks }) : Ends (ask a) d Q R := h _

/-- A retirement as the source writes it: finished without a review, and off the board. -/
structure Retirement.Proper (retirement : Retirement) : Prop where
  terminal : retirement.state.isTerminal = true
  notPosted : retirement.state ≠ .posted
  off : isSupersedable retirement.readinessState = false

theorem proper_superseded : (supersededRetirement pull).Proper := by
  refine ⟨rfl, ?_, rfl⟩
  intro h
  cases h

theorem proper_closed : (closedRetirement pull).Proper := by
  refine ⟨rfl, ?_, rfl⟩
  intro h
  cases h

theorem retireJob_ends {retirement : Retirement} (hproper : retirement.Proper) {job : ReviewQueueJobRecord} {d : Desk}
    (hidle : IdleOfPull settings pull d.store job.jobId) :
    Ends (retireJob settings pull retirement job) d
      (fun _ d' => Retired settings pull d.store d'.store ∧ Finished d'.store job.jobId)
      (fun d' => Retired settings pull d.store d'.store) := by
  refine Ends.bind ((updateReviewQueueJobState_ends _ d).mono (fun _ d' h => ?_) (fun d' h => h ▸ .refl _))
    (Q := fun _ d' => Retired settings pull d.store d'.store ∧ Finished d'.store job.jobId) ?_
  · exact h.retired hidle hproper.terminal hproper.notPosted
  rintro _ t ⟨hretired, hdone⟩
  refine Ends.bind ((recordReadinessTransition_ends _ t).mono (fun _ u h => ?_) (fun u h => h ▸ hretired))
    (Q := fun _ d' => Retired settings pull d.store d'.store ∧ Finished d'.store job.jobId) ?_
  · have haside : Aside settings pull t.store u.store := h.aside ⟨rfl, rfl⟩ (.inr hproper.off)
    exact ⟨hretired.trans (.of_aside haside h.jobs h.processed h.consumptions), by rwa [Finished, h.jobs]⟩
  rintro _ u hu
  refine Ends.bind (Q := fun _ d' => Retired settings pull d.store d'.store ∧ Finished d'.store job.jobId) ?_ ?_
  · exact Ends.ite (fun _ => hu) fun _ => ask_ends fun _ => hu
  · intro _ v hv
    exact ask_ends fun _ => hv

theorem idle_of_listed {jobs : List ReviewQueueJobRecord}
    (hjobs : jobs = (listReviewQueueJobsForPull s settings.repo pull.number).filter isWaiting) :
    ∀ job ∈ jobs, IdleOfPull settings pull s job.jobId := by
  subst hjobs
  intro job hjob j hj hid
  obtain ⟨hlisted, hwaiting⟩ := List.mem_filter.mp hjob
  obtain ⟨row, hrow, rfl⟩ := List.mem_map.mp hlisted
  obtain ⟨hmem, hof⟩ := List.mem_filter.mp (List.mem_insertionSort _ |>.mp hrow)
  obtain rfl := s.jobs.toTable.eq_of_key_eq hj hmem hid
  simp only [Bool.and_eq_true, decide_eq_true_eq] at hof
  refine ⟨hof, isActive_of_isWaiting hwaiting, ?_⟩
  intro hposted
  have hopen := isTerminal_of_isWaiting hwaiting
  rw [show (mapReviewQueueJobRow j).state = .posted from hposted] at hopen
  cases hopen

theorem mem_listed {j : ReviewQueueJobRecord} (hj : j ∈ s.jobs.rows) (hof : OfPull settings pull j.head)
    (hwaiting : isWaiting j = true) :
    mapReviewQueueJobRow j ∈ (listReviewQueueJobsForPull s settings.repo pull.number).filter isWaiting := by
  have hrow : j ∈ s.jobs.rows.filter fun j => j.repo = settings.repo && j.pullNumber = pull.number := by
    refine List.mem_filter.mpr ⟨hj, ?_⟩
    simp only [Bool.and_eq_true, decide_eq_true_eq]
    exact hof
  exact List.mem_filter.mpr ⟨List.mem_map_of_mem (List.mem_insertionSort _ |>.mpr hrow), hwaiting⟩

theorem retireJobs_ends {retirement : Retirement} (hproper : retirement.Proper) {jobs : List ReviewQueueJobRecord}
    {d : Desk} (hidle : ∀ job ∈ jobs, IdleOfPull settings pull d.store job.jobId) :
    Ends (jobs.forM (retireJob settings pull retirement)) d
      (fun _ d' => Retired settings pull d.store d'.store ∧ ∀ job ∈ jobs, Finished d'.store job.jobId)
      (fun d' => Retired settings pull d.store d'.store) := by
  refine Ends.forM (T := fun d d' : Desk => Retired settings pull d.store d'.store)
    (P := fun (job : ReviewQueueJobRecord) (d' : Desk) => Finished d'.store job.jobId)
    (fun _ => .refl _) (fun _ _ _ => Retired.trans) (fun _ _ _ h => h.keeps_finished) ?_
  intro job hjob t ht
  exact retireJob_ends hproper (ht.keeps_idle (hidle job hjob))

theorem retireSupersededQueueJobsForPull_ends (d : Desk) :
    Ends (retireSupersededQueueJobsForPull settings pull) d
      (fun _ d' => Retired settings pull d.store d'.store ∧ OnlyLive settings pull d'.store)
      (fun d' => Retired settings pull d.store d'.store) := by
  refine Ends.bind (Q := fun jobs d' => d' = d ∧ jobs = _) ⟨rfl, rfl⟩ ?_
  rintro jobs _ ⟨rfl, hjobs⟩
  refine (retireJobs_ends proper_superseded fun job hjob =>
    idle_of_listed hjobs job (List.mem_of_mem_filter hjob)).mono ?_ fun _ h => h
  rintro _ d' ⟨hretired, hdone⟩
  refine ⟨hretired, ?_⟩
  intro j hj hof hwaiting
  by_contra hother
  have hbefore := mem_of_finishes hretired.finishes hj (isTerminal_of_isWaiting hwaiting)
  have hfinished := hdone (mapReviewQueueJobRow j) ?_ j hj rfl
  · rw [isTerminal_of_isWaiting hwaiting] at hfinished
    cases hfinished
  · refine List.mem_filter.mpr ⟨hjobs ▸ mem_listed hbefore hof hwaiting, ?_⟩
    exact decide_eq_true fun hsha => hother (headOf_of_sha hof hsha)

theorem retireQueuedJobsForClosedPull_ends (d : Desk) :
    Ends (retireQueuedJobsForClosedPull settings pull) d
      (fun _ d' => Retired settings pull d.store d'.store ∧
        ∀ j ∈ d'.store.jobs.rows, OfPull settings pull j.head → isWaiting j = false)
      (fun d' => Retired settings pull d.store d'.store) := by
  refine Ends.bind (Q := fun jobs d' => d' = d ∧ jobs = _) ⟨rfl, rfl⟩ ?_
  rintro jobs _ ⟨rfl, hjobs⟩
  refine (retireJobs_ends proper_closed (idle_of_listed hjobs)).mono ?_ fun _ h => h
  rintro _ d' ⟨hretired, hdone⟩
  refine ⟨hretired, ?_⟩
  intro j hj hof
  cases hwaiting : isWaiting j with
  | false => rfl
  | true =>
    have hbefore := mem_of_finishes hretired.finishes hj (isTerminal_of_isWaiting hwaiting)
    have hfinished := hdone (mapReviewQueueJobRow j) (hjobs ▸ mem_listed hbefore hof hwaiting) j hj rfl
    rw [isTerminal_of_isWaiting hwaiting] at hfinished
    cases hfinished

end

end NeonDiff.Discovery
