import NeonDiff.Gate.Model

/-! # When the gate passes

The gate is safe on a head if it passes only when no unfinished job of the head is newer than its row,
and a carried row only when the carried head stands as a non-blocking post.
-/

namespace NeonDiff.Gate

open NeonDiff.Lib NeonDiff.Store

/-! ## The property -/

def Uncovered (processed : Option StoredProcessedReviewRecord) (job : ReviewQueueJobRecord) : Prop :=
  job.state.isTerminal = false ∧ ∀ p, processed = some p → parseStoreTimestamp p.createdAt < job.updatedAt

def JobsCovered (s : State) (head : HeadKey) : Prop :=
  ∀ job ∈ s.jobs.rows, job.head = head → ¬ Uncovered (getProcessedReview s head) job

/-- A carried skip stands on a posted row that does not request changes. -/
def CarrySound (s : State) (head : HeadKey) : Prop :=
  ∀ p, getProcessedReview s head = some p → p.status = .skipped → p.error = some baseMergeOnly →
    ∃ sha a, p.carriedFromHead = some sha ∧ getProcessedReview s { head with headSha := sha } = some a ∧
      a.status = .posted ∧ a.event ≠ some .requestChanges

def GateSafe (s : State) (head : HeadKey) (now : Int) : Prop :=
  ∀ r, buildReviewHeadGate s head now = .ok r → r.decision = .passed → JobsCovered s head ∧ CarrySound s head

/-! ## The jobs of a head -/

/-! ## What passes -/

/-- What decides once no active job stands before it, and passes. -/
def PassingEvidence (s : State) (head : HeadKey) : Prop :=
  match getProcessedReview s head with
  | some p =>
    match (carryAnchor s head).filter fun a => a.status = .posted with
    | some a => a.event ≠ some .requestChanges
    | none => p.status = .posted ∧ p.event ≠ some .requestChanges
  | none =>
    match (headJobs s head).find? isTerminalQueueJob with
    | some job => job.state = .posted ∧ job.reviewUrl.isSome
    | none => ∃ r, getReviewReadiness s head = some r ∧ r.state = .readyForHuman ∧ r.reviewUrl.isSome

theorem decisionFromProcessed_passed {p : StoredProcessedReviewRecord} :
    decisionFromProcessed p = .passed ↔ p.status = .posted ∧ p.event ≠ some .requestChanges := by
  unfold decisionFromProcessed
  cases p.status <;> simp

theorem decisionFromQueueJob_passed {job : ReviewQueueJobRecord} :
    decisionFromQueueJob job = .passed ↔ job.state = .posted ∧ job.reviewUrl.isSome := by
  unfold decisionFromQueueJob
  cases job.state <;> simp [Option.isSome_iff_ne_none]

theorem decisionFromReadiness_passed {r : ReviewReadinessRecord} :
    decisionFromReadiness r = .passed ↔ r.state = .readyForHuman ∧ r.reviewUrl.isSome := by
  unfold decisionFromReadiness
  cases r.state <;> simp [Option.isSome_iff_ne_none]

theorem settledDecision_passed {s : State} {head : HeadKey} :
    settledDecision (gateInput s head) = .passed ↔ PassingEvidence s head := by
  unfold settledDecision PassingEvidence gateInput
  cases hp : getProcessedReview s head with
  | some p =>
    simp only
    cases ha : (carryAnchor s head).filter fun a => a.status = .posted with
    | some a =>
      have hposted : a.status = .posted := by
        have := (Option.filter_eq_some_iff.mp ha).2
        simpa using this
      simp [decisionFromProcessed_passed, hposted]
    | none => simp [decisionFromProcessed_passed]
  | none =>
    simp only
    cases (headJobs s head).find? isTerminalQueueJob with
    | some job => exact decisionFromQueueJob_passed
    | none =>
      cases getReviewReadiness s head with
      | some r => simpa using decisionFromReadiness_passed
      | none => simp

theorem decide_passed_iff {input : GateInput} :
    decideReviewHeadGate input = .passed ↔ blockingJob input = none ∧ settledDecision input = .passed := by
  unfold decideReviewHeadGate
  cases hb : blockingJob input with
  | none => simp
  | some job =>
    have hactive : isActiveQueueJob job = true := by
      have hf := (Option.filter_eq_some_iff.mp hb).1
      exact List.find?_some hf
    simp only [decisionFromQueueJob_passed, reduceCtorEq, false_and, iff_false, not_and]
    intro hposted
    simp [isActiveQueueJob, hposted] at hactive

theorem gate_decision {s : State} {head : HeadKey} {now : Int} {r : ReviewHeadGateResult}
    (h : buildReviewHeadGate s head now = .ok r) : r.decision = decideReviewHeadGate (gateInput s head) := by
  unfold buildReviewHeadGate at h
  split at h
  · cases h
  · obtain rfl := Except.ok.inj h
    rfl

/-! ## The carried row -/

theorem carryAnchor_posted {s : State} {head : HeadKey} {a : StoredProcessedReviewRecord}
    (h : (carryAnchor s head).filter (fun a => a.status = .posted) = some a) :
    ∃ p sha, getProcessedReview s head = some p ∧ p.status = .skipped ∧ p.error = some baseMergeOnly ∧
      p.carriedFromHead = some sha ∧ getProcessedReview s { head with headSha := sha } = some a ∧
      a.status = .posted := by
  obtain ⟨ha, hposted⟩ := Option.filter_eq_some_iff.mp h
  obtain ⟨sha, hsha, hrow⟩ := Option.bind_eq_some_iff.mp ha
  obtain ⟨p, hp, hcarried⟩ := Option.bind_eq_some_iff.mp hsha
  obtain ⟨hp, hskip⟩ := Option.filter_eq_some_iff.mp hp
  simp only [Bool.and_eq_true, decide_eq_true_eq] at hskip
  exact ⟨p, sha, hp, hskip.1, hskip.2, hcarried, hrow, by simpa using hposted⟩

theorem passingEvidence_carrySound {s : State} {head : HeadKey} (h : PassingEvidence s head) : CarrySound s head := by
  intro p hp hskip herror
  unfold PassingEvidence at h
  simp only [hp] at h
  cases ha : (carryAnchor s head).filter fun a => a.status = .posted with
  | some a =>
    simp only [ha] at h
    obtain ⟨q, sha, hq, -, -, hcarried, hrow, hposted⟩ := carryAnchor_posted ha
    obtain rfl := Option.some.inj (hp.symm.trans hq)
    exact ⟨sha, a, hcarried, hrow, hposted, h⟩
  | none =>
    simp only [ha, hskip] at h
    exact absurd h.1 (by decide)

/-! ## The queue -/

def FirstActiveCovered (s : State) (head : HeadKey) : Prop :=
  ∀ job, (headJobs s head).find? isActiveQueueJob = some job →
    ∃ p, getProcessedReview s head = some p ∧ job.updatedAt ≤ parseStoreTimestamp p.createdAt

theorem blockingJob_eq_none {s : State} {head : HeadKey} :
    blockingJob (gateInput s head) = none ↔ FirstActiveCovered s head := by
  unfold blockingJob FirstActiveCovered gateInput
  rw [Option.filter_eq_none_iff]
  refine forall_congr' fun job => imp_congr_right fun _ => ?_
  cases getProcessedReview s head with
  | none => simp
  | some p => simp [isQueueJobNewerThanProcessed]

theorem gate_passes_iff {s : State} {head : HeadKey} {now : Int} {r : ReviewHeadGateResult}
    (h : buildReviewHeadGate s head now = .ok r) :
    r.decision = .passed ↔ FirstActiveCovered s head ∧ PassingEvidence s head := by
  rw [gate_decision h, decide_passed_iff, blockingJob_eq_none, settledDecision_passed]

/-- The gate is unsafe exactly where an uncovered job of the head hides behind a covered first active
job, or behind none, while the row, the carried row, a posted job or the readiness passes. -/
theorem gate_safe_iff (s : State) (head : HeadKey) (now : Int) :
    GateSafe s head now ↔
      ¬ (validateHead head = .ok () ∧
        (∃ job ∈ s.jobs.rows, job.head = head ∧ Uncovered (getProcessedReview s head) job) ∧
        FirstActiveCovered s head ∧ PassingEvidence s head) := by
  constructor
  · rintro hsafe ⟨hvalid, ⟨job, hjob, hhead, huncovered⟩, hcovered, hevidence⟩
    obtain ⟨r, hr⟩ : ∃ r, buildReviewHeadGate s head now = .ok r := by
      unfold buildReviewHeadGate
      rw [hvalid]
      exact ⟨_, rfl⟩
    exact (hsafe r hr ((gate_passes_iff hr).mpr ⟨hcovered, hevidence⟩)).1 job hjob hhead huncovered
  · intro hnot r hr hdecision
    obtain ⟨hcovered, hevidence⟩ := (gate_passes_iff hr).mp hdecision
    refine ⟨?_, passingEvidence_carrySound hevidence⟩
    intro job hjob hhead huncovered
    refine hnot ⟨?_, ⟨job, hjob, hhead, huncovered⟩, hcovered, hevidence⟩
    unfold buildReviewHeadGate at hr
    split at hr
    · cases hr
    · assumption

/-! ## A blocked job behind a posted row -/

def blockedHead : HeadKey := ⟨"acme/app", 7, "0123456789abcdef0123456789abcdef01234567"⟩

def blockedState : State where
  processed := ⟨[{ head := blockedHead, status := .posted, event := some .comment
                   reviewUrl := some "https://github.com/acme/app/pull/7", createdAt := .iso 1000 }], by decide⟩
  jobs := {
    rows := [{ jobId := "j1", attemptId := "manual:acme/app#7:1", source := .manualCommand, lane := .manual
               repo := "acme/app", org := "acme", pullNumber := 7, headSha := blockedHead.headSha, priority := 10
               state := .blockedOnProof, createdAt := 1500, updatedAt := 2000 }]
    nodup := by decide
    attempts := by decide }

/-- The gate passes while the proof-blocked job of the same head is newer than the posted row. -/
theorem gate_unsafe_behind_blocked : ¬ GateSafe blockedState blockedHead 3000 := by
  intro hsafe
  have hpassed : ∃ r, buildReviewHeadGate blockedState blockedHead 3000 = .ok r ∧ r.decision = .passed :=
    ⟨_, rfl, by decide⟩
  obtain ⟨r, hr, hdecision⟩ := hpassed
  refine (hsafe r hr hdecision).1 _ (List.mem_singleton.mpr rfl) rfl ⟨rfl, ?_⟩
  intro p hp
  obtain rfl := Option.some.inj hp
  decide

end NeonDiff.Gate
