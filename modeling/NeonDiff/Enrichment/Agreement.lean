import NeonDiff.Enrichment.Counting

/-! # The lane receipt agrees with the cycle -/

open NeonDiff.Lib NeonDiff.Receipts

namespace NeonDiff.Enrichment

/-! ## The status -/

def statusOf (enabled noneAllowed posts misses available canPost : Bool) : Status :=
  let live := enabled && posts
  let blockers :=
    (if !enabled then [LaneReason.issueEnrichmentDisabled] else []) ++
    (if noneAllowed then [.allowlistEmpty] else []) ++
    (if !posts then [.livePostingDisabled] else []) ++
    (if live && misses then [.liveRepoThresholdsRequired] else []) ++
    (if live && !available then [.modelRuntimeRequired] else []) ++
    (if live && !canPost then [.appCredentialsRequired] else [])
  let blocking := blockers.filter fun blocker =>
    [.appCredentialsRequired, .appIssuesPermissionRequired, .liveRepoThresholdsRequired,
      .modelRuntimeRequired].contains blocker || (enabled && blocker = .allowlistEmpty)
  { ok := blocking.isEmpty
    state :=
      if !enabled then .disabled
      else if !blocking.isEmpty then .blocked
      else if posts then .ready
      else .dryRunOnly
    blockers }

theorem buildStatus_eq (texts : Texts) (c : CycleCall) (available : Bool) :
    buildIssueEnrichmentStatus texts c available = statusOf c.enabled c.config.allowlist.isEmpty
      c.config.postIssueComment (!(reposMissingLiveIssueEnrichmentThresholds texts c.config).isEmpty) available
      c.canPost := rfl

theorem snapshotBlockers_status (texts : Texts) (c : CycleCall) (available : Bool) :
    snapshotBlockers (some ((buildIssueEnrichmentStatus texts c available).blockers.map some)) =
      { readable := true, complete := true, reasons := (buildIssueEnrichmentStatus texts c available).blockers } := by
  have hall : ∀ a b d e f g : Bool, snapshotBlockers (some ((statusOf a b d e f g).blockers.map some)) =
      { readable := true, complete := true, reasons := (statusOf a b d e f g).blockers } := by
    decide +kernel
  rw [buildStatus_eq]
  exact hall _ _ _ _ _ _

structure StatusShape (posts : Bool) (st : Status) : Prop where
  nodup : st.blockers.Nodup
  enabled : st.state ≠ .disabled
  ready : st.state = .ready → st.blockers = [] ∧ posts = true
  dryRunOnly : st.state = .dryRunOnly → st.blockers = [.livePostingDisabled] ∧ posts = false
  blocked : st.state = .blocked → st.blockers.any blockingReasons.contains = true

theorem statusShape (texts : Texts) (c : CycleCall) (available : Bool) (h : c.enabled = true) :
    StatusShape c.config.postIssueComment (buildIssueEnrichmentStatus texts c available) := by
  have hall : ∀ b d e f g : Bool, (statusOf true b d e f g).blockers.Nodup ∧ (statusOf true b d e f g).state ≠ .disabled ∧
      ((statusOf true b d e f g).state = .ready → (statusOf true b d e f g).blockers = [] ∧ d = true) ∧
      ((statusOf true b d e f g).state = .dryRunOnly →
        (statusOf true b d e f g).blockers = [.livePostingDisabled] ∧ d = false) ∧
      ((statusOf true b d e f g).state = .blocked →
        (statusOf true b d e f g).blockers.any blockingReasons.contains = true) := by
    decide +kernel
  rw [buildStatus_eq, h]
  obtain ⟨hnodup, hdisabled, hready, hdry, hblocked⟩ := hall c.config.allowlist.isEmpty c.config.postIssueComment
    (!(reposMissingLiveIssueEnrichmentThresholds texts c.config).isEmpty) available c.canPost
  exact ⟨hnodup, hdisabled, hready, hdry, hblocked⟩

/-! ## The receipt -/

def Agrees (r : CycleResult) : Prop :=
  (classifyIssueEnrichmentReceipt r.fields).ok = r.ok ∧
    (classifyIssueEnrichmentReceipt r.fields).code ≠ .malformedSummary ∧
    (classifyIssueEnrichmentReceipt r.fields).reason ≠ some .unknownFailure

def cappedCounts (s : Summary) : Counts := fun key => min countCap (s key)

theorem snapshotSummary_fields (r : CycleResult) : snapshotSummary r.fields.summary = some (cappedCounts r.summary) := by
  unfold snapshotSummary
  rw [if_pos]
  · rfl
  · rw [List.all_eq_true]
    intro key _
    simp [CycleResult.fields]

/-- Skipped and eligible items are more than the cap of a count, and there are both. -/
def Overflows (s : Summary) : Prop := 0 < s .skipped ∧ 0 < s .eligible ∧ 1000000 < s .skipped + s .eligible

theorem overflows_iff {s : Summary} (h : s .skipped + s .eligible ≤ s .issuesSeen) :
    cappedCounts s .issuesSeen < cappedCounts s .skipped + cappedCounts s .eligible ↔ Overflows s := by
  unfold cappedCounts Overflows countCap
  omega

theorem capped_pos {s : Summary} {key : CountKey} : 0 < cappedCounts s key ↔ 0 < s key := by
  unfold cappedCounts countCap
  omega

theorem capped_le {s : Summary} {key key' : CountKey} (h : s key ≤ s key') :
    cappedCounts s key ≤ cappedCounts s key' := by
  unfold cappedCounts
  omega

theorem zeroExcept_none {counts : Counts} {key : CountKey} (h : zeroExcept counts none = true) (hkey : key ∈ countKeys) :
    counts key = 0 := by
  unfold zeroExcept at h
  have hzero := List.all_eq_true.mp h key hkey
  simpa using hzero

section
variable {c : CycleCall} {s : Summary} {st : Status} {ok : Bool}

theorem matrixAccepts_scanned (hb : Balanced c s) (hshape : StatusShape c.config.postIssueComment st)
    (hok : ok = true ↔ s .readFailures = 0 ∧ s .failed = 0) :
    matrixAccepts st.state { readable := true, complete := true, reasons := st.blockers } c.dryRun ok (cappedCounts s) =
      true ↔ ¬ Overflows s ∧ effectiveBlocker st.state c.dryRun st.blockers = none := by
  obtain ⟨hnodup, henabled, hready, hdryRunOnly, hblocked⟩ := hshape
  have hrelations : relations.any (fun r => decide (cappedCounts s r.2 < cappedCounts s r.1)) = false := by
    rw [List.any_eq_false]
    intro r hr
    simpa using capped_le (hb.relations r hr)
  have hworker : ¬ 0 < cappedCounts s .workerSkipped := by
    rw [capped_pos, hb.workerSkipped]
    omega
  have hforbidden : (c.dryRun && anyCount (cappedCounts s) dryRunForbidden) = false := by
    cases hdry : c.dryRun with
    | false => rfl
    | true =>
      rw [Bool.true_and]
      unfold anyCount
      rw [List.any_eq_false]
      intro key hkey
      rw [decide_eq_true_eq, capped_pos, hb.dryRun hdry key hkey]
      omega
  have hfailing : (ok && (decide (0 < cappedCounts s .readFailures) || decide (0 < cappedCounts s .failed))) = false := by
    cases hvalue : ok with
    | false => rfl
    | true =>
      obtain ⟨hread, hfailed⟩ := hok.mp hvalue
      simp [capped_pos, hread, hfailed]
  have hrecorded : ¬ (0 < cappedCounts s .posted ∧ 0 < cappedCounts s .dryRunRecorded) := by
    rw [capped_pos, capped_pos]
    cases hposts : c.config.postIssueComment with
    | true =>
      have hnone := hb.posts hposts
      omega
    | false =>
      have hnone := hb.silent hposts
      omega
  have hzero : (!ok && zeroExcept (cappedCounts s) none) = false := by
    cases hvalue : ok with
    | true => rfl
    | false =>
      rw [Bool.not_false, Bool.true_and]
      by_contra hall
      rw [Bool.not_eq_false] at hall
      have hread := @zeroExcept_none _ .readFailures hall (by decide)
      have hfailed := @zeroExcept_none _ .failed hall (by decide)
      have hno : ok = true := hok.mpr ⟨by
        have hpos := @capped_pos s .readFailures
        omega, by
        have hpos := @capped_pos s .failed
        omega⟩
      rw [hvalue] at hno
      cases hno
  have hoverflows : ((relations.any fun r => decide (cappedCounts s r.2 < cappedCounts s r.1)) ||
      decide (cappedCounts s .issuesSeen < cappedCounts s .skipped + cappedCounts s .eligible)) = true ↔
        Overflows s := by
    rw [hrelations, Bool.false_or, decide_eq_true_eq, overflows_iff hb.total]
  by_cases hover : Overflows s
  · -- the first test that fails is this one, or one before it
    have hfalse : matrixAccepts st.state { readable := true, complete := true, reasons := st.blockers } c.dryRun ok
        (cappedCounts s) = false := by
      unfold matrixAccepts
      rw [if_neg henabled, if_pos (hoverflows.mpr hover)]
      simp only [ite_self]
    simp [hfalse, hover]
  · unfold matrixAccepts
    rw [if_neg (by simp), if_neg (not_not.mpr hnodup), if_neg, if_neg, if_neg, if_neg henabled,
      if_neg (fun hin => hover (hoverflows.mp hin)), hfailing, if_neg (by simp), if_neg hworker, hforbidden,
      if_neg (by simp), if_neg, if_neg, if_neg, hzero, Bool.or_false]
    · -- only a blocked cycle has a blocker that is seen
      have hseen : st.state ≠ .blocked → effectiveBlocker st.state c.dryRun st.blockers = none := by
        intro hnot
        cases hstate : st.state with
        | disabled => exact absurd hstate henabled
        | blocked => exact absurd hstate hnot
        | ready =>
          rw [(hready hstate).1]
          rfl
        | dryRunOnly =>
          rw [(hdryRunOnly hstate).1]
          cases c.dryRun <;> rfl
      rw [Bool.or_eq_true, decide_eq_true_eq, Option.isNone_iff_eq_none]
      constructor
      · rintro (hnot | hnone)
        · exact ⟨hover, hseen hnot⟩
        · exact ⟨hover, hnone⟩
      · exact fun h => .inr h.2
    · intro hin
      simp only [Bool.and_eq_true, decide_eq_true_eq] at hin
      exact hrecorded hin
    · intro hin
      simp only [Bool.and_eq_true, decide_eq_true_eq] at hin
      have hnone := hb.silent (hdryRunOnly hin.1.2).2
      rw [capped_pos, hnone] at hin
      omega
    · intro hin
      simp only [Bool.and_eq_true, decide_eq_true_eq] at hin
      have hnone := hb.posts (hready hin.1.2).2
      rw [capped_pos, hnone] at hin
      omega
    · intro hin
      simp only [Bool.and_eq_true, decide_eq_true_eq] at hin
      rw [hblocked hin.1] at hin
      cases hin.2
    · intro hin
      simp only [Bool.and_eq_true, decide_eq_true_eq] at hin
      exact hin.2 (hdryRunOnly hin.1).1
    · intro hin
      simp only [Bool.and_eq_true, decide_eq_true_eq, Bool.not_eq_true'] at hin
      rw [(hready hin.1).1] at hin
      cases hin.2

end

theorem snapshotBlockers_fields {r : CycleResult} {texts : Texts} {c : CycleCall} {available : Bool}
    (h : r.status = buildIssueEnrichmentStatus texts c available) : snapshotBlockers r.fields.blockers =
      { readable := true, complete := true, reasons := r.status.blockers } := by
  have hsnapshot := snapshotBlockers_status texts c available
  rw [← h] at hsnapshot
  exact hsnapshot

theorem agrees_scanned {texts : Texts} {c : CycleCall} {r : CycleResult} {available : Bool} (henabled : c.enabled = true)
    (hdryRun : r.dryRun = c.dryRun) (hstatus : r.status = buildIssueEnrichmentStatus texts c available)
    (hb : Balanced c r.summary) (hok : r.ok = true ↔ r.summary .readFailures = 0 ∧ r.summary .failed = 0) :
    Agrees r ↔ ¬ Overflows r.summary ∧ effectiveBlocker r.status.state c.dryRun r.status.blockers = none := by
  have hshape : StatusShape c.config.postIssueComment r.status := hstatus ▸ statusShape texts c available henabled
  have hmatrix := matrixAccepts_scanned hb hshape hok
  have hclassify : classifyIssueEnrichmentReceipt r.fields =
      if matrixAccepts r.status.state { readable := true, complete := true, reasons := r.status.blockers } c.dryRun r.ok
          (cappedCounts r.summary) = true then
        acceptedReceipt r.status.state r.status.blockers c.dryRun r.ok (cappedCounts r.summary)
      else
        { ok := false, code := .resultNotOk, counts := cappedCounts r.summary, reason := some .unknownFailure } := by
    unfold classifyIssueEnrichmentReceipt
    rw [snapshotSummary_fields, snapshotBlockers_fields hstatus, ← hdryRun]
    rfl
  unfold Agrees
  rw [hclassify, ← hmatrix]
  split
  · rename_i haccepts
    rw [iff_true_right haccepts]
    have hnone := (hmatrix.mp haccepts).2
    have hworker : ¬ cappedCounts r.summary .workerSkipped = 1 := by
      unfold cappedCounts
      rw [hb.workerSkipped]
      decide
    unfold acceptedReceipt
    rw [if_neg hworker, if_neg hshape.enabled, hnone]
    by_cases hread : 0 < cappedCounts r.summary .readFailures
    · rw [if_pos hread]
      rw [capped_pos] at hread
      have hfalse : r.ok = false := by
        by_contra htrue
        have hzero := (hok.mp (by simpa using htrue)).1
        omega
      exact ⟨hfalse.symm, nofun, nofun⟩
    · rw [if_neg hread]
      rw [capped_pos] at hread
      by_cases hfailed : 0 < cappedCounts r.summary .failed
      · rw [if_pos hfailed]
        rw [capped_pos] at hfailed
        have hfalse : r.ok = false := by
          by_contra htrue
          have hzero := (hok.mp (by simpa using htrue)).2
          omega
        exact ⟨hfalse.symm, nofun, nofun⟩
      · rw [if_neg hfailed]
        rw [capped_pos] at hfailed
        have htrue : r.ok = true := hok.mpr ⟨by omega, by omega⟩
        rw [htrue]
        refine ⟨rfl, ?_, nofun⟩
        dsimp only
        rw [if_neg (by simp)]
        dsimp only
        split
        · decide
        · decide
  · rename_i hrejects
    rw [iff_false_right hrejects]
    exact fun h => h.2.2 rfl

/-- The caller's analyzer makes up for a missing runtime, and the status of the scan does not know of it. -/
structure AnalyzerUnseen (texts : Texts) (c : CycleCall) (w : CycleWorld) : Prop where
  enabled : c.enabled = true
  started : c.blockedForRun texts = false
  live : c.dryRun = false
  leased : w.leased = true
  posts : c.config.postIssueComment = true
  analyzeIssue : c.analyzeIssue = true
  codexRuntime : c.codexRuntime = false
  scans : c.reposToScan texts w ≠ []

theorem effectiveBlocker_started {texts : Texts} {c : CycleCall} (henabled : c.enabled = true)
    (hstarted : c.blockedForRun texts = false) :
    effectiveBlocker (c.status texts).state c.dryRun (c.status texts).blockers = none ∧
      (effectiveBlocker (c.scanStatus texts).state c.dryRun (c.scanStatus texts).blockers = none ↔
        ¬ (c.dryRun = false ∧ c.config.postIssueComment = true ∧ c.analyzeIssue = true ∧ c.codexRuntime = false)) := by
  have hall : ∀ b d e g dry analyze codex : Bool,
      (decide ((statusOf true b d e (analyze || codex) g).state = .blocked) &&
        !(dry && (statusOf true b d e (analyze || codex) g).blockers.all dryRunIgnoredBlockers.contains)) = false →
      (effectiveBlocker (statusOf true b d e (analyze || codex) g).state dry
        (statusOf true b d e (analyze || codex) g).blockers).isNone = true ∧
      (effectiveBlocker (statusOf true b d e codex g).state dry (statusOf true b d e codex g).blockers).isNone =
        !(!dry && d && analyze && !codex) := by
    decide +kernel
  unfold CycleCall.blockedForRun at hstarted
  unfold CycleCall.scanStatus
  unfold CycleCall.status at hstarted ⊢
  rw [buildStatus_eq, henabled] at hstarted
  rw [buildStatus_eq, buildStatus_eq, henabled]
  obtain ⟨hcycle, hscan⟩ := hall _ _ _ _ _ _ _ hstarted
  refine ⟨Option.isNone_iff_eq_none.mp hcycle, ?_⟩
  rw [← Option.isNone_iff_eq_none, hscan]
  simp only [Bool.not_eq_true', Bool.and_eq_false_iff, Bool.not_eq_false']
  cases c.dryRun <;> cases c.config.postIssueComment <;> cases c.analyzeIssue <;> cases c.codexRuntime <;> simp

/-- The result of a cycle that returns before it scans. -/
def earlyResult (ok dryRun : Bool) (status : Status) (workerSkipped : Bool) : CycleResult where
  ok
  dryRun
  status
  summary := fun key => if key = .workerSkipped then workerSkipped.toNat else 0

theorem agrees_disabled (texts : Texts) {c : CycleCall} (h : c.enabled = false) :
    Agrees (earlyResult true c.dryRun (c.status texts) false) := by
  have hall : ∀ b d e f g dry : Bool,
      (classifyIssueEnrichmentReceipt (earlyResult true dry (statusOf false b d e f g) false).fields).ok = true ∧
      (classifyIssueEnrichmentReceipt (earlyResult true dry (statusOf false b d e f g) false).fields).code ≠
        .malformedSummary ∧
      (classifyIssueEnrichmentReceipt (earlyResult true dry (statusOf false b d e f g) false).fields).reason ≠
        some .unknownFailure := by
    decide +kernel
  unfold CycleCall.status
  rw [buildStatus_eq, h]
  exact hall _ _ _ _ _ _

theorem agrees_blocked {texts : Texts} {c : CycleCall} (henabled : c.enabled = true)
    (h : c.blockedForRun texts = true) : Agrees (earlyResult false c.dryRun (c.status texts) false) := by
  have hall : ∀ b d e f g dry : Bool,
      (decide ((statusOf true b d e f g).state = .blocked) &&
        !(dry && (statusOf true b d e f g).blockers.all dryRunIgnoredBlockers.contains)) = true →
      (classifyIssueEnrichmentReceipt (earlyResult false dry (statusOf true b d e f g) false).fields).ok = false ∧
      (classifyIssueEnrichmentReceipt (earlyResult false dry (statusOf true b d e f g) false).fields).code ≠
        .malformedSummary ∧
      (classifyIssueEnrichmentReceipt (earlyResult false dry (statusOf true b d e f g) false).fields).reason ≠
        some .unknownFailure := by
    decide +kernel
  unfold CycleCall.blockedForRun at h
  unfold CycleCall.status at h ⊢
  rw [buildStatus_eq, henabled] at h
  rw [buildStatus_eq, henabled]
  exact hall _ _ _ _ _ _ h

theorem agrees_busy {texts : Texts} {c : CycleCall} (henabled : c.enabled = true)
    (hstarted : c.blockedForRun texts = false) (hlive : c.dryRun = false) :
    Agrees (earlyResult (c.status texts).ok c.dryRun (c.status texts) true) := by
  have hall : ∀ b d e f g : Bool,
      (decide ((statusOf true b d e f g).state = .blocked) &&
        !(false && (statusOf true b d e f g).blockers.all dryRunIgnoredBlockers.contains)) = false →
      (classifyIssueEnrichmentReceipt
        (earlyResult (statusOf true b d e f g).ok false (statusOf true b d e f g) true).fields).ok =
          (statusOf true b d e f g).ok ∧
      (classifyIssueEnrichmentReceipt
        (earlyResult (statusOf true b d e f g).ok false (statusOf true b d e f g) true).fields).code ≠
          .malformedSummary ∧
      (classifyIssueEnrichmentReceipt
        (earlyResult (statusOf true b d e f g).ok false (statusOf true b d e f g) true).fields).reason ≠
          some .unknownFailure := by
    decide +kernel
  unfold CycleCall.blockedForRun at hstarted
  rw [hlive] at hstarted ⊢
  unfold CycleCall.status at hstarted ⊢
  rw [buildStatus_eq, henabled] at hstarted
  rw [buildStatus_eq, henabled]
  exact hall _ _ _ _ _ hstarted

theorem not_overflows_early (ok dryRun : Bool) (status : Status) (workerSkipped : Bool) :
    ¬ Overflows (earlyResult ok dryRun status workerSkipped).summary := by
  rintro ⟨hskipped, -⟩
  cases hskipped

theorem agrees_tallied {texts : Texts} {c : CycleCall} {w : CycleWorld} {t : Tally} (henabled : c.enabled = true)
    (hstarted : c.blockedForRun texts = false) (hfree : c.dryRun = false → w.leased = true)
    (htally : tallyCycle texts c w = some t) : Agrees (scannedResult texts c w t) ↔
      ¬ AnalyzerUnseen texts c w ∧ ¬ Overflows (scannedResult texts c w t).summary := by
  have hb := balanced_scanned (tallyCycle_counted htally)
  have hok : (scannedResult texts c w t).ok = true ↔ (scannedResult texts c w t).summary .readFailures = 0 ∧
      (scannedResult texts c w t).summary .failed = 0 := by
    rw [summary_readFailures]
    change ((c.scans texts w).all (·.ok) && decide (t.summary .failed = 0)) = true ↔ _ ∧ t.summary .failed = 0
    rw [Bool.and_eq_true, decide_eq_true_eq]
  obtain ⟨hcycle, hscan⟩ := effectiveBlocker_started henabled hstarted
  have hstatus : (scannedResult texts c w t).status =
      if (c.reposToScan texts w).isEmpty then c.status texts else c.scanStatus texts := by
    unfold scannedResult CycleCall.scans
    dsimp only
    rw [List.isEmpty_map]
  have hunseen : ¬ AnalyzerUnseen texts c w ↔ (c.reposToScan texts w).isEmpty = true ∨
      ¬ (c.dryRun = false ∧ c.config.postIssueComment = true ∧ c.analyzeIssue = true ∧ c.codexRuntime = false) := by
    constructor
    · intro h
      by_contra hneither
      push Not at hneither
      obtain ⟨hscans, hlive, hposts, hanalyze, hruntime⟩ := hneither
      exact h ⟨henabled, hstarted, hlive, hfree hlive, hposts, hanalyze, hruntime, fun hnil => hscans (by rw [hnil]; rfl)⟩
    · rintro h hunseen
      rcases h with hempty | hnot
      · exact hunseen.scans (List.isEmpty_iff.mp hempty)
      · exact hnot ⟨hunseen.live, hunseen.posts, hunseen.analyzeIssue, hunseen.codexRuntime⟩
  rw [hunseen]
  by_cases hempty : (c.reposToScan texts w).isEmpty = true
  · rw [if_pos hempty] at hstatus
    rw [agrees_scanned henabled rfl hstatus hb hok, hstatus, hcycle]
    simp [hempty]
  · rw [if_neg hempty] at hstatus
    rw [agrees_scanned henabled rfl hstatus hb hok, hstatus, hscan, or_iff_right hempty]
    exact and_comm

/-- The receipt of a cycle agrees with its result exactly where the scan's status knows of the caller's analyzer and
the skipped and eligible issues together stay within the cap of a count. -/
theorem receipt_agrees_iff (texts : Texts) {c : CycleCall} {w : CycleWorld} {r : CycleResult}
    (hrun : runIssueEnrichmentCycle texts c w = some r) :
    Agrees r ↔ ¬ AnalyzerUnseen texts c w ∧ ¬ Overflows r.summary := by
  unfold runIssueEnrichmentCycle at hrun
  dsimp only at hrun
  split at hrun
  · rename_i hnot
    have hdisabled : c.enabled = false := by simpa using hnot
    obtain rfl : earlyResult true c.dryRun (c.status texts) false = r := by
      rw [← Option.some.inj hrun]
      unfold earlyResult emptyCycleSummary
      simp
    refine iff_of_true (agrees_disabled texts hdisabled) ⟨fun h => ?_, not_overflows_early _ _ _ _⟩
    have henabled := h.enabled
    rw [hdisabled] at henabled
    cases henabled
  · rename_i hnot
    have henabled : c.enabled = true := by simpa using hnot
    split at hrun
    · rename_i hblocked
      obtain rfl : earlyResult false c.dryRun (c.status texts) false = r := by
        rw [← Option.some.inj hrun]
        unfold earlyResult emptyCycleSummary
        simp
      refine iff_of_true (agrees_blocked henabled hblocked) ⟨fun h => ?_, not_overflows_early _ _ _ _⟩
      have hstarted := h.started
      rw [hblocked] at hstarted
      cases hstarted
    · rename_i hstarted
      rw [Bool.not_eq_true] at hstarted
      split at hrun
      · rename_i hbusy
        simp only [Bool.and_eq_true, Bool.not_eq_true'] at hbusy
        obtain rfl : earlyResult (c.status texts).ok c.dryRun (c.status texts) true = r := by
          rw [← Option.some.inj hrun]
          rfl
        refine iff_of_true (agrees_busy henabled hstarted hbusy.1) ⟨fun h => ?_, not_overflows_early _ _ _ _⟩
        have hleased := h.leased
        rw [hbusy.2] at hleased
        cases hleased
      · rename_i hfree
        obtain ⟨t, htally, rfl⟩ := Option.map_eq_some_iff.mp hrun
        apply agrees_tallied henabled hstarted _ htally
        intro hlive
        by_contra hheld
        apply hfree
        rw [hlive, Bool.eq_false_of_not_eq_true hheld]
        rfl

/-! ## A quiet repository, and a busy one -/

/-- A live repository with all its thresholds. -/
def thresholds : RepoOverride :=
  { maxIssuesPerCycle := some 5, maxCommentsPerCycle := some 1, cooldownMs := some 3600000, burstWindowMs := some 3600000
    maxIssuesPerBurst := some 10, lookbackMs := some 600000 }

def liveCall (codexRuntime analyzeIssue : Bool) : CycleCall :=
  { config := { allowlist := ["acme/site"], postIssueComment := true, override := fun _ => some thresholds }
    enabled := true, canPost := true, codexRuntime, analyzeIssue, dryRun := false, checkedAt := 10000 }

/-- No issue was updated since the watermark. -/
def quiet : CycleWorld := { watermarked := fun _ => true, listing := fun _ => some ({}, false) }

/-- A healthy cycle with an analyzer of its caller is called an unknown failure. -/
theorem healthy_cycle_unknown_failure : ∃ r, runIssueEnrichmentCycle plainTexts (liveCall false true) quiet = some r ∧
    r.ok = true ∧ (classifyIssueEnrichmentReceipt r.fields).ok = false ∧
    (classifyIssueEnrichmentReceipt r.fields).reason = some .unknownFailure :=
  ⟨_, rfl, rfl, by decide +kernel, by decide +kernel⟩

def newIssue (number : Nat) : Issue := { number, touchedAt := 9000, createdAt := 9000 }

def newIssues : List Issue := [newIssue 1, newIssue 2, { newIssue 3 with pullRequest := true }, newIssue 4]

/-- The analysis of the first issue fails, the second is posted, and the fourth has to wait. -/
def busy : CycleWorld :=
  { watermarked := fun _ => true
    listing := fun _ => some ({ listed := newIssues, prepared := ⟨newIssues, by decide⟩ }, false)
    rounds := [{ analysis := .error "no answer" }, {}] }

theorem receipt_agrees_iff_busy : ∃ r, runIssueEnrichmentCycle plainTexts (liveCall true false) busy = some r ∧
    [r.summary .failed, r.summary .posted, r.summary .skipped, r.summary .deferred] = [1, 1, 1, 1] ∧
    (Agrees r ↔ ¬ AnalyzerUnseen plainTexts (liveCall true false) busy ∧ ¬ Overflows r.summary) :=
  ⟨_, rfl, by decide +kernel, receipt_agrees_iff plainTexts rfl⟩

end NeonDiff.Enrichment
