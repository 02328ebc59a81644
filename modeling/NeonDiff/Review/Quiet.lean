import NeonDiff.Review.Gate

/-! # What learning can change in a review

A learned signal drops findings and raises floors. The only way to more findings is the room a dropped one leaves:
it stood for its near duplicates, and it took one of the comments the cap allows.
-/

namespace NeonDiff.Review

open NeonDiff.Lib

variable (fns : TextFunctions)

/-! ## The order of the findings -/

instance : Std.TransCmp (compareFindings fns) :=
  have := fns.collates
  have _ : Std.TransCmp fun a b : Finding => compare b.confidence a.confidence :=
    Ranking.transCmp_comap (fun x y : ℚ => compare y x) Finding.confidence
  have _ := Ranking.transCmp_comap fns.localeCompare Finding.path
  have _ := Ranking.transCmp_comap fns.localeCompare Finding.title
  inferInstanceAs (Std.TransCmp (compareLex _ _))

instance : IsTrans Finding (ranksBefore fns) := inferInstanceAs (IsTrans Finding (Ranking.before (compareFindings fns)))

instance : Std.Total (ranksBefore fns) := inferInstanceAs (Std.Total (Ranking.before (compareFindings fns)))

/-! ## What is posted of the findings that survive -/

theorem keep_filter (verdict : Finding → Option DroppedFinding) (p : Finding → Bool) (findings : List Finding) :
    keep verdict (findings.filter p) = (keep verdict findings).filter p := by
  unfold keep
  rw [List.filter_filter, List.filter_filter]
  simp only [Bool.and_comm]

theorem rankedFindings_filter (p : Finding → Bool) (findings : List Finding) :
    rankedFindings fns (findings.filter p) = (rankedFindings fns findings).filter p := by
  unfold rankedFindings
  rw [keep_filter, Ranking.insertionSort_filter]

/-- Findings that are not shown may go before the ranking: the same ones are shown. -/
theorem shownFindings_filter {p : Finding → Bool} {findings : List Finding} {cap : Option Nat}
    (h : ∀ f ∈ shownFindings fns findings cap, p f = true) :
    shownFindings fns (findings.filter p) cap = shownFindings fns findings cap := by
  unfold shownFindings suppressSameRunNearDuplicates at *
  rw [rankedFindings_filter]
  exact Ranking.take_keepFirst_filter p _ h

theorem mem_rankedFindings {findings : List Finding} {f : Finding} :
    f ∈ rankedFindings fns findings ↔ f ∈ findings ∧ secretDrop fns f = none := by
  rw [rankedFindings, List.mem_insertionSort, keep, List.mem_filter, Option.isNone_iff_eq_none]

theorem mem_rankedFindings_of_shown {findings : List Finding} {cap : Option Nat} {f : Finding}
    (hf : f ∈ shownFindings fns findings cap) : f ∈ rankedFindings fns findings :=
  Ranking.keepFirst_subset _ (List.mem_of_mem_take hf)

theorem keepFirst_or_nearDuplicates {findings kept : List Finding} {f : Finding} (hf : f ∈ kept ++ findings) :
    f ∈ Ranking.keepFirst (sameRunFindingsAreNearDuplicates fns) kept findings ∨
      f ∈ nearDuplicates fns kept findings := by
  induction findings generalizing kept with
  | nil => exact Or.inl (by simpa [Ranking.keepFirst] using hf)
  | cons g findings ih =>
    unfold Ranking.keepFirst nearDuplicates
    split
    · rw [List.mem_cons]
      simp only [List.mem_append, List.mem_cons] at hf ih
      grind
    · exact ih (by simpa using hf)

theorem withheld_of_not_shown {findings : List Finding} {cap : Option Nat} {f : Finding}
    (hf : f ∈ rankedFindings fns findings) (hshown : f ∉ shownFindings fns findings cap) :
    f ∈ nearDuplicates fns [] (rankedFindings fns findings) ∨
      f ∈ (suppressSameRunNearDuplicates fns (rankedFindings fns findings)).drop (cap.getD 25) := by
  obtain hkept | hdup := @keepFirst_or_nearDuplicates fns _ [] _ hf
  · right
    rw [← suppressSameRunNearDuplicates, ← List.take_append_drop (cap.getD 25)
      (suppressSameRunNearDuplicates fns _), List.mem_append] at hkept
    exact hkept.resolve_left hshown
  · exact Or.inl hdup

/-! ## The findings that survive the learned signals -/

namespace GateInput

def located (input : GateInput) : List Finding := keep (locationDrop input.files) input.findings

def memoryDrop (input : GateInput) (finding : Finding) : Option DroppedFinding :=
  repoMemoryDrop fns input.repoMemoryFalsePositiveFingerprints input.repoMemoryFalsePositives finding

def threadDrop (input : GateInput) (finding : Finding) : Option DroppedFinding :=
  priorThreadDrop fns input.answeredThreads finding

def spares (input : GateInput) (finding : Finding) : Bool :=
  (input.memoryDrop fns finding).isNone && (input.threadDrop fns finding).isNone

def surviving (input : GateInput) : List Finding := input.located.filter (input.spares fns)

/-- The findings behind the comments of the review. -/
def posted (input : GateInput) : List Finding := shownFindings fns (input.surviving fns) input.maxInlineComments

end GateInput

theorem repoMemoryDrop_nil (finding : Finding) : repoMemoryDrop fns [] [] finding = none := rfl

theorem applyRepoMemoryFalsePositiveSuppressions_findings (findings : List Finding) (fingerprints : List String)
    (entries : List RepoMemoryFalsePositiveEntry) :
    (applyRepoMemoryFalsePositiveSuppressions fns findings fingerprints entries).1 =
      keep (repoMemoryDrop fns fingerprints entries) findings := by
  unfold applyRepoMemoryFalsePositiveSuppressions
  split
  · rename_i hempty
    obtain ⟨rfl, hentries⟩ := hempty
    obtain rfl := List.isEmpty_iff.mp hentries
    simp [keep, repoMemoryDrop_nil]
  · rfl

theorem gate_comments (input : GateInput) :
    (applyDeterministicReviewGate fns input).comments = (input.posted fns).map (reviewComment fns) := by
  have hsurvive : keep (priorThreadDrop fns input.answeredThreads)
      (keep (repoMemoryDrop fns input.repoMemoryFalsePositiveFingerprints input.repoMemoryFalsePositives)
        input.located) = input.surviving fns := by
    unfold keep
    rw [List.filter_filter]
    refine List.filter_congr fun f _ => ?_
    exact Bool.and_comm _ _
  unfold applyDeterministicReviewGate validateFindingLocations normalizeFindingsForReview
  simp only [applyRepoMemoryFalsePositiveSuppressions_findings]
  rw [← GateInput.located, hsurvive]
  rfl

theorem gate_requests_changes_iff (input : GateInput) :
    (applyDeterministicReviewGate fns input).event = .REQUEST_CHANGES ↔
      ∃ f ∈ input.posted fns, input.eligible (reviewComment fns f) = true := by
  have hevent : (applyDeterministicReviewGate fns input).event =
      decideReviewEvent input (applyDeterministicReviewGate fns input).comments := rfl
  rw [hevent, gate_comments, decideReviewEvent, List.any_map]
  split
  · rename_i h
    simpa using h
  · rename_i h
    simpa using h

/-! ## More learned inputs -/

/-- Every configured floor stays, and is at least as high. -/
def FloorRaised (base enlarged : Option ℚ) : Prop := ∀ x ∈ base, ∃ y ∈ enlarged, x ≤ y

/-- The same review with more learned. -/
structure Enlarges (base enlarged : GateInput) : Prop where
  findings : enlarged.findings = base.findings
  files : enlarged.files = base.files
  cap : enlarged.maxInlineComments = base.maxInlineComments
  fingerprints : base.repoMemoryFalsePositiveFingerprints ⊆ enlarged.repoMemoryFalsePositiveFingerprints
  entries : base.repoMemoryFalsePositives ⊆ enlarged.repoMemoryFalsePositives
  threads : base.answeredThreads ⊆ enlarged.answeredThreads
  confidenceFloors : ∀ severity,
    FloorRaised (base.requestChangesConfidenceFloors.bind fun floors => floors.get severity)
      (enlarged.requestChangesConfidenceFloors.bind fun floors => floors.get severity)
  categoryFloors : ∀ category,
    FloorRaised (base.categoryPrecisionFloors.bind fun floors => floors category)
      (enlarged.categoryPrecisionFloors.bind fun floors => floors category)

/-- The larger memory still drops every severe finding that the smaller one dropped. -/
def MemoryHolds (base enlarged : GateInput) : Prop :=
  ∀ f ∈ base.findings, isHighSeverity f.severity = true → (base.memoryDrop fns f).isSome →
    (enlarged.memoryDrop fns f).isSome

theorem belowFloor_of_raised {base enlarged : Option ℚ} (h : FloorRaised base enlarged) {confidence : ℚ}
    (hbelow : belowFloor confidence base = true) : belowFloor confidence enlarged = true := by
  cases base with
  | none => simp [belowFloor] at hbelow
  | some x =>
    obtain ⟨y, hy, hxy⟩ := h x rfl
    obtain rfl : enlarged = some y := hy
    have hlt : confidence < x := by simpa [belowFloor] using hbelow
    simpa [belowFloor] using lt_of_lt_of_le hlt hxy

theorem matchPriorThread_isSome {finding : Finding} {threads : List AnsweredThread} :
    (matchPriorThread fns finding threads).isSome = true ↔
      finding.severity ≠ .P0 ∧ ∃ thread ∈ threads, threadMatches fns finding thread = true := by
  unfold matchPriorThread
  split
  · rename_i h
    simp [h]
  · rename_i h
    simp [h]

/-! ## What the memory drops -/

theorem repoMemoryDrop_isSome (fingerprints : List String) (entries : List RepoMemoryFalsePositiveEntry)
    (finding : Finding) :
    (repoMemoryDrop fns fingerprints entries finding).isSome =
      match exactFingerprint fingerprints entries (buildFindingFingerprint fns finding) with
      | some exactEntry =>
        isMemorySuppressible finding (exactEntry.bind RepoMemoryFalsePositiveEntry.confirmedByHuman)
      | none => (findCoarseFalsePositiveMatch fns finding entries).any fun coarse =>
        isMemorySuppressible finding coarse.confirmedByHuman := by
  unfold repoMemoryDrop
  dsimp only
  cases exactFingerprint fingerprints entries (buildFindingFingerprint fns finding) with
  | some exactEntry => dsimp only; split <;> simp_all
  | none =>
    cases findCoarseFalsePositiveMatch fns finding entries with
    | some coarse => dsimp only; split <;> simp_all
    | none => rfl

theorem exactFingerprint_eq_none {fingerprints : List String} {entries : List RepoMemoryFalsePositiveEntry}
    {fingerprint : String} :
    exactFingerprint fingerprints entries fingerprint = none ↔
      fingerprint ∉ fingerprints ∧ ∀ entry ∈ entries, entry.fingerprint ≠ fingerprint := by
  unfold exactFingerprint
  split
  · rename_i h
    simp [h]
  · rename_i h
    simp [h]

theorem mem_of_exactFingerprint {fingerprints : List String} {entries : List RepoMemoryFalsePositiveEntry}
    {fingerprint : String} {entry : RepoMemoryFalsePositiveEntry}
    (h : exactFingerprint fingerprints entries fingerprint = some (some entry)) : entry ∈ entries := by
  unfold exactFingerprint at h
  split at h
  · cases h
  · rw [Option.map_eq_some_iff] at h
    obtain ⟨found, hfound, hsome⟩ := h
    obtain rfl := Option.some.inj hsome
    exact List.mem_of_find?_eq_some hfound

theorem isMemorySuppressible_of_low {finding : Finding} (hlow : isHighSeverity finding.severity = false)
    (confirmed : Option Bool) : isMemorySuppressible finding confirmed = true := by
  unfold isMemorySuppressible
  split
  · rfl
  · cases hs : finding.severity <;> simp_all [isHighSeverity]

theorem confirmed_of_isMemorySuppressible {finding : Finding} (hhigh : isHighSeverity finding.severity = true)
    {confirmed : Option Bool} (h : isMemorySuppressible finding confirmed = true) : confirmed = some true := by
  unfold isMemorySuppressible at h
  split at h
  · assumption
  · cases hs : finding.severity <;> simp_all [isHighSeverity]

/-- A minor finding is dropped as soon as the memory has any match. -/
theorem memoryDrop_isSome_of_low {fingerprints : List String} {entries : List RepoMemoryFalsePositiveEntry}
    {finding : Finding} (hlow : isHighSeverity finding.severity = false) :
    (repoMemoryDrop fns fingerprints entries finding).isSome = true ↔
      buildFindingFingerprint fns finding ∈ fingerprints ∨
        ∃ entry ∈ entries, entry.fingerprint = buildFindingFingerprint fns finding ∨
          coarseMatches fns finding entry = true := by
  rw [repoMemoryDrop_isSome]
  cases hexact : exactFingerprint fingerprints entries (buildFindingFingerprint fns finding) with
  | some exactEntry =>
    have hknown : ¬ (buildFindingFingerprint fns finding ∉ fingerprints ∧
        ∀ entry ∈ entries, entry.fingerprint ≠ buildFindingFingerprint fns finding) := by
      rw [← exactFingerprint_eq_none, hexact]
      simp
    simp only [isMemorySuppressible_of_low hlow, true_iff]
    grind
  | none =>
    obtain ⟨hlegacy, hentries⟩ := exactFingerprint_eq_none.mp hexact
    simp only [isMemorySuppressible_of_low hlow, findCoarseFalsePositiveMatch, Option.any_true, List.find?_isSome,
      hlegacy, false_or]
    grind

theorem memoryDrop_confirmed {fingerprints : List String} {entries : List RepoMemoryFalsePositiveEntry}
    {finding : Finding} (hhigh : isHighSeverity finding.severity = true)
    (hdrop : (repoMemoryDrop fns fingerprints entries finding).isSome = true) :
    ∃ entry ∈ entries, entry.confirmedByHuman = some true := by
  rw [repoMemoryDrop_isSome] at hdrop
  cases hexact : exactFingerprint fingerprints entries (buildFindingFingerprint fns finding) with
  | some exactEntry =>
    rw [hexact] at hdrop
    have hconfirmed := confirmed_of_isMemorySuppressible hhigh hdrop
    obtain ⟨entry, rfl, hentry⟩ := Option.bind_eq_some_iff.mp hconfirmed
    exact ⟨entry, mem_of_exactFingerprint hexact, hentry⟩
  | none =>
    rw [hexact] at hdrop
    cases hcoarse : findCoarseFalsePositiveMatch fns finding entries with
    | some coarse =>
      rw [hcoarse] at hdrop
      exact ⟨coarse, List.mem_of_find?_eq_some hcoarse, confirmed_of_isMemorySuppressible hhigh hdrop⟩
    | none =>
      rw [hcoarse] at hdrop
      cases hdrop

/-! ## Two runs -/

section
variable {fns} {base enlarged : GateInput} (h : Enlarges base enlarged)
include h

theorem Enlarges.located : enlarged.located = base.located := by
  unfold GateInput.located
  rw [h.files, h.findings]

theorem Enlarges.threadDrop {f : Finding} (hf : (base.threadDrop fns f).isSome = true) :
    (enlarged.threadDrop fns f).isSome = true := by
  unfold GateInput.threadDrop priorThreadDrop at *
  rw [Option.isSome_map, matchPriorThread_isSome] at *
  obtain ⟨hseverity, thread, hthread, hmatch⟩ := hf
  exact ⟨hseverity, thread, h.threads hthread, hmatch⟩

theorem Enlarges.memoryDrop_of_low {f : Finding} (hlow : isHighSeverity f.severity = false)
    (hf : (base.memoryDrop fns f).isSome = true) : (enlarged.memoryDrop fns f).isSome = true := by
  unfold GateInput.memoryDrop at *
  rw [memoryDrop_isSome_of_low fns hlow] at *
  obtain hlegacy | ⟨entry, hentry, hmatch⟩ := hf
  · exact Or.inl (h.fingerprints hlegacy)
  · exact Or.inr ⟨entry, h.entries hentry, hmatch⟩

theorem Enlarges.spares (hmemory : MemoryHolds fns base enlarged) {f : Finding} (hf : f ∈ base.findings)
    (hspared : enlarged.spares fns f = true) : base.spares fns f = true := by
  simp only [GateInput.spares, Bool.and_eq_true, Option.isNone_iff_eq_none] at *
  constructor
  · by_contra hdrop
    have hsome := Option.isSome_iff_ne_none.mpr hdrop
    have hlarger : (enlarged.memoryDrop fns f).isSome = true := by
      cases hsev : isHighSeverity f.severity with
      | true => exact hmemory f hf hsev hsome
      | false => exact h.memoryDrop_of_low hsev hsome
    simp [hspared.1] at hlarger
  · by_contra hdrop
    have hlarger := h.threadDrop (Option.isSome_iff_ne_none.mpr hdrop)
    simp [hspared.2] at hlarger

theorem Enlarges.surviving (hmemory : MemoryHolds fns base enlarged) :
    enlarged.surviving fns = (base.surviving fns).filter (enlarged.spares fns) := by
  unfold GateInput.surviving
  rw [h.located, List.filter_filter]
  refine List.filter_congr fun f hf => ?_
  have hfinding : f ∈ base.findings := List.mem_of_mem_filter hf
  cases hspared : enlarged.spares fns f with
  | true => rw [h.spares hmemory hfinding hspared]; rfl
  | false => rfl

theorem Enlarges.eligible {comment : ReviewComment} (heligible : enlarged.eligible comment = true) :
    base.eligible comment = true := by
  have hcategory := @belowFloor_of_raised _ _ (h.categoryFloors comment.category) comment.confidence
  have hconfidence := @belowFloor_of_raised _ _ (h.confidenceFloors comment.severity) comment.confidence
  unfold GateInput.eligible isRequestChangesEligible at *
  grind

theorem Enlarges.posted (hmemory : MemoryHolds fns base enlarged)
    (hspared : ∀ f ∈ base.posted fns, enlarged.spares fns f = true) : enlarged.posted fns = base.posted fns := by
  unfold GateInput.posted at *
  rw [h.surviving hmemory, h.cap]
  exact shownFindings_filter fns hspared

end

/-! ## Memories that hold -/

/-- Over a memory that no person confirmed, every larger one holds. -/
theorem memoryHolds_of_unconfirmed {base enlarged : GateInput}
    (h : ∀ entry ∈ base.repoMemoryFalsePositives, entry.confirmedByHuman ≠ some true) :
    MemoryHolds fns base enlarged := by
  intro f _ hhigh hdrop
  obtain ⟨entry, hentry, hconfirmed⟩ := memoryDrop_confirmed fns hhigh hdrop
  exact absurd hconfirmed (h entry hentry)

theorem memoryHolds_of_confirmed {base enlarged : GateInput} {learned : List RepoMemoryFalsePositiveEntry}
    (hfingerprints : enlarged.repoMemoryFalsePositiveFingerprints = base.repoMemoryFalsePositiveFingerprints)
    (hentries : enlarged.repoMemoryFalsePositives = base.repoMemoryFalsePositives ++ learned)
    (hlearned : ∀ entry ∈ learned, entry.confirmedByHuman = some true) : MemoryHolds fns base enlarged := by
  intro f _ _ hdrop
  unfold GateInput.memoryDrop at *
  rw [repoMemoryDrop_isSome, hfingerprints, hentries] at *
  unfold exactFingerprint findCoarseFalsePositiveMatch at *
  split_ifs at * with hlegacy
  · exact hdrop
  · rw [List.find?_append, List.find?_append]
    cases hexact : base.repoMemoryFalsePositives.find?
        fun entry => entry.fingerprint = buildFindingFingerprint fns f with
    | some entry =>
      rw [hexact] at hdrop
      exact hdrop
    | none =>
      rw [hexact] at hdrop
      cases hnew : learned.find? fun entry => entry.fingerprint = buildFindingFingerprint fns f with
      | some entry =>
        have hconfirmed := hlearned entry (List.mem_of_find?_eq_some hnew)
        simp [isMemorySuppressible, hconfirmed]
      | none =>
        obtain ⟨coarse, hcoarse, hsup⟩ := (Option.any_eq_true _ _).mp hdrop
        simpa [hcoarse] using hsup

/-! ## Learning escalates only through room it makes -/

/-- A comment turns into a request for changes only when a posted finding is dropped, and then by a finding that
was held back before as a near duplicate or by the cap. -/
theorem learning_escalates_only_by_making_room {base enlarged : GateInput} (h : Enlarges base enlarged)
    (hmemory : MemoryHolds fns base enlarged)
    (hbase : (applyDeterministicReviewGate fns base).event = .COMMENT)
    (henlarged : (applyDeterministicReviewGate fns enlarged).event = .REQUEST_CHANGES) :
    (∃ g ∈ base.posted fns, g ∉ enlarged.surviving fns) ∧
    ∃ f ∈ enlarged.posted fns, enlarged.eligible (reviewComment fns f) = true ∧
      base.eligible (reviewComment fns f) = true ∧ f ∈ base.surviving fns ∧
      (f ∈ nearDuplicates fns [] (rankedFindings fns (base.surviving fns)) ∨
        f ∈ (suppressSameRunNearDuplicates fns (rankedFindings fns (base.surviving fns))).drop
          (base.maxInlineComments.getD 25)) := by
  obtain ⟨f, hposted, heligible⟩ := (gate_requests_changes_iff fns enlarged).mp henlarged
  have hnone : ∀ g ∈ base.posted fns, base.eligible (reviewComment fns g) ≠ true := by
    intro g hg hel
    rw [(gate_requests_changes_iff fns base).mpr ⟨g, hg, hel⟩] at hbase
    cases hbase
  constructor
  · by_contra hall
    push Not at hall
    have hspared : ∀ g ∈ base.posted fns, enlarged.spares fns g = true :=
      fun g hg => (List.mem_filter.mp (hall g hg)).2
    rw [h.posted hmemory hspared] at hposted
    exact hnone f hposted (h.eligible heligible)
  · have hranked := (mem_rankedFindings fns).mp (mem_rankedFindings_of_shown fns hposted)
    have hsurvives : f ∈ base.surviving fns := by
      have hmem := hranked.1
      rw [h.surviving hmemory] at hmem
      exact List.mem_of_mem_filter hmem
    have hunposted : f ∉ base.posted fns := fun hf => hnone f hf (h.eligible heligible)
    refine ⟨f, hposted, heligible, h.eligible heligible, hsurvives, ?_⟩
    exact withheld_of_not_shown fns ((mem_rankedFindings fns).mpr ⟨hsurvives, hranked.2⟩) hunposted

/-- Texts that hold no secret, no confidence and no letter outside ASCII. -/
def plainTexts : TextFunctions where
  toLowerCase text := String.ofList (text.toList.map Char.toLower)
  localeCompare := compare
  sha256 := id
  containsSecretLikeText _ := false
  redactSecrets := id
  sanitizePublicConfidenceText := id
  collates := inferInstance

def staleSetup : Finding where
  severity := .P1
  path := "docs/setup.md"
  line := 1
  title := "Setup steps are stale"
  body := "The steps name a flag that is gone."
  confidence := 9 / 10
  category := some .docs_only
  why_this_matters := none

def lostExitCode : Finding where
  severity := .P1
  path := "src/run.ts"
  line := 1
  title := "Exit code is lost"
  body := "A failing child makes the parent return zero."
  confidence := 4 / 5
  category := some .runtime_correctness
  why_this_matters := none

/-- Two severe findings under a cap of one comment. -/
def cappedReview (answeredThreads : List AnsweredThread) : GateInput where
  findings := [staleSetup, lostExitCode]
  files := [⟨"docs/setup.md", some "@@ -1 +1 @@\n+a"⟩, ⟨"src/run.ts", some "@@ -1 +1 @@\n+b"⟩]
  droppedFromSchema := []
  maxInlineComments := some 1
  repoMemoryFalsePositiveFingerprints := []
  repoMemoryFalsePositives := []
  answeredThreads := answeredThreads
  requestChangesConfidenceFloors := none
  categoryPrecisionFloors := none

def answeredSetup : AnsweredThread := ⟨7, "docs/setup.md", 1, "Setup steps are stale", ""⟩

theorem cappedReview_enlarges : Enlarges (cappedReview []) (cappedReview [answeredSetup]) where
  findings := rfl
  files := rfl
  cap := rfl
  fingerprints := List.nil_subset _
  entries := List.nil_subset _
  threads := List.nil_subset _
  confidenceFloors := by intro _ _ h; cases h
  categoryFloors := by intro _ _ h; cases h

theorem cappedReview_comments :
    (applyDeterministicReviewGate plainTexts (cappedReview [])).event = .COMMENT := by decide +kernel

theorem cappedReview_answered_requests_changes :
    (applyDeterministicReviewGate plainTexts (cappedReview [answeredSetup])).event = .REQUEST_CHANGES := by
  decide +kernel

/-- An answered thread takes the docs finding out, and the one comment goes to the finding that blocks. -/
theorem answered_thread_escalates :
    ¬ ∀ fns base enlarged, Enlarges base enlarged → (applyDeterministicReviewGate fns base).event = .COMMENT →
      (applyDeterministicReviewGate fns enlarged).event ≠ .REQUEST_CHANGES := by
  intro h
  exact h plainTexts _ _ cappedReview_enlarges cappedReview_comments cappedReview_answered_requests_changes

theorem learning_escalates_only_by_making_room_capped :
    ∃ g ∈ (cappedReview []).posted plainTexts, g ∉ (cappedReview [answeredSetup]).surviving plainTexts :=
  (learning_escalates_only_by_making_room plainTexts cappedReview_enlarges
    (memoryHolds_of_unconfirmed plainTexts (by intro entry h; cases h)) cappedReview_comments
    cappedReview_answered_requests_changes).1

end NeonDiff.Review
