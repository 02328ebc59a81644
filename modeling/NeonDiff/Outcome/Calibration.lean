import Mathlib.Tactic.Linarith
import Mathlib.Tactic.NormNum
import NeonDiff.Outcome.Labels

/-! # Calibration from stored labels -/

namespace NeonDiff.Outcome

open NeonDiff.Lib

/-! ## Confidence bins -/

def confidenceBins : List (ℚ × ℚ) := [(0, 1 / 2), (1 / 2, 4 / 5), (4 / 5, 101 / 100)]

def inBin (bin : ℚ × ℚ) (confidence : ℚ) : Bool := bin.1 ≤ confidence && confidence < bin.2

structure ConfidenceBinFinding where
  id : String
  confidence : ℚ
  deriving DecidableEq

structure ConfidenceBinStat where
  minConfidence : ℚ
  maxConfidence : ℚ
  findings : Nat
  matched : Nat
  empiricalPrecision : ℚ
  rawWilsonLowerBound : ℚ
  deriving DecidableEq

section
variable (sqrt : ℚ → ℚ)

def wilsonLowerBound95 (successes total : Nat) : ℚ :=
  if total = 0 ∨ total < successes then 0
  else
    let n : ℚ := total
    let z : ℚ := 196 / 100
    let p := successes / n
    let denominator := 1 + z ^ 2 / n
    let centre := p + z ^ 2 / (2 * n)
    let margin := z * sqrt ((p * (1 - p) + z ^ 2 / (4 * n)) / n)
    max 0 ((centre - margin) / denominator)

def binStat (findings : List ConfidenceBinFinding) (matchedBotIds : List String) (bin : ℚ × ℚ) : ConfidenceBinStat :=
  let inside := findings.filter fun finding => inBin bin finding.confidence
  let matched := (inside.filter fun finding => finding.id ∈ matchedBotIds).length
  { minConfidence := bin.1
    maxConfidence := if bin.2 = 101 / 100 then 1 else bin.2
    findings := inside.length
    matched
    empiricalPrecision := if inside.length = 0 then 0 else matched / inside.length
    rawWilsonLowerBound := wilsonLowerBound95 sqrt matched inside.length }

def computeConfidenceBinStats (findings : List ConfidenceBinFinding) (matchedBotIds : List String) :
    List ConfidenceBinStat :=
  confidenceBins.map (binStat sqrt findings matchedBotIds)

end

/-! ## Precision by category -/

structure CategoryCount where
  category : String
  labeled : Nat
  matched : Nat
  deriving DecidableEq

def isMatched (label : FindingOutcomeLabelRecord) : Bool := label.verdict = .truePositive

/-- `entry.labeled += 1`, and `entry.matched += 1` for a true positive. -/
def CategoryCount.add (entry : CategoryCount) (label : FindingOutcomeLabelRecord) : CategoryCount :=
  { entry with
    labeled := entry.labeled + 1
    matched := if isMatched label then entry.matched + 1 else entry.matched }

/-- One label into the map: a new category comes behind the others. -/
def countCategory (label : FindingOutcomeLabelRecord) : List CategoryCount → List CategoryCount
  | [] => [CategoryCount.add ⟨label.category, 0, 0⟩ label]
  | entry :: rest =>
    if entry.category = label.category then entry.add label :: rest else entry :: countCategory label rest

structure CategoryPrecision extends CategoryCount where
  precision : ℚ
  deriving DecidableEq

def computeCategoryPrecision (localeCompare : String → String → Ordering) (validated : List FindingOutcomeLabelRecord) :
    List CategoryPrecision :=
  ((validated.foldl (fun entries label => countCategory label entries) []).insertionSort
      fun a b => localeCompare a.category b.category ≠ .gt).map fun entry =>
    { entry with precision := if entry.labeled = 0 then 0 else entry.matched / entry.labeled }

/-! ## The aggregate -/

structure CalibrationAggregateThresholds where
  minLabeledFindings : Nat
  minP0P1Labels : Nat
  minNegativeControlScenarios : Nat
  minWilsonLowerBound : ℚ
  deriving DecidableEq

def publicConfidencePolicy : CalibrationAggregateThresholds := ⟨100, 30, 10, 95 / 100⟩

structure CalibrationAggregate where
  labeledFindings : Nat
  p0p1Labels : Nat
  negativeControlScenarios : Nat
  bins : List ConfidenceBinStat
  bestWilsonLowerBound : ℚ
  categoryPrecision : List CategoryPrecision
  thresholds : CalibrationAggregateThresholds
  eligible : Bool
  reason : String
  deriving DecidableEq

def evaluateThresholds (labeledFindings p0p1Labels negativeControlScenarios : Nat) (bestWilsonLowerBound : ℚ)
    (thresholds : CalibrationAggregateThresholds) : Bool × String :=
  if labeledFindings < thresholds.minLabeledFindings then (false, "insufficient_labeled_findings")
  else if p0p1Labels < thresholds.minP0P1Labels then (false, "insufficient_p0_p1_labels")
  else if negativeControlScenarios < thresholds.minNegativeControlScenarios then
    (false, "insufficient_negative_controls")
  else if bestWilsonLowerBound < thresholds.minWilsonLowerBound then (false, "wilson_lower_bound_below_threshold")
  else (true, "eligible")

def isControl (label : FindingOutcomeLabelRecord) : Bool := label.labelSource = .explicitControl

/-- The labels that count as findings. -/
def validatedLabels (labels : List FindingOutcomeLabelRecord) : List FindingOutcomeLabelRecord :=
  labels.filter fun label => label.verdict ≠ .unvalidated && !isControl label

section
variable (sqrt : ℚ → ℚ) (localeCompare : String → String → Ordering)

def aggregateCalibrationLabels (labels : List FindingOutcomeLabelRecord) : CalibrationAggregate :=
  let negativeControlScenarios := (labels.filter isControl).length
  let validated := validatedLabels labels
  let findings := validated.map fun label => (⟨label.fingerprint, label.confidence⟩ : ConfidenceBinFinding)
  let matched := (validated.filter isMatched).map (·.fingerprint)
  let bins := computeConfidenceBinStats sqrt findings matched
  let bestWilsonLowerBound := bins.foldl (fun best bin => max best bin.rawWilsonLowerBound) 0
  let p0p1Labels := (validated.filter fun label => label.severity = "P0" || label.severity = "P1").length
  let decision := evaluateThresholds validated.length p0p1Labels negativeControlScenarios bestWilsonLowerBound
    publicConfidencePolicy
  { labeledFindings := validated.length
    p0p1Labels
    negativeControlScenarios
    bins
    bestWilsonLowerBound
    categoryPrecision := computeCategoryPrecision localeCompare validated
    thresholds := publicConfidencePolicy
    eligible := decision.1
    reason := decision.2 }

end

/-! ## What the counts should be -/

def labelsIn (bin : ℚ × ℚ) (labels : List FindingOutcomeLabelRecord) : List FindingOutcomeLabelRecord :=
  (validatedLabels labels).filter fun label => inBin bin label.confidence

def sumOver (es : List CategoryPrecision) (p : String → Bool) (count : CategoryPrecision → Nat) : Nat :=
  ((es.filter fun e => p e.category).map count).sum

structure CountsAreFaithful (sqrt : ℚ → ℚ) (localeCompare : String → String → Ordering)
    (labels : List FindingOutcomeLabelRecord) : Prop where
  partition : ∀ label ∈ validatedLabels labels, ∃! bin, bin ∈ confidenceBins ∧ inBin bin label.confidence
  findings : (aggregateCalibrationLabels sqrt localeCompare labels).bins.map (·.findings) =
    confidenceBins.map fun bin => (labelsIn bin labels).length
  matched : (aggregateCalibrationLabels sqrt localeCompare labels).bins.map (·.matched) =
    confidenceBins.map fun bin => (labelsIn bin labels).countP isMatched
  total : ((aggregateCalibrationLabels sqrt localeCompare labels).bins.map (·.findings)).sum =
    (aggregateCalibrationLabels sqrt localeCompare labels).labeledFindings
  labeled : ∀ p, sumOver (aggregateCalibrationLabels sqrt localeCompare labels).categoryPrecision p (·.labeled) =
    (validatedLabels labels).countP fun label => p label.category
  categories : ∀ p, sumOver (aggregateCalibrationLabels sqrt localeCompare labels).categoryPrecision p (·.matched) =
    (validatedLabels labels).countP fun label => p label.category && isMatched label
  agree : ((aggregateCalibrationLabels sqrt localeCompare labels).bins.map (·.matched)).sum =
    sumOver (aggregateCalibrationLabels sqrt localeCompare labels).categoryPrecision (fun _ => true) (·.matched)
  eligible : (aggregateCalibrationLabels sqrt localeCompare labels).eligible = true ↔
    100 ≤ (validatedLabels labels).length ∧
    30 ≤ (validatedLabels labels).countP (fun label => label.severity = "P0" || label.severity = "P1") ∧
    10 ≤ labels.countP isControl ∧
    ∃ bin ∈ (aggregateCalibrationLabels sqrt localeCompare labels).bins, 95 / 100 ≤ bin.rawWilsonLowerBound

def FingerprintsAgree (labels : List FindingOutcomeLabelRecord) : Prop :=
  ∀ a ∈ validatedLabels labels, ∀ b ∈ validatedLabels labels, a.verdict = .truePositive →
    b.verdict = .falsePositive → a.fingerprint ≠ b.fingerprint

/-! ## Bins -/

theorem existsUnique_bin {confidence : ℚ} (h : 0 ≤ confidence ∧ confidence ≤ 1) :
    ∃! bin, bin ∈ confidenceBins ∧ inBin bin confidence := by
  simp only [confidenceBins, List.mem_cons, List.not_mem_nil, or_false]
  rcases lt_or_ge confidence (1 / 2) with hlow | hlow
  · refine ⟨(0, 1 / 2), ⟨.inl rfl, by simp [inBin]; exact ⟨h.1, by linarith⟩⟩, ?_⟩
    rintro bin ⟨rfl | rfl | rfl, hin⟩
    · rfl
    · simp only [inBin, Bool.and_eq_true, decide_eq_true_eq] at hin
      linarith [hin.1]
    · simp only [inBin, Bool.and_eq_true, decide_eq_true_eq] at hin
      linarith [hin.1]
  · rcases lt_or_ge confidence (4 / 5) with hmid | hmid
    · refine ⟨(1 / 2, 4 / 5), ⟨.inr (.inl rfl), by simp [inBin]; exact ⟨by linarith, hmid⟩⟩, ?_⟩
      rintro bin ⟨rfl | rfl | rfl, hin⟩
      · simp only [inBin, Bool.and_eq_true, decide_eq_true_eq] at hin
        linarith [hin.2]
      · rfl
      · simp only [inBin, Bool.and_eq_true, decide_eq_true_eq] at hin
        linarith [hin.1]
    · refine ⟨(4 / 5, 101 / 100), ⟨.inr (.inr rfl), by simp [inBin]; exact ⟨hmid, by linarith [h.2]⟩⟩, ?_⟩
      rintro bin ⟨rfl | rfl | rfl, hin⟩
      · simp only [inBin, Bool.and_eq_true, decide_eq_true_eq] at hin
        linarith [hin.2]
      · simp only [inBin, Bool.and_eq_true, decide_eq_true_eq] at hin
        linarith [hin.2]
      · rfl

theorem countP_bins {confidence : ℚ} (h : 0 ≤ confidence ∧ confidence ≤ 1) :
    (confidenceBins.countP fun bin => inBin bin confidence) = 1 := by
  obtain ⟨bin, ⟨hmem, hin⟩, honly⟩ := existsUnique_bin h
  have hnodup : confidenceBins.Nodup := by norm_num [confidenceBins]
  rw [← List.count_eq_one_of_mem hnodup hmem, List.count]
  apply List.countP_congr
  intro other hother
  rw [beq_iff_eq]
  exact ⟨fun hin' => honly other ⟨hother, hin'⟩, fun heq => heq ▸ hin⟩

theorem sum_countP_bins {labels : List FindingOutcomeLabelRecord} (hrange : ConfidenceInRange labels)
    (p : FindingOutcomeLabelRecord → Bool) :
    (confidenceBins.map fun bin => (labels.filter fun label => inBin bin label.confidence).countP p).sum =
      labels.countP p := by
  induction labels with
  | nil => rfl
  | cons label labels ih =>
    have hone := countP_bins (hrange label List.mem_cons_self)
    have hrest := ih fun other hother => hrange other (List.mem_cons_of_mem label hother)
    simp only [confidenceBins, List.map_cons, List.map_nil, List.sum_cons, List.sum_nil, List.countP_cons,
      List.countP_nil, List.filter_cons, add_zero] at hone hrest ⊢
    rw [← hrest]
    cases h1 : inBin (0, 1 / 2) label.confidence <;> cases h2 : inBin (1 / 2, 4 / 5) label.confidence <;>
      cases h3 : inBin (4 / 5, 101 / 100) label.confidence <;> cases hp : p label <;>
      simp only [h1, h2, h3, hp, if_true, Bool.false_eq_true, if_false, List.countP_cons] at hone ⊢ <;> omega

theorem of_countP_eq {α : Type} {p q : α → Bool} {l : List α} (hle : ∀ x ∈ l, p x = true → q x = true)
    (h : l.countP p = l.countP q) : ∀ x ∈ l, q x = true → p x = true := by
  induction l with
  | nil => exact fun x hx => absurd hx List.not_mem_nil
  | cons y l ih =>
    have hrest := fun x hx => hle x (List.mem_cons_of_mem y hx)
    have hmono : l.countP p ≤ l.countP q := List.countP_mono_left hrest
    have hhead := hle y List.mem_cons_self
    rw [List.countP_cons, List.countP_cons] at h
    intro x hx hq
    rcases List.mem_cons.mp hx with rfl | hx
    · by_contra hp
      rw [if_neg hp, if_pos hq] at h
      omega
    · refine ih hrest ?_ x hx hq
      by_cases hp : p y = true
      · rw [if_pos hp, if_pos (hhead hp)] at h
        omega
      · rw [if_neg hp] at h
        split at h <;> omega

/-! ## Categories -/

theorem sum_countCategory (p : String → Bool) (count : CategoryCount → Nat) (weight : Nat)
    (label : FindingOutcomeLabelRecord) (hnew : count ⟨label.category, 0, 0⟩ = 0)
    (hadd : ∀ entry, count (entry.add label) = count entry + weight) (entries : List CategoryCount) :
    (((countCategory label entries).filter fun e => p e.category).map count).sum =
      ((entries.filter fun e => p e.category).map count).sum + if p label.category then weight else 0 := by
  induction entries with
  | nil =>
    have hcategory : (CategoryCount.add ⟨label.category, 0, 0⟩ label).category = label.category := rfl
    simp only [countCategory, List.filter_cons, List.filter_nil, hcategory]
    split
    · simp [hadd, hnew]
    · rfl
  | cons entry rest ih =>
    unfold countCategory
    split
    · rename_i hsame
      have hcategory : (entry.add label).category = entry.category := rfl
      simp only [List.filter_cons, hcategory, hsame]
      split
      · simp only [List.map_cons, List.sum_cons, hadd]
        omega
      · rfl
    · rw [List.filter_cons, List.filter_cons]
      split
      · simp only [List.map_cons, List.sum_cons, ih]
        omega
      · exact ih

theorem sumOver_computeCategoryPrecision (localeCompare : String → String → Ordering)
    (validated : List FindingOutcomeLabelRecord) (p : String → Bool) (count : CategoryCount → Nat)
    (weight : FindingOutcomeLabelRecord → Bool) (hnew : ∀ category, count ⟨category, 0, 0⟩ = 0)
    (hadd : ∀ entry label, count (entry.add label) = count entry + if weight label then 1 else 0) :
    sumOver (computeCategoryPrecision localeCompare validated) p (fun e => count e.toCategoryCount) =
      validated.countP fun label => p label.category && weight label := by
  have hfold : ∀ (validated : List FindingOutcomeLabelRecord) (entries : List CategoryCount),
      (((validated.foldl (fun entries label => countCategory label entries) entries).filter
        fun e => p e.category).map count).sum = ((entries.filter fun e => p e.category).map count).sum +
          validated.countP fun label => p label.category && weight label := by
    intro validated
    induction validated with
    | nil => exact fun entries => rfl
    | cons label validated ih =>
      intro entries
      rw [List.foldl_cons, ih, sum_countCategory p count _ label (hnew _) (hadd · label), List.countP_cons]
      cases p label.category <;> cases weight label <;> simp [add_assoc, add_comm 1]
  have hsorted := List.perm_insertionSort
    (fun a b : CategoryCount => localeCompare a.category b.category ≠ .gt)
    (validated.foldl (fun entries label => countCategory label entries) [])
  unfold sumOver computeCategoryPrecision
  rw [List.filter_map, List.map_map]
  have hsum := ((hsorted.filter fun e => p e.category).map count).sum_nat
  rw [hfold validated []] at hsum
  simpa [Function.comp_def] using hsum

/-! ## The floors -/

theorem le_foldl_max_iff (bins : List ConfidenceBinStat) {bound start : ℚ} (h : start < bound) :
    bound ≤ bins.foldl (fun best bin => max best bin.rawWilsonLowerBound) start ↔
      ∃ bin ∈ bins, bound ≤ bin.rawWilsonLowerBound := by
  induction bins generalizing start with
  | nil => simpa using h
  | cons bin bins ih =>
    rw [List.foldl_cons, List.exists_mem_cons_iff]
    rcases lt_or_ge bin.rawWilsonLowerBound bound with hlow | hhigh
    · rw [ih (max_lt h hlow)]
      exact ⟨.inr, fun h => h.resolve_left (not_le.mpr hlow)⟩
    · refine ⟨fun _ => .inl hhigh, fun _ => ?_⟩
      have hkeeps : ∀ (bins : List ConfidenceBinStat) (start : ℚ),
          start ≤ bins.foldl (fun best bin => max best bin.rawWilsonLowerBound) start := by
        intro bins
        induction bins with
        | nil => exact fun start => le_refl start
        | cons bin bins ih => exact fun start => le_trans (le_max_left _ _) (ih _)
      exact le_trans (le_trans hhigh (le_max_right _ _)) (hkeeps bins _)

theorem evaluateThresholds_eligible (labeledFindings p0p1Labels negativeControlScenarios : Nat)
    (bestWilsonLowerBound : ℚ) (thresholds : CalibrationAggregateThresholds) :
    (evaluateThresholds labeledFindings p0p1Labels negativeControlScenarios bestWilsonLowerBound thresholds).1 = true ↔
      thresholds.minLabeledFindings ≤ labeledFindings ∧ thresholds.minP0P1Labels ≤ p0p1Labels ∧
        thresholds.minNegativeControlScenarios ≤ negativeControlScenarios ∧
        thresholds.minWilsonLowerBound ≤ bestWilsonLowerBound := by
  unfold evaluateThresholds
  split_ifs with h1 h2 h3 h4
  · simp [h1]
  · simp [h2]
  · simp [h3]
  · simp [h4]
  · simp only [true_iff]
    exact ⟨not_lt.mp h1, not_lt.mp h2, not_lt.mp h3, not_lt.mp h4⟩

/-! ## The counts of the aggregate -/

section
variable (sqrt : ℚ → ℚ) (localeCompare : String → String → Ordering) (labels : List FindingOutcomeLabelRecord)

/-- What the bins take for a match: some true positive has the fingerprint. -/
def sharesMatched (label : FindingOutcomeLabelRecord) : Bool :=
  label.fingerprint ∈ ((validatedLabels labels).filter isMatched).map (·.fingerprint)

theorem map_findings_bins : (aggregateCalibrationLabels sqrt localeCompare labels).bins.map (·.findings) =
    confidenceBins.map fun bin => (labelsIn bin labels).length := by
  simp only [aggregateCalibrationLabels, computeConfidenceBinStats, List.map_map, Function.comp_def, binStat,
    List.filter_map, List.length_map, labelsIn]

theorem map_matched_bins : (aggregateCalibrationLabels sqrt localeCompare labels).bins.map (·.matched) =
    confidenceBins.map fun bin => (labelsIn bin labels).countP (sharesMatched labels) := by
  simp only [aggregateCalibrationLabels, computeConfidenceBinStats, List.map_map, Function.comp_def, binStat,
    List.filter_map, List.length_map, labelsIn, List.countP_eq_length_filter]
  rfl

theorem sharesMatched_of_isMatched {label : FindingOutcomeLabelRecord} (hlabel : label ∈ validatedLabels labels)
    (h : isMatched label = true) : sharesMatched labels label = true := by
  rw [sharesMatched, decide_eq_true_eq]
  exact List.mem_map.mpr ⟨label, List.mem_filter.mpr ⟨hlabel, h⟩, rfl⟩

theorem fingerprintsAgree_iff : FingerprintsAgree labels ↔
    ∀ label ∈ validatedLabels labels, sharesMatched labels label = true → isMatched label = true := by
  constructor
  · intro h label hlabel hshares
    rw [sharesMatched, decide_eq_true_eq] at hshares
    obtain ⟨other, hother, hsame⟩ := List.mem_map.mp hshares
    obtain ⟨hother, hmatched⟩ := List.mem_filter.mp hother
    rw [isMatched, decide_eq_true_eq] at hmatched ⊢
    have hvalidated := (List.mem_filter.mp hlabel).2
    cases hverdict : label.verdict with
    | truePositive => rfl
    | falsePositive => exact absurd hsame (h other hother label hlabel hmatched hverdict)
    | unvalidated => simp [hverdict] at hvalidated
  · intro h a ha b hb hmatched hdismissed hsame
    have hshares : sharesMatched labels b = true := by
      rw [sharesMatched, decide_eq_true_eq, ← hsame]
      exact List.mem_map.mpr ⟨a, List.mem_filter.mpr ⟨ha, by simp [isMatched, hmatched]⟩, rfl⟩
    have hown := h b hb hshares
    simp [isMatched, hdismissed] at hown

theorem sumOver_labeled (p : String → Bool) :
    sumOver (aggregateCalibrationLabels sqrt localeCompare labels).categoryPrecision p (·.labeled) =
      (validatedLabels labels).countP fun label => p label.category := by
  have hsum := sumOver_computeCategoryPrecision localeCompare (validatedLabels labels) p (·.labeled) (fun _ => true)
    (fun _ => rfl) (fun _ _ => rfl)
  simp only [Bool.and_true] at hsum
  exact hsum

theorem sumOver_matched (p : String → Bool) :
    sumOver (aggregateCalibrationLabels sqrt localeCompare labels).categoryPrecision p (·.matched) =
      (validatedLabels labels).countP fun label => p label.category && isMatched label := by
  have hsum := sumOver_computeCategoryPrecision localeCompare (validatedLabels labels) p (·.matched) isMatched
    (fun _ => rfl) (fun entry label => by cases h : isMatched label <;> simp [CategoryCount.add, h])
  exact hsum

theorem eligible_iff : (aggregateCalibrationLabels sqrt localeCompare labels).eligible = true ↔
    100 ≤ (validatedLabels labels).length ∧
    30 ≤ (validatedLabels labels).countP (fun label => label.severity = "P0" || label.severity = "P1") ∧
    10 ≤ labels.countP isControl ∧
    ∃ bin ∈ (aggregateCalibrationLabels sqrt localeCompare labels).bins, 95 / 100 ≤ bin.rawWilsonLowerBound := by
  rw [← le_foldl_max_iff _ (by norm_num : (0 : ℚ) < 95 / 100), List.countP_eq_length_filter,
    List.countP_eq_length_filter]
  exact evaluateThresholds_eligible _ _ _ _ _

variable {labels}

theorem inRange_validatedLabels (hrange : ConfidenceInRange labels) : ConfidenceInRange (validatedLabels labels) :=
  fun label hlabel => hrange label (List.mem_of_mem_filter hlabel)

theorem isMatched_of_counts (hrange : ConfidenceInRange labels)
    (hbins : (aggregateCalibrationLabels sqrt localeCompare labels).bins.map (·.matched) =
      confidenceBins.map fun bin => (labelsIn bin labels).countP isMatched) :
    ∀ label ∈ validatedLabels labels, sharesMatched labels label = true → isMatched label = true := by
  intro label hlabel hshares
  obtain ⟨bin, ⟨hbin, hin⟩, -⟩ := existsUnique_bin (inRange_validatedLabels hrange label hlabel)
  rw [map_matched_bins, List.map_inj_left] at hbins
  refine of_countP_eq ?_ (hbins bin hbin).symm label (List.mem_filter.mpr ⟨hlabel, hin⟩) hshares
  exact fun other hother => sharesMatched_of_isMatched labels (List.mem_of_mem_filter hother)

/-- The counts are faithful exactly where no fingerprint stands under both verdicts. -/
theorem calibration_counts_are_faithful (sqrt : ℚ → ℚ) (localeCompare : String → String → Ordering)
    (labels : List FindingOutcomeLabelRecord) (hrange : ConfidenceInRange labels) :
    CountsAreFaithful sqrt localeCompare labels ↔ FingerprintsAgree labels := by
  have hvalidated := inRange_validatedLabels hrange
  rw [fingerprintsAgree_iff]
  constructor
  · exact fun h => isMatched_of_counts sqrt localeCompare hrange h.matched
  · intro h
    have hmatched : ∀ bin, (labelsIn bin labels).countP (sharesMatched labels) =
        (labelsIn bin labels).countP isMatched := by
      intro bin
      apply List.countP_congr
      intro label hlabel
      have hlabel := List.mem_of_mem_filter hlabel
      exact ⟨h label hlabel, sharesMatched_of_isMatched labels hlabel⟩
    refine ⟨fun label hlabel => existsUnique_bin (hvalidated label hlabel), map_findings_bins sqrt localeCompare labels,
      ?_, ?_, sumOver_labeled sqrt localeCompare labels, sumOver_matched sqrt localeCompare labels, ?_,
      eligible_iff sqrt localeCompare labels⟩
    · rw [map_matched_bins]
      simp only [hmatched]
    · have hsum := sum_countP_bins hvalidated fun _ => true
      rw [map_findings_bins]
      simpa [labelsIn, aggregateCalibrationLabels] using hsum
    · rw [map_matched_bins, sumOver_matched]
      simp only [hmatched, Bool.true_and]
      exact sum_countP_bins hvalidated isMatched

end

/-- Two heads of one pull request: the finding is confirmed on the first and dismissed on the second. -/
def confirmed : FindingOutcomeLabelRecord :=
  { fingerprint := "finding:" ++ "0123456789abcdef0123456789abcdef0123456789abcdef0123456789abcdef"
    repo := "acme/widgets"
    pullNumber := 7
    headSha := "a1"
    severity := "P1"
    category := "correctness"
    confidence := 9 / 10
    labelSource := .mergedFix
    verdict := .truePositive
    observedAt := "2026-01-02T00:00:00.000Z" }

def dismissed : FindingOutcomeLabelRecord :=
  { confirmed with headSha := "b2", labelSource := .humanThread, verdict := .falsePositive }

theorem recorded_confirmed_dismissed : ∃ labels : LabelTable, Recorded id labels ∧ labels.rows = [confirmed, dismissed] := by
  have hconfidence : (0 : ℚ) ≤ 9 / 10 ∧ (9 / 10 : ℚ) ≤ 1 := by norm_num
  have hconfirmed (labels : LabelTable) : writeFindingOutcomeLabel id labels confirmed = .ok (labels.replace confirmed) :=
    writeFindingOutcomeLabel_eq_ok labels (by decide) (by decide) (by decide) hconfidence rfl
  have hdismissed (labels : LabelTable) : writeFindingOutcomeLabel id labels dismissed = .ok (labels.replace dismissed) :=
    writeFindingOutcomeLabel_eq_ok labels (by decide) (by decide) (by decide) hconfidence rfl
  refine ⟨((Table.empty.replace confirmed).replace dismissed : LabelTable), ?_, rfl⟩
  refine @Recorded.batch id .empty _ [confirmed, dismissed] .empty ?_
  unfold recordFindingOutcomeLabels
  simp only [List.foldlM_cons, hconfirmed, hdismissed, List.foldlM_nil]
  rfl

/-- The dismissed finding counts as matched. -/
theorem dismissed_counts_as_matched : ¬ ∀ (labels : LabelTable), Recorded id labels →
    CountsAreFaithful id compare (listFindingOutcomeLabels (fun _ => 0) none labels) := by
  intro h
  obtain ⟨labels, hrecorded, hrows⟩ := recorded_confirmed_dismissed
  have hmatched := (h labels hrecorded).matched
  have hlist : listFindingOutcomeLabels (fun _ => 0) none labels = [confirmed, dismissed] := by
    simp [listFindingOutcomeLabels, hrows]
  rw [hlist] at hmatched
  have hrange := (hrecorded.listed (fun _ => 0) none).1
  rw [hlist] at hrange
  have hvalidated : validatedLabels [confirmed, dismissed] = [confirmed, dismissed] := rfl
  have hdismissed : dismissed ∈ validatedLabels [confirmed, dismissed] := by simp [hvalidated]
  have hown := isMatched_of_counts id compare hrange hmatched dismissed hdismissed (by decide)
  exact absurd hown (by decide)

def refuted : FindingOutcomeLabelRecord :=
  { dismissed with fingerprint := "finding:" ++ "fedcba9876543210fedcba9876543210fedcba9876543210fedcba9876543210" }

theorem calibration_counts_are_faithful_of_two : CountsAreFaithful id compare [confirmed, refuted] := by
  refine (calibration_counts_are_faithful id compare [confirmed, refuted] ?_).mpr ?_
  · intro label hlabel
    rcases List.mem_pair.mp hlabel with rfl | rfl <;> norm_num [confirmed, refuted, dismissed]
  · unfold FingerprintsAgree
    decide +kernel

end NeonDiff.Outcome
