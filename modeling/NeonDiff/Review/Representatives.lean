import Mathlib.Data.List.Pairwise
import NeonDiff.Review.Accounting

/-! # Which findings stand for others

A finding stands for its near duplicates of a lower rank. The severity ranks before the confidence, so a finding of a
higher severity stands for an eligible one even where it is itself below a floor.
-/

namespace NeonDiff.Review

open NeonDiff.Lib

/-! ## Near duplicates, both ways -/

theorem isPrefixOf_of_length_eq {a b : List Char} (hlength : a.length = b.length) (h : a.isPrefixOf b = true) :
    a = b := by
  obtain ⟨rest, hrest⟩ := List.isPrefixOf_iff_prefix.mp h
  have hempty : rest.length = 0 := by
    have hsum := congrArg List.length hrest
    rw [List.length_append] at hsum
    omega
  rw [List.length_eq_zero_iff.mp hempty, List.append_nil] at hrest
  exact hrest

theorem titlesAreNearDuplicate_comm (a b : List Char) : titlesAreNearDuplicate a b = titlesAreNearDuplicate b a := by
  unfold titlesAreNearDuplicate
  by_cases heq : a = b
  · rw [heq]
  · rw [if_neg heq, if_neg (Ne.symm heq)]
    rcases Nat.lt_trichotomy a.length b.length with hlt | hlength | hgt
    · rw [if_pos hlt.le, if_neg (by omega)]
    · have hnot : ∀ c d : List Char, c.length = d.length → c ≠ d → c.isPrefixOf d = false := by
        intro c d hlength hne
        apply Bool.eq_false_iff.mpr
        intro hstart
        exact hne (isPrefixOf_of_length_eq hlength hstart)
      rw [if_pos hlength.le, if_pos hlength.ge]
      simp [hnot a b hlength heq, hnot b a hlength.symm (Ne.symm heq)]
    · rw [if_neg (by omega), if_pos hgt.le]

variable (fns : TextFunctions)

theorem sameRunFindingsAreNearDuplicates_comm (a b : Finding) :
    sameRunFindingsAreNearDuplicates fns a b = sameRunFindingsAreNearDuplicates fns b a := by
  unfold sameRunFindingsAreNearDuplicates
  have hpath : decide (a.path = b.path) = decide (b.path = a.path) := decide_eq_decide.mpr eq_comm
  have hcategory : decide (normalizeFindingCategory fns a = normalizeFindingCategory fns b) =
      decide (normalizeFindingCategory fns b = normalizeFindingCategory fns a) := decide_eq_decide.mpr eq_comm
  have hline : (a.line - b.line).natAbs = (b.line - a.line).natAbs := by omega
  rw [hpath, hcategory, hline, titlesAreNearDuplicate_comm]

/-! ## Rank and eligibility -/

def findingEligible (confidenceFloors : Option RequestChangesConfidenceFloors)
    (categoryPrecisionFloors : Option CategoryPrecisionFloors) (finding : Finding) : Bool :=
  isRequestChangesEligible finding.severity (normalizeFindingCategory fns finding) finding.confidence
    confidenceFloors categoryPrecisionFloors

variable {fns} {confidenceFloors : Option RequestChangesConfidenceFloors}
  {categoryPrecisionFloors : Option CategoryPrecisionFloors} {a b : Finding}

theorem severity_of_ranksBefore (h : ranksBefore fns a b) :
    a.severity.rank < b.severity.rank ∨ a.severity = b.severity ∧ b.confidence ≤ a.confidence := by
  unfold ranksBefore compareFindings compareLex compareOn at h
  rw [Ordering.isLE_then_iff_or, compare_lt_iff_lt, compare_eq_iff_eq] at h
  rcases h with hlt | ⟨heq, h⟩
  · exact Or.inl hlt
  · right
    have hconfidence : (compare b.confidence a.confidence).isLE = true := Ordering.isLE_left_of_isLE_then h
    refine ⟨?_, compare_le_iff_le.mp (Ordering.isLE_iff_ne_gt.mp hconfidence)⟩
    cases ha : a.severity <;> cases hb : b.severity <;> simp_all [Severity.rank]

theorem findingEligible_high (h : findingEligible fns confidenceFloors categoryPrecisionFloors b = true) :
    isHighSeverity b.severity = true := by
  unfold findingEligible isRequestChangesEligible at h
  split at h
  · cases h
  · rename_i hhigh
    simp only [Bool.or_eq_true, Bool.not_eq_true', not_or, Bool.not_eq_false] at hhigh
    exact hhigh.1

theorem belowFloor_of_le {c d : ℚ} (h : c ≤ d) {floor : Option ℚ} (hfloor : belowFloor d floor = true) :
    belowFloor c floor = true := by
  unfold belowFloor at hfloor ⊢
  rw [Option.any_eq_true] at hfloor ⊢
  obtain ⟨f, hf, hlt⟩ := hfloor
  refine ⟨f, hf, ?_⟩
  simp only [decide_eq_true_eq] at hlt ⊢
  exact lt_of_le_of_lt h hlt

theorem findingEligible_of_confidence (hseverity : a.severity = b.severity)
    (hcategory : normalizeFindingCategory fns a = normalizeFindingCategory fns b) (hconfidence : b.confidence ≤ a.confidence)
    (h : findingEligible fns confidenceFloors categoryPrecisionFloors b = true) :
    findingEligible fns confidenceFloors categoryPrecisionFloors a = true := by
  unfold findingEligible isRequestChangesEligible at h ⊢
  rw [hseverity, hcategory]
  split at h
  · cases h
  · rename_i hhigh
    rw [if_neg hhigh]
    split at h
    · cases h
    · rename_i hcategoryFloor
      rw [if_neg fun hbelow => hcategoryFloor (belowFloor_of_le hconfidence hbelow)]
      split at h
      · cases h
      · rename_i hfloor
        rw [if_neg fun hbelow => hfloor (belowFloor_of_le hconfidence hbelow)]

theorem category_of_near (h : sameRunFindingsAreNearDuplicates fns a b = true) :
    normalizeFindingCategory fns a = normalizeFindingCategory fns b := by
  unfold sameRunFindingsAreNearDuplicates at h
  simp only [Bool.and_eq_true, decide_eq_true_eq] at h
  exact h.1.1.2

theorem eligible_or_P0_stands (hbefore : ranksBefore fns a b)
    (hnear : sameRunFindingsAreNearDuplicates fns a b = true)
    (h : findingEligible fns confidenceFloors categoryPrecisionFloors b = true) :
    findingEligible fns confidenceFloors categoryPrecisionFloors a = true ∨
      a.severity = .P0 ∧ b.severity = .P1 := by
  rcases severity_of_ranksBefore hbefore with hrank | ⟨hseverity, hconfidence⟩
  · right
    have hhigh := findingEligible_high h
    cases ha : a.severity <;> cases hb : b.severity <;> simp_all [Severity.rank, isHighSeverity]
  · exact Or.inl (findingEligible_of_confidence hseverity (category_of_near hnear) hconfidence h)

/-! ## What stands of a list -/

variable (fns confidenceFloors categoryPrecisionFloors)

def representatives (findings : List Finding) : List Finding :=
  suppressSameRunNearDuplicates fns (rankedFindings fns findings)

def Silenced (findings : List Finding) (finding : Finding) : Prop :=
  ∃ kept ∈ representatives fns findings, kept.severity = .P0 ∧ finding.severity = .P1 ∧
    findingEligible fns confidenceFloors categoryPrecisionFloors kept = false ∧
    sameRunFindingsAreNearDuplicates fns kept finding = true

theorem rankedFindings_sorted (findings : List Finding) :
    (rankedFindings fns findings).Pairwise (ranksBefore fns) := List.pairwise_insertionSort _ _

theorem representatives_distinct (findings : List Finding) :
    (representatives fns findings).Pairwise fun a b => sameRunFindingsAreNearDuplicates fns a b = false :=
  Ranking.keepFirst_pairwise _ List.Pairwise.nil

theorem represented {findings : List Finding} {f : Finding}
    (hf : f ∈ nearDuplicates fns [] (rankedFindings fns findings)) :
    ∃ kept ∈ representatives fns findings, ranksBefore fns kept f ∧
      sameRunFindingsAreNearDuplicates fns kept f = true := by
  rw [nearDuplicates_eq_passedOver] at hf
  exact Ranking.exists_kept_of_passedOver [] (rankedFindings_sorted fns findings) hf

theorem mem_representatives_or {findings : List Finding} {f : Finding} (hf : f ∈ rankedFindings fns findings) :
    f ∈ representatives fns findings ∨ f ∈ nearDuplicates fns [] (rankedFindings fns findings) :=
  keepFirst_or_nearDuplicates fns hf

theorem representatives_accepted {findings : List Finding} {f : Finding} (hf : f ∈ representatives fns findings) :
    f ∈ rankedFindings fns findings := Ranking.keepFirst_subset _ hf

theorem not_silenced_of_kept {findings : List Finding} {f : Finding} (hf : f ∈ representatives fns findings) :
    ¬Silenced fns confidenceFloors categoryPrecisionFloors findings f := by
  rintro ⟨kept, hkept, hP0, hP1, -, hnear⟩
  have _ : Std.Symm fun a b => sameRunFindingsAreNearDuplicates fns a b = false := by
    constructor
    intro a b hab
    rw [sameRunFindingsAreNearDuplicates_comm]
    exact hab
  have hne : kept ≠ f := by
    rintro rfl
    rw [hP0] at hP1
    cases hP1
  have hfar := (representatives_distinct fns findings).forall hkept hf hne
  rw [hfar] at hnear
  cases hnear

theorem exists_eligible_representative_iff (findings : List Finding) :
    (∃ f ∈ representatives fns findings, findingEligible fns confidenceFloors categoryPrecisionFloors f = true) ↔
      ∃ f ∈ rankedFindings fns findings, findingEligible fns confidenceFloors categoryPrecisionFloors f = true ∧
        ¬Silenced fns confidenceFloors categoryPrecisionFloors findings f := by
  constructor
  · rintro ⟨f, hf, heligible⟩
    exact ⟨f, representatives_accepted fns hf, heligible, not_silenced_of_kept fns _ _ hf⟩
  · rintro ⟨f, hf, heligible, hloud⟩
    rcases mem_representatives_or fns hf with hkept | hdropped
    · exact ⟨f, hkept, heligible⟩
    · obtain ⟨kept, hkept, hbefore, hnear⟩ := represented fns hdropped
      rcases eligible_or_P0_stands hbefore hnear heligible with hstands | ⟨hP0, hP1⟩
      · exact ⟨kept, hkept, hstands⟩
      · refine ⟨kept, hkept, ?_⟩
        by_contra hbelow
        exact hloud ⟨kept, hkept, hP0, hP1, Bool.eq_false_iff.mpr hbelow, hnear⟩

/-! ## The comments -/

theorem normalized_comments {findings : List Finding} {maxInlineComments : Option Nat}
    (hcap : findings.length ≤ maxInlineComments.getD 25) :
    (normalizeFindingsForReview fns findings maxInlineComments).1 =
      (representatives fns findings).map (reviewComment fns) := by
  have hlength : (representatives fns findings).length ≤ maxInlineComments.getD 25 := by
    have hkept := (Ranking.keepFirst_sublist (sameRunFindingsAreNearDuplicates fns) []
      (rankedFindings fns findings)).length_le
    have haccepted : (rankedFindings fns findings).length ≤ findings.length := by
      rw [rankedFindings, List.length_insertionSort]
      exact List.length_filter_le _ _
    rw [List.nil_append] at hkept
    exact (hkept.trans haccepted).trans hcap
  unfold normalizeFindingsForReview shownFindings
  dsimp only
  rw [← representatives, List.take_of_length_le hlength]

/-- With room for all, the comments ask for changes exactly when some accepted finding that does is not silenced by a
kept P0 below its floor. -/
theorem deduplication_silences_only_below_a_floor (findings : List Finding) (maxInlineComments : Option Nat)
    (hcap : findings.length ≤ maxInlineComments.getD 25) :
    ((∃ comment ∈ (normalizeFindingsForReview fns findings maxInlineComments).1,
        isRequestChangesEligible comment.severity comment.category comment.confidence confidenceFloors
          categoryPrecisionFloors = true) ↔
      ∃ f ∈ rankedFindings fns findings, findingEligible fns confidenceFloors categoryPrecisionFloors f = true ∧
        ¬Silenced fns confidenceFloors categoryPrecisionFloors findings f) ∧
    (representatives fns findings).Pairwise (fun a b => sameRunFindingsAreNearDuplicates fns a b = false) ∧
    ∀ f ∈ nearDuplicates fns [] (rankedFindings fns findings), ∃ kept ∈ representatives fns findings,
      ranksBefore fns kept f ∧ sameRunFindingsAreNearDuplicates fns kept f = true := by
  refine ⟨?_, representatives_distinct fns findings, fun f hf => represented fns hf⟩
  rw [← exists_eligible_representative_iff, normalized_comments fns hcap]
  constructor
  · rintro ⟨comment, hcomment, heligible⟩
    obtain ⟨f, hf, rfl⟩ := List.mem_map.mp hcomment
    exact ⟨f, hf, heligible⟩
  · rintro ⟨f, hf, heligible⟩
    exact ⟨reviewComment fns f, List.mem_map_of_mem hf, heligible⟩

/-- The same fault twice: once as a P0 with little confidence, once as a P1. -/
def doubtfulCrash : Finding := { lostExitCode with severity := .P0, confidence := 3 / 10 }

def floorsForP0 : RequestChangesConfidenceFloors := ⟨some (1 / 2), none⟩

/-- The same fault found once more, with less confidence. -/
def lessSureExitCode : Finding := { lostExitCode with confidence := 7 / 10 }

theorem deduplication_silences_only_below_a_floor_of_two :
    representatives plainTexts [lessSureExitCode, lostExitCode] = [lostExitCode] ∧
    ∃ comment ∈ (normalizeFindingsForReview plainTexts [lessSureExitCode, lostExitCode] none).1,
      isRequestChangesEligible comment.severity comment.category comment.confidence (some floorsForP0) none = true := by
  have hiff := (deduplication_silences_only_below_a_floor plainTexts (some floorsForP0) none
    [lessSureExitCode, lostExitCode] none (by decide)).1
  refine ⟨by decide +kernel, hiff.mpr ?_⟩
  refine ⟨lostExitCode, by decide +kernel, by decide +kernel, ?_⟩
  exact not_silenced_of_kept plainTexts _ _ (by decide +kernel)

/-- The P1 alone asks for changes; next to the P0, which is below its floor, it is dropped. -/
theorem deduplication_silences :
    ¬∀ (fns : TextFunctions) (confidenceFloors : Option RequestChangesConfidenceFloors)
      (categoryPrecisionFloors : Option CategoryPrecisionFloors) (findings : List Finding)
      (maxInlineComments : Option Nat), findings.length ≤ maxInlineComments.getD 25 →
      (∃ f ∈ rankedFindings fns findings, findingEligible fns confidenceFloors categoryPrecisionFloors f = true) →
      ∃ comment ∈ (normalizeFindingsForReview fns findings maxInlineComments).1,
        isRequestChangesEligible comment.severity comment.category comment.confidence confidenceFloors
          categoryPrecisionFloors = true := by
  intro h
  obtain ⟨comment, hcomment, heligible⟩ := h plainTexts (some floorsForP0) none [doubtfulCrash, lostExitCode] none
    (by decide) ⟨lostExitCode, by decide +kernel, by decide +kernel⟩
  have hquiet : (normalizeFindingsForReview plainTexts [doubtfulCrash, lostExitCode] none).1.all (fun comment =>
      !isRequestChangesEligible comment.severity comment.category comment.confidence (some floorsForP0) none) =
      true := by decide +kernel
  have hnot := List.all_eq_true.mp hquiet comment hcomment
  rw [heligible] at hnot
  cases hnot

end NeonDiff.Review
