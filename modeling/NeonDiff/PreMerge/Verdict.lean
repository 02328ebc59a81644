import Mathlib.Algebra.Order.BigOperators.Group.List
import NeonDiff.PreMerge.Isolation

/-! # What the verdict of a metadata check depends on -/

open NeonDiff.Lib NeonDiff.Lib.JsText NeonDiff.Lib.Words

namespace NeonDiff.PreMerge

variable {toUpperCase : Char → Char} {config : PreMergeMetadataCheckConfig} {spec : MetadataCheck}

/-! ## Bodies made of lines -/

def bodyOf (lines : List (List Char)) : Option String := some (String.ofList (['\r', '\n'].intercalate lines))

theorem splitLines_intercalate {lines : List (List Char)} (hne : lines ≠ []) (h : ∀ line ∈ lines, '\n' ∉ line) :
    splitLines (['\r', '\n'].intercalate lines) = lines := by
  induction lines with
  | nil => exact absurd rfl hne
  | cons line lines ih =>
    have hline := h line List.mem_cons_self
    cases lines with
    | nil =>
      rw [List.intercalate_singleton, splitLines, split_of_notMem hline]
      rfl
    | cons next lines =>
      have hended : '\n' ∉ line ++ ['\r'] := by
        rw [List.mem_append, not_or]
        exact ⟨hline, by decide⟩
      have hreturn : dropReturn (line ++ ['\r']) = line := by
        rw [dropReturn, if_pos (by rw [List.getLast?_concat]), List.dropLast_concat]
      have htail := ih (List.cons_ne_nil next lines) fun l hl => h l (List.mem_cons_of_mem line hl)
      have hjoin : ['\r', '\n'].intercalate (line :: next :: lines) =
          (line ++ ['\r']) ++ '\n' :: ['\r', '\n'].intercalate (next :: lines) := by
        rw [List.intercalate_cons_cons]
        simp
      rw [hjoin, splitLines_append_newline, split_of_notMem hended, htail, List.map_singleton, hreturn]
      rfl

theorem splitLines_bodyOf {lines : List (List Char)} (hne : lines ≠ []) (h : ∀ line ∈ lines, '\n' ∉ line) :
    splitLines ((bodyOf lines).getD "").toList = lines := by
  rw [bodyOf, Option.getD_some, String.toList_ofList, splitLines_intercalate hne h]

theorem notMem_dropReturn {c : Char} {line : List Char} (h : c ∉ line) : c ∉ dropReturn line := by
  unfold dropReturn
  split
  · exact fun hc => h (List.dropLast_subset line hc)
  · exact h

theorem newline_notMem_splitLines (cs : List Char) : ∀ line ∈ splitLines cs, '\n' ∉ line := by
  have hends : ∀ parts : List (List Char), (∀ part ∈ parts, '\n' ∉ part) → ∀ line ∈ endLines parts, '\n' ∉ line := by
    intro parts hparts
    induction parts using endLines.induct with
    | case1 => exact fun line hline => nomatch hline
    | case2 part => exact hparts
    | case3 part next rest ih =>
      intro line hline
      rw [endLines, List.mem_cons] at hline
      rcases hline with rfl | hline
      · exact notMem_dropReturn (hparts part List.mem_cons_self)
      · exact ih (fun p hp => hparts p (List.mem_cons_of_mem part hp)) line hline
  exact hends _ (sep_notMem_split '\n' cs)

/-! ## Sections whose text settles the check -/

/-- The check is off, a metadata heading ends what is read, or the detail before the next heading says not applicable
or is long enough. -/
def Settled (toUpperCase : Char → Char) (config : PreMergeMetadataCheckConfig) (spec : MetadataCheck)
    (inlineDetail : List Char) (lines : List (List Char)) (next : List Char) : Prop :=
  config.mode = .off ∨ ¬RunsOn toUpperCase (checkHeadings config spec) lines next ∨
    isNotApplicableSection toUpperCase (detailOf (inlineDetail :: lines)) = true ∨
      isLong config (detailOf (inlineDetail :: lines)) = true

section
variable {heading next : List Char} {lines : List (List Char)} {found : HeadingMatch} {body : Option String}

theorem evaluate_shows (hmode : config.mode ≠ .off)
    (hheading : matchMetadataHeading toUpperCase heading (checkHeadings config spec) = some found)
    (h : ShowsSection toUpperCase (checkHeadings config spec) heading lines next body) :
    (¬RunsOn toUpperCase (checkHeadings config spec) lines next ∧
      evaluateMetadataCheck toUpperCase ⟨body⟩ config spec = checkSection toUpperCase config spec
        (some ⟨found.heading, detailOf (found.inlineDetail :: taken toUpperCase (checkHeadings config spec) lines)⟩)) ∨
    RunsOn toUpperCase (checkHeadings config spec) lines next ∧ ∃ detail,
      (detail = detailOf (found.inlineDetail :: lines) ∨ GoesOn (detailOf (found.inlineDetail :: lines)) detail) ∧
        normalizeText detail = detail ∧
        evaluateMetadataCheck toUpperCase ⟨body⟩ config spec =
          checkSection toUpperCase config spec (some ⟨found.heading, detail⟩) := by
  obtain ⟨before, rest, hbody, hbefore, hrest⟩ := h.reads
  have heval := evaluateMetadataCheck_eq hmode hheading hbody hbefore
  by_cases hruns : RunsOn toUpperCase (checkHeadings config spec) lines next
  · right
    rw [taken_append_of_runsOn hruns] at heval
    refine ⟨hruns, _, ?_, normalizeText_detailOf _, heval⟩
    rcases hrest with rfl | hhead
    · left
      rw [taken, List.takeWhile_nil, List.append_nil]
    · right
      cases rest with
      | nil => cases hhead
      | cons line rest =>
        obtain rfl := Option.some.inj hhead
        have hline : endsSection toUpperCase (checkHeadings config spec) line = false := hruns line (by simp)
        rw [taken, List.takeWhile_cons_of_pos (by rw [hline]; rfl), ← List.cons_append]
        exact detailOf_goesOn (words_of_isMarkdownHeading h.ends)
  · left
    rw [taken_append_of_ends hruns hrest] at heval
    exact ⟨hruns, heval⟩

theorem isNotApplicable_goesOn {detail longer : List Char} (hdetail : normalizeText detail = detail)
    (hlonger : normalizeText longer = longer) (h : longer = detail ∨ GoesOn detail longer) :
    isNotApplicableSection toUpperCase longer = isNotApplicableSection toUpperCase detail := by
  rcases h with rfl | h
  · rfl
  · rw [Bool.eq_iff_iff, isNotApplicableSection_iff, isNotApplicableSection_iff, hdetail, hlonger]
    exact beginsWithPhrase_goesOn h

theorem isLong_goesOn {detail longer : List Char} (hdetail : normalizeText detail = detail)
    (hlonger : normalizeText longer = longer) (h : longer = detail ∨ GoesOn detail longer)
    (hlong : isLong config detail = true) : isLong config longer = true := by
  rcases h with rfl | h
  · exact hlong
  · have hle := h.length_le
    unfold isLong at *
    rw [hdetail, decide_eq_true_eq] at hlong
    rw [hlonger, decide_eq_true_eq]
    omega

theorem evaluate_of_settled (hheading : matchMetadataHeading toUpperCase heading (checkHeadings config spec) = some found)
    (hsettled : Settled toUpperCase config spec found.inlineDetail lines next) {other : Option String}
    (h : ShowsSection toUpperCase (checkHeadings config spec) heading lines next body)
    (hother : ShowsSection toUpperCase (checkHeadings config spec) heading lines next other) :
    evaluateMetadataCheck toUpperCase ⟨other⟩ config spec = evaluateMetadataCheck toUpperCase ⟨body⟩ config spec := by
  by_cases hmode : config.mode = .off
  · unfold evaluateMetadataCheck
    rw [if_pos hmode, if_pos hmode]
  · have hbase : ∀ {shown : Option String},
        ShowsSection toUpperCase (checkHeadings config spec) heading lines next shown →
        RunsOn toUpperCase (checkHeadings config spec) lines next →
        evaluateMetadataCheck toUpperCase ⟨shown⟩ config spec = checkSection toUpperCase config spec
          (some ⟨found.heading, detailOf (found.inlineDetail :: lines)⟩) := by
      intro shown hshown hruns
      rcases evaluate_shows hmode hheading hshown with ⟨hends, -⟩ | ⟨-, detail, hdetail, hnormal, heval⟩
      · exact absurd hruns hends
      · have hna := @isNotApplicable_goesOn toUpperCase _ _ (normalizeText_detailOf _) hnormal hdetail
        rw [heval]
        apply checkSection_congr hna
        intro hfalse
        rw [hna] at hfalse
        rcases hsettled with hoff | hends | hbase | hlong
        · exact absurd hoff hmode
        · exact absurd hruns hends
        · rw [hbase] at hfalse
          cases hfalse
        · rw [hlong, isLong_goesOn (normalizeText_detailOf _) hnormal hdetail hlong]
    by_cases hruns : RunsOn toUpperCase (checkHeadings config spec) lines next
    · rw [hbase h hruns, hbase hother hruns]
    · rcases evaluate_shows hmode hheading h with ⟨-, heval⟩ | ⟨hruns', -⟩
      · rcases evaluate_shows hmode hheading hother with ⟨-, heval'⟩ | ⟨hruns', -⟩
        · rw [heval, heval']
        · exact absurd hruns' hruns
      · exact absurd hruns' hruns

/-! ## Sections whose text does not -/

/-- A line that no heading of these matches, as long as the check asks for. -/
def filler (config : PreMergeMetadataCheckConfig) (spec : MetadataCheck) : List Char :=
  .replicate ((minDetailLength config).toNat + 1 +
    ((checkHeadings config spec ++ MetadataCheck.all.flatMap MetadataCheck.headings).map
      fun heading => (trim heading.toList).length).sum) 'x'

theorem filler_eq (config : PreMergeMetadataCheckConfig) (spec : MetadataCheck) : ∀ c ∈ filler config spec, c = 'x' :=
  fun _ hc => List.eq_of_mem_replicate hc

theorem filler_endsSection (config : PreMergeMetadataCheckConfig) (spec : MetadataCheck) :
    endsSection toUpperCase (checkHeadings config spec) (filler config spec) = false := by
  have hlong : ∀ heading ∈ checkHeadings config spec ++ MetadataCheck.all.flatMap MetadataCheck.headings,
      (trim heading.toList).length < (filler config spec).length := by
    intro heading hheading
    have hle := List.le_sum_of_mem (List.mem_map_of_mem (f := fun h : String => (trim h.toList).length) hheading)
    rw [filler, List.length_replicate]
    omega
  have hnone : ∀ headings, headings ⊆ checkHeadings config spec ++ MetadataCheck.all.flatMap MetadataCheck.headings →
      matchMetadataHeading toUpperCase (filler config spec) headings = none :=
    fun headings hsub => matchMetadataHeading_of_long (filler_eq config spec) fun h hh => hlong h (hsub hh)
  unfold endsSection isAnyMetadataHeading
  rw [hnone _ (List.subset_append_left _ _), hnone _ (List.subset_append_right _ _)]
  rfl

theorem words_filler (config : PreMergeMetadataCheckConfig) (spec : MetadataCheck) :
    words (filler config spec) = [filler config spec] := by
  have hne : filler config spec ≠ [] := by
    rw [filler, ne_eq, List.replicate_eq_nil_iff]
    omega
  have hkeep : ∀ c ∈ filler config spec, (!isSpace c) = true := by
    intro c hc
    rw [filler_eq config spec c hc]
    decide
  have hone := @runs_append _ _ hne hkeep [] (fun c hc => nomatch hc)
  rwa [List.append_nil] at hone

theorem length_filler (config : PreMergeMetadataCheckConfig) (spec : MetadataCheck) :
    minDetailLength config ≤ length (filler config spec) := by
  have hone : ∀ n, length (List.replicate n 'x') = n := by
    intro n
    simp [length]
  rw [filler, hone]
  omega

theorem newline_notMem_filled (hnext : '\n' ∉ next) : ∀ line ∈ [next, filler config spec], '\n' ∉ line := by
  intro line hline
  rcases List.mem_cons.mp hline with rfl | hline
  · exact hnext
  · rw [List.mem_singleton.mp hline]
    intro hmem
    exact absurd (filler_eq config spec _ hmem) (by decide)

theorem shows_alone (hlines : ∀ line ∈ heading :: lines, '\n' ∉ line)
    (hwithin : ∀ line ∈ lines, isMarkdownHeading line = false) (hends : isMarkdownHeading next = true) :
    ShowsSection toUpperCase (checkHeadings config spec) heading lines next (bodyOf (heading :: lines)) where
  within := hwithin
  ends := hends
  reads := by
    refine ⟨[], [], ?_, fun line hline => (nomatch hline), .inl rfl⟩
    rw [splitLines_bodyOf (List.cons_ne_nil _ _) hlines, List.append_nil]
    rfl

theorem shows_filled (hlines : ∀ line ∈ heading :: lines, '\n' ∉ line) (hnext : '\n' ∉ next)
    (hwithin : ∀ line ∈ lines, isMarkdownHeading line = false) (hends : isMarkdownHeading next = true) :
    ShowsSection toUpperCase (checkHeadings config spec) heading lines next
      (bodyOf (heading :: (lines ++ [next, filler config spec]))) where
  within := hwithin
  ends := hends
  reads := by
    refine ⟨[], [next, filler config spec], ?_, fun line hline => (nomatch hline), .inr rfl⟩
    rw [splitLines_bodyOf (List.cons_ne_nil _ _)]
    · rfl
    · intro line hline
      rw [← List.cons_append, List.mem_append] at hline
      exact hline.elim (hlines line) (newline_notMem_filled hnext line)

theorem evaluate_alone (hmode : config.mode ≠ .off) (hlines : ∀ line ∈ heading :: lines, '\n' ∉ line)
    (hheading : matchMetadataHeading toUpperCase heading (checkHeadings config spec) = some found)
    (hruns : RunsOn toUpperCase (checkHeadings config spec) lines next) :
    evaluateMetadataCheck toUpperCase ⟨bodyOf (heading :: lines)⟩ config spec = checkSection toUpperCase config spec
      (some ⟨found.heading, detailOf (found.inlineDetail :: lines)⟩) := by
  have hall := @taken_append_of_runsOn toUpperCase _ _ [] _ hruns
  have hnil : taken toUpperCase (checkHeadings config spec) [] = [] := rfl
  rw [hnil, List.append_nil] at hall
  have hbody := splitLines_bodyOf (List.cons_ne_nil heading lines) hlines
  have heval := @evaluateMetadataCheck_eq _ _ spec _ [] _ _ _ hmode hheading hbody (fun line hline => nomatch hline)
  rwa [hall] at heval

theorem filled_passes (hmode : config.mode ≠ .off) (hlines : ∀ line ∈ heading :: lines, '\n' ∉ line)
    (hnext : '\n' ∉ next) (hends : isMarkdownHeading next = true)
    (hheading : matchMetadataHeading toUpperCase heading (checkHeadings config spec) = some found)
    (hruns : RunsOn toUpperCase (checkHeadings config spec) lines next)
    (hna : isNotApplicableSection toUpperCase (detailOf (found.inlineDetail :: lines)) = false) :
    (evaluateMetadataCheck toUpperCase ⟨bodyOf (heading :: (lines ++ [next, filler config spec]))⟩ config spec).status =
      .pass := by
  have hbody := @splitLines_bodyOf (heading :: (lines ++ [next, filler config spec])) (List.cons_ne_nil _ _) (by
    intro line hline
    rw [← List.cons_append, List.mem_append] at hline
    exact hline.elim (hlines line) (newline_notMem_filled hnext line))
  have heval := @evaluateMetadataCheck_eq _ _ spec _ [] _ _ _ hmode hheading hbody (fun line hline => nomatch hline)
  have hnextRuns : endsSection toUpperCase (checkHeadings config spec) next = false := hruns next (by simp)
  have htaken : taken toUpperCase (checkHeadings config spec) [next, filler config spec] = [next, filler config spec] := by
    simp [taken, hnextRuns, filler_endsSection]
  have hgoesOn : GoesOn (detailOf (found.inlineDetail :: lines))
      (detailOf (found.inlineDetail :: lines ++ next :: [filler config spec])) :=
    detailOf_goesOn (words_of_isMarkdownHeading hends)
  have hna' := @isNotApplicable_goesOn toUpperCase _ _ (normalizeText_detailOf _) (normalizeText_detailOf _) (.inr hgoesOn)
  rw [taken_append_of_runsOn hruns, htaken] at heval
  rw [heval, checkSection_status, ← List.cons_append, hna', hna, if_neg Bool.false_ne_true, isLong, decide_eq_true_eq,
    normalizeText_detailOf, detailOf_eq]
  have hmem : filler config spec ∈ (found.inlineDetail :: lines ++ [next, filler config spec]).flatMap words :=
    List.mem_flatMap.mpr ⟨filler config spec, by simp, by rw [words_filler]; exact List.mem_singleton.mpr rfl⟩
  have hge := length_intercalate_ge _ _ hmem
  have hmin := length_filler config spec
  omega

/-! ## Sections without text -/

theorem minDetailLength_pos {check : String} (hvalid : validateMetadataCheckConfig check config = []) :
    1 ≤ minDetailLength config := by
  have hpositive := (List.append_eq_nil_iff.mp hvalid).1
  unfold validatePositiveInteger at hpositive
  unfold minDetailLength
  cases hmin : config.minDetailLength with
  | none => decide
  | some n =>
    rw [hmin, Option.any_some] at hpositive
    rw [Option.getD_some]
    by_contra hlt
    rw [if_pos (by rw [decide_eq_true_eq]; omega)] at hpositive
    cases hpositive

theorem words_blank {line : List Char} (h : ∀ c ∈ line, isSpace c = true) : words line = [] :=
  runs_eq_nil fun c hc => by rw [h c hc]; rfl

theorem detailOf_blank {lines : List (List Char)} (h : ∀ line ∈ lines, ∀ c ∈ line, isSpace c = true) :
    detailOf lines = [] := by
  have hwords : lines.flatMap words = [] := by
    rw [List.flatMap_eq_nil_iff]
    exact fun line hline => words_blank (h line hline)
  rw [detailOf_eq, hwords]
  rfl

theorem isNotApplicable_nil : isNotApplicableSection toUpperCase [] = false := by
  rw [← Bool.not_eq_true, isNotApplicableSection_iff]
  rintro ⟨phrase, hphrase, taken, rest, htext, htaken, -⟩
  obtain ⟨rfl, -⟩ := List.append_eq_nil_iff.mp (show taken ++ rest = [] from htext.symm)
  have hnil : phrase = [] := List.map_eq_nil_iff.mp (htaken.symm.trans rfl)
  rw [hnil] at hphrase
  revert hphrase
  decide

theorem blank_not_pass {check : String} (hvalid : validateMetadataCheckConfig check config = []) {name : String} :
    (checkSection toUpperCase config spec (some ⟨name, []⟩)).status ≠ .pass := by
  have hmin := minDetailLength_pos hvalid
  have hlength : length (normalizeText []) = 0 := rfl
  rw [ne_eq, checkSection_status, isNotApplicable_nil, if_neg Bool.false_ne_true, isLong, decide_eq_true_eq, hlength]
  omega

/-! ## The law -/

/-- The verdict depends on the text up to the next heading of Markdown only exactly where that text settles it; and a
section without text cannot pass exactly where the next heading is a metadata heading. -/
theorem metadata_section_isolated_iff (check : String) {before rest : List (List Char)}
    (hvalid : validateMetadataCheckConfig check config = [])
    (hbody : splitLines (body.getD "").toList = before ++ heading :: (lines ++ next :: rest))
    (hbefore : ∀ line ∈ before, matchMetadataHeading toUpperCase line (checkHeadings config spec) = none)
    (hheading : matchMetadataHeading toUpperCase heading (checkHeadings config spec) = some found)
    (hlines : ∀ line ∈ lines, isMarkdownHeading line = false) (hnext : isMarkdownHeading next = true) :
    ((∀ other, ShowsSection toUpperCase (checkHeadings config spec) heading lines next other →
        evaluateMetadataCheck toUpperCase ⟨other⟩ config spec = evaluateMetadataCheck toUpperCase ⟨body⟩ config spec) ↔
      Settled toUpperCase config spec found.inlineDetail lines next) ∧
    ((∀ line ∈ found.inlineDetail :: lines, ∀ c ∈ line, isSpace c = true) →
      ((∀ other, ShowsSection toUpperCase (checkHeadings config spec) heading lines next other →
          (evaluateMetadataCheck toUpperCase ⟨other⟩ config spec).status ≠ .pass) ↔
        config.mode = .off ∨ ¬RunsOn toUpperCase (checkHeadings config spec) lines next)) := by
  have hshows : ShowsSection toUpperCase (checkHeadings config spec) heading lines next body :=
    ⟨hlines, hnext, before, next :: rest, hbody, hbefore, .inr rfl⟩
  have hnewline := newline_notMem_splitLines (body.getD "").toList
  rw [hbody] at hnewline
  have hsection : ∀ line ∈ heading :: lines, '\n' ∉ line := by
    intro line hline
    apply hnewline
    rw [List.mem_append, ← List.cons_append, List.mem_append]
    exact .inr (.inl hline)
  have hnextLine : '\n' ∉ next := hnewline next (by simp)
  have halone := @shows_alone toUpperCase config spec _ _ _ hsection hlines hnext
  have hfilled := @shows_filled toUpperCase config spec _ _ _ hsection hnextLine hlines hnext
  constructor
  · constructor
    · intro hsame
      by_contra hnot
      unfold Settled at hnot
      rw [not_or, not_or, not_or, not_not, Bool.not_eq_true, Bool.not_eq_true] at hnot
      obtain ⟨hmode, hruns, hna, hlong⟩ := hnot
      have hpass := filled_passes hmode hsection hnextLine hnext hheading hruns hna
      rw [hsame _ hfilled, ← hsame _ halone, evaluate_alone hmode hsection hheading hruns, checkSection_status, hna,
        if_neg Bool.false_ne_true, hlong] at hpass
      cases hpass
    · exact fun hsettled other hother => evaluate_of_settled hheading hsettled hshows hother
  · intro hblank
    have hnil := detailOf_blank hblank
    constructor
    · intro hnever
      by_contra hnot
      rw [not_or, not_not] at hnot
      obtain ⟨hmode, hruns⟩ := hnot
      have hna : isNotApplicableSection toUpperCase (detailOf (found.inlineDetail :: lines)) = false := by
        rw [hnil]
        exact isNotApplicable_nil
      exact hnever _ hfilled (filled_passes hmode hsection hnextLine hnext hheading hruns hna)
    · rintro hends other hother
      by_cases hmode : config.mode = .off
      · unfold evaluateMetadataCheck
        rw [if_pos hmode]
        exact fun h => nomatch h
      · rcases evaluate_shows hmode hheading hother with ⟨-, heval⟩ | ⟨hruns, -⟩
        · have htaken : ∀ line ∈ found.inlineDetail :: taken toUpperCase (checkHeadings config spec) lines,
              ∀ c ∈ line, isSpace c = true := by
            intro line hline
            apply hblank
            rcases List.mem_cons.mp hline with rfl | hline
            · exact List.mem_cons_self
            · exact List.mem_cons_of_mem _ ((List.takeWhile_sublist _).subset hline)
          rw [heval, detailOf_blank htaken]
          exact blank_not_pass hvalid
        · exact absurd hruns (hends.resolve_left hmode)

end

/-! ## Fixed bodies -/

def defaultConfig : PreMergeMetadataCheckConfig := ⟨.error, none, none, none⟩

/-- An empty section before a heading of another name. -/
def emptyValidation : Option String := some "## Validation\n\n## Proof Boundary\n\nThis PR proves:"

theorem metadata_section_isolated_iff_empty :
    ((∀ other, ShowsSection id (checkHeadings defaultConfig .testEvidence) "## Validation".toList [[]]
        "## Proof Boundary".toList other →
          evaluateMetadataCheck id ⟨other⟩ defaultConfig .testEvidence =
            evaluateMetadataCheck id ⟨emptyValidation⟩ defaultConfig .testEvidence) ↔
      Settled id defaultConfig .testEvidence [] [[]] "## Proof Boundary".toList) ∧
    ((∀ line ∈ ([] : List Char) :: [[]], ∀ c ∈ line, isSpace c = true) →
      ((∀ other, ShowsSection id (checkHeadings defaultConfig .testEvidence) "## Validation".toList [[]]
          "## Proof Boundary".toList other →
            (evaluateMetadataCheck id ⟨other⟩ defaultConfig .testEvidence).status ≠ .pass) ↔
        defaultConfig.mode = .off ∨
          ¬RunsOn id (checkHeadings defaultConfig .testEvidence) [[]] "## Proof Boundary".toList)) :=
  @metadata_section_isolated_iff id defaultConfig .testEvidence "## Validation".toList "## Proof Boundary".toList [[]]
    ⟨"Validation", []⟩ emptyValidation "test_evidence" [] ["".toList, "This PR proves:".toList] (by decide)
    (by decide +kernel) (fun _ h => nomatch h) (by decide +kernel) (by decide) (by decide)

/-- An empty section passes with the heading behind it for its detail, and does not without that heading. -/
theorem empty_section_passes :
    (evaluateMetadataCheck id ⟨emptyValidation⟩ defaultConfig .testEvidence).status = .pass ∧
      (evaluateMetadataCheck id ⟨some "## Validation\n"⟩ defaultConfig .testEvidence).status = .fail := by
  decide +kernel

end NeonDiff.PreMerge
