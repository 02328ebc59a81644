import NeonDiff.PreMerge.Details

/-! # Where a metadata section ends -/

open NeonDiff.Lib NeonDiff.Lib.JsText NeonDiff.Lib.Words

namespace NeonDiff.PreMerge

variable {toUpperCase : Char → Char} {config : PreMergeMetadataCheckConfig} {spec : MetadataCheck}

/-! ## Headings that a line is too long for -/

/-- What the pattern of a heading takes beside the heading, up to a colon. -/
def isHeadingMark (c : Char) : Bool := isSpace c || c = '#' || c = '-' || c = '*'

theorem matchMetadataHeading_of_long {headings : List String} {line : List Char} (hline : ∀ c ∈ line, c = 'x')
    (hlong : ∀ heading ∈ headings, (trim heading.toList).length < line.length) :
    matchMetadataHeading toUpperCase line headings = none := by
  unfold matchMetadataHeading
  rw [List.findSome?_eq_none_iff]
  intro heading hheading
  rw [Option.map_eq_none_iff, ← Option.not_isSome_iff_eq_none, Regex.isSome_exec]
  unfold headingPattern
  rw [Regex.seq, Regex.test_of_atStart]
  rintro ⟨j, hj⟩
  -- nothing in front of the heading or behind it takes an `x`
  have hstay : ∀ {r : Regex Char} {k l : Regex.Place Char}, Regex.Within isHeadingMark r → (∀ c ∈ k.after, c = 'x') →
      l ∈ Regex.results r k → l.after = k.after := by
    intro r k l hr hk hl
    exact Regex.after_eq_of_within hr (fun c hc => by rw [hk c hc]; decide) hl
  have hspaces : Regex.Within isHeadingMark spaces := by
    intro c hc
    simp [isHeadingMark, hc]
  have hhashes : Regex.Within isHeadingMark (.opt (.cat (.cat (.lit '#') (.upTo (.lit '#') 5)) spaces)) := by
    simp [Regex.opt, Regex.upTo, Regex.lit, Regex.Within, isHeadingMark, hspaces]
  have hbullet : Regex.Within isHeadingMark (.opt (.cat (.set fun c => c = '-' || c = '*') spaces)) := by
    simp [Regex.opt, Regex.Within, hspaces, isHeadingMark]
  have hstars : Regex.Within isHeadingMark (.opt (.lits "**".toList)) := by
    simp [Regex.opt, Regex.lits, Regex.seq, Regex.lit, Regex.Within, isHeadingMark]
  simp only [Regex.seq, Regex.mem_results_cat] at hj
  obtain ⟨k₁, hk₁, k₂, hk₂, k₃, hk₃, k₄, hk₄, k₅, hk₅, k₆, hk₆, k₇, hk₇, k₈, hk₈, -⟩ := hj
  have h₁ := hstay hspaces hline hk₁
  have h₂ := hstay hhashes (h₁ ▸ hline) hk₂
  rw [h₁] at h₂
  have h₃ := hstay hbullet (h₂ ▸ hline) hk₃
  rw [h₂] at h₃
  have h₄ := hstay hstars (h₃ ▸ hline) hk₄
  rw [h₃] at h₄
  obtain ⟨taken, rest, hafter, htaken, rfl⟩ := Regex.mem_results_textIgnoringCase.mp hk₅
  rw [h₄] at hafter
  have hlength : taken.length = (trim heading.toList).length := by
    have hmap := congrArg List.length htaken
    rwa [List.length_map, List.length_map] at hmap
  have hrest : ∀ c ∈ rest, c = 'x' := fun c hc => hline c (by
    have hmem : c ∈ taken ++ rest := List.mem_append_right _ hc
    rwa [← hafter] at hmem)
  have h₆ : k₆.after = rest := hstay hstars hrest hk₆
  have h₇ : k₇.after = rest := by
    rcases Regex.mem_results_alt.mp hk₇ with hcolon | hend
    · obtain ⟨l, hl, hcolon⟩ := Regex.mem_results_cat.mp hcolon
      have hl := hstay hspaces (h₆ ▸ hrest) hl
      obtain ⟨m, hm, -⟩ := Regex.mem_results_cat.mp hcolon
      obtain ⟨cs, hcs, -⟩ := Regex.mem_results_lit.mp hm
      rw [hl, h₆] at hcs
      exact absurd (hrest ':' (by rw [hcs]; exact List.mem_cons_self)) (by decide)
    · rw [hstay hspaces (h₆ ▸ hrest) hend, h₆]
  have hnil := (Regex.mem_results_atEnd.mp hk₈).1
  rw [h₇] at hnil
  have htotal := congrArg List.length hafter
  rw [hnil, List.append_nil, hlength] at htotal
  exact absurd (hlong heading hheading) (by
    have hstart : (Regex.Place.start line).after = line := rfl
    rw [hstart] at htotal
    omega)

/-! ## Sections -/

/-- A heading of Markdown: up to three blanks, one to six `#`, and a blank, a tab or the end of the line. -/
def isMarkdownHeading (line : List Char) : Bool :=
  let text := line.dropWhile (· = ' ')
  let hashes := text.takeWhile (· = '#')
  let behind := (text.dropWhile (· = '#')).head?
  (line.takeWhile (· = ' ')).length ≤ 3 && 1 ≤ hashes.length && hashes.length ≤ 6 &&
    (behind = none || behind = some ' ' || behind = some '\t')

theorem words_of_isMarkdownHeading {line : List Char} (h : isMarkdownHeading line = true) :
    ∃ word ws, words line = ('#' :: word) :: ws := by
  unfold isMarkdownHeading at h
  dsimp only at h
  rw [Bool.and_eq_true, Bool.and_eq_true, Bool.and_eq_true] at h
  have hhashes := h.1.1.2
  rw [decide_eq_true_eq] at hhashes
  have hblanks : ∀ c ∈ line.takeWhile (· = ' '), (!isSpace c) = false := by
    intro c hc
    have hblank := List.mem_takeWhile_imp hc
    rw [decide_eq_true_eq] at hblank
    rw [hblank]
    decide
  have hsplit := runs_append_of_neg hblanks (line.dropWhile (· = ' '))
  rw [List.takeWhile_append_dropWhile] at hsplit
  have hwords : words line = words (line.dropWhile (· = ' ')) := hsplit
  rw [hwords]
  cases htext : line.dropWhile (· = ' ') with
  | nil =>
    rw [htext] at hhashes
    simp at hhashes
  | cons c text =>
    by_cases hc : c = '#'
    · rw [hc]
      exact words_cons (by decide) text
    · rw [htext, List.takeWhile_cons_of_neg (by simpa using hc)] at hhashes
      simp at hhashes

/-- The body shows a section: `heading` is its first line that matches, `lines` are all lines up to the next heading
of Markdown, and that heading, if there is one, is `next`. -/
structure ShowsSection (toUpperCase : Char → Char) (headings : List String) (heading : List Char)
    (lines : List (List Char)) (next : List Char) (body : Option String) : Prop where
  within : ∀ line ∈ lines, isMarkdownHeading line = false
  ends : isMarkdownHeading next = true
  reads : ∃ before rest, splitLines (body.getD "").toList = before ++ heading :: (lines ++ rest) ∧
    (∀ line ∈ before, matchMetadataHeading toUpperCase line headings = none) ∧ (rest = [] ∨ rest.head? = some next)

theorem findSectionIn_append {headings : List String} {before : List (List Char)}
    (h : ∀ line ∈ before, matchMetadataHeading toUpperCase line headings = none) (lines : List (List Char)) :
    findSectionIn toUpperCase headings (before ++ lines) = findSectionIn toUpperCase headings lines := by
  induction before with
  | nil => rfl
  | cons line before ih =>
    rw [List.cons_append, findSectionIn, h line List.mem_cons_self]
    exact ih fun l hl => h l (List.mem_cons_of_mem line hl)

def taken (toUpperCase : Char → Char) (headings : List String) (lines : List (List Char)) : List (List Char) :=
  lines.takeWhile fun line => !endsSection toUpperCase headings line

/-- No line of the section, nor the heading behind it, is one of the metadata headings. -/
def RunsOn (toUpperCase : Char → Char) (headings : List String) (lines : List (List Char)) (next : List Char) : Prop :=
  ∀ line ∈ lines ++ [next], endsSection toUpperCase headings line = false

theorem taken_append_of_runsOn {headings : List String} {lines rest : List (List Char)} {next : List Char}
    (h : RunsOn toUpperCase headings lines next) :
    taken toUpperCase headings (lines ++ rest) = lines ++ taken toUpperCase headings rest := by
  unfold taken
  apply List.takeWhile_append_of_pos
  intro line hline
  rw [h line (List.mem_append_left _ hline)]
  rfl

/-- A metadata heading in or right behind the section ends what the code takes, whatever follows. -/
theorem taken_append_of_ends {headings : List String} {lines rest : List (List Char)} {next : List Char}
    (h : ¬RunsOn toUpperCase headings lines next) (hrest : rest = [] ∨ rest.head? = some next) :
    taken toUpperCase headings (lines ++ rest) = taken toUpperCase headings lines := by
  unfold taken
  rw [List.takeWhile_append]
  split
  · rename_i hall
    have hlines : lines.takeWhile (fun line => !endsSection toUpperCase headings line) = lines :=
      List.Sublist.eq_of_length (List.takeWhile_sublist _) hall
    have hruns : ∀ line ∈ lines, endsSection toUpperCase headings line = false := by
      intro line hline
      rw [← hlines] at hline
      simpa using List.mem_takeWhile_imp hline
    have hnext : endsSection toUpperCase headings next = true := by
      by_contra hfalse
      apply h
      intro line hline
      rcases List.mem_append.mp hline with hline | hline
      · exact hruns line hline
      · rw [List.mem_singleton.mp hline]
        exact Bool.eq_false_iff.mpr hfalse
    have hnone : rest.takeWhile (fun line => !endsSection toUpperCase headings line) = [] := by
      rcases hrest with rfl | hhead
      · rfl
      · cases rest with
        | nil => rfl
        | cons line rest =>
          obtain rfl := Option.some.inj hhead
          rw [List.takeWhile_cons_of_neg]
          simp [hnext]
    rw [hnone, List.append_nil, hlines]
  · rfl

theorem evaluateMetadataCheck_eq {body : Option String} {before lines : List (List Char)} {heading : List Char}
    {found : HeadingMatch} (hmode : config.mode ≠ .off)
    (hheading : matchMetadataHeading toUpperCase heading (checkHeadings config spec) = some found)
    (hbody : splitLines (body.getD "").toList = before ++ heading :: lines)
    (hbefore : ∀ line ∈ before, matchMetadataHeading toUpperCase line (checkHeadings config spec) = none) :
    evaluateMetadataCheck toUpperCase ⟨body⟩ config spec = checkSection toUpperCase config spec
      (some ⟨found.heading,
        detailOf (found.inlineDetail :: taken toUpperCase (checkHeadings config spec) lines)⟩) := by
  unfold evaluateMetadataCheck findMetadataSection
  rw [if_neg hmode]
  dsimp only
  rw [hbody, findSectionIn_append hbefore, findSectionIn, hheading]
  rfl

/-! ## Outcomes -/

variable {heading : String} {detail other : List Char}

def isLong (config : PreMergeMetadataCheckConfig) (detail : List Char) : Bool :=
  minDetailLength config ≤ length (normalizeText detail)

theorem checkSection_status :
    (checkSection toUpperCase config spec (some ⟨heading, detail⟩)).status = .pass ↔
      if isNotApplicableSection toUpperCase detail = true then config.allowNotApplicable.getD true = true
      else isLong config detail = true := by
  unfold checkSection checkFromOutcome isLong
  dsimp only [Option.map_some, Option.getD_some, Option.isSome_some]
  by_cases hna : isNotApplicableSection toUpperCase detail = true
  · rw [if_pos hna]
    cases config.allowNotApplicable.getD true <;> simp [hna]
    split <;> simp
  · rw [if_neg hna]
    by_cases hlong : minDetailLength config ≤ length (normalizeText detail)
    · simp [hna, hlong]
    · simp [hna, hlong]
      split <;> simp

theorem checkSection_congr (hna : isNotApplicableSection toUpperCase detail = isNotApplicableSection toUpperCase other)
    (hlong : isNotApplicableSection toUpperCase detail = false → isLong config detail = isLong config other) :
    checkSection toUpperCase config spec (some ⟨heading, detail⟩) =
      checkSection toUpperCase config spec (some ⟨heading, other⟩) := by
  unfold isLong at hlong
  unfold checkSection
  dsimp only [Option.map_some, Option.getD_some, Option.isSome_some]
  rw [← hna]
  cases h : isNotApplicableSection toUpperCase detail with
  | true => simp
  | false => rw [hlong h]

end NeonDiff.PreMerge
