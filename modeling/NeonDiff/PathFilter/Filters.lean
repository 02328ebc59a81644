import NeonDiff.PathFilter.Exact

/-! # What the path filters keep -/

open NeonDiff.Lib NeonDiff.Review

namespace NeonDiff.PathFilter

def Globs (path pattern : String) : Prop :=
  withoutLeadingSlashes path ∈ globLanguage (patternParts (withoutLeadingSlashes pattern))

/-- The path matches the pattern in a way in which every `**/` covers a segment at least and no `**` the end of a
line; the placeholder text counts as `**`. -/
def GlobsTightly (path pattern : String) : Prop :=
  withoutLeadingSlashes path ∈ tightLanguage (parts true (marksWithPlaceholder (withoutLeadingSlashes pattern)))

def Plain (path pattern : String) : Prop :=
  if '\x00' ∈ withoutLeadingSlashes pattern then Globs path pattern ↔ GlobsTightly path pattern
  else Globs path pattern → GlobsTightly path pattern

theorem globs_of_tightly {path pattern : String} (hnul : '\x00' ∉ withoutLeadingSlashes pattern)
    (h : GlobsTightly path pattern) : Globs path pattern := by
  unfold GlobsTightly at h
  rw [marksWithPlaceholder_eq hnul] at h
  exact tightLanguage_le _ h

theorem matchesGlob_iff_globs (path pattern : String) :
    (matchesGlob path pattern = true ↔ Globs path pattern) ↔ Plain path pattern := by
  have hcode : matchesGlob path pattern = true ↔ GlobsTightly path pattern := matchesGlob_iff path pattern
  rw [hcode]
  unfold Plain
  by_cases hnul : '\x00' ∈ withoutLeadingSlashes pattern
  · rw [if_pos hnul]
    exact ⟨Iff.symm, Iff.symm⟩
  · rw [if_neg hnul]
    exact ⟨Iff.mpr, fun h => ⟨globs_of_tightly hnul, h⟩⟩

theorem chars_mem_globLanguage (cs : List Char) : cs ∈ globLanguage (cs.map Part.char) := by
  induction cs with
  | nil => exact Language.nil_mem_one
  | cons c cs ih =>
    unfold globLanguage at *
    rw [List.map_cons, List.map_cons, List.prod_cons]
    exact ⟨[c], rfl, cs, ih, rfl⟩

/-! ## Files -/

def includedBy (profile : ResolvedRepoProfile) (filename : String) : Bool :=
  (includeFilters profile).isEmpty ||
    (includeFilters profile ++ safetyIncludePatterns).any (matchesGlob filename)

def keeps (profile : ResolvedRepoProfile) (file : PullFilePatch) : Bool :=
  !(excludeFilters profile).any (matchesGlob file.filename) && includedBy profile file.filename

/-- No file with a name of slashes only comes to the filter `!` first and would be kept by the others. -/
def NoBareBang (profile : ResolvedRepoProfile) (files : List PullFilePatch) : Prop :=
  ∀ file ∈ files, withoutLeadingSlashes file.filename = [] →
    (excludeFilters profile).find? (matchesGlob file.filename) = some "" → includedBy profile file.filename = false

theorem matchesGlob_empty {path : String} (h : matchesGlob path "" = true) : withoutLeadingSlashes path = [] := by
  rw [matchesGlob_iff] at h
  exact h

theorem truthy_of_ne {patterns : List String} (h : "" ∉ patterns) (p : String → Bool) :
    truthy (patterns.find? p) = patterns.find? p := by
  unfold truthy
  cases hfind : patterns.find? p with
  | none => rfl
  | some pattern =>
    have hne : pattern ≠ "" := fun hempty => h (hempty ▸ List.mem_of_find?_eq_some hfind)
    rw [Option.filter_some_pos (by simpa using hne)]

theorem empty_notMem_includeFilters (profile : ResolvedRepoProfile) : "" ∉ includeFilters profile := by
  unfold includeFilters
  rw [List.mem_filter, List.mem_filter]
  rintro ⟨⟨-, hne⟩, -⟩
  simp at hne

theorem empty_notMem_safety : "" ∉ safetyIncludePatterns := by decide

theorem decideFileFilter_filename (filename : String) (includes excludes : List String) :
    (decideFileFilter filename includes excludes).filename = filename := by
  unfold decideFileFilter
  split
  · rfl
  · split
    · rfl
    · split
      · rfl
      · split <;> rfl

theorem decideFileFilter_included (profile : ResolvedRepoProfile) (filename : String) :
    (decideFileFilter filename (includeFilters profile) (excludeFilters profile)).included =
      ((truthy ((excludeFilters profile).find? (matchesGlob filename))).isNone && includedBy profile filename) := by
  unfold decideFileFilter includedBy
  rw [truthy_of_ne (empty_notMem_includeFilters profile), truthy_of_ne empty_notMem_safety, List.any_append,
    ← List.isSome_find?, ← List.isSome_find?]
  cases truthy ((excludeFilters profile).find? (matchesGlob filename)) with
  | some pattern => rfl
  | none =>
    dsimp only
    by_cases hnone : includeFilters profile = []
    · rw [if_pos hnone, hnone]
      rfl
    · have hempty : (includeFilters profile).isEmpty = false := by
        rw [List.isEmpty_eq_false_iff]
        exact hnone
      rw [if_neg hnone, hempty]
      cases (includeFilters profile).find? (matchesGlob filename) with
      | some pattern => rfl
      | none => cases safetyIncludePatterns.find? (matchesGlob filename) <;> rfl

theorem mem_filterPullFiles {files : List PullFilePatch} {profile : ResolvedRepoProfile} {file : PullFilePatch}
    (h : file ∈ files) :
    (file.filename ∈ (buildPullFileFilterImpact files profile).included.map PullFileFilterDecision.filename) ↔
      (decideFileFilter file.filename (includeFilters profile) (excludeFilters profile)).included = true := by
  unfold buildPullFileFilterImpact
  dsimp only
  rw [List.mem_map]
  constructor
  · rintro ⟨decision, hdecision, hname⟩
    rw [List.mem_filter, List.mem_map] at hdecision
    obtain ⟨⟨other, -, rfl⟩, hincluded⟩ := hdecision
    rw [decideFileFilter_filename] at hname
    rw [← hname]
    exact hincluded
  · intro hincluded
    refine ⟨decideFileFilter file.filename (includeFilters profile) (excludeFilters profile), ?_,
      decideFileFilter_filename _ _ _⟩
    rw [List.mem_filter]
    exact ⟨List.mem_map_of_mem h, hincluded⟩

theorem included_eq_keeps_iff (profile : ResolvedRepoProfile) (file : PullFilePatch) :
    (decideFileFilter file.filename (includeFilters profile) (excludeFilters profile)).included = keeps profile file ↔
      (withoutLeadingSlashes file.filename = [] →
        (excludeFilters profile).find? (matchesGlob file.filename) = some "" →
          includedBy profile file.filename = false) := by
  rw [decideFileFilter_included]
  unfold keeps
  rw [← List.isSome_find?]
  cases hfind : (excludeFilters profile).find? (matchesGlob file.filename) with
  | none => simp [truthy]
  | some pattern =>
    by_cases hempty : pattern = ""
    · subst hempty
      have hname := matchesGlob_empty (List.find?_some hfind)
      cases hincluded : includedBy profile file.filename <;> simp [truthy, hname]
    · simp [truthy, hempty]

theorem filterPullFilesForProfile_iff (files : List PullFilePatch) (profile : ResolvedRepoProfile) :
    filterPullFilesForProfile files profile = files.filter (keeps profile) ↔ NoBareBang profile files := by
  unfold filterPullFilesForProfile NoBareBang
  dsimp only
  constructor
  · intro h file hfile
    rw [← included_eq_keeps_iff, Bool.eq_iff_iff, ← mem_filterPullFiles hfile]
    have hmem : file ∈ files.filter (keeps profile) ↔ keeps profile file = true := by
      rw [List.mem_filter]
      exact ⟨And.right, fun hkeeps => ⟨hfile, hkeeps⟩⟩
    rw [← hmem, ← h, List.mem_filter, decide_eq_true_eq]
    exact ⟨fun hname => ⟨hfile, hname⟩, And.right⟩
  · intro h
    apply List.filter_congr
    intro file hfile
    rw [← (included_eq_keeps_iff profile file).mpr (h file hfile), Bool.eq_iff_iff, decide_eq_true_eq,
      mem_filterPullFiles hfile]

/-- Globs stand for what they say except where a match needs a `**/` of no segments or a `**` over the end of a line,
and the filters keep what they say except for files without a name. -/
theorem path_filters_exact (path pattern : String) (files : List PullFilePatch) (profile : ResolvedRepoProfile) :
    ((matchesGlob path pattern = true ↔ Globs path pattern) ↔ Plain path pattern) ∧
      (filterPullFilesForProfile files profile = files.filter (keeps profile) ↔ NoBareBang profile files) :=
  ⟨matchesGlob_iff_globs path pattern, filterPullFilesForProfile_iff files profile⟩

/-- A property list at the root is not matched by the safety pattern for property lists. -/
theorem root_file_not_matched : ¬(matchesGlob "Info.plist" "**/*.plist" = true ↔ Globs "Info.plist" "**/*.plist") := by
  have hnot : matchesGlob "Info.plist" "**/*.plist" = false := by decide +kernel
  have hmarks : patternParts (withoutLeadingSlashes "**/*.plist") =
      [.segments, .star, .char '.', .char 'p', .char 'l', .char 'i', .char 's', .char 't'] := by decide
  have hname : '/' ∉ "Info".toList := by decide
  have hglobs : Globs "Info.plist" "**/*.plist" := by
    unfold Globs
    rw [hmarks]
    exact ⟨[], Language.nil_mem_kstar _, _, ⟨"Info".toList, hname, _, chars_mem_globLanguage ".plist".toList, rfl⟩, rfl⟩
  rw [hnot]
  exact fun h => absurd (h.mpr hglobs) Bool.false_ne_true

end NeonDiff.PathFilter
