import NeonDiff.ContextBudget.Model
import NeonDiff.Lib.Pieces

/-! # The chunks of a prompt that is over its budget

The loop packs the files greedily. It refuses a file that is over the budget alone, and stops at the count of chunks;
where a part of a list makes no longer a prompt, it refuses nothing that some cut could have kept.
-/

namespace NeonDiff.ContextBudget

open NeonDiff.Lib NeonDiff.Lib.JsText

variable {File : Type} {fl : ℚ → ℚ} {filename : File → String} {buildPrompt : List File → String}
  {config : ContextBudgetConfig} {budgetTokens : Int}

def fits (fl : ℚ → ℚ) (buildPrompt : List File → String) (config : ContextBudgetConfig) (budgetTokens : Int)
    (files : List File) : Bool := promptTokens fl buildPrompt config files ≤ budgetTokens

/-- The chunks of the pieces, numbered from behind `count` chunks. -/
def numbered (fl : ℚ → ℚ) (filename : File → String) (buildPrompt : List File → String) (config : ContextBudgetConfig)
    (count : Nat) : List (List File) → List (ContextBudgetChunk File)
  | [] => []
  | piece :: pieces =>
    toChunk fl filename buildPrompt config (count + 1) piece ::
      numbered fl filename buildPrompt config (count + 1) pieces

theorem numbered_files (count : Nat) (pieces : List (List File)) :
    (numbered fl filename buildPrompt config count pieces).map (·.files) = pieces := by
  induction pieces generalizing count with
  | nil => rfl
  | cons piece pieces ih =>
    rw [numbered, List.map_cons, ih]
    rfl

theorem estimatedTokens_of_mem_numbered (count : Nat) (pieces : List (List File)) :
    ∀ chunk ∈ numbered fl filename buildPrompt config count pieces,
      chunk.estimatedTokens = promptTokens fl buildPrompt config chunk.files := by
  induction pieces generalizing count with
  | nil => exact nofun
  | cons piece pieces ih =>
    intro chunk hchunk
    rcases List.mem_cons.mp hchunk with rfl | hchunk
    · rfl
    · exact ih (count + 1) chunk hchunk

/-! ## The loop -/

section
variable (chunks : List (ContextBudgetChunk File)) (current : List File) (file : File) (rest : List File)

theorem chunkLoop_single (h : fits fl buildPrompt config budgetTokens [file] = false) :
    chunkLoop fl filename buildPrompt config budgetTokens chunks current (file :: rest) =
      .error .contextBudgetSingleFileOverflow := by
  have hover := of_decide_eq_false h
  unfold chunkLoop
  dsimp only
  rw [if_pos (not_le.mp hover)]

theorem chunkLoop_cut (h : fits fl buildPrompt config budgetTokens [file] = true) (hcurrent : current ≠ [])
    (hcut : fits fl buildPrompt config budgetTokens (current ++ [file]) = false) :
    chunkLoop fl filename buildPrompt config budgetTokens chunks current (file :: rest) =
      if config.maxChunks ≤ (chunks.length + 1 : Nat) then .error .contextBudgetChunkCountExceeded
      else chunkLoop fl filename buildPrompt config budgetTokens
        (chunks ++ [toChunk fl filename buildPrompt config (chunks.length + 1) current]) [file] rest := by
  have hpos : 0 < current.length := List.length_pos_iff.mpr hcurrent
  have hover := not_le.mp (of_decide_eq_false hcut)
  rw [chunkLoop.eq_def]
  dsimp only
  rw [if_neg (not_lt.mpr (of_decide_eq_true h)), if_neg hpos.ne', if_pos ⟨hpos, hover⟩, List.length_append]
  rfl

theorem chunkLoop_go (h : fits fl buildPrompt config budgetTokens [file] = true)
    (hgo : current ≠ [] → fits fl buildPrompt config budgetTokens (current ++ [file]) = true) :
    chunkLoop fl filename buildPrompt config budgetTokens chunks current (file :: rest) =
      chunkLoop fl filename buildPrompt config budgetTokens chunks (current ++ [file]) rest := by
  rw [chunkLoop.eq_def]
  dsimp only
  rw [if_neg (not_lt.mpr (of_decide_eq_true h)), if_neg]
  rintro ⟨hpos, hover⟩
  rw [if_neg hpos.ne'] at hover
  have hfits := of_decide_eq_true (hgo (List.length_pos_iff.mp hpos))
  omega

end

theorem chunkLoop_ok {chunks result : List (ContextBudgetChunk File)} {current files : List File}
    (h : chunkLoop fl filename buildPrompt config budgetTokens chunks current files = .ok result) :
    (∀ file ∈ files, fits fl buildPrompt config budgetTokens [file] = true) ∧
      result = chunks ++ numbered fl filename buildPrompt config chunks.length
        (Pieces.packed (fits fl buildPrompt config budgetTokens) current files) ∧
      (result.length : Int) ≤ config.maxChunks := by
  induction files generalizing chunks current with
  | nil =>
    unfold chunkLoop at h
    dsimp only at h
    split_ifs at h with hpos hcount hcount
    · obtain rfl := Except.ok.inj h
      unfold Pieces.packed
      rw [if_neg (List.length_pos_iff.mp hpos)]
      exact ⟨fun file hfile => absurd hfile List.not_mem_nil, rfl, not_lt.mp hcount⟩
    · obtain rfl := Except.ok.inj h
      unfold Pieces.packed
      rw [if_pos (List.length_eq_zero_iff.mp (Nat.eq_zero_of_not_pos hpos))]
      exact ⟨fun file hfile => absurd hfile List.not_mem_nil, (List.append_nil _).symm, not_lt.mp hcount⟩
  | cons file rest ih =>
    by_cases halone : fits fl buildPrompt config budgetTokens [file] = true
    swap
    · rw [chunkLoop_single _ _ _ _ (Bool.eq_false_of_not_eq_true halone)] at h
      cases h
    have hcons : ∀ {p : File → Prop}, p file → (∀ f ∈ rest, p f) → ∀ f ∈ file :: rest, p f := by
      intro p hfile hrest f hf
      rcases List.mem_cons.mp hf with rfl | hf
      · exact hfile
      · exact hrest f hf
    unfold Pieces.packed
    by_cases hcut : (current ≠ [] && !fits fl buildPrompt config budgetTokens (current ++ [file])) = true
    · rw [if_pos hcut]
      rw [Bool.and_eq_true, decide_eq_true_eq, Bool.not_eq_true'] at hcut
      rw [chunkLoop_cut _ _ _ _ halone hcut.1 hcut.2] at h
      split_ifs at h
      obtain ⟨hrest, hresult, hlimit⟩ := ih h
      refine ⟨hcons halone hrest, ?_, hlimit⟩
      rw [hresult, numbered, List.length_append, List.append_assoc]
      rfl
    · rw [if_neg hcut]
      rw [chunkLoop_go _ _ _ _ halone ?_] at h
      · obtain ⟨hrest, hresult, hlimit⟩ := ih h
        exact ⟨hcons halone hrest, hresult, hlimit⟩
      · intro hcurrent
        simpa [hcurrent] using hcut

theorem chunkLoop_of_packed {chunks : List (ContextBudgetChunk File)} {current files : List File}
    (halone : ∀ file ∈ files, fits fl buildPrompt config budgetTokens [file] = true)
    (hcount : ((chunks.length + (Pieces.packed (fits fl buildPrompt config budgetTokens) current files).length : Nat) : Int) ≤
      config.maxChunks) :
    ∃ result, chunkLoop fl filename buildPrompt config budgetTokens chunks current files = .ok result := by
  induction files generalizing chunks current with
  | nil =>
    unfold Pieces.packed at hcount
    unfold chunkLoop
    dsimp only
    by_cases hnil : current = []
    · rw [if_pos hnil, List.length_nil, Nat.add_zero] at hcount
      rw [hnil, List.length_nil, if_neg (lt_irrefl 0), if_neg (not_lt.mpr hcount)]
      exact ⟨_, rfl⟩
    · rw [if_neg hnil] at hcount
      rw [if_pos (List.length_pos_iff.mpr hnil), if_neg]
      · exact ⟨_, rfl⟩
      · rw [List.length_append]
        exact not_lt.mpr hcount
  | cons file rest ih =>
    have hfile := halone file List.mem_cons_self
    have hrest := fun f hf => halone f (List.mem_cons_of_mem file hf)
    unfold Pieces.packed at hcount
    by_cases hcut : (current ≠ [] && !fits fl buildPrompt config budgetTokens (current ++ [file])) = true
    · rw [if_pos hcut, List.length_cons] at hcount
      rw [Bool.and_eq_true, decide_eq_true_eq, Bool.not_eq_true'] at hcut
      -- the file at hand makes one more chunk at least
      have hmore : 0 < (Pieces.packed (fits fl buildPrompt config budgetTokens) [file] rest).length := by
        have hflatten := @Pieces.packed_flatten _ (fits fl buildPrompt config budgetTokens) [file] rest
        by_contra hzero
        rw [List.length_eq_zero_iff.mp (Nat.eq_zero_of_not_pos hzero)] at hflatten
        cases hflatten
      rw [chunkLoop_cut _ _ _ _ hfile hcut.1 hcut.2, if_neg (by omega)]
      apply ih hrest
      rw [List.length_append, List.length_singleton]
      omega
    · rw [if_neg hcut] at hcount
      rw [chunkLoop_go _ _ _ _ hfile ?_]
      · exact ih hrest hcount
      · intro hcurrent
        simpa [hcurrent] using hcut

/-! ## Plans -/

theorem estimateContextTokens_mono (hfl : Monotone fl) {a b : String} (h : length a.toList ≤ length b.toList) :
    estimateContextTokens fl a config ≤ estimateContextTokens fl b config := by
  have hchars : (0 : ℚ) < max 1 config.charsPerToken := lt_max_of_lt_left one_pos
  have hfudge : (0 : ℚ) ≤ max (1 / 100) config.providerFudgeFactor := le_max_of_le_left (by norm_num)
  have hlength : (length a.toList : ℚ) ≤ length b.toList := Nat.cast_le.mpr h
  unfold estimateContextTokens
  dsimp only
  apply Int.ceil_le_ceil
  apply hfl
  apply mul_le_mul_of_nonneg_right _ hfudge
  apply hfl
  exact div_le_div_of_nonneg_right hlength hchars.le

def PromptMonotone (buildPrompt : List File → String) : Prop :=
  ∀ part whole, part <:+: whole → length (buildPrompt part).toList ≤ length (buildPrompt whole).toList

theorem fits_infixClosed (hfl : Monotone fl) (hprompt : PromptMonotone buildPrompt) :
    Pieces.InfixClosed (fits fl buildPrompt config budgetTokens) := by
  intro part whole hinfix hwhole
  have hmono := @estimateContextTokens_mono fl config hfl _ _ (hprompt part whole hinfix)
  apply decide_eq_true
  exact hmono.trans (of_decide_eq_true hwhole)

structure Fitting (fl : ℚ → ℚ) (buildPrompt : List File → String) (config : ContextBudgetConfig) (budgetTokens : Int)
    (files : List File) (pieces : List (List File)) : Prop where
  whole : pieces.flatten = files
  within : ∀ piece ∈ pieces, promptTokens fl buildPrompt config piece ≤ budgetTokens
  count : (pieces.length : Int) ≤ config.maxChunks

theorem buildFileBoundaryChunks_ok {files : List File} {chunks : List (ContextBudgetChunk File)}
    (h : buildFileBoundaryChunks fl filename buildPrompt config budgetTokens files = .ok chunks) :
    Fitting fl buildPrompt config budgetTokens files (chunks.map (·.files)) ∧ chunks ≠ [] ∧
      (∀ chunk ∈ chunks, chunk.files ≠ [] ∧
        chunk.estimatedTokens = promptTokens fl buildPrompt config chunk.files) := by
  unfold buildFileBoundaryChunks at h
  split_ifs at h with hempty
  obtain ⟨halone, hresult, hlimit⟩ := chunkLoop_ok h
  rw [List.nil_append, List.length_nil] at hresult
  have hfiles : chunks.map (·.files) = Pieces.packed (fits fl buildPrompt config budgetTokens) [] files := by
    rw [hresult, numbered_files]
  have hflatten := @Pieces.packed_flatten _ (fits fl buildPrompt config budgetTokens) [] files
  rw [List.nil_append] at hflatten
  refine ⟨⟨by rw [hfiles, hflatten], ?_, by rw [List.length_map]; exact hlimit⟩, ?_, ?_⟩
  · intro piece hpiece
    rw [hfiles] at hpiece
    exact of_decide_eq_true (Pieces.fits_of_mem_packed [] files (fun h => absurd rfl h) halone piece hpiece)
  · rintro rfl
    rw [← hfiles] at hflatten
    exact hempty (congrArg List.length hflatten.symm)
  · intro chunk hchunk
    have hpiece : chunk.files ∈ chunks.map (·.files) := List.mem_map_of_mem hchunk
    rw [hfiles] at hpiece
    refine ⟨Pieces.ne_nil_of_mem_packed [] files _ hpiece, ?_⟩
    rw [hresult] at hchunk
    exact estimatedTokens_of_mem_numbered 0 _ chunk hchunk

theorem buildFileBoundaryChunks_of_fitting (hfl : Monotone fl) (hprompt : PromptMonotone buildPrompt)
    {files : List File} (hfiles : files ≠ []) {pieces : List (List File)}
    (hpieces : Fitting fl buildPrompt config budgetTokens files pieces) :
    ∃ chunks, buildFileBoundaryChunks fl filename buildPrompt config budgetTokens files = .ok chunks := by
  have hclosed := @fits_infixClosed _ fl buildPrompt config budgetTokens hfl hprompt
  have hwithin : ∀ piece ∈ pieces, fits fl buildPrompt config budgetTokens piece = true :=
    fun piece hpiece => decide_eq_true (hpieces.within piece hpiece)
  unfold buildFileBoundaryChunks
  rw [if_neg (fun hzero => hfiles (List.length_eq_zero_iff.mp hzero))]
  apply chunkLoop_of_packed
  · intro file hfile
    rw [← hpieces.whole] at hfile
    obtain ⟨piece, hpiece, hmem⟩ := List.mem_flatten.mp hfile
    obtain ⟨before, after, rfl⟩ := List.append_of_mem hmem
    refine hclosed [file] _ ⟨before, after, ?_⟩ (hwithin _ hpiece)
    simp
  · have hle := @Pieces.length_packed_le _ _ hclosed files [] _ (by rw [List.nil_append]; exact hpieces.whole) hwithin
    have hcount := hpieces.count
    rw [List.length_nil, Nat.zero_add]
    omega

/-- A plan of chunks cuts the files as they come into non-empty chunks within the budget, one at least and the limit at
most. A prompt over a non-empty list that is to be chunked is chunked wherever a part of the list makes no longer a
prompt and some cut of the list fits; over no files nothing is. -/
theorem chunks_fit (fl : ℚ → ℚ) (filename : File → String) (input : PlanInput File) :
    (∀ base contextWindowTokens budgetTokens chunks,
      planContextBudget fl filename input = .chunk base contextWindowTokens budgetTokens chunks →
      (chunks.map (·.files)).flatten = input.files ∧ (∀ chunk ∈ chunks, chunk.files ≠ []) ∧ 1 ≤ chunks.length ∧
      (chunks.length : Int) ≤ (normalizeContextBudgetConfig input.config).maxChunks ∧
      ∀ chunk ∈ chunks, chunk.estimatedTokens ≤ budgetTokens ∧
        chunk.estimatedTokens =
          promptTokens fl input.buildPrompt (normalizeContextBudgetConfig input.config) chunk.files) ∧
    (∀ contextWindowTokens budgetTokens pieces, Monotone fl → PromptMonotone input.buildPrompt →
      (normalizeContextBudgetConfig input.config).enabled = true →
      (normalizeContextBudgetConfig input.config).overflow = .chunk →
      input.contextWindowTokens = some contextWindowTokens → contextWindowTokens ≠ 0 →
      budgetTokens = contextWindowTokens - (normalizeContextBudgetConfig input.config).reservedOutputTokens →
      0 < budgetTokens →
      budgetTokens < estimateContextTokens fl input.prompt (normalizeContextBudgetConfig input.config) →
      input.files ≠ [] →
      Fitting fl input.buildPrompt (normalizeContextBudgetConfig input.config) budgetTokens input.files pieces →
      ∃ base chunks, planContextBudget fl filename input = .chunk base contextWindowTokens budgetTokens chunks) ∧
    (input.files = [] → ∀ base contextWindowTokens budgetTokens chunks,
      planContextBudget fl filename input ≠ .chunk base contextWindowTokens budgetTokens chunks) := by
  have hplan : ∀ base contextWindowTokens budgetTokens chunks,
      planContextBudget fl filename input = .chunk base contextWindowTokens budgetTokens chunks →
      buildFileBoundaryChunks fl filename input.buildPrompt (normalizeContextBudgetConfig input.config) budgetTokens
        input.files = .ok chunks := by
    intro base contextWindowTokens budgetTokens chunks h
    unfold planContextBudget at h
    dsimp only at h
    split at h
    · cases h
    split at h
    · cases h
    split at h
    · cases h
    split at h
    · cases h
    split at h
    · cases h
    split at h
    · cases h
    rename_i hbuild
    cases h
    exact hbuild
  refine ⟨?_, ?_, ?_⟩
  · intro base contextWindowTokens budgetTokens chunks h
    obtain ⟨hfitting, hne, hchunks⟩ := buildFileBoundaryChunks_ok (hplan _ _ _ _ h)
    have hcount := hfitting.count
    rw [List.length_map] at hcount
    refine ⟨hfitting.whole, fun chunk hchunk => (hchunks chunk hchunk).1, List.length_pos_iff.mpr hne, hcount, ?_⟩
    intro chunk hchunk
    have hwithin := hfitting.within chunk.files (List.mem_map_of_mem hchunk)
    rw [(hchunks chunk hchunk).2]
    exact ⟨hwithin, rfl⟩
  · intro contextWindowTokens budgetTokens pieces hfl hprompt henabled hoverflow hwindow hzero hbudget hpos hover hfiles
      hpieces
    obtain ⟨chunks, hchunks⟩ :=
      @buildFileBoundaryChunks_of_fitting _ fl filename _ _ budgetTokens hfl hprompt _ hfiles pieces hpieces
    subst hbudget
    have hkeep : (some contextWindowTokens).filter (· ≠ 0) = some contextWindowTokens := by
      simp [hzero]
    unfold planContextBudget
    dsimp only
    rw [henabled, hwindow, hkeep, hoverflow]
    dsimp only
    rw [if_neg (by decide), if_neg (by omega), if_neg (by omega), if_neg (by decide), hchunks]
    exact ⟨_, _, rfl⟩
  · intro hfiles base contextWindowTokens budgetTokens chunks h
    have hbuild := hplan _ _ _ _ h
    unfold buildFileBoundaryChunks at hbuild
    rw [hfiles, List.length_nil, if_pos rfl] at hbuild
    cases hbuild

def twoFiles : PlanInput (List Char) where
  prompt := "aaaabbbb"
  files := ["aaaa".toList, "bbbb".toList]
  contextWindowTokens := some 2
  config := some { overflow := some .chunk, reservedOutputTokens := some 1, providerFudgeFactor := some 1, maxChunks := some 2 }
  buildPrompt := fun files => String.ofList files.flatten

theorem promptMonotone_flatten : PromptMonotone fun files : List (List Char) => String.ofList files.flatten := by
  intro part whole hinfix
  rw [String.toList_ofList, String.toList_ofList]
  obtain ⟨before, after, hwhole⟩ := hinfix.flatten
  unfold length
  rw [← hwhole, List.map_append, List.map_append, List.sum_append, List.sum_append]
  omega

theorem chunks_fit_two : ∃ base chunks, planContextBudget id String.ofList twoFiles = .chunk base 2 1 chunks := by
  obtain ⟨-, hfit, -⟩ := chunks_fit id String.ofList twoFiles
  refine hfit 2 1 [["aaaa".toList], ["bbbb".toList]] monotone_id promptMonotone_flatten rfl rfl rfl (by decide) rfl
    (by decide) (by decide +kernel) (by decide) ⟨rfl, ?_, by decide⟩
  decide +kernel

/-- No file, a prompt over its budget, and the cut of no files into no pieces, which fits. -/
theorem no_files_not_chunked :
    PromptMonotone twoFiles.buildPrompt ∧
    Fitting id twoFiles.buildPrompt { overflow := .chunk, reservedOutputTokens := 1 } 1 ([] : List (List Char)) [] ∧
    planContextBudget id String.ofList
      { twoFiles with files := [], config := some { overflow := some .chunk, reservedOutputTokens := some 1 } } =
        .skip ⟨3, 1, .chunk⟩ 2 1 .contextBudgetOverflow := by
  refine ⟨promptMonotone_flatten, ⟨rfl, ?_, by decide⟩, by decide +kernel⟩
  intro piece hpiece
  cases hpiece

end NeonDiff.ContextBudget
