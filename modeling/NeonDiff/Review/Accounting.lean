import NeonDiff.Review.Quiet

/-! # What becomes of every finding

The gate either shows a finding or drops it once. The stages that look at one finding alone come first; what they
leave is ranked, and the rank decides the rest.
-/

namespace NeonDiff.Review

open NeonDiff.Lib

/-! ## Stages one after the other -/

section
variable {α β : Type}

theorem filterMap_or_perm (v w : α → Option β) (l : List α) :
    (l.filterMap v ++ (l.filter fun x => (v x).isNone).filterMap w).Perm (l.filterMap fun x => (v x).or (w x)) := by
  induction l with
  | nil => simp
  | cons x l ih =>
    cases hv : v x with
    | some d =>
      rw [List.filterMap_cons_some hv, List.filter_cons_of_neg (by simp [hv]),
        List.filterMap_cons_some (f := fun x => (v x).or (w x)) (b := d) (by simp [hv])]
      exact ih.cons d
    | none =>
      rw [List.filterMap_cons_none hv, List.filter_cons_of_pos (by simp [hv])]
      cases hw : w x with
      | none =>
        rw [List.filterMap_cons_none hw,
          List.filterMap_cons_none (f := fun x => (v x).or (w x)) (by simp [hv, hw])]
        exact ih
      | some d =>
        rw [List.filterMap_cons_some hw,
          List.filterMap_cons_some (f := fun x => (v x).or (w x)) (b := d) (by simp [hv, hw])]
        exact List.perm_middle.trans (ih.cons d)

theorem filter_isNone_or (v w : α → Option β) (l : List α) :
    ((l.filter fun x => (v x).isNone).filter fun x => (w x).isNone) =
      l.filter fun x => ((v x).or (w x)).isNone := by
  rw [List.filter_filter]
  apply List.filter_congr
  intro x _
  cases v x <;> simp

theorem filter_isNone_perm (v : α → Option β) (l : List α) :
    (l.filter (fun x => (v x).isNone) ++ l.filter fun x => (v x).isSome).Perm l := by
  have hnot : (fun x => (v x).isSome) = fun x => !(v x).isNone := by
    funext x
    simp
  rw [hnot]
  exact List.filter_append_perm _ l

end

variable (fns : TextFunctions)

/-! ## Coordinates -/

structure Coordinates where
  severity : Severity
  path : String
  line : Int
  deriving DecidableEq

def Finding.coordinates (finding : Finding) : Coordinates := ⟨finding.severity, finding.path, finding.line⟩

def ReviewComment.coordinates (comment : ReviewComment) : Coordinates :=
  ⟨comment.severity, comment.path, comment.line⟩

def DroppedFinding.coordinates (dropped : DroppedFinding) : Option Coordinates := do
  return ⟨← dropped.severity, ← dropped.path, ← dropped.line⟩

@[simp] theorem coordinates_reviewComment (finding : Finding) :
    (reviewComment fns finding).coordinates = finding.coordinates := rfl

@[simp] theorem coordinates_drop (finding : Finding) (reason : String) :
    (finding.drop reason).coordinates = some finding.coordinates := rfl

@[simp] theorem reason_drop (finding : Finding) (reason : String) : (finding.drop reason).reason = reason := rfl

@[simp] theorem coordinates_mapText (f : String → String) (dropped : DroppedFinding) :
    (dropped.mapText f).coordinates = dropped.coordinates := rfl

@[simp] theorem reason_mapText (f : String → String) (dropped : DroppedFinding) :
    (dropped.mapText f).reason = dropped.reason := rfl

/-! ## The stages that look at one finding -/

namespace GateInput

def firstDrop (input : GateInput) (finding : Finding) : Option DroppedFinding :=
  (((locationDrop input.files finding).or (input.memoryDrop fns finding)).or (input.threadDrop fns finding)).or
    (secretDrop fns finding)

/-- The findings that no stage drops by themselves, best first. -/
def ranked (input : GateInput) : List Finding :=
  (input.findings.filter fun finding => (input.firstDrop fns finding).isNone).insertionSort (ranksBefore fns)

/-- The ranked findings that no better one stands for. -/
def deduplicated (input : GateInput) : List Finding := suppressSameRunNearDuplicates fns (input.ranked fns)

def cap (input : GateInput) : Nat := input.maxInlineComments.getD 25

end GateInput

/-- The text that the secret stage reads. -/
def Finding.publicText (finding : Finding) : String :=
  finding.title ++ "\n" ++ finding.body ++ "\n" ++ finding.why_this_matters.getD ""

/-- Why the gate drops a finding, or nothing when it shows it. -/
inductive Fate (input : GateInput) : Finding → Option String → Prop where
  | dropped (finding : Finding) (drop : DroppedFinding) (first : input.firstDrop fns finding = some drop) :
      Fate input finding (some drop.reason)
  | duplicate (finding kept : Finding) (survives : input.firstDrop fns finding = none)
      (stands : kept ∈ input.deduplicated fns) (before : ranksBefore fns kept finding)
      (near : sameRunFindingsAreNearDuplicates fns kept finding = true) :
      Fate input finding (some "same_run_near_duplicate")
  | overCap (finding : Finding) (survives : input.firstDrop fns finding = none)
      (over_cap : finding ∈ (input.deduplicated fns).drop input.cap) : Fate input finding (some "comment_cap_exceeded")
  | shown (finding : Finding) (survives : input.firstDrop fns finding = none)
      (within : finding ∈ (input.deduplicated fns).take input.cap) : Fate input finding none

variable {fns}

theorem coordinates_locationDrop {files : List PullFilePatch} {f : Finding} {d : DroppedFinding}
    (h : locationDrop files f = some d) : d.coordinates = some f.coordinates := by
  unfold locationDrop at h
  split at h
  · cases h
    rfl
  · split at h
    · cases h
    · cases h
      rfl

theorem coordinates_repoMemoryDrop {fingerprints : List String} {entries : List RepoMemoryFalsePositiveEntry}
    {f : Finding} {d : DroppedFinding} (h : repoMemoryDrop fns fingerprints entries f = some d) :
    d.coordinates = some f.coordinates := by
  unfold repoMemoryDrop at h
  dsimp only at h
  split at h
  · split at h
    · cases h
      rfl
    · cases h
  · split at h
    · split at h
      · cases h
        rfl
      · cases h
    · cases h

theorem coordinates_priorThreadDrop {threads : List AnsweredThread} {f : Finding} {d : DroppedFinding}
    (h : priorThreadDrop fns threads f = some d) : d.coordinates = some f.coordinates := by
  obtain ⟨thread, -, rfl⟩ := Option.map_eq_some_iff.mp h
  rfl

theorem coordinates_secretDrop {f : Finding} {d : DroppedFinding} (h : secretDrop fns f = some d) :
    d.coordinates = some f.coordinates := by
  unfold secretDrop at h
  dsimp only at h
  split at h
  · cases h
    rfl
  · cases h

theorem coordinates_firstDrop {input : GateInput} {f : Finding} {d : DroppedFinding}
    (h : input.firstDrop fns f = some d) : d.coordinates = some f.coordinates := by
  unfold GateInput.firstDrop at h
  rcases Option.or_eq_some_iff.mp h with h | ⟨-, h⟩
  · rcases Option.or_eq_some_iff.mp h with h | ⟨-, h⟩
    · rcases Option.or_eq_some_iff.mp h with h | ⟨-, h⟩
      · exact coordinates_locationDrop h
      · exact coordinates_repoMemoryDrop h
    · exact coordinates_priorThreadDrop h
  · exact coordinates_secretDrop h

/-! ## The drops of the gate -/

variable (fns)

theorem nearDuplicates_eq_passedOver (kept findings : List Finding) :
    nearDuplicates fns kept findings = Ranking.passedOver (sameRunFindingsAreNearDuplicates fns) kept findings := by
  induction findings generalizing kept with
  | nil => rfl
  | cons f findings ih =>
    unfold nearDuplicates Ranking.passedOver
    rw [ih, ih]

theorem applyRepoMemoryFalsePositiveSuppressions_dropped (findings : List Finding) (fingerprints : List String)
    (entries : List RepoMemoryFalsePositiveEntry) :
    (applyRepoMemoryFalsePositiveSuppressions fns findings fingerprints entries).2 =
      findings.filterMap (repoMemoryDrop fns fingerprints entries) := by
  unfold applyRepoMemoryFalsePositiveSuppressions
  split
  · rename_i hempty
    obtain ⟨rfl, hentries⟩ := hempty
    obtain rfl := List.isEmpty_iff.mp hentries
    simp [repoMemoryDrop_nil]
  · rfl

/-- The findings before the secret stage and after it. -/
theorem rankedFindings_surviving (input : GateInput) : rankedFindings fns (input.surviving fns) = input.ranked fns := by
  unfold rankedFindings GateInput.ranked
  congr 1
  unfold keep GateInput.surviving GateInput.located keep
  rw [List.filter_filter, List.filter_filter]
  apply List.filter_congr
  intro f _
  unfold GateInput.spares GateInput.firstDrop
  cases locationDrop input.files f <;> cases input.memoryDrop fns f <;> cases input.threadDrop fns f <;> simp

theorem posted_eq_take (input : GateInput) : input.posted fns = (input.deduplicated fns).take input.cap := by
  unfold GateInput.posted shownFindings
  rw [rankedFindings_surviving]
  rfl

/-- What the gate drops of its findings, before the texts are made public. -/
def rawDrops (input : GateInput) : List DroppedFinding :=
  let remembered := keep (input.memoryDrop fns) input.located
  let dropFor := fun reason finding => sanitizeDroppedFindingPublicText fns (Finding.drop finding reason)
  input.findings.filterMap (locationDrop input.files) ++ input.located.filterMap (input.memoryDrop fns) ++
    remembered.filterMap (input.threadDrop fns) ++
    ((input.surviving fns).filterMap (secretDrop fns) ++
      (nearDuplicates fns [] (input.ranked fns)).map (dropFor "same_run_near_duplicate") ++
      ((input.deduplicated fns).drop input.cap).map (dropFor "comment_cap_exceeded"))

theorem keep_threadDrop (input : GateInput) :
    keep (input.threadDrop fns) (keep (input.memoryDrop fns) input.located) = input.surviving fns := by
  unfold keep GateInput.surviving
  rw [List.filter_filter]
  apply List.filter_congr
  intro f _
  exact Bool.and_comm _ _

theorem gate_dropped (input : GateInput) :
    (applyDeterministicReviewGate fns input).dropped =
      (input.droppedFromSchema ++ rawDrops fns input).map (sanitizeDroppedFinding fns) := by
  have hsurvive := keep_threadDrop fns input
  unfold GateInput.threadDrop GateInput.memoryDrop at hsurvive
  unfold applyDeterministicReviewGate validateFindingLocations normalizeFindingsForReview
  simp only [applyRepoMemoryFalsePositiveSuppressions_findings, applyRepoMemoryFalsePositiveSuppressions_dropped]
  rw [← GateInput.located, hsurvive, rankedFindings_surviving]
  simp only [List.append_assoc]
  unfold rawDrops
  simp only [List.append_assoc]
  rfl

theorem stages_perm (input : GateInput) :
    (input.findings.filterMap (locationDrop input.files) ++ input.located.filterMap (input.memoryDrop fns) ++
      (keep (input.memoryDrop fns) input.located).filterMap (input.threadDrop fns) ++
      (input.surviving fns).filterMap (secretDrop fns)).Perm
      (input.findings.filterMap (input.firstDrop fns)) := by
  have hlocated : input.located = input.findings.filter fun f => (locationDrop input.files f).isNone := rfl
  have hremembered : keep (input.memoryDrop fns) input.located =
      input.findings.filter fun f => ((locationDrop input.files f).or (input.memoryDrop fns f)).isNone := by
    rw [hlocated]
    exact filter_isNone_or _ _ _
  have hsurviving : input.surviving fns = input.findings.filter fun f =>
      (((locationDrop input.files f).or (input.memoryDrop fns f)).or (input.threadDrop fns f)).isNone := by
    rw [← keep_threadDrop, hremembered]
    exact filter_isNone_or _ _ _
  have hmemory := filterMap_or_perm (locationDrop input.files) (input.memoryDrop fns) input.findings
  have hthread := filterMap_or_perm (fun f => (locationDrop input.files f).or (input.memoryDrop fns f))
    (input.threadDrop fns) input.findings
  have hsecret := filterMap_or_perm (fun f => ((locationDrop input.files f).or (input.memoryDrop fns f)).or
    (input.threadDrop fns f)) (secretDrop fns) input.findings
  rw [hsurviving, hremembered, hlocated]
  exact ((((hmemory.append_right _).trans hthread).append_right _).trans hsecret)

/-! ## The ledger -/

/-- Every finding of the input with the reason it is dropped for, the shown ones last. -/
def ledger (input : GateInput) : List (Finding × Option String) :=
  (input.findings.filterMap fun f => (input.firstDrop fns f).map fun drop => (f, some drop.reason)) ++
  (Ranking.passedOver (sameRunFindingsAreNearDuplicates fns) [] (input.ranked fns)).map
    (fun f => (f, some "same_run_near_duplicate")) ++
  ((input.deduplicated fns).drop input.cap).map (fun f => (f, some "comment_cap_exceeded")) ++
  ((input.deduplicated fns).take input.cap).map fun f => (f, none)

theorem ledger_findings (input : GateInput) : ((ledger fns input).map Prod.fst).Perm input.findings := by
  have hdropped : (input.findings.filterMap fun f => (input.firstDrop fns f).map fun drop => (f, some drop.reason)).map
      Prod.fst = input.findings.filter fun f => (input.firstDrop fns f).isSome := by
    rw [List.map_filterMap, ← List.filterMap_eq_filter]
    congr 1
    funext f
    cases hdrop : input.firstDrop fns f <;> simp [Option.guard, hdrop]
  have hcap : ((input.deduplicated fns).drop input.cap ++ (input.deduplicated fns).take input.cap).Perm
      (input.deduplicated fns) := by
    have hswap : ((input.deduplicated fns).drop input.cap ++ (input.deduplicated fns).take input.cap).Perm
        ((input.deduplicated fns).take input.cap ++ (input.deduplicated fns).drop input.cap) :=
      List.perm_append_comm
    rwa [List.take_append_drop] at hswap
  have hranked := Ranking.keepFirst_perm (sameRunFindingsAreNearDuplicates fns) [] (input.ranked fns)
  have hsort : (input.ranked fns).Perm (input.findings.filter fun f => (input.firstDrop fns f).isNone) :=
    List.perm_insertionSort _ _
  unfold ledger
  simp only [List.map_append, List.map_map, hdropped]
  rw [List.append_assoc, List.append_assoc]
  have hkept := ((List.Perm.append_left (Ranking.passedOver (sameRunFindingsAreNearDuplicates fns) []
    (input.ranked fns)) hcap).trans List.perm_append_comm).trans (hranked.trans hsort)
  have hall := (List.Perm.append_left (input.findings.filter fun f => (input.firstDrop fns f).isSome) hkept).trans
    (List.perm_append_comm.trans (filter_isNone_perm (input.firstDrop fns) input.findings))
  simpa [Function.comp_def] using hall

theorem firstDrop_of_mem_ranked {input : GateInput} {f : Finding} (hf : f ∈ input.ranked fns) :
    f ∈ input.findings ∧ input.firstDrop fns f = none := by
  rw [GateInput.ranked, List.mem_insertionSort, List.mem_filter, Option.isNone_iff_eq_none] at hf
  exact hf

theorem mem_ranked_of_deduplicated {input : GateInput} {f : Finding} (hf : f ∈ input.deduplicated fns) :
    f ∈ input.ranked fns := Ranking.keepFirst_subset _ hf

theorem ranked_sorted (input : GateInput) : (input.ranked fns).Pairwise (ranksBefore fns) :=
  List.pairwise_insertionSort _ _

theorem ledger_fate {input : GateInput} {entry : Finding × Option String} (h : entry ∈ ledger fns input) :
    Fate fns input entry.1 entry.2 := by
  unfold ledger at h
  simp only [List.mem_append, List.mem_filterMap, List.mem_map, Option.map_eq_some_iff] at h
  rcases h with ((⟨f, -, drop, hdrop, rfl⟩ | ⟨f, hf, rfl⟩) | ⟨f, hf, rfl⟩) | ⟨f, hf, rfl⟩
  · exact .dropped f drop hdrop
  · have hperm := Ranking.keepFirst_perm (sameRunFindingsAreNearDuplicates fns) [] (input.ranked fns)
    have hranked : f ∈ input.ranked fns := hperm.subset (List.mem_append_right _ hf)
    obtain ⟨kept, hkept, hbefore, hnear⟩ := Ranking.exists_kept_of_passedOver [] (ranked_sorted fns input) hf
    exact .duplicate f kept (firstDrop_of_mem_ranked fns hranked).2 hkept hbefore hnear
  · have hkept := mem_ranked_of_deduplicated fns (List.mem_of_mem_drop hf)
    exact .overCap f (firstDrop_of_mem_ranked fns hkept).2 hf
  · have hkept := mem_ranked_of_deduplicated fns (List.mem_of_mem_take hf)
    exact .shown f (firstDrop_of_mem_ranked fns hkept).2 hf

theorem rawDrops_perm (input : GateInput) :
    ((rawDrops fns input).map fun drop => (drop.coordinates, drop.reason)).Perm
      ((ledger fns input).filterMap fun entry => entry.2.map fun reason => (some entry.1.coordinates, reason)) := by
  have hstages := (stages_perm fns input).map fun drop => (drop.coordinates, drop.reason)
  have hfirst : (input.findings.filterMap (input.firstDrop fns)).map (fun drop => (drop.coordinates, drop.reason)) =
      (input.findings.filterMap fun f => (input.firstDrop fns f).map fun drop => (f, some drop.reason)).filterMap
        fun entry => entry.2.map fun reason => (some entry.1.coordinates, reason) := by
    rw [List.map_filterMap, List.filterMap_filterMap]
    congr 1
    funext f
    cases hdrop : input.firstDrop fns f with
    | none => rfl
    | some drop => simp [coordinates_firstDrop hdrop]
  unfold rawDrops ledger
  rw [nearDuplicates_eq_passedOver]
  simp only [List.filterMap_append, List.map_append, List.filterMap_map, List.map_map, ← hfirst] at hstages ⊢
  have hrest := (hstages.append_right ((Ranking.passedOver (sameRunFindingsAreNearDuplicates fns) []
    (input.ranked fns)).map fun f => (some f.coordinates, "same_run_near_duplicate"))).append_right
    (((input.deduplicated fns).drop input.cap).map fun f => (some f.coordinates, "comment_cap_exceeded"))
  simpa [Function.comp_def, sanitizeDroppedFindingPublicText, List.filterMap_eq_map'] using hrest

/-! ## The account -/

/-- How a result accounts for the findings of its input: `drops` follow the entries that came dropped already. -/
structure Accounts (input : GateInput) (result : DeterministicReviewGateResult)
    (entries : List (Finding × Option String)) (drops : List DroppedFinding) : Prop where
  dropped : result.dropped = input.droppedFromSchema.map (sanitizeDroppedFinding fns) ++ drops
  /-- Every finding has one entry, with the reason of what happened to it. -/
  findings : (entries.map Prod.fst).Perm input.findings
  fates : ∀ entry ∈ entries, Fate fns input entry.1 entry.2
  /-- The drops are the entries with a reason, and the comments those without. -/
  reasons : (drops.map fun drop => (drop.coordinates, drop.reason)).Perm
    (entries.filterMap fun entry => entry.2.map fun reason => (some entry.1.coordinates, reason))
  comments : (result.comments.map ReviewComment.coordinates).Perm
    ((entries.filter fun entry => entry.2.isNone).map fun entry => entry.1.coordinates)
  conserved : ((result.comments.map fun comment => some comment.coordinates) ++
    drops.map DroppedFinding.coordinates).Perm (input.findings.map fun finding => some finding.coordinates)
  /-- The comments are the best of the deduplicated survivors. -/
  best : result.comments = ((input.deduplicated fns).take input.cap).map (reviewComment fns)
  ordered : (input.deduplicated fns).Pairwise (ranksBefore fns)
  capped : result.comments.length ≤ input.cap
  /-- A comment stands on the right side of the diff, for a finding without a secret. -/
  placed : ∀ comment ∈ result.comments, ∃ finding ∈ input.findings, comment = reviewComment fns finding ∧
    (∃ lines, collectRightSideLines input.files comment.path = some lines ∧ comment.line ∈ lines) ∧
    fns.containsSecretLikeText finding.publicText = false

theorem locationDrop_eq_none {files : List PullFilePatch} {f : Finding} (h : locationDrop files f = none) :
    ∃ lines, collectRightSideLines files f.path = some lines ∧ f.line ∈ lines := by
  unfold locationDrop at h
  split at h
  · cases h
  · rename_i lines hlines
    split at h
    · rename_i hline
      exact ⟨lines, hlines, hline⟩
    · cases h

theorem secretDrop_eq_none {f : Finding} (h : secretDrop fns f = none) :
    fns.containsSecretLikeText f.publicText = false := by
  unfold secretDrop at h
  dsimp only at h
  split at h
  · cases h
  · rename_i hsafe
    exact Bool.eq_false_iff.mpr hsafe

theorem conserved_of_entries {findings : List Finding} {entries : List (Finding × Option String)}
    (h : (entries.map Prod.fst).Perm findings) :
    ((((entries.filter fun entry => entry.2.isNone).map fun entry => some entry.1.coordinates)) ++
      (entries.filterMap fun entry => entry.2.map fun _ => some entry.1.coordinates)).Perm
      (findings.map fun finding => some finding.coordinates) := by
  have hsplit := (filter_isNone_perm (fun entry : Finding × Option String => entry.2) entries).map
    fun entry => some entry.1.coordinates
  have hdropped : (entries.filterMap fun entry => entry.2.map fun _ => some entry.1.coordinates) =
      (entries.filter fun entry => entry.2.isSome).map fun entry => some entry.1.coordinates := by
    rw [← List.filterMap_eq_map', ← List.filterMap_eq_filter, List.filterMap_filterMap]
    congr 1
    funext entry
    cases hreason : entry.2 <;> simp [Option.guard, hreason]
  have hall := h.map fun finding => some finding.coordinates
  rw [List.map_map] at hall
  rw [hdropped, ← List.map_append]
  exact hsplit.trans hall

theorem ledger_shown (input : GateInput) : ((ledger fns input).filter fun entry => entry.2.isNone) =
    ((input.deduplicated fns).take input.cap).map fun f => (f, none) := by
  have hreason : ∀ (findings : List Finding) (reason : String),
      (findings.map fun f => (f, some reason)).filter (fun entry => entry.2.isNone) = [] := by
    intro findings reason
    apply List.filter_eq_nil_iff.mpr
    intro entry hentry
    obtain ⟨f, -, rfl⟩ := List.mem_map.mp hentry
    simp
  have hfirst : (input.findings.filterMap fun f =>
      (input.firstDrop fns f).map fun drop => (f, some drop.reason)).filter (fun entry => entry.2.isNone) = [] := by
    apply List.filter_eq_nil_iff.mpr
    intro entry hentry
    obtain ⟨f, -, hf⟩ := List.mem_filterMap.mp hentry
    obtain ⟨drop, -, rfl⟩ := Option.map_eq_some_iff.mp hf
    simp
  have hnone : ∀ findings : List Finding, (findings.map fun f => ((f, none) : Finding × Option String)).filter
      (fun entry => entry.2.isNone) = findings.map fun f => (f, none) := by
    intro findings
    apply List.filter_eq_self.mpr
    intro entry hentry
    obtain ⟨f, -, rfl⟩ := List.mem_map.mp hentry
    rfl
  unfold ledger
  rw [List.filter_append, List.filter_append, List.filter_append, hfirst, hreason, hreason, hnone]
  rfl

theorem gate_accounts_for_every_finding (input : GateInput) :
    ∃ entries drops, Accounts fns input (applyDeterministicReviewGate fns input) entries drops := by
  have hcomments : (applyDeterministicReviewGate fns input).comments =
      ((input.deduplicated fns).take input.cap).map (reviewComment fns) := by
    rw [gate_comments, posted_eq_take]
  have hreasons : (((rawDrops fns input).map (sanitizeDroppedFinding fns)).map
      fun drop => (drop.coordinates, drop.reason)).Perm ((ledger fns input).filterMap
        fun entry => entry.2.map fun reason => (some entry.1.coordinates, reason)) := by
    rw [List.map_map]
    exact rawDrops_perm fns input
  have hshown := ledger_shown fns input
  refine ⟨ledger fns input, (rawDrops fns input).map (sanitizeDroppedFinding fns), ?_⟩
  constructor
  case dropped => rw [gate_dropped, List.map_append]
  case findings => exact ledger_findings fns input
  case fates => exact fun entry hentry => ledger_fate fns hentry
  case reasons => exact hreasons
  case comments =>
    rw [hcomments, hshown, List.map_map, List.map_map]
    exact List.Perm.refl _
  case conserved =>
    have hall := conserved_of_entries (ledger_findings fns input)
    have hdrops := hreasons.map Prod.fst
    rw [List.map_map, List.map_filterMap] at hdrops
    simp only [Option.map_map, Function.comp_def] at hdrops
    rw [hcomments, List.map_map]
    rw [hshown, List.map_map] at hall
    exact (List.Perm.append_left _ hdrops).trans hall
  case best => exact hcomments
  case ordered => exact (ranked_sorted fns input).sublist (Ranking.keepFirst_sublist _ [] _)
  case capped =>
    rw [hcomments, List.length_map]
    exact List.length_take_le _ _
  case placed =>
    intro comment hcomment
    rw [hcomments] at hcomment
    obtain ⟨f, hf, rfl⟩ := List.mem_map.mp hcomment
    obtain ⟨hmem, hfirst⟩ := firstDrop_of_mem_ranked fns (mem_ranked_of_deduplicated fns (List.mem_of_mem_take hf))
    unfold GateInput.firstDrop at hfirst
    obtain ⟨hlearned, hsecret⟩ := Option.or_eq_none_iff.mp hfirst
    obtain ⟨hremembered, -⟩ := Option.or_eq_none_iff.mp hlearned
    obtain ⟨hlocation, -⟩ := Option.or_eq_none_iff.mp hremembered
    exact ⟨f, hmem, rfl, locationDrop_eq_none hlocation, secretDrop_eq_none fns hsecret⟩

end NeonDiff.Review
