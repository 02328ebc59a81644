import NeonDiff.Eval.Model
import NeonDiff.Review.Quiet

/-! # Every finding and label is counted once -/

namespace NeonDiff.Eval

open NeonDiff.Lib NeonDiff.Review

section
variable (fns : TextFunctions) (botFindings labels : List NormalizedEvalFinding)

/-! ## The candidates in their order -/

instance : Std.TransCmp (compareCandidates fns) :=
  have := fns.collates
  have _ : Std.TransCmp fun a b : Candidate => compare b.finding.confidence a.finding.confidence :=
    Ranking.transCmp_comap (fun x y : ℚ => compare y x) fun c : Candidate => c.finding.confidence
  have _ : Std.TransCmp fun a b : Candidate => fns.localeCompare a.label.id b.label.id :=
    Ranking.transCmp_comap fns.localeCompare fun c : Candidate => c.label.id
  inferInstanceAs (Std.TransCmp (compareLex _ _))

def ranked : List Candidate := (candidates fns botFindings labels).insertionSort (Ranking.before (compareCandidates fns))

def Compatible (finding label : NormalizedEvalFinding) (kind : MatchKind) : Prop :=
  finding.path = label.path ∧ classifyMatch fns finding label = some kind

theorem mem_candidates {candidate : Candidate} :
    candidate ∈ candidates fns botFindings labels ↔
      candidate.finding ∈ botFindings ∧ candidate.label ∈ labels ∧
        Compatible fns candidate.finding candidate.label candidate.kind := by
  obtain ⟨finding, label, kind⟩ := candidate
  unfold candidates Compatible
  simp only [List.mem_flatMap, List.mem_filterMap, List.mem_filter, Option.map_eq_some_iff, decide_eq_true_iff,
    Candidate.mk.injEq]
  constructor
  · rintro ⟨l, hl, f, ⟨hf, hpath⟩, k, hkind, rfl, rfl, rfl⟩
    exact ⟨hf, hl, hpath, hkind⟩
  · rintro ⟨hf, hl, hpath, hkind⟩
    exact ⟨label, hl, finding, ⟨hf, hpath⟩, kind, hkind, rfl, rfl, rfl⟩

theorem mem_ranked {candidate : Candidate} :
    candidate ∈ ranked fns botFindings labels ↔ candidate ∈ candidates fns botFindings labels :=
  List.mem_insertionSort _

/-! ## The matches are the greedy choice -/

def chosen : List Candidate :=
  Matching.choose (fun c => c.finding.id) (fun c => c.label.id) [] [] (ranked fns botFindings labels)

theorem pick_eq (picked : Picked) (l : List Candidate) :
    let taken := Matching.choose (fun c => c.finding.id) (fun c => c.label.id) picked.usedBotIds picked.usedLabelIds l
    pick picked l =
      { usedBotIds := picked.usedBotIds ++ taken.map fun c => c.finding.id
        usedLabelIds := picked.usedLabelIds ++ taken.map fun c => c.label.id
        matched := picked.matched ++ taken.map Candidate.toMatch } := by
  induction l generalizing picked with
  | nil => simp [pick, Matching.choose]
  | cons candidate rest ih =>
    unfold pick Matching.choose
    split
    · exact ih picked
    · dsimp only at ih ⊢
      rw [ih]
      simp

theorem matchFindings_eq :
    matchFindings fns botFindings labels = (chosen fns botFindings labels).map Candidate.toMatch := by
  have hpick := pick_eq ⟨[], [], []⟩ (ranked fns botFindings labels)
  simp only [List.nil_append] at hpick
  have hdef : matchFindings fns botFindings labels =
      (pick ⟨[], [], []⟩ (ranked fns botFindings labels)).matched.filter fun m =>
        m.labelId ∈ (pick ⟨[], [], []⟩ (ranked fns botFindings labels)).usedLabelIds := rfl
  rw [hdef, hpick]
  apply List.filter_eq_self.mpr
  intro m hm
  obtain ⟨c, hc, rfl⟩ := List.mem_map.mp hm
  exact decide_eq_true (List.mem_map_of_mem hc)

theorem botFindingIds_eq :
    (matchFindings fns botFindings labels).map EvalMatch.botFindingId =
      (chosen fns botFindings labels).map fun c => c.finding.id := by
  rw [matchFindings_eq, List.map_map]
  rfl

theorem labelIds_eq :
    (matchFindings fns botFindings labels).map EvalMatch.labelId =
      (chosen fns botFindings labels).map fun c => c.label.id := by
  rw [matchFindings_eq, List.map_map]
  rfl

theorem mem_chosen {candidate : Candidate} (h : candidate ∈ chosen fns botFindings labels) :
    candidate.finding ∈ botFindings ∧ candidate.label ∈ labels ∧
      Compatible fns candidate.finding candidate.label candidate.kind := by
  apply (mem_candidates fns botFindings labels).mp
  apply (mem_ranked fns botFindings labels).mp
  exact Matching.choose_sublist.subset h

end

/-! ## What a matching is -/

section
variable (fns : TextFunctions) (botFindings labels : List NormalizedEvalFinding) (matched : List EvalMatch)

structure OneToOne : Prop where
  botIds : (matched.map EvalMatch.botFindingId).Nodup
  labelIds : (matched.map EvalMatch.labelId).Nodup
  compatible : ∀ m ∈ matched, ∃ finding ∈ botFindings, ∃ label ∈ labels,
    finding.id = m.botFindingId ∧ label.id = m.labelId ∧ Compatible fns finding label m.kind

def Free (finding label : NormalizedEvalFinding) : Prop :=
  finding.id ∉ matched.map EvalMatch.botFindingId ∧ label.id ∉ matched.map EvalMatch.labelId

def Maximal : Prop :=
  ∀ finding ∈ botFindings, ∀ label ∈ labels, ∀ kind, Compatible fns finding label kind → ¬Free matched finding label

/-- The pair of each match ranks before every compatible pair that the earlier matches leave free. -/
def BestFirst : Prop :=
  ∀ earlier m later, matched = earlier ++ m :: later →
    ∀ finding ∈ botFindings, ∀ label ∈ labels, finding.id = m.botFindingId → label.id = m.labelId →
      ∀ candidate : Candidate, candidate.finding ∈ botFindings → candidate.label ∈ labels →
        Compatible fns candidate.finding candidate.label candidate.kind →
        Free earlier candidate.finding candidate.label →
          Ranking.before (compareCandidates fns) ⟨finding, label, m.kind⟩ candidate

end

section
variable (fns : TextFunctions) {botFindings labels : List NormalizedEvalFinding}

theorem matchFindings_oneToOne : OneToOne fns botFindings labels (matchFindings fns botFindings labels) where
  botIds := by
    rw [botFindingIds_eq]
    exact Matching.nodup_lefts _ _ _
  labelIds := by
    rw [labelIds_eq]
    exact Matching.nodup_rights _ _ _
  compatible := by
    intro m hm
    rw [matchFindings_eq] at hm
    obtain ⟨c, hc, rfl⟩ := List.mem_map.mp hm
    obtain ⟨hfinding, hlabel, hcompatible⟩ := mem_chosen fns botFindings labels hc
    exact ⟨c.finding, hfinding, c.label, hlabel, rfl, rfl, hcompatible⟩

theorem matchFindings_maximal : Maximal fns botFindings labels (matchFindings fns botFindings labels) := by
  intro finding hfinding label hlabel kind hcompatible hfree
  unfold Free at hfree
  rw [botFindingIds_eq, labelIds_eq] at hfree
  have hmem : (⟨finding, label, kind⟩ : Candidate) ∈ ranked fns botFindings labels :=
    (mem_ranked fns botFindings labels).mpr ((mem_candidates fns botFindings labels).mpr ⟨hfinding, hlabel, hcompatible⟩)
  have hused := @Matching.used_of_mem _ _ _ _ _ (fun c : Candidate => c.finding.id) (fun c => c.label.id) [] [] _ _ hmem
  exact hused.elim hfree.1 hfree.2

theorem before_refl (candidate : Candidate) : Ranking.before (compareCandidates fns) candidate candidate :=
  (Std.Total.total candidate candidate).elim id id

theorem eq_of_id {items : List NormalizedEvalFinding} (hids : (items.map NormalizedEvalFinding.id).Nodup)
    {a b : NormalizedEvalFinding} (ha : a ∈ items) (hb : b ∈ items) (h : a.id = b.id) : a = b :=
  List.inj_on_of_nodup_map hids ha hb h

theorem matchFindings_bestFirst (hbots : (botFindings.map NormalizedEvalFinding.id).Nodup)
    (hlabels : (labels.map NormalizedEvalFinding.id).Nodup) :
    BestFirst fns botFindings labels (matchFindings fns botFindings labels) := by
  intro earlier m later hsplit finding hfinding label hlabel hbotId hlabelId candidate hcf hcl hcompatible hfree
  rw [matchFindings_eq] at hsplit
  obtain ⟨before, rest, hchosen, rfl, hrest⟩ := List.map_eq_append_iff.mp hsplit
  obtain ⟨taken, after, rfl, rfl, -⟩ := List.map_eq_cons_iff.mp hrest
  have htaken : taken ∈ chosen fns botFindings labels := by
    rw [hchosen]
    exact List.mem_append_right _ List.mem_cons_self
  obtain ⟨htf, htl, -⟩ := mem_chosen fns botFindings labels htaken
  have hf : finding = taken.finding := eq_of_id hbots hfinding htf hbotId
  have hl : label = taken.label := eq_of_id hlabels hlabel htl hlabelId
  have hmem : candidate ∈ ranked fns botFindings labels :=
    (mem_ranked fns botFindings labels).mpr ((mem_candidates fns botFindings labels).mpr ⟨hcf, hcl, hcompatible⟩)
  unfold Free at hfree
  rw [List.map_map, List.map_map] at hfree
  have hfirst := Matching.choose_first (before_refl fns) (List.pairwise_insertionSort _ _) hchosen hmem hfree.1 hfree.2
  rw [hf, hl]
  exact hfirst

end

/-! ## The rows and the counts -/

section
variable (fns : TextFunctions) {botFindings labels : List NormalizedEvalFinding}

theorem byId_of_mem {items : List NormalizedEvalFinding} (hids : (items.map NormalizedEvalFinding.id).Nodup)
    {item : NormalizedEvalFinding} (h : item ∈ items) : byId items item.id = some item := by
  unfold byId
  cases hfound : items.reverse.find? fun other => other.id = item.id with
  | none =>
    have hnone := List.find?_eq_none.mp hfound item (List.mem_reverse.mpr h)
    simp at hnone
  | some other =>
    have hmem := List.mem_reverse.mp (List.mem_of_find?_eq_some hfound)
    have hid : other.id = item.id := by simpa using List.find?_some hfound
    rw [eq_of_id hids hmem h hid]

theorem comparisonRows_eq (hbots : (botFindings.map NormalizedEvalFinding.id).Nodup)
    (hlabels : (labels.map NormalizedEvalFinding.id).Nodup) :
    (matchFindings fns botFindings labels).filterMap (matchRow botFindings labels) =
      (chosen fns botFindings labels).map fun c => .true_positive c.kind c.finding c.label := by
  rw [matchFindings_eq, List.filterMap_map, ← List.filterMap_eq_map]
  apply List.filterMap_congr
  intro c hc
  obtain ⟨hfinding, hlabel, -⟩ := mem_chosen fns botFindings labels hc
  change matchRow botFindings labels c.toMatch = _
  unfold matchRow Candidate.toMatch
  dsimp only
  rw [byId_of_mem hbots hfinding, byId_of_mem hlabels hlabel]
  rfl

theorem matchedBotIds_eq :
    matchedBotIds (matchFindings fns botFindings labels) =
      ((chosen fns botFindings labels).map Candidate.finding).map NormalizedEvalFinding.id := by
  unfold matchedBotIds
  rw [(matchFindings_oneToOne fns).botIds.dedup, botFindingIds_eq, List.map_map]
  rfl

theorem matchedLabelIds_eq :
    matchedLabelIds (matchFindings fns botFindings labels) =
      ((chosen fns botFindings labels).map Candidate.label).map NormalizedEvalFinding.id := by
  unfold matchedLabelIds
  rw [(matchFindings_oneToOne fns).labelIds.dedup, labelIds_eq, List.map_map]
  rfl

theorem matched_append_rest_bots (hbots : (botFindings.map NormalizedEvalFinding.id).Nodup) :
    ((chosen fns botFindings labels).map Candidate.finding ++
      botFindings.filter fun f => f.id ∉ matchedBotIds (matchFindings fns botFindings labels)).Perm botFindings := by
  rw [matchedBotIds_eq]
  apply Matching.append_rest_perm NormalizedEvalFinding.id hbots
  · rw [← matchedBotIds_eq]
    exact List.nodup_dedup _
  · intro f hf
    obtain ⟨c, hc, rfl⟩ := List.mem_map.mp hf
    exact (mem_chosen fns botFindings labels hc).1

theorem matched_append_rest_labels (hlabels : (labels.map NormalizedEvalFinding.id).Nodup) :
    ((chosen fns botFindings labels).map Candidate.label ++
      labels.filter fun l => l.id ∉ matchedLabelIds (matchFindings fns botFindings labels)).Perm labels := by
  rw [matchedLabelIds_eq]
  apply Matching.append_rest_perm NormalizedEvalFinding.id hlabels
  · rw [← matchedLabelIds_eq]
    exact List.nodup_dedup _
  · intro l hl
    obtain ⟨c, hc, rfl⟩ := List.mem_map.mp hl
    exact (mem_chosen fns botFindings labels hc).2.1

theorem comparisonRows_cover (hbots : (botFindings.map NormalizedEvalFinding.id).Nodup)
    (hlabels : (labels.map NormalizedEvalFinding.id).Nodup) :
    let rows := comparisonRows botFindings labels (matchFindings fns botFindings labels)
    (rows.filterMap ComparisonRow.bot?).Perm botFindings ∧ (rows.filterMap ComparisonRow.label?).Perm labels := by
  intro rows
  have hrows : rows = (chosen fns botFindings labels).map (fun c => .true_positive c.kind c.finding c.label) ++
      (botFindings.filter fun f => f.id ∉ matchedBotIds (matchFindings fns botFindings labels)).map .false_positive ++
      (labels.filter fun l => l.id ∉ matchedLabelIds (matchFindings fns botFindings labels)).map .false_negative := by
    rw [← comparisonRows_eq fns hbots hlabels]
    rfl
  rw [hrows]
  simp only [List.filterMap_append, List.filterMap_map]
  constructor
  · have hmatched : (chosen fns botFindings labels).filterMap
        (ComparisonRow.bot? ∘ fun c => .true_positive c.kind c.finding c.label) =
        (chosen fns botFindings labels).map Candidate.finding := by
      rw [← List.filterMap_eq_map]
      rfl
    have hbot : ComparisonRow.bot? ∘ ComparisonRow.false_positive = some := rfl
    have hlabel : ComparisonRow.bot? ∘ ComparisonRow.false_negative = fun _ => none := rfl
    rw [hmatched, hbot, hlabel, List.filterMap_some, List.filterMap_none, List.append_nil]
    exact matched_append_rest_bots fns hbots
  · have hmatched : (chosen fns botFindings labels).filterMap
        (ComparisonRow.label? ∘ fun c => .true_positive c.kind c.finding c.label) =
        (chosen fns botFindings labels).map Candidate.label := by
      rw [← List.filterMap_eq_map]
      rfl
    have hbot : ComparisonRow.label? ∘ ComparisonRow.false_positive = fun _ => none := rfl
    have hlabel : ComparisonRow.label? ∘ ComparisonRow.false_negative = some := rfl
    rw [hmatched, hbot, hlabel, List.filterMap_some, List.filterMap_none, List.append_nil]
    exact matched_append_rest_labels fns hlabels

end

/-! ## The scorecard -/

structure Conserved (input : ScorecardInput) (counts : EvalCounts) : Prop where
  bots : counts.truePositive + counts.falsePositive = input.botFindings.length
  labels : counts.truePositive + counts.falseNegative = input.labels.length
  matched : counts.truePositive = input.matched.length
  unmatchedBots : counts.falsePositive =
    (input.botFindings.filter fun f => f.id ∉ input.matched.map EvalMatch.botFindingId).length
  unmatchedLabels : counts.falseNegative =
    (input.labels.filter fun l => l.id ∉ input.matched.map EvalMatch.labelId).length
  kinds : counts.truePositive = counts.exactLineMatches + counts.nearbyLineMatches + counts.semanticMatches

theorem length_kinds (matched : List EvalMatch) :
    matched.length = (matched.filter fun m => m.kind = .exact_line).length +
      (matched.filter fun m => m.kind = .nearby_line).length + (matched.filter fun m => m.kind = .semantic).length := by
  induction matched with
  | nil => rfl
  | cons m rest ih =>
    obtain ⟨bot, label, kind⟩ := m
    cases kind <;> simp [ih] <;> omega

theorem buildScorecard_conserved (fns : TextFunctions) (input : ScorecardInput)
    (hmatched : input.matched = matchFindings fns input.botFindings input.labels)
    (hbots : (input.botFindings.map NormalizedEvalFinding.id).Nodup)
    (hlabels : (input.labels.map NormalizedEvalFinding.id).Nodup) : Conserved input (buildScorecard input).counts := by
  have hbotIds : (matchedBotIds input.matched).length = input.matched.length := by
    rw [hmatched, matchedBotIds, (matchFindings_oneToOne fns).botIds.dedup, List.length_map]
  have hlabelIds : (matchedLabelIds input.matched).length = input.matched.length := by
    rw [hmatched, matchedLabelIds, (matchFindings_oneToOne fns).labelIds.dedup, List.length_map]
  have hchosen : (chosen fns input.botFindings input.labels).length = input.matched.length := by
    rw [hmatched, matchFindings_eq, List.length_map]
  have hrestBots := (@matched_append_rest_bots fns _ input.labels hbots).length_eq
  have hrestLabels := (@matched_append_rest_labels fns input.botFindings _ hlabels).length_eq
  rw [← hmatched, List.length_append, List.length_map, hchosen] at hrestBots hrestLabels
  simp only [matchedBotIds, List.mem_dedup] at hrestBots
  simp only [matchedLabelIds, List.mem_dedup] at hrestLabels
  have hkinds := length_kinds input.matched
  unfold buildScorecard
  constructor
  · dsimp only
    omega
  · dsimp only
    omega
  · dsimp only
    omega
  · dsimp only
    omega
  · dsimp only
    omega
  · dsimp only
    omega

/-- The matching is one-to-one, maximal and takes the best pair first, and what is counted and listed of it leaves no
finding and no label out. -/
theorem evaluation_accounts (fns : TextFunctions) (input : ScorecardInput)
    (hmatched : input.matched = matchFindings fns input.botFindings input.labels)
    (hbots : (input.botFindings.map NormalizedEvalFinding.id).Nodup)
    (hlabels : (input.labels.map NormalizedEvalFinding.id).Nodup) :
    OneToOne fns input.botFindings input.labels input.matched ∧
      Maximal fns input.botFindings input.labels input.matched ∧
      BestFirst fns input.botFindings input.labels input.matched ∧
      Conserved input (buildScorecard input).counts ∧
      ((comparisonRows input.botFindings input.labels input.matched).filterMap ComparisonRow.bot?).Perm
        input.botFindings ∧
      ((comparisonRows input.botFindings input.labels input.matched).filterMap ComparisonRow.label?).Perm
        input.labels := by
  have hconserved := buildScorecard_conserved fns input hmatched hbots hlabels
  have hcover := comparisonRows_cover fns hbots hlabels
  rw [hmatched]
  refine ⟨matchFindings_oneToOne fns, matchFindings_maximal fns, matchFindings_bestFirst fns hbots hlabels, hconserved, ?_⟩
  exact hcover

def queueFinding (id : String) (source : FindingSource) (line : Int) : NormalizedEvalFinding where
  id := id
  source := source
  severity := .P1
  path := "src/queue.ts"
  line := line
  title := "Dropped job"
  body := "A failed job leaves the queue."
  confidence := 9 / 10

/-- Two findings compete for the first of two labels, and no finding is near the second. -/
def queueRun : ScorecardInput where
  suite := .canary_shadow
  negativeControl := none
  botFindings := [queueFinding "bot-1" .bot 8, queueFinding "bot-2" .bot 7]
  labels := [queueFinding "label-1" (.label .human) 7, { queueFinding "label-2" (.label .human) 90 with severity := .P2 }]
  matched := matchFindings plainTexts [queueFinding "bot-1" .bot 8, queueFinding "bot-2" .bot 7]
    [queueFinding "label-1" (.label .human) 7, { queueFinding "label-2" (.label .human) 90 with severity := .P2 }]
  duplicateCount := 0
  secretCount := 0
  droppedFromSchema := 0
  inlinePreviewCount := 0
  ciMetadataCount := 0
  mergedFixCount := 0
  thresholds := ⟨4 / 5, 3 / 5, 1, 0, 0⟩

theorem evaluation_accounts_queue :
    queueRun.matched = [⟨"bot-2", "label-1", .exact_line⟩] ∧
      Conserved queueRun (buildScorecard queueRun).counts ∧ BestFirst plainTexts queueRun.botFindings queueRun.labels queueRun.matched :=
  have h := evaluation_accounts plainTexts queueRun rfl (by decide) (by decide)
  ⟨by decide +kernel, h.2.2.2.1, h.2.2.1⟩

end NeonDiff.Eval
