import Mathlib.Data.List.Sort
import NeonDiff.Review.Ensemble
import NeonDiff.Review.Fingerprint
import NeonDiff.Review.Representatives

/-! # Who reported what

The leaves of valid receipts are all different, so their order is fixed, and only the completed ones reach the gate. A
comment is led back to its finding by the fingerprint and to the leaves by near duplication; the second step loses the
findings whose titles have no word.
-/

namespace NeonDiff.Review

open NeonDiff.Lib

variable {fns : TextFunctions} {host : EnsembleHost}

/-! ## Valid receipts -/

/-- What the reducer checks of its input. -/
structure ReviewEnsembleInput.Valid (host : EnsembleHost) (input : ReviewEnsembleInput) : Prop where
  generated : (host.dateParse input.generatedAt).isSome = true
  distinct : (input.receipts.map ReviewEnsembleLeafReceipt.leafId).Nodup
  subjects : ∀ receipt ∈ input.receipts, receipt.subject = input.subject

theorem foldlM_checkReceipt {subject : ReviewEnsembleSubject} {receipts : List ReviewEnsembleLeafReceipt}
    (hsubjects : ∀ receipt ∈ receipts, receipt.subject = subject) {seen : List ReviewEnsembleLeafId}
    (hdistinct : (seen ++ receipts.map ReviewEnsembleLeafReceipt.leafId).Nodup) :
    receipts.foldlM (checkReceipt subject) seen = .ok (seen ++ receipts.map ReviewEnsembleLeafReceipt.leafId) := by
  induction receipts generalizing seen with
  | nil => rw [List.foldlM_nil, List.map_nil, List.append_nil]; rfl
  | cons receipt receipts ih =>
    rw [List.map_cons] at hdistinct
    have hfresh : receipt.leafId ∉ seen := by
      intro hmem
      exact List.disjoint_of_nodup_append hdistinct hmem List.mem_cons_self
    have hstep : checkReceipt subject seen receipt = .ok (seen ++ [receipt.leafId]) := by
      unfold checkReceipt
      have hsubject := hsubjects receipt List.mem_cons_self
      simp [hfresh, hsubject, require]
      rfl
    rw [List.foldlM_cons, hstep, ok_bind, ih (fun r hr => hsubjects r (List.mem_cons_of_mem _ hr)) (by simpa using hdistinct)]
    simp

def ReviewEnsembleInput.ordered (input : ReviewEnsembleInput) : List ReviewEnsembleLeafReceipt :=
  input.receipts.insertionSort leafBefore

theorem reduce_of_valid {input : ReviewEnsembleInput} (h : input.Valid host) :
    reduceReviewEnsemble fns host input =
      .ok { payloadOf fns input input.ordered with sha256 := host.checksum (payloadOf fns input input.ordered) } := by
  have hcheck := @foldlM_checkReceipt _ _ h.subjects [] h.distinct
  unfold reduceReviewEnsemble normalizeReceipts
  rw [h.generated, hcheck]
  rfl

/-! ## The order of the receipts -/

theorem order_injective : Function.Injective ReviewEnsembleLeafId.order := by
  intro a b h
  cases a <;> cases b <;> first | rfl | cases h

instance : IsTrans ReviewEnsembleLeafReceipt leafBefore := ⟨fun _ _ _ hab hbc => Nat.le_trans hab hbc⟩

instance : Std.Total leafBefore := ⟨fun a b => Nat.le_total a.leafId.order b.leafId.order⟩

theorem ordered_of_perm {receipts receipts' : List ReviewEnsembleLeafReceipt} (h : receipts'.Perm receipts)
    (hdistinct : (receipts.map ReviewEnsembleLeafReceipt.leafId).Nodup) :
    receipts'.insertionSort leafBefore = receipts.insertionSort leafBefore := by
  have hperm : (receipts'.insertionSort leafBefore).Perm (receipts.insertionSort leafBefore) :=
    ((List.perm_insertionSort _ _).trans h).trans (List.perm_insertionSort _ _).symm
  refine hperm.eq_of_pairwise ?_ (List.pairwise_insertionSort _ _) (List.pairwise_insertionSort _ _)
  intro a b ha hb hab hba
  have hleaf : a.leafId = b.leafId := order_injective (Nat.le_antisymm hab hba)
  have ha' : a ∈ receipts := h.subset ((List.perm_insertionSort _ _).subset ha)
  exact List.inj_on_of_nodup_map hdistinct ha' ((List.perm_insertionSort _ _).subset hb) hleaf

theorem Valid.of_perm {input : ReviewEnsembleInput} (h : input.Valid host)
    {receipts : List ReviewEnsembleLeafReceipt} (hperm : receipts.Perm input.receipts) :
    { input with receipts }.Valid host where
  generated := h.generated
  distinct := (hperm.map _).nodup_iff.mpr h.distinct
  subjects := fun receipt hmem => h.subjects receipt (hperm.subset hmem)

theorem reduce_of_perm {input : ReviewEnsembleInput} (h : input.Valid host)
    {receipts : List ReviewEnsembleLeafReceipt} (hperm : receipts.Perm input.receipts) :
    reduceReviewEnsemble fns host { input with receipts } = reduceReviewEnsemble fns host input := by
  have hordered : { input with receipts }.ordered = input.ordered := ordered_of_perm hperm h.distinct
  rw [reduce_of_valid (Valid.of_perm h hperm), reduce_of_valid h, hordered]
  rfl

/-! ## Failed leaves -/

def ReviewEnsembleLeafReceipt.blank (receipt : ReviewEnsembleLeafReceipt) : ReviewEnsembleLeafReceipt :=
  if receipt.status = .failed then { receipt with findings := [], dropped := [] } else receipt

theorem blank_completed {receipt : ReviewEnsembleLeafReceipt} (h : receipt.status = .completed) :
    receipt.blank = receipt := by
  unfold ReviewEnsembleLeafReceipt.blank
  rw [h]
  rfl

@[simp] theorem blank_leafId (receipt : ReviewEnsembleLeafReceipt) : receipt.blank.leafId = receipt.leafId := by
  unfold ReviewEnsembleLeafReceipt.blank
  split <;> rfl

@[simp] theorem blank_status (receipt : ReviewEnsembleLeafReceipt) : receipt.blank.status = receipt.status := by
  unfold ReviewEnsembleLeafReceipt.blank
  split <;> rfl

@[simp] theorem blank_subject (receipt : ReviewEnsembleLeafReceipt) : receipt.blank.subject = receipt.subject := by
  unfold ReviewEnsembleLeafReceipt.blank
  split <;> rfl

@[simp] theorem toManifestLeaf_blank (receipt : ReviewEnsembleLeafReceipt) :
    toManifestLeaf fns receipt.blank = toManifestLeaf fns receipt := by
  unfold ReviewEnsembleLeafReceipt.blank
  split <;> rfl

theorem completedReceipts_blank (receipts : List ReviewEnsembleLeafReceipt) :
    completedReceipts (receipts.map ReviewEnsembleLeafReceipt.blank) = completedReceipts receipts := by
  unfold completedReceipts
  rw [List.filter_map]
  have hstatus : (fun receipt : ReviewEnsembleLeafReceipt => decide (receipt.status = .completed)) ∘
      ReviewEnsembleLeafReceipt.blank = fun receipt => decide (receipt.status = .completed) := by
    funext receipt
    simp
  rw [hstatus]
  conv => rhs; rw [← List.map_id (List.filter _ receipts)]
  apply List.map_congr_left
  intro receipt hmem
  exact blank_completed (by simpa using (List.mem_filter.mp hmem).2)

theorem isComplete_blank (receipts : List ReviewEnsembleLeafReceipt) :
    isComplete (receipts.map ReviewEnsembleLeafReceipt.blank) = isComplete receipts := by
  unfold isComplete
  congr 1
  funext expected
  have hleaf : (fun candidate : ReviewEnsembleLeafReceipt => decide (candidate.leafId = expected.id)) ∘
      ReviewEnsembleLeafReceipt.blank = fun candidate => decide (candidate.leafId = expected.id) := by
    funext receipt
    simp
  rw [List.find?_map, hleaf, Option.any_map]
  congr 2
  funext receipt
  simp

theorem ordered_blank (receipts : List ReviewEnsembleLeafReceipt) :
    (receipts.map ReviewEnsembleLeafReceipt.blank).insertionSort leafBefore =
      (receipts.insertionSort leafBefore).map ReviewEnsembleLeafReceipt.blank := by
  rw [List.map_insertionSort leafBefore leafBefore]
  intro a _ b _
  unfold leafBefore
  rw [blank_leafId, blank_leafId]

theorem payloadOf_blank (input : ReviewEnsembleInput) (receipts : List ReviewEnsembleLeafReceipt) :
    payloadOf fns input (receipts.map ReviewEnsembleLeafReceipt.blank) = payloadOf fns input receipts := by
  unfold payloadOf gateInput
  rw [completedReceipts_blank, isComplete_blank, List.map_map]
  have hleaves : toManifestLeaf fns ∘ ReviewEnsembleLeafReceipt.blank = toManifestLeaf fns := by
    funext receipt
    exact toManifestLeaf_blank receipt
  rw [hleaves]

theorem Valid.blank {input : ReviewEnsembleInput} (h : input.Valid host) :
    { input with receipts := input.receipts.map ReviewEnsembleLeafReceipt.blank }.Valid host where
  generated := h.generated
  distinct := by
    have hleaves : ReviewEnsembleLeafReceipt.leafId ∘ ReviewEnsembleLeafReceipt.blank =
        ReviewEnsembleLeafReceipt.leafId := funext blank_leafId
    rw [List.map_map, hleaves]
    exact h.distinct
  subjects := by
    intro receipt hmem
    obtain ⟨r, hr, rfl⟩ := List.mem_map.mp hmem
    exact (blank_subject r).trans (h.subjects r hr)

theorem reduce_blank {input : ReviewEnsembleInput} (h : input.Valid host) :
    reduceReviewEnsemble fns host { input with receipts := input.receipts.map ReviewEnsembleLeafReceipt.blank } =
      reduceReviewEnsemble fns host input := by
  rw [reduce_of_valid (Valid.blank h), reduce_of_valid h]
  have hordered : { input with receipts := input.receipts.map ReviewEnsembleLeafReceipt.blank }.ordered =
      input.ordered.map ReviewEnsembleLeafReceipt.blank := ordered_blank _
  have hpayload : payloadOf fns { input with receipts := input.receipts.map ReviewEnsembleLeafReceipt.blank }
      { input with receipts := input.receipts.map ReviewEnsembleLeafReceipt.blank }.ordered =
        payloadOf fns input input.ordered := by
    rw [hordered]
    exact payloadOf_blank input input.ordered
  rw [hpayload]

/-! ## Provenance -/

section Provenance

variable {clusters : List GatedRepresentative} {provenance : Provenance} {fingerprint : String}
  {leaf leafId : ReviewEnsembleLeafId}

def Credited (provenance : Provenance) (fingerprint : String) (leaf : ReviewEnsembleLeafId) : Prop :=
  ∃ ids, leavesOf provenance fingerprint = some ids ∧ leaf ∈ ids

theorem leavesOf_cons (entry : String × List ReviewEnsembleLeafId) (provenance : Provenance) :
    leavesOf (entry :: provenance) fingerprint =
      if entry.1 = fingerprint then some entry.2 else leavesOf provenance fingerprint := by
  unfold leavesOf
  by_cases h : entry.1 = fingerprint
  · rw [List.find?_cons_of_pos (by simpa using h), if_pos h]
    rfl
  · rw [List.find?_cons_of_neg (by simpa using h), if_neg h]

theorem leavesOf_map_other {key : String} (h : ¬key = fingerprint) (ids : List ReviewEnsembleLeafId) :
    leavesOf (provenance.map fun e => if e.1 = key then (key, ids) else e) fingerprint =
      leavesOf provenance fingerprint := by
  induction provenance with
  | nil => rfl
  | cons entry provenance ih =>
    rw [List.map_cons, leavesOf_cons, leavesOf_cons, ih]
    by_cases hentry : entry.1 = key
    · rw [if_pos hentry, if_neg h, hentry, if_neg h]
    · rw [if_neg hentry]

theorem leavesOf_assign {key : String} (hkey : key ≠ "__proto__") (ids : List ReviewEnsembleLeafId) :
    leavesOf (assign provenance key ids) fingerprint =
      if fingerprint = key then some ids else leavesOf provenance fingerprint := by
  unfold assign
  rw [if_neg hkey]
  induction provenance with
  | nil =>
    change leavesOf [(key, ids)] fingerprint = _
    rw [leavesOf_cons]
    by_cases h : key = fingerprint
    · rw [if_pos h, if_pos h.symm]
    · rw [if_neg h, if_neg (Ne.symm h)]
  | cons entry provenance ih =>
    rw [List.any_cons, List.map_cons, List.cons_append]
    by_cases hentry : entry.1 = key
    · rw [if_pos hentry, decide_eq_true hentry, Bool.true_or, if_pos rfl, leavesOf_cons, leavesOf_cons, hentry]
      by_cases h : key = fingerprint
      · rw [if_pos h, if_pos h.symm]
      · rw [if_neg h, if_neg (Ne.symm h), if_neg h, leavesOf_map_other h]
    · rw [if_neg hentry, decide_eq_false hentry, Bool.false_or, leavesOf_cons]
      by_cases h : entry.1 = fingerprint
      · have hother : ¬fingerprint = key := fun hsame => hentry (h.trans hsame)
        rw [if_neg hother, if_pos h]
        split <;> rw [leavesOf_cons, if_pos h]
      · rw [if_neg h, ← ih]
        split <;> rw [leavesOf_cons, if_neg h]

theorem mem_withLeaf {ids : List ReviewEnsembleLeafId} : leaf ∈ withLeaf ids leafId ↔ leaf ∈ ids ∨ leafId = leaf := by
  unfold withLeaf
  rw [List.mem_insertionSort]
  split
  · rename_i hmem
    constructor
    · exact .inl
    · rintro (h | rfl)
      · exact h
      · exact hmem
  · rw [List.mem_append, List.mem_singleton, eq_comm]

def AttributedTo (fns : TextFunctions) (clusters : List GatedRepresentative) (fingerprint : String) (item : Finding) :
    Prop :=
  ∃ cluster, clusters.find? (fun cluster => sameRunFindingsAreNearDuplicates fns cluster.representative item) =
    some cluster ∧ cluster.fingerprint = fingerprint

theorem credited_credit (hclusters : ∀ cluster ∈ clusters, cluster.fingerprint ≠ "__proto__") (item : Finding) :
    Credited (credit fns clusters leafId provenance item) fingerprint leaf ↔
      Credited provenance fingerprint leaf ∨ (leafId = leaf ∧ AttributedTo fns clusters fingerprint item) := by
  unfold credit AttributedTo
  split
  · rename_i hnone
    rw [hnone]
    constructor
    · exact .inl
    · rintro (h | ⟨-, cluster, hcluster, -⟩)
      · exact h
      · cases hcluster
  · rename_i cluster hsome
    rw [hsome]
    have hkey := hclusters cluster (List.mem_of_find?_eq_some hsome)
    unfold Credited
    rw [leavesOf_assign hkey]
    by_cases hsame : fingerprint = cluster.fingerprint
    · rw [if_pos hsame]
      constructor
      · rintro ⟨ids, hids, hleaf⟩
        obtain rfl := Option.some.inj hids
        rcases mem_withLeaf.mp hleaf with hmem | rfl
        · rw [← hsame] at hmem
          cases hold : leavesOf provenance fingerprint with
          | none =>
            rw [hold] at hmem
            cases hmem
          | some ids =>
            rw [hold] at hmem
            exact .inl ⟨ids, rfl, hmem⟩
        · exact .inr ⟨rfl, cluster, rfl, hsame.symm⟩
      · rintro (⟨ids, hids, hmem⟩ | ⟨rfl, -⟩)
        · refine ⟨_, rfl, mem_withLeaf.mpr (.inl ?_)⟩
          rw [← hsame, hids]
          exact hmem
        · exact ⟨_, rfl, mem_withLeaf.mpr (.inr rfl)⟩
    · rw [if_neg hsame]
      constructor
      · exact .inl
      · rintro (h | ⟨-, other, hother, hfingerprint⟩)
        · exact h
        · obtain rfl := Option.some.inj hother
          exact absurd hfingerprint.symm hsame

theorem credited_findings (hclusters : ∀ cluster ∈ clusters, cluster.fingerprint ≠ "__proto__")
    (findings : List Finding) :
    Credited (findings.foldl (credit fns clusters leafId) provenance) fingerprint leaf ↔
      Credited provenance fingerprint leaf ∨
        (leafId = leaf ∧ ∃ item ∈ findings, AttributedTo fns clusters fingerprint item) := by
  induction findings generalizing provenance with
  | nil => simp
  | cons item findings ih =>
    rw [List.foldl_cons, ih, credited_credit hclusters]
    simp only [List.mem_cons, exists_eq_or_imp]
    tauto

theorem credited_provenanceOf (hclusters : ∀ cluster ∈ clusters, cluster.fingerprint ≠ "__proto__")
    (completed : List ReviewEnsembleLeafReceipt) :
    Credited (provenanceOf fns clusters completed) fingerprint leaf ↔
      ∃ receipt ∈ completed, receipt.leafId = leaf ∧ ∃ item ∈ receipt.findings,
        AttributedTo fns clusters fingerprint item := by
  have hrun : ∀ provenance : Provenance,
      Credited (completed.foldl (fun provenance receipt =>
        receipt.findings.foldl (credit fns clusters receipt.leafId) provenance) provenance) fingerprint leaf ↔
      Credited provenance fingerprint leaf ∨ ∃ receipt ∈ completed, receipt.leafId = leaf ∧
        ∃ item ∈ receipt.findings, AttributedTo fns clusters fingerprint item := by
    induction completed with
    | nil => simp
    | cons receipt completed ih =>
      intro provenance
      rw [List.foldl_cons, ih, credited_findings hclusters, or_assoc]
      simp only [List.mem_cons, or_and_right, exists_or, exists_eq_left]
  have hempty : ¬Credited [] fingerprint leaf := by
    rintro ⟨ids, hids, -⟩
    cases hids
  unfold provenanceOf
  rw [hrun]
  tauto

end Provenance

/-! ## From a comment back to its finding -/

section Clusters

variable (fns)

/-- The finding that the reducer takes for the one behind a comment. -/
def standIn (findings : List Finding) (finding : Finding) : Finding :=
  (findings.find? fun item => buildFindingFingerprint fns item = buildFindingFingerprint fns finding).getD finding

theorem gatedRepresentatives_eq {findings posted : List Finding} (h : posted ⊆ findings) :
    gatedRepresentatives fns findings (posted.map (reviewComment fns)) =
      posted.map fun finding => ⟨buildFindingFingerprint fns finding, standIn fns findings finding⟩ := by
  unfold gatedRepresentatives
  rw [List.filterMap_map]
  induction posted with
  | nil => rfl
  | cons finding posted ih =>
    have hmem : finding ∈ findings := h List.mem_cons_self
    have hfound : (findings.find? fun item =>
        buildFindingFingerprint fns item = buildFindingFingerprint fns finding).isSome = true := by
      rw [List.find?_isSome]
      exact ⟨finding, hmem, decide_eq_true rfl⟩
    obtain ⟨found, hfind⟩ := Option.isSome_iff_exists.mp hfound
    have hstand : standIn fns findings finding = found := by rw [standIn, hfind]; rfl
    have hstep : ((fun comment : ReviewComment =>
        (findings.find? fun item => buildFindingFingerprint fns item = comment.fingerprint).map
          fun representative => GatedRepresentative.mk comment.fingerprint representative) ∘ reviewComment fns) finding =
        some ⟨buildFindingFingerprint fns finding, standIn fns findings finding⟩ := by
      rw [hstand]
      change (findings.find? fun item => buildFindingFingerprint fns item = buildFindingFingerprint fns finding).map _ = _
      rw [hfind]
      rfl
    rw [List.filterMap_cons_some hstep, List.map_cons, ih fun x hx => h (List.mem_cons_of_mem _ hx)]

variable {fns}

theorem standIn_fingerprint (findings : List Finding) (finding : Finding) :
    buildFindingFingerprint fns (standIn fns findings finding) = buildFindingFingerprint fns finding := by
  unfold standIn
  cases hfind : findings.find? fun item => buildFindingFingerprint fns item = buildFindingFingerprint fns finding with
  | none => rfl
  | some found =>
    have := List.find?_some hfind
    exact of_decide_eq_true this

variable (hlower : LowersLines fns.toLowerCase) (hsha : Function.Injective fns.sha256)
include hlower hsha

theorem near_standIn (findings : List Finding) (finding item : Finding) :
    sameRunFindingsAreNearDuplicates fns (standIn fns findings finding) item =
      sameRunFindingsAreNearDuplicates fns finding item :=
  (sameFinding_of_fingerprint hsha (standIn_fingerprint findings finding)).near_left hlower item

theorem attributedTo_iff {findings posted : List Finding} (h : posted ⊆ findings) (fingerprint : String)
    (item : Finding) :
    AttributedTo fns (gatedRepresentatives fns findings (posted.map (reviewComment fns))) fingerprint item ↔
      ∃ finding, posted.find? (fun finding => sameRunFindingsAreNearDuplicates fns finding item) = some finding ∧
        buildFindingFingerprint fns finding = fingerprint := by
  unfold AttributedTo
  rw [gatedRepresentatives_eq fns h, List.find?_map]
  have hnear : ((fun cluster : GatedRepresentative => sameRunFindingsAreNearDuplicates fns cluster.representative item) ∘
      fun finding => ⟨buildFindingFingerprint fns finding, standIn fns findings finding⟩) =
      fun finding => sameRunFindingsAreNearDuplicates fns finding item := by
    funext finding
    exact near_standIn hlower hsha findings finding item
  rw [hnear]
  constructor
  · rintro ⟨cluster, hcluster, hfingerprint⟩
    obtain ⟨finding, hfinding, rfl⟩ := Option.map_eq_some_iff.mp hcluster
    exact ⟨finding, hfinding, hfingerprint⟩
  · rintro ⟨finding, hfinding, hfingerprint⟩
    exact ⟨_, Option.map_eq_some_iff.mpr ⟨finding, hfinding, rfl⟩, hfingerprint⟩

end Clusters

/-! ## The posted findings -/

theorem posted_subset (input : GateInput) : input.posted fns ⊆ input.findings := by
  intro finding hfinding
  have hsurviving := ((mem_rankedFindings fns).mp (mem_rankedFindings_of_shown fns hfinding)).1
  exact List.mem_of_mem_filter (List.mem_of_mem_filter hsurviving)

theorem posted_distinct (input : GateInput) :
    (input.posted fns).Pairwise fun a b => sameRunFindingsAreNearDuplicates fns a b = false :=
  (representatives_distinct fns (input.surviving fns)).sublist (List.take_sublist _ _)

theorem titlesAreNearDuplicate_nil (b : List Char) : titlesAreNearDuplicate [] b = false := by
  unfold titlesAreNearDuplicate
  by_cases h : ([] : List Char) = b
  · rw [if_pos h]
    rfl
  · have hle : ([] : List Char).length ≤ b.length := Nat.zero_le _
    rw [if_neg h, if_pos hle]
    rfl

theorem near_self {f : Finding} (h : normalizeTitleForDedup fns f.title ≠ []) :
    sameRunFindingsAreNearDuplicates fns f f = true := by
  unfold sameRunFindingsAreNearDuplicates titlesAreNearDuplicate
  have hlength : 0 < (normalizeTitleForDedup fns f.title).length := List.length_pos_of_ne_nil h
  simp [hlength]

theorem title_of_near {a b : Finding} (h : sameRunFindingsAreNearDuplicates fns a b = true) :
    normalizeTitleForDedup fns a.title ≠ [] := by
  intro hnil
  unfold sameRunFindingsAreNearDuplicates at h
  rw [hnil, titlesAreNearDuplicate_nil, Bool.and_false] at h
  cases h

theorem posted_unique (input : GateInput) {f g : Finding} (hf : f ∈ input.posted fns) (hg : g ∈ input.posted fns)
    (h : sameRunFindingsAreNearDuplicates fns f g = true) : f = g := by
  by_contra hne
  have _ : Std.Symm fun a b => sameRunFindingsAreNearDuplicates fns a b = false := by
    constructor
    intro a b hab
    rw [sameRunFindingsAreNearDuplicates_comm]
    exact hab
  have hfar := (posted_distinct input).forall hf hg hne
  rw [hfar] at h
  cases h

/-- Whether a finding without words in its title is posted: nothing drops it, and fewer findings than the comments have
room for are kept of those that rank before it. -/
def WordlessPosted (fns : TextFunctions) (input : GateInput) (finding : Finding) : Prop :=
  normalizeTitleForDedup fns finding.title = [] ∧ input.firstDrop fns finding = none ∧
    (suppressSameRunNearDuplicates fns ((input.ranked fns).takeWhile (· ≠ finding))).length < input.cap

theorem posted_of_wordless {input : GateInput} {finding : Finding} (hmem : finding ∈ input.findings)
    (htitle : normalizeTitleForDedup fns finding.title = []) :
    finding ∈ input.posted fns ↔ WordlessPosted fns input finding := by
  have halone : ∀ k, sameRunFindingsAreNearDuplicates fns k finding = false := by
    intro k
    apply Bool.eq_false_iff.mpr
    intro hnear
    rw [sameRunFindingsAreNearDuplicates_comm] at hnear
    exact title_of_near hnear htitle
  have hranked : input.firstDrop fns finding = none ↔ finding ∈ input.ranked fns := by
    rw [GateInput.ranked, List.mem_insertionSort, List.mem_filter, Option.isNone_iff_eq_none]
    exact ⟨fun h => ⟨hmem, h⟩, fun h => h.2⟩
  unfold WordlessPosted
  rw [posted_eq_take, hranked]
  constructor
  · intro hposted
    have hin := mem_ranked_of_deduplicated fns (List.mem_of_mem_take hposted)
    exact ⟨htitle, hin, (Ranking.mem_take_keepFirst_iff hin halone _).mp hposted⟩
  · rintro ⟨-, hin, hroom⟩
    exact (Ranking.mem_take_keepFirst_iff hin halone _).mpr hroom

/-! ## The law -/

def ReviewEnsembleInput.gate (input : ReviewEnsembleInput) : GateInput := gateInput input input.ordered

def Reported (fns : TextFunctions) (receipt : ReviewEnsembleLeafReceipt) (finding : Finding) : Prop :=
  ∃ item ∈ receipt.findings, buildFindingFingerprint fns item = buildFindingFingerprint fns finding

/-- The packet does not depend on the order of the receipts or on what failed leaves found, and its comments name the
leaves that reported their findings, and no leaf that did not report a near duplicate. -/
structure Attributes (fns : TextFunctions) (host : EnsembleHost) (input : ReviewEnsembleInput)
    (packet : ReviewEnsemblePacket) : Prop where
  orderFree : ∀ receipts, receipts.Perm input.receipts →
    reduceReviewEnsemble fns host { input with receipts } = .ok packet
  failedIgnored : ∀ receipts, receipts.map ReviewEnsembleLeafReceipt.blank =
    input.receipts.map ReviewEnsembleLeafReceipt.blank →
    reduceReviewEnsemble fns host { input with receipts } = .ok packet
  built : packet.gate.comments = (input.gate.posted fns).map (reviewComment fns)
  complete : ∀ finding ∈ input.gate.posted fns, ∃ ids,
    leavesOf packet.provenance (reviewComment fns finding).fingerprint = some ids ∧
      ∀ receipt ∈ input.receipts, receipt.status = .completed → Reported fns receipt finding → receipt.leafId ∈ ids
  sound : ∀ finding ∈ input.gate.posted fns, ∀ ids,
    leavesOf packet.provenance (reviewComment fns finding).fingerprint = some ids → ∀ leaf ∈ ids,
      ∃ receipt ∈ input.receipts, receipt.status = .completed ∧ receipt.leafId = leaf ∧
        ∃ item ∈ receipt.findings, sameRunFindingsAreNearDuplicates fns finding item = true

theorem mem_completed {input : ReviewEnsembleInput} {receipt : ReviewEnsembleLeafReceipt} :
    receipt ∈ completedReceipts input.ordered ↔ receipt ∈ input.receipts ∧ receipt.status = .completed := by
  unfold completedReceipts ReviewEnsembleInput.ordered
  rw [List.mem_filter, List.mem_insertionSort, decide_eq_true_iff]

theorem mem_gate_findings {input : ReviewEnsembleInput} {finding : Finding} :
    finding ∈ input.gate.findings ↔
      ∃ receipt ∈ input.receipts, receipt.status = .completed ∧ finding ∈ receipt.findings := by
  change finding ∈ (completedReceipts input.ordered).flatMap ReviewEnsembleLeafReceipt.findings ↔ _
  rw [List.mem_flatMap]
  constructor
  · rintro ⟨receipt, hreceipt, hfinding⟩
    obtain ⟨hmem, hstatus⟩ := mem_completed.mp hreceipt
    exact ⟨receipt, hmem, hstatus, hfinding⟩
  · rintro ⟨receipt, hmem, hstatus, hfinding⟩
    exact ⟨receipt, mem_completed.mpr ⟨hmem, hstatus⟩, hfinding⟩

section Law

variable (hlower : LowersLines fns.toLowerCase) (hsha : Function.Injective fns.sha256)
include hlower hsha

theorem credited_payload (input : ReviewEnsembleInput) (fingerprint : String) (leaf : ReviewEnsembleLeafId) :
    Credited (payloadOf fns input input.ordered).provenance fingerprint leaf ↔
      ∃ receipt ∈ input.receipts, receipt.status = .completed ∧ receipt.leafId = leaf ∧ ∃ item ∈ receipt.findings,
        ∃ finding, (input.gate.posted fns).find? (fun f => sameRunFindingsAreNearDuplicates fns f item) =
          some finding ∧ buildFindingFingerprint fns finding = fingerprint := by
  have hsubset : input.gate.posted fns ⊆ input.gate.findings := posted_subset input.gate
  have hproto : ∀ cluster ∈ gatedRepresentatives fns input.gate.findings ((input.gate.posted fns).map (reviewComment fns)),
      cluster.fingerprint ≠ "__proto__" := by
    intro cluster hcluster
    rw [gatedRepresentatives_eq fns hsubset] at hcluster
    obtain ⟨finding, -, rfl⟩ := List.mem_map.mp hcluster
    intro heq
    have hhead := congrArg (fun s : String => s.toList.head?) heq
    unfold buildFindingFingerprint at hhead
    simp at hhead
  change Credited (provenanceOf fns (gatedRepresentatives fns input.gate.findings
    (applyDeterministicReviewGate fns input.gate).comments) (completedReceipts input.ordered)) fingerprint leaf ↔ _
  rw [gate_comments, credited_provenanceOf hproto]
  simp only [mem_completed, attributedTo_iff hlower hsha hsubset, and_assoc]

theorem sound_payload (input : ReviewEnsembleInput) {finding : Finding} {leaf : ReviewEnsembleLeafId}
    (h : Credited (payloadOf fns input input.ordered).provenance (buildFindingFingerprint fns finding) leaf) :
    ∃ receipt ∈ input.receipts, receipt.status = .completed ∧ receipt.leafId = leaf ∧
      ∃ item ∈ receipt.findings, sameRunFindingsAreNearDuplicates fns finding item = true := by
  obtain ⟨receipt, hmem, hstatus, hleaf, item, hitem, found, hfind, hfingerprint⟩ :=
    (credited_payload hlower hsha input _ leaf).mp h
  refine ⟨receipt, hmem, hstatus, hleaf, item, hitem, ?_⟩
  have hnear : sameRunFindingsAreNearDuplicates fns found item = true := by
    have := List.find?_some hfind
    exact this
  rwa [(sameFinding_of_fingerprint hsha hfingerprint).near_left hlower] at hnear

theorem complete_payload {input : ReviewEnsembleInput} {finding : Finding} (hposted : finding ∈ input.gate.posted fns)
    (htitle : normalizeTitleForDedup fns finding.title ≠ []) {receipt : ReviewEnsembleLeafReceipt}
    (hmem : receipt ∈ input.receipts) (hstatus : receipt.status = .completed) (hreported : Reported fns receipt finding) :
    Credited (payloadOf fns input input.ordered).provenance (buildFindingFingerprint fns finding) receipt.leafId := by
  obtain ⟨item, hitem, hfingerprint⟩ := hreported
  have hnear : sameRunFindingsAreNearDuplicates fns finding item = true := by
    rw [sameRunFindingsAreNearDuplicates_comm, (sameFinding_of_fingerprint hsha hfingerprint).near_left hlower]
    exact near_self htitle
  apply (credited_payload hlower hsha input _ _).mpr
  refine ⟨receipt, hmem, hstatus, rfl, item, hitem, finding, ?_, rfl⟩
  have hsome : ((input.gate.posted fns).find? fun f => sameRunFindingsAreNearDuplicates fns f item).isSome = true := by
    rw [List.find?_isSome]
    exact ⟨finding, hposted, hnear⟩
  obtain ⟨found, hfind⟩ := Option.isSome_iff_exists.mp hsome
  -- the first posted near duplicate of the item is one of the finding, so it is the finding
  have hfound : sameRunFindingsAreNearDuplicates fns found item = true := by
    have := List.find?_some hfind
    exact this
  have hsame : sameRunFindingsAreNearDuplicates fns found finding = true := by
    rw [sameRunFindingsAreNearDuplicates_comm, ← (sameFinding_of_fingerprint hsha hfingerprint).near_left hlower,
      sameRunFindingsAreNearDuplicates_comm]
    exact hfound
  rw [hfind, posted_unique input.gate (List.mem_of_find?_eq_some hfind) hposted hsame]

omit hlower hsha in
theorem reduce_of_blank {input : ReviewEnsembleInput} (hvalid : input.Valid host)
    {receipts : List ReviewEnsembleLeafReceipt}
    (h : receipts.map ReviewEnsembleLeafReceipt.blank = input.receipts.map ReviewEnsembleLeafReceipt.blank) :
    reduceReviewEnsemble fns host { input with receipts } = reduceReviewEnsemble fns host input := by
  have hleaves : ∀ l : List ReviewEnsembleLeafReceipt, l.map ReviewEnsembleLeafReceipt.leafId =
      (l.map ReviewEnsembleLeafReceipt.blank).map ReviewEnsembleLeafReceipt.leafId := by
    intro l
    rw [List.map_map]
    exact List.map_congr_left fun receipt _ => (blank_leafId receipt).symm
  have hother : { input with receipts }.Valid host := by
    refine ⟨hvalid.generated, ?_, ?_⟩
    · change (receipts.map ReviewEnsembleLeafReceipt.leafId).Nodup
      rw [hleaves, h, ← hleaves]
      exact hvalid.distinct
    · intro receipt hmem
      have hblank : receipt.blank ∈ input.receipts.map ReviewEnsembleLeafReceipt.blank := h ▸ List.mem_map_of_mem hmem
      obtain ⟨original, horiginal, heq⟩ := List.mem_map.mp hblank
      rw [← blank_subject, ← heq, blank_subject]
      exact hvalid.subjects original horiginal
  have hreduce := @reduce_blank fns _ _ hother
  have hreduce' := @reduce_blank fns _ _ hvalid
  change reduceReviewEnsemble fns host { input with receipts := receipts.map ReviewEnsembleLeafReceipt.blank } = _
    at hreduce
  rw [h, hreduce'] at hreduce
  exact hreduce.symm

/-- For distinct leaves of one subject the packet attributes every comment, whatever the order of the receipts and the
findings of failed leaves, exactly where no finding without a word in its title is posted. -/
theorem packet_attributes_iff {input : ReviewEnsembleInput} (hvalid : input.Valid host) :
    (∃ packet, reduceReviewEnsemble fns host input = .ok packet ∧ Attributes fns host input packet) ↔
      ∀ receipt ∈ input.receipts, receipt.status = .completed → ∀ finding ∈ receipt.findings,
        ¬WordlessPosted fns input.gate finding := by
  have hposted : (∀ receipt ∈ input.receipts, receipt.status = .completed → ∀ finding ∈ receipt.findings,
      ¬WordlessPosted fns input.gate finding) ↔
        ∀ finding ∈ input.gate.posted fns, normalizeTitleForDedup fns finding.title ≠ [] := by
    constructor
    · intro h finding hfinding htitle
      obtain ⟨receipt, hmem, hstatus, hreported⟩ := mem_gate_findings.mp (posted_subset input.gate hfinding)
      exact h receipt hmem hstatus finding hreported
        ((posted_of_wordless (posted_subset input.gate hfinding) htitle).mp hfinding)
    · intro h receipt hmem hstatus finding hreported hwordless
      have hfinding := mem_gate_findings.mpr ⟨receipt, hmem, hstatus, hreported⟩
      exact h finding ((posted_of_wordless hfinding hwordless.1).mpr hwordless) hwordless.1
  rw [hposted]
  constructor
  · rintro ⟨packet, -, hattributes⟩ finding hfinding
    obtain ⟨receipt, hmem, hstatus, hreported⟩ := mem_gate_findings.mp (posted_subset input.gate hfinding)
    obtain ⟨ids, hids, hlisted⟩ := hattributes.complete finding hfinding
    have hleaf := hlisted receipt hmem hstatus ⟨finding, hreported, rfl⟩
    obtain ⟨-, -, -, -, item, -, hnear⟩ := hattributes.sound finding hfinding ids hids _ hleaf
    exact title_of_near hnear
  · intro htitles
    have hreduce := @reduce_of_valid fns _ _ hvalid
    refine ⟨_, hreduce, ?_, ?_, ?_, ?_, ?_⟩
    · intro receipts hperm
      rw [reduce_of_perm hvalid hperm, hreduce]
    · intro receipts hblank
      rw [reduce_of_blank hvalid hblank, hreduce]
    · exact gate_comments fns input.gate
    · intro finding hfinding
      have hcredited : ∀ receipt ∈ input.receipts, receipt.status = .completed → Reported fns receipt finding → _ :=
        fun receipt hmem hstatus hreported =>
          complete_payload hlower hsha hfinding (htitles finding hfinding) hmem hstatus hreported
      obtain ⟨receipt, hmem, hstatus, hreported⟩ := mem_gate_findings.mp (posted_subset input.gate hfinding)
      obtain ⟨ids, hids, -⟩ := hcredited receipt hmem hstatus ⟨finding, hreported, rfl⟩
      refine ⟨ids, hids, ?_⟩
      intro other hother hcompleted hsame
      obtain ⟨ids', hids', hlisted⟩ := hcredited other hother hcompleted hsame
      obtain rfl := Option.some.inj (hids.symm.trans hids')
      exact hlisted
    · intro finding _ ids hids leaf hleaf
      exact sound_payload hlower hsha input ⟨ids, hids, hleaf⟩

end Law

/-! ## A finding without words -/

theorem toLower_of_isSpace {c : Char} (h : JsText.isSpace c = true) : c.toLower = c := by
  unfold Char.toLower
  split
  · rename_i hupper
    have hchars : ∀ n < 91, 65 ≤ n → JsText.isSpace (Char.ofNat n) = false := by decide
    have hlow : 65 ≤ c.toNat := UInt32.le_iff_toNat_le.mp hupper.1
    have hhigh : c.toNat ≤ 90 := UInt32.le_iff_toNat_le.mp hupper.2
    have hnot := hchars c.toNat (by omega) hlow
    rw [Char.ofNat_toNat, h] at hnot
    cases hnot
  · rfl

theorem plainTexts_lowersLines : LowersLines plainTexts.toLowerCase where
  empty := rfl
  line a b := by
    change (String.ofList ((String.ofList (a ++ '\n' :: b)).toList.map Char.toLower)).toList =
      (String.ofList ((String.ofList a).toList.map Char.toLower)).toList ++
        '\n' :: (String.ofList ((String.ofList b).toList.map Char.toLower)).toList
    simp only [String.toList_ofList, List.map_append, List.map_cons]
    rfl
  between before text after hbefore hafter := by
    have hgap : ∀ gap : List Char, (∀ c ∈ gap, JsText.isSpace c = true) → gap.map Char.toLower = gap := by
      intro gap hgap
      conv => rhs; rw [← List.map_id gap]
      exact List.map_congr_left fun c hc => toLower_of_isSpace (hgap c hc)
    change (String.ofList ((String.ofList (before ++ (text ++ after))).toList.map Char.toLower)).toList =
      before ++ ((String.ofList ((String.ofList text).toList.map Char.toLower)).toList ++ after)
    simp only [String.toList_ofList, List.map_append, hgap before hbefore, hgap after hafter]

def demoSubject : ReviewEnsembleSubject := ⟨"acme/app", 7, "base", "head"⟩

def demoHost : EnsembleHost := ⟨fun _ => some 0, fun _ => ""⟩

def oneLeaf (finding : Finding) : ReviewEnsembleInput where
  subject := demoSubject
  files := [⟨"src/run.ts", some "@@ -1 +1 @@\n+b"⟩]
  receipts := [⟨.anchor, true, .completed, demoSubject, [finding], [], none⟩]
  generatedAt := "2026-07-01T00:00:00.000Z"
  gatePolicy := ⟨none, [], [], [], none, none⟩

theorem oneLeaf_valid (finding : Finding) : (oneLeaf finding).Valid demoHost where
  generated := rfl
  distinct := List.nodup_singleton _
  subjects := by
    intro receipt hmem
    rw [List.mem_singleton.mp hmem]
    rfl

/-- Two leaves report the finding, and a third one fails. -/
def threeLeaves : ReviewEnsembleInput :=
  { oneLeaf lostExitCode with
    receipts := [⟨.anchor, true, .completed, demoSubject, [lostExitCode], [], none⟩,
      ⟨.boundary, true, .completed, demoSubject, [lostExitCode], [], none⟩,
      ⟨.failure, true, .failed, demoSubject, [], [], some "timeout"⟩] }

theorem mem_threeLeaves {receipt : ReviewEnsembleLeafReceipt} (h : receipt ∈ threeLeaves.receipts) :
    receipt.subject = demoSubject ∧ ∀ finding ∈ receipt.findings, finding = lostExitCode := by
  simp only [threeLeaves, List.mem_cons, List.not_mem_nil, or_false] at h
  rcases h with rfl | rfl | rfl <;> simp

theorem threeLeaves_valid : threeLeaves.Valid demoHost where
  generated := rfl
  distinct := by decide
  subjects _ hmem := (mem_threeLeaves hmem).1

theorem packet_attributes_iff_threeLeaves :
    ∃ packet, reduceReviewEnsemble plainTexts demoHost threeLeaves = .ok packet ∧
      Attributes plainTexts demoHost threeLeaves packet := by
  apply (packet_attributes_iff plainTexts_lowersLines (fun _ _ h => h) threeLeaves_valid).mpr
  intro receipt hmem _ finding hfinding hwordless
  obtain rfl := (mem_threeLeaves hmem).2 finding hfinding
  exact absurd hwordless.1 (by decide)

def shout : Finding := { lostExitCode with title := "!!!" }

theorem shout_unattributed :
    ¬∃ packet, reduceReviewEnsemble plainTexts demoHost (oneLeaf shout) = .ok packet ∧
      Attributes plainTexts demoHost (oneLeaf shout) packet := by
  rintro ⟨packet, hreduce, hattributes⟩
  rw [reduce_of_valid (oneLeaf_valid shout)] at hreduce
  obtain rfl := Except.ok.inj hreduce
  obtain ⟨ids, hids, -⟩ := hattributes.complete shout (by decide +kernel)
  have hempty : (payloadOf plainTexts (oneLeaf shout) (oneLeaf shout).ordered).provenance = [] := by decide +kernel
  change leavesOf (payloadOf plainTexts (oneLeaf shout) (oneLeaf shout).ordered).provenance _ = some ids at hids
  rw [hempty] at hids
  cases hids

end NeonDiff.Review
