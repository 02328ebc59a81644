import NeonDiff.Recheck.Model

/-! # The recheck fails closed -/

namespace NeonDiff.Recheck

open NeonDiff.Lib NeonDiff.Review

variable {fns : ReceiptFunctions} {secondDraw : Nat → SelfConsistencySecondDrawInput → Draw} {input : RecheckInput}

/-! ## What the recheck is for -/

def RecheckInput.selects (input : RecheckInput) (comment : DemotableComment) : Bool :=
  input.config.enabled && input.severities.contains comment.severity

/-- The draw holds a receipt, its canonical text and the hash of that, and nothing else. -/
def IsCanonical (fns : ReceiptFunctions) (draw : Draw) (receipt : SevereVerificationReceipt) : Prop :=
  ∃ fields canonicalJson data, draw = .returned (.obj fields) ∧
    (fields.map Prod.fst).Perm ["canonicalJson", "digest", "receipt"] ∧
    JsValue.field fields "canonicalJson" = some (.str canonicalJson) ∧
    JsValue.field fields "digest" = some (.str (fns.sha256 canonicalJson)) ∧
    JsValue.field fields "receipt" = some (.obj data) ∧
    canonicalJson = serializeReceipt fns receipt ∧
    (∃ canonical, canonicalizeSevereVerificationReceipt fns canonicalJson = some canonical ∧ canonical.receipt = receipt) ∧
    JsValue.sameJsonData (receiptValue receipt) (.obj data) = true

def IsBound (context : Option SelfConsistencyReviewContext) (comment : DemotableComment)
    (receipt : SevereVerificationReceipt) : Prop :=
  context = some ⟨receipt.repo, receipt.pullNumber, receipt.baseSha, receipt.headSha⟩ ∧
    receipt.findingFingerprint = comment.fingerprint

/-- The changed hunk, the file of the comment and whatever else was read were read whole. -/
def IsComplete (comment : DemotableComment) (evidence : SevereVerificationEvidence) : Prop :=
  evidence.complete = true ∧ (∃ hunk, evidence.changedHunk = some hunk ∧ hunk.complete = true) ∧ evidence.omitted = [] ∧
    (∀ file ∈ evidence.files, file.complete = true) ∧
    ∃ file ∈ evidence.files, file.kind = .whole_file ∧ file.path = comment.path

structure Confirms (fns : ReceiptFunctions) (context : Option SelfConsistencyReviewContext) (comment : DemotableComment)
    (draw : Draw) (receipt : SevereVerificationReceipt) : Prop where
  canonical : IsCanonical fns draw receipt
  confirming : receipt.state = .confirmed ∧ receipt.disposition = .retain
  bound : IsBound context comment receipt
  complete : IsComplete comment receipt.evidence

structure Entry where
  comment : DemotableComment
  verdict : Option SelfConsistencyVerdict
  shown : Option DemotableComment

def SelfConsistencyVerdict.Names (verdict : SelfConsistencyVerdict) (comment : DemotableComment) : Prop :=
  verdict.path = comment.path ∧ verdict.line = comment.line ∧ verdict.severity = comment.severity ∧
    verdict.title = comment.title ∧ verdict.originalConfidence = comment.confidence

/-- How the comment that follows `n` selected ones is treated. -/
inductive Treated (fns : ReceiptFunctions) (secondDraw : Nat → SelfConsistencySecondDrawInput → Draw)
    (input : RecheckInput) (n : Nat) : Entry → Prop
  | untouched (comment) (hselects : input.selects comment = false) :
      Treated fns secondDraw input n ⟨comment, none, some comment⟩
  | retained (comment verdict receipt) (hselects : input.selects comment = true) (hbudget : n < input.maxFindings)
      (hconfirms : Confirms fns input.reviewContext comment (secondDraw n (input.secondDrawInput comment)) receipt)
      (hnames : verdict.Names comment) (haction : verdict.action = .retained) (hreceipt : verdict.receipt = some receipt) :
      Treated fns secondDraw input n ⟨comment, some verdict, some comment⟩
  | suppressed (comment verdict) (hselects : input.selects comment = true) (hnames : verdict.Names comment)
      (haction : verdict.action = .suppressed) :
      Treated fns secondDraw input n ⟨comment, some verdict, none⟩
  | demoted (comment verdict demoted) (hselects : input.selects comment = true)
      (hpolicy : input.config.onUnsupported = some .demote)
      (hdemoted : demoteReviewComment comment SEVERITY_DEMOTION_NOTE = some demoted) (hlower : demoted.severity = .P2)
      (hnames : verdict.Names comment) (haction : verdict.action = .demoted) :
      Treated fns secondDraw input n ⟨comment, some verdict, some demoted⟩

/-- The result treats every comment of the input, in order, and calls the provider for the first of the selected ones. -/
structure FailsClosed (fns : ReceiptFunctions) (secondDraw : Nat → SelfConsistencySecondDrawInput → Draw)
    (input : RecheckInput) (result : RecheckResult) (entries : List Entry) : Prop where
  comments : entries.map Entry.comment = input.comments
  treated : ∀ before entry after, entries = before ++ entry :: after →
    Treated fns secondDraw input (before.filter fun e => input.selects e.comment).length entry
  shown : result.comments = entries.filterMap Entry.shown
  verdicts : result.verdicts = entries.filterMap Entry.verdict
  draws : result.draws = ((input.comments.filter input.selects).take input.maxFindings).map input.secondDrawInput
  bounded : result.draws.length ≤ input.maxFindings
  event : input.decideReviewEvent input.comments = .COMMENT → result.event = .COMMENT

/-! ## Receipts -/

theorem parseCanonicalResult_eq_some {value : JsValue} {canonical : CanonicalSevereVerificationReceipt}
    (h : parseCanonicalResult fns value = some canonical) : IsCanonical fns (.returned value) canonical.receipt := by
  unfold parseCanonicalResult at h
  split at h
  · rename_i fields
    split at h
    · cases h
    · rename_i hkeys
      rw [Bool.not_eq_true', Bool.not_eq_false, List.isPerm_iff] at hkeys
      split at h
      · rename_i canonicalJson digest data hjson hdigest hdata
        obtain ⟨hcanonical, hsame⟩ := Option.filter_eq_some_iff.mp h
        simp only [Bool.and_eq_true, decide_eq_true_eq] at hsame
        obtain ⟨⟨rfl, rfl⟩, hdata'⟩ := hsame
        obtain ⟨parsed, -, hparsed⟩ := Option.map_eq_some_iff.mp hcanonical
        have hdigest' : canonical.digest = fns.sha256 canonical.canonicalJson := by
          rw [← hparsed]
        have hjson' : canonical.canonicalJson = serializeReceipt fns canonical.receipt := by
          rw [← hparsed]
        rw [hdigest'] at hdigest
        exact ⟨fields, _, data, rfl, hkeys, hjson, hdigest, hdata, hjson', ⟨canonical, hcanonical, rfl⟩, hdata'⟩
      · cases h
  · cases h

theorem hasCompleteEvidence_iff {receipt : SevereVerificationReceipt} {comment : DemotableComment} :
    hasCompleteEvidence receipt comment.path = true ↔ IsComplete comment receipt.evidence := by
  unfold hasCompleteEvidence IsComplete
  simp only [Bool.and_eq_true, Option.any_eq_true, List.isEmpty_iff, Bool.not_eq_true', List.all_eq_true,
    List.any_eq_true, decide_eq_true_eq]
  constructor
  · rintro ⟨⟨⟨⟨⟨hcomplete, hhunk⟩, homitted⟩, -⟩, hfiles⟩, hwhole⟩
    exact ⟨hcomplete, hhunk, homitted, hfiles, hwhole⟩
  · rintro ⟨hcomplete, hhunk, homitted, hfiles, file, hmem, hwhole⟩
    refine ⟨⟨⟨⟨⟨hcomplete, hhunk⟩, homitted⟩, ?_⟩, hfiles⟩, file, hmem, hwhole⟩
    rw [List.isEmpty_eq_false_iff]
    exact List.ne_nil_of_mem hmem

theorem retainsSevereFinding_eq_true {receipt : SevereVerificationReceipt} {comment : DemotableComment}
    {context : Option SelfConsistencyReviewContext} (h : retainsSevereFinding receipt comment context = true) :
    (receipt.state = .confirmed ∧ receipt.disposition = .retain) ∧ IsBound context comment receipt ∧
      IsComplete comment receipt.evidence := by
  unfold retainsSevereFinding at h
  split at h
  · cases h
  · rename_i context
    simp only [Bool.and_eq_true, decide_eq_true_eq] at h
    obtain ⟨⟨⟨⟨⟨⟨⟨hstate, hdisposition⟩, hrepo⟩, hpull⟩, hbase⟩, hhead⟩, hfingerprint⟩, hcomplete⟩ := h
    refine ⟨⟨hstate, hdisposition⟩, ⟨?_, hfingerprint⟩, hasCompleteEvidence_iff.mp hcomplete⟩
    rw [hrepo, hpull, hbase, hhead]

/-! ## One comment -/

theorem demoteReviewComment_severity {comment demoted : DemotableComment} {note : String}
    (h : demoteReviewComment comment note = some demoted) : demoted.severity = .P2 := by
  unfold demoteReviewComment at h
  dsimp only at h
  split at h
  · cases h
  · rw [← Option.some.inj h]

/-- What a step of the loop adds. -/
structure Adds (state next : Rechecking) (entry : Entry) (calls : List SelfConsistencySecondDrawInput) : Prop where
  comments : next.comments = state.comments ++ entry.shown.toList
  verdicts : next.verdicts = state.verdicts ++ entry.verdict.toList
  draws : next.draws = state.draws ++ calls
  rechecked : next.rechecked = state.rechecked + calls.length

theorem handleUnsupported_adds (fns : ReceiptFunctions) (secondDraw : Nat → SelfConsistencySecondDrawInput → Draw)
    (n : Nat) (state : Rechecking) {comment : DemotableComment} {verdict : SelfConsistencyVerdict}
    (hselects : input.selects comment = true) (hnames : verdict.Names comment)
    (haction : verdict.action = .suppressed) :
    ∃ entry : Entry, entry.comment = comment ∧ Treated fns secondDraw input n entry ∧
      Adds state (handleUnsupported input state comment verdict) entry [] := by
  unfold handleUnsupported
  split
  · rename_i hpolicy
    split
    · rename_i demoted hdemoted
      have hlower := demoteReviewComment_severity hdemoted
      refine ⟨⟨comment, _, some demoted⟩, rfl, .demoted comment { verdict with action := .demoted } demoted hselects hpolicy
        hdemoted hlower hnames rfl, ?_⟩
      constructor <;> simp
    · refine ⟨⟨comment, _, none⟩, rfl, .suppressed comment
        { verdict with action := .suppressed, demotionSkipped := some true } hselects hnames rfl, ?_⟩
      constructor <;> simp
  · refine ⟨⟨comment, some verdict, none⟩, rfl, .suppressed comment verdict hselects hnames haction, ?_⟩
    constructor <;> simp

/-- The draws of a comment that follows `n` selected ones. -/
def drawsFor (input : RecheckInput) (n : Nat) (comment : DemotableComment) : List SelfConsistencySecondDrawInput :=
  if input.selects comment = true ∧ n < input.maxFindings then [input.secondDrawInput comment] else []

theorem recheckComment_adds (fns : ReceiptFunctions) (secondDraw : Nat → SelfConsistencySecondDrawInput → Draw)
    (henabled : input.config.enabled = true) (n : Nat) (comment : DemotableComment) {state : Rechecking} (hrechecked : state.rechecked = min n input.maxFindings) :
    ∃ entry : Entry, entry.comment = comment ∧ Treated fns secondDraw input n entry ∧
      Adds state (recheckComment fns secondDraw input state comment) entry (drawsFor input n comment) := by
  have hselects : input.selects comment = input.severities.contains comment.severity := by
    rw [RecheckInput.selects, henabled, Bool.true_and]
  unfold recheckComment drawsFor
  rw [← hselects]
  cases hselected : input.selects comment with
  | false =>
    refine ⟨⟨comment, none, some comment⟩, rfl, .untouched comment hselected, ?_⟩
    rw [Bool.not_false, if_pos rfl]
    constructor <;> simp
  | true =>
    rw [Bool.not_true, if_neg Bool.false_ne_true]
    by_cases hbudget : n < input.maxFindings
    · have hdrawn : state.rechecked = n := by omega
      have hcap : ¬input.maxFindings ≤ state.rechecked := by omega
      rw [if_neg hcap, if_pos ⟨rfl, hbudget⟩, hdrawn]
      have hunsupported : ∀ verdict : SelfConsistencyVerdict, verdict.Names comment → verdict.action = .suppressed →
          ∃ entry : Entry, entry.comment = comment ∧ Treated fns secondDraw input n entry ∧
            Adds state (handleUnsupported input
              { state with rechecked := n + 1, draws := state.draws ++ [input.secondDrawInput comment] } comment verdict)
              entry [input.secondDrawInput comment] := by
        intro verdict hnames haction
        obtain ⟨entry, hcomment, htreated, hadds⟩ :=
          handleUnsupported_adds fns secondDraw n
            { state with rechecked := n + 1, draws := state.draws ++ [input.secondDrawInput comment] } hselected hnames haction
        refine ⟨entry, hcomment, htreated, hadds.comments, hadds.verdicts, ?_, ?_⟩
        · rw [hadds.draws, List.append_nil]
        · rw [hadds.rechecked, hdrawn]
          rfl
      split
      · exact hunsupported _ ⟨rfl, rfl, rfl, rfl, rfl⟩ rfl
      · rename_i draw hdraw
        split
        · exact hunsupported _ ⟨rfl, rfl, rfl, rfl, rfl⟩ rfl
        · rename_i canonical hcanonical
          dsimp only
          split
          · rename_i hretains
            obtain ⟨hconfirming, hbound, hcomplete⟩ := retainsSevereFinding_eq_true hretains
            have hconfirms : Confirms fns input.reviewContext comment (secondDraw n (input.secondDrawInput comment))
                canonical.receipt := by
              rw [hdraw]
              exact ⟨parseCanonicalResult_eq_some hcanonical, hconfirming, hbound, hcomplete⟩
            refine ⟨⟨comment, _, some comment⟩, rfl, .retained comment _ canonical.receipt hselected hbudget hconfirms
              ⟨rfl, rfl, rfl, rfl, rfl⟩ rfl rfl, rfl, rfl, rfl, ?_⟩
            rw [hdrawn]
            rfl
          · exact hunsupported _ ⟨rfl, rfl, rfl, rfl, rfl⟩ rfl
    · have hcap : input.maxFindings ≤ state.rechecked := by omega
      rw [if_pos hcap, if_neg fun h => hbudget h.2]
      exact handleUnsupported_adds fns secondDraw n state hselected ⟨rfl, rfl, rfl, rfl, rfl⟩ rfl

/-! ## The loop -/

def countAfter (input : RecheckInput) (n : Nat) (comment : DemotableComment) : Nat :=
  if input.selects comment then n + 1 else n

theorem foldl_recheckComment (fns : ReceiptFunctions) (secondDraw : Nat → SelfConsistencySecondDrawInput → Draw)
    (henabled : input.config.enabled = true) (comments : List DemotableComment) (n : Nat) (state : Rechecking)
    (hrechecked : state.rechecked = min n input.maxFindings) :
    ∃ entries : List Entry, entries.map Entry.comment = comments ∧
      (∀ before entry after, entries = before ++ entry :: after →
        Treated fns secondDraw input (n + (before.filter fun e => input.selects e.comment).length) entry) ∧
      (comments.foldl (recheckComment fns secondDraw input) state).comments =
        state.comments ++ entries.filterMap Entry.shown ∧
      (comments.foldl (recheckComment fns secondDraw input) state).verdicts =
        state.verdicts ++ entries.filterMap Entry.verdict ∧
      (comments.foldl (recheckComment fns secondDraw input) state).draws = state.draws ++
        ((comments.filter input.selects).take (input.maxFindings - n)).map input.secondDrawInput := by
  induction comments generalizing n state with
  | nil =>
    refine ⟨[], rfl, ?_, by simp, by simp, by simp⟩
    intro before entry after h
    exact absurd h (by simp)
  | cons comment comments ih =>
    obtain ⟨entry, hcomment, htreated, hadds⟩ :=
      recheckComment_adds fns secondDraw henabled n comment hrechecked
    have hnext : (recheckComment fns secondDraw input state comment).rechecked =
        min (countAfter input n comment) input.maxFindings := by
      rw [hadds.rechecked, hrechecked, drawsFor, countAfter]
      cases input.selects comment with
      | false => simp
      | true =>
        by_cases hbudget : n < input.maxFindings
        · simp [hbudget]
          omega
        · simp [hbudget]
          omega
    obtain ⟨entries, hcomments, hall, hshown, hverdicts, hdraws⟩ := ih _ _ hnext
    refine ⟨entry :: entries, ?_, ?_, ?_, ?_, ?_⟩
    · rw [List.map_cons, hcomment, hcomments]
    · intro before other after hsplit
      cases before with
      | nil =>
        obtain ⟨rfl, rfl⟩ := List.cons.inj hsplit
        exact htreated
      | cons first before =>
        obtain ⟨rfl, hrest⟩ := List.cons.inj hsplit
        have hother := hall before other after hrest
        have hcount : n + ((entry :: before).filter fun e => input.selects e.comment).length =
            countAfter input n comment + (before.filter fun e => input.selects e.comment).length := by
          rw [countAfter, ← hcomment]
          cases hselects : input.selects entry.comment with
          | false => simp [hselects]
          | true =>
            simp [hselects]
            omega
        rwa [hcount]
    · rw [List.foldl_cons, hshown, hadds.comments, List.append_assoc, List.filterMap_cons]
      cases entry.shown <;> rfl
    · rw [List.foldl_cons, hverdicts, hadds.verdicts, List.append_assoc, List.filterMap_cons]
      cases entry.verdict <;> rfl
    · rw [List.foldl_cons, hdraws, hadds.draws, List.append_assoc, drawsFor, countAfter]
      cases hselects : input.selects comment with
      | false => simp [hselects]
      | true =>
        by_cases hbudget : n < input.maxFindings
        · obtain ⟨left, hleft⟩ : ∃ left, input.maxFindings - n = left + 1 := ⟨input.maxFindings - n - 1, by omega⟩
          have hrest : input.maxFindings - (n + 1) = left := by omega
          simp [hselects, hbudget, hleft, hrest]
        · have hnone : input.maxFindings - n = 0 := by omega
          have hrest : input.maxFindings - (n + 1) = 0 := by omega
          simp [hselects, hbudget, hnone, hrest]

theorem Treated.eligible {n : Nat} {entry : Entry} (h : Treated fns secondDraw input n entry)
    {shown : DemotableComment} (hshown : entry.shown = some shown)
    (hblocks : isRequestChangesEligible shown.severity shown.category shown.confidence
      input.requestChangesConfidenceFloors input.categoryPrecisionFloors = true) : shown = entry.comment := by
  cases h with
  | untouched comment => exact (Option.some.inj hshown).symm
  | retained comment => exact (Option.some.inj hshown).symm
  | suppressed comment => cases hshown
  | demoted comment verdict demoted hselects hpolicy hdemoted hlower =>
    obtain rfl := Option.some.inj hshown
    rw [hlower] at hblocks
    simp [isRequestChangesEligible, isHighSeverity] at hblocks

theorem decideReviewEvent_eq_comment {comments : List DemotableComment} :
    input.decideReviewEvent comments = .COMMENT ↔
      ∀ comment ∈ comments, isRequestChangesEligible comment.severity comment.category comment.confidence
        input.requestChangesConfidenceFloors input.categoryPrecisionFloors = false := by
  unfold RecheckInput.decideReviewEvent
  split
  · rename_i hany
    obtain ⟨comment, hmem, hblocks⟩ := List.any_eq_true.mp hany
    constructor
    · intro h
      cases h
    · intro h
      rw [h comment hmem] at hblocks
      cases hblocks
  · rename_i hany
    rw [Bool.not_eq_true, List.any_eq_false] at hany
    simpa using hany

theorem failsClosed_of_disabled (hdisabled : input.config.enabled = false) :
    FailsClosed fns secondDraw input (runSelfConsistencyRecheck fns secondDraw input)
      (input.comments.map fun comment => ⟨comment, none, some comment⟩) := by
  have hselects : ∀ comment, input.selects comment = false := by
    intro comment
    rw [RecheckInput.selects, hdisabled, Bool.false_and]
  unfold runSelfConsistencyRecheck
  rw [hdisabled, Bool.not_false, if_pos rfl]
  constructor
  case comments =>
    rw [List.map_map]
    exact List.map_id _
  case treated =>
    intro before entry after hsplit
    have hmem : entry ∈ input.comments.map fun comment => (⟨comment, none, some comment⟩ : Entry) := by
      rw [hsplit]
      exact List.mem_append_right _ List.mem_cons_self
    obtain ⟨comment, -, rfl⟩ := List.mem_map.mp hmem
    exact .untouched comment (hselects comment)
  case shown => simp [List.filterMap_map]
  case verdicts => simp [List.filterMap_map]
  case draws => simp [hselects]
  case bounded => simp
  case event => exact fun h => h

/-- Whatever the provider does, the recheck treats each comment in turn: what it selects stays only on a draw, within the
budget, that confirms it. -/
theorem recheck_fails_closed (fns : ReceiptFunctions) (secondDraw : Nat → SelfConsistencySecondDrawInput → Draw)
    (input : RecheckInput) :
    ∃ entries, FailsClosed fns secondDraw input (runSelfConsistencyRecheck fns secondDraw input) entries := by
  cases henabled : input.config.enabled with
  | false => exact ⟨_, failsClosed_of_disabled henabled⟩
  | true =>
    obtain ⟨entries, hcomments, htreated, hshown, hverdicts, hdraws⟩ :=
      foldl_recheckComment fns secondDraw henabled input.comments 0 {} (Nat.zero_min _).symm
    have hrun : runSelfConsistencyRecheck fns secondDraw input =
        ⟨(input.comments.foldl (recheckComment fns secondDraw input) {}).comments,
          input.decideReviewEvent (input.comments.foldl (recheckComment fns secondDraw input) {}).comments,
          (input.comments.foldl (recheckComment fns secondDraw input) {}).verdicts,
          (input.comments.foldl (recheckComment fns secondDraw input) {}).draws⟩ := by
      unfold runSelfConsistencyRecheck
      rw [henabled, Bool.not_true, if_neg Bool.false_ne_true]
    rw [hrun, hshown, hverdicts, hdraws]
    refine ⟨entries, ?_⟩
    constructor
    case comments => exact hcomments
    case treated =>
      intro before entry after hsplit
      have h := htreated before entry after hsplit
      rwa [Nat.zero_add] at h
    case shown => rfl
    case verdicts => rfl
    case draws => rfl
    case bounded =>
      simp only [List.nil_append, List.length_map, List.length_take]
      omega
    case event =>
      intro hgate
      rw [decideReviewEvent_eq_comment] at hgate ⊢
      intro shown hmem
      obtain ⟨entry, hentry, hsome⟩ := List.mem_filterMap.mp hmem
      obtain ⟨before, after, hsplit⟩ := List.append_of_mem hentry
      cases hblocks : isRequestChangesEligible shown.severity shown.category shown.confidence
          input.requestChangesConfidenceFloors input.categoryPrecisionFloors with
      | false => rfl
      | true =>
        obtain rfl := (htreated before entry after hsplit).eligible hsome hblocks
        have hinput : entry.comment ∈ input.comments := by
          rw [← hcomments]
          exact List.mem_map_of_mem hentry
        rw [hgate entry.comment hinput] at hblocks
        cases hblocks

end NeonDiff.Recheck
