import NeonDiff.Outcome.Observer

/-! # Whose reply dismisses a finding

The record of a pull says once, for all of its findings, whether a human reply stands on one of them.
-/

namespace NeonDiff.Outcome

open NeonDiff.Lib

variable (readers : Readers)

def verdict (input : ObservedPullInput) (finding : ObservedFinding) : FindingOutcomeVerdict :=
  (deriveOutcomeLabel finding (buildObservedPullOutcome readers input)).verdict

/-- A later pull takes the change back. -/
def Reverted (input : ObservedPullInput) : Prop :=
  ∃ pull ∈ input.subsequentPulls, input.isSubsequent readers pull ∧ pullRevertsMerge readers.canonicalize pull input.target

def ChangedLater (input : ObservedPullInput) (finding : ObservedFinding) : Prop :=
  ∃ pull ∈ input.subsequentPulls, input.isSubsequent readers pull ∧
    ¬pullRevertsMerge readers.canonicalize pull input.target ∧ diffTouchesFinding pull.changedLines finding

def RepliedTo (input : ObservedPullInput) (finding : ObservedFinding) : Prop :=
  ∃ comment ∈ input.reviewComments, replyTouchesFinding (input.botLogin.getD defaultBotLogin) comment finding

def commentsOn (path : String) (comments : List ObservedReviewComment) : List ObservedReviewComment :=
  comments.filter fun comment => comment.path = some path

abbrev ObservedPullInput.withComments (input : ObservedPullInput) (comments : List ObservedReviewComment) :
    ObservedPullInput :=
  { input with reviewComments := comments }

/-- The label depends on nothing but the finding: a dismissal has a reply of its own, and comments on other paths
change nothing. -/
structure LabeledByItself (input : ObservedPullInput) (finding : ObservedFinding) : Prop where
  dismissed : verdict readers input finding = .falsePositive →
    RepliedTo input finding ∧ ¬Reverted readers input ∧ ¬ChangedLater readers input finding
  independent : ∀ comments, commentsOn finding.path comments = commentsOn finding.path input.reviewComments →
    verdict readers (input.withComments comments) finding = verdict readers input finding

/-! ## What the record says -/

variable {readers}

@[simp] theorem diffTouchesFinding_merge (into source : LineMap) (finding : ObservedFinding) :
    diffTouchesFinding (mergeLineMap into source) finding =
      (diffTouchesFinding into finding || diffTouchesFinding source finding) := by
  simp [diffTouchesFinding, mergeLineMap]

@[simp] theorem diffTouchesFinding_empty (finding : ObservedFinding) :
    diffTouchesFinding .empty finding = false := rfl

theorem foldl_observePull (readers : Readers) (input : ObservedPullInput) (finding : ObservedFinding) (pulls : List ObservedSubsequentPull)
    (seen : Bool × LineMap) :
    ((pulls.foldl (observePull readers input) seen).1 = true ↔ seen.1 = true ∨ ∃ pull ∈ pulls,
      input.isSubsequent readers pull ∧ pullRevertsMerge readers.canonicalize pull input.target) ∧
    (diffTouchesFinding (pulls.foldl (observePull readers input) seen).2 finding = true ↔
      diffTouchesFinding seen.2 finding = true ∨ ∃ pull ∈ pulls, input.isSubsequent readers pull ∧
        ¬pullRevertsMerge readers.canonicalize pull input.target ∧ diffTouchesFinding pull.changedLines finding) := by
  induction pulls generalizing seen with
  | nil => simp
  | cons pull pulls ih =>
    obtain ⟨hreverted, htouched⟩ := ih (observePull readers input seen pull)
    rw [List.foldl_cons, hreverted, htouched]
    unfold observePull
    cases hlater : input.isSubsequent readers pull with
    | false => simp [hlater]
    | true =>
      cases hreverts : pullRevertsMerge readers.canonicalize pull input.target with
      | true => simp [hlater, hreverts]
      | false => simp [hlater, hreverts, or_assoc]

theorem reverted_iff {input : ObservedPullInput} (hmerged : input.merged = true) :
    (buildObservedPullOutcome readers input).revertedFlaggedChange = true ↔ Reverted readers input := by
  unfold buildObservedPullOutcome
  rw [hmerged]
  have hloop := (foldl_observePull readers input ⟨"", "", 0, "", "", 0⟩ input.subsequentPulls (false, .empty)).1
  simpa [Reverted] using hloop

theorem changedLater_iff {input : ObservedPullInput} (hmerged : input.merged = true) (finding : ObservedFinding) :
    diffTouchesFinding (buildObservedPullOutcome readers input).hotfixLines finding = true ↔
      ChangedLater readers input finding := by
  unfold buildObservedPullOutcome
  rw [hmerged]
  have hloop := (foldl_observePull readers input finding input.subsequentPulls (false, .empty)).2
  simpa [ChangedLater] using hloop

theorem repliedTo_iff (readers : Readers) {input : ObservedPullInput} (hmerged : input.merged = true) :
    (buildObservedPullOutcome readers input).humanThreadResolved = true ↔
      ∃ finding ∈ input.findings, RepliedTo input finding := by
  unfold buildObservedPullOutcome
  rw [hmerged]
  simp only [humanThreadTouchesFinding, Bool.not_true, Bool.false_eq_true, if_false, List.any_eq_true, RepliedTo]
  constructor
  · rintro ⟨comment, hcomment, finding, hfinding, htouches⟩
    exact ⟨finding, hfinding, comment, hcomment, htouches⟩
  · rintro ⟨finding, hfinding, comment, hcomment, htouches⟩
    exact ⟨comment, hcomment, finding, hfinding, htouches⟩

theorem verdict_falsePositive_iff {input : ObservedPullInput} (hmerged : input.merged = true)
    (finding : ObservedFinding) :
    verdict readers input finding = .falsePositive ↔ ¬Reverted readers input ∧ ¬ChangedLater readers input finding ∧
      ∃ other ∈ input.findings, RepliedTo input other := by
  have hfix : (buildObservedPullOutcome readers input).mergedFixLines = .empty := by
    unfold buildObservedPullOutcome
    rw [hmerged]
    rfl
  rw [← reverted_iff hmerged, ← changedLater_iff hmerged, ← repliedTo_iff readers hmerged, verdict,
    deriveOutcomeLabel, hfix, diffTouchesFinding_empty]
  split_ifs <;> simp_all

theorem verdict_truePositive_iff {input : ObservedPullInput} (hmerged : input.merged = true)
    (finding : ObservedFinding) :
    verdict readers input finding = .truePositive ↔ Reverted readers input ∨ ChangedLater readers input finding := by
  have hfix : (buildObservedPullOutcome readers input).mergedFixLines = .empty := by
    unfold buildObservedPullOutcome
    rw [hmerged]
    rfl
  rw [← reverted_iff hmerged, ← changedLater_iff hmerged, verdict, deriveOutcomeLabel, hfix, diffTouchesFinding_empty]
  split_ifs <;> simp_all

theorem verdict_congr {input : ObservedPullInput} (hmerged : input.merged = true)
    {comments : List ObservedReviewComment} {finding : ObservedFinding}
    (h : (∃ other ∈ input.findings, RepliedTo (input.withComments comments) other) ↔
      ∃ other ∈ input.findings, RepliedTo input other) :
    verdict readers (input.withComments comments) finding = verdict readers input finding := by
  have hmerged' : (input.withComments comments).merged = true := hmerged
  have hsame : (verdict readers (input.withComments comments) finding = .falsePositive) ↔
      verdict readers input finding = .falsePositive := by
    rw [verdict_falsePositive_iff hmerged, verdict_falsePositive_iff hmerged', h]
    rfl
  have hsame' : (verdict readers (input.withComments comments) finding = .truePositive) ↔
      verdict readers input finding = .truePositive := by
    rw [verdict_truePositive_iff hmerged, verdict_truePositive_iff hmerged']
    rfl
  revert hsame hsame'
  cases verdict readers input finding <;>
    cases verdict readers (input.withComments comments) finding <;> simp

/-! ## Replies on other paths -/

theorem RepliedTo.path {input : ObservedPullInput} {finding : ObservedFinding} (h : RepliedTo input finding) :
    finding.path ≠ "" := by
  obtain ⟨comment, -, htouches⟩ := h
  simp only [replyTouchesFinding, Bool.and_eq_true, decide_eq_true_eq] at htouches
  obtain ⟨⟨⟨-, hsome⟩, hpath⟩, -⟩ := htouches
  rintro hempty
  rw [hpath, hempty] at hsome
  simp at hsome

theorem repliedTo_congr {input : ObservedPullInput} {comments : List ObservedReviewComment} {finding : ObservedFinding}
    (h : commentsOn finding.path comments = commentsOn finding.path input.reviewComments) :
    RepliedTo (input.withComments comments) finding ↔ RepliedTo input finding := by
  have hon : ∀ {comment : ObservedReviewComment} {botLogin : String}, replyTouchesFinding botLogin comment finding →
      comment.path = some finding.path := by
    intro comment botLogin htouches
    simp only [replyTouchesFinding, Bool.and_eq_true, decide_eq_true_eq] at htouches
    exact htouches.1.2
  have hmem : ∀ comment : ObservedReviewComment, comment.path = some finding.path →
      (comment ∈ comments ↔ comment ∈ input.reviewComments) := by
    intro comment hpath
    have hiff : comment ∈ commentsOn finding.path comments ↔ comment ∈ commentsOn finding.path input.reviewComments := by
      rw [h]
    simpa [commentsOn, hpath] using hiff
  constructor
  · rintro ⟨comment, hcomment, htouches⟩
    exact ⟨comment, (hmem comment (hon htouches)).mp hcomment, htouches⟩
  · rintro ⟨comment, hcomment, htouches⟩
    exact ⟨comment, (hmem comment (hon htouches)).mpr hcomment, htouches⟩

def replyOn (finding : ObservedFinding) : ObservedReviewComment := ⟨some finding.path, some finding.line, none, some 1, none⟩

theorem replyTouchesFinding_replyOn (botLogin : String) {finding : ObservedFinding} (h : finding.path ≠ "") :
    replyTouchesFinding botLogin (replyOn finding) finding = true := by
  simp [replyTouchesFinding, isHumanReply, replyOn, nearLine, outcomeLineWindow, h]

def Unanswered (input : ObservedPullInput) (finding : ObservedFinding) : Prop :=
  ∀ other ∈ input.findings, ¬RepliedTo input other ∧ (other.path ≠ "" → other.path = finding.path)

/-! ## The label of one finding -/

theorem labeledByItself_of_validated {input : ObservedPullInput} (hmerged : input.merged = true)
    {finding : ObservedFinding} (h : Reverted readers input ∨ ChangedLater readers input finding) :
    LabeledByItself readers input finding where
  dismissed hdismissed := by
    obtain ⟨hreverted, hchanged, -⟩ := (verdict_falsePositive_iff hmerged finding).mp hdismissed
    exact absurd h (not_or.mpr ⟨hreverted, hchanged⟩)
  independent comments hcomments := by
    rw [(verdict_truePositive_iff hmerged finding).mpr h]
    have hmerged' : (input.withComments comments).merged = true := hmerged
    exact (verdict_truePositive_iff hmerged' finding).mpr h

theorem labeledByItself_of_replied {input : ObservedPullInput} (hmerged : input.merged = true)
    {finding : ObservedFinding} (hfinding : finding ∈ input.findings) (h : RepliedTo input finding) :
    LabeledByItself readers input finding where
  dismissed hdismissed := by
    obtain ⟨hreverted, hchanged, -⟩ := (verdict_falsePositive_iff hmerged finding).mp hdismissed
    exact ⟨h, hreverted, hchanged⟩
  independent comments hcomments := by
    apply verdict_congr hmerged
    exact ⟨fun _ => ⟨finding, hfinding, h⟩, fun _ => ⟨finding, hfinding, (repliedTo_congr hcomments).mpr h⟩⟩

theorem labeledByItself_of_unanswered {input : ObservedPullInput} (hmerged : input.merged = true)
    {finding : ObservedFinding} (h : Unanswered input finding) : LabeledByItself readers input finding where
  dismissed hdismissed := by
    obtain ⟨-, -, other, hother, hreplied⟩ := (verdict_falsePositive_iff hmerged finding).mp hdismissed
    exact absurd hreplied (h other hother).1
  independent comments hcomments := by
    apply verdict_congr hmerged
    constructor
    · rintro ⟨other, hother, hreplied⟩
      have hpath := (h other hother).2 (RepliedTo.path hreplied)
      rw [← hpath] at hcomments
      exact absurd ((repliedTo_congr hcomments).mp hreplied) (h other hother).1
    · rintro ⟨other, hother, hreplied⟩
      exact absurd hreplied (h other hother).1

theorem unanswered_of_labeledByItself {input : ObservedPullInput} (hmerged : input.merged = true)
    {finding : ObservedFinding} (hvalidated : ¬(Reverted readers input ∨ ChangedLater readers input finding))
    (hreplied : ¬RepliedTo input finding) (h : LabeledByItself readers input finding) : Unanswered input finding := by
  obtain ⟨hreverted, hchanged⟩ := not_or.mp hvalidated
  have hnone : ∀ other ∈ input.findings, ¬RepliedTo input other := by
    intro other hother hother'
    exact hreplied (h.dismissed ((verdict_falsePositive_iff hmerged finding).mpr
      ⟨hreverted, hchanged, other, hother, hother'⟩)).1
  refine fun other hother => ⟨hnone other hother, fun hpath => ?_⟩
  by_contra hne
  -- a reply on the other path would dismiss the finding
  have hsame : commentsOn finding.path (replyOn other :: input.reviewComments) =
      commentsOn finding.path input.reviewComments := by
    simp [commentsOn, replyOn, hne]
  have hmerged' : (input.withComments (replyOn other :: input.reviewComments)).merged = true := hmerged
  have hdismissed := (verdict_falsePositive_iff hmerged' finding).mpr
    ⟨hreverted, hchanged, other, hother, replyOn other, List.mem_cons_self, replyTouchesFinding_replyOn _ hpath⟩
  rw [h.independent _ hsame] at hdismissed
  obtain ⟨-, -, some', hsome, hsome'⟩ := (verdict_falsePositive_iff hmerged finding).mp hdismissed
  exact hnone some' hsome hsome'

/-- Each finding of a merged pull is labeled by itself exactly where each one is validated, has a reply of its own, or
stands with others of its path that none has a reply on. -/
theorem findings_are_labeled_by_themselves (readers : Readers) (input : ObservedPullInput)
    (hmerged : input.merged = true) :
    (∀ finding ∈ input.findings, LabeledByItself readers input finding) ↔
      ∀ finding ∈ input.findings, Reverted readers input ∨ ChangedLater readers input finding ∨
        RepliedTo input finding ∨ Unanswered input finding := by
  constructor
  · intro h finding hfinding
    by_cases hvalidated : Reverted readers input ∨ ChangedLater readers input finding
    · exact hvalidated.imp_right Or.inl
    · by_cases hreplied : RepliedTo input finding
      · exact .inr (.inr (.inl hreplied))
      · exact .inr (.inr (.inr (unanswered_of_labeledByItself hmerged hvalidated hreplied (h finding hfinding))))
  · intro h finding hfinding
    rcases h finding hfinding with hreverted | hchanged | hreplied | hunanswered
    · exact labeledByItself_of_validated hmerged (.inl hreverted)
    · exact labeledByItself_of_validated hmerged (.inr hchanged)
    · exact labeledByItself_of_replied hmerged hfinding hreplied
    · exact labeledByItself_of_unanswered hmerged hunanswered

/-! ## Two findings, one reply -/

def sampleReaders : Readers := ⟨fun _ => none, Char.toUpper⟩

def sampleFinding (path : String) : ObservedFinding := ⟨"finding:" ++ path, path, 42, "P1", "data_loss", 9 / 10⟩

def oneReply : ObservedPullInput where
  merged := true
  mergedAt := none
  mergeCommitSha := none
  pullNumber := 1
  pullTitle := none
  findings := [sampleFinding "src/load.ts", sampleFinding "src/save.ts"]
  subsequentPulls := []
  reviewComments := [⟨some "src/save.ts", some 42, none, some 9, some ⟨"maintainer", some "User"⟩⟩]
  botLogin := none
  evidenceRef := none

/-- A fix of the lines that nobody replied on. -/
def loadFixed : ObservedPullInput :=
  { oneReply with
    subsequentPulls := [⟨2, some "Keep the header", none, none, fun path => if path = "src/load.ts" then [41] else []⟩] }

theorem findings_are_labeled_by_themselves_of_fix :
    loadFixed.merged = true ∧ ∀ finding ∈ loadFixed.findings, LabeledByItself sampleReaders loadFixed finding := by
  refine ⟨rfl, (findings_are_labeled_by_themselves sampleReaders loadFixed rfl).mpr fun finding hfinding => ?_⟩
  have hcases : finding = sampleFinding "src/load.ts" ∨ finding = sampleFinding "src/save.ts" := by
    simpa [loadFixed, oneReply] using hfinding
  rcases hcases with rfl | rfl
  · exact .inr (.inl ⟨_, List.mem_cons_self, by decide, by decide, by decide⟩)
  · exact .inr (.inr (.inl ⟨_, List.mem_cons_self, by decide⟩))

/-- The reply on one finding dismisses the other one too. -/
theorem reply_dismisses_the_other_finding :
    ¬∀ (readers : Readers) (input : ObservedPullInput), input.merged = true →
      ∀ finding ∈ input.findings, LabeledByItself readers input finding := by
  intro h
  have hlabeled := h sampleReaders oneReply rfl (sampleFinding "src/load.ts") List.mem_cons_self
  obtain ⟨⟨comment, hcomment, htouches⟩, -⟩ := hlabeled.dismissed (by decide)
  rw [List.mem_singleton.mp hcomment] at htouches
  revert htouches
  decide

end NeonDiff.Outcome
