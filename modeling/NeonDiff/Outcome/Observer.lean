import NeonDiff.Lib.Words
import NeonDiff.Outcome.Labels

/-! # The outcome observer

What became of the findings of a merged pull: the later pulls and the review comments as GitHub answers them, the
record that is made of both, and the label that each finding gets from the record.
-/

namespace NeonDiff.Outcome

open NeonDiff.Lib NeonDiff.Lib.JsText NeonDiff.Lib.Words

def outcomeLineWindow : Int := 3

structure ObservedFinding where
  fingerprint : String
  path : String
  line : Int
  severity : String
  category : String
  confidence : ℚ
  deriving DecidableEq

/-- The changed lines of each path; a path without an entry has none. -/
abbrev LineMap := String → List Int

def LineMap.empty : LineMap := fun _ => []

structure ObservedPullOutcome where
  merged : Bool
  revertedFlaggedChange : Bool
  hotfixLines : LineMap
  mergedFixLines : LineMap
  humanThreadResolved : Bool
  evidenceRef : Option String := none

inductive OutcomeLedgerPostMergeStatus where
  | unknown | notMerged | noIncidentSeen | regressionSeen | hotfixed | reverted
  deriving DecidableEq, Repr

inductive RiskClaimStatus where
  | validated | dismissed | unvalidated
  deriving DecidableEq, Repr

structure DerivedOutcomeLabel where
  labelSource : FindingOutcomeLabelSource
  verdict : FindingOutcomeVerdict
  postMergeStatus : OutcomeLedgerPostMergeStatus
  riskClaimStatus : RiskClaimStatus
  deriving DecidableEq, Repr

def nearLine (line : Int) (finding : ObservedFinding) : Bool := (line - finding.line).natAbs ≤ outcomeLineWindow

def diffTouchesFinding (lines : LineMap) (finding : ObservedFinding) : Bool :=
  (lines finding.path).any fun line => nearLine line finding

def deriveOutcomeLabel (finding : ObservedFinding) (observed : ObservedPullOutcome) : DerivedOutcomeLabel :=
  if observed.revertedFlaggedChange then ⟨.revert, .truePositive, .reverted, .validated⟩
  else if diffTouchesFinding observed.hotfixLines finding then ⟨.hotfix, .truePositive, .hotfixed, .validated⟩
  else if diffTouchesFinding observed.mergedFixLines finding then
    ⟨.mergedFix, .truePositive, .regressionSeen, .validated⟩
  else if observed.humanThreadResolved then ⟨.humanThread, .falsePositive, .noIncidentSeen, .dismissed⟩
  else ⟨.noneObserved, .unvalidated, .noIncidentSeen, .unvalidated⟩

/-! ## Reverts -/

structure ObservedSubsequentPull where
  pullNumber : Int
  title : Option String
  body : Option String
  mergedAt : Option String
  changedLines : LineMap

def isWordChar (c : Char) : Bool := c.isAlphanum || c = '_'

/-- `\b` between the character before and the text behind. -/
def atBoundary (before : Option Char) (rest : List Char) : Bool := before.any isWordChar != rest.head?.any isWordChar

section
variable (canonicalize : Char → Char)

/-- What follows `word` at the front of the text, the case of letters aside. -/
def afterWord (word text : List Char) : Option (List Char) :=
  if (text.take word.length).map canonicalize = word.map canonicalize then some (text.drop word.length) else none

/-- `^word\b`, from the character before on: what follows. -/
def afterWholeWord (before : Option Char) (word : String) (text : List Char) : Option (List Char) :=
  if atBoundary before text then
    (afterWord canonicalize word.toList text).filter fun rest => atBoundary word.toList.getLast? rest
  else none

/-- Whether a pattern matches somewhere; it is given the character before and the text from there on. -/
def matchesSomewhere (pattern : Option Char → List Char → Bool) (before : Option Char) : List Char → Bool
  | [] => pattern before []
  | c :: cs => pattern before (c :: cs) || matchesSomewhere pattern (some c) cs

/-- `(?:\s*\(#\d+\))?\s*$`. -/
def isPullTail (text : List Char) : Bool :=
  let rest := trimStart text
  rest = [] || (match rest with
    | '(' :: '#' :: digits => match digits.dropWhile Char.isDigit with
      | ')' :: tail => (digits.takeWhile Char.isDigit).length > 0 && trimStart tail = []
      | _ => false
    | _ => false)

def revertTitleMatchesTarget (candidateTitle : String) (targetTitle : Option String) : Bool :=
  let target := trim ((targetTitle.getD "").toList)
  if target.length = 0 then false
  else match afterWord canonicalize "revert".toList (trim candidateTitle.toList) with
    | none => false
    | some rest => match trimStart rest with
      | '"' :: quoted =>
        rest.head?.any isSpace && (match afterWord canonicalize target quoted with
          | some ('"' :: tail) => isPullTail tail
          | _ => false)
      | _ => false

/-- `#n\b` at the front. -/
def isPullReference (pullNumber : Int) (text : List Char) : Bool :=
  let reference := ('#' :: (toString pullNumber).toList)
  reference.isPrefixOf text && atBoundary reference.getLast? (text.drop reference.length)

/-- `\breverts?\b[^\n#]*#n\b`: the optional repository name before the number is part of what may stand there. -/
def revertsBody (pullNumber : Int) (before : Option Char) (text : List Char) : Bool :=
  ["revert", "reverts"].any fun word =>
    (afterWholeWord canonicalize before word text).any fun rest =>
      isPullReference pullNumber (rest.dropWhile fun c => c ≠ '\n' && c ≠ '#')

/-- `\brevert\b[^\n]*\(#n\)`. -/
def revertTitleTail (pullNumber : Int) (before : Option Char) (text : List Char) : Bool :=
  (afterWholeWord canonicalize before "revert" text).any fun rest =>
    includes ("(#" ++ toString pullNumber ++ ")").toList (rest.takeWhile (· ≠ '\n'))

def revertReferencesPull (text : List Char) (pullNumber : Int) : Bool :=
  matchesSomewhere (revertsBody canonicalize pullNumber) none text ||
    matchesSomewhere (revertTitleTail canonicalize pullNumber) none text

structure RevertTarget where
  pullNumber : Int
  pullTitle : Option String
  mergeCommitSha : Option String

def pullRevertsMerge (pull : ObservedSubsequentPull) (target : RevertTarget) : Bool :=
  let title := pull.title.getD ""
  let body := pull.body.getD ""
  let isRevertShaped := (afterWholeWord canonicalize none "revert" (trim title.toList)).isSome ||
    matchesSomewhere (fun _ text => (afterWord canonicalize "this reverts commit".toList text).isSome) none body.toList
  isRevertShaped &&
    (revertTitleMatchesTarget canonicalize title target.pullTitle ||
      revertReferencesPull canonicalize (title ++ "\n" ++ body).toList target.pullNumber ||
      target.mergeCommitSha.any fun sha => sha ≠ "" && includes sha.toList body.toList)

end

/-! ## Human replies -/

structure CommentUser where
  login : String
  type : Option String
  deriving DecidableEq, Repr

structure ObservedReviewComment where
  path : Option String
  line : Option Int
  originalLine : Option Int
  inReplyToId : Option Int
  user : Option CommentUser
  deriving DecidableEq, Repr

def defaultBotLogin : String := "evaos-code-review-bot[bot]"

def isBotCommandComment (user : CommentUser) (botLogin : String) : Bool :=
  user.type = some "Bot" || user.login = botLogin

def isHumanReply (botLogin : String) (comment : ObservedReviewComment) : Bool :=
  comment.inReplyToId.isSome && !comment.user.any fun user => isBotCommandComment user botLogin

def replyTouchesFinding (botLogin : String) (comment : ObservedReviewComment) (finding : ObservedFinding) : Bool :=
  isHumanReply botLogin comment && comment.path.any (· ≠ "") && comment.path = some finding.path &&
    (comment.line.or comment.originalLine).any fun line => nearLine line finding

def humanThreadTouchesFinding (comments : List ObservedReviewComment) (findings : List ObservedFinding)
    (botLogin : Option String) : Bool :=
  comments.any fun comment => findings.any (replyTouchesFinding (botLogin.getD defaultBotLogin) comment)

/-! ## The record of a pull -/

structure ObservedPullInput where
  merged : Bool
  mergedAt : Option String
  mergeCommitSha : Option String
  pullNumber : Int
  pullTitle : Option String
  findings : List ObservedFinding
  subsequentPulls : List ObservedSubsequentPull
  reviewComments : List ObservedReviewComment
  botLogin : Option String
  evidenceRef : Option String

def ObservedPullInput.target (input : ObservedPullInput) : RevertTarget :=
  ⟨input.pullNumber, input.pullTitle, input.mergeCommitSha⟩

/-- What JavaScript makes of times and of the case of letters. -/
structure Readers where
  dateParse : String → Option Int
  canonicalize : Char → Char

/-- Not the pull itself, nor one that is known to have merged before it. -/
def ObservedPullInput.isSubsequent (readers : Readers) (input : ObservedPullInput) (pull : ObservedSubsequentPull) :
    Bool :=
  pull.pullNumber ≠ input.pullNumber &&
    match (input.mergedAt.filter (· ≠ "")).bind readers.dateParse, (pull.mergedAt.filter (· ≠ "")).bind readers.dateParse with
    | some targetMergedMs, some candidateMs => targetMergedMs < candidateMs
    | _, _ => true

def mergeLineMap (into source : LineMap) : LineMap := fun path => into path ++ source path

/-- One round of the loop over the later pulls. -/
def observePull (readers : Readers) (input : ObservedPullInput) (seen : Bool × LineMap)
    (pull : ObservedSubsequentPull) : Bool × LineMap :=
  if !input.isSubsequent readers pull then seen
  else if pullRevertsMerge readers.canonicalize pull input.target then (true, seen.2)
  else (seen.1, mergeLineMap seen.2 pull.changedLines)

def buildObservedPullOutcome (readers : Readers) (input : ObservedPullInput) : ObservedPullOutcome :=
  if !input.merged then ⟨false, false, .empty, .empty, false, none⟩
  else
    let (revertedFlaggedChange, hotfixLines) := input.subsequentPulls.foldl (observePull readers input) (false, .empty)
    { merged := true
      revertedFlaggedChange
      hotfixLines
      mergedFixLines := .empty
      humanThreadResolved := humanThreadTouchesFinding input.reviewComments input.findings input.botLogin
      evidenceRef := input.evidenceRef.filter (· ≠ "") }

/-! ## The labels of a pass -/

structure ScheduledObserveTarget where
  repo : String
  pullNumber : Int
  headSha : String
  findings : List ObservedFinding

def targetRecords (target : ScheduledObserveTarget) (outcome : ObservedPullOutcome) (observedAt : String) :
    List FindingOutcomeLabelRecord :=
  if !outcome.merged then []
  else target.findings.map fun finding =>
    let derived := deriveOutcomeLabel finding outcome
    { fingerprint := finding.fingerprint
      repo := target.repo
      pullNumber := target.pullNumber
      headSha := target.headSha
      severity := finding.severity
      category := finding.category
      confidence := finding.confidence
      labelSource := derived.labelSource
      verdict := derived.verdict
      observedAt
      evidenceRef := outcome.evidenceRef }

end NeonDiff.Outcome
