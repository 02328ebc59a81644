import NeonDiff.Store.Types
import Mathlib.Data.List.Sort

/-! # Maintainer commands: deciding, recording and polling -/

namespace NeonDiff.Commands

open NeonDiff.Lib NeonDiff.Store

abbrev ReviewCommandAction := ProcessedCommandAction

structure ReviewCommand where
  action : ReviewCommandAction
  commentId : Nat
  author : String
  body : String
  url : Option String := none
  deriving DecidableEq, Repr

def isReviewCommandAction (action : ReviewCommandAction) : Bool :=
  action = .review || action = .reReview || action = .requestChanges

/-- `commands.sort((left, right) => left.commentId - right.commentId)`. -/
def sortByCommentId (commands : List ReviewCommand) : List ReviewCommand :=
  commands.insertionSort fun left right => left.commentId ≤ right.commentId

/-! ## Deciding -/

inductive CommandDecision where
  | none
  | act (command : ReviewCommand) (shouldReview : Bool)
  deriving DecidableEq, Repr

/-- A newer stop wins over every review; draft-only commands wait for both. -/
def decideCommandAction (commands : List ReviewCommand) (hasProcessedCommand : Nat → Bool) : CommandDecision :=
  let pending := commands.filter fun command => !hasProcessedCommand command.commentId
  let latestPending := pending.getLast?
  let latestReview := (pending.filter fun command => isReviewCommandAction command.action).getLast?
  let latestStop := (pending.filter fun command => command.action = .stop).getLast?
  let latest := match latestStop with
    | some stop =>
      if latestReview.all fun review => review.commentId < stop.commentId then some stop
      else latestReview.orElse fun _ => latestPending
    | none => latestReview.orElse fun _ => latestPending
  match latest with
  | none => .none
  | some command => .act command (isReviewCommandAction command.action)

/-! ## Recording -/

inductive ProcessedCommandStatus where
  | triggered | explained | stopped | ignored
  deriving DecidableEq, Repr

structure ProcessedCommandRecord where
  head : HeadKey
  commentId : Nat
  action : ProcessedCommandAction
  status : ProcessedCommandStatus
  author : Option String := none
  url : Option String := none
  deriving DecidableEq, Repr

def ProcessedCommandRecord.key (record : ProcessedCommandRecord) : HeadKey × Nat := (record.head, record.commentId)

abbrev ProcessedCommands := Table ProcessedCommandRecord.key

/-- The head plays no part: a command is used once per pull request. -/
def hasProcessedCommand (table : ProcessedCommands) (head : HeadKey) (commentId : Nat) : Bool :=
  table.rows.any fun row =>
    row.head.repo = head.repo && row.head.pullNumber = head.pullNumber && row.commentId = commentId

def recordProcessedCommand (table : ProcessedCommands) (record : ProcessedCommandRecord) : ProcessedCommands :=
  table.replace record

/-- The record of `recordAndAcknowledgeCommandDecision`. -/
def decisionRecord (head : HeadKey) (command : ReviewCommand) : ProcessedCommandRecord where
  head := head
  commentId := command.commentId
  action := command.action
  status := if command.action = .stop then .stopped else if command.action = .explain then .explained else .triggered
  author := some command.author
  url := command.url

/-! ## Polling one head -/

structure Polled where
  /-- The trusted commands among the comments, in the order they were written. -/
  comments : List ReviewCommand
  processed : ProcessedCommands := .empty
  /-- The decisions of the polls so far, other than `none`. -/
  decisions : List (ReviewCommand × Bool) := []

inductive PollEvent where
  | appear (command : ReviewCommand)
  | poll
  deriving DecidableEq, Repr

section
variable (head : HeadKey)

def Polled.isProcessed (s : Polled) (commentId : Nat) : Bool := hasProcessedCommand s.processed head commentId

def Polled.decide (s : Polled) : CommandDecision :=
  decideCommandAction (sortByCommentId s.comments) (s.isProcessed head)

def Polled.step (s : Polled) : PollEvent → Option Polled
  | .appear command => some { s with comments := s.comments ++ [command] }
  | .poll =>
    match s.decide head with
    | .none => some s
    | .act command shouldReview => some { s with
        processed := recordProcessedCommand s.processed (decisionRecord head command)
        decisions := s.decisions ++ [(command, shouldReview)] }

end

end NeonDiff.Commands
