import NeonDiff.Lib.Program
import NeonDiff.Lib.Words
import NeonDiff.Gate.Model
import NeonDiff.Store.Calls

/-! # Retiring a failed head

The status check, the row write, the queue update and the last read are four calls, and other processes run
between them.
-/

namespace NeonDiff.Retire

open NeonDiff.Lib NeonDiff.Lib.JsText NeonDiff.Store

/-! ## Texts -/

/-- What JavaScript and the redactor make of texts. -/
structure Texts where
  toLowerCase : String → String
  redactSecrets : String → String

/-- `[a-z0-9._-]`. -/
def isReasonChar (c : Char) : Bool := Words.isLowerAlnum c || c = '.' || c = '_' || c = '-'

/-- `replaceAll(/[^a-z0-9._-]+/g, "_")`; `inRun` says that the character before was replaced. -/
def underscored (inRun : Bool) : List Char → List Char
  | [] => []
  | c :: cs =>
    if isReasonChar c then c :: underscored false cs
    else if inRun then underscored true cs
    else '_' :: underscored true cs

/-- `replaceAll(/^_+|_+$/g, "")`. -/
def stripUnderscores (cs : List Char) : List Char :=
  ((cs.dropWhile (· = '_')).reverse.dropWhile (· = '_')).reverse

def normalizeRetirementReason (texts : Texts) (reason : String) : String :=
  let lower := texts.toLowerCase (String.ofList (trim reason.toList))
  let normalized := String.ofList ((stripUnderscores (underscored false lower.toList)).take 80)
  if normalized = "" then "operator_acknowledged" else normalized

def retiredPrefix : String := "retired_failed_head:"

def buildRetiredFailedHeadError (texts : Texts) (reason : String) (previousError : Option String) : String :=
  let previous := match truthy previousError with
    | some e => "; previous_error=" ++ texts.redactSecrets e
    | none => ""
  retiredPrefix ++ (normalizeRetirementReason texts reason ++ previous)

/-- `repo#pull@head`. -/
def headText (head : HeadKey) : String := head.repo ++ "#" ++ toString head.pullNumber ++ "@" ++ head.headSha

/-! ## `retireFailedReview` -/

structure RetireFailedReviewInput where
  head : HeadKey
  reason : String
  deriving DecidableEq, Repr

abbrev RetireProg := Prog StoreCall.Value String (Option StoredProcessedReviewRecord)

/-- The row is written, the failed jobs follow, and the row is read back. -/
def retireRow (texts : Texts) (input : RetireFailedReviewInput) (existing : StoredProcessedReviewRecord) : RetireProg :=
  let reason := normalizeRetirementReason texts input.reason
  let retiredError := buildRetiredFailedHeadError texts reason existing.error
  .call (.recordProcessed { head := input.head, status := .skipped, error := some retiredError }) fun _ =>
  .call (.retireFailedReviewQueueJobs input.head retiredError) fun _ =>
  .call (.getProcessedReview input.head) .done

def retireFailedReview (texts : Texts) (input : RetireFailedReviewInput) : RetireProg :=
  .call (.getProcessedReview input.head) fun
    | none => .fail ("Refusing to retire missing review row for " ++ headText input.head)
    | some existing =>
      if existing.status = .failed then retireRow texts input existing
      else match existing.error.filter fun e => existing.status = .skipped && startsWith e retiredPrefix with
        | some retiredError =>
          .call (.retireFailedReviewQueueJobs input.head retiredError) fun _ => .done (some existing)
        | none =>
          .fail ("Refusing to retire " ++ headText input.head ++ ": status is " ++ Gate.statusText existing.status ++
            ", not failed")

/-! ## The shared store -/

/-- The clock of a call and the random id it may use. -/
structure Env where
  now : Int
  uuid : String := ""
  deriving DecidableEq, Repr

/-- Retirements run beside any calls of any other processes. -/
def storeSemantics (texts : Texts) (ι : Type) : Semantics StoreCall.Value ι State Env TimedCall where
  exec _ act env s := (act.exec texts.redactSecrets env.now env.uuid s).toOption
  ambient c s := some (c.call.after texts.redactSecrets c.now c.uuid s)

abbrev RetireWorld (ι : Type) := World StoreCall.Value String (Option StoredProcessedReviewRecord) ι State

/-- Every program of the world is a retirement that has not begun. -/
def startWorld {ι : Type} (texts : Texts) (s : State) (inputs : ι → RetireFailedReviewInput) : RetireWorld ι :=
  ⟨s, fun i => retireFailedReview texts (inputs i)⟩

end NeonDiff.Retire
