import NeonDiff.Lib.Lines
import NeonDiff.Job.Results

/-! # Lifecycle fields of a marker

A marker carries `key=value` tokens between spaces. A value is made into a token by taking out what would end the
token or the marker.
-/

namespace NeonDiff.Marker

open Lib.JsText

inductive MarkerRole where
  | reviewer
  | enricher
  | observer
  deriving DecidableEq, Repr

def MarkerRole.text : MarkerRole → List Char
  | .reviewer => "reviewer".toList
  | .enricher => "enricher".toList
  | .observer => "observer".toList

inductive MarkerOutcome where
  | reviewed
  | enriched
  | skipped
  | deferred
  | stale
  deriving DecidableEq, Repr

def MarkerOutcome.text : MarkerOutcome → List Char
  | .reviewed => "reviewed".toList
  | .enriched => "enriched".toList
  | .skipped => "skipped".toList
  | .deferred => "deferred".toList
  | .stale => "stale".toList

inductive IssueLifecycleState where
  | enriched
  | needs_human_routing
  | needs_repro
  | ready_for_fix_proposal
  | stale_head
  | deferred_by_throttle
  deriving DecidableEq, Repr

def IssueLifecycleState.text : IssueLifecycleState → List Char
  | .enriched => "enriched".toList
  | .needs_human_routing => "needs-human-routing".toList
  | .needs_repro => "needs-repro".toList
  | .ready_for_fix_proposal => "ready-for-fix-proposal".toList
  | .stale_head => "stale-head".toList
  | .deferred_by_throttle => "deferred-by-throttle".toList

structure MarkerLifecycleFields where
  runId : Option (List Char) := none
  role : Option MarkerRole := none
  outcome : Option MarkerOutcome := none
  handoffTarget : Option (List Char) := none
  issueHash : Option (List Char) := none
  deriving DecidableEq

structure ParsedMarkerLifecycleFields extends MarkerLifecycleFields where
  issueLifecycleState : Option IssueLifecycleState := none
  deriving DecidableEq

/-! ## Rendering -/

/-- `[\s>]`. -/
def isUnsafe (c : Char) : Bool := isSpace c || c = '>'

/-- Takes out white space, `>` and pairs of dashes in one pass. -/
def removeUnsafe : List Char → List Char
  | [] => []
  | [c] => if isUnsafe c then [] else [c]
  | c :: d :: cs =>
    if c = '-' ∧ d = '-' then removeUnsafe cs
    else if isUnsafe c then removeUnsafe (d :: cs)
    else c :: removeUnsafe (d :: cs)

section Rendering

variable (redactSecrets : List Char → List Char)

def sanitizeMarkerToken (value : List Char) : List Char := trim (removeUnsafe (redactSecrets value))

/-- The fields in `MARKER_FIELD_ORDER`. -/
def MarkerLifecycleFields.ordered (fields : MarkerLifecycleFields) : List (List Char × Option (List Char)) :=
  [("runId".toList, fields.runId), ("role".toList, fields.role.map MarkerRole.text),
    ("outcome".toList, fields.outcome.map MarkerOutcome.text), ("handoffTarget".toList, fields.handoffTarget),
    ("issueHash".toList, fields.issueHash)]

def renderField (field : List Char × Option (List Char)) : Option (List Char) :=
  match field.2 with
  | none => none
  | some value =>
    if sanitizeMarkerToken redactSecrets value = [] then none
    else some (field.1 ++ '=' :: sanitizeMarkerToken redactSecrets value)

def renderMarkerLifecycleFields (fields : MarkerLifecycleFields) : List Char :=
  let parts := fields.ordered.filterMap (renderField redactSecrets)
  if parts = [] then [] else ' ' :: [' '].intercalate parts

end Rendering

/-! ## Parsing -/

/-- `\w`. -/
def isWordChar (c : Char) : Bool := c.isAlphanum || c = '_'

/-- `(\w+)=(\S+)` at the front of a text: the two groups, and what follows. -/
def fieldAt (cs : List Char) : Option ((List Char × List Char) × List Char) :=
  match cs.takeWhile isWordChar, cs.dropWhile isWordChar with
  | [], _ => none
  | key, '=' :: rest =>
    match rest.takeWhile fun c => !isSpace c with
    | [] => none
    | value => some ((key, value), rest.dropWhile fun c => !isSpace c)
  | _, _ => none

theorem fieldAt_shorter {cs rest : List Char} {field : List Char × List Char} (h : fieldAt cs = some (field, rest)) :
    rest.length < cs.length := by
  unfold fieldAt at h
  have hcs := (List.dropWhile_suffix (l := cs) isWordChar).length_le
  split at h
  · cases h
  · rename_i after hafter _
    have hrest := (List.dropWhile_suffix (l := after) fun c => !isSpace c).length_le
    split at h
    · cases h
    · cases h
      rw [hafter, List.length_cons] at hcs
      omega
  · cases h

/-- `text.matchAll(/(\w+)=(\S+)/g)`. -/
def fieldMatches (cs : List Char) : List (List Char × List Char) :=
  match cs with
  | [] => []
  | c :: tail =>
    match _h : fieldAt (c :: tail) with
    | some (field, rest) => field :: fieldMatches rest
    | none => fieldMatches tail
termination_by cs.length
decreasing_by
  · exact fieldAt_shorter _h
  · simp

def roleOf (value : List Char) : Option MarkerRole :=
  [MarkerRole.reviewer, .enricher, .observer].find? fun role => role.text = value

def outcomeOf (value : List Char) : Option MarkerOutcome :=
  [MarkerOutcome.reviewed, .enriched, .skipped, .deferred, .stale].find? fun outcome => outcome.text = value

def issueLifecycleStateOf (value : List Char) : Option IssueLifecycleState :=
  [IssueLifecycleState.enriched, .needs_human_routing, .needs_repro, .ready_for_fix_proposal, .stale_head,
    .deferred_by_throttle].find? fun state => state.text = value

/-- One match of the loop. A value that is none of the words of its field leaves the field alone. -/
def readField (fields : ParsedMarkerLifecycleFields) (field : List Char × List Char) : ParsedMarkerLifecycleFields :=
  if field.1 = "role".toList then { fields with role := (roleOf field.2).or fields.role }
  else if field.1 = "outcome".toList then { fields with outcome := (outcomeOf field.2).or fields.outcome }
  else if field.1 = "runId".toList then { fields with runId := some field.2 }
  else if field.1 = "handoffTarget".toList then { fields with handoffTarget := some field.2 }
  else if field.1 = "issueHash".toList then { fields with issueHash := some field.2 }
  else if field.1 = "lifecycle".toList then
    { fields with issueLifecycleState := (issueLifecycleStateOf field.2).or fields.issueLifecycleState }
  else fields

def parseMarkerLifecycleFields (marker : List Char) : ParsedMarkerLifecycleFields :=
  (fieldMatches marker).foldl readField {}

/-! ## The outcome of a review -/

def mapReviewOutcome (state : Job.ReviewStatusCommentState) : Option MarkerOutcome :=
  match state with
  | .completed => some .reviewed
  | .skipped => some .skipped
  | .provider_deferred => some .deferred
  | .stale_head | .closed_or_merged_before_review => some .stale
  | .queued | .in_progress | .failed => none

end NeonDiff.Marker
