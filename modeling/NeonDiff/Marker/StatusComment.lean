import NeonDiff.Lib.IsoDate
import NeonDiff.Marker.Lifecycle

/-! # The review status comment

The first line of the body is the marker that the next upsert looks for. The second line is the state marker.
-/

namespace NeonDiff.Marker

open Lib.JsText Lib.IsoDate Job

/-- A lower-case hexadecimal digit. -/
def isHexChar (c : Char) : Bool := c.isDigit || ('a' ≤ c && c ≤ 'f')

/-- A character that no secret rule can match without another one beside it. -/
def isPlainChar (c : Char) : Bool := c.isDigit || ('a' ≤ c && c ≤ 'z')

/-- The functions of other modules that the comment calls. -/
structure CommentTools (Policy : Type) where
  redactSecrets : List Char → List Char
  sanitizePublicConfidenceText : List Char → Option Policy → List Char
  /-- The hexadecimal digest. -/
  sha256 : List Char → List Char
  redact_plain : ∀ text, (∀ c ∈ text, isPlainChar c = true) → redactSecrets text = text
  sha256_length : ∀ text, (sha256 text).length = 64
  sha256_hex : ∀ text, ∀ c ∈ sha256 text, isHexChar c = true

/-- `now` is the clock where the caller gives none. -/
structure BuildReviewStatusCommentInput (Policy : Type) where
  repo : List Char
  pullNumber : Nat
  headSha : List Char
  state : ReviewStatusCommentState
  pullTitle : Option (List Char) := none
  pullUrl : Option (List Char) := none
  reviewUrl : Option (List Char) := none
  details : Option (List Char) := none
  now : Int
  publicConfidencePolicy : Option Policy := none
  runId : Option (List Char) := none
  handoffTarget : Option (List Char) := none

def stateText : ReviewStatusCommentState → List Char
  | .queued => "queued".toList
  | .in_progress => "in_progress".toList
  | .completed => "completed".toList
  | .provider_deferred => "provider_deferred".toList
  | .stale_head => "stale_head".toList
  | .closed_or_merged_before_review => "closed_or_merged_before_review".toList
  | .skipped => "skipped".toList
  | .failed => "failed".toList

def reviewStatusCommentStates : List ReviewStatusCommentState :=
  [.queued, .in_progress, .completed, .provider_deferred, .stale_head, .closed_or_merged_before_review, .skipped,
    .failed]

/-! ## The identity marker -/

def isSlugChar (c : Char) : Bool := c.isAlphanum || c = '_' || c = '.' || c = '-'

/-- `/^[A-Za-z0-9_.-]+\/[A-Za-z0-9_.-]+$/`. -/
def isRepoSlug (repo : List Char) : Bool :=
  match split '/' repo with
  | [owner, name] => owner ≠ [] && owner.all isSlugChar && name ≠ [] && name.all isSlugChar
  | _ => false

/-- `/^[0-9a-f]{40}$/i`. -/
def isHeadSha (headSha : List Char) : Bool :=
  headSha.length = 40 && headSha.all fun c => isHexChar c || ('A' ≤ c && c ≤ 'F')

def decimal (n : Nat) : List Char := Nat.toDigits 10 n

def validateMarkerIdentity (repo : List Char) (pullNumber : Nat) (headSha : List Char) : Except (List Char) Unit :=
  if !isRepoSlug repo then .error ("Invalid review status repo slug: ".toList ++ repo)
  else if pullNumber = 0 then .error ("Invalid review status pull number: ".toList ++ decimal pullNumber)
  else if !isHeadSha headSha then .error ("Invalid review status head SHA: ".toList ++ headSha)
  else .ok ()

def REVIEW_STATUS_MARKER_PREFIX : List Char := "<!-- evaos-code-review-bot:review-status".toList

def REVIEW_STATUS_STATE_MARKER_PREFIX : List Char := "<!-- evaos-code-review-bot:review-status-state".toList

def identityMarker (repo : List Char) (pullNumber : Nat) (headSha : List Char) : List Char :=
  REVIEW_STATUS_MARKER_PREFIX ++ (" repo=".toList ++ repo ++ " pr=".toList ++ decimal pullNumber ++ " sha=".toList ++
    headSha ++ " -->".toList)

def buildReviewStatusMarker (repo : List Char) (pullNumber : Nat) (headSha : List Char) : Except (List Char) (List Char) :=
  match validateMarkerIdentity repo pullNumber headSha with
  | .error message => .error message
  | .ok () => .ok (identityMarker repo pullNumber headSha)

/-! ## Public text -/

/-- What follows the first `-->`. -/
def afterTerminator : List Char → Option (List Char)
  | '-' :: '-' :: '>' :: cs => some cs
  | _ :: cs => afterTerminator cs
  | [] => none

theorem afterTerminator_shorter {cs rest : List Char} (h : afterTerminator cs = some rest) : rest.length < cs.length := by
  induction cs using afterTerminator.induct with
  | case1 tail =>
    cases h
    simp only [List.length_cons]
    omega
  | case2 c tail hcons ih =>
    rw [afterTerminator] at h
    · have hlt := ih h
      rw [List.length_cons]
      omega
    · exact hcons
  | case3 => cases h

/-- `text.replace(/<!--[\s\S]*?-->/g, "[hidden comment removed]")`. -/
def hideComments (cs : List Char) : List Char :=
  match cs with
  | [] => []
  | c :: tail =>
    match _h : if "<!--".toList.isPrefixOf (c :: tail) then afterTerminator (tail.drop 3) else none with
    | some rest => "[hidden comment removed]".toList ++ hideComments rest
    | none => c :: hideComments tail
termination_by cs.length
decreasing_by
  · split at _h
    · have hlt := afterTerminator_shorter _h
      rw [List.length_drop] at hlt
      rw [List.length_cons]
      omega
    · cases _h
  · simp

/-- `text.replace(/^#{1,6}\s+/, "")`. -/
def dropHeading (cs : List Char) : List Char :=
  let marks := (cs.takeWhile (· = '#')).length
  let rest := cs.dropWhile (· = '#')
  if 1 ≤ marks && marks ≤ 6 && rest.head?.any isSpace then trimStart rest else cs

/-- `text.slice(0, n)`; a character that the cut would halve is left out. -/
def sliceFront : Nat → List Char → List Char
  | _, [] => []
  | n, c :: cs =>
    let units := if c.toNat < 0x10000 then 1 else 2
    if units ≤ n then c :: sliceFront (n - units) cs else []

def formatStatus (state : ReviewStatusCommentState) : List Char :=
  (stateText state).map fun c => if c = '_' then ' ' else c

def statusMessage : ReviewStatusCommentState → List Char
  | .queued => "This PR head has entered the evaOS review queue. No final evaOS review has posted for this head yet.".toList
  | .in_progress => "evaOS review is running for this PR head.".toList
  | .completed => "evaOS review completed for this PR head.".toList
  | .provider_deferred => "evaOS review is deferred because the model provider or worker capacity is temporarily unavailable. The worker will retry according to cooldown policy.".toList
  | .stale_head => "evaOS review stopped because this queued head is no longer the live PR head.".toList
  | .closed_or_merged_before_review => "evaOS review stopped because the PR closed or merged before this queued head could be reviewed.".toList
  | .skipped => "evaOS review was intentionally skipped for this head because current repo, PR, or policy state says it should not run.".toList
  | .failed => "evaOS review failed for this head and needs retry or operator attention.".toList

def automationNote : List Char :=
  "Automation note: agents should wait for this comment to reach `completed`, `stale_head`, `closed_or_merged_before_review`, `skipped`, or `failed` before treating evaOS review as settled for this head. `provider_deferred` means evaOS still intends to retry.".toList

section Build

variable {Policy : Type} (tools : CommentTools Policy)

def sanitizePublicText (value : Option (List Char)) (policy : Option Policy) : List Char :=
  match value.getD [] with
  | [] => []
  | text => trim (tools.sanitizePublicConfidenceText (tools.redactSecrets (hideComments text)) policy)

def sanitizePublicUrlText (value : Option (List Char)) : List Char :=
  match value.getD [] with
  | [] => []
  | text => trim (tools.redactSecrets (hideComments text))

def inlineText (cs : List Char) : List Char := dropHeading (trim (collapseSpaces cs))

def formatInlinePublicText (value : Option (List Char)) (policy : Option Policy) : List Char :=
  let normalizedText := inlineText (tools.redactSecrets (hideComments (value.getD [])))
  sliceFront 200 (inlineText (tools.sanitizePublicConfidenceText normalizedText policy))

/-! ## The state marker -/

def hasReviewLifecycleOptIn (input : BuildReviewStatusCommentInput Policy) : Bool :=
  input.runId.isSome || input.handoffTarget.isSome

def buildIssueHash (repo : List Char) (pullNumber : Nat) (headSha : List Char) : List Char :=
  (tools.sha256 (repo ++ "#pr-".toList ++ decimal pullNumber ++ "@".toList ++ headSha)).take 16

def nonEmpty (value : Option (List Char)) : Option (List Char) := value.filter fun text => !text.isEmpty

def buildReviewLifecycleFields (input : BuildReviewStatusCommentInput Policy) : MarkerLifecycleFields where
  role := some .reviewer
  issueHash := some (buildIssueHash tools input.repo input.pullNumber input.headSha)
  outcome := mapReviewOutcome input.state
  runId := nonEmpty input.runId
  handoffTarget := nonEmpty input.handoffTarget

def lifecycleText (input : BuildReviewStatusCommentInput Policy) : List Char :=
  if hasReviewLifecycleOptIn input then
    renderMarkerLifecycleFields tools.redactSecrets (buildReviewLifecycleFields tools input)
  else []

def stateMarker (input : BuildReviewStatusCommentInput Policy) : List Char :=
  REVIEW_STATUS_STATE_MARKER_PREFIX ++ (" status=".toList ++ (stateText input.state ++ (" updated_at=".toList ++
    ((toISOString input.now).toList ++ (lifecycleText tools input ++ " -->".toList)))))

/-! ## The comment -/

structure ReviewStatusComment where
  marker : List Char
  body : List Char
  deriving DecidableEq

def paragraph (label text : List Char) : List (List Char) := if text = [] then [] else [[], label ++ text]

def commentLines (input : BuildReviewStatusCommentInput Policy) : List (List Char) :=
  let updatedAt := (toISOString input.now).toList
  let title := formatInlinePublicText tools input.pullTitle input.publicConfidencePolicy
  let details := sanitizePublicText tools input.details input.publicConfidencePolicy
  let pullUrl := sanitizePublicUrlText tools input.pullUrl
  let reviewUrl := sanitizePublicUrlText tools input.reviewUrl
  [[],
    "## evaOS review status: ".toList ++ formatStatus input.state,
    [],
    "PR: ".toList ++ input.repo ++ "#".toList ++ decimal input.pullNumber ++
      (if title = [] then [] else " - ".toList ++ title),
    "Head: `".toList ++ input.headSha ++ "`".toList,
    "Updated: ".toList ++ updatedAt,
    [],
    statusMessage input.state,
    [],
    automationNote] ++ paragraph "PR URL: ".toList pullUrl ++ paragraph "Review URL: ".toList reviewUrl ++
    paragraph "Details: ".toList details

def buildReviewStatusComment (input : BuildReviewStatusCommentInput Policy) : Except (List Char) ReviewStatusComment :=
  match buildReviewStatusMarker input.repo input.pullNumber input.headSha with
  | .error message => .error message
  | .ok marker =>
    if !isTime input.now then .error "Invalid time value".toList
    else .ok
      { marker
        body := ['\n'].intercalate (marker :: stateMarker tools input :: commentLines tools input) }

end Build

/-! ## Reading the state back -/

def isStatusChar (c : Char) : Bool := c.isAlpha || c = '_'

/-- `status=([A-Za-z_]+)\b` at the front of a text. -/
def statusAt (cs : List Char) : Option (List Char) :=
  if "status=".toList.isPrefixOf cs then
    let word := (cs.drop 7).takeWhile isStatusChar
    let after := (cs.drop 7).dropWhile isStatusChar
    if word = [] || after.head?.any isWordChar then none else some word
  else none

/-- The words of `\bstatus=([A-Za-z_]+)\b` in a text; `boundary` says that no word character stands in front. -/
def statusWords (boundary : Bool) : List Char → List (List Char)
  | [] => []
  | c :: cs => (if boundary then (statusAt (c :: cs)).toList else []) ++ statusWords (!isWordChar c) cs

/-- The pattern at the front of a text. Being greedy, it captures the last word before the `-->`. -/
def statePatternAt (cs : List Char) : Option (List Char) :=
  if "<!--".toList.isPrefixOf cs then
    let inner := trimStart (cs.drop 4)
    if "evaos-code-review-bot:review-status-state".toList.isPrefixOf inner then
      let region := (inner.drop 41).takeWhile (· ≠ '>')
      let after := (inner.drop 41).dropWhile (· ≠ '>')
      if after = [] || (inner.drop 41).head?.any isWordChar || !(['-', '-'].isSuffixOf region) then none
      else (statusWords false region).getLast?
    else none
  else none

/-- `body.match(REVIEW_STATUS_STATE_PATTERN)`: the word of the leftmost match. -/
def matchState : List Char → Option (List Char)
  | [] => none
  | c :: cs => (statePatternAt (c :: cs)).or (matchState cs)

def reviewStatusCommentStateOf (value : List Char) : Option ReviewStatusCommentState :=
  reviewStatusCommentStates.find? fun state => stateText state = value

def parseReviewStatusCommentState (body : Option (List Char)) : Option ReviewStatusCommentState :=
  (body.bind matchState).bind reviewStatusCommentStateOf

end NeonDiff.Marker
