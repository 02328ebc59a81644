import NeonDiff.Lib.Lines
import NeonDiff.Review.Gate

/-! # Authorizing a blocking review by a command -/

namespace NeonDiff.Commands

open NeonDiff.Lib NeonDiff.Lib.JsText NeonDiff.Lib.Words NeonDiff.Review

structure CommandConfig where
  enabled : Bool
  botMentions : List String
  trustedAuthors : List String

/-- A comment of the pull request; `login` is its user's, if it has one. -/
structure IssueCommentCommandSource where
  id : Int
  body : Option String
  login : Option String
  deriving DecidableEq, Repr

structure ReviewEventAuthorizationTarget where
  repo : String
  pullNumber : Nat
  headSha : String

structure ReviewEventAuthorizationReviewRequest where
  commentId : Int
  author : String
  repo : String
  pullNumber : Nat
  headSha : String
  deriving DecidableEq, Repr

inductive AttemptStatus where
  | missing | malformed | untrusted | lookup_failed | consumed | state_error
  deriving DecidableEq, Repr

inductive ReviewEventAuthorizationAttempt where
  | refused (status : AttemptStatus) (author : Option String := none) (commentId : Option Int := none)
  | stale_head (headSha : String) (author : Option String) (commentId : Option Int)
  | eligible (headSha : String) (author : String) (commentId : Int)
  deriving DecidableEq, Repr

/-- `toLowerCase`, which treats the parts of a text between blanks on their own. -/
structure LowerCase where
  toLowerCase : String → String
  ascii : ∀ a : String, (∀ c ∈ a.toList, c.toNat < 128) → toLowerCase a = String.ofList (a.toList.map Char.toLower)
  blank : ∀ a b : String, toLowerCase (a ++ " " ++ b) = toLowerCase a ++ " " ++ toLowerCase b

variable (lower : LowerCase)

/-! ## Parsing -/

def isHexDigit (c : Char) : Bool := c.isDigit || ('a' ≤ c && c ≤ 'f') || ('A' ≤ c && c ≤ 'F')

/-- `/^[0-9a-f]{40}$/i`, in lower case. -/
def normalizeHeadSha (headSha : String) : Option String :=
  if headSha.toList.length = 40 && headSha.toList.all isHexDigit then some (lower.toLowerCase headSha) else none

def isNameChar (c : Char) : Bool := c.isAlphanum || c = '_' || c = '.' || c = '-'

/-- `[A-Za-z0-9_.-]{1,100}`. -/
def isNamePart (part : List Char) : Bool := 1 ≤ part.length && part.length ≤ 100 && part.all isNameChar

def isRepoName (repo : String) : Bool :=
  match split '/' repo.toList with
  | [owner, name] => isNamePart owner && isNamePart name
  | _ => false

/-- `Number.isSafeInteger`. -/
def isSafeInteger (n : Int) : Bool := Json.isSafeInteger n

/-- `/^[1-9]\d*$/`, and the number is safe. -/
def readPullNumber (token : String) : Option Nat :=
  let digits := token.toList
  if digits ≠ [] && digits.all Char.isDigit && digits.head? ≠ some '0' && isSafeInteger (digitsValue digits) then
    some (digitsValue digits)
  else none

inductive ParsedRequestChangesCommand where
  | malformed
  | parsed (repo : String) (pullNumber : Nat) (headSha : String)
  deriving DecidableEq, Repr

/-- The tokens behind the mention and the verb. -/
def parseTarget (tokens : List String) : ParsedRequestChangesCommand :=
  match tokens with
  | [_, _, repoFlag, repo, prFlag, pr, headFlag, head] =>
    if repoFlag ≠ "--repo" || prFlag ≠ "--pr" || headFlag ≠ "--head" then .malformed
    else match isRepoName repo, readPullNumber pr, normalizeHeadSha lower head with
      | true, some pullNumber, some headSha => .parsed repo pullNumber headSha
      | _, _, _ => .malformed
  | _ => .malformed

def mentionsRequestChanges (mentions : List String) (normalized : List Char) : Bool :=
  mentions.any fun mention =>
    includes (lower.toLowerCase mention ++ " request-changes").toList
      (lower.toLowerCase (String.ofList normalized)).toList

/-- The first token is a mention, and the second the verb. -/
def addressesBot (mentions tokens : List String) : Bool :=
  (tokens[0]?.any fun token => mentions.any fun mention => lower.toLowerCase token = lower.toLowerCase mention) &&
  tokens[1]?.any fun token => lower.toLowerCase token = "request-changes"

def parseRequestChangesCommand (body : Option String) (mentions : List String) : Option ParsedRequestChangesCommand :=
  match body.filter (· ≠ "") with
  | none => none
  | some body =>
    let trimmed := trim body.toList
    let normalized := collapseSpaces trimmed
    if !mentionsRequestChanges lower mentions normalized then none
    else if trimmed = [] || trimmed.any (fun c => c = '\r' || c = '\n') then some .malformed
    else
      let tokens := (split ' ' normalized).map String.ofList
      if !addressesBot lower mentions tokens then some .malformed
      else some (parseTarget lower tokens)

/-- `/^[A-Za-z0-9-]{1,39}$/`. -/
def isBoundedAuthor (author : String) : Bool :=
  1 ≤ author.toList.length && author.toList.length ≤ 39 && author.toList.all fun c => c.isAlphanum || c = '-'

def boundedAuthor (author : Option String) : Option String := author.filter isBoundedAuthor

def isExplicitTrustedAuthor (author : String) (config : CommandConfig) : Bool :=
  author ≠ "*" && config.trustedAuthors.contains author

/-! ## Collecting -/

def commentAttempt (config : CommandConfig) (target : ReviewEventAuthorizationTarget)
    (comment : IssueCommentCommandSource) :
    Option (ReviewEventAuthorizationAttempt × Option ReviewEventAuthorizationReviewRequest) :=
  (parseRequestChangesCommand lower comment.body config.botMentions).map fun parsed =>
    let author := boundedAuthor comment.login
    match parsed with
    | .malformed => (.refused .malformed author comment.id, none)
    | .parsed repo pullNumber headSha =>
      match author.filter fun author => isExplicitTrustedAuthor author config with
      | none => (.refused .untrusted author comment.id, none)
      | some trusted =>
        if repo ≠ target.repo || pullNumber ≠ target.pullNumber ||
            some headSha ≠ normalizeHeadSha lower target.headSha then
          (.stale_head headSha author comment.id, none)
        else
          (.eligible headSha trusted comment.id, some ⟨comment.id, trusted, repo, pullNumber, headSha⟩)

structure Collecting where
  attempts : List ReviewEventAuthorizationAttempt := []
  reviewRequests : List ReviewEventAuthorizationReviewRequest := []
  seenCommentIds : List Int := []

def collectComment (config : CommandConfig) (target : ReviewEventAuthorizationTarget) (collecting : Collecting)
    (comment : IssueCommentCommandSource) : Collecting :=
  if !isSafeInteger comment.id || comment.id < 1 || collecting.seenCommentIds.contains comment.id then collecting
  else
    let collecting := { collecting with seenCommentIds := comment.id :: collecting.seenCommentIds }
    match commentAttempt lower config target comment with
    | none => collecting
    | some (attempt, request) =>
      { collecting with
        attempts := collecting.attempts ++ [attempt]
        reviewRequests := collecting.reviewRequests ++ request.toList }

def isEligibleFor (headSha : String) : ReviewEventAuthorizationAttempt → Bool
  | .eligible sha .. =>
    (normalizeHeadSha lower headSha).isSome && normalizeHeadSha lower sha = normalizeHeadSha lower headSha
  | _ => false

def isMissing : ReviewEventAuthorizationAttempt → Bool
  | .refused .missing .. => true
  | _ => false

def selectReviewEventAuthorizationAttempt (attempts : List ReviewEventAuthorizationAttempt) (headSha : String) :
    ReviewEventAuthorizationAttempt :=
  match attempts.reverse.find? (isEligibleFor lower headSha) with
  | some attempt => attempt
  | none => (attempts.reverse.find? fun attempt => !isMissing attempt).getD (.refused .missing)

structure CollectedReviewEventAuthorizationAttempts where
  attempts : List ReviewEventAuthorizationAttempt
  selected : ReviewEventAuthorizationAttempt
  reviewRequests : List ReviewEventAuthorizationReviewRequest

def collectReviewEventAuthorizationAttempts (comments : List IssueCommentCommandSource) (config : CommandConfig)
    (target : ReviewEventAuthorizationTarget) : CollectedReviewEventAuthorizationAttempts :=
  if !config.enabled then ⟨[], .refused .missing, []⟩
  else
    let collecting := comments.foldl (collectComment lower config target) {}
    { attempts := collecting.attempts
      selected := selectReviewEventAuthorizationAttempt lower collecting.attempts target.headSha
      reviewRequests := collecting.reviewRequests }

/-! ## Deciding the event -/

inductive ReviewEventPolicyMode where
  | automatic | trusted_command_only
  deriving DecidableEq, Repr

inductive ReviewEventDecisionReason where
  | automatic | candidate_comment | authorization_missing | authorization_malformed | authorization_untrusted
  | authorization_stale_head | authorization_lookup_failed | authorization_consumed | authorization_state_error
  | authorization_eligible
  deriving DecidableEq, Repr

structure ReviewEventDecision where
  candidateEvent : ReviewEvent
  selectedEvent : ReviewEvent
  mode : ReviewEventPolicyMode
  reason : ReviewEventDecisionReason
  headSha : String
  author : Option String := none
  commentId : Option Int := none
  deriving DecidableEq, Repr

def authorizationReason : AttemptStatus → ReviewEventDecisionReason
  | .missing => .authorization_missing
  | .malformed => .authorization_malformed
  | .untrusted => .authorization_untrusted
  | .lookup_failed => .authorization_lookup_failed
  | .consumed => .authorization_consumed
  | .state_error => .authorization_state_error

namespace ReviewEventAuthorizationAttempt

def author : ReviewEventAuthorizationAttempt → Option String
  | refused _ author _ | stale_head _ author _ => author
  | eligible _ author _ => some author

def commentId : ReviewEventAuthorizationAttempt → Option Int
  | refused _ _ commentId | stale_head _ _ commentId => commentId
  | eligible _ _ commentId => some commentId

end ReviewEventAuthorizationAttempt

def withMetadata (authorization : ReviewEventAuthorizationAttempt) (decision : ReviewEventDecision) :
    ReviewEventDecision :=
  { decision with
    author := authorization.author.map fun author => String.ofList (author.toList.take 100)
    commentId := authorization.commentId.filter fun id => isSafeInteger id && 0 < id }

def decideReviewEventPolicy (mode : ReviewEventPolicyMode) (candidateEvent : ReviewEvent) (headSha : String)
    (authorization : ReviewEventAuthorizationAttempt) : ReviewEventDecision :=
  let base := fun selectedEvent reason =>
    ({ candidateEvent, selectedEvent, mode, reason
       headSha := (normalizeHeadSha lower headSha).getD headSha } : ReviewEventDecision)
  match mode, candidateEvent with
  | .automatic, _ => base candidateEvent .automatic
  | .trusted_command_only, .COMMENT => base .COMMENT .candidate_comment
  | .trusted_command_only, .REQUEST_CHANGES => withMetadata authorization <|
    match authorization with
    | .eligible authorized _ _ =>
      if (normalizeHeadSha lower authorized).isSome &&
          normalizeHeadSha lower authorized = normalizeHeadSha lower headSha then
        base .REQUEST_CHANGES .authorization_eligible
      else base .COMMENT .authorization_stale_head
    | .stale_head .. => base .COMMENT .authorization_stale_head
    | .refused status _ _ => base .COMMENT (authorizationReason status)

def chosenEvent (comments : List IssueCommentCommandSource) (config : CommandConfig)
    (target : ReviewEventAuthorizationTarget) (candidateEvent : ReviewEvent) : ReviewEvent :=
  (decideReviewEventPolicy lower .trusted_command_only candidateEvent target.headSha
    (collectReviewEventAuthorizationAttempts lower comments config target).selected).selectedEvent

end NeonDiff.Commands
