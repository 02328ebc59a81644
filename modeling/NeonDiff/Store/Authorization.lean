import NeonDiff.Store.Claims

/-! # Readiness rows, and the one-shot ledger of owner authorizations -/

namespace NeonDiff.Store

open NeonDiff.Lib NeonDiff.Lib.JsText

/-! ## Readiness -/

/-- `mapReviewReadinessRow`. -/
def mapReviewReadinessRow (row : ReviewReadinessRecord) : ReviewReadinessRecord :=
  { row with
    reason := truthy row.reason
    reviewUrl := truthy row.reviewUrl
    commandCommentId := row.commandCommentId.filter (· ≠ 0) }

def getReviewReadiness (s : State) (head : HeadKey) : Option ReviewReadinessRecord :=
  (s.readiness.find? head).map mapReviewReadinessRow

structure ReadinessInput where
  head : HeadKey
  state : ReviewReadinessState
  reason : Option String := none
  event : Option ReviewEvent := none
  reviewUrl : Option String := none
  commandAction : Option ProcessedCommandAction := none
  commandCommentId : Option Nat := none
  clearCommandMetadata : Bool := false
  deriving DecidableEq, Repr

/-- `repo.split("/")[0]`. -/
def repoOrg (repo : String) : String := String.ofList ((split '/' repo.toList).headD [])

def validateReviewQueueInput (head : HeadKey) (priority : Option Int) (commentId : Option Nat) : Except String Unit :=
  if repoOrg head.repo = "" then .error "repo must be an owner/repo name"
  else if head.pullNumber < 1 then .error "pullNumber must be a positive integer"
  else if trim head.headSha.toList = [] then .error "headSha must be non-empty"
  else if priority.any (· < 0) then .error "priority must be a non-negative integer"
  else if commentId = some 0 then .error "commentId must be a positive integer"
  else .ok ()

/-- `text.slice(0, n)`, which counts UTF-16 units; half of a character is stored as U+FFFD. -/
def storedFront : Nat → List Char → List Char
  | _, [] => []
  | n, c :: cs =>
    let units := if c.toNat < 0x10000 then 1 else 2
    if units ≤ n then c :: storedFront (n - units) cs
    else if n = 0 then [] else ['\ufffd']

section
variable (redactSecrets : String → String)

/-- `redactSecrets(text).trim().slice(0, 500)`. -/
def redacted500 (text : String) : String := String.ofList (storedFront 500 (trim (redactSecrets text).toList))

/-- The row that `recordReviewReadiness` leaves over `existing`. -/
def readinessRow (input : ReadinessInput) (now : Int) (existing : Option ReviewReadinessRecord) :
    ReviewReadinessRecord where
  head := input.head
  state := input.state
  reason := (truthy input.reason).map (redacted500 redactSecrets)
  event := input.event.orElse fun _ => existing.bind (·.event)
  reviewUrl := ((truthy input.reviewUrl).map (redacted500 redactSecrets)).orElse fun _ => existing.bind (·.reviewUrl)
  commandAction := if input.clearCommandMetadata then none
    else input.commandAction.orElse fun _ => existing.bind (·.commandAction)
  commandCommentId := if input.clearCommandMetadata then none
    else input.commandCommentId.orElse fun _ => existing.bind (·.commandCommentId)
  createdAt := (existing.map (·.createdAt)).getD now
  updatedAt := now

/-- A write that would change nothing but the time is dropped. -/
def sameReadiness (a b : ReviewReadinessRecord) : Bool :=
  a.state = b.state && a.reason = b.reason && a.event = b.event && a.reviewUrl = b.reviewUrl &&
  a.commandAction = b.commandAction && a.commandCommentId = b.commandCommentId

def recordReviewReadiness (input : ReadinessInput) (now : Int) (s : State) : Outcome Unit :=
  match validateReviewQueueInput input.head none input.commandCommentId with
  | .error e => .error e
  | .ok () =>
    let existing := getReviewReadiness s input.head
    let row := readinessRow redactSecrets input now existing
    if existing.any (sameReadiness row) then .ok ((), s)
    else .ok ((), { s with readiness := s.readiness.upsert row })

end

/-! ## The ledger -/

/-- The characters of `[A-Za-z0-9_.-]`. -/
def isRepoNameChar (c : Char) : Bool :=
  ('A' ≤ c && c ≤ 'Z') || ('a' ≤ c && c ≤ 'z') || ('0' ≤ c && c ≤ '9') || c = '_' || c = '.' || c = '-'

def validateRepoName (repo : String) (label : String) : Except String Unit :=
  match split '/' repo.toList with
  | [owner, name] =>
    if owner = [] || name = [] || owner = ['.'] || owner = ['.', '.'] || name = ['.'] || name = ['.', '.'] ||
        !owner.all isRepoNameChar || !name.all isRepoNameChar then .error (label ++ " must be an owner/repo name")
    else .ok ()
  | _ => .error (label ++ " must be an owner/repo name")

/-- `/^[A-Za-z0-9_.-]{1,100}\/[A-Za-z0-9_.-]{1,100}$/`, once `validateRepoName` passed. -/
def repoPartsFit (repo : String) : Bool := (split '/' repo.toList).all fun part => part.length ≤ 100

/-- `/^[0-9a-f]{40}$/i`. -/
def isHeadSha (sha : String) : Bool :=
  sha.toList.length = 40 && sha.toList.all fun c =>
    ('0' ≤ c && c ≤ '9') || ('a' ≤ c && c ≤ 'f') || ('A' ≤ c && c ≤ 'F')

def validateReviewEventAuthorizationCoordinates (head : HeadKey) : Except String Unit :=
  match validateRepoName head.repo "repo" with
  | .error e => .error e
  | .ok () =>
    if !repoPartsFit head.repo then .error "repo must be an owner/repo name"
    else if head.pullNumber < 1 then .error "pullNumber must be a positive integer"
    else if !isHeadSha head.headSha then .error "headSha must be a 40-character hexadecimal SHA"
    else .ok ()

/-- `/^[A-Za-z0-9-]{1,39}$/`. -/
def isAuthorName (author : String) : Bool :=
  author ≠ "" && author.toList.length ≤ 39 && author.toList.all fun c => isRepoNameChar c && c ≠ '_' && c ≠ '.'

def validateReviewEventAuthorizationConsumption (head : HeadKey) (commentId : Nat) (author : String) :
    Except String Unit :=
  match validateReviewEventAuthorizationCoordinates head with
  | .error e => .error e
  | .ok () =>
    if commentId < 1 then .error "commentId must be a positive integer"
    else if !isAuthorName author then .error "author must be a non-empty string"
    else .ok ()

/-- The ledger key: a validated sha has only ASCII letters to lower. -/
def ledgerKey (head : HeadKey) : HeadKey :=
  { head with headSha := String.ofList (head.headSha.toList.map Char.toLower) }

def tryConsumeReviewEventAuthorization (head : HeadKey) (commentId : Nat) (author : String) (now : Int) (s : State) :
    Outcome Bool :=
  match validateReviewEventAuthorizationConsumption head commentId author with
  | .error e => .error e
  | .ok () =>
    match s.consumptions.insert? { head := ledgerKey head, commentId, author, consumedAt := now } with
    | none => .ok (false, s)
    | some consumptions => .ok (true, { s with consumptions := consumptions })

/-- Reads the ledger without renewing it. -/
def getReviewEventAuthorizationConsumption (head : HeadKey) (s : State) :
    Except String (Option ReviewEventAuthorizationConsumptionRecord) :=
  match validateReviewEventAuthorizationCoordinates head with
  | .error e => .error e
  | .ok () => .ok (s.consumptions.find? (ledgerKey head))

structure AuthorizedPostedInput where
  head : HeadKey
  commentId : Nat
  author : String
  event : ReviewEvent
  reviewUrl : String
  baseRef : Option String := none
  baseSha : Option String := none
  diffFingerprint : Option String := none
  preserveExistingBlocking : Bool := false
  deriving DecidableEq, Repr

/-- A posted, unqualified REQUEST_CHANGES that a COMMENT must not replace. -/
def preservesBlocking (input : AuthorizedPostedInput) (existing : Option StoredProcessedReviewRecord) : Bool :=
  input.preserveExistingBlocking &&
  existing.any fun row => row.status = .posted && row.event = some .requestChanges && row.error.isNone

/-- The record that the upsert of `recordAuthorizedReviewPosted` writes. -/
def authorizedPostedRecord (input : AuthorizedPostedInput) : ProcessedReviewRecord where
  head := input.head
  status := .posted
  event := some input.event
  reviewUrl := some input.reviewUrl
  baseRef := input.baseRef
  baseSha := input.baseSha
  diffFingerprint := input.diffFingerprint

def authorizedReadiness (input : AuthorizedPostedInput) (preserve : Bool)
    (existing : Option StoredProcessedReviewRecord) (now : Int) (before : Option ReviewReadinessRecord) :
    ReviewReadinessRecord :=
  let event := if preserve then .requestChanges else input.event
  { head := input.head
    state := if event = .requestChanges then .needsFix else .readyForHuman
    reason := some (if event = .requestChanges then "request_changes_review_posted" else "comment_review_posted")
    event := some event
    reviewUrl := if preserve then existing.bind (·.reviewUrl) else some input.reviewUrl
    commandAction := some .requestChanges
    commandCommentId := some input.commentId
    createdAt := (before.map (·.createdAt)).getD now
    updatedAt := now }

/-- Links a consumed owner authorization to the review it created and records the head, in one transaction. -/
def recordAuthorizedReviewPosted (input : AuthorizedPostedInput) (now : Int) (s : State) : Outcome Unit :=
  match validateReviewEventAuthorizationConsumption input.head input.commentId input.author with
  | .error e => .error e
  | .ok () =>
    if !startsWith input.reviewUrl "https://github.com/" then .error "reviewUrl must be a GitHub URL"
    else
      let existing := getProcessedReview s input.head
      let preserve := preservesBlocking input existing
      let isReceipt (c : ReviewEventAuthorizationConsumptionRecord) : Bool :=
        c.head = ledgerKey input.head && c.commentId = input.commentId && c.author = input.author
      if (s.consumptions.find? (ledgerKey input.head)).any isReceipt then
        .ok ((), {
          s with
          consumptions := s.consumptions.update
            (fun c => if isReceipt c then
              { head := c.head, commentId := c.commentId, author := c.author, consumedAt := c.consumedAt
                postedEvent := some input.event, reviewUrl := some input.reviewUrl, postedAt := some now } else c)
            (fun c => by split <;> rfl)
          processed := if preserve then s.processed else
            s.processed.upsert (recordedRow (authorizedPostedRecord input) now (s.processed.find? input.head))
          readiness := s.readiness.upsert
            (authorizedReadiness input preserve existing now (getReviewReadiness s input.head))
          claims := s.claims.delete fun c => c.head = input.head })
      else .error "refusing to record an authorized review without its exact consumption row"

structure AuthorizedNoopInput where
  head : HeadKey
  commentId : Nat
  author : String
  reason : String
  deriving DecidableEq, Repr

/-- What the no-op found in the readiness row that lets it settle. -/
inductive NoopReadiness where
  | advisory | scheduler | incident
  deriving DecidableEq, Repr

def noopReadiness (input : AuthorizedNoopInput) (c : ReviewEventAuthorizationConsumptionRecord)
    (processed : Option StoredProcessedReviewRecord) (readiness : Option ReviewReadinessRecord) :
    Option NoopReadiness :=
  let url := processed.bind (·.reviewUrl)
  let matchingAdvisory := readiness.any fun r =>
    r.state = .readyForHuman && r.event = some .comment && r.reviewUrl = url
  let matchingScheduler := readiness.any fun r =>
    (r.state = .queued || r.state = .reviewing) && r.event = some .comment && r.reviewUrl = url &&
    r.commandAction = some .requestChanges && r.commandCommentId = some input.commentId
  let recoverableIncident := c.incidentAt.isSome && (truthy c.incidentError).isSome &&
    (c.incidentCommentId.filter (· ≠ 0)).isSome && readiness.any fun r =>
      r.state = .failed && r.reason = c.incidentError && r.commandAction = some .requestChanges &&
      r.commandCommentId = c.incidentCommentId
  if !(processed.any fun p => p.status = .posted && p.event = some .comment && p.reviewUrl.isSome) then none
  else if recoverableIncident then some .incident
  else if matchingScheduler then some .scheduler
  else if matchingAdvisory then some .advisory
  else none

/-- Settles an owner authorization whose review already stands as a posted COMMENT. -/
def recordAuthorizedReviewNoop (input : AuthorizedNoopInput) (now : Int) (s : State) : Outcome Bool :=
  match validateReviewEventAuthorizationConsumption input.head input.commentId input.author with
  | .error e => .error e
  | .ok () =>
    match s.consumptions.find? (ledgerKey input.head) with
    | none => .error "refusing to record an authorized review no-op without its exact consumption row"
    | some c =>
      if c.postedAt.isSome || c.terminalAt.isSome then .ok (false, s)
      else if c.commentId ≠ input.commentId || c.author ≠ input.author then
        .error "refusing to record an authorized review no-op for a different authorization"
      else
        let processed := getProcessedReview s input.head
        match noopReadiness input c processed (getReviewReadiness s input.head) with
        | none => .error "authorized review no-op requires an existing posted COMMENT and matching readiness"
        | some found =>
          -- the two guarded updates that follow hit the rows that were just read
          .ok (true, {
            s with
            consumptions := s.consumptions.update
              (fun r => if r.head = c.head then
                { r with
                  terminalOutcome := some "no_op", terminalReason := some input.reason, terminalAt := some now
                  incidentError := none, incidentCommentId := none, incidentAt := none } else r)
              (fun r => by split <;> rfl)
            readiness := if found = .advisory then s.readiness else s.readiness.update
              (fun r => if r.head = input.head then
                { r with
                  state := .readyForHuman, reason := some "comment_review_posted", event := some .comment
                  reviewUrl := processed.bind (·.reviewUrl), commandAction := some .requestChanges
                  commandCommentId := some input.commentId, updatedAt := now } else r)
              (fun r => by split <;> rfl)
            claims := s.claims.delete fun c => c.head = input.head })

structure AuthorizationIncidentInput where
  head : HeadKey
  triggerCommentId : Nat
  error : String
  deriving DecidableEq, Repr

/-- The readiness row of an incident: the event and the URL are cleared. -/
def incidentReadiness (input : AuthorizationIncidentInput) (error : String) (now : Int)
    (before : Option ReviewReadinessRecord) : ReviewReadinessRecord where
  head := input.head
  state := .failed
  reason := some error
  commandAction := some .requestChanges
  commandCommentId := some input.triggerCommentId
  createdAt := (before.map (·.createdAt)).getD now
  updatedAt := now

/-- Marks an authorization that was consumed without a durable outcome. -/
def recordReviewEventAuthorizationIncident (redactSecrets : String → String) (input : AuthorizationIncidentInput)
    (now : Int) (s : State) : Outcome Bool :=
  match validateReviewEventAuthorizationCoordinates input.head with
  | .error e => .error e
  | .ok () =>
    let error := redacted500 redactSecrets input.error
    if input.triggerCommentId < 1 then .error "triggerCommentId must be a positive integer"
    else if error = "" then .error "error must be a non-empty string"
    else match s.consumptions.find? (ledgerKey input.head) with
      | none => .error "refusing to record an authorization incident without a consumption row"
      | some c =>
        if c.postedAt.isSome || c.terminalAt.isSome then .ok (false, s)
        else .ok (true, {
          s with
          consumptions := s.consumptions.update
            (fun r => if r.head = c.head then
              { r with
                incidentError := some error, incidentCommentId := some input.triggerCommentId
                incidentAt := some now } else r)
            (fun r => by split <;> rfl)
          readiness := s.readiness.upsert
            (incidentReadiness input error now (getReviewReadiness s input.head)) })

end NeonDiff.Store
