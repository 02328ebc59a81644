import Mathlib.Logic.Function.Basic
import NeonDiff.Lib.Transition
import NeonDiff.Lib.Words

/-! # Sticky comments

An upsert looks for its comment page by page, and then updates it or creates one in a call of its own. Between any
two calls other writers make theirs.
-/

namespace NeonDiff.Sticky

open NeonDiff.Lib NeonDiff.Lib.Words

/-! ## Authors and markers -/

/-- The type is `Bot` or `User`. -/
structure GitHubAuthorIdentity where
  login : String
  type : String
  deriving DecidableEq, Repr

structure GitHubUser where
  login : String
  type : Option String
  deriving DecidableEq, Repr

structure IssueCommentSummary where
  id : Nat
  body : Option String
  user : Option GitHubUser
  deriving DecidableEq, Repr

def isAuthoredBy (user : Option GitHubUser) (identity : GitHubAuthorIdentity) : Bool :=
  user.any fun u => u.type = some identity.type && u.login = identity.login

/-- What `GET /user` answered to the client's token; a login that is not a text is `none`. -/
structure UserResponse where
  login : Option String
  type : Option String

structure Client where
  botLogin : String
  canPostAsApp : Bool
  token : Option String
  /-- Nothing stands for a request that failed. -/
  user : Option UserResponse := none

namespace Client

def hasToken (client : Client) : Bool := client.token.any (· ≠ "")

def canPost (client : Client) : Bool := client.canPostAsApp || client.hasToken

def postingIdentity (client : Client) : GitHubAuthorIdentity :=
  let fallback : GitHubAuthorIdentity := ⟨client.botLogin, "Bot"⟩
  if client.canPostAsApp || !client.hasToken then fallback
  else match client.user with
    | none => fallback
    | some user => match user.login.filter (· ≠ "") with
      | none => fallback
      | some login => ⟨login, if user.type = some "Bot" then "Bot" else "User"⟩

end Client

def carriesMarker (toLowerCase : String → String) (marker : String) (body : Option String) : Bool :=
  let issueMarker := includes " issue=".toList marker.toList
  let normalizedMarker := if issueMarker then toLowerCase marker else marker
  body.any fun body => includes normalizedMarker.toList (if issueMarker then toLowerCase body else body).toList

/-! ## The comments of an issue -/

/-- Listed by ascending id; an id is never given again. -/
structure IssueThread where
  comments : List IssueCommentSummary
  nextId : Nat
  ascending : comments.Pairwise fun a b => a.id < b.id
  bounded : ∀ c ∈ comments, c.id < nextId

namespace IssueThread

/-- `?per_page=100&page=…`. -/
def page (t : IssueThread) (page : Nat) : List IssueCommentSummary := (t.comments.drop (100 * (page - 1))).take 100

def post (t : IssueThread) (user : Option GitHubUser) (body : String) : IssueThread where
  comments := t.comments ++ [⟨t.nextId, some body, user⟩]
  nextId := t.nextId + 1
  ascending := by
    rw [List.pairwise_append]
    refine ⟨t.ascending, List.pairwise_singleton _ _, ?_⟩
    intro a ha b hb
    rw [List.mem_singleton.mp hb]
    exact t.bounded a ha
  bounded := by
    intro c hc
    rcases List.mem_append.mp hc with hc | hc
    · exact Nat.lt_succ_of_lt (t.bounded c hc)
    · rw [List.mem_singleton.mp hc]
      exact Nat.lt_succ_self _

def delete (t : IssueThread) (id : Nat) : IssueThread where
  comments := t.comments.filter fun c => c.id ≠ id
  nextId := t.nextId
  ascending := t.ascending.sublist List.filter_sublist
  bounded c hc := t.bounded c (List.mem_of_mem_filter hc)

def withBody (id : Nat) (body : String) (c : IssueCommentSummary) : IssueCommentSummary :=
  if c.id = id then { c with body := some body } else c

@[simp] theorem id_withBody (id : Nat) (body : String) (c : IssueCommentSummary) : (withBody id body c).id = c.id := by
  unfold withBody
  split <;> rfl

def patch (t : IssueThread) (id : Nat) (body : String) : IssueThread where
  comments := t.comments.map (withBody id body)
  nextId := t.nextId
  ascending := by
    rw [List.pairwise_map]
    simpa using t.ascending
  bounded := by
    intro c hc
    obtain ⟨old, hold, rfl⟩ := List.mem_map.mp hc
    simpa using t.bounded old hold

end IssueThread

/-! ## `upsertIssueComment` -/

inductive UpsertAction where
  | created | updated
  deriving DecidableEq, Repr

/-- A run before its next call. -/
inductive UpsertTask where
  | searching (page : Nat)
  | updating (id : Nat)
  | creating
  | finished (answer : Except String (UpsertAction × Nat))

/-- A run up to its first call. -/
def upsertIssueComment (client : Client) : UpsertTask :=
  if !client.canPost then
    .finished (.error "GitHub App credentials or a token are required before posting comments.")
  else .searching 1

/-- `findIssueCommentByMarker` after a page: the comment, the end of the listing, or the next page. -/
def afterPage (toLowerCase : String → String) (marker : String) (identity : GitHubAuthorIdentity) (page : Nat)
    (comments : List IssueCommentSummary) : UpsertTask :=
  match comments.find? fun c => carriesMarker toLowerCase marker c.body && isAuthoredBy c.user identity with
  | some existing => .updating existing.id
  | none => if comments.length < 100 then .creating else .searching (page + 1)

/-- A call is answered, or fails before or after GitHub has done it. -/
inductive Delivery where
  | answered | lostRequest | lostResponse
  deriving DecidableEq, Repr

def Delivery.done : Delivery → Bool
  | .answered | .lostResponse => true
  | .lostRequest => false

def Delivery.reply {α : Type} (delivery : Delivery) (answer : α) : Except String α :=
  if delivery = .answered then .ok answer else .error "GitHub API fetch failed"

/-! ## Writers -/

/-- A run of the upsert: the client it posts with, and the comment it posts. -/
structure Upsert where
  client : Client
  body : String

structure Writers (ι : Type) where
  thread : IssueThread
  tasks : ι → UpsertTask

inductive WriterLabel (ι : Type) where
  | call (i : ι) (delivery : Delivery)
  | addComment (user : Option GitHubUser) (body : String)
  | deleteComment (id : Nat)

section
variable {ι : Type} [DecidableEq ι]
variable (toLowerCase : String → String) (marker : String) (account : GitHubAuthorIdentity) (runs : ι → Upsert)

def isSticky (c : IssueCommentSummary) : Bool :=
  carriesMarker toLowerCase marker c.body && isAuthoredBy c.user account

/-- The comment that a run's `POST` makes. -/
def postComment (t : IssueThread) (i : ι) : IssueThread :=
  t.post (some ⟨account.login, some account.type⟩) (runs i).body

/-- The next call of a run, and the thread after it. -/
def callGitHub (t : IssueThread) (i : ι) (delivery : Delivery) : UpsertTask → Option (UpsertTask × IssueThread)
  | .searching page =>
    some (if delivery = .answered then
      (afterPage toLowerCase marker (runs i).client.postingIdentity page (t.page page), t)
    else (.finished (.error "GitHub API fetch failed"), t))
  | .updating id =>
    if (t.comments.any fun c => c.id = id) && delivery.done then
      some (.finished (delivery.reply (.updated, id)), t.patch id (runs i).body)
    else some (.finished (.error "Not Found"), t)
  | .creating =>
    if delivery.done then some (.finished (delivery.reply (.created, t.nextId)), postComment account runs t i)
    else some (.finished (.error "GitHub API fetch failed"), t)
  | .finished _ => none

/-- Others add any comment but a sticky one, and delete any. -/
def Writers.step (w : Writers ι) : WriterLabel ι → Option (Writers ι)
  | .call i delivery =>
    (callGitHub toLowerCase marker account runs w.thread i delivery (w.tasks i)).map fun (task, thread) =>
      ⟨thread, Function.update w.tasks i task⟩
  | .addComment user body =>
    let thread := w.thread.post user body
    if isSticky toLowerCase marker account ⟨w.thread.nextId, some body, user⟩ then none
    else some { w with thread := thread }
  | .deleteComment id => some { w with thread := w.thread.delete id }

/-- Every run is before its first call. -/
def startWriters (t : IssueThread) : Writers ι := ⟨t, fun i => upsertIssueComment (runs i).client⟩

end

/-! ## The callers' comments -/

def REVIEW_STATUS_MARKER_PREFIX : String := "<!-- evaos-code-review-bot:review-status"

def ENRICHMENT_MARKER_PREFIX : String := "<!-- evaos-code-review-bot:enrichment"

def buildReviewStatusMarker (repo : String) (pullNumber : Nat) (headSha : String) : String :=
  REVIEW_STATUS_MARKER_PREFIX ++ " repo=" ++ repo ++ " pr=" ++ toString pullNumber ++ " sha=" ++ headSha ++ " -->"

def buildIssueEnrichmentMarker (repo : String) (issueNumber : Nat) : String :=
  ENRICHMENT_MARKER_PREFIX ++ " repo=" ++ repo ++ " issue=" ++ toString issueNumber ++ " -->"

end NeonDiff.Sticky
