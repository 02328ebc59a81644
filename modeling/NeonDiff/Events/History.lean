import NeonDiff.Events.Relations
import NeonDiff.Lib.Program

/-! # Reading the history of issue events

The reader asks for the first page, for the second when the first is full and has no links, and then for the last
pages that the links name. It keeps the newest event of each id and gives nothing at all where the links do not fit
together.
-/

namespace NeonDiff.Events

open Lib Lib.JsText

def SIZE : Nat := 100

def MAX : Nat := 200

inductive IssueEventTerminal where
  | short_page
  | bounded_tail
  | event_history_unbounded
  deriving DecidableEq, Repr

/-- A link header as it comes; `other` is a value that is no text. -/
inductive LinkValue where
  | text (s : List Char)
  | other
  deriving DecidableEq

/-- What answers for a page. Nothing stands for a page that is no integer, for items that are no array, and for a link
that is `undefined` or `null`. -/
structure IssueEventPage (α : Type) where
  page : Option Int
  items : Option (List α)
  link : Option LinkValue
  linkHeader : Option LinkValue

structure IssueEventPaginationReceipt (α : Type) where
  items : List α
  pagesRead : Nat
  rawCount : Nat
  uniqueCount : Nat
  duplicateCount : Int
  lastPage : Option Nat
  terminal : IssueEventTerminal
  truncated : Bool
  overflow : Bool

/-- An `id` that is neither an integer nor a text is `other`. -/
inductive IdValue where
  | number (n : Int)
  | text (s : List Char)
  | other
  deriving DecidableEq

def integerText (n : Int) : List Char :=
  if n < 0 then '-' :: Nat.toDigits 10 n.natAbs else Nat.toDigits 10 n.natAbs

def IdValue.known (value : IdValue) : Option (List Char) :=
  match value with
  | .number n => if Json.isSafeInteger n then some (trim (integerText n)) else none
  | .text s => if trim s = [] then none else some (trim s)
  | .other => none

inductive EventKey where
  | id (text : List Char)
  | anonymous (n : Nat)
  deriving DecidableEq

/-- The variables of a run. -/
structure IssueEventHistory (α : Type) where
  newest : List (EventKey × α)
  tailKeys : List EventKey
  anonymous : Nat
  pagesRead : Nat
  rawCount : Nat
  trustedRawCount : Nat
  skipped : Bool
  lastPage : Option Nat

/-- A page as `read` leaves it, with the items of the candidate. -/
structure CheckedPage (α : Type) where
  items : List α
  relations : Option Relations
  present : Bool
  valid : Bool

def lastMatches (r : Relations) (page last : Nat) : Bool :=
  r .last = some last || (page = last && (r .last).isNone)

def firstMatches (r : Relations) : Bool := (r .first).isNone || r .first = some 1

def chain (relations : Option Relations) (page last : Nat) : Bool :=
  match relations with
  | none => false
  | some r =>
    lastMatches r page last && firstMatches r &&
      if page = 1 then (r .prev).isNone && (if last = 1 then (r .next).isNone else r .next = some 2)
      else r .prev = some (page - 1) && (if page = last then (r .next).isNone else r .next = some (page + 1))

def terminalLinks (relations : Option Relations) (page last : Nat) : Bool :=
  match relations with
  | none => false
  | some r =>
    lastMatches r page last && firstMatches r && (r .prev = if page = 1 then none else some (page - 1)) &&
      (r .next).isNone

namespace IssueEventHistory

variable {α : Type}

def empty : IssueEventHistory α :=
  { newest := [], tailKeys := [], anonymous := 0, pagesRead := 0, rawCount := 0, trustedRawCount := 0, skipped := false,
    lastPage := none }

section Adding

variable (idOf : α → IdValue)

def keyOf (h : IssueEventHistory α) (item : α) : EventKey :=
  match (idOf item).known with
  | some text => .id text
  | none => .anonymous h.anonymous

/-- `newest.delete(key); newest.set(key, item)` puts the item last. -/
def addItem (tail : Bool) (h : IssueEventHistory α) (item : α) : IssueEventHistory α :=
  let key := keyOf idOf h item
  { h with
    anonymous := if (idOf item).known.isSome then h.anonymous else h.anonymous + 1
    tailKeys := if tail && !h.tailKeys.contains key then key :: h.tailKeys else h.tailKeys
    newest := h.newest.filter (fun entry => entry.1 ≠ key) ++ [(key, item)] }

def add (h : IssueEventHistory α) (items : List α) (tail : Bool) : IssueEventHistory α :=
  items.foldl (addItem idOf tail) { h with trustedRawCount := h.trustedRawCount + items.length }

end Adding

def finish (h : IssueEventHistory α) (terminal : IssueEventTerminal) : IssueEventPaginationReceipt α :=
  let isUnsafe := terminal = .event_history_unbounded
  let all := if isUnsafe then [] else h.newest.map Prod.snd
  let uniqueCount := if isUnsafe then 0 else all.length
  { items := all.rtake MAX
    pagesRead := h.pagesRead
    rawCount := h.rawCount
    uniqueCount
    duplicateCount := if isUnsafe then 0 else (h.trustedRawCount : Int) - uniqueCount
    lastPage := h.lastPage
    terminal
    truncated := isUnsafe || h.skipped || decide (MAX < uniqueCount)
    overflow := isUnsafe }

def fail (h : IssueEventHistory α) : IssueEventPaginationReceipt α := h.finish .event_history_unbounded

end IssueEventHistory

/-! ## The reader -/

/-- A program that asks for pages. A server rejects with an `ε`. -/
abbrev Reading (ε α β : Type) := Prog (fun _ : Nat => Except ε (Option (IssueEventPage α))) ε β

section Reader

variable {ε α : Type} (newURL : List Char → Option Url) (identity : GitHubIssueEventEndpointIdentity) (idOf : α → IdValue)

def linkRelations (link : LinkValue) : Option Relations :=
  match link with
  | .other => none
  | .text s =>
    match parseIssueEventLink s with
    | none => none
    | some members => relations newURL identity members

def rawItems (candidate : Option (IssueEventPage α)) : List α := (candidate.bind IssueEventPage.items).getD []

def isRequested (page : Option Int) (requested : Nat) : Bool :=
  match page with
  | none => false
  | some n => Json.isSafeInteger n && n = requested

def checkPage (requested : Nat) (candidate : Option (IssueEventPage α)) : CheckedPage α :=
  match candidate with
  | none => { items := [], relations := none, present := false, valid := false }
  | some page =>
    let items := rawItems candidate
    if !isRequested page.page requested || page.items.isNone || decide (SIZE < items.length) then
      { items, relations := none, present := false, valid := false }
    else if page.link.isSome && page.linkHeader.isSome && page.link ≠ page.linkHeader then
      { items, relations := none, present := true, valid := false }
    else
      match page.link.or page.linkHeader with
      | none => { items, relations := none, present := false, valid := true }
      | some link =>
        let parsed := linkRelations newURL identity link
        { items, relations := parsed, present := true, valid := parsed.isSome }

def read (requested : Nat) (h : IssueEventHistory α) : Reading ε α (CheckedPage α × IssueEventHistory α) :=
  .call requested fun
    | .error e => .fail e
    | .ok candidate =>
      .done (checkPage newURL identity requested candidate,
        { h with pagesRead := h.pagesRead + 1, rawCount := h.rawCount + (rawItems candidate).length })

/-- The loop of `tail` over the pages still to read. -/
def tailLoop (lastPage : Nat) : List Nat → IssueEventHistory α → Reading ε α (IssueEventPaginationReceipt α)
  | [], h => .done (if h.skipped && decide (h.tailKeys.length < MAX) then h.fail else h.finish .bounded_tail)
  | page :: pages, h =>
    (read newURL identity page h).bind fun (result, h) =>
      let count := result.items.length
      if !result.valid || !result.present || !chain result.relations page lastPage then .done h.fail
      else if (if page < lastPage then count != SIZE else decide (count < 1) || decide (SIZE < count)) then .done h.fail
      else tailLoop lastPage pages (h.add idOf result.items true)

def tailStart (existing lastPage : Nat) : Nat := max (existing + 1) (max 2 (lastPage - 4))

def tail (existing : Nat) (h : IssueEventHistory α) : Reading ε α (IssueEventPaginationReceipt α) :=
  match h.lastPage with
  | none => .done h.fail
  | some lastPage =>
    if lastPage < existing then .done h.fail else
      let start := tailStart existing lastPage
      tailLoop newURL identity idOf lastPage (List.range' start (lastPage + 1 - start))
        { h with skipped := decide (existing + 1 < start) }

def afterSecond (firstItems : List α) (second : CheckedPage α) (h : IssueEventHistory α) :
    Reading ε α (IssueEventPaginationReceipt α) :=
  if !second.valid then .done h.fail
  else if second.items.length < SIZE then
    let last := if second.items.length = 0 then 1 else 2
    if second.present && !terminalLinks second.relations 2 last then .done h.fail
    else
      let h := { h with lastPage := some last }.add idOf firstItems false
      .done ((if second.items.length = 0 then h else h.add idOf second.items false).finish .short_page)
  else
    match second.relations.bind fun r => r .last with
    | none => .done h.fail
    | some last =>
      if !second.present || decide (last < 2) || !chain second.relations 2 last then .done h.fail
      else tail newURL identity idOf 2 (({ h with lastPage := some last }.add idOf firstItems false).add idOf second.items false)

def afterFirst (first : CheckedPage α) (h : IssueEventHistory α) : Reading ε α (IssueEventPaginationReceipt α) :=
  if !first.valid then .done h.fail
  else if first.items.length < SIZE then
    if first.present && (first.items.length = 0 || !terminalLinks first.relations 1 1) then .done h.fail
    else .done (({ h with lastPage := some 1 }.add idOf first.items false).finish .short_page)
  else if first.present then
    match first.relations.bind fun r => r .last with
    | none => .done h.fail
    | some last =>
      if !chain first.relations 1 last then .done h.fail
      else
        let h := { h with lastPage := some last }.add idOf first.items false
        if last = 1 then .done (h.finish .short_page) else tail newURL identity idOf 1 h
  else
    (read newURL identity 2 h).bind fun (second, h) => afterSecond newURL identity idOf first.items second h

def readIssueEventHistory : Reading ε α (IssueEventPaginationReceipt α) :=
  if !matchesGitHubIssueEventEndpointIdentity newURL identity (identity.origin ++ identity.repositoryPath) then
    .done IssueEventHistory.empty.fail
  else
    (read newURL identity 1 .empty).bind fun (first, h) => afterFirst newURL identity idOf first h

end Reader

end NeonDiff.Events
