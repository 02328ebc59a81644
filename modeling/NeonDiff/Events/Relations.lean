import NeonDiff.Events.Links
import NeonDiff.Lib.Fields
import NeonDiff.Lib.Json
import Mathlib.Logic.Function.Basic

/-! # The page relations of a Link header

A relation holds a page number of the endpoint under one of four names. `linkHeader` writes the header of a server;
what the reader makes of it, if anything, is what the server wrote.
-/

namespace NeonDiff.Events

open Lib Lib.JsText

/-- What `new URL` reads of an address. -/
structure Url where
  origin : List Char
  pathname : List Char
  username : List Char
  password : List Char
  search : List Char
  hash : List Char

structure GitHubIssueEventEndpointIdentity where
  /-- The record is one that `resolveGitHubIssueEventEndpointIdentity` has made. -/
  resolved : Bool
  origin : List Char
  repositoryPath : List Char
  canonicalRepositoryPath : List Char

def hasForbiddenRawSyntax (value : List Char) : Bool :=
  trim value != value || value.any (fun c => c = '%' || c = '\\' || decide (c.toNat ≤ 0x20) || decide (0x7f ≤ c.toNat)) ||
    value.contains '?' || value.contains '#' || value.contains '@' ||
    (split '/' value).any fun part => part = ['.'] || part = ['.', '.']

section Endpoint

variable (newURL : List Char → Option Url) (identity : GitHubIssueEventEndpointIdentity)

def matchesGitHubIssueEventEndpointIdentity (targetUrl : List Char) : Bool :=
  if !identity.resolved || hasForbiddenRawSyntax targetUrl then false else
    match newURL targetUrl with
    | none => false
    | some target =>
      targetUrl = target.origin ++ target.pathname && target.username = [] && target.password = [] && target.search = [] &&
        target.hash = [] && target.origin = identity.origin &&
        (target.pathname = identity.repositoryPath || target.pathname = identity.canonicalRepositoryPath)

def pageName : List Char := "page=".toList

def perPageName : List Char := "per_page=".toList

def perPage : List Char := "per_page=100".toList

/-- `/^[1-9]\d*$/`. -/
def isPageText (cs : List Char) : Bool :=
  match cs with
  | [] => false
  | d :: ds => d != '0' && d.isDigit && ds.all Char.isDigit

/-- The page in the query behind the endpoint. -/
def pageOfQuery (query : List Char) : Option Nat :=
  let parts := split '&' query
  if parts.length ≠ 2 then none else
    match parts.find? fun part => pageName.isPrefixOf part, parts.find? fun part => perPageName.isPrefixOf part with
    | some pagePart, some perPart =>
      if perPart ≠ perPage || !isPageText (pagePart.drop 5) then none else
        if Json.isSafeInteger (digitsValue (pagePart.drop 5)) then some (digitsValue (pagePart.drop 5)) else none
    | _, _ => none

def targetPage (raw : List Char) : Option Nat :=
  match newURL raw with
  | none => none
  | some parsed =>
    let endpoint := parsed.origin ++ parsed.pathname
    if !matchesGitHubIssueEventEndpointIdentity newURL identity endpoint || !(endpoint ++ ['?']).isPrefixOf raw then none
    else pageOfQuery (raw.drop (endpoint.length + 1))

inductive Relation where
  | first
  | prev
  | next
  | last
  deriving DecidableEq, Repr

def Relation.name : Relation → List Char
  | .first => "first".toList
  | .prev => "prev".toList
  | .next => "next".toList
  | .last => "last".toList

def RELATIONS : List Relation := [.first, .prev, .next, .last]

abbrev Relations := Relation → Option Nat

def addName (page : Nat) (result : Relations) (name : List Char) : Option Relations :=
  match RELATIONS.find? fun relation => relation.name = name with
  | none => none
  | some relation => if (result relation).isSome then none else some (Function.update result relation (some page))

def unquoted (relation : List Char) : List Char :=
  if ['"'].isPrefixOf relation then (relation.drop 1).dropLast else relation

def addMember (result : Relations) (member : IssueEventLinkMember) : Option Relations :=
  match targetPage newURL identity member.target with
  | none => none
  | some page => (split ' ' ((unquoted member.relation).map Char.toLower)).foldlM (addName page) result

def relations (members : List IssueEventLinkMember) : Option Relations :=
  match members.foldlM (addMember newURL identity) fun _ => none with
  | none => none
  | some result => if RELATIONS.any fun relation => (result relation).isSome then some result else none

end Endpoint

/-! ## The header of a server -/

/-- A link to a page of the listing at `base`. -/
structure PageLink where
  relation : Relation
  base : List Char
  page : Nat
  bracketed : '>' ∉ base
  queried : '?' ∉ base

namespace PageLink

def query (link : PageLink) : List Char := perPage ++ '&' :: (pageName ++ Nat.toDigits 10 link.page)

def target (link : PageLink) : List Char := link.base ++ '?' :: link.query

def quotedName (link : PageLink) : List Char := '"' :: (link.relation.name ++ ['"'])

def text (link : PageLink) : List Char := '<' :: (link.target ++ ">; rel=".toList ++ link.quotedName)

def member (link : PageLink) : IssueEventLinkMember := { target := link.target, relation := link.quotedName }

end PageLink

def linkHeader (links : List PageLink) : List Char := ", ".toList.intercalate (links.map PageLink.text)

/-! ## Reading it back -/

theorem takeWhile_append_of_all {p : Char → Bool} {cs : List Char} (h : ∀ c ∈ cs, p c = true) {c : Char}
    (hc : p c = false) (rest : List Char) :
    (cs ++ c :: rest).takeWhile p = cs ∧ (cs ++ c :: rest).dropWhile p = c :: rest := by
  rw [List.takeWhile_append_of_pos h, List.dropWhile_append_of_pos h]
  simp [hc]

theorem isTargetChar_close : isTargetChar '>' = false := rfl

theorem isRelationChar_quote : isRelationChar '"' = false := rfl

theorem parseTarget_close {target rest : List Char} (hclose : '>' ∉ target) {r : List Char × List Char}
    (h : parseTarget (target ++ '>' :: rest) = some r) : r = (target, rest) := by
  by_cases hall : ∀ c ∈ target, isTargetChar c = true
  · obtain ⟨htake, hdrop⟩ := takeWhile_append_of_all hall isTargetChar_close rest
    unfold parseTarget at h
    rw [htake, hdrop] at h
    cases target with
    | nil => simp at h
    | cons c cs =>
      simp only [Option.some.injEq] at h
      exact h.symm
  · -- a character that no target has stops the reading before the `>`
    have hstop : ∃ d ds, (target ++ '>' :: rest).dropWhile isTargetChar = d :: ds ∧ d ≠ '>' := by
      clear h
      induction target with
      | nil => simp at hall
      | cons c cs ih =>
        have hc : c ≠ '>' := fun heq => hclose (heq ▸ List.mem_cons_self)
        cases htc : isTargetChar c with
        | false => exact ⟨c, cs ++ '>' :: rest, by simp [htc], hc⟩
        | true =>
          have hcs : ¬∀ d ∈ cs, isTargetChar d = true := by
            intro hcs
            apply hall
            intro d hd
            rcases List.mem_cons.mp hd with rfl | hd
            · exact htc
            · exact hcs d hd
          obtain ⟨d, ds, hdrop, hd⟩ := ih (fun hmem => hclose (List.mem_cons_of_mem _ hmem)) hcs
          exact ⟨d, ds, by simpa [List.dropWhile_cons, htc] using hdrop, hd⟩
    obtain ⟨d, ds, hdrop, hd⟩ := hstop
    unfold parseTarget at h
    rw [hdrop] at h
    split at h
    · cases h
    · rename_i hcons _
      exact absurd (List.cons.inj hcons).1 hd
    · cases h

theorem isRelationChar_name (relation : Relation) : relation.name.all isRelationChar = true := by
  cases relation <;> rfl

theorem parseRelation_quotedName (link : PageLink) (rest : List Char) :
    parseRelation (link.quotedName ++ rest) = some (link.quotedName, rest) := by
  obtain ⟨htake, hdrop⟩ := takeWhile_append_of_all (List.all_eq_true.mp (isRelationChar_name link.relation))
    isRelationChar_quote rest
  have htoken : consumeRelationToken (link.relation.name ++ '"' :: rest) = some (link.relation.name, '"' :: rest) := by
    unfold consumeRelationToken
    rw [htake, hdrop]
    cases link.relation <;> rfl
  have hmore : moreTokens ('"' :: rest) = some ([], '"' :: rest) := by
    rw [moreTokens]
    simp
  unfold PageLink.quotedName
  simp only [List.cons_append, List.append_assoc, List.nil_append]
  unfold parseRelation
  simp only [htoken, hmore, List.append_nil]

theorem PageLink.notMem_query (link : PageLink) {c : Char} (hper : c ∉ perPage) (hand : c ≠ '&') (hname : c ∉ pageName)
    (hdigit : c.isDigit = false) : c ∉ link.query := by
  have hpage : c ∉ Nat.toDigits 10 link.page := by
    intro hmem
    rw [isDigit_of_mem_toDigits hmem] at hdigit
    cases hdigit
  simp only [PageLink.query, List.mem_append, List.mem_cons, not_or]
  exact ⟨hper, hand, hname, hpage⟩

theorem skipOws_cons {c : Char} (hc : isOws c = false) (cs : List Char) : skipOws (c :: cs) = c :: cs := by
  simp [skipOws, hc]

theorem parseMember_text (link : PageLink) {gap : List Char} (hgap : ∀ c ∈ gap, isOws c = true) (rest : List Char)
    {r : IssueEventLinkMember × List Char} (h : parseMember (gap ++ (link.text ++ rest)) = some r) :
    r = (link.member, rest) := by
  have hclose : '>' ∉ link.target := by
    have hquery := link.notMem_query (c := '>') (by decide) (by decide) (by decide) (by decide)
    simp only [PageLink.target, List.mem_append, List.mem_cons, not_or]
    exact ⟨link.bracketed, by decide, hquery⟩
  have hskip : skipOws (gap ++ (link.text ++ rest)) =
      '<' :: (link.target ++ '>' :: (";".toList ++ (" rel=".toList ++ (link.quotedName ++ rest)))) := by
    unfold skipOws
    rw [List.dropWhile_append_of_pos hgap]
    simp [PageLink.text, isOws]
  unfold parseMember at h
  rw [hskip] at h
  simp only at h
  split at h
  · cases h
  · rename_i target rest' htarget
    cases parseTarget_close hclose htarget
    have h₁ : skipOws (";".toList ++ (" rel=".toList ++ (link.quotedName ++ rest))) =
        ';' :: (" rel=".toList ++ (link.quotedName ++ rest)) := rfl
    have h₂ : skipOws (" rel=".toList ++ (link.quotedName ++ rest)) =
        'r' :: 'e' :: 'l' :: '=' :: (link.quotedName ++ rest) := rfl
    have h₃ : skipOws ('=' :: (link.quotedName ++ rest)) = '=' :: (link.quotedName ++ rest) := rfl
    have h₄ : skipOws (link.quotedName ++ rest) = link.quotedName ++ rest := rfl
    simp only [h₁, h₂, h₃, h₄, parseRelation_quotedName, Option.map_some, Option.some.injEq] at h
    exact h.symm

theorem parseMembers_linkHeader {links : List PageLink} (hne : links ≠ []) {gap : List Char}
    (hgap : ∀ c ∈ gap, isOws c = true) {members : List IssueEventLinkMember}
    (h : parseMembers (gap ++ linkHeader links) = some members) : members = links.map PageLink.member := by
  induction links generalizing gap members with
  | nil => exact absurd rfl hne
  | cons link links ih =>
    cases links with
    | nil =>
      have hheader : linkHeader [link] = link.text ++ [] := by simp [linkHeader, List.intercalate]
      rw [hheader, parseMembers] at h
      split at h
      · cases h
      · rename_i member rest hmember
        cases parseMember_text link hgap [] hmember
        simp only [if_true, Option.some.injEq] at h
        exact h.symm
    | cons link' links =>
      have hheader : linkHeader (link :: link' :: links) = link.text ++ (',' :: ([' '] ++ linkHeader (link' :: links))) := by
        simp [linkHeader, List.intercalate]
      rw [hheader, parseMembers] at h
      split at h
      · cases h
      · rename_i member rest hmember
        cases parseMember_text link hgap _ hmember
        rw [if_neg (by simp)] at h
        split at h
        · rename_i rest' hcomma
          rw [skipOws_cons rfl] at hcomma
          cases hcomma
          rw [Option.map_eq_some_iff] at h
          obtain ⟨members', hmembers, rfl⟩ := h
          rw [ih (by simp) (by simp [isOws]) hmembers]
          rfl
        · cases h

theorem parseIssueEventLink_linkHeader {links : List PageLink} {members : List IssueEventLinkMember}
    (h : parseIssueEventLink (linkHeader links) = some members) : members = links.map PageLink.member := by
  unfold parseIssueEventLink at h
  split at h
  · cases h
  · rename_i hne
    have hlinks : links ≠ [] := by
      rintro rfl
      exact hne rfl
    exact @parseMembers_linkHeader links hlinks [] (by simp) members h

theorem not_queried_of_matches {newURL : List Char → Option Url} {identity : GitHubIssueEventEndpointIdentity}
    {targetUrl : List Char} (h : matchesGitHubIssueEventEndpointIdentity newURL identity targetUrl = true) :
    '?' ∉ targetUrl := by
  intro hmem
  have hforbidden : hasForbiddenRawSyntax targetUrl = true := by
    unfold hasForbiddenRawSyntax
    simp [hmem]
  unfold matchesGitHubIssueEventEndpointIdentity at h
  simp [hforbidden] at h

theorem eq_of_concat_prefix {sep : Char} {cs cs' rest : List Char} (hcs : sep ∉ cs) (hcs' : sep ∉ cs')
    (h : cs ++ [sep] <+: cs' ++ sep :: rest) : cs = cs' := by
  have hsplit : ∀ part : List Char, sep ∉ part → ∀ tail, (part ++ sep :: tail).takeWhile (· ≠ sep) = part := by
    intro part hpart tail
    rw [List.takeWhile_append_of_pos]
    · simp
    · intro c hc
      simp only [ne_eq, decide_not, Bool.not_eq_true', decide_eq_false_iff_not]
      rintro rfl
      exact hpart hc
  obtain ⟨tail, htail⟩ := h
  rw [List.append_assoc, List.singleton_append] at htail
  rw [← hsplit cs hcs tail, htail, hsplit cs' hcs' rest]

theorem pageOfQuery_query (link : PageLink) {n : Nat} (h : pageOfQuery link.query = some n) : n = link.page := by
  have hname : '&' ∉ pageName ++ Nat.toDigits 10 link.page := by
    simp only [List.mem_append, not_or]
    refine ⟨by decide, ?_⟩
    intro hmem
    have := isDigit_of_mem_toDigits hmem
    revert this
    decide
  have hparts : split '&' link.query = [perPage, pageName ++ Nat.toDigits 10 link.page] := by
    unfold PageLink.query
    rw [split_append_sep (by decide), split_of_notMem hname]
  have hpage : [perPage, pageName ++ Nat.toDigits 10 link.page].find? (fun part => pageName.isPrefixOf part) =
      some (pageName ++ Nat.toDigits 10 link.page) := by
    have hper : pageName.isPrefixOf perPage = false := by decide
    simp [hper]
  have hper : [perPage, pageName ++ Nat.toDigits 10 link.page].find? (fun part => perPageName.isPrefixOf part) =
      some perPage := rfl
  have hdrop : (pageName ++ Nat.toDigits 10 link.page).drop 5 = Nat.toDigits 10 link.page := rfl
  unfold pageOfQuery at h
  simp only [hparts, hpage, hper, hdrop, digitsValue_toDigits] at h
  split at h
  · cases h
  · split at h
    · cases h
    · split at h
      · cases h
        rfl
      · cases h

section Reading

variable {newURL : List Char → Option Url} {identity : GitHubIssueEventEndpointIdentity}

theorem targetPage_target (link : PageLink) {n : Nat} (h : targetPage newURL identity link.target = some n) :
    n = link.page := by
  unfold targetPage at h
  split at h
  · cases h
  · rename_i parsed _
    dsimp only at h
    split at h
    · cases h
    · rename_i hcond
      simp only [Bool.or_eq_true, Bool.not_eq_true', not_or, Bool.not_eq_false] at hcond
      obtain ⟨hmatches, hstarts⟩ := hcond
      have hbase := eq_of_concat_prefix (not_queried_of_matches hmatches) link.queried
        (List.isPrefixOf_iff_prefix.mp hstarts)
      have hquery : link.target.drop ((parsed.origin ++ parsed.pathname).length + 1) = link.query := by
        rw [hbase]
        unfold PageLink.target
        simp
      rw [hquery] at h
      exact pageOfQuery_query link h

theorem addName_eq_some {page : Nat} {result result' : Relations} {relation : Relation}
    (h : addName page result relation.name = some result') :
    result relation = none ∧ result' = Function.update result relation (some page) := by
  have hfind : (RELATIONS.find? fun r => r.name = relation.name) = some relation := by cases relation <;> rfl
  unfold addName at h
  rw [hfind] at h
  dsimp only at h
  split at h
  · cases h
  · rename_i hunseen
    cases h
    exact ⟨by simpa using hunseen, rfl⟩

theorem addMember_eq_some {result result' : Relations} (link : PageLink)
    (h : addMember newURL identity result link.member = some result') :
    result link.relation = none ∧ result' = Function.update result link.relation (some link.page) := by
  have hnames : split ' ' ((unquoted link.member.relation).map Char.toLower) = [link.relation.name] := by
    unfold PageLink.member PageLink.quotedName
    cases link.relation <;> rfl
  unfold addMember at h
  split at h
  · cases h
  · rename_i page hpage
    rw [hnames] at h
    rw [← targetPage_target link hpage]
    apply addName_eq_some
    simpa using h

theorem foldlM_addMember {links : List PageLink} {result result' : Relations}
    (h : (links.map PageLink.member).foldlM (addMember newURL identity) result = some result') (relation : Relation) (n : Nat) :
    result' relation = some n ↔ result relation = some n ∨ ∃ link ∈ links, link.relation = relation ∧ link.page = n := by
  induction links generalizing result with
  | nil =>
    simp only [List.map_nil, List.foldlM_nil] at h
    cases h
    simp
  | cons link links ih =>
    simp only [List.map_cons, List.foldlM_cons] at h
    obtain ⟨mid, hmid, hrest⟩ := Option.bind_eq_some_iff.mp h
    obtain ⟨hunseen, rfl⟩ := addMember_eq_some link hmid
    rw [ih hrest]
    by_cases hrel : relation = link.relation
    · subst hrel
      simp [hunseen]
    · have hne : ¬link.relation = relation := fun heq => hrel heq.symm
      simp [Function.update_of_ne hrel, hne]

theorem relations_links {links : List PageLink} {result : Relations}
    (h : relations newURL identity (links.map PageLink.member) = some result) (relation : Relation) (n : Nat) :
    result relation = some n ↔ ∃ link ∈ links, link.relation = relation ∧ link.page = n := by
  unfold relations at h
  split at h
  · cases h
  · rename_i result' hfold
    split at h
    · cases h
      simpa using foldlM_addMember hfold relation n
    · cases h

end Reading

end NeonDiff.Events
