import NeonDiff.Lib.Lines

/-! # The Link header of an issue-event page

A header is read as a list of members, a member as a target and a relation, and the members become relations only
when every target is a page of the endpoint. Whatever of this goes wrong, the header gives nothing.
-/

namespace NeonDiff.Events

open Lib.JsText

structure IssueEventLinkMember where
  target : List Char
  relation : List Char
  deriving DecidableEq, Repr

def isOws (c : Char) : Bool := c = ' ' || c = '\t'

def skipOws (cs : List Char) : List Char := cs.dropWhile isOws

def isTargetChar (c : Char) : Bool :=
  decide (0x21 ≤ c.toNat) && decide (c.toNat ≤ 0x7e) && c != ',' && c != '<' && c != '>'

def isRelationChar (c : Char) : Bool :=
  decide (0x21 ≤ c.toNat) && decide (c.toNat ≤ 0x7e) && c != '"' && c != ',' && c != ';' && c != '<' && c != '>' && c != '\\'

def consumeRelationToken (cs : List Char) : Option (List Char × List Char) :=
  match cs.takeWhile isRelationChar with
  | [] => none
  | token => some (token, cs.dropWhile isRelationChar)

theorem consumeRelationToken_shorter {cs token rest : List Char} (h : consumeRelationToken cs = some (token, rest)) :
    rest.length < cs.length := by
  unfold consumeRelationToken at h
  have happ := List.takeWhile_append_dropWhile (p := isRelationChar) (l := cs)
  cases htake : cs.takeWhile isRelationChar with
  | nil => simp [htake] at h
  | cons c token' =>
    simp only [htake, Option.some.injEq, Prod.mk.injEq] at h
    have hlength := congrArg List.length happ
    rw [htake, h.2] at hlength
    simp only [List.length_append, List.length_cons] at hlength
    omega

theorem dropWhile_length_le (p : Char → Bool) (cs : List Char) : (cs.dropWhile p).length ≤ cs.length :=
  (List.dropWhile_suffix p).length_le

/-- The tokens after the first in a quoted relation, as they stand in the text. -/
def moreTokens (cs : List Char) : Option (List Char × List Char) :=
  match cs with
  | ' ' :: tail =>
    match _h : consumeRelationToken (tail.dropWhile (· = ' ')) with
    | none => none
    | some (token, rest) =>
      (moreTokens rest).map fun r => (' ' :: (tail.takeWhile (· = ' ') ++ token ++ r.1), r.2)
  | _ => some ([], cs)
termination_by cs.length
decreasing_by
  have hshort := consumeRelationToken_shorter _h
  have hle := dropWhile_length_le (· = ' ') tail
  simp only [List.length_cons]
  omega

theorem moreTokens_length_le (cs : List Char) {more rest : List Char} (h : moreTokens cs = some (more, rest)) :
    rest.length ≤ cs.length := by
  induction cs using moreTokens.induct generalizing more rest with
  | case1 tail hnone =>
    rw [moreTokens] at h
    split at h
    · cases h
    · rename_i hsome
      rw [hnone] at hsome
      cases hsome
  | case2 tail token rest' htoken ih =>
    have hshort := consumeRelationToken_shorter htoken
    have hle := dropWhile_length_le (· = ' ') tail
    rw [moreTokens] at h
    split at h
    · cases h
    · rename_i hsome
      rw [htoken] at hsome
      cases hsome
      rw [Option.map_eq_some_iff] at h
      obtain ⟨⟨more', rest''⟩, hmore, hr⟩ := h
      cases hr
      have := ih hmore
      simp only [List.length_cons]
      omega
  | case3 cs hcs =>
    rw [moreTokens] at h
    · simp only [Option.some.injEq, Prod.mk.injEq] at h
      rw [h.2]
    · exact hcs

/-- The relation with its quotes, and what follows it. -/
def parseRelation (cs : List Char) : Option (List Char × List Char) :=
  match cs with
  | '"' :: inner =>
    match consumeRelationToken inner with
    | none => none
    | some (token, rest) =>
      match moreTokens rest with
      | some (more, '"' :: rest') => some ('"' :: (token ++ more ++ ['"']), rest')
      | _ => none
  | _ => consumeRelationToken cs

/-- The target behind the `<`, and what follows its `>`. -/
def parseTarget (cs : List Char) : Option (List Char × List Char) :=
  match cs.takeWhile isTargetChar, cs.dropWhile isTargetChar with
  | [], _ => none
  | target, '>' :: rest => some (target, rest)
  | _, _ => none

/-- One round of the loop, up to the member's end. -/
def parseMember (cs : List Char) : Option (IssueEventLinkMember × List Char) :=
  match skipOws cs with
  | '<' :: afterOpen =>
    match parseTarget afterOpen with
    | none => none
    | some (target, rest) =>
      match skipOws rest with
      | ';' :: rest =>
        match skipOws rest with
        | 'r' :: 'e' :: 'l' :: rest =>
          match skipOws rest with
          | '=' :: rest => (parseRelation (skipOws rest)).map fun r => ({ target, relation := r.1 }, r.2)
          | _ => none
        | _ => none
      | _ => none
  | _ => none

theorem parseRelation_length_le {cs relation rest : List Char} (h : parseRelation cs = some (relation, rest)) :
    rest.length ≤ cs.length := by
  unfold parseRelation at h
  split at h
  · split at h
    · cases h
    · rename_i htoken
      split at h
      · rename_i hmore
        have hshort := consumeRelationToken_shorter htoken
        have hle := moreTokens_length_le _ hmore
        cases h
        simp only [List.length_cons] at hle ⊢
        omega
      · cases h
  · exact (consumeRelationToken_shorter h).le

theorem parseTarget_length_le {cs target rest : List Char} (h : parseTarget cs = some (target, rest)) :
    rest.length ≤ cs.length := by
  have hle := dropWhile_length_le isTargetChar cs
  unfold parseTarget at h
  split at h
  · cases h
  · rename_i hrest _
    cases h
    rw [hrest, List.length_cons] at hle
    omega
  · cases h

theorem skipOws_length_le (cs : List Char) : (skipOws cs).length ≤ cs.length := dropWhile_length_le isOws cs

theorem parseMember_shorter {cs rest : List Char} {member : IssueEventLinkMember}
    (h : parseMember cs = some (member, rest)) : rest.length < cs.length := by
  have hcs := skipOws_length_le cs
  unfold parseMember at h
  split at h
  · rename_i hopen
    rw [hopen, List.length_cons] at hcs
    split at h
    · cases h
    · rename_i afterTarget htarget
      have htarget := parseTarget_length_le htarget
      have h₁ := skipOws_length_le afterTarget
      split at h
      · rename_i afterSemi hsemi
        have h₂ := skipOws_length_le afterSemi
        rw [hsemi, List.length_cons] at h₁
        split at h
        · rename_i afterRel hrel
          have h₃ := skipOws_length_le afterRel
          simp only [hrel, List.length_cons] at h₂
          split at h
          · rename_i afterEq heq
            have h₄ := skipOws_length_le afterEq
            rw [heq, List.length_cons] at h₃
            rw [Option.map_eq_some_iff] at h
            obtain ⟨⟨relation, rest'⟩, hrelation, hr⟩ := h
            cases hr
            have := parseRelation_length_le hrelation
            dsimp only
            omega
          · cases h
        · cases h
      · cases h
  · cases h

def parseMembers (cs : List Char) : Option (List IssueEventLinkMember) :=
  match _h : parseMember cs with
  | none => none
  | some (member, rest) =>
    if rest = [] then some [member] else
      match _h' : skipOws rest with
      | ',' :: rest' => (parseMembers rest').map (member :: ·)
      | _ => none
termination_by cs.length
decreasing_by
  have hshort := parseMember_shorter _h
  have hle := skipOws_length_le rest
  rw [_h', List.length_cons] at hle
  omega

/-- The members of a header; none of them when it is malformed. -/
def parseIssueEventLink (link : List Char) : Option (List IssueEventLinkMember) :=
  if link = [] then none else parseMembers link

end NeonDiff.Events
