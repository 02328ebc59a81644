import NeonDiff.Events.Links
import NeonDiff.Lib.Munch

/-! # What a Link header's framing accepts

The reader of the members, with the text that each was read from, against a grammar of the header.
-/

namespace NeonDiff.Events

open NeonDiff.Lib

/-! ## The reader with its slices -/

structure FramedLinkMember extends IssueEventLinkMember where
  raw : List Char
  deriving DecidableEq, Repr

inductive IssueEventLinkResult where
  | absent
  | present (link : List Char) (members : List FramedLinkMember)
  deriving DecidableEq, Repr

/-- The loop over the members; a member's slice starts behind the comma before it. -/
def framedMembers (cs : List Char) : Option (List FramedLinkMember) :=
  match _h : parseMember cs with
  | none => none
  | some (member, rest) =>
    if rest = [] then some [{ member with raw := cs.take (cs.length - rest.length) }] else
      match _h' : skipOws rest with
      | ',' :: rest' =>
        (framedMembers rest').map ({ member with raw := cs.take (cs.length - rest.length) } :: ·)
      | _ => none
termination_by cs.length
decreasing_by
  have hshort := parseMember_shorter _h
  have hle := skipOws_length_le rest
  rw [_h', List.length_cons] at hle
  omega

/-- `parseIssueEventLink` of a header, where there is one; nothing when it throws. -/
def issueEventLink : Option (List Char) → Option IssueEventLinkResult
  | none => some .absent
  | some link => if link = [] then none else (framedMembers link).map (.present link ·)

theorem framedMembers_eq (cs : List Char) :
    framedMembers cs =
      match parseMember cs with
      | none => none
      | some (member, rest) =>
        if rest = [] then some [{ member with raw := cs.take (cs.length - rest.length) }] else
          match skipOws rest with
          | ',' :: rest' =>
            (framedMembers rest').map ({ member with raw := cs.take (cs.length - rest.length) } :: ·)
          | _ => none := by
  rw [framedMembers]
  split
  · rename_i h
    rw [h]
  · rename_i h
    rw [h]
    dsimp only
    split
    · rfl
    · split <;> simp_all

/-! ## The grammar -/

def Ows (cs : List Char) : Prop := ∀ c ∈ cs, isOws c = true

structure Token (cs : List Char) : Prop where
  some : cs ≠ []
  chars : ∀ c ∈ cs, isRelationChar c = true

/-- Further tokens, each behind spaces. -/
inductive MoreTokens : List Char → Prop where
  | none : MoreTokens []
  | token {gap token more : List Char} (hgap : gap ≠ []) (hspaces : ∀ c ∈ gap, c = ' ') (htoken : Token token)
      (hmore : MoreTokens more) : MoreTokens (gap ++ (token ++ more))

inductive RelationText : List Char → Prop where
  | token {token : List Char} (h : Token token) : RelationText token
  | quoted {token more : List Char} (h : Token token) (hmore : MoreTokens more) :
      RelationText ('"' :: (token ++ more ++ ['"']))

/-- A member, from the white space before it to the end of its relation. -/
inductive MemberText : FramedLinkMember → Prop where
  | mk {before target afterTarget beforeRel afterRel beforeValue relation : List Char} (hbefore : Ows before)
      (htarget : target ≠ []) (hchars : ∀ c ∈ target, isTargetChar c = true) (hafterTarget : Ows afterTarget)
      (hbeforeRel : Ows beforeRel) (hafterRel : Ows afterRel) (hbeforeValue : Ows beforeValue)
      (hrelation : RelationText relation) :
      MemberText
        { target := target, relation := relation
          raw := before ++ '<' :: (target ++ '>' :: (afterTarget ++ ';' :: (beforeRel ++ 'r' :: 'e' :: 'l' ::
            (afterRel ++ '=' :: (beforeValue ++ relation))))) }

/-- The members of a header, with white space and a comma between one and the next. -/
inductive LinkText : List FramedLinkMember → List Char → Prop where
  | last {member : FramedLinkMember} (h : MemberText member) : LinkText [member] member.raw
  | comma {member : FramedLinkMember} {gap : List Char} {members : List FramedLinkMember} {rest : List Char}
      (h : MemberText member) (hgap : Ows gap) (hrest : LinkText members rest) :
      LinkText (member :: members) (member.raw ++ (gap ++ ',' :: rest))

/-! ## What is read is in the grammar -/

theorem skipOws_sound (cs : List Char) : ∃ before, Ows before ∧ cs = before ++ skipOws cs :=
  ⟨cs.takeWhile isOws, fun _ hc => List.mem_takeWhile_imp hc, List.takeWhile_append_dropWhile.symm⟩

theorem consumeRelationToken_sound {cs token rest : List Char} (h : consumeRelationToken cs = some (token, rest)) :
    cs = token ++ rest ∧ Token token := by
  unfold consumeRelationToken at h
  split at h
  · cases h
  · rename_i htoken hne
    obtain ⟨rfl, rfl⟩ := Prod.mk.inj (Option.some.inj h)
    refine ⟨List.takeWhile_append_dropWhile.symm, ?_, fun c hc => List.mem_takeWhile_imp hc⟩
    intro hnil
    exact hne hnil

theorem moreTokens_sound (cs : List Char) {more rest : List Char} (h : moreTokens cs = some (more, rest)) :
    cs = more ++ rest ∧ MoreTokens more := by
  induction cs using moreTokens.induct generalizing more rest with
  | case1 tail hnone =>
    rw [moreTokens] at h
    split at h
    · cases h
    · rename_i hsome
      rw [hnone] at hsome
      cases hsome
  | case2 tail token rest' htoken ih =>
    rw [moreTokens] at h
    split at h
    · cases h
    · rename_i hsome
      rw [htoken] at hsome
      cases hsome
      obtain ⟨⟨more', rest''⟩, hmore, hr⟩ := Option.map_eq_some_iff.mp h
      obtain ⟨rfl, rfl⟩ := Prod.mk.inj hr
      obtain ⟨hrest', hmore'⟩ := ih hmore
      obtain ⟨hcs, htext⟩ := consumeRelationToken_sound htoken
      have htail := List.takeWhile_append_dropWhile (p := fun c => decide (c = ' ')) (l := tail)
      rw [hcs, hrest'] at htail
      constructor
      · simp only [List.cons_append, List.append_assoc]
        exact congrArg _ htail.symm
      · have hgap : MoreTokens ((' ' :: tail.takeWhile fun c => decide (c = ' ')) ++ (token ++ more')) := by
          refine .token (List.cons_ne_nil _ _) ?_ htext hmore'
          intro c hc
          rcases List.mem_cons.mp hc with rfl | hc
          · rfl
          · simpa using List.mem_takeWhile_imp hc
        simpa using hgap
  | case3 cs hcs =>
    rw [moreTokens] at h
    · obtain ⟨rfl, rfl⟩ := Prod.mk.inj (Option.some.inj h)
      exact ⟨rfl, .none⟩
    · exact hcs

theorem parseRelation_sound {cs relation rest : List Char} (h : parseRelation cs = some (relation, rest)) :
    cs = relation ++ rest ∧ RelationText relation := by
  unfold parseRelation at h
  split at h
  · split at h
    · cases h
    · rename_i htoken
      split at h
      · rename_i hmore
        obtain ⟨rfl, rfl⟩ := Prod.mk.inj (Option.some.inj h)
        obtain ⟨rfl, htext⟩ := consumeRelationToken_sound htoken
        obtain ⟨rfl, hmores⟩ := moreTokens_sound _ hmore
        exact ⟨by simp, .quoted htext hmores⟩
      · cases h
  · obtain ⟨hcs, htext⟩ := consumeRelationToken_sound h
    exact ⟨hcs, .token htext⟩

theorem parseTarget_sound {cs target rest : List Char} (h : parseTarget cs = some (target, rest)) :
    cs = target ++ '>' :: rest ∧ target ≠ [] ∧ ∀ c ∈ target, isTargetChar c = true := by
  have hcs := List.takeWhile_append_dropWhile (p := isTargetChar) (l := cs)
  unfold parseTarget at h
  split at h
  · cases h
  · rename_i hrest hne
    obtain ⟨rfl, rfl⟩ := Prod.mk.inj (Option.some.inj h)
    rw [hrest] at hcs
    exact ⟨hcs.symm, fun hnil => hne hnil, fun c hc => List.mem_takeWhile_imp hc⟩
  · cases h

theorem parseMember_sound {cs rest : List Char} {member : IssueEventLinkMember}
    (h : parseMember cs = some (member, rest)) :
    ∃ raw, cs = raw ++ rest ∧ MemberText { member with raw := raw } := by
  obtain ⟨before, hbefore, hcs⟩ := skipOws_sound cs
  unfold parseMember at h
  split at h
  · rename_i afterOpen hopen
    rw [hopen] at hcs
    split at h
    · cases h
    · rename_i target afterTarget htarget
      obtain ⟨rfl, hne, hchars⟩ := parseTarget_sound htarget
      obtain ⟨gap₁, hgap₁, hcs₁⟩ := skipOws_sound afterTarget
      split at h
      · rename_i afterSemi hsemi
        rw [hsemi] at hcs₁
        obtain ⟨gap₂, hgap₂, hcs₂⟩ := skipOws_sound afterSemi
        split at h
        · rename_i afterRel hrel
          rw [hrel] at hcs₂
          obtain ⟨gap₃, hgap₃, hcs₃⟩ := skipOws_sound afterRel
          split at h
          · rename_i afterEq heq
            rw [heq] at hcs₃
            obtain ⟨gap₄, hgap₄, hcs₄⟩ := skipOws_sound afterEq
            obtain ⟨⟨relation, rest'⟩, hrelation, hr⟩ := Option.map_eq_some_iff.mp h
            obtain ⟨rfl, rfl⟩ := Prod.mk.inj hr
            obtain ⟨hvalue, htext⟩ := parseRelation_sound hrelation
            refine ⟨_, ?_, .mk hbefore hne hchars hgap₁ hgap₂ hgap₃ hgap₄ htext⟩
            rw [hcs, hcs₁, hcs₂, hcs₃, hcs₄, hvalue]
            simp
          · cases h
        · cases h
      · cases h
  · cases h

theorem take_raw {raw rest cs : List Char} (h : cs = raw ++ rest) : cs.take (cs.length - rest.length) = raw := by
  rw [h, List.length_append, Nat.add_sub_cancel, List.take_left']
  rfl

theorem framedMembers_sound (cs : List Char) {members : List FramedLinkMember}
    (h : framedMembers cs = some members) : LinkText members cs := by
  induction hn : cs.length using Nat.strong_induction_on generalizing cs members with
  | _ n ih =>
    rw [framedMembers_eq] at h
    cases hmember : parseMember cs with
    | none =>
      rw [hmember] at h
      cases h
    | some r =>
      obtain ⟨member, rest⟩ := r
      rw [hmember] at h
      dsimp only at h
      have hshort := parseMember_shorter hmember
      obtain ⟨raw, hcs, htext⟩ := parseMember_sound hmember
      rw [take_raw hcs] at h
      by_cases hrest : rest = []
      · rw [if_pos hrest] at h
        obtain rfl := Option.some.inj h
        have hraw : cs = raw := by rw [hcs, hrest, List.append_nil]
        rw [hraw]
        exact .last htext
      rw [if_neg hrest] at h
      split at h
      · rename_i rest' hcomma
        obtain ⟨gap, hgap, hsplit⟩ := skipOws_sound rest
        rw [hcomma] at hsplit
        have hle := congrArg List.length hsplit
        rw [List.length_append, List.length_cons] at hle
        obtain ⟨members', hmembers', rfl⟩ := Option.map_eq_some_iff.mp h
        have hlink := ih rest'.length (by omega) rest' hmembers' rfl
        rw [hcs, hsplit]
        exact .comma htext hgap hlink
      · cases h

/-! ## What is in the grammar is read -/

theorem not_isOws_of_isRelationChar {c : Char} (h : isRelationChar c = true) : isOws c = false := by
  unfold isRelationChar at h
  simp only [Bool.and_eq_true, decide_eq_true_eq] at h
  have hlow : 0x21 ≤ c.toNat := by tauto
  unfold isOws
  rw [Bool.or_eq_false_iff, decide_eq_false_iff_not, decide_eq_false_iff_not]
  constructor
  · rintro rfl
    exact absurd hlow (by decide)
  · rintro rfl
    exact absurd hlow (by decide)

theorem not_isRelationChar_of_isOws {c : Char} (h : isOws c = true) : isRelationChar c = false := by
  cases hc : isRelationChar c with
  | false => rfl
  | true =>
    rw [not_isOws_of_isRelationChar hc] at h
    cases h

theorem skipOws_append {before rest : List Char} (h : Ows before) (hrest : Munch.Stops isOws rest) :
    skipOws (before ++ rest) = rest := (Munch.takeWhile_append h hrest).2

theorem RelationText.stops_ows {relation : List Char} (h : RelationText relation) (rest : List Char) :
    Munch.Stops isOws (relation ++ rest) := by
  cases h with
  | token h =>
    cases hcs : relation with
    | nil => exact absurd hcs h.some
    | cons c cs => exact Munch.stops_cons (not_isOws_of_isRelationChar (h.chars c (hcs ▸ List.mem_cons_self))) _
  | quoted h hmore => exact Munch.stops_cons rfl _

theorem consumeRelationToken_append {token rest : List Char} (h : Token token)
    (hrest : Munch.Stops isRelationChar rest) : consumeRelationToken (token ++ rest) = some (token, rest) := by
  obtain ⟨htake, hdrop⟩ := Munch.takeWhile_append h.chars hrest
  unfold consumeRelationToken
  rw [htake, hdrop]
  cases token with
  | nil => exact absurd rfl h.some
  | cons c cs => rfl

theorem MoreTokens.stops {more : List Char} (h : MoreTokens more) {rest : List Char}
    (hrest : Munch.Stops isRelationChar rest) : Munch.Stops isRelationChar (more ++ rest) := by
  cases h with
  | none => exact hrest
  | @token gap token more hgap hspaces htoken hmore =>
    cases hcs : gap with
    | nil => exact absurd hcs hgap
    | cons c cs =>
      obtain rfl := hspaces c (hcs ▸ List.mem_cons_self)
      exact Munch.stops_cons rfl _

theorem moreTokens_append {more rest : List Char} (h : MoreTokens more) :
    moreTokens (more ++ '"' :: rest) = some (more, '"' :: rest) := by
  induction h with
  | none =>
    rw [moreTokens]
    · rfl
    · simp
  | @token gap token more hgap hspaces htoken hmore ih =>
    cases gap with
    | nil => exact absurd rfl hgap
    | cons c gap =>
      obtain rfl := hspaces c List.mem_cons_self
      have hstop : Munch.Stops (fun c => decide (c = ' ')) (token ++ (more ++ '"' :: rest)) := by
        cases htext : token with
        | nil => exact absurd htext htoken.some
        | cons d ds =>
          have hd := not_isOws_of_isRelationChar (htoken.chars d (htext ▸ List.mem_cons_self))
          apply Munch.stops_cons
          rw [isOws, Bool.or_eq_false_iff] at hd
          exact hd.1
      obtain ⟨htake, hdrop⟩ := @Munch.takeWhile_append _ _ gap _
        (fun c hc => decide_eq_true (hspaces c (List.mem_cons_of_mem _ hc))) hstop
      have hread := consumeRelationToken_append htoken (@MoreTokens.stops _ hmore ('"' :: rest) (Munch.stops_cons rfl rest))
      rw [show ' ' :: gap ++ (token ++ more) ++ '"' :: rest = ' ' :: (gap ++ (token ++ (more ++ '"' :: rest))) by simp,
        moreTokens]
      split
      · rename_i hnone
        rw [hdrop, hread] at hnone
        cases hnone
      · rename_i hsome
        rw [hdrop, hread] at hsome
        cases hsome
        rw [ih, htake, Option.map_some]
        simp

theorem parseRelation_append {relation rest : List Char} (h : RelationText relation)
    (hrest : Munch.Stops isRelationChar rest) : parseRelation (relation ++ rest) = some (relation, rest) := by
  cases h with
  | token h =>
    have hquote : ∀ inner, relation ++ rest ≠ '"' :: inner := by
      intro inner heq
      cases hcs : relation with
      | nil => exact h.some hcs
      | cons c cs =>
        rw [hcs, List.cons_append, List.cons.injEq] at heq
        have hc := h.chars c (hcs ▸ List.mem_cons_self)
        rw [heq.1] at hc
        cases hc
    unfold parseRelation
    split
    · rename_i heq
      exact absurd heq (hquote _)
    · exact consumeRelationToken_append h hrest
  | @quoted token more h hmore =>
    have hread := consumeRelationToken_append h (@MoreTokens.stops _ hmore ('"' :: rest) (Munch.stops_cons rfl rest))
    have htokens := @moreTokens_append _ rest hmore
    rw [show '"' :: (token ++ more ++ ['"']) ++ rest = '"' :: (token ++ (more ++ '"' :: rest)) by simp]
    unfold parseRelation
    simp only [hread, htokens]

theorem parseTarget_append {target : List Char} (hne : target ≠ []) (h : ∀ c ∈ target, isTargetChar c = true)
    (rest : List Char) : parseTarget (target ++ '>' :: rest) = some (target, rest) := by
  obtain ⟨htake, hdrop⟩ := Munch.takeWhile_append h (Munch.stops_cons (p := isTargetChar) (a := '>') rfl rest)
  unfold parseTarget
  rw [htake, hdrop]
  cases target with
  | nil => exact absurd rfl hne
  | cons c cs => rfl

theorem parseMember_append {member : FramedLinkMember} (h : MemberText member) {rest : List Char}
    (hrest : Munch.Stops isRelationChar rest) :
    parseMember (member.raw ++ rest) = some (member.toIssueEventLinkMember, rest) := by
  cases h with
  | @mk before target afterTarget beforeRel afterRel beforeValue relation hbefore htarget hchars hafterTarget
      hbeforeRel hafterRel hbeforeValue hrelation =>
    simp only [List.append_assoc, List.cons_append]
    unfold parseMember
    simp only [skipOws_append hbefore (Munch.stops_cons (p := isOws) (a := '<') rfl _), parseTarget_append htarget hchars,
      skipOws_append hafterTarget (Munch.stops_cons (p := isOws) (a := ';') rfl _),
      skipOws_append hbeforeRel (Munch.stops_cons (p := isOws) (a := 'r') rfl _),
      skipOws_append hafterRel (Munch.stops_cons (p := isOws) (a := '=') rfl _),
      skipOws_append hbeforeValue (hrelation.stops_ows rest), parseRelation_append hrelation hrest, Option.map_some]

theorem Ows.stops {gap : List Char} (h : Ows gap) (rest : List Char) :
    Munch.Stops isRelationChar (gap ++ ',' :: rest) := by
  cases gap with
  | nil => exact Munch.stops_cons rfl _
  | cons c cs => exact Munch.stops_cons (not_isRelationChar_of_isOws (h c List.mem_cons_self)) _

theorem framedMembers_complete {members : List FramedLinkMember} {link : List Char} (h : LinkText members link) :
    framedMembers link = some members := by
  induction h with
  | @last member h =>
    have hread := parseMember_append h (Munch.stops_nil (p := isRelationChar))
    rw [List.append_nil] at hread
    rw [framedMembers_eq, hread]
    dsimp only
    rw [if_pos rfl, take_raw (List.append_nil _).symm]
  | @comma member gap members rest h hgap hrest ih =>
    have hread := parseMember_append h (hgap.stops rest)
    have hne : gap ++ ',' :: rest ≠ [] := by simp
    rw [framedMembers_eq, hread]
    dsimp only
    rw [if_neg hne, skipOws_append hgap (Munch.stops_cons rfl _), take_raw rfl]
    simp only [ih, Option.map_some]

/-! ## The framing as a whole -/

theorem LinkText.ne_nil {members : List FramedLinkMember} {link : List Char} (h : LinkText members link) : link ≠ [] := by
  have hraw : ∀ {member : FramedLinkMember}, MemberText member → member.raw ≠ [] := by
    intro member hmember
    cases hmember
    simp
  cases h with
  | last h => exact hraw h
  | comma h hgap hrest =>
    intro hnil
    exact hraw h (List.append_eq_nil_iff.mp hnil).1

/-- The slices with what stands between them. -/
def rejoin : List FramedLinkMember → List (List Char) → List Char
  | member :: members, gap :: gaps => member.raw ++ (gap ++ ',' :: rejoin members gaps)
  | [member], [] => member.raw
  | _, _ => []

theorem LinkText.rejoin {members : List FramedLinkMember} {link : List Char} (h : LinkText members link) :
    ∃ gaps, (∀ gap ∈ gaps, Ows gap) ∧ gaps.length + 1 = members.length ∧ Events.rejoin members gaps = link := by
  induction h with
  | last h => exact ⟨[], nofun, rfl, rfl⟩
  | @comma member gap members rest h hgap hrest ih =>
    obtain ⟨gaps, hgaps, hlength, hjoin⟩ := ih
    refine ⟨gap :: gaps, ?_, congrArg (· + 1) hlength, ?_⟩
    · intro g hg
      rcases List.mem_cons.mp hg with rfl | hg
      · exact hgap
      · exact hgaps g hg
    · rw [Events.rejoin, hjoin]

/-- A header is read exactly when it is in the grammar, as its one derivation there, whose slices with the white space
and the commas between them are the header. -/
theorem issueEventLink_framing (link : List Char) :
    (∀ result, issueEventLink (some link) = some result ↔
      ∃ members, LinkText members link ∧ result = .present link members) ∧
    (∀ members members', LinkText members link → LinkText members' link → members = members') ∧
    (∀ members, LinkText members link → members ≠ [] ∧
      ∃ gaps, (∀ gap ∈ gaps, Ows gap) ∧ gaps.length + 1 = members.length ∧ rejoin members gaps = link) := by
  refine ⟨?_, ?_, ?_⟩
  · intro result
    unfold issueEventLink
    dsimp only
    constructor
    · intro h
      split_ifs at h
      obtain ⟨members, hmembers, rfl⟩ := Option.map_eq_some_iff.mp h
      exact ⟨members, framedMembers_sound link hmembers, rfl⟩
    · rintro ⟨members, htext, rfl⟩
      rw [if_neg htext.ne_nil, framedMembers_complete htext]
      rfl
  · intro members members' h h'
    have hread := framedMembers_complete h
    rw [framedMembers_complete h'] at hread
    exact (Option.some.inj hread).symm
  · intro members h
    refine ⟨?_, h.rejoin⟩
    cases h <;> simp

end NeonDiff.Events
