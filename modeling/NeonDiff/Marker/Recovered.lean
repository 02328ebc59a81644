import NeonDiff.Marker.RoundTrip

/-! # What is read back from a status comment -/

namespace NeonDiff.Marker

open Lib.JsText Lib.IsoDate Job

/-! ## The state -/

theorem statePatternAt_eq_none {c : Char} (h : c ≠ '<') (cs : List Char) : statePatternAt (c :: cs) = none := by
  unfold statePatternAt
  rw [if_neg]
  rw [List.isPrefixOf_iff_prefix]
  exact fun hopen => h (List.cons_prefix_cons.mp hopen).1.symm

theorem matchState_append {cs : List Char} (h : '<' ∉ cs) (rest : List Char) : matchState (cs ++ rest) = matchState rest := by
  induction cs with
  | nil => rfl
  | cons c cs ih =>
    rw [List.mem_cons, not_or] at h
    rw [List.cons_append, matchState, statePatternAt_eq_none (Ne.symm h.1), Option.none_or, ih h.2]

theorem matchState_identityMarker {repo headSha : List Char} {pullNumber : Nat}
    (h : '<' ∉ repo ++ decimal pullNumber ++ headSha) (rest : List Char) :
    matchState (identityMarker repo pullNumber headSha ++ rest) = matchState rest := by
  simp only [List.mem_append, not_or] at h
  obtain ⟨⟨hrepo, hnumber⟩, hsha⟩ := h
  have hfixed : '<' ∉ "!-- evaos-code-review-bot:review-status".toList ∧ '<' ∉ " repo=".toList ∧ '<' ∉ " pr=".toList ∧
      '<' ∉ " sha=".toList ∧ '<' ∉ " -->".toList := by decide
  obtain ⟨hname, hrepoKey, hnumberKey, hshaKey, hclose⟩ := hfixed
  have htail : '<' ∉ "!-- evaos-code-review-bot:review-status".toList ++ (" repo=".toList ++ repo ++ " pr=".toList ++
      decimal pullNumber ++ " sha=".toList ++ headSha ++ " -->".toList) := by
    simp only [List.mem_append, not_or]
    exact ⟨hname, ⟨⟨⟨⟨⟨hrepoKey, hrepo⟩, hnumberKey⟩, hnumber⟩, hshaKey⟩, hsha⟩, hclose⟩
  have hfirst : ∀ cs : List Char,
      statePatternAt (REVIEW_STATUS_MARKER_PREFIX ++ (" repo=".toList ++ cs)) = none := fun cs => rfl
  have hmarker : identityMarker repo pullNumber headSha ++ rest =
      '<' :: (("!-- evaos-code-review-bot:review-status".toList ++ (" repo=".toList ++ repo ++ " pr=".toList ++
        decimal pullNumber ++ " sha=".toList ++ headSha ++ " -->".toList)) ++ rest) := rfl
  have hnone := hfirst (repo ++ " pr=".toList ++ decimal pullNumber ++ " sha=".toList ++ headSha ++ " -->".toList ++ rest)
  rw [hmarker, matchState, matchState_append htail]
  have hsame : REVIEW_STATUS_MARKER_PREFIX ++ (" repo=".toList ++ (repo ++ " pr=".toList ++ decimal pullNumber ++
      " sha=".toList ++ headSha ++ " -->".toList ++ rest)) =
      '<' :: (("!-- evaos-code-review-bot:review-status".toList ++ (" repo=".toList ++ repo ++ " pr=".toList ++
        decimal pullNumber ++ " sha=".toList ++ headSha ++ " -->".toList)) ++ rest) := by
    simp only [List.append_assoc]
    rfl
  rw [hsame] at hnone
  rw [hnone, Option.none_or]

section
variable {Policy : Type} (tools : CommentTools Policy) (input : BuildReviewStatusCommentInput Policy)

theorem fieldTexts_no_close {fields : List (List Char × List Char)}
    (h : ∀ field ∈ fields, '>' ∉ field.1 ∧ '>' ∉ field.2) : '>' ∉ fieldTexts fields := by
  unfold fieldTexts
  intro hmem
  obtain ⟨field, hfield, hc⟩ := List.mem_flatMap.mp hmem
  simp only [List.mem_cons, List.mem_append] at hc
  obtain ⟨hkey, hvalue⟩ := h field hfield
  rcases hc with hc | hc | hc | hc
  · revert hc
    decide
  · exact hkey hc
  · revert hc
    decide
  · exact hvalue hc

theorem statePatternAt_stateMarker (rest : List Char) :
    statePatternAt (stateMarker tools input ++ rest) =
      (stateText input.state :: callerWords tools input).getLast? := by
  have hnoclose : '>' ∉ fieldTexts (stateFields tools input) := by
    apply fieldTexts_no_close
    intro field hfield
    obtain ⟨⟨hkey, hword, -⟩, hsafe⟩ := stateFields_isField tools input hfield
    constructor
    · intro hmem
      have hclose := hword '>' hmem
      revert hclose
      decide
    · intro hmem
      have hclose := hsafe '>' hmem
      revert hclose
      decide
  obtain ⟨region, hregion⟩ : ∃ region, region = fieldTexts (stateFields tools input) ++ " --".toList := ⟨_, rfl⟩
  have hblank : region.head? = some ' ' := by
    rw [hregion]
    rfl
  have htext : stateMarker tools input ++ rest = REVIEW_STATUS_STATE_MARKER_PREFIX ++ (region ++ '>' :: rest) := by
    rw [stateMarker_eq, hregion]
    simp
  have hdashes : '>' ∉ region := by
    rw [hregion, List.mem_append, not_or]
    exact ⟨hnoclose, by decide⟩
  obtain ⟨htake, hdrop⟩ := @takeWhile_append_exact (fun c => c ≠ '>') region ('>' :: rest)
    (fun c hc => by
      have hne : c ≠ '>' := fun heq => hdashes (heq ▸ hc)
      simpa using hne)
    (fun c hc => by
      cases hc
      decide)
  have hsuffix : ['-', '-'].isSuffixOf region = true := by
    rw [List.isSuffixOf_iff_suffix, hregion]
    exact ⟨fieldTexts (stateFields tools input) ++ [' '], by simp⟩
  have hunfold : ∀ cs : List Char, statePatternAt (REVIEW_STATUS_STATE_MARKER_PREFIX ++ cs) =
      (if cs.dropWhile (· ≠ '>') = [] || cs.head?.any isWordChar || !(['-', '-'].isSuffixOf (cs.takeWhile (· ≠ '>'))) then
        none
      else (statusWords false (cs.takeWhile (· ≠ '>'))).getLast?) := fun cs => rfl
  have hhead : (region ++ '>' :: rest).head?.any isWordChar = false := by
    rw [List.head?_append, hblank]
    rfl
  rw [htext, hunfold, htake, hdrop, hhead, hsuffix, if_neg (by simp), hregion, statusWords_stateFields]

end

theorem reviewStatusCommentStateOf_eq_some {value : List Char} {state : ReviewStatusCommentState} :
    reviewStatusCommentStateOf value = some state ↔ value = stateText state := by
  constructor
  · intro h
    have hfound := List.find?_some h
    exact (of_decide_eq_true hfound).symm
  · rintro rfl
    cases state <;> decide

/-! ## The lines -/

theorem isSlugChar_apart {c : Char} (h : isSlugChar c = true) : c ≠ '<' ∧ c ≠ '\n' := by
  constructor
  · rintro rfl
    revert h
    decide
  · rintro rfl
    revert h
    decide

theorem identity_apart {repo headSha : List Char} {pullNumber : Nat}
    (h : validateMarkerIdentity repo pullNumber headSha = .ok ()) :
    ∀ c ∈ repo ++ decimal pullNumber ++ headSha, c ≠ '<' ∧ c ≠ '\n' := by
  unfold validateMarkerIdentity at h
  split at h
  · cases h
  · rename_i hrepo
    split at h
    · cases h
    · split at h
      · cases h
      · rename_i hsha
        rw [Bool.not_eq_true, Bool.not_eq_false'] at hrepo hsha
        intro c hc
        rcases List.mem_append.mp hc with hc | hc
        · rcases List.mem_append.mp hc with hc | hc
          · unfold isRepoSlug at hrepo
            split at hrepo
            · rename_i owner name hsplit
              simp only [Bool.and_eq_true, List.all_eq_true] at hrepo
              obtain ⟨⟨⟨-, howner⟩, -⟩, hname⟩ := hrepo
              have hjoin := intercalate_split '/' repo
              rw [hsplit] at hjoin
              have hslash : repo = owner ++ '/' :: name := by simpa [List.intercalate] using hjoin.symm
              rw [hslash, List.mem_append, List.mem_cons] at hc
              rcases hc with hc | rfl | hc
              · exact isSlugChar_apart (howner c hc)
              · decide
              · exact isSlugChar_apart (hname c hc)
            · cases hrepo
          · have hdigit : c.isDigit = true := Nat.isDigit_of_mem_toDigits (by decide) (by decide) hc
            apply isSlugChar_apart
            simp [isSlugChar, Char.isAlphanum, hdigit]
        · unfold isHeadSha at hsha
          rw [Bool.and_eq_true, List.all_eq_true] at hsha
          have hhex := hsha.2 c hc
          constructor
          · rintro rfl
            revert hhex
            decide
          · rintro rfl
            revert hhex
            decide

theorem identityMarker_one_line {repo headSha : List Char} {pullNumber : Nat}
    (h : '\n' ∉ repo ++ decimal pullNumber ++ headSha) : '\n' ∉ identityMarker repo pullNumber headSha := by
  simp only [List.mem_append, not_or] at h
  obtain ⟨⟨hrepo, hnumber⟩, hsha⟩ := h
  unfold identityMarker REVIEW_STATUS_MARKER_PREFIX
  simp only [List.mem_append, not_or]
  refine ⟨by decide, ⟨⟨⟨⟨⟨?_, hrepo⟩, ?_⟩, hnumber⟩, ?_⟩, hsha⟩, ?_⟩ <;> decide

section
variable {Policy : Type} (tools : CommentTools Policy) (input : BuildReviewStatusCommentInput Policy)

theorem stateMarker_one_line : '\n' ∉ stateMarker tools input := by
  rw [stateMarker_eq]
  simp only [List.mem_append, not_or]
  refine ⟨by decide, ?_, by decide⟩
  intro hmem
  obtain ⟨field, hfield, hc⟩ := List.mem_flatMap.mp hmem
  obtain ⟨⟨hkey, hword, -⟩, hsafe⟩ := stateFields_isField tools input hfield
  simp only [List.mem_cons, List.mem_append] at hc
  rcases hc with hc | hc | hc | hc
  · revert hc
    decide
  · have hnewline := hword _ hc
    revert hnewline
    decide
  · revert hc
    decide
  · have hnewline := hsafe _ hc
    revert hnewline
    decide

variable {tools input}

theorem buildReviewStatusComment_eq_ok {comment : ReviewStatusComment}
    (h : buildReviewStatusComment tools input = .ok comment) :
    validateMarkerIdentity input.repo input.pullNumber input.headSha = .ok () ∧
      comment.marker = identityMarker input.repo input.pullNumber input.headSha ∧
      ∃ rest, comment.body = comment.marker ++ '\n' :: (stateMarker tools input ++ '\n' :: rest) := by
  unfold buildReviewStatusComment buildReviewStatusMarker at h
  cases hvalid : validateMarkerIdentity input.repo input.pullNumber input.headSha with
  | error message =>
    rw [hvalid] at h
    cases h
  | ok _ =>
    rw [hvalid] at h
    dsimp only at h
    split at h
    · cases h
    · cases h
      refine ⟨rfl, rfl, ?_⟩
      obtain ⟨lines, hlines⟩ : ∃ lines, commentLines tools input = [] :: lines := ⟨_, rfl⟩
      refine ⟨['\n'].intercalate (commentLines tools input), ?_⟩
      rw [hlines, List.intercalate_cons_cons, List.intercalate_cons_cons]
      simp

theorem split_body {comment : ReviewStatusComment} (h : buildReviewStatusComment tools input = .ok comment) :
    ∃ lines, split '\n' comment.body = comment.marker :: stateMarker tools input :: lines := by
  obtain ⟨hvalid, hmarker, rest, hbody⟩ := buildReviewStatusComment_eq_ok h
  have hline : '\n' ∉ comment.marker := by
    rw [hmarker]
    exact identityMarker_one_line fun hmem => (identity_apart hvalid _ hmem).2 rfl
  refine ⟨split '\n' rest, ?_⟩
  rw [hbody, split_append_sep hline, split_append_sep (stateMarker_one_line tools input)]

theorem parseReviewStatusCommentState_body {comment : ReviewStatusComment}
    (h : buildReviewStatusComment tools input = .ok comment) :
    parseReviewStatusCommentState (some comment.body) =
      reviewStatusCommentStateOf ((callerWords tools input).getLast?.getD (stateText input.state)) := by
  obtain ⟨hvalid, hmarker, rest, hbody⟩ := buildReviewStatusComment_eq_ok h
  have hopen : '<' ∉ input.repo ++ decimal input.pullNumber ++ input.headSha :=
    fun hmem => (identity_apart hvalid _ hmem).1 rfl
  have hstate := statePatternAt_stateMarker tools input ('\n' :: rest)
  have hlast : (stateText input.state :: callerWords tools input).getLast? =
      some ((callerWords tools input).getLast?.getD (stateText input.state)) := List.getLast?_cons
  rw [hlast] at hstate
  obtain ⟨c, cs, hcons⟩ : ∃ c cs, stateMarker tools input ++ '\n' :: rest = c :: cs := ⟨_, _, rfl⟩
  rw [hcons] at hstate
  have hbreak := @matchState_append ['\n'] (by decide) (stateMarker tools input ++ '\n' :: rest)
  rw [List.singleton_append] at hbreak
  rw [parseReviewStatusCommentState, Option.bind_some, hbody, hmarker, matchState_identityMarker hopen, hbreak, hcons,
    matchState, hstate]
  rfl

/-! ## The round trip -/

variable (tools input) in
def markerTokens : List (List Char) := (lifecycleFields tools input).map Prod.snd

variable (tools input) in
/-- What the readers of a comment get back. -/
structure RoundTrip (comment : ReviewStatusComment) : Prop where
  state : parseReviewStatusCommentState (some comment.body) = some input.state
  fields : ∃ line, (split '\n' comment.body)[1]? = some line ∧
    parseMarkerLifecycleFields line = sanitizedLifecycleFields tools input
  tokens : ∀ token ∈ markerTokens tools input,
    (∀ c ∈ token, isSpace c = false ∧ c ≠ '>') ∧ ¬['-', '-'] <:+: token
  identity : (split '\n' comment.body).head? = some (identityMarker input.repo input.pullNumber input.headSha)

variable (tools input) in
/-- No dashes of a caller's text meet, and the last status word there, if there is one, is the comment's own state. -/
def Unambiguous : Prop :=
  (∀ text ∈ callerTexts tools input, dashesMeet false text = false) ∧
    ∀ word, (callerWords tools input).getLast? = some word → word = stateText input.state

theorem not_pair_infix_of_plain {text : List Char} (h : ∀ c ∈ text, isPlainChar c = true) : ¬['-', '-'] <:+: text := by
  intro hpair
  have hdash := h '-' (hpair.subset List.mem_cons_self)
  revert hdash
  decide

theorem mem_callerToken {value : Option (List Char)} {token : List Char} :
    callerToken tools value = some token ↔
      token ≠ [] ∧ ∃ text, value = some text ∧ token = removeUnsafe (tools.redactSecrets text) := by
  constructor
  · exact callerToken_safe tools
  · rintro ⟨hne, text, rfl, rfl⟩
    rw [callerToken, Option.map_some, sanitizeMarkerToken_eq, nonEmpty, Option.filter_eq_some_iff]
    exact ⟨rfl, by simpa using hne⟩

theorem not_pair_infix_markerTokens :
    (∀ token ∈ markerTokens tools input, ¬['-', '-'] <:+: token) ↔
      ∀ text ∈ callerTexts tools input, dashesMeet false text = false := by
  have hmeet : ∀ text, ['-', '-'] <:+: removeUnsafe text ↔ dashesMeet false text = true := by
    intro text
    have hpair := pair_infix_removeUnsafe false text
    rwa [if_neg Bool.false_ne_true, List.nil_append] at hpair
  by_cases h : hasReviewLifecycleOptIn input = true
  · have houtcome : ∀ outcome : MarkerOutcome, ¬['-', '-'] <:+: outcome.text :=
      fun outcome => not_pair_infix_of_plain (outcome_plain outcome).2
    have hrole : ¬['-', '-'] <:+: "reviewer".toList :=
      not_pair_infix_of_plain (List.all_eq_true.mp (by decide))
    have hhash : ¬['-', '-'] <:+: buildIssueHash tools input.repo input.pullNumber input.headSha :=
      not_pair_infix_of_plain fun c hc => isPlainChar_of_hex (mem_buildIssueHash tools hc)
    have hcaller : ∀ value : Option (List Char),
        (∀ token, callerToken tools value = some token → ¬['-', '-'] <:+: token) ↔
          ∀ text, value = some text → dashesMeet false (tools.redactSecrets text) = false := by
      intro value
      constructor
      · intro hnone text hvalue
        by_contra hdashes
        rw [Bool.not_eq_false, ← hmeet] at hdashes
        have hne : removeUnsafe (tools.redactSecrets text) ≠ [] := by
          intro hnil
          rw [hnil] at hdashes
          exact List.cons_ne_nil _ _ (List.eq_nil_of_infix_nil hdashes)
        exact hnone _ (mem_callerToken.mpr ⟨hne, text, hvalue, rfl⟩) hdashes
      · intro hapart token htoken
        obtain ⟨-, text, hvalue, rfl⟩ := mem_callerToken.mp htoken
        rw [hmeet, hapart text hvalue]
        exact Bool.false_ne_true
    have hrun := hcaller input.runId
    have hhandoff := hcaller input.handoffTarget
    rw [markerTokens, lifecycleFields_eq tools input h, callerTexts]
    constructor
    · intro hall text htext
      obtain ⟨source, hsource, rfl⟩ := List.mem_map.mp htext
      rcases List.mem_append.mp hsource with hsource | hsource
      · apply hrun.mp _ source (Option.mem_toList.mp hsource)
        intro token htoken
        apply hall
        simp [htoken]
      · apply hhandoff.mp _ source (Option.mem_toList.mp hsource)
        intro token htoken
        apply hall
        simp [htoken]
    · intro hall token htoken
      have hrunAll := hrun.mpr fun text htext => hall _ (by simp [htext])
      have hhandoffAll := hhandoff.mpr fun text htext => hall _ (by simp [htext])
      simp only [List.map_append, List.mem_append, List.mem_map, Option.mem_toList, Option.map_eq_some_iff,
        List.mem_singleton] at htoken
      rcases htoken with (((⟨_, ⟨token, htoken, rfl⟩, rfl⟩ | ⟨_, rfl, rfl⟩) | ⟨_, ⟨outcome, -, rfl⟩, rfl⟩) |
        ⟨_, ⟨token, htoken, rfl⟩, rfl⟩) | ⟨_, rfl, rfl⟩
      · exact hrunAll token htoken
      · exact hrole
      · exact houtcome outcome
      · exact hhandoffAll token htoken
      · exact hhash
  · have hnone : input.runId = none ∧ input.handoffTarget = none := by
      simpa [hasReviewLifecycleOptIn] using h
    rw [markerTokens, lifecycleFields, if_neg h, callerTexts, hnone.1, hnone.2]
    simp

end

/-- The comment of a valid input gives back its state, its sanitized fields and its identity, from tokens that cannot
end the marker, exactly where the run id and the handoff target are unambiguous. -/
theorem round_trip_iff_unambiguous {Policy : Type} (tools : CommentTools Policy)
    (input : BuildReviewStatusCommentInput Policy) (comment : ReviewStatusComment)
    (h : buildReviewStatusComment tools input = .ok comment) :
    RoundTrip tools input comment ↔ Unambiguous tools input := by
  obtain ⟨lines, hlines⟩ := split_body h
  obtain ⟨-, hmarker, -⟩ := buildReviewStatusComment_eq_ok h
  have hstate := parseReviewStatusCommentState_body h
  have hdashes := @not_pair_infix_markerTokens Policy tools input
  constructor
  · intro htrip
    refine ⟨hdashes.mp fun token htoken => (htrip.tokens token htoken).2, fun word hword => ?_⟩
    have hread := htrip.state
    rw [hstate, reviewStatusCommentStateOf_eq_some, hword] at hread
    exact hread
  · rintro ⟨hapart, hwords⟩
    refine ⟨?_, ⟨stateMarker tools input, by rw [hlines]; rfl, parseMarkerLifecycleFields_stateMarker tools input⟩, ?_, ?_⟩
    · rw [hstate, reviewStatusCommentStateOf_eq_some]
      cases hlast : (callerWords tools input).getLast? with
      | none => rfl
      | some word => exact hwords word hlast
    · intro token htoken
      refine ⟨fun c hc => ?_, hdashes.mpr hapart token htoken⟩
      obtain ⟨field, hfield, rfl⟩ := List.mem_map.mp htoken
      exact isSpace_of_safe ((mem_lifecycleFields tools input hfield).2.2 c hc)
    · rw [hlines, ← hmarker]
      rfl

/-! ## Two comments -/

def openTools : CommentTools Unit where
  redactSecrets text := text
  sanitizePublicConfidenceText text _ := text
  sha256 _ := List.replicate 64 '0'
  redact_plain _ _ := rfl
  sha256_length _ := by rw [List.length_replicate]
  sha256_hex _ c hc := by
    rw [List.eq_of_mem_replicate hc]
    decide

def completedInput (runId : String) : BuildReviewStatusCommentInput Unit where
  repo := "acme/app".toList
  pullNumber := 7
  headSha := List.replicate 40 'a'
  state := .completed
  now := 0
  runId := some runId.toList

/-- A run id that names a state is read as the state of the comment. -/
theorem run_id_replaces_state :
    ∃ comment, buildReviewStatusComment openTools (completedInput "status=failed") = .ok comment ∧
      parseReviewStatusCommentState (some comment.body) = some .failed ∧
      ¬RoundTrip openTools (completedInput "status=failed") comment := by
  obtain ⟨comment, hcomment⟩ : ∃ comment, buildReviewStatusComment openTools (completedInput "status=failed") = .ok comment :=
    ⟨_, rfl⟩
  have hread : parseReviewStatusCommentState (some comment.body) = some .failed := by
    rw [parseReviewStatusCommentState_body hcomment]
    decide
  refine ⟨comment, hcomment, hread, fun htrip => ?_⟩
  have hstate := htrip.state
  rw [hread] at hstate
  cases hstate

theorem round_trip_iff_unambiguous_plain :
    ∃ comment, buildReviewStatusComment openTools (completedInput "queue-17") = .ok comment ∧
      RoundTrip openTools (completedInput "queue-17") comment := by
  refine ⟨_, rfl, (round_trip_iff_unambiguous openTools (completedInput "queue-17") _ rfl).mpr ?_⟩
  constructor
  · decide
  · decide

end NeonDiff.Marker
