import Mathlib.Data.List.Nodup
import NeonDiff.Commands.Authorization

/-! # Only a trusted command asks for changes -/

namespace NeonDiff.Commands

open NeonDiff.Lib NeonDiff.Lib.JsText NeonDiff.Lib.Words NeonDiff.Review

variable {lower : LowerCase}

/-! ## Heads and numbers -/

theorem toLower_isHexDigit {c : Char} (h : isHexDigit c = true) :
    isHexDigit c.toLower = true ∧ c.toLower.toLower = c.toLower ∧ c.toNat < 128 := by
  have hlt : c.toNat < 128 := by
    simp only [isHexDigit, Char.isDigit, Bool.or_eq_true, Bool.and_eq_true, decide_eq_true_eq] at h
    rcases h with (h | h) | h
    · have hle := UInt32.le_iff_toNat_le.mp h.2
      exact Nat.lt_of_le_of_lt hle (by decide)
    · have hle := UInt32.le_iff_toNat_le.mp h.2
      exact Nat.lt_of_le_of_lt hle (by decide)
    · have hle := UInt32.le_iff_toNat_le.mp h.2
      exact Nat.lt_of_le_of_lt hle (by decide)
  have hall : ∀ n < 128, isHexDigit (Char.ofNat n) = true → isHexDigit (Char.ofNat n).toLower = true ∧
      (Char.ofNat n).toLower.toLower = (Char.ofNat n).toLower := by decide
  have hc := hall c.toNat hlt
  rw [Char.ofNat_toNat] at hc
  exact ⟨(hc h).1, (hc h).2, hlt⟩

theorem normalizeHeadSha_eq_some {headSha sha : String} (h : normalizeHeadSha lower headSha = some sha) :
    sha = String.ofList (headSha.toList.map Char.toLower) ∧ headSha.toList.length = 40 ∧
      ∀ c ∈ headSha.toList, isHexDigit c = true := by
  unfold normalizeHeadSha at h
  split at h
  · rename_i hhex
    rw [Bool.and_eq_true, decide_eq_true_eq, List.all_eq_true] at hhex
    refine ⟨?_, hhex.1, hhex.2⟩
    rw [← Option.some.inj h]
    exact lower.ascii headSha fun c hc => (toLower_isHexDigit (hhex.2 c hc)).2.2
  · cases h

theorem normalizeHeadSha_normalized {headSha sha : String} (h : normalizeHeadSha lower headSha = some sha) :
    normalizeHeadSha lower sha = some sha := by
  obtain ⟨rfl, hlength, hhex⟩ := normalizeHeadSha_eq_some h
  have hchars : ∀ c ∈ headSha.toList.map Char.toLower, isHexDigit c = true ∧ c.toLower = c ∧ c.toNat < 128 := by
    intro c hc
    obtain ⟨d, hd, rfl⟩ := List.mem_map.mp hc
    obtain ⟨hlow, htwice, -⟩ := toLower_isHexDigit (hhex d hd)
    exact ⟨hlow, htwice, (toLower_isHexDigit hlow).2.2⟩
  unfold normalizeHeadSha
  rw [if_pos]
  · rw [lower.ascii _ fun c hc => (hchars c (by simpa using hc)).2.2]
    congr 2
    rw [String.toList_ofList]
    exact (List.map_congr_left fun c hc => (hchars c hc).2.1).trans (List.map_id _)
  · rw [Bool.and_eq_true, decide_eq_true_eq, List.all_eq_true, String.toList_ofList, List.length_map]
    exact ⟨hlength, fun c hc => (hchars c hc).1⟩

theorem readPullNumber_eq_some_iff {token : String} {n : Nat} :
    readPullNumber token = some n ↔ token = toString n ∧ 0 < n ∧ isSafeInteger n = true := by
  unfold readPullNumber
  constructor
  · intro h
    simp only [Bool.and_eq_true, decide_eq_true_eq, List.all_eq_true] at h
    split at h
    · rename_i hdigits
      obtain ⟨⟨⟨hne, hall⟩, hlead⟩, hsafe⟩ := hdigits
      obtain ⟨hprint, hpos⟩ := toDigits_digitsValue hne hall hlead
      obtain rfl := Option.some.inj h
      refine ⟨?_, hpos, hsafe⟩
      rw [Nat.toString_eq_ofList_toDigits, hprint, String.ofList_toList]
    · cases h
  · rintro ⟨rfl, hpos, hsafe⟩
    simp only [Nat.toString_eq_ofList_toDigits, String.toList_ofList, digitsValue_toDigits]
    rw [if_pos]
    simp only [Bool.and_eq_true, decide_eq_true_eq, List.all_eq_true]
    exact ⟨⟨⟨Nat.toDigits_ne_nil, fun c hc => Nat.isDigit_of_mem_toDigits (by decide) (by decide) hc⟩,
      head?_toDigits hpos⟩, hsafe⟩

/-! ## The command -/

def textWords (text : String) : List String := (words text.toList).map String.ofList

def IsSingleLine (text : String) : Prop := '\r' ∉ trim text.toList ∧ '\n' ∉ trim text.toList

instance (text : String) : Decidable (IsSingleLine text) := inferInstanceAs (Decidable (_ ∧ _))

/-- The body asks for changes to the pull request at the head: a single line equal to the command up to white space
and the case of the mention, the verb and the head. -/
def IsCommandFor (lower : LowerCase) (mentions : List String) (target : ReviewEventAuthorizationTarget)
    (body : Option String) : Prop :=
  ∃ text, body = some text ∧ IsSingleLine text ∧ ∃ mention ∈ mentions, ∃ addressed verb head,
    textWords text = [addressed, verb, "--repo", target.repo, "--pr", toString target.pullNumber, "--head", head] ∧
    lower.toLowerCase addressed = lower.toLowerCase mention ∧ lower.toLowerCase verb = "request-changes" ∧
    normalizeHeadSha lower head = normalizeHeadSha lower target.headSha

theorem parseTarget_eq_parsed_iff {tokens : List String} {repo sha : String} {n : Nat} :
    parseTarget lower tokens = .parsed repo n sha ↔
      ∃ addressed verb pr head, tokens = [addressed, verb, "--repo", repo, "--pr", pr, "--head", head] ∧
        isRepoName repo = true ∧ readPullNumber pr = some n ∧ normalizeHeadSha lower head = some sha := by
  constructor
  · intro h
    unfold parseTarget at h
    split at h
    · rename_i addressed verb repoFlag repo' prFlag pr headFlag head
      split at h
      · cases h
      · rename_i hflags
        simp only [decide_not, Bool.or_eq_true, Bool.not_eq_true', decide_eq_false_iff_not, not_or, not_not] at hflags
        obtain ⟨⟨rfl, rfl⟩, rfl⟩ := hflags
        split at h
        · rename_i hname hnumber hhead
          cases h
          exact ⟨addressed, verb, pr, head, rfl, hname, hnumber, hhead⟩
        · cases h
    · cases h
  · rintro ⟨addressed, verb, pr, head, rfl, hname, hnumber, hhead⟩
    simp [parseTarget, hname, hnumber, hhead]

theorem addressesBot_iff {mentions : List String} {addressed verb : String} {rest : List String} :
    addressesBot lower mentions (addressed :: verb :: rest) = true ↔
      (∃ mention ∈ mentions, lower.toLowerCase addressed = lower.toLowerCase mention) ∧
        lower.toLowerCase verb = "request-changes" := by
  simp [addressesBot]

theorem includes_of_prefix {needle text : List Char} (h : needle <+: text) : includes needle text = true := by
  cases text with
  | nil =>
    rw [List.prefix_nil.mp h]
    rfl
  | cons c text =>
    rw [includes, List.isPrefixOf_iff_prefix.mpr h, Bool.true_or]

theorem ofList_intercalate_cons_cons (first second : String) (rest : List String) :
    ∃ tail, String.ofList ([' '].intercalate ((first :: second :: rest).map String.toList)) = first ++ " " ++ second ++ tail ∧
      (tail = "" ∨ ∃ last, tail = " " ++ last) := by
  cases rest with
  | nil =>
    refine ⟨"", ?_, Or.inl rfl⟩
    apply String.toList_injective
    simp
  | cons third rest =>
    refine ⟨" " ++ String.ofList ([' '].intercalate ((third :: rest).map String.toList)), ?_, Or.inr ⟨_, rfl⟩⟩
    apply String.toList_injective
    simp [List.intercalate_cons_cons]

theorem mentionsRequestChanges_of_words {mentions : List String} {cs : List Char} {addressed verb mention : String}
    {rest : List String} (hwords : (words cs).map String.ofList = addressed :: verb :: rest)
    (hmention : mention ∈ mentions) (haddressed : lower.toLowerCase addressed = lower.toLowerCase mention)
    (hverb : lower.toLowerCase verb = "request-changes") :
    mentionsRequestChanges lower mentions (collapseSpaces (trim cs)) = true := by
  have hlists : words cs = (addressed :: verb :: rest).map String.toList := by
    rw [← hwords, List.map_map]
    simp [Function.comp_def]
  obtain ⟨tail, htext, htail⟩ := ofList_intercalate_cons_cons addressed verb rest
  unfold mentionsRequestChanges
  rw [List.any_eq_true]
  refine ⟨mention, hmention, includes_of_prefix ?_⟩
  rw [collapseSpaces_trim, hlists, htext, ← haddressed]
  have hjoin : " request-changes" = " " ++ "request-changes" := by decide
  rcases htail with rfl | ⟨last, rfl⟩
  · rewrite [String.append_empty, lower.blank, hverb, hjoin, String.append_assoc]
    exact List.prefix_rfl
  · rw [← String.append_assoc, lower.blank, lower.blank, hverb, hjoin, ← String.append_assoc]
    simp only [String.toList_append, List.append_assoc]
    exact ⟨" ".toList ++ (lower.toLowerCase last).toList, by simp only [List.append_assoc]⟩

theorem tokens_collapseSpaces {cs : List Char} (hne : words cs ≠ []) :
    (split ' ' (collapseSpaces (trim cs))).map String.ofList = (words cs).map String.ofList := by
  rw [split_collapseSpaces hne]

theorem words_ne_nil_of_trim {cs : List Char} (h : trim cs ≠ []) : words cs ≠ [] := by
  intro hwords
  apply h
  rw [trim_eq_nil]
  intro c hc
  by_contra hspace
  have hkeep : (!isSpace c) = true := by
    rw [Bool.not_eq_true']
    exact Bool.eq_false_iff.mpr hspace
  exact runs_ne_nil hc hkeep hwords

theorem parseRequestChangesCommand_eq_parsed_iff (mentions : List String) (body : Option String)
    {target : ReviewEventAuthorizationTarget} {sha : String} (hsha : normalizeHeadSha lower target.headSha = some sha) :
    parseRequestChangesCommand lower body mentions = some (.parsed target.repo target.pullNumber sha) ↔
      IsCommandFor lower mentions target body ∧ isRepoName target.repo = true ∧ 0 < target.pullNumber ∧
        isSafeInteger target.pullNumber = true := by
  unfold parseRequestChangesCommand
  constructor
  · intro h
    split at h
    · cases h
    · rename_i text hbody
      have hsome : body = some text := (Option.filter_eq_some_iff.mp hbody).1
      dsimp only at h
      split at h
      · cases h
      · split at h
        · cases h
        · rename_i hline
          simp only [Bool.or_eq_true, decide_eq_true_eq, List.any_eq_true, not_or, not_exists, not_and] at hline
          obtain ⟨hne, hline⟩ := hline
          rw [tokens_collapseSpaces (words_ne_nil_of_trim hne)] at h
          split at h
          · cases h
          · rename_i haddresses
            rw [Bool.not_eq_true', Bool.not_eq_false] at haddresses
            obtain ⟨addressed, verb, pr, head, htokens, hname, hnumber, hhead⟩ :=
              parseTarget_eq_parsed_iff.mp (Option.some.inj h)
            rw [htokens] at haddresses
            obtain ⟨⟨mention, hmention, haddressed⟩, hverb⟩ := addressesBot_iff.mp haddresses
            obtain ⟨rfl, hpos, hsafe⟩ := readPullNumber_eq_some_iff.mp hnumber
            refine ⟨⟨text, hsome, ⟨fun hc => (hline _ hc).1 rfl, fun hc => (hline _ hc).2 rfl⟩, mention, hmention,
              addressed, verb, head, htokens, haddressed, hverb, ?_⟩, hname, hpos, hsafe⟩
            rw [hhead, hsha]
  · rintro ⟨⟨text, rfl, ⟨hcr, hlf⟩, mention, hmention, addressed, verb, head, htokens, haddressed, hverb, hhead⟩, hname,
      hpos, hsafe⟩
    have hne : words text.toList ≠ [] := by
      intro hwords
      rw [textWords, hwords] at htokens
      cases htokens
    have htrim : trim text.toList ≠ [] := by
      intro hnil
      rw [← words_trim, hnil] at hne
      exact hne rfl
    have htext : text ≠ "" := by
      rintro rfl
      exact htrim rfl
    have hincludes := mentionsRequestChanges_of_words htokens hmention haddressed hverb
    have htarget : parseTarget lower (textWords text) = .parsed target.repo target.pullNumber sha := by
      rw [parseTarget_eq_parsed_iff]
      exact ⟨addressed, verb, toString target.pullNumber, head, htokens, hname,
        readPullNumber_eq_some_iff.mpr ⟨rfl, hpos, hsafe⟩, hhead.trans hsha⟩
    have haddresses : addressesBot lower mentions (textWords text) = true := by
      rw [htokens, addressesBot_iff]
      exact ⟨⟨mention, hmention, haddressed⟩, hverb⟩
    have hline : (decide (trim text.toList = []) || (trim text.toList).any fun c => c = '\r' || c = '\n') = false := by
      simp only [Bool.or_eq_false_iff, decide_eq_false_iff_not, List.any_eq_false, Bool.or_eq_true, decide_eq_true_eq,
        not_or]
      exact ⟨htrim, fun c hc => ⟨fun heq => hcr (heq ▸ hc), fun heq => hlf (heq ▸ hc)⟩⟩
    rw [Option.filter_some, if_pos (by simpa using htext)]
    dsimp only
    rw [hincludes, Bool.not_true, if_neg Bool.false_ne_true, hline, if_neg Bool.false_ne_true,
      tokens_collapseSpaces hne, ← textWords, haddresses, Bool.not_true, if_neg Bool.false_ne_true, htarget]

/-! ## The comments -/

def IsTrusted (config : CommandConfig) (login : Option String) : Prop :=
  ∃ author ∈ config.trustedAuthors, login = some author

/-- The comment of a trusted author, with a login that the bot reads, holds the command for the target. -/
def Authorizes (lower : LowerCase) (config : CommandConfig) (target : ReviewEventAuthorizationTarget)
    (comment : IssueCommentCommandSource) : Prop :=
  (isSafeInteger comment.id = true ∧ 1 ≤ comment.id) ∧ IsCommandFor lower config.botMentions target comment.body ∧
    ∃ author ∈ config.trustedAuthors, comment.login = some author ∧ isBoundedAuthor author = true

def CanBeNamed (target : ReviewEventAuthorizationTarget) : Prop :=
  isRepoName target.repo = true ∧ 0 < target.pullNumber ∧ isSafeInteger target.pullNumber = true

def EligibleFor (lower : LowerCase) (headSha : String) (attempt : ReviewEventAuthorizationAttempt) : Prop :=
  ∃ sha author commentId, attempt = .eligible sha author commentId ∧ (normalizeHeadSha lower headSha).isSome = true ∧
    normalizeHeadSha lower sha = normalizeHeadSha lower headSha

theorem filter_boundedAuthor_eq_some {config : CommandConfig} {login : Option String} {author : String} :
    (boundedAuthor login).filter (fun author => isExplicitTrustedAuthor author config) = some author ↔
      author ∈ config.trustedAuthors ∧ login = some author ∧ isBoundedAuthor author = true := by
  unfold boundedAuthor isExplicitTrustedAuthor
  rw [Option.filter_eq_some_iff, Option.filter_eq_some_iff]
  simp only [Bool.and_eq_true, decide_eq_true_eq, List.contains_eq_mem]
  constructor
  · rintro ⟨⟨hlogin, hbounded⟩, -, htrusted⟩
    exact ⟨htrusted, hlogin, hbounded⟩
  · rintro ⟨htrusted, hlogin, hbounded⟩
    refine ⟨⟨hlogin, hbounded⟩, ?_, htrusted⟩
    rintro rfl
    exact absurd hbounded (by decide)

/-- A comment attempts something eligible for the head just when it is the command of a trusted author. -/
theorem commentAttempt_eligible_iff {config : CommandConfig} {target : ReviewEventAuthorizationTarget}
    {comment : IssueCommentCommandSource} (hhead : (normalizeHeadSha lower target.headSha).isSome = true) :
    (∃ attempt request, commentAttempt lower config target comment = some (attempt, request) ∧
        EligibleFor lower target.headSha attempt) ↔
      IsCommandFor lower config.botMentions target comment.body ∧ CanBeNamed target ∧
        ∃ author ∈ config.trustedAuthors, comment.login = some author ∧ isBoundedAuthor author = true := by
  obtain ⟨sha, hsha⟩ := Option.isSome_iff_exists.mp hhead
  have hparse := parseRequestChangesCommand_eq_parsed_iff config.botMentions comment.body hsha
  unfold commentAttempt
  constructor
  · rintro ⟨attempt, request, hattempt, sha', author, commentId, rfl, -, -⟩
    rw [Option.map_eq_some_iff] at hattempt
    obtain ⟨parsed, hparsed, heq⟩ := hattempt
    cases parsed with
    | malformed => cases heq
    | parsed repo pullNumber headSha =>
      dsimp only at heq
      split at heq
      · cases heq
      · rename_i trusted htrusted
        split at heq
        · cases heq
        · rename_i hsame
          simp only [decide_not, Bool.or_eq_true, Bool.not_eq_true', decide_eq_false_iff_not, not_or, not_not] at hsame
          obtain ⟨⟨rfl, rfl⟩, hsame⟩ := hsame
          obtain rfl := Option.some.inj (hsame.trans hsha)
          obtain ⟨hcommand, hnamed⟩ := hparse.mp hparsed
          exact ⟨hcommand, hnamed, trusted, filter_boundedAuthor_eq_some.mp htrusted⟩
  · rintro ⟨hcommand, hnamed, author, hauthor⟩
    refine ⟨.eligible sha author comment.id, some ⟨comment.id, author, target.repo, target.pullNumber, sha⟩, ?_, sha, author,
      comment.id, rfl, hhead, ?_⟩
    · rw [hparse.mpr ⟨hcommand, hnamed⟩, Option.map_some]
      dsimp only
      rw [filter_boundedAuthor_eq_some.mpr hauthor]
      simp [hsha]
    · rw [normalizeHeadSha_normalized hsha, hsha]

def attemptOf (lower : LowerCase) (config : CommandConfig) (target : ReviewEventAuthorizationTarget)
    (comment : IssueCommentCommandSource) : Option ReviewEventAuthorizationAttempt :=
  if isSafeInteger comment.id && 1 ≤ comment.id then (commentAttempt lower config target comment).map Prod.fst else none

theorem collectComment_of_new (lower : LowerCase) (config : CommandConfig) (target : ReviewEventAuthorizationTarget)
    {collecting : Collecting} {comment : IssueCommentCommandSource} (hnew : comment.id ∉ collecting.seenCommentIds) :
    (collectComment lower config target collecting comment).attempts =
        collecting.attempts ++ (attemptOf lower config target comment).toList ∧
      (collectComment lower config target collecting comment).seenCommentIds ⊆
        comment.id :: collecting.seenCommentIds := by
  unfold collectComment attemptOf
  by_cases hsafe : isSafeInteger comment.id = true ∧ 1 ≤ comment.id
  · have hskip : (!isSafeInteger comment.id || decide (comment.id < 1) ||
        collecting.seenCommentIds.contains comment.id) = false := by
      simp [hsafe.1, hnew, Int.not_lt.mpr hsafe.2]
    rw [hskip, if_neg Bool.false_ne_true, if_pos (by simp [hsafe])]
    cases hattempt : commentAttempt lower config target comment with
    | none => simp
    | some found => simp
  · have hskip : (!isSafeInteger comment.id || decide (comment.id < 1) ||
        collecting.seenCommentIds.contains comment.id) = true := by
      by_cases hint : isSafeInteger comment.id = true
      · have hlt : comment.id < 1 := Int.not_le.mp fun hle => hsafe ⟨hint, hle⟩
        simp [hlt]
      · simp [hint]
    have hnone : (isSafeInteger comment.id && decide (1 ≤ comment.id)) = false := by
      rw [Bool.eq_false_iff]
      simpa using hsafe
    rw [hskip, if_pos rfl, hnone]
    simp

theorem foldl_collectComment {config : CommandConfig} {target : ReviewEventAuthorizationTarget}
    (comments : List IssueCommentCommandSource) (hids : (comments.map (·.id)).Nodup) (collecting : Collecting)
    (hnew : ∀ comment ∈ comments, comment.id ∉ collecting.seenCommentIds) :
    (comments.foldl (collectComment lower config target) collecting).attempts =
      collecting.attempts ++ comments.filterMap (attemptOf lower config target) := by
  induction comments generalizing collecting with
  | nil => simp
  | cons comment comments ih =>
    rw [List.map_cons, List.nodup_cons] at hids
    obtain ⟨hattempts, hseen⟩ := collectComment_of_new lower config target
      (hnew comment List.mem_cons_self)
    rw [List.foldl_cons, ih hids.2, hattempts, List.append_assoc, List.filterMap_cons]
    · cases attemptOf lower config target comment <;> rfl
    · intro other hother hmem
      rcases List.mem_cons.mp (hseen hmem) with heq | hmem
      · exact hids.1 (heq ▸ List.mem_map_of_mem hother)
      · exact hnew other (List.mem_cons_of_mem _ hother) hmem

/-! ## The choice -/

theorem isEligibleFor_iff {headSha : String} {attempt : ReviewEventAuthorizationAttempt} :
    isEligibleFor lower headSha attempt = true ↔ EligibleFor lower headSha attempt := by
  unfold EligibleFor
  cases attempt with
  | eligible sha author commentId =>
    rw [isEligibleFor, Bool.and_eq_true, decide_eq_true_eq]
    constructor
    · exact fun h => ⟨sha, author, commentId, rfl, h⟩
    · rintro ⟨sha', author', commentId', heq, h⟩
      cases heq
      exact h
  | refused status author commentId => simp [isEligibleFor]
  | stale_head sha author commentId => simp [isEligibleFor]

theorem select_eligible_iff (lower : LowerCase) (attempts : List ReviewEventAuthorizationAttempt) (headSha : String) :
    EligibleFor lower headSha (selectReviewEventAuthorizationAttempt lower attempts headSha) ↔
      ∃ attempt ∈ attempts, EligibleFor lower headSha attempt := by
  unfold selectReviewEventAuthorizationAttempt
  constructor
  · intro h
    split at h
    · rename_i attempt hfind
      exact ⟨attempt, List.mem_reverse.mp (List.mem_of_find?_eq_some hfind), h⟩
    · cases hfind : attempts.reverse.find? fun attempt => !isMissing attempt with
      | none =>
        rw [hfind] at h
        obtain ⟨sha, author, commentId, heq, -⟩ := h
        cases heq
      | some attempt =>
        rw [hfind] at h
        exact ⟨attempt, List.mem_reverse.mp (List.mem_of_find?_eq_some hfind), h⟩
  · rintro ⟨attempt, hmem, heligible⟩
    cases hfind : attempts.reverse.find? (isEligibleFor lower headSha) with
    | some found => exact isEligibleFor_iff.mp (List.find?_some hfind)
    | none =>
      have hnot := List.find?_eq_none.mp hfind attempt (List.mem_reverse.mpr hmem)
      exact absurd (isEligibleFor_iff.mpr heligible) hnot

theorem decideReviewEventPolicy_iff (lower : LowerCase) (candidateEvent : ReviewEvent) (headSha : String)
    (authorization : ReviewEventAuthorizationAttempt) :
    (decideReviewEventPolicy lower .trusted_command_only candidateEvent headSha authorization).selectedEvent =
        .REQUEST_CHANGES ↔
      candidateEvent = .REQUEST_CHANGES ∧ EligibleFor lower headSha authorization := by
  cases candidateEvent with
  | COMMENT => simp [decideReviewEventPolicy]
  | REQUEST_CHANGES =>
    cases authorization with
    | refused status author commentId => simp [decideReviewEventPolicy, withMetadata, EligibleFor]
    | stale_head sha author commentId => simp [decideReviewEventPolicy, withMetadata, EligibleFor]
    | eligible sha author commentId =>
      simp only [decideReviewEventPolicy, withMetadata, true_and]
      constructor
      · intro h
        split at h
        · rename_i hsame
          rw [Bool.and_eq_true, decide_eq_true_eq] at hsame
          exact ⟨sha, author, commentId, rfl, by rw [← hsame.2, hsame.1], hsame.2⟩
        · cases h
      · rintro ⟨sha', author', commentId', heq, hsome, hsame⟩
        cases heq
        rw [if_pos (by simp [hsame, hsome])]

theorem chosenEvent_iff {comments : List IssueCommentCommandSource} {config : CommandConfig}
    {target : ReviewEventAuthorizationTarget} (henabled : config.enabled = true)
    (hhead : (normalizeHeadSha lower target.headSha).isSome = true) (hids : (comments.map (·.id)).Nodup)
    (candidateEvent : ReviewEvent) :
    chosenEvent lower comments config target candidateEvent = .REQUEST_CHANGES ↔
      candidateEvent = .REQUEST_CHANGES ∧ CanBeNamed target ∧ ∃ comment ∈ comments, Authorizes lower config target comment := by
  unfold chosenEvent collectReviewEventAuthorizationAttempts
  rw [henabled, Bool.not_true, if_neg Bool.false_ne_true, decideReviewEventPolicy_iff, select_eligible_iff,
    foldl_collectComment comments hids {} fun comment _ => List.not_mem_nil, List.nil_append]
  apply and_congr_right
  intro _
  constructor
  · rintro ⟨attempt, hmem, heligible⟩
    obtain ⟨comment, hcomment, hattempt⟩ := List.mem_filterMap.mp hmem
    unfold attemptOf at hattempt
    split at hattempt
    · rename_i hid
      obtain ⟨⟨found, request⟩, hfound, rfl⟩ := Option.map_eq_some_iff.mp hattempt
      obtain ⟨hcommand, hnamed, hauthor⟩ := (commentAttempt_eligible_iff hhead).mp ⟨found, request, hfound, heligible⟩
      rw [Bool.and_eq_true, decide_eq_true_eq] at hid
      exact ⟨hnamed, comment, hcomment, hid, hcommand, hauthor⟩
    · cases hattempt
  · rintro ⟨hnamed, comment, hcomment, hid, hcommand, hauthor⟩
    obtain ⟨attempt, request, hattempt, heligible⟩ := (commentAttempt_eligible_iff hhead).mpr ⟨hcommand, hnamed, hauthor⟩
    refine ⟨attempt, List.mem_filterMap.mpr ⟨comment, hcomment, ?_⟩, heligible⟩
    rw [attemptOf, if_pos (by simp [hid]), hattempt, Option.map_some]

/-- In the mode that wants a command, changes are asked for just when the candidate asks for them and a comment with a
number, by an author who is listed literally and whose login the bot reads, is the command for the target. What other
authors write never matters. -/
theorem only_trusted_commands_request_changes (lower : LowerCase) (comments : List IssueCommentCommandSource)
    (config : CommandConfig) (target : ReviewEventAuthorizationTarget) (henabled : config.enabled = true)
    (hhead : (normalizeHeadSha lower target.headSha).isSome = true) (hids : (comments.map (·.id)).Nodup)
    (candidateEvent : ReviewEvent) :
    (chosenEvent lower comments config target candidateEvent = .REQUEST_CHANGES ↔
      candidateEvent = .REQUEST_CHANGES ∧ CanBeNamed target ∧
        ∃ comment ∈ comments, Authorizes lower config target comment) ∧
    ∀ others : List IssueCommentCommandSource, (others.map (·.id)).Nodup →
      (∀ comment, IsTrusted config comment.login → (comment ∈ others ↔ comment ∈ comments)) →
      chosenEvent lower others config target candidateEvent = chosenEvent lower comments config target candidateEvent := by
  refine ⟨chosenEvent_iff henabled hhead hids candidateEvent, fun others hothers hsame => ?_⟩
  have hiff : chosenEvent lower others config target candidateEvent = .REQUEST_CHANGES ↔
      chosenEvent lower comments config target candidateEvent = .REQUEST_CHANGES := by
    rw [chosenEvent_iff henabled hhead hothers, chosenEvent_iff henabled hhead hids]
    have hmem : ∀ comment, Authorizes lower config target comment → (comment ∈ others ↔ comment ∈ comments) := by
      rintro comment ⟨-, -, author, hauthor, hlogin, -⟩
      exact hsame comment ⟨author, hauthor, hlogin⟩
    apply and_congr_right
    intro _
    apply and_congr_right
    intro _
    constructor
    · rintro ⟨comment, hcomment, hauthorizes⟩
      exact ⟨comment, (hmem comment hauthorizes).mp hcomment, hauthorizes⟩
    · rintro ⟨comment, hcomment, hauthorizes⟩
      exact ⟨comment, (hmem comment hauthorizes).mpr hcomment, hauthorizes⟩
  cases hleft : chosenEvent lower others config target candidateEvent with
  | REQUEST_CHANGES => exact (hiff.mp hleft).symm
  | COMMENT =>
    cases hright : chosenEvent lower comments config target candidateEvent with
    | COMMENT => rfl
    | REQUEST_CHANGES =>
      rw [hiff.mpr hright] at hleft
      cases hleft

/-! ## A run -/

/-- `toLowerCase` on texts of Latin letters without accents. -/
def asciiLowerCase : LowerCase where
  toLowerCase a := String.ofList (a.toList.map Char.toLower)
  ascii _ _ := rfl
  blank a b := by
    apply String.toList_injective
    have hblank : ' '.toLower = ' ' := by decide
    simp [hblank]

def sampleHead : String := "0123456789abcdef0123456789abcdef01234567"

def sampleTarget : ReviewEventAuthorizationTarget := ⟨"acme/widgets", 12, sampleHead⟩

def sampleConfig : CommandConfig := ⟨true, ["@neondiff"], ["alice", "renovate[bot]"]⟩

def sampleComments (login : String) : List IssueCommentCommandSource :=
  [⟨1, some "LGTM", some "bob"⟩,
    ⟨2, some "@NeonDiff  Request-Changes --repo acme/widgets --pr 12 --head 0123456789ABCDEF0123456789abcdef01234567",
      some login⟩]

/-- A trusted author's command is heard with any other comment in front, or with none. -/
theorem only_trusted_commands_request_changes_of_alice :
    chosenEvent asciiLowerCase (sampleComments "alice") sampleConfig sampleTarget .REQUEST_CHANGES = .REQUEST_CHANGES ∧
      chosenEvent asciiLowerCase ((sampleComments "alice").drop 1) sampleConfig sampleTarget .REQUEST_CHANGES =
        chosenEvent asciiLowerCase (sampleComments "alice") sampleConfig sampleTarget .REQUEST_CHANGES := by
  have h := only_trusted_commands_request_changes asciiLowerCase (sampleComments "alice") sampleConfig sampleTarget rfl
    (by decide +kernel) (by decide) .REQUEST_CHANGES
  refine ⟨by decide +kernel, h.2 _ (by decide) ?_⟩
  rintro comment ⟨author, hauthor, hlogin⟩
  have hbob : comment.login ≠ some "bob" := by
    rw [hlogin]
    rintro heq
    rw [Option.some.inj heq] at hauthor
    revert hauthor
    decide
  have hfirst : comment ≠ ⟨1, some "LGTM", some "bob"⟩ := fun heq => hbob (heq ▸ rfl)
  simp [sampleComments, hfirst]

/-- The command of an author who is listed, but with a login that the bot does not read, asks for nothing. -/
theorem listed_author_is_not_heard :
    ¬∀ (lower : LowerCase) (comments : List IssueCommentCommandSource) (config : CommandConfig)
      (target : ReviewEventAuthorizationTarget), config.enabled = true →
      (∀ mention ∈ config.botMentions, ∀ c ∈ mention.toList, isSpace c = false) →
      (normalizeHeadSha lower target.headSha).isSome = true → (comments.map (·.id)).Nodup →
      ∀ candidateEvent, chosenEvent lower comments config target candidateEvent = .REQUEST_CHANGES ↔
        candidateEvent = .REQUEST_CHANGES ∧ ∃ comment ∈ comments,
          IsCommandFor lower config.botMentions target comment.body ∧ IsTrusted config comment.login := by
  intro h
  have hmentions : ∀ mention ∈ sampleConfig.botMentions, ∀ c ∈ mention.toList, isSpace c = false := by
    intro mention hmention c hc
    rw [List.mem_singleton.mp hmention] at hc
    have hword : "@neondiff".toList.all (fun c => !isSpace c) = true := by decide
    simpa using List.all_eq_true.mp hword c hc
  have hrun := (h asciiLowerCase (sampleComments "renovate[bot]") sampleConfig sampleTarget rfl hmentions
    (by decide +kernel) (by decide) .REQUEST_CHANGES).mpr ⟨rfl, _, List.mem_cons_of_mem _ List.mem_cons_self, ⟨_, rfl, by decide +kernel,
      "@neondiff", List.mem_cons_self, "@NeonDiff", "Request-Changes", "0123456789ABCDEF0123456789abcdef01234567",
      by decide +kernel, by decide +kernel, by decide +kernel, by decide +kernel⟩, "renovate[bot]", by decide, rfl⟩
  revert hrun
  decide +kernel

end NeonDiff.Commands
