import NeonDiff.Lib.Lines
import NeonDiff.Review.Quiet
import NeonDiff.Sticky.Model

/-! # Answered threads -/

namespace NeonDiff.Review

open NeonDiff.Lib NeonDiff.Lib.JsText NeonDiff.Lib.Words

/-! ## Reading the threads -/

structure PullReviewComment where
  id : Nat
  path : Option String
  line : Option Int
  inReplyToId : Option Nat
  body : Option String
  user : Option Sticky.GitHubUser
  deriving DecidableEq, Repr

def isHumanReply (comment : PullReviewComment) : Bool :=
  comment.inReplyToId.isSome &&
    comment.user.any fun user => user.type ≠ some "Bot" && !"[bot]".toList.isSuffixOf user.login.toList

/-- `replace(/^\*\*P\d:\s*/, "")`. -/
def dropSeverity : List Char → List Char
  | '*' :: '*' :: 'P' :: d :: ':' :: rest => if d.isDigit then trimStart rest else '*' :: '*' :: 'P' :: d :: ':' :: rest
  | cs => cs

/-- `replace(/\*\*$/, "")`. -/
def dropStars (cs : List Char) : List Char := if "**".toList.isSuffixOf cs then cs.dropLast.dropLast else cs

def isCategoryLine (line : List Char) : Bool := "Category:".toList.isPrefixOf line

def joinLines (lines : List (List Char)) : List Char := ['\n'].intercalate lines

def readThread (id : Nat) (path : String) (line : Int) (body : String) : AnsweredThread :=
  let lines := splitLines body.toList
  { id := id
    path := path
    line := line
    title := String.ofList (trim (dropStars (dropSeverity (lines.headD []))))
    body := String.ofList (trim (joinLines (lines.tail.takeWhile fun line => !isCategoryLine line))) }

def collectAnsweredThreads (comments : List PullReviewComment) (isOwnComment : PullReviewComment → Bool) :
    List AnsweredThread :=
  let answered := (comments.filter isHumanReply).map PullReviewComment.inReplyToId
  comments.filterMap fun root =>
    match root.line, root.path with
    | some line, some path =>
      if root.inReplyToId.isNone && isOwnComment root && answered.contains (some root.id) then
        some (readThread root.id path line (root.body.getD ""))
      else none
    | _, _ => none

/-! ## What a comment still tells -/

variable (fns : TextFunctions)

def publishedTitle (finding : Finding) : String :=
  String.ofList ((splitLines (fns.sanitizePublicConfidenceText finding.title).toList).headD [])

/-- What is published below the first line, up to a line that reads as the category. -/
def publishedBody (finding : Finding) : String :=
  let text := fns.sanitizePublicConfidenceText finding.title ++ "**\n\n" ++
    fns.sanitizePublicConfidenceText finding.body ++ "\n"
  String.ofList (joinLines ((splitLines text.toList).tail.takeWhile fun line => !isCategoryLine line))

def keepsWords (finding : Finding) : Bool :=
  wordSetJaccardAtLeast 1 2 (titleWords fns finding.title) (titleWords fns (publishedTitle fns finding)) ||
    wordSetJaccardAtLeast 2 5 (titleWords fns finding.body) (titleWords fns (publishedBody fns finding))

/-! ## Words -/

/-- `[a-z0-9_-]`. -/
def isTitleWordChar (c : Char) : Bool := isLowerAlnum c || c = '_' || c = '-'

def lowerWords (cs : List Char) : List (List Char) :=
  runs isTitleWordChar (fns.toLowerCase (String.ofList cs)).toList

def partsWords (c : Char) : Bool := isSpace c || c = '*'

/-- In lower case no word goes across white space or an asterisk, and each side has the words it has alone. -/
structure LowersWords : Prop where
  empty : lowerWords fns [] = []
  parted : ∀ (a b : List Char) (c : Char), partsWords c = true →
    lowerWords fns (a ++ c :: b) = lowerWords fns a ++ lowerWords fns b

section
variable {fns}

theorem titleWords_congr {a b : List Char} (h : lowerWords fns a = lowerWords fns b) :
    titleWords fns (String.ofList a) = titleWords fns (String.ofList b) := by
  have hwords : ∀ cs, titleWords fns (String.ofList cs) = (((lowerWords fns cs).map String.ofList).filter fun word =>
      2 < word.length && word ∉ STOP_WORDS).dedup := fun _ => rfl
  rw [hwords, hwords, h]

theorem LowersWords.append_gap (h : LowersWords fns) (cs : List Char) {gap : List Char}
    (hgap : ∀ c ∈ gap, partsWords c = true) : lowerWords fns (cs ++ gap) = lowerWords fns cs := by
  induction gap generalizing cs with
  | nil => rw [List.append_nil]
  | cons c gap ih =>
    have hparted := h.parted cs gap c (hgap c List.mem_cons_self)
    have htail := ih [] fun d hd => hgap d (List.mem_cons_of_mem c hd)
    rw [List.nil_append] at htail
    rw [hparted, htail, h.empty, List.append_nil]

theorem LowersWords.gap_append (h : LowersWords fns) {gap : List Char} (hgap : ∀ c ∈ gap, partsWords c = true)
    (cs : List Char) : lowerWords fns (gap ++ cs) = lowerWords fns cs := by
  induction gap with
  | nil => rfl
  | cons c gap ih =>
    have hparted := h.parted [] (gap ++ cs) c (hgap c List.mem_cons_self)
    rw [List.nil_append, h.empty, List.nil_append] at hparted
    rw [List.cons_append, hparted]
    exact ih fun d hd => hgap d (List.mem_cons_of_mem c hd)

theorem partsWords_of_isSpace {c : Char} (h : isSpace c = true) : partsWords c = true := by
  unfold partsWords
  rw [h, Bool.true_or]

theorem LowersWords.trimStart (h : LowersWords fns) (cs : List Char) :
    lowerWords fns (trimStart cs) = lowerWords fns cs := by
  have hgap : ∀ c ∈ cs.takeWhile isSpace, partsWords c = true :=
    fun c hc => partsWords_of_isSpace (List.mem_takeWhile_imp hc)
  have hsplit : cs.takeWhile isSpace ++ JsText.trimStart cs = cs := List.takeWhile_append_dropWhile
  have hwords := h.gap_append hgap (JsText.trimStart cs)
  rw [hsplit] at hwords
  exact hwords.symm

theorem LowersWords.trim (h : LowersWords fns) (cs : List Char) : lowerWords fns (trim cs) = lowerWords fns cs := by
  obtain ⟨before, after, hsplit, hbefore, hafter⟩ := exists_trim cs
  rw [← hsplit, h.gap_append (fun c hc => partsWords_of_isSpace (hbefore c hc)),
    h.append_gap _ (fun c hc => partsWords_of_isSpace (hafter c hc)), hsplit]

theorem LowersWords.dropStars (h : LowersWords fns) (cs : List Char) :
    lowerWords fns (dropStars cs) = lowerWords fns cs := by
  unfold Review.dropStars
  split
  · rename_i hsuffix
    obtain ⟨front, rfl⟩ := List.isSuffixOf_iff_suffix.mp hsuffix
    have hdropped : (front ++ "**".toList).dropLast.dropLast = front := by
      rw [show "**".toList = ['*', '*'] from rfl]
      simp [List.dropLast_append_of_ne_nil]
    rw [hdropped, h.append_gap front (List.all_eq_true.mp (by decide))]
  · rfl

theorem LowersWords.dropReturn (h : LowersWords fns) (line : List Char) :
    lowerWords fns (dropReturn line) = lowerWords fns line := by
  unfold JsText.dropReturn
  split
  · rename_i hlast
    obtain ⟨front, rfl⟩ := List.getLast?_eq_some_iff.mp hlast
    rw [List.dropLast_concat, h.append_gap front (List.all_eq_true.mp (by decide))]
  · rfl

end

/-! ## The lines of a comment -/

def commentText (finding : Finding) : List Char :=
  (fns.sanitizePublicConfidenceText finding.title ++ "**\n\n" ++ fns.sanitizePublicConfidenceText finding.body).toList

def severityMark (finding : Finding) : List Char := ("**" ++ finding.severity.text ++ ": ").toList

section
variable {fns}

variable (fns) in
theorem formatReviewComment_eq (finding : Finding) (category : RegressionCategory) :
    ∃ footer, (formatReviewComment fns finding category).toList =
      (severityMark finding ++ commentText fns finding) ++ '\n' :: '\n' :: ("Category: ".toList ++ footer) := by
  obtain ⟨why, hwhy⟩ : ∃ why, formatReviewComment fns finding category =
      "**" ++ finding.severity.text ++ ": " ++ fns.sanitizePublicConfidenceText finding.title ++ "**\n\n" ++
        fns.sanitizePublicConfidenceText finding.body ++ "\n\nCategory: " ++ categoryLabel category ++ why := ⟨_, rfl⟩
  have hmark : "\n\nCategory: ".toList = '\n' :: '\n' :: "Category: ".toList := rfl
  refine ⟨(categoryLabel category ++ why).toList, ?_⟩
  rw [hwhy]
  unfold severityMark commentText
  simp only [String.toList_append, List.append_assoc, hmark, List.cons_append]

theorem isCategoryLine_append (rest : List Char) : isCategoryLine ("Category: ".toList ++ rest) = true := by
  unfold isCategoryLine
  rw [show "Category: ".toList = "Category:".toList ++ [' '] from rfl, List.append_assoc]
  exact List.isPrefixOf_iff_prefix.mpr (List.prefix_append _ _)

theorem splitLines_category (footer : List Char) :
    ∃ line rest, splitLines ("Category: ".toList ++ footer) = line :: rest ∧ isCategoryLine line = true := by
  have hsplit := split_append (show '\n' ∉ "Category: ".toList by decide) footer
  unfold splitLines
  rw [hsplit]
  cases (split '\n' footer).tail with
  | nil => exact ⟨_, _, rfl, isCategoryLine_append _⟩
  | cons next rest =>
    refine ⟨_, _, rfl, ?_⟩
    rw [dropReturn_append _ _ (by decide)]
    exact isCategoryLine_append _

variable (fns) in
theorem splitLines_comment (finding : Finding) (category : RegressionCategory) :
    ∃ line rest, isCategoryLine line = true ∧
      splitLines (formatReviewComment fns finding category).toList =
        (severityMark finding ++ dropReturn ((split '\n' (commentText fns finding)).headD [])) ::
          ((split '\n' (commentText fns finding)).tail.map dropReturn ++ [] :: line :: rest) := by
  obtain ⟨footer, hbody⟩ := formatReviewComment_eq fns finding category
  obtain ⟨line, rest, hfooter, hline⟩ := splitLines_category footer
  have hmark : '\n' ∉ severityMark finding := by
    unfold severityMark
    cases finding.severity <;> decide
  have hlast : (severityMark finding).getLast? ≠ some '\r' := by
    unfold severityMark
    cases finding.severity <;> decide
  have hblank : splitLines ('\n' :: ("Category: ".toList ++ footer)) = [] :: line :: rest := by
    have happend := splitLines_append_newline [] ("Category: ".toList ++ footer)
    rw [hfooter] at happend
    exact happend
  refine ⟨line, rest, hline, ?_⟩
  rw [hbody, splitLines_append_newline, hblank, split_append hmark, List.map_cons, dropReturn_append _ _ hlast,
    List.cons_append]

theorem takeWhile_append_cons_of_neg {α : Type} {p : α → Bool} {a : α} (h : p a = false) (as bs : List α) :
    (as ++ a :: bs).takeWhile p = as.takeWhile p := by
  induction as with
  | nil => simp [h]
  | cons b as ih => simp only [List.cons_append, List.takeWhile_cons, ih]

/-- The body that is read back is the published one, up to white space at its ends. -/
theorem readThread_body (finding : Finding) (category : RegressionCategory) (id : Nat) (path : String) (line : Int) :
    (readThread id path line (formatReviewComment fns finding category)).body =
      String.ofList (trim (publishedBody fns finding).toList) := by
  obtain ⟨categoryLine, rest, hcategory, hlines⟩ := splitLines_comment fns finding category
  have htext : (fns.sanitizePublicConfidenceText finding.title ++ "**\n\n" ++
      fns.sanitizePublicConfidenceText finding.body ++ "\n").toList = commentText fns finding ++ ['\n'] :=
    String.toList_append
  have hpublished : (splitLines (commentText fns finding ++ ['\n'])).tail =
      (split '\n' (commentText fns finding)).tail.map dropReturn ++ [[]] := by
    rw [splitLines_append_newline]
    cases hsplit : split '\n' (commentText fns finding) with
    | nil => exact absurd hsplit (split_ne_nil _ _)
    | cons first others => rfl
  have hstop : ∀ lines : List (List Char), (lines ++ [] :: categoryLine :: rest).takeWhile (fun l => !isCategoryLine l) =
      (lines ++ [[]]).takeWhile fun l => !isCategoryLine l := by
    intro lines
    have hcut := takeWhile_append_cons_of_neg (p := fun l => !isCategoryLine l) (a := categoryLine) (by simp [hcategory])
      (lines ++ [[]]) rest
    rwa [List.append_assoc, List.singleton_append] at hcut
  unfold readThread publishedBody
  dsimp only
  rw [hlines, htext, hpublished, List.tail_cons, hstop, String.toList_ofList]

theorem titleWords_readThread (hlower : LowersWords fns) (finding : Finding) (category : RegressionCategory) (id : Nat)
    (path : String) (line : Int) :
    titleWords fns (readThread id path line (formatReviewComment fns finding category)).title =
      titleWords fns (publishedTitle fns finding) := by
  obtain ⟨categoryLine, rest, _, hlines⟩ := splitLines_comment fns finding category
  have hmark : ∀ cs, dropSeverity (severityMark finding ++ cs) = trimStart cs := by
    intro cs
    unfold severityMark
    cases finding.severity <;> rfl
  unfold readThread publishedTitle
  dsimp only
  rw [hlines, List.headD_cons, hmark]
  apply titleWords_congr
  rw [hlower.trim, hlower.dropStars, hlower.trimStart, hlower.dropReturn]
  set title := (fns.sanitizePublicConfidenceText finding.title).toList with htitle
  have htext : commentText fns finding =
      (title ++ "**".toList) ++ '\n' :: '\n' :: (fns.sanitizePublicConfidenceText finding.body).toList := by
    unfold commentText
    rw [String.toList_append, String.toList_append, List.append_assoc, List.append_assoc]
    rfl
  by_cases hbreak : '\n' ∈ title
  · obtain ⟨first, others, hfirst, hnone⟩ := List.eq_append_cons_of_mem hbreak
    have hhead : (split '\n' (commentText fns finding)).headD [] = first := by
      rw [htext, hfirst, List.append_assoc, List.append_assoc, List.cons_append, split_append_sep hnone]
      rfl
    have hpublished : (splitLines title).headD [] = dropReturn first := by
      rw [hfirst, splitLines_append_newline, split_of_notMem hnone]
      rfl
    rw [hhead, hpublished, hlower.dropReturn]
  · have hstars : '\n' ∉ title ++ "**".toList := by
      rw [List.mem_append, not_or]
      exact ⟨hbreak, by decide⟩
    have hhead : (split '\n' (commentText fns finding)).headD [] = title ++ "**".toList := by
      rw [htext, split_append_sep hstars]
      rfl
    have hpublished : (splitLines title).headD [] = title := by
      rw [splitLines, split_of_notMem hbreak]
      rfl
    rw [hhead, hpublished, hlower.append_gap title (List.all_eq_true.mp (by decide))]

theorem threadMatches_own (hlower : LowersWords fns) (finding : Finding) (category : RegressionCategory) (id : Nat) :
    threadMatches fns finding (readThread id finding.path finding.line (formatReviewComment fns finding category)) =
      keepsWords fns finding := by
  have htitle := titleWords_readThread hlower finding category id finding.path finding.line
  have hbody : titleWords fns
      (readThread id finding.path finding.line (formatReviewComment fns finding category)).body =
      titleWords fns (publishedBody fns finding) := by
    have hwords := titleWords_congr (hlower.trim (publishedBody fns finding).toList)
    rwa [String.ofList_toList, ← readThread_body finding category id finding.path finding.line] at hwords
  unfold threadMatches keepsWords
  rw [htitle, hbody]
  simp [readThread]

/-! ## Texts that keep their words -/

theorem wordSetJaccardAtLeast_self {num den : Nat} (h : num ≤ den) {words : List String} (hne : words ≠ []) :
    wordSetJaccardAtLeast num den words words = true := by
  have hfilter : words.filter (fun word => word ∈ words) = words := List.filter_eq_self.mpr (by simp)
  have hpos := List.length_pos_iff.mpr hne
  unfold wordSetJaccardAtLeast
  dsimp only
  rw [hfilter, Nat.add_sub_cancel, Bool.and_eq_true, decide_eq_true_eq, decide_eq_true_eq]
  exact ⟨by omega, Nat.mul_le_mul_right _ h⟩

theorem keepsWords_of_title {finding : Finding} (hpublic : fns.sanitizePublicConfidenceText finding.title = finding.title)
    (hline : '\n' ∉ finding.title.toList) (hwords : titleWords fns finding.title ≠ []) :
    keepsWords fns finding = true := by
  have htitle : publishedTitle fns finding = finding.title := by
    unfold publishedTitle
    rw [hpublic, splitLines, split_of_notMem hline]
    exact String.ofList_toList
  unfold keepsWords
  rw [htitle, wordSetJaccardAtLeast_self (by decide) hwords, Bool.true_or]

end

/-! ## Recognition -/

/-- The finding's own comment, where it was posted, and a human's reply to it. -/
structure AnsweredBy (finding : Finding) (comments : List PullReviewComment)
    (isOwnComment : PullReviewComment → Bool) (root reply : PullReviewComment) : Prop where
  root_mem : root ∈ comments
  reply_mem : reply ∈ comments
  starts : root.inReplyToId = none
  own : isOwnComment root = true
  body : root.body = some (reviewComment fns finding).body
  path : root.path = some (reviewComment fns finding).path
  line : root.line = some (reviewComment fns finding).line
  replies : reply.inReplyToId = some root.id
  human : isHumanReply reply = true

section
variable {fns} {finding : Finding} {comments : List PullReviewComment} {isOwnComment : PullReviewComment → Bool}
variable {root reply : PullReviewComment}

theorem AnsweredBy.mem_threads (h : AnsweredBy fns finding comments isOwnComment root reply) :
    readThread root.id finding.path finding.line (formatReviewComment fns finding (normalizeFindingCategory fns finding)) ∈
      collectAnsweredThreads comments isOwnComment := by
  have hanswered : ((comments.filter isHumanReply).map PullReviewComment.inReplyToId).contains (some root.id) = true := by
    rw [List.contains_iff_mem, ← h.replies]
    exact List.mem_map_of_mem (List.mem_filter.mpr ⟨h.reply_mem, h.human⟩)
  have hline : root.line = some finding.line := h.line
  have hpath : root.path = some finding.path := h.path
  have hbody : root.body = some (formatReviewComment fns finding (normalizeFindingCategory fns finding)) := h.body
  refine List.mem_filterMap.mpr ⟨root, h.root_mem, ?_⟩
  simp only [hline, hpath, hbody, h.starts, h.own, hanswered, Option.isNone_none, Bool.and_self, if_true, Option.getD_some]

theorem AnsweredBy.threads_alone (h : AnsweredBy fns finding [root, reply] isOwnComment root reply) :
    ∀ thread ∈ collectAnsweredThreads [root, reply] isOwnComment, thread = readThread root.id finding.path finding.line
      (formatReviewComment fns finding (normalizeFindingCategory fns finding)) := by
  have hline : root.line = some finding.line := h.line
  have hpath : root.path = some finding.path := h.path
  have hbody : root.body = some (formatReviewComment fns finding (normalizeFindingCategory fns finding)) := h.body
  intro thread hthread
  obtain ⟨comment, hcomment, hread⟩ := List.mem_filterMap.mp hthread
  rw [List.mem_cons, List.mem_singleton] at hcomment
  rcases hcomment with rfl | rfl
  · simp only [hline, hpath, hbody, Option.getD_some] at hread
    split at hread
    · exact (Option.some.inj hread).symm
    · cases hread
  · split at hread
    · simp [h.replies] at hread
    · cases hread

end

/-- Without other comments the finding is recognised exactly where its comment keeps its words. -/
theorem recognised_alone_iff (hlower : LowersWords fns) (finding : Finding) (hseverity : finding.severity ≠ .P0)
    {isOwnComment : PullReviewComment → Bool} {root reply : PullReviewComment}
    (h : AnsweredBy fns finding [root, reply] isOwnComment root reply) :
    (matchPriorThread fns finding (collectAnsweredThreads [root, reply] isOwnComment)).isSome = keepsWords fns finding := by
  have hown := threadMatches_own hlower finding (normalizeFindingCategory fns finding) root.id
  unfold matchPriorThread
  rw [if_neg hseverity, ← hown, Bool.eq_iff_iff, List.find?_isSome]
  constructor
  · rintro ⟨thread, hthread, hmatches⟩
    rwa [h.threads_alone thread hthread] at hmatches
  · intro hmatches
    exact ⟨_, h.mem_threads, hmatches⟩

theorem answered_finding_is_recognised (hlower : LowersWords fns) (finding : Finding) (hseverity : finding.severity ≠ .P0)
    (comments : List PullReviewComment) (isOwnComment : PullReviewComment → Bool) (root reply : PullReviewComment)
    (hanswered : AnsweredBy fns finding comments isOwnComment root reply) (hwords : keepsWords fns finding = true) :
    ∃ thread, matchPriorThread fns finding (collectAnsweredThreads comments isOwnComment) = some thread := by
  have hown := threadMatches_own hlower finding (normalizeFindingCategory fns finding) root.id
  unfold matchPriorThread
  rw [if_neg hseverity, ← Option.isSome_iff_exists, List.find?_isSome]
  exact ⟨_, hanswered.mem_threads, hown.trans hwords⟩

/-! ## A title in plain words, and a finding in another alphabet -/

theorem toNat_of_partsWords {c : Char} (h : partsWords c = true) : c.toNat ≤ 42 ∨ 160 ≤ c.toNat := by
  rw [partsWords, Bool.or_eq_true, decide_eq_true_eq] at h
  rcases h with h | rfl
  · simp only [isSpace, Bool.or_eq_true, Bool.and_eq_true, decide_eq_true_eq] at h
    rcases h with (((((((((((((rfl | rfl) | rfl) | rfl) | h) | h) | h) | h) | ⟨h, _⟩) | h) | h) | h) | h) | h) | h
    all_goals first | decide | omega
  · decide

theorem toLower_of_partsWords {c : Char} (h : partsWords c = true) : c.toLower = c := by
  have hnat := toNat_of_partsWords h
  unfold Char.toLower
  rw [dif_neg]
  rintro ⟨hlower, hupper⟩
  have hlo : 65 ≤ c.toNat := UInt32.le_iff_toNat_le.mp hlower
  have hup : c.toNat ≤ 90 := UInt32.le_iff_toNat_le.mp hupper
  omega

theorem not_titleWordChar {c : Char} (h : partsWords c = true) : isTitleWordChar c = false := by
  have hnat := toNat_of_partsWords h
  by_contra hword
  rw [Bool.not_eq_false] at hword
  unfold isTitleWordChar isLowerAlnum Char.isLower Char.isDigit at hword
  simp only [Bool.or_eq_true, Bool.and_eq_true, decide_eq_true_eq] at hword
  rcases hword with ((⟨hlower, hupper⟩ | ⟨hlower, hupper⟩) | rfl) | rfl
  · have hlo : 97 ≤ c.toNat := UInt32.le_iff_toNat_le.mp hlower
    have hup : c.toNat ≤ 122 := UInt32.le_iff_toNat_le.mp hupper
    omega
  · have hlo : 48 ≤ c.toNat := UInt32.le_iff_toNat_le.mp hlower
    have hup : c.toNat ≤ 57 := UInt32.le_iff_toNat_le.mp hupper
    omega
  · revert hnat
    decide
  · revert hnat
    decide

theorem lowersWords_plainTexts : LowersWords plainTexts where
  empty := rfl
  parted := by
    intro a b c hc
    have hwords : ∀ cs, lowerWords plainTexts cs = runs isTitleWordChar (cs.map Char.toLower) := by
      intro cs
      simp [lowerWords, plainTexts]
    have hlower := toLower_of_partsWords hc
    rw [hwords, hwords, hwords, List.map_append, List.map_cons, hlower, runs_append_cons _ (not_titleWordChar hc)]

def lostRecords : Finding where
  severity := .P2
  path := "src/save.ts"
  line := 30
  title := "Retry loses saved records"
  body := "Rollback overwrites fresh database rows."
  confidence := 9 / 10
  category := none
  why_this_matters := none

def lostRecordsRussian : Finding :=
  { lostRecords with title := "Повтор теряет записи", body := "Откат затирает новые строки." }

def postedComment (finding : Finding) : PullReviewComment where
  id := 1
  path := some finding.path
  line := some finding.line
  inReplyToId := none
  body := some (reviewComment plainTexts finding).body
  user := some ⟨"neondiff[bot]", some "Bot"⟩

def humanReply : PullReviewComment where
  id := 2
  path := none
  line := none
  inReplyToId := some 1
  body := some "Intended."
  user := some ⟨"human", some "User"⟩

def isNeonDiff (comment : PullReviewComment) : Bool :=
  Sticky.isAuthoredBy comment.user ⟨"neondiff[bot]", "Bot"⟩

theorem answeredBy_posted (finding : Finding) :
    AnsweredBy plainTexts finding [postedComment finding, humanReply] isNeonDiff (postedComment finding) humanReply where
  root_mem := List.mem_cons_self
  reply_mem := List.mem_cons_of_mem _ List.mem_cons_self
  starts := rfl
  own := rfl
  body := rfl
  path := rfl
  line := rfl
  replies := rfl
  human := by decide

theorem answered_finding_is_recognised_of_lost_records :
    ∃ thread, matchPriorThread plainTexts lostRecords
      (collectAnsweredThreads [postedComment lostRecords, humanReply] isNeonDiff) = some thread :=
  answered_finding_is_recognised plainTexts lowersWords_plainTexts lostRecords (by decide) _ _ _ _
    (answeredBy_posted lostRecords) (keepsWords_of_title rfl (by decide) (by decide))

/-- Without a word in ASCII letters an answered finding is not recognised. -/
theorem answered_russian_finding_is_missed :
    lostRecordsRussian ∈ shownFindings plainTexts [lostRecordsRussian] none ∧ lostRecordsRussian.severity = .P2 ∧
      AnsweredBy plainTexts lostRecordsRussian [postedComment lostRecordsRussian, humanReply] isNeonDiff
        (postedComment lostRecordsRussian) humanReply ∧
      matchPriorThread plainTexts lostRecordsRussian
        (collectAnsweredThreads [postedComment lostRecordsRussian, humanReply] isNeonDiff) = none := by
  refine ⟨by decide +kernel, rfl, answeredBy_posted _, ?_⟩
  have hwords : keepsWords plainTexts lostRecordsRussian = false := by decide +kernel
  rw [← recognised_alone_iff plainTexts lowersWords_plainTexts lostRecordsRussian (by decide) (answeredBy_posted _)] at hwords
  simpa using hwords

end NeonDiff.Review
