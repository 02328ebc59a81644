import Mathlib.Data.List.TakeWhile
import NeonDiff.Lib.JsonScalars
import NeonDiff.Lib.Phrases
import NeonDiff.Lib.RegexSource
import NeonDiff.Outcome.Observer

/-! # Which pulls count as reverts

The constructions by which a pull says what it reverts, and the mentions that the observer takes for them.
-/

namespace NeonDiff.Outcome

open NeonDiff.Lib NeonDiff.Lib.JsText NeonDiff.Lib.Words

variable (toUpperCase : Char → Char)

def Spells (word text : List Char) : Prop :=
  text.map (Regex.canonicalize toUpperCase) = word.map (Regex.canonicalize toUpperCase)

/-- No character of a word stands there. -/
def Breaks (next : Option Char) : Prop := next.any isWordChar = false

def Blanks (text : List Char) : Prop := ∀ c ∈ text, isSpace c = true

/-- `#n`. -/
def reference (pullNumber : Int) : List Char := '#' :: (toString pullNumber).toList

/-! ## The documented constructions -/

def PullTail (tail : List Char) : Prop :=
  Blanks tail ∨ ∃ blanks digits after, tail = blanks ++ '(' :: '#' :: (digits ++ ')' :: after) ∧
    Blanks blanks ∧ digits ≠ [] ∧ (∀ c ∈ digits, c.isDigit = true) ∧ Blanks after

/-- `Revert "<target title>"`, with a pull number behind it or not. -/
def DefaultTitle (candidateTitle : String) (targetTitle : Option String) : Prop :=
  trim (targetTitle.getD "").toList ≠ [] ∧ ∃ word blanks quoted tail,
    trim candidateTitle.toList = word ++ (blanks ++ '"' :: (quoted ++ '"' :: tail)) ∧
      Spells toUpperCase "revert".toList word ∧ blanks ≠ [] ∧ Blanks blanks ∧
        Spells toUpperCase (trim (targetTitle.getD "").toList) quoted ∧ PullTail tail

def isSlugChar (c : Char) : Bool := c.isAlphanum || c = '.' || c = '_' || c = '-'

/-- `owner/repo`, or nothing. -/
def Slug (slug : List Char) : Prop :=
  slug = [] ∨ ∃ owner repo, slug = owner ++ '/' :: repo ∧ owner ≠ [] ∧ repo ≠ [] ∧
    (∀ c ∈ owner, isSlugChar c = true) ∧ ∀ c ∈ repo, isSlugChar c = true

/-- `Reverts #n` or `Reverts owner/repo#n`. -/
def RevertsLine (message : List Char) (pullNumber : Int) : Prop :=
  ∃ before word blanks slug after, message = before ++ (word ++ (blanks ++ (slug ++ (reference pullNumber ++ after)))) ∧
    Breaks before.getLast? ∧ Spells toUpperCase "reverts".toList word ∧ blanks ≠ [] ∧ Blanks blanks ∧ '\n' ∉ blanks ∧
      Slug slug ∧ Breaks after.head?

/-- A revert title that ends in `(#n)`. -/
def TitleTail (candidateTitle : String) (pullNumber : Int) : Prop :=
  ∃ word gap, trim candidateTitle.toList = word ++ (gap ++ '(' :: (reference pullNumber ++ [')'])) ∧
    Spells toUpperCase "revert".toList word ∧ Breaks gap.head? ∧ '\n' ∉ gap

/-- `This reverts commit <sha>`. -/
def CommitLine (body sha : String) : Prop :=
  sha ≠ "" ∧ ∃ before word blanks after, body.toList = before ++ (word ++ (blanks ++ (sha.toList ++ after))) ∧
    Spells toUpperCase "this reverts commit".toList word ∧ blanks ≠ [] ∧ Blanks blanks ∧ Breaks after.head?

def ObservedSubsequentPull.message (pull : ObservedSubsequentPull) : List Char :=
  (pull.title.getD "" ++ "\n" ++ pull.body.getD "").toList

def Documented (pull : ObservedSubsequentPull) (target : RevertTarget) : Prop :=
  DefaultTitle toUpperCase (pull.title.getD "") target.pullTitle ∨
    RevertsLine toUpperCase pull.message target.pullNumber ∨
    TitleTail toUpperCase (pull.title.getD "") target.pullNumber ∨
    ∃ sha, target.mergeCommitSha = some sha ∧ CommitLine toUpperCase (pull.body.getD "") sha

/-! ## What the observer looks for -/

/-- The title begins with `revert`, or the body says `this reverts commit`. -/
def RevertShaped (pull : ObservedSubsequentPull) : Prop :=
  (∃ word after, trim (pull.title.getD "").toList = word ++ after ∧
    Spells toUpperCase "revert".toList word ∧ Breaks after.head?) ∨
  ∃ before word after, (pull.body.getD "").toList = before ++ (word ++ after) ∧
    Spells toUpperCase "this reverts commit".toList word

/-- `revert` or `reverts`, and behind it on its line, before any other `#`, the number. -/
def LooseNumber (message : List Char) (pullNumber : Int) : Prop :=
  ∃ before word gap after, message = before ++ (word ++ (gap ++ (reference pullNumber ++ after))) ∧
    Breaks before.getLast? ∧ (Spells toUpperCase "revert".toList word ∨ Spells toUpperCase "reverts".toList word) ∧
      Breaks gap.head? ∧ (∀ c ∈ gap, c ≠ '\n' ∧ c ≠ '#') ∧ Breaks after.head?

/-- `revert`, and somewhere behind it on its line the number in brackets. -/
def LooseTail (message : List Char) (pullNumber : Int) : Prop :=
  ∃ before word gap after, message = before ++ (word ++ (gap ++ '(' :: (reference pullNumber ++ ')' :: after))) ∧
    Breaks before.getLast? ∧ Spells toUpperCase "revert".toList word ∧ Breaks gap.head? ∧ '\n' ∉ gap

def Mentions (pull : ObservedSubsequentPull) (target : RevertTarget) : Prop :=
  LooseNumber toUpperCase pull.message target.pullNumber ∨ LooseTail toUpperCase pull.message target.pullNumber ∨
    ∃ sha, target.mergeCommitSha = some sha ∧ sha ≠ "" ∧ sha.toList <:+: (pull.body.getD "").toList

/-! ## Words and their bounds -/

section

variable {toUpperCase : Char → Char} {word text rest : List Char} {before : Option Char}

theorem Spells.length (h : Spells toUpperCase word text) : text.length = word.length := by
  have hlength := congrArg List.length h
  simpa using hlength

theorem afterWord_eq_some :
    afterWord (Regex.canonicalize toUpperCase) word text = some rest ↔
      ∃ taken, text = taken ++ rest ∧ Spells toUpperCase word taken := by
  unfold afterWord
  constructor
  · intro h
    by_cases hspells : (text.take word.length).map (Regex.canonicalize toUpperCase) =
        word.map (Regex.canonicalize toUpperCase)
    · rw [if_pos hspells] at h
      obtain rfl := Option.some.inj h
      exact ⟨_, (List.take_append_drop _ _).symm, hspells⟩
    · rw [if_neg hspells] at h
      cases h
  · rintro ⟨taken, rfl, hspells⟩
    rw [← hspells.length, List.take_left, List.drop_left]
    exact if_pos hspells

theorem canonicalize_eq_ascii {c d : Char} (h : Regex.canonicalize toUpperCase c = d) (hd : d.toNat < 0x80) :
    c.toNat < 0x80 ∧ c.toUpper = d := by
  unfold Regex.canonicalize at h
  by_cases hc : c.toNat < 0x80
  · rw [if_pos hc] at h
    exact ⟨hc, h⟩
  · rw [if_neg hc] at h
    exfalso
    by_cases hfar : 0x10000 ≤ c.toNat
    · rw [if_pos hfar] at h
      exact hc (h ▸ hd)
    · rw [if_neg hfar] at h
      by_cases hupper : (toUpperCase c).toNat < 0x80
      · rw [if_pos hupper] at h
        exact hc (h ▸ hd)
      · rw [if_neg hupper] at h
        exact hupper (h ▸ hd)

theorem isWordChar_of_toUpper {c : Char} (hc : c.toNat < 0x80) (h : c.toUpper = 'R') : isWordChar c = true := by
  have hall : ∀ n < 0x80, (Char.ofNat n).toUpper = 'R' → isWordChar (Char.ofNat n) = true := by decide
  have hchar := hall c.toNat hc
  rw [Char.ofNat_toNat] at hchar
  exact hchar h

theorem Spells.head {cs : List Char} (h : Spells toUpperCase ('r' :: cs) text) : text.head?.any isWordChar = true := by
  cases text with
  | nil => cases h
  | cons c text =>
    have hfirst := (List.cons.inj h).1
    rw [Regex.canonicalize_ascii (c := 'r') (by decide)] at hfirst
    obtain ⟨hascii, hupper⟩ := canonicalize_eq_ascii hfirst (by decide)
    exact isWordChar_of_toUpper hascii hupper

theorem atBoundary_of_word (h : text.head?.any isWordChar = true) : atBoundary before text = true ↔ Breaks before := by
  unfold atBoundary Breaks
  rw [h]
  cases before.any isWordChar <;> simp

theorem atBoundary_behind (h : before.any isWordChar = true) : atBoundary before text = true ↔ Breaks text.head? := by
  unfold atBoundary Breaks
  rw [h]
  cases text.head?.any isWordChar <;> simp

theorem afterWholeWord_eq_some {word : String} {cs : List Char} (hfirst : word.toList = 'r' :: cs)
    (hlast : word.toList.getLast?.any isWordChar = true) :
    afterWholeWord (Regex.canonicalize toUpperCase) before word text = some rest ↔
      ∃ taken, text = taken ++ rest ∧ Spells toUpperCase word.toList taken ∧ Breaks before ∧ Breaks rest.head? := by
  have hhead : ∀ {taken : List Char}, Spells toUpperCase word.toList taken →
      (taken ++ rest).head?.any isWordChar = true := by
    intro taken hspells
    have hword := (hfirst ▸ hspells : Spells toUpperCase ('r' :: cs) taken).head
    cases taken with
    | nil => cases hword
    | cons c taken => exact hword
  unfold afterWholeWord
  constructor
  · intro h
    by_cases hbefore : atBoundary before text = true
    · rw [if_pos hbefore, Option.filter_eq_some_iff, afterWord_eq_some] at h
      obtain ⟨⟨taken, rfl, hspells⟩, hbehind⟩ := h
      exact ⟨taken, rfl, hspells, (atBoundary_of_word (hhead hspells)).mp hbefore,
        (atBoundary_behind hlast).mp hbehind⟩
    · rw [if_neg hbefore] at h
      cases h
  · rintro ⟨taken, rfl, hspells, hbefore, hbehind⟩
    rw [if_pos ((atBoundary_of_word (hhead hspells)).mpr hbefore), Option.filter_eq_some_iff, afterWord_eq_some]
    exact ⟨⟨taken, rfl, hspells⟩, (atBoundary_behind hlast).mpr hbehind⟩

/-! ## References -/

theorem getLast?_cons_or (c : Char) (front : List Char) :
    (c :: front).getLast?.or before = front.getLast?.or (some c) := by
  rw [List.getLast?_cons]
  cases front.getLast? <;> rfl

theorem matchesSomewhere_iff {pattern : Option Char → List Char → Bool} :
    matchesSomewhere pattern before text = true ↔
      ∃ front rest, text = front ++ rest ∧ pattern (front.getLast?.or before) rest = true := by
  induction text generalizing before with
  | nil =>
    constructor
    · intro h
      exact ⟨[], [], rfl, h⟩
    · rintro ⟨front, rest, htext, h⟩
      obtain ⟨rfl, rfl⟩ := List.nil_eq_append_iff.mp htext
      exact h
  | cons c cs ih =>
    unfold matchesSomewhere
    rw [Bool.or_eq_true, ih]
    constructor
    · rintro (h | ⟨front, rest, rfl, h⟩)
      · exact ⟨[], c :: cs, rfl, h⟩
      · refine ⟨c :: front, rest, rfl, ?_⟩
        rwa [getLast?_cons_or]
    · rintro ⟨front, rest, htext, h⟩
      cases front with
      | nil =>
        obtain rfl := htext
        exact .inl h
      | cons d front =>
        obtain ⟨rfl, rfl⟩ := List.cons.inj htext
        refine .inr ⟨front, rest, rfl, ?_⟩
        rwa [getLast?_cons_or] at h

theorem matchesSomewhere_none {pattern : Option Char → List Char → Bool} :
    matchesSomewhere pattern none text = true ↔
      ∃ front rest, text = front ++ rest ∧ pattern front.getLast? rest = true := by
  simp only [matchesSomewhere_iff, Option.or_none]

theorem reference_eq (n : Int) :
    reference n = '#' :: (if n < 0 then '-' :: Nat.toDigits 10 n.natAbs else Nat.toDigits 10 n.natAbs) :=
  congrArg _ (Json.stringify_int n)

theorem not_mem_reference {c : Char} (hdigit : c.isDigit = false) (hhash : c ≠ '#') (hminus : c ≠ '-') (n : Int) :
    c ∉ reference n := by
  have hdigits : c ∉ Nat.toDigits 10 n.natAbs := by
    intro hmem
    rw [isDigit_of_mem_toDigits hmem] at hdigit
    cases hdigit
  rw [reference_eq]
  split <;> simp [hhash, hminus, hdigits]

theorem reference_getLast (n : Int) : (reference n).getLast?.any isWordChar = true := by
  obtain ⟨digit, hdigit⟩ := Option.isSome_iff_exists.mp (List.getLast?_isSome.mpr (Nat.toDigits_ne_nil (n := n.natAbs) (b := 10)))
  have hword : isWordChar digit = true := by
    unfold isWordChar Char.isAlphanum
    rw [isDigit_of_mem_toDigits (List.mem_of_getLast? hdigit)]
    simp
  have hlast : (reference n).getLast? = some digit := by
    rw [reference_eq]
    split <;> simp [List.getLast?_cons, hdigit]
  rw [hlast]
  exact hword

theorem isPullReference_iff {n : Int} :
    isPullReference n text = true ↔ ∃ after, text = reference n ++ after ∧ Breaks after.head? := by
  unfold isPullReference
  change ((reference n).isPrefixOf text && atBoundary (reference n).getLast? (text.drop (reference n).length)) = true ↔ _
  rw [Bool.and_eq_true, List.isPrefixOf_iff_prefix]
  constructor
  · rintro ⟨⟨after, rfl⟩, hbehind⟩
    rw [List.drop_left] at hbehind
    exact ⟨after, rfl, (atBoundary_behind (reference_getLast n)).mp hbehind⟩
  · rintro ⟨after, rfl, hbehind⟩
    rw [List.drop_left]
    exact ⟨List.prefix_append _ _, (atBoundary_behind (reference_getLast n)).mpr hbehind⟩

theorem dropWhile_gap_reference {p : Char → Bool} (hp : p '#' = false) {n : Int} {after : List Char} :
    rest.dropWhile p = reference n ++ after ↔ ∃ gap, rest = gap ++ (reference n ++ after) ∧ ∀ c ∈ gap, p c = true := by
  constructor
  · intro h
    refine ⟨rest.takeWhile p, ?_, fun c hc => List.mem_takeWhile_imp hc⟩
    rw [← h, List.takeWhile_append_dropWhile]
  · rintro ⟨gap, rfl, hgap⟩
    rw [List.dropWhile_append_of_pos hgap]
    exact List.dropWhile_cons_of_neg (by simp [hp])

theorem toList_revert : "revert".toList = 'r' :: "evert".toList := by decide

theorem toList_reverts : "reverts".toList = 'r' :: "everts".toList := by decide

theorem revertsBody_iff {n : Int} :
    revertsBody (Regex.canonicalize toUpperCase) n before text = true ↔ ∃ word gap after,
      text = word ++ (gap ++ (reference n ++ after)) ∧ Breaks before ∧
        (Spells toUpperCase "revert".toList word ∨ Spells toUpperCase "reverts".toList word) ∧
          Breaks gap.head? ∧ (∀ c ∈ gap, c ≠ '\n' ∧ c ≠ '#') ∧ Breaks after.head? := by
  have hgapHead : ∀ {gap after : List Char}, Breaks (gap ++ (reference n ++ after)).head? ↔ Breaks gap.head? := by
    intro gap after
    cases gap with
    | nil =>
      unfold Breaks
      rw [List.nil_append]
      exact iff_of_true rfl rfl
    | cons c gap => rfl
  have hword : ∀ {word : String} {cs : List Char}, word.toList = 'r' :: cs →
      word.toList.getLast?.any isWordChar = true →
      ((afterWholeWord (Regex.canonicalize toUpperCase) before word text).any (fun rest =>
        isPullReference n (rest.dropWhile fun c => c ≠ '\n' && c ≠ '#')) = true ↔ ∃ taken gap after,
          text = taken ++ (gap ++ (reference n ++ after)) ∧ Breaks before ∧ Spells toUpperCase word.toList taken ∧
            Breaks gap.head? ∧ (∀ c ∈ gap, c ≠ '\n' ∧ c ≠ '#') ∧ Breaks after.head?) := by
    intro word cs hfirst hlast
    rw [Option.any_eq_true]
    constructor
    · rintro ⟨rest, hrest, hreference⟩
      obtain ⟨taken, rfl, hspells, hbefore, hbehind⟩ := (afterWholeWord_eq_some hfirst hlast).mp hrest
      obtain ⟨after, hdrop, hafter⟩ := isPullReference_iff.mp hreference
      obtain ⟨gap, rfl, hgap⟩ := (dropWhile_gap_reference (by decide)).mp hdrop
      refine ⟨taken, gap, after, rfl, hbefore, hspells, hgapHead.mp hbehind, ?_, hafter⟩
      intro c hc
      simpa using hgap c hc
    · rintro ⟨taken, gap, after, rfl, hbefore, hspells, hbehind, hgap, hafter⟩
      refine ⟨_, (afterWholeWord_eq_some hfirst hlast).mpr ⟨taken, rfl, hspells, hbefore, hgapHead.mpr hbehind⟩, ?_⟩
      apply isPullReference_iff.mpr
      refine ⟨after, (dropWhile_gap_reference (by decide)).mpr ⟨gap, rfl, ?_⟩, hafter⟩
      intro c hc
      simpa using hgap c hc
  unfold revertsBody
  rw [List.any_cons, List.any_cons, List.any_nil, Bool.or_false, Bool.or_eq_true,
    hword toList_revert (by decide), hword toList_reverts (by decide)]
  constructor
  · rintro (⟨taken, gap, after, htext, hbefore, hspells, hrest⟩ | ⟨taken, gap, after, htext, hbefore, hspells, hrest⟩)
    · exact ⟨taken, gap, after, htext, hbefore, .inl hspells, hrest⟩
    · exact ⟨taken, gap, after, htext, hbefore, .inr hspells, hrest⟩
  · rintro ⟨taken, gap, after, htext, hbefore, hspells | hspells, hrest⟩
    · exact .inl ⟨taken, gap, after, htext, hbefore, hspells, hrest⟩
    · exact .inr ⟨taken, gap, after, htext, hbefore, hspells, hrest⟩

theorem bracketed_iff {n : Int} :
    includes ("(#" ++ toString n ++ ")").toList (rest.takeWhile (· ≠ '\n')) = true ↔
      ∃ gap after, rest = gap ++ '(' :: (reference n ++ ')' :: after) ∧ '\n' ∉ gap := by
  have htoken : ("(#" ++ toString n ++ ")").toList = '(' :: (reference n ++ [')']) := by
    rw [String.toList_append, String.toList_append]
    rfl
  have hnewline : '\n' ∉ '(' :: (reference n ++ [')']) := by
    have href := @not_mem_reference '\n' (by decide) (by decide) (by decide) n
    simp [href]
  rw [htoken, includes_iff]
  constructor
  · rintro ⟨gap, after, hline⟩
    refine ⟨gap, after ++ rest.dropWhile (· ≠ '\n'), ?_, ?_⟩
    · calc rest = rest.takeWhile (· ≠ '\n') ++ rest.dropWhile (· ≠ '\n') := List.takeWhile_append_dropWhile.symm
        _ = _ := by rw [← hline]; simp
    · intro hmem
      have hin : '\n' ∈ rest.takeWhile (· ≠ '\n') := by
        rw [← hline]
        simp [hmem]
      simpa using List.mem_takeWhile_imp hin
  · rintro ⟨gap, after, rfl, hgap⟩
    have hline : ∀ c ∈ gap ++ '(' :: (reference n ++ [')']), decide (c ≠ '\n') = true := by
      intro c hc
      apply decide_eq_true
      rintro rfl
      exact (List.mem_append.mp hc).elim hgap hnewline
    have hsplit : gap ++ '(' :: (reference n ++ ')' :: after) = (gap ++ '(' :: (reference n ++ [')'])) ++ after := by
      simp
    rw [hsplit, List.takeWhile_append_of_pos hline]
    exact ⟨gap, after.takeWhile (· ≠ '\n'), by simp⟩

theorem revertTitleTail_iff {n : Int} :
    revertTitleTail (Regex.canonicalize toUpperCase) n before text = true ↔ ∃ word gap after,
      text = word ++ (gap ++ '(' :: (reference n ++ ')' :: after)) ∧ Breaks before ∧
        Spells toUpperCase "revert".toList word ∧ Breaks gap.head? ∧ '\n' ∉ gap := by
  have hgapHead : ∀ {gap after : List Char}, Breaks (gap ++ '(' :: after).head? ↔ Breaks gap.head? := by
    intro gap after
    cases gap with
    | nil =>
      unfold Breaks
      rw [List.nil_append]
      exact iff_of_true rfl rfl
    | cons c gap => rfl
  unfold revertTitleTail
  rw [Option.any_eq_true]
  constructor
  · rintro ⟨rest, hrest, htail⟩
    obtain ⟨taken, rfl, hspells, hbefore, hbehind⟩ :=
      (afterWholeWord_eq_some toList_revert (by decide)).mp hrest
    obtain ⟨gap, after, rfl, hgap⟩ := bracketed_iff.mp htail
    exact ⟨taken, gap, after, rfl, hbefore, hspells, hgapHead.mp hbehind, hgap⟩
  · rintro ⟨taken, gap, after, rfl, hbefore, hspells, hbehind, hgap⟩
    refine ⟨_, (afterWholeWord_eq_some toList_revert (by decide)).mpr
      ⟨taken, rfl, hspells, hbefore, hgapHead.mpr hbehind⟩, ?_⟩
    exact bracketed_iff.mpr ⟨gap, after, rfl, hgap⟩

theorem revertReferencesPull_iff {n : Int} :
    revertReferencesPull (Regex.canonicalize toUpperCase) text n = true ↔
      LooseNumber toUpperCase text n ∨ LooseTail toUpperCase text n := by
  unfold revertReferencesPull
  rw [Bool.or_eq_true, matchesSomewhere_none, matchesSomewhere_none]
  simp only [revertsBody_iff, revertTitleTail_iff]
  constructor
  · rintro (⟨front, rest, rfl, word, gap, after, rfl, hbounds⟩ | ⟨front, rest, rfl, word, gap, after, rfl, hbounds⟩)
    · exact .inl ⟨front, word, gap, after, rfl, hbounds⟩
    · exact .inr ⟨front, word, gap, after, rfl, hbounds⟩
  · rintro (⟨front, word, gap, after, rfl, hbounds⟩ | ⟨front, word, gap, after, rfl, hbounds⟩)
    · exact .inl ⟨front, _, rfl, word, gap, after, rfl, hbounds⟩
    · exact .inr ⟨front, _, rfl, word, gap, after, rfl, hbounds⟩

/-! ## Titles -/

theorem trimStart_eq_nil : trimStart text = [] ↔ Blanks text := List.dropWhile_eq_nil_iff

theorem trimStart_eq_cons {c : Char} (hc : isSpace c = false) :
    trimStart text = c :: rest ↔ ∃ blanks, text = blanks ++ c :: rest ∧ Blanks blanks := by
  unfold trimStart
  constructor
  · intro h
    refine ⟨text.takeWhile isSpace, ?_, fun d hd => List.mem_takeWhile_imp hd⟩
    rw [← h, List.takeWhile_append_dropWhile]
  · rintro ⟨blanks, rfl, hblanks⟩
    rw [List.dropWhile_append_of_pos hblanks]
    exact List.dropWhile_cons_of_neg (by simp [hc])

theorem isPullTail_iff : isPullTail text = true ↔ PullTail text := by
  unfold isPullTail PullTail
  rw [Bool.or_eq_true, decide_eq_true_eq, trimStart_eq_nil]
  apply or_congr_right
  constructor
  · intro h
    split at h
    · rename_i digits hrest
      split at h
      · rename_i tail hdrop
        rw [Bool.and_eq_true, decide_eq_true_eq, decide_eq_true_eq, trimStart_eq_nil] at h
        obtain ⟨blanks, rfl, hblanks⟩ := (trimStart_eq_cons (by decide)).mp hrest
        refine ⟨blanks, digits.takeWhile Char.isDigit, tail, ?_, hblanks, List.length_pos_iff.mp h.1,
          fun c hc => List.mem_takeWhile_imp hc, h.2⟩
        rw [← hdrop, List.takeWhile_append_dropWhile]
      · cases h
    · cases h
  · rintro ⟨blanks, digits, after, rfl, hblanks, hne, hdigits, hafter⟩
    have hrest : trimStart (blanks ++ '(' :: '#' :: (digits ++ ')' :: after)) = '(' :: '#' :: (digits ++ ')' :: after) :=
      (trimStart_eq_cons (by decide)).mpr ⟨blanks, rfl, hblanks⟩
    have hdrop : (digits ++ ')' :: after).dropWhile Char.isDigit = ')' :: after := by
      rw [List.dropWhile_append_of_pos hdigits]
      exact List.dropWhile_cons_of_neg (by decide)
    have htake : (digits ++ ')' :: after).takeWhile Char.isDigit = digits := by
      rw [List.takeWhile_append_of_pos hdigits, List.takeWhile_cons_of_neg (by decide), List.append_nil]
    simp only [hrest, hdrop, htake]
    rw [Bool.and_eq_true, decide_eq_true_eq, decide_eq_true_eq, trimStart_eq_nil]
    exact ⟨List.length_pos_iff.mpr hne, hafter⟩

theorem revertTitleMatchesTarget_iff {candidateTitle : String} {targetTitle : Option String} :
    revertTitleMatchesTarget (Regex.canonicalize toUpperCase) candidateTitle targetTitle = true ↔
      DefaultTitle toUpperCase candidateTitle targetTitle := by
  unfold revertTitleMatchesTarget DefaultTitle
  generalize trim (targetTitle.getD "").toList = target
  generalize trim candidateTitle.toList = title
  dsimp only
  by_cases htarget : target.length = 0
  · rw [if_pos htarget]
    exact iff_of_false Bool.false_ne_true fun h => h.1 (List.length_eq_zero_iff.mp htarget)
  rw [if_neg htarget]
  constructor
  · intro h
    refine ⟨fun hnil => htarget (List.length_eq_zero_iff.mpr hnil), ?_⟩
    split at h
    · cases h
    · rename_i rest hword
      obtain ⟨word, rfl, hspells⟩ := afterWord_eq_some.mp hword
      split at h
      · rename_i quoted hquote
        rw [Bool.and_eq_true] at h
        obtain ⟨hspace, htail⟩ := h
        obtain ⟨blanks, rfl, hblanks⟩ := (trimStart_eq_cons (by decide)).mp hquote
        have hne : blanks ≠ [] := by
          rintro rfl
          have hquoteSpace : isSpace '"' = true := hspace
          exact absurd hquoteSpace (by decide)
        split at htail
        · rename_i tail htitle
          obtain ⟨same, rfl, hsame⟩ := afterWord_eq_some.mp htitle
          exact ⟨word, blanks, same, tail, rfl, hspells, hne, hblanks, hsame, isPullTail_iff.mp htail⟩
        · cases htail
      · cases h
  · rintro ⟨-, word, blanks, quoted, tail, rfl, hspells, hne, hblanks, hsame, htail⟩
    have hword : afterWord (Regex.canonicalize toUpperCase) "revert".toList
        (word ++ (blanks ++ '"' :: (quoted ++ '"' :: tail))) = some (blanks ++ '"' :: (quoted ++ '"' :: tail)) :=
      afterWord_eq_some.mpr ⟨word, rfl, hspells⟩
    have hquote : trimStart (blanks ++ '"' :: (quoted ++ '"' :: tail)) = '"' :: (quoted ++ '"' :: tail) :=
      (trimStart_eq_cons (by decide)).mpr ⟨blanks, rfl, hblanks⟩
    have htitle : afterWord (Regex.canonicalize toUpperCase) target (quoted ++ '"' :: tail) = some ('"' :: tail) :=
      afterWord_eq_some.mpr ⟨quoted, rfl, hsame⟩
    have hspace : (blanks ++ '"' :: (quoted ++ '"' :: tail)).head?.any isSpace = true := by
      cases blanks with
      | nil => exact absurd rfl hne
      | cons c blanks => exact hblanks c List.mem_cons_self
    simp only [hword, hquote, htitle, hspace, Bool.true_and]
    exact isPullTail_iff.mpr htail

/-! ## Acceptance -/

theorem isRevertShaped_iff {pull : ObservedSubsequentPull} :
    ((afterWholeWord (Regex.canonicalize toUpperCase) none "revert" (trim (pull.title.getD "").toList)).isSome ||
      matchesSomewhere (fun _ text =>
        (afterWord (Regex.canonicalize toUpperCase) "this reverts commit".toList text).isSome) none
          (pull.body.getD "").toList) = true ↔ RevertShaped toUpperCase pull := by
  unfold RevertShaped
  rw [Bool.or_eq_true, matchesSomewhere_none, Option.isSome_iff_exists]
  apply or_congr
  · simp only [afterWholeWord_eq_some toList_revert (by decide)]
    constructor
    · rintro ⟨after, word, htitle, hspells, -, hafter⟩
      exact ⟨word, after, htitle, hspells, hafter⟩
    · rintro ⟨word, after, htitle, hspells, hafter⟩
      exact ⟨after, word, htitle, hspells, rfl, hafter⟩
  · simp only [Option.isSome_iff_exists, afterWord_eq_some]
    constructor
    · rintro ⟨before, text, hbody, after, word, rfl, hspells⟩
      exact ⟨before, word, after, hbody, hspells⟩
    · rintro ⟨before, word, after, hbody, hspells⟩
      exact ⟨before, word ++ after, hbody, after, word, rfl, hspells⟩

theorem pullRevertsMerge_iff {pull : ObservedSubsequentPull} {target : RevertTarget} :
    pullRevertsMerge (Regex.canonicalize toUpperCase) pull target = true ↔ RevertShaped toUpperCase pull ∧
      (DefaultTitle toUpperCase (pull.title.getD "") target.pullTitle ∨ Mentions toUpperCase pull target) := by
  unfold pullRevertsMerge Mentions
  dsimp only
  rw [Bool.and_eq_true, isRevertShaped_iff, Bool.or_eq_true, Bool.or_eq_true, revertTitleMatchesTarget_iff,
    revertReferencesPull_iff, Option.any_eq_true]
  simp only [Bool.and_eq_true, decide_eq_true_eq, includes_iff, or_assoc]
  rfl

/-! ## The documented constructions are looked for -/

theorem not_isWordChar_of_isSpace {c : Char} (h : isSpace c = true) : isWordChar c = false := by
  by_contra hword
  have hascii : c.toNat < 0x80 := by
    unfold isWordChar Char.isAlphanum Char.isAlpha Char.isUpper Char.isLower Char.isDigit at hword
    simp only [Bool.or_eq_true, Bool.and_eq_true, decide_eq_true_eq, Bool.not_eq_false, UInt32.le_iff_toNat_le] at hword
    rcases hword with ((⟨-, h⟩ | ⟨-, h⟩) | ⟨-, h⟩) | rfl
    · exact lt_of_le_of_lt h (by decide)
    · exact lt_of_le_of_lt h (by decide)
    · exact lt_of_le_of_lt h (by decide)
    · decide
  have hall : ∀ n < 0x80, isSpace (Char.ofNat n) = true → isWordChar (Char.ofNat n) = false := by decide
  have hchar := hall c.toNat hascii
  rw [Char.ofNat_toNat] at hchar
  exact hword (hchar h)

theorem Blanks.breaks_head (h : Blanks text) (hne : text ≠ []) : Breaks (text ++ rest).head? := by
  cases text with
  | nil => exact absurd rfl hne
  | cons c text => exact not_isWordChar_of_isSpace (h c List.mem_cons_self)

theorem Blanks.breaks_last (h : Blanks text) : Breaks text.getLast? := by
  unfold Breaks
  cases hlast : text.getLast? with
  | none => rfl
  | some c => exact not_isWordChar_of_isSpace (h c (List.mem_of_getLast? hlast))

theorem Slug.plain (h : Slug text) : ∀ c ∈ text, c ≠ '\n' ∧ c ≠ '#' := by
  have hplain : ∀ c : Char, isSlugChar c = true → c ≠ '\n' ∧ c ≠ '#' := by
    rintro c hc
    constructor
    · rintro rfl
      exact absurd hc (by decide)
    · rintro rfl
      exact absurd hc (by decide)
  rcases h with rfl | ⟨owner, repo, rfl, -, -, howner, hrepo⟩
  · exact fun c hc => nomatch hc
  · intro c hc
    rcases List.mem_append.mp hc with hc | hc
    · exact hplain c (howner c hc)
    · rcases List.mem_cons.mp hc with rfl | hc
      · decide
      · exact hplain c (hrepo c hc)

section

variable {pull : ObservedSubsequentPull} {target : RevertTarget} {n : Int}

theorem DefaultTitle.revertShaped (h : DefaultTitle toUpperCase (pull.title.getD "") target.pullTitle) :
    RevertShaped toUpperCase pull := by
  obtain ⟨-, word, blanks, quoted, tail, htitle, hspells, hne, hblanks, -⟩ := h
  exact .inl ⟨word, _, htitle, hspells, hblanks.breaks_head hne⟩

theorem TitleTail.revertShaped (h : TitleTail toUpperCase (pull.title.getD "") n) : RevertShaped toUpperCase pull := by
  obtain ⟨word, gap, htitle, hspells, hgap, -⟩ := h
  refine .inl ⟨word, _, htitle, hspells, ?_⟩
  cases gap with
  | nil =>
    unfold Breaks
    rfl
  | cons c gap => exact hgap

theorem CommitLine.revertShaped {sha : String} (h : CommitLine toUpperCase (pull.body.getD "") sha) :
    RevertShaped toUpperCase pull := by
  obtain ⟨-, before, word, blanks, after, hbody, hspells, -⟩ := h
  exact .inr ⟨before, word, _, hbody, hspells⟩

theorem RevertsLine.mentions (h : RevertsLine toUpperCase text n) : LooseNumber toUpperCase text n := by
  obtain ⟨before, word, blanks, slug, after, rfl, hbefore, hspells, hne, hblanks, hline, hslug, hafter⟩ := h
  refine ⟨before, word, blanks ++ slug, after, by simp, hbefore, .inr hspells, hblanks.breaks_head hne, ?_, hafter⟩
  intro c hc
  rcases List.mem_append.mp hc with hc | hc
  · constructor
    · rintro rfl
      exact hline hc
    · rintro rfl
      exact absurd (hblanks _ hc) (by decide)
  · exact hslug.plain c hc

theorem TitleTail.mentions (h : TitleTail toUpperCase (pull.title.getD "") n) :
    LooseTail toUpperCase pull.message n := by
  obtain ⟨word, gap, htitle, hspells, hgap, hline⟩ := h
  obtain ⟨before, after, hsplit, hbefore, -⟩ := exists_trim (pull.title.getD "").toList
  rw [htitle] at hsplit
  refine ⟨before, word, gap, after ++ '\n' :: (pull.body.getD "").toList, ?_, Blanks.breaks_last hbefore, hspells, hgap,
    hline⟩
  unfold ObservedSubsequentPull.message
  rw [String.toList_append, String.toList_append, ← hsplit]
  simp

theorem CommitLine.mentions {body sha : String} (h : CommitLine toUpperCase body sha) : sha.toList <:+: body.toList := by
  obtain ⟨-, before, word, blanks, after, hbody, -⟩ := h
  exact ⟨before ++ word ++ blanks, after, by rw [hbody]; simp⟩

theorem Documented.sought (h : Documented toUpperCase pull target) :
    DefaultTitle toUpperCase (pull.title.getD "") target.pullTitle ∨ Mentions toUpperCase pull target := by
  rcases h with htitle | hline | htail | ⟨sha, hsha, hcommit⟩
  · exact .inl htitle
  · exact .inr (.inl hline.mentions)
  · exact .inr (.inr (.inl htail.mentions))
  · exact .inr (.inr (.inr ⟨sha, hsha, hcommit.1, hcommit.mentions⟩))

theorem Documented.revertShaped (h : Documented toUpperCase pull target)
    (hline : RevertsLine toUpperCase pull.message target.pullNumber → RevertShaped toUpperCase pull) :
    RevertShaped toUpperCase pull := by
  rcases h with htitle | hreverts | htail | ⟨sha, -, hcommit⟩
  · exact htitle.revertShaped
  · exact hline hreverts
  · exact htail.revertShaped
  · exact hcommit.revertShaped

end

end

/-- The observer accepts just the documented constructions where a pull that is shaped as a revert does not mention the
target besides them, and a pull with a `Reverts #n` is shaped as a revert. -/
theorem reverts_documented_iff (toUpperCase : Char → Char) (pull : ObservedSubsequentPull) (target : RevertTarget) :
    (pullRevertsMerge (Regex.canonicalize toUpperCase) pull target = true ↔ Documented toUpperCase pull target) ↔
      (RevertShaped toUpperCase pull → Mentions toUpperCase pull target → Documented toUpperCase pull target) ∧
        (RevertsLine toUpperCase pull.message target.pullNumber → RevertShaped toUpperCase pull) := by
  rw [pullRevertsMerge_iff]
  constructor
  · intro h
    constructor
    · intro hshaped hmentions
      exact h.mp ⟨hshaped, .inr hmentions⟩
    · intro hline
      exact (h.mpr (.inr (.inl hline))).1
  · rintro ⟨hmentioned, hline⟩
    constructor
    · rintro ⟨hshaped, htitle | hmentions⟩
      · exact .inl htitle
      · exact hmentioned hshaped hmentions
    · intro hdocumented
      exact ⟨hdocumented.revertShaped hline, hdocumented.sought⟩

def revertOfAnother : ObservedSubsequentPull :=
  ⟨2, some "Revert unrelated change, see #1 for context", some "", none, .empty⟩

theorem revertOfAnother_accepted :
    ¬(pullRevertsMerge (Regex.canonicalize Char.toUpper) revertOfAnother ⟨1, none, none⟩ = true ↔
      Documented Char.toUpper revertOfAnother ⟨1, none, none⟩) := by
  have haccepted : pullRevertsMerge (Regex.canonicalize Char.toUpper) revertOfAnother ⟨1, none, none⟩ = true := by
    decide +kernel
  intro h
  rcases h.mp haccepted with htitle | hline | htail | ⟨sha, hsha, -⟩
  · exact htitle.1 (by decide)
  · obtain ⟨before, word, blanks, slug, after, hmessage, -, hspells, -⟩ := hline
    have hword : includes ("reverts".toList.map (Regex.canonicalize Char.toUpper))
        (revertOfAnother.message.map (Regex.canonicalize Char.toUpper)) = true := by
      rw [includes_iff, hmessage, ← (hspells : word.map _ = _)]
      exact ⟨before.map (Regex.canonicalize Char.toUpper), _, by rw [List.map_append, List.map_append, List.append_assoc]⟩
    exact absurd hword (by decide +kernel)
  · obtain ⟨word, gap, htitle, -⟩ := htail
    have hlast := congrArg List.getLast? htitle
    have hbracket : (word ++ (gap ++ '(' :: (reference 1 ++ [')']))).getLast? = some ')' := by
      rw [← List.cons_append, ← List.append_assoc, ← List.append_assoc, List.getLast?_concat]
    rw [hbracket] at hlast
    exact absurd hlast (by decide +kernel)
  · cases hsha

end NeonDiff.Outcome
