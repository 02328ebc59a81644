import NeonDiff.Lib.JsonScalars
import NeonDiff.Lib.Phrases
import NeonDiff.Review.Finding

/-! # What a fingerprint fixes

Two findings of one fingerprint may differ in the case of their texts and in the white space around them. Neither
counts for the category or for the words of the title.
-/

namespace NeonDiff.Review

open NeonDiff.Lib NeonDiff.Lib.Words NeonDiff.Lib.JsText

/-! ## Needles -/

/-- `matchesAny` of one needle. -/
def finds (needle : String) (text : List Char) : Bool :=
  if isPhrase needle.toList then includes needle.toList text
  else includesWord isLowerAlnum needle.toList true text

theorem matchesAny_eq (text : List Char) (needles : List String) :
    matchesAny text needles = needles.any fun needle => finds needle text := rfl

/-- A phrase on one line without white space around it, or a word. -/
def isTidy (needle : List Char) : Bool :=
  needle ≠ [] &&
    if isPhrase needle then
      !needle.contains '\n' && !needle.head?.any isSpace && !needle.getLast?.any isSpace
    else needle.all isLowerAlnum

theorem not_isLowerAlnum_of_isSpace {c : Char} (h : isSpace c = true) : isLowerAlnum c = false := by
  apply Bool.eq_false_iff.mpr
  intro halnum
  have hchars : ∀ n < 123, isLowerAlnum (Char.ofNat n) = true → isSpace (Char.ofNat n) = false := by decide
  have hbound : c.toNat < 123 := by
    unfold isLowerAlnum Char.isLower Char.isDigit at halnum
    simp only [Bool.or_eq_true, Bool.and_eq_true, decide_eq_true_eq] at halnum
    have hz : 'z'.toNat = 122 := rfl
    have hnine : '9'.toNat = 57 := rfl
    have hval : c.val.toNat = c.toNat := rfl
    rcases halnum with ⟨-, hle⟩ | ⟨-, hle⟩
    · have := UInt32.le_iff_toNat_le.mp hle
      change c.val.toNat ≤ 122 at this
      omega
    · have := UInt32.le_iff_toNat_le.mp hle
      change c.val.toNat ≤ 57 at this
      omega
  have hnot := hchars c.toNat hbound (by rwa [Char.ofNat_toNat])
  rw [Char.ofNat_toNat, h] at hnot
  cases hnot

section

variable {needle : String} (h : isTidy needle.toList = true)
include h

theorem tidy_word (hphrase : isPhrase needle.toList = false) :
    (∀ c ∈ needle.toList, isLowerAlnum c = true) ∧ needle.toList ≠ [] := by
  unfold isTidy at h
  rw [hphrase, Bool.and_eq_true] at h
  exact ⟨List.all_eq_true.mp h.2, of_decide_eq_true h.1⟩

theorem tidy_phrase (hphrase : isPhrase needle.toList = true) :
    '\n' ∉ needle.toList ∧ needle.toList ≠ [] ∧ (∀ c, needle.toList.head? = some c → isSpace c = false) ∧
      ∀ c, needle.toList.getLast? = some c → isSpace c = false := by
  unfold isTidy at h
  rw [hphrase, if_pos rfl] at h
  simp only [Bool.and_eq_true, Bool.not_eq_true', decide_eq_true_eq] at h
  obtain ⟨hne, ⟨hline, hhead⟩, hlast⟩ := h
  refine ⟨by simpa using hline, hne, ?_, ?_⟩
  · intro c hc
    rwa [hc] at hhead
  · intro c hc
    rwa [hc] at hlast

theorem finds_line (a b : List Char) : finds needle (a ++ '\n' :: b) = (finds needle a || finds needle b) := by
  unfold finds
  cases hphrase : isPhrase needle.toList with
  | true => exact includes_append_cons (tidy_phrase h hphrase).1 a b
  | false =>
    obtain ⟨hword, hne⟩ := tidy_word h hphrase
    exact includesWord_append_cons hword hne (by decide) true a b

theorem finds_between {before after : List Char} (hbefore : ∀ c ∈ before, isSpace c = true)
    (hafter : ∀ c ∈ after, isSpace c = true) (text : List Char) :
    finds needle (before ++ (text ++ after)) = finds needle text := by
  unfold finds
  cases hphrase : isPhrase needle.toList with
  | true =>
    obtain ⟨-, hne, hhead, hlast⟩ := tidy_phrase h hphrase
    obtain ⟨n, front, hfront⟩ := List.exists_cons_of_ne_nil hne
    obtain ⟨back, m, hback⟩ := (List.eq_nil_or_concat needle.toList).resolve_left hne
    rw [List.concat_eq_append] at hback
    have hn : n ∉ before := by
      intro hmem
      have hnot := hhead n (by rw [hfront]; rfl)
      rw [hbefore n hmem] at hnot
      cases hnot
    have hm : m ∉ after := by
      intro hmem
      have hnot := hlast m (by rw [hback, List.getLast?_append]; rfl)
      rw [hafter m hmem] at hnot
      cases hnot
    have hstart := includes_gap_append hn front (text ++ after)
    have hend := includes_append_gap hm back text
    rw [← hfront] at hstart
    rw [← hback] at hend
    exact hstart.trans hend
  | false =>
    obtain ⟨hword, hne⟩ := tidy_word h hphrase
    have hgap : ∀ {gap : List Char}, (∀ c ∈ gap, isSpace c = true) → ∀ c ∈ gap, isLowerAlnum c = false :=
      fun hgap c hc => not_isLowerAlnum_of_isSpace (hgap c hc)
    have hstart := includesWord_gap_append hword hne (hgap hbefore) (text ++ after)
    exact hstart.trans (includesWord_append_gap hword hne (hgap hafter) true text)

end

/-! ## Lower case -/

/-- `toLowerCase` goes by lines and leaves the white space around a text. -/
structure LowersLines (toLowerCase : String → String) : Prop where
  empty : toLowerCase "" = ""
  line : ∀ a b : List Char, (toLowerCase (String.ofList (a ++ '\n' :: b))).toList =
    (toLowerCase (String.ofList a)).toList ++ '\n' :: (toLowerCase (String.ofList b)).toList
  between : ∀ before text after : List Char, (∀ c ∈ before, isSpace c = true) → (∀ c ∈ after, isSpace c = true) →
    (toLowerCase (String.ofList (before ++ (text ++ after)))).toList =
      before ++ ((toLowerCase (String.ofList text)).toList ++ after)

variable {fns : TextFunctions} (hlower : LowersLines fns.toLowerCase)
include hlower

theorem finds_lower {needle : String} (h : isTidy needle.toList = true) (text : String) :
    finds needle (fns.toLowerCase text).toList = finds needle (canonicalText fns text).toList := by
  obtain ⟨before, after, hsplit, hbefore, hafter⟩ := exists_trim text.toList
  have hlines := hlower.between before (trim text.toList) after hbefore hafter
  rw [hsplit, String.ofList_toList] at hlines
  rw [hlines, finds_between h hbefore hafter]
  rfl

theorem normalizeTitleForDedup_eq (title : String) :
    normalizeTitleForDedup fns title = [' '].intercalate (runs isLowerAlnum (canonicalText fns title).toList) := by
  obtain ⟨before, after, hsplit, hbefore, hafter⟩ := exists_trim title.toList
  have hlines := hlower.between before (trim title.toList) after hbefore hafter
  rw [hsplit, String.ofList_toList] at hlines
  unfold normalizeTitleForDedup canonicalText
  rw [hlines, runs_append_of_neg fun c hc => not_isLowerAlnum_of_isSpace (hbefore c hc),
    runs_append_gap _ fun c hc => not_isLowerAlnum_of_isSpace (hafter c hc)]

theorem matchesAny_haystack (f : Finding) {needles : List String}
    (h : (needles.all fun needle => isTidy needle.toList) = true) :
    matchesAny (fns.toLowerCase (f.path ++ "\n" ++ f.title ++ "\n" ++ f.body ++ "\n" ++
      f.why_this_matters.getD "")).toList needles =
    needles.any fun needle => finds needle (fns.toLowerCase f.path).toList ||
      (finds needle (canonicalText fns f.title).toList || (finds needle (canonicalText fns f.body).toList ||
        finds needle ((f.why_this_matters.map (canonicalText fns)).getD "").toList)) := by
  have hwhy : ∀ {needle : String}, isTidy needle.toList = true →
      finds needle (fns.toLowerCase (f.why_this_matters.getD "")).toList =
        finds needle ((f.why_this_matters.map (canonicalText fns)).getD "").toList := by
    intro needle htidy
    cases f.why_this_matters with
    | none => exact congrArg (fun text : String => finds needle text.toList) hlower.empty
    | some why => exact finds_lower hlower htidy why
  have hlines : (fns.toLowerCase (f.path ++ "\n" ++ f.title ++ "\n" ++ f.body ++ "\n" ++
      f.why_this_matters.getD "")).toList = (fns.toLowerCase f.path).toList ++ '\n' ::
        ((fns.toLowerCase f.title).toList ++ '\n' :: ((fns.toLowerCase f.body).toList ++ '\n' ::
          (fns.toLowerCase (f.why_this_matters.getD "")).toList)) := by
    have htext : f.path ++ "\n" ++ f.title ++ "\n" ++ f.body ++ "\n" ++ f.why_this_matters.getD "" =
        String.ofList (f.path.toList ++ '\n' :: (f.title.toList ++ '\n' :: (f.body.toList ++ '\n' ::
          (f.why_this_matters.getD "").toList))) := by
      apply String.toList_inj.mp
      simp only [String.toList_append, String.toList_ofList, List.append_assoc]
      rfl
    rw [htext, hlower.line, hlower.line, hlower.line, String.ofList_toList, String.ofList_toList,
      String.ofList_toList, String.ofList_toList]
  rw [hlines, matchesAny_eq]
  have hall := List.all_eq_true.mp h
  clear h
  induction needles with
  | nil => rfl
  | cons needle needles ih =>
    have htidy := hall needle List.mem_cons_self
    rw [List.any_cons, List.any_cons, ih fun n hn => hall n (List.mem_cons_of_mem _ hn), finds_line htidy,
      finds_line htidy, finds_line htidy, finds_lower hlower htidy f.title, finds_lower hlower htidy f.body, hwhy htidy]

/-! ## One fingerprint -/

/-- What the fingerprint is the hash of. -/
structure SameFinding (fns : TextFunctions) (a b : Finding) : Prop where
  path : a.path = b.path
  line : a.line = b.line
  title : canonicalText fns a.title = canonicalText fns b.title
  body : canonicalText fns a.body = canonicalText fns b.body
  why : (a.why_this_matters.map (canonicalText fns)).getD "" = (b.why_this_matters.map (canonicalText fns)).getD ""
  category : (a.category.map RegressionCategory.text).getD "unknown" =
    (b.category.map RegressionCategory.text).getD "unknown"

omit hlower in
theorem sameFinding_of_fingerprint (hsha : Function.Injective fns.sha256) {a b : Finding}
    (h : buildFindingFingerprint fns a = buildFindingFingerprint fns b) : SameFinding fns a b := by
  have htext := String.ofList_injective (hsha ((String.append_right_inj _).mp h))
  have hfields := Json.stringify_obj_inj (by
      intro f hf
      simp only [List.mem_cons, List.not_mem_nil, or_false] at hf
      rcases hf with rfl | rfl | rfl | rfl | rfl | rfl | rfl
      all_goals first | exact .str _ | exact .plain (.int _)) (by
      intro f hf
      simp only [List.mem_cons, List.not_mem_nil, or_false] at hf
      rcases hf with rfl | rfl | rfl | rfl | rfl | rfl | rfl
      all_goals first | exact .str _ | exact .plain (.int _)) htext
  simp only [List.cons.injEq, Prod.mk.injEq, Json.str.injEq, Json.int.injEq, true_and, and_true] at hfields
  obtain ⟨-, hpath, hline, htitle, hbody, hwhy, hcategory⟩ := hfields
  exact ⟨hpath, hline, htitle, hbody, hwhy, hcategory⟩

theorem SameFinding.matchesAny {a b : Finding} (h : SameFinding fns a b) {needles : List String}
    (hneedles : (needles.all fun needle => isTidy needle.toList) = true) :
    Review.matchesAny (fns.toLowerCase (a.path ++ "\n" ++ a.title ++ "\n" ++ a.body ++ "\n" ++
      a.why_this_matters.getD "")).toList needles =
    Review.matchesAny (fns.toLowerCase (b.path ++ "\n" ++ b.title ++ "\n" ++ b.body ++ "\n" ++
      b.why_this_matters.getD "")).toList needles := by
  rw [matchesAny_haystack hlower a hneedles, matchesAny_haystack hlower b hneedles, h.path, h.title, h.body, h.why]

theorem SameFinding.inferred {a b : Finding} (h : SameFinding fns a b) :
    inferRegressionCategory fns a = inferRegressionCategory fns b := by
  unfold inferRegressionCategory
  have hmatch := fun needles => @h.matchesAny fns hlower _ _ needles
  generalize (fns.toLowerCase (a.path ++ "\n" ++ a.title ++ "\n" ++ a.body ++ "\n" ++
    a.why_this_matters.getD "")).toList = haystack at hmatch ⊢
  generalize (fns.toLowerCase (b.path ++ "\n" ++ b.title ++ "\n" ++ b.body ++ "\n" ++
    b.why_this_matters.getD "")).toList = haystack' at hmatch ⊢
  rw [h.path]
  dsimp only
  rw [hmatch _ (by decide), hmatch ["rollback"] (by decide), hmatch _ (by decide), hmatch _ (by decide),
    hmatch _ (by decide), hmatch _ (by decide), hmatch _ (by decide), hmatch _ (by decide), hmatch _ (by decide),
    hmatch _ (by decide)]

omit hlower in
theorem category_text_injective : Function.Injective RegressionCategory.text := by
  intro a b h
  cases a <;> cases b <;> first | rfl | exact absurd h (by decide)

omit hlower in
theorem normalizeFindingCategory_getD (f : Finding) :
    normalizeFindingCategory fns f =
      normalizeFindingCategory fns { f with category := some (f.category.getD .unknown) } := by
  unfold normalizeFindingCategory
  cases f.category <;> rfl

theorem SameFinding.normalized {a b : Finding} (h : SameFinding fns a b) :
    normalizeFindingCategory fns a = normalizeFindingCategory fns b := by
  have hcategory : a.category.getD .unknown = b.category.getD .unknown := by
    apply category_text_injective
    have htext : ∀ category : Option RegressionCategory,
        (category.map RegressionCategory.text).getD "unknown" = (category.getD .unknown).text := by
      intro category
      cases category <;> rfl
    rw [← htext, ← htext]
    exact h.category
  rw [normalizeFindingCategory_getD, normalizeFindingCategory_getD b, hcategory]
  unfold normalizeFindingCategory
  have hinferred := h.inferred hlower
  unfold inferRegressionCategory at hinferred ⊢
  dsimp only at hinferred ⊢
  rw [hinferred]

theorem SameFinding.near_left {a b : Finding} (h : SameFinding fns a b) (c : Finding) :
    sameRunFindingsAreNearDuplicates fns a c = sameRunFindingsAreNearDuplicates fns b c := by
  unfold sameRunFindingsAreNearDuplicates
  rw [h.path, h.line, h.normalized hlower, normalizeTitleForDedup_eq hlower, normalizeTitleForDedup_eq hlower b.title,
    h.title]

end NeonDiff.Review
