import Mathlib.Data.List.Infix
import NeonDiff.Marker.StatusComment

/-! # Reading a status comment back

The run id and the handoff target are texts of the caller. They come back from the comment unless their dashes meet
once the blanks between them are gone, or they hold a `status=` of their own.
-/

namespace NeonDiff.Marker

open Lib.JsText Lib.IsoDate Job

/-! ## Tokens -/

theorem mem_removeUnsafe {text : List Char} {c : Char} (h : c ∈ removeUnsafe text) : c ∈ text ∧ isUnsafe c = false := by
  induction text using removeUnsafe.induct with
  | case1 => cases h
  | case2 d hunsafe =>
    rw [removeUnsafe, if_pos hunsafe] at h
    cases h
  | case3 d hsafe =>
    rw [removeUnsafe, if_neg hsafe, List.mem_singleton] at h
    subst h
    exact ⟨List.mem_cons_self, Bool.eq_false_iff.mpr hsafe⟩
  | case4 d e cs hpair ih =>
    rw [removeUnsafe, if_pos hpair] at h
    obtain ⟨hmem, hsafe⟩ := ih h
    exact ⟨List.mem_cons_of_mem _ (List.mem_cons_of_mem _ hmem), hsafe⟩
  | case5 d e cs hpair hunsafe ih =>
    rw [removeUnsafe, if_neg hpair, if_pos hunsafe] at h
    obtain ⟨hmem, hsafe⟩ := ih h
    exact ⟨List.mem_cons_of_mem _ hmem, hsafe⟩
  | case6 d e cs hpair hkept ih =>
    rw [removeUnsafe, if_neg hpair, if_neg hkept] at h
    rcases List.mem_cons.mp h with rfl | h
    · exact ⟨List.mem_cons_self, Bool.eq_false_iff.mpr hkept⟩
    · obtain ⟨hmem, hsafe⟩ := ih h
      exact ⟨List.mem_cons_of_mem _ hmem, hsafe⟩

theorem isSpace_of_safe {c : Char} (h : isUnsafe c = false) : isSpace c = false ∧ c ≠ '>' := by
  simpa [isUnsafe] using h

theorem trim_eq_self {cs : List Char} (h : ∀ c ∈ cs, isSpace c = false) : trim cs = cs := by
  have hstart : trimStart cs = cs := by
    cases cs with
    | nil => rfl
    | cons c cs =>
      have hc := h c List.mem_cons_self
      rw [trimStart, List.dropWhile_cons_of_neg (by simp [hc])]
  rw [trim, hstart, trimEnd_eq_rdropWhile, List.rdropWhile_eq_self_iff]
  intro hne hlast
  rw [h _ (List.getLast_mem hne)] at hlast
  cases hlast

theorem sanitizeMarkerToken_eq (redactSecrets : List Char → List Char) (value : List Char) :
    sanitizeMarkerToken redactSecrets value = removeUnsafe (redactSecrets value) := by
  rw [sanitizeMarkerToken]
  exact trim_eq_self fun c hc => (isSpace_of_safe (mem_removeUnsafe hc).2).1

theorem isPlainChar_bounds {c : Char} (h : isPlainChar c = true) :
    48 ≤ c.toNat ∧ c.toNat ≤ 57 ∨ 97 ≤ c.toNat ∧ c.toNat ≤ 122 := by
  simp only [isPlainChar, Char.isDigit, Bool.or_eq_true, Bool.and_eq_true, decide_eq_true_eq] at h
  rcases h with h | h
  · exact Or.inl ⟨UInt32.le_iff_toNat_le.mp h.1, UInt32.le_iff_toNat_le.mp h.2⟩
  · exact Or.inr ⟨UInt32.le_iff_toNat_le.mp h.1, UInt32.le_iff_toNat_le.mp h.2⟩

theorem isPlainChar_ne {c d : Char} (h : isPlainChar c = true) (hd : isPlainChar d = false) : c ≠ d := by
  rintro rfl
  rw [h] at hd
  cases hd

theorem isUnsafe_of_plain {c : Char} (h : isPlainChar c = true) : isUnsafe c = false := by
  have hbounds := isPlainChar_bounds h
  have htab := isPlainChar_ne h (d := '\t') (by decide)
  have hfeed := isPlainChar_ne h (d := '\n') (by decide)
  have hreturn := isPlainChar_ne h (d := '\r') (by decide)
  have hblank := isPlainChar_ne h (d := ' ') (by decide)
  have hclose := isPlainChar_ne h (d := '>') (by decide)
  simp [isUnsafe, isSpace, htab, hfeed, hreturn, hblank, hclose]
  omega

theorem removeUnsafe_eq_self {text : List Char} (h : ∀ c ∈ text, isPlainChar c = true) : removeUnsafe text = text := by
  induction text with
  | nil => rfl
  | cons c cs ih =>
    have hc := h c List.mem_cons_self
    have hsafe := isUnsafe_of_plain hc
    have htail := ih fun d hd => h d (List.mem_cons_of_mem c hd)
    cases cs with
    | nil => simp [removeUnsafe, hsafe]
    | cons d cs =>
      have hdash : ¬(c = '-' ∧ d = '-') := fun hpair => isPlainChar_ne hc (by decide) hpair.1
      rw [removeUnsafe, if_neg hdash, hsafe, htail]
      rfl

/-- Two dashes of the text stand side by side once the white space, the `>` and the pairs of dashes between them are
gone; `opened` says that a dash is left just in front. -/
def dashesMeet (opened : Bool) : List Char → Bool
  | [] => false
  | [c] => c = '-' && opened
  | c :: d :: cs =>
    if c = '-' ∧ d = '-' then dashesMeet opened cs
    else if c = '-' then opened || dashesMeet true (d :: cs)
    else if isUnsafe c then dashesMeet opened (d :: cs)
    else dashesMeet false (d :: cs)

theorem pair_infix_cons {c : Char} {cs : List Char} :
    ['-', '-'] <:+: c :: cs ↔ c = '-' ∧ cs.head? = some '-' ∨ ['-', '-'] <:+: cs := by
  rw [List.infix_cons_iff, List.cons_prefix_cons]
  cases cs with
  | nil => simp
  | cons d cs => simp [List.cons_prefix_cons, eq_comm]

theorem pair_infix_removeUnsafe (opened : Bool) (text : List Char) :
    ['-', '-'] <:+: (if opened then ['-'] else []) ++ removeUnsafe text ↔ dashesMeet opened text = true := by
  induction text using removeUnsafe.induct generalizing opened with
  | case1 =>
    cases opened with
    | true => simp [removeUnsafe, dashesMeet, pair_infix_cons]
    | false => simp [removeUnsafe, dashesMeet]
  | case2 c hunsafe =>
    have hdash : c ≠ '-' := by
      rintro rfl
      revert hunsafe
      decide
    cases opened with
    | true => simp [removeUnsafe, dashesMeet, hunsafe, hdash, pair_infix_cons]
    | false => simp [removeUnsafe, dashesMeet, hunsafe]
  | case3 c hsafe =>
    cases opened with
    | true => simp [removeUnsafe, dashesMeet, hsafe, pair_infix_cons]
    | false => simp [removeUnsafe, dashesMeet, hsafe, pair_infix_cons]
  | case4 c d cs hpair ih =>
    rw [removeUnsafe, if_pos hpair, dashesMeet, if_pos hpair]
    exact ih opened
  | case5 c d cs hpair hunsafe ih =>
    have hdash : c ≠ '-' := by
      rintro rfl
      revert hunsafe
      decide
    rw [removeUnsafe, if_neg hpair, if_pos hunsafe, dashesMeet, if_neg hpair, if_neg hdash, if_pos hunsafe]
    exact ih opened
  | case6 c d cs hpair hsafe ih =>
    rw [removeUnsafe, if_neg hpair, if_neg hsafe, dashesMeet, if_neg hpair, if_neg hsafe]
    by_cases hdash : c = '-'
    · subst hdash
      have htail := ih true
      rw [if_pos rfl, List.singleton_append] at htail
      cases opened with
      | true => simp [pair_infix_cons]
      | false => simpa using htail
    · have htail := ih false
      rw [if_neg Bool.false_ne_true, List.nil_append] at htail
      rw [if_neg hdash, ← htail]
      cases opened with
      | true => simp [pair_infix_cons, hdash]
      | false => simp [pair_infix_cons, hdash]

/-! ## Fields -/

theorem fieldAt_eq_none {cs : List Char} (h : (cs.dropWhile isWordChar).head? ≠ some '=') : fieldAt cs = none := by
  unfold fieldAt
  split
  · rfl
  · rename_i rest hrest _
    rw [hrest] at h
    exact absurd rfl h
  · rfl

theorem fieldMatches_word {word : List Char} (h : '=' ∉ word) (rest : List Char) :
    fieldMatches (word ++ ' ' :: rest) = fieldMatches rest := by
  have hblank : isWordChar ' ' = false := by decide
  induction word with
  | nil =>
    have hnone : fieldAt (' ' :: rest) = none := fieldAt_eq_none (by simp [hblank])
    rw [List.nil_append, fieldMatches, hnone]
  | cons c word ih =>
    rw [List.mem_cons, not_or] at h
    have hhead : ∀ cs : List Char, '=' ∉ cs → ((cs ++ ' ' :: rest).dropWhile isWordChar).head? ≠ some '=' := by
      intro cs hcs
      induction cs with
      | nil => simp [hblank]
      | cons d cs ih =>
        rw [List.mem_cons, not_or] at hcs
        rw [List.cons_append, List.dropWhile_cons]
        split
        · exact ih hcs.2
        · simpa using Ne.symm hcs.1
    have hnone : fieldAt (c :: (word ++ ' ' :: rest)) = none := by
      apply fieldAt_eq_none
      have hword := hhead (c :: word) (by simp [h.1, h.2])
      exact hword
    rw [List.cons_append, fieldMatches, hnone]
    exact ih h.2

theorem takeWhile_append_exact {p : Char → Bool} {word rest : List Char} (h : ∀ c ∈ word, p c = true)
    (hrest : ∀ c, rest.head? = some c → p c = false) :
    (word ++ rest).takeWhile p = word ∧ (word ++ rest).dropWhile p = rest := by
  rw [List.takeWhile_append_of_pos h, List.dropWhile_append_of_pos h]
  cases rest with
  | nil => simp
  | cons c rest =>
    have hc := hrest c rfl
    rw [List.takeWhile_cons_of_neg (by simp [hc]), List.dropWhile_cons_of_neg (by simp [hc]), List.append_nil]
    exact ⟨rfl, rfl⟩

theorem fieldMatches_field {key value rest : List Char} (hkey : key ≠ []) (hword : ∀ c ∈ key, isWordChar c = true)
    (hvalue : value ≠ []) (hspace : ∀ c ∈ value, isSpace c = false)
    (hrest : ∀ c, rest.head? = some c → isSpace c = true) :
    fieldMatches (key ++ '=' :: (value ++ rest)) = (key, value) :: fieldMatches rest := by
  obtain ⟨htake, hdrop⟩ := @takeWhile_append_exact isWordChar key ('=' :: (value ++ rest)) hword (by
    intro c hc
    cases hc
    decide)
  obtain ⟨hvtake, hvdrop⟩ := @takeWhile_append_exact (fun c => !isSpace c) value rest
    (fun c hc => by simp [hspace c hc]) (fun c hc => by simp [hrest c hc])
  have hfield : fieldAt (key ++ '=' :: (value ++ rest)) = some ((key, value), rest) := by
    unfold fieldAt
    rw [htake, hdrop]
    cases key with
    | nil => exact absurd rfl hkey
    | cons c key =>
      simp only [hvtake, hvdrop]
  cases key with
  | nil => exact absurd rfl hkey
  | cons c key =>
    rw [List.cons_append] at hfield ⊢
    rw [fieldMatches, hfield]

/-- ` key=value` for every field. -/
def fieldTexts (fields : List (List Char × List Char)) : List Char :=
  fields.flatMap fun field => ' ' :: (field.1 ++ '=' :: field.2)

/-- A field that is read back: neither a key without word characters nor a value with white space. -/
def IsField (field : List Char × List Char) : Prop :=
  field.1 ≠ [] ∧ (∀ c ∈ field.1, isWordChar c = true) ∧ field.2 ≠ [] ∧ ∀ c ∈ field.2, isSpace c = false

theorem fieldMatches_fieldTexts {fields : List (List Char × List Char)} (h : ∀ field ∈ fields, IsField field) :
    fieldMatches (fieldTexts fields ++ " -->".toList) = fields := by
  induction fields with
  | nil =>
    have hend : fieldAt "-->".toList = none := by decide
    have hskip := @fieldMatches_word [] (by simp) "-->".toList
    have hclose : fieldMatches "-->".toList = [] := by
      have hdash : fieldAt ['-', '>'] = none := by decide
      have hgt : fieldAt ['>'] = none := by decide
      rw [show "-->".toList = ['-', '-', '>'] from rfl] at hend ⊢
      rw [fieldMatches, hend, fieldMatches, hdash, fieldMatches, hgt, fieldMatches]
    rw [hclose] at hskip
    exact hskip
  | cons field fields ih =>
    obtain ⟨hkey, hword, hvalue, hspace⟩ := h field List.mem_cons_self
    have htail := ih fun f hf => h f (List.mem_cons_of_mem _ hf)
    have hhead : ∀ c, (fieldTexts fields ++ " -->".toList).head? = some c → isSpace c = true := by
      intro c hc
      have hblank : (fieldTexts fields ++ " -->".toList).head? = some ' ' := by
        cases fields with
        | nil => rfl
        | cons next fields => rfl
      rw [hblank] at hc
      cases hc
      decide
    have hfield := fieldMatches_field hkey hword hvalue hspace hhead
    have hskip := @fieldMatches_word [] (by simp)
      (field.1 ++ '=' :: (field.2 ++ (fieldTexts fields ++ " -->".toList)))
    rw [List.nil_append, hfield, htail] at hskip
    have hsplit : fieldTexts (field :: fields) ++ " -->".toList =
        ' ' :: (field.1 ++ '=' :: (field.2 ++ (fieldTexts fields ++ " -->".toList))) := by
      simp [fieldTexts]
    rw [hsplit]
    exact hskip

/-! ## Status words -/

theorem takeWhile_append_cons {p : Char → Bool} {c : Char} (hc : p c = false) (cs rest : List Char) :
    (cs ++ c :: rest).takeWhile p = cs.takeWhile p ∧ (cs ++ c :: rest).dropWhile p = cs.dropWhile p ++ c :: rest := by
  induction cs with
  | nil => simp [hc]
  | cons d cs ih =>
    rw [List.cons_append, List.takeWhile_cons, List.takeWhile_cons, List.dropWhile_cons, List.dropWhile_cons]
    split
    · exact ⟨by rw [ih.1], ih.2⟩
    · exact ⟨rfl, rfl⟩

theorem prefix_of_append_cons {pre cs rest : List Char} {c : Char} (hc : c ∉ pre) (h : pre <+: cs ++ c :: rest) :
    pre <+: cs := by
  by_cases hlength : pre.length ≤ cs.length
  · exact List.prefix_of_prefix_length_le h (List.prefix_append _ _) hlength
  · exfalso
    have hlonger : cs ++ [c] <+: pre := by
      apply List.prefix_of_prefix_length_le _ h
      · simp only [List.length_append, List.length_singleton]
        omega
      · exact ⟨rest, by simp⟩
    exact hc (hlonger.subset (List.mem_append_right _ List.mem_cons_self))

theorem statusAt_blank (cs rest : List Char) : statusAt (cs ++ ' ' :: rest) = statusAt cs := by
  have hletter : isStatusChar ' ' = false := by decide
  have hword : isWordChar ' ' = false := by decide
  unfold statusAt
  by_cases hkey : "status=".toList <+: cs
  · obtain ⟨tail, rfl⟩ := hkey
    have hdrop : ∀ cs : List Char, ("status=".toList ++ cs).drop 7 = cs := fun cs => rfl
    have hkey : ∀ cs : List Char, "status=".toList.isPrefixOf ("status=".toList ++ cs) = true := by
      intro cs
      rw [List.isPrefixOf_iff_prefix]
      exact List.prefix_append _ _
    obtain ⟨htake, hafter⟩ := takeWhile_append_cons hletter tail rest
    have hhead : (tail.dropWhile isStatusChar ++ ' ' :: rest).head?.any isWordChar =
        (tail.dropWhile isStatusChar).head?.any isWordChar := by
      cases tail.dropWhile isStatusChar with
      | nil => simp [hword]
      | cons c cs => rfl
    rw [List.append_assoc, if_pos (hkey _), if_pos (hkey _), hdrop, hdrop, htake, hafter]
    dsimp only
    rw [hhead]
  · have hlonger : ¬"status=".toList <+: cs ++ ' ' :: rest :=
      fun h => hkey (prefix_of_append_cons (by decide) h)
    rw [if_neg (by rwa [List.isPrefixOf_iff_prefix]), if_neg (by rwa [List.isPrefixOf_iff_prefix])]

theorem statusWords_blank (boundary : Bool) (cs rest : List Char) :
    statusWords boundary (cs ++ ' ' :: rest) = statusWords boundary cs ++ statusWords true rest := by
  induction cs generalizing boundary with
  | nil =>
    have hnone : statusAt (' ' :: rest) = none := statusAt_blank [] rest
    have hword : isWordChar ' ' = false := by decide
    simp [statusWords, hnone, hword]
  | cons c cs ih =>
    have hsame := statusAt_blank (c :: cs) rest
    rw [List.cons_append] at hsame
    rw [List.cons_append, statusWords, statusWords, hsame, ih, List.append_assoc]

theorem statusAt_eq_none {c : Char} (h : c ≠ 's') (cs : List Char) : statusAt (c :: cs) = none := by
  unfold statusAt
  rw [if_neg]
  rw [List.isPrefixOf_iff_prefix]
  exact fun hkey => h (List.cons_prefix_cons.mp hkey).1.symm

theorem statusWords_eq_nil {cs : List Char} (h : 's' ∉ cs) (boundary : Bool) : statusWords boundary cs = [] := by
  induction cs generalizing boundary with
  | nil => rfl
  | cons c cs ih =>
    rw [List.mem_cons, not_or] at h
    rw [statusWords, statusAt_eq_none (Ne.symm h.1), ih h.2]
    simp

theorem statusWords_fieldTexts {fields : List (List Char × List Char)}
    (h : ∀ field ∈ fields, ∀ value, statusWords true (field.1 ++ '=' :: value) = statusWords true value)
    (boundary : Bool) (cs : List Char) :
    statusWords boundary (cs ++ (fieldTexts fields ++ " --".toList)) =
      statusWords boundary cs ++ fields.flatMap fun field => statusWords true field.2 := by
  induction fields generalizing boundary cs with
  | nil =>
    have hclose : statusWords true "--".toList = [] := by decide
    have hend := statusWords_blank boundary cs "--".toList
    rw [hclose] at hend
    exact hend
  | cons field fields ih =>
    have hfield := h field List.mem_cons_self field.2
    have htail := ih (fun f hf => h f (List.mem_cons_of_mem _ hf)) true (field.1 ++ '=' :: field.2)
    have hsplit : cs ++ (fieldTexts (field :: fields) ++ " --".toList) =
        cs ++ ' ' :: (field.1 ++ '=' :: field.2 ++ (fieldTexts fields ++ " --".toList)) := by
      simp [fieldTexts]
    rw [hsplit, statusWords_blank, htail, hfield, List.flatMap_cons]

/-! ## The fields of the state marker -/

section
variable {Policy : Type} (tools : CommentTools Policy) (input : BuildReviewStatusCommentInput Policy)

def tokenField (redactSecrets : List Char → List Char) (field : List Char × Option (List Char)) :
    Option (List Char × List Char) :=
  match field.2 with
  | none => none
  | some value =>
    if sanitizeMarkerToken redactSecrets value = [] then none
    else some (field.1, sanitizeMarkerToken redactSecrets value)

/-- The tokens of the state marker under their keys. -/
def lifecycleFields : List (List Char × List Char) :=
  if hasReviewLifecycleOptIn input then
    (buildReviewLifecycleFields tools input).ordered.filterMap (tokenField tools.redactSecrets)
  else []

def callerToken (value : Option (List Char)) : Option (List Char) :=
  nonEmpty (value.map (sanitizeMarkerToken tools.redactSecrets))

def sanitizedLifecycleFields : ParsedMarkerLifecycleFields :=
  if hasReviewLifecycleOptIn input then
    { runId := callerToken tools input.runId
      role := some .reviewer
      outcome := mapReviewOutcome input.state
      handoffTarget := callerToken tools input.handoffTarget
      issueHash := some (buildIssueHash tools input.repo input.pullNumber input.headSha) }
  else {}

theorem blank_intercalate (part : List Char) (parts : List (List Char)) :
    ' ' :: [' '].intercalate (part :: parts) = (part :: parts).flatMap (' ' :: ·) := by
  induction parts generalizing part with
  | nil => simp
  | cons next parts ih =>
    rw [List.intercalate_cons_cons, List.flatMap_cons, ← ih next]
    simp

theorem lifecycleText_eq : lifecycleText tools input = fieldTexts (lifecycleFields tools input) := by
  unfold lifecycleText lifecycleFields
  split
  · have hrender : ∀ field, renderField tools.redactSecrets field =
        (tokenField tools.redactSecrets field).map fun f => f.1 ++ '=' :: f.2 := by
      intro field
      unfold renderField tokenField
      cases field.2 with
      | none => rfl
      | some value =>
        dsimp only
        split <;> rfl
    unfold renderMarkerLifecycleFields fieldTexts
    have hparts : ((buildReviewLifecycleFields tools input).ordered.filterMap (renderField tools.redactSecrets)) =
        ((buildReviewLifecycleFields tools input).ordered.filterMap (tokenField tools.redactSecrets)).map
          fun f => f.1 ++ '=' :: f.2 := by
      rw [List.map_filterMap]
      exact List.filterMap_congr fun field _ => hrender field
    dsimp only
    rw [hparts]
    cases (buildReviewLifecycleFields tools input).ordered.filterMap (tokenField tools.redactSecrets) with
    | nil => rfl
    | cons field fields =>
      rw [List.map_cons, if_neg (List.cons_ne_nil _ _), blank_intercalate]
      simp only [List.flatMap_cons, List.flatMap_map]
  · rfl

theorem callerToken_safe {value : Option (List Char)} {token : List Char} (h : callerToken tools value = some token) :
    token ≠ [] ∧ ∃ text, value = some text ∧ token = removeUnsafe (tools.redactSecrets text) := by
  unfold callerToken nonEmpty at h
  rw [Option.filter_eq_some_iff] at h
  obtain ⟨htoken, hne⟩ := h
  obtain ⟨text, hvalue, rfl⟩ := Option.map_eq_some_iff.mp htoken
  refine ⟨by simpa using hne, text, hvalue, ?_⟩
  exact sanitizeMarkerToken_eq _ _

theorem tokenField_caller (key : List Char) (value : Option (List Char)) :
    tokenField tools.redactSecrets (key, nonEmpty value) = (callerToken tools value).map (Prod.mk key) := by
  cases value with
  | none => rfl
  | some text =>
    cases text with
    | nil =>
      have hempty : tools.redactSecrets [] = [] := tools.redact_plain [] (by simp)
      have hdropped : nonEmpty (some []) = none := rfl
      rw [callerToken, Option.map_some, sanitizeMarkerToken_eq, hempty, removeUnsafe, hdropped]
      rfl
    | cons c cs =>
      have hkept : nonEmpty (some (c :: cs)) = some (c :: cs) := rfl
      rw [hkept, callerToken, Option.map_some]
      unfold tokenField nonEmpty
      dsimp only
      cases sanitizeMarkerToken tools.redactSecrets (c :: cs) with
      | nil => rfl
      | cons d ds => rfl

theorem tokenField_plain (key : List Char) {text : List Char} (hne : text ≠ [])
    (h : ∀ c ∈ text, isPlainChar c = true) : tokenField tools.redactSecrets (key, some text) = some (key, text) := by
  have htoken : sanitizeMarkerToken tools.redactSecrets text = text := by
    rw [sanitizeMarkerToken_eq, tools.redact_plain text h, removeUnsafe_eq_self h]
  unfold tokenField
  dsimp only
  rw [htoken, if_neg hne]

theorem outcome_plain (outcome : MarkerOutcome) : outcome.text ≠ [] ∧ ∀ c ∈ outcome.text, isPlainChar c = true := by
  cases outcome <;> exact ⟨List.cons_ne_nil _ _, List.all_eq_true.mp (by decide)⟩

theorem isPlainChar_of_hex {c : Char} (h : isHexChar c = true) : isPlainChar c = true := by
  rw [isHexChar, Bool.or_eq_true] at h
  rw [isPlainChar, Bool.or_eq_true]
  rcases h with h | h
  · exact Or.inl h
  · right
    rw [Bool.and_eq_true, decide_eq_true_eq, decide_eq_true_eq] at h ⊢
    exact ⟨h.1, le_trans h.2 (by decide)⟩

theorem mem_buildIssueHash {repo headSha : List Char} {pullNumber : Nat} {c : Char}
    (h : c ∈ buildIssueHash tools repo pullNumber headSha) : isHexChar c = true :=
  tools.sha256_hex _ c (List.mem_of_mem_take h)

theorem buildIssueHash_ne_nil (repo : List Char) (pullNumber : Nat) (headSha : List Char) :
    buildIssueHash tools repo pullNumber headSha ≠ [] := by
  have hlength : (buildIssueHash tools repo pullNumber headSha).length = 16 := by
    rw [buildIssueHash, List.length_take, tools.sha256_length]
    rfl
  intro hnil
  rw [hnil] at hlength
  cases hlength

theorem lifecycleFields_eq (h : hasReviewLifecycleOptIn input = true) :
    lifecycleFields tools input =
      ((callerToken tools input.runId).map (Prod.mk "runId".toList)).toList ++
      [("role".toList, "reviewer".toList)] ++
      ((mapReviewOutcome input.state).map fun outcome => ("outcome".toList, outcome.text)).toList ++
      ((callerToken tools input.handoffTarget).map (Prod.mk "handoffTarget".toList)).toList ++
      [("issueHash".toList, buildIssueHash tools input.repo input.pullNumber input.headSha)] := by
  have hrole : tokenField tools.redactSecrets ("role".toList, some "reviewer".toList) =
      some ("role".toList, "reviewer".toList) :=
    tokenField_plain tools _ (by decide) (List.all_eq_true.mp (by decide))
  have houtcome : tokenField tools.redactSecrets
      ("outcome".toList, (mapReviewOutcome input.state).map MarkerOutcome.text) =
      (mapReviewOutcome input.state).map fun outcome => ("outcome".toList, outcome.text) := by
    cases mapReviewOutcome input.state with
    | none => rfl
    | some outcome => exact tokenField_plain tools _ (outcome_plain outcome).1 (outcome_plain outcome).2
  have hhash := tokenField_plain tools "issueHash".toList
    (buildIssueHash_ne_nil tools input.repo input.pullNumber input.headSha)
    fun c hc => isPlainChar_of_hex (mem_buildIssueHash tools hc)
  have hordered : (buildReviewLifecycleFields tools input).ordered =
      [("runId".toList, nonEmpty input.runId), ("role".toList, some "reviewer".toList),
        ("outcome".toList, (mapReviewOutcome input.state).map MarkerOutcome.text),
        ("handoffTarget".toList, nonEmpty input.handoffTarget),
        ("issueHash".toList, some (buildIssueHash tools input.repo input.pullNumber input.headSha))] := rfl
  rw [lifecycleFields, if_pos h, hordered, List.filterMap_eq_flatMap_toList]
  simp only [List.flatMap_cons, List.flatMap_nil, List.append_nil, List.append_assoc]
  rw [tokenField_caller, hrole, houtcome, tokenField_caller, hhash]
  rfl

def lifecycleKeys : List (List Char) :=
  ["runId".toList, "role".toList, "outcome".toList, "handoffTarget".toList, "issueHash".toList]

theorem lifecycleKeys_apart {key : List Char} (h : key ∈ lifecycleKeys) :
    key ≠ [] ∧ (∀ c ∈ key, isWordChar c = true) ∧
      ∀ value, statusWords true (key ++ '=' :: value) = statusWords true value := by
  unfold lifecycleKeys at h
  simp only [List.mem_cons, List.not_mem_nil, or_false] at h
  rcases h with rfl | rfl | rfl | rfl | rfl <;>
    exact ⟨List.cons_ne_nil _ _, List.all_eq_true.mp (by decide), fun value => rfl⟩

theorem mem_lifecycleFields {field : List Char × List Char} (h : field ∈ lifecycleFields tools input) :
    field.1 ∈ lifecycleKeys ∧ field.2 ≠ [] ∧ ∀ c ∈ field.2, isUnsafe c = false := by
  unfold lifecycleFields at h
  split at h
  · obtain ⟨source, hsource, hfield⟩ := List.mem_filterMap.mp h
    have hkey : source.1 ∈ lifecycleKeys := List.mem_map_of_mem (f := Prod.fst) hsource
    unfold tokenField at hfield
    split at hfield
    · cases hfield
    · split at hfield
      · cases hfield
      · rename_i value _ hne
        cases hfield
        refine ⟨hkey, hne, fun c hc => ?_⟩
        rw [sanitizeMarkerToken_eq] at hc
        exact (mem_removeUnsafe hc).2
  · cases h

def stateFields : List (List Char × List Char) :=
  ("status".toList, stateText input.state) :: ("updated_at".toList, (toISOString input.now).toList) ::
    lifecycleFields tools input

theorem stateMarker_eq :
    stateMarker tools input = REVIEW_STATUS_STATE_MARKER_PREFIX ++ (fieldTexts (stateFields tools input) ++ " -->".toList) := by
  have hfields : fieldTexts (stateFields tools input) =
      " status=".toList ++ (stateText input.state ++ (" updated_at=".toList ++ ((toISOString input.now).toList ++
        fieldTexts (lifecycleFields tools input)))) := by
    unfold fieldTexts stateFields
    rw [List.flatMap_cons, List.flatMap_cons]
    simp
  rw [stateMarker, lifecycleText_eq, hfields]
  simp only [List.append_assoc]

theorem mem_updatedAt {c : Char} (h : c ∈ (toISOString input.now).toList) :
    isUnsafe c = false ∧ c ≠ 's' ∧ c ≠ '<' := by
  rcases mem_toISOString h with h | h
  · have hplain : isPlainChar c = true := by
      rw [isPlainChar, h]
      rfl
    refine ⟨isUnsafe_of_plain hplain, ?_, isPlainChar_ne hplain (by decide)⟩
    rintro rfl
    revert h
    decide
  · have hall : ['-', '+', 'T', ':', '.', 'Z'].all (fun c => !isUnsafe c && c ≠ 's' && c ≠ '<') = true := by decide
    have hc := List.all_eq_true.mp hall c h
    simpa [and_assoc] using hc

theorem stateFields_isField {field : List Char × List Char} (h : field ∈ stateFields tools input) :
    IsField field ∧ ∀ c ∈ field.2, isUnsafe c = false := by
  unfold stateFields at h
  rcases List.mem_cons.mp h with rfl | h
  · have hstate : ∀ c ∈ stateText input.state, isUnsafe c = false := by
      have hall : (stateText input.state).all (fun c => !isUnsafe c) = true := by cases input.state <;> decide
      intro c hc
      simpa using List.all_eq_true.mp hall c hc
    have hkey : "status".toList.all isWordChar = true := by decide
    refine ⟨⟨List.cons_ne_nil _ _, List.all_eq_true.mp hkey, ?_, fun c hc => (isSpace_of_safe (hstate c hc)).1⟩, hstate⟩
    cases input.state <;> exact List.cons_ne_nil _ _
  · rcases List.mem_cons.mp h with rfl | h
    · have hsafe := fun c (hc : c ∈ (toISOString input.now).toList) => (mem_updatedAt input hc).1
      have hkey : "updated_at".toList.all isWordChar = true := by decide
      refine ⟨⟨List.cons_ne_nil _ _, List.all_eq_true.mp hkey, ?_, fun c hc => (isSpace_of_safe (hsafe c hc)).1⟩, hsafe⟩
      intro hnil
      exact toISOString_ne_empty input.now (String.toList_eq_nil_iff.mp hnil)
    · obtain ⟨hkey, hne, hsafe⟩ := mem_lifecycleFields tools input h
      obtain ⟨hkeyne, hword, -⟩ := lifecycleKeys_apart hkey
      exact ⟨⟨hkeyne, hword, hne, fun c hc => (isSpace_of_safe (hsafe c hc)).1⟩, hsafe⟩

theorem parseMarkerLifecycleFields_stateMarker :
    parseMarkerLifecycleFields (stateMarker tools input) = sanitizedLifecycleFields tools input := by
  have hmatches : fieldMatches (stateMarker tools input) = stateFields tools input := by
    have hread := fieldMatches_fieldTexts fun field hfield => (stateFields_isField tools input hfield).1
    have hopen : '=' ∉ "<!--".toList := by decide
    have hname : '=' ∉ "evaos-code-review-bot:review-status-state".toList := by decide
    obtain ⟨rest, hrest⟩ : ∃ rest, fieldTexts (stateFields tools input) ++ " -->".toList = ' ' :: rest := ⟨_, rfl⟩
    have hopening : REVIEW_STATUS_STATE_MARKER_PREFIX =
        "<!--".toList ++ ' ' :: "evaos-code-review-bot:review-status-state".toList := by decide
    rw [stateMarker_eq, hrest, hopening, List.append_assoc, List.cons_append, fieldMatches_word hopen,
      fieldMatches_word hname]
    rw [hrest] at hread
    have hskip := @fieldMatches_word [] (by simp) rest
    rw [List.nil_append, hread] at hskip
    exact hskip.symm
  rw [parseMarkerLifecycleFields, hmatches, stateFields, sanitizedLifecycleFields]
  split
  · rename_i h
    have hstart : readField (readField {} ("status".toList, stateText input.state))
        ("updated_at".toList, (toISOString input.now).toList) = {} := rfl
    have hrole : roleOf "reviewer".toList = some .reviewer := by decide
    have houtcome : ∀ outcome : MarkerOutcome, outcomeOf outcome.text = some outcome := by
      intro outcome
      cases outcome <;> decide
    rw [List.foldl_cons, List.foldl_cons, hstart, lifecycleFields_eq tools input h]
    cases callerToken tools input.runId <;> cases mapReviewOutcome input.state <;>
      cases callerToken tools input.handoffTarget <;>
        simpa [readField, houtcome] using hrole
  · rename_i h
    rw [lifecycleFields, if_neg h]
    rfl

/-! ## The words of the caller -/

def callerTexts : List (List Char) := (input.runId.toList ++ input.handoffTarget.toList).map tools.redactSecrets

/-- The words behind a `status=` of the caller. -/
def callerWords : List (List Char) :=
  (callerTexts tools input).flatMap fun text => statusWords true (removeUnsafe text)

theorem callerToken_words (value : Option (List Char)) :
    (callerToken tools value).toList.flatMap (statusWords true) =
      (value.toList.map tools.redactSecrets).flatMap fun text => statusWords true (removeUnsafe text) := by
  cases value with
  | none => rfl
  | some text =>
    rw [callerToken, Option.map_some, sanitizeMarkerToken_eq]
    cases htoken : removeUnsafe (tools.redactSecrets text) with
    | nil =>
      have hdropped : nonEmpty (some []) = none := rfl
      simp [hdropped, htoken, statusWords]
    | cons c cs =>
      have hkept : nonEmpty (some (c :: cs)) = some (c :: cs) := rfl
      simp [hkept, htoken]

theorem lifecycleFields_words :
    (lifecycleFields tools input).flatMap (fun field => statusWords true field.2) = callerWords tools input := by
  by_cases h : hasReviewLifecycleOptIn input = true
  · have hrun := callerToken_words tools input.runId
    have hhandoff := callerToken_words tools input.handoffTarget
    have hrole : statusWords true "reviewer".toList = [] := by decide
    have houtcome : ∀ outcome : MarkerOutcome, statusWords true outcome.text = [] := by
      intro outcome
      cases outcome <;> decide
    have hhash : statusWords true (buildIssueHash tools input.repo input.pullNumber input.headSha) = [] := by
      apply statusWords_eq_nil
      intro hmem
      have hhex := mem_buildIssueHash tools hmem
      revert hhex
      decide
    have hwords : ∀ (key : List Char) (value : Option (List Char)),
        (value.map (Prod.mk key)).toList.flatMap (fun field => statusWords true field.2) =
          value.toList.flatMap (statusWords true) := by
      intro key value
      cases value <;> simp
    rw [lifecycleFields_eq tools input h, callerWords, callerTexts]
    simp only [List.map_append, List.flatMap_append, hwords, List.flatMap_cons, List.flatMap_nil, hrole, hhash,
      List.append_nil, hrun, hhandoff]
    cases mapReviewOutcome input.state with
    | none => simp
    | some outcome => simp [houtcome]
  · have hnone : input.runId = none ∧ input.handoffTarget = none := by
      simpa [hasReviewLifecycleOptIn] using h
    rw [lifecycleFields, if_neg h, callerWords, callerTexts, hnone.1, hnone.2]
    rfl

theorem statusWords_stateFields :
    statusWords false (fieldTexts (stateFields tools input) ++ " --".toList) =
      stateText input.state :: callerWords tools input := by
  have hkeys : ∀ field ∈ ("updated_at".toList, (toISOString input.now).toList) :: lifecycleFields tools input,
      ∀ value, statusWords true (field.1 ++ '=' :: value) = statusWords true value := by
    intro field hfield
    rcases List.mem_cons.mp hfield with rfl | hfield
    · exact fun value => rfl
    · exact (lifecycleKeys_apart (mem_lifecycleFields tools input hfield).1).2.2
  have hwords := statusWords_fieldTexts hkeys true ("status".toList ++ '=' :: stateText input.state)
  have hsplit : fieldTexts (stateFields tools input) ++ " --".toList =
      [] ++ ' ' :: ("status".toList ++ '=' :: stateText input.state ++
        (fieldTexts (("updated_at".toList, (toISOString input.now).toList) :: lifecycleFields tools input) ++
          " --".toList)) := by
    rw [stateFields, fieldTexts, List.flatMap_cons, ← fieldTexts]
    simp
  have hstate : statusWords true ("status".toList ++ '=' :: stateText input.state) = [stateText input.state] := by
    cases input.state <;> decide
  have hdate : statusWords true (toISOString input.now).toList = [] :=
    statusWords_eq_nil (fun hmem => (mem_updatedAt input hmem).2.1 rfl) true
  rw [hsplit, statusWords_blank, hwords, hstate, List.flatMap_cons, hdate, lifecycleFields_words]
  rfl

end

end NeonDiff.Marker
