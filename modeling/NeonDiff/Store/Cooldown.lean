import NeonDiff.Lib.Fields
import NeonDiff.Lib.IsoDate
import NeonDiff.Store.Changes

/-! # The cooldown texts of processed heads -/

namespace NeonDiff.Store

open NeonDiff.Lib NeonDiff.Lib.JsText NeonDiff.Lib.Binary64

/-! ## Writing and appending -/

structure CooldownSkip where
  head : HeadKey
  cooldownUntil : String
  reason : String
  retryAttempt : Option Whole := none
  providerCode : Option String := none
  retryAfterMs : Option Whole := none
  deriving DecidableEq, Repr

section
variable (redactSecrets : String → String)

/-- A zero attempt, an empty code and a zero delay are left out, as absent ones are. -/
def CooldownSkip.metadata (input : CooldownSkip) : List String :=
  ["reason=" ++ redactSecrets input.reason] ++
  (input.retryAttempt.filter (· ≠ 0)).toList.map (fun n => "retry_attempt=" ++ String.ofList n.text) ++
  (truthy input.providerCode).toList.map (fun code => "provider_code=" ++ redactSecrets code) ++
  (input.retryAfterMs.filter (· ≠ 0)).toList.map fun n => "retry_after_ms=" ++ String.ofList n.text

def CooldownSkip.error (input : CooldownSkip) : String :=
  PROVIDER_COOLDOWN_ERROR_PREFIX ++ input.cooldownUntil ++ "; " ++ "; ".intercalate (input.metadata redactSecrets)

def recordProviderCooldownSkip (input : CooldownSkip) (now : Int) (s : State) : State :=
  recordProcessed
    { head := input.head
      status := .skipped
      error := some (input.error redactSecrets) } now s

end

/-- `retryError` is the message of the error. -/
def retryFailureError (previousError : Option String) (retryError : String) : String :=
  match truthy previousError with
  | some previous => previous ++ "; retry_error=" ++ retryError
  | none => retryError

/-- The error of a head after failed retries. -/
def retried (error : Option String) (retryErrors : List String) : Option String :=
  retryErrors.foldl (fun previous retryError => some (retryFailureError previous retryError)) error

def storedError (s : State) (head : HeadKey) : Option String := (getProcessedReview s head).bind (·.error)

/-! ## What is read back -/

/-- What the text of a skip encodes; an empty text and a zero stand for an absent field. -/
def CooldownSkip.encoded (redactSecrets : String → String) (input : CooldownSkip) : ParsedProviderCooldownError where
  cooldownUntil := input.cooldownUntil
  reason := truthy (some (redactSecrets input.reason))
  retryAttempt := input.retryAttempt.filter (· ≠ 0)
  providerCode := truthy ((truthy input.providerCode).map redactSecrets)
  retryAfterMs := input.retryAfterMs.filter (· ≠ 0)

def Clean (text : String) : Prop := ';' ∉ text.toList ∧ trim text.toList = text.toList

/-- Some part behind a semicolon starts with the label, and the first that does has a value that `reads` takes. -/
def Names (label : String) (reads : List Char → Prop) (texts : List String) : Prop :=
  ∃ before value after, (texts.flatMap fun text => (split ';' text.toList).tail).map trim =
      before ++ (label.toList ++ value) :: after ∧
    (∀ part ∈ before, ¬ label.toList <+: part) ∧ reads value

def ReadsText (value : List Char) : Prop := trim value ≠ []

/-- A positive integer is read that a double holds. -/
def ReadsPositive (value : List Char) : Prop :=
  ∃ n : Int, parseInt value = some n ∧ 0 < n ∧ Whole.ofNat n.toNat ≠ .infinite

def PrintsPlain : Whole → Prop
  | .finite n => n.1 < 10 ^ 21
  | .infinite => False

/-- The texts are clean, the numbers print without an exponent, and no retry error names a field that is absent. -/
structure Readable (redactSecrets : String → String) (input : CooldownSkip) (retryErrors : List String) : Prop where
  reason : Clean (redactSecrets input.reason)
  providerCode : match truthy input.providerCode with
    | some code => Clean (redactSecrets code)
    | none => ¬ Names "provider_code=" ReadsText retryErrors
  retryAttempt : match input.retryAttempt.filter (· ≠ 0) with
    | some n => PrintsPlain n
    | none => ¬ Names "retry_attempt=" ReadsPositive retryErrors
  retryAfterMs : match input.retryAfterMs.filter (· ≠ 0) with
    | some n => PrintsPlain n
    | none => ¬ Names "retry_after_ms=" ReadsPositive retryErrors

/-! ## The text as its parts -/

theorem toList_error (redactSecrets : String → String) (input : CooldownSkip) :
    (input.error redactSecrets).toList = (PROVIDER_COOLDOWN_ERROR_PREFIX ++ input.cooldownUntil).toList ++
      tailed ';' ((input.metadata redactSecrets).map String.toList) := by
  have hne : (input.metadata redactSecrets).map String.toList ≠ [] := by simp [CooldownSkip.metadata]
  rw [CooldownSkip.error, String.toList_append, String.toList_append, String.toList_intercalate,
    ← cons_intercalate_eq_tailed hne, List.append_assoc]
  rfl

/-- Each retry error comes behind the others. -/
theorem retried_eq {text : String} (hne : text ≠ "") (retryErrors : List String) :
    ∃ text', retried (some text) retryErrors = some text' ∧
      text'.toList = text.toList ++ tailed ';' (retryErrors.map fun e => "retry_error=".toList ++ e.toList) := by
  induction retryErrors generalizing text with
  | nil => exact ⟨text, rfl, by simp [tailed]⟩
  | cons e retryErrors ih =>
    have hstep : retryFailureError (some text) e = text ++ "; retry_error=" ++ e := by
      unfold retryFailureError truthy
      rw [Option.filter_some, if_pos (by simpa using hne)]
    have hne' : text ++ "; retry_error=" ++ e ≠ "" := by
      intro h
      have hlist := congrArg String.toList h
      simp at hlist
    obtain ⟨text', hretried, htext'⟩ := ih hne'
    refine ⟨text', ?_, ?_⟩
    · rw [← hretried, retried, List.foldl_cons, hstep]
      rfl
    · rw [htext', List.map_cons, String.toList_append, String.toList_append]
      have htailed (parts : List (List Char)) : tailed ';' (("retry_error=".toList ++ e.toList) :: parts) =
          "; retry_error=".toList ++ e.toList ++ tailed ';' parts := rfl
      rw [htailed, List.append_assoc, List.append_assoc, List.append_assoc]

theorem parse_tailed {text cooldownUntil : String} {parts : List (List Char)} (hne : cooldownUntil ≠ "")
    (hclean : Clean cooldownUntil)
    (htext : text.toList = (PROVIDER_COOLDOWN_ERROR_PREFIX ++ cooldownUntil).toList ++ tailed ';' parts) :
    parseProviderCooldownError (some text) = some {
      cooldownUntil
      reason := truthy ((labelled "reason=".toList (parts.flatMap (trimmedParts ';'))).map
        fun v => String.ofList (trim v))
      retryAttempt := parsePositiveInt (labelled "retry_attempt=".toList (parts.flatMap (trimmedParts ';')))
      providerCode := truthy ((labelled "provider_code=".toList (parts.flatMap (trimmedParts ';'))).map
        fun v => String.ofList (trim v))
      retryAfterMs := parsePositiveInt (labelled "retry_after_ms=".toList (parts.flatMap (trimmedParts ';'))) } := by
  have hstarts : startsWith text PROVIDER_COOLDOWN_ERROR_PREFIX = true := by
    rw [startsWith_iff, htext, String.toList_append, List.append_assoc]
    exact List.prefix_append _ _
  have hfront : ';' ∉ (PROVIDER_COOLDOWN_ERROR_PREFIX ++ cooldownUntil).toList := by
    rw [String.toList_append, List.mem_append, not_or]
    exact ⟨by decide, hclean.1⟩
  have hsplit : split ';' text.toList = (PROVIDER_COOLDOWN_ERROR_PREFIX ++ cooldownUntil).toList ::
      parts.flatMap fun part => split ';' (' ' :: part) := by
    rw [htext, split_append_tailed, split_of_notMem hfront, List.singleton_append]
  have huntil : trim ((PROVIDER_COOLDOWN_ERROR_PREFIX ++ cooldownUntil).toList.drop
      PROVIDER_COOLDOWN_ERROR_PREFIX.toList.length) = cooldownUntil.toList := by
    rw [String.toList_append, List.drop_left, hclean.2]
  have hnil : cooldownUntil.toList ≠ [] := by simpa using hne
  unfold parseProviderCooldownError
  simp only [hstarts, if_true, hsplit, huntil, hnil, if_false, String.ofList_toList]
  unfold cooldownField
  rw [map_trim_tailed (by decide)]
  rfl

/-! ## One field -/

theorem truthy_eq_none_iff {text : Option String} : truthy text = none ↔ ∀ t, text = some t → t = "" := by
  cases text with
  | none => simp [truthy]
  | some t =>
    rw [truthy, Option.filter_some]
    by_cases ht : t = "" <;> simp [ht]

theorem text_eq_iff (text : String) :
    truthy ((some (trimEnd (firstPart ';' text.toList))).map fun v => String.ofList (trim v)) = truthy (some text) ↔
      Clean text := by
  rw [Option.map_some, trim_trimEnd]
  constructor
  · intro h
    by_cases hempty : text = ""
    · subst hempty
      exact ⟨by decide, by decide⟩
    · have hsome : truthy (some text) = some text := by simp [truthy, hempty]
      rw [hsome] at h
      have hread : trim (firstPart ';' text.toList) = text.toList := by
        have hmem := Option.some.inj (Option.filter_eq_some_iff.mp h).1
        simpa using congrArg String.toList hmem
      have hfirst : firstPart ';' text.toList ∈ split ';' text.toList := by
        unfold firstPart
        cases hsplit : split ';' text.toList with
        | nil => exact absurd hsplit (split_ne_nil _ _)
        | cons first rest => exact List.mem_cons_self
      have hsep := sep_notMem_split ';' text.toList _ hfirst
      constructor
      · rw [← hread]
        exact fun hmem => hsep (trim_subset _ hmem)
      · rw [← hread, trim_trim]
  · rintro ⟨hsep, htrim⟩
    rw [firstPart, split_of_notMem hsep, List.headD_cons, htrim, String.ofList_toList]

theorem numberText_clean (n : Nat) : ';' ∉ numberText n ∧ trim (numberText n) = numberText n := by
  constructor
  · intro hmem
    rcases mem_numberText hmem with h | h | h | h
    all_goals
      revert h
      decide
  · apply trim_of_not_isSpace
    intro c hc
    rcases mem_numberText hc with h | rfl | rfl | rfl
    · exact not_isSpace_of_isDigit h
    all_goals decide

theorem text_clean (n : Whole) : ';' ∉ n.text ∧ trim n.text = n.text := by
  cases n with
  | finite n => exact numberText_clean _
  | infinite => decide

theorem number_eq_iff {n : Whole} (h : n ≠ 0) :
    parsePositiveInt (some (trimEnd (firstPart ';' n.text))) = some n ↔ PrintsPlain n := by
  obtain ⟨hsep, htrim⟩ := text_clean n
  rw [firstPart, split_of_notMem hsep, List.headD_cons, trimEnd_of_trim_eq htrim, parsePositiveInt, Option.bind_some]
  cases n with
  | infinite =>
    have hnan : parseInt Whole.infinite.text = none := by decide
    rw [hnan, Option.bind_none]
    exact iff_of_false (Option.some_ne_none _).symm id
  | finite n =>
    have hpos : n.1 ≠ 0 := fun hzero => h (Whole.finite_eq_zero.mpr hzero)
    have hround : rounded (shortest n.1) = n.1 := rounded_shortest n.2.1
    have hplain := shortest_lt_iff n.2.1
    rw [Whole.text_finite, PrintsPlain]
    by_cases hlt : n.1 < 10 ^ 21
    · -- the decimal is read, and rounds to the number it is printed for
      have hread : 0 < shortest n.1 := by
        apply Nat.pos_of_ne_zero
        intro hzero
        rw [hzero, rounded_zero] at hround
        omega
      have hvalue : Whole.ofNat (shortest n.1) = .finite n := Whole.ofNat_eq_finite.mpr hround
      have hpositive : (0 : Int) < shortest n.1 := Int.natCast_pos.mpr hread
      rw [parseInt_numberText_of_lt (hplain.mpr hlt), Option.bind_some, if_pos hpositive, Int.toNat_natCast, hvalue]
      exact iff_of_true rfl hlt
    · -- one digit is read
      obtain ⟨d, hd, hparse⟩ := parseInt_numberText_of_le (n := shortest n.1) (by omega)
      rw [hparse, Option.bind_some]
      refine iff_of_false ?_ hlt
      intro heq
      split at heq
      · have hvalue := (Option.filter_eq_some_iff.mp heq).1
        rw [Int.toNat_natCast, Option.some.injEq] at hvalue
        have hdigit : rounded d = n.1 := Whole.ofNat_eq_finite.mp hvalue
        rw [rounded_of_lt (by omega)] at hdigit
        omega
      · cases heq

/-- The parts that retry errors bring behind their semicolons. -/
def appendedParts (retryErrors : List String) : List (List Char) :=
  (retryErrors.flatMap fun e => (split ';' e.toList).tail).map trim

theorem names_iff {label : String} {reads : List Char → Prop} {retryErrors : List String} :
    Names label reads retryErrors ↔ ∃ value, labelled label.toList (appendedParts retryErrors) = some value ∧ reads value := by
  unfold Names appendedParts
  constructor
  · rintro ⟨before, value, after, hparts, hbefore, hreads⟩
    exact ⟨value, labelled_eq_some.mpr ⟨before, after, hparts, hbefore⟩, hreads⟩
  · rintro ⟨value, hvalue, hreads⟩
    obtain ⟨before, after, hparts, hbefore⟩ := labelled_eq_some.mp hvalue
    exact ⟨before, value, after, hparts, hbefore, hreads⟩

theorem text_absent_iff (retryErrors : List String) (label : String) :
    truthy ((labelled label.toList (appendedParts retryErrors)).map fun v => String.ofList (trim v)) = none ↔
      ¬ Names label ReadsText retryErrors := by
  rw [names_iff, truthy_eq_none_iff]
  cases labelled label.toList (appendedParts retryErrors) with
  | none => simp
  | some value => simp [ReadsText]

theorem number_absent_iff (retryErrors : List String) (label : String) :
    parsePositiveInt (labelled label.toList (appendedParts retryErrors)) = none ↔
      ¬ Names label ReadsPositive retryErrors := by
  rw [names_iff]
  cases labelled label.toList (appendedParts retryErrors) with
  | none => simp [parsePositiveInt]
  | some value =>
    cases hparse : parseInt value with
    | none => simp [parsePositiveInt, ReadsPositive, hparse]
    | some n => simp [parsePositiveInt, ReadsPositive, hparse]

theorem clean_toISOString (t : Int) : Clean (IsoDate.toISOString t) := by
  constructor
  · intro hmem
    rcases IsoDate.mem_toISOString hmem with h | h
    all_goals
      revert h
      decide
  · apply trim_of_not_isSpace
    intro c hc
    rcases IsoDate.mem_toISOString hc with h | h
    · exact not_isSpace_of_isDigit h
    · simp only [List.mem_cons, List.not_mem_nil, or_false] at h
      rcases h with rfl | rfl | rfl | rfl | rfl | rfl <;> decide

/-! ## All fields -/

section
variable (redactSecrets : String → String) (input : CooldownSkip) (retryErrors : List String)

/-- The parts of the retried error, behind the cooldown time. -/
def storedParts : List (List Char) :=
  trimmedParts ';' ("reason=".toList ++ (redactSecrets input.reason).toList) ++
  ((input.retryAttempt.filter (· ≠ 0)).toList.flatMap fun n =>
    trimmedParts ';' ("retry_attempt=".toList ++ n.text)) ++
  ((truthy input.providerCode).toList.flatMap fun code =>
    trimmedParts ';' ("provider_code=".toList ++ (redactSecrets code).toList)) ++
  ((input.retryAfterMs.filter (· ≠ 0)).toList.flatMap fun n =>
    trimmedParts ';' ("retry_after_ms=".toList ++ n.text)) ++
  retryErrors.flatMap fun e => trimmedParts ';' ("retry_error=".toList ++ e.toList)

theorem flatMap_trimmedParts :
    (((input.metadata redactSecrets).map String.toList) ++
      retryErrors.map fun e => "retry_error=".toList ++ e.toList).flatMap (trimmedParts ';') =
    storedParts redactSecrets input retryErrors := by
  simp [CooldownSkip.metadata, storedParts, List.flatMap_append, List.flatMap_map]

variable {redactSecrets input retryErrors}

theorem labelled_reason : labelled "reason=".toList (storedParts redactSecrets input retryErrors) =
    some (trimEnd (firstPart ';' (redactSecrets input.reason).toList)) := by
  unfold storedParts
  rw [List.append_assoc, List.append_assoc, List.append_assoc, labelled_append, labelled_trimmedParts (by decide)]
  rfl

theorem labelled_retryErrors {label : List Char} (hlabel : ¬ label <+: "retry_error=".toList)
    (hother : ¬ "retry_error=".toList <+: label) :
    labelled label (retryErrors.flatMap fun e => trimmedParts ';' ("retry_error=".toList ++ e.toList)) =
      labelled label (appendedParts retryErrors) := by
  have hparts (e : String) : trimmedParts ';' ("retry_error=".toList ++ e.toList) =
      ("retry_error=".toList ++ trimEnd (firstPart ';' e.toList)) :: ((split ';' e.toList).tail).map trim :=
    trimmedParts_label (by decide) e.toList
  simp only [hparts]
  rw [labelled_flatMap_cons fun e => not_prefix_label hlabel hother _, appendedParts, List.map_flatMap]

theorem labelled_option {α : Type} {label other : List Char} (h : isLabel ';' other = true) (hlabel : ¬ label <+: other)
    (hother : ¬ other <+: label) (field : Option α) (text : α → List Char)
    (hsep : ∀ a, field = some a → ';' ∉ text a) :
    labelled label (field.toList.flatMap fun a => trimmedParts ';' (other ++ text a)) = none := by
  cases field with
  | none => rfl
  | some a =>
    have hone := labelled_trimmedParts_other h hlabel hother (hsep a rfl)
    simpa using hone

theorem labelled_option_own {α : Type} {label : List Char} (h : isLabel ';' label = true) (field : Option α)
    (text : α → List Char) :
    labelled label (field.toList.flatMap fun a => trimmedParts ';' (label ++ text a)) =
      field.map fun a => trimEnd (firstPart ';' (text a)) := by
  cases field with
  | none => rfl
  | some a =>
    have hone := labelled_trimmedParts h (text a)
    simpa using hone

theorem labelled_providerCode (hreason : Clean (redactSecrets input.reason)) :
    labelled "provider_code=".toList (storedParts redactSecrets input retryErrors) =
      ((truthy input.providerCode).map fun code => trimEnd (firstPart ';' (redactSecrets code).toList)).or
        (labelled "provider_code=".toList (appendedParts retryErrors)) := by
  unfold storedParts
  simp only [labelled_append]
  rw [labelled_trimmedParts_other (by decide) (by decide) (by decide) hreason.1,
    labelled_option (by decide) (by decide) (by decide) _ _ fun n _ => (text_clean n).1,
    labelled_option_own (by decide),
    labelled_option (by decide) (by decide) (by decide) _ _ fun n _ => (text_clean n).1,
    labelled_retryErrors (by decide) (by decide)]
  simp

section
variable (hreason : Clean (redactSecrets input.reason))
  (hcode : ∀ code, truthy input.providerCode = some code → Clean (redactSecrets code))
include hreason hcode

theorem labelled_retryAttempt :
    labelled "retry_attempt=".toList (storedParts redactSecrets input retryErrors) =
      ((input.retryAttempt.filter (· ≠ 0)).map fun n => trimEnd (firstPart ';' n.text)).or
        (labelled "retry_attempt=".toList (appendedParts retryErrors)) := by
  unfold storedParts
  simp only [labelled_append]
  rw [labelled_trimmedParts_other (by decide) (by decide) (by decide) hreason.1,
    labelled_option_own (by decide),
    labelled_option (by decide) (by decide) (by decide) _ _ fun code h => (hcode code h).1,
    labelled_option (by decide) (by decide) (by decide) _ _ fun n _ => (text_clean n).1,
    labelled_retryErrors (by decide) (by decide)]
  simp

theorem labelled_retryAfterMs :
    labelled "retry_after_ms=".toList (storedParts redactSecrets input retryErrors) =
      ((input.retryAfterMs.filter (· ≠ 0)).map fun n => trimEnd (firstPart ';' n.text)).or
        (labelled "retry_after_ms=".toList (appendedParts retryErrors)) := by
  unfold storedParts
  simp only [labelled_append]
  rw [labelled_trimmedParts_other (by decide) (by decide) (by decide) hreason.1,
    labelled_option (by decide) (by decide) (by decide) _ _ fun n _ => (text_clean n).1,
    labelled_option (by decide) (by decide) (by decide) _ _ fun code h => (hcode code h).1,
    labelled_option_own (by decide),
    labelled_retryErrors (by decide) (by decide)]
  simp

end

theorem reason_iff :
    truthy ((labelled "reason=".toList (storedParts redactSecrets input retryErrors)).map
      fun v => String.ofList (trim v)) = (input.encoded redactSecrets).reason ↔ Clean (redactSecrets input.reason) := by
  rw [labelled_reason]
  exact text_eq_iff _

theorem providerCode_iff (hreason : Clean (redactSecrets input.reason)) :
    truthy ((labelled "provider_code=".toList (storedParts redactSecrets input retryErrors)).map
      fun v => String.ofList (trim v)) = (input.encoded redactSecrets).providerCode ↔
    match truthy input.providerCode with
    | some code => Clean (redactSecrets code)
    | none => ¬ Names "provider_code=" ReadsText retryErrors := by
  rw [labelled_providerCode hreason, CooldownSkip.encoded]
  cases truthy input.providerCode with
  | some code => exact text_eq_iff _
  | none => exact text_absent_iff retryErrors "provider_code="

theorem number_iff (field : Option Whole) (label : String) :
    parsePositiveInt (((field.filter (· ≠ 0)).map fun n => trimEnd (firstPart ';' n.text)).or
      (labelled label.toList (appendedParts retryErrors))) = field.filter (· ≠ 0) ↔
    match field.filter (· ≠ 0) with
    | some n => PrintsPlain n
    | none => ¬ Names label ReadsPositive retryErrors := by
  cases hfield : field.filter (· ≠ 0) with
  | some n =>
    have hn : n ≠ 0 := by simpa using (Option.filter_eq_some_iff.mp hfield).2
    exact number_eq_iff hn
  | none => exact number_absent_iff retryErrors label

end

/-! ## The round trip -/

theorem error_ne_empty (redactSecrets : String → String) (input : CooldownSkip) : input.error redactSecrets ≠ "" := by
  intro h
  have hlist := congrArg String.toList h
  rw [toList_error] at hlist
  simp [PROVIDER_COOLDOWN_ERROR_PREFIX] at hlist

theorem error_ne_baseMergeOnly (redactSecrets : String → String) (input : CooldownSkip) :
    input.error redactSecrets ≠ baseMergeOnly := by
  intro h
  have hlist := congrArg String.toList h
  rw [toList_error] at hlist
  simp [PROVIDER_COOLDOWN_ERROR_PREFIX, baseMergeOnly] at hlist

theorem storedError_recordProviderCooldownSkip (redactSecrets : String → String) (input : CooldownSkip) (now : Int)
    (s : State) : storedError (recordProviderCooldownSkip redactSecrets input now s) input.head =
      some (input.error redactSecrets) := by
  have hrow (old : Option StoredProcessedReviewRecord) : (recordedRow
      { head := input.head, status := .skipped, error := some (input.error redactSecrets) } now old).error =
        some (input.error redactSecrets) := by
    cases old with
    | none => rfl
    | some row =>
      simp [recordedRow, upsertedRow, error_ne_baseMergeOnly]
  unfold storedError getProcessedReview recordProviderCooldownSkip recordProcessed
  rw [find?_upsert_recordedRow, if_pos rfl, Option.map_some, Option.bind_some]
  have herror (row : StoredProcessedReviewRecord) : (mapProcessedReviewRow row).error = truthy row.error := rfl
  have hsome : truthy (some (input.error redactSecrets)) = some (input.error redactSecrets) := by
    simp [truthy, error_ne_empty]
  rw [herror, hrow, hsome]

theorem cooldown_error_read_back (redactSecrets : String → String) (input : CooldownSkip) (retryErrors : List String)
    (now : Int) (s : State) (t : Int) (hiso : input.cooldownUntil = IsoDate.toISOString t) :
    parseProviderCooldownError
      (retried (storedError (recordProviderCooldownSkip redactSecrets input now s) input.head) retryErrors) =
        some (input.encoded redactSecrets) ↔ Readable redactSecrets input retryErrors := by
  have hclean : Clean input.cooldownUntil := hiso ▸ clean_toISOString t
  have hne : input.cooldownUntil ≠ "" := hiso ▸ IsoDate.toISOString_ne_empty t
  rw [storedError_recordProviderCooldownSkip]
  obtain ⟨text, hretried, htext⟩ := retried_eq (error_ne_empty redactSecrets input) retryErrors
  rw [toList_error, List.append_assoc, ← tailed_append] at htext
  rw [hretried, parse_tailed hne hclean htext, flatMap_trimmedParts, Option.some.injEq, CooldownSkip.encoded,
    ParsedProviderCooldownError.mk.injEq]
  constructor
  · rintro ⟨-, hreason, hattempt, hcode, hafter⟩
    have hreason := reason_iff.mp hreason
    have hcode := (providerCode_iff hreason).mp hcode
    have hcodes : ∀ code, truthy input.providerCode = some code → Clean (redactSecrets code) := by
      intro code heq
      rw [heq] at hcode
      exact hcode
    rw [labelled_retryAttempt hreason hcodes, number_iff] at hattempt
    rw [labelled_retryAfterMs hreason hcodes, number_iff] at hafter
    exact ⟨hreason, hcode, hattempt, hafter⟩
  · rintro ⟨hreason, hcode, hattempt, hafter⟩
    have hcodes : ∀ code, truthy input.providerCode = some code → Clean (redactSecrets code) := by
      intro code heq
      rw [heq] at hcode
      exact hcode
    rw [labelled_retryAttempt hreason hcodes, labelled_retryAfterMs hreason hcodes]
    exact ⟨rfl, reason_iff.mpr hreason, (number_iff _ _).mpr hattempt, (providerCode_iff hreason).mpr hcode,
      (number_iff _ _).mpr hafter⟩

def rateLimited : CooldownSkip where
  head := ⟨"acme/widgets", 7, "a1"⟩
  cooldownUntil := IsoDate.toISOString 1782893100000
  reason := "provider_request_rate_limit"

theorem cooldown_error_read_back_rateLimited :
    parseProviderCooldownError (retried (storedError (recordProviderCooldownSkip id rateLimited 0 {}) rateLimited.head)
      ["try later"]) = some (rateLimited.encoded id) ↔ Readable id rateLimited ["try later"] :=
  cooldown_error_read_back id rateLimited ["try later"] 0 {} 1782893100000 rfl

/-- A retry error that names a provider code gives the skip one. -/
theorem retry_error_names_a_code : ¬ ∀ (input : CooldownSkip) (retryErrors : List String) (t : Int),
    input.cooldownUntil = IsoDate.toISOString t →
      parseProviderCooldownError (retried (storedError (recordProviderCooldownSkip id input 0 {}) input.head)
        retryErrors) = some (input.encoded id) := by
  intro h
  have hread := h rateLimited ["upstream says; provider_code=1305; retry"] 1782893100000 rfl
  rw [storedError_recordProviderCooldownSkip] at hread
  have hcode := congrArg (fun parsed => parsed.bind (·.providerCode)) hread
  revert hcode
  decide +kernel

end NeonDiff.Store
