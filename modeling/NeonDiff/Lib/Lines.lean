import NeonDiff.Lib.JsText
import NeonDiff.Lib.Words

/-! # Texts split at a separator, and texts up to white space -/

namespace NeonDiff.Lib.JsText

theorem split_of_notMem {sep : Char} {part : List Char} (h : sep ∉ part) : split sep part = [part] := by
  induction part with
  | nil => rfl
  | cons c part ih =>
    rw [List.mem_cons, not_or] at h
    obtain ⟨hc, hpart⟩ := h
    rw [split, if_neg (Ne.symm hc), ih hpart]

theorem split_ne_nil (sep : Char) (cs : List Char) : split sep cs ≠ [] := by
  cases cs with
  | nil => exact List.cons_ne_nil _ _
  | cons c cs =>
    rw [split]
    split
    · exact List.cons_ne_nil _ _
    · split <;> exact List.cons_ne_nil _ _

theorem split_append_sep {sep : Char} {part : List Char} (h : sep ∉ part) (rest : List Char) :
    split sep (part ++ sep :: rest) = part :: split sep rest := by
  induction part with
  | nil => rw [List.nil_append, split, if_pos rfl]
  | cons c part ih =>
    rw [List.mem_cons, not_or] at h
    obtain ⟨hc, hpart⟩ := h
    rw [List.cons_append, split, if_neg (Ne.symm hc), ih hpart]

theorem split_append_cons (sep : Char) (cs rest : List Char) :
    split sep (cs ++ sep :: rest) = split sep cs ++ split sep rest := by
  induction cs with
  | nil => simp [split]
  | cons c cs ih =>
    rw [List.cons_append, split, split, ih]
    split
    · rfl
    · cases hsplit : split sep cs with
      | nil => exact absurd hsplit (split_ne_nil sep cs)
      | cons part parts => rfl

theorem split_append {sep : Char} {pre : List Char} (h : sep ∉ pre) (cs : List Char) :
    split sep (pre ++ cs) = (pre ++ (split sep cs).headD []) :: (split sep cs).tail := by
  induction pre with
  | nil =>
    cases hsplit : split sep cs with
    | nil => exact absurd hsplit (split_ne_nil sep cs)
    | cons part parts => exact hsplit
  | cons c pre ih =>
    rw [List.mem_cons, not_or] at h
    obtain ⟨hc, hpre⟩ := h
    rw [List.cons_append, split, if_neg (Ne.symm hc), ih hpre]
    rfl

theorem split_intercalate {sep : Char} {parts : List (List Char)} (hne : parts ≠ []) (h : ∀ part ∈ parts, sep ∉ part) :
    split sep ([sep].intercalate parts) = parts := by
  induction parts with
  | nil => exact absurd rfl hne
  | cons part parts ih =>
    cases parts with
    | nil => simpa using split_of_notMem (h part List.mem_cons_self)
    | cons next parts =>
      have htail := ih (List.cons_ne_nil _ _) fun p hp => h p (List.mem_cons_of_mem _ hp)
      rw [List.intercalate_cons_cons, List.append_assoc, List.singleton_append,
        split_append_sep (h part List.mem_cons_self), htail]

theorem intercalate_split (sep : Char) (cs : List Char) : [sep].intercalate (split sep cs) = cs := by
  induction cs with
  | nil => rfl
  | cons c cs ih =>
    rw [split]
    cases hsplit : split sep cs with
    | nil => exact absurd hsplit (split_ne_nil sep cs)
    | cons part parts =>
      rw [hsplit] at ih
      split
      · rename_i hc
        rw [List.intercalate_cons_cons, ih, hc]
        rfl
      · cases parts with
        | nil => simpa using ih
        | cons next parts =>
          rw [List.intercalate_cons_cons] at ih
          rw [List.intercalate_cons_cons, List.cons_append, List.cons_append, ih]

/-! ## Lines -/

def dropReturn (line : List Char) : List Char := if line.getLast? = some '\r' then line.dropLast else line

/-- The lines whose ends are line feeds; nothing ends the last one. -/
def endLines : List (List Char) → List (List Char)
  | [] => []
  | [line] => [line]
  | line :: next :: rest => dropReturn line :: endLines (next :: rest)

/-- `text.split(/\r?\n/)`. -/
def splitLines (cs : List Char) : List (List Char) := endLines (split '\n' cs)

theorem endLines_append (ended : List (List Char)) {rest : List (List Char)} (hne : rest ≠ []) :
    endLines (ended ++ rest) = ended.map dropReturn ++ endLines rest := by
  induction ended with
  | nil => rfl
  | cons line ended ih =>
    rw [List.cons_append, List.map_cons, List.cons_append, ← ih]
    cases hnext : ended ++ rest with
    | nil => exact absurd (List.append_eq_nil_iff.mp hnext).2 hne
    | cons next tail => rfl

theorem splitLines_append_newline (cs rest : List Char) :
    splitLines (cs ++ '\n' :: rest) = (split '\n' cs).map dropReturn ++ splitLines rest := by
  rw [splitLines, split_append_cons, endLines_append _ (split_ne_nil _ _), splitLines]

theorem dropReturn_append (pre line : List Char) (hpre : pre.getLast? ≠ some '\r') :
    dropReturn (pre ++ line) = pre ++ dropReturn line := by
  cases hline : line with
  | nil => simp [dropReturn, hpre]
  | cons c cs =>
    have hlast : (pre ++ c :: cs).getLast? = (c :: cs).getLast? :=
      List.getLast?_append_of_ne_nil _ (List.cons_ne_nil c cs)
    unfold dropReturn
    rw [hlast, List.dropLast_append_cons]
    split <;> rfl

/-! ## Runs -/

open Words

section
variable {keep : Char → Bool}

theorem runs_cons_of_neg {c : Char} (h : keep c = false) (cs : List Char) : runs keep (c :: cs) = runs keep cs := by
  cases cs with
  | nil => simp [runs, h]
  | cons d cs => simp [runs, h]

theorem runs_append_of_neg {gap : List Char} (h : ∀ c ∈ gap, keep c = false) (cs : List Char) :
    runs keep (gap ++ cs) = runs keep cs := by
  induction gap with
  | nil => rfl
  | cons c gap ih =>
    rw [List.cons_append, runs_cons_of_neg (h c List.mem_cons_self)]
    exact ih fun d hd => h d (List.mem_cons_of_mem c hd)

theorem runs_append {word : List Char} (hne : word ≠ []) (h : ∀ c ∈ word, keep c = true) {rest : List Char}
    (hrest : ∀ c, rest.head? = some c → keep c = false) : runs keep (word ++ rest) = word :: runs keep rest := by
  induction word with
  | nil => exact absurd rfl hne
  | cons c word ih =>
    have hc := h c List.mem_cons_self
    cases word with
    | nil =>
      cases rest with
      | nil => simp [runs, hc]
      | cons d rest =>
        have hd := hrest d rfl
        simp [runs, hc, hd]
    | cons d word =>
      have hd := h d (List.mem_cons_of_mem c List.mem_cons_self)
      have htail := ih (List.cons_ne_nil d word) fun e he => h e (List.mem_cons_of_mem c he)
      rw [List.cons_append] at htail
      rw [List.cons_append, List.cons_append, runs, if_pos hc, hd, htail]

theorem runs_eq_nil {cs : List Char} (h : ∀ c ∈ cs, keep c = false) : runs keep cs = [] := by
  have hall := runs_append_of_neg h []
  rwa [List.append_nil] at hall

variable (keep) in
theorem runs_induction {motive : List Char → Prop}
    (gap : ∀ cs, (∀ c ∈ cs, keep c = false) → motive cs)
    (word : ∀ before word rest, (∀ c ∈ before, keep c = false) → word ≠ [] → (∀ c ∈ word, keep c = true) →
      (∀ c, rest.head? = some c → keep c = false) → motive rest → motive (before ++ (word ++ rest)))
    (cs : List Char) : motive cs := by
  induction hlength : cs.length using Nat.strong_induction_on generalizing cs with
  | _ n ih =>
    subst hlength
    have hbefore : ∀ c ∈ cs.takeWhile fun c => !keep c, keep c = false := by
      intro c hc
      simpa using List.mem_takeWhile_imp hc
    cases hrest : cs.dropWhile (fun c => !keep c) with
    | nil =>
      apply gap
      intro c hc
      have hdropped := List.dropWhile_eq_nil_iff.mp hrest c hc
      simpa using hdropped
    | cons d tail =>
      have hd : keep d = true := by
        have hhead := List.head?_dropWhile_not (fun c => !keep c) cs
        rw [hrest] at hhead
        simpa using hhead
      have hsplit : cs = cs.takeWhile (fun c => !keep c) ++ ((d :: tail).takeWhile keep ++ (d :: tail).dropWhile keep) := by
        rw [List.takeWhile_append_dropWhile, ← hrest, List.takeWhile_append_dropWhile]
      have hword : (d :: tail).takeWhile keep ≠ [] := by
        rw [List.takeWhile_cons_of_pos hd]
        exact List.cons_ne_nil _ _
      rw [hsplit]
      apply word _ _ _ hbefore hword
      · exact fun c hc => List.mem_takeWhile_imp hc
      · intro c hc
        have hhead := List.head?_dropWhile_not keep (d :: tail)
        rw [hc] at hhead
        simpa using hhead
      · apply ih _ _ _ rfl
        have hlength := congrArg List.length hsplit
        simp only [List.length_append] at hlength
        have hpos := List.length_pos_iff.mpr hword
        omega

theorem runs_append_gap (cs : List Char) {gap : List Char} (h : ∀ c ∈ gap, keep c = false) :
    runs keep (cs ++ gap) = runs keep cs := by
  induction cs using runs_induction keep with
  | gap cs hcs =>
    rw [runs_append_of_neg hcs, runs_eq_nil h, runs_eq_nil hcs]
  | word before word rest hbefore hne hword hrest ih =>
    have hhead : ∀ c, (rest ++ gap).head? = some c → keep c = false := by
      intro c hc
      cases rest with
      | nil => exact h c (List.mem_of_mem_head? hc)
      | cons d rest => exact hrest c hc
    rw [List.append_assoc, List.append_assoc, runs_append_of_neg hbefore, runs_append_of_neg hbefore,
      runs_append hne hword hhead, runs_append hne hword hrest, ih]

theorem runs_append_cons (cs : List Char) {c : Char} (h : keep c = false) (rest : List Char) :
    runs keep (cs ++ c :: rest) = runs keep cs ++ runs keep rest := by
  induction cs using runs_induction keep with
  | gap cs hcs => rw [runs_append_of_neg hcs, runs_cons_of_neg h, runs_eq_nil hcs, List.nil_append]
  | word before word tail hbefore hne hword htail ih =>
    have hhead : ∀ d, (tail ++ c :: rest).head? = some d → keep d = false := by
      intro d hd
      cases tail with
      | nil =>
        obtain rfl : c = d := by simpa using hd
        exact h
      | cons e tail => exact htail d hd
    rw [List.append_assoc, List.append_assoc, runs_append_of_neg hbefore, runs_append_of_neg hbefore,
      runs_append hne hword hhead, runs_append hne hword htail, ih, List.cons_append]

theorem runs_ne_nil {cs : List Char} {c : Char} (hc : c ∈ cs) (hkeep : keep c = true) : runs keep cs ≠ [] := by
  induction cs using runs_induction keep with
  | gap cs hcs =>
    rw [hcs c hc] at hkeep
    cases hkeep
  | word before word rest hbefore hne hword hrest ih =>
    rw [runs_append_of_neg hbefore, runs_append hne hword hrest]
    exact List.cons_ne_nil _ _

theorem mem_runs {cs word : List Char} (h : word ∈ runs keep cs) :
    word ≠ [] ∧ (∀ c ∈ word, keep c = true) ∧ word ⊆ cs := by
  induction cs using runs_induction keep with
  | gap cs hcs =>
    rw [runs_eq_nil hcs] at h
    cases h
  | word before first rest hbefore hne hword hrest ih =>
    rw [runs_append_of_neg hbefore, runs_append hne hword hrest] at h
    rcases List.mem_cons.mp h with rfl | h
    · refine ⟨hne, hword, fun c hc => ?_⟩
      exact List.mem_append_right _ (List.mem_append_left _ hc)
    · obtain ⟨hne, hkeep, hsub⟩ := ih h
      refine ⟨hne, hkeep, fun c hc => ?_⟩
      exact List.mem_append_right _ (List.mem_append_right _ (hsub hc))

end

/-! ## White space -/

def words (cs : List Char) : List (List Char) := runs (fun c => !isSpace c) cs

/-- `text.replace(/\s+/g, " ")`. -/
def collapseSpaces : List Char → List Char
  | [] => []
  | [c] => if isSpace c then [' '] else [c]
  | c :: d :: cs =>
    if isSpace c then
      if isSpace d then collapseSpaces (d :: cs) else ' ' :: collapseSpaces (d :: cs)
    else c :: collapseSpaces (d :: cs)

theorem collapseSpaces_word {word : List Char} (h : ∀ c ∈ word, isSpace c = false) (rest : List Char) :
    collapseSpaces (word ++ rest) = word ++ collapseSpaces rest := by
  induction word with
  | nil => rfl
  | cons c word ih =>
    have hc := h c List.mem_cons_self
    have htail := ih fun d hd => h d (List.mem_cons_of_mem c hd)
    rw [List.cons_append, List.cons_append, ← htail]
    cases word ++ rest with
    | nil => simp [collapseSpaces, hc]
    | cons d cs => simp [collapseSpaces, hc]

theorem collapseSpaces_gap {gap : List Char} (hne : gap ≠ []) (h : ∀ c ∈ gap, isSpace c = true) (rest : List Char)
    (hrest : ∀ c, rest.head? = some c → isSpace c = false) :
    collapseSpaces (gap ++ rest) = ' ' :: collapseSpaces rest := by
  induction gap with
  | nil => exact absurd rfl hne
  | cons c gap ih =>
    have hc := h c List.mem_cons_self
    cases gap with
    | nil =>
      cases rest with
      | nil => simp [collapseSpaces, hc]
      | cons d rest => simp [collapseSpaces, hc, hrest d rfl]
    | cons d gap =>
      have hd := h d (List.mem_cons_of_mem c List.mem_cons_self)
      have htail := ih (List.cons_ne_nil d gap) fun e he => h e (List.mem_cons_of_mem c he)
      rw [List.cons_append] at htail
      rw [List.cons_append, List.cons_append, collapseSpaces, if_pos hc, if_pos hd, htail]

theorem exists_trim (cs : List Char) : ∃ before after, before ++ (trim cs ++ after) = cs ∧
    (∀ c ∈ before, isSpace c = true) ∧ ∀ c ∈ after, isSpace c = true := by
  refine ⟨cs.takeWhile isSpace, (trimStart cs).rtakeWhile isSpace, ?_, fun c hc => List.mem_takeWhile_imp hc,
    fun c hc => List.mem_rtakeWhile_imp hc⟩
  have hend : trim cs ++ (trimStart cs).rtakeWhile isSpace = trimStart cs := List.rdropWhile_append_rtakeWhile ..
  rw [hend]
  exact List.takeWhile_append_dropWhile

theorem runs_trim {keep : Char → Bool} (h : ∀ c, isSpace c = true → keep c = false) (cs : List Char) : runs keep (trim cs) = runs keep cs := by
  obtain ⟨before, after, hsplit, hbefore, hafter⟩ := exists_trim cs
  rw [← hsplit, runs_append_of_neg fun c hc => h c (hbefore c hc), runs_append_gap _ fun c hc => h c (hafter c hc),
    hsplit]

theorem words_trim (cs : List Char) : words (trim cs) = words cs :=
  runs_trim (fun c hc => by simp [hc]) cs

theorem collapseSpaces_eq {cs : List Char} (h : ∀ c, cs.getLast? = some c → isSpace c = false) :
    collapseSpaces cs = (if cs.head?.any isSpace then [' '] else []) ++ [' '].intercalate (words cs) := by
  induction cs using runs_induction (fun c => !isSpace c) with
  | gap cs hcs =>
    cases hlast : cs.getLast? with
    | none =>
      rw [List.getLast?_eq_none_iff] at hlast
      subst hlast
      rfl
    | some c =>
      have hspace := hcs c (List.mem_of_getLast? hlast)
      simp [h c hlast] at hspace
  | word before word rest hbefore hne hword hrest ih =>
    have hword' : ∀ c ∈ word, isSpace c = false := by
      intro c hc
      simpa using hword c hc
    have hbefore' : ∀ c ∈ before, isSpace c = true := by
      intro c hc
      simpa using hbefore c hc
    have hrest' : ∀ c, rest.head? = some c → isSpace c = true := by
      intro c hc
      simpa using hrest c hc
    obtain ⟨first, tail, rfl⟩ := List.exists_cons_of_ne_nil hne
    have hfirst := hword' first List.mem_cons_self
    have hwords : words (before ++ (first :: tail ++ rest)) = (first :: tail) :: words rest := by
      unfold words
      rw [runs_append_of_neg hbefore, runs_append hne hword hrest]
    have hjoined : first :: tail ++ collapseSpaces rest = [' '].intercalate ((first :: tail) :: words rest) := by
      cases rest with
      | nil => simp [collapseSpaces, words, runs]
      | cons d rest =>
        have hlast : ∀ c, (d :: rest).getLast? = some c → isSpace c = false := by
          intro c hc
          apply h c
          rw [List.getLast?_append, List.getLast?_append, hc]
          rfl
        have hsome : words (d :: rest) ≠ [] := by
          have hmem := List.getLast_mem (List.cons_ne_nil d rest)
          have hspace := hlast _ (List.getLast?_eq_some_getLast (List.cons_ne_nil d rest))
          exact runs_ne_nil hmem (by simpa using hspace)
        have hcollapse := ih hlast
        rw [List.head?_cons, Option.any_some, hrest' d rfl, if_pos rfl] at hcollapse
        obtain ⟨next, others, hothers⟩ := List.exists_cons_of_ne_nil hsome
        rw [hcollapse, hothers, List.intercalate_cons_cons, List.append_assoc]
    rw [hwords, ← hjoined]
    cases before with
    | nil =>
      rw [List.nil_append, collapseSpaces_word hword']
      simp [hfirst]
    | cons d before =>
      have hgap := collapseSpaces_gap (List.cons_ne_nil d before) hbefore' (first :: tail ++ rest) (by
        intro c hc
        obtain rfl := Option.some.inj hc
        exact hfirst)
      rw [hgap, collapseSpaces_word hword']
      simp [hbefore' d List.mem_cons_self]

theorem getLast?_trim {cs : List Char} {c : Char} (h : (trim cs).getLast? = some c) : isSpace c = false := by
  have hne : trim cs ≠ [] := by
    intro hnil
    rw [hnil] at h
    cases h
  have hlast := List.rdropWhile_last_not isSpace (trimStart cs) hne
  have heq := List.getLast?_eq_some_getLast hne
  rw [h] at heq
  rw [Option.some.inj heq]
  exact Bool.eq_false_iff.mpr hlast

theorem head?_trim {cs : List Char} {c : Char} (h : (trim cs).head? = some c) : isSpace c = false := by
  have hstart : trimStart (trim cs) = trim cs := trimStart_of_prefix (List.rdropWhile_prefix isSpace _)
  have hhead := List.head?_dropWhile_not isSpace (trim cs)
  rw [show (trim cs).dropWhile isSpace = trim cs from hstart, h] at hhead
  simpa using hhead

theorem collapseSpaces_trim (cs : List Char) : collapseSpaces (trim cs) = [' '].intercalate (words cs) := by
  have hhead : (trim cs).head?.any isSpace = false := by
    cases h : (trim cs).head? with
    | none => rfl
    | some c => simpa using head?_trim h
  rw [collapseSpaces_eq fun c hc => getLast?_trim hc, hhead, words_trim]
  rfl

theorem split_collapseSpaces {cs : List Char} (hne : words cs ≠ []) : split ' ' (collapseSpaces (trim cs)) = words cs := by
  rw [collapseSpaces_trim]
  apply split_intercalate hne
  intro word hword hmem
  have hspace := (mem_runs hword).2.1 ' ' hmem
  revert hspace
  decide

/-! ## Decimal numbers -/

theorem digitsValue_concat (cs : List Char) (d : Char) :
    digitsValue (cs ++ [d]) = 10 * digitsValue cs + (d.toNat - '0'.toNat) := by
  simp [digitsValue]

theorem isDigit_bounds {c : Char} (h : c.isDigit = true) : 48 ≤ c.toNat ∧ c.toNat ≤ 57 := by
  simp only [Char.isDigit, Bool.and_eq_true, decide_eq_true_eq] at h
  exact ⟨UInt32.le_iff_toNat_le.mp h.1, UInt32.le_iff_toNat_le.mp h.2⟩

theorem digitChar_of_isDigit {d : Char} (h : d.isDigit = true) :
    d.toNat - '0'.toNat < 10 ∧ Nat.digitChar (d.toNat - '0'.toNat) = d := by
  have hbounds := isDigit_bounds h
  have hchar : ∀ n < 58, 48 ≤ n → Nat.digitChar (n - 48) = Char.ofNat n := by decide
  have hzero : '0'.toNat = 48 := by decide
  rw [hzero]
  refine ⟨by omega, ?_⟩
  rw [hchar d.toNat (by omega) hbounds.1, Char.ofNat_toNat]

theorem toDigits_digitsValue {cs : List Char} (hne : cs ≠ []) (hdigits : ∀ c ∈ cs, c.isDigit = true)
    (hlead : cs.head? ≠ some '0') : Nat.toDigits 10 (digitsValue cs) = cs ∧ 0 < digitsValue cs := by
  induction cs using List.reverseRecOn with
  | nil => exact absurd rfl hne
  | append_singleton cs d ih =>
    obtain ⟨hlt, hchar⟩ := digitChar_of_isDigit (hdigits d (List.mem_append_right _ List.mem_cons_self))
    rw [digitsValue_concat]
    by_cases hnil : cs = []
    · subst hnil
      have hvalue : digitsValue [] = 0 := rfl
      rw [hvalue, Nat.mul_zero, Nat.zero_add, Nat.toDigits_of_lt_base hlt, hchar]
      refine ⟨rfl, Nat.pos_of_ne_zero fun hzero => ?_⟩
      rw [hzero] at hchar
      exact hlead (by rw [← hchar]; rfl)
    · have hhead : cs.head? ≠ some '0' := by
        rwa [List.head?_append_of_ne_nil _ hnil] at hlead
      obtain ⟨htail, hpos⟩ := ih hnil (fun c hc => hdigits c (List.mem_append_left _ hc)) hhead
      refine ⟨?_, by omega⟩
      rw [← Nat.toDigits_append_toDigits (by decide) hpos hlt, htail, Nat.toDigits_of_lt_base hlt, hchar]

theorem digitsValue_toDigits (n : Nat) : digitsValue (Nat.toDigits 10 n) = n := by
  have hread := Nat.ofDigitChars_ten_toDigits (n := n)
  rw [Nat.ofDigitChars_eq_foldl] at hread
  exact hread

theorem isDigit_of_mem_toDigits {n : Nat} {c : Char} (h : c ∈ Nat.toDigits 10 n) : c.isDigit = true := by
  exact Nat.isDigit_of_mem_toDigits (by decide) (by decide) h

theorem head?_toDigits {n : Nat} (h : 0 < n) : (Nat.toDigits 10 n).head? ≠ some '0' := by
  induction n using Nat.strong_induction_on with
  | _ n ih =>
    rw [Nat.toDigits_eq_if (by decide)]
    split
    · rename_i hlt
      have hdigit : ∀ k < 10, 0 < k → Nat.digitChar k ≠ '0' := by decide
      exact fun heq => hdigit n hlt h (Option.some.inj heq)
    · rw [List.head?_append_of_ne_nil _ Nat.toDigits_ne_nil]
      exact ih (n / 10) (by omega) (by omega)

end NeonDiff.Lib.JsText
