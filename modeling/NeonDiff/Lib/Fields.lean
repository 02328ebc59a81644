import NeonDiff.Lib.Lines

/-! # Labelled parts of a text, and numbers in texts -/

namespace NeonDiff.Lib.JsText

/-! ## Trimmed parts -/

theorem trim_cons_of_isSpace {c : Char} (h : isSpace c = true) (cs : List Char) : trim (c :: cs) = trim cs := by
  rw [trim, trim, trimStart, List.dropWhile_cons_of_pos h, ← trimStart]

theorem trimStart_cons_of_not {c : Char} (h : isSpace c = false) (cs : List Char) : trimStart (c :: cs) = c :: cs := by
  rw [trimStart, List.dropWhile_cons_of_neg (by rw [h]; exact Bool.false_ne_true)]

theorem trimEnd_cons (c : Char) (cs : List Char) :
    trimEnd (c :: cs) = if trimEnd cs = [] ∧ isSpace c = true then [] else c :: trimEnd cs := by
  unfold trimEnd trimStart
  rw [List.reverse_cons, List.dropWhile_append]
  by_cases hrest : cs.reverse.dropWhile isSpace = []
  · cases hc : isSpace c <;> simp [hrest, hc]
  · simp [hrest]

theorem trimEnd_cons_of_not {c : Char} (h : isSpace c = false) (cs : List Char) : trimEnd (c :: cs) = c :: trimEnd cs := by
  rw [trimEnd_cons, if_neg]
  simp [h]

theorem trim_label {label : List Char} (hne : label ≠ []) (h : ∀ c ∈ label, isSpace c = false) (value : List Char) :
    trim (label ++ value) = label ++ trimEnd value := by
  have hend : ∀ label : List Char, (∀ c ∈ label, isSpace c = false) → trimEnd (label ++ value) = label ++ trimEnd value := by
    intro label h
    induction label with
    | nil => rfl
    | cons c label ih =>
      rw [List.cons_append, trimEnd_cons_of_not (h c List.mem_cons_self), List.cons_append]
      rw [ih fun d hd => h d (List.mem_cons_of_mem c hd)]
  obtain ⟨c, label, rfl⟩ := List.exists_cons_of_ne_nil hne
  rw [trim, List.cons_append, trimStart_cons_of_not (h c List.mem_cons_self), ← List.cons_append]
  exact hend _ h

theorem trim_trimEnd (cs : List Char) : trim (trimEnd cs) = trim cs := by
  induction cs with
  | nil => rfl
  | cons c cs ih =>
    cases hc : isSpace c with
    | false =>
      have hkept := trimStart_cons_of_not hc
      rw [trimEnd_cons_of_not hc, trim, trim, hkept, hkept, ← trimEnd_cons_of_not hc, trimEnd_eq_rdropWhile,
        trimEnd_eq_rdropWhile, List.rdropWhile_idempotent]
    | true =>
      rw [trimEnd_cons, trim_cons_of_isSpace hc, ← ih]
      split
      · rename_i hall
        rw [hall.1]
      · exact trim_cons_of_isSpace hc _

theorem trim_subset (cs : List Char) : trim cs ⊆ cs := by
  intro c hc
  have hstart : c ∈ trimStart cs := (List.rdropWhile_prefix isSpace _).subset hc
  exact (List.dropWhile_suffix isSpace).subset hstart

theorem trimStart_of_trim_eq {cs : List Char} (h : trim cs = cs) : trimStart cs = cs := by
  rw [← h]
  exact trimStart_of_prefix (List.rdropWhile_prefix isSpace _)

theorem trimEnd_of_trim_eq {cs : List Char} (h : trim cs = cs) : trimEnd cs = cs := by
  rwa [trim, trimStart_of_trim_eq h] at h

theorem trim_of_not_isSpace {cs : List Char} (h : ∀ c ∈ cs, isSpace c = false) : trim cs = cs := by
  cases cs with
  | nil => rfl
  | cons c cs =>
    have hkept := trim_label (List.cons_ne_nil c cs) h []
    rwa [List.append_nil, show trimEnd [] = [] from rfl, List.append_nil] at hkept

theorem trim_of_ends {before cs after : List Char} (hbefore : ∀ c ∈ before, isSpace c = true)
    (hhead : ∀ c, cs.head? = some c → isSpace c = false) (hlast : ∀ c, cs.getLast? = some c → isSpace c = false)
    (hafter : ∀ c ∈ after, isSpace c = true) : trim (before ++ (cs ++ after)) = cs := by
  cases cs with
  | nil =>
    rw [trim_eq_nil, List.nil_append]
    intro c hc
    exact (List.mem_append.mp hc).elim (hbefore c) (hafter c)
  | cons c cs =>
    have hstart : trimStart (before ++ (c :: cs ++ after)) = c :: cs ++ after := by
      rw [trimStart, List.dropWhile_append_of_pos hbefore]
      exact trimStart_cons_of_not (hhead c rfl) _
    have hend : (c :: cs ++ after).rdropWhile isSpace = c :: cs := by
      have hreverse : ∀ d ∈ after.reverse, isSpace d = true := fun d hd => hafter d (List.mem_reverse.mp hd)
      rw [List.rdropWhile, List.reverse_append, List.dropWhile_append_of_pos hreverse, ← List.rdropWhile,
        List.rdropWhile_eq_self_iff]
      intro hne hspace
      rw [hlast _ (List.getLast?_eq_some_getLast hne)] at hspace
      cases hspace
    rw [trim, hstart, trimEnd_eq_rdropWhile, hend]

theorem collapseSpaces_append {cs rest : List Char}
    (h : ∀ c d, cs.getLast? = some c → rest.head? = some d → isSpace c = false ∨ isSpace d = false) :
    collapseSpaces (cs ++ rest) = collapseSpaces cs ++ collapseSpaces rest := by
  induction cs using collapseSpaces.induct with
  | case1 => rfl
  | case2 c hc =>
    cases rest with
    | nil => simp [collapseSpaces]
    | cons d rest =>
      have hd : isSpace d = false := (h c d rfl rfl).resolve_left (by rw [hc]; exact Bool.true_eq_false.mp)
      simp [collapseSpaces, hc, hd]
  | case3 c hc => cases rest <;> simp [collapseSpaces, hc]
  | case4 c d cs hc hd ih =>
    have htail := ih fun e f he hf => h e f (by rw [List.getLast?_cons_cons]; exact he) hf
    rw [List.cons_append, List.cons_append, collapseSpaces, if_pos hc, if_pos hd, collapseSpaces, if_pos hc, if_pos hd,
      ← htail]
    rfl
  | case5 c d cs hc hd ih =>
    have htail := ih fun e f he hf => h e f (by rw [List.getLast?_cons_cons]; exact he) hf
    rw [List.cons_append, List.cons_append, collapseSpaces, if_pos hc, if_neg hd, collapseSpaces, if_pos hc, if_neg hd,
      List.cons_append, ← htail]
    rfl
  | case6 c d cs hc ih =>
    have htail := ih fun e f he hf => h e f (by rw [List.getLast?_cons_cons]; exact he) hf
    rw [List.cons_append, List.cons_append, collapseSpaces, if_neg hc, collapseSpaces, if_neg hc, List.cons_append,
      ← htail]
    rfl

theorem mem_collapseSpaces_gap {gap : List Char} (h : ∀ c ∈ gap, isSpace c = true) :
    ∀ c ∈ collapseSpaces gap, isSpace c = true := by
  intro c hc
  cases gap with
  | nil => cases hc
  | cons d gap =>
    have hone := collapseSpaces_gap (List.cons_ne_nil d gap) h [] (fun c hc => nomatch hc)
    rw [List.append_nil] at hone
    rw [hone] at hc
    obtain rfl := List.mem_singleton.mp hc
    decide

theorem trim_collapseSpaces (cs : List Char) : trim (collapseSpaces cs) = [' '].intercalate (words cs) := by
  rw [← collapseSpaces_trim]
  obtain ⟨before, after, hsplit, hbefore, hafter⟩ := exists_trim cs
  by_cases hnil : trim cs = []
  · rw [hnil]
    exact trim_eq_nil.mpr (mem_collapseSpaces_gap (trim_eq_nil.mp hnil))
  · have hhead : ∀ c, (collapseSpaces (trim cs)).head? = some c → isSpace c = false := by
      obtain ⟨d, rest, hd⟩ := List.exists_cons_of_ne_nil hnil
      have hspace : isSpace d = false := @head?_trim cs d (by rw [hd]; rfl)
      have hword := collapseSpaces_word (fun c hc => (List.mem_singleton.mp hc) ▸ hspace) rest
      rw [hd, ← List.singleton_append, hword]
      rintro c ⟨rfl⟩
      exact hspace
    have hlast : ∀ c, (collapseSpaces (trim cs)).getLast? = some c → isSpace c = false := by
      obtain ⟨front, d, hd⟩ := (List.eq_nil_or_concat (trim cs)).resolve_left hnil
      rw [List.concat_eq_append] at hd
      have hspace : isSpace d = false := @getLast?_trim cs d (by rw [hd]; simp)
      have hone : collapseSpaces [d] = [d] := by simp [collapseSpaces, hspace]
      rw [hd, collapseSpaces_append fun _ e _ he => .inr (by rw [← Option.some.inj he]; exact hspace), hone]
      intro c hc
      rw [List.getLast?_concat] at hc
      rw [← Option.some.inj hc]
      exact hspace
    have hmeet : ∀ c d, (trim cs).getLast? = some c → after.head? = some d → isSpace c = false ∨ isSpace d = false :=
      fun c _ hc _ => .inl (getLast?_trim hc)
    have hmeet' : ∀ c d, before.getLast? = some c → (trim cs ++ after).head? = some d →
        isSpace c = false ∨ isSpace d = false := by
      intro c d _ hd
      rw [List.head?_append_of_ne_nil _ hnil] at hd
      exact .inr (head?_trim hd)
    conv => lhs; rw [← hsplit, collapseSpaces_append hmeet', collapseSpaces_append hmeet]
    exact trim_of_ends (mem_collapseSpaces_gap hbefore) hhead hlast (mem_collapseSpaces_gap hafter)

/-! ## The first part under a label -/

/-- The value behind the label, from the first part that has it. -/
def labelled (label : List Char) (parts : List (List Char)) : Option (List Char) :=
  (parts.find? label.isPrefixOf).map (·.drop label.length)

variable {label : List Char}

theorem labelled_cons_of_prefix (value : List Char) (parts : List (List Char)) :
    labelled label ((label ++ value) :: parts) = some value := by
  have hstarts : label.isPrefixOf (label ++ value) = true := by simp
  rw [labelled, List.find?_cons_of_pos hstarts, Option.map_some, List.drop_left]

theorem labelled_cons_of_not {part : List Char} (h : ¬ label <+: part) (parts : List (List Char)) :
    labelled label (part :: parts) = labelled label parts := by
  rw [← List.isPrefixOf_iff_prefix] at h
  rw [labelled, List.find?_cons_of_neg h, labelled]

theorem labelled_append (front parts : List (List Char)) :
    labelled label (front ++ parts) = (labelled label front).or (labelled label parts) := by
  unfold labelled
  rw [List.find?_append]
  cases front.find? label.isPrefixOf <;> rfl

theorem labelled_eq_none {parts : List (List Char)} (h : ∀ part ∈ parts, ¬ label <+: part) : labelled label parts = none := by
  rw [labelled, Option.map_eq_none_iff, List.find?_eq_none]
  exact fun part hpart hstarts => h part hpart (List.isPrefixOf_iff_prefix.mp hstarts)

theorem labelled_flatMap_cons {α : Type} {first : α → List Char} (h : ∀ x, ¬ label <+: first x)
    (others : α → List (List Char)) (xs : List α) :
    labelled label (xs.flatMap fun x => first x :: others x) = labelled label (xs.flatMap others) := by
  induction xs with
  | nil => rfl
  | cons x xs ih =>
    rw [List.flatMap_cons, List.flatMap_cons, labelled_append, labelled_append, ih, labelled_cons_of_not (h x)]

theorem not_prefix_label {other : List Char} (h : ¬ label <+: other) (h' : ¬ other <+: label) (value : List Char) :
    ¬ label <+: other ++ value := by
  intro hstarts
  rcases List.prefix_or_prefix_of_prefix hstarts (List.prefix_append other value) with hlabel | hother
  · exact h hlabel
  · exact h' hother

theorem labelled_eq_some {parts : List (List Char)} {value : List Char} :
    labelled label parts = some value ↔
      ∃ before after, parts = before ++ (label ++ value) :: after ∧ ∀ part ∈ before, ¬ label <+: part := by
  constructor
  · intro h
    rw [labelled, Option.map_eq_some_iff] at h
    obtain ⟨part, hfind, hvalue⟩ := h
    obtain ⟨hstarts, before, after, hparts, hbefore⟩ := List.find?_eq_some_iff_append.mp hfind
    obtain ⟨rest, hrest⟩ := List.isPrefixOf_iff_prefix.mp hstarts
    subst hrest
    rw [List.drop_left] at hvalue
    subst hvalue
    refine ⟨before, after, hparts, fun part hpart hlabel => ?_⟩
    have hnot := hbefore part hpart
    rw [List.isPrefixOf_iff_prefix.mpr hlabel] at hnot
    cases hnot
  · rintro ⟨before, after, rfl, hbefore⟩
    rw [labelled_append, labelled_eq_none hbefore, labelled_cons_of_prefix]
    rfl

/-! ## Parts behind a separator -/

/-- Each part behind the separator and a blank. -/
def tailed (sep : Char) (parts : List (List Char)) : List Char := parts.flatMap fun part => sep :: ' ' :: part

theorem tailed_append (sep : Char) (parts parts' : List (List Char)) :
    tailed sep (parts ++ parts') = tailed sep parts ++ tailed sep parts' := List.flatMap_append ..

theorem cons_intercalate_eq_tailed {sep : Char} {parts : List (List Char)} (hne : parts ≠ []) :
    sep :: ' ' :: [sep, ' '].intercalate parts = tailed sep parts := by
  induction parts with
  | nil => exact absurd rfl hne
  | cons part parts ih =>
    cases parts with
    | nil => simp [tailed]
    | cons next parts =>
      rw [List.intercalate_cons_cons, tailed, List.flatMap_cons, ← tailed, ← ih (List.cons_ne_nil _ _)]
      simp

def trimmedParts (sep : Char) (part : List Char) : List (List Char) := (split sep part).map trim

theorem split_append_tailed (sep : Char) (front : List Char) (parts : List (List Char)) :
    split sep (front ++ tailed sep parts) = split sep front ++ parts.flatMap fun part => split sep (' ' :: part) := by
  induction parts generalizing front with
  | nil => simp [tailed]
  | cons part parts ih =>
    have htailed : tailed sep (part :: parts) = sep :: (' ' :: part ++ tailed sep parts) := by simp [tailed]
    rw [htailed, split_append_cons, ih, List.flatMap_cons]

theorem map_trim_split_blank {sep : Char} (hsep : sep ≠ ' ') (part : List Char) :
    (split sep (' ' :: part)).map trim = trimmedParts sep part := by
  rw [split, if_neg (Ne.symm hsep), trimmedParts]
  cases hsplit : split sep part with
  | nil => exact absurd hsplit (split_ne_nil sep part)
  | cons first rest =>
    rw [List.map_cons, List.map_cons, trim_cons_of_isSpace (by decide)]

theorem map_trim_tailed {sep : Char} (hsep : sep ≠ ' ') (parts : List (List Char)) :
    (parts.flatMap fun part => split sep (' ' :: part)).map trim = parts.flatMap (trimmedParts sep) := by
  rw [List.map_flatMap]
  apply List.flatMap_congr
  exact fun part _ => map_trim_split_blank hsep part

theorem sep_notMem_split (sep : Char) (cs : List Char) : ∀ part ∈ split sep cs, sep ∉ part := by
  induction cs with
  | nil => simp [split]
  | cons c cs ih =>
    rw [split]
    split
    · exact List.forall_mem_cons.mpr ⟨List.not_mem_nil, ih⟩
    · rename_i hc
      split
      · simpa using Ne.symm hc
      · rename_i part rest hsplit
        rw [hsplit, List.forall_mem_cons] at ih
        refine List.forall_mem_cons.mpr ⟨?_, ih.2⟩
        rw [List.mem_cons, not_or]
        exact ⟨Ne.symm hc, ih.1⟩

/-- The text up to the first separator. -/
def firstPart (sep : Char) (cs : List Char) : List Char := (split sep cs).headD []

/-- A label that stands in one part, without white space. -/
def isLabel (sep : Char) (label : List Char) : Bool := label ≠ [] && label.all fun c => c ≠ sep && !isSpace c

section
variable {sep : Char} {label other : List Char}

theorem trimmedParts_label (h : isLabel sep label = true) (value : List Char) :
    trimmedParts sep (label ++ value) =
      (label ++ trimEnd (firstPart sep value)) :: ((split sep value).tail).map trim := by
  simp only [isLabel, Bool.and_eq_true, decide_eq_true_eq, List.all_eq_true, Bool.not_eq_true'] at h
  have hsep : sep ∉ label := fun hmem => (h.2 sep hmem).1 rfl
  have hspace : ∀ c ∈ label, isSpace c = false := fun c hc => (h.2 c hc).2
  rw [trimmedParts, split_append hsep, List.map_cons, trim_label h.1 hspace, firstPart]

theorem labelled_trimmedParts (h : isLabel sep label = true) (value : List Char) :
    labelled label (trimmedParts sep (label ++ value)) = some (trimEnd (firstPart sep value)) := by
  rw [trimmedParts_label h, labelled_cons_of_prefix]

theorem labelled_trimmedParts_other (h : isLabel sep other = true) (hlabel : ¬ label <+: other) (hother : ¬ other <+: label)
    {value : List Char} (hsep : sep ∉ value) : labelled label (trimmedParts sep (other ++ value)) = none := by
  rw [trimmedParts_label h, split_of_notMem hsep]
  apply labelled_eq_none
  intro part hpart
  obtain rfl := List.mem_singleton.mp hpart
  exact not_prefix_label hlabel hother _

end

/-! ## Numbers -/

/-- What a number of 22 or more digits prints, such as `1.5e+21`. -/
def exponentText : List Char → List Char
  | [] => []
  | d :: ds =>
    let fraction := ds.rdropWhile (· = '0')
    d :: (if fraction = [] then [] else '.' :: fraction) ++ 'e' :: '+' :: Nat.toDigits 10 ds.length

/-- The text of a number; the number stands as the decimal that it prints. -/
def numberText (n : Nat) : List Char :=
  if n < 10 ^ 21 then Nat.toDigits 10 n else exponentText (Nat.toDigits 10 n)

theorem not_isSpace_of_isDigit {c : Char} (h : c.isDigit = true) : isSpace c = false := by
  have hbounds := isDigit_bounds h
  have hchars : ∀ n < 58, 48 ≤ n → isSpace (Char.ofNat n) = false := by decide
  rw [← Char.ofNat_toNat c]
  exact hchars c.toNat (by omega) hbounds.1

theorem parseInt_digits (digits rest : List Char) (hne : digits ≠ []) (h : ∀ c ∈ digits, c.isDigit = true)
    (hrest : ∀ c, rest.head? = some c → c.isDigit = false) :
    parseInt (digits ++ rest) = some (digitsValue digits : Int) := by
  obtain ⟨d, ds, rfl⟩ := List.exists_cons_of_ne_nil hne
  have hd := h d List.mem_cons_self
  have htake : (d :: ds ++ rest).takeWhile Char.isDigit = d :: ds := by
    rw [List.takeWhile_append_of_pos h]
    cases rest with
    | nil => simp
    | cons c rest => simp [hrest c rfl]
  have hminus : d ≠ '-' := by
    rintro rfl
    revert hd
    decide
  have hplus : d ≠ '+' := by
    rintro rfl
    revert hd
    decide
  unfold parseInt
  rw [List.cons_append, trimStart_cons_of_not (not_isSpace_of_isDigit hd)]
  rw [List.cons_append] at htake
  split
  · rename_i heq
    exact absurd (List.cons.inj heq).1 hminus
  · rename_i heq
    exact absurd (List.cons.inj heq).1 hplus
  · rw [htake]
    rfl

theorem parseInt_toDigits (n : Nat) : parseInt (Nat.toDigits 10 n) = some (n : Int) := by
  have hdigits := parseInt_digits _ [] (Nat.toDigits_ne_nil (b := 10) (n := n))
    (fun c hc => isDigit_of_mem_toDigits hc) (by simp)
  rwa [List.append_nil, digitsValue_toDigits] at hdigits

theorem parseInt_exponentText {d : Char} (h : d.isDigit = true) (ds : List Char) :
    parseInt (exponentText (d :: ds)) = some ((d.toNat - '0'.toNat : Nat) : Int) := by
  have hdigits := parseInt_digits [d]
    ((if ds.rdropWhile (· = '0') = [] then [] else '.' :: ds.rdropWhile (· = '0')) ++
      'e' :: '+' :: Nat.toDigits 10 ds.length)
    (List.cons_ne_nil d []) (by simpa using h) (by
      intro c hc
      split at hc
      · obtain rfl := Option.some.inj hc
        decide
      · obtain rfl := Option.some.inj hc
        decide)
  have hvalue : digitsValue [d] = d.toNat - '0'.toNat := by simp [digitsValue]
  rw [hvalue] at hdigits
  exact hdigits

theorem parseInt_numberText_of_le {n : Nat} (h : 10 ^ 21 ≤ n) :
    ∃ d : Nat, d < 10 ∧ parseInt (numberText n) = some (d : Int) := by
  obtain ⟨d, ds, hdigits⟩ := List.exists_cons_of_ne_nil (Nat.toDigits_ne_nil (b := 10) (n := n))
  have hd : d.isDigit = true := isDigit_of_mem_toDigits (hdigits ▸ List.mem_cons_self)
  refine ⟨d.toNat - '0'.toNat, (digitChar_of_isDigit hd).1, ?_⟩
  unfold numberText
  rw [if_neg (by omega), hdigits]
  exact parseInt_exponentText hd ds

theorem parseInt_numberText_of_lt {n : Nat} (h : n < 10 ^ 21) : parseInt (numberText n) = some (n : Int) := by
  unfold numberText
  rw [if_pos h]
  exact parseInt_toDigits n

theorem mem_numberText {n : Nat} {c : Char} (h : c ∈ numberText n) :
    c.isDigit = true ∨ c = '.' ∨ c = 'e' ∨ c = '+' := by
  unfold numberText at h
  split at h
  · exact .inl (isDigit_of_mem_toDigits h)
  · obtain ⟨d, ds, hdigits⟩ := List.exists_cons_of_ne_nil (Nat.toDigits_ne_nil (b := 10) (n := n))
    have hall : ∀ c ∈ d :: ds, c.isDigit = true := fun c hc => isDigit_of_mem_toDigits (hdigits ▸ hc)
    rw [hdigits] at h
    simp only [exponentText, List.cons_append, List.mem_cons, List.mem_append] at h
    rcases h with rfl | h | rfl | rfl | h
    · exact .inl (hall c List.mem_cons_self)
    · split at h
      · cases h
      · rcases List.mem_cons.mp h with rfl | h
        · exact .inr (.inl rfl)
        · exact .inl (hall c (List.mem_cons_of_mem d ((List.rdropWhile_prefix ..).subset h)))
    · exact .inr (.inr (.inl rfl))
    · exact .inr (.inr (.inr rfl))
    · exact .inl (isDigit_of_mem_toDigits h)

end NeonDiff.Lib.JsText
