import NeonDiff.PathFilter.Reading

/-! # Globs against what they stand for -/

open NeonDiff.Lib

namespace NeonDiff.PathFilter

/-! ## The source text of a glob -/

def Mark.source : Mark → List Char
  | .double => ".*".toList
  | .single => "[^/]*".toList
  | .char c => escape c

/-- The source text of a character that no placeholder ends at. -/
def sourceOf (c : Char) : List Char := (mark c).source

theorem sourceOf_placeholder : ∀ c ∈ placeholder, sourceOf c = [c] ∧ mark c = .char c := by
  have hall : (placeholder.all fun c => decide (sourceOf c = [c] ∧ mark c = .char c)) = true := by decide
  intro c hc
  exact of_decide_eq_true (List.all_eq_true.mp hall c hc)

theorem sourceOf_head {c d : Char} {rest : List Char} (hd : d ∈ placeholder) (h : sourceOf c = d :: rest) : c = d := by
  have hne : d ≠ '[' ∧ d ≠ '\\' := by
    constructor
    · rintro rfl
      exact absurd hd (by decide)
    · rintro rfl
      exact absurd hd (by decide)
  unfold sourceOf mark at h
  by_cases hc : c = '*'
  · rw [if_pos hc] at h
    injection h with h
    exact absurd h.symm hne.1
  · rw [if_neg hc] at h
    unfold Mark.source escape at h
    dsimp only at h
    by_cases hesc : c ∈ escapedCharacters
    · rw [if_pos hesc] at h
      injection h with h
      exact absurd h.symm hne.2
    · rw [if_neg hesc] at h
      injection h

theorem sourceOf_ne_nil (c : Char) : sourceOf c ≠ [] := by
  unfold sourceOf mark
  by_cases hc : c = '*'
  · rw [if_pos hc]
    exact List.cons_ne_nil _ _
  · rw [if_neg hc]
    unfold Mark.source escape
    dsimp only
    split <;> exact List.cons_ne_nil _ _

theorem prefix_flatMap_iff {front : List Char} (hfront : ∀ c ∈ front, c ∈ placeholder) (text : List Char) :
    front <+: text.flatMap sourceOf ↔ front <+: text := by
  induction front generalizing text with
  | nil => simp
  | cons d front ih =>
    have hd : d ∈ placeholder := hfront d List.mem_cons_self
    have htail := ih fun c hc => hfront c (List.mem_cons_of_mem d hc)
    cases text with
    | nil => simp
    | cons c text =>
      rw [List.flatMap_cons]
      by_cases hc : c = d
      · subst hc
        rw [(sourceOf_placeholder c hd).1, List.singleton_append, List.cons_prefix_cons, List.cons_prefix_cons,
          htail text]
      · constructor
        · rintro ⟨rest, hrest⟩
          cases hof : sourceOf c with
          | nil => exact absurd hof (sourceOf_ne_nil c)
          | cons e more =>
            rw [hof, List.cons_append, List.cons_append] at hrest
            injection hrest with he
            subst he
            exact absurd (sourceOf_head hd hof) hc
        · intro h
          exact absurd (List.cons_prefix_cons.mp h).1.symm hc

theorem mark_injective : Function.Injective mark := by
  intro c d h
  unfold mark at h
  by_cases hc : c = '*' <;> by_cases hd : d = '*'
  · rw [hc, hd]
  · rw [if_pos hc, if_neg hd] at h
    cases h
  · rw [if_neg hc, if_pos hd] at h
    cases h
  · rw [if_neg hc, if_neg hd] at h
    injection h

theorem sourceOf_cases (c : Char) : sourceOf c = [c] ∨ '\x00' ∉ sourceOf c := by
  unfold sourceOf mark
  by_cases hc : c = '*'
  · right
    rw [if_pos hc]
    decide
  · rw [if_neg hc]
    unfold Mark.source escape
    dsimp only
    by_cases hesc : c ∈ escapedCharacters
    · right
      rw [if_pos hesc, List.mem_cons, List.mem_singleton, not_or]
      constructor
      · decide
      · rintro rfl
        exact absurd hesc (by decide)
    · left
      rw [if_neg hesc]

theorem escape_flatMap (c : Char) : ((escape c).flatMap fun d => if d = '*' then "[^/]*".toList else [d]) = sourceOf c := by
  unfold sourceOf mark escape
  by_cases hc : c = '*'
  · subst hc
    decide
  · rw [if_neg hc]
    unfold Mark.source escape
    dsimp only
    by_cases hesc : c ∈ escapedCharacters
    · rw [if_pos hesc]
      simp [hc]
    · rw [if_neg hesc]
      simp [hc]

theorem placeholder_flatMap : placeholder.flatMap sourceOf = placeholder := by decide

theorem placeholder_map : placeholder.map mark = placeholder.map Mark.char := by decide

theorem replaceAll_flatMap (text : List Char) :
    replaceAll placeholder ".*".toList (text.flatMap sourceOf) =
      (replaceAll (placeholder.map Mark.char) [.double] (text.map mark)).flatMap Mark.source := by
  have hne : placeholder ≠ [] := List.cons_ne_nil _ _
  induction hn : text.length using Nat.strong_induction_on generalizing text with
  | _ n ih =>
    subst hn
    by_cases hplaceholder : placeholder <+: text
    · obtain ⟨rest, rfl⟩ := hplaceholder
      have hlt : rest.length < (placeholder ++ rest).length := by
        rw [List.length_append]
        have : 0 < placeholder.length := by decide
        omega
      have hmarks := @replaceAll_append _ _ (placeholder.map Mark.char) [Mark.double] (List.cons_ne_nil _ _)
        (rest.map mark)
      rw [List.flatMap_append, placeholder_flatMap, replaceAll_append hne, ih _ hlt rest rfl, List.map_append,
        placeholder_map, hmarks, List.flatMap_append]
      rfl
    · cases text with
      | nil => rfl
      | cons c text =>
        have hmarks : ¬placeholder.map Mark.char <+: mark c :: text.map mark := by
          rw [← placeholder_map, ← List.map_cons, List.prefix_map_iff_of_injective mark_injective]
          exact hplaceholder
        have hsource : ¬placeholder <+: sourceOf c ++ text.flatMap sourceOf := by
          rw [← List.flatMap_cons, prefix_flatMap_iff fun c hc => hc]
          exact hplaceholder
        have hfront : replaceAll placeholder ".*".toList (sourceOf c ++ text.flatMap sourceOf) =
            sourceOf c ++ replaceAll placeholder ".*".toList (text.flatMap sourceOf) := by
          rcases sourceOf_cases c with hsame | hnul
          · rw [hsame] at hsource ⊢
            exact replaceAll_cons hsource
          · exact replaceAll_append_of_ne hnul _
        rw [List.flatMap_cons, hfront, ih text.length (by simp) text rfl, List.map_cons, replaceAll_cons hmarks,
          List.flatMap_cons]
        rfl

theorem escaped_eq (pattern : List Char) : escaped pattern = (marksWithPlaceholder pattern).flatMap Mark.source := by
  unfold escaped marksWithPlaceholder
  rw [← replaceAll_flatMap]
  congr 1
  have hone : "*".toList = ['*'] := rfl
  rw [hone, replaceAll_singleton, List.flatMap_assoc]
  congr 1
  funext c
  exact escape_flatMap c

/-! ## The expression of a glob -/

def Mark.atom : Mark → Regex Char
  | .double => .star Regex.dot
  | .single => .star (Regex.other '/')
  | .char c => Regex.lit c

theorem mem_syntaxCharacters_of_escaped {c : Char} (h : c ∈ escapedCharacters) : c ∈ Regex.syntaxCharacters := by
  have hall : (escapedCharacters.all fun d => decide (d ∈ Regex.syntaxCharacters)) = true := by decide
  exact of_decide_eq_true (List.all_eq_true.mp hall c h)

theorem eq_star_of_not_escaped {c : Char} (h : c ∈ Regex.syntaxCharacters) (hc : c ∉ escapedCharacters) : c = '*' := by
  have hall : (Regex.syntaxCharacters.all fun d => decide (d ∈ escapedCharacters ∨ d = '*')) = true := by decide
  exact (of_decide_eq_true (List.all_eq_true.mp hall c h)).resolve_left hc

theorem head_source_ne (ms : List Mark) (h : ∀ m ∈ ms, m ≠ .char '*') :
    (ms.flatMap Mark.source ++ ['$']).head? ≠ some '*' := by
  cases ms with
  | nil => decide
  | cons m ms =>
    rw [List.flatMap_cons]
    cases m with
    | double => exact fun h => nomatch h
    | single => exact fun h => nomatch h
    | char c =>
      have hc : c ≠ '*' := fun hc => h (.char c) List.mem_cons_self (by rw [hc])
      unfold Mark.source escape
      dsimp only
      split
      · exact fun h => nomatch h
      · rintro ⟨rfl⟩
        exact hc rfl

theorem readAtoms_source {ms : List Mark} (h : ∀ m ∈ ms, m ≠ .char '*') {n : Nat} (hn : ms.length + 1 ≤ n) :
    Regex.readAtoms n (ms.flatMap Mark.source ++ ['$']) = some (Regex.seq (ms.map Mark.atom ++ [Regex.atEnd])) := by
  induction ms generalizing n with
  | nil =>
    obtain ⟨n, rfl⟩ : ∃ k, n = k + 1 := ⟨n - 1, by rw [List.length_nil] at hn; omega⟩
    have hend : Regex.readAtom ['$'] = some (Regex.atEnd, []) := rfl
    have honce := @Regex.readAtoms_once n _ _ _ hend (fun h => nomatch h)
    rw [List.flatMap_nil, List.nil_append, honce]
    cases n <;> rfl
  | cons m ms ih =>
    obtain ⟨n, rfl⟩ : ∃ k, n = k + 1 := ⟨n - 1, by rw [List.length_cons] at hn; omega⟩
    have htail : ∀ m ∈ ms, m ≠ .char '*' := fun m hm => h m (List.mem_cons_of_mem _ hm)
    have hrest := @ih htail n (by rw [List.length_cons] at hn; omega)
    have hhead := head_source_ne ms htail
    rw [List.flatMap_cons, List.append_assoc, List.map_cons, List.cons_append, Regex.seq]
    cases m with
    | double =>
      have hdot := Regex.readAtom_dot ('*' :: (ms.flatMap Mark.source ++ ['$']))
      have hstar := @Regex.readAtoms_star n _ _ _ hdot
      rw [hrest] at hstar
      exact hstar
    | single =>
      have hother := Regex.readAtom_other_slash ('*' :: (ms.flatMap Mark.source ++ ['$']))
      have hstar := @Regex.readAtoms_star n _ _ _ hother
      rw [hrest] at hstar
      exact hstar
    | char c =>
      have hc : c ≠ '*' := fun hc => h (.char c) List.mem_cons_self (by rw [hc])
      have hatom : Regex.readAtom (escape c ++ (ms.flatMap Mark.source ++ ['$'])) =
          some (Regex.lit c, ms.flatMap Mark.source ++ ['$']) := by
        unfold escape
        by_cases hesc : c ∈ escapedCharacters
        · rw [if_pos hesc]
          exact Regex.readAtom_escaped (mem_syntaxCharacters_of_escaped hesc) _
        · rw [if_neg hesc]
          exact Regex.readAtom_plain (fun hsyntax => hc (eq_star_of_not_escaped hsyntax hesc)) _
      have honce := @Regex.readAtoms_once n _ _ _ hatom hhead
      rw [hrest] at honce
      exact honce

theorem length_le_source (ms : List Mark) : ms.length ≤ (ms.flatMap Mark.source).length := by
  induction ms with
  | nil => exact Nat.le_refl 0
  | cons m ms ih =>
    have hpos : 1 ≤ m.source.length := by
      cases m with
      | double => decide
      | single => decide
      | char c =>
        unfold Mark.source escape
        dsimp only
        split <;> simp
    rw [List.flatMap_cons, List.length_append, List.length_cons]
    omega

theorem ofSource_marks {ms : List Mark} (h : ∀ m ∈ ms, m ≠ .char '*') :
    Regex.ofSource ('^' :: (ms.flatMap Mark.source ++ ['$'])) =
      some (.cat Regex.atStart (Regex.seq (ms.map Mark.atom ++ [Regex.atEnd]))) := by
  have hstart := Regex.readAtom_atStart (ms.flatMap Mark.source ++ ['$'])
  have hlen := length_le_source ms
  unfold Regex.ofSource
  rw [List.length_cons, Regex.readAtoms_once hstart (head_source_ne ms h), readAtoms_source h]
  · rfl
  · rw [List.length_append, List.length_singleton]
    omega

theorem marksWithPlaceholder_ne {pattern : List Char} : ∀ m ∈ marksWithPlaceholder pattern, m ≠ .char '*' := by
  intro m hm
  rcases mem_replaceAll hm with hm | hm
  · rw [List.mem_singleton] at hm
    subst hm
    exact fun h => nomatch h
  · obtain ⟨c, -, rfl⟩ := List.mem_map.mp hm
    unfold mark
    by_cases hc : c = '*'
    · rw [if_pos hc]
      exact fun h => nomatch h
    · rw [if_neg hc]
      rintro ⟨rfl⟩
      exact hc rfl

/-! ## Its matches -/

theorem mem_results_atom {m : Mark} {i j : Regex.Place Char} :
    j ∈ Regex.results m.atom i ↔
      ∃ taken rest, i.after = taken ++ rest ∧ taken ∈ m.language ∧ j = i.past taken rest := by
  cases m with
  | double =>
    rw [Mark.atom, Regex.dot, Regex.mem_results_star_set]
    simp only [Bool.not_eq_true']
    exact Iff.rfl
  | single =>
    rw [Mark.atom, Regex.other, Regex.mem_results_star_set]
    have hset : ∀ taken : List Char, (∀ c ∈ taken, decide (c ≠ '/') = true) ↔ taken ∈ Mark.language .single := by
      intro taken
      constructor
      · intro h hslash
        exact absurd (h '/' hslash) (by decide)
      · intro h c hc
        rw [decide_eq_true_eq]
        rintro rfl
        exact h hc
    simp only [hset]
  | char c =>
    rw [Mark.atom, Regex.mem_results_lit]
    constructor
    · rintro ⟨cs, hafter, rfl⟩
      exact ⟨[c], cs, hafter, rfl, rfl⟩
    · rintro ⟨taken, rest, hafter, htaken, rfl⟩
      obtain rfl : taken = [c] := htaken
      exact ⟨rest, hafter, rfl⟩

theorem results_marks (ms : List Mark) (i : Regex.Place Char) :
    (∃ j, j ∈ Regex.results (Regex.seq (ms.map Mark.atom ++ [Regex.atEnd])) i) ↔ i.after ∈ marksLanguage ms := by
  unfold marksLanguage
  induction ms generalizing i with
  | nil =>
    rw [List.map_nil, List.nil_append, List.map_nil, List.prod_nil, Language.mem_one, Regex.seq, Regex.seq]
    constructor
    · rintro ⟨j, hj⟩
      rw [Regex.mem_results_cat] at hj
      obtain ⟨k, hk, -⟩ := hj
      exact (Regex.mem_results_atEnd.mp hk).1
    · intro h
      refine ⟨i, ?_⟩
      rw [Regex.mem_results_cat]
      exact ⟨i, Regex.mem_results_atEnd.mpr ⟨h, rfl⟩, Regex.mem_results_empty.mpr rfl⟩
  | cons m ms ih =>
    rw [List.map_cons, List.cons_append, Regex.seq, List.map_cons, List.prod_cons, Language.mem_mul]
    constructor
    · rintro ⟨j, hj⟩
      rw [Regex.mem_results_cat] at hj
      obtain ⟨k, hk, hj⟩ := hj
      obtain ⟨taken, rest, hafter, htaken, rfl⟩ := mem_results_atom.mp hk
      exact ⟨taken, htaken, rest, (ih _).mp ⟨j, hj⟩, hafter.symm⟩
    · rintro ⟨taken, htaken, rest, hrest, hafter⟩
      obtain ⟨j, hj⟩ := (ih (i.past taken rest)).mpr hrest
      refine ⟨j, ?_⟩
      rw [Regex.mem_results_cat]
      exact ⟨i.past taken rest, mem_results_atom.mpr ⟨taken, rest, hafter.symm, htaken, rfl⟩, hj⟩

theorem matchesGlob_iff (path pattern : String) :
    matchesGlob path pattern = true ↔ withoutLeadingSlashes path ∈
      tightLanguage (parts true (marksWithPlaceholder (withoutLeadingSlashes pattern))) := by
  unfold matchesGlob globToRegExp
  rw [escaped_eq, ofSource_marks marksWithPlaceholder_ne, Option.any_some, Regex.test_of_atStart, results_marks,
    marksLanguage_eq true]
  exact Iff.rfl

end NeonDiff.PathFilter
