import NeonDiff.Lib.Fields
import NeonDiff.PreMerge.Model

/-! # The detail of a metadata section -/

open NeonDiff.Lib NeonDiff.Lib.JsText NeonDiff.Lib.Words

namespace NeonDiff.PreMerge

variable {toUpperCase : Char → Char}

/-! ## Words -/

theorem words_intercalate (parts : List (List Char)) : words ([' '].intercalate parts) = parts.flatMap words := by
  induction parts with
  | nil => rfl
  | cons part parts ih =>
    cases parts with
    | nil => simp
    | cons next parts =>
      have hblank := @runs_append_cons (fun c => !isSpace c) part ' ' (by decide) ([' '].intercalate (next :: parts))
      rw [List.intercalate_cons_cons, List.flatMap_cons, ← ih, List.append_assoc]
      exact hblank

theorem words_of_mem {cs word : List Char} (h : word ∈ words cs) : words word = [word] := by
  obtain ⟨hne, hkeep, -⟩ := mem_runs h
  have hone := @runs_append _ _ hne hkeep [] (fun c hc => nomatch hc)
  rw [List.append_nil] at hone
  exact hone

theorem flatMap_words {ws : List (List Char)} (h : ∀ word ∈ ws, words word = [word]) : ws.flatMap words = ws := by
  induction ws with
  | nil => rfl
  | cons word ws ih =>
    rw [List.flatMap_cons, h word List.mem_cons_self, ih fun w hw => h w (List.mem_cons_of_mem word hw)]
    rfl

theorem normalizeText_eq (text : List Char) : normalizeText text = [' '].intercalate (words text) :=
  trim_collapseSpaces text

@[simp]
theorem normalizeText_normalizeText (text : List Char) : normalizeText (normalizeText text) = normalizeText text := by
  rw [normalizeText_eq (normalizeText text), normalizeText_eq, words_intercalate,
    flatMap_words fun word hword => words_of_mem hword]

def detailOf (lines : List (List Char)) : List Char := normalizeText ([' '].intercalate lines)

theorem detailOf_eq (lines : List (List Char)) : detailOf lines = [' '].intercalate (lines.flatMap words) := by
  rw [detailOf, normalizeText_eq, words_intercalate]

theorem normalizeText_detailOf (lines : List (List Char)) : normalizeText (detailOf lines) = detailOf lines :=
  normalizeText_normalizeText _

theorem words_cons {c : Char} (h : isSpace c = false) (cs : List Char) : ∃ word ws, words (c :: cs) = (c :: word) :: ws := by
  have hsplit : c :: cs = (c :: cs).takeWhile (fun d => !isSpace d) ++ (c :: cs).dropWhile (fun d => !isSpace d) :=
    List.takeWhile_append_dropWhile.symm
  have hc : (!isSpace c) = true := by rw [h]; rfl
  have hfirst : (c :: cs).takeWhile (fun d => !isSpace d) = c :: cs.takeWhile fun d => !isSpace d :=
    List.takeWhile_cons_of_pos hc
  have hword : ∀ d ∈ (c :: cs).takeWhile (fun d => !isSpace d), (!isSpace d) = true :=
    fun d hd => List.mem_takeWhile_imp (p := fun d => !isSpace d) hd
  have hrest : ∀ d, ((c :: cs).dropWhile fun d => !isSpace d).head? = some d → (!isSpace d) = false := by
    intro d hd
    have hnot := List.head?_dropWhile_not (fun d => !isSpace d) (c :: cs)
    rw [hd] at hnot
    simpa using hnot
  have hruns := runs_append (by rw [hfirst]; exact List.cons_ne_nil _ _) hword hrest
  rw [← hsplit, hfirst] at hruns
  exact ⟨_, _, hruns⟩

theorem intercalate_append {ws more : List (List Char)} (hws : ws ≠ []) (hmore : more ≠ []) :
    [' '].intercalate (ws ++ more) = [' '].intercalate ws ++ ' ' :: [' '].intercalate more := by
  induction ws with
  | nil => exact absurd rfl hws
  | cons word ws ih =>
    cases ws with
    | nil =>
      obtain ⟨next, more, rfl⟩ := List.exists_cons_of_ne_nil hmore
      rw [List.singleton_append, List.intercalate_cons_cons]
      simp
    | cons next ws =>
      rw [List.cons_append, List.cons_append, List.intercalate_cons_cons, ← List.cons_append,
        ih (List.cons_ne_nil next ws), List.intercalate_cons_cons]
      simp

theorem length_append (cs ds : List Char) : length (cs ++ ds) = length cs + length ds := by
  simp [length]

theorem length_intercalate_ge (ws : List (List Char)) : ∀ word ∈ ws, length word ≤ length ([' '].intercalate ws) := by
  induction ws with
  | nil => exact fun word hword => nomatch hword
  | cons first ws ih =>
    intro word hword
    cases ws with
    | nil =>
      obtain rfl := List.mem_singleton.mp hword
      simp
    | cons next ws =>
      rw [List.intercalate_cons_cons, length_append, length_append]
      rcases List.mem_cons.mp hword with rfl | hword
      · omega
      · have := ih word hword
        omega

/-! ## Details that go on with a Markdown heading -/

/-- A detail, or nothing, and a text that begins with `#` behind it. -/
def GoesOn (detail longer : List Char) : Prop :=
  ∃ more, longer = detail ++ (if detail = [] then [] else [' ']) ++ '#' :: more

theorem detailOf_goesOn {lines : List (List Char)} {line : List Char} {rest : List (List Char)}
    (h : ∃ word ws, words line = ('#' :: word) :: ws) : GoesOn (detailOf lines) (detailOf (lines ++ line :: rest)) := by
  obtain ⟨word, ws, hline⟩ := h
  rw [detailOf_eq, detailOf_eq, List.flatMap_append, List.flatMap_cons, hline]
  have hbegins : ∃ more, [' '].intercalate (('#' :: word) :: ws ++ rest.flatMap words) = '#' :: more := by
    cases hrest : ws ++ rest.flatMap words with
    | nil => exact ⟨word, by rw [List.cons_append, hrest]; simp⟩
    | cons next others => exact ⟨_, by rw [List.cons_append, hrest, List.intercalate_cons_cons]; rfl⟩
  obtain ⟨more, hmore⟩ := hbegins
  refine ⟨more, ?_⟩
  by_cases hnil : lines.flatMap words = []
  · rw [hnil, List.nil_append, hmore]
    simp
  · have hne : [' '].intercalate (lines.flatMap words) ≠ [] := by
      obtain ⟨first, others, hfirst⟩ := List.exists_cons_of_ne_nil hnil
      obtain ⟨line, -, hword⟩ := List.mem_flatMap.mp (show first ∈ lines.flatMap words by rw [hfirst]; exact List.mem_cons_self)
      obtain ⟨c, cs, rfl⟩ := List.exists_cons_of_ne_nil (mem_runs hword).1
      rw [hfirst]
      cases others with
      | nil => simp
      | cons next others => rw [List.intercalate_cons_cons]; simp
    rw [if_neg hne, intercalate_append hnil (by simp), hmore, List.append_assoc]
    rfl

theorem GoesOn.length_le {detail longer : List Char} (h : GoesOn detail longer) : length detail ≤ length longer := by
  obtain ⟨more, rfl⟩ := h
  rw [length_append, length_append]
  omega

def notApplicablePhrases : List (List Char) :=
  ["n/a", "not applicable", "none needed", "none required"].map String.toList

theorem notApplicablePhrases_plain : ∀ phrase ∈ notApplicablePhrases,
    (∀ c ∈ phrase, c.toNat < 0x80 ∧ c.toUpper ≠ '#') ∧ phrase.getLast?.any (fun c => c.toUpper ≠ ' ') = true := by
  have hall : (notApplicablePhrases.all fun phrase => phrase.all (fun c => decide (c.toNat < 0x80 ∧ c.toUpper ≠ '#')) &&
      phrase.getLast?.any (fun c => c.toUpper ≠ ' ')) = true := by decide
  intro phrase hphrase
  obtain ⟨hplain, hlast⟩ := Bool.and_eq_true_iff.mp (List.all_eq_true.mp hall phrase hphrase)
  exact ⟨fun c hc => of_decide_eq_true (List.all_eq_true.mp hplain c hc), hlast⟩

def BeginsWithPhrase (toUpperCase : Char → Char) (text : List Char) : Prop :=
  ∃ phrase ∈ notApplicablePhrases, ∃ taken rest, text = taken ++ rest ∧
    taken.map (Regex.canonicalize toUpperCase) = phrase.map (Regex.canonicalize toUpperCase) ∧
      taken.getLast?.any Regex.isWord ≠ rest.head?.any Regex.isWord

theorem isNotApplicableSection_iff (detail : List Char) :
    isNotApplicableSection toUpperCase detail = true ↔ BeginsWithPhrase toUpperCase (normalizeText detail) := by
  unfold isNotApplicableSection notApplicablePattern BeginsWithPhrase
  rw [Regex.test_of_atStart]
  constructor
  · rintro ⟨j, hj⟩
    obtain ⟨k, hk, hj⟩ := Regex.mem_results_cat.mp hj
    obtain ⟨r, hr, hk⟩ := Regex.mem_results_oneOf.mp hk
    obtain ⟨phrase, hphrase, rfl⟩ := List.mem_map.mp hr
    obtain ⟨taken, rest, htext, htaken, rfl⟩ := Regex.mem_results_textIgnoringCase.mp hk
    have hboundary := (Regex.mem_results_look.mp hj).1
    refine ⟨phrase.toList, List.mem_map_of_mem hphrase, taken, rest, htext, htaken, ?_⟩
    simpa [Regex.Place.start] using hboundary
  · rintro ⟨phrase, hphrase, taken, rest, htext, htaken, hboundary⟩
    obtain ⟨name, hname, rfl⟩ := List.mem_map.mp hphrase
    refine ⟨(Regex.Place.start (normalizeText detail)).past taken rest, ?_⟩
    rw [Regex.mem_results_cat]
    refine ⟨(Regex.Place.start (normalizeText detail)).past taken rest,
      Regex.mem_results_oneOf.mpr ⟨_, List.mem_map_of_mem hname, ?_⟩, ?_⟩
    · exact Regex.mem_results_textIgnoringCase.mpr ⟨taken, rest, htext, htaken, rfl⟩
    · exact Regex.mem_results_look.mpr ⟨by simpa [Regex.Place.start] using hboundary, rfl⟩

theorem beginsWithPhrase_goesOn {detail longer : List Char} (h : GoesOn detail longer) :
    BeginsWithPhrase toUpperCase longer ↔ BeginsWithPhrase toUpperCase detail := by
  obtain ⟨more, rfl⟩ := h
  have hnext : (((if detail = [] then [] else [' ']) ++ '#' :: more : List Char)).head?.any Regex.isWord = false := by
    split <;> rfl
  rw [List.append_assoc]
  constructor
  · rintro ⟨phrase, hphrase, taken, rest, htext, htaken, hboundary⟩
    obtain ⟨hplain, hlast⟩ := notApplicablePhrases_plain phrase hphrase
    have hhash : '#' ∉ taken := by
      intro hmem
      have himage := List.mem_map_of_mem (f := Regex.canonicalize toUpperCase) hmem
      rw [htaken] at himage
      obtain ⟨c, hc, hsame⟩ := List.mem_map.mp himage
      rw [Regex.canonicalize_ascii (hplain c hc).1, Regex.canonicalize_ascii (by decide)] at hsame
      exact (hplain c hc).2 hsame
    rcases List.append_eq_append_iff.mp htext with ⟨more', htaken', hrest⟩ | ⟨more', hdetail, hrest⟩
    · cases more' with
      | nil =>
        rw [List.append_nil] at htaken'
        rw [List.nil_append] at hrest
        refine ⟨phrase, hphrase, taken, [], by rw [htaken', List.append_nil], htaken, ?_⟩
        rwa [← hrest, hnext] at hboundary
      | cons c more' =>
        -- the phrase would end in a blank or hold the `#`
        exfalso
        by_cases hnil : detail = []
        · rw [if_pos hnil] at hrest
          injection hrest with hc
          exact hhash (by rw [htaken', hc]; simp)
        · rw [if_neg hnil] at hrest
          injection hrest with hc hmore
          cases more' with
          | nil =>
            have hends := congrArg List.getLast? htaken
            rw [htaken', ← hc, List.getLast?_map, List.getLast?_concat, List.getLast?_map] at hends
            cases hphraseLast : phrase.getLast? with
            | none =>
              rw [hphraseLast] at hends
              cases hends
            | some d =>
              have hd := List.mem_of_getLast? hphraseLast
              rw [hphraseLast, Option.any_some, decide_eq_true_eq] at hlast
              rw [hphraseLast, Option.map_some, Option.map_some, Option.some.injEq,
                Regex.canonicalize_ascii (hplain d hd).1, Regex.canonicalize_ascii (by decide)] at hends
              exact hlast hends.symm
          | cons d more' =>
            injection hmore with hd
            exact hhash (by rw [htaken', hd]; simp)
    · refine ⟨phrase, hphrase, taken, more', hdetail, htaken, ?_⟩
      cases more' with
      | nil => rwa [hrest, List.nil_append, hnext] at hboundary
      | cons c more' =>
        rw [hrest] at hboundary
        exact hboundary
  · rintro ⟨phrase, hphrase, taken, rest, rfl, htaken, hboundary⟩
    refine ⟨phrase, hphrase, taken, rest ++ ((if taken ++ rest = [] then [] else [' ']) ++ '#' :: more), by simp, htaken, ?_⟩
    cases rest with
    | nil => rwa [List.nil_append, hnext]
    | cons c rest => exact hboundary

end NeonDiff.PreMerge
