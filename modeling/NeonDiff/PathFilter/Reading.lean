import Mathlib.Computability.Language
import NeonDiff.PathFilter.Model

/-! # What a path pattern stands for -/

open NeonDiff.Lib

namespace NeonDiff.PathFilter

inductive Mark where
  | double | single
  | char (c : Char)
  deriving DecidableEq, Repr

def mark (c : Char) : Mark := if c = '*' then .single else .char c

/-- The marks of a pattern: from the left, two stars together are one. -/
def marks : List Char → List Mark
  | [] => []
  | [c] => [mark c]
  | c :: d :: cs => if c = '*' ∧ d = '*' then .double :: marks cs else mark c :: marks (d :: cs)

inductive Part where
  | char (c : Char)
  | star
  /-- `**/` where a segment begins. -/
  | segments
  /-- Any other `**`. -/
  | rest
  deriving DecidableEq, Repr

/-- The parts of a pattern; the flag says that a segment begins here. -/
def parts : Bool → List Mark → List Part
  | _, [] => []
  | _, .char c :: ms => .char c :: parts (c = '/') ms
  | _, .single :: ms => .star :: parts false ms
  | _, [.double] => [.rest]
  | start, .double :: m :: ms =>
    if start = true ∧ m = .char '/' then .segments :: parts true ms else .rest :: parts false (m :: ms)

def wholeSegment : Language Char := {text | ∃ name, '/' ∉ name ∧ text = name ++ ['/']}

def Part.language : Part → Language Char
  | .char c => {[c]}
  | .star => {text | '/' ∉ text}
  | .segments => KStar.kstar wholeSegment
  | .rest => {_text | True}

/-- The paths that a pattern of these parts stands for. -/
def globLanguage (ps : List Part) : Language Char := (ps.map Part.language).prod

/-- `**/` covers a segment at least, and no `**` covers the end of a line. -/
def Part.Tight : Part → List Char → Prop
  | .char _, _ | .star, _ => True
  | .segments, text => text ≠ [] ∧ ∀ c ∈ text, Regex.isLineTerminator c = false
  | .rest, text => ∀ c ∈ text, Regex.isLineTerminator c = false

def Part.tightLanguage (p : Part) : Language Char := {text | text ∈ p.language ∧ p.Tight text}

def tightLanguage (ps : List Part) : Language Char := (ps.map Part.tightLanguage).prod

def patternParts (pattern : List Char) : List Part := parts true (marks pattern)

def marksWithPlaceholder (pattern : List Char) : List Mark :=
  replaceAll (placeholder.map .char) [.double] ((replaceAll "**".toList placeholder pattern).map mark)

/-! ## Whole segments -/

theorem mem_wholeSegments {text : List Char} :
    text ∈ KStar.kstar wholeSegment ↔ text = [] ∨ ∃ front, text = front ++ ['/'] := by
  rw [Language.mem_kstar]
  constructor
  · rintro ⟨names, rfl, hnames⟩
    rcases List.eq_nil_or_concat names with rfl | ⟨front, last, rfl⟩
    · exact .inl rfl
    · obtain ⟨name, -, rfl⟩ := hnames last (by simp)
      exact .inr ⟨front.flatten ++ name, by simp⟩
  · rintro (rfl | ⟨front, rfl⟩)
    · exact ⟨[], rfl, by simp⟩
    · -- by the segments of what stands in front of the last slash
      have hsplit : ∀ n (front : List Char), front.length ≤ n →
          ∃ names : List (List Char), front ++ ['/'] = names.flatten ∧ ∀ name ∈ names, name ∈ wholeSegment := by
        intro n
        induction n with
        | zero =>
          intro front hfront
          have hnil : front = [] := List.length_eq_zero_iff.mp (by omega)
          subst hnil
          refine ⟨[['/']], rfl, ?_⟩
          intro name hname
          rw [List.mem_singleton] at hname
          exact ⟨[], List.not_mem_nil, hname⟩
        | succ n ih =>
          intro front hfront
          by_cases hslash : '/' ∈ front
          · obtain ⟨name, later, rfl, hname⟩ := List.eq_append_cons_of_mem hslash
            have hle : later.length ≤ n := by
              rw [List.length_append, List.length_cons] at hfront
              omega
            obtain ⟨names, heq, hnames⟩ := ih later hle
            refine ⟨(name ++ ['/']) :: names, by rw [List.flatten_cons, ← heq]; simp, ?_⟩
            intro segment hsegment
            cases hsegment with
            | head => exact ⟨name, hname, rfl⟩
            | tail _ hsegment => exact hnames segment hsegment
          · refine ⟨[front ++ ['/']], by simp, ?_⟩
            intro name hname
            rw [List.mem_singleton] at hname
            exact ⟨front, hslash, hname⟩
      exact hsplit front.length front (Nat.le_refl _)

/-! ## Marks as the code reads them -/

def Mark.language : Mark → Language Char
  | .double => {text | ∀ c ∈ text, Regex.isLineTerminator c = false}
  | .single => {text | '/' ∉ text}
  | .char c => {[c]}

def marksLanguage (ms : List Mark) : Language Char := (ms.map Mark.language).prod

theorem rest_tightLanguage : Part.tightLanguage .rest = Mark.language .double := by
  apply Language.ext
  intro text
  exact ⟨fun h => h.2, fun h => ⟨trivial, h⟩⟩

theorem star_tightLanguage : Part.tightLanguage .star = Mark.language .single := by
  apply Language.ext
  intro text
  exact ⟨fun h => h.1, fun h => ⟨h, trivial⟩⟩

theorem char_tightLanguage (c : Char) : Part.tightLanguage (.char c) = Mark.language (.char c) := by
  apply Language.ext
  intro text
  exact ⟨fun h => h.1, fun h => ⟨h, trivial⟩⟩

theorem segments_tightLanguage :
    Part.tightLanguage .segments = Mark.language .double * Mark.language (.char '/') := by
  apply Language.ext
  intro text
  rw [Language.mem_mul]
  constructor
  · rintro ⟨hsegments, hne, hends⟩
    obtain rfl | ⟨front, rfl⟩ := mem_wholeSegments.mp hsegments
    · exact absurd rfl hne
    · exact ⟨front, fun c hc => hends c (List.mem_append_left _ hc), ['/'], rfl, rfl⟩
  · rintro ⟨front, hfront, last, hlast, rfl⟩
    obtain rfl : last = ['/'] := hlast
    refine ⟨mem_wholeSegments.mpr (.inr ⟨front, rfl⟩), by simp, ?_⟩
    intro c hc
    rw [List.mem_append, List.mem_singleton] at hc
    rcases hc with hc | rfl
    · exact hfront c hc
    · decide

theorem marksLanguage_eq (start : Bool) (ms : List Mark) : marksLanguage ms = tightLanguage (parts start ms) := by
  unfold marksLanguage tightLanguage
  induction start, ms using parts.induct with
  | case1 start => rfl
  | case2 start c ms ih => rw [parts, List.map_cons, List.map_cons, List.prod_cons, List.prod_cons, ih, char_tightLanguage]
  | case3 start ms ih => rw [parts, List.map_cons, List.map_cons, List.prod_cons, List.prod_cons, ih, star_tightLanguage]
  | case4 start => rw [parts, List.map_cons, List.map_cons, rest_tightLanguage]; rfl
  | case5 start m ms h ih =>
    obtain ⟨hstart, rfl⟩ := h
    rw [parts, if_pos ⟨hstart, rfl⟩, List.map_cons, List.map_cons, List.map_cons, List.prod_cons, List.prod_cons,
      List.prod_cons, ih, segments_tightLanguage, mul_assoc]
  | case6 start m ms h ih =>
    rw [parts, if_neg h, List.map_cons, List.prod_cons, ih, List.map_cons, List.prod_cons, rest_tightLanguage]

theorem tightLanguage_le (ps : List Part) {text : List Char} (h : text ∈ tightLanguage ps) : text ∈ globLanguage ps := by
  unfold tightLanguage globLanguage at *
  induction ps generalizing text with
  | nil => exact h
  | cons p ps ih =>
    rw [List.map_cons, List.prod_cons, Language.mem_mul] at *
    obtain ⟨front, hfront, rest, hrest, rfl⟩ := h
    exact ⟨front, hfront.1, rest, ih hrest, rfl⟩

/-! ## Patterns without the character of the placeholder -/

theorem mark_ne_nul {c : Char} (h : c ≠ '\x00') : mark c ≠ .char '\x00' := by
  unfold mark
  split
  · exact fun h => nomatch h
  · rintro ⟨rfl⟩
    exact h rfl

theorem placeholder_begins_with_nul {m : Mark} {ms : List Mark} (h : m ≠ .char '\x00') :
    ¬placeholder.map Mark.char <+: m :: ms := by
  rintro ⟨rest, hrest⟩
  injection hrest with hm
  exact h hm.symm

theorem marksWithPlaceholder_eq {pattern : List Char} (h : '\x00' ∉ pattern) :
    marksWithPlaceholder pattern = marks pattern := by
  unfold marksWithPlaceholder
  induction pattern using marks.induct with
  | case1 => rfl
  | case2 c =>
    have hc : c ≠ '\x00' := fun hc => h (by rw [hc]; exact List.mem_singleton.mpr rfl)
    have hone : ¬"**".toList <+: [c] := fun hpre => absurd hpre.length_le (by simp)
    rw [replaceAll_cons hone, replaceAll_nil, List.map_singleton, replaceAll_cons (placeholder_begins_with_nul (mark_ne_nul hc)),
      replaceAll_nil, marks]
  | case3 c d cs hstars ih =>
    obtain ⟨rfl, rfl⟩ := hstars
    have hcs : '\x00' ∉ cs := fun hcs => h (List.mem_cons_of_mem _ (List.mem_cons_of_mem _ hcs))
    have htwo : replaceAll "**".toList placeholder ('*' :: '*' :: cs) =
        placeholder ++ replaceAll "**".toList placeholder cs := replaceAll_append (List.cons_ne_nil _ _) cs
    have hback := @replaceAll_append _ _ (placeholder.map Mark.char) [Mark.double] (List.cons_ne_nil _ _)
      ((replaceAll "**".toList placeholder cs).map mark)
    have hmap : placeholder.map mark = placeholder.map Mark.char := by decide
    rw [htwo, List.map_append, hmap, hback, ih hcs, marks, if_pos ⟨rfl, rfl⟩]
    rfl
  | case4 c d cs hstars ih =>
    have hc : c ≠ '\x00' := fun hc => h (by rw [hc]; exact List.mem_cons_self)
    have hcs : '\x00' ∉ d :: cs := fun hcs => h (List.mem_cons_of_mem _ hcs)
    have hnot : ¬"**".toList <+: c :: d :: cs := by
      rintro ⟨rest, hrest⟩
      injection hrest with hc hrest
      injection hrest with hd
      exact hstars ⟨hc.symm, hd.symm⟩
    rw [replaceAll_cons hnot, List.map_cons, replaceAll_cons (placeholder_begins_with_nul (mark_ne_nul hc)), ih hcs, marks,
      if_neg hstars]

end NeonDiff.PathFilter
