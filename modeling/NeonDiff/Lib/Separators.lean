import Mathlib.Data.List.Basic
import Mathlib.Data.List.Infix

/-! # A text around one occurrence of a separator -/

namespace NeonDiff.Lib.Separators

universe u

variable {α : Type u} {sep front rest whole : List α}

theorem not_infix_of_notMem {x : α} (hx : x ∈ sep) (h : x ∉ whole) : ¬sep <:+: whole :=
  fun hpart => h (hpart.subset hx)

theorem append_cons_inj {c : α} {a b x y : List α} (hx : c ∉ x) (hy : c ∉ y) (h : a ++ c :: x = b ++ c :: y) :
    a = b ∧ x = y := by
  obtain ⟨more, rfl, hmore⟩ | ⟨more, rfl, hmore⟩ := List.append_eq_append_iff.mp h
  · cases more with
    | nil => exact ⟨(List.append_nil a).symm, (List.cons.inj hmore).2⟩
    | cons d more =>
      have htail : x = more ++ c :: y := (List.cons.inj hmore).2
      exact absurd (htail ▸ List.mem_append_right more List.mem_cons_self) hx
  · cases more with
    | nil => exact ⟨List.append_nil b, (List.cons.inj hmore).2.symm⟩
    | cons d more =>
      have htail : y = more ++ c :: x := (List.cons.inj hmore).2
      exact absurd (htail ▸ List.mem_append_right more List.mem_cons_self) hy

theorem append_cons_inj_front {c : α} {a b x y : List α} (ha : c ∉ a) (hb : c ∉ b) (h : a ++ c :: x = b ++ c :: y) :
    a = b ∧ x = y := by
  obtain ⟨more, rfl, hmore⟩ | ⟨more, rfl, hmore⟩ := List.append_eq_append_iff.mp h
  · cases more with
    | nil => exact ⟨(List.append_nil a).symm, (List.cons.inj hmore).2⟩
    | cons d more =>
      obtain rfl : c = d := (List.cons.inj hmore).1
      exact absurd (List.mem_append_right a List.mem_cons_self) hb
  · cases more with
    | nil => exact ⟨List.append_nil b, (List.cons.inj hmore).2.symm⟩
    | cons d more =>
      obtain rfl : c = d := (List.cons.inj hmore).1
      exact absurd (List.mem_append_right b List.mem_cons_self) ha

variable [DecidableEq α]

/-- What is before and behind the first occurrence. -/
def splitFirst (sep : List α) : List α → Option (List α × List α)
  | [] => if sep = [] then some ([], []) else none
  | x :: xs =>
    if sep <+: x :: xs then some ([], (x :: xs).drop sep.length)
    else (splitFirst sep xs).map fun parts => (x :: parts.1, parts.2)

/-- What is before and behind the last occurrence. -/
def splitLast (sep : List α) : List α → Option (List α × List α)
  | [] => if sep = [] then some ([], []) else none
  | x :: xs =>
    match splitLast sep xs with
    | some parts => some (x :: parts.1, parts.2)
    | none => if sep <+: x :: xs then some ([], (x :: xs).drop sep.length) else none

/-! ## What is read is there -/

theorem eq_append_of_splitFirst {parts : List α × List α} (h : splitFirst sep whole = some parts) :
    whole = parts.1 ++ (sep ++ parts.2) := by
  induction whole generalizing parts with
  | nil =>
    unfold splitFirst at h
    split at h
    · rename_i hsep
      obtain rfl := Option.some.inj h
      rw [hsep]
      rfl
    · exact absurd h (by simp)
  | cons x xs ih =>
    unfold splitFirst at h
    split at h
    · rename_i hhere
      obtain rfl := Option.some.inj h
      exact (List.prefix_iff_eq_append.mp hhere).symm
    · obtain ⟨later, hlater, rfl⟩ := Option.map_eq_some_iff.mp h
      have hxs := ih hlater
      rw [List.cons_append, ← hxs]

theorem eq_append_of_splitLast {parts : List α × List α} (h : splitLast sep whole = some parts) :
    whole = parts.1 ++ (sep ++ parts.2) := by
  induction whole generalizing parts with
  | nil =>
    unfold splitLast at h
    split at h
    · rename_i hsep
      obtain rfl := Option.some.inj h
      rw [hsep]
      rfl
    · exact absurd h (by simp)
  | cons x xs ih =>
    unfold splitLast at h
    split at h
    · rename_i later hlater
      obtain rfl := Option.some.inj h
      have hxs := ih hlater
      rw [List.cons_append, ← hxs]
    · split at h
      · rename_i hhere
        obtain rfl := Option.some.inj h
        exact (List.prefix_iff_eq_append.mp hhere).symm
      · exact absurd h (by simp)

/-! ## What is written is read -/

theorem splitLast_eq_none (h : ¬sep <:+: whole) : splitLast sep whole = none := by
  induction whole with
  | nil =>
    unfold splitLast
    rw [if_neg]
    rintro rfl
    exact h (List.infix_refl _)
  | cons x xs ih =>
    have hxs : ¬sep <:+: xs := fun hpart => h (List.infix_cons hpart)
    have hhere : ¬sep <+: x :: xs := fun hprefix => h hprefix.isInfix
    unfold splitLast
    rw [ih hxs]
    exact if_neg hhere

theorem splitLast_append {parts : List α × List α} (h : splitLast sep rest = some parts) (front : List α) :
    splitLast sep (front ++ rest) = some (front ++ parts.1, parts.2) := by
  induction front with
  | nil => exact h
  | cons x front ih =>
    rw [List.cons_append, splitLast, ih]
    rfl

theorem splitLast_mark {u v : List α} {c : α} (hv : c ∉ v) (hrest : c ∉ rest) (front : List α) :
    splitLast (u ++ c :: v) (front ++ ((u ++ c :: v) ++ rest)) = some (front, rest) := by
  have hlast : splitLast (u ++ c :: v) ((u ++ c :: v) ++ rest) = some ([], rest) := by
    cases hwhole : (u ++ c :: v) ++ rest with
    | nil => exact absurd hwhole (by simp)
    | cons x xs =>
      have hprefix : u ++ c :: v <+: x :: xs := by
        rw [← hwhole]
        exact List.prefix_append _ rest
      have hlater : splitLast (u ++ c :: v) xs = none := by
        apply splitLast_eq_none
        rintro ⟨before, after, heq⟩
        have hends : (x :: before ++ u) ++ c :: (v ++ after) = u ++ c :: (v ++ rest) := by
          simp only [List.append_assoc, List.cons_append] at hwhole heq ⊢
          rw [heq, hwhole]
        have hcount := congrArg (List.count c) hends
        simp only [List.count_append, List.count_cons_self, List.count_eq_zero_of_not_mem hv,
          List.count_eq_zero_of_not_mem hrest] at hcount
        have hafter : c ∉ after := List.count_eq_zero.mp (by omega)
        have hv_after : c ∉ v ++ after := by
          rw [List.mem_append, not_or]
          exact ⟨hv, hafter⟩
        have hv_rest : c ∉ v ++ rest := by
          rw [List.mem_append, not_or]
          exact ⟨hv, hrest⟩
        have hlength := congrArg List.length (append_cons_inj hv_after hv_rest hends).1
        simp only [List.length_append, List.length_cons] at hlength
        omega
      rw [splitLast, hlater]
      dsimp only
      rw [if_pos hprefix, ← hwhole, List.drop_left]
  have happend := splitLast_append hlast front
  rwa [List.append_nil] at happend

theorem splitFirst_mark {c : α} {v : List α} (hfront : c ∉ front) (rest : List α) :
    splitFirst (c :: v) (front ++ ((c :: v) ++ rest)) = some (front, rest) := by
  induction front with
  | nil =>
    have hhere : c :: v <+: c :: (v ++ rest) := List.prefix_append (c :: v) rest
    rw [List.nil_append, List.cons_append, splitFirst, if_pos hhere, ← List.cons_append, List.drop_left]
  | cons x front ih =>
    rw [List.mem_cons, not_or] at hfront
    obtain ⟨hx, hfront⟩ := hfront
    have hnot : ¬c :: v <+: x :: (front ++ ((c :: v) ++ rest)) := fun hpre => hx (List.cons_prefix_cons.mp hpre).1
    rw [List.cons_append, splitFirst, if_neg hnot, ih hfront]
    rfl

end NeonDiff.Lib.Separators
