import Mathlib.Data.List.Basic
import Mathlib.Data.List.Infix

/-! # Replacing every occurrence of a part -/

namespace NeonDiff.Lib

universe u

variable {α : Type u} [DecidableEq α] {part replacement : List α}

/-- The first `skip` items are in an occurrence that is replaced already. -/
def replaceFrom (part replacement : List α) : Nat → List α → List α
  | _, [] => []
  | skip + 1, _ :: xs => replaceFrom part replacement skip xs
  | 0, x :: xs =>
    if part <+: x :: xs then replacement ++ replaceFrom part replacement (part.length - 1) xs
    else x :: replaceFrom part replacement 0 xs

/-- `text.replaceAll(part, replacement)` for a part that is not empty: from the left, and without overlap. -/
def replaceAll (part replacement text : List α) : List α := replaceFrom part replacement 0 text

theorem replaceFrom_append (front rest : List α) :
    replaceFrom part replacement front.length (front ++ rest) = replaceAll part replacement rest := by
  induction front with
  | nil => rfl
  | cons x front ih => exact ih

@[simp]
theorem replaceAll_nil : replaceAll part replacement [] = [] := rfl

theorem replaceAll_append (hpart : part ≠ []) (rest : List α) :
    replaceAll part replacement (part ++ rest) = replacement ++ replaceAll part replacement rest := by
  cases part with
  | nil => exact absurd rfl hpart
  | cons x part =>
    have hhere : x :: part <+: x :: (part ++ rest) := List.prefix_append (x :: part) rest
    rw [replaceAll, List.cons_append, replaceFrom, if_pos hhere, List.length_cons, Nat.add_sub_cancel,
      replaceFrom_append]

theorem replaceAll_cons {x : α} {xs : List α} (h : ¬part <+: x :: xs) :
    replaceAll part replacement (x :: xs) = x :: replaceAll part replacement xs := by
  rw [replaceAll, replaceFrom, if_neg h]
  rfl

theorem replaceAll_append_of_ne {x : α} {more front : List α} (h : x ∉ front) (rest : List α) :
    replaceAll (x :: more) replacement (front ++ rest) = front ++ replaceAll (x :: more) replacement rest := by
  induction front with
  | nil => rfl
  | cons y front ih =>
    rw [List.mem_cons, not_or] at h
    obtain ⟨hy, hfront⟩ := h
    have hnot : ¬x :: more <+: y :: (front ++ rest) := fun hpre => hy (List.cons_prefix_cons.mp hpre).1
    rw [List.cons_append, replaceAll_cons hnot, ih hfront]
    rfl

theorem mem_replaceFrom {x : α} {skip : Nat} {text : List α} (h : x ∈ replaceFrom part replacement skip text) :
    x ∈ replacement ∨ x ∈ text := by
  induction text generalizing skip with
  | nil => cases skip <;> cases h
  | cons y text ih =>
    have hlater : ∀ {skip}, x ∈ replaceFrom part replacement skip text → x ∈ replacement ∨ x ∈ y :: text :=
      fun hx => (ih hx).imp_right (List.mem_cons_of_mem y)
    cases skip with
    | succ skip => exact hlater h
    | zero =>
      rw [replaceFrom] at h
      by_cases hpart : part <+: y :: text
      · rw [if_pos hpart, List.mem_append] at h
        exact h.elim .inl hlater
      · rw [if_neg hpart, List.mem_cons] at h
        rcases h with rfl | h
        · exact .inr List.mem_cons_self
        · exact hlater h

theorem mem_replaceAll {x : α} {text : List α} (h : x ∈ replaceAll part replacement text) :
    x ∈ replacement ∨ x ∈ text := mem_replaceFrom h

theorem replaceAll_singleton (x : α) (text : List α) :
    replaceAll [x] replacement text = text.flatMap fun y => if y = x then replacement else [y] := by
  induction text with
  | nil => rfl
  | cons y text ih =>
    rw [List.flatMap_cons]
    by_cases hy : y = x
    · subst hy
      have hone := @replaceAll_append _ _ _ replacement (List.cons_ne_nil y []) text
      rw [if_pos rfl, ← ih]
      exact hone
    · have hnot : ¬[x] <+: y :: text := by
        rw [List.cons_prefix_cons]
        rintro ⟨rfl, -⟩
        exact hy rfl
      rw [replaceAll_cons hnot, if_neg hy, ih]
      rfl

end NeonDiff.Lib
