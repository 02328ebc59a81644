import Mathlib.Data.List.Basic
import Mathlib.Order.Lattice

/-! # The newest of what was seen

A slot holds an element whose key no other seen element exceeds, and is empty while nothing was seen.
-/

namespace NeonDiff.Lib

variable {α κ : Type} [LinearOrder κ] {key : α → κ} {seen : List α} {a m : α}

def Newest (key : α → κ) (seen : List α) : Option α → Prop
  | none => seen = []
  | some m => m ∈ seen ∧ ∀ a ∈ seen, key a ≤ key m

namespace Newest

theorem nil : Newest key [] none := rfl

theorem mem {slot : Option α} (h : Newest key seen slot) (hm : slot = some m) : m ∈ seen := by
  subst hm
  exact h.1

theorem take {slot : Option α} (h : Newest key seen slot) (hle : ∀ m, slot = some m → key m ≤ key a) :
    Newest key (seen ++ [a]) (some a) := by
  refine ⟨List.mem_append_right _ List.mem_cons_self, ?_⟩
  intro b hb
  cases slot with
  | none =>
    obtain rfl : seen = [] := h
    obtain rfl : b = a := by simpa using hb
    exact le_rfl
  | some m =>
    rcases List.mem_append.mp hb with hb | hb
    · exact le_trans (h.2 b hb) (hle m rfl)
    · obtain rfl : b = a := by simpa using hb
      exact le_rfl

theorem keep (h : Newest key seen (some m)) (hle : key a ≤ key m) : Newest key (seen ++ [a]) (some m) := by
  refine ⟨List.mem_append_left _ h.1, ?_⟩
  intro b hb
  rcases List.mem_append.mp hb with hb | hb
  · exact h.2 b hb
  · obtain rfl : b = a := by simpa using hb
    exact hle

theorem eq_some_iff {slot : Option α} (h : Newest key seen slot)
    (hkey : ∀ a ∈ seen, ∀ b ∈ seen, key a = key b → a = b) :
    slot = some m ↔ m ∈ seen ∧ ∀ a ∈ seen, key a ≤ key m := by
  constructor
  · rintro rfl
    exact h
  · rintro ⟨hm, hmax⟩
    cases slot with
    | none =>
      obtain rfl : seen = [] := h
      cases hm
    | some b => exact congrArg some (hkey b h.1 m hm (le_antisymm (hmax b h.1) (h.2 m hm)))

end Newest

end NeonDiff.Lib
