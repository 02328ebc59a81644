import Mathlib.Data.List.TakeWhile

/-! # The longest run of a kind of item at the head of a list -/

namespace NeonDiff.Lib.Munch

universe u

variable {α : Type u} {p : α → Bool} {word rest : List α}

/-- Nothing of the kind goes on. -/
def Stops (p : α → Bool) (rest : List α) : Prop := ∀ a, rest.head? = some a → p a = false

theorem stops_nil : Stops p [] := nofun

theorem stops_cons {a : α} (h : p a = false) (rest : List α) : Stops p (a :: rest) := by
  intro b hb
  obtain rfl := Option.some.inj hb
  exact h

theorem takeWhile_append (hword : ∀ a ∈ word, p a = true) (hrest : Stops p rest) :
    (word ++ rest).takeWhile p = word ∧ (word ++ rest).dropWhile p = rest := by
  rw [List.takeWhile_append_of_pos hword, List.dropWhile_append_of_pos hword]
  cases rest with
  | nil => simp
  | cons a rest =>
    have ha := hrest a rfl
    rw [List.takeWhile_cons_of_neg (by simp [ha]), List.dropWhile_cons_of_neg (by simp [ha]), List.append_nil]
    exact ⟨rfl, rfl⟩

theorem takeWhile_append_cons {a : α} (ha : p a = false) (items rest : List α) :
    (items ++ a :: rest).takeWhile p = items.takeWhile p ∧
      (items ++ a :: rest).dropWhile p = items.dropWhile p ++ a :: rest := by
  induction items with
  | nil => simp [ha]
  | cons b items ih =>
    rw [List.cons_append, List.takeWhile_cons, List.takeWhile_cons, List.dropWhile_cons, List.dropWhile_cons]
    split
    · exact ⟨by rw [ih.1], ih.2⟩
    · exact ⟨rfl, rfl⟩

end NeonDiff.Lib.Munch
