import Mathlib.Data.List.Sort
import Mathlib.Order.Lattice

/-! # Greedy admission under caps

A scan takes items on one after the other, each only when a test holds of what is there already. What the test
says of one item then bounds what the whole scan leaves.
-/

namespace NeonDiff.Lib

universe u v

variable {α : Type u} {κ : Type v}

/-! ## Counting by a key -/

section
variable [DecidableEq κ]

/-- How many of the items carry the key `k`. -/
def countBy (key : α → κ) (items : List α) (k : κ) : Nat := items.countP fun x => key x = k

/-- One more under the key `k`. -/
def bump (count : κ → Nat) (k : κ) : κ → Nat := fun l => if l = k then count k + 1 else count l

/-- One more under `key` in a map that keeps its keys in the order they came. -/
def countOne (counts : List (κ × Nat)) (key : κ) : List (κ × Nat) :=
  if counts.any fun c => c.1 = key then counts.map fun c => if c.1 = key then (c.1, c.2 + 1) else c
  else counts ++ [(key, 1)]

def tally (key : α → κ) (items : List α) : List (κ × Nat) :=
  items.foldl (fun counts x => countOne counts (key x)) []

theorem countBy_append (key : α → κ) (xs ys : List α) (k : κ) :
    countBy key (xs ++ ys) k = countBy key xs k + countBy key ys k :=
  List.countP_append

theorem countBy_concat (key : α → κ) (xs : List α) (x : α) :
    countBy key (xs ++ [x]) = bump (countBy key xs) (key x) := by
  funext k
  rw [countBy_append]
  by_cases h : k = key x
  · simp [bump, countBy, h]
  · simp [bump, countBy, h, Ne.symm h]

end

/-! ## Admission -/

/-- `xs` was taken on one after the other over `base`, each while `ok` held of what was there. -/
inductive Admitted (ok : List α → α → Prop) (base : List α) : List α → Prop where
  | nil : Admitted ok base []
  | concat {xs : List α} {x : α} : Admitted ok base xs → ok (base ++ xs) x → Admitted ok base (xs ++ [x])

namespace Admitted

variable {ok ok' : List α → α → Prop} {base xs : List α}

theorem mono (h : Admitted ok base xs) (himp : ∀ ys x, ok ys x → ok' ys x) : Admitted ok' base xs := by
  induction h with
  | nil => exact .nil
  | concat _ hx ih => exact .concat ih (himp _ _ hx)

theorem countBy_le [DecidableEq κ] (key : α → κ) (cap : κ → Int)
    (h : Admitted (fun ys x => (countBy key ys (key x) : Int) < cap (key x)) base xs) (k : κ) :
    (countBy key (base ++ xs) k : Int) ≤ max (cap k) (countBy key base k) := by
  induction h with
  | nil =>
    rw [List.append_nil]
    exact le_max_right _ _
  | @concat ys x _ hx ih =>
    rw [← List.append_assoc, countBy_concat]
    by_cases hk : k = key x
    · have : (countBy key (base ++ ys) (key x) : Int) + 1 ≤ cap (key x) := hx
      subst hk
      simp only [bump, if_true]
      exact le_trans (by push_cast; exact this) (le_max_left _ _)
    · simpa only [bump, if_neg hk] using ih

theorem length_le {cap : Int} (h : Admitted (fun ys _ => (ys.length : Int) < cap) base xs) :
    ((base ++ xs).length : Int) ≤ max cap base.length := by
  have hcount : (countBy (fun _ => ()) (base ++ xs) () : Int) ≤ max cap (countBy (fun _ => ()) base ()) :=
    countBy_le (fun _ => ()) (fun _ => cap) (by simpa [countBy] using h) ()
  simpa [countBy] using hcount

theorem fresh (key : α → κ) (h : Admitted (fun ys x => ∀ y ∈ ys, key y ≠ key x) base xs) :
    (∀ b ∈ base, ∀ x ∈ xs, key b ≠ key x) ∧ xs.Pairwise fun x y => key x ≠ key y := by
  induction h with
  | nil => exact ⟨by simp, List.Pairwise.nil⟩
  | @concat ys x _ hx ih =>
    refine ⟨fun b hb y hy => ?_, ?_⟩
    · rcases List.mem_append.mp hy with hy | hy
      · exact ih.1 b hb y hy
      · obtain rfl := List.mem_singleton.mp hy
        exact hx b (List.mem_append_left _ hb)
    · rw [List.pairwise_append]
      refine ⟨ih.2, List.pairwise_singleton _ _, fun y hy z hz => ?_⟩
      obtain rfl := List.mem_singleton.mp hz
      exact hx y (List.mem_append_right _ hy)

end Admitted

end NeonDiff.Lib
