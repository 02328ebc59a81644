import Mathlib.Data.List.Basic

/-! # Histories, newest first

`Each` states what every event of a history meets, given the events before it; `Unused` says that the latest issue
of a token was not used since.
-/

namespace NeonDiff.Lib

variable {ε : Type}

/-- Every event has `P` with the events before it. -/
def Each (P : ε → List ε → Prop) : List ε → Prop
  | [] => True
  | e :: older => P e older ∧ Each P older

variable {P Q : ε → List ε → Prop} {e : ε} {newer older : List ε}

theorem Each.append_right (h : Each P (newer ++ older)) : Each P older := by
  induction newer with
  | nil => exact h
  | cons e newer ih => exact ih h.2

theorem Each.at (h : Each P (newer ++ e :: older)) : P e older := (h.append_right).1

/-! ## Tokens -/

section
variable (issues uses : ε → Prop)

def Unused : List ε → Prop
  | [] => False
  | e :: older => issues e ∨ (¬uses e ∧ Unused older)

end

variable {issues uses : ε → Prop}

theorem Unused.cons (h : Unused issues uses older) (he : ¬uses e) : Unused issues uses (e :: older) := Or.inr ⟨he, h⟩

theorem Unused.issued_between {mid : List ε} (h : Unused issues uses (mid ++ e :: older)) (huses : uses e)
    (hissues : ¬issues e) : ∃ i ∈ mid, issues i := by
  induction mid with
  | nil =>
    rcases h with h | ⟨h, -⟩
    · exact absurd h hissues
    · exact absurd huses h
  | cons m mid ih =>
    rcases h with h | ⟨-, h⟩
    · exact ⟨m, List.mem_cons_self, h⟩
    · obtain ⟨i, hi, hissue⟩ := ih h
      exact ⟨i, List.mem_cons_of_mem m hi, hissue⟩

end NeonDiff.Lib
