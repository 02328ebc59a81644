import Mathlib.Data.List.Nodup
import Mathlib.Data.List.Perm.Subperm

/-! # Greedy matching

Candidate pairs are tried in order, and one is taken when neither of its ends is in use. The taken pairs share no end,
no candidate is left that could still be taken, and each was the first of those that could.
-/

namespace NeonDiff.Lib.Matching

variable {α β γ : Type} [DecidableEq β] [DecidableEq γ] (left : α → β) (right : α → γ)

/-- What is taken of the candidates while the given ends are in use. -/
def choose (lefts : List β) (rights : List γ) : List α → List α
  | [] => []
  | x :: xs =>
    if left x ∈ lefts ∨ right x ∈ rights then choose lefts rights xs
    else x :: choose (lefts ++ [left x]) (rights ++ [right x]) xs

variable {left right} {lefts : List β} {rights : List γ} {l : List α}

theorem choose_swap : choose left right lefts rights l = choose right left rights lefts l := by
  induction l generalizing lefts rights with
  | nil => rfl
  | cons x xs ih =>
    unfold choose
    by_cases hused : left x ∈ lefts ∨ right x ∈ rights
    · rw [if_pos hused, if_pos hused.symm, ih]
    · rw [if_neg hused, if_neg fun h => hused h.symm, ih]

theorem choose_sublist : (choose left right lefts rights l).Sublist l := by
  induction l generalizing lefts rights with
  | nil => exact List.Sublist.refl _
  | cons x xs ih =>
    unfold choose
    split
    · exact ih.cons x
    · exact ih.cons_cons x

/-! ## No end is used twice -/

theorem left_notMem_of_mem_choose {x : α} (hx : x ∈ choose left right lefts rights l) : left x ∉ lefts := by
  induction l generalizing lefts rights with
  | nil => exact absurd hx List.not_mem_nil
  | cons y ys ih =>
    unfold choose at hx
    split at hx
    · exact ih hx
    · rename_i hfree
      obtain rfl | hx := List.mem_cons.mp hx
      · exact fun h => hfree (Or.inl h)
      · intro h
        exact ih hx (List.mem_append_left _ h)

theorem nodup_lefts (lefts : List β) (rights : List γ) (l : List α) :
    ((choose left right lefts rights l).map left).Nodup := by
  induction l generalizing lefts rights with
  | nil => exact List.nodup_nil
  | cons y ys ih =>
    unfold choose
    split
    · exact ih lefts rights
    · rw [List.map_cons, List.nodup_cons]
      refine ⟨?_, ih _ _⟩
      intro h
      obtain ⟨x, hx, heq⟩ := List.mem_map.mp h
      have hnew := left_notMem_of_mem_choose hx
      rw [heq] at hnew
      exact hnew (List.mem_append_right _ List.mem_cons_self)

theorem nodup_rights (lefts : List β) (rights : List γ) (l : List α) :
    ((choose left right lefts rights l).map right).Nodup := by
  rw [choose_swap]
  exact nodup_lefts rights lefts l

/-! ## Each is the first that could be taken -/

theorem choose_eq_append {before after : List α} {p : α}
    (h : choose left right lefts rights l = before ++ p :: after) :
    ∃ passed rest, l = passed ++ p :: rest ∧
      ∀ x ∈ passed, left x ∈ lefts ++ before.map left ∨ right x ∈ rights ++ before.map right := by
  induction l generalizing lefts rights before with
  | nil => exact absurd h (by simp [choose])
  | cons y ys ih =>
    unfold choose at h
    split at h
    · rename_i hused
      obtain ⟨passed, rest, rfl, hpassed⟩ := ih h
      refine ⟨y :: passed, rest, rfl, ?_⟩
      intro x hx
      obtain rfl | hx := List.mem_cons.mp hx
      · exact hused.imp (List.mem_append_left _) (List.mem_append_left _)
      · exact hpassed x hx
    · cases before with
      | nil =>
        obtain ⟨rfl, -⟩ := List.cons.inj h
        exact ⟨[], ys, rfl, fun x hx => absurd hx List.not_mem_nil⟩
      | cons b before =>
        rw [List.cons_append] at h
        obtain ⟨rfl, htail⟩ := List.cons.inj h
        obtain ⟨passed, rest, rfl, hpassed⟩ := ih htail
        refine ⟨y :: passed, rest, rfl, ?_⟩
        intro x hx
        obtain rfl | hx := List.mem_cons.mp hx
        · left
          rw [List.map_cons]
          exact List.mem_append_right _ List.mem_cons_self
        · have hx := hpassed x hx
          rwa [List.append_assoc, List.append_assoc] at hx

/-- Of ordered candidates, the taken one stands before every other that could be taken in its place. -/
theorem choose_first {r : α → α → Prop} (hself : ∀ x, r x x) (hsorted : l.Pairwise r) {before after : List α} {p x : α}
    (h : choose left right [] [] l = before ++ p :: after) (hx : x ∈ l) (hleft : left x ∉ before.map left)
    (hright : right x ∉ before.map right) : r p x := by
  obtain ⟨passed, rest, rfl, hpassed⟩ := choose_eq_append h
  rw [List.mem_append] at hx
  obtain hx | hx := hx
  · exact absurd (hpassed x hx) (not_or.mpr ⟨hleft, hright⟩)
  · obtain rfl | hx := List.mem_cons.mp hx
    · exact hself x
    · have hlater := (List.pairwise_append.mp hsorted).2.1
      exact List.rel_of_pairwise_cons hlater hx

/-! ## No more can be taken -/

theorem used_of_mem {x : α} (hx : x ∈ l) :
    left x ∈ lefts ++ (choose left right lefts rights l).map left ∨
      right x ∈ rights ++ (choose left right lefts rights l).map right := by
  induction l generalizing lefts rights with
  | nil => exact absurd hx List.not_mem_nil
  | cons y ys ih =>
    unfold choose
    split
    · rename_i hused
      obtain rfl | hx := List.mem_cons.mp hx
      · exact hused.imp (List.mem_append_left _) (List.mem_append_left _)
      · exact ih hx
    · rw [List.map_cons, List.map_cons]
      obtain rfl | hx := List.mem_cons.mp hx
      · exact Or.inl (List.mem_append_right _ List.mem_cons_self)
      · have hstep := @ih (lefts ++ [left y]) (rights ++ [right y]) hx
        rwa [List.append_assoc, List.append_assoc] at hstep

/-! ## What is taken and the rest -/

theorem append_rest_perm {δ κ : Type} [DecidableEq κ] (key : δ → κ) {items taken : List δ} (hitems : (items.map key).Nodup)
    (htaken : (taken.map key).Nodup) (hsub : taken ⊆ items) :
    (taken ++ items.filter fun a => decide (key a ∉ taken.map key)).Perm items := by
  rw [List.perm_ext_iff_of_nodup _ hitems.of_map]
  · intro a
    rw [List.mem_append, List.mem_filter, decide_eq_true_iff]
    constructor
    · rintro (ha | ⟨ha, -⟩)
      · exact hsub ha
      · exact ha
    · intro ha
      by_cases hkey : key a ∈ taken.map key
      · obtain ⟨b, hb, heq⟩ := List.mem_map.mp hkey
        have hab : b = a := List.inj_on_of_nodup_map hitems (hsub hb) ha heq
        exact Or.inl (hab ▸ hb)
      · exact Or.inr ⟨ha, hkey⟩
  · rw [List.nodup_append']
    refine ⟨htaken.of_map, hitems.of_map.filter _, ?_⟩
    intro a ha hrest
    have hkey := of_decide_eq_true (List.mem_filter.mp hrest).2
    exact hkey (List.mem_map_of_mem ha)

end NeonDiff.Lib.Matching
