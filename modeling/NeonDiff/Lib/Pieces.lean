import Mathlib.Data.List.Infix

/-! # Lists cut into consecutive pieces

`packed` takes items into a piece for as long as the piece fits. Where a piece that fits fits without its ends, no cut
of the list into pieces that fit is into fewer.
-/

namespace NeonDiff.Lib.Pieces

universe u

variable {α : Type u}

/-- The pieces of `todo`, behind the items that the piece at work holds. -/
def packed (fits : List α → Bool) (current : List α) : List α → List (List α)
  | [] => if current = [] then [] else [current]
  | x :: rest =>
    if current ≠ [] && !fits (current ++ [x]) then current :: packed fits [x] rest
    else packed fits (current ++ [x]) rest

variable {fits : List α → Bool}

theorem packed_flatten (current todo : List α) : (packed fits current todo).flatten = current ++ todo := by
  induction todo generalizing current with
  | nil =>
    unfold packed
    split
    · rename_i hnil
      rw [hnil]
      rfl
    · simp
  | cons x rest ih =>
    unfold packed
    split
    · rw [List.flatten_cons, ih]
      rfl
    · rw [ih, List.append_assoc]
      rfl

theorem ne_nil_of_mem_packed (current todo : List α) : ∀ piece ∈ packed fits current todo, piece ≠ [] := by
  induction todo generalizing current with
  | nil =>
    intro piece hpiece
    unfold packed at hpiece
    split at hpiece
    · cases hpiece
    · rename_i hne
      rw [List.mem_singleton.mp hpiece]
      exact hne
  | cons x rest ih =>
    intro piece hpiece
    unfold packed at hpiece
    split at hpiece
    · rename_i hcut
      rcases List.mem_cons.mp hpiece with rfl | hpiece
      · rw [Bool.and_eq_true, decide_eq_true_eq] at hcut
        exact hcut.1
      · exact ih [x] piece hpiece
    · exact ih (current ++ [x]) piece hpiece

theorem fits_of_mem_packed (current todo : List α) (hcurrent : current ≠ [] → fits current = true)
    (halone : ∀ x ∈ todo, fits [x] = true) : ∀ piece ∈ packed fits current todo, fits piece = true := by
  induction todo generalizing current with
  | nil =>
    intro piece hpiece
    unfold packed at hpiece
    split at hpiece
    · cases hpiece
    · rename_i hne
      rw [List.mem_singleton.mp hpiece]
      exact hcurrent hne
  | cons x rest ih =>
    have hx := halone x List.mem_cons_self
    have hrest := fun y hy => halone y (List.mem_cons_of_mem x hy)
    intro piece hpiece
    unfold packed at hpiece
    split at hpiece
    · rename_i hcut
      rw [Bool.and_eq_true, decide_eq_true_eq] at hcut
      rcases List.mem_cons.mp hpiece with rfl | hpiece
      · exact hcurrent hcut.1
      · exact ih [x] (fun _ => hx) hrest piece hpiece
    · rename_i hcut
      refine ih (current ++ [x]) ?_ hrest piece hpiece
      intro _
      by_cases hnil : current = []
      · rw [hnil]
        exact hx
      · simpa [hnil] using hcut

/-! ## No cut into fewer pieces -/

def InfixClosed (fits : List α → Bool) : Prop := ∀ part whole, part <:+: whole → fits whole = true → fits part = true

theorem exists_pieces_of_append (hclosed : InfixClosed fits) (pieces : List (List α)) {dropped kept : List α}
    (hpieces : pieces.flatten = dropped ++ kept) (hfits : ∀ piece ∈ pieces, fits piece = true) :
    ∃ pieces' : List (List α), pieces'.flatten = kept ∧ pieces'.length ≤ pieces.length ∧ ∀ piece ∈ pieces', fits piece = true := by
  induction pieces generalizing dropped with
  | nil =>
    obtain ⟨-, rfl⟩ := List.append_eq_nil_iff.mp hpieces.symm
    exact ⟨[], rfl, le_rfl, nofun⟩
  | cons piece pieces ih =>
    have hrest := fun p hp => hfits p (List.mem_cons_of_mem piece hp)
    rw [List.flatten_cons] at hpieces
    rcases List.append_eq_append_iff.mp hpieces with ⟨more, rfl, hmore⟩ | ⟨part, rfl, hpart⟩
    · -- the first piece is dropped whole
      obtain ⟨pieces', hflatten, hlength, hfits'⟩ := ih hmore hrest
      exact ⟨pieces', hflatten, hlength.trans (Nat.le_succ _), hfits'⟩
    · -- the cut falls into the first piece
      refine ⟨part :: pieces, by rw [List.flatten_cons, hpart], le_rfl, ?_⟩
      intro p hp
      rcases List.mem_cons.mp hp with rfl | hp
      · exact hclosed _ _ (List.suffix_append dropped p).isInfix (hfits _ List.mem_cons_self)
      · exact hrest p hp

theorem length_packed_le (hclosed : InfixClosed fits) (todo : List α) {current : List α} {pieces : List (List α)}
    (hpieces : pieces.flatten = current ++ todo) (hfits : ∀ piece ∈ pieces, fits piece = true) :
    (packed fits current todo).length ≤ pieces.length := by
  induction todo generalizing current pieces with
  | nil =>
    unfold packed
    split
    · exact Nat.zero_le _
    · rename_i hne
      cases pieces with
      | nil => exact absurd (List.append_eq_nil_iff.mp hpieces.symm).1 hne
      | cons piece pieces => simp
  | cons x rest ih =>
    unfold packed
    split
    · rename_i hcut
      rw [Bool.and_eq_true, decide_eq_true_eq] at hcut
      cases pieces with
      | nil => exact absurd (List.append_eq_nil_iff.mp hpieces.symm).1 hcut.1
      | cons piece pieces =>
        -- the first piece is no longer than the one at work, since with the next item that one does not fit
        have hshort : ∃ more, current = piece ++ more ∧ pieces.flatten = more ++ x :: rest := by
          rw [List.flatten_cons] at hpieces
          rcases List.append_eq_append_iff.mp hpieces with ⟨more, hcurrent, hmore⟩ | ⟨part, hpiece, hpart⟩
          · exact ⟨more, hcurrent, hmore⟩
          · cases part with
            | nil => exact ⟨[], by rw [hpiece, List.append_nil, List.append_nil], hpart.symm⟩
            | cons y part =>
              exfalso
              obtain ⟨rfl, -⟩ := List.cons.inj hpart
              have hfitting := hfits piece List.mem_cons_self
              rw [hpiece] at hfitting
              have hinfix : current ++ [x] <:+: current ++ x :: part := by
                rw [show current ++ x :: part = current ++ [x] ++ part by simp]
                exact (List.prefix_append _ _).isInfix
              have hpart := hclosed _ _ hinfix hfitting
              simp [hpart] at hcut
        obtain ⟨more, -, hmore⟩ := hshort
        obtain ⟨pieces', hflatten, hlength, hfits'⟩ :=
          exists_pieces_of_append hclosed pieces hmore fun p hp => hfits p (List.mem_cons_of_mem piece hp)
        have hrest := @ih [x] pieces' hflatten hfits'
        simp only [List.length_cons]
        omega
    · exact ih (by rw [hpieces, List.append_assoc]; rfl) hfits

end NeonDiff.Lib.Pieces
