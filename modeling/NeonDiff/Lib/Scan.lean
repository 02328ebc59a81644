import Mathlib.Data.List.Nodup

/-! # Scans that take items or pass over them

A scan comes to the items of a list in order. It ends where `stops` holds of what it has taken, and passes over an
item where `skips` holds of what it has taken, the item and the items behind it.
-/

namespace NeonDiff.Lib

universe u

variable {α : Type u}

section
variable (stops : List α → Bool) (skips : List α → α → List α → Bool)

def scan (taken : List α) : List α → List α
  | [] => taken
  | x :: rest =>
    if stops taken then taken
    else if skips taken x rest then scan taken rest
    else scan (taken ++ [x]) rest

/-- The scan of `todo` comes to `rest` with `taken`. -/
inductive Scanned (todo : List α) : List α → List α → Prop where
  | start : Scanned todo [] todo
  | pass {taken : List α} {x : α} {rest : List α} (h : Scanned todo taken (x :: rest)) (hstops : stops taken = false)
      (hskips : skips taken x rest = true) : Scanned todo taken rest
  | take {taken : List α} {x : α} {rest : List α} (h : Scanned todo taken (x :: rest)) (hstops : stops taken = false)
      (hskips : skips taken x rest = false) : Scanned todo (taken ++ [x]) rest

/-- The scan takes the item it has come to. -/
def Takes (todo taken : List α) (x : α) (rest : List α) : Prop :=
  Scanned stops skips todo taken (x :: rest) ∧ stops taken = false ∧ skips taken x rest = false

end

variable {stops : List α → Bool} {skips skips' : List α → α → List α → Bool} {todo taken rest : List α} {x : α}

theorem scan_eq_of_scanned (h : Scanned stops skips todo taken rest) :
    scan stops skips taken rest = scan stops skips [] todo := by
  induction h with
  | start => rfl
  | pass h hstops hskips ih => rw [← ih, scan, hstops, if_neg Bool.false_ne_true, hskips, if_pos rfl]
  | take h hstops hskips ih =>
    rw [← ih]
    conv => rhs; rw [scan, hstops, if_neg Bool.false_ne_true, hskips, if_neg Bool.false_ne_true]

theorem Scanned.suffix (h : Scanned stops skips todo taken rest) : ∃ front, todo = front ++ rest := by
  induction h with
  | start => exact ⟨[], rfl⟩
  | @pass taken x rest h hstops hskips ih =>
    obtain ⟨front, hfront⟩ := ih
    exact ⟨front ++ [x], by rw [hfront, List.append_assoc, List.singleton_append]⟩
  | @take taken x rest h hstops hskips ih =>
    obtain ⟨front, hfront⟩ := ih
    exact ⟨front ++ [x], by rw [hfront, List.append_assoc, List.singleton_append]⟩

theorem scan_of_stops (h : stops taken = true) : scan stops skips taken todo = taken := by
  cases todo with
  | nil => rfl
  | cons x rest => rw [scan, if_pos h]

theorem scan_adds (stops : List α → Bool) (skips : List α → α → List α → Bool) (taken todo : List α) :
    ∃ more, scan stops skips taken todo = taken ++ more ∧ more.Sublist todo := by
  induction todo generalizing taken with
  | nil => exact ⟨[], (List.append_nil taken).symm, .slnil⟩
  | cons x rest ih =>
    rw [scan]
    split
    · exact ⟨[], (List.append_nil taken).symm, List.nil_sublist _⟩
    · split
      · obtain ⟨more, hmore, hsub⟩ := ih taken
        exact ⟨more, hmore, hsub.cons x⟩
      · obtain ⟨more, hmore, hsub⟩ := ih (taken ++ [x])
        refine ⟨x :: more, ?_, hsub.cons_cons x⟩
        rw [hmore, List.append_assoc, List.singleton_append]

theorem scan_extends (stops : List α → Bool) (skips : List α → α → List α → Bool) (taken todo : List α) :
    taken <+: scan stops skips taken todo := by
  obtain ⟨more, hmore, -⟩ := scan_adds stops skips taken todo
  exact ⟨more, hmore.symm⟩

theorem scan_sublist (stops : List α → Bool) (skips : List α → α → List α → Bool) (todo : List α) :
    (scan stops skips [] todo).Sublist todo := by
  obtain ⟨more, hmore, hsub⟩ := scan_adds stops skips [] todo
  rwa [hmore, List.nil_append]

theorem Takes.stays (h : Takes stops skips todo taken x rest) : taken ++ [x] <+: scan stops skips [] todo := by
  rw [← scan_eq_of_scanned (.take h.1 h.2.1 h.2.2)]
  exact scan_extends stops skips (taken ++ [x]) rest

theorem takes_of_scan {before after : List α} (h : scan stops skips [] todo = before ++ x :: after) :
    ∃ rest, Takes stops skips todo before x rest := by
  have key : ∀ todo' taken, Scanned stops skips todo taken todo' → taken.length ≤ before.length →
      scan stops skips taken todo' = before ++ x :: after → ∃ rest, Takes stops skips todo before x rest := by
    intro todo'
    induction todo' with
    | nil =>
      intro taken _ hlength hscan
      have hlong := congrArg List.length hscan
      simp only [scan, List.length_append, List.length_cons] at hlong
      omega
    | cons y rest ih =>
      intro taken hscanned hlength hscan
      rw [scan] at hscan
      split at hscan
      · have hlong := congrArg List.length hscan
        simp only [List.length_append, List.length_cons] at hlong
        omega
      · rename_i hstops
        rw [Bool.not_eq_true] at hstops
        split at hscan
        · rename_i hskips
          exact ih taken (.pass hscanned hstops hskips) hlength hscan
        · rename_i hskips
          rw [Bool.not_eq_true] at hskips
          have hnext := Scanned.take hscanned hstops hskips
          by_cases hlt : taken.length < before.length
          · apply ih _ hnext _ hscan
            rw [List.length_append, List.length_singleton]
            omega
          · -- the item comes right behind what was taken
            obtain ⟨more, hmore⟩ := scan_extends stops skips (taken ++ [y]) rest
            rw [hscan, List.append_assoc, List.singleton_append] at hmore
            obtain ⟨rfl, hcons⟩ := List.append_inj hmore (by omega)
            obtain ⟨rfl, -⟩ := List.cons.inj hcons
            exact ⟨rest, hscanned, hstops, hskips⟩
  exact key todo [] .start (Nat.zero_le _) h

theorem Scanned.transfer (h : Scanned stops skips todo taken rest)
    (hpass : ∀ taken x rest, Scanned stops skips' todo taken (x :: rest) → stops taken = false →
      skips taken x rest = skips' taken x rest) : Scanned stops skips' todo taken rest := by
  induction h with
  | start => exact .start
  | pass h hstops hskips ih => exact .pass ih hstops ((hpass _ _ _ ih hstops).symm.trans hskips)
  | take h hstops hskips ih => exact .take ih hstops ((hpass _ _ _ ih hstops).symm.trans hskips)

/-! ## When two scans take the same -/

theorem scan_ne_of_skips (hnodup : todo.Nodup) (h : Scanned stops skips todo taken (x :: rest))
    (h' : Scanned stops skips' todo taken (x :: rest)) (hstops : stops taken = false)
    (hpass : skips taken x rest = true) (htake : skips' taken x rest = false) :
    scan stops skips [] todo ≠ scan stops skips' [] todo := by
  intro heq
  obtain ⟨front, hfront⟩ := h.suffix
  have hfresh : x ∉ rest := by
    rw [hfront] at hnodup
    exact (List.nodup_cons.mp (List.nodup_append.mp hnodup).2.1).1
  obtain ⟨more, hmore, hsub⟩ := scan_adds stops skips taken rest
  have htaken : taken ++ [x] <+: taken ++ more := by
    rw [← hmore, scan_eq_of_scanned (.pass h hstops hpass), heq]
    exact Takes.stays ⟨h', hstops, htake⟩
  have hmem : x ∈ more := ((List.prefix_append_right_inj taken).mp htaken).subset List.mem_cons_self
  exact hfresh (hsub.subset hmem)

theorem scan_congr
    (hsame : ∀ taken x rest, Scanned stops skips todo taken (x :: rest) → stops taken = false →
      skips taken x rest = skips' taken x rest) : scan stops skips [] todo = scan stops skips' [] todo := by
  have key : ∀ rest taken, Scanned stops skips todo taken rest →
      scan stops skips taken rest = scan stops skips' taken rest := by
    intro rest
    induction rest with
    | nil => exact fun _ _ => rfl
    | cons x rest ih =>
      intro taken h
      rw [scan, scan]
      cases hstops : stops taken with
      | true => rfl
      | false =>
        rw [if_neg Bool.false_ne_true, if_neg Bool.false_ne_true, ← hsame taken x rest h hstops]
        cases hskips : skips taken x rest with
        | true => exact ih taken (.pass h hstops hskips)
        | false => exact ih (taken ++ [x]) (.take h hstops hskips)
  exact key todo [] .start

/-- Two scans of distinct items take the same just when they test alike wherever the first one comes to. -/
theorem scan_eq_iff (hnodup : todo.Nodup) :
    scan stops skips [] todo = scan stops skips' [] todo ↔
      ∀ taken x rest, Scanned stops skips todo taken (x :: rest) → stops taken = false →
        skips taken x rest = skips' taken x rest := by
  refine ⟨fun heq => ?_, scan_congr⟩
  have hstep : ∀ taken x rest, Scanned stops skips todo taken (x :: rest) →
      Scanned stops skips' todo taken (x :: rest) → stops taken = false →
      skips taken x rest = skips' taken x rest := by
    intro taken x rest h h' hstops
    cases hskips : skips taken x rest <;> cases hskips' : skips' taken x rest
    · rfl
    · exact absurd heq.symm (scan_ne_of_skips hnodup h' h hstops hskips' hskips)
    · exact absurd heq (scan_ne_of_skips hnodup h h' hstops hskips hskips')
    · rfl
  -- the second scan comes to every place that the first comes to
  have hreach : ∀ taken rest, Scanned stops skips todo taken rest → Scanned stops skips' todo taken rest := by
    intro taken rest h
    induction h with
    | start => exact .start
    | pass h hstops hskips ih => exact .pass ih hstops ((hstep _ _ _ h ih hstops).symm.trans hskips)
    | take h hstops hskips ih => exact .take ih hstops ((hstep _ _ _ h ih hstops).symm.trans hskips)
  intro taken x rest h hstops
  exact hstep taken x rest h (hreach taken (x :: rest) h) hstops

theorem Scanned.stops_start (h : Scanned stops skips todo taken rest) (hstop : stops taken = false) :
    stops [] = false := by
  have key : taken = [] ∨ stops [] = false := by
    induction h with
    | start => exact Or.inl rfl
    | pass _ hstops _ ih => exact ih hstops
    | take _ hstops _ ih =>
      obtain rfl | hfirst := ih hstops
      · exact Or.inr hstops
      · exact Or.inr hfirst
  obtain rfl | hfirst := key
  · exact hstop
  · exact hfirst

end NeonDiff.Lib
