import Mathlib.Data.List.Sort
import Mathlib.Data.List.TakeWhile

/-! # Ranked selection

A ranked list is taken from the top: an item that an earlier kept one stands for is passed over. Leaving items
out before the ranking changes what is kept only when a kept item is among them.
-/

namespace NeonDiff.Lib.Ranking

universe u

variable {α : Type u}

/-! ## The order of a comparison -/

theorem transCmp_comap {β : Type} (cmp : β → β → Ordering) [Std.TransCmp cmp] (f : α → β) :
    Std.TransCmp fun a b => cmp (f a) (f b) where
  eq_swap := Std.OrientedCmp.eq_swap
  isLE_trans := Std.TransCmp.isLE_trans

/-- The item may stand before the other. -/
def before (cmp : α → α → Ordering) (a b : α) : Prop := (cmp a b).isLE = true

instance (cmp : α → α → Ordering) : DecidableRel (before cmp) := fun _ _ => inferInstanceAs (Decidable (_ = true))

section
variable (cmp : α → α → Ordering)

instance [Std.TransCmp cmp] : IsTrans α (before cmp) where
  trans _ _ _ := Std.TransCmp.isLE_trans

instance [Std.OrientedCmp cmp] : Std.Total (before cmp) where
  total a b := by
    unfold before
    rw [@Std.OrientedCmp.eq_swap _ cmp _ b a]
    cases cmp a b
    · exact Or.inl rfl
    · exact Or.inl rfl
    · exact Or.inr rfl

end

/-! ## Sorting what is left -/

section
variable (r : α → α → Prop) [DecidableRel r]

theorem orderedInsert_filter [IsTrans α r] (p : α → Bool) {a : α} (ha : p a = true) {l : List α} (hl : l.Pairwise r) :
    (l.filter p).orderedInsert r a = (l.orderedInsert r a).filter p := by
  induction l with
  | nil => simp [ha]
  | cons b l ih =>
    obtain ⟨hb, hl⟩ := List.pairwise_cons.mp hl
    by_cases hab : r a b
    · rw [List.orderedInsert_cons_of_le r l hab, List.filter_cons_of_pos ha]
      have hfirst : ∀ c ∈ (b :: l).filter p, r a c := by
        intro c hc
        obtain rfl | hc := List.mem_cons.mp (List.mem_of_mem_filter hc)
        · exact hab
        · exact IsTrans.trans a b c hab (hb c hc)
      cases hfl : (b :: l).filter p with
      | nil => rfl
      | cons c rest => exact List.orderedInsert_cons_of_le r rest (hfirst c (hfl ▸ List.mem_cons_self))
    · rw [List.orderedInsert_of_not_le r l hab]
      cases hpb : p b with
      | true =>
        rw [List.filter_cons_of_pos hpb, List.filter_cons_of_pos hpb, List.orderedInsert_of_not_le r _ hab, ih hl]
      | false =>
        rw [List.filter_cons_of_neg (by simp [hpb]), List.filter_cons_of_neg (by simp [hpb]), ih hl]

theorem insertionSort_filter [Std.Total r] [IsTrans α r] (p : α → Bool) (l : List α) :
    (l.filter p).insertionSort r = (l.insertionSort r).filter p := by
  induction l with
  | nil => rfl
  | cons a l ih =>
    have hsorted := List.pairwise_insertionSort r l
    rw [List.insertionSort_cons]
    cases ha : p a with
    | true => rw [List.filter_cons_of_pos ha, List.insertionSort_cons, ih, orderedInsert_filter r p ha hsorted]
    | false =>
      rw [List.filter_cons_of_neg (by simp [ha]), ih, List.orderedInsert_eq_take_drop, List.filter_append,
        List.filter_cons_of_neg (by simp [ha]), ← List.filter_append, List.takeWhile_append_dropWhile]

/-! ## A stable sort keeps ties in order, and nothing else counts -/

/-- Where a test holds only of items that may stand in any order, the sort leaves them as they were. -/
theorem insertionSort_filter_of_unordered [Std.Total r] [IsTrans α r] {p : α → Bool}
    (h : ∀ a b, p a = true → p b = true → r a b) (l : List α) : (l.insertionSort r).filter p = l.filter p := by
  rw [← insertionSort_filter]
  refine List.Pairwise.insertionSort_eq (List.pairwise_of_forall_mem_list ?_)
  intro a ha b hb
  exact h a b (List.of_mem_filter ha) (List.of_mem_filter hb)

/-- Either may stand before the other. -/
def ties (a b : α) : Bool := decide (r a b) && decide (r b a)

theorem ties_iff {a b : α} : ties r a b = true ↔ r a b ∧ r b a := by simp [ties]

theorem ties_self [Std.Total r] (a : α) : ties r a a = true :=
  (ties_iff r).mpr ⟨(Std.Total.total a a).elim id id, (Std.Total.total a a).elim id id⟩

theorem mem_of_filter_ties_eq [Std.Total r] {l l' : List α}
    (h : ∀ x, l.filter (ties r x) = l'.filter (ties r x)) {a : α} (ha : a ∈ l) : a ∈ l' := by
  have hmem : a ∈ l'.filter (ties r a) := h a ▸ List.mem_filter.mpr ⟨ha, ties_self r a⟩
  exact List.mem_of_mem_filter hmem

theorem sorted_eq_of_ties [Std.Total r] {l l' : List α} (hl : l.Pairwise r) (hl' : l'.Pairwise r)
    (h : ∀ x, l.filter (ties r x) = l'.filter (ties r x)) : l = l' := by
  induction l generalizing l' with
  | nil =>
    refine (List.eq_nil_iff_forall_not_mem.mpr fun a ha => ?_).symm
    exact List.not_mem_nil (mem_of_filter_ties_eq r (fun x => (h x).symm) ha)
  | cons a l ih =>
    cases l' with
    | nil => exact absurd (mem_of_filter_ties_eq r h List.mem_cons_self) List.not_mem_nil
    | cons b l' =>
      obtain ⟨ha, hl⟩ := List.pairwise_cons.mp hl
      obtain ⟨hb, htail'⟩ := List.pairwise_cons.mp hl'
      have hfirst : ∀ {c d : α} {t : List α}, (∀ x ∈ t, r c x) → d ∈ c :: t → r c d := by
        intro c d t hc hd
        obtain rfl | hd := List.mem_cons.mp hd
        · exact ((ties_iff r).mp (ties_self r d)).1
        · exact hc d hd
      have hab : r a b := hfirst ha (mem_of_filter_ties_eq r (fun x => (h x).symm) List.mem_cons_self)
      have hba : r b a := hfirst hb (mem_of_filter_ties_eq r h List.mem_cons_self)
      have hheads := h a
      rw [List.filter_cons_of_pos (ties_self r a), List.filter_cons_of_pos ((ties_iff r).mpr ⟨hab, hba⟩)] at hheads
      obtain ⟨rfl, htail⟩ := List.cons.inj hheads
      congr 1
      refine ih hl htail' fun x => ?_
      have hx := h x
      cases hxa : ties r x a with
      | true =>
        rw [List.filter_cons_of_pos hxa, List.filter_cons_of_pos hxa] at hx
        exact (List.cons.inj hx).2
      | false =>
        rw [List.filter_cons_of_neg (by simp [hxa]), List.filter_cons_of_neg (by simp [hxa])] at hx
        exact hx

theorem insertionSort_eq_of_ties [Std.Total r] [IsTrans α r] {l l' : List α}
    (h : ∀ x, l.filter (ties r x) = l'.filter (ties r x)) : l.insertionSort r = l'.insertionSort r := by
  have hkeep : ∀ (l : List α) (x : α), (l.insertionSort r).filter (ties r x) = l.filter (ties r x) := by
    intro l x
    refine insertionSort_filter_of_unordered r (fun a b ha hb => ?_) l
    exact IsTrans.trans a x b ((ties_iff r).mp ha).2 ((ties_iff r).mp hb).1
  refine sorted_eq_of_ties r (List.pairwise_insertionSort r l) (List.pairwise_insertionSort r l') fun x => ?_
  rw [hkeep, hkeep, h]

theorem insertionSort_congr {r' : α → α → Prop} [DecidableRel r'] {l : List α}
    (h : ∀ a ∈ l, ∀ b ∈ l, r a b ↔ r' a b) : l.insertionSort r = l.insertionSort r' := by
  have hmap := List.map_insertionSort r r' id l h
  rwa [List.map_id, List.map_id] at hmap

end

/-! ## Keeping the first of each kind -/

variable (same : α → α → Bool)

/-- What is kept of a list over what is there already: an item is passed over when a kept one stands for it. -/
def keepFirst : List α → List α → List α
  | kept, [] => kept
  | kept, x :: xs => if kept.any fun k => same k x then keepFirst kept xs else keepFirst (kept ++ [x]) xs

variable {same}

theorem keepFirst_eq_append (same : α → α → Bool) (kept l : List α) : ∃ rest, keepFirst same kept l = kept ++ rest ∧ rest ⊆ l := by
  induction l generalizing kept with
  | nil => exact ⟨[], by simp [keepFirst]⟩
  | cons x xs ih =>
    unfold keepFirst
    split
    · obtain ⟨rest, hrest, hsub⟩ := ih kept
      exact ⟨rest, hrest, fun y hy => List.mem_cons_of_mem x (hsub hy)⟩
    · obtain ⟨rest, hrest, hsub⟩ := ih (kept ++ [x])
      refine ⟨x :: rest, by simp [hrest], ?_⟩
      intro y hy
      obtain rfl | hy := List.mem_cons.mp hy
      · exact List.mem_cons_self
      · exact List.mem_cons_of_mem x (hsub hy)

theorem keepFirst_subset (l : List α) : keepFirst same [] l ⊆ l := by
  obtain ⟨rest, hrest, hsub⟩ := keepFirst_eq_append same [] l
  rw [hrest, List.nil_append]
  exact hsub

theorem take_keepFirst {n : Nat} {kept : List α} (h : n ≤ kept.length) (l : List α) :
    (keepFirst same kept l).take n = kept.take n := by
  obtain ⟨rest, hrest, -⟩ := keepFirst_eq_append same kept l
  rw [hrest, List.take_append_of_le_length h]

theorem keepFirst_append (kept l l' : List α) :
    keepFirst same kept (l ++ l') = keepFirst same (keepFirst same kept l) l' := by
  induction l generalizing kept with
  | nil => rfl
  | cons x xs ih =>
    rw [List.cons_append, keepFirst, keepFirst]
    split
    · exact ih kept
    · exact ih (kept ++ [x])

theorem exists_eq_takeWhile_append [DecidableEq α] {l : List α} {x : α} (hx : x ∈ l) :
    ∃ rest, l = l.takeWhile (· ≠ x) ++ x :: rest := by
  induction l with
  | nil => cases hx
  | cons y ys ih =>
    by_cases hy : y = x
    · subst hy
      exact ⟨ys, by simp⟩
    · obtain ⟨rest, hrest⟩ := ih ((List.mem_cons.mp hx).resolve_left (Ne.symm hy))
      refine ⟨rest, ?_⟩
      rw [List.takeWhile_cons_of_pos (by simpa using hy), List.cons_append, ← hrest]

theorem mem_take_keepFirst_iff [DecidableEq α] {l : List α} {x : α} (hx : x ∈ l) (halone : ∀ k, same k x = false)
    (n : Nat) : x ∈ (keepFirst same [] l).take n ↔ (keepFirst same [] (l.takeWhile (· ≠ x))).length < n := by
  obtain ⟨rest, hrest⟩ := exists_eq_takeWhile_append hx
  have hfresh : x ∉ keepFirst same [] (l.takeWhile (· ≠ x)) := by
    intro hmem
    have hne := List.mem_takeWhile_imp (keepFirst_subset _ hmem)
    simp at hne
  have hkeep : ∀ kept : List α, keepFirst same kept (x :: rest) = keepFirst same (kept ++ [x]) rest := by
    intro kept
    have hnone : (kept.any fun k => same k x) = false := by simp [halone]
    rw [keepFirst, hnone]
    rfl
  obtain ⟨more, hmore, -⟩ := keepFirst_eq_append same (keepFirst same [] (l.takeWhile (· ≠ x)) ++ [x]) rest
  conv => lhs; rw [hrest, keepFirst_append, hkeep, hmore, List.append_assoc]
  rw [List.take_append, List.mem_append]
  constructor
  · rintro (hmem | hmem)
    · exact absurd (List.mem_of_mem_take hmem) hfresh
    · by_contra hle
      rw [Nat.sub_eq_zero_of_le (by omega)] at hmem
      cases hmem
  · intro hlt
    right
    obtain ⟨k, hk⟩ := Nat.exists_eq_succ_of_ne_zero (Nat.sub_ne_zero_of_lt hlt)
    rw [hk]
    exact List.mem_cons_self

/-- Leaving items out changes nothing among the first `n` kept when none of those is left out. -/
theorem take_keepFirst_filter (p : α → Bool) (n : Nat) {kept l : List α}
    (h : ∀ x ∈ ((keepFirst same kept l).take n).drop kept.length, p x = true) :
    (keepFirst same kept (l.filter p)).take n = (keepFirst same kept l).take n := by
  induction l generalizing kept with
  | nil => rfl
  | cons x xs ih =>
    by_cases hroom : n ≤ kept.length
    · rw [take_keepFirst hroom, take_keepFirst hroom]
    · cases hdup : kept.any fun k => same k x with
      | true =>
        have hskip : ∀ ys, keepFirst same kept (x :: ys) = keepFirst same kept ys := by
          intro ys
          rw [keepFirst, if_pos hdup]
        rw [hskip] at h ⊢
        cases hp : p x with
        | true => rw [List.filter_cons_of_pos hp, hskip, ih h]
        | false => rw [List.filter_cons_of_neg (by simp [hp]), ih h]
      | false =>
        have htake : ∀ ys, keepFirst same kept (x :: ys) = keepFirst same (kept ++ [x]) ys := by
          intro ys
          rw [keepFirst, if_neg (by simp [hdup])]
        obtain ⟨rest, hrest, -⟩ := keepFirst_eq_append same (kept ++ [x]) xs
        rw [htake] at h ⊢
        have hdrop : ((keepFirst same (kept ++ [x]) xs).take n).drop kept.length =
            x :: ((keepFirst same (kept ++ [x]) xs).take n).drop (kept ++ [x]).length := by
          have hlen : n - kept.length = n - (kept.length + 1) + 1 := by omega
          rw [hrest, List.append_assoc, List.take_append, List.take_of_length_le (by omega), List.drop_left,
            hlen]
          simp
        rw [hdrop] at h
        have hp : p x = true := h x List.mem_cons_self
        rw [List.filter_cons_of_pos hp, htake]
        exact ih fun y hy => h y (List.mem_cons_of_mem x hy)

/-! ## What is passed over -/

/-- The items that a kept one stands for. -/
def passedOver (same : α → α → Bool) : List α → List α → List α
  | _, [] => []
  | kept, x :: xs =>
    if kept.any fun k => same k x then x :: passedOver same kept xs else passedOver same (kept ++ [x]) xs

theorem keepFirst_perm (same : α → α → Bool) (kept l : List α) :
    (keepFirst same kept l ++ passedOver same kept l).Perm (kept ++ l) := by
  induction l generalizing kept with
  | nil => simp [keepFirst, passedOver]
  | cons x xs ih =>
    unfold keepFirst passedOver
    split
    · have hmove : (keepFirst same kept xs ++ x :: passedOver same kept xs).Perm
          (x :: (keepFirst same kept xs ++ passedOver same kept xs)) := List.perm_middle
      have hback : (kept ++ x :: xs).Perm (x :: (kept ++ xs)) := List.perm_middle
      exact hmove.trans (((ih kept).cons x).trans hback.symm)
    · have hstep := ih (kept ++ [x])
      rwa [List.append_assoc, List.singleton_append] at hstep

theorem keepFirst_sublist (same : α → α → Bool) (kept l : List α) : (keepFirst same kept l).Sublist (kept ++ l) := by
  induction l generalizing kept with
  | nil => simp [keepFirst]
  | cons x xs ih =>
    unfold keepFirst
    split
    · exact (ih kept).trans ((List.sublist_cons_self x xs).append_left kept)
    · have hstep := ih (kept ++ [x])
      rwa [List.append_assoc, List.singleton_append] at hstep

theorem keepFirst_pairwise {kept : List α} (l : List α) (h : kept.Pairwise fun a b => same a b = false) :
    (keepFirst same kept l).Pairwise fun a b => same a b = false := by
  induction l generalizing kept with
  | nil => exact h
  | cons x xs ih =>
    unfold keepFirst
    split
    · exact ih h
    · rename_i hnew
      apply ih
      rw [List.pairwise_append]
      refine ⟨h, List.pairwise_singleton _ _, ?_⟩
      intro a ha b hb
      rw [List.mem_singleton.mp hb]
      simp only [Bool.not_eq_true, List.any_eq_false] at hnew
      exact hnew a ha

theorem mem_keepFirst_of_mem {kept l : List α} {x : α} (hx : x ∈ kept) : x ∈ keepFirst same kept l := by
  obtain ⟨rest, hrest, -⟩ := keepFirst_eq_append same kept l
  rw [hrest]
  exact List.mem_append_left rest hx

theorem exists_kept_of_passedOver {r : α → α → Prop} (kept : List α) {l : List α} (hsorted : (kept ++ l).Pairwise r) {x : α}
    (hx : x ∈ passedOver same kept l) : ∃ k ∈ keepFirst same kept l, r k x ∧ same k x = true := by
  induction l generalizing kept with
  | nil => simp [passedOver] at hx
  | cons y ys ih =>
    unfold passedOver at hx
    unfold keepFirst
    split at hx
    · rename_i hdup
      rw [if_pos hdup]
      obtain rfl | hx := List.mem_cons.mp hx
      · obtain ⟨k, hk, hsame⟩ := List.any_eq_true.mp hdup
        have hrel := (List.pairwise_append.mp hsorted).2.2 k hk x List.mem_cons_self
        exact ⟨k, mem_keepFirst_of_mem hk, hrel, hsame⟩
      · exact ih _ (hsorted.sublist ((List.sublist_cons_self y ys).append_left kept)) hx
    · rename_i hnew
      rw [if_neg hnew]
      apply ih _ _ hx
      rwa [List.append_assoc, List.singleton_append]

end NeonDiff.Lib.Ranking
