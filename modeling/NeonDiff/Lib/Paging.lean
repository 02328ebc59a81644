import Mathlib.Data.List.Sort

/-! # Reading a listing page by page

A listing holds the entries of a collection, latest key first, and a reader takes it by offset while the
collection changes under it. `Passed` says that the offset passes over no entry below a bound that the reader
wants and has not got. Entries that come in at the bound or above keep it, and so does one that leaves from
behind the offset; one that leaves from before the offset does not.
-/

namespace NeonDiff.Lib.Paging

variable {α κ : Type} [LinearOrder κ] (key : α → κ)

def listing (l : List α) : List α := l.insertionSort fun a b => key b ≤ key a

/-- The entries of the listing from the offset on, `len` at most. -/
def page (offset len : Nat) (l : List α) : List α := ((listing key l).drop offset).take len

/-- Every entry below the bound that stands before the offset meets `seen`. -/
def Passed (bound : κ) (offset : Nat) (l : List α) (seen : α → Prop) : Prop :=
  ∀ x ∈ (listing key l).take offset, key x < bound → seen x

instance total_descending : Std.Total fun a b : α => key b ≤ key a := ⟨fun a b => le_total (key b) (key a)⟩

instance trans_descending : IsTrans α fun a b : α => key b ≤ key a := ⟨fun _ _ _ hab hbc => le_trans hbc hab⟩

variable {key} {b : κ} {l l' : List α} {seen : α → Prop} {offset len : Nat}

@[simp] theorem mem_listing {x : α} : x ∈ listing key l ↔ x ∈ l := List.mem_insertionSort _

@[simp] theorem length_listing : (listing key l).length = l.length := List.length_insertionSort _ l

theorem pairwise_listing (l : List α) : (listing key l).Pairwise fun a b => key b ≤ key a :=
  List.pairwise_insertionSort _ l

/-! ## The listing of a part -/

theorem filter_orderedInsert (q : α → Bool) (a : α) {s : List α} (hs : s.Pairwise fun a b => key b ≤ key a) :
    (s.orderedInsert (fun a b => key b ≤ key a) a).filter q =
      if q a then (s.filter q).orderedInsert (fun a b => key b ≤ key a) a else s.filter q := by
  induction s with
  | nil => cases hq : q a <;> simp [hq]
  | cons c s ih =>
    obtain ⟨hc, hs⟩ := List.pairwise_cons.mp hs
    by_cases hle : key c ≤ key a
    · rw [List.orderedInsert_cons, if_pos hle, List.filter_cons]
      split
      · -- all that is left of the sorted list stays after `a`
        have hall : ∀ d ∈ (c :: s).filter q, key d ≤ key a := by
          intro d hd
          rcases List.mem_cons.mp (List.mem_of_mem_filter hd) with rfl | hd
          · exact hle
          · exact le_trans (hc d hd) hle
        cases hf : (c :: s).filter q with
        | nil => rfl
        | cons d rest =>
          rw [hf] at hall
          rw [List.orderedInsert_cons, if_pos (hall d List.mem_cons_self)]
      · rfl
    · rw [List.orderedInsert_cons, if_neg hle, List.filter_cons, List.filter_cons, ih hs]
      cases hqa : q a <;> cases hqc : q c <;> simp [hle]

theorem listing_filter (q : α → Bool) (l : List α) : listing key (l.filter q) = (listing key l).filter q := by
  induction l with
  | nil => rfl
  | cons a l ih =>
    have hcons : listing key (a :: l) = (listing key l).orderedInsert (fun a b => key b ≤ key a) a := rfl
    rw [hcons, filter_orderedInsert q a (pairwise_listing l), ← ih, List.filter_cons]
    split <;> rfl

theorem sorted_eq_append (b : κ) {s : List α} (hs : s.Pairwise fun a b => key b ≤ key a) :
    s = (s.filter fun x => b ≤ key x) ++ s.filter fun x => key x < b := by
  induction s with
  | nil => rfl
  | cons c s ih =>
    obtain ⟨hc, hs⟩ := List.pairwise_cons.mp hs
    by_cases hb : b ≤ key c
    · have hnot : ¬key c < b := not_lt.mpr hb
      simp only [List.filter_cons, hb, hnot, decide_true, decide_false, if_true, Bool.false_eq_true, if_false,
        List.cons_append]
      rw [← ih hs]
    · have hlow : ∀ x ∈ c :: s, key x < b := by
        intro x hx
        rcases List.mem_cons.mp hx with rfl | hx
        · exact not_le.mp hb
        · exact lt_of_le_of_lt (hc x hx) (not_le.mp hb)
      rw [List.filter_eq_nil_iff.mpr, List.filter_eq_self.mpr, List.nil_append]
      · intro x hx
        simpa using hlow x hx
      · intro x hx
        simpa using hlow x hx

theorem listing_eq_append (b : κ) (l : List α) :
    listing key l = listing key (l.filter fun x => b ≤ key x) ++ listing key (l.filter fun x => key x < b) := by
  rw [listing_filter, listing_filter]
  exact sorted_eq_append b (pairwise_listing l)

/-! ## What the offset passes over -/

theorem passed_iff : Passed key b offset l seen ↔
    ∀ x ∈ (listing key (l.filter fun x => key x < b)).take (offset - (l.filter fun x => b ≤ key x).length),
      seen x := by
  unfold Passed
  rw [listing_eq_append b l, List.take_append, length_listing]
  constructor
  · intro h x hx
    have hlow : key x < b := by
      have := List.mem_of_mem_take hx
      simp only [mem_listing, List.mem_filter, decide_eq_true_eq] at this
      exact this.2
    exact h x (List.mem_append_right _ hx) hlow
  · intro h x hx hlow
    rcases List.mem_append.mp hx with hx | hx
    · have := List.mem_of_mem_take hx
      simp only [mem_listing, List.mem_filter, decide_eq_true_eq] at this
      exact absurd this.2 (not_le.mpr hlow)
    · exact h x hx

theorem passed_zero : Passed key b 0 l seen := by
  intro x hx
  simp at hx

theorem Passed.mono {seen' : α → Prop} (h : Passed key b offset l seen) (himp : ∀ x, seen x → seen' x) :
    Passed key b offset l seen' :=
  fun x hx hlow => himp x (h x hx hlow)

theorem Passed.read (h : Passed key b offset l seen) (hpage : ∀ x ∈ page key offset len l, seen x) :
    Passed key b (offset + len) l seen := by
  intro x hx hlow
  rw [List.take_add, List.mem_append] at hx
  rcases hx with hx | hx
  · exact h x hx hlow
  · exact hpage x hx

theorem Passed.all (h : Passed key b (offset + len) l seen) (hshort : (page key offset len l).length < len) :
    ∀ x ∈ l, key x < b → seen x := by
  intro x hx hlow
  have hlen : (listing key l).length ≤ offset + len := by
    simp only [page, List.length_take, List.length_drop] at hshort
    omega
  exact h x (by rw [List.take_of_length_le hlen]; exact mem_listing.mpr hx) hlow

theorem take_filter_of_take (q : α → Bool) {s : List α} {j : Nat} (h : ∀ x ∈ s.take j, q x = true) :
    (s.filter q).take j = s.take j := by
  conv_lhs => rw [← List.take_append_drop j s]
  rw [List.filter_append, List.filter_eq_self.mpr h]
  by_cases hlen : j ≤ s.length
  · rw [List.take_append_of_le_length (by rw [List.length_take]; omega), List.take_take, Nat.min_self]
  · rw [List.drop_eq_nil_of_le (by omega), List.filter_nil, List.append_nil, List.take_take, Nat.min_self]

theorem mem_take_of_filter (q : α → Bool) {x : α} {s : List α} {j : Nat} (h : x ∈ (s.filter q).take j) :
    x ∈ s.take (j + (s.filter fun x => !q x).length) := by
  induction s generalizing j with
  | nil => simp at h
  | cons c s ih =>
    cases hq : q c with
    | true =>
      simp only [List.filter_cons, hq, if_true, Bool.not_true, Bool.false_eq_true, if_false] at h ⊢
      cases j with
      | zero => simp at h
      | succ j =>
        rw [List.take_succ_cons, List.mem_cons] at h
        rw [Nat.succ_add, List.take_succ_cons, List.mem_cons]
        exact h.imp_right ih
    | false =>
      simp only [List.filter_cons, hq, Bool.false_eq_true, if_false, Bool.not_false, if_true,
        List.length_cons] at h ⊢
      rw [← Nat.add_assoc, List.take_succ_cons]
      exact List.mem_cons_of_mem c (ih h)

/-- The entries outside `q` change, all of them at the bound or above afterwards, and they do not get fewer. -/
theorem Passed.raise (q : α → Bool) (h : Passed key b offset l seen) (hframe : l'.filter q = l.filter q)
    (hhigh : ∀ x ∈ l', q x = false → b ≤ key x)
    (hcount : (l.filter fun x => !q x).length ≤ (l'.filter fun x => !q x).length) :
    Passed key b offset l' seen := by
  rw [passed_iff] at h ⊢
  have hlow : (l'.filter fun x => key x < b) = (l.filter fun x => key x < b).filter q := by
    have hq : (l'.filter fun x => key x < b).filter q = l'.filter fun x => key x < b := by
      rw [List.filter_eq_self]
      intro x hx
      obtain ⟨hx, hlt⟩ := List.mem_filter.mp hx
      by_contra hneg
      exact absurd (hhigh x hx (Bool.eq_false_of_not_eq_true hneg)) (not_le.mpr (of_decide_eq_true hlt))
    rw [← hq, List.filter_comm q, hframe, ← List.filter_comm q]
  have hsplit : ∀ m : List α, (m.filter fun x => b ≤ key x).length =
      ((m.filter q).filter fun x => b ≤ key x).length +
        ((m.filter fun x => !q x).filter fun x => b ≤ key x).length := by
    intro m
    rw [← List.filter_comm q, ← List.filter_comm fun x => !q x]
    exact List.length_eq_length_filter_add q
  have hall : ((l'.filter fun x => !q x).filter fun x => b ≤ key x) = l'.filter fun x => !q x := by
    rw [List.filter_eq_self]
    intro x hx
    obtain ⟨hx, hq⟩ := List.mem_filter.mp hx
    exact decide_eq_true (hhigh x hx (by simpa using hq))
  -- the entries outside `q`, counted on both sides of the bound
  have hrest : (l.filter fun x => !q x).length =
      ((l.filter fun x => !q x).filter fun x => b ≤ key x).length +
        ((l.filter fun x => key x < b).filter fun x => !q x).length := by
    rw [List.filter_comm fun x => !q x]
    simp only [← not_le, decide_not]
    exact List.length_eq_length_filter_add fun x => decide (b ≤ key x)
  have hl := hsplit l
  have hl' := hsplit l'
  rw [hall, hframe] at hl'
  intro x hx
  have hpos : 0 < offset - (l'.filter fun x => b ≤ key x).length := by
    by_contra hzero
    rw [Nat.eq_zero_of_not_pos hzero] at hx
    simp at hx
  rw [hlow, listing_filter] at hx
  apply h x
  have hmem := mem_take_of_filter q hx
  rw [← listing_filter, length_listing] at hmem
  refine List.take_subset_take_left _ ?_ hmem
  omega

theorem Passed.leave (q : α → Bool) (h : Passed key b offset l seen)
    (hstay : ∀ x ∈ (listing key l).take offset, q x = true) : Passed key b offset (l.filter q) seen := by
  intro x hx hlow
  refine h x ?_ hlow
  rw [listing_filter] at hx
  have htake : ((listing key l).filter q).take offset = (listing key l).take offset := take_filter_of_take q hstay
  rwa [htake] at hx

end NeonDiff.Lib.Paging
