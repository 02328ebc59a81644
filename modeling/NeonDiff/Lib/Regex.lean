import Mathlib.Data.List.Basic

/-! # Regular expressions with backtracking

What an expression comes to at a place of a text is the list of the places it can end at, in the order in which
backtracking tries them.
-/

namespace NeonDiff.Lib

universe u

inductive Regex (α : Type u) where
  | empty
  | set (p : α → Bool)
  | cat (r s : Regex α)
  | alt (r s : Regex α)
  /-- As often as possible; a repetition that takes nothing ends it. -/
  | star (r : Regex α)
  /-- A condition on the text before (read back) and behind. -/
  | look (p : List α → List α → Bool)
  | group (n : Nat) (r : Regex α)

/-- A place of a text, and the groups taken on the way there, the latest first. -/
structure Regex.Place (α : Type u) where
  before : List α
  after : List α
  groups : List (Nat × List α)
  deriving DecidableEq, Repr

namespace Regex

variable {α : Type u} {i j k : Place α} {r s : Regex α} {p : α → Bool}

namespace Place

/-- The place behind `taken`, with `rest` to come. -/
def past (i : Place α) (taken rest : List α) : Place α :=
  { i with before := taken.reverse ++ i.before, after := rest }

def between (i j : Place α) : List α := i.after.take (i.after.length - j.after.length)

/-- The first text of group `n`. -/
def capture (i : Place α) (n : Nat) : Option (List α) := i.groups.lookup n

def start (text : List α) : Place α := ⟨[], text, []⟩

@[simp]
theorem past_after (i : Place α) (taken rest : List α) : (i.past taken rest).after = rest := rfl
@[simp]
theorem past_groups (i : Place α) (taken rest : List α) : (i.past taken rest).groups = i.groups := rfl
@[simp]
theorem past_before (i : Place α) (taken rest : List α) : (i.past taken rest).before = taken.reverse ++ i.before := rfl

@[simp]
theorem past_past (i : Place α) (taken more mid rest : List α) :
    (i.past taken mid).past more rest = i.past (taken ++ more) rest := by
  simp [past]

theorem past_nil (i : Place α) : i.past [] i.after = i := rfl

end Place

/-- The places that up to `n` repetitions of `step` come to, the most repetitions first. -/
def repeated (step : Place α → List (Place α)) : Nat → Place α → List (Place α)
  | 0, i => [i]
  | n + 1, i => ((step i).filter fun j => j.after.length < i.after.length).flatMap (repeated step n) ++ [i]

def results : Regex α → Place α → List (Place α)
  | .empty, i => [i]
  | .set p, i =>
    match i.after with
    | [] => []
    | c :: cs => if p c then [i.past [c] cs] else []
  | .cat r s, i => (results r i).flatMap (results s)
  | .alt r s, i => results r i ++ results s i
  | .star r, i => repeated (results r) i.after.length i
  | .look p, i => if p i.before i.after then [i] else []
  | .group n r, i => (results r i).map fun j => { j with groups := (n, i.between j) :: j.groups }

/-! ## Expressions made of others -/

def lit [BEq α] (c : α) : Regex α := .set (· == c)

/-- The text itself, up to the characters that `same` takes for one. -/
def textBy (same : α → α → Bool) : List α → Regex α
  | [] => .empty
  | c :: cs => .cat (.set (same c)) (textBy same cs)

/-- The expressions one behind the other. -/
def seq : List (Regex α) → Regex α
  | [] => .empty
  | r :: rs => .cat r (seq rs)

/-- The text itself. -/
def lits [BEq α] (cs : List α) : Regex α := seq (cs.map lit)

/-- `(?:a|b|…)`. -/
def oneOf : List (Regex α) → Regex α
  | [] => .look fun _ _ => false
  | [r] => r
  | r :: s :: rs => .alt r (oneOf (s :: rs))

/-- `r?`. -/
def opt (r : Regex α) : Regex α := .alt r .empty

/-- `r+`. -/
def plus (r : Regex α) : Regex α := .cat r (.star r)

/-- `r\x7b0,n\x7d`. -/
def upTo (r : Regex α) : Nat → Regex α
  | 0 => .empty
  | n + 1 => .alt (.cat r (upTo r n)) .empty

/-- `^`. -/
def atStart : Regex α := .look fun before _ => before.isEmpty

/-- `$`. -/
def atEnd : Regex α := .look fun _ after => after.isEmpty

/-! ## Searches -/

def placesFrom (before : List α) : List α → List (Place α)
  | [] => [⟨before, [], []⟩]
  | c :: cs => ⟨before, c :: cs, []⟩ :: placesFrom (c :: before) cs

/-- The first match: where it begins and where it ends. -/
def exec (r : Regex α) (text : List α) : Option (Place α × Place α) :=
  (placesFrom [] text).findSome? fun i => (results r i).head?.map fun j => (i, j)

def test (r : Regex α) (text : List α) : Bool := (placesFrom [] text).any fun i => !(results r i).isEmpty

/-! ## What the places are -/

@[simp]
theorem mem_results_empty : j ∈ results .empty i ↔ j = i := by simp [results]

@[simp]
theorem mem_results_cat : j ∈ results (.cat r s) i ↔ ∃ k ∈ results r i, j ∈ results s k := by
  simp [results]

@[simp]
theorem mem_results_alt : j ∈ results (.alt r s) i ↔ j ∈ results r i ∨ j ∈ results s i := by
  simp [results]

theorem mem_results_oneOf {rs : List (Regex α)} : j ∈ results (oneOf rs) i ↔ ∃ r ∈ rs, j ∈ results r i := by
  induction rs with
  | nil => simp [oneOf, results]
  | cons r rs ih =>
    cases rs with
    | nil => simp [oneOf]
    | cons s rs => rw [oneOf, mem_results_alt, ih]; simp

theorem mem_results_set : j ∈ results (.set p) i ↔ ∃ c cs, i.after = c :: cs ∧ p c = true ∧ j = i.past [c] cs := by
  unfold results
  cases hafter : i.after with
  | nil => simp
  | cons c cs =>
    dsimp only
    constructor
    · intro h
      by_cases hp : p c = true
      · rw [if_pos hp, List.mem_singleton] at h
        exact ⟨c, cs, rfl, hp, h⟩
      · rw [if_neg hp] at h
        cases h
    · rintro ⟨d, ds, hcons, hp, rfl⟩
      injection hcons with hc hcs
      subst hc hcs
      rw [if_pos hp]
      exact List.mem_singleton.mpr rfl

theorem mem_results_lit [BEq α] [LawfulBEq α] {c : α} :
    j ∈ results (lit c) i ↔ ∃ cs, i.after = c :: cs ∧ j = i.past [c] cs := by
  rw [lit, mem_results_set]
  constructor
  · rintro ⟨d, cs, hafter, hd, rfl⟩
    rw [beq_iff_eq] at hd
    subst hd
    exact ⟨cs, hafter, rfl⟩
  · rintro ⟨cs, hafter, rfl⟩
    exact ⟨c, cs, hafter, beq_self_eq_true c, rfl⟩

theorem mem_results_look {q : List α → List α → Bool} :
    j ∈ results (.look q) i ↔ q i.before i.after = true ∧ j = i := by
  unfold results
  by_cases h : q i.before i.after = true
  · simp [h]
  · simp [h]

@[simp]
theorem mem_results_atEnd : j ∈ results atEnd i ↔ i.after = [] ∧ j = i := by
  rw [atEnd, mem_results_look, List.isEmpty_iff]

@[simp]
theorem mem_results_atStart : j ∈ results atStart i ↔ i.before = [] ∧ j = i := by
  rw [atStart, mem_results_look, List.isEmpty_iff]

theorem repeated_set {n : Nat} (h : i.after.length ≤ n) :
    j ∈ repeated (results (.set p)) n i ↔
      ∃ taken rest, i.after = taken ++ rest ∧ (∀ c ∈ taken, p c = true) ∧ j = i.past taken rest := by
  induction n generalizing i with
  | zero =>
    have hnil : i.after = [] := List.length_eq_zero_iff.mp (by omega)
    have hpast := i.past_nil
    rw [hnil] at hpast
    rw [repeated, List.mem_singleton, hnil]
    constructor
    · rintro rfl
      exact ⟨[], [], rfl, by simp, hpast.symm⟩
    · rintro ⟨taken, rest, htext, -, rfl⟩
      obtain ⟨rfl, rfl⟩ := List.append_eq_nil_iff.mp htext.symm
      exact hpast
  | succ n ih =>
    rw [repeated, List.mem_append, List.mem_flatMap, List.mem_singleton]
    constructor
    · rintro (⟨k, hk, hj⟩ | rfl)
      · rw [List.mem_filter, mem_results_set] at hk
        obtain ⟨⟨c, cs, hafter, hc, rfl⟩, -⟩ := hk
        have hcs : (i.past [c] cs).after.length ≤ n := by
          rw [hafter, List.length_cons] at h
          rw [Place.past_after]
          omega
        obtain ⟨taken, rest, htext, htaken, rfl⟩ := (ih hcs).mp hj
        refine ⟨c :: taken, rest, by rw [hafter]; simpa using htext, ?_, by simp⟩
        intro d hd
        cases hd with
        | head => exact hc
        | tail _ hd => exact htaken d hd
      · exact ⟨[], j.after, rfl, by simp, (Place.past_nil j).symm⟩
    · rintro ⟨taken, rest, htext, htaken, rfl⟩
      cases taken with
      | nil =>
        right
        rw [List.nil_append] at htext
        rw [← htext]
        exact Place.past_nil i
      | cons c taken =>
        left
        have hc : p c = true := htaken c List.mem_cons_self
        refine ⟨i.past [c] (taken ++ rest), ?_, ?_⟩
        · rw [List.mem_filter, mem_results_set]
          refine ⟨⟨c, taken ++ rest, htext, hc, rfl⟩, ?_⟩
          rw [htext]
          simp
        · have hle : (i.past [c] (taken ++ rest)).after.length ≤ n := by
            rw [htext] at h
            simp only [List.cons_append, List.length_cons] at h
            rw [Place.past_after]
            omega
          exact (ih hle).mpr ⟨taken, rest, rfl, fun d hd => htaken d (List.mem_cons_of_mem c hd), by simp⟩

theorem mem_results_star_set :
    j ∈ results (.star (.set p)) i ↔
      ∃ taken rest, i.after = taken ++ rest ∧ (∀ c ∈ taken, p c = true) ∧ j = i.past taken rest :=
  repeated_set (Nat.le_refl _)

theorem mem_results_textBy {same : α → α → Bool} {cs : List α} :
    j ∈ results (textBy same cs) i ↔
      ∃ taken rest, i.after = taken ++ rest ∧ List.Forall₂ (fun c d => same c d = true) cs taken ∧
        j = i.past taken rest := by
  induction cs generalizing i with
  | nil =>
    rw [textBy, mem_results_empty]
    constructor
    · rintro rfl
      exact ⟨[], j.after, rfl, .nil, (Place.past_nil j).symm⟩
    · rintro ⟨taken, rest, hafter, htaken, rfl⟩
      cases htaken
      rw [List.nil_append] at hafter
      rw [← hafter]
      exact Place.past_nil i
  | cons c cs ih =>
    rw [textBy, mem_results_cat]
    constructor
    · rintro ⟨k, hk, hj⟩
      obtain ⟨d, ds, hafter, hd, rfl⟩ := mem_results_set.mp hk
      obtain ⟨taken, rest, hds, htaken, rfl⟩ := ih.mp hj
      rw [Place.past_after] at hds
      refine ⟨d :: taken, rest, by rw [hafter, hds]; rfl, .cons hd htaken, ?_⟩
      rw [Place.past_past]
      rfl
    · rintro ⟨taken, rest, hafter, htaken, rfl⟩
      cases htaken with
      | @cons _ d _ ds hd hds =>
        refine ⟨i.past [d] (ds ++ rest), mem_results_set.mpr ⟨d, ds ++ rest, hafter, hd, rfl⟩, ih.mpr ?_⟩
        exact ⟨ds, rest, rfl, hds, by rw [Place.past_past]; rfl⟩

/-! ## What a match takes -/

/-- Every character that the expression takes is one that `p` holds of. -/
def Within (p : α → Bool) : Regex α → Prop
  | .empty | .look _ => True
  | .set q => ∀ c, q c = true → p c = true
  | .cat r s | .alt r s => Within p r ∧ Within p s
  | .star r | .group _ r => Within p r

/-- The second place lies behind the first, and `p` holds of all between. -/
def Place.Reaches (p : α → Bool) (i j : Place α) : Prop :=
  ∃ taken, i.after = taken ++ j.after ∧ j.before = taken.reverse ++ i.before ∧ ∀ c ∈ taken, p c = true

theorem Place.Reaches.refl (i : Place α) : i.Reaches p i := ⟨[], rfl, rfl, fun _ hc => nomatch hc⟩

theorem Place.Reaches.trans (hij : i.Reaches p j) (hjk : j.Reaches p k) : i.Reaches p k := by
  obtain ⟨taken, hafter, hbefore, htaken⟩ := hij
  obtain ⟨more, hafter', hbefore', hmore⟩ := hjk
  refine ⟨taken ++ more, by rw [hafter, hafter', List.append_assoc], ?_, ?_⟩
  · rw [hbefore', hbefore, List.reverse_append, List.append_assoc]
  · intro c hc
    exact (List.mem_append.mp hc).elim (htaken c) (hmore c)

theorem repeated_reaches {step : Place α → List (Place α)} (hstep : ∀ i, ∀ j ∈ step i, i.Reaches p j) {n : Nat}
    (h : j ∈ repeated step n i) : i.Reaches p j := by
  induction n generalizing i with
  | zero =>
    rw [repeated, List.mem_singleton] at h
    rw [h]
    exact .refl i
  | succ n ih =>
    rw [repeated, List.mem_append, List.mem_flatMap, List.mem_singleton] at h
    rcases h with ⟨k, hk, hj⟩ | rfl
    · exact (hstep i k (List.mem_of_mem_filter hk)).trans (ih hj)
    · exact .refl j

theorem reaches_of_within (hr : Within p r) (h : j ∈ results r i) : i.Reaches p j := by
  induction r generalizing i j with
  | empty =>
    rw [mem_results_empty] at h
    rw [h]
    exact .refl i
  | set q =>
    obtain ⟨c, cs, hafter, hc, rfl⟩ := mem_results_set.mp h
    refine ⟨[c], hafter, rfl, ?_⟩
    intro d hd
    rw [List.mem_singleton] at hd
    rw [hd]
    exact hr c hc
  | cat r s ihr ihs =>
    obtain ⟨k, hk, hj⟩ := mem_results_cat.mp h
    exact (ihr hr.1 hk).trans (ihs hr.2 hj)
  | alt r s ihr ihs => exact (mem_results_alt.mp h).elim (ihr hr.1) (ihs hr.2)
  | star r ih => exact repeated_reaches (fun i j hj => ih hr hj) h
  | look q =>
    rw [(mem_results_look.mp h).2]
    exact .refl i
  | group n r ih =>
    obtain ⟨k, hk, rfl⟩ := List.mem_map.mp h
    have hreach : i.Reaches p k := ih hr hk
    exact hreach

theorem after_eq_of_within (hr : Within p r) (hi : ∀ c ∈ i.after, p c = false) (h : j ∈ results r i) :
    j.after = i.after := by
  obtain ⟨taken, hafter, -, htaken⟩ := reaches_of_within hr h
  cases taken with
  | nil => exact hafter.symm
  | cons c taken =>
    have hc := hi c (by rw [hafter]; exact List.mem_cons_self)
    rw [htaken c List.mem_cons_self] at hc
    cases hc

theorem isSome_exec (r : Regex α) (text : List α) : (exec r text).isSome = test r text := by
  unfold exec test
  induction placesFrom [] text with
  | nil => rfl
  | cons i places ih =>
    rw [List.findSome?_cons, List.any_cons, ← ih]
    cases results r i <;> rfl

theorem test_of_atStart {text : List α} :
    test (.cat atStart r) text = true ↔ ∃ j, j ∈ results r (Place.start text) := by
  have hlater : ∀ (before rest : List α), before ≠ [] →
      (placesFrom before rest).any (fun i => !(results (.cat atStart r) i).isEmpty) = false := by
    intro before rest hbefore
    induction rest generalizing before with
    | nil => simp [placesFrom, results, atStart, hbefore]
    | cons c rest ih =>
      rw [placesFrom, List.any_cons, ih (c :: before) (List.cons_ne_nil c before), Bool.or_false]
      simp [results, atStart, hbefore]
  have hhere : ∀ i : Place α, i.before = [] →
      ((!(results (.cat atStart r) i).isEmpty) = true ↔ ∃ j, j ∈ results r i) := by
    intro i hi
    have hres : results (.cat atStart r) i = results r i := by simp [results, atStart, hi]
    rw [hres, Bool.not_eq_true', List.isEmpty_eq_false_iff_exists_mem]
  unfold test
  cases text with
  | nil => rw [placesFrom, List.any_cons, List.any_nil, Bool.or_false, hhere _ rfl]; rfl
  | cons c cs =>
    rw [placesFrom, List.any_cons, hlater [c] cs (List.cons_ne_nil c []), Bool.or_false, hhere _ rfl]
    rfl

end Regex

end NeonDiff.Lib
