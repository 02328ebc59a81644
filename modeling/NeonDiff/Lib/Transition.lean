import Mathlib.Data.Option.Basic
import Mathlib.Data.List.Basic

/-! # Runs of a machine

A machine is a partial step function on states. A run feeds it a list of labels; `Along` states what
each step of a run meets, and `Along.invariant` is the induction every safety result below uses.
-/

namespace NeonDiff.Lib

variable {σ L : Type}

/-- The state after the labels, or nothing when a step does not fire. -/
def run (step : σ → L → Option σ) (s : σ) : List L → Option σ
  | [] => some s
  | l :: ls => (step s l).bind fun t => run step t ls

/-- Every step of the run from `s` meets `C` before it is taken. -/
def Along (step : σ → L → Option σ) (C : σ → L → Prop) (s : σ) : List L → Prop
  | [] => True
  | l :: ls => C s l ∧ ∀ t, step s l = some t → Along step C t ls

variable {step : σ → L → Option σ} {C D : σ → L → Prop} {s t : σ} {l : L} {ls : List L}

@[simp] theorem run_nil : run step s [] = some s := rfl

theorem run_cons : run step s (l :: ls) = (step s l).bind fun t => run step t ls := rfl

theorem run_append (ls ms : List L) :
    run step s (ls ++ ms) = (run step s ls).bind fun t => run step t ms := by
  induction ls generalizing s with
  | nil => rfl
  | cons l ls ih =>
    rw [List.cons_append, run_cons, run_cons, Option.bind_assoc]
    congr 1
    funext t
    exact ih

theorem run_cons_eq_some {u : σ} :
    run step s (l :: ls) = some u ↔ ∃ t, step s l = some t ∧ run step t ls = some u := by
  rw [run_cons, Option.bind_eq_some_iff]

theorem Along.cons (hC : C s l) (hstep : step s l = some t) (h : Along step C t ls) : Along step C s (l :: ls) :=
  ⟨hC, fun u hu => by
    obtain rfl := Option.some.inj (hstep.symm.trans hu)
    exact h⟩

theorem Along.mono (h : Along step C s ls) (hCD : ∀ s l, C s l → D s l) : Along step D s ls := by
  induction ls generalizing s with
  | nil => trivial
  | cons l ls ih => exact ⟨hCD s l h.1, fun t ht => ih (h.2 t ht)⟩

theorem Along.and (h : Along step C s ls) (h' : Along step D s ls) : Along step (fun s l => C s l ∧ D s l) s ls := by
  induction ls generalizing s with
  | nil => trivial
  | cons l ls ih => exact ⟨⟨h.1, h'.1⟩, fun t ht => ih (h.2 t ht) (h'.2 t ht)⟩

theorem Along.append_left {ms : List L} (h : Along step C s (ls ++ ms)) : Along step C s ls := by
  induction ls generalizing s with
  | nil => trivial
  | cons l ls ih => exact ⟨h.1, fun t ht => ih (h.2 t ht)⟩

theorem Along.append_right {ms : List L} (h : Along step C s (ls ++ ms)) (hr : run step s ls = some t) :
    Along step C t ms := by
  induction ls generalizing s with
  | nil =>
    obtain rfl := Option.some.inj hr
    exact h
  | cons l ls ih =>
    obtain ⟨u, hu, hr⟩ := run_cons_eq_some.mp hr
    exact ih (h.2 u hu) hr

theorem Along.append {ms : List L} (h : Along step C s ls) (hms : ∀ t, run step s ls = some t → Along step C t ms) :
    Along step C s (ls ++ ms) := by
  induction ls generalizing s with
  | nil => exact hms s rfl
  | cons l ls ih =>
    exact ⟨h.1, fun t ht => ih (h.2 t ht) fun u hu => hms u (run_cons_eq_some.mpr ⟨t, ht, hu⟩)⟩

theorem Along.invariant {I : σ → Prop} (hstep : ∀ s l t, I s → C s l → step s l = some t → I t)
    (hs : I s) (h : Along step C s ls) (hr : run step s ls = some t) : I t := by
  induction ls generalizing s with
  | nil =>
    obtain rfl := Option.some.inj hr
    exact hs
  | cons l ls ih =>
    obtain ⟨u, hu, hr⟩ := run_cons_eq_some.mp hr
    exact ih (hstep s l u hs h.1 hu) (h.2 u hu) hr

instance decidableAlong [∀ s l, Decidable (C s l)] : ∀ s ls, Decidable (Along step C s ls)
  | _, [] => isTrue trivial
  | s, l :: ls =>
    match h : step s l with
    | none => decidable_of_iff (C s l) ⟨fun hC => ⟨hC, fun t ht => by rw [h] at ht; cases ht⟩, And.left⟩
    | some t =>
      have := decidableAlong t ls
      decidable_of_iff (C s l ∧ Along step C t ls) ⟨fun hC => .cons hC.1 h hC.2, fun hC => ⟨hC.1, hC.2 t h⟩⟩

theorem Along.of_invariant {I : σ → Prop} (hstep : ∀ s l t, I s → C s l → step s l = some t → I t)
    (hCD : ∀ s l, I s → C s l → D s l) (hs : I s) (h : Along step C s ls) : Along step D s ls := by
  induction ls generalizing s with
  | nil => trivial
  | cons l ls ih =>
    refine ⟨hCD s l hs h.1, ?_⟩
    intro t ht
    exact ih (hstep s l t hs h.1 ht) (h.2 t ht)

theorem run_invariant {I : σ → Prop} (hstep : ∀ s l t, I s → step s l = some t → I t) (hs : I s)
    (hr : run step s ls = some t) : I t := by
  induction ls generalizing s with
  | nil =>
    obtain rfl := Option.some.inj hr
    exact hs
  | cons l ls ih =>
    obtain ⟨u, hu, hr⟩ := run_cons_eq_some.mp hr
    exact ih (hstep s l u hs hu) hr

end NeonDiff.Lib
