import Mathlib.Data.List.Forall2

/-! # Code that throws

`Except ε` as the code under a `throw`: a computation that answered went through every check before.
-/

namespace NeonDiff.Lib

universe u

variable {ε : Type u} {α β : Type u}

theorem bind_eq_ok {x : Except ε α} {f : α → Except ε β} {b : β} (h : x >>= f = .ok b) :
    ∃ a, x = .ok a ∧ f a = .ok b := by
  cases x with
  | error e => cases h
  | ok a => exact ⟨a, rfl, h⟩

/-- `if (!p) throw e`. -/
def require {ε : Type} (p : Bool) (e : ε) : Except ε Unit := if p then .ok () else .error e

@[simp] theorem require_eq_ok {ε : Type} {p : Bool} {e : ε} {u : Unit} : require p e = .ok u ↔ p = true := by
  cases p <;> simp [require]

theorem ok_bind (a : α) (f : α → Except ε β) : (Except.ok a >>= f) = f a := rfl

@[simp] theorem mapError_eq_ok {ε' : Type u} {x : Except ε α} {f : ε → ε'} {a : α} :
    x.mapError f = .ok a ↔ x = .ok a := by
  cases x <;> simp [Except.mapError]

theorem map_eq_ok {x : Except ε α} {f : α → β} {b : β} : x.map f = .ok b ↔ ∃ a, x = .ok a ∧ f a = b := by
  cases x <;> simp [Except.map]

theorem map_ne_error {x : Except ε α} {f : α → β} {e : ε} (h : x ≠ .error e) : x.map f ≠ .error e := by
  intro hmap
  cases x with
  | ok a => cases hmap
  | error e' =>
    injection hmap with he
    exact h (by rw [he])

theorem bind_ne_error {x : Except ε α} {f : α → Except ε β} {e : ε} (h : x ≠ .error e)
    (hf : ∀ a, x = .ok a → f a ≠ .error e) : x.bind f ≠ .error e := by
  intro hbind
  cases x with
  | ok a => exact hf a rfl hbind
  | error e' =>
    injection hbind with he
    exact h (by rw [he])

theorem mapM_eq_ok {f : α → Except ε β} : ∀ {xs : List α} {ys : List β},
    xs.mapM f = .ok ys ↔ List.Forall₂ (fun x y => f x = .ok y) xs ys
  | [], ys => by
    rw [List.mapM_nil, List.forall₂_nil_left_iff]
    exact ⟨fun h => (Except.ok.inj h).symm, fun h => h ▸ rfl⟩
  | x :: xs, ys => by
    rw [List.mapM_cons, List.forall₂_cons_left_iff]
    constructor
    · intro h
      obtain ⟨y, hy, h⟩ := bind_eq_ok h
      obtain ⟨ys', hys, h⟩ := bind_eq_ok h
      exact ⟨y, ys', hy, mapM_eq_ok.mp hys, (Except.ok.inj h).symm⟩
    · rintro ⟨y, ys', hy, hys, rfl⟩
      rw [hy, mapM_eq_ok.mpr hys]
      rfl

theorem foldlM_preserves (P : β → Prop) {f : β → α → Except ε β} {xs : List α}
    (hstep : ∀ b, ∀ x ∈ xs, ∀ b', P b → f b x = .ok b' → P b') {b b' : β} (h : xs.foldlM f b = .ok b') (hb : P b) :
    P b' := by
  induction xs generalizing b with
  | nil => exact Except.ok.inj h ▸ hb
  | cons x xs ih =>
    rw [List.foldlM_cons] at h
    obtain ⟨c, hc, h⟩ := bind_eq_ok h
    exact ih (fun b y hy => hstep b y (List.mem_cons_of_mem x hy)) h (hstep b x List.mem_cons_self c hb hc)

theorem exists_mapM_eq_ok (f : α → Except ε β) (xs : List α) (h : ∀ x ∈ xs, ∃ y, f x = .ok y) :
    ∃ ys, List.Forall₂ (fun x y => f x = .ok y) xs ys := by
  induction xs with
  | nil => exact ⟨[], .nil⟩
  | cons x xs ih =>
    obtain ⟨y, hy⟩ := h x List.mem_cons_self
    obtain ⟨ys, hys⟩ := ih fun x hx => h x (List.mem_cons_of_mem _ hx)
    exact ⟨y :: ys, .cons hy hys⟩

end NeonDiff.Lib
