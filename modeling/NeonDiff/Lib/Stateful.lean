import Mathlib.Tactic.Common

/-! # Pre- and postconditions of computations over a state

What a computation did before it throws stays done.
-/

namespace NeonDiff.Lib

variable {σ ε α β : Type} {p : EStateM ε σ α} {s : σ} {Q Q' : α → σ → Prop} {R R' : σ → Prop}

/-- From `s`, `p` returns in `Q` or throws in `R`. -/
def Ends (p : EStateM ε σ α) (s : σ) (Q : α → σ → Prop) (R : σ → Prop) : Prop :=
  match p s with
  | .ok a s' => Q a s'
  | .error _ s' => R s'

theorem ends_of_ok {a : α} {s' : σ} (h : p s = .ok a s') : Ends p s Q R ↔ Q a s' := by
  unfold Ends
  rw [h]

theorem ends_of_error {e : ε} {s' : σ} (h : p s = .error e s') : Ends p s Q R ↔ R s' := by
  unfold Ends
  rw [h]

@[simp] theorem ends_pure (a : α) : Ends (pure a : EStateM ε σ α) s Q R ↔ Q a s := Iff.rfl

@[simp] theorem ends_throw (e : ε) : Ends (throw e : EStateM ε σ α) s Q R ↔ R s := Iff.rfl

@[simp] theorem ends_bind {f : α → EStateM ε σ β} {Q : β → σ → Prop} :
    Ends (p >>= f) s Q R ↔ Ends p s (fun a s' => Ends (f a) s' Q R) R := by
  have hbind : (p >>= f) s = EStateM.bind p f s := rfl
  cases h : p s with
  | ok a s' =>
    rw [ends_of_ok h]
    unfold Ends
    rw [hbind, EStateM.bind, h]
  | error e s' =>
    rw [ends_of_error h]
    unfold Ends
    rw [hbind, EStateM.bind, h]

theorem Ends.mono (h : Ends p s Q R) (hQ : ∀ a s', Q a s' → Q' a s') (hR : ∀ s', R s' → R' s') : Ends p s Q' R' := by
  cases hp : p s with
  | ok a s' =>
    rw [ends_of_ok hp] at h ⊢
    exact hQ a s' h
  | error e s' =>
    rw [ends_of_error hp] at h ⊢
    exact hR s' h

theorem Ends.ite {c : Prop} [Decidable c] {q : EStateM ε σ α} (hp : c → Ends p s Q R) (hq : ¬c → Ends q s Q R) :
    Ends (if c then p else q) s Q R := by
  split
  · exact hp ‹c›
  · exact hq ‹¬c›

theorem Ends.bind {f : α → EStateM ε σ β} {Q : α → σ → Prop} {P : β → σ → Prop} (hp : Ends p s Q R)
    (hf : ∀ a s', Q a s' → Ends (f a) s' P R) : Ends (p >>= f) s P R :=
  ends_bind.mpr (hp.mono hf fun _ => id)

/-- The state in which `p` leaves `s`, whether it returns or throws. -/
def after (p : EStateM ε σ α) (s : σ) : σ :=
  match p s with
  | .ok _ s' => s'
  | .error _ s' => s'

theorem ends_after : Ends p s (fun _ => R) R ↔ R (after p s) := by
  unfold Ends after
  cases p s with
  | ok a s' => rfl
  | error e s' => rfl

theorem Ends.forM {T : σ → σ → Prop} {P : α → σ → Prop} {f : α → EStateM ε σ PUnit} {l : List α}
    (hrefl : ∀ s, T s s) (htrans : ∀ s t u, T s t → T t u → T s u)
    (hkeep : ∀ a t u, T t u → P a t → P a u)
    (hstep : ∀ a ∈ l, ∀ t, T s t → Ends (f a) t (fun _ u => T t u ∧ P a u) (T t)) :
    Ends (l.forM f) s (fun _ t => T s t ∧ ∀ a ∈ l, P a t) (T s) := by
  induction l generalizing s with
  | nil => exact ⟨hrefl s, fun a ha => absurd ha List.not_mem_nil⟩
  | cons a l ih =>
    refine Ends.bind (hstep a (List.mem_cons_self ..) s (hrefl s)) ?_
    rintro _ t ⟨hst, hat⟩
    have hrest := ih fun b hb u htu => hstep b (List.mem_cons_of_mem _ hb) u (htrans _ _ _ hst htu)
    refine hrest.mono ?_ fun u htu => htrans _ _ _ hst htu
    rintro _ u ⟨htu, hl⟩
    refine ⟨htrans _ _ _ hst htu, ?_⟩
    intro b hb
    rcases List.mem_cons.mp hb with rfl | hb
    · exact hkeep b t u htu hat
    · exact hl b hb

end NeonDiff.Lib
