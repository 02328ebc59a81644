import NeonDiff.Lib.Transition
import Mathlib.Logic.Function.Basic

/-! # Programs that stop at each call

A program is a tree: it is done, it fails, or it makes a call and goes on with the answer. Several
programs interleave at their calls over one shared state.
-/

namespace NeonDiff.Lib

/-- A program over the calls `Act`, where `Ans a` answers the call `a`. -/
inductive Prog {Act : Type} (Ans : Act → Type) (ε α : Type) where
  | done (a : α)
  | fail (e : ε)
  | call (act : Act) (k : Ans act → Prog Ans ε α)

namespace Prog

variable {Act : Type} {Ans : Act → Type} {ε α β : Type}

def bind (p : Prog Ans ε α) (f : α → Prog Ans ε β) : Prog Ans ε β :=
  match p with
  | done a => f a
  | fail e => fail e
  | call act k => call act fun r => (k r).bind f

/-- `try p catch h`. -/
def tryCatch (p : Prog Ans ε α) (h : ε → Prog Ans ε α) : Prog Ans ε α :=
  match p with
  | done a => done a
  | fail e => h e
  | call act k => call act fun r => (k r).tryCatch h

/-- `try p finally f`. -/
def tryFinally (p : Prog Ans ε α) (f : Prog Ans ε Unit) : Prog Ans ε α :=
  match p with
  | done a => f.bind fun _ => done a
  | fail e => f.bind fun _ => fail e
  | call act k => call act fun r => (k r).tryFinally f

/-- `p`, and then `k` on its value or its exception. -/
def attempt (p : Prog Ans ε α) (k : Except ε α → Prog Ans ε β) : Prog Ans ε β :=
  match p with
  | done a => k (.ok a)
  | fail e => k (.error e)
  | call act c => call act fun r => (c r).attempt k

/-- The program by itself, with every call answered at once. -/
def alone {σ : Type} (exec : σ → (act : Act) → Ans act × σ) : Prog Ans ε α → σ → Except ε α × σ
  | done a, s => (.ok a, s)
  | fail e, s => (.error e, s)
  | call act k, s => (k (exec s act).1).alone exec (exec s act).2

section Alone

variable {σ : Type} (exec : σ → (act : Act) → Ans act × σ)

@[simp] theorem alone_done (a : α) (s : σ) : (done a : Prog Ans ε α).alone exec s = (.ok a, s) := rfl

@[simp] theorem alone_call (act : Act) (k : Ans act → Prog Ans ε α) (s : σ) :
    (call act k).alone exec s = (k (exec s act).1).alone exec (exec s act).2 := rfl

@[simp] theorem alone_fail (e : ε) (s : σ) : (fail e : Prog Ans ε α).alone exec s = (.error e, s) := rfl

theorem alone_attempt (p : Prog Ans ε α) (k : Except ε α → Prog Ans ε β) (s : σ) :
    (p.attempt k).alone exec s = (k (p.alone exec s).1).alone exec (p.alone exec s).2 := by
  induction p generalizing s with
  | done a => rfl
  | fail e => rfl
  | call act c ih => exact ih _ _

theorem alone_bind_of_ok {p : Prog Ans ε α} {f : α → Prog Ans ε β} {s s' : σ} {a : α}
    (h : p.alone exec s = (.ok a, s')) : (p.bind f).alone exec s = (f a).alone exec s' := by
  induction p generalizing s with
  | done b =>
    cases h
    rfl
  | fail e => cases h
  | call act k ih => exact ih _ h

theorem alone_bind_of_error {p : Prog Ans ε α} {f : α → Prog Ans ε β} {s s' : σ} {e : ε}
    (h : p.alone exec s = (.error e, s')) : (p.bind f).alone exec s = (.error e, s') := by
  induction p generalizing s with
  | done b => cases h
  | fail e =>
    cases h
    rfl
  | call act k ih => exact ih _ h

end Alone

instance : Monad (Prog Ans ε) where
  pure := done
  bind := bind

@[simp] theorem pure_eq (a : α) : (pure a : Prog Ans ε α) = done a := rfl
@[simp] theorem bind_eq (p : Prog Ans ε α) (f : α → Prog Ans ε β) : p >>= f = p.bind f := rfl

end Prog

/-! ## Disciplines

A discipline says which calls a program may make in a state of its own, and how the answer moves it.
-/

structure Discipline {Act : Type} (Ans : Act → Type) (S : Type) where
  allows : S → Act → Prop
  next : S → (act : Act) → Ans act → S

section Follows

variable {Act : Type} {Ans : Act → Type} {S ε α β : Type} {D : Discipline Ans S} {s : S}

/-- From `s`, whatever the answers, the program keeps to `D` and ends in `Q`. -/
def Follows (D : Discipline Ans S) (s : S) (Q : Except ε α → S → Prop) : Prog Ans ε α → Prop
  | .done a => Q (.ok a) s
  | .fail e => Q (.error e) s
  | .call act k => D.allows s act ∧ ∀ r, Follows D (D.next s act r) Q (k r)

variable {Q R : Except ε α → S → Prop}

@[simp] theorem follows_done (a : α) : Follows D s Q (.done a) ↔ Q (.ok a) s := Iff.rfl
@[simp] theorem follows_fail (e : ε) : Follows D s Q (.fail e) ↔ Q (.error e) s := Iff.rfl
@[simp] theorem follows_call (act : Act) (k : Ans act → Prog Ans ε α) :
    Follows D s Q (.call act k) ↔ D.allows s act ∧ ∀ r, Follows D (D.next s act r) Q (k r) := Iff.rfl

theorem Follows.mono {p : Prog Ans ε α} (h : Follows D s Q p) (hQR : ∀ r s, Q r s → R r s) :
    Follows D s R p := by
  induction p generalizing s with
  | done a => exact hQR _ _ h
  | fail e => exact hQR _ _ h
  | call act k ih => exact ⟨h.1, fun r => ih r (h.2 r)⟩

theorem Follows.ite {c : Prop} [Decidable c] {p q : Prog Ans ε α} (hp : c → Follows D s Q p) (hq : ¬c → Follows D s Q q) :
    Follows D s Q (if c then p else q) := by
  split
  · exact hp ‹c›
  · exact hq ‹¬c›

/-- The postcondition of `p` in `p.bind f`. -/
def bindPost (D : Discipline Ans S) (f : α → Prog Ans ε β) (R : Except ε β → S → Prop) :
    Except ε α → S → Prop
  | .ok a, s => Follows D s R (f a)
  | .error e, s => R (.error e) s

theorem follows_bind {p : Prog Ans ε α} {f : α → Prog Ans ε β} {R : Except ε β → S → Prop} :
    Follows D s R (p.bind f) ↔ Follows D s (bindPost D f R) p := by
  induction p generalizing s with
  | done a => rfl
  | fail e => rfl
  | call act k ih => exact and_congr_right fun _ => forall_congr' fun r => ih r

/-- The postcondition of `p` in `p.tryCatch h`. -/
def catchPost (D : Discipline Ans S) (h : ε → Prog Ans ε α) (Q : Except ε α → S → Prop) :
    Except ε α → S → Prop
  | .ok a, s => Q (.ok a) s
  | .error e, s => Follows D s Q (h e)

theorem follows_tryCatch {p : Prog Ans ε α} {h : ε → Prog Ans ε α} :
    Follows D s Q (p.tryCatch h) ↔ Follows D s (catchPost D h Q) p := by
  induction p generalizing s with
  | done a => rfl
  | fail e => rfl
  | call act k ih => exact and_congr_right fun _ => forall_congr' fun r => ih r

/-- The postcondition of `p` in `p.tryFinally f`. -/
def finallyPost (D : Discipline Ans S) (f : Prog Ans ε Unit) (Q : Except ε α → S → Prop) :
    Except ε α → S → Prop
  | .ok a, s => Follows D s (bindPost D (fun _ => .done a) Q) f
  | .error e, s => Follows D s (bindPost D (fun _ => .fail e) Q) f

theorem follows_tryFinally {p : Prog Ans ε α} {f : Prog Ans ε Unit} :
    Follows D s Q (p.tryFinally f) ↔ Follows D s (finallyPost D f Q) p := by
  induction p generalizing s with
  | done a => exact follows_bind
  | fail e => exact follows_bind
  | call act k ih => exact and_congr_right fun _ => forall_congr' fun r => ih r

theorem follows_attempt {p : Prog Ans ε α} {k : Except ε α → Prog Ans ε β} {R : Except ε β → S → Prop} :
    Follows D s R (p.attempt k) ↔ Follows D s (fun r s => Follows D s R (k r)) p := by
  induction p generalizing s with
  | done a => rfl
  | fail e => rfl
  | call act c ih => exact and_congr_right fun _ => forall_congr' fun r => ih r

end Follows

/-! ## Runs

A run of one program by itself, where a call may have several answers and leave several states.
-/

section Runs

variable {Act : Type} {Ans : Act → Type} {S ε α β σ : Type}

inductive Runs (step : σ → (act : Act) → Ans act → σ → Prop) : Prog Ans ε α → σ → Except ε α → σ → Prop where
  | done (a : α) (x : σ) : Runs step (.done a) x (.ok a) x
  | fail (e : ε) (x : σ) : Runs step (.fail e) x (.error e) x
  | call {act : Act} {k : Ans act → Prog Ans ε α} {x y z : σ} {r : Ans act} {out : Except ε α}
    (hstep : step x act r y) (hrest : Runs step (k r) y out z) : Runs step (.call act k) x out z

variable {D : Discipline Ans S} {step : σ → (act : Act) → Ans act → σ → Prop} {I : S → σ → Prop}

theorem runs_alone {exec : σ → (act : Act) → Ans act × σ} (hexec : ∀ x act, step x act (exec x act).1 (exec x act).2)
    (p : Prog Ans ε α) (x : σ) : Runs step p x (p.alone exec x).1 (p.alone exec x).2 := by
  induction p generalizing x with
  | done a => exact .done a x
  | fail e => exact .fail e x
  | call act k ih => exact .call (hexec x act) (ih _ _)

theorem Follows.of_runs {s : S} {Q : Except ε α → S → Prop} {p : Prog Ans ε α} {x y : σ} {out : Except ε α}
    (hstep : ∀ s x act r y, I s x → D.allows s act → step x act r y → I (D.next s act r) y)
    (h : Follows D s Q p) (hI : I s x) (hrun : Runs step p x out y) : ∃ s', Q out s' ∧ I s' y := by
  induction hrun generalizing s with
  | done a x => exact ⟨s, h, hI⟩
  | fail e x => exact ⟨s, h, hI⟩
  | call hcall _ ih =>
    obtain ⟨hallowed, hrest⟩ := h
    exact ih (hrest _) (hstep _ _ _ _ _ hI hallowed hcall)

end Runs

/-! ## Interleavings -/

section Interleaving

variable {Act : Type} {Ans : Act → Type} {ε α ι σ Env T : Type} [DecidableEq ι]

structure World (Ans : Act → Type) (ε α ι σ : Type) where
  shared : σ
  progs : ι → Prog Ans ε α

/-- One program makes its next call, or the world moves on its own. -/
inductive Label (ι Env T : Type) where
  | act (i : ι) (env : Env)
  | ambient (t : T)

/-- What a call of program `i` does to the shared state, with `Env` for what the call does not decide. -/
structure Semantics (Ans : Act → Type) (ι σ Env T : Type) where
  exec : ι → (act : Act) → Env → σ → Option (Ans act × σ)
  ambient : T → σ → Option σ

/-- The world after program `i` made its next call. -/
def World.act (sem : Semantics Ans ι σ Env T) (w : World Ans ε α ι σ) (i : ι) (env : Env) :
    Option (World Ans ε α ι σ) :=
  match w.progs i with
  | .done _ => none
  | .fail _ => none
  | .call act k => (sem.exec i act env w.shared).map fun r => ⟨r.2, Function.update w.progs i (k r.1)⟩

def World.step (sem : Semantics Ans ι σ Env T) (w : World Ans ε α ι σ) : Label ι Env T → Option (World Ans ε α ι σ)
  | .act i env => w.act sem i env
  | .ambient t => (sem.ambient t w.shared).map fun s => { w with shared := s }

variable {sem : Semantics Ans ι σ Env T} {w w' : World Ans ε α ι σ}

theorem World.act_cases {i : ι} {env : Env} (h : w.step sem (.act i env) = some w') :
    ∃ act k r s, w.progs i = .call act k ∧ sem.exec i act env w.shared = some (r, s) ∧
      w' = ⟨s, Function.update w.progs i (k r)⟩ := by
  simp only [World.step, World.act] at h
  split at h
  · cases h
  · cases h
  · rename_i act k hp
    obtain ⟨⟨r, s⟩, hr, rfl⟩ := Option.map_eq_some_iff.mp h
    exact ⟨act, k, r, s, hp, hr, rfl⟩

theorem World.ambient_cases {t : T} (h : w.step sem (.ambient t) = some w') :
    ∃ s, sem.ambient t w.shared = some s ∧ w' = { w with shared := s } := by
  obtain ⟨s, hs, rfl⟩ := Option.map_eq_some_iff.mp h
  exact ⟨s, hs, rfl⟩

end Interleaving

end NeonDiff.Lib
