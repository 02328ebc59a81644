import Mathlib.Logic.Function.Basic
import NeonDiff.Lib.Transition

/-! # The lock of a git mirror

Calls of `withGitMirrorLock` are numbered as they come; the tail that a call puts into the table has its number. A step is
what runs between two await points.
-/

namespace NeonDiff.MirrorLock

variable {Path : Type} [DecidableEq Path]

inductive Outcome where
  | resolved
  | thrown
  deriving DecidableEq, Repr

inductive Phase where
  /-- At `await predecessor`. -/
  | waiting
  /-- At `await action()`. -/
  | running
  /-- The action has ended, and the `finally` block has not run. -/
  | settled (outcome : Outcome)
  | finished (outcome : Outcome)
  deriving DecidableEq, Repr

structure Call (Path : Type) where
  mirrorPath : Path
  /-- The tail that the call waits for; `none` is `Promise.resolve()`. -/
  predecessor : Option Nat
  phase : Phase
  /-- The tail of the call is resolved. -/
  released : Bool

structure State (Path : Type) where
  calls : List (Call Path)
  gitMirrorTails : Path → Option Nat
  /-- The calls whose action has been called, in that order. -/
  started : List Nat

def State.initial : State Path := ⟨[], fun _ => none, []⟩

inductive Event (Path : Type) where
  | call (mirrorPath : Path)
  | resume (i : Nat)
  | settle (i : Nat) (outcome : Outcome)
  | release (i : Nat)

def State.resolved (s : State Path) : Option Nat → Bool
  | none => true
  | some tail => s.calls[tail]?.any Call.released

def State.put (s : State Path) (i : Nat) (call : Call Path) : State Path :=
  { s with calls := s.calls.set i call }

/-- `withGitMirrorLock` up to its first await. -/
def State.enter (s : State Path) (mirrorPath : Path) : State Path :=
  { s with
    calls := s.calls ++ [⟨mirrorPath, s.gitMirrorTails mirrorPath, .waiting, false⟩]
    gitMirrorTails := Function.update s.gitMirrorTails mirrorPath (some s.calls.length) }

/-- The `finally` block. -/
def State.leave (s : State Path) (i : Nat) (call : Call Path) (outcome : Outcome) : State Path :=
  { s.put i { call with phase := .finished outcome, released := true } with
    gitMirrorTails :=
      if s.gitMirrorTails call.mirrorPath = some i then Function.update s.gitMirrorTails call.mirrorPath none
      else s.gitMirrorTails }

def step (s : State Path) : Event Path → Option (State Path)
  | .call mirrorPath => some (s.enter mirrorPath)
  | .resume i => s.calls[i]?.bind fun call =>
    if call.phase = .waiting ∧ s.resolved call.predecessor = true then
      some { s.put i { call with phase := .running } with started := s.started ++ [i] }
    else none
  | .settle i outcome => s.calls[i]?.bind fun call =>
    if call.phase = .running then some (s.put i { call with phase := .settled outcome }) else none
  | .release i => s.calls[i]?.bind fun call =>
    match call.phase with
    | .settled outcome => some (s.leave i call outcome)
    | _ => none

/-! ## What a step does -/

section

variable {s t : State Path} {i : Nat}

theorem step_resume (h : step s (.resume i) = some t) :
    ∃ call, s.calls[i]? = some call ∧ call.phase = .waiting ∧ s.resolved call.predecessor = true ∧
      t = { s.put i { call with phase := .running } with started := s.started ++ [i] } := by
  obtain ⟨call, hcall, hstep⟩ := Option.bind_eq_some_iff.mp h
  by_cases hguard : call.phase = .waiting ∧ s.resolved call.predecessor = true
  · rw [if_pos hguard] at hstep
    exact ⟨call, hcall, hguard.1, hguard.2, (Option.some.inj hstep).symm⟩
  · rw [if_neg hguard] at hstep
    cases hstep

theorem step_settle {outcome : Outcome} (h : step s (.settle i outcome) = some t) :
    ∃ call, s.calls[i]? = some call ∧ call.phase = .running ∧
      t = s.put i { call with phase := .settled outcome } := by
  obtain ⟨call, hcall, hstep⟩ := Option.bind_eq_some_iff.mp h
  by_cases hguard : call.phase = .running
  · rw [if_pos hguard] at hstep
    exact ⟨call, hcall, hguard, (Option.some.inj hstep).symm⟩
  · rw [if_neg hguard] at hstep
    cases hstep

theorem step_release (h : step s (.release i) = some t) :
    ∃ call outcome, s.calls[i]? = some call ∧ call.phase = .settled outcome ∧ t = s.leave i call outcome := by
  obtain ⟨call, hcall, hstep⟩ := Option.bind_eq_some_iff.mp h
  cases hphase : call.phase with
  | settled outcome =>
    rw [hphase] at hstep
    exact ⟨call, outcome, hcall, hphase, (Option.some.inj hstep).symm⟩
  | waiting => simp [hphase] at hstep
  | running => simp [hphase] at hstep
  | finished outcome => simp [hphase] at hstep

theorem resume_fires {call : Call Path} (hcall : s.calls[i]? = some call) (hphase : call.phase = .waiting) :
    (step s (.resume i)).isSome = true ↔ s.resolved call.predecessor = true := by
  simp only [step, hcall, Option.bind_some]
  by_cases hresolved : s.resolved call.predecessor = true
  · simp [hphase, hresolved]
  · simp [hresolved]

theorem settle_fires {call : Call Path} (hcall : s.calls[i]? = some call) (hphase : call.phase = .running)
    (outcome : Outcome) : step s (.settle i outcome) = some (s.put i { call with phase := .settled outcome }) := by
  simp only [step, hcall, Option.bind_some, hphase, if_true]

theorem release_fires {call : Call Path} {outcome : Outcome} (hcall : s.calls[i]? = some call)
    (hphase : call.phase = .settled outcome) : step s (.release i) = some (s.leave i call outcome) := by
  simp only [step, hcall, Option.bind_some, hphase]

end

end NeonDiff.MirrorLock
