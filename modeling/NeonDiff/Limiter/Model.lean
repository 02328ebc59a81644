import Mathlib.Logic.Function.Basic

/-! # The rate limiter of the licence service -/

namespace NeonDiff.Limiter

structure RateLimiterOptions where
  maxPerWindow : Nat
  windowMs : Int
  deriving DecidableEq, Repr

abbrev Hits : Type := String → Option (List Int)

def Hits.empty : Hits := fun _ => none

/-- `hits.get(key) ?? []`. -/
def Hits.times (hits : Hits) (key : String) : List Int := (hits key).getD []

/-- `RateLimiter.allow`: the answer and the map after it. -/
def allow (opts : RateLimiterOptions) (hits : Hits) (key : String) (now : Int) : Bool × Hits :=
  let cutoff := now - opts.windowMs
  let recent := (hits.times key).filter fun t => cutoff < t
  if opts.maxPerWindow ≤ recent.length then (false, Function.update hits key (some recent))
  else (true, Function.update hits key (some (recent ++ [now])))

/-! ## Histories -/

structure AllowCall where
  key : String
  now : Int
  deriving DecidableEq, Repr

/-- The calls of a run with their answers. -/
def history (opts : RateLimiterOptions) (hits : Hits) : List AllowCall → List (AllowCall × Bool)
  | [] => []
  | call :: calls =>
    let (allowed, after) := allow opts hits call.key call.now
    (call, allowed) :: history opts after calls

def allowedTimes (key : String) (past : List (AllowCall × Bool)) : List Int :=
  (past.filter fun entry => entry.1.key = key && entry.2).map fun entry => entry.1.now

example : (history ⟨1, 10⟩ .empty [⟨"a", 0⟩, ⟨"a", 9⟩, ⟨"b", 9⟩, ⟨"a", 10⟩]).map Prod.snd = [true, false, true, true] := by
  decide

end NeonDiff.Limiter
