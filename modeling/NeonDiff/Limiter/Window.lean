import Mathlib.Data.List.Basic
import NeonDiff.Limiter.Model

/-! # Every window is bounded

What the limiter keeps for a key are its allowed calls, less those that no later call can count. A call that comes last
in a window counts all others of the window, so the check of that call bounds the window.
-/

namespace NeonDiff.Limiter

variable {opts : RateLimiterOptions} {hits : Hits} {past : List (AllowCall × Bool)} {times : List Int}

/-! ## One step -/

section

variable (opts hits) (key : String) (now : Int)

/-- The hits that still count. -/
def recent : List Int := (hits.times key).filter fun t => now - opts.windowMs < t

theorem allow_refused (h : opts.maxPerWindow ≤ (recent opts hits key now).length) :
    allow opts hits key now = (false, Function.update hits key (some (recent opts hits key now))) := if_pos h

theorem allow_allowed (h : ¬opts.maxPerWindow ≤ (recent opts hits key now).length) :
    allow opts hits key now = (true, Function.update hits key (some (recent opts hits key now ++ [now]))) := if_neg h

theorem recent_update_self (kept : List Int) :
    recent opts (Function.update hits key (some kept)) key now = kept.filter fun t => now - opts.windowMs < t := by
  unfold recent Hits.times
  rw [Function.update_self]
  rfl

theorem recent_update_of_ne {other : String} (h : other ≠ key) (kept : List Int) :
    recent opts (Function.update hits key (some kept)) other now = recent opts hits other now := by
  unfold recent Hits.times
  rw [Function.update_of_ne h]

end

theorem allowedTimes_concat (key : String) (past : List (AllowCall × Bool)) (call : AllowCall) (allowed : Bool) :
    allowedTimes key (past ++ [(call, allowed)]) =
      allowedTimes key past ++ (if call.key = key ∧ allowed = true then [call.now] else []) := by
  unfold allowedTimes
  rw [List.filter_append, List.map_append]
  congr 1
  by_cases h : call.key = key ∧ allowed = true
  · rw [if_pos h, List.filter_cons_of_pos (by simpa using h)]
    rfl
  · rw [if_neg h, List.filter_cons_of_neg (by simpa using h)]
    rfl

theorem mem_allowedTimes {key : String} {t : Int} (h : t ∈ allowedTimes key past) :
    ∃ entry ∈ past, entry.1.now = t := by
  obtain ⟨entry, hentry, rfl⟩ := List.mem_map.mp h
  exact ⟨entry, List.mem_of_mem_filter hentry, rfl⟩

/-! ## Windows -/

/-- No half-open window of the length holds more than the limit, closed to the left or to the right. -/
def Windowed (opts : RateLimiterOptions) (times : List Int) : Prop :=
  ∀ start, (times.filter fun t => start ≤ t && t < start + opts.windowMs).length ≤ opts.maxPerWindow ∧
    (times.filter fun t => start < t && t ≤ start + opts.windowMs).length ≤ opts.maxPerWindow

theorem length_filter_concat {p : Int → Bool} {now : Int} (hp : (times.filter p).length ≤ opts.maxPerWindow)
    (hcounts : p now = true → ∀ t, p t = true → now - opts.windowMs < t)
    (hroom : (times.filter fun t => now - opts.windowMs < t).length < opts.maxPerWindow) :
    ((times ++ [now]).filter p).length ≤ opts.maxPerWindow := by
  rw [List.filter_append, List.length_append]
  by_cases hnow : p now = true
  · have hle : (times.filter p).length ≤ (times.filter fun t => now - opts.windowMs < t).length := by
      apply List.Sublist.length_le
      apply List.monotone_filter_right
      intro t ht
      exact decide_eq_true (hcounts hnow t ht)
    rw [List.filter_cons_of_pos hnow, List.filter_nil, List.length_singleton]
    omega
  · rw [List.filter_cons_of_neg hnow, List.filter_nil, List.length_nil]
    omega

theorem Windowed.concat {now : Int} (h : Windowed opts times)
    (hroom : (times.filter fun t => now - opts.windowMs < t).length < opts.maxPerWindow) :
    Windowed opts (times ++ [now]) := by
  intro start
  constructor
  · apply length_filter_concat (h start).1 _ hroom
    intro hnow t ht
    simp only [Bool.and_eq_true, decide_eq_true_eq] at hnow ht
    omega
  · apply length_filter_concat (h start).2 _ hroom
    intro hnow t ht
    simp only [Bool.and_eq_true, decide_eq_true_eq] at hnow ht
    omega

theorem windowed_nil : Windowed opts [] := fun _ => ⟨Nat.zero_le _, Nat.zero_le _⟩

/-! ## The invariant -/

/-- The map has of the allowed calls all that a call can still count, and they keep to the limit. -/
structure Tracks (opts : RateLimiterOptions) (past : List (AllowCall × Bool)) (hits : Hits) : Prop where
  kept : ∀ key now, (∀ entry ∈ past, entry.1.now ≤ now) → recent opts hits key now =
    (allowedTimes key past).filter fun t => now - opts.windowMs < t
  windowed : ∀ key, Windowed opts (allowedTimes key past)

theorem tracks_empty : Tracks opts [] .empty := ⟨fun _ _ _ => rfl, fun _ => windowed_nil⟩

theorem filter_recent (times : List Int) {now later : Int} (h : now ≤ later) :
    (times.filter fun t => now - opts.windowMs < t).filter (fun t => later - opts.windowMs < t) =
      times.filter fun t => later - opts.windowMs < t := by
  rw [List.filter_filter]
  apply List.filter_congr
  intro t _
  apply Bool.eq_iff_iff.mpr
  simp only [Bool.and_eq_true, decide_eq_true_eq]
  omega

theorem Tracks.step (h : Tracks opts past hits) {call : AllowCall} (hlast : ∀ entry ∈ past, entry.1.now ≤ call.now) :
    Tracks opts (past ++ [(call, (allow opts hits call.key call.now).1)]) (allow opts hits call.key call.now).2 := by
  have hkept := h.kept call.key call.now hlast
  have hlater : ∀ {allowed : Bool} {now : Int},
      (∀ entry ∈ past ++ [(call, allowed)], entry.1.now ≤ now) → call.now ≤ now := by
    intro allowed now hnow
    exact hnow (call, allowed) (List.mem_append_right _ List.mem_cons_self)
  have hbefore : ∀ {allowed : Bool} {now : Int},
      (∀ entry ∈ past ++ [(call, allowed)], entry.1.now ≤ now) → ∀ entry ∈ past, entry.1.now ≤ now :=
    fun hnow entry hentry => hnow entry (List.mem_append_left _ hentry)
  by_cases hfull : opts.maxPerWindow ≤ (recent opts hits call.key call.now).length
  · rw [allow_refused opts hits _ _ hfull]
    constructor
    · intro key now hnow
      rw [allowedTimes_concat, if_neg (by simp), List.append_nil]
      by_cases hkey : key = call.key
      · subst hkey
        rw [recent_update_self, hkept, filter_recent _ (hlater hnow)]
      · rw [recent_update_of_ne opts hits _ _ hkey]
        exact h.kept key now (hbefore hnow)
    · intro key
      rw [allowedTimes_concat, if_neg (by simp), List.append_nil]
      exact h.windowed key
  · rw [allow_allowed opts hits _ _ hfull]
    constructor
    · intro key now hnow
      rw [allowedTimes_concat]
      by_cases hkey : key = call.key
      · subst hkey
        rw [recent_update_self, if_pos ⟨rfl, rfl⟩, List.filter_append, List.filter_append, hkept,
          filter_recent _ (hlater hnow)]
      · rw [recent_update_of_ne opts hits _ _ hkey, if_neg (fun heq => hkey heq.1.symm), List.append_nil]
        exact h.kept key now (hbefore hnow)
    · intro key
      rw [allowedTimes_concat]
      by_cases hkey : call.key = key
      · subst hkey
        rw [if_pos ⟨rfl, rfl⟩]
        apply (h.windowed _).concat
        rw [← hkept]
        omega
      · rw [if_neg (fun heq => hkey heq.1), List.append_nil]
        exact h.windowed key

/-! ## Whole runs -/

/-- A refused call comes after as many allowed ones for its key in the window that it ends. -/
def Justified (opts : RateLimiterOptions) (past : List (AllowCall × Bool)) (entry : AllowCall × Bool) : Prop :=
  entry.2 = false → opts.maxPerWindow ≤ ((allowedTimes entry.1.key past).filter fun t =>
    entry.1.now - opts.windowMs < t && t ≤ entry.1.now).length

theorem Tracks.justified (h : Tracks opts past hits) {call : AllowCall} (hlast : ∀ entry ∈ past, entry.1.now ≤ call.now) :
    Justified opts past (call, (allow opts hits call.key call.now).1) := by
  intro hrefused
  have hfull : opts.maxPerWindow ≤ (recent opts hits call.key call.now).length := by
    by_contra hroom
    rw [allow_allowed opts hits _ _ hroom] at hrefused
    cases hrefused
  rw [h.kept _ _ hlast] at hfull
  have hsame : ((allowedTimes call.key past).filter fun t => call.now - opts.windowMs < t && t ≤ call.now) =
      (allowedTimes call.key past).filter fun t => call.now - opts.windowMs < t := by
    apply List.filter_congr
    intro t ht
    obtain ⟨entry, hentry, rfl⟩ := mem_allowedTimes ht
    rw [decide_eq_true (hlast entry hentry), Bool.and_true]
  dsimp only
  rw [hsame]
  exact hfull

theorem history_tracks (h : Tracks opts past hits) {calls : List AllowCall}
    (horder : (calls.map AllowCall.now).Pairwise (· ≤ ·))
    (hlast : ∀ entry ∈ past, ∀ call ∈ calls, entry.1.now ≤ call.now) :
    (∃ after, Tracks opts (past ++ history opts hits calls) after) ∧
      ∀ front entry rest, history opts hits calls = front ++ entry :: rest → Justified opts (past ++ front) entry := by
  induction calls generalizing past hits with
  | nil =>
    constructor
    · exact ⟨hits, by rwa [history, List.append_nil]⟩
    · intro front entry rest heq
      exact absurd heq.symm (by simp [history])
  | cons call calls ih =>
    rw [List.map_cons, List.pairwise_cons] at horder
    have hcall := fun entry hentry => hlast entry hentry call List.mem_cons_self
    have hnext : ∀ entry ∈ past ++ [(call, (allow opts hits call.key call.now).1)], ∀ later ∈ calls,
        entry.1.now ≤ later.now := by
      intro entry hentry later hlater
      rcases List.mem_append.mp hentry with hentry | hentry
      · exact hlast entry hentry later (List.mem_cons_of_mem _ hlater)
      · rw [List.mem_singleton.mp hentry]
        exact horder.1 _ (List.mem_map_of_mem hlater)
    obtain ⟨⟨after, hafter⟩, hrefusals⟩ := ih (h.step hcall) horder.2 hnext
    have hhistory : history opts hits (call :: calls) = (call, (allow opts hits call.key call.now).1) ::
        history opts (allow opts hits call.key call.now).2 calls := rfl
    rw [hhistory]
    constructor
    · refine ⟨after, ?_⟩
      rwa [List.append_assoc] at hafter
    · intro front entry rest heq
      cases front with
      | nil =>
        obtain ⟨rfl, -⟩ := List.cons.inj heq
        rw [List.append_nil]
        exact h.justified hcall
      | cons first front =>
        obtain ⟨rfl, hrest⟩ := List.cons.inj heq
        have hjustified := hrefusals front entry rest hrest
        rwa [List.append_assoc] at hjustified

theorem history_filter (key : String) {other : Hits} (hsame : hits key = other key) (calls : List AllowCall) :
    (history opts hits calls).filter (fun entry => entry.1.key = key) =
      history opts other (calls.filter fun call => call.key = key) := by
  induction calls generalizing hits other with
  | nil => rfl
  | cons call calls ih =>
    have hhistory : ∀ hits : Hits, ∀ calls, history opts hits (call :: calls) =
        (call, (allow opts hits call.key call.now).1) :: history opts (allow opts hits call.key call.now).2 calls :=
      fun _ _ => rfl
    have hrecent : ∀ {hits other : Hits}, hits call.key = other call.key →
        recent opts hits call.key call.now = recent opts other call.key call.now := by
      intro hits other h
      unfold recent Hits.times
      rw [h]
    rw [hhistory]
    by_cases hkey : call.key = key
    · subst hkey
      have hnow := hrecent hsame
      rw [List.filter_cons_of_pos (by simp), List.filter_cons_of_pos (by simp), hhistory]
      by_cases hfull : opts.maxPerWindow ≤ (recent opts hits call.key call.now).length
      · rw [allow_refused opts hits _ _ hfull, allow_refused opts other _ _ (hnow ▸ hfull)]
        refine congrArg _ (ih ?_)
        dsimp only
        rw [Function.update_self, Function.update_self, hnow]
      · rw [allow_allowed opts hits _ _ hfull, allow_allowed opts other _ _ (hnow ▸ hfull)]
        refine congrArg _ (ih ?_)
        dsimp only
        rw [Function.update_self, Function.update_self, hnow]
    · rw [List.filter_cons_of_neg (by simpa using hkey), List.filter_cons_of_neg (by simpa using hkey)]
      apply ih
      rw [← hsame]
      by_cases hfull : opts.maxPerWindow ≤ (recent opts hits call.key call.now).length
      · rw [allow_refused opts hits _ _ hfull]
        exact Function.update_of_ne (Ne.symm hkey) _ _
      · rw [allow_allowed opts hits _ _ hfull]
        exact Function.update_of_ne (Ne.symm hkey) _ _

/-- On a clock that does not go back every window of a key holds at most the limit, a call is refused only where the
window it ends is full, and the answers for a key depend on its calls alone. -/
theorem limiter_slides (opts : RateLimiterOptions) (calls : List AllowCall)
    (horder : (calls.map AllowCall.now).Pairwise (· ≤ ·)) :
    (∀ key, Windowed opts (allowedTimes key (history opts .empty calls))) ∧
      (∀ past entry later, history opts .empty calls = past ++ entry :: later → Justified opts past entry) ∧
      ∀ key, (history opts .empty calls).filter (fun entry => entry.1.key = key) =
        history opts .empty (calls.filter fun call => call.key = key) := by
  obtain ⟨⟨after, hafter⟩, hrefusals⟩ := history_tracks tracks_empty horder (fun _ hentry => nomatch hentry)
  exact ⟨hafter.windowed, hrefusals, fun key => history_filter key rfl calls⟩

theorem limiter_slides_twice :
    ([⟨"a", 0⟩, ⟨"b", 3⟩, ⟨"a", 9⟩].map AllowCall.now).Pairwise (· ≤ ·) ∧
      Windowed ⟨1, 10⟩ (allowedTimes "a" (history ⟨1, 10⟩ .empty [⟨"a", 0⟩, ⟨"b", 3⟩, ⟨"a", 9⟩])) := by
  refine ⟨by decide, ?_⟩
  exact (limiter_slides ⟨1, 10⟩ [⟨"a", 0⟩, ⟨"b", 3⟩, ⟨"a", 9⟩] (by decide)).1 "a"

end NeonDiff.Limiter
