import Mathlib.Data.List.Basic
import Mathlib.Data.List.Infix
import NeonDiff.MirrorLock.Model

/-! # The mirror lock is exclusive, in order and without leftovers

The tails of a path form a chain: each call waits for the call of its path before it, or for nothing when all of these are
over. So the calls that have started are the first of their path, and all of them but one are over.
-/

namespace NeonDiff.MirrorLock

open NeonDiff.Lib

variable {Path : Type} {s t : State Path} {path : Path} {i j n : Nat} {call after : Call Path}

/-! ## Calls by number -/

def pathOf (s : State Path) (i : Nat) : Option Path := s.calls[i]?.map Call.mirrorPath

def Done (s : State Path) (i : Nat) : Prop := ∃ call outcome, s.calls[i]? = some call ∧ call.phase = .finished outcome

def begun (s : State Path) (i : Nat) : Bool := s.calls[i]?.any fun call => call.phase ≠ .waiting

theorem pathOf_of_call (h : s.calls[i]? = some call) : pathOf s i = some call.mirrorPath := by
  unfold pathOf
  rw [h]
  rfl

theorem exists_call (h : pathOf s i = some path) : ∃ call, s.calls[i]? = some call ∧ call.mirrorPath = path :=
  Option.map_eq_some_iff.mp h

theorem begun_of_call (h : s.calls[i]? = some call) : begun s i = true ↔ call.phase ≠ .waiting := by
  unfold begun
  rw [h]
  simp

theorem not_done_of_call (h : s.calls[i]? = some call) (hphase : ∀ outcome, call.phase ≠ .finished outcome) :
    ¬Done s i := by
  rintro ⟨other, outcome, hother, hfinished⟩
  obtain rfl := Option.some.inj (h.symm.trans hother)
  exact hphase outcome hfinished

/-- `t` has the calls of `s`, with their paths, and perhaps more; what was over is over. -/
structure Extends (s t : State Path) : Prop where
  path : ∀ i < s.calls.length, pathOf t i = pathOf s i
  done : ∀ i, Done s i → Done t i

/-! ## One changed call -/

theorem set_self (hcall : s.calls[i]? = some call) (hcalls : t.calls = s.calls.set i after) :
    t.calls[i]? = some after := by
  rw [hcalls, List.getElem?_set_self (List.getElem?_eq_some_iff.mp hcall).1]

theorem set_other (hcalls : t.calls = s.calls.set i after) (h : j ≠ i) : t.calls[j]? = s.calls[j]? := by
  rw [hcalls, List.getElem?_set_ne h.symm]

theorem set_cases (hcall : s.calls[i]? = some call) (hcalls : t.calls = s.calls.set i after) {other : Call Path}
    (h : t.calls[j]? = some other) : j = i ∧ other = after ∨ j ≠ i ∧ s.calls[j]? = some other := by
  by_cases hji : j = i
  · subst hji
    rw [set_self hcall hcalls] at h
    exact .inl ⟨rfl, (Option.some.inj h).symm⟩
  · rw [set_other hcalls hji] at h
    exact .inr ⟨hji, h⟩

theorem set_pathOf (hcall : s.calls[i]? = some call) (hcalls : t.calls = s.calls.set i after)
    (hpath : after.mirrorPath = call.mirrorPath) (j : Nat) : pathOf t j = pathOf s j := by
  by_cases hji : j = i
  · subst hji
    rw [pathOf_of_call (set_self hcall hcalls), pathOf_of_call hcall, hpath]
  · unfold pathOf
    rw [set_other hcalls hji]

theorem done_set (hcalls : t.calls = s.calls.set i after) (hji : j ≠ i) : Done t j ↔ Done s j := by
  unfold Done
  rw [set_other hcalls hji]

theorem begun_set (hcalls : t.calls = s.calls.set i after) (hji : j ≠ i) : begun t j = begun s j := by
  unfold begun
  rw [set_other hcalls hji]

theorem set_extends (hcall : s.calls[i]? = some call) (hcalls : t.calls = s.calls.set i after)
    (hpath : after.mirrorPath = call.mirrorPath) (hphase : ∀ outcome, call.phase ≠ .finished outcome) : Extends s t := by
  constructor
  · intro j _
    exact set_pathOf hcall hcalls hpath j
  · intro j hdone
    rwa [done_set hcalls]
    rintro rfl
    exact not_done_of_call hcall hphase hdone

/-! ## One new call -/

variable [DecidableEq Path]

def callsOf (s : State Path) (path : Path) : List Nat :=
  (List.range s.calls.length).filter fun i => pathOf s i = some path

def startedOf (s : State Path) (path : Path) : List Nat := s.started.filter fun i => pathOf s i = some path

theorem enter_old (s : State Path) (path : Path) (h : i < s.calls.length) :
    (s.enter path).calls[i]? = s.calls[i]? := List.getElem?_append_left h

theorem enter_new (s : State Path) (path : Path) :
    (s.enter path).calls[s.calls.length]? = some ⟨path, s.gitMirrorTails path, .waiting, false⟩ := by
  unfold State.enter
  simp

theorem enter_length (s : State Path) (path : Path) : (s.enter path).calls.length = s.calls.length + 1 := by
  unfold State.enter
  simp

theorem enter_cases {other : Call Path} (h : (s.enter path).calls[i]? = some other) :
    s.calls[i]? = some other ∨ i = s.calls.length ∧ other = ⟨path, s.gitMirrorTails path, .waiting, false⟩ := by
  have hlt := (List.getElem?_eq_some_iff.mp h).1
  rw [enter_length] at hlt
  by_cases hold : i < s.calls.length
  · rw [enter_old s path hold] at h
    exact .inl h
  · have hi : i = s.calls.length := by omega
    subst hi
    rw [enter_new] at h
    exact .inr ⟨rfl, (Option.some.inj h).symm⟩

theorem enter_extends (s : State Path) (path : Path) : Extends s (s.enter path) := by
  constructor
  · intro i hi
    unfold pathOf
    rw [enter_old s path hi]
  · rintro i ⟨call, outcome, hcall, hphase⟩
    refine ⟨call, outcome, ?_, hphase⟩
    rwa [enter_old s path (List.getElem?_eq_some_iff.mp hcall).1]

theorem done_enter (h : Done (s.enter path) i) : Done s i := by
  obtain ⟨call, outcome, hcall, hphase⟩ := h
  rcases enter_cases hcall with hcall | ⟨-, rfl⟩
  · exact ⟨call, outcome, hcall, hphase⟩
  · cases hphase

theorem filter_concat {l : List Nat} {p q : Nat → Bool} (hl : l.Pairwise (· < ·)) (hi : i ∈ l) (hpi : p i = false)
    (hqi : q i = true) (hsame : ∀ j ∈ l, j ≠ i → q j = p j) (hbefore : ∀ j ∈ l, p j = true → j < i) :
    l.filter q = l.filter p ++ [i] := by
  induction l with
  | nil => cases hi
  | cons a l ih =>
    rw [List.pairwise_cons] at hl
    rw [List.forall_mem_cons] at hsame hbefore
    by_cases ha : a = i
    · subst ha
      have hafter : ∀ j ∈ l, p j = false := by
        intro j hj
        by_contra hp
        have hlt := hbefore.2 j hj (by simpa using hp)
        have hgt := hl.1 j hj
        omega
      have hq : l.filter q = [] := by
        apply List.filter_eq_nil_iff.mpr
        intro j hj
        have hgt := hl.1 j hj
        rw [hsame.2 j hj (by omega), hafter j hj]
        simp
      have hp : l.filter p = [] := by
        apply List.filter_eq_nil_iff.mpr
        intro j hj
        rw [hafter j hj]
        simp
      rw [List.filter_cons_of_pos hqi, List.filter_cons_of_neg (by simp [hpi]), hq, hp]
      rfl
    · have htail := ih hl.2 (List.mem_of_ne_of_mem (Ne.symm ha) hi) hsame.2 hbefore.2
      by_cases hp : p a = true
      · rw [List.filter_cons_of_pos (by rwa [hsame.1 ha]), List.filter_cons_of_pos hp, htail]
        rfl
      · rw [List.filter_cons_of_neg (by rwa [hsame.1 ha]), List.filter_cons_of_neg hp, htail]

theorem filter_initial {l : List Nat} {p : Nat → Bool} (h : l.Pairwise fun a b => p b = true → p a = true) :
    l.filter p <+: l := by
  induction l with
  | nil => exact List.nil_prefix
  | cons a l ih =>
    rw [List.pairwise_cons] at h
    by_cases ha : p a = true
    · rw [List.filter_cons_of_pos ha, List.cons_prefix_cons]
      exact ⟨rfl, ih h.2⟩
    · have hnone : l.filter p = [] := by
        apply List.filter_eq_nil_iff.mpr
        exact fun b hb hp => ha (h.1 b hb hp)
      rw [List.filter_cons_of_neg ha, hnone]
      exact List.nil_prefix

/-! ## The chain of tails -/

/-- What a call that comes as the `n`-th waits for: the call of its path before it, or nothing when those are over. -/
def Follows (s : State Path) (path : Path) (n : Nat) : Option Nat → Prop
  | none => ∀ j < n, pathOf s j = some path → Done s j
  | some tail => tail < n ∧ pathOf s tail = some path ∧ ∀ j < n, tail < j → pathOf s j ≠ some path

omit [DecidableEq Path] in
theorem Follows.extends {tail : Option Nat} (h : Follows s path n tail) (hn : n ≤ s.calls.length) (ht : Extends s t) :
    Follows t path n tail := by
  cases tail with
  | none =>
    intro j hj hpath
    rw [ht.path j (by omega)] at hpath
    exact ht.done j (h j hj hpath)
  | some tail =>
    obtain ⟨hlt, hpath, hlast⟩ := h
    refine ⟨hlt, ?_, ?_⟩
    · rwa [ht.path tail (by omega)]
    · intro j hj hafter
      rw [ht.path j (by omega)]
      exact hlast j hj hafter

omit [DecidableEq Path] in
theorem Follows.succ {tail : Option Nat} (h : Follows s path n tail) (hother : pathOf s n ≠ some path) :
    Follows s path (n + 1) tail := by
  cases tail with
  | none =>
    intro j hj hpath
    have hne : j ≠ n := by
      rintro rfl
      exact hother hpath
    exact h j (by omega) hpath
  | some tail =>
    obtain ⟨hlt, hpath, hlast⟩ := h
    refine ⟨by omega, hpath, ?_⟩
    intro j hj hafter
    by_cases hne : j = n
    · subst hne
      exact hother
    · exact hlast j (by omega) hafter

structure Chained (s : State Path) : Prop where
  follows : ∀ i call, s.calls[i]? = some call → Follows s call.mirrorPath i call.predecessor
  table : ∀ path, Follows s path s.calls.length (s.gitMirrorTails path)
  pending : ∀ path i, s.gitMirrorTails path = some i → ¬Done s i
  /-- A call starts when those of its path before it are over. -/
  earlier : ∀ i call, s.calls[i]? = some call → call.phase ≠ .waiting →
    ∀ j < i, pathOf s j = some call.mirrorPath → Done s j
  released : ∀ (i : Nat) (call : Call Path), s.calls[i]? = some call → (call.released = true ↔ ∃ outcome, call.phase = .finished outcome)
  known : ∀ i ∈ s.started, i < s.calls.length
  started : ∀ path, startedOf s path = (callsOf s path).filter (begun s)

theorem chained_initial : Chained (State.initial : State Path) := by
  constructor <;> simp [State.initial, Follows, startedOf, callsOf]

/-! ## Steps -/

theorem Chained.resolved_iff (h : Chained s) (hcall : s.calls[i]? = some call) :
    s.resolved call.predecessor = true ↔ ∀ j < i, pathOf s j = some call.mirrorPath → Done s j := by
  have hfollows := h.follows i call hcall
  cases hpred : call.predecessor with
  | none =>
    rw [hpred] at hfollows
    exact ⟨fun _ => hfollows, fun _ => rfl⟩
  | some tail =>
    rw [hpred] at hfollows
    obtain ⟨hlt, hpath, hlast⟩ := hfollows
    obtain ⟨before, hbefore, hsame⟩ := exists_call hpath
    have hreleased := h.released tail before hbefore
    simp only [State.resolved, hbefore, Option.any_some, hreleased]
    constructor
    · rintro ⟨outcome, hfinished⟩ j hj hpathj
      have hle : ¬tail < j := fun hafter => hlast j hj hafter hpathj
      by_cases hj' : j = tail
      · subst hj'
        exact ⟨before, outcome, hbefore, hfinished⟩
      · have hphase : before.phase ≠ .waiting := by
          rw [hfinished]
          simp
        apply h.earlier tail before hbefore hphase j (by omega)
        rwa [hsame]
    · intro hall
      obtain ⟨other, outcome, hother, hfinished⟩ := hall tail hlt hpath
      obtain rfl := Option.some.inj (hbefore.symm.trans hother)
      exact ⟨outcome, hfinished⟩

theorem Chained.enter (h : Chained s) (path : Path) : Chained (s.enter path) := by
  have hext := enter_extends s path
  have hnew : pathOf (s.enter path) s.calls.length = some path := pathOf_of_call (enter_new s path)
  have htails : ∀ other, other ≠ path → (s.enter path).gitMirrorTails other = s.gitMirrorTails other :=
    fun other hother => Function.update_of_ne hother _ _
  have htail : (s.enter path).gitMirrorTails path = some s.calls.length := Function.update_self _ _ _
  constructor
  · intro i call hcall
    rcases enter_cases hcall with hcall | ⟨rfl, rfl⟩
    · exact (h.follows i call hcall).extends (List.getElem?_eq_some_iff.mp hcall).1.le hext
    · exact (h.table path).extends le_rfl hext
  · intro other
    rw [enter_length]
    by_cases hother : other = path
    · subst hother
      rw [htail]
      refine ⟨by omega, hnew, ?_⟩
      intro j hj hafter
      omega
    · rw [htails other hother]
      apply ((h.table other).extends le_rfl hext).succ
      rw [hnew]
      exact fun heq => hother (Option.some.inj heq).symm
  · intro other i hi hdone
    by_cases hother : other = path
    · subst hother
      rw [htail] at hi
      obtain rfl := Option.some.inj hi
      exact not_done_of_call (enter_new s other) (by simp) hdone
    · rw [htails other hother] at hi
      exact h.pending other i hi (done_enter hdone)
  · intro i call hcall hphase j hj hpath
    rcases enter_cases hcall with hcall | ⟨-, rfl⟩
    · have hi := (List.getElem?_eq_some_iff.mp hcall).1
      rw [hext.path j (by omega)] at hpath
      exact hext.done j (h.earlier i call hcall hphase j hj hpath)
    · exact absurd rfl hphase
  · intro i call hcall
    rcases enter_cases hcall with hcall | ⟨-, rfl⟩
    · exact h.released i call hcall
    · simp
  · intro i hi
    have hlt := h.known i hi
    rw [enter_length]
    omega
  · intro other
    have hstarted : startedOf (s.enter path) other = startedOf s other := by
      apply List.filter_congr
      intro i hi
      rw [hext.path i (h.known i hi)]
    have hlast : begun (s.enter path) s.calls.length = false := by
      unfold begun
      rw [enter_new]
      simp
    have hcalls : (callsOf (s.enter path) other).filter (begun (s.enter path)) = (callsOf s other).filter (begun s) := by
      unfold callsOf
      rw [enter_length, List.range_succ, List.filter_append, List.filter_append, List.filter_filter, List.filter_filter,
        List.filter_filter, List.filter_cons_of_neg (by simp [hlast]), List.filter_nil, List.append_nil]
      apply List.filter_congr
      intro i hi
      have hlt := List.mem_range.mp hi
      unfold begun
      rw [hext.path i hlt, enter_old s path hlt]
    rw [hstarted, hcalls, h.started]

theorem Chained.change (h : Chained s) (hcall : s.calls[i]? = some call) (hcalls : t.calls = s.calls.set i after)
    (hpath : after.mirrorPath = call.mirrorPath) (hpred : after.predecessor = call.predecessor)
    (hphase : ∀ outcome, call.phase ≠ .finished outcome)
    (hearlier : ∀ j < i, pathOf s j = some call.mirrorPath → Done s j)
    (hreleased : after.released = true ↔ ∃ outcome, after.phase = .finished outcome)
    (htable : ∀ path, Follows t path s.calls.length (t.gitMirrorTails path))
    (hpending : ∀ path j, t.gitMirrorTails path = some j → ¬Done t j)
    (hknown : ∀ j ∈ t.started, j < s.calls.length)
    (hstarted : ∀ path, startedOf t path = (callsOf s path).filter (begun t)) : Chained t := by
  have hext := set_extends hcall hcalls hpath hphase
  have hlength : t.calls.length = s.calls.length := by
    rw [hcalls, List.length_set]
  constructor
  · intro j other hother
    rcases set_cases hcall hcalls hother with ⟨rfl, rfl⟩ | ⟨-, hother⟩
    · rw [hpath, hpred]
      exact (h.follows j call hcall).extends (List.getElem?_eq_some_iff.mp hcall).1.le hext
    · exact (h.follows j other hother).extends (List.getElem?_eq_some_iff.mp hother).1.le hext
  · rwa [hlength]
  · exact hpending
  · intro j other hother hbegun k hk hpathk
    rw [set_pathOf hcall hcalls hpath] at hpathk
    apply hext.done
    rcases set_cases hcall hcalls hother with ⟨rfl, rfl⟩ | ⟨-, hother⟩
    · rw [hpath] at hpathk
      exact hearlier k hk hpathk
    · exact h.earlier j other hother hbegun k hk hpathk
  · intro j other hother
    rcases set_cases hcall hcalls hother with ⟨-, rfl⟩ | ⟨-, hother⟩
    · exact hreleased
    · exact h.released j other hother
  · rwa [hlength]
  · intro path
    have hsame : callsOf t path = callsOf s path := by
      unfold callsOf
      rw [hlength]
      apply List.filter_congr
      intro j _
      rw [set_pathOf hcall hcalls hpath]
    rw [hsame]
    exact hstarted path

theorem Chained.resume (h : Chained s) (hstep : step s (.resume i) = some t) : Chained t := by
  obtain ⟨call, hcall, hwaiting, hresolved, rfl⟩ := step_resume hstep
  have hnot : ∀ outcome, call.phase ≠ .finished outcome := by simp [hwaiting]
  have hi := (List.getElem?_eq_some_iff.mp hcall).1
  have hearlier := (h.resolved_iff hcall).mp hresolved
  set t : State Path := { s.put i { call with phase := .running } with started := s.started ++ [i] } with ht
  have hcalls : t.calls = s.calls.set i { call with phase := .running } := rfl
  have hext := set_extends hcall hcalls rfl hnot
  apply h.change hcall hcalls rfl rfl hnot hearlier
  · have hreleased := h.released i call hcall
    simpa [hwaiting] using hreleased
  · exact fun path => (h.table path).extends le_rfl hext
  · intro path j htail hdone
    by_cases hji : j = i
    · subst hji
      exact not_done_of_call (set_self hcall hcalls) (by simp) hdone
    · exact h.pending path j htail ((done_set hcalls hji).mp hdone)
  · intro j hj
    rcases List.mem_append.mp hj with hj | hj
    · exact h.known j hj
    · rw [List.mem_singleton.mp hj]
      exact hi
  · intro path
    have hpaths : startedOf t path = (s.started ++ [i]).filter fun j => pathOf s j = some path := by
      apply List.filter_congr
      intro j _
      rw [set_pathOf hcall hcalls rfl]
    rw [hpaths, List.filter_append]
    change startedOf s path ++ _ = _
    rw [h.started path]
    by_cases hpath : pathOf s i = some path
    · rw [List.filter_cons_of_pos (by simpa using hpath), List.filter_nil]
      symm
      apply filter_concat
      · exact (List.pairwise_lt_range).filter _
      · exact List.mem_filter.mpr ⟨List.mem_range.mpr hi, by simpa using hpath⟩
      · rw [Bool.eq_false_iff, ne_eq, begun_of_call hcall]
        exact fun hne => hne hwaiting
      · rw [begun_of_call (set_self hcall hcalls)]
        simp
      · exact fun j _ hji => begun_set hcalls hji
      · -- A later call of the path that has started would mean that this one is over.
        intro j hj hbegun
        have hpathj : pathOf s j = some path := by simpa using (List.mem_filter.mp hj).2
        obtain ⟨other, hother, hsame⟩ := exists_call hpathj
        rw [begun_of_call hother] at hbegun
        by_contra hlt
        by_cases hji : j = i
        · subst hji
          obtain rfl := Option.some.inj (hcall.symm.trans hother)
          exact hbegun hwaiting
        · have hdone := h.earlier j other hother hbegun i (by omega) (by rw [hpath, hsame])
          exact not_done_of_call hcall hnot hdone
    · rw [List.filter_cons_of_neg (by simpa using hpath), List.filter_nil, List.append_nil]
      apply List.filter_congr
      intro j hj
      have hpathj : pathOf s j = some path := by simpa using (List.mem_filter.mp hj).2
      rw [begun_set hcalls]
      rintro rfl
      exact hpath hpathj

theorem Chained.started_set (h : Chained s) (hcall : s.calls[i]? = some call) (hcalls : t.calls = s.calls.set i after)
    (hpath : after.mirrorPath = call.mirrorPath) (hcallBegun : call.phase ≠ .waiting) (hafterBegun : after.phase ≠ .waiting)
    (hstarted : t.started = s.started) (path : Path) : startedOf t path = (callsOf s path).filter (begun t) := by
  have hpaths : startedOf t path = startedOf s path := by
    unfold startedOf
    rw [hstarted]
    apply List.filter_congr
    intro j _
    rw [set_pathOf hcall hcalls hpath]
  rw [hpaths, h.started]
  apply List.filter_congr
  intro j _
  by_cases hji : j = i
  · subst hji
    rw [(begun_of_call hcall).mpr hcallBegun, (begun_of_call (set_self hcall hcalls)).mpr hafterBegun]
  · rw [begun_set hcalls hji]

theorem Chained.settle (h : Chained s) {outcome : Outcome} (hstep : step s (.settle i outcome) = some t) : Chained t := by
  obtain ⟨call, hcall, hrunning, rfl⟩ := step_settle hstep
  have hnot : ∀ outcome, call.phase ≠ .finished outcome := by simp [hrunning]
  have hbegun : call.phase ≠ .waiting := by simp [hrunning]
  have hcalls : (s.put i { call with phase := .settled outcome }).calls =
      s.calls.set i { call with phase := .settled outcome } := rfl
  have hext := set_extends hcall hcalls rfl hnot
  apply h.change hcall hcalls rfl rfl hnot (h.earlier i call hcall hbegun)
  · have hreleased := h.released i call hcall
    simpa [hrunning] using hreleased
  · exact fun path => (h.table path).extends le_rfl hext
  · intro path j htail hdone
    by_cases hji : j = i
    · subst hji
      exact not_done_of_call (set_self hcall hcalls) (by simp) hdone
    · exact h.pending path j htail ((done_set hcalls hji).mp hdone)
  · exact h.known
  · exact h.started_set hcall hcalls rfl hbegun (by simp) rfl

theorem leave_tails {outcome : Outcome} (h : (s.leave i call outcome).gitMirrorTails path = some j) :
    s.gitMirrorTails path = some j ∧ (s.gitMirrorTails call.mirrorPath = some i → path ≠ call.mirrorPath) := by
  unfold State.leave at h
  by_cases htail : s.gitMirrorTails call.mirrorPath = some i
  · simp only [htail, if_true] at h
    by_cases hpath : path = call.mirrorPath
    · subst hpath
      rw [Function.update_self] at h
      cases h
    · rw [Function.update_of_ne hpath] at h
      exact ⟨h, fun _ => hpath⟩
  · simp only [htail, if_false] at h
    exact ⟨h, fun heq => absurd heq htail⟩

theorem Chained.release (h : Chained s) (hstep : step s (.release i) = some t) : Chained t := by
  obtain ⟨call, outcome, hcall, hsettled, rfl⟩ := step_release hstep
  have hnot : ∀ outcome, call.phase ≠ .finished outcome := by simp [hsettled]
  have hbegun : call.phase ≠ .waiting := by simp [hsettled]
  have hearlier := h.earlier i call hcall hbegun
  have hpathi := pathOf_of_call hcall
  set t := s.leave i call outcome with ht
  have hcalls : t.calls = s.calls.set i { call with phase := .finished outcome, released := true } := rfl
  have hext := set_extends hcall hcalls rfl hnot
  have hdone : Done t i := ⟨_, outcome, set_self hcall hcalls, rfl⟩
  apply h.change hcall hcalls rfl rfl hnot hearlier
  · simp
  · intro path
    by_cases hlast : s.gitMirrorTails call.mirrorPath = some i ∧ path = call.mirrorPath
    · -- The entry goes: the call is the last of its path, and those before it are over.
      obtain ⟨htail, rfl⟩ := hlast
      have htable := h.table call.mirrorPath
      rw [htail] at htable
      have hnone : t.gitMirrorTails call.mirrorPath = none := by
        rw [ht]
        unfold State.leave
        simp [htail]
      rw [hnone]
      intro j hj hpathj
      rw [hext.path j hj] at hpathj
      by_cases hji : j = i
      · subst hji
        exact hdone
      · have hle : ¬i < j := fun hafter => htable.2.2 j hj hafter hpathj
        exact hext.done j (hearlier j (by omega) hpathj)
    · have hsame : t.gitMirrorTails path = s.gitMirrorTails path := by
        rw [ht]
        unfold State.leave
        by_cases htail : s.gitMirrorTails call.mirrorPath = some i
        · have hpath : path ≠ call.mirrorPath := fun heq => hlast ⟨htail, heq⟩
          simp [htail, hpath]
        · simp [htail]
      rw [hsame]
      exact (h.table path).extends le_rfl hext
  · intro path j htail hdonej
    obtain ⟨hbefore, hother⟩ := leave_tails htail
    have hpathj := h.table path
    rw [hbefore] at hpathj
    by_cases hji : j = i
    · subst hji
      have hpath : path = call.mirrorPath := Option.some.inj (hpathj.2.1.symm.trans hpathi)
      subst hpath
      exact hother hbefore rfl
    · exact h.pending path j hbefore ((done_set hcalls hji).mp hdonej)
  · exact h.known
  · exact h.started_set hcall hcalls rfl hbegun (by simp) rfl

theorem Chained.step (h : Chained s) {event : Event Path} (hstep : step s event = some t) : Chained t := by
  cases event with
  | call mirrorPath =>
    obtain rfl := Option.some.inj hstep
    exact h.enter mirrorPath
  | resume i => exact h.resume hstep
  | settle i outcome => exact h.settle hstep
  | release i => exact h.release hstep

/-! ## What the chain gives -/

/-- From the call of the action to the release of the lock. -/
def InProgress (s : State Path) (path : Path) (i : Nat) : Prop :=
  ∃ call, s.calls[i]? = some call ∧ call.mirrorPath = path ∧
    (call.phase = .running ∨ ∃ outcome, call.phase = .settled outcome)

def Exclusive (s : State Path) : Prop := ∀ path i j, InProgress s path i → InProgress s path j → i = j

def InOrder (s : State Path) : Prop := ∀ path, startedOf s path <+: callsOf s path

/-- A call that waits can go on if and only if the calls for its path before it are over, whatever other paths do. -/
def WaitsForItsPath (s : State Path) : Prop :=
  ∀ i call, s.calls[i]? = some call → call.phase = .waiting →
    ((step s (.resume i)).isSome = true ↔ ∀ j < i, pathOf s j = some call.mirrorPath → Done s j)

/-- `j` is the call for its path after `i`. -/
def Next (s : State Path) (i j : Nat) : Prop :=
  i < j ∧ pathOf s i = pathOf s j ∧ ∀ k, i < k → k < j → pathOf s k ≠ pathOf s i

/-- An action ends in either way, its lock is released, and the next call for the path can go on. -/
def HandsOver (s : State Path) : Prop :=
  (∀ i call outcome, s.calls[i]? = some call → call.phase = .running →
    (step s (.settle i outcome)).isSome = true) ∧
  ∀ i call outcome, s.calls[i]? = some call → call.phase = .settled outcome →
    ∃ t, step s (.release i) = some t ∧ ∀ j < t.calls.length, Next t i j → (step t (.resume j)).isSome = true

/-- A path whose calls are all over has no entry. -/
def Clean (s : State Path) : Prop :=
  ∀ path, (∀ i, pathOf s i = some path → Done s i) → s.gitMirrorTails path = none

omit [DecidableEq Path] in
theorem InProgress.not_done (h : InProgress s path i) : ¬Done s i := by
  obtain ⟨call, hcall, -, hphase⟩ := h
  apply not_done_of_call hcall
  rcases hphase with hphase | ⟨outcome, hphase⟩ <;> simp [hphase]

theorem Chained.not_before (h : Chained s) (hi : InProgress s path i) (hj : InProgress s path j) : ¬i < j := by
  intro hlt
  obtain ⟨call, hcall, hpath, -⟩ := id hi
  obtain ⟨other, hother, hsame, hphase⟩ := hj
  have hbegun : other.phase ≠ .waiting := by
    rcases hphase with hphase | ⟨outcome, hphase⟩ <;> simp [hphase]
  have hpathi : pathOf s i = some other.mirrorPath := by rw [pathOf_of_call hcall, hpath, hsame]
  exact hi.not_done (h.earlier j other hother hbegun i hlt hpathi)

theorem Chained.exclusive (h : Chained s) : Exclusive s := by
  intro path i j hi hj
  have hle := h.not_before hi hj
  have hge := h.not_before hj hi
  omega

theorem Chained.waitsForItsPath (h : Chained s) : WaitsForItsPath s := by
  intro i call hcall hphase
  rw [resume_fires hcall hphase, h.resolved_iff hcall]

theorem Chained.inOrder (h : Chained s) : InOrder s := by
  intro path
  rw [h.started path]
  apply filter_initial
  have hascending : (callsOf s path).Pairwise (· < ·) := List.pairwise_lt_range.filter _
  apply hascending.imp_of_mem
  intro i j hi hj hlt hbegun
  have hpathi : pathOf s i = some path := by simpa using (List.mem_filter.mp hi).2
  have hpathj : pathOf s j = some path := by simpa using (List.mem_filter.mp hj).2
  obtain ⟨other, hother, hsame⟩ := exists_call hpathj
  rw [begun_of_call hother] at hbegun
  obtain ⟨call, outcome, hcall, hphase⟩ := h.earlier j other hother hbegun i hlt (by rw [hpathi, hsame])
  rw [begun_of_call hcall, hphase]
  simp

theorem Chained.handsOver (h : Chained s) : HandsOver s := by
  constructor
  · intro i call outcome hcall hphase
    rw [settle_fires hcall hphase outcome]
    rfl
  · intro i call outcome hcall hphase
    have hnot : ∀ outcome, call.phase ≠ .finished outcome := by simp [hphase]
    have hstep := release_fires hcall hphase
    have hcalls : (s.leave i call outcome).calls =
        s.calls.set i { call with phase := .finished outcome, released := true } := rfl
    have hext := set_extends hcall hcalls rfl hnot
    have hchained := h.release hstep
    refine ⟨s.leave i call outcome, hstep, ?_⟩
    intro j hj ⟨hlt, hpath, hbetween⟩
    obtain ⟨other, hother⟩ : ∃ other, s.calls[j]? = some other := by
      rw [hcalls, List.length_set] at hj
      exact ⟨s.calls[j], List.getElem?_eq_getElem hj⟩
    have hother' : (s.leave i call outcome).calls[j]? = some other := by
      rw [set_other hcalls (by omega)]
      exact hother
    have hsame : pathOf s i = some other.mirrorPath := by
      rw [← set_pathOf hcall hcalls rfl, hpath]
      exact pathOf_of_call hother'
    have hwaiting : other.phase = .waiting := by
      by_contra hbegun
      exact not_done_of_call hcall hnot (h.earlier j other hother hbegun i hlt hsame)
    rw [resume_fires hother' hwaiting, hchained.resolved_iff hother']
    intro k hk hpathk
    rcases Nat.lt_trichotomy k i with hbefore | heq | hafter
    · rw [set_pathOf hcall hcalls rfl] at hpathk
      apply hext.done
      apply h.earlier i call hcall (by simp [hphase]) k hbefore
      rw [hpathk, ← hsame, pathOf_of_call hcall]
    · subst heq
      exact ⟨_, outcome, set_self hcall hcalls, rfl⟩
    · refine absurd ?_ (hbetween k hafter hk)
      rw [hpathk, set_pathOf hcall hcalls rfl, hsame]

theorem Chained.clean (h : Chained s) : Clean s := by
  intro path hall
  have htable := h.table path
  cases htail : s.gitMirrorTails path with
  | none => rfl
  | some i =>
    rw [htail] at htable
    exact absurd (hall i htable.2.1) (h.pending path i htail)

/-- In every run the actions for a path run one at a time and in the order of their calls, each lets the next one start
however it ends, calls wait for calls of their path only, and a path without pending calls has no entry in the table. -/
theorem mirror_lock_serialises (events : List (Event Path)) (s : State Path)
    (h : run step State.initial events = some s) :
    Exclusive s ∧ InOrder s ∧ HandsOver s ∧ WaitsForItsPath s ∧ Clean s := by
  have hchained : Chained s := run_invariant (fun _ _ _ hchained hstep => hchained.step hstep) chained_initial h
  exact ⟨hchained.exclusive, hchained.inOrder, hchained.handsOver, hchained.waitsForItsPath, hchained.clean⟩

/-- Three calls on two paths, the first action throws and the second call starts after it. -/
theorem mirror_lock_serialises_throw : ∃ s : State Nat,
    run step State.initial [.call 7, .call 7, .call 8, .resume 0, .resume 2, .settle 0 .thrown, .release 0, .resume 1] =
      some s ∧ s.started = [0, 2, 1] ∧ Exclusive s ∧ Clean s := by
  refine ⟨_, rfl, rfl, ?_⟩
  have hrun := mirror_lock_serialises
    [.call 7, .call 7, .call 8, .resume 0, .resume 2, .settle 0 .thrown, .release 0, .resume 1] _ rfl
  exact ⟨hrun.1, hrun.2.2.2.2⟩

end NeonDiff.MirrorLock
