import NeonDiff.AdmissionLedger.Calls
import Mathlib.Algebra.GroupWithZero.Nat
import Mathlib.Algebra.Order.BigOperators.Group.List

/-! # The caps of a ledger

Each cap is a meter: it reads a usage and weighs a candidate, more when the candidate is admitted than when a comment
cap puts it off. What the ledger counts is the weight of what it holds, so that all caps are kept by one argument.
-/

namespace NeonDiff.AdmissionLedger

open Lib

inductive Meter where
  | issues (repo : String)
  | comments (repo : String)
  | globalIssues
  | globalComments

section Meters

variable (lower : String → String)

namespace Meter

def read (m : Meter) (usage : Usage) : Nat :=
  match m with
  | issues repo => usage.issues repo
  | comments repo => usage.comments repo
  | globalIssues => usage.globalIssues
  | globalComments => usage.globalComments

/-- What a candidate weighs that a comment cap puts off. -/
def slot (m : Meter) (entry : Entry) : Nat :=
  match m with
  | issues repo => if entry.repo lower = repo then 1 else 0
  | comments _ => 0
  | globalIssues => 1
  | globalComments => 0

/-- What an admitted candidate weighs. -/
def full (m : Meter) (entry : Entry) : Nat :=
  match m with
  | issues repo => if entry.repo lower = repo then 1 else 0
  | comments repo => if entry.repo lower = repo ∧ entry.intendedAction = .would_comment then 1 else 0
  | globalIssues => 1
  | globalComments => if entry.intendedAction = .would_comment then 1 else 0

def cap (m : Meter) (limits : Limits) : Option Nat :=
  match m with
  | issues repo => (repoLimits lower limits repo).map RepoLimits.issues
  | comments repo => (repoLimits lower limits repo).map RepoLimits.comments
  | globalIssues => some limits.globalIssues
  | globalComments => some limits.globalComments

variable {lower} (m : Meter)

theorem slot_le_full (entry : Entry) : m.slot lower entry ≤ m.full lower entry := by
  cases m <;> simp [slot, full]

@[simp] theorem read_noUsage : m.read noUsage = 0 := by
  cases m <;> rfl

@[simp] theorem read_addIssue (usage : Usage) (entry : Entry) :
    m.read (addIssue lower usage entry) = m.read usage + m.slot lower entry := by
  cases m with
  | issues repo =>
    by_cases h : entry.repo lower = repo
    · subst h
      simp [read, addIssue, slot]
    · simp [read, addIssue, slot, h, Function.update_of_ne (Ne.symm h)]
  | comments repo => rfl
  | globalIssues => rfl
  | globalComments => rfl

@[simp] theorem read_addFull (usage : Usage) (entry : Entry) :
    m.read (addFull lower usage entry) = m.read usage + m.full lower entry := by
  cases m with
  | issues repo =>
    have hread := @read_addIssue lower (.issues repo) usage entry
    unfold addFull
    dsimp only
    split
    · exact hread
    · exact hread
  | comments repo =>
    unfold addFull
    by_cases hc : entry.intendedAction = .would_comment
    · by_cases h : entry.repo lower = repo
      · subst h
        simp [read, addIssue, full, hc]
      · simp [read, addIssue, full, hc, h, Function.update_of_ne (Ne.symm h)]
    · simp [read, addIssue, full, hc]
  | globalIssues =>
    unfold addFull
    dsimp only
    split <;> rfl
  | globalComments =>
    unfold addFull
    by_cases hc : entry.intendedAction = .would_comment
    · simp [read, addIssue, full, hc]
    · simp [read, addIssue, full, hc]

end Meter

/-! ## What a usage counts -/

/-- The weight of a candidate in a usage. -/
def weighs (m : Meter) (active issueOnly : Finset String) (entry : Entry) : Nat :=
  if entry.key lower ∈ active then m.full lower entry
  else if entry.key lower ∈ issueOnly then m.slot lower entry
  else 0

variable {lower} {m : Meter} {active issueOnly : Finset String} {entries : List Entry} {entry : Entry} {usage : Usage}

@[simp] theorem read_addCurrent : m.read (addCurrent lower active issueOnly usage entry) =
    m.read usage + weighs lower m active issueOnly entry := by
  unfold addCurrent weighs
  split
  · exact m.read_addFull usage entry
  · split
    · exact m.read_addIssue usage entry
    · rfl

theorem read_foldl_addCurrent : m.read (entries.foldl (addCurrent lower active issueOnly) usage) =
    m.read usage + (entries.map (weighs lower m active issueOnly)).sum := by
  induction entries generalizing usage with
  | nil => simp
  | cons entry entries ih =>
    rw [List.foldl_cons, ih, read_addCurrent, List.map_cons, List.sum_cons, Nat.add_assoc]

theorem read_currentUsage : m.read (currentUsage lower entries active issueOnly) =
    (entries.map (weighs lower m active issueOnly)).sum := by
  unfold currentUsage
  rw [read_foldl_addCurrent, m.read_noUsage, Nat.zero_add]

theorem sum_map_add {f g h : Entry → Nat} (entries : List Entry) (hfg : ∀ e ∈ entries, h e = f e + g e) :
    (entries.map h).sum = (entries.map f).sum + (entries.map g).sum := by
  rw [← List.sum_map_add]
  exact congrArg List.sum (List.map_congr_left hfg)

theorem sum_at_key (hdistinct : (entries.map (Entry.key lower)).Nodup) (hmem : entry ∈ entries) (w : Nat) :
    (entries.map fun e => if e.key lower = entry.key lower then w else 0).sum = w := by
  induction entries with
  | nil => cases hmem
  | cons e entries ih =>
    obtain ⟨hfresh, hdistinct⟩ := List.nodup_cons.mp hdistinct
    rw [List.map_cons, List.sum_cons]
    rcases List.mem_cons.mp hmem with rfl | hmem
    · have hrest : (entries.map fun e => if e.key lower = entry.key lower then w else 0).sum = 0 := by
        rw [List.sum_eq_zero_iff]
        intro n hn
        obtain ⟨e, he, rfl⟩ := List.mem_map.mp hn
        rw [if_neg]
        intro heq
        exact hfresh (List.mem_map.mpr ⟨e, he, heq⟩)
      rw [if_pos rfl, hrest]
      rfl
    · rw [ih hdistinct hmem, if_neg, Nat.zero_add]
      intro heq
      exact hfresh (List.mem_map.mpr ⟨entry, hmem, heq.symm⟩)

theorem read_currentUsage_insert (hdistinct : (entries.map (Entry.key lower)).Nodup) (hmem : entry ∈ entries)
    (hactive : entry.key lower ∉ active) (honly : entry.key lower ∉ issueOnly) :
    m.read (currentUsage lower entries (insert (entry.key lower) active) issueOnly) =
      m.read (currentUsage lower entries active issueOnly) + m.full lower entry := by
  rw [read_currentUsage, read_currentUsage, ← sum_at_key hdistinct hmem (m.full lower entry)]
  apply sum_map_add
  intro e he
  by_cases hkey : e.key lower = entry.key lower
  · have heq : e = entry := List.inj_on_of_nodup_map hdistinct he hmem hkey
    subst heq
    simp [weighs, hactive, honly]
  · simp [weighs, hkey]

theorem read_currentUsage_putOff (hdistinct : (entries.map (Entry.key lower)).Nodup) (hmem : entry ∈ entries)
    (hactive : entry.key lower ∉ active) (honly : entry.key lower ∉ issueOnly) :
    m.read (currentUsage lower entries active (insert (entry.key lower) issueOnly)) =
      m.read (currentUsage lower entries active issueOnly) + m.slot lower entry := by
  rw [read_currentUsage, read_currentUsage, ← sum_at_key hdistinct hmem (m.slot lower entry)]
  apply sum_map_add
  intro e he
  by_cases hkey : e.key lower = entry.key lower
  · have heq : e = entry := List.inj_on_of_nodup_map hdistinct he hmem hkey
    subst heq
    simp [weighs, hactive, honly]
  · simp [weighs, hkey]

theorem read_currentUsage_mono {active' issueOnly' : Finset String} (hactive : active' ⊆ active)
    (honly : ∀ key ∈ issueOnly', key ∈ issueOnly) :
    m.read (currentUsage lower entries active' issueOnly') ≤ m.read (currentUsage lower entries active issueOnly) := by
  rw [read_currentUsage, read_currentUsage]
  apply List.sum_le_sum
  intro e _
  unfold weighs
  by_cases h' : e.key lower ∈ active'
  · rw [if_pos h', if_pos (hactive h')]
  · rw [if_neg h']
    by_cases h : e.key lower ∈ active
    · rw [if_pos h]
      split
      · exact m.slot_le_full e
      · exact Nat.zero_le _
    · rw [if_neg h]
      split
      · rw [if_pos (honly _ ‹_›)]
      · exact Nat.zero_le _

/-! ## Caps -/

def Fits (lower : String → String) (limits : Limits) (usage : Usage) : Prop :=
  ∀ (m : Meter) (cap : Nat), m.cap lower limits = some cap → m.read usage ≤ cap

variable {l : Ledger}

/-- What a ledger has found of a candidate that it admits. -/
structure UnderCaps (lower : String → String) (l : Ledger) (entry : Entry) (usage : Usage) (cap : RepoLimits) : Prop where
  legacy : legacyBurstDeferral entry = false
  limits : repoLimits lower l.limits (entry.repo lower) = some cap
  unblocked : entry.repo lower ∉ l.blocked
  burst : countsTowardBurst entry = true →
    (entry.classification.state ≠ .source_dependent ∨ entry.key lower ∈ l.requeued) →
      l.eligibleByRepo (entry.repo lower) ≤ cap.burst
  issues : usage.issues (entry.repo lower) < cap.issues
  globalIssues : usage.globalIssues < l.limits.globalIssues
  comments : entry.intendedAction = .would_comment → usage.comments (entry.repo lower) < cap.comments
  globalComments : entry.intendedAction = .would_comment → usage.globalComments < l.limits.globalComments

theorem capReason_none (h : l.capReason lower entry usage = .ok none) : ∃ cap, UnderCaps lower l entry usage cap := by
  unfold Ledger.capReason at h
  split at h
  · cases h
  · rename_i hlegacy
    dsimp only at h
    split at h
    · cases h
    · rename_i cap hcap
      rw [Except.ok.injEq] at h
      split at h
      · cases h
      · rename_i hblocked
        split at h
        · cases h
        · rename_i hburst
          split at h
          · cases h
          · rename_i hissues
            split at h
            · cases h
            · rename_i hglobal
              split at h
              · cases h
              · rename_i hcomments
                split at h
                · cases h
                · rename_i hglobalComments
                  refine ⟨cap, by simpa using hlegacy, hcap, hblocked, ?_, by omega, by omega, ?_, ?_⟩
                  · intro hcounts hstate
                    by_contra hmore
                    apply hburst
                    simp only [hcounts, Bool.true_and, Bool.and_eq_true, Bool.or_eq_true, decide_eq_true_eq]
                    exact ⟨by simpa using hstate, by omega⟩
                  · intro hintent
                    simpa [hintent] using hcomments
                  · intro hintent
                    simpa [hintent] using hglobalComments

theorem capReason_comment {reason : LedgerReason} (h : l.capReason lower entry usage = .ok (some reason))
    (hreason : commentReason reason = true) :
    ∃ cap, repoLimits lower l.limits (entry.repo lower) = some cap ∧ usage.issues (entry.repo lower) < cap.issues ∧
      usage.globalIssues < l.limits.globalIssues := by
  unfold Ledger.capReason at h
  split at h
  · cases h
    cases hreason
  · dsimp only at h
    split at h
    · cases h
    · rename_i cap hcap
      rw [Except.ok.injEq] at h
      split at h
      · cases h
        cases hreason
      · split at h
        · cases h
          cases hreason
        · split at h
          · cases h
            cases hreason
          · rename_i hissues
            split at h
            · cases h
              cases hreason
            · rename_i hglobal
              exact ⟨cap, hcap, by omega, by omega⟩

theorem Fits.addFull {cap : RepoLimits} (hfits : Fits lower l.limits usage) (h : UnderCaps lower l entry usage cap) :
    Fits lower l.limits (addFull lower usage entry) := by
  intro m bound hbound
  rw [m.read_addFull]
  have hle := hfits m bound hbound
  cases m with
  | issues repo =>
    by_cases hrepo : entry.repo lower = repo
    · subst hrepo
      simp only [Meter.cap, h.limits, Option.map_some, Option.some.injEq] at hbound
      have := h.issues
      simp only [Meter.full, Meter.read, if_true]
      omega
    · simpa [Meter.full, hrepo] using hle
  | comments repo =>
    by_cases hrepo : entry.repo lower = repo ∧ entry.intendedAction = .would_comment
    · obtain ⟨rfl, hintent⟩ := hrepo
      simp only [Meter.cap, h.limits, Option.map_some, Option.some.injEq] at hbound
      have := h.comments hintent
      simp only [Meter.full, Meter.read, hintent, and_self, if_true]
      omega
    · simpa [Meter.full, hrepo] using hle
  | globalIssues =>
    simp only [Meter.cap, Option.some.injEq] at hbound
    have := h.globalIssues
    simp only [Meter.full, Meter.read]
    omega
  | globalComments =>
    simp only [Meter.cap, Option.some.injEq] at hbound
    by_cases hintent : entry.intendedAction = .would_comment
    · have := h.globalComments hintent
      simp only [Meter.full, Meter.read, hintent, if_true]
      omega
    · simpa [Meter.full, hintent] using hle

theorem Fits.usageAfter {reason : LedgerReason} (hfits : Fits lower l.limits usage)
    (h : l.capReason lower entry usage = .ok (some reason)) :
    Fits lower l.limits (Ledger.usageAfter lower usage entry reason) := by
  unfold Ledger.usageAfter
  split
  · rename_i hreason
    obtain ⟨cap, hcap, hissues, hglobal⟩ := capReason_comment h hreason
    intro m bound hbound
    rw [m.read_addIssue]
    have hle := hfits m bound hbound
    cases m with
    | issues repo =>
      by_cases hrepo : entry.repo lower = repo
      · subst hrepo
        simp only [Meter.cap, hcap, Option.map_some, Option.some.injEq] at hbound
        simp only [Meter.slot, Meter.read, if_true]
        omega
      · simpa [Meter.slot, hrepo] using hle
    | comments repo => exact hle
    | globalIssues =>
      simp only [Meter.cap, Option.some.injEq] at hbound
      simp only [Meter.slot, Meter.read]
      omega
    | globalComments => exact hle
  · exact hfits

end Meters

end NeonDiff.AdmissionLedger
