import NeonDiff.AdmissionLedger.Caps

/-! # The two loops of a ledger

`next` and `snapshot` walk the candidates with a usage that counts more than the ledger itself does. What they put off
on the way changes nothing else, and what they admit or project stays under every cap.
-/

namespace NeonDiff.AdmissionLedger

open Lib

section Loops

variable {lower : String → String} {l l' : Ledger} {usage : Usage} {entry : Entry}

/-- What is put off has a reason, and an issue slot when the reason is a comment cap. Nothing admitted is put off. -/
structure Holding (l : Ledger) : Prop where
  reasons : ∀ key reason, l.deferredReason key = some reason → reason ≠ .eligible
  slots : ∀ key, key ∈ l.issueOnly ↔ ∃ reason, l.deferredReason key = some reason ∧ commentReason reason = true
  apart : ∀ key ∈ l.active, l.deferredReason key = none

structure Counted (lower : String → String) (l : Ledger) (usage : Usage) : Prop where
  fits : Fits lower l.limits usage
  covers : ∀ m : Meter, m.read (currentUsage lower l.entries l.active l.issueOnly) ≤ m.read usage

theorem Counted.fits_current (h : Counted lower l usage) :
    Fits lower l.limits (currentUsage lower l.entries l.active l.issueOnly) :=
  fun m cap hcap => (h.covers m).trans (h.fits m cap hcap)

theorem counted_current (h : Fits lower l.limits (currentUsage lower l.entries l.active l.issueOnly)) :
    Counted lower l (currentUsage lower l.entries l.active l.issueOnly) :=
  ⟨h, fun _ => le_rfl⟩

/-! ## Putting off -/

/-- The ledger has put some candidates off and is the same otherwise. -/
def OnlyPutOff (l l' : Ledger) : Prop := l' = { l with deferred := l'.deferred, issueOnly := l'.issueOnly }

theorem OnlyPutOff.refl (l : Ledger) : OnlyPutOff l l := rfl

theorem OnlyPutOff.putOff {key : String} {reason : LedgerReason} (h : OnlyPutOff (l.putOff key reason) l') : OnlyPutOff l l' := h

theorem deferredReason_putOff (l : Ledger) (key k : String) (reason : LedgerReason) :
    (l.putOff key reason).deferredReason k = if k = key then some reason else l.deferredReason k := by
  unfold Ledger.deferredReason Ledger.putOff
  by_cases h : key = k
  · subst h
    simp
  · simp [h, Ne.symm h]

theorem capReason_ne_eligible {reason : LedgerReason} (h : l.capReason lower entry usage = .ok (some reason)) :
    reason ≠ .eligible := by
  rintro rfl
  unfold Ledger.capReason at h
  split at h
  · cases h
  · dsimp only at h
    split at h
    · cases h
    · rw [Except.ok.injEq] at h
      split at h
      · cases h
      · split at h
        · cases h
        · split at h
          · cases h
          · split at h
            · cases h
            · split at h
              · cases h
              · split at h
                · cases h
                · cases h

theorem Holding.putOff (hh : Holding l) {reason : LedgerReason} (hactive : entry.key lower ∉ l.active)
    (hfree : l.deferredReason (entry.key lower) = none) (hreason : reason ≠ .eligible) :
    Holding (l.putOff (entry.key lower) reason) where
  reasons := by
    intro key r hr
    rw [deferredReason_putOff] at hr
    split at hr
    · cases hr
      exact hreason
    · exact hh.reasons key r hr
  slots := by
    intro key
    rw [deferredReason_putOff]
    unfold Ledger.putOff
    dsimp only
    by_cases hkey : key = entry.key lower
    · subst hkey
      have hfree' : entry.key lower ∉ l.issueOnly := by
        rw [hh.slots]
        rintro ⟨r, hr, -⟩
        rw [hfree] at hr
        cases hr
      split <;> simp_all
    · rw [if_neg hkey, ← hh.slots]
      split
      · simp [hkey]
      · rfl
  apart := by
    intro key hkey
    rw [deferredReason_putOff, if_neg]
    · exact hh.apart key hkey
    · rintro rfl
      exact hactive hkey

theorem Counted.putOff (hc : Counted lower l usage) (hdistinct : (l.entries.map (Entry.key lower)).Nodup) (hh : Holding l)
    (hmem : entry ∈ l.entries) (hactive : entry.key lower ∉ l.active) (hfree : l.deferredReason (entry.key lower) = none)
    {reason : LedgerReason} (hreason : l.capReason lower entry usage = .ok (some reason)) :
    Counted lower (l.putOff (entry.key lower) reason) (Ledger.usageAfter lower usage entry reason) := by
  refine ⟨hc.fits.usageAfter hreason, ?_⟩
  have hfree' : entry.key lower ∉ l.issueOnly := by
    rw [hh.slots]
    rintro ⟨r, hr, -⟩
    rw [hfree] at hr
    cases hr
  intro m
  have hle := hc.covers m
  unfold Ledger.putOff Ledger.usageAfter
  dsimp only
  split
  · rw [read_currentUsage_putOff hdistinct hmem hactive hfree', m.read_addIssue]
    omega
  · exact hle

/-! ## The loop of `next` -/

/-- The ledger has admitted the candidate, which it may. -/
structure Admits (lower : String → String) (l : Ledger) (entry : Entry) (l' : Ledger) : Prop where
  mem : entry ∈ l.entries
  eligible : l.eligible lower entry = true
  inactive : entry.key lower ∉ l.active
  unreleased : entry.key lower ∉ l.released
  under : ∃ usage cap, UnderCaps lower l entry usage cap
  others : OnlyPutOff { l with active := insert (entry.key lower) l.active } l'

/-- What the second loop of `next` does: it throws, finds nothing or admits one candidate. -/
inductive AdmitFirst (lower : String → String) (l : Ledger) : Except String (Option LedgerDecision) × Ledger → Prop where
  | threw {e : String} {l' : Ledger} : OnlyPutOff l l' → AdmitFirst lower l (.error e, l')
  | none {l' : Ledger} : OnlyPutOff l l' → AdmitFirst lower l (.ok none, l')
  | some {entry : Entry} {l' : Ledger} : Admits lower l entry l' →
    AdmitFirst lower l (.ok (some (projected entry entry.intendedAction.scan .eligible)), l')

theorem AdmitFirst.of_putOff {key : String} {reason : LedgerReason} {r : Except String (Option LedgerDecision) × Ledger}
    (h : AdmitFirst lower (l.putOff key reason) r) : AdmitFirst lower l r := by
  cases h with
  | threw h => exact .threw h
  | none h => exact .none h
  | some h =>
    obtain ⟨usage, cap, hunder⟩ := h.under
    exact .some ⟨h.mem, h.eligible, h.inactive, h.unreleased,
      ⟨usage, cap, ⟨hunder.legacy, hunder.limits, hunder.unblocked, hunder.burst, hunder.issues, hunder.globalIssues,
        hunder.comments, hunder.globalComments⟩⟩, h.others⟩

theorem admitFirst_spec {rest : List Entry} (hdistinct : (l.entries.map (Entry.key lower)).Nodup) (hrest : rest ⊆ l.entries)
    (hh : Holding l) (hc : Counted lower l usage) :
    AdmitFirst lower l (Ledger.admitFirst lower rest l usage) ∧ Holding (Ledger.admitFirst lower rest l usage).2 ∧
      Fits lower l.limits (currentUsage lower l.entries (Ledger.admitFirst lower rest l usage).2.active
        (Ledger.admitFirst lower rest l usage).2.issueOnly) := by
  induction rest generalizing l usage with
  | nil => exact ⟨.none (.refl l), hh, hc.fits_current⟩
  | cons entry rest ih =>
    obtain ⟨hmem, hrest⟩ := List.cons_subset.mp hrest
    unfold Ledger.admitFirst
    dsimp only
    split
    · exact ih hdistinct hrest hh hc
    · rename_i hskip
      simp only [Bool.or_eq_true, Bool.not_eq_true', decide_eq_true_eq, not_or, Bool.not_eq_false,
        Option.not_isSome_iff_eq_none] at hskip
      obtain ⟨⟨⟨heligible, hactive⟩, hreleased⟩, hfree⟩ := hskip
      split
      · exact ⟨.threw (.refl l), hh, hc.fits_current⟩
      · rename_i reason hreason
        obtain ⟨hspec, hrun⟩ := ih (l := l.putOff (entry.key lower) reason) hdistinct hrest
          (hh.putOff hactive hfree (capReason_ne_eligible hreason)) (hc.putOff hdistinct hh hmem hactive hfree hreason)
        exact ⟨hspec.of_putOff, hrun⟩
      · rename_i hreason
        obtain ⟨cap, hunder⟩ := capReason_none hreason
        have honly : entry.key lower ∉ l.issueOnly := by
          rw [hh.slots]
          rintro ⟨r, hr, -⟩
          rw [hfree] at hr
          cases hr
        refine ⟨.some ⟨hmem, heligible, hactive, hreleased, ⟨usage, cap, hunder⟩, .refl _⟩, ⟨hh.reasons, hh.slots, ?_⟩, ?_⟩
        · intro key hkey
          rcases Finset.mem_insert.mp hkey with rfl | hkey
          · exact hfree
          · exact hh.apart key hkey
        · intro m bound hbound
          dsimp only
          rw [read_currentUsage_insert hdistinct hmem hactive honly]
          have hle := hc.fits.addFull hunder m bound hbound
          have := hc.covers m
          rw [m.read_addFull] at hle
          omega

/-! ## The loop of `snapshot` -/

/-- What the projections of the eligible candidates weigh. -/
def projectedWeight (lower : String → String) (m : Meter) (decisions : List LedgerDecision) : Nat :=
  ((decisions.filter fun d => d.reason = .eligible).map fun d => m.full lower d.entry).sum

theorem projectedWeight_concat {m : Meter} {output : List LedgerDecision} {action : ScanAction} {reason : LedgerReason} :
    projectedWeight lower m (output ++ [projected entry action reason]) =
      projectedWeight lower m output + if reason = .eligible then m.full lower entry else 0 := by
  unfold projectedWeight projected
  by_cases h : reason = .eligible
  · simp [h]
  · simp [h]

/-- What is projected weighs no more than the usage that the loop has counted, with what is active still to come. -/
def Projects (lower : String → String) (l : Ledger) (usage : Usage) (output : List LedgerDecision) (rest : List Entry) : Prop :=
  ∀ m : Meter, projectedWeight lower m output + (rest.map (weighs lower m l.active ∅)).sum ≤ m.read usage

theorem Projects.skip {output : List LedgerDecision} {rest : List Entry} {action : ScanAction} {reason : LedgerReason}
    (h : Projects lower l usage output (entry :: rest)) (hreason : reason ≠ .eligible) :
    Projects lower l usage (output ++ [projected entry action reason]) rest := by
  intro m
  have := h m
  rw [projectedWeight_concat, if_neg hreason]
  rw [List.map_cons, List.sum_cons] at this
  omega

theorem Projects.active {output : List LedgerDecision} {rest : List Entry} {action : ScanAction}
    (h : Projects lower l usage output (entry :: rest)) (hactive : entry.key lower ∈ l.active) :
    Projects lower l usage (output ++ [projected entry action .eligible]) rest := by
  intro m
  have := h m
  have hweight : weighs lower m l.active ∅ entry = m.full lower entry := if_pos hactive
  rw [projectedWeight_concat, if_pos rfl]
  rw [List.map_cons, List.sum_cons, hweight] at this
  omega

theorem Projects.taken {output : List LedgerDecision} {rest : List Entry} {action : ScanAction}
    (h : Projects lower l usage output (entry :: rest)) :
    Projects lower l (addFull lower usage entry) (output ++ [projected entry action .eligible]) rest := by
  intro m
  have := h m
  rw [projectedWeight_concat, if_pos rfl, m.read_addFull]
  rw [List.map_cons, List.sum_cons] at this
  omega

theorem Projects.usageAfter {output : List LedgerDecision} {rest : List Entry} (h : Projects lower l usage output rest)
    (reason : LedgerReason) : Projects lower l (Ledger.usageAfter lower usage entry reason) output rest := by
  intro m
  have := h m
  unfold Ledger.usageAfter
  split
  · rw [m.read_addIssue]
    omega
  · exact this

/-- What `snapshot` does: it throws, or lists every candidate once and projects what the caps allow. -/
structure ProjectAll (lower : String → String) (l : Ledger) (output : List LedgerDecision) (rest : List Entry)
    (r : Except String (List LedgerDecision) × Ledger) : Prop where
  others : OnlyPutOff l r.2
  holding : Holding r.2
  fits : Fits lower l.limits (currentUsage lower l.entries r.2.active r.2.issueOnly)
  listed : ∀ decisions, r.1 = .ok decisions → decisions.map LedgerDecision.entry = output.map LedgerDecision.entry ++ rest
  capped : ∀ decisions, r.1 = .ok decisions → ∀ (m : Meter) (cap : Nat), m.cap lower l.limits = some cap →
    projectedWeight lower m decisions ≤ cap

theorem ProjectAll.cons {output : List LedgerDecision} {rest : List Entry} {action : ScanAction} {reason : LedgerReason}
    {r : Except String (List LedgerDecision) × Ledger}
    (h : ProjectAll lower l (output ++ [projected entry action reason]) rest r) : ProjectAll lower l output (entry :: rest) r := by
  refine ⟨h.others, h.holding, h.fits, ?_, h.capped⟩
  intro decisions hdecisions
  rw [h.listed decisions hdecisions]
  simp [projected]

theorem projectAll_spec {rest : List Entry} {output : List LedgerDecision}
    (hdistinct : (l.entries.map (Entry.key lower)).Nodup) (hrest : rest ⊆ l.entries) (hh : Holding l)
    (hc : Counted lower l usage) (hp : Projects lower l usage output rest) :
    ProjectAll lower l output rest (Ledger.projectAll lower rest l usage output) := by
  induction rest generalizing l usage output with
  | nil =>
    refine ⟨.refl l, hh, hc.fits_current, ?_, ?_⟩
    · intro decisions hdecisions
      cases hdecisions
      exact (List.append_nil _).symm
    · intro decisions hdecisions m cap hcap
      cases hdecisions
      exact (hp m).trans (hc.fits m cap hcap)
  | cons entry rest ih =>
    obtain ⟨hmem, hrest⟩ := List.cons_subset.mp hrest
    unfold Ledger.projectAll
    dsimp only
    split
    · exact (ih hdistinct hrest hh hc (hp.skip (by decide))).cons
    · split
      · exact (ih hdistinct hrest hh hc (hp.skip (by decide))).cons
      · split
        · exact (ih hdistinct hrest hh hc (hp.skip (by decide))).cons
        · split
          · rename_i hactive
            exact (ih hdistinct hrest hh hc (hp.active hactive)).cons
          · rename_i hactive
            split
            · rename_i reason hstored
              exact (ih hdistinct hrest hh hc (hp.skip (hh.reasons _ _ hstored))).cons
            · rename_i hfree
              split
              · exact ⟨.refl l, hh, hc.fits_current, (fun _ h => nomatch h), (fun _ h => nomatch h)⟩
              · rename_i reason hreason
                have hne := capReason_ne_eligible hreason
                have hskip : Projects lower l usage
                    (output ++ [projected entry (Ledger.projectAll.deferral reason) reason]) rest := hp.skip hne
                have hrun := (ih (l := l.putOff (entry.key lower) reason) hdistinct hrest (hh.putOff hactive hfree hne)
                  (hc.putOff hdistinct hh hmem hactive hfree hreason) (hskip.usageAfter reason)).cons
                exact ⟨hrun.others.putOff, hrun.holding, hrun.fits, hrun.listed, hrun.capped⟩
              · rename_i hreason
                obtain ⟨cap, hunder⟩ := capReason_none hreason
                have hc' : Counted lower l (addFull lower usage entry) := by
                  refine ⟨hc.fits.addFull hunder, ?_⟩
                  intro m
                  rw [m.read_addFull]
                  exact (hc.covers m).trans (Nat.le_add_right _ _)
                exact (ih hdistinct hrest hh hc' hp.taken).cons

theorem snapshot_spec (hdistinct : (l.entries.map (Entry.key lower)).Nodup) (hh : Holding l)
    (hfits : Fits lower l.limits (currentUsage lower l.entries l.active l.issueOnly)) :
    ProjectAll lower l [] l.entries (l.snapshot lower) := by
  refine projectAll_spec hdistinct (List.Subset.refl _) hh (counted_current hfits) ?_
  intro m
  rw [← read_currentUsage]
  have hmono : m.read (currentUsage lower l.entries l.active ∅) ≤ m.read (currentUsage lower l.entries l.active l.issueOnly) :=
    read_currentUsage_mono (Finset.Subset.refl l.active) fun key hkey => absurd hkey (Finset.notMem_empty key)
  simpa [projectedWeight] using hmono

end Loops

end NeonDiff.AdmissionLedger
