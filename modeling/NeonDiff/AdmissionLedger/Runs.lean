import NeonDiff.AdmissionLedger.Conserved
import NeonDiff.Lib.Checked

/-! # Every run of a ledger conserves its caps

One call keeps the agreement of the ledger with its log and answers fairly, and so does every sequence of calls on a
ledger that a snapshot was accepted for.
-/

namespace NeonDiff.AdmissionLedger

open Lib

section Steps

variable {lower : String → String} {l₀ l : Ledger} {log : Log}

/-- What one call does after a log: it agrees with it, answers fairly and returns nothing for a second time. -/
structure Goes (lower : String → String) (l₀ : Ledger) (log : Log) (x : Call × Answer) (l' : Ledger) : Prop where
  agrees : Agrees lower l₀ (log ++ [x]) l'
  fair : Fair lower l₀ log x.2
  probedFresh : ∀ key ∈ keysFor lower .source_probe [x], key ∉ keysFor lower .source_probe log
  admittedFresh : ∀ key ∈ keysFor lower .eligible [x], key ∉ keysFor lower .eligible log
  single : ∀ reason, (keysFor lower reason [x]).length ≤ 1

theorem Goes.of_silent {x : Call × Answer} {l' : Ledger} (hagrees : Agrees lower l₀ (log ++ [x]) l') (hfair : Fair lower l₀ log x.2)
    (hkeys : ∀ reason, keysFor lower reason [x] = []) : Goes lower l₀ log x l' := by
  refine ⟨hagrees, hfair, ?_, ?_, ?_⟩
  · intro key hkey
    rw [hkeys] at hkey
    cases hkey
  · intro key hkey
    rw [hkeys] at hkey
    cases hkey
  · intro reason
    rw [hkeys]
    exact Nat.zero_le _

theorem single_gave (entry : Entry) (reason reason' : LedgerReason) :
    (keysFor lower reason' [gave entry reason]).length ≤ 1 := by
  by_cases h : reason = reason'
  · subst h
    rw [keysFor_gave_self]
    exact le_rfl
  · rw [keysFor_gave_other entry h]
    exact Nat.zero_le _

theorem goes_probe (h : Agrees lower l₀ log l) {entry : Entry} (hmem : entry ∈ l.entries) (hwants : l.wantsProbe lower entry = true) :
    Goes lower l₀ log (gave entry .source_probe) { l with probed := insert (entry.key lower) l.probed } := by
  simp only [Ledger.wantsProbe, Bool.and_eq_true, decide_eq_true_eq] at hwants
  obtain ⟨⟨⟨-, hprobed⟩, hreleased⟩, hblocked⟩ := hwants
  refine ⟨h.probe entry, ⟨?_, ?_, .inl rfl⟩, ?_, ?_, single_gave entry _⟩
  · rw [← h.released]
    exact hreleased
  · exact fun hmem' => hblocked ((h.blocked entry hmem).mpr hmem')
  · intro key hkey
    rw [keysFor_gave_self, List.mem_singleton] at hkey
    rw [hkey, ← h.probed]
    exact hprobed
  · intro key hkey
    rw [keysFor_gave_other entry (by decide)] at hkey
    cases hkey

theorem Admits.wellAdmitted {entry : Entry} {l' : Ledger} (ha : Admits lower l entry l') (h : Agrees lower l₀ log l) :
    WellAdmitted lower l₀ log entry := by
  have heligible := ha.eligible
  simp only [Ledger.eligible, Bool.or_eq_true, decide_eq_true_eq, h.requeued] at heligible
  obtain ⟨usage, cap, hunder⟩ := ha.under
  refine ⟨?_, ?_⟩
  · intro hstate
    rcases heligible with hpending | hrequeued
    · rw [hpending] at hstate
      rcases hstate with hstate | hstate
      · cases hstate
      · cases hstate
    · exact hrequeued
  · intro hnew cap' hcap'
    rw [← h.limits, hunder.limits] at hcap'
    cases hcap'
    have hcounts : countsTowardBurst entry = true := by
      unfold countsTowardBurst
      rw [hnew, hunder.legacy]
      rfl
    have hstate : entry.classification.state ≠ .source_dependent ∨ entry.key lower ∈ l.requeued := by
      rcases heligible with hpending | hrequeued
      · exact .inl fun hdep => by rw [hpending] at hdep; cases hdep
      · exact .inr ((h.requeued _).mpr hrequeued)
    rw [← h.entries]
    exact (h.burst _).trans (hunder.burst hcounts hstate)

theorem goes_admits (h : Agrees lower l₀ log l) (hdistinct : (l.entries.map (Entry.key lower)).Nodup) {entry : Entry} {l' : Ledger}
    (ha : Admits lower l entry l') (hholding : Holding l')
    (hfits : Fits lower l.limits (currentUsage lower l.entries l'.active l'.issueOnly)) :
    Goes lower l₀ log (gave entry .eligible) l' := by
  obtain ⟨hreleased, hblocked⟩ := ha.clear h
  refine ⟨h.taken hdistinct ha hholding hfits, ⟨hreleased, hblocked, .inr ⟨rfl, ha.wellAdmitted h⟩⟩, ?_, ?_,
    single_gave entry _⟩
  · intro key hkey
    rw [keysFor_gave_other entry (by decide)] at hkey
    cases hkey
  · intro key hkey hbefore
    rw [keysFor_gave_self, List.mem_singleton] at hkey
    rw [hkey] at hbefore
    -- it would stand, and so be active
    exact ha.inactive ((h.active entry ha.mem).mpr (stands_eq_true.mpr ⟨hbefore, hreleased, hblocked⟩))

theorem goes_next (h : Agrees lower l₀ log l) (hdistinct : (l.entries.map (Entry.key lower)).Nodup) :
    Goes lower l₀ log (.next, (answer lower l .next).1) (answer lower l .next).2 := by
  have hanswer : answer lower l .next = returnedOf (l.next lower) := rfl
  rw [hanswer]
  unfold Ledger.next
  cases hfind : l.entries.find? (l.wantsProbe lower) with
  | some entry => exact goes_probe h (List.mem_of_find?_eq_some hfind) (List.find?_some hfind)
  | none =>
    obtain ⟨hspec, hholding, hfits⟩ := admitFirst_spec hdistinct (List.Subset.refl _) h.holding (counted_current h.fits)
    dsimp only
    generalize Ledger.admitFirst lower l.entries l (currentUsage lower l.entries l.active l.issueOnly) = r at *
    cases hspec with
    | threw hothers => exact .of_silent (h.quiet hothers hholding hfits (fun _ => rfl) rfl rfl rfl) trivial fun _ => rfl
    | none hothers => exact .of_silent (h.quiet hothers hholding hfits (fun _ => rfl) rfl rfl rfl) trivial fun _ => rfl
    | some ha => exact goes_admits h hdistinct ha hholding hfits

theorem goes_snapshot (h : Agrees lower l₀ log l) (hdistinct : (l.entries.map (Entry.key lower)).Nodup) :
    Goes lower l₀ log (.snapshot, (answer lower l .snapshot).1) (answer lower l .snapshot).2 := by
  have hspec := snapshot_spec hdistinct h.holding h.fits
  have hanswer : answer lower l .snapshot = listedOf (l.snapshot lower) := rfl
  rw [hanswer]
  generalize l.snapshot lower = r at *
  obtain ⟨out, l'⟩ := r
  cases out with
  | error e => exact .of_silent (h.quiet hspec.others hspec.holding hspec.fits (fun _ => rfl) rfl rfl rfl) trivial fun _ => rfl
  | ok decisions =>
    refine .of_silent (h.quiet hspec.others hspec.holding hspec.fits (fun _ => rfl) rfl rfl rfl) ⟨?_, ?_⟩ fun _ => rfl
    · rw [hspec.listed decisions rfl, List.map_nil, List.nil_append, h.entries]
    · intro m cap hcap
      rw [← h.limits] at hcap
      exact hspec.capped decisions rfl m cap hcap

theorem goes_call (h : Agrees lower l₀ log l) (hdistinct : (l.entries.map (Entry.key lower)).Nodup) (call : Call) :
    Goes lower l₀ log (call, (answer lower l call).1) (answer lower l call).2 := by
  cases call with
  | next => exact goes_next h hdistinct
  | snapshot => exact goes_snapshot h hdistinct
  | release candidate => exact .of_silent (h.release candidate) trivial fun _ => rfl
  | requeue candidate => exact .of_silent (h.requeue hdistinct candidate) trivial fun _ => rfl
  | blockRepo repo => exact .of_silent (h.blockRepo repo) trivial fun _ => rfl

/-! ## Runs -/

theorem nodup_append_of_fresh {xs ys : List String} (hxs : xs.Nodup) (hfresh : ∀ key ∈ ys, key ∉ xs) (hone : ys.length ≤ 1) :
    (xs ++ ys).Nodup := by
  rw [List.nodup_append]
  refine ⟨hxs, ?_, ?_⟩
  · match ys, hone with
    | [], _ => exact List.nodup_nil
    | [y], _ => exact List.nodup_singleton y
  · intro a ha b hb heq
    exact hfresh b hb (heq ▸ ha)

theorem Conserved.step (hc : Conserved lower l₀ log l) {x : Call × Answer} {l' : Ledger} (hg : Goes lower l₀ log x l') :
    Conserved lower l₀ (log ++ [x]) l' := by
  refine ⟨fun m cap hcap => hg.agrees.caps m hcap, ?_, ?_, ?_⟩
  · rw [keysFor_concat]
    exact nodup_append_of_fresh hc.probedOnce hg.probedFresh (hg.single _)
  · rw [keysFor_concat]
    exact nodup_append_of_fresh hc.admittedOnce hg.admittedFresh (hg.single _)
  · intro past call answer rest hlog
    rcases List.eq_nil_or_concat rest with rfl | ⟨rest, y, rfl⟩
    · obtain ⟨rfl, hx⟩ := List.append_inj' hlog rfl
      cases hx
      exact hg.fair
    · rw [List.concat_eq_append, ← List.cons_append, ← List.append_assoc] at hlog
      obtain ⟨rfl, -⟩ := List.append_inj' hlog rfl
      exact hc.fair past call answer rest rfl

theorem conserved_run (hdistinct : (l₀.entries.map (Entry.key lower)).Nodup) (calls : List Call) {past : Log × Ledger}
    (h : Agrees lower l₀ past.1 past.2) (hc : Conserved lower l₀ past.1 past.2) :
    Conserved lower l₀ (calls.foldl (logged lower) past).1 (calls.foldl (logged lower) past).2 := by
  induction calls generalizing past with
  | nil => exact hc
  | cons call calls ih =>
    have hg := goes_call h (by rw [h.entries]; exact hdistinct) call
    exact ih hg.agrees (hc.step hg)

/-! ## Creation -/

theorem ledgerCandidate_spec {canonical decision : IssueEnrichmentAdmissionDecision}
    {candidate : IssueEnrichmentAdmissionCandidate} {entry : Option Entry}
    (h : ledgerCandidate lower canonical decision candidate = .ok entry) :
    entry.toList.map Entry.candidate = [candidate].filter fun c => c.action ≠ .skipped := by
  unfold ledgerCandidate at h
  split at h
  · cases h
  · split at h
    · rename_i hskipped
      cases h
      simp [hskipped]
    · rename_i hskipped
      split at h
      · cases h
      · cases h
        simp [hskipped]

theorem ledgerCandidates_spec {canonicals decisions : List IssueEnrichmentAdmissionDecision}
    {candidates : List IssueEnrichmentAdmissionCandidate} {entries : List Entry}
    (hcanonicals : canonicals.length = candidates.length) (hdecisions : decisions.length = candidates.length)
    (h : ledgerCandidates lower canonicals decisions candidates = .ok entries) :
    entries.map Entry.candidate = candidates.filter fun c => c.action ≠ .skipped := by
  induction candidates generalizing canonicals decisions entries with
  | nil =>
    obtain rfl := List.length_eq_zero_iff.mp hcanonicals
    cases h
    rfl
  | cons candidate candidates ih =>
    cases canonicals with
    | nil => cases hcanonicals
    | cons canonical canonicals =>
      cases decisions with
      | nil => cases hdecisions
      | cons decision decisions =>
        unfold ledgerCandidates at h
        obtain ⟨entry, hentry, h⟩ := bind_eq_ok h
        obtain ⟨rest, hrest, h⟩ := bind_eq_ok h
        cases h
        rw [List.map_append, ledgerCandidate_spec hentry, ih (by simpa using hcanonicals) (by simpa using hdecisions) hrest,
          ← List.filter_append]
        rfl

theorem create_spec {snapshot : IssueEnrichmentAdmissionSnapshot lower} {decisions : List IssueEnrichmentAdmissionDecision}
    (h : createIssueEnrichmentAdmissionLedger lower snapshot decisions = .ok l₀) :
    Agrees lower l₀ [] l₀ ∧ l₀.entries.map Entry.candidate = snapshot.candidates.filter fun c => c.action ≠ .skipped := by
  unfold createIssueEnrichmentAdmissionLedger at h
  split at h
  · cases h
  · rename_i hlen
    obtain ⟨limits, -, h⟩ := bind_eq_ok h
    obtain ⟨entries, hentries, h⟩ := bind_eq_ok h
    cases h
    have hcandidates := ledgerCandidates_spec (by simp [classifyIssueEnrichmentAdmission]) (not_not.mp hlen) hentries
    refine ⟨⟨rfl, rfl, ⟨?_, ?_, ?_⟩, ?_, ?_, ?_, ?_, ?_, ?_, ?_⟩, hcandidates⟩
    · intro key reason hreason
      cases hreason
    · intro key
      constructor
      · intro hkey
        exact absurd hkey (Finset.notMem_empty key)
      · rintro ⟨reason, hreason, -⟩
        cases hreason
    · intro key _
      rfl
    · intro m cap _
      have hzero : ∀ e : Entry, weighs lower m ∅ ∅ e = 0 := by
        intro e
        simp [weighs]
      rw [read_currentUsage, funext hzero]
      simp
    · intro key
      simp [keysFor, returnedFor]
    · intro key
      simp [releasedIn]
    · intro key
      simp [requeuedIn]
    · intro e _
      simp [blockedIn]
    · intro e _
      simp [stands, keysFor, returnedFor]
    · intro repo
      refine le_of_eq (List.countP_congr ?_)
      intro e _
      simp [requeuedIn]

theorem distinct_entries {snapshot : IssueEnrichmentAdmissionSnapshot lower} {entries : List Entry}
    (h : entries.map Entry.candidate = snapshot.candidates.filter fun c => c.action ≠ .skipped) :
    (entries.map (Entry.key lower)).Nodup := by
  have hkeys : entries.map (Entry.key lower) =
      (snapshot.candidates.filter fun c => c.action ≠ .skipped).map (IssueEnrichmentAdmissionCandidate.key lower) := by
    rw [← h, List.map_map]
    rfl
  rw [hkeys]
  exact snapshot.distinct.sublist (List.filter_sublist.map _)

theorem conserved_start (h : Agrees lower l₀ [] l₀) : Conserved lower l₀ [] l₀ where
  caps := fun m cap hcap => h.caps m hcap
  probedOnce := List.nodup_nil
  admittedOnce := List.nodup_nil
  fair := by
    intro past call answer rest hlog
    simp at hlog

end Steps

/-- Whatever is called in whatever order on a ledger that was accepted, its caps hold of the candidates that are admitted,
not released, and of no repository that was blocked. The candidates listed by `snapshot` are those of the frozen
snapshot that are not skipped. -/
theorem ledger_conserves_caps (lower : String → String) (snapshot : IssueEnrichmentAdmissionSnapshot lower)
    (decisions : List IssueEnrichmentAdmissionDecision) (l₀ : Ledger)
    (h : createIssueEnrichmentAdmissionLedger lower snapshot decisions = .ok l₀) (calls : List Call) :
    l₀.entries.map Entry.candidate = snapshot.candidates.filter (fun c => c.action ≠ .skipped) ∧
      Conserved lower l₀ (history lower l₀ calls).1 (history lower l₀ calls).2 := by
  obtain ⟨hagrees, hcandidates⟩ := create_spec h
  exact ⟨hcandidates, conserved_run (distinct_entries hcandidates) calls hagrees (conserved_start hagrees)⟩

/-! ## Two repositories under one global slot -/

def slotLimits : Json :=
  .obj
    [("globalMaxIssuesPerCycle", .int 1), ("globalMaxCommentsPerCycle", .int 1),
      ("repos", .obj
        [("a/repo", .obj [("maxIssuesPerCycle", .int 2), ("maxCommentsPerCycle", .int 1), ("maxIssuesPerBurst", .int 3)]),
          ("b/repo", .obj [("maxIssuesPerCycle", .int 2), ("maxCommentsPerCycle", .int 2), ("maxIssuesPerBurst", .int 3)])])]

def slotSnapshot : IssueEnrichmentAdmissionSnapshot id where
  checkedAt := 1787702400000
  limits := slotLimits
  candidates :=
    [{ repo := "a/repo", issueNumber := 1, action := .would_enrich }, { repo := "b/repo", issueNumber := 1, action := .would_enrich }]
  distinct := by decide

def slotCalls : List Call := [.next, .next, .blockRepo "a/repo", .next]

/-- The caps hold through the calls. -/
theorem ledger_conserves_caps_slot :
    ∃ l₀, createIssueEnrichmentAdmissionLedger id slotSnapshot (classifyIssueEnrichmentAdmission slotSnapshot) = .ok l₀ ∧
      Conserved id l₀ (history id l₀ slotCalls).1 (history id l₀ slotCalls).2 := by
  have hok : ∃ l₀, createIssueEnrichmentAdmissionLedger id slotSnapshot (classifyIssueEnrichmentAdmission slotSnapshot) = .ok l₀ :=
    ⟨_, rfl⟩
  obtain ⟨l₀, h⟩ := hok
  exact ⟨l₀, h, (ledger_conserves_caps id slotSnapshot _ l₀ h slotCalls).2⟩

/-- Once its repository is blocked, an admitted candidate that was not released takes no slot: a second one is admitted
over the global cap. -/
theorem blocked_candidate_keeps_no_slot :
    ∃ l₀, createIssueEnrichmentAdmissionLedger id slotSnapshot (classifyIssueEnrichmentAdmission slotSnapshot) = .ok l₀ ∧
      l₀.limits.globalIssues < l₀.entries.countP fun e =>
        decide (e.key id ∈ keysFor id .eligible (history id l₀ slotCalls).1) &&
          decide (e.key id ∉ releasedIn id (history id l₀ slotCalls).1) :=
  ⟨_, rfl, by decide +kernel⟩

end NeonDiff.AdmissionLedger
