import NeonDiff.AdmissionLedger.Loops

/-! # What the calls of a ledger conserve

Whatever calls are made in whatever order, the log of a ledger shows what is admitted, and the ledger's own sets agree
with it.
-/

namespace NeonDiff.AdmissionLedger

open Lib

/-! ## What a log shows -/

section Shown

variable (lower : String → String)

/-- The candidates that `next` returned for the reason, the first one first. -/
def returnedFor (reason : LedgerReason) (log : Log) : List Entry :=
  log.filterMap fun x =>
    match x.2 with
    | .returned (some d) => if d.reason = reason then some d.entry else none
    | _ => none

def keysFor (reason : LedgerReason) (log : Log) : List String := (returnedFor reason log).map (Entry.key lower)

def releasedIn (log : Log) : List String :=
  log.filterMap fun x =>
    match x.1 with
    | .release candidate => some (candidate.key lower)
    | _ => none

def requeuedIn (log : Log) : List String :=
  log.filterMap fun x =>
    match x.1 with
    | .requeue candidate => some (candidate.key lower)
    | _ => none

def blockedIn (log : Log) : List String :=
  log.filterMap fun x =>
    match x.1 with
    | .blockRepo repo => some (repoKey lower repo)
    | _ => none

/-- Admitted, not released, and of a repository that was not blocked. -/
def stands (log : Log) (entry : Entry) : Bool :=
  decide (entry.key lower ∈ keysFor lower .eligible log) && decide (entry.key lower ∉ releasedIn lower log) &&
    decide (entry.repo lower ∉ blockedIn lower log)

def commentPutOff (l : Ledger) (entry : Entry) : Bool :=
  (l.deferredReason (entry.key lower)).any commentReason

def standingWeight (m : Meter) (log : Log) (l : Ledger) (entry : Entry) : Nat :=
  if stands lower log entry then m.full lower entry
  else if commentPutOff lower l entry then m.slot lower entry
  else 0

def burstTotal (entries : List Entry) (log : Log) (repo : String) : Nat :=
  entries.countP fun entry =>
    (entry.classification.state = .pending || decide (entry.key lower ∈ requeuedIn lower log)) && countsTowardBurst entry &&
      entry.repo lower = repo

/-- What an admitted candidate has to its credit. -/
structure WellAdmitted (l₀ : Ledger) (past : Log) (entry : Entry) : Prop where
  wanted : entry.classification.state = .held ∨ entry.classification.state = .already_recorded →
    entry.key lower ∈ requeuedIn lower past
  burst : entry.candidate.isNew = false → ∀ cap, repoLimits lower l₀.limits (entry.repo lower) = some cap →
    burstTotal lower l₀.entries past (entry.repo lower) ≤ cap.burst

/-- The answer to one call is fair after the calls before it. -/
def Fair (l₀ : Ledger) (past : Log) (answer : Answer) : Prop :=
  match answer with
  | .returned (some d) =>
    d.entry.key lower ∉ releasedIn lower past ∧ d.entry.repo lower ∉ blockedIn lower past ∧
      (d.reason = .source_probe ∨ d.reason = .eligible ∧ WellAdmitted lower l₀ past d.entry)
  | .listed decisions =>
    decisions.map LedgerDecision.entry = l₀.entries ∧
      ∀ (m : Meter) (cap : Nat), m.cap lower l₀.limits = some cap → projectedWeight lower m decisions ≤ cap
  | _ => True

/-- The caps hold of what stands, no candidate is returned twice for one reason, and every answer is fair. -/
structure Conserved (l₀ : Ledger) (log : Log) (l : Ledger) : Prop where
  caps : ∀ (m : Meter) (cap : Nat), m.cap lower l₀.limits = some cap →
    (l₀.entries.map (standingWeight lower m log l)).sum ≤ cap
  probedOnce : (keysFor lower .source_probe log).Nodup
  admittedOnce : (keysFor lower .eligible log).Nodup
  fair : ∀ past call answer rest, log = past ++ (call, answer) :: rest → Fair lower l₀ past answer

end Shown

/-! ## The ledger agrees with its log -/

section Agreement

variable {lower : String → String} {l₀ l l' : Ledger} {log : Log} {call : Call}

structure Agrees (lower : String → String) (l₀ : Ledger) (log : Log) (l : Ledger) : Prop where
  limits : l.limits = l₀.limits
  entries : l.entries = l₀.entries
  holding : Holding l
  fits : Fits lower l.limits (currentUsage lower l.entries l.active l.issueOnly)
  probed : ∀ key, key ∈ l.probed ↔ key ∈ keysFor lower .source_probe log
  released : ∀ key, key ∈ l.released ↔ key ∈ releasedIn lower log
  requeued : ∀ key, key ∈ l.requeued ↔ key ∈ requeuedIn lower log
  blocked : ∀ e ∈ l.entries, e.repo lower ∈ l.blocked ↔ e.repo lower ∈ blockedIn lower log
  active : ∀ e ∈ l.entries, e.key lower ∈ l.active ↔ stands lower log e = true
  burst : ∀ repo, burstTotal lower l.entries log repo ≤ l.eligibleByRepo repo

theorem keysFor_concat (reason : LedgerReason) (x : Call × Answer) :
    keysFor lower reason (log ++ [x]) = keysFor lower reason log ++ keysFor lower reason [x] := by
  unfold keysFor returnedFor
  rw [List.filterMap_append, List.map_append]

theorem releasedIn_concat (x : Call × Answer) : releasedIn lower (log ++ [x]) = releasedIn lower log ++ releasedIn lower [x] :=
  List.filterMap_append

theorem requeuedIn_concat (x : Call × Answer) : requeuedIn lower (log ++ [x]) = requeuedIn lower log ++ requeuedIn lower [x] :=
  List.filterMap_append

theorem blockedIn_concat (x : Call × Answer) : blockedIn lower (log ++ [x]) = blockedIn lower log ++ blockedIn lower [x] :=
  List.filterMap_append

theorem Agrees.caps (h : Agrees lower l₀ log l) (m : Meter) {cap : Nat} (hcap : m.cap lower l₀.limits = some cap) :
    (l₀.entries.map (standingWeight lower m log l)).sum ≤ cap := by
  rw [← h.limits] at hcap
  have hle := h.fits m cap hcap
  rw [read_currentUsage] at hle
  rw [← h.entries]
  have heq : l.entries.map (standingWeight lower m log l) = l.entries.map (weighs lower m l.active l.issueOnly) := by
    apply List.map_congr_left
    intro e he
    have honly : e.key lower ∈ l.issueOnly ↔ commentPutOff lower l e = true := by
      rw [h.holding.slots]
      unfold commentPutOff
      rw [Option.any_eq_true]
    unfold standingWeight weighs
    simp only [h.active e he, honly]
  rw [heq]
  exact hle

theorem stands_eq_true {entry : Entry} : stands lower log entry = true ↔
    entry.key lower ∈ keysFor lower .eligible log ∧ entry.key lower ∉ releasedIn lower log ∧
      entry.repo lower ∉ blockedIn lower log := by
  unfold stands
  simp only [Bool.and_eq_true, decide_eq_true_eq, and_assoc]

theorem burstTotal_congr {log' : Log} (entries : List Entry) (h : requeuedIn lower log' = requeuedIn lower log) (repo : String) :
    burstTotal lower entries log' repo = burstTotal lower entries log repo := by
  unfold burstTotal
  rw [h]

/-! ### Next and snapshot -/

theorem Agrees.quiet (h : Agrees lower l₀ log l) (hothers : OnlyPutOff l l') (hholding : Holding l')
    (hfits : Fits lower l.limits (currentUsage lower l.entries l'.active l'.issueOnly)) {x : Call × Answer}
    (hkeys : ∀ reason, keysFor lower reason [x] = []) (hreleased : releasedIn lower [x] = [])
    (hrequeued : requeuedIn lower [x] = []) (hblocked : blockedIn lower [x] = []) : Agrees lower l₀ (log ++ [x]) l' := by
  rw [hothers] at hholding hfits ⊢
  have hkeys' : ∀ reason, keysFor lower reason (log ++ [x]) = keysFor lower reason log := by
    intro reason
    rw [keysFor_concat, hkeys, List.append_nil]
  have hreleased' : releasedIn lower (log ++ [x]) = releasedIn lower log := by rw [releasedIn_concat, hreleased, List.append_nil]
  have hrequeued' : requeuedIn lower (log ++ [x]) = requeuedIn lower log := by rw [requeuedIn_concat, hrequeued, List.append_nil]
  have hblocked' : blockedIn lower (log ++ [x]) = blockedIn lower log := by rw [blockedIn_concat, hblocked, List.append_nil]
  refine ⟨h.limits, h.entries, hholding, hfits, ?_, ?_, ?_, ?_, ?_, ?_⟩
  · rw [hkeys']
    exact h.probed
  · rw [hreleased']
    exact h.released
  · rw [hrequeued']
    exact h.requeued
  · rw [hblocked']
    exact h.blocked
  · intro e he
    rw [stands_eq_true, hkeys', hreleased', hblocked', ← stands_eq_true]
    exact h.active e he
  · intro repo
    rw [burstTotal_congr _ hrequeued']
    exact h.burst repo

/-- `next` returned a candidate. -/
abbrev gave (entry : Entry) (reason : LedgerReason) : Call × Answer :=
  (.next, .returned (some (projected entry entry.intendedAction.scan reason)))

theorem keysFor_gave_self (entry : Entry) (reason : LedgerReason) : keysFor lower reason [gave entry reason] = [entry.key lower] := by
  simp [keysFor, returnedFor, projected]

theorem keysFor_gave_other (entry : Entry) {reason reason' : LedgerReason} (hne : reason' ≠ reason) :
    keysFor lower reason [gave entry reason'] = [] := by
  simp [keysFor, returnedFor, projected, hne]

theorem Agrees.probe (h : Agrees lower l₀ log l) (entry : Entry) :
    Agrees lower l₀ (log ++ [gave entry .source_probe]) { l with probed := insert (entry.key lower) l.probed } := by
  have hreleased : releasedIn lower (log ++ [gave entry .source_probe]) = releasedIn lower log := by
    rw [releasedIn_concat]
    exact List.append_nil _
  have hrequeued : requeuedIn lower (log ++ [gave entry .source_probe]) = requeuedIn lower log := by
    rw [requeuedIn_concat]
    exact List.append_nil _
  have hblocked : blockedIn lower (log ++ [gave entry .source_probe]) = blockedIn lower log := by
    rw [blockedIn_concat]
    exact List.append_nil _
  have heligible : keysFor lower .eligible (log ++ [gave entry .source_probe]) = keysFor lower .eligible log := by
    rw [keysFor_concat, keysFor_gave_other entry (by decide), List.append_nil]
  refine ⟨h.limits, h.entries, ⟨h.holding.reasons, h.holding.slots, h.holding.apart⟩, h.fits, ?_, ?_, ?_, ?_, ?_, ?_⟩
  · intro key
    rw [keysFor_concat, keysFor_gave_self, List.mem_append, ← h.probed, List.mem_singleton, Finset.mem_insert]
    exact or_comm
  · rw [hreleased]
    exact h.released
  · rw [hrequeued]
    exact h.requeued
  · rw [hblocked]
    exact h.blocked
  · intro e he
    rw [stands_eq_true, heligible, hreleased, hblocked, ← stands_eq_true]
    exact h.active e he
  · intro repo
    rw [burstTotal_congr _ hrequeued]
    exact h.burst repo

theorem Admits.clear {entry : Entry} (ha : Admits lower l entry l') (h : Agrees lower l₀ log l) :
    entry.key lower ∉ releasedIn lower log ∧ entry.repo lower ∉ blockedIn lower log := by
  obtain ⟨usage, cap, hunder⟩ := ha.under
  refine ⟨?_, ?_⟩
  · rw [← h.released]
    exact ha.unreleased
  · rw [← h.blocked entry ha.mem]
    exact hunder.unblocked

theorem Agrees.taken (h : Agrees lower l₀ log l) (hdistinct : (l.entries.map (Entry.key lower)).Nodup) {entry : Entry}
    (ha : Admits lower l entry l') (hholding : Holding l')
    (hfits : Fits lower l.limits (currentUsage lower l.entries l'.active l'.issueOnly)) :
    Agrees lower l₀ (log ++ [gave entry .eligible]) l' := by
  have hclear := ha.clear h
  have hreleased : releasedIn lower (log ++ [gave entry .eligible]) = releasedIn lower log := by
    rw [releasedIn_concat]
    exact List.append_nil _
  have hrequeued : requeuedIn lower (log ++ [gave entry .eligible]) = requeuedIn lower log := by
    rw [requeuedIn_concat]
    exact List.append_nil _
  have hblocked : blockedIn lower (log ++ [gave entry .eligible]) = blockedIn lower log := by
    rw [blockedIn_concat]
    exact List.append_nil _
  have hprobed : keysFor lower .source_probe (log ++ [gave entry .eligible]) = keysFor lower .source_probe log := by
    rw [keysFor_concat, keysFor_gave_other entry (by decide), List.append_nil]
  have hothers := ha.others
  rw [hothers] at hholding hfits ⊢
  refine ⟨h.limits, h.entries, hholding, hfits, ?_, ?_, ?_, ?_, ?_, ?_⟩
  · rw [hprobed]
    exact h.probed
  · rw [hreleased]
    exact h.released
  · rw [hrequeued]
    exact h.requeued
  · rw [hblocked]
    exact h.blocked
  · intro e he
    rw [stands_eq_true, keysFor_concat, keysFor_gave_self, hreleased, hblocked, List.mem_append, List.mem_singleton]
    dsimp only
    rw [Finset.mem_insert, h.active e he, stands_eq_true]
    constructor
    · rintro (hkey | ⟨hkey, hclear'⟩)
      · have heq : e = entry := List.inj_on_of_nodup_map hdistinct he ha.mem hkey
        subst heq
        exact ⟨.inr rfl, hclear⟩
      · exact ⟨.inl hkey, hclear'⟩
    · rintro ⟨hkey | hkey, hclear'⟩
      · exact .inr ⟨hkey, hclear'⟩
      · exact .inl hkey
  · intro repo
    rw [burstTotal_congr _ hrequeued]
    exact h.burst repo

/-! ### Release, requeue and block -/

theorem Agrees.release (h : Agrees lower l₀ log l) (candidate : IssueEnrichmentAdmissionCandidate) :
    Agrees lower l₀ (log ++ [(.release candidate, .done)]) (l.release lower candidate) := by
  have hkeys : ∀ reason, keysFor lower reason (log ++ [(.release candidate, .done)]) = keysFor lower reason log := by
    intro reason
    rw [keysFor_concat]
    exact List.append_nil _
  have hreleased : releasedIn lower (log ++ [(.release candidate, .done)]) = releasedIn lower log ++ [candidate.key lower] :=
    releasedIn_concat _
  have hrequeued : requeuedIn lower (log ++ [(.release candidate, .done)]) = requeuedIn lower log := by
    rw [requeuedIn_concat]
    exact List.append_nil _
  have hblocked : blockedIn lower (log ++ [(.release candidate, .done)]) = blockedIn lower log := by
    rw [blockedIn_concat]
    exact List.append_nil _
  unfold Ledger.release
  refine ⟨h.limits, h.entries, ⟨h.holding.reasons, h.holding.slots, ?_⟩, ?_, ?_, ?_, ?_, ?_, ?_, ?_⟩
  · intro key hkey
    exact h.holding.apart key (Finset.mem_of_mem_erase hkey)
  · intro m cap hcap
    exact (read_currentUsage_mono (Finset.erase_subset _ _) fun _ hkey => hkey).trans (h.fits m cap hcap)
  · rw [hkeys]
    exact h.probed
  · intro key
    rw [hreleased, List.mem_append, List.mem_singleton, ← h.released, Finset.mem_insert]
    exact or_comm
  · rw [hrequeued]
    exact h.requeued
  · rw [hblocked]
    exact h.blocked
  · intro e he
    rw [stands_eq_true, hkeys, hreleased, hblocked, List.mem_append, List.mem_singleton, not_or]
    dsimp only
    rw [Finset.mem_erase, h.active e he, stands_eq_true]
    tauto
  · intro repo
    rw [burstTotal_congr _ hrequeued]
    exact h.burst repo

theorem mem_foldl_erase {entries : List Entry} {active : Finset String} {key : String} :
    key ∈ entries.foldl (fun active entry => active.erase (entry.key lower)) active ↔
      key ∈ active ∧ ∀ e ∈ entries, e.key lower ≠ key := by
  induction entries generalizing active with
  | nil => simp
  | cons entry entries ih =>
    rw [List.foldl_cons, ih, Finset.mem_erase, List.forall_mem_cons]
    constructor
    · rintro ⟨⟨hne, hkey⟩, hrest⟩
      exact ⟨hkey, Ne.symm hne, hrest⟩
    · rintro ⟨hkey, hne, hrest⟩
      exact ⟨⟨Ne.symm hne, hkey⟩, hrest⟩

theorem Agrees.blockRepo (h : Agrees lower l₀ log l) (repo : String) :
    Agrees lower l₀ (log ++ [(.blockRepo repo, .done)]) (l.blockRepo lower repo) := by
  have hkeys : ∀ reason, keysFor lower reason (log ++ [(.blockRepo repo, .done)]) = keysFor lower reason log := by
    intro reason
    rw [keysFor_concat]
    exact List.append_nil _
  have hreleased : releasedIn lower (log ++ [(.blockRepo repo, .done)]) = releasedIn lower log := by
    rw [releasedIn_concat]
    exact List.append_nil _
  have hrequeued : requeuedIn lower (log ++ [(.blockRepo repo, .done)]) = requeuedIn lower log := by
    rw [requeuedIn_concat]
    exact List.append_nil _
  have hblocked : blockedIn lower (log ++ [(.blockRepo repo, .done)]) = blockedIn lower log ++ [repoKey lower repo] :=
    blockedIn_concat _
  unfold Ledger.blockRepo
  dsimp only
  split
  · -- the keys of the repository are erased, and what was put off is considered again
    have hactive : ∀ e ∈ l.entries,
        e.key lower ∈ (l.entries.filter fun entry => entry.repo lower = repoKey lower repo).foldl
          (fun active entry => active.erase (entry.key lower)) l.active ↔
        e.key lower ∈ l.active ∧ e.repo lower ≠ repoKey lower repo := by
      intro e he
      rw [mem_foldl_erase]
      refine and_congr_right fun _ => ⟨?_, ?_⟩
      · intro hnone hrepo
        exact hnone e (List.mem_filter.mpr ⟨he, decide_eq_true hrepo⟩) rfl
      · intro hrepo e' he' hkey
        exact hrepo ((repoKey_eq_of_key_eq hkey).symm.trans (of_decide_eq_true (List.mem_filter.mp he').2))
    refine ⟨h.limits, h.entries, ⟨?_, ?_, ?_⟩, ?_, ?_, ?_, ?_, ?_, ?_, ?_⟩
    · intro key reason hreason
      cases hreason
    · intro key
      constructor
      · intro hkey
        exact absurd hkey (Finset.notMem_empty key)
      · rintro ⟨reason, hreason, -⟩
        cases hreason
    · intro key _
      rfl
    · intro m cap hcap
      refine (read_currentUsage_mono ?_ fun key hkey => absurd hkey (Finset.notMem_empty key)).trans (h.fits m cap hcap)
      intro key hkey
      exact (mem_foldl_erase.mp hkey).1
    · rw [hkeys]
      exact h.probed
    · rw [hreleased]
      exact h.released
    · rw [hrequeued]
      exact h.requeued
    · intro e he
      rw [hblocked, List.mem_append, List.mem_singleton, Finset.mem_insert, h.blocked e he]
      exact or_comm
    · intro e he
      rw [hactive e he, stands_eq_true, hkeys, hreleased, hblocked, List.mem_append, List.mem_singleton, not_or, h.active e he,
        stands_eq_true]
      tauto
    · intro r
      rw [burstTotal_congr _ hrequeued]
      exact h.burst r
  · -- no candidate is of the repository
    rename_i hnone
    have hother : ∀ e ∈ l.entries, e.repo lower ≠ repoKey lower repo := by
      intro e he hrepo
      exact hnone (List.any_eq_true.mpr ⟨e, he, decide_eq_true hrepo⟩)
    refine ⟨h.limits, h.entries, h.holding, h.fits, ?_, ?_, ?_, ?_, ?_, ?_⟩
    · rw [hkeys]
      exact h.probed
    · rw [hreleased]
      exact h.released
    · rw [hrequeued]
      exact h.requeued
    · intro e he
      rw [hblocked, List.mem_append, List.mem_singleton, h.blocked e he]
      exact ⟨.inl, fun hmem => hmem.resolve_right (hother e he)⟩
    · intro e he
      rw [h.active e he, stands_eq_true, stands_eq_true, hkeys, hreleased, hblocked, List.mem_append, List.mem_singleton, not_or]
      exact ⟨fun ⟨h₁, h₂, h₃⟩ => ⟨h₁, h₂, h₃, hother e he⟩, fun ⟨h₁, h₂, h₃, _⟩ => ⟨h₁, h₂, h₃⟩⟩
    · intro r
      rw [burstTotal_congr _ hrequeued]
      exact h.burst r

theorem burstTotal_requeue {entries : List Entry}
    (candidate : IssueEnrichmentAdmissionCandidate) (answer : Answer) (repo : String) :
    burstTotal lower entries (log ++ [(.requeue candidate, answer)]) repo ≤ burstTotal lower entries log repo +
      entries.countP fun e => e.key lower = candidate.key lower ∧ countsTowardBurst e = true ∧ e.repo lower = repo := by
  have hrequeued : requeuedIn lower (log ++ [(.requeue candidate, answer)]) = requeuedIn lower log ++ [candidate.key lower] :=
    requeuedIn_concat _
  unfold burstTotal
  rw [hrequeued]
  clear hrequeued
  induction entries with
  | nil => simp
  | cons e entries ih =>
    simp only [List.countP_cons]
    have hone : (if ((e.classification.state = .pending || decide (e.key lower ∈ requeuedIn lower log ++ [candidate.key lower])) &&
          countsTowardBurst e && decide (e.repo lower = repo)) = true then 1 else 0) ≤
        (if ((e.classification.state = .pending || decide (e.key lower ∈ requeuedIn lower log)) && countsTowardBurst e &&
          decide (e.repo lower = repo)) = true then 1 else 0) +
        if decide (e.key lower = candidate.key lower ∧ countsTowardBurst e = true ∧ e.repo lower = repo) = true then 1 else 0 := by
      by_cases hkey : e.key lower = candidate.key lower
      · by_cases hc : countsTowardBurst e = true ∧ e.repo lower = repo
        · simp [hkey, hc.1, hc.2]
        · have hnot : (countsTowardBurst e && decide (e.repo lower = repo)) = false := by
            rw [← Bool.not_eq_true, Bool.and_eq_true, decide_eq_true_eq]
            exact hc
          simp [Bool.and_assoc, hnot]
      · simp [hkey]
    omega

theorem countP_key_le_one {entries : List Entry} (hdistinct : (entries.map (Entry.key lower)).Nodup) (key repo : String) :
    (entries.countP fun e => e.key lower = key ∧ countsTowardBurst e = true ∧ e.repo lower = repo) ≤ 1 := by
  calc (entries.countP fun e => e.key lower = key ∧ countsTowardBurst e = true ∧ e.repo lower = repo)
      ≤ entries.countP fun e => e.key lower == key := by
        apply List.countP_mono_left
        intro e _ he
        simpa using (of_decide_eq_true he).1
    _ = (entries.map (Entry.key lower)).count key := by
        rw [List.count, List.countP_map]
        rfl
    _ ≤ 1 := List.nodup_iff_count_le_one.mp hdistinct key

theorem requeue_eligibleByRepo (h : Agrees lower l₀ log l) (hdistinct : (l.entries.map (Entry.key lower)).Nodup)
    (candidate : IssueEnrichmentAdmissionCandidate) (repo : String) :
    burstTotal lower l.entries (log ++ [(.requeue candidate, .done)]) repo ≤
      (l.requeue lower candidate).eligibleByRepo repo := by
  have hmore := @burstTotal_requeue lower log l.entries candidate .done repo
  have hold := h.burst repo
  unfold Ledger.requeue
  split
  · -- the candidate counts already
    rename_i hagain
    have hmem : candidate.key lower ∈ requeuedIn lower log := (h.requeued _).mp hagain
    refine le_trans (le_of_eq ?_) hold
    have hrequeued : requeuedIn lower (log ++ [(.requeue candidate, .done)]) = requeuedIn lower log ++ [candidate.key lower] :=
      requeuedIn_concat _
    unfold burstTotal
    rw [hrequeued]
    apply List.countP_congr
    intro e _
    have hiff : e.key lower ∈ requeuedIn lower log ++ [candidate.key lower] ↔ e.key lower ∈ requeuedIn lower log := by
      rw [List.mem_append, List.mem_singleton]
      exact ⟨fun hor => hor.elim id fun heq => heq ▸ hmem, .inl⟩
    simp only [hiff]
  · dsimp only
    have hnone : (∀ e ∈ l.entries, e.key lower = candidate.key lower → countsTowardBurst e = true → e.repo lower = repo → False) →
        burstTotal lower l.entries (log ++ [(.requeue candidate, .done)]) repo ≤ l.eligibleByRepo repo := by
      intro hfree
      have hzero : (l.entries.countP fun e => e.key lower = candidate.key lower ∧ countsTowardBurst e = true ∧
          e.repo lower = repo) = 0 := by
        rw [List.countP_eq_zero]
        intro e he hall
        obtain ⟨hkey, hcounts, hrepo⟩ := of_decide_eq_true hall
        exact hfree e he hkey hcounts hrepo
      omega
    split
    · rename_i hfind
      apply hnone
      intro e he hkey _ _
      have := List.find?_eq_none.mp hfind e he
      exact this (decide_eq_true hkey)
    · rename_i entry hfind
      have hentry : entry ∈ l.entries := List.mem_of_find?_eq_some hfind
      have hentryKey : entry.key lower = candidate.key lower := of_decide_eq_true (List.find?_some (p := fun e : Entry =>
        decide (e.key lower = candidate.key lower)) hfind)
      have honly : ∀ e ∈ l.entries, e.key lower = candidate.key lower → e = entry := fun e he hkey =>
        List.inj_on_of_nodup_map hdistinct he hentry (hkey.trans hentryKey.symm)
      have hrepo : entry.repo lower = repoKey lower candidate.repo := repoKey_eq_of_key_eq hentryKey
      split
      · dsimp only
        by_cases hsame : repo = repoKey lower candidate.repo
        · subst hsame
          have hle := countP_key_le_one hdistinct (candidate.key lower) (repoKey lower candidate.repo)
          rw [Function.update_self]
          omega
        · rw [Function.update_of_ne hsame]
          apply hnone
          intro e he hkey _ herepo
          rw [honly e he hkey, hrepo] at herepo
          exact hsame herepo.symm
      · rename_i hcounts
        apply hnone
        intro e he hkey hcounts' _
        rw [honly e he hkey] at hcounts'
        exact hcounts hcounts'

theorem requeue_fields (l : Ledger) (candidate : IssueEnrichmentAdmissionCandidate) :
    l.requeue lower candidate = { l with
      requeued := insert (candidate.key lower) l.requeued
      eligibleByRepo := (l.requeue lower candidate).eligibleByRepo } := by
  unfold Ledger.requeue
  split
  · rename_i hagain
    rw [Finset.insert_eq_of_mem hagain]
  · dsimp only
    split
    · rfl
    · split
      · rfl
      · rfl

theorem Agrees.requeue (h : Agrees lower l₀ log l) (hdistinct : (l.entries.map (Entry.key lower)).Nodup)
    (candidate : IssueEnrichmentAdmissionCandidate) :
    Agrees lower l₀ (log ++ [(.requeue candidate, .done)]) (l.requeue lower candidate) := by
  have hkeys : ∀ reason, keysFor lower reason (log ++ [(.requeue candidate, .done)]) = keysFor lower reason log := by
    intro reason
    rw [keysFor_concat]
    exact List.append_nil _
  have hreleased : releasedIn lower (log ++ [(.requeue candidate, .done)]) = releasedIn lower log := by
    rw [releasedIn_concat]
    exact List.append_nil _
  have hrequeued : requeuedIn lower (log ++ [(.requeue candidate, .done)]) = requeuedIn lower log ++ [candidate.key lower] :=
    requeuedIn_concat _
  have hblocked : blockedIn lower (log ++ [(.requeue candidate, .done)]) = blockedIn lower log := by
    rw [blockedIn_concat]
    exact List.append_nil _
  have hburst := requeue_eligibleByRepo h hdistinct candidate
  rw [requeue_fields]
  refine ⟨h.limits, h.entries, ⟨h.holding.reasons, h.holding.slots, h.holding.apart⟩, h.fits, ?_, ?_, ?_, ?_, ?_, hburst⟩
  · rw [hkeys]
    exact h.probed
  · rw [hreleased]
    exact h.released
  · intro key
    rw [hrequeued, List.mem_append, List.mem_singleton, ← h.requeued, Finset.mem_insert]
    exact or_comm
  · rw [hblocked]
    exact h.blocked
  · intro e he
    rw [stands_eq_true, hkeys, hreleased, hblocked, ← stands_eq_true]
    exact h.active e he

end Agreement

end NeonDiff.AdmissionLedger
