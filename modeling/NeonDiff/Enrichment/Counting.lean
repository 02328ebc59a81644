import NeonDiff.Enrichment.Overlap
import NeonDiff.Enrichment.Summary

/-! # What a cycle counts

Each listed issue comes to the result once at most, and the counters of a cycle stay within its items.
-/

open NeonDiff.Lib NeonDiff.Receipts

namespace NeonDiff.Enrichment

/-! ## Counting by repository -/

theorem sum_countP {α : Type} (repo : α → String) (p : α → Bool) {repos : List String} (hrepos : repos.Nodup)
    (items : List α) (h : ∀ x ∈ items, p x = true → repo x ∈ repos) :
    (repos.map fun r => items.countP fun x => decide (repo x = r) && p x).sum = items.countP p := by
  induction repos generalizing p with
  | nil =>
    symm
    rw [List.map_nil, List.sum_nil, List.countP_eq_zero]
    intro x hx hp
    exact List.not_mem_nil (h x hx hp)
  | cons r repos ih =>
    obtain ⟨hnot, hrest⟩ := List.nodup_cons.mp hrepos
    have hothers := ih (fun x => !decide (repo x = r) && p x) hrest fun x hx hp => by
      simp only [Bool.and_eq_true, Bool.not_eq_true', decide_eq_false_iff_not] at hp
      exact (List.mem_cons.mp (h x hx hp.2)).resolve_left hp.1
    have hsame : (repos.map fun r' => items.countP fun x => decide (repo x = r') && p x) =
        repos.map fun r' => items.countP fun x => decide (repo x = r') && (!decide (repo x = r) && p x) := by
      apply List.map_congr_left
      intro r' hr'
      apply List.countP_congr
      intro x hx
      have hne : repo x = r' → repo x ≠ r := fun he hr => hnot (hr ▸ he ▸ hr')
      by_cases hr : repo x = r'
      · simp [hr, hr ▸ hne hr]
      · simp [hr]
    have hsplit := List.countP_eq_countP_filter_add items p fun x => decide (repo x = r)
    rw [List.countP_filter, List.countP_filter] at hsplit
    rw [List.map_cons, List.sum_cons, hsame, hothers, hsplit]
    simp only [Bool.and_comm]

theorem sum_ones {α : Type} (P : α → Prop) [DecidablePred P] (xs : List α) :
    (xs.map fun x => if P x then 1 else 0).sum = xs.countP fun x => decide (P x) := by
  induction xs with
  | nil => rfl
  | cons x xs ih =>
    rw [List.map_cons, List.sum_cons, ih, List.countP_cons]
    simp only [decide_eq_true_eq]
    omega

/-! ## What the loops count -/

inductive Raises (c : CycleCall) (item : ResultItem) : Option CountKey → Prop
  | plain : Raises c item none
  | failed : Raises c item (some .failed)
  | alreadyProcessed : Raises c item (some .alreadyProcessed)
  | skippedRecorded (hlive : c.dryRun = false) (h : item.skipped = true) : Raises c item (some .skippedRecorded)
  | deferredRecorded (hlive : c.dryRun = false) (h : item.deferred = true) : Raises c item (some .deferredRecorded)
  | dryRunRecorded (hlive : c.dryRun = false) (hposts : c.config.postIssueComment = false)
      (h : item.wouldEnrich = true) : Raises c item (some .dryRunRecorded)
  | posted (hlive : c.dryRun = false) (hposts : c.config.postIssueComment = true) (h : item.wouldComment = true) :
      Raises c item (some .posted)

/-- The counters stay within the items. -/
structure Tally.Fits (c : CycleCall) (t : Tally) : Prop where
  posted : t.summary .posted ≤ t.items.countP ResultItem.wouldComment
  dryRunRecorded : t.summary .dryRunRecorded ≤ t.items.countP ResultItem.wouldEnrich
  skippedRecorded : t.summary .skippedRecorded ≤ t.items.countP ResultItem.skipped
  deferredRecorded : t.summary .deferredRecorded ≤ t.items.countP ResultItem.deferred
  settled : t.summary .alreadyProcessed + t.summary .failed ≤ t.items.length
  dryRun : c.dryRun = true → t.summary .posted = 0 ∧ t.summary .dryRunRecorded = 0 ∧ t.summary .skippedRecorded = 0 ∧
    t.summary .deferredRecorded = 0
  posts : c.config.postIssueComment = true → t.summary .dryRunRecorded = 0
  silent : c.config.postIssueComment = false → t.summary .posted = 0
  fresh : ∀ i ∈ t.items, i.deferred = true → i.skippedExisting = false

theorem Tally.Fits.of_eq {c : CycleCall} {t t' : Tally} (h : t.Fits c) (hitems : t'.items = t.items)
    (hsummary : t'.summary = t.summary) : t'.Fits c := by
  refine ⟨?_, ?_, ?_, ?_, ?_, ?_, ?_, ?_, hitems ▸ h.fresh⟩
  all_goals rw [hsummary]
  · exact hitems ▸ h.posted
  · exact hitems ▸ h.dryRunRecorded
  · exact hitems ▸ h.skippedRecorded
  · exact hitems ▸ h.deferredRecorded
  · exact hitems ▸ h.settled
  · exact h.dryRun
  · exact h.posts
  · exact h.silent

theorem Tally.Fits.note {c : CycleCall} {t : Tally} {item : ResultItem} {counter : Option CountKey} (h : t.Fits c)
    (hitem : Raises c item counter) (hfresh : item.deferred = true → item.skippedExisting = false) :
    (t.note item counter).Fits c := by
  obtain ⟨hposted, hdry, hskipped, hdeferred, hsettled, hdryRun, hposts, hsilent, hall⟩ := h
  have hoff {p : ResultItem → Bool} : t.items.countP p ≤ (t.items ++ [item]).countP p := by
    rw [List.countP_append]
    omega
  have hon {p : ResultItem → Bool} (hp : p item = true) : (t.items ++ [item]).countP p = t.items.countP p + 1 := by
    rw [List.countP_append, List.countP_singleton, if_pos hp]
  have hlength : (t.items ++ [item]).length = t.items.length + 1 := by simp
  have hnot (hlive : c.dryRun = false) {p : Prop} (h : c.dryRun = true) : p := by simp [hlive] at h
  have hevery : ∀ i ∈ t.items ++ [item], i.deferred = true → i.skippedExisting = false := by
    intro i hi
    rcases List.mem_append.mp hi with hi | hi
    · exact hall i hi
    · obtain rfl := List.mem_singleton.mp hi
      exact hfresh
  cases hitem with
  | plain =>
    exact ⟨hposted.trans hoff, hdry.trans hoff, hskipped.trans hoff, hdeferred.trans hoff, by
      change t.summary .alreadyProcessed + t.summary .failed ≤ (t.items ++ [item]).length
      omega, hdryRun, hposts, hsilent, hevery⟩
  | failed =>
    exact ⟨hposted.trans hoff, hdry.trans hoff, hskipped.trans hoff, hdeferred.trans hoff, by
      change t.summary .alreadyProcessed + (t.summary .failed + 1) ≤ (t.items ++ [item]).length
      omega, hdryRun, hposts, hsilent, hevery⟩
  | alreadyProcessed =>
    exact ⟨hposted.trans hoff, hdry.trans hoff, hskipped.trans hoff, hdeferred.trans hoff, by
      change t.summary .alreadyProcessed + 1 + t.summary .failed ≤ (t.items ++ [item]).length
      omega, hdryRun, hposts, hsilent, hevery⟩
  | skippedRecorded hlive hitem =>
    refine ⟨hposted.trans hoff, hdry.trans hoff, ?_, hdeferred.trans hoff, ?_, hnot hlive, hposts, hsilent, hevery⟩
    · change t.summary .skippedRecorded + 1 ≤ (t.items ++ [item]).countP _
      rw [hon hitem]
      omega
    · change t.summary .alreadyProcessed + t.summary .failed ≤ (t.items ++ [item]).length
      omega
  | deferredRecorded hlive hitem =>
    refine ⟨hposted.trans hoff, hdry.trans hoff, hskipped.trans hoff, ?_, ?_, hnot hlive, hposts, hsilent, hevery⟩
    · change t.summary .deferredRecorded + 1 ≤ (t.items ++ [item]).countP _
      rw [hon hitem]
      omega
    · change t.summary .alreadyProcessed + t.summary .failed ≤ (t.items ++ [item]).length
      omega
  | dryRunRecorded hlive hkind hitem =>
    refine ⟨hposted.trans hoff, ?_, hskipped.trans hoff, hdeferred.trans hoff, ?_, hnot hlive, ?_, hsilent, hevery⟩
    · change t.summary .dryRunRecorded + 1 ≤ (t.items ++ [item]).countP _
      rw [hon hitem]
      omega
    · change t.summary .alreadyProcessed + t.summary .failed ≤ (t.items ++ [item]).length
      omega
    · intro hlive
      simp [hkind] at hlive
  | posted hlive hkind hitem =>
    refine ⟨?_, hdry.trans hoff, hskipped.trans hoff, hdeferred.trans hoff, ?_, hnot hlive, hposts, ?_, hevery⟩
    · change t.summary .posted + 1 ≤ (t.items ++ [item]).countP _
      rw [hon hitem]
      omega
    · change t.summary .alreadyProcessed + t.summary .failed ≤ (t.items ++ [item]).length
      omega
    · intro hsilent
      simp [hkind] at hsilent

/-- What a loop that takes the ledger as it is does with `n` items at most. -/
structure Noted (c : CycleCall) (repos : List String) (n : Nat) (t t' : Tally) : Prop where
  ledger : t'.ledger = t.ledger
  settled : t'.settled = t.settled
  fits : t.Fits c → t'.Fits c
  length : t'.items.length ≤ t.items.length + n
  repos : (∀ i ∈ t.items, i.repo ∈ repos) → ∀ i ∈ t'.items, i.repo ∈ repos

section
variable {c : CycleCall} {repos : List String} {n m : Nat} {t t' t'' : Tally}

theorem Noted.refl (c : CycleCall) (repos : List String) (n : Nat) (t : Tally) : Noted c repos n t t :=
  ⟨rfl, rfl, id, Nat.le_add_right _ _, id⟩

theorem Noted.trans (h : Noted c repos n t t') (h' : Noted c repos m t' t'') : Noted c repos (n + m) t t'' where
  ledger := h'.ledger.trans h.ledger
  settled := h'.settled.trans h.settled
  fits := fun ht => h'.fits (h.fits ht)
  length := by
    have hn := h.length
    have hm := h'.length
    omega
  repos := fun ht => h'.repos (h.repos ht)

theorem noted_one {item : ResultItem} {counter : Option CountKey} (hcounts : Raises c item counter)
    (hfresh : item.deferred = true → item.skippedExisting = false) (hrepo : item.repo ∈ repos) (hn : 1 ≤ n) : Noted c repos n t (t.note item counter) where
  ledger := rfl
  settled := rfl
  fits := fun ht => ht.note hcounts hfresh
  length := by
    change (t.items ++ [item]).length ≤ _
    rw [List.length_append, List.length_singleton]
    omega
  repos := by
    intro ht i hi
    rcases List.mem_append.mp hi with hi | hi
    · exact ht i hi
    · obtain rfl := List.mem_singleton.mp hi
      exact hrepo

theorem foldl_noted {α : Type} {f : Tally → α → Tally} {n : α → Nat} (xs : List α)
    (hf : ∀ t', t'.settled = t.settled → ∀ x ∈ xs, Noted c repos (n x) t' (f t' x)) :
    Noted c repos (xs.map n).sum t (xs.foldl f t) := by
  induction xs generalizing t with
  | nil => exact Noted.refl c repos 0 t
  | cons x xs ih =>
    rw [List.foldl_cons, List.map_cons, List.sum_cons]
    have hone := hf t rfl x List.mem_cons_self
    refine hone.trans (ih fun t' ht' y hy => ?_)
    exact hf t' (ht'.trans hone.settled) y (List.mem_cons_of_mem x hy)

end

/-! ## The loops around the rounds -/

theorem not_deferred (item : ScanItem) (existing : Bool) :
    ({ item.result with skippedExisting := existing } : ResultItem).deferred = false := by
  unfold ScanItem.result ResultItem.deferred
  cases item.action <;> rfl

theorem fresh_existing (item : ScanItem)
    (h : ({ item.result with skippedExisting := true } : ResultItem).deferred = true) : true = false :=
  h.symm.trans (not_deferred item true)

def Planned (c : CycleCall) (item : ScanItem) : Prop :=
  item.action = if c.config.postIssueComment then .wouldComment else .wouldEnrich

theorem planned_of_items {texts : Texts} {c : CycleCall} {scan : RepoScan} {item : ScanItem}
    (h : item ∈ scan.items texts c.config) (haction : item.action ≠ .skipped) : Planned c item := by
  obtain ⟨item, hitem, rfl⟩ := List.mem_map.mp h
  have hplan : item.action = .skipped ∨ Planned c item := by
    obtain ⟨issue, -, rfl⟩ := List.mem_map.mp hitem
    split
    · exact .inl rfl
    · exact .inr rfl
  unfold Reading.recordedSkip at haction ⊢
  split
  · rename_i hterminal
    rw [if_pos hterminal] at haction
    exact absurd rfl haction
  · rename_i hterminal
    rw [if_neg hterminal] at haction
    split
    · rename_i hgated
      rw [if_pos hgated] at haction
      exact absurd rfl haction
    · rename_i hgated
      rw [if_neg hgated] at haction
      exact hplan.resolve_left haction

theorem length_items (texts : Texts) (config : Config) (scan : RepoScan) :
    (scan.items texts config).length = scan.reading.issues.length := by
  unfold RepoScan.items planRepoIssueScan
  rw [List.length_map, List.length_map]

theorem noted_readFailure {c : CycleCall} {repos : List String} (scan : RepoScan) (t : Tally) {item : ScanItem}
    (hrepo : item.repo ∈ repos) :
    Noted c repos (if (scan.reading.readFailure item).isSome then 1 else 0) t (tallyReadFailure scan t item) := by
  unfold tallyReadFailure
  split
  · exact noted_one .failed (fun _ => rfl) hrepo le_rfl
  · exact Noted.refl c repos 0 t

theorem counts_counter {c : CycleCall} {item : ResultItem} {key : CountKey}
    (h : c.dryRun = false → Raises c item (some key)) : Raises c item (c.counter key) := by
  unfold CycleCall.counter
  split
  · exact .plain
  · rename_i hlive
    exact h (by simpa using hlive)

theorem noted_skipped {c : CycleCall} {repos : List String} (t : Tally) {item : ScanItem} (hrepo : item.repo ∈ repos) :
    Noted c repos (if item.action = .skipped then 1 else 0) t (tallySkipped c t item) := by
  unfold tallySkipped
  split
  · rename_i hskipped
    apply noted_one _ (fun _ => rfl) hrepo le_rfl
    apply counts_counter
    intro hlive
    refine .skippedRecorded hlive ?_
    simp [ResultItem.skipped, ScanItem.result, hskipped, Action.result]
  · exact Noted.refl c repos 0 t

theorem noted_decision {c : CycleCall} {repos : List String} (t : Tally) {d : Entry × Reason}
    (hrepo : d.1.item.repo ∈ repos) :
    Noted c repos (if d.1.key ∉ t.settled then 1 else 0) t (tallyDecision c t d) := by
  obtain ⟨e, reason⟩ := d
  unfold tallyDecision
  dsimp only at hrepo ⊢
  by_cases hsettled : e.key ∈ t.settled
  · rw [if_neg (not_not.mpr hsettled), if_pos (by simp [hsettled])]
    exact Noted.refl c repos 0 t
  · rw [if_pos hsettled]
    split
    · exact Noted.refl c repos 1 t
    · split
      · exact noted_one .alreadyProcessed (fresh_existing e.item) hrepo le_rfl
      · split
        · exact noted_one (counts_counter fun _ => .failed) (fun _ => rfl) hrepo le_rfl
        · split
          · exact noted_one (counts_counter fun hlive => .skippedRecorded hlive rfl) (fun _ => rfl) hrepo le_rfl
          · exact noted_one (counts_counter fun hlive => .deferredRecorded hlive rfl) (fun _ => rfl) hrepo le_rfl

/-! ## Rounds -/

/-- The ledger hands the issue out neither to be probed nor to be settled. -/
def Closed (l : Ledger) (key : IssueKey) : Prop :=
  Dead l key ∨ key ∈ l.active ∧ ∀ e ∈ l.entries, e.key = key → e.state = .sourceDependent → key ∈ l.probed

section
variable {l l' : Ledger} {e : Entry} {key : IssueKey} {reason : Reason}

theorem Closed.spent (h : Closed l key) : Spent l key := by
  rcases h with hdead | ⟨hactive, -⟩
  · exact .inr hdead
  · exact .inl hactive

theorem Closed.change (h : Closed l key) (he : e ∈ l.entries) (hchange : LedgerChange l e l') : Closed l' key := by
  rcases h with hdead | ⟨hactive, hprobed⟩
  · exact .inl (hdead.change hchange)
  · have hspent : Spent l' key := Spent.change (.inl hactive) he hchange
    rcases hspent with hactive' | hdead
    · refine .inr ⟨hactive', ?_⟩
      rw [hchange.entries]
      cases hchange with
      | same => exact hprobed
      | release => exact hprobed
      | blockRepo =>
        unfold Ledger.blockRepo
        split
        · exact hprobed
        · exact hprobed
    · exact .inl hdead

theorem Closed.requeue (h : Closed l key) (e : Entry) : Closed (l.requeue e) key := by
  unfold Ledger.requeue
  split
  · exact h
  · exact h

theorem next_grows (l : Ledger) : (∀ k ∈ l.active, k ∈ l.next.2.active) ∧ (∀ k ∈ l.probed, k ∈ l.next.2.probed) ∧
    l.next.2.requeued = l.requeued := by
  rcases l.next_cases with ⟨e, -, hnext⟩ | ⟨l', hl', ⟨e, -, hnext⟩ | ⟨hnext, -⟩⟩
  · rw [hnext]
    exact ⟨fun _ hk => hk, fun _ hk => List.mem_cons_of_mem _ hk, rfl⟩
  · rw [hnext]
    exact ⟨fun _ hk => List.mem_cons_of_mem _ (hl'.active ▸ hk), fun _ hk => hl'.probed ▸ hk, hl'.requeued⟩
  · rw [hnext]
    exact ⟨fun _ hk => hl'.active ▸ hk, fun _ hk => hl'.probed ▸ hk, hl'.requeued⟩

theorem Closed.next (h : Closed l key) : Closed l.next.2 key := by
  obtain ⟨hactive, hprobed, -⟩ := next_grows l
  rcases h with hdead | ⟨hin, hkeys⟩
  · exact .inl (dead_next.mpr hdead)
  · refine .inr ⟨hactive key hin, ?_⟩
    rw [(next_frame l).1]
    exact fun e he hkey hstate => hprobed key (hkeys e he hkey hstate)

theorem admitFirst_eligible {u : Usage} {es : List Entry} (h : l.admitFirst u es = (some e, l')) :
    l.eligible e = true := by
  induction es generalizing l u with
  | nil => cases h
  | cons first es ih =>
    unfold Ledger.admitFirst at h
    split at h
    · exact ih h
    · rename_i hpassed
      split at h
      · obtain rfl := Option.some.inj (congrArg Prod.fst h)
        by_contra hnot
        apply hpassed
        rw [Bool.not_eq_true] at hnot
        rw [hnot]
        rfl
      · split at h
        · have heligible := ih h
          exact heligible
        · have heligible := ih h
          exact heligible

theorem next_probe (h : l.next = (some (e, .sourceProbe), l')) : e.state = .sourceDependent ∧ e.key ∉ l.probed := by
  unfold Ledger.next at h
  split at h
  · rename_i found hfind
    have hwants := List.find?_some hfind
    obtain rfl : found = e := congrArg Prod.fst (Option.some.inj (congrArg Prod.fst h))
    simp only [Ledger.wantsProbe, Bool.and_eq_true, decide_eq_true_eq, Bool.not_eq_true'] at hwants
    exact ⟨hwants.1.1.1, by simpa using hwants.1.1.2⟩
  · split at h
    · cases h
    · cases h

theorem next_reason (h : l.next = (some (e, reason), l')) : reason = .sourceProbe ∨ reason = .eligible := by
  unfold Ledger.next at h
  split at h
  · exact .inl (congrArg Prod.snd (Option.some.inj (congrArg Prod.fst h))).symm
  · split at h
    · exact .inr (congrArg Prod.snd (Option.some.inj (congrArg Prod.fst h))).symm
    · cases h

theorem next_eligible_cases (h : l.next = (some (e, .eligible), l')) : l.eligible e = true ∧ e.key ∈ l'.active := by
  unfold Ledger.next at h
  split at h
  · cases h
  · split at h
    · rename_i found m hout
      obtain ⟨heq, rfl⟩ := Prod.mk.inj h
      obtain rfl := congrArg Prod.fst (Option.some.inj heq)
      refine ⟨admitFirst_eligible hout, ?_⟩
      obtain ⟨m', -, ⟨e', -, hcase⟩ | ⟨hcase, -⟩⟩ := Ledger.admitFirst_cases l l.currentUsage l.entries
      · rw [hout] at hcase
        obtain ⟨heq, rfl⟩ := Prod.mk.inj hcase
        obtain rfl := Option.some.inj heq
        exact List.mem_cons_self
      · rw [hout] at hcase
        cases hcase
    · cases h

theorem next_open (h : l.next = (some (e, reason), l')) : ¬ Closed l e.key := by
  intro hclosed
  rcases next_reason h with rfl | rfl
  · obtain ⟨hstate, hprobed⟩ := next_probe h
    rcases hclosed with hdead | ⟨-, hkeys⟩
    · exact next_alive h hdead
    · exact hprobed (hkeys e (mem_entries_of_next h) rfl hstate)
  · exact (next_eligible h).1 hclosed.spent

end

/-- The rounds so far: each settled entry has one item at most, and the ledger hands none of them out again. -/
structure Running (c : CycleCall) (repos : List String) (base : Nat) (entries : List Entry) (t : Tally) : Prop where
  fits : t.Fits c
  same : t.ledger.entries = entries
  length : t.items.length ≤ base + t.settled.length
  nodup : t.settled.Nodup
  known : ∀ k ∈ t.settled, k ∈ entries.map Entry.key
  requeued : ∀ k ∈ t.ledger.requeued, k ∈ t.ledger.probed
  closed : ∀ k ∈ t.settled, Closed t.ledger k
  repos : ∀ i ∈ t.items, i.repo ∈ repos

/-- What a round makes of its entry: it is put back in line after its probe, or settled with one item. -/
inductive RoundOf (c : CycleCall) (t : Tally) (e : Entry) (reason : Reason) : Tally → Prop
  | requeue (sources : List String) (h : reason = .sourceProbe) :
      RoundOf c t e reason { t with ledger := t.ledger.requeue e, sources }
  | settle (sources : List String) {ledger : Ledger} {item : ResultItem} {counter : Option CountKey}
      (hledger : LedgerChange t.ledger e ledger) (hdead : reason = .sourceProbe → Dead ledger e.key)
      (hrepo : item.repo = e.item.repo) (hfresh : item.deferred = true → item.skippedExisting = false)
      (hcounts : Raises c item counter) : RoundOf c t e reason ({ t with ledger, sources }.settle e item counter)

theorem RoundOf.of_sources {c : CycleCall} {t t' : Tally} {e : Entry} {reason : Reason} {sources : List String}
    (h : RoundOf c { t with sources } e reason t') : RoundOf c t e reason t' := by
  cases h with
  | requeue sources' hreason => exact .requeue sources' hreason
  | settle sources' hledger hdead hrepo hfresh hcounts => exact .settle sources' hledger hdead hrepo hfresh hcounts

section
variable {c : CycleCall} {a : RoundAnswers} {t t' : Tally} {e : Entry} {reason : Reason}

theorem tallyEvidence_ok (h : tallyEvidence c a t e = .ok t') : ∃ sources, t' = { t with sources } := by
  unfold tallyEvidence at h
  split at h
  · exact ⟨t.sources, (Except.ok.inj h).symm⟩
  · split at h
    · split at h
      · exact ⟨t.sources, (Except.ok.inj h).symm⟩
      · cases h
    · split at h
      · cases h
      · dsimp only at h
        split at h
        · exact ⟨_, (Except.ok.inj h).symm⟩
        · cases h

theorem tallyEvidence_error (he : e ∈ t.ledger.entries) (h : tallyEvidence c a t e = .error t') :
    ∃ ledger sources, t' = { t with ledger, sources } ∧ LedgerChange t.ledger e ledger ∧ Dead ledger e.key := by
  unfold tallyEvidence at h
  split at h
  · cases h
  · split at h
    · split at h
      · cases h
      · obtain rfl := Except.error.inj h
        exact ⟨_, _, rfl, .release, dead_release t.ledger e⟩
    · split at h
      · obtain rfl := Except.error.inj h
        exact ⟨_, _, rfl, .blockRepo, dead_blockRepo he⟩
      · dsimp only at h
        split at h
        · cases h
        · obtain rfl := Except.error.inj h
          exact ⟨_, _, rfl, .release, dead_release t.ledger e⟩

theorem tallyPost_round (hlive : c.dryRun = false) (hposts : c.config.postIssueComment = true)
    (hcomment : e.item.action = .wouldComment) (hreason : reason ≠ .sourceProbe) :
    RoundOf c t e reason (tallyPost c a t e) := by
  unfold tallyPost
  dsimp only
  split
  · exact .settle t.sources .release (fun _ => dead_release t.ledger e) rfl (fun _ => rfl) .failed
  · split
    · exact .settle t.sources .release (fun _ => dead_release t.ledger e) rfl (fresh_existing e.item) .alreadyProcessed
    · split
      · exact .settle t.sources .release (fun _ => dead_release t.ledger e) rfl (fun _ => rfl) .failed
      · refine .settle t.sources .same (fun hprobe => absurd hprobe hreason) rfl (fun _ => rfl)
          (.posted hlive hposts ?_)
        simp [ResultItem.wouldComment, ScanItem.result, hcomment, Action.result]

theorem tallyRound_round (he : e ∈ t.ledger.entries) (hplanned : Planned c e.item) :
    RoundOf c t e reason (tallyRound c a t e reason) := by
  unfold tallyRound
  cases hevidence : tallyEvidence c a t e with
  | error failed =>
    obtain ⟨ledger, sources, rfl, hchange, hdead⟩ := tallyEvidence_error he hevidence
    exact .settle sources hchange (fun _ => hdead) rfl (fun _ => rfl) .failed
  | ok found =>
    obtain ⟨sources, rfl⟩ := tallyEvidence_ok hevidence
    dsimp -zeta only
    extract_lets updatedAt analysisInputHash
    apply @RoundOf.of_sources c t _ e reason sources
    split
    · exact .settle sources .release (fun _ => dead_release t.ledger e) rfl (fresh_existing e.item) .alreadyProcessed
    · split
      · rename_i hprobe
        exact .requeue sources hprobe
      · rename_i hreason
        split
        · exact .settle sources .same (fun hprobe => absurd hprobe hreason) rfl (fun _ => rfl) .plain
        · rename_i hdry
          have hlive : c.dryRun = false := by simpa using hdry
          unfold Planned at hplanned
          split
          · rename_i hsilent
            refine .settle sources .same (fun hprobe => absurd hprobe hreason) rfl (fun _ => rfl)
              (.dryRunRecorded hlive ?_ ?_)
            · by_contra hposts
              rw [Bool.not_eq_false] at hposts
              rw [if_pos hposts] at hplanned
              simp [hposts, hplanned] at hsilent
            · unfold ResultItem.wouldEnrich ScanItem.result
              rw [hplanned]
              split
              · rfl
              · rfl
          · rename_i hposting
            have hposts : c.config.postIssueComment = true := by
              by_contra hnot
              apply hposting
              rw [Bool.not_eq_true] at hnot
              rw [hnot]
              rfl
            rw [if_pos hposts] at hplanned
            exact tallyPost_round hlive hposts hplanned hreason

end

theorem eq_of_key {entries : List Entry} (hkeys : (entries.map Entry.key).Nodup) {e e' : Entry} (he : e ∈ entries)
    (he' : e' ∈ entries) (h : e'.key = e.key) : e' = e := List.inj_on_of_nodup_map hkeys he' he h

theorem running_round {c : CycleCall} {repos : List String} {base : Nat} {entries : List Entry} {t : Tally}
    {e : Entry} {reason : Reason} {ledger : Ledger} (hkeys : (entries.map Entry.key).Nodup)
    (hplanned : ∀ e ∈ entries, Planned c e.item) (hrepos : ∀ e ∈ entries, e.item.repo ∈ repos)
    (h : Running c repos base entries t) (hnext : t.ledger.next = (some (e, reason), ledger)) (a : RoundAnswers) :
    Running c repos base entries (tallyRound c a { t with ledger } e reason) := by
  have hentries : ledger.entries = entries := by
    have hsame := (next_frame t.ledger).1
    rw [hnext] at hsame
    exact hsame.trans h.same
  have he : e ∈ entries := h.same ▸ mem_entries_of_next hnext
  have hopen : ¬ Closed t.ledger e.key := next_open hnext
  have hnew : e.key ∉ t.settled := fun hin => hopen (h.closed _ hin)
  have hclosed : ∀ k ∈ t.settled, Closed ledger k := by
    intro k hk
    have hkept := (h.closed k hk).next
    rw [hnext] at hkept
    exact hkept
  obtain ⟨-, hprobed, hrequeued⟩ := next_grows t.ledger
  rw [hnext] at hprobed hrequeued
  have hboth : ∀ k ∈ ledger.requeued, k ∈ ledger.probed := by
    intro k hk
    exact hprobed k (h.requeued k (hrequeued ▸ hk))
  have hround : RoundOf c { t with ledger } e reason (tallyRound c a { t with ledger } e reason) :=
    tallyRound_round (by rw [hentries]; exact he) (hplanned e he)
  generalize tallyRound c a { t with ledger } e reason = t' at hround ⊢
  cases hround with
  | requeue sources hreason =>
    refine ⟨h.fits.of_eq rfl rfl, ?_, h.length, h.nodup, h.known, ?_, fun k hk => (hclosed k hk).requeue e, h.repos⟩
    · exact (Ledger.entries_requeue ledger e).trans hentries
    · -- the probe that puts the entry back in line is on the books
      have hin : e.key ∈ ledger.probed := by
        subst hreason
        rcases t.ledger.next_cases with ⟨e', -, heq⟩ | ⟨m, -, ⟨e', -, heq⟩ | ⟨heq, -⟩⟩
        · rw [hnext] at heq
          obtain ⟨hsome, rfl⟩ := Prod.mk.inj heq
          obtain ⟨rfl, -⟩ := Prod.mk.inj (Option.some.inj hsome)
          exact List.mem_cons_self
        · rw [hnext] at heq
          cases heq
        · rw [hnext] at heq
          cases heq
      change ∀ k ∈ (ledger.requeue e).requeued, k ∈ (ledger.requeue e).probed
      unfold Ledger.requeue
      split
      · exact hboth
      · intro k hk
        rcases List.mem_cons.mp hk with rfl | hk
        · exact hin
        · exact hboth k hk
  | @settle sources ledger' item counter hchange hdead hrepo hfresh hcounts =>
    have hmem : e ∈ ledger.entries := by
      rw [hentries]
      exact he
    have hnoted : Noted c repos 1 { t with ledger := ledger', sources }
        (Tally.note { t with ledger := ledger', sources } item counter) :=
      noted_one hcounts hfresh (hrepo ▸ hrepos e he) le_rfl
    refine ⟨?_, ?_, ?_, ?_, ?_, ?_, ?_, hnoted.repos h.repos⟩
    · exact (hnoted.fits (h.fits.of_eq rfl rfl)).of_eq rfl rfl
    · exact hchange.entries.trans hentries
    · have hlength := hnoted.length
      have hbase := h.length
      change (Tally.note { t with ledger := ledger', sources } item counter).items.length ≤
        base + (t.settled.length + 1)
      change _ ≤ t.items.length + 1 at hlength
      omega
    · exact List.nodup_cons.mpr ⟨hnew, h.nodup⟩
    · intro k hk
      rcases List.mem_cons.mp hk with rfl | hk
      · exact List.mem_map_of_mem he
      · exact h.known k hk
    · change ∀ k ∈ ledger'.requeued, k ∈ ledger'.probed
      cases hchange with
      | same => exact hboth
      | release => exact hboth
      | blockRepo =>
        unfold Ledger.blockRepo
        split
        · exact hboth
        · exact hboth
    · intro k hk
      rcases List.mem_cons.mp hk with rfl | hk
      · rcases next_reason hnext with rfl | rfl
        · exact .inl (hdead rfl)
        · obtain ⟨heligible, hactive⟩ := next_eligible_cases hnext
          have hclosed' : Closed ledger e.key := by
            refine .inr ⟨hactive, ?_⟩
            intro e' he' hkey hstate
            obtain rfl := eq_of_key hkeys he (hentries ▸ he') hkey
            unfold Ledger.eligible at heligible
            rw [hstate] at heligible
            have hin : e'.key ∈ t.ledger.requeued := by simpa using heligible
            exact hprobed _ (h.requeued _ hin)
          exact hclosed'.change hmem hchange
      · exact (hclosed k hk).change hmem hchange

theorem running_end {c : CycleCall} {repos : List String} {base : Nat} {entries : List Entry} {t : Tally}
    {ledger : Ledger} (h : Running c repos base entries t) (hnext : t.ledger.next = (none, ledger)) :
    Running c repos base entries { t with ledger } := by
  have hentries := (next_frame t.ledger).1
  obtain ⟨-, hprobed, hrequeued⟩ := next_grows t.ledger
  rw [hnext] at hentries hprobed hrequeued
  refine ⟨h.fits.of_eq rfl rfl, hentries.trans h.same, h.length, h.nodup, h.known, ?_, ?_, h.repos⟩
  · intro k hk
    exact hprobed k (h.requeued k (hrequeued ▸ hk))
  · intro k hk
    have hkept := (h.closed k hk).next
    rw [hnext] at hkept
    exact hkept

theorem running_rounds {c : CycleCall} {repos : List String} {base : Nat} {entries : List Entry}
    (hkeys : (entries.map Entry.key).Nodup) (hplanned : ∀ e ∈ entries, Planned c e.item)
    (hrepos : ∀ e ∈ entries, e.item.repo ∈ repos) {answers : List RoundAnswers} {t t' : Tally}
    (h : Running c repos base entries t) (hrounds : tallyRounds c answers t = some t') :
    Running c repos base entries t' := by
  induction answers generalizing t with
  | nil =>
    unfold tallyRounds at hrounds
    split at hrounds
    · rename_i ledger hnext
      obtain rfl := Option.some.inj hrounds
      exact running_end h hnext
    · cases hrounds
    · rename_i heq
      cases heq
  | cons a answers ih =>
    unfold tallyRounds at hrounds
    split at hrounds
    · rename_i ledger hnext
      obtain rfl := Option.some.inj hrounds
      exact running_end h hnext
    · rename_i heq
      cases heq
    · rename_i e reason ledger a' rest hnext heq
      obtain ⟨rfl, rfl⟩ := List.cons.inj heq
      exact ih (running_round hkeys hplanned hrepos h hnext a) hrounds

/-! ## A whole cycle -/

theorem length_undecided {entries : List Entry} {settled : List IssueKey} (hnodup : settled.Nodup)
    (hknown : ∀ k ∈ settled, k ∈ entries.map Entry.key) :
    settled.length + (entries.map fun e => if e.key ∉ settled then 1 else 0).sum ≤ entries.length := by
  have hsettled : settled.length ≤ ((entries.map Entry.key).filter fun k => decide (k ∈ settled)).length := by
    apply List.Subperm.length_le
    apply List.subperm_of_subset hnodup
    intro k hk
    exact List.mem_filter.mpr ⟨hknown k hk, decide_eq_true hk⟩
  rw [← List.countP_eq_length_filter, List.countP_map] at hsettled
  have hsplit := @List.length_eq_countP_add_countP _ (fun e : Entry => decide (e.key ∈ settled)) entries
  simp only [decide_eq_true_eq] at hsplit
  rw [sum_ones]
  change settled.length ≤ entries.countP fun e => decide (e.key ∈ settled) at hsettled
  omega

/-- What the loops of a cycle leave. -/
structure Counted (texts : Texts) (c : CycleCall) (w : CycleWorld) (t : Tally) : Prop where
  fits : t.Fits c
  length : t.items.length ≤ ((c.scans texts w).map fun scan => scan.reading.issues.length).sum
  repos : ∀ i ∈ t.items, ∃ scan ∈ c.scans texts w, scan.allowed = true ∧ scan.ok = true ∧ scan.repo = i.repo

theorem scan_of_items {texts : Texts} {c : CycleCall} {w : CycleWorld} {scan : RepoScan} {item : ScanItem}
    (hscan : scan ∈ c.scans texts w) (hitem : item ∈ scan.items texts c.config) :
    scan.allowed = true ∧ scan.ok = true := by
  obtain ⟨repo, -, rfl⟩ := List.mem_map.mp hscan
  unfold CycleCall.scan at hitem ⊢
  split
  · rename_i hnot
    rw [if_pos hnot] at hitem
    cases hitem
  · rename_i hallowed
    rw [if_neg hallowed] at hitem
    split
    · rename_i hlisting
      rw [hlisting] at hitem
      cases hitem
    · exact ⟨rfl, rfl⟩

/-- The repositories whose items are counted. -/
def countedRepos (scans : List RepoScan) : List String :=
  (scans.filter fun scan => scan.allowed && scan.ok).map (·.repo)

theorem mem_countedRepos {scans : List RepoScan} {repo : String} : repo ∈ countedRepos scans ↔
    ∃ scan ∈ scans, scan.allowed = true ∧ scan.ok = true ∧ scan.repo = repo := by
  unfold countedRepos
  simp [List.mem_map, List.mem_filter, and_assoc]

theorem mem_countedRepos_of_items {texts : Texts} {c : CycleCall} {w : CycleWorld} {scan : RepoScan} {item : ScanItem}
    (hscan : scan ∈ c.scans texts w) (hitem : item ∈ scan.items texts c.config) :
    item.repo ∈ countedRepos (c.scans texts w) := by
  obtain ⟨hallowed, hok⟩ := scan_of_items hscan hitem
  exact mem_countedRepos.mpr ⟨scan, hscan, hallowed, hok, (RepoScan.repo_of_items hitem).symm⟩

theorem ledger_of_create {texts : Texts} {config : Config} {repos : List String} {records : Records} {checkedAt : Time}
    {items : List ScanItem} {ledger : Ledger}
    (h : createIssueEnrichmentAdmissionLedger texts config repos records checkedAt items = some ledger) :
    (items.map ScanItem.key).Nodup ∧ ledger.requeued = [] ∧
      ledger.entries = (items.filter fun item => item.action ≠ .skipped).map (admissionEntry records checkedAt) := by
  unfold createIssueEnrichmentAdmissionLedger at h
  dsimp only at h
  split at h
  · cases h
  · rename_i hnodup
    split at h
    · cases h
    · split at h
      · cases h
      · obtain rfl := Option.some.inj h
        exact ⟨not_not.mp hnodup, rfl, rfl⟩

theorem length_scanned (texts : Texts) (config : Config) (scans : List RepoScan) :
    (scans.map fun scan => ((scan.items texts config).map fun item =>
        if (scan.reading.readFailure item).isSome then 1 else 0).sum).sum +
      (scans.flatMap (RepoScan.readable texts config)).length =
    (scans.map fun scan => scan.reading.issues.length).sum := by
  induction scans with
  | nil => rfl
  | cons scan scans ih =>
    have hsplit := @List.length_eq_countP_add_countP _
      (fun item => (scan.reading.readFailure item).isSome) (scan.items texts config)
    have hones := sum_ones (fun item => (scan.reading.readFailure item).isSome = true) (scan.items texts config)
    have hreadable : (scan.readable texts config).length =
        (scan.items texts config).countP fun item => decide ¬(scan.reading.readFailure item).isSome = true := by
      unfold RepoScan.readable
      rw [← List.countP_eq_length_filter]
      apply List.countP_congr
      intro item _
      cases scan.reading.readFailure item <;> simp
    simp only [Bool.decide_eq_true] at hones
    rw [List.map_cons, List.sum_cons, List.flatMap_cons, List.length_append, List.map_cons, List.sum_cons,
      ← length_items texts config scan, hones, hreadable]
    omega

theorem tallyCycle_counted {texts : Texts} {c : CycleCall} {w : CycleWorld} {t : Tally}
    (h : tallyCycle texts c w = some t) : Counted texts c w t := by
  unfold tallyCycle at h
  obtain ⟨ledger, hledger, h⟩ := Option.bind_eq_some_iff.mp h
  obtain ⟨settled, hrounds, h⟩ := Option.bind_eq_some_iff.mp h
  obtain rfl := Option.some.inj h
  obtain ⟨hkeys, hrequeued, hentries⟩ := ledger_of_create hledger
  have hrepo : ∀ item ∈ (c.scans texts w).flatMap (RepoScan.readable texts c.config),
      item.repo ∈ countedRepos (c.scans texts w) := by
    intro item hitem
    obtain ⟨scan, hscan, hreadable⟩ := List.mem_flatMap.mp hitem
    exact mem_countedRepos_of_items hscan (List.mem_of_mem_filter hreadable)
  have hentry : ∀ e ∈ ledger.entries, Planned c e.item ∧ e.item.repo ∈ countedRepos (c.scans texts w) := by
    intro e he
    rw [hentries] at he
    obtain ⟨item, hitem, rfl⟩ := List.mem_map.mp he
    obtain ⟨hitem, haction⟩ := List.mem_filter.mp hitem
    refine ⟨?_, hrepo item hitem⟩
    obtain ⟨scan, hscan, hreadable⟩ := List.mem_flatMap.mp hitem
    have hplanned : Planned c item :=
      planned_of_items (List.mem_of_mem_filter hreadable) (of_decide_eq_true haction)
    exact hplanned
  have hreads := @foldl_noted c (countedRepos (c.scans texts w)) { ledger } RepoScan
    (RepoScan.tallyReadFailures texts c.config) _ (c.scans texts w) fun t' _ scan hscan =>
      foldl_noted (scan.items texts c.config) fun t'' _ item hitem =>
        noted_readFailure scan t'' (mem_countedRepos_of_items hscan hitem)
  have hskips := @foldl_noted c (countedRepos (c.scans texts w))
    ((c.scans texts w).foldl (RepoScan.tallyReadFailures texts c.config) { ledger }) ScanItem (tallySkipped c) _
    ((c.scans texts w).flatMap (RepoScan.readable texts c.config)) fun t'' _ item hitem =>
      noted_skipped t'' (hrepo item hitem)
  have hbefore := hreads.trans hskips
  have hempty : Tally.Fits c { ledger } := by
    refine ⟨?_, ?_, ?_, ?_, ?_, ?_, ?_, ?_, ?_⟩
    all_goals simp
  generalize ((c.scans texts w).flatMap (RepoScan.readable texts c.config)).foldl (tallySkipped c)
    ((c.scans texts w).foldl (RepoScan.tallyReadFailures texts c.config) { ledger }) = before at hrounds hbefore
  have hsettled : before.settled = [] := hbefore.settled
  have hlength := hbefore.length
  have hrunning : Running c (countedRepos (c.scans texts w)) before.items.length ledger.entries before := by
    refine ⟨hbefore.fits hempty, congrArg Ledger.entries hbefore.ledger, by omega, ?_, ?_, ?_, ?_, ?_⟩
    · rw [hsettled]
      exact List.nodup_nil
    · rw [hsettled]
      nofun
    · rw [hbefore.ledger]
      change ∀ k ∈ ledger.requeued, k ∈ ledger.probed
      rw [hrequeued]
      nofun
    · rw [hsettled]
      nofun
    · exact hbefore.repos nofun
  have hentryKeys : (ledger.entries.map Entry.key).Nodup := by
    rw [hentries, List.map_map]
    exact hkeys.sublist (List.filter_sublist.map ScanItem.key)
  have hafter := running_rounds hentryKeys (fun e he => (hentry e he).1) (fun e he => (hentry e he).2) hrunning hrounds
  have hsnapshot : settled.ledger.snapshot.map (·.1) = ledger.entries :=
    (map_fst_snapshotFrom _ _ _).trans hafter.same
  have hdecided := @foldl_noted c (countedRepos (c.scans texts w)) settled (Entry × Reason) (tallyDecision c)
    (fun d => if d.1.key ∉ settled.settled then 1 else 0) settled.ledger.snapshot fun t' ht' d hd => by
      rw [← ht']
      apply noted_decision
      refine (hentry d.1 ?_).2
      rw [← hsnapshot]
      exact List.mem_map_of_mem hd
  have hones : (settled.ledger.snapshot.map fun d => if d.1.key ∉ settled.settled then 1 else 0).sum =
      (ledger.entries.map fun e => if e.key ∉ settled.settled then 1 else 0).sum := by
    rw [← hsnapshot, List.map_map]
    rfl
  refine ⟨hdecided.fits hafter.fits, ?_, ?_⟩
  · have hscanned := length_scanned texts c.config (c.scans texts w)
    have hundecided := length_undecided hafter.nodup hafter.known
    have hactions := @List.length_eq_countP_add_countP _ (fun item : ScanItem => decide (item.action = .skipped))
      ((c.scans texts w).flatMap (RepoScan.readable texts c.config))
    have hentriesLength : ledger.entries.length =
        ((c.scans texts w).flatMap (RepoScan.readable texts c.config)).countP fun item =>
          decide ¬item.action = .skipped := by
      rw [hentries, List.length_map, List.countP_eq_length_filter]
    have hskipped := sum_ones (fun item : ScanItem => item.action = .skipped)
      ((c.scans texts w).flatMap (RepoScan.readable texts c.config))
    have hend := hdecided.length
    have hmiddle := hafter.length
    simp only [decide_eq_true_eq] at hactions
    change before.items.length ≤ 0 + _ at hlength
    rw [hones] at hend
    omega
  · exact fun i hi => mem_countedRepos.mp (hdecided.repos hafter.repos i hi)

/-! ## The summary -/

structure Balanced (c : CycleCall) (s : Summary) : Prop where
  relations : ∀ r ∈ relations, s r.1 ≤ s r.2
  total : s .skipped + s .eligible ≤ s .issuesSeen
  workerSkipped : s .workerSkipped = 0
  dryRun : c.dryRun = true → ∀ key ∈ dryRunForbidden, s key = 0
  posts : c.config.postIssueComment = true → s .dryRunRecorded = 0
  silent : c.config.postIssueComment = false → s .posted = 0

section
variable {texts : Texts} {c : CycleCall} {w : CycleWorld} {t : Tally}

theorem sum_append (xs ys : List RepoCounts) (count : RepoCounts → Nat) :
    sum (xs ++ ys) count = sum xs count + sum ys count := by
  unfold sum
  rw [List.map_append, List.sum_append]

theorem sum_baseline (texts : Texts) (c : CycleCall) (w : CycleWorld) (count : RepoCounts → Nat)
    (h : ∀ repo, count { repo, baselined := true } = 0) : sum (c.baselineRepos texts w) count = 0 := by
  unfold sum CycleCall.baselineRepos
  generalize (c.candidateRepos texts).filter (fun repo => !c.scansRepo texts w repo) = repos
  induction repos with
  | nil => rfl
  | cons repo repos ih => rw [List.map_cons, List.map_cons, List.sum_cons, h, ih]

theorem nodup_reposToScan (texts : Texts) (c : CycleCall) (w : CycleWorld) : (c.reposToScan texts w).Nodup := by
  apply List.Nodup.filter
  unfold CycleCall.candidateRepos
  split
  · exact nodup_eraseDups _
  · exact nodup_eraseDups _

theorem scan_repo (texts : Texts) (c : CycleCall) (w : CycleWorld) (repo : String) :
    (c.scan texts w repo).repo = repo := by
  unfold CycleCall.scan
  split
  · rfl
  · split <;> rfl

theorem nodup_countedRepos (texts : Texts) (c : CycleCall) (w : CycleWorld) :
    (countedRepos (c.scans texts w)).Nodup := by
  unfold countedRepos
  have hsub : (((c.scans texts w).filter fun scan => scan.allowed && scan.ok).map (·.repo)).Sublist
      ((c.scans texts w).map (·.repo)) := List.filter_sublist.map _
  apply List.Nodup.sublist hsub
  unfold CycleCall.scans
  rw [List.map_map]
  have hid : (RepoScan.repo ∘ c.scan texts w) = id := by
    funext repo
    exact scan_repo texts c w repo
  change ((c.reposToScan texts w).map (RepoScan.repo ∘ c.scan texts w)).Nodup
  rw [hid, List.map_id]
  exact nodup_reposToScan texts c w

theorem sum_counts (h : Counted texts c w t) (count : RepoCounts → Nat) (p : ResultItem → Bool)
    (hbase : ∀ repo, count { repo, baselined := true } = 0)
    (hcount : ∀ scan : RepoScan, count (scan.counts t.items) =
      if scan.allowed && scan.ok then t.items.countP fun i => decide (i.repo = scan.repo) && p i else 0) :
    sum (c.baselineRepos texts w ++ (c.scans texts w).map (RepoScan.counts t.items)) count = t.items.countP p := by
  rw [sum_append, sum_baseline texts c w count hbase, Nat.zero_add]
  have hall : sum ((c.scans texts w).map (RepoScan.counts t.items)) count =
      ((countedRepos (c.scans texts w)).map fun repo =>
        t.items.countP fun i => decide (i.repo = repo) && p i).sum := by
    unfold sum countedRepos
    generalize c.scans texts w = scans
    induction scans with
    | nil => rfl
    | cons scan scans ih =>
      rw [List.map_cons, List.map_cons, List.sum_cons, ih, hcount]
      rw [List.filter_cons]
      split
      · rw [List.map_cons, List.map_cons, List.sum_cons]
      · rw [Nat.zero_add]
  rw [hall]
  apply sum_countP ResultItem.repo p (nodup_countedRepos texts c w)
  intro i hi _
  exact mem_countedRepos.mpr (h.repos i hi)

theorem counts_field (scan : RepoScan) (items : List ResultItem) (p : ResultItem → Bool) :
    ((items.filter fun i => decide (i.repo = scan.repo)).filter p).length =
      items.countP fun i => decide (i.repo = scan.repo) && p i := by
  rw [List.filter_filter, List.countP_eq_length_filter]
  congr 2
  funext i
  rw [Bool.and_comm]

theorem counts_of (scan : RepoScan) (items : List ResultItem) :
    scan.counts items = if scan.allowed && scan.ok then
      { repo := scan.repo, ok := scan.ok, allowed := scan.allowed, truncated := scan.truncated
        issuesSeen := scan.reading.issues.length
        eligible := items.countP fun i => decide (i.repo = scan.repo) && i.eligible
        skipped := items.countP fun i => decide (i.repo = scan.repo) && i.skipped
        wouldEnrich := items.countP fun i => decide (i.repo = scan.repo) && i.wouldEnrich
        wouldComment := items.countP fun i => decide (i.repo = scan.repo) && i.wouldComment
        deferred := items.countP fun i => decide (i.repo = scan.repo) && i.deferred }
    else
      { repo := scan.repo, ok := scan.ok, allowed := scan.allowed, truncated := scan.truncated
        issuesSeen := scan.reading.issues.length } := by
  unfold RepoScan.counts
  dsimp only
  cases scan.allowed with
  | false => rfl
  | true =>
    cases scan.ok with
    | false => rfl
    | true => simp only [counts_field, Bool.not_true, Bool.or_self, Bool.false_eq_true, if_false, Bool.and_self, if_true]

theorem summary_items (h : Counted texts c w t) :
    (scannedResult texts c w t).summary .eligible = t.items.countP ResultItem.eligible ∧
    (scannedResult texts c w t).summary .skipped = t.items.countP ResultItem.skipped ∧
    (scannedResult texts c w t).summary .wouldEnrich = t.items.countP ResultItem.wouldEnrich ∧
    (scannedResult texts c w t).summary .wouldComment = t.items.countP ResultItem.wouldComment ∧
    (scannedResult texts c w t).summary .deferred = t.items.countP ResultItem.deferred := by
  refine ⟨sum_counts h (·.eligible) _ (fun _ => rfl) ?_, sum_counts h (·.skipped) _ (fun _ => rfl) ?_,
    sum_counts h (·.wouldEnrich) _ (fun _ => rfl) ?_, sum_counts h (·.wouldComment) _ (fun _ => rfl) ?_,
    sum_counts h (·.deferred) _ (fun _ => rfl) ?_⟩
  all_goals
    intro scan
    rw [counts_of]
    split
    · rfl
    · rfl

theorem summary_issuesSeen (texts : Texts) (c : CycleCall) (w : CycleWorld) (t : Tally) :
    (scannedResult texts c w t).summary .issuesSeen =
      ((c.scans texts w).map fun scan => scan.reading.issues.length).sum := by
  change sum _ (·.issuesSeen) = _
  rw [sum_append, sum_baseline texts c w (·.issuesSeen) fun _ => rfl, Nat.zero_add]
  unfold sum
  rw [List.map_map]
  congr 1
  apply List.map_congr_left
  intro scan _
  rw [Function.comp_apply, counts_of]
  split
  · rfl
  · rfl

theorem scanned_of_scan {scan : RepoScan} (hscan : scan ∈ c.scans texts w)
    (h : scan.ok = false ∨ scan.truncated = true) : scan.allowed = true := by
  obtain ⟨repo, -, rfl⟩ := List.mem_map.mp hscan
  unfold CycleCall.scan at h ⊢
  split
  · rename_i hnot
    rw [if_pos hnot] at h
    simp at h
  · split <;> rfl

theorem countP_counts (scans : List RepoScan) (items : List ResultItem) (p : RepoCounts → Bool) :
    ((scans.map (RepoScan.counts items)).filter p).length = scans.countP fun scan => p (scan.counts items) := by
  rw [← List.countP_eq_length_filter, List.countP_map]
  rfl

theorem count_le_scanned (p : RepoCounts → Bool)
    (hbase : ∀ repo, p { repo, baselined := true } = false)
    (h : ∀ scan ∈ c.scans texts w, p (scan.counts t.items) = true → scan.allowed = true) :
    ((c.baselineRepos texts w ++ (c.scans texts w).map (RepoScan.counts t.items)).filter p).length ≤
      ((c.baselineRepos texts w ++ (c.scans texts w).map (RepoScan.counts t.items)).filter fun r =>
        r.allowed && !r.baselined).length := by
  have hnone : (c.baselineRepos texts w).filter p = [] := by
    rw [List.filter_eq_nil_iff]
    intro r hr
    obtain ⟨repo, -, rfl⟩ := List.mem_map.mp hr
    simp [hbase]
  rw [List.filter_append, List.filter_append, hnone, List.nil_append, List.length_append, countP_counts, countP_counts]
  have hle : (c.scans texts w).countP (fun scan => p (scan.counts t.items)) ≤
      (c.scans texts w).countP fun scan => (scan.counts t.items).allowed && !(scan.counts t.items).baselined := by
    apply List.countP_mono_left
    intro scan hscan hp
    have hallowed := h scan hscan hp
    rw [counts_of]
    split
    · simp [hallowed]
    · simp [hallowed]
  omega

theorem summary_repos (texts : Texts) (c : CycleCall) (w : CycleWorld) (t : Tally) :
    (scannedResult texts c w t).summary .readFailures ≤ (scannedResult texts c w t).summary .reposScanned ∧
    (scannedResult texts c w t).summary .truncatedRepos ≤ (scannedResult texts c w t).summary .reposScanned := by
  constructor
  · refine count_le_scanned (fun r => !r.ok) (fun _ => rfl) ?_
    intro scan hscan hfailed
    apply scanned_of_scan hscan
    rw [counts_of] at hfailed
    left
    split at hfailed
    · simpa using hfailed
    · simpa using hfailed
  · refine count_le_scanned (·.truncated) (fun _ => rfl) ?_
    intro scan hscan htruncated
    apply scanned_of_scan hscan
    rw [counts_of] at htruncated
    right
    split at htruncated
    · exact htruncated
    · exact htruncated

theorem summary_readFailures (texts : Texts) (c : CycleCall) (w : CycleWorld) (t : Tally) :
    (scannedResult texts c w t).summary .readFailures = 0 ↔ (c.scans texts w).all (·.ok) = true := by
  change ((c.baselineRepos texts w ++ (c.scans texts w).map (RepoScan.counts t.items)).filter fun r => !r.ok).length = 0 ↔ _
  rw [List.length_eq_zero_iff, List.filter_eq_nil_iff, List.all_eq_true]
  constructor
  · intro h scan hscan
    have hok := h _ (List.mem_append_right _ (List.mem_map_of_mem hscan))
    rw [counts_of] at hok
    split at hok
    · simpa using hok
    · simpa using hok
  · intro h r hr
    rcases List.mem_append.mp hr with hr | hr
    · obtain ⟨repo, -, rfl⟩ := List.mem_map.mp hr
      simp
    · obtain ⟨scan, hscan, rfl⟩ := List.mem_map.mp hr
      rw [counts_of]
      split
      · simp [h scan hscan]
      · simp [h scan hscan]

theorem balanced_scanned (h : Counted texts c w t) : Balanced c (scannedResult texts c w t).summary := by
  obtain ⟨heligible, hskipped, hwouldEnrich, hwouldComment, hdeferred⟩ := summary_items h
  have hseen := summary_issuesSeen texts c w t
  obtain ⟨hread, htruncated⟩ := summary_repos texts c w t
  have hlength := h.length
  have hfits := h.fits
  have hdisjoint : t.items.countP ResultItem.skipped + t.items.countP ResultItem.eligible ≤ t.items.length := by
    have hsplit := @List.length_eq_countP_add_countP _ ResultItem.skipped t.items
    have hle : t.items.countP ResultItem.eligible ≤ t.items.countP fun i => decide ¬i.skipped = true := by
      apply List.countP_mono_left
      intro i _ hi
      unfold ResultItem.eligible at hi
      unfold ResultItem.skipped
      simpa using (Bool.and_eq_true_iff.mp hi).1
    omega
  have henrich : t.items.countP ResultItem.wouldEnrich ≤ t.items.countP ResultItem.eligible := by
    apply List.countP_mono_left
    rintro ⟨repo, action, existing⟩ _ hi
    revert hi
    cases action <;> cases existing <;> simp [ResultItem.wouldEnrich, ResultItem.eligible]
  have hcomment : t.items.countP ResultItem.wouldComment ≤ t.items.countP ResultItem.wouldEnrich := by
    apply List.countP_mono_left
    rintro ⟨repo, action, existing⟩ _ hi
    revert hi
    cases action <;> cases existing <;> simp [ResultItem.wouldEnrich, ResultItem.wouldComment]
  have hdeferral : t.items.countP ResultItem.deferred ≤ t.items.countP ResultItem.eligible := by
    apply List.countP_mono_left
    intro i hi hdeferred
    have hfresh := hfits.fresh i hi hdeferred
    have haction : i.action = .deferred := by simpa [ResultItem.deferred] using hdeferred
    simp [ResultItem.eligible, hfresh, haction]
  have hposted : (scannedResult texts c w t).summary .posted ≤ t.items.countP ResultItem.wouldComment := hfits.posted
  have hdry : (scannedResult texts c w t).summary .dryRunRecorded ≤ t.items.countP ResultItem.wouldEnrich :=
    hfits.dryRunRecorded
  have hskip : (scannedResult texts c w t).summary .skippedRecorded ≤ t.items.countP ResultItem.skipped :=
    hfits.skippedRecorded
  have hdefer : (scannedResult texts c w t).summary .deferredRecorded ≤ t.items.countP ResultItem.deferred :=
    hfits.deferredRecorded
  have hsettled : (scannedResult texts c w t).summary .alreadyProcessed + (scannedResult texts c w t).summary .failed ≤
      t.items.length := hfits.settled
  refine ⟨?_, ?_, rfl, ?_, hfits.posts, hfits.silent⟩
  · unfold relations
    simp only [List.forall_mem_cons]
    refine ⟨hread, htruncated, ?_, ?_, ?_, ?_, ?_, ?_, ?_, ?_, ?_, nofun⟩
    all_goals omega
  · omega
  · intro hdry
    obtain ⟨hposted, hdryRun, hskipped, hdeferred⟩ := hfits.dryRun hdry
    unfold dryRunForbidden
    simp only [List.forall_mem_cons]
    exact ⟨rfl, hposted, hdryRun, hskipped, hdeferred, nofun⟩

end

end NeonDiff.Enrichment
