import NeonDiff.Enrichment.Model

/-! # Every issue of a cycle is accounted for

The ledger hands out or puts off each of its entries, so the result of a finished cycle names every issue that its
scans listed.
-/

open NeonDiff.Lib

namespace NeonDiff.Enrichment

/-! ## The ledger -/

namespace Ledger

/-- A reason that the final loop writes out for an entry it puts off or skips. -/
def Reported (r : Reason) : Prop := r ≠ .released ∧ r ≠ .eligible ∧ r ≠ .alreadyRecorded

theorem capReason_reported {l : Ledger} {u : Usage} {e : Entry} {r : Reason} (h : l.capReason u e = some r) :
    Reported r := by
  unfold capReason at h
  dsimp only at h
  split_ifs at h <;> obtain rfl := Option.some.inj h <;> exact ⟨nofun, nofun, nofun⟩

theorem capReason_of_blocked {l : Ledger} {u : Usage} {e : Entry} (h : e.item.repo ∈ l.blocked) :
    (l.capReason u e).isSome = true := by
  unfold capReason
  dsimp only
  split
  · rfl
  · rw [if_pos (by simpa using h)]
    rfl

def PutsOff (l : Ledger) : Prop := ∀ p ∈ l.deferred, Reported p.2

theorem storedReason_isSome {l : Ledger} {key : IssueKey} :
    (l.storedReason key).isSome = true ↔ ∃ p ∈ l.deferred, p.1 = key := by
  unfold storedReason
  simp [List.find?_isSome]

theorem storedReason_reported {l : Ledger} {key : IssueKey} {r : Reason} (hl : l.PutsOff)
    (h : l.storedReason key = some r) : Reported r := by
  unfold storedReason at h
  obtain ⟨p, hp, rfl⟩ := Option.map_eq_some_iff.mp h
  exact hl p (List.mem_of_find?_eq_some hp)

/-- A pass over the entries puts some of them off and changes nothing else. -/
structure PutOff (l l' : Ledger) : Prop where
  entries : l'.entries = l.entries
  active : l'.active = l.active
  released : l'.released = l.released
  blocked : l'.blocked = l.blocked
  probed : l'.probed = l.probed
  requeued : l'.requeued = l.requeued
  deferred : ∀ p ∈ l.deferred, p ∈ l'.deferred
  reasons : l.PutsOff → l'.PutsOff

theorem PutOff.refl (l : Ledger) : l.PutOff l := ⟨rfl, rfl, rfl, rfl, rfl, rfl, fun _ hp => hp, id⟩

theorem PutOff.trans {l l' l'' : Ledger} (h : l.PutOff l') (h' : l'.PutOff l'') : l.PutOff l'' where
  entries := h'.entries.trans h.entries
  active := h'.active.trans h.active
  released := h'.released.trans h.released
  blocked := h'.blocked.trans h.blocked
  probed := h'.probed.trans h.probed
  requeued := h'.requeued.trans h.requeued
  deferred := fun p hp => h'.deferred p (h.deferred p hp)
  reasons := fun hl => h'.reasons (h.reasons hl)

theorem putOff_one {l : Ledger} {u : Usage} {e : Entry} {r : Reason} (issueOnly : List IssueKey)
    (h : l.capReason u e = some r) : l.PutOff { l with deferred := (e.key, r) :: l.deferred, issueOnly } where
  entries := rfl
  active := rfl
  released := rfl
  blocked := rfl
  probed := rfl
  requeued := rfl
  deferred := fun _ hp => List.mem_cons_of_mem _ hp
  reasons := by
    intro hl p hp
    rcases List.mem_cons.mp hp with rfl | hp
    · exact capReason_reported h
    · exact hl p hp

/-- The entry waits for nothing: it is out, released or put off. -/
def Placed (l : Ledger) (e : Entry) : Prop :=
  e.key ∈ l.active ∨ e.key ∈ l.released ∨ ∃ p ∈ l.deferred, p.1 = e.key

theorem PutOff.placed {l l' : Ledger} {e : Entry} (h : l.PutOff l') (he : l.Placed e) : l'.Placed e := by
  unfold Placed
  rw [h.active, h.released]
  rcases he with he | he | ⟨p, hp, hkey⟩
  · exact Or.inl he
  · exact Or.inr (Or.inl he)
  · exact Or.inr (Or.inr ⟨p, h.deferred p hp, hkey⟩)

theorem PutOff.eligible {l l' : Ledger} {e : Entry} (h : l.PutOff l') : l'.eligible e = l.eligible e := by
  unfold Ledger.eligible
  rw [h.requeued]

theorem admitFirst_cases (l : Ledger) (u : Usage) (es : List Entry) :
    ∃ l', l.PutOff l' ∧
      ((∃ e ∈ es, l.admitFirst u es = (some e, { l' with active := e.key :: l'.active })) ∨
        (l.admitFirst u es = (none, l') ∧ ∀ e ∈ es, l.eligible e = true → l'.Placed e)) := by
  induction es generalizing l u with
  | nil =>
    refine ⟨l, PutOff.refl l, Or.inr ⟨?_, ?_⟩⟩
    · unfold admitFirst
      rfl
    · intro e he
      simp at he
  | cons e es ih =>
    -- the ledger `m` that the pass goes on with has placed `e`, if it was eligible
    have hgo : ∀ (m : Ledger) (u' : Usage), l.PutOff m → (l.eligible e = true → m.Placed e) →
        ∃ l', l.PutOff l' ∧
          ((∃ e' ∈ e :: es, m.admitFirst u' es = (some e', { l' with active := e'.key :: l'.active })) ∨
            (m.admitFirst u' es = (none, l') ∧ ∀ e' ∈ e :: es, l.eligible e' = true → l'.Placed e')) := by
      intro m u' hm hplaced
      obtain ⟨l', hl', hcases⟩ := ih m u'
      refine ⟨l', hm.trans hl', ?_⟩
      rcases hcases with ⟨e', he', heq⟩ | ⟨heq, hall⟩
      · exact Or.inl ⟨e', List.mem_cons_of_mem e he', heq⟩
      · refine Or.inr ⟨heq, ?_⟩
        intro e' he' helig
        rcases List.mem_cons.mp he' with rfl | he'
        · exact hl'.placed (hplaced helig)
        · exact hall e' he' (hm.eligible.trans helig)
    unfold admitFirst
    split
    · rename_i hpassed
      apply hgo l u (PutOff.refl l)
      intro helig
      simp only [helig, Bool.not_true, Bool.false_or, Bool.or_eq_true, List.contains_iff_mem,
        storedReason_isSome, or_assoc] at hpassed
      exact hpassed
    · cases hcap : l.capReason u e with
      | none => exact ⟨l, PutOff.refl l, Or.inl ⟨e, List.mem_cons_self, rfl⟩⟩
      | some reason =>
        have hstored : ∀ issueOnly : List IssueKey,
            ({ l with deferred := (e.key, reason) :: l.deferred, issueOnly } : Ledger).Placed e :=
          fun issueOnly => Or.inr (Or.inr ⟨_, List.mem_cons_self, rfl⟩)
        dsimp only
        split
        · exact hgo _ _ (putOff_one _ hcap) fun _ => hstored _
        · exact hgo _ _ (putOff_one l.issueOnly hcap) fun _ => hstored _

/-- Nothing is left to hand out. -/
structure Exhausted (l : Ledger) : Prop where
  probed : ∀ e ∈ l.entries, e.state = .sourceDependent →
    e.key ∈ l.probed ∨ e.key ∈ l.released ∨ e.item.repo ∈ l.blocked
  placed : ∀ e ∈ l.entries, l.eligible e = true → l.Placed e

theorem next_cases (l : Ledger) :
    (∃ e ∈ l.entries, l.next = (some (e, .sourceProbe), { l with probed := e.key :: l.probed })) ∨
    ∃ l', l.PutOff l' ∧
      ((∃ e ∈ l.entries, l.next = (some (e, .eligible), { l' with active := e.key :: l'.active })) ∨
        (l.next = (none, l') ∧ l'.Exhausted)) := by
  unfold next
  cases hprobe : l.entries.find? l.wantsProbe with
  | some e => exact Or.inl ⟨e, List.mem_of_find?_eq_some hprobe, rfl⟩
  | none =>
    obtain ⟨l', hl', hcases⟩ := admitFirst_cases l l.currentUsage l.entries
    refine Or.inr ⟨l', hl', ?_⟩
    rcases hcases with ⟨e, he, heq⟩ | ⟨heq, hall⟩
    · refine Or.inl ⟨e, he, ?_⟩
      simp only [heq]
    · refine Or.inr ⟨by simp only [heq], ?_, ?_⟩
      · rw [hl'.entries, hl'.probed, hl'.released, hl'.blocked]
        intro e he hstate
        have hnot := List.find?_eq_none.mp hprobe e he
        unfold wantsProbe at hnot
        by_contra hneg
        push Not at hneg
        apply hnot
        simp [hstate, hneg]
      · rw [hl'.entries]
        intro e he helig
        exact hall e he (hl'.eligible.symm.trans helig)

/-! ## The final decisions -/

/-- What the final loop may say of an entry. -/
inductive Decision (l : Ledger) (e : Entry) : Reason → Prop
  | held : Decision l e .held
  | alreadyRecorded (h : e.state = .alreadyRecorded) : Decision l e .alreadyRecorded
  | released (h : e.key ∈ l.released) : Decision l e .released
  | active (h : e.key ∈ l.active) : Decision l e .eligible
  | reported {r : Reason} (h : Reported r) : Decision l e r
  | unplaced (hheld : e.state ≠ .held) (hrecorded : e.state ≠ .alreadyRecorded) (hplaced : ¬l.Placed e)
      (hblocked : e.item.repo ∉ l.blocked) : Decision l e .eligible

theorem snapshotFrom_cons {l : Ledger} (hl : l.PutsOff) (u : Usage) (e : Entry) (es : List Entry) :
    ∃ r u', l.snapshotFrom u (e :: es) = (e, r) :: l.snapshotFrom u' es ∧ l.Decision e r := by
  rw [snapshotFrom]
  split
  · exact ⟨_, _, rfl, .held⟩
  · rename_i hheld
    split
    · rename_i h
      exact ⟨_, _, rfl, .alreadyRecorded h⟩
    · rename_i hrecorded
      split
      · rename_i h
        exact ⟨_, _, rfl, .released (List.contains_iff_mem.mp h)⟩
      · rename_i hreleased
        split
        · rename_i h
          exact ⟨_, _, rfl, .active (List.contains_iff_mem.mp h)⟩
        · rename_i hactive
          cases hstored : l.storedReason e.key with
          | some r => exact ⟨_, _, rfl, .reported (storedReason_reported hl hstored)⟩
          | none =>
            cases hcap : l.capReason u e with
            | some r => exact ⟨_, _, rfl, .reported (capReason_reported hcap)⟩
            | none =>
              refine ⟨_, _, rfl, .unplaced hheld hrecorded ?_ ?_⟩
              · unfold Placed
                rw [← storedReason_isSome, hstored]
                simpa using And.intro hactive hreleased
              · intro hblocked
                have hsome := capReason_of_blocked (u := u) hblocked
                rw [hcap] at hsome
                cases hsome

theorem mem_snapshotFrom {l : Ledger} (hl : l.PutsOff) (u : Usage) {es : List Entry} {e : Entry} (he : e ∈ es) :
    ∃ r, (e, r) ∈ l.snapshotFrom u es ∧ l.Decision e r := by
  induction es generalizing u with
  | nil => simp at he
  | cons e' es ih =>
    obtain ⟨r, u', heq, hdecision⟩ := snapshotFrom_cons hl u e' es
    rw [heq]
    rcases List.mem_cons.mp he with rfl | he
    · exact ⟨r, List.mem_cons_self, hdecision⟩
    · obtain ⟨r', hmem, hdecision'⟩ := ih u' he
      exact ⟨r', List.mem_cons_of_mem _ hmem, hdecision'⟩

theorem mem_snapshotFrom_entry {l : Ledger} (u : Usage) {es : List Entry} {d : Entry × Reason}
    (hl : l.PutsOff) (hd : d ∈ l.snapshotFrom u es) : d.1 ∈ es ∧ l.Decision d.1 d.2 := by
  induction es generalizing u with
  | nil =>
    unfold snapshotFrom at hd
    simp at hd
  | cons e es ih =>
    obtain ⟨r, u', heq, hdecision⟩ := snapshotFrom_cons hl u e es
    rw [heq] at hd
    rcases List.mem_cons.mp hd with rfl | hd
    · exact ⟨List.mem_cons_self, hdecision⟩
    · exact ⟨List.mem_cons_of_mem e (ih u' hd).1, (ih u' hd).2⟩

/-! ## What holds while the cycle settles -/

structure Sound (l : Ledger) (settled : List IssueKey) : Prop where
  keys : (l.entries.map Entry.key).Nodup
  active : ∀ k ∈ l.active, k ∈ settled
  released : ∀ k ∈ l.released, k ∈ settled
  probed : ∀ k ∈ l.probed, k ∈ settled ∨ k ∈ l.requeued
  reasons : l.PutsOff

/-- When nothing is left to hand out, what no round settled is decided at the end. -/
theorem Sound.decided {l : Ledger} {settled : List IssueKey} (h : l.Sound settled) (hx : l.Exhausted) {e : Entry}
    (he : e ∈ l.entries) (hnot : e.key ∉ settled) :
    ∃ r, (e, r) ∈ l.snapshot ∧ r ≠ .released ∧ r ≠ .eligible := by
  have hplaced : l.Placed e → ∃ p ∈ l.deferred, p.1 = e.key := by
    rintro (hactive | hreleased | hput)
    · exact absurd (h.active _ hactive) hnot
    · exact absurd (h.released _ hreleased) hnot
    · exact hput
  obtain ⟨r, hmem, hdecision⟩ := mem_snapshotFrom h.reasons l.currentUsage he
  refine ⟨r, hmem, ?_⟩
  cases hdecision with
  | held => exact ⟨nofun, nofun⟩
  | alreadyRecorded => exact ⟨nofun, nofun⟩
  | released hreleased => exact absurd (h.released _ hreleased) hnot
  | active hactive => exact absurd (h.active _ hactive) hnot
  | reported hr => exact ⟨hr.1, hr.2.1⟩
  | unplaced hheld hrecorded hunplaced hblocked =>
    exfalso
    apply hunplaced
    cases hstate : e.state with
    | held => exact absurd hstate hheld
    | alreadyRecorded => exact absurd hstate hrecorded
    | pending => exact hx.placed e he (by unfold eligible; simp [hstate])
    | sourceDependent =>
      -- probed and not settled: the probe put the entry back in line
      rcases hx.probed e he hstate with hprobed | hreleased | hb
      · rcases h.probed _ hprobed with hsettled | hrequeued
        · exact absurd hsettled hnot
        · exact hx.placed e he (by unfold eligible; simp [hrequeued])
      · exact absurd (h.released _ hreleased) hnot
      · exact absurd hb hblocked

@[simp] theorem entries_requeue (l : Ledger) (e : Entry) : (l.requeue e).entries = l.entries := by
  unfold requeue
  split <;> rfl

@[simp] theorem entries_blockRepo (l : Ledger) (repo : String) : (l.blockRepo repo).entries = l.entries := by
  unfold blockRepo
  split <;> rfl

theorem PutOff.sound {l l' : Ledger} {settled : List IssueKey} (h : l.PutOff l') (hl : l.Sound settled) :
    l'.Sound settled where
  keys := h.entries ▸ hl.keys
  active := h.active ▸ hl.active
  released := h.released ▸ hl.released
  probed := by
    rw [h.probed, h.requeued]
    exact hl.probed
  reasons := h.reasons hl.reasons

variable {l : Ledger} {settled : List IssueKey}

theorem Sound.mono (h : l.Sound settled) (key : IssueKey) : l.Sound (key :: settled) where
  keys := h.keys
  active := fun k hk => List.mem_cons_of_mem key (h.active k hk)
  released := fun k hk => List.mem_cons_of_mem key (h.released k hk)
  probed := fun k hk => (h.probed k hk).imp_left (List.mem_cons_of_mem key)
  reasons := h.reasons

theorem Sound.probe (h : l.Sound settled) (e : Entry) :
    Ledger.Sound { l with probed := e.key :: l.probed } (e.key :: settled) where
  keys := h.keys
  active := (h.mono e.key).active
  released := (h.mono e.key).released
  probed := by
    intro k hk
    rcases List.mem_cons.mp hk with rfl | hk
    · exact Or.inl List.mem_cons_self
    · exact (h.mono e.key).probed k hk
  reasons := h.reasons

theorem Sound.activate (h : l.Sound settled) (e : Entry) :
    Ledger.Sound { l with active := e.key :: l.active } (e.key :: settled) where
  keys := h.keys
  active := by
    intro k hk
    rcases List.mem_cons.mp hk with rfl | hk
    · exact List.mem_cons_self
    · exact (h.mono e.key).active k hk
  released := (h.mono e.key).released
  probed := (h.mono e.key).probed
  reasons := h.reasons

theorem Sound.requeue (h : l.Sound settled) (e : Entry) :
    (Ledger.requeue { l with probed := e.key :: l.probed } e).Sound settled := by
  unfold Ledger.requeue
  split
  · rename_i hin
    refine ⟨h.keys, h.active, h.released, ?_, h.reasons⟩
    intro k hk
    rcases List.mem_cons.mp hk with rfl | hk
    · exact Or.inr (List.contains_iff_mem.mp hin)
    · exact h.probed k hk
  · refine ⟨h.keys, h.active, h.released, ?_, h.reasons⟩
    intro k hk
    rcases List.mem_cons.mp hk with rfl | hk
    · exact Or.inr List.mem_cons_self
    · exact (h.probed k hk).imp_right (List.mem_cons_of_mem _)

theorem Sound.release {e : Entry} (h : l.Sound settled) (he : e.key ∈ settled) : (l.release e).Sound settled where
  keys := h.keys
  active := fun k hk => h.active k (List.mem_of_mem_filter hk)
  released := by
    intro k hk
    rcases List.mem_cons.mp hk with rfl | hk
    · exact he
    · exact h.released k hk
  probed := h.probed
  reasons := h.reasons

theorem Sound.blockRepo (h : l.Sound settled) (repo : String) : (l.blockRepo repo).Sound settled := by
  unfold Ledger.blockRepo
  split
  · refine ⟨h.keys, fun k hk => h.active k (List.mem_of_mem_filter hk), h.released, h.probed, ?_⟩
    intro p hp
    simp at hp
  · exact h

end Ledger

/-! ## Records are written and never lost -/

def Kept (records records' : Records) : Prop :=
  ∀ repo number, (getIssueEnrichmentRecord records repo number).isSome = true →
    (getIssueEnrichmentRecord records' repo number).isSome = true

theorem Kept.refl (records : Records) : Kept records records := fun _ _ h => h

theorem Kept.trans {r r' r'' : Records} (h : Kept r r') (h' : Kept r' r'') : Kept r r'' :=
  fun repo number hsome => h' repo number (h repo number hsome)

theorem Kept.ite {p : Prop} [Decidable p] {r r' : Records} (h : Kept r r') : Kept r (if p then r' else r) := by
  split
  · exact h
  · exact Kept.refl r

theorem recordIssueEnrichment_kept (texts : Texts) (records : Records) (input : IssueRecord) :
    Kept records (recordIssueEnrichment texts records input) := by
  intro repo number hsome
  unfold getIssueEnrichmentRecord recordIssueEnrichment at *
  rw [Table.find?_upsert]
  split
  · rfl
  · exact hsome

theorem record_kept (texts : Texts) (c : CycleInput) (records : Records) (input : IssueRecord) :
    Kept records (record texts c records input) := by
  unfold record
  split
  · exact Kept.refl records
  · exact recordIssueEnrichment_kept texts records input

theorem beginCycle_eq_some {texts : Texts} {options : CycleOptions} {s s' : State} :
    beginCycle texts options s = some s' ↔ s.cycle = none ∧ startCycle texts options s = s' := by
  unfold beginCycle
  cases hc : s.cycle with
  | none => simp
  | some c => simp

/-! ## One round -/

structure ResultOf (c : CycleInput) (item : ScanItem) (o : CycleItem) : Prop where
  item : o.item = item
  status : c.dryRun = false → o.recordStatus.isSome = true

theorem status_isSome (c : CycleInput) (status : RecordStatus) (h : c.dryRun = false) :
    (c.status status).isSome = true := by
  unfold CycleInput.status
  rw [h]
  rfl

inductive LedgerChange (l : Ledger) (e : Entry) : Ledger → Prop
  | same : LedgerChange l e l
  | release : LedgerChange l e (l.release e)
  | blockRepo : LedgerChange l e (l.blockRepo e.item.repo)

inductive Round (c : CycleInput) (s : Settling) (e : Entry) (reason : Reason) : Settling → Prop
  | requeue (sources : List String) (h : reason = .sourceProbe) :
      Round c s e reason { s with ledger := s.ledger.requeue e, sources }
  | settle {ledger : Ledger} (sources : List String) {o : CycleItem} (hledger : LedgerChange s.ledger e ledger)
      (ho : ResultOf c e.item o) : Round c s e reason ({ s with ledger, sources }.settle e o)

theorem collectEvidence_ok {c : CycleInput} {answers : Answers} {s s' : Settling} {e : Entry}
    (h : collectEvidence c answers s e = .ok s') : ∃ sources, s' = { s with sources } := by
  unfold collectEvidence at h
  split at h
  · exact ⟨s.sources, (Except.ok.inj h).symm⟩
  · split at h
    · split at h
      · exact ⟨s.sources, (Except.ok.inj h).symm⟩
      · cases h
    · split at h
      · cases h
      · split at h
        · exact ⟨_, (Except.ok.inj h).symm⟩
        · cases h

theorem collectEvidence_error {c : CycleInput} {answers : Answers} {s s' : Settling} {e : Entry} {message : String}
    (h : collectEvidence c answers s e = .error (message, s')) :
    ∃ ledger sources, s' = { s with ledger, sources } ∧ LedgerChange s.ledger e ledger := by
  unfold collectEvidence at h
  split at h
  · cases h
  · split at h
    · split at h
      · cases h
      · obtain ⟨-, rfl⟩ := Prod.mk.inj (Except.error.inj h)
        exact ⟨_, _, rfl, .release⟩
    · split at h
      · obtain ⟨-, rfl⟩ := Prod.mk.inj (Except.error.inj h)
        exact ⟨_, _, rfl, .blockRepo⟩
      · split at h
        · cases h
        · obtain ⟨-, rfl⟩ := Prod.mk.inj (Except.error.inj h)
          exact ⟨_, _, rfl, .release⟩

theorem analyzeAndPost_round (texts : Texts) (c : CycleInput) (answers : Answers) (existing : Option IssueRecord)
    (hash : Option String) (records : Records) (s : Settling) (e : Entry) (reason : Reason) :
    Kept records (analyzeAndPost texts c answers existing hash records s e).1 ∧
      Round c s e reason (analyzeAndPost texts c answers existing hash records s e).2 := by
  unfold analyzeAndPost
  dsimp only
  split
  · exact ⟨recordIssueEnrichment_kept _ _ _, .settle s.sources .release ⟨rfl, fun _ => rfl⟩⟩
  · split
    · exact ⟨recordIssueEnrichment_kept _ _ _, .settle s.sources .release ⟨rfl, fun _ => rfl⟩⟩
    · split
      · exact ⟨recordIssueEnrichment_kept _ _ _, .settle s.sources .release ⟨rfl, fun _ => rfl⟩⟩
      · exact ⟨recordIssueEnrichment_kept _ _ _, .settle s.sources .same ⟨rfl, fun _ => rfl⟩⟩

theorem Round.of_sources {c : CycleInput} {s s' : Settling} {e : Entry} {reason : Reason} {sources : List String}
    (h : Round c { s with sources } e reason s') : Round c s e reason s' := by
  cases h with
  | requeue sources' hreason => exact .requeue sources' hreason
  | settle sources' hledger ho => exact .settle sources' hledger ho

theorem settleAdmitted_round (texts : Texts) (c : CycleInput) (answers : Answers) (records : Records) (s : Settling)
    (e : Entry) (reason : Reason) :
    Kept records (settleAdmitted texts c answers records s e reason).1 ∧
      Round c s e reason (settleAdmitted texts c answers records s e reason).2 := by
  unfold settleAdmitted
  dsimp only
  cases hevidence : collectEvidence c answers s e with
  | error failed =>
    obtain ⟨message, s'⟩ := failed
    obtain ⟨ledger, sources, rfl, hledger⟩ := collectEvidence_error hevidence
    exact ⟨recordIssueEnrichment_kept _ _ _, .settle sources hledger ⟨rfl, fun _ => rfl⟩⟩
  | ok s' =>
    obtain ⟨sources, rfl⟩ := collectEvidence_ok hevidence
    dsimp only
    split
    · exact ⟨(record_kept _ _ _ _).ite, .settle sources .release ⟨rfl, fun _ => rfl⟩⟩
    · split
      · rename_i hprobe
        exact ⟨Kept.refl records, .requeue sources hprobe⟩
      · split
        · rename_i hdry
          refine ⟨Kept.refl records, .settle sources .same ⟨rfl, ?_⟩⟩
          intro hlive
          rw [hlive] at hdry
          cases hdry
        · split
          · exact ⟨recordIssueEnrichment_kept _ _ _, .settle sources .same ⟨rfl, fun _ => rfl⟩⟩
          · refine ⟨(analyzeAndPost_round texts c answers _ _ records { s with sources } e reason).1, ?_⟩
            exact (analyzeAndPost_round texts c answers _ _ records { s with sources } e reason).2.of_sources

/-! ## Loops that write results -/

def Grows (p q : Records × List CycleItem) : Prop := Kept p.1 q.1 ∧ p.2 ⊆ q.2

theorem Grows.refl (p : Records × List CycleItem) : Grows p p := ⟨Kept.refl p.1, fun _ h => h⟩

theorem Grows.trans {p q r : Records × List CycleItem} (h : Grows p q) (h' : Grows q r) : Grows p r :=
  ⟨h.1.trans h'.1, fun _ ho => h'.2 (h.2 ho)⟩

theorem foldl_grows {β : Type} {f : Records × List CycleItem → β → Records × List CycleItem}
    (hf : ∀ p x, Grows p (f p x)) (xs : List β) (p : Records × List CycleItem) :
    Grows p (xs.foldl f p) ∧ ∀ x ∈ xs, ∃ q, Grows p q ∧ Grows (f q x) (xs.foldl f p) := by
  induction xs generalizing p with
  | nil => exact ⟨Grows.refl p, by simp⟩
  | cons x xs ih =>
    obtain ⟨hgrows, hturn⟩ := ih (f p x)
    rw [List.foldl_cons]
    refine ⟨(hf p x).trans hgrows, ?_⟩
    intro y hy
    rcases List.mem_cons.mp hy with rfl | hy
    · exact ⟨p, Grows.refl p, hgrows⟩
    · obtain ⟨q, hq, hend⟩ := hturn y hy
      exact ⟨q, (hf p x).trans hq, hend⟩

theorem settleReadFailure_grows (texts : Texts) (c : CycleInput) (scan : RepoScan) (p : Records × List CycleItem)
    (item : ScanItem) : Grows p (settleReadFailure texts c scan p item) := by
  unfold settleReadFailure
  split
  · exact Grows.refl p
  · refine ⟨?_, List.subset_append_left _ _⟩
    dsimp only
    split
    · exact Kept.refl p.1
    · exact record_kept _ _ _ _

theorem settleReadFailure_result {texts : Texts} {c : CycleInput} {scan : RepoScan} (p : Records × List CycleItem)
    {item : ScanItem} (h : (scan.reading.readFailure item).isSome = true) :
    ∃ o ∈ (settleReadFailure texts c scan p item).2, ResultOf c item o := by
  obtain ⟨error, herror⟩ := Option.isSome_iff_exists.mp h
  unfold settleReadFailure
  rw [herror]
  exact ⟨_, List.mem_append_right _ List.mem_cons_self, rfl, status_isSome c _⟩

theorem settleSkipped_result {texts : Texts} {c : CycleInput} (p : Records × List CycleItem) {item : ScanItem}
    (h : item.action = .skipped) : ∃ o ∈ (settleSkipped texts c p item).2, ResultOf c item o := by
  unfold settleSkipped
  rw [if_pos h]
  exact ⟨_, List.mem_append_right _ List.mem_cons_self, rfl, status_isSome c _⟩

theorem settleSkipped_grows (texts : Texts) (c : CycleInput) (p : Records × List CycleItem) (item : ScanItem) :
    Grows p (settleSkipped texts c p item) := by
  unfold settleSkipped
  split
  · exact ⟨record_kept _ _ _ _, List.subset_append_left _ _⟩
  · exact Grows.refl p

theorem settleDecision_grows (texts : Texts) (c : CycleInput) (settled : List IssueKey)
    (p : Records × List CycleItem) (d : Entry × Reason) : Grows p (settleDecision texts c settled p d) := by
  unfold settleDecision
  dsimp only
  split
  · exact Grows.refl p
  · split
    · exact ⟨Kept.refl p.1, List.subset_append_left _ _⟩
    · split
      · exact ⟨record_kept _ _ _ _, List.subset_append_left _ _⟩
      · split
        · exact ⟨record_kept _ _ _ _, List.subset_append_left _ _⟩
        · exact ⟨record_kept _ _ _ _, List.subset_append_left _ _⟩

theorem settleDecision_result (texts : Texts) (c : CycleInput) {settled : List IssueKey}
    {p : Records × List CycleItem} {e : Entry} {r : Reason} (hnot : e.key ∉ settled) (hreleased : r ≠ .released)
    (heligible : r ≠ .eligible)
    (hrecorded : r = .alreadyRecorded →
      (getIssueEnrichmentRecord p.1 e.item.repo e.item.issue.number).isSome = true) :
    ∃ o ∈ (settleDecision texts c settled p (e, r)).2, ResultOf c e.item o := by
  unfold settleDecision
  dsimp only
  rw [if_neg (by simp [hnot, hreleased, heligible])]
  split
  · rename_i halready
    refine ⟨_, List.mem_append_right _ List.mem_cons_self, rfl, ?_⟩
    intro _
    rw [Option.isSome_map]
    exact hrecorded halready
  · split
    · exact ⟨_, List.mem_append_right _ List.mem_cons_self, rfl, status_isSome c _⟩
    · split
      · exact ⟨_, List.mem_append_right _ List.mem_cons_self, rfl, status_isSome c _⟩
      · exact ⟨_, List.mem_append_right _ List.mem_cons_self, rfl, status_isSome c _⟩

/-! ## The whole settling -/

/-- Each item of the scans has a result or an entry in the ledger, and what the rounds settled has its result. -/
structure Accounts (texts : Texts) (c : CycleInput) (records : Records) (s : Settling) : Prop where
  ledger : s.ledger.Sound s.settled
  settled : ∀ e ∈ s.ledger.entries, e.key ∈ s.settled → ∃ o ∈ s.out, ResultOf c e.item o
  listed : ∀ scan ∈ s.scans, ∀ item ∈ scan.items texts c.config,
    (∃ o ∈ s.out, ResultOf c item o) ∨ ∃ e ∈ s.ledger.entries, e.item = item
  recorded : ∀ e ∈ s.ledger.entries, e.state = .alreadyRecorded →
    (getIssueEnrichmentRecord records e.item.repo e.item.issue.number).isSome = true

theorem classify_alreadyRecorded {item : ScanItem} {record : Option IssueRecord} {checkedAt : Time}
    (h : (classify item record checkedAt).1 = .alreadyRecorded) : record.isSome = true := by
  cases record with
  | none => cases h
  | some record => rfl

theorem createLedger_eq_some {texts : Texts} {config : Config} {repos : List String} {records : Records}
    {checkedAt : Time} {items : List ScanItem} {ledger : Ledger}
    (h : createIssueEnrichmentAdmissionLedger texts config repos records checkedAt items = some ledger) :
    ledger.Sound [] ∧
      ledger.entries = (items.filter fun item => item.action ≠ .skipped).map (admissionEntry records checkedAt) := by
  unfold createIssueEnrichmentAdmissionLedger at h
  dsimp only at h
  split at h
  · cases h
  · rename_i hnodup
    split at h
    · cases h
    · split at h
      · cases h
      · obtain rfl := Option.some.inj h
        refine ⟨⟨?_, by simp, by simp, by simp, ?_⟩, rfl⟩
        · rw [List.map_map]
          exact (not_not.mp hnodup).sublist (List.filter_sublist.map ScanItem.key)
        · intro p hp
          simp at hp

theorem getRecord_knownRecords {c : CycleInput} {records : Records} {repo : String} {number : Nat} {f : IssueRecord}
    (h : getIssueEnrichmentRecord (c.knownRecords records) repo number = some f) :
    getIssueEnrichmentRecord records repo number = some f := by
  unfold CycleInput.knownRecords at h
  split at h
  · cases h
  · exact h

/-- A planned cycle accounts for every item: it failed to be read, it is skipped, or the ledger has it. -/
theorem planSettling_accounts {texts : Texts} {s s' : State} {c : Cycle} {scans : List RepoScan}
    {pagesRead : Nat} {reading : Reading} (hc : s.cycle = some c) (hphase : c.phase = .scanning [] pagesRead reading scans)
    (h : planSettling texts s = some s') :
    s' = { s with cycle := none } ∨
    ∃ records st, s' = { s with records, cycle := some { c with phase := .settling st } } ∧ st.scans = scans ∧
      Accounts texts c.input records st := by
  unfold planSettling at h
  simp only [hc, Option.bind_eq_bind, Option.bind_some, hphase] at h
  cases hcreate : createIssueEnrichmentAdmissionLedger texts c.input.config c.input.repos
      (c.input.knownRecords s.records) c.input.checkedAt (scans.flatMap (RepoScan.readable texts c.input.config)) with
  | none =>
    rw [hcreate] at h
    exact Or.inl (Option.some.inj h).symm
  | some ledger =>
    rw [hcreate] at h
    obtain rfl := Option.some.inj h
    obtain ⟨hsound, hentries⟩ := createLedger_eq_some hcreate
    -- the two loops that write results before the ledger hands anything out
    have hfailed := foldl_grows
      (fun p scan => (foldl_grows (settleReadFailure_grows texts c.input scan) (scan.items texts c.input.config) p).1)
      scans (s.records, [])
    have hskipped := foldl_grows (settleSkipped_grows texts c.input)
      (scans.flatMap (RepoScan.readable texts c.input.config)) (scans.foldl
        (fun p scan => (scan.items texts c.input.config).foldl (settleReadFailure texts c.input scan) p) (s.records, []))
    refine Or.inr ⟨_, _, rfl, rfl, hsound, by simp, ?_, ?_⟩
    · intro scan hscan item hitem
      dsimp only
      by_cases hread : (scan.reading.readFailure item).isSome = true
      · obtain ⟨q, -, hscanned⟩ := hfailed.2 scan hscan
        obtain ⟨q', -, hturn⟩ := (foldl_grows (settleReadFailure_grows texts c.input scan)
          (scan.items texts c.input.config) q).2 item hitem
        obtain ⟨o, ho, hresult⟩ := settleReadFailure_result q' hread
        exact Or.inl ⟨o, hskipped.1.2 (hscanned.2 (hturn.2 ho)), hresult⟩
      · have hreadable : item ∈ scans.flatMap (RepoScan.readable texts c.input.config) :=
          List.mem_flatMap.mpr ⟨scan, hscan, List.mem_filter.mpr ⟨hitem, by simpa using hread⟩⟩
        by_cases haction : item.action = .skipped
        · obtain ⟨q, -, hturn⟩ := hskipped.2 item hreadable
          obtain ⟨o, ho, hresult⟩ := settleSkipped_result q haction
          exact Or.inl ⟨o, hturn.2 ho, hresult⟩
        · refine Or.inr ⟨admissionEntry (c.input.knownRecords s.records) c.input.checkedAt item, ?_, rfl⟩
          rw [hentries]
          exact List.mem_map.mpr ⟨item, List.mem_filter.mpr ⟨hreadable, decide_eq_true haction⟩, rfl⟩
    · intro e he hstate
      rw [hentries] at he
      obtain ⟨item, -, rfl⟩ := List.mem_map.mp he
      obtain ⟨f, hf⟩ := Option.isSome_iff_exists.mp (classify_alreadyRecorded hstate)
      have hknown := Option.isSome_iff_exists.mpr ⟨f, getRecord_knownRecords hf⟩
      exact hskipped.1.1 _ _ (hfailed.1.1 _ _ hknown)

theorem LedgerChange.entries {l l' : Ledger} {e : Entry} (h : LedgerChange l e l') : l'.entries = l.entries := by
  cases h with
  | same => rfl
  | release => rfl
  | blockRepo => exact Ledger.entries_blockRepo l _

theorem LedgerChange.sound {l l' : Ledger} {e : Entry} {settled : List IssueKey} (h : LedgerChange l e l')
    (hl : l.Sound settled) (he : e.key ∈ settled) : l'.Sound settled := by
  cases h with
  | same => exact hl
  | release => exact hl.release he
  | blockRepo => exact hl.blockRepo _

theorem Accounts.follow {texts : Texts} {c : CycleInput} {records records' : Records} {s : Settling}
    (h : Accounts texts c records s) {ledger : Ledger} (hentries : ledger.entries = s.ledger.entries)
    (hsound : ledger.Sound s.settled) (hkept : Kept records records') (sources : List String) :
    Accounts texts c records' { s with ledger, sources } where
  ledger := hsound
  settled := hentries ▸ h.settled
  listed := hentries ▸ h.listed
  recorded := by
    dsimp only
    rw [hentries]
    exact fun e he hstate => hkept _ _ (h.recorded e he hstate)

theorem Accounts.settle {texts : Texts} {c : CycleInput} {records records' : Records} {s : Settling}
    (h : Accounts texts c records s) {ledger : Ledger} (hentries : ledger.entries = s.ledger.entries) {e : Entry}
    (he : e ∈ s.ledger.entries) {o : CycleItem} (ho : ResultOf c e.item o) (hsound : ledger.Sound (e.key :: s.settled))
    (hkept : Kept records records') (sources : List String) :
    Accounts texts c records' ({ s with ledger, sources }.settle e o) where
  ledger := hsound
  settled := by
    intro e' he' hkey
    change e' ∈ ledger.entries at he'
    rw [hentries] at he'
    rcases List.mem_cons.mp hkey with hkey | hkey
    · obtain rfl := List.inj_on_of_nodup_map h.ledger.keys he' he hkey
      exact ⟨o, List.mem_append_right _ List.mem_cons_self, ho⟩
    · obtain ⟨o', ho', hresult⟩ := h.settled e' he' hkey
      exact ⟨o', List.mem_append_left _ ho', hresult⟩
  listed := by
    intro scan hscan item hitem
    rcases h.listed scan hscan item hitem with ⟨o', ho', hresult⟩ | ⟨e', he', hitem'⟩
    · exact Or.inl ⟨o', List.mem_append_left _ ho', hresult⟩
    · exact Or.inr ⟨e', hentries ▸ he', hitem'⟩
  recorded := by
    intro e' he' hstate
    change e' ∈ ledger.entries at he'
    rw [hentries] at he'
    exact hkept _ _ (h.recorded e' he' hstate)

theorem settleNext_cases {texts : Texts} {answers : Answers} {s s' : State} {c : Cycle} {st : Settling}
    (hc : s.cycle = some c) (hphase : c.phase = .settling st) (hacc : Accounts texts c.input s.records st)
    (h : settleNext texts answers s = some s') :
    (∃ records st', s' = { s with records, cycle := some { c with phase := .settling st' } } ∧
      st'.scans = st.scans ∧ Accounts texts c.input records st') ∨
    (s' = finishCycle texts c { st with ledger := st.ledger.next.2 } s ∧
      Accounts texts c.input s.records { st with ledger := st.ledger.next.2 } ∧ st.ledger.next.2.Exhausted) := by
  unfold settleNext at h
  simp only [hc, Option.bind_eq_bind, Option.bind_some, hphase] at h
  -- a round on the ledger `l`, which has handed out `e`
  have hround : ∀ (l : Ledger) (e : Entry) (reason : Reason), e ∈ st.ledger.entries → l.entries = st.ledger.entries →
      l.Sound (e.key :: st.settled) → (reason = .sourceProbe → (l.requeue e).Sound st.settled) →
      Accounts texts c.input (settleAdmitted texts c.input answers s.records { st with ledger := l } e reason).1
        (settleAdmitted texts c.input answers s.records { st with ledger := l } e reason).2 ∧
      (settleAdmitted texts c.input answers s.records { st with ledger := l } e reason).2.scans = st.scans := by
    intro l e reason he hentries hsound hrequeue
    obtain ⟨hkept, hround⟩ := settleAdmitted_round texts c.input answers s.records { st with ledger := l } e reason
    generalize settleAdmitted texts c.input answers s.records { st with ledger := l } e reason = result at hkept hround ⊢
    obtain ⟨records, st'⟩ := result
    dsimp only at hkept hround ⊢
    cases hround with
    | requeue sources hreason =>
      exact ⟨hacc.follow ((Ledger.entries_requeue l e).trans hentries) (hrequeue hreason) hkept sources, rfl⟩
    | settle sources hledger ho =>
      exact ⟨hacc.settle (hledger.entries.trans hentries) he ho (hledger.sound hsound List.mem_cons_self) hkept sources,
        rfl⟩
  rcases st.ledger.next_cases with ⟨e, he, hnext⟩ | ⟨l, hl, ⟨e, he, hnext⟩ | ⟨hnext, hexhausted⟩⟩
  · rw [hnext] at h
    obtain rfl := Option.some.inj h
    obtain ⟨haccounts, hscans⟩ := hround { st.ledger with probed := e.key :: st.ledger.probed } e .sourceProbe he rfl
      (hacc.ledger.probe e) fun _ => hacc.ledger.requeue e
    exact Or.inl ⟨_, _, rfl, hscans, haccounts⟩
  · rw [hnext] at h
    obtain rfl := Option.some.inj h
    obtain ⟨haccounts, hscans⟩ := hround { l with active := e.key :: l.active } e .eligible he hl.entries
      ((hl.sound hacc.ledger).activate e) nofun
    exact Or.inl ⟨_, _, rfl, hscans, haccounts⟩
  · rw [hnext] at h
    obtain rfl := Option.some.inj h
    refine Or.inr ⟨?_, ?_, ?_⟩
    · rw [hnext]
    · rw [hnext]
      exact hacc.follow hl.entries (hl.sound hacc.ledger) (Kept.refl s.records) st.sources
    · rw [hnext]
      exact hexhausted

/-- The result of a cycle that has nothing left to hand out. -/
def cycleItems (texts : Texts) (c : CycleInput) (records : Records) (st : Settling) : List CycleItem :=
  (st.ledger.snapshot.foldl (settleDecision texts c st.settled) (records, st.out)).2

theorem Accounts.finish {texts : Texts} {c : CycleInput} {records : Records} {st : Settling}
    (h : Accounts texts c records st) (hx : st.ledger.Exhausted) {scan : RepoScan} (hscan : scan ∈ st.scans)
    {item : ScanItem} (hitem : item ∈ scan.items texts c.config) :
    ∃ o ∈ cycleItems texts c records st, ResultOf c item o := by
  have hloop := foldl_grows (settleDecision_grows texts c st.settled) st.ledger.snapshot (records, st.out)
  rcases h.listed scan hscan item hitem with ⟨o, ho, hresult⟩ | ⟨e, he, rfl⟩
  · exact ⟨o, hloop.1.2 ho, hresult⟩
  · by_cases hsettled : e.key ∈ st.settled
    · obtain ⟨o, ho, hresult⟩ := h.settled e he hsettled
      exact ⟨o, hloop.1.2 ho, hresult⟩
    · obtain ⟨r, hmem, hreleased, heligible⟩ := h.ledger.decided hx he hsettled
      obtain ⟨q, hq, hturn⟩ := hloop.2 (e, r) hmem
      have hrecorded : r = .alreadyRecorded →
          (getIssueEnrichmentRecord q.1 e.item.repo e.item.issue.number).isSome = true := by
        intro hr
        apply hq.1
        apply h.recorded e he
        cases (Ledger.mem_snapshotFrom_entry _ h.ledger.reasons hmem).2 with
        | alreadyRecorded hstate => exact hstate
        | reported hreported => exact absurd hr hreported.2.2
        | held => cases hr
        | released => cases hr
        | active => cases hr
        | unplaced => cases hr
      obtain ⟨o, ho, hresult⟩ := settleDecision_result texts c hsettled hreleased heligible hrecorded
      exact ⟨o, hturn.2 ho, hresult⟩

theorem settled_of_advances {texts : Texts} {c : CycleInput} {records : Records} {st : Settling}
    (h : Accounts texts c records st) (hx : st.ledger.Exhausted) (hlive : c.dryRun = false) {scan : RepoScan}
    (hscan : scan ∈ st.scans) (hadvances : scan.advances (cycleItems texts c records st) = true) {item : ScanItem}
    (hitem : item ∈ scan.items texts c.config) (hrepo : item.repo = scan.repo) :
    (item.repo, item.issue.number, item.issue.version) ∈
      settledVersions st.scans (cycleItems texts c records st) := by
  obtain ⟨o, ho, hresult⟩ := h.finish hx hscan hitem
  obtain ⟨status, hstatus⟩ := Option.isSome_iff_exists.mp (hresult.status hlive)
  unfold RepoScan.advances at hadvances
  simp only [Bool.and_eq_true, Bool.not_eq_true', List.any_eq_false, decide_eq_true_eq] at hadvances
  have hnot := hadvances.2 o ho
  have hsettles : status.settles = true := by
    cases status with
    | posted => rfl
    | dryRun => rfl
    | skipped => rfl
    | deferred => simp [hresult.item, hrepo, hstatus] at hnot
    | failed => simp [hresult.item, hrepo, hstatus] at hnot
  refine List.mem_append_left _ (List.mem_filterMap.mpr ⟨o, ho, ?_⟩)
  unfold CycleItem.settledVersion
  rw [hstatus, hresult.item, Option.any_some, hsettles]
  rfl

end NeonDiff.Enrichment
