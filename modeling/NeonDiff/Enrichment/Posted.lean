import NeonDiff.Enrichment.Watermark

/-! # Posted records and failing steps

A cycle that fails to read the issues or the label events leaves the record of a posted comment as it is; a cycle
whose source, evidence, analysis or post fails overwrites it. A forced cycle does not look at the record, and a failed
read of the label events overwrites it too.
-/

open NeonDiff.Lib

namespace NeonDiff.Enrichment

/-! ## Failing steps -/

inductive RoundFails (texts : Texts) (c : CycleInput) (answers : Answers) (records : Records) (s : Settling) (e : Entry)
    (reason : Reason) : Prop
  | collecting {message : String} {s' : Settling} (h : collectEvidence c answers s e = .error (message, s'))
  | posting {s' : Settling} {message : String} (h : collectEvidence c answers s e = .ok s')
      (hprobe : reason ≠ .sourceProbe) (hlive : c.dryRun = false) (hposts : c.config.postIssueComment = true)
      (hskip : c.force = false → ∀ f, getIssueEnrichmentRecord records e.item.repo e.item.issue.number = some f →
        shouldSkipIssueEnrichmentRecord f e.item.issue.updatedAt c.checkedAt
          (if shouldCompareIssueEnrichmentAnalysisInputHash f ||
              shouldBackfillIssueEnrichmentAnalysisInputHash f e.item.issue.updatedAt then some answers.identityHash
            else none) e.item.action = false)
      (hfails : answers.analysis = .error message ∨ ∃ bodyHash, answers.analysis = .ok bodyHash ∧
        answers.post = .error message ∧
        (c.force = false → ∀ f, getIssueEnrichmentRecord records e.item.repo e.item.issue.number = some f →
          f.status = .posted → f.bodyHash ≠ some bodyHash))

/-- The step works on the issue and fails, or finds its repository blocked by such a failure. -/
inductive ProcessingFails (texts : Texts) (key : IssueKey) (s : State) : Label → Prop
  | round {answers : Answers} {c : Cycle} {st : Settling} {e : Entry} {reason : Reason} {ledger : Ledger}
      (hc : s.cycle = some c) (hphase : c.phase = .settling st) (hnext : st.ledger.next = (some (e, reason), ledger))
      (hkey : e.key = key) (hfails : RoundFails texts c.input answers s.records { st with ledger } e reason) :
      ProcessingFails texts key s (.settleNext answers)
  | blocked {answers : Answers} {c : Cycle} {st : Settling} {e : Entry} {ledger : Ledger}
      (hc : s.cycle = some c) (hphase : c.phase = .settling st) (hnext : st.ledger.next = (none, ledger))
      (hlive : c.input.dryRun = false) (hsettled : key ∉ st.settled) (he : (e, .repositoryBlocked) ∈ ledger.snapshot)
      (hkey : e.key = key) : ProcessingFails texts key s (.settleNext answers)

def Reading.failed (r : Reading) : List Nat := r.eventReadFailures.map (·.1)

inductive ReadingFails (texts : Texts) (key : IssueKey) (s : State) : Label → Prop
  | listing {c : Cycle} {todo : List String} {pagesRead : Nat} {reading : Reading} {scans : List RepoScan}
      (hc : s.cycle = some c) (hphase : c.phase = .scanning (key.1 :: todo) pagesRead reading scans) :
      ReadingFails texts key s .readFails
  | events {answers : Issue → IssueAnswers} {c : Cycle} {todo : List String} {pagesRead : Nat} {reading : Reading}
      {scans : List RepoScan} (hc : s.cycle = some c)
      (hphase : c.phase = .scanning (key.1 :: todo) pagesRead reading scans)
      (hallowed : (resolveIssueEnrichmentRepoPolicy texts c.input.config key.1).allowed = true)
      (hfailed : key.2 ∈ (qualifyPage texts c.input key.1 answers s.records reading
        (c.input.chunk texts key.1 pagesRead s)).2.failed) :
      ReadingFails texts key s (.readPage answers)

inductive UnreadForced (texts : Texts) (key : IssueKey) (s : State) : Label → Prop
  | planned {c : Cycle} {pagesRead : Nat} {reading : Reading} {scans : List RepoScan} {scan : RepoScan} {ledger : Ledger}
      (hc : s.cycle = some c) (hphase : c.phase = .scanning [] pagesRead reading scans) (hforce : c.input.force = true)
      (hlive : c.input.dryRun = false) (hscan : scan ∈ scans) (hrepo : scan.repo = key.1)
      (hfailed : key.2 ∈ scan.reading.failed)
      (hledger : createIssueEnrichmentAdmissionLedger texts c.input.config c.input.repos
        (c.input.knownRecords s.records) c.input.checkedAt
        (scans.flatMap (RepoScan.readable texts c.input.config)) = some ledger) :
      UnreadForced texts key s .planSettling

def Forgets (texts : Texts) (key : IssueKey) (s : State) (l : Label) : Prop :=
  ProcessingFails texts key s l ∨ UnreadForced texts key s l

/-- Some step of the run meets `C`. -/
def Sometime (texts : Texts) (C : State → Label → Prop) (s : State) (ls : List Label) : Prop :=
  ∃ before l after t, ls = before ++ l :: after ∧ run (step texts) s before = some t ∧ C t l

theorem along_iff_not_sometime {texts : Texts} {C : State → Label → Prop} {s : State} {ls : List Label} :
    Along (step texts) C s ls ↔ ¬ Sometime texts (fun t l => ¬ C t l) s ls := by
  constructor
  · rintro h ⟨before, l, after, t, rfl, hbefore, hmiss⟩
    exact hmiss (h.append_right hbefore).1
  · intro h
    induction ls generalizing s with
    | nil => trivial
    | cons l ls ih =>
      refine ⟨?_, ?_⟩
      · by_contra hmiss
        exact h ⟨[], l, ls, s, rfl, rfl, hmiss⟩
      · intro t hstep
        apply ih
        rintro ⟨before, l', after, u, rfl, hbefore, hmiss⟩
        exact h ⟨l :: before, l', after, u, rfl, run_cons_eq_some.mpr ⟨t, hstep, hbefore⟩, hmiss⟩

def InCycle (key : IssueKey) (s : State) (l : Label) : Prop :=
  s.cycle.isSome = true ∧ ∀ repo issue, l = .change repo issue → (repo, issue.number) ≠ key

/-- The record still says posted, with the hashes and the comment of `f`. -/
def StillPosted (records : Records) (key : IssueKey) (f : IssueRecord) : Prop :=
  ∃ g, getIssueEnrichmentRecord records key.1 key.2 = some g ∧ g.status = .posted ∧ g.bodyHash = f.bodyHash ∧
    g.analysisInputHash = f.analysisInputHash ∧ g.commentUrl = f.commentUrl

/-! ## Writing other records -/

def SameAt (key : IssueKey) (records records' : Records) : Prop :=
  getIssueEnrichmentRecord records' key.1 key.2 = getIssueEnrichmentRecord records key.1 key.2

section
variable {key : IssueKey} {r r' r'' : Records}

theorem SameAt.refl (r : Records) : SameAt key r r := rfl

theorem SameAt.trans (h : SameAt key r r') (h' : SameAt key r' r'') : SameAt key r r'' := Eq.trans h' h

theorem SameAt.ite {p : Prop} [Decidable p] (h : SameAt key r r') : SameAt key r (if p then r' else r) := by
  split
  · exact h
  · exact SameAt.refl r

theorem getRecord_recordIssueEnrichment (texts : Texts) (records : Records) (input : IssueRecord) :
    getIssueEnrichmentRecord (recordIssueEnrichment texts records input) key.1 key.2 =
      if input.key = key then
        some { input with
          commentUrl := input.commentUrl.map (keptText texts 500)
          error := input.error.map (keptText texts 1000) }
      else getIssueEnrichmentRecord records key.1 key.2 := by
  unfold getIssueEnrichmentRecord recordIssueEnrichment
  exact Table.find?_upsert ..

theorem recordIssueEnrichment_sameAt (texts : Texts) (records : Records) {input : IssueRecord} (h : input.key ≠ key) :
    SameAt key records (recordIssueEnrichment texts records input) := by
  unfold SameAt
  rw [getRecord_recordIssueEnrichment, if_neg h]

theorem record_sameAt (texts : Texts) (c : CycleInput) (records : Records) {input : IssueRecord} (h : input.key ≠ key) :
    SameAt key records (record texts c records input) := by
  unfold record
  split
  · exact SameAt.refl records
  · exact recordIssueEnrichment_sameAt texts records h

theorem foldl_sameAt {α β : Type} {f : Records × α → β → Records × α} (xs : List β)
    (hf : ∀ p, ∀ x ∈ xs, SameAt key p.1 (f p x).1) (p : Records × α) : SameAt key p.1 (xs.foldl f p).1 := by
  induction xs generalizing p with
  | nil => exact SameAt.refl p.1
  | cons x xs ih =>
    rw [List.foldl_cons]
    have hrest := ih (fun p y hy => hf p y (List.mem_cons_of_mem x hy)) (f p x)
    exact (hf p x List.mem_cons_self).trans hrest

end

theorem settleReadFailure_sameAt (texts : Texts) (c : CycleInput) {scan : RepoScan} {key : IssueKey}
    (p : Records × List CycleItem) {item : ScanItem}
    (h : c.dryRun = false → item.key = key → (scan.reading.readFailure item).isSome = true →
      item.issue.number ∈ scan.reading.preservedEventReadFailures) :
    SameAt key p.1 (settleReadFailure texts c scan p item).1 := by
  unfold settleReadFailure
  split
  · exact SameAt.refl p.1
  · rename_i error herror
    dsimp only
    split
    · exact SameAt.refl p.1
    · rename_i hpreserved
      cases hdry : c.dryRun with
      | true =>
        unfold record
        rw [hdry]
        exact SameAt.refl p.1
      | false =>
        apply record_sameAt
        intro hkey
        apply hpreserved
        exact List.contains_iff_mem.mpr (h hdry hkey (by rw [herror]; rfl))

theorem settleSkipped_sameAt (texts : Texts) (c : CycleInput) {key : IssueKey} (p : Records × List CycleItem)
    {item : ScanItem} (h : item.key ≠ key) : SameAt key p.1 (settleSkipped texts c p item).1 := by
  unfold settleSkipped
  split
  · exact record_sameAt texts c p.1 h
  · exact SameAt.refl p.1

theorem analyzeAndPost_sameAt (texts : Texts) (c : CycleInput) (answers : Answers) (existing : Option IssueRecord)
    (hash : Option String) (records : Records) (s : Settling) {e : Entry} {key : IssueKey} (h : e.key ≠ key) :
    SameAt key records (analyzeAndPost texts c answers existing hash records s e).1 := by
  have hwrite (input : IssueRecord) (hkey : input.key = e.key) :
      SameAt key records (recordIssueEnrichment texts records input) :=
    recordIssueEnrichment_sameAt texts records fun heq => h (hkey.symm.trans heq)
  unfold analyzeAndPost
  dsimp only
  split
  · exact hwrite _ rfl
  · split
    · exact hwrite _ rfl
    · split
      · exact hwrite _ rfl
      · exact hwrite _ rfl

theorem key_of_getRecord {records : Records} {repo : String} {number : Nat} {f : IssueRecord}
    (h : getIssueEnrichmentRecord records repo number = some f) : f.key = (repo, number) :=
  Table.key_of_find? h

theorem settleAdmitted_sameAt (texts : Texts) (c : CycleInput) (answers : Answers) (records : Records) (s : Settling)
    {e : Entry} (reason : Reason) {key : IssueKey} (h : e.key ≠ key) :
    SameAt key records (settleAdmitted texts c answers records s e reason).1 := by
  have hwrite (input : IssueRecord) (hkey : input.key = e.key) :
      SameAt key records (recordIssueEnrichment texts records input) :=
    recordIssueEnrichment_sameAt texts records fun heq => h (hkey.symm.trans heq)
  unfold settleAdmitted
  dsimp only
  cases collectEvidence c answers s e with
  | error failed => exact hwrite _ rfl
  | ok s' =>
    dsimp only
    split
    · rename_i f hf
      have hfound := (Option.filter_eq_some_iff.mp hf).1
      apply SameAt.ite
      apply record_sameAt
      intro heq
      apply h
      rw [← heq]
      exact (key_of_getRecord hfound).symm
    · split
      · exact SameAt.refl records
      · split
        · exact SameAt.refl records
        · split
          · exact hwrite _ rfl
          · exact analyzeAndPost_sameAt texts c answers _ _ records s' h

theorem settleDecision_sameAt (texts : Texts) (c : CycleInput) {settled : List IssueKey} (p : Records × List CycleItem)
    {d : Entry × Reason} {key : IssueKey} (h : d.1.key = key → key ∈ settled) :
    SameAt key p.1 (settleDecision texts c settled p d).1 := by
  obtain ⟨e, reason⟩ := d
  unfold settleDecision
  dsimp only
  split
  · exact SameAt.refl p.1
  · rename_i hnot
    have hkey : e.key ≠ key := by
      intro heq
      apply hnot
      simp [heq, h heq]
    split
    · exact SameAt.refl p.1
    · split
      · exact record_sameAt texts c p.1 hkey
      · split
        · exact record_sameAt texts c p.1 hkey
        · exact record_sameAt texts c p.1 hkey

/-! ## After a failed round -/

def Dead (l : Ledger) (key : IssueKey) : Prop := key ∈ l.released ∨ key.1 ∈ l.blocked

theorem Dead.release {l : Ledger} {key : IssueKey} (h : Dead l key) (e : Entry) : Dead (l.release e) key :=
  h.imp_left (List.mem_cons_of_mem e.key)

theorem dead_release (l : Ledger) (e : Entry) : Dead (l.release e) e.key := .inl List.mem_cons_self

theorem Dead.blockRepo {l : Ledger} {key : IssueKey} (h : Dead l key) (repo : String) : Dead (l.blockRepo repo) key := by
  unfold Ledger.blockRepo
  split
  · exact h.imp_right (List.mem_cons_of_mem repo)
  · exact h

theorem dead_blockRepo {l : Ledger} {e : Entry} (he : e ∈ l.entries) : Dead (l.blockRepo e.item.repo) e.key := by
  unfold Ledger.blockRepo
  rw [if_pos]
  · exact .inr List.mem_cons_self
  · rw [List.any_eq_true]
    exact ⟨e, he, by simp⟩

theorem Dead.requeue {l : Ledger} {key : IssueKey} (h : Dead l key) (e : Entry) : Dead (l.requeue e) key := by
  unfold Ledger.requeue
  split
  · exact h
  · exact h

theorem Dead.change {l l' : Ledger} {e : Entry} {key : IssueKey} (h : Dead l key) (hchange : LedgerChange l e l') :
    Dead l' key := by
  cases hchange with
  | same => exact h
  | release => exact h.release e
  | blockRepo => exact h.blockRepo _

theorem admitFirst_alive {l l' : Ledger} {u : Usage} {es : List Entry} {e : Entry}
    (h : l.admitFirst u es = (some e, l')) : ¬ Dead l e.key := by
  induction es generalizing l u with
  | nil => cases h
  | cons first es ih =>
    unfold Ledger.admitFirst at h
    split at h
    · exact ih h
    · rename_i hpassed
      split at h
      · rename_i hcap
        obtain rfl := Option.some.inj (congrArg Prod.fst h)
        rintro (hreleased | hblocked)
        · apply hpassed
          simp [hreleased]
        · have hsome := Ledger.capReason_of_blocked (u := u) hblocked
          rw [hcap] at hsome
          cases hsome
      · split at h
        · exact fun hdead => ih h hdead
        · exact fun hdead => ih h hdead

theorem next_alive {l l' : Ledger} {e : Entry} {reason : Reason} (h : l.next = (some (e, reason), l')) :
    ¬ Dead l e.key := by
  unfold Ledger.next at h
  split at h
  · rename_i found hfind
    have hwants := List.find?_some hfind
    obtain rfl : found = e := by
      have heq := congrArg Prod.fst h
      exact congrArg Prod.fst (Option.some.inj heq)
    simp only [Ledger.wantsProbe, Bool.and_eq_true, Bool.not_eq_true'] at hwants
    rintro (hreleased | hblocked)
    · simp [hreleased] at hwants
    · have hrepo : found.item.repo ∈ l.blocked := hblocked
      simp [hrepo] at hwants
  · split at h
    · rename_i admitted l'' hadmit
      obtain rfl : admitted = e := by
        have heq := congrArg Prod.fst h
        exact congrArg Prod.fst (Option.some.inj heq)
      exact admitFirst_alive hadmit
    · cases h

theorem next_frame (l : Ledger) :
    l.next.2.entries = l.entries ∧ l.next.2.released = l.released ∧ l.next.2.blocked = l.blocked := by
  rcases l.next_cases with ⟨e, -, hnext⟩ | ⟨l', hl', ⟨e, -, hnext⟩ | ⟨hnext, -⟩⟩
  · rw [hnext]
    exact ⟨rfl, rfl, rfl⟩
  · rw [hnext]
    exact ⟨hl'.entries, hl'.released, hl'.blocked⟩
  · rw [hnext]
    exact ⟨hl'.entries, hl'.released, hl'.blocked⟩

theorem dead_next {l : Ledger} {key : IssueKey} : Dead l.next.2 key ↔ Dead l key := by
  obtain ⟨-, hreleased, hblocked⟩ := next_frame l
  unfold Dead
  rw [hreleased, hblocked]

theorem mem_entries_of_next {l l' : Ledger} {e : Entry} {reason : Reason} (h : l.next = (some (e, reason), l')) :
    e ∈ l.entries := by
  rcases l.next_cases with ⟨e', he', hnext⟩ | ⟨m, -, ⟨e', he', hnext⟩ | ⟨hnext, -⟩⟩
  · rw [hnext] at h
    obtain rfl := congrArg Prod.fst (Option.some.inj (congrArg Prod.fst h))
    exact he'
  · rw [hnext] at h
    obtain rfl := congrArg Prod.fst (Option.some.inj (congrArg Prod.fst h))
    exact he'
  · rw [hnext] at h
    cases h

def FailedRecord (records : Records) (key : IssueKey) : Prop :=
  ∃ g, getIssueEnrichmentRecord records key.1 key.2 = some g ∧ g.status = .failed

theorem failedRecord_recordIssueEnrichment (texts : Texts) (records : Records) {input : IssueRecord} {key : IssueKey}
    (hkey : input.key = key) (hstatus : input.status = .failed) :
    FailedRecord (recordIssueEnrichment texts records input) key := by
  unfold FailedRecord
  rw [getRecord_recordIssueEnrichment, if_pos hkey]
  exact ⟨_, rfl, hstatus⟩

theorem collectEvidence_dead {c : CycleInput} {answers : Answers} {s s' : Settling} {e : Entry} {message : String}
    (he : e ∈ s.ledger.entries) (h : collectEvidence c answers s e = .error (message, s')) : Dead s'.ledger e.key := by
  unfold collectEvidence at h
  split at h
  · cases h
  · split at h
    · split at h
      · cases h
      · obtain ⟨-, rfl⟩ := Prod.mk.inj (Except.error.inj h)
        exact dead_release _ e
    · split at h
      · obtain ⟨-, rfl⟩ := Prod.mk.inj (Except.error.inj h)
        exact dead_blockRepo he
      · split at h
        · cases h
        · obtain ⟨-, rfl⟩ := Prod.mk.inj (Except.error.inj h)
          exact dead_release _ e

theorem analyzeAndPost_fails {texts : Texts} {c : CycleInput} {answers : Answers} {existing : Option IssueRecord}
    {hash : Option String} {records : Records} {s : Settling} {e : Entry} {message : String}
    (h : answers.analysis = .error message ∨ ∃ bodyHash, answers.analysis = .ok bodyHash ∧
      answers.post = .error message ∧
      (c.force = false → ∀ f, existing = some f → f.status = .posted → f.bodyHash ≠ some bodyHash)) :
    FailedRecord (analyzeAndPost texts c answers existing hash records s e).1 e.key ∧
      Dead (analyzeAndPost texts c answers existing hash records s e).2.ledger e.key ∧
      e.key ∈ (analyzeAndPost texts c answers existing hash records s e).2.settled := by
  have hwrite (input : IssueRecord) (hkey : input.key = e.key) (hstatus : input.status = .failed) :
      FailedRecord (recordIssueEnrichment texts records input) e.key :=
    failedRecord_recordIssueEnrichment texts records hkey hstatus
  unfold analyzeAndPost
  rcases h with hanalysis | ⟨bodyHash, hanalysis, hpost, hother⟩
  · rw [hanalysis]
    exact ⟨hwrite _ rfl rfl, dead_release _ e, List.mem_cons_self⟩
  · have hnone : (existing.filter fun f =>
        !c.force && (f.status = .posted && f.bodyHash = some bodyHash)) = none := by
      rw [Option.filter_eq_none_iff]
      intro f hf hsame
      simp only [Bool.and_eq_true, Bool.not_eq_true', decide_eq_true_eq] at hsame
      exact hother hsame.1 f hf hsame.2.1 hsame.2.2
    rw [hanalysis]
    dsimp only
    rw [hnone, hpost]
    exact ⟨hwrite _ rfl rfl, dead_release _ e, List.mem_cons_self⟩

theorem settleAdmitted_of_roundFails {texts : Texts} {c : CycleInput} {answers : Answers} {records : Records}
    {s : Settling} {e : Entry} {reason : Reason} (he : e ∈ s.ledger.entries)
    (h : RoundFails texts c answers records s e reason) :
    FailedRecord (settleAdmitted texts c answers records s e reason).1 e.key ∧
      Dead (settleAdmitted texts c answers records s e reason).2.ledger e.key ∧
      e.key ∈ (settleAdmitted texts c answers records s e reason).2.settled := by
  cases h with
  | @collecting message s' hcollect =>
    have hdead := collectEvidence_dead he hcollect
    unfold settleAdmitted
    rw [hcollect]
    exact ⟨failedRecord_recordIssueEnrichment texts records rfl rfl, hdead, List.mem_cons_self⟩
  | @posting s' message hcollect hprobe hlive hposts hskip hfails =>
    unfold settleAdmitted
    rw [hcollect]
    dsimp only
    have hnone : ((getIssueEnrichmentRecord records e.item.repo e.item.issue.number).filter fun f =>
        !c.force && shouldSkipIssueEnrichmentRecord f e.item.issue.updatedAt c.checkedAt
          (if (getIssueEnrichmentRecord records e.item.repo e.item.issue.number).any fun f =>
              shouldCompareIssueEnrichmentAnalysisInputHash f ||
                shouldBackfillIssueEnrichmentAnalysisInputHash f e.item.issue.updatedAt
            then some answers.identityHash else none) e.item.action) = none := by
      rw [Option.filter_eq_none_iff]
      intro f hf hskipped
      obtain ⟨hforce, hskipped⟩ := Bool.and_eq_true_iff.mp hskipped
      rw [hf, Option.any_some, hskip (by simpa using hforce) f hf] at hskipped
      cases hskipped
    rw [hnone]
    dsimp only
    rw [if_neg hprobe, hlive, hposts]
    exact analyzeAndPost_fails hfails

/-! ## The rest of a cycle that failed -/

/-- The settling does not come back to the issue: a round settled it, or the ledger has no entry for it. -/
def Settling.Closed (st : Settling) (key : IssueKey) : Prop :=
  (Dead st.ledger key ∧ key ∈ st.settled) ∨ ∀ e ∈ st.ledger.entries, e.key ≠ key

/-- The issue failed in this cycle: its record says so, and nothing of the cycle comes back to it. -/
structure FailedInCycle (key : IssueKey) (s : State) : Prop where
  record : FailedRecord s.records key
  phase : ∀ c, s.cycle = some c → ∃ st, c.phase = .settling st ∧ st.Closed key

theorem FailedRecord.sameAt {records records' : Records} {key : IssueKey} (h : FailedRecord records key)
    (hsame : SameAt key records records') : FailedRecord records' key := by
  unfold FailedRecord
  rw [hsame]
  exact h

theorem foldl_keepsFailed {α β : Type} {f : Records × α → β → Records × α} {key : IssueKey} {xs : List β}
    (hkeeps : ∀ p, ∀ x ∈ xs, FailedRecord p.1 key → FailedRecord (f p x).1 key) {p : Records × α}
    (h : FailedRecord p.1 key) : FailedRecord (xs.foldl f p).1 key := by
  induction xs generalizing p with
  | nil => exact h
  | cons x xs ih =>
    rw [List.foldl_cons]
    exact ih (fun q y hy => hkeeps q y (List.mem_cons_of_mem x hy)) (hkeeps p x List.mem_cons_self h)

theorem foldl_failedRecord {α β : Type} {f : Records × α → β → Records × α} {key : IssueKey} {xs : List β}
    (hkeeps : ∀ p, ∀ x ∈ xs, FailedRecord p.1 key → FailedRecord (f p x).1 key) {x : β} (hx : x ∈ xs)
    (hmakes : ∀ p, FailedRecord (f p x).1 key) (p : Records × α) : FailedRecord (xs.foldl f p).1 key := by
  obtain ⟨front, back, rfl⟩ := List.append_of_mem hx
  rw [List.foldl_append, List.foldl_cons]
  exact foldl_keepsFailed (fun q y hy => hkeeps q y (List.mem_append_right _ (List.mem_cons_of_mem x hy))) (hmakes _)

theorem settleAdmitted_keeps (texts : Texts) (c : CycleInput) (answers : Answers) (records : Records) (s : Settling)
    (e : Entry) (reason : Reason) (key : IssueKey) :
    (Dead s.ledger key → Dead (settleAdmitted texts c answers records s e reason).2.ledger key) ∧
      (key ∈ s.settled → key ∈ (settleAdmitted texts c answers records s e reason).2.settled) ∧
      (settleAdmitted texts c answers records s e reason).2.ledger.entries = s.ledger.entries := by
  obtain ⟨-, hround⟩ := settleAdmitted_round texts c answers records s e reason
  generalize settleAdmitted texts c answers records s e reason = result at hround ⊢
  obtain ⟨records', s'⟩ := result
  dsimp only at hround ⊢
  cases hround with
  | requeue sources hreason => exact ⟨fun h => h.requeue e, id, Ledger.entries_requeue _ e⟩
  | settle sources hledger ho => exact ⟨fun h => h.change hledger, List.mem_cons_of_mem _, hledger.entries⟩

theorem settleNext_step {texts : Texts} {answers : Answers} {s s' : State} {c : Cycle} {st : Settling}
    (hc : s.cycle = some c) (hphase : c.phase = .settling st) (h : settleNext texts answers s = some s') :
    (∃ e reason, st.ledger.next = (some (e, reason), st.ledger.next.2) ∧
      s' = { s with
        records :=
          (settleAdmitted texts c.input answers s.records { st with ledger := st.ledger.next.2 } e reason).1
        cycle := some { c with
          phase := .settling
            (settleAdmitted texts c.input answers s.records { st with ledger := st.ledger.next.2 } e reason).2 } }) ∨
    (st.ledger.next = (none, st.ledger.next.2) ∧ s' = finishCycle texts c { st with ledger := st.ledger.next.2 } s) := by
  unfold settleNext at h
  simp only [hc, Option.bind_eq_bind, Option.bind_some, hphase] at h
  cases hnext : st.ledger.next with
  | mk out ledger =>
    rw [hnext] at h
    cases out with
    | none =>
      obtain rfl := Option.some.inj h
      exact .inr ⟨rfl, rfl⟩
    | some handed =>
      obtain ⟨e, reason⟩ := handed
      obtain rfl := Option.some.inj h
      exact .inl ⟨e, reason, rfl, rfl⟩

theorem map_fst_snapshotFrom (l : Ledger) (u : Usage) (es : List Entry) : (l.snapshotFrom u es).map (·.1) = es := by
  induction es generalizing u with
  | nil => rfl
  | cons e es ih =>
    rw [Ledger.snapshotFrom]
    split
    · rw [List.map_cons, ih]
    · split
      · rw [List.map_cons, ih]
      · split
        · rw [List.map_cons, ih]
        · split
          · rw [List.map_cons, ih]
          · split
            · rw [List.map_cons, ih]
            · split
              · rw [List.map_cons, ih]
              · rw [List.map_cons, ih]

theorem Settling.Closed.settleNext {texts : Texts} {answers : Answers} {s s' : State} {c : Cycle} {st : Settling}
    {key : IssueKey} (h : st.Closed key) (hc : s.cycle = some c) (hphase : c.phase = .settling st)
    (hstep : NeonDiff.Enrichment.settleNext texts answers s = some s') :
    SameAt key s.records s'.records ∧ ∀ c', s'.cycle = some c' → ∃ st', c'.phase = .settling st' ∧ st'.Closed key := by
  have hframe := (next_frame st.ledger).1
  rcases settleNext_step hc hphase hstep with ⟨e, reason, hnext, rfl⟩ | ⟨-, rfl⟩
  · have hkey : e.key ≠ key := by
      rcases h with ⟨hdead, -⟩ | hentries
      · rintro rfl
        exact next_alive hnext hdead
      · exact hentries e (mem_entries_of_next hnext)
    have hkeeps := settleAdmitted_keeps texts c.input answers s.records { st with ledger := st.ledger.next.2 } e reason
      key
    refine ⟨settleAdmitted_sameAt _ _ _ _ _ _ hkey, ?_⟩
    intro c' hc'
    obtain rfl := Option.some.inj hc'
    refine ⟨_, rfl, ?_⟩
    rcases h with ⟨hdead, hsettled⟩ | hentries
    · exact .inl ⟨hkeeps.1 (dead_next.mpr hdead), hkeeps.2.1 hsettled⟩
    · refine .inr ?_
      rw [hkeeps.2.2, hframe]
      exact hentries
  · refine ⟨?_, by simp [finishCycle]⟩
    refine foldl_sameAt _ (fun p d hd => settleDecision_sameAt texts c.input p fun heq => ?_) (s.records, st.out)
    rcases h with ⟨-, hsettled⟩ | hentries
    · exact hsettled
    · have hmem : d.1 ∈ st.ledger.next.2.snapshot.map (·.1) := List.mem_map_of_mem hd
      rw [show st.ledger.next.2.snapshot.map (·.1) = st.ledger.next.2.entries from map_fst_snapshotFrom _ _ _,
        hframe] at hmem
      exact absurd heq (hentries d.1 hmem)

theorem failedInCycle_step {texts : Texts} {key : IssueKey} {s s' : State} {l : Label} (h : FailedInCycle key s)
    (hin : InCycle key s l) (hstep : step texts s l = some s') : FailedInCycle key s' := by
  obtain ⟨c, hc⟩ := Option.isSome_iff_exists.mp hin.1
  obtain ⟨st, hphase, hclosed⟩ := h.phase c hc
  cases l with
  | tick now =>
    simp only [step] at hstep
    split at hstep
    · obtain rfl := Option.some.inj hstep
      exact ⟨h.record, h.phase⟩
    · cases hstep
  | change repo issue =>
    obtain rfl := Option.some.inj hstep
    exact ⟨h.record, h.phase⟩
  | start config dryRun => simp [step, beginCycle, hc] at hstep
  | readPage answers => simp [step, readPage, hc, hphase] at hstep
  | readFails => simp [step, readFails, hc, hphase] at hstep
  | planSettling => simp [step, planSettling, hc, hphase] at hstep
  | abort =>
    simp only [step, hc, Option.isSome_some, if_true] at hstep
    obtain rfl := Option.some.inj hstep
    exact ⟨h.record, by simp⟩
  | settleNext answers =>
    obtain ⟨hsame, hclosed'⟩ := hclosed.settleNext hc hphase hstep
    exact ⟨h.record.sameAt hsame, hclosed'⟩

theorem finish_blocked {texts : Texts} {c : CycleInput} {l : Ledger} {settled : List IssueKey} {e : Entry}
    (hkeys : (l.entries.map Entry.key).Nodup) (hlive : c.dryRun = false) (hsettled : e.key ∉ settled)
    (he : (e, .repositoryBlocked) ∈ l.snapshot) (p : Records × List CycleItem) :
    FailedRecord (l.snapshot.foldl (settleDecision texts c settled) p).1 e.key := by
  obtain ⟨front, back, hsplit⟩ := List.append_of_mem he
  have hentries := map_fst_snapshotFrom l l.currentUsage l.entries
  change l.snapshot.map (·.1) = l.entries at hentries
  -- no other decision of the snapshot is about the issue
  have hback : ∀ d ∈ back, d.1.key ≠ e.key := by
    rw [← hentries, hsplit, List.map_map, List.map_append, List.map_cons, List.nodup_append] at hkeys
    intro d hd heq
    apply (List.nodup_cons.mp hkeys.2.1).1
    exact List.mem_map.mpr ⟨d, hd, heq⟩
  rw [hsplit, List.foldl_append, List.foldl_cons]
  apply FailedRecord.sameAt _ (foldl_sameAt back (fun p d hd => settleDecision_sameAt texts c p fun heq =>
    absurd heq (hback d hd)) _)
  generalize front.foldl (settleDecision texts c settled) p = q
  unfold settleDecision
  dsimp only
  rw [if_neg (by simp [hsettled]), if_neg (by decide), if_pos rfl]
  unfold record
  rw [hlive]
  exact failedRecord_recordIssueEnrichment texts q.1 rfl rfl

def KeysApart (s : State) : Prop :=
  ∀ c st, s.cycle = some c → c.phase = .settling st → (st.ledger.entries.map Entry.key).Nodup

theorem failedInCycle_of_processingFails {texts : Texts} {key : IssueKey} {s s' : State} {l : Label}
    (hapart : KeysApart s) (h : ProcessingFails texts key s l) (hstep : step texts s l = some s') :
    FailedInCycle key s' := by
  cases h with
  | @round answers c st e reason ledger hc hphase hnext hkey hfails =>
    subst hkey
    have hledger : st.ledger.next.2 = ledger := by rw [hnext]
    have he : e ∈ ledger.entries := by
      rw [← hledger, (next_frame st.ledger).1]
      exact mem_entries_of_next hnext
    obtain ⟨hrecord, hdead, hsettled⟩ := settleAdmitted_of_roundFails (s := { st with ledger }) he hfails
    rcases settleNext_step hc hphase hstep with ⟨e', reason', hnext', rfl⟩ | ⟨hnext', -⟩
    · obtain ⟨rfl, rfl⟩ := Prod.mk.inj (Option.some.inj (congrArg Prod.fst (hnext.symm.trans hnext')))
      rw [hledger]
      refine ⟨hrecord, ?_⟩
      intro c' hc'
      obtain rfl := Option.some.inj hc'
      exact ⟨_, rfl, .inl ⟨hdead, hsettled⟩⟩
    · rw [hnext] at hnext'
      cases congrArg Prod.fst hnext'
  | @blocked answers c st e ledger hc hphase hnext hlive hsettled he hkey =>
    subst hkey
    have hledger : st.ledger.next.2 = ledger := by rw [hnext]
    rcases settleNext_step hc hphase hstep with ⟨e', reason', hnext', -⟩ | ⟨-, rfl⟩
    · rw [hnext] at hnext'
      cases congrArg Prod.fst hnext'
    · rw [hledger]
      refine ⟨?_, by simp [finishCycle]⟩
      have hkeys : (ledger.entries.map Entry.key).Nodup := by
        rw [← hledger, (next_frame st.ledger).1]
        exact hapart c st hc hphase
      exact finish_blocked hkeys hlive hsettled he (s.records, st.out)

theorem readPage_cases {texts : Texts} {answers : Issue → IssueAnswers} {s s' : State}
    (h : readPage texts answers s = some s') :
    ∃ c repo todo pagesRead reading scans, s.cycle = some c ∧
      c.phase = .scanning (repo :: todo) pagesRead reading scans ∧
      ((resolveIssueEnrichmentRepoPolicy texts c.input.config repo).allowed = false ∧
        s' = { s with cycle := some { c with phase := .scanning todo 0 {} (scans ++ [{ repo, allowed := false }]) } } ∨
      (resolveIssueEnrichmentRepoPolicy texts c.input.config repo).allowed = true ∧
        ((∃ truncated, s' = { s with
          records := (qualifyPage texts c.input repo answers s.records reading (c.input.chunk texts repo pagesRead s)).1
          cycle := some { c with
            phase := .scanning todo 0 {} (scans ++ [{
              repo, truncated
              reading :=
                (qualifyPage texts c.input repo answers s.records reading (c.input.chunk texts repo pagesRead s)).2 }]) } }) ∨
        s' = { s with
          records := (qualifyPage texts c.input repo answers s.records reading (c.input.chunk texts repo pagesRead s)).1
          cycle := some { c with
            phase := .scanning (repo :: todo) (pagesRead + 1)
              (qualifyPage texts c.input repo answers s.records reading (c.input.chunk texts repo pagesRead s)).2
              scans } })) := by
  obtain ⟨c, hc, h⟩ := Option.bind_eq_some_iff.mp h
  split at h
  · cases h
  · cases h
  · rename_i repo todo pagesRead reading scans hphase
    refine ⟨c, repo, todo, pagesRead, reading, scans, hc, hphase, ?_⟩
    split at h
    · rename_i hnot
      exact .inl ⟨by simpa using hnot, (Option.some.inj h).symm⟩
    · rename_i hallowed
      refine .inr ⟨by simpa using hallowed, ?_⟩
      dsimp only at h
      split at h
      · exact .inl ⟨false, (Option.some.inj h).symm⟩
      · split at h
        · exact .inl ⟨true, (Option.some.inj h).symm⟩
        · exact .inr (Option.some.inj h).symm

theorem readFails_cases {texts : Texts} {s s' : State} (h : readFails texts s = some s') :
    ∃ c repo todo pagesRead reading scans, s.cycle = some c ∧
      c.phase = .scanning (repo :: todo) pagesRead reading scans ∧
      s' = { s with cycle := some { c with phase := .scanning todo 0 {} (scans ++ [{ repo, ok := false }]) } } := by
  obtain ⟨c, hc, h⟩ := Option.bind_eq_some_iff.mp h
  split at h
  · cases h
  · cases h
  · rename_i repo todo pagesRead reading scans hphase
    split at h
    · exact ⟨c, repo, todo, pagesRead, reading, scans, hc, hphase, (Option.some.inj h).symm⟩
    · cases h

theorem keysApart_step {texts : Texts} {s s' : State} {l : Label} (h : KeysApart s) (hstep : step texts s l = some s') :
    KeysApart s' := by
  intro c' st' hc' hphase'
  cases l with
  | tick now =>
    simp only [step] at hstep
    split at hstep
    · obtain rfl := Option.some.inj hstep
      exact h c' st' hc' hphase'
    · cases hstep
  | change repo issue =>
    obtain rfl := Option.some.inj hstep
    exact h c' st' hc' hphase'
  | start config dryRun =>
    obtain ⟨-, rfl⟩ := beginCycle_eq_some.mp hstep
    obtain rfl := Option.some.inj hc'
    cases hphase'
  | readPage answers =>
    obtain ⟨c, repo, todo, pagesRead, reading, scans, hc, hphase, hcases⟩ := readPage_cases hstep
    rcases hcases with ⟨-, rfl⟩ | ⟨-, ⟨truncated, rfl⟩ | rfl⟩
    all_goals
      obtain rfl := Option.some.inj hc'
      cases hphase'
  | readFails =>
    obtain ⟨c, repo, todo, pagesRead, reading, scans, hc, hphase, rfl⟩ := readFails_cases hstep
    obtain rfl := Option.some.inj hc'
    cases hphase'
  | planSettling =>
    obtain ⟨c, hc, -⟩ := Option.bind_eq_some_iff.mp hstep
    cases hphase : c.phase with
    | settling st => simp [step, planSettling, hc, hphase] at hstep
    | scanning todo pagesRead reading scans =>
      cases todo with
      | cons repo todo => simp [step, planSettling, hc, hphase] at hstep
      | nil =>
        rcases planSettling_accounts hc hphase hstep with rfl | ⟨records, st, rfl, -, haccounts⟩
        · cases hc'
        · obtain rfl := Option.some.inj hc'
          obtain rfl := Phase.settling.inj hphase'
          exact haccounts.ledger.keys
  | settleNext answers =>
    obtain ⟨c, hc, -⟩ := Option.bind_eq_some_iff.mp hstep
    cases hphase : c.phase with
    | scanning todo pagesRead reading scans => simp [step, settleNext, hc, hphase] at hstep
    | settling st =>
      rcases settleNext_step hc hphase hstep with ⟨e, reason, hnext, rfl⟩ | ⟨hnext, rfl⟩
      · obtain rfl := Option.some.inj hc'
        obtain rfl := Phase.settling.inj hphase'
        have hentries := (settleAdmitted_keeps texts c.input answers s.records
          { st with ledger := st.ledger.next.2 } e reason e.key).2.2
        rw [hentries, (next_frame st.ledger).1]
        exact h c st hc hphase
      · cases hc'
  | abort =>
    simp only [step] at hstep
    split at hstep
    · obtain rfl := Option.some.inj hstep
      cases hc'
    · cases hstep

/-! ## While the cycle reads -/

def Reading.Preserves (r : Reading) (number : Nat) : Prop :=
  number ∈ r.failed → number ∈ r.preservedEventReadFailures

structure FailedReads (c : CycleInput) (number : Nat) (r r' : Reading) : Prop where
  failed : number ∈ r.failed → number ∈ r'.failed
  preserves : c.force = false → r.Preserves number → r'.Preserves number

theorem FailedReads.of_eq {c : CycleInput} {number : Nat} {r r' : Reading}
    (h : r'.eventReadFailures = r.eventReadFailures)
    (h' : r'.preservedEventReadFailures = r.preservedEventReadFailures) : FailedReads c number r r' := by
  constructor
  · unfold Reading.failed
    rw [h]
    exact id
  · unfold Reading.Preserves Reading.failed
    rw [h, h']
    exact fun _ => id

theorem prepareFromEvents_failedReads (texts : Texts) (c : CycleInput) (override : RepoOverride)
    (answers : IssueAnswers) (number : Nat) (recordStands : Bool) (r : Reading) (issue : Issue)
    (h : c.force = false → issue.number = number → recordStands = true) :
    FailedReads c number r (prepareFromEvents texts override answers recordStands r issue) := by
  unfold prepareFromEvents
  split
  · constructor
    · exact List.mem_cons_of_mem _
    · intro hforce hpreserves hfailed
      have hfailed : number ∈ issue.number :: r.failed := hfailed
      dsimp only
      by_cases heq : issue.number = number
      · rw [if_pos (h hforce heq), heq]
        exact List.mem_cons_self
      · have hold : number ∈ r.preservedEventReadFailures :=
          hpreserves ((List.mem_cons.mp hfailed).resolve_left (Ne.symm heq))
        split
        · exact List.mem_cons_of_mem _ hold
        · exact hold
  · split
    · exact .of_eq rfl rfl
    · exact .of_eq rfl rfl

theorem qualifyPrepared_failedReads (texts : Texts) (c : CycleInput) (override : RepoOverride) (cap : Nat)
    (answers : IssueAnswers) (existing : Option IssueRecord) (r : Reading) (issue : Issue) (number : Nat)
    (h : c.force = false → issue.number = number →
      ∃ f, existing = some f ∧ f.status = .posted ∧ f.issueUpdatedAt = some issue.updatedAt) :
    FailedReads c number r (qualifyPrepared texts c override cap answers existing r issue) := by
  unfold qualifyPrepared
  extract_lets preview sameIdentity activeDeferred promotionNeedsEvents unchangedPosted postedProbes
  split_ifs
  · exact .of_eq rfl rfl
  · exact .of_eq rfl rfl
  · exact .of_eq rfl rfl
  · exact .of_eq rfl rfl
  · exact .of_eq rfl rfl
  · exact .of_eq rfl rfl
  · have hprepared := prepareFromEvents_failedReads texts c override answers number
      (sameIdentity && existing.any fun f => f.status ≠ .failed) { r with postedProbes } issue (by
        intro hforce heq
        obtain ⟨f, rfl, hstatus, hsame⟩ := h hforce heq
        simp [sameIdentity, hstatus, hsame])
    exact ⟨hprepared.failed, hprepared.preserves⟩

theorem clearAuthorGateSkip_posted {records : Records} {key : IssueKey} {f : IssueRecord}
    (h : getIssueEnrichmentRecord records key.1 key.2 = some f) (hposted : f.status = .posted) (repo : String)
    (number : Nat) :
    getIssueEnrichmentRecord (clearIssueEnrichmentAuthorGateSkip records repo number) key.1 key.2 = some f := by
  unfold getIssueEnrichmentRecord clearIssueEnrichmentAuthorGateSkip at *
  rw [Table.find?_delete, h]
  simp [hposted]

section
variable {key : IssueKey} {f : IssueRecord} {records : Records}

theorem qualifyForMinimum_posted (texts : Texts) (c : CycleInput) (repo : String) (cap : Nat) (answers : IssueAnswers)
    (h : getIssueEnrichmentRecord records key.1 key.2 = some f) (hposted : f.status = .posted) (r : Reading)
    {issue : Issue} (hissue : repo = key.1 → issue.number = key.2 → f.issueUpdatedAt = some issue.updatedAt) :
    getIssueEnrichmentRecord (qualifyForMinimum texts c repo cap answers records r issue).1 key.1 key.2 = some f ∧
      (repo = key.1 → FailedReads c key.2 r (qualifyForMinimum texts c repo cap answers records r issue).2) := by
  unfold qualifyForMinimum
  dsimp only
  split
  · exact ⟨h, fun _ => .of_eq rfl rfl⟩
  · constructor
    · dsimp only
      split
      · exact clearAuthorGateSkip_posted h hposted repo issue.number
      · exact h
    · intro hrepo
      have hprepared := qualifyPrepared_failedReads texts c ((c.config.override repo).getD {}) cap answers
        (if (!isIssueAuthorGated texts c.config.authorGate issue answers.repository &&
          (getIssueEnrichmentRecord (c.knownRecords records) repo issue.number).any fun f =>
            f.status = .skipped && f.reason = some .untrustedAuthorPublicRepo) = true then none
          else getIssueEnrichmentRecord (c.knownRecords records) repo issue.number)
        { r with listed := r.listed ++ [issue] } issue key.2 (by
          intro hforce hnumber
          have hknown : c.knownRecords records = records := by simp [CycleInput.knownRecords, hforce]
          refine ⟨f, ?_, hposted, hissue hrepo hnumber⟩
          rw [hknown, hrepo, hnumber, h]
          simp [hposted])
      exact ⟨hprepared.failed, hprepared.preserves⟩

theorem qualifyPage_posted (texts : Texts) (c : CycleInput) (repo : String) (answers : Issue → IssueAnswers)
    (h : getIssueEnrichmentRecord records key.1 key.2 = some f) (hposted : f.status = .posted) (r : Reading)
    (chunk : List Issue)
    (hchunk : repo = key.1 → ∀ x ∈ chunk, x.number = key.2 → f.issueUpdatedAt = some x.updatedAt) :
    getIssueEnrichmentRecord (qualifyPage texts c repo answers records r chunk).1 key.1 key.2 = some f ∧
      (repo = key.1 → FailedReads c key.2 r (qualifyPage texts c repo answers records r chunk).2) := by
  have hissues : repo = key.1 → ∀ x ∈ chunk.filter (fun i => !i.pullRequest), x.number = key.2 →
      f.issueUpdatedAt = some x.updatedAt := fun hrepo x hx => hchunk hrepo x (List.mem_of_mem_filter hx)
  unfold qualifyPage
  generalize chunk.filter (fun i => !i.pullRequest) = issues at hissues ⊢
  induction issues generalizing records r with
  | nil => exact ⟨h, fun _ => .of_eq rfl rfl⟩
  | cons issue issues ih =>
    obtain ⟨hrecord, hreads⟩ := qualifyForMinimum_posted texts c repo
      (buildIssueScanMinIssueResults (c.throttle texts repo)) (answers issue) h hposted r
      (fun hrepo => hissues hrepo issue List.mem_cons_self)
    obtain ⟨hrest, hrestReads⟩ := ih hrecord (qualifyForMinimum texts c repo
      (buildIssueScanMinIssueResults (c.throttle texts repo)) (answers issue) records r issue).2
      (fun hrepo x hx => hissues hrepo x (List.mem_cons_of_mem issue hx))
    rw [List.foldl_cons]
    refine ⟨hrest, fun hrepo => ⟨?_, ?_⟩⟩
    · exact fun hfailed => (hrestReads hrepo).failed ((hreads hrepo).failed hfailed)
    · exact fun hforce hpreserves => (hrestReads hrepo).preserves hforce ((hreads hrepo).preserves hforce hpreserves)

end

/-- What a forced scan gathers: it finds no record, so that none settles an issue or keeps a failed read. -/
structure Reading.Forced (r : Reading) : Prop where
  settled : r.settledSkipped = []
  preserved : r.preservedEventReadFailures = []
  failed : ∀ number ∈ r.failed, ∃ x ∈ r.listed, x.number = number

theorem Reading.forced_empty : Reading.Forced {} := ⟨rfl, rfl, by simp [Reading.failed]⟩

theorem Reading.Forced.of_eq {r r' : Reading} (h : r.Forced) (hsettled : r'.settledSkipped = r.settledSkipped)
    (hpreserved : r'.preservedEventReadFailures = r.preservedEventReadFailures)
    (hfailures : r'.eventReadFailures = r.eventReadFailures) (hlisted : r'.listed = r.listed) : r'.Forced where
  settled := hsettled.trans h.settled
  preserved := hpreserved.trans h.preserved
  failed := by
    unfold Reading.failed
    rw [hfailures, hlisted]
    exact h.failed

section
variable (texts : Texts) {r : Reading} {issue : Issue} (h : r.Forced) (hissue : issue ∈ r.listed)
include h hissue

theorem prepareFromEvents_forced (override : RepoOverride) (answers : IssueAnswers) :
    (prepareFromEvents texts override answers false r issue).Forced := by
  unfold prepareFromEvents
  split
  · refine ⟨h.settled, h.preserved, ?_⟩
    intro number hnumber
    rcases List.mem_cons.mp hnumber with rfl | hnumber
    · exact ⟨issue, hissue, rfl⟩
    · exact h.failed number hnumber
  · split
    · exact h.of_eq rfl rfl rfl rfl
    · exact h.of_eq rfl rfl rfl rfl

theorem qualifyPrepared_forced (c : CycleInput) (override : RepoOverride) (cap : Nat) (answers : IssueAnswers) :
    (qualifyPrepared texts c override cap answers none r issue).Forced := by
  unfold qualifyPrepared
  simp only [Option.any_none, Bool.false_and, Bool.and_false, Bool.false_eq_true, if_false]
  split_ifs
  · exact h.of_eq rfl rfl rfl rfl
  · exact h.of_eq rfl rfl rfl rfl
  · exact h.of_eq rfl rfl rfl rfl
  · exact prepareFromEvents_forced texts (h.of_eq rfl rfl rfl rfl) hissue override answers

end

theorem qualifyForMinimum_forced (texts : Texts) {c : CycleInput} (hforce : c.force = true) (repo : String) (cap : Nat)
    (answers : IssueAnswers) (records : Records) {r : Reading} (h : r.Forced) (issue : Issue) :
    (qualifyForMinimum texts c repo cap answers records r issue).2.Forced := by
  have hnone : getIssueEnrichmentRecord (c.knownRecords records) repo issue.number = none := by
    simp [CycleInput.knownRecords, hforce, getIssueEnrichmentRecord]
  have hlisted : Reading.Forced { r with listed := r.listed ++ [issue] } := by
    refine ⟨h.settled, h.preserved, ?_⟩
    intro number hnumber
    obtain ⟨x, hx, heq⟩ := h.failed number hnumber
    exact ⟨x, List.mem_append_left _ hx, heq⟩
  unfold qualifyForMinimum
  dsimp only
  rw [hnone]
  simp only [Option.any_none, Bool.and_false, Bool.false_eq_true, if_false]
  exact qualifyPrepared_forced texts hlisted (List.mem_append_right _ List.mem_cons_self) c _ cap answers

theorem qualifyPage_forced (texts : Texts) {c : CycleInput} (hforce : c.force = true) (repo : String)
    (answers : Issue → IssueAnswers) (records : Records) {r : Reading} (h : r.Forced) (chunk : List Issue) :
    (qualifyPage texts c repo answers records r chunk).2.Forced := by
  unfold qualifyPage
  generalize chunk.filter (fun i => !i.pullRequest) = issues
  induction issues generalizing records r with
  | nil => exact h
  | cons issue issues ih =>
    rw [List.foldl_cons]
    exact ih _ (qualifyForMinimum_forced texts hforce repo _ (answers issue) records h issue)

/-- What is gathered for a repository: `own` says that it is the one of the issue. -/
structure Reading.Gathered (r : Reading) (c : CycleInput) (own : Prop) (number : Nat) : Prop where
  sound : r.Sound
  preserves : own → c.force = false → r.Preserves number
  forced : c.force = true → r.Forced

theorem Reading.gathered_empty (c : CycleInput) (own : Prop) (number : Nat) : Reading.Gathered {} c own number where
  sound := Reading.sound_empty
  preserves := by
    intro _ _ h
    cases h
  forced := fun _ => Reading.forced_empty

structure Scanning (key : IssueKey) (f : IssueRecord) (c : CycleInput) (s : State) (todo : List String)
    (reading : Reading) (scans : List RepoScan) : Prop where
  record : getIssueEnrichmentRecord s.records key.1 key.2 = some f
  rows : ∀ x ∈ (s.issues key.1).rows, x.number = key.2 → f.issueUpdatedAt = some x.updatedAt
  repos : (scans.map (·.repo) ++ todo).Nodup
  scanned : ∀ scan ∈ scans, scan.reading.Gathered c (scan.repo = key.1) key.2
  reading : reading.Gathered c (todo.head? = some key.1) key.2

def WhileScanning (key : IssueKey) (f : IssueRecord) (s : State) : Prop :=
  ∀ c todo pagesRead reading scans, s.cycle = some c → c.phase = .scanning todo pagesRead reading scans →
    Scanning key f c.input s todo reading scans

/-- The scan of the repository failed, or could not read the label events of the issue. -/
def Unread (key : IssueKey) (scan : RepoScan) : Prop :=
  scan.repo = key.1 ∧ (scan.reading = {} ∨ key.2 ∈ scan.reading.failed)

def ReadingFailed (key : IssueKey) (todo : List String) (reading : Reading) (scans : List RepoScan) : Prop :=
  (∃ scan ∈ scans, Unread key scan) ∨ (todo.head? = some key.1 ∧ key.2 ∈ reading.failed)

section
variable {texts : Texts} {key : IssueKey} {f : IssueRecord} {s : State} {c : Cycle} {input : CycleInput}
  {repo : String} {todo : List String}
  {pagesRead : Nat} {reading : Reading} {scans : List RepoScan}

theorem Scanning.finish (h : Scanning key f input s (repo :: todo) reading scans) {records : Records}
    {cycle : Option Cycle} (hrecord : getIssueEnrichmentRecord records key.1 key.2 = some f) {scan : RepoScan}
    (hrepo : scan.repo = repo) (hscan : scan.reading.Gathered input (scan.repo = key.1) key.2) :
    Scanning key f input { s with records, cycle } todo {} (scans ++ [scan]) where
  record := hrecord
  rows := h.rows
  repos := by
    have hnodup := h.repos
    rw [List.map_append, List.map_singleton, hrepo, List.append_assoc]
    exact hnodup
  scanned := by
    intro other hother
    rcases List.mem_append.mp hother with hother | hother
    · exact h.scanned other hother
    · rw [List.mem_singleton.mp hother]
      exact hscan
  reading := Reading.gathered_empty _ _ _

theorem ReadingFailed.finish (h : ReadingFailed key (repo :: todo) reading scans) {scan : RepoScan}
    (hrepo : scan.repo = repo) (hscan : repo = key.1 → key.2 ∈ reading.failed →
      scan.reading = {} ∨ key.2 ∈ scan.reading.failed) (reading' : Reading) :
    ReadingFailed key todo reading' (scans ++ [scan]) := by
  rcases h with ⟨other, hother, hunread⟩ | ⟨hhead, hfailed⟩
  · exact .inl ⟨other, List.mem_append_left _ hother, hunread⟩
  · have hkey : repo = key.1 := Option.some.inj hhead
    exact .inl ⟨scan, List.mem_append_right _ List.mem_cons_self, hrepo.trans hkey, hscan hkey hfailed⟩

theorem Reading.Gathered.page {own : Prop} (h : reading.Gathered input own key.2) (answers : Issue → IssueAnswers)
    {records : Records} {chunk : List Issue} (hreads : own → FailedReads input key.2 reading
      (qualifyPage texts input repo answers records reading chunk).2) :
    (qualifyPage texts input repo answers records reading chunk).2.Gathered input own key.2 where
  sound := (qualifyPage_listed texts input repo answers records h.sound chunk).2
  preserves := fun hown hforce => (hreads hown).preserves hforce (h.preserves hown hforce)
  forced := fun hforce => qualifyPage_forced texts hforce repo answers records (h.forced hforce) chunk

theorem head_eq_iff : (repo :: todo).head? = some key.1 ↔ repo = key.1 := by simp

theorem scanning_read {s' : State} {l : Label} (hposted : f.status = .posted)
    (h : Scanning key f c.input s todo reading scans) (hc : s.cycle = some c)
    (hphase : c.phase = .scanning todo pagesRead reading scans)
    (hl : (∃ answers, l = .readPage answers) ∨ l = .readFails) (hstep : step texts s l = some s') :
    ∃ c' todo' pagesRead' reading' scans', s'.cycle = some c' ∧ c'.phase = .scanning todo' pagesRead' reading' scans' ∧
      Scanning key f c'.input s' todo' reading' scans' ∧
      (ReadingFailed key todo reading scans ∨ ReadingFails texts key s l → ReadingFailed key todo' reading' scans') := by
  rcases hl with ⟨answers, rfl⟩ | rfl
  · obtain ⟨c', repo, todo', pagesRead', reading', scans', hc', hphase', hcases⟩ := readPage_cases hstep
    obtain rfl := Option.some.inj (hc.symm.trans hc')
    obtain ⟨rfl, rfl, rfl, rfl⟩ := Phase.scanning.inj (hphase.symm.trans hphase')
    have hpage := qualifyPage_posted texts c.input repo answers h.record hposted reading
      (c.input.chunk texts repo pagesRead s)
      (fun hrepo x hx hnumber => h.rows x (hrepo ▸ mem_chunk hx) hnumber)
    rcases hcases with ⟨hnot, rfl⟩ | ⟨hallowed, ⟨truncated, rfl⟩ | rfl⟩
    · refine ⟨_, _, _, _, _, rfl, rfl, h.finish h.record rfl (Reading.gathered_empty _ _ _), ?_⟩
      rintro (hfailed | hfails)
      · exact hfailed.finish rfl (fun _ _ => .inl rfl) {}
      · cases hfails with
        | @events _ c' _ _ _ _ hc' hphase' hallowed =>
          obtain rfl := Option.some.inj (hc.symm.trans hc')
          obtain ⟨htodo, -⟩ := Phase.scanning.inj (hphase.symm.trans hphase')
          rw [(List.cons.inj htodo).1, hallowed] at hnot
          cases hnot
    · refine ⟨_, _, _, _, _, rfl, rfl, h.finish hpage.1 rfl ?_, ?_⟩
      · have hreading := h.reading
        simp only [head_eq_iff] at hreading
        exact hreading.page answers hpage.2
      · rintro (hfailed | hfails)
        · exact hfailed.finish rfl (fun hrepo hmem => .inr ((hpage.2 hrepo).failed hmem)) {}
        · cases hfails with
          | @events _ c' _ _ _ _ hc' hphase' _ hmem =>
            obtain rfl := Option.some.inj (hc.symm.trans hc')
            obtain ⟨htodo, rfl, rfl, rfl⟩ := Phase.scanning.inj (hphase.symm.trans hphase')
            obtain ⟨rfl, rfl⟩ := List.cons.inj htodo
            exact .inl ⟨_, List.mem_append_right _ List.mem_cons_self, rfl, .inr hmem⟩
    · refine ⟨_, _, _, _, _, rfl, rfl, ⟨hpage.1, h.rows, h.repos, h.scanned, ?_⟩, ?_⟩
      · exact h.reading.page answers fun hhead => hpage.2 (Option.some.inj hhead)
      · rintro (hfailed | hfails)
        · rcases hfailed with hscan | ⟨hhead, hmem⟩
          · exact .inl hscan
          · exact .inr ⟨hhead, (hpage.2 (Option.some.inj hhead)).failed hmem⟩
        · cases hfails with
          | @events _ c' _ _ _ _ hc' hphase' _ hmem =>
            obtain rfl := Option.some.inj (hc.symm.trans hc')
            obtain ⟨htodo, rfl, rfl, rfl⟩ := Phase.scanning.inj (hphase.symm.trans hphase')
            obtain ⟨rfl, rfl⟩ := List.cons.inj htodo
            exact .inr ⟨rfl, hmem⟩
  · obtain ⟨c', repo, todo', pagesRead', reading', scans', hc', hphase', rfl⟩ := readFails_cases hstep
    obtain rfl := Option.some.inj (hc.symm.trans hc')
    obtain ⟨rfl, rfl, rfl, rfl⟩ := Phase.scanning.inj (hphase.symm.trans hphase')
    refine ⟨_, _, _, _, _, rfl, rfl, h.finish h.record rfl (Reading.gathered_empty _ _ _), ?_⟩
    rintro (hfailed | hfails)
    · exact hfailed.finish rfl (fun _ _ => .inl rfl) {}
    · cases hfails with
      | @listing c' _ _ _ _ hc' hphase' =>
        obtain rfl := Option.some.inj (hc.symm.trans hc')
        obtain ⟨htodo, -⟩ := Phase.scanning.inj (hphase.symm.trans hphase')
        obtain ⟨rfl, -⟩ := List.cons.inj htodo
        exact .inl ⟨_, List.mem_append_right _ List.mem_cons_self, rfl, .inl rfl⟩

end

/-! ## Planning without the issue -/

theorem RepoScan.repo_of_items {texts : Texts} {config : Config} {scan : RepoScan} {item : ScanItem}
    (h : item ∈ scan.items texts config) : item.repo = scan.repo := by
  unfold RepoScan.items planRepoIssueScan at h
  obtain ⟨planned, hplanned, rfl⟩ := List.mem_map.mp h
  obtain ⟨issue, -, rfl⟩ := List.mem_map.mp hplanned
  unfold Reading.recordedSkip
  split_ifs
  all_goals split <;> rfl

theorem readFailure_isSome {r : Reading} {item : ScanItem} :
    (r.readFailure item).isSome = true ↔ item.issue.number ∈ r.failed := by
  unfold Reading.readFailure Reading.failed
  simp [List.find?_isSome]

theorem readable_key_ne (texts : Texts) (config : Config) {key : IssueKey} {scans : List RepoScan}
    (hrepos : (scans.map (·.repo)).Nodup) {scan : RepoScan} (hscan : scan ∈ scans) (hunread : Unread key scan) :
    ∀ item ∈ scans.flatMap (RepoScan.readable texts config), item.key ≠ key := by
  rintro item hitem rfl
  obtain ⟨other, hother, hreadable⟩ := List.mem_flatMap.mp hitem
  obtain ⟨hitems, hread⟩ := List.mem_filter.mp hreadable
  have hsame : other = scan := by
    apply List.inj_on_of_nodup_map hrepos hother hscan
    rw [← RepoScan.repo_of_items hitems, hunread.1]
    rfl
  subst hsame
  rcases hunread.2 with hempty | hfailed
  · unfold RepoScan.items at hitems
    rw [hempty] at hitems
    cases hitems
  · have hsome : (other.reading.readFailure item).isSome = true := readFailure_isSome.mpr hfailed
    rw [Option.isNone_iff_eq_none.mp hread] at hsome
    cases hsome

theorem settleReadFailure_keepsFailed (texts : Texts) (c : CycleInput) (scan : RepoScan) {key : IssueKey}
    (p : Records × List CycleItem) (item : ScanItem) (h : FailedRecord p.1 key) :
    FailedRecord (settleReadFailure texts c scan p item).1 key := by
  unfold settleReadFailure
  split
  · exact h
  · dsimp only
    split
    · exact h
    · unfold record
      split
      · exact h
      · by_cases hkey : item.key = key
        · exact failedRecord_recordIssueEnrichment texts p.1 hkey rfl
        · exact h.sameAt (recordIssueEnrichment_sameAt texts p.1 hkey)

theorem settleReadFailure_fails (texts : Texts) {c : CycleInput} {scan : RepoScan} {key : IssueKey}
    (p : Records × List CycleItem) {item : ScanItem} (hlive : c.dryRun = false) (hkey : item.key = key)
    (hread : (scan.reading.readFailure item).isSome = true) (hnone : scan.reading.preservedEventReadFailures = []) :
    FailedRecord (settleReadFailure texts c scan p item).1 key := by
  obtain ⟨error, herror⟩ := Option.isSome_iff_exists.mp hread
  unfold settleReadFailure record
  rw [herror, hnone, hlive]
  exact failedRecord_recordIssueEnrichment texts p.1 hkey rfl

section
variable {texts : Texts} {key : IssueKey} {f : IssueRecord} {s s' : State} {c : Cycle} {pagesRead : Nat}
  {reading : Reading} {scans : List RepoScan}

/-- The records after the loop over the failed event reads. -/
def afterReadFailures (texts : Texts) (c : CycleInput) (scans : List RepoScan) (records : Records) :
    Records × List CycleItem :=
  scans.foldl (fun p scan => (scan.items texts c.config).foldl (settleReadFailure texts c scan) p) (records, [])

theorem planSettling_apart (h : Scanning key f c.input s [] reading scans) (hc : s.cycle = some c)
    (hphase : c.phase = .scanning [] pagesRead reading scans) (hunread : ∃ scan ∈ scans, Unread key scan)
    (hstep : planSettling texts s = some s') :
    s' = { s with cycle := none } ∨
    (∃ ledger, createIssueEnrichmentAdmissionLedger texts c.input.config c.input.repos
      (c.input.knownRecords s.records) c.input.checkedAt
      (scans.flatMap (RepoScan.readable texts c.input.config)) = some ledger) ∧
      SameAt key (afterReadFailures texts c.input scans s.records).1 s'.records ∧
      ∀ c', s'.cycle = some c' → ∃ st, c'.phase = .settling st ∧ ∀ e ∈ st.ledger.entries, e.key ≠ key := by
  have hrepos : (scans.map (·.repo)).Nodup := by simpa using h.repos
  obtain ⟨scan, hscan, hunread⟩ := hunread
  have hreadable := readable_key_ne texts c.input.config hrepos hscan hunread
  unfold planSettling at hstep
  simp only [hc, Option.bind_eq_bind, Option.bind_some, hphase] at hstep
  cases hcreate : createIssueEnrichmentAdmissionLedger texts c.input.config c.input.repos
      (c.input.knownRecords s.records) c.input.checkedAt (scans.flatMap (RepoScan.readable texts c.input.config)) with
  | none =>
    rw [hcreate] at hstep
    exact .inl (Option.some.inj hstep).symm
  | some ledger =>
    rw [hcreate] at hstep
    obtain rfl := Option.some.inj hstep
    obtain ⟨-, hentries⟩ := createLedger_eq_some hcreate
    refine .inr ⟨⟨ledger, rfl⟩, ?_, ?_⟩
    · exact foldl_sameAt (scans.flatMap (RepoScan.readable texts c.input.config))
        (fun p item hitem => settleSkipped_sameAt texts c.input p (hreadable item hitem))
        (afterReadFailures texts c.input scans s.records)
    · intro c' hc'
      obtain rfl := Option.some.inj hc'
      refine ⟨_, rfl, ?_⟩
      intro e he
      dsimp only at he
      rw [hentries] at he
      obtain ⟨item, hitem, rfl⟩ := List.mem_map.mp he
      exact hreadable item (List.mem_of_mem_filter hitem)

/-- The plan leaves the record of an issue that could not be read, but for its label events in a forced live cycle. -/
theorem planSettling_unread (h : Scanning key f c.input s [] reading scans) (hc : s.cycle = some c)
    (hphase : c.phase = .scanning [] pagesRead reading scans) (hfailed : ReadingFailed key [] reading scans)
    (hnot : ¬ UnreadForced texts key s .planSettling) (hstep : planSettling texts s = some s') :
    getIssueEnrichmentRecord s'.records key.1 key.2 = some f ∧
      ∀ c', s'.cycle = some c' → ∃ st, c'.phase = .settling st ∧ ∀ e ∈ st.ledger.entries, e.key ≠ key := by
  have hunread : ∃ scan ∈ scans, Unread key scan := by
    rcases hfailed with hscan | ⟨hhead, -⟩
    · exact hscan
    · cases hhead
  rcases planSettling_apart h hc hphase hunread hstep with rfl | ⟨⟨ledger, hledger⟩, hsame, hentries⟩
  · exact ⟨h.record, by simp⟩
  · refine ⟨?_, hentries⟩
    have hfailures : SameAt key s.records (afterReadFailures texts c.input scans s.records).1 := by
      refine foldl_sameAt _ (fun p other hother => foldl_sameAt _ (fun q item hitem => ?_) p) (s.records, [])
      apply settleReadFailure_sameAt
      rintro hlive rfl hread
      have hrepo : other.repo = item.repo := (RepoScan.repo_of_items hitem).symm
      have hmem : item.issue.number ∈ other.reading.failed := readFailure_isSome.mp hread
      cases hforce : c.input.force with
      | false => exact (h.scanned other hother).preserves hrepo hforce hmem
      | true => exact absurd (.planned hc hphase hforce hlive hother hrepo hmem hledger) hnot
    exact Eq.trans (hfailures.trans hsame) h.record

theorem failedInCycle_of_unreadForced {l : Label} (hscanning : WhileScanning key f s) (h : UnreadForced texts key s l)
    (hstep : step texts s l = some s') : FailedInCycle key s' := by
  cases h with
  | @planned c pagesRead reading scans scan ledger hc hphase hforce hlive hscan hrepo hfailed hledger =>
    have h := hscanning c _ _ _ _ hc hphase
    have hgathered := h.scanned scan hscan
    have hforced := hgathered.forced hforce
    -- the issue was listed, and no record settles it, so that the scan has an item for it
    obtain ⟨x, hx, hnumber⟩ := hforced.failed key.2 hfailed
    obtain ⟨item, hitem, hitemRepo, hitemNumber⟩ : ∃ item ∈ scan.items texts c.input.config,
        item.repo = scan.repo ∧ item.issue.number = x.number := by
      rcases hgathered.sound.item texts c.input.config hx with ⟨y, hy, -⟩ | ⟨item, hitem, hr, hn, -⟩
      · rw [hforced.settled] at hy
        cases hy
      · exact ⟨item, hitem, hr, hn⟩
    have hkey : item.key = key := Prod.ext (hitemRepo.trans hrepo) (hitemNumber.trans hnumber)
    have hread : (scan.reading.readFailure item).isSome = true := by
      rw [readFailure_isSome, hitemNumber, hnumber]
      exact hfailed
    have hunread : ∃ scan ∈ scans, Unread key scan := ⟨scan, hscan, hrepo, .inr hfailed⟩
    rcases planSettling_apart h hc hphase hunread hstep with rfl | ⟨-, hsame, hentries⟩
    · unfold step planSettling at hstep
      simp [hc, hphase, hledger] at hstep
    · refine ⟨FailedRecord.sameAt ?_ hsame, ?_⟩
      · refine foldl_failedRecord (fun p other _ => ?_) hscan (fun p => ?_) (s.records, [])
        · exact foldl_keepsFailed fun q item _ => settleReadFailure_keepsFailed texts c.input other q item
        · refine foldl_failedRecord (fun q item _ => settleReadFailure_keepsFailed texts c.input scan q item) hitem ?_ p
          exact fun q => settleReadFailure_fails texts q hlive hkey hread hforced.preserved
      · intro c' hc'
        obtain ⟨st, hst, hne⟩ := hentries c' hc'
        exact ⟨st, hst, .inr hne⟩

end

/-! ## The cycle -/

structure Untouched (key : IssueKey) (f : IssueRecord) (s : State) : Prop where
  record : getIssueEnrichmentRecord s.records key.1 key.2 = some f
  phase : ∀ c, s.cycle = some c →
    (∃ todo pagesRead reading scans, c.phase = .scanning todo pagesRead reading scans ∧
      Scanning key f c.input s todo reading scans ∧ ReadingFailed key todo reading scans) ∨
    ∃ st, c.phase = .settling st ∧ st.Closed key

section
variable {texts : Texts} {key : IssueKey} {f : IssueRecord} {c : CycleInput} {s s' : State} {l : Label}
  {todo : List String} {reading : Reading} {scans : List RepoScan}

theorem Scanning.outside (h : Scanning key f c s todo reading scans) (hin : InCycle key s l)
    (hl : (∃ now, l = .tick now) ∨ ∃ repo issue, l = .change repo issue) (hstep : step texts s l = some s') :
    Scanning key f c s' todo reading scans ∧ s'.records = s.records ∧ s'.cycle = s.cycle := by
  rcases hl with ⟨now, rfl⟩ | ⟨repo, issue, rfl⟩
  · simp only [step] at hstep
    split at hstep
    · obtain rfl := Option.some.inj hstep
      exact ⟨⟨h.record, h.rows, h.repos, h.scanned, h.reading⟩, rfl, rfl⟩
    · cases hstep
  · obtain rfl := Option.some.inj hstep
    refine ⟨⟨h.record, ?_, h.repos, h.scanned, h.reading⟩, rfl, rfl⟩
    intro x hx hnumber
    dsimp only at hx
    split at hx
    · rename_i hrepo
      rcases Table.mem_upsert.mp hx with ⟨hx, -⟩ | rfl
      · exact h.rows x hx hnumber
      · have hother := hin.2 repo issue rfl
        exact absurd (Prod.ext hrepo.symm hnumber) hother
    · exact h.rows x hx hnumber

theorem whileScanning_step (hposted : f.status = .posted) (h : WhileScanning key f s) (hin : InCycle key s l)
    (hstep : step texts s l = some s') : WhileScanning key f s' := by
  intro c' todo' pagesRead' reading' scans' hc' hphase'
  obtain ⟨c, hc⟩ := Option.isSome_iff_exists.mp hin.1
  have houtside (hl : (∃ now, l = .tick now) ∨ ∃ repo issue, l = .change repo issue) (hsame : s'.cycle = s.cycle) :
      Scanning key f c'.input s' todo' reading' scans' := by
    rw [hsame] at hc'
    exact ((h c' _ _ _ _ hc' hphase').outside hin hl hstep).1
  have hread (hl : (∃ answers, l = .readPage answers) ∨ l = .readFails) {repo : String} {rest : List String}
      {pagesRead : Nat} {reading : Reading} {scans : List RepoScan}
      (hphase : c.phase = .scanning (repo :: rest) pagesRead reading scans) :
      Scanning key f c'.input s' todo' reading' scans' := by
    obtain ⟨c'', _, _, _, _, hc'', hphase'', hscanning, -⟩ :=
      scanning_read hposted (h c _ _ _ _ hc hphase) hc hphase hl hstep
    obtain rfl := Option.some.inj (hc'.symm.trans hc'')
    obtain ⟨rfl, -, rfl, rfl⟩ := Phase.scanning.inj (hphase'.symm.trans hphase'')
    exact hscanning
  cases l with
  | tick now =>
    apply houtside (.inl ⟨now, rfl⟩)
    simp only [step] at hstep
    split at hstep
    · obtain rfl := Option.some.inj hstep
      rfl
    · cases hstep
  | change repo issue =>
    apply houtside (.inr ⟨repo, issue, rfl⟩)
    obtain rfl := Option.some.inj hstep
    rfl
  | start config dryRun => simp [step, beginCycle, hc] at hstep
  | readPage answers =>
    obtain ⟨c'', repo, rest, _, _, _, hc'', hphase, -⟩ := readPage_cases hstep
    obtain rfl := Option.some.inj (hc.symm.trans hc'')
    exact hread (.inl ⟨answers, rfl⟩) hphase
  | readFails =>
    obtain ⟨c'', repo, rest, _, _, _, hc'', hphase, -⟩ := readFails_cases hstep
    obtain rfl := Option.some.inj (hc.symm.trans hc'')
    exact hread (.inr rfl) hphase
  | planSettling =>
    cases hphase : c.phase with
    | settling st => simp [step, planSettling, hc, hphase] at hstep
    | scanning todo pagesRead reading scans =>
      cases todo with
      | cons repo todo => simp [step, planSettling, hc, hphase] at hstep
      | nil =>
        rcases planSettling_accounts hc hphase hstep with rfl | ⟨records, st, rfl, -, -⟩
        · cases hc'
        · obtain rfl := Option.some.inj hc'
          cases hphase'
  | settleNext answers =>
    cases hphase : c.phase with
    | scanning todo pagesRead reading scans => simp [step, settleNext, hc, hphase] at hstep
    | settling st =>
      rcases settleNext_step hc hphase hstep with ⟨e, reason, -, rfl⟩ | ⟨-, rfl⟩
      · obtain rfl := Option.some.inj hc'
        cases hphase'
      · cases hc'
  | abort =>
    simp only [step, hc, Option.isSome_some, if_true] at hstep
    obtain rfl := Option.some.inj hstep
    cases hc'

theorem Untouched.outside (h : Untouched key f s) (hin : InCycle key s l)
    (hl : (∃ now, l = .tick now) ∨ ∃ repo issue, l = .change repo issue) (hstep : step texts s l = some s')
    (hrecords : s'.records = s.records) (hcycle : s'.cycle = s.cycle) : Untouched key f s' := by
  refine ⟨hrecords ▸ h.record, fun c hc => ?_⟩
  rw [hcycle] at hc
  rcases h.phase c hc with ⟨todo, pagesRead, reading, scans, hphase, hscanning, hfailed⟩ | hsettling
  · exact .inl ⟨todo, pagesRead, reading, scans, hphase, (hscanning.outside hin hl hstep).1, hfailed⟩
  · exact .inr hsettling

theorem Untouched.settleNext {answers : Answers} (h : Untouched key f s)
    (hstep : NeonDiff.Enrichment.settleNext texts answers s = some s') : Untouched key f s' := by
  obtain ⟨c, hc, -⟩ := Option.bind_eq_some_iff.mp hstep
  rcases h.phase c hc with ⟨todo, pagesRead, reading, scans, hphase, -⟩ | ⟨st, hphase, hclosed⟩
  · simp [NeonDiff.Enrichment.settleNext, hc, hphase] at hstep
  · obtain ⟨hsame, hclosed'⟩ := hclosed.settleNext hc hphase hstep
    exact ⟨Eq.trans hsame h.record, fun c' hc' => .inr (hclosed' c' hc')⟩

theorem untouched_step (hposted : f.status = .posted) (h : Untouched key f s) (hin : InCycle key s l)
    (hnot : ¬ UnreadForced texts key s l) (hstep : step texts s l = some s') : Untouched key f s' := by
  obtain ⟨c, hc⟩ := Option.isSome_iff_exists.mp hin.1
  have hread (hl : (∃ answers, l = .readPage answers) ∨ l = .readFails) {repo : String} {rest : List String}
      {pagesRead : Nat} {reading : Reading} {scans : List RepoScan}
      (hphase : c.phase = .scanning (repo :: rest) pagesRead reading scans) : Untouched key f s' := by
    rcases h.phase c hc with ⟨_, _, _, _, hphase', hscanning, hfailed⟩ | ⟨st, hphase', -⟩
    · obtain ⟨rfl, rfl, rfl, rfl⟩ := Phase.scanning.inj (hphase.symm.trans hphase')
      obtain ⟨c', _, _, _, _, hc', hphase'', hscanning', hfailed'⟩ := scanning_read hposted hscanning hc hphase hl hstep
      refine ⟨hscanning'.record, fun c'' hc'' => ?_⟩
      obtain rfl := Option.some.inj (hc'.symm.trans hc'')
      exact .inl ⟨_, _, _, _, hphase'', hscanning', hfailed' (.inl hfailed)⟩
    · rw [hphase] at hphase'
      cases hphase'
  cases l with
  | tick now =>
    have hsame : s'.records = s.records ∧ s'.cycle = s.cycle := by
      simp only [step] at hstep
      split at hstep
      · obtain rfl := Option.some.inj hstep
        exact ⟨rfl, rfl⟩
      · cases hstep
    exact h.outside hin (.inl ⟨now, rfl⟩) hstep hsame.1 hsame.2
  | change repo issue =>
    have hsame : s'.records = s.records ∧ s'.cycle = s.cycle := by
      obtain rfl := Option.some.inj hstep
      exact ⟨rfl, rfl⟩
    exact h.outside hin (.inr ⟨repo, issue, rfl⟩) hstep hsame.1 hsame.2
  | start config dryRun => simp [step, beginCycle, hc] at hstep
  | readPage answers =>
    obtain ⟨c'', repo, rest, _, _, _, hc'', hphase, -⟩ := readPage_cases hstep
    obtain rfl := Option.some.inj (hc.symm.trans hc'')
    exact hread (.inl ⟨answers, rfl⟩) hphase
  | readFails =>
    obtain ⟨c'', repo, rest, _, _, _, hc'', hphase, -⟩ := readFails_cases hstep
    obtain rfl := Option.some.inj (hc.symm.trans hc'')
    exact hread (.inr rfl) hphase
  | planSettling =>
    rcases h.phase c hc with ⟨todo, pagesRead, reading, scans, hphase, hscanning, hfailed⟩ | ⟨st, hphase, -⟩
    · cases todo with
      | cons repo todo => simp [step, planSettling, hc, hphase] at hstep
      | nil =>
        obtain ⟨hrecord, hsettling⟩ := planSettling_unread hscanning hc hphase hfailed hnot hstep
        refine ⟨hrecord, fun c' hc' => .inr ?_⟩
        obtain ⟨st, hst, hentries⟩ := hsettling c' hc'
        exact ⟨st, hst, .inr hentries⟩
    · simp [step, planSettling, hc, hphase] at hstep
  | settleNext answers => exact h.settleNext hstep
  | abort =>
    simp only [step, hc, Option.isSome_some, if_true] at hstep
    obtain rfl := Option.some.inj hstep
    exact ⟨h.record, by simp⟩

theorem untouched_of_readingFails (hposted : f.status = .posted) (h : WhileScanning key f s)
    (hfails : ReadingFails texts key s l) (hstep : step texts s l = some s') : Untouched key f s' := by
  have hread {c : Cycle} {todo : List String} {pagesRead : Nat} {reading : Reading} {scans : List RepoScan}
      (hc : s.cycle = some c) (hphase : c.phase = .scanning todo pagesRead reading scans)
      (hl : (∃ answers, l = .readPage answers) ∨ l = .readFails) : Untouched key f s' := by
    obtain ⟨c', _, _, _, _, hc', hphase', hscanning, hfailed⟩ :=
      scanning_read hposted (h c _ _ _ _ hc hphase) hc hphase hl hstep
    refine ⟨hscanning.record, fun c'' hc'' => ?_⟩
    obtain rfl := Option.some.inj (hc'.symm.trans hc'')
    exact .inl ⟨_, _, _, _, hphase', hscanning, hfailed (.inr hfails)⟩
  cases hfails with
  | listing hc hphase => exact hread hc hphase (.inr rfl)
  | events hc hphase hallowed hmem => exact hread hc hphase (.inl ⟨_, rfl⟩)

end

theorem nodup_candidateRepos (texts : Texts) (options : CycleOptions) : (options.candidateRepos texts).Nodup := by
  unfold CycleOptions.candidateRepos
  split
  · exact nodup_eraseDups _
  · exact nodup_eraseDups _

theorem whileScanning_start {texts : Texts} {key : IssueKey} {f : IssueRecord} {s s' : State} {options : CycleOptions}
    (hrecord : getIssueEnrichmentRecord s.records key.1 key.2 = some f)
    (hrows : ∀ x ∈ (s.issues key.1).rows, x.number = key.2 → f.issueUpdatedAt = some x.updatedAt)
    (hstep : beginCycle texts options s = some s') : WhileScanning key f s' ∧ KeysApart s' := by
  obtain ⟨-, rfl⟩ := beginCycle_eq_some.mp hstep
  constructor
  · intro c todo pagesRead reading scans hc hphase
    obtain rfl := Option.some.inj hc
    obtain ⟨rfl, -, rfl, rfl⟩ := Phase.scanning.inj hphase
    refine ⟨hrecord, hrows, ?_, by simp, Reading.gathered_empty _ _ _⟩
    exact (nodup_candidateRepos texts options).filter _
  · intro c st hc hphase
    obtain rfl := Option.some.inj hc
    cases hphase

theorem failedInCycle_of_forgets {texts : Texts} {key : IssueKey} {f : IssueRecord} {s s' : State} {l : Label}
    (hscanning : WhileScanning key f s) (hapart : KeysApart s) (h : Forgets texts key s l)
    (hstep : step texts s l = some s') : FailedInCycle key s' := by
  rcases h with hprocessing | hunread
  · exact failedInCycle_of_processingFails hapart hprocessing hstep
  · exact failedInCycle_of_unreadForced hscanning hunread hstep

/-- In a cycle in which a step fails for an issue whose posted record is of its version, the record is kept exactly
where no source, evidence, analysis or post step failed, the repository was not blocked, and the cycle was not forced
to plan the issue without its label events. -/
theorem posted_record_kept_iff (texts : Texts) {s s₁ s' : State} {options : CycleOptions} {ls : List Label}
    {key : IssueKey} {f : IssueRecord} (hrecord : getIssueEnrichmentRecord s.records key.1 key.2 = some f)
    (hposted : f.status = .posted)
    (hrows : ∀ x ∈ (s.issues key.1).rows, x.number = key.2 → f.issueUpdatedAt = some x.updatedAt)
    (hstart : beginCycle texts options s = some s₁) (hrun : run (step texts) s₁ ls = some s')
    (hcycle : Along (step texts) (InCycle key) s₁ ls)
    (hfails : Sometime texts (fun t l => ReadingFails texts key t l ∨ ProcessingFails texts key t l) s₁ ls) :
    StillPosted s'.records key f ↔ ¬ Sometime texts (Forgets texts key) s₁ ls := by
  obtain ⟨hscanning, hapart⟩ := whileScanning_start hrecord hrows hstart
  have hreached {before after : List Label} {l : Label} {t : State} (hls : ls = before ++ l :: after)
      (hbefore : run (step texts) s₁ before = some t) : WhileScanning key f t := by
    rw [hls] at hcycle
    exact hcycle.append_left.invariant (fun _ _ _ h hin hstep => whileScanning_step hposted h hin hstep) hscanning hbefore
  constructor
  · rintro ⟨g, hg, hstatus, -⟩ ⟨before, l, after, t, hls, hbefore, hforgets⟩
    have hreads := hreached hls hbefore
    subst hls
    rw [run_append, hbefore, Option.bind_some] at hrun
    obtain ⟨u, hstep, hafter⟩ := run_cons_eq_some.mp hrun
    have hkeys : KeysApart t := run_invariant (fun _ _ _ h hstep => keysApart_step h hstep) hapart hbefore
    have hfailed := failedInCycle_of_forgets hreads hkeys hforgets hstep
    have hrest := ((hcycle.append_right hbefore).2 u hstep)
    obtain ⟨g', hg', hstatus'⟩ := (hrest.invariant (fun _ _ _ h hin hstep => failedInCycle_step h hin hstep) hfailed
      hafter).record
    rw [hg] at hg'
    obtain rfl := Option.some.inj hg'
    rw [hstatus] at hstatus'
    cases hstatus'
  · intro hnot
    obtain ⟨before, l, after, t, hls, hbefore, hreading | hprocessing⟩ := hfails
    · have hreads := hreached hls hbefore
      have hkept : Along (step texts) (fun t l => ¬ UnreadForced texts key t l) s₁ ls := by
        apply along_iff_not_sometime.mpr
        rintro ⟨before', l', after', t', hls', hbefore', hunread⟩
        exact hnot ⟨before', l', after', t', hls', hbefore', .inr (not_not.mp hunread)⟩
      subst hls
      rw [run_append, hbefore, Option.bind_some] at hrun
      obtain ⟨u, hstep, hafter⟩ := run_cons_eq_some.mp hrun
      have huntouched := untouched_of_readingFails hposted hreads hreading hstep
      have hrest := ((hcycle.and hkept).append_right hbefore).2 u hstep
      have hend := hrest.invariant (fun _ _ _ h hl hstep => untouched_step hposted h hl.1 hl.2 hstep) huntouched hafter
      exact ⟨f, hend.record, hposted, rfl, rfl, rfl⟩
    · exact absurd ⟨before, l, after, t, hls, hbefore, .inl hprocessing⟩ hnot

/-! ## One posted issue -/

def posting : Config :=
  { allowlist := ["acme/site"], postIssueComment := true
    throttle := { processExistingOpenIssuesOnActivation := true } }

def postedRecord : IssueRecord :=
  { repo := "acme/site", issueNumber := 101, issueUpdatedAt := some 0, bodyHash := some "b", analysisInputHash := some "a"
    status := .posted, commentUrl := some "u" }

def postedState : State :=
  { now := 10000
    issues := fun repo => if repo = "acme/site" then Table.empty.upsert { number := 101 } else .empty
    records := Table.empty.upsert postedRecord }

def eventsFail : List Label :=
  [.readPage fun _ => { events := .error "502" }, .planSettling, .settleNext {}]

/-- The source snapshot cannot be prepared. -/
def sourceFails : List Label :=
  [.readPage fun _ => {}, .planSettling, .settleNext { source := .error "timeout" }, .settleNext {}]

/-- The posted record of the unchanged issue is gone after one failed source. -/
theorem record_forgotten : getIssueEnrichmentRecord postedState.records "acme/site" 101 = some postedRecord ∧
    ((postedState.issues "acme/site").find? 101).map Issue.updatedAt = postedRecord.issueUpdatedAt ∧
    ∃ s₁ s', step plainTexts postedState (.start posting false) = some s₁ ∧
      run (step plainTexts) s₁ sourceFails = some s' ∧
      Sometime plainTexts (ProcessingFails plainTexts ("acme/site", 101)) s₁ sourceFails ∧
      ¬ StillPosted s'.records ("acme/site", 101) postedRecord := by
  refine ⟨rfl, rfl, _, _, rfl, rfl, ?_, ?_⟩
  · refine ⟨[.readPage fun _ => {}, .planSettling], .settleNext { source := .error "timeout" }, [.settleNext {}], _, rfl,
      rfl, ?_⟩
    exact .round rfl rfl rfl rfl (.collecting rfl)
  · rintro ⟨g, hg, hstatus, -⟩
    have hmap := (congrArg (Option.map IssueRecord.status) hg).trans (congrArg some hstatus)
    revert hmap
    decide +kernel

def forced : CycleOptions := { config := posting, dryRun := false, force := true }

theorem posted_record_kept_iff_eventsFail : ∃ s₁ s', beginCycle plainTexts forced postedState = some s₁ ∧
    run (step plainTexts) s₁ eventsFail = some s' ∧
    (StillPosted s'.records ("acme/site", 101) postedRecord ↔
      ¬ Sometime plainTexts (Forgets plainTexts ("acme/site", 101)) s₁ eventsFail) := by
  refine ⟨_, _, rfl, rfl, @posted_record_kept_iff plainTexts postedState _ _ forced eventsFail ("acme/site", 101)
    postedRecord rfl rfl ?_ rfl rfl ?_ ?_⟩
  · intro x hx hnumber
    obtain rfl := List.mem_singleton.mp hx
    rfl
  · refine ⟨⟨rfl, nofun⟩, fun t ht => ?_⟩
    obtain rfl := Option.some.inj ht
    refine ⟨⟨rfl, nofun⟩, fun t ht => ?_⟩
    obtain rfl := Option.some.inj ht
    refine ⟨⟨rfl, nofun⟩, fun t ht => trivial⟩
  · refine ⟨[], _, _, _, rfl, rfl, .inl (.events rfl rfl rfl ?_)⟩
    exact List.mem_singleton.mpr rfl

end NeonDiff.Enrichment
