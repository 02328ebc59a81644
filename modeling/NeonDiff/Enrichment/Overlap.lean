import NeonDiff.Enrichment.Posted

/-! # Pages that overlap

An issue updated between two page reads pushes the others back, and one of them is listed again. The reader keeps
both copies and the admission snapshot refuses them, which ends the cycle for every repository.
-/

open NeonDiff.Lib

namespace NeonDiff.Enrichment

/-! ## The admission snapshot -/

/-- `duplicate_scan`: two of the items that the snapshot is given have one key. -/
def duplicateScan (texts : Texts) (s : State) : Bool :=
  match s.cycle with
  | some { input, phase := .scanning [] _ _ scans } =>
    !decide ((scans.flatMap (RepoScan.readable texts input.config)).map ScanItem.key).Nodup
  | _ => false

def SnapshotThrows (texts : Texts) (s : State) (l : Label) : Prop := l = .planSettling ∧ duplicateScan texts s = true

theorem duplicateScan_eq_true {texts : Texts} {s : State} : duplicateScan texts s = true ↔
    ∃ c pagesRead reading scans, s.cycle = some c ∧ c.phase = .scanning [] pagesRead reading scans ∧
      ¬((scans.flatMap (RepoScan.readable texts c.input.config)).map ScanItem.key).Nodup := by
  unfold duplicateScan
  constructor
  · intro h
    split at h
    · rename_i input pagesRead reading scans hc
      exact ⟨_, _, _, _, hc, rfl, by simpa using h⟩
    · cases h
  · rintro ⟨⟨input, phase⟩, pagesRead, reading, scans, hc, rfl, hdup⟩
    rw [hc]
    simpa using hdup

theorem SnapshotThrows.ends {texts : Texts} {s : State} {l : Label} (h : SnapshotThrows texts s l) :
    step texts s l = some { s with cycle := none } := by
  obtain ⟨rfl, hdup⟩ := h
  obtain ⟨c, pagesRead, reading, scans, hc, hphase, hdup⟩ := duplicateScan_eq_true.mp hdup
  simp only [step, planSettling, hc, Option.bind_eq_bind, Option.bind_some, hphase]
  have hnone : createIssueEnrichmentAdmissionLedger texts c.input.config c.input.repos
      (c.input.knownRecords s.records) c.input.checkedAt
      (scans.flatMap (RepoScan.readable texts c.input.config)) = none := by
    unfold createIssueEnrichmentAdmissionLedger
    exact if_pos hdup
  rw [hnone]

/-! ## What the ledger admits -/

def admitted (s : State) : Label → Option IssueKey
  | .settleNext _ =>
    match s.cycle with
    | some { phase := .settling st, .. } =>
      match st.ledger.next with
      | (some (e, .eligible), _) => some e.key
      | _ => none
    | _ => none
  | _ => none

/-- The issues that the ledger admits along a run, in order. -/
def admissions (texts : Texts) (s : State) : List Label → List IssueKey
  | [] => []
  | l :: ls => (admitted s l).toList ++ ((step texts s l).elim [] fun t => admissions texts t ls)

theorem admitted_eq_some {s : State} {l : Label} {k : IssueKey} (h : admitted s l = some k) :
    ∃ answers c st e, l = .settleNext answers ∧ s.cycle = some c ∧ c.phase = .settling st ∧
      st.ledger.next = (some (e, .eligible), st.ledger.next.2) ∧ e.key = k := by
  unfold admitted at h
  split at h
  · rename_i answers
    split at h
    · rename_i input st hc
      split at h
      · rename_i e l' hnext
        refine ⟨answers, _, st, e, rfl, hc, rfl, ?_, Option.some.inj h⟩
        rw [hnext]
      · cases h
    · cases h
  · cases h

/-! ## Admitted once -/

/-- The issue is out, or the ledger hands it out no more. -/
def Spent (l : Ledger) (key : IssueKey) : Prop := key ∈ l.active ∨ Dead l key

section
variable {l l' : Ledger} {e : Entry} {key : IssueKey}

theorem Spent.release (h : Spent l key) (e : Entry) : Spent (l.release e) key := by
  by_cases hkey : key = e.key
  · exact .inr (hkey ▸ dead_release l e)
  · rcases h with hactive | hdead
    · exact .inl (List.mem_filter.mpr ⟨hactive, decide_eq_true hkey⟩)
    · exact .inr (hdead.release e)

theorem Spent.blockRepo (h : Spent l key) (he : e ∈ l.entries) : Spent (l.blockRepo e.item.repo) key := by
  rcases h with hactive | hdead
  · unfold Ledger.blockRepo
    rw [if_pos (List.any_eq_true.mpr ⟨e, he, by simp⟩)]
    by_cases hrepo : key.1 = e.item.repo
    · exact .inr (.inr (hrepo ▸ List.mem_cons_self))
    · exact .inl (List.mem_filter.mpr ⟨hactive, decide_eq_true hrepo⟩)
  · exact .inr (hdead.blockRepo _)

theorem Spent.requeue (h : Spent l key) (e : Entry) : Spent (l.requeue e) key := by
  unfold Ledger.requeue
  split
  · exact h
  · exact h

theorem Spent.change (h : Spent l key) (he : e ∈ l.entries) (hchange : LedgerChange l e l') : Spent l' key := by
  cases hchange with
  | same => exact h
  | release => exact h.release e
  | blockRepo => exact h.blockRepo he

theorem Spent.next (h : Spent l key) : Spent l.next.2 key := by
  rcases h with hactive | hdead
  · left
    rcases l.next_cases with ⟨e, -, hnext⟩ | ⟨m, hm, ⟨e, -, hnext⟩ | ⟨hnext, -⟩⟩
    · rw [hnext]
      exact hactive
    · rw [hnext]
      exact List.mem_cons_of_mem _ (hm.active ▸ hactive)
    · rw [hnext]
      exact hm.active ▸ hactive
  · exact .inr (dead_next.mpr hdead)

theorem admitFirst_inactive {u : Usage} {es : List Entry} (h : l.admitFirst u es = (some e, l')) :
    e.key ∉ l.active := by
  induction es generalizing l u with
  | nil => cases h
  | cons first es ih =>
    unfold Ledger.admitFirst at h
    split at h
    · exact ih h
    · rename_i hpassed
      split at h
      · obtain rfl := Option.some.inj (congrArg Prod.fst h)
        intro hactive
        apply hpassed
        simp [hactive]
      · split at h
        · exact fun hactive => ih h hactive
        · exact fun hactive => ih h hactive

theorem next_eligible (h : l.next = (some (e, .eligible), l')) : ¬ Spent l e.key ∧ Spent l' e.key := by
  have halive := next_alive h
  unfold Ledger.next at h
  split at h
  · cases h
  · split at h
    · rename_i admitted m hout
      obtain ⟨heq, rfl⟩ := Prod.mk.inj h
      obtain rfl := congrArg Prod.fst (Option.some.inj heq)
      refine ⟨?_, ?_⟩
      · rintro (hactive | hdead)
        · exact admitFirst_inactive hout hactive
        · exact halive hdead
      · obtain ⟨m', -, ⟨e', -, hcase⟩ | ⟨hcase, -⟩⟩ := Ledger.admitFirst_cases l l.currentUsage l.entries
        · rw [hout] at hcase
          obtain ⟨heq, rfl⟩ := Prod.mk.inj hcase
          obtain rfl := Option.some.inj heq
          exact .inl List.mem_cons_self
        · rw [hout] at hcase
          cases hcase
    · cases h

end

def Done (s : State) (key : IssueKey) : Prop :=
  ∀ c, s.cycle = some c → ∃ st, c.phase = .settling st ∧ Spent st.ledger key

theorem settleAdmitted_spent (texts : Texts) (c : CycleInput) (answers : Answers) (records : Records) {s : Settling}
    {e : Entry} (reason : Reason) {key : IssueKey} (he : e ∈ s.ledger.entries) (h : Spent s.ledger key) :
    Spent (settleAdmitted texts c answers records s e reason).2.ledger key := by
  obtain ⟨-, hround⟩ := settleAdmitted_round texts c answers records s e reason
  generalize settleAdmitted texts c answers records s e reason = result at hround ⊢
  obtain ⟨records', s'⟩ := result
  dsimp only at hround ⊢
  cases hround with
  | requeue sources hreason => exact h.requeue e
  | settle sources hledger ho => exact h.change he hledger

theorem done_settleNext {texts : Texts} {answers : Answers} {s s' : State} {c : Cycle} {st : Settling} {key : IssueKey}
    (hc : s.cycle = some c) (hphase : c.phase = .settling st) (h : Spent st.ledger.next.2 key)
    (hstep : settleNext texts answers s = some s') : Done s' key := by
  rcases settleNext_step hc hphase hstep with ⟨e, reason, hnext, rfl⟩ | ⟨-, rfl⟩
  · intro c' hc'
    obtain rfl := Option.some.inj hc'
    refine ⟨_, rfl, settleAdmitted_spent texts c.input answers s.records reason ?_ h⟩
    change e ∈ st.ledger.next.2.entries
    rw [(next_frame st.ledger).1]
    exact mem_entries_of_next hnext
  · intro c' hc'
    cases hc'

theorem done_step {texts : Texts} {s s' : State} {l : Label} {key : IssueKey} (hin : s.cycle.isSome = true)
    (h : Done s key) (hstep : step texts s l = some s') : Done s' key := by
  obtain ⟨c, hc⟩ := Option.isSome_iff_exists.mp hin
  obtain ⟨st, hphase, hspent⟩ := h c hc
  cases l with
  | tick now =>
    simp only [step] at hstep
    split at hstep
    · obtain rfl := Option.some.inj hstep
      exact h
    · cases hstep
  | change repo issue =>
    obtain rfl := Option.some.inj hstep
    exact h
  | start config dryRun => simp [step, beginCycle, hc] at hstep
  | readPage answers => simp [step, readPage, hc, hphase] at hstep
  | readFails => simp [step, readFails, hc, hphase] at hstep
  | planSettling => simp [step, planSettling, hc, hphase] at hstep
  | settleNext answers => exact done_settleNext hc hphase hspent.next hstep
  | abort =>
    simp only [step, hin, if_true] at hstep
    obtain rfl := Option.some.inj hstep
    intro c' hc'
    cases hc'

theorem admitted_step {texts : Texts} {s s' : State} {l : Label} {key : IssueKey} (h : admitted s l = some key)
    (hstep : step texts s l = some s') : ¬ Done s key ∧ Done s' key := by
  obtain ⟨answers, c, st, e, rfl, hc, hphase, hnext, rfl⟩ := admitted_eq_some h
  obtain ⟨hfresh, hspent⟩ := next_eligible hnext
  refine ⟨?_, done_settleNext hc hphase hspent hstep⟩
  intro hdone
  obtain ⟨st', hphase', hspent'⟩ := hdone c hc
  obtain rfl := Phase.settling.inj (hphase.symm.trans hphase')
  exact hfresh hspent'

theorem admissions_nodup (texts : Texts) {s : State} {ls : List Label}
    (hcycle : Along (step texts) (fun t _ => t.cycle.isSome = true) s ls) :
    (admissions texts s ls).Nodup ∧ ∀ key, Done s key → key ∉ admissions texts s ls := by
  induction ls generalizing s with
  | nil => exact ⟨List.nodup_nil, fun _ _ => List.not_mem_nil⟩
  | cons l ls ih =>
    have hin : s.cycle.isSome = true := hcycle.1
    unfold admissions
    cases hstep : step texts s l with
    | none =>
      refine ⟨?_, ?_⟩
      · cases admitted s l <;> simp
      · intro key hdone
        cases hout : admitted s l with
        | none => simp
        | some k =>
          obtain ⟨answers, c, st, e, rfl, hc, hphase, hnext, rfl⟩ := admitted_eq_some hout
          simp only [step, settleNext, hc, Option.bind_eq_bind, Option.bind_some, hphase] at hstep
          rw [hnext] at hstep
          cases hstep
    | some t =>
      obtain ⟨hnodup, hnot⟩ := ih (hcycle.2 t hstep)
      cases hout : admitted s l with
      | none => exact ⟨hnodup, fun key hdone => hnot key (done_step hin hdone hstep)⟩
      | some k =>
        obtain ⟨hfresh, hdone'⟩ := admitted_step hout hstep
        refine ⟨List.nodup_cons.mpr ⟨hnot k hdone', hnodup⟩, ?_⟩
        intro key hdone hmem
        rcases List.mem_cons.mp hmem with rfl | hmem
        · exact hfresh hdone
        · exact hnot key (done_step hin hdone hstep) hmem

/-! ## What the pages list -/

/-- The numbers that a scan asks the ledger about, as listed. -/
def Reading.kept (r : Reading) : List Nat :=
  (r.listed.map (·.number)).filter fun n => n ∉ r.settledSkipped.map (·.number) ∧ n ∉ r.failed

/-- An issue listed twice was settled by its record, or its label events could not be read. -/
def Reading.RepeatsSettled (r : Reading) : Prop :=
  ∀ n, 2 ≤ (r.listed.map (·.number)).count n → n ∈ r.settledSkipped.map (·.number) ∨ n ∈ r.failed

theorem Reading.kept_nodup {r : Reading} : r.kept.Nodup ↔ r.RepeatsSettled := by
  unfold Reading.RepeatsSettled
  rw [List.nodup_iff_count_le_one]
  constructor
  · intro h n htwice
    by_contra hneither
    have hkept : r.kept.count n = (r.listed.map (·.number)).count n := by
      apply List.count_filter
      simpa using hneither
    have hone := h n
    omega
  · intro h n
    by_cases hmem : n ∈ r.kept
    · have hneither := (List.mem_filter.mp hmem).2
      have hkept : r.kept.count n = (r.listed.map (·.number)).count n := List.count_filter hneither
      by_contra hmany
      have hsettled := h n (by omega)
      simp only [decide_eq_true_eq] at hneither
      rcases hsettled with hsettled | hfailed
      · exact hneither.1 hsettled
      · exact hneither.2 hfailed
    · rw [List.count_eq_zero_of_not_mem hmem]
      omega

theorem planRepoIssueScan_cons (texts : Texts) (config : Config) (r : Reading) (repo : String) (issue : Issue)
    (issues : List Issue) : ∃ item, (r.recordedSkip item).key = (repo, issue.number) ∧
      planRepoIssueScan texts config repo (issue :: issues) = item :: planRepoIssueScan texts config repo issues := by
  refine ⟨_, ?_, rfl⟩
  unfold Reading.recordedSkip ScanItem.key
  split_ifs
  all_goals
    dsimp only
    split <;> rfl

theorem readable_keys {scan : RepoScan} (h : scan.reading.Sound) (texts : Texts) (config : Config) :
    (scan.readable texts config).map ScanItem.key = scan.reading.kept.map fun n => (scan.repo, n) := by
  have hlisted : ∀ x ∈ scan.reading.listed, (scan.reading.prepared.find? x.number).isSome = true := h.prepared
  unfold RepoScan.readable RepoScan.items Reading.issues Reading.kept
  generalize scan.reading.listed = listed at hlisted ⊢
  induction listed with
  | nil => rfl
  | cons x listed ih =>
    have hrest := ih fun y hy => hlisted y (List.mem_cons_of_mem x hy)
    obtain ⟨p, hp⟩ := Option.isSome_iff_exists.mp (hlisted x List.mem_cons_self)
    have hnumber : p.number = x.number := Table.key_of_find? hp
    by_cases hsettled : x.number ∈ scan.reading.settledSkipped.map (·.number)
    · rw [List.filterMap_cons_none, hrest, List.map_cons, List.filter_cons_of_neg]
      · simp [hsettled]
      · rw [if_pos (List.contains_iff_mem.mpr hsettled)]
    · rw [List.filterMap_cons_some (b := p), List.map_cons]
      · obtain ⟨item, hkey, hplan⟩ := planRepoIssueScan_cons texts config scan.reading scan.repo p
          (listed.filterMap fun i =>
            if (scan.reading.settledSkipped.map (·.number)).contains i.number then none
            else scan.reading.prepared.find? i.number)
        have hitem : (scan.reading.recordedSkip item).issue.number = x.number :=
          (congrArg Prod.snd hkey).trans hnumber
        have hfailure := @readFailure_isSome scan.reading (scan.reading.recordedSkip item)
        rw [hitem] at hfailure
        rw [hplan, List.map_cons]
        by_cases hfailed : x.number ∈ scan.reading.failed
        · rw [List.filter_cons_of_neg, List.filter_cons_of_neg, hrest]
          · simp [hfailed]
          · rw [Option.isNone_iff_eq_none]
            have hsome := hfailure.mpr hfailed
            intro hnone
            rw [hnone] at hsome
            cases hsome
        · rw [List.filter_cons_of_pos, List.filter_cons_of_pos, List.map_cons, List.map_cons, hrest, hkey, hnumber]
          · simpa using And.intro (by simpa using hsettled) hfailed
          · simpa [hfailed] using hfailure
      · rw [if_neg (fun hin => hsettled (List.contains_iff_mem.mp hin)), hp]

theorem readable_nodup {scans : List RepoScan} (hrepos : (scans.map (·.repo)).Nodup)
    (hsound : ∀ scan ∈ scans, scan.reading.Sound) (texts : Texts) (config : Config) :
    ((scans.flatMap (RepoScan.readable texts config)).map ScanItem.key).Nodup ↔
      ∀ scan ∈ scans, scan.reading.RepeatsSettled := by
  have hkeys : (scans.flatMap (RepoScan.readable texts config)).map ScanItem.key =
      scans.flatMap fun scan => scan.reading.kept.map fun n => (scan.repo, n) := by
    rw [List.map_flatMap]
    apply List.flatMap_congr
    intro scan hscan
    exact readable_keys (hsound scan hscan) texts config
  have hone (scan : RepoScan) : (scan.reading.kept.map fun n => (scan.repo, n)).Nodup ↔ scan.reading.RepeatsSettled := by
    rw [← Reading.kept_nodup]
    exact List.nodup_map_iff fun a b h => congrArg Prod.snd h
  have hdisjoint : scans.Pairwise fun a b => List.Disjoint
      (a.reading.kept.map fun n => (a.repo, n)) (b.reading.kept.map fun n => (b.repo, n)) := by
    apply (List.pairwise_map.mp hrepos).imp
    intro a b hne key ha hb
    obtain ⟨n, -, rfl⟩ := List.mem_map.mp ha
    obtain ⟨m, -, heq⟩ := List.mem_map.mp hb
    exact hne (congrArg Prod.fst heq).symm
  rw [hkeys, List.nodup_flatMap]
  constructor
  · intro h scan hscan
    exact (hone scan).mp (h.1 scan hscan)
  · intro h
    exact ⟨fun scan hscan => (hone scan).mpr (h scan hscan), hdisjoint⟩

/-! ## Scanning -/

/-- Each repository is scanned once, and what a scan lists it prepares. -/
def ScansApart (s : State) : Prop :=
  ∀ c todo pagesRead reading scans, s.cycle = some c → c.phase = .scanning todo pagesRead reading scans →
    reading.Sound ∧ (∀ scan ∈ scans, scan.reading.Sound) ∧ (scans.map (·.repo) ++ todo).Nodup

theorem scans_finish {scans : List RepoScan} {repo : String} {todo : List String} {scan : RepoScan}
    (hsound : ∀ scan ∈ scans, scan.reading.Sound) (hrepos : (scans.map (·.repo) ++ repo :: todo).Nodup)
    (hrepo : scan.repo = repo) (hscan : scan.reading.Sound) :
    (∀ scan' ∈ scans ++ [scan], scan'.reading.Sound) ∧ ((scans ++ [scan]).map (·.repo) ++ todo).Nodup := by
  constructor
  · intro scan' hscan'
    rcases List.mem_append.mp hscan' with hscan' | hscan'
    · exact hsound scan' hscan'
    · obtain rfl := List.mem_singleton.mp hscan'
      exact hscan
  · rw [List.map_append, List.append_assoc, List.map_singleton, hrepo]
    exact hrepos

theorem scansApart_start {texts : Texts} {options : CycleOptions} {s s' : State}
    (h : beginCycle texts options s = some s') : ScansApart s' := by
  intro c todo pagesRead reading scans hc hphase
  obtain ⟨-, rfl⟩ := beginCycle_eq_some.mp h
  obtain rfl := Option.some.inj hc
  obtain ⟨rfl, -, rfl, rfl⟩ := Phase.scanning.inj hphase
  exact ⟨Reading.sound_empty, by simp, (nodup_candidateRepos texts options).filter _⟩

theorem scansApart_step {texts : Texts} {s s' : State} {l : Label} (h : ScansApart s)
    (hstep : step texts s l = some s') : ScansApart s' := by
  intro c' todo' pagesRead' reading' scans' hc' hphase'
  cases l with
  | tick now =>
    simp only [step] at hstep
    split at hstep
    · obtain rfl := Option.some.inj hstep
      exact h c' _ _ _ _ hc' hphase'
    · cases hstep
  | change repo issue =>
    obtain rfl := Option.some.inj hstep
    exact h c' _ _ _ _ hc' hphase'
  | start config dryRun => exact scansApart_start hstep c' _ _ _ _ hc' hphase'
  | readPage answers =>
    obtain ⟨c, repo, todo, pagesRead, reading, scans, hc, hphase, hcases⟩ := readPage_cases hstep
    obtain ⟨hreading, hscans, hrepos⟩ := h c _ _ _ _ hc hphase
    have hpage := (qualifyPage_listed texts c.input repo answers s.records hreading
      (c.input.chunk texts repo pagesRead s)).2
    rcases hcases with ⟨-, rfl⟩ | ⟨-, ⟨truncated, rfl⟩ | rfl⟩
    · obtain rfl := Option.some.inj hc'
      obtain ⟨rfl, -, rfl, rfl⟩ := Phase.scanning.inj hphase'
      exact ⟨Reading.sound_empty, scans_finish hscans hrepos rfl Reading.sound_empty⟩
    · obtain rfl := Option.some.inj hc'
      obtain ⟨rfl, -, rfl, rfl⟩ := Phase.scanning.inj hphase'
      exact ⟨Reading.sound_empty, scans_finish hscans hrepos rfl hpage⟩
    · obtain rfl := Option.some.inj hc'
      obtain ⟨rfl, -, rfl, rfl⟩ := Phase.scanning.inj hphase'
      exact ⟨hpage, hscans, hrepos⟩
  | readFails =>
    obtain ⟨c, repo, todo, pagesRead, reading, scans, hc, hphase, rfl⟩ := readFails_cases hstep
    obtain ⟨hreading, hscans, hrepos⟩ := h c _ _ _ _ hc hphase
    obtain rfl := Option.some.inj hc'
    obtain ⟨rfl, -, rfl, rfl⟩ := Phase.scanning.inj hphase'
    exact ⟨Reading.sound_empty, scans_finish hscans hrepos rfl Reading.sound_empty⟩
  | planSettling =>
    obtain ⟨c, hc, -⟩ := Option.bind_eq_some_iff.mp hstep
    cases hphase : c.phase with
    | settling st => simp [step, planSettling, hc, hphase] at hstep
    | scanning todo pagesRead reading scans =>
      cases todo with
      | cons repo todo => simp [step, planSettling, hc, hphase] at hstep
      | nil =>
        rcases planSettling_accounts hc hphase hstep with rfl | ⟨records, st, rfl, -, -⟩
        · cases hc'
        · obtain rfl := Option.some.inj hc'
          cases hphase'
  | settleNext answers =>
    obtain ⟨c, hc, -⟩ := Option.bind_eq_some_iff.mp hstep
    cases hphase : c.phase with
    | scanning todo pagesRead reading scans => simp [step, settleNext, hc, hphase] at hstep
    | settling st =>
      rcases settleNext_step hc hphase hstep with ⟨e, reason, -, rfl⟩ | ⟨-, rfl⟩
      · obtain rfl := Option.some.inj hc'
        cases hphase'
      · cases hc'
  | abort =>
    simp only [step] at hstep
    split at hstep
    · obtain rfl := Option.some.inj hstep
      cases hc'
    · cases hstep

/-! ## Runs -/

/-- When the pages are read, none of them lists an issue again, unless it was settled or failed as it was read. -/
def PagesDoNotRepeat (s : State) (l : Label) : Prop :=
  ∀ c pagesRead reading scans, l = .planSettling → s.cycle = some c → c.phase = .scanning [] pagesRead reading scans →
    ∀ scan ∈ scans, scan.reading.RepeatsSettled

theorem pagesDoNotRepeat_iff (texts : Texts) {s : State} {l : Label} (h : ScansApart s) :
    PagesDoNotRepeat s l ↔ ¬ SnapshotThrows texts s l := by
  constructor
  · rintro hpages ⟨rfl, hdup⟩
    obtain ⟨c, pagesRead, reading, scans, hc, hphase, hdup⟩ := duplicateScan_eq_true.mp hdup
    obtain ⟨-, hsound, hrepos⟩ := h c _ _ _ _ hc hphase
    rw [List.append_nil] at hrepos
    exact hdup ((readable_nodup hrepos hsound texts c.input.config).mpr (hpages c _ _ _ rfl hc hphase))
  · rintro hthrows c pagesRead reading scans rfl hc hphase
    obtain ⟨-, hsound, hrepos⟩ := h c _ _ _ _ hc hphase
    rw [List.append_nil] at hrepos
    apply (readable_nodup hrepos hsound texts c.input.config).mp
    by_contra hdup
    exact hthrows ⟨rfl, duplicateScan_eq_true.mpr ⟨c, _, _, _, hc, hphase, hdup⟩⟩

/-- A cycle lives through its admission snapshot and admits each issue once, exactly where its pages do not repeat an
issue that the ledger is asked about. -/
theorem cycle_survives_iff (texts : Texts) {s s₁ : State} {options : CycleOptions} {ls : List Label}
    (hstart : beginCycle texts options s = some s₁)
    (hcycle : Along (step texts) (fun t _ => t.cycle.isSome = true) s₁ ls) :
    (¬ Sometime texts (SnapshotThrows texts) s₁ ls ∧ (admissions texts s₁ ls).Nodup) ↔
      Along (step texts) PagesDoNotRepeat s₁ ls := by
  have happart : ScansApart s₁ := scansApart_start hstart
  have hreached {before : List Label} {t : State} (hrun : run (step texts) s₁ before = some t) : ScansApart t :=
    run_invariant (fun _ _ _ h hstep => scansApart_step h hstep) happart hrun
  rw [and_iff_left (admissions_nodup texts hcycle).1, along_iff_not_sometime, not_iff_not]
  constructor
  · rintro ⟨before, l, after, t, rfl, hbefore, hthrows⟩
    refine ⟨before, l, after, t, rfl, hbefore, ?_⟩
    exact fun hpages => (pagesDoNotRepeat_iff texts (hreached hbefore)).mp hpages hthrows
  · rintro ⟨before, l, after, t, rfl, hbefore, hmiss⟩
    refine ⟨before, l, after, t, rfl, hbefore, ?_⟩
    by_contra hthrows
    exact hmiss ((pagesDoNotRepeat_iff texts (hreached hbefore)).mpr hthrows)

/-! ## Two pages of one repository -/

/-- One issue more than a page holds. -/
def twoPages : List Label :=
  .tick 10000 :: baseline ++ [.tick 20000] ++ (List.range 101).map (fun n => .change "acme/site" { number := n + 1 }) ++
    [.tick 30000]

/-- An issue is opened between the two page reads, and the last one of the first page is listed again. -/
def openedBetweenPages : List Label :=
  [.readPage fun _ => {}, .change "acme/site" { number := 200 }, .readPage fun _ => {}, .planSettling]

theorem repeated_issue_ends_cycle : ∃ s s₁, run (step plainTexts) {} twoPages = some s ∧
    step plainTexts s (.start oneRepo false) = some s₁ ∧
    Sometime plainTexts (SnapshotThrows plainTexts) s₁ openedBetweenPages := by
  have hview : (run (step plainTexts) {} (twoPages ++ .start oneRepo false :: openedBetweenPages.take 3)).map
      (duplicateScan plainTexts) = some true := by
    decide +kernel
  obtain ⟨t, hrun, hdup⟩ := Option.map_eq_some_iff.mp hview
  rw [run_append] at hrun
  obtain ⟨s, hs, hrun⟩ := Option.bind_eq_some_iff.mp hrun
  obtain ⟨s₁, hstart, hrun⟩ := run_cons_eq_some.mp hrun
  exact ⟨s, s₁, hs, hstart, openedBetweenPages.take 3, .planSettling, [], t, rfl, hrun, rfl, hdup⟩

/-- An issue of the first page is updated between the two page reads, and the second page is as it was. -/
def updatedBetweenPages : List Label :=
  [.readPage fun _ => {}, .change "acme/site" { number := 50 }, .readPage fun _ => {}, .planSettling]

theorem cycle_survives_iff_updatedBetweenPages : ∃ s s₁, run (step plainTexts) {} twoPages = some s ∧
    beginCycle plainTexts (daemonOptions oneRepo false) s = some s₁ ∧
    ((¬ Sometime plainTexts (SnapshotThrows plainTexts) s₁ updatedBetweenPages ∧
      (admissions plainTexts s₁ updatedBetweenPages).Nodup) ↔
      Along (step plainTexts) PagesDoNotRepeat s₁ updatedBetweenPages) := by
  have hview : ((run (step plainTexts) {} (twoPages ++ [.start oneRepo false])).any fun s₁ =>
      decide (Along (step plainTexts) (fun t _ => t.cycle.isSome = true) s₁ updatedBetweenPages)) = true := by
    decide +kernel
  obtain ⟨s₁, hrun, hcycle⟩ := (Option.any_eq_true _ _).mp hview
  rw [run_append] at hrun
  obtain ⟨s, hs, hrun⟩ := Option.bind_eq_some_iff.mp hrun
  obtain ⟨t, hstart, ht⟩ := run_cons_eq_some.mp hrun
  obtain rfl := Option.some.inj ht
  exact ⟨s, t, hs, hstart, cycle_survives_iff plainTexts hstart (of_decide_eq_true hcycle)⟩

end NeonDiff.Enrichment
