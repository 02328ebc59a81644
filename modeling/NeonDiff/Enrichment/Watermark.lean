import NeonDiff.Enrichment.Settling

/-! # The watermark never passes an unsettled issue -/

open NeonDiff.Lib

namespace NeonDiff.Enrichment

/-! ## What a reading holds -/

structure Reading.Sound (r : Reading) : Prop where
  prepared : ∀ x ∈ r.listed, (r.prepared.find? x.number).isSome = true
  version : ∀ p ∈ r.prepared.rows, ∃ y ∈ r.listed, y.number = p.number ∧ y.version = p.version
  settled : ∀ y ∈ r.settledSkipped, y ∈ r.listed

theorem Reading.sound_empty : Reading.Sound {} where
  prepared := by simp
  version := by
    intro p hp
    cases hp
  settled := by simp

structure Prepared (r : Reading) (issue : Issue) (r' : Reading) : Prop where
  listed : r'.listed = r.listed
  prepared : ∃ p : Issue, p.number = issue.number ∧ p.version = issue.version ∧ r'.prepared = r.prepared.upsert p
  settled : r'.settledSkipped = r.settledSkipped ∨ r'.settledSkipped = issue :: r.settledSkipped

theorem prepareFromEvents_prepared (texts : Texts) (override : RepoOverride) (answers : IssueAnswers)
    (recordStands : Bool) (r : Reading) (issue : Issue) :
    Prepared r issue (prepareFromEvents texts override answers recordStands r issue) := by
  unfold prepareFromEvents
  split
  · exact ⟨rfl, ⟨_, by simp, by simp, rfl⟩, Or.inl rfl⟩
  · split
    · exact ⟨rfl, ⟨issue, rfl, rfl, rfl⟩, Or.inl rfl⟩
    · exact ⟨rfl, ⟨_, by simp, by simp, rfl⟩, Or.inl rfl⟩

theorem qualifyPrepared_prepared (texts : Texts) (c : CycleInput) (override : RepoOverride) (cap : Nat)
    (answers : IssueAnswers) (existing : Option IssueRecord) (r : Reading) (issue : Issue) :
    Prepared r issue (qualifyPrepared texts c override cap answers existing r issue) := by
  unfold qualifyPrepared
  extract_lets
  split_ifs
  · exact ⟨rfl, ⟨issue, rfl, rfl, rfl⟩, Or.inr rfl⟩
  · exact ⟨rfl, ⟨issue, rfl, rfl, rfl⟩, Or.inl rfl⟩
  · exact ⟨rfl, ⟨issue, rfl, rfl, rfl⟩, Or.inl rfl⟩
  · exact ⟨rfl, ⟨issue, rfl, rfl, rfl⟩, Or.inl rfl⟩
  · exact ⟨rfl, ⟨issue, rfl, rfl, rfl⟩, Or.inr rfl⟩
  · exact ⟨rfl, ⟨issue, rfl, rfl, rfl⟩, Or.inl rfl⟩
  · obtain ⟨hlisted, hprepared, hsettled⟩ := prepareFromEvents_prepared texts override answers _ _ issue
    exact ⟨hlisted, hprepared, hsettled⟩

theorem qualifyForMinimum_prepared (texts : Texts) (c : CycleInput) (repo : String) (cap : Nat)
    (answers : IssueAnswers) (records : Records) (r : Reading) (issue : Issue) :
    Prepared { r with listed := r.listed ++ [issue] } issue
      (qualifyForMinimum texts c repo cap answers records r issue).2 := by
  unfold qualifyForMinimum
  dsimp only
  split
  · exact ⟨rfl, ⟨issue, rfl, rfl, rfl⟩, Or.inl rfl⟩
  · exact qualifyPrepared_prepared ..

theorem Prepared.sound {r r' : Reading} {issue : Issue} (h : Prepared { r with listed := r.listed ++ [issue] } issue r')
    (hr : r.Sound) : r'.Sound := by
  obtain ⟨p, hnumber, hversion, hprepared⟩ := h.prepared
  have hlisted : r'.listed = r.listed ++ [issue] := h.listed
  refine ⟨?_, ?_, ?_⟩
  · intro x hx
    rw [hlisted, List.mem_append, List.mem_singleton] at hx
    rw [hprepared, Table.find?_upsert]
    split
    · rfl
    · rename_i hne
      rcases hx with hx | rfl
      · exact hr.prepared x hx
      · exact absurd hnumber hne
  · intro q hq
    rw [hprepared, Table.mem_upsert] at hq
    rw [hlisted]
    rcases hq with ⟨hq, -⟩ | rfl
    · obtain ⟨y, hy, heq⟩ := hr.version q hq
      exact ⟨y, List.mem_append_left _ hy, heq⟩
    · exact ⟨issue, List.mem_append_right _ List.mem_cons_self, hnumber.symm, hversion.symm⟩
  · intro y hy
    rw [hlisted]
    rcases h.settled with hsettled | hsettled
    · rw [hsettled] at hy
      exact List.mem_append_left _ (hr.settled y hy)
    · rw [hsettled] at hy
      rcases List.mem_cons.mp hy with rfl | hy
      · exact List.mem_append_right _ List.mem_cons_self
      · exact List.mem_append_left _ (hr.settled y hy)

theorem qualifyPage_listed (texts : Texts) (c : CycleInput) (repo : String) (answers : Issue → IssueAnswers)
    (records : Records) {r : Reading} (hr : r.Sound) (chunk : List Issue) :
    (qualifyPage texts c repo answers records r chunk).2.listed = r.listed ++ chunk.filter (fun i => !i.pullRequest) ∧
      (qualifyPage texts c repo answers records r chunk).2.Sound := by
  unfold qualifyPage
  generalize chunk.filter (fun i => !i.pullRequest) = issues
  induction issues generalizing records r with
  | nil => exact ⟨(List.append_nil _).symm, hr⟩
  | cons issue issues ih =>
    have hone := qualifyForMinimum_prepared texts c repo (buildIssueScanMinIssueResults (c.throttle texts repo))
      (answers issue) records r issue
    rw [List.foldl_cons]
    dsimp only
    generalize qualifyForMinimum texts c repo (buildIssueScanMinIssueResults (c.throttle texts repo))
      (answers issue) records r issue = result at hone ⊢
    obtain ⟨records', r'⟩ := result
    obtain ⟨hlisted, hsound⟩ := ih records' (hone.sound hr)
    refine ⟨?_, hsound⟩
    rw [hlisted, hone.listed, List.append_assoc]
    rfl

theorem Reading.Sound.item {scan : RepoScan} (h : scan.reading.Sound) (texts : Texts) (config : Config) {x : Issue}
    (hx : x ∈ scan.reading.listed) :
    (∃ y ∈ scan.reading.settledSkipped, y.number = x.number) ∨
    ∃ item ∈ scan.items texts config, item.repo = scan.repo ∧ item.issue.number = x.number ∧
      ∃ y ∈ scan.reading.listed, y.number = x.number ∧ y.version = item.issue.version := by
  by_cases hsettled : ∃ y ∈ scan.reading.settledSkipped, y.number = x.number
  · exact Or.inl hsettled
  · obtain ⟨p, hp⟩ := Option.isSome_iff_exists.mp (h.prepared x hx)
    have hnumber : p.number = x.number := Table.key_of_find? hp
    obtain ⟨y, hy, hyn, hyv⟩ := h.version p (Table.mem_of_find? hp)
    have hissue : p ∈ scan.reading.issues := by
      refine List.mem_filterMap.mpr ⟨x, hx, ?_⟩
      rw [if_neg, hp]
      simpa using hsettled
    -- the plan and the recorded skips keep the repository and the issue
    have hplan : ∃ item ∈ planRepoIssueScan texts config scan.repo scan.reading.issues,
        item.repo = scan.repo ∧ item.issue = p := by
      refine ⟨_, List.mem_map_of_mem hissue, ?_⟩
      split <;> exact ⟨rfl, rfl⟩
    obtain ⟨item, hitem, hrepo, hip⟩ := hplan
    refine Or.inr ⟨scan.reading.recordedSkip item, List.mem_map_of_mem hitem, ?_⟩
    have hskip : (scan.reading.recordedSkip item).repo = item.repo ∧
        (scan.reading.recordedSkip item).issue = item.issue := by
      unfold Reading.recordedSkip
      split
      · exact ⟨rfl, rfl⟩
      · split <;> exact ⟨rfl, rfl⟩
    rw [hskip.1, hskip.2, hip]
    exact ⟨hrepo, hnumber, y, hy, hyn.trans hnumber, hyv⟩

/-! ## Watermarks -/

theorem getWatermark_record (w : Watermarks) (input : Watermark) (repo : String) :
    getIssueEnrichmentRepoWatermark (recordIssueEnrichmentRepoWatermark w input) repo =
      if input.repo = repo then
        some { input with
          activatedAt :=
            ((getIssueEnrichmentRepoWatermark w input.repo).map (·.activatedAt)).getD input.activatedAt }
      else getIssueEnrichmentRepoWatermark w repo := by
  unfold recordIssueEnrichmentRepoWatermark getIssueEnrichmentRepoWatermark
  cases w.find? input.repo with
  | none => exact Table.find?_upsert w input repo
  | some existing => exact Table.find?_upsert w { input with activatedAt := existing.activatedAt } repo

theorem getWatermark_foldl (repos : List String) (t : Time) (w : Watermarks) (repo : String) :
    getIssueEnrichmentRepoWatermark (repos.foldl (fun w r => recordIssueEnrichmentRepoWatermark w ⟨r, t, t⟩) w) repo =
      if repo ∈ repos then
        some ⟨repo, ((getIssueEnrichmentRepoWatermark w repo).map (·.activatedAt)).getD t, t⟩
      else getIssueEnrichmentRepoWatermark w repo := by
  induction repos generalizing w with
  | nil => rfl
  | cons r repos ih =>
    rw [List.foldl_cons, ih, getWatermark_record]
    by_cases hr : r = repo
    · subst hr
      simp
    · have hr' : repo ≠ r := fun he => hr he.symm
      simp [hr, hr']

/-! ## Issues that change under a scan -/

/-- A listed copy is the issue as it still is, unless the issue is past the bound. -/
def Fresh (bound : Time) (issues : Table Issue.number) (listed : List Issue) : Prop :=
  ∀ y ∈ listed, ∀ x ∈ issues.rows, x.number = y.number → x.isOpen = true → x = y ∨ bound ≤ x.updatedAt

def Complete (bound : Time) (since : Option Time) (issues : Table Issue.number) (listed : List Issue) : Prop :=
  ∀ x ∈ openIssues issues since, x.pullRequest = false → x.updatedAt < bound → x ∈ listed

theorem mem_openIssues {issues : Table Issue.number} {since : Option Time} {x : Issue} :
    x ∈ openIssues issues since ↔ x ∈ issues.rows ∧ x.isOpen = true ∧ since.all (fun t => t ≤ x.updatedAt) = true := by
  unfold openIssues
  simp [List.mem_filter]

section
variable {bound : Time} {since : Option Time} {issues : Table Issue.number} {listed : List Issue} {x : Issue}
  {offset : Nat} {seen : Issue → Prop}

theorem Fresh.change (h : Fresh bound issues listed) (hx : x.isOpen = true → bound ≤ x.updatedAt) :
    Fresh bound (issues.upsert x) listed := by
  intro y hy z hz hnumber hopen
  rcases Table.mem_upsert.mp hz with ⟨hz, -⟩ | rfl
  · exact h y hy z hz hnumber hopen
  · exact Or.inr (hx hopen)

theorem Complete.change (h : Complete bound since issues listed) (hx : x.isOpen = true → bound ≤ x.updatedAt) :
    Complete bound since (issues.upsert x) listed := by
  intro z hz hissue hlow
  obtain ⟨hz, hopen, hsince⟩ := mem_openIssues.mp hz
  rcases Table.mem_upsert.mp hz with ⟨hz, -⟩ | rfl
  · exact h z (mem_openIssues.mpr ⟨hz, hopen, hsince⟩) hissue hlow
  · exact absurd (hx hopen) (not_le.mpr hlow)

theorem openIssues_upsert (issues : Table Issue.number) (since : Option Time) (x : Issue) :
    ((openIssues (issues.upsert x) since).filter fun i => i.number ≠ x.number) =
      (openIssues issues since).filter fun i => i.number ≠ x.number := by
  unfold openIssues
  rw [List.filter_comm, Table.filter_upsert, List.filter_comm]

theorem passed_open (h : Paging.Passed Issue.updatedAt bound offset (openIssues issues since) seen)
    (hx : x.isOpen = true) (hbound : bound ≤ x.updatedAt) (hsince : ∀ t, since = some t → t ≤ bound) :
    Paging.Passed Issue.updatedAt bound offset (openIssues (issues.upsert x) since) seen := by
  apply h.raise (fun i => decide (i.number ≠ x.number)) (openIssues_upsert issues since x)
  · intro y hy hnumber
    obtain ⟨hy, -, -⟩ := mem_openIssues.mp hy
    rcases Table.mem_upsert.mp hy with ⟨-, hne⟩ | rfl
    · simp only [decide_eq_false_iff_not, not_not] at hnumber
      exact absurd hnumber hne
    · exact hbound
  · have hold : ((openIssues issues since).filter fun i => !decide (i.number ≠ x.number)).length ≤ 1 := by
      have hsub : ((openIssues issues since).filter fun i => !decide (i.number ≠ x.number)).Sublist
          (issues.rows.filter fun i => Issue.number i = x.number) := by
        have hfun : (fun i : Issue => !decide (i.number ≠ x.number)) = fun i => decide (i.number = x.number) := by
          funext i
          simp
        rw [hfun]
        exact List.filter_sublist.filter _
      exact hsub.length_le.trans (Table.length_filter_key_le issues x.number)
    have hnew : x ∈ (openIssues (issues.upsert x) since).filter fun i => !decide (i.number ≠ x.number) := by
      refine List.mem_filter.mpr ⟨mem_openIssues.mpr ⟨Table.mem_upsert.mpr (Or.inr rfl), hx, ?_⟩, by simp⟩
      cases since with
      | none => rfl
      | some t => exact decide_eq_true ((hsince t rfl).trans hbound)
    exact hold.trans (List.length_pos_of_mem hnew)

theorem passed_closed (h : Paging.Passed Issue.updatedAt bound offset (openIssues issues since) seen)
    (hx : x.isOpen = false)
    (hbehind : ∀ y ∈ (Paging.listing Issue.updatedAt (openIssues issues since)).take offset, y.number ≠ x.number) :
    Paging.Passed Issue.updatedAt bound offset (openIssues (issues.upsert x) since) seen := by
  have hleft : openIssues (issues.upsert x) since = (openIssues issues since).filter fun i => i.number ≠ x.number := by
    rw [← openIssues_upsert, eq_comm, List.filter_eq_self]
    intro y hy
    obtain ⟨hy, hopen, -⟩ := mem_openIssues.mp hy
    rcases Table.mem_upsert.mp hy with ⟨-, hne⟩ | rfl
    · exact decide_eq_true hne
    · rw [hx] at hopen
      cases hopen
  rw [hleft]
  exact h.leave _ fun y hy => decide_eq_true (hbehind y hy)

end

/-! ## What holds of a run -/

structure Current (s : State) (repo : String) (x : Issue) : Prop where
  mem : x ∈ (s.issues repo).rows
  isOpen : x.isOpen = true
  notPull : x.pullRequest = false

/-- What is updated since activation and stands below the watermark was settled at its current version. -/
def WatermarkSettled (s : State) : Prop :=
  ∀ repo w, getIssueEnrichmentRepoWatermark s.watermarks repo = some w → ∀ x, Current s repo x →
    w.activatedAt < x.touchedAt → x.updatedAt < w.lastCheckedAt → (repo, x.number, x.version) ∈ s.settled

/-- GitHub reports a change made now at the watermark or later, and at the start of the running cycle or later. -/
structure InTime (s : State) (repo : String) : Prop where
  watermark : ∀ w, getIssueEnrichmentRepoWatermark s.watermarks repo = some w → w.lastCheckedAt ≤ wholeSecond s.now
  cycle : ∀ c, s.cycle = some c → repo ∈ c.input.repos → c.input.checkedAt ≤ wholeSecond s.now

/-- The issue is not among those that the pages read so far pass over. -/
def BehindPages (texts : Texts) (s : State) (repo : String) (number : Nat) : Prop :=
  ∀ c todo pagesRead reading scans, s.cycle = some c → c.phase = .scanning (repo :: todo) pagesRead reading scans →
    ∀ x ∈ (Paging.listing Issue.updatedAt (openIssues (s.issues repo) (c.input.since texts repo))).take
        (pagesRead * perPage),
      x.number ≠ number

/-- What is opened or updated comes in time, and what closes stands behind the pages. -/
def Undisturbed (texts : Texts) (s : State) : Label → Prop
  | .change repo issue => if issue.isOpen then InTime s repo else BehindPages texts s repo issue.number
  | _ => True

structure ScanSound (texts : Texts) (c : CycleInput) (issues : String → Table Issue.number) (scan : RepoScan) : Prop where
  repo : scan.repo ∈ c.repos
  reading : scan.reading.Sound
  fresh : Fresh c.checkedAt (issues scan.repo) scan.reading.listed
  allowed : scan.allowed = true → (resolveIssueEnrichmentRepoPolicy texts c.config scan.repo).allowed = true
  complete : scan.ok = true → scan.allowed = true → scan.truncated = false →
    Complete c.checkedAt (c.since texts scan.repo) (issues scan.repo) scan.reading.listed

/-- The scan of a repository between two of its pages. -/
structure Reads (texts : Texts) (c : CycleInput) (issues : String → Table Issue.number) (repo : String) (pagesRead : Nat)
    (reading : Reading) : Prop where
  sound : reading.Sound
  fresh : Fresh c.checkedAt (issues repo) reading.listed
  passed : Paging.Passed Issue.updatedAt c.checkedAt (pagesRead * perPage)
    (openIssues (issues repo) (c.since texts repo)) fun x => x.pullRequest = false → x ∈ reading.listed

def PhaseSound (texts : Texts) (c : CycleInput) (issues : String → Table Issue.number) (records : Records) : Phase → Prop
  | .scanning todo pagesRead reading scans =>
    (∀ repo ∈ todo, repo ∈ c.repos) ∧ (scans.map (·.repo) ++ todo).Nodup ∧
      (∀ scan ∈ scans, ScanSound texts c issues scan) ∧
      ∀ repo rest, todo = repo :: rest → Reads texts c issues repo pagesRead reading
  | .settling st =>
    (st.scans.map (·.repo)).Nodup ∧ (∀ scan ∈ st.scans, ScanSound texts c issues scan) ∧
      Accounts texts c records st

def daemonOptions (config : Config) (dryRun : Bool) : CycleOptions := { config, dryRun }

structure CycleSound (texts : Texts) (s : State) (c : CycleInput) : Prop where
  options : c.toCycleOptions = daemonOptions c.config c.dryRun
  checkedAt : c.checkedAt ≤ s.now
  since : ∀ repo ∈ c.repos,
    c.sinceByRepo repo = (getIssueEnrichmentRepoWatermark s.watermarks repo).map (·.lastCheckedAt)
  bounded : ∀ repo ∈ c.repos, ∀ t, c.sinceByRepo repo = some t → t ≤ c.checkedAt
  activation : ∀ repo ∈ c.repos, (resolveIssueEnrichmentRepoPolicy texts c.config repo).allowed = true →
    c.sinceByRepo repo = none → (c.throttle texts repo).processExistingOpenIssuesOnActivation = true

structure Inv (texts : Texts) (s : State) : Prop where
  touched : ∀ repo, ∀ x ∈ (s.issues repo).rows, x.touchedAt ≤ s.now
  watermark : ∀ repo w, getIssueEnrichmentRepoWatermark s.watermarks repo = some w → w.lastCheckedAt ≤ s.now
  settled : WatermarkSettled s
  cycle : ∀ c, s.cycle = some c → CycleSound texts s c.input ∧ PhaseSound texts c.input s.issues s.records c.phase

section
variable {texts : Texts} {s : State} {c : CycleInput} (h : CycleSound texts s c)
include h

theorem CycleSound.since_eq (repo : String) : c.since texts repo = (c.sinceByRepo repo).or
    (buildIssueScanSince c.checkedAt (c.throttle texts repo).processExistingOpenIssuesOnActivation
      (c.throttle texts repo)) := by
  have hsince : c.explicitSince = none := congrArg CycleOptions.explicitSince h.options
  have hexisting : c.includeExisting = false := congrArg CycleOptions.includeExisting h.options
  unfold CycleInput.since
  rw [hsince, hexisting, Option.none_or, Bool.false_or]
  cases c.sinceByRepo repo with
  | none => rfl
  | some t => rfl

theorem CycleSound.issueNumbers : c.issueNumbers = none := congrArg CycleOptions.issueNumbers h.options

end

theorem since_le {texts : Texts} {s : State} {c : CycleInput} (h : CycleSound texts s c) {repo : String}
    (hrepo : repo ∈ c.repos) {t : Time} (ht : c.since texts repo = some t) : t ≤ c.checkedAt := by
  rw [h.since_eq] at ht
  cases hsince : c.sinceByRepo repo with
  | some t' =>
    rw [hsince] at ht
    obtain rfl := Option.some.inj ht
    exact h.bounded repo hrepo _ hsince
  | none =>
    rw [hsince, Option.none_or] at ht
    unfold buildIssueScanSince at ht
    split at ht
    · cases ht
    · obtain rfl := Option.some.inj ht
      exact Nat.sub_le _ _

/-! ## Changes between the steps of a cycle -/

section
variable {texts : Texts} {s : State} {repo : String} {issue : Issue}

def changedIssues (s : State) (repo : String) (issue : Issue) : String → Table Issue.number :=
  fun r => if r = repo then (s.issues r).upsert (changed s repo issue) else s.issues r

theorem changedIssues_self : changedIssues s repo issue repo = (s.issues repo).upsert (changed s repo issue) :=
  if_pos rfl

theorem changedIssues_of_ne {r : String} (h : r ≠ repo) : changedIssues s repo issue r = s.issues r := if_neg h

theorem undisturbed_open (h : Undisturbed texts s (.change repo issue)) (hopen : issue.isOpen = true) :
    InTime s repo := by
  unfold Undisturbed at h
  simpa only [hopen, if_true] using h

theorem undisturbed_closed (h : Undisturbed texts s (.change repo issue)) (hclosed : issue.isOpen = false) :
    BehindPages texts s repo issue.number := by
  unfold Undisturbed at h
  simpa only [hclosed, Bool.false_eq_true, if_false] using h

theorem ScanSound.change {c : Cycle} (hc : s.cycle = some c) (h : Undisturbed texts s (.change repo issue))
    {scan : RepoScan} (hscan : ScanSound texts c.input s.issues scan) :
    ScanSound texts c.input (changedIssues s repo issue) scan := by
  by_cases hr : scan.repo = repo
  · have hx : (changed s repo issue).isOpen = true → c.input.checkedAt ≤ (changed s repo issue).updatedAt := by
      intro hopen
      exact (undisturbed_open h hopen).cycle c hc (hr ▸ hscan.repo)
    refine ⟨hscan.repo, hscan.reading, ?_, hscan.allowed, ?_⟩
    · rw [hr, changedIssues_self, ← hr]
      exact hscan.fresh.change (hr ▸ hx)
    · intro hok hallowed htruncated
      rw [hr, changedIssues_self, ← hr]
      exact (hscan.complete hok hallowed htruncated).change (hr ▸ hx)
  · refine ⟨hscan.repo, hscan.reading, ?_, hscan.allowed, ?_⟩
    · rw [changedIssues_of_ne hr]
      exact hscan.fresh
    · rw [changedIssues_of_ne hr]
      exact hscan.complete

theorem Reads.change {c : Cycle} (hc : s.cycle = some c) (hsound : CycleSound texts s c.input)
    (h : Undisturbed texts s (.change repo issue)) {r : String} {rest : List String} {pagesRead : Nat}
    {reading : Reading} {scans : List RepoScan} (hphase : c.phase = .scanning (r :: rest) pagesRead reading scans)
    (hrepo : r ∈ c.input.repos) (hreads : Reads texts c.input s.issues r pagesRead reading) :
    Reads texts c.input (changedIssues s repo issue) r pagesRead reading := by
  by_cases hr : r = repo
  · subst hr
    cases hopen : issue.isOpen with
    | true =>
      have hbound : c.input.checkedAt ≤ (changed s r issue).updatedAt := (undisturbed_open h hopen).cycle c hc hrepo
      refine ⟨hreads.sound, ?_, ?_⟩
      · rw [changedIssues_self]
        exact hreads.fresh.change fun _ => hbound
      · rw [changedIssues_self]
        exact passed_open hreads.passed hopen hbound fun t ht => since_le hsound hrepo ht
    | false =>
      have hclosed : (changed s r issue).isOpen = false := hopen
      refine ⟨hreads.sound, ?_, ?_⟩
      · rw [changedIssues_self]
        refine hreads.fresh.change ?_
        rw [hclosed]
        nofun
      · rw [changedIssues_self]
        exact passed_closed hreads.passed hclosed
          (undisturbed_closed h hopen c rest pagesRead reading scans hc hphase)
  · refine ⟨hreads.sound, ?_, ?_⟩
    · rw [changedIssues_of_ne hr]
      exact hreads.fresh
    · rw [changedIssues_of_ne hr]
      exact hreads.passed

theorem inv_change (h : Inv texts s) (hun : Undisturbed texts s (.change repo issue)) :
    Inv texts { s with issues := changedIssues s repo issue } where
  touched := by
    intro r x hx
    by_cases hr : r = repo
    · subst hr
      change x ∈ (changedIssues s r issue r).rows at hx
      rw [changedIssues_self] at hx
      rcases Table.mem_upsert.mp hx with ⟨hx, -⟩ | rfl
      · exact h.touched r x hx
      · exact le_refl s.now
    · change x ∈ (changedIssues s repo issue r).rows at hx
      rw [changedIssues_of_ne hr] at hx
      exact h.touched r x hx
  watermark := h.watermark
  settled := by
    intro r w hw x hx hactivated hlow
    have hmem : x ∈ (changedIssues s repo issue r).rows := hx.mem
    by_cases hr : r = repo
    · subst hr
      rw [changedIssues_self] at hmem
      rcases Table.mem_upsert.mp hmem with ⟨hmem, -⟩ | rfl
      · exact h.settled r w hw x ⟨hmem, hx.isOpen, hx.notPull⟩ hactivated hlow
      · exact absurd ((undisturbed_open hun hx.isOpen).watermark w hw) (not_le.mpr hlow)
    · rw [changedIssues_of_ne hr] at hmem
      exact h.settled r w hw x ⟨hmem, hx.isOpen, hx.notPull⟩ hactivated hlow
  cycle := by
    intro c hcycle
    have hc : s.cycle = some c := hcycle
    obtain ⟨hsound, hphase⟩ := h.cycle c hc
    refine ⟨⟨hsound.options, hsound.checkedAt, hsound.since, hsound.bounded, hsound.activation⟩, ?_⟩
    dsimp only
    generalize hp : c.phase = phase at hphase ⊢
    cases phase with
    | scanning todo pagesRead reading scans =>
      obtain ⟨htodo, hnodup, hscans, hreads⟩ := hphase
      refine ⟨htodo, hnodup, fun scan hscan => (hscans scan hscan).change hc hun, ?_⟩
      rintro r rest rfl
      exact (hreads r rest rfl).change hc hsound hun hp (htodo r List.mem_cons_self)
    | settling st =>
      obtain ⟨hnodup, hscans, haccounts⟩ := hphase
      exact ⟨hnodup, fun scan hscan => (hscans scan hscan).change hc hun, haccounts⟩

end

/-! ## Starting a cycle -/

theorem nodup_eraseDups (l : List String) : l.eraseDups.Nodup := by
  induction hn : l.length using Nat.strong_induction_on generalizing l with
  | _ n ih =>
    cases l with
    | nil => exact List.nodup_nil
    | cons a l =>
      rw [List.eraseDups_cons, List.nodup_cons]
      refine ⟨by simp [List.mem_eraseDups], ih _ ?_ _ rfl⟩
      rw [← hn, List.length_cons]
      exact Nat.lt_succ_of_le (List.length_filter_le _ _)

theorem getWatermark_startCycle (texts : Texts) (options : CycleOptions) (s : State) (repo : String) :
    getIssueEnrichmentRepoWatermark (startCycle texts options s).watermarks repo =
      if (!options.dryRun && options.advanceWatermarks) = true ∧ repo ∈ baselineRepos texts options s.watermarks then
        some ⟨repo, s.now, s.now⟩
      else getIssueEnrichmentRepoWatermark s.watermarks repo := by
  unfold startCycle
  dsimp only
  cases !options.dryRun && options.advanceWatermarks with
  | false => simp
  | true =>
    simp only [if_true, true_and]
    rw [getWatermark_foldl]
    split
    · rename_i hmem
      -- a baselined repository had no watermark
      have hscans := (List.mem_filter.mp hmem).2
      unfold scansRepo at hscans
      cases hw : getIssueEnrichmentRepoWatermark s.watermarks repo with
      | none => rfl
      | some w => simp [hw] at hscans
    · rfl

theorem inv_start {texts : Texts} {s : State} (h : Inv texts s) (config : Config) (dryRun : Bool) :
    Inv texts (startCycle texts (daemonOptions config dryRun) s) where
  touched := h.touched
  watermark := by
    intro repo w hw
    rw [getWatermark_startCycle] at hw
    split at hw
    · obtain rfl := Option.some.inj hw
      exact le_refl s.now
    · exact h.watermark repo w hw
  settled := by
    intro repo w hw x hx hactivated hlow
    rw [getWatermark_startCycle] at hw
    split at hw
    · obtain rfl := Option.some.inj hw
      exact absurd (h.touched repo x hx.mem) (not_le.mpr hactivated)
    · exact h.settled repo w hw x ⟨hx.mem, hx.isOpen, hx.notPull⟩ hactivated hlow
  cycle := by
    intro c hc
    obtain rfl := Option.some.inj hc
    -- a repository that is scanned was not baselined
    have hkept : ∀ repo ∈ (canonicalIssueEnrichmentRepositories texts config).filter
          (scansRepo texts (daemonOptions config dryRun) s.watermarks),
        getIssueEnrichmentRepoWatermark (startCycle texts (daemonOptions config dryRun) s).watermarks repo =
          getIssueEnrichmentRepoWatermark s.watermarks repo := by
      intro repo hrepo
      rw [getWatermark_startCycle, if_neg]
      rintro ⟨-, hbaseline⟩
      have hnot := (List.mem_filter.mp hbaseline).2
      rw [(List.mem_filter.mp hrepo).2] at hnot
      cases hnot
    refine ⟨⟨rfl, le_refl s.now, ?_, ?_, ?_⟩, fun repo hrepo => hrepo, ?_, by simp, ?_⟩
    · intro repo hrepo
      dsimp only
      rw [hkept repo hrepo]
      rfl
    · intro repo _ t ht
      obtain ⟨w, hw, rfl⟩ := Option.map_eq_some_iff.mp ht
      exact h.watermark repo w hw
    · intro repo hrepo hallowed hnone
      have hscans := (List.mem_filter.mp hrepo).2
      have hw : getIssueEnrichmentRepoWatermark s.watermarks repo = none := Option.map_eq_none_iff.mp hnone
      unfold scansRepo at hscans
      have hactivation : (daemonOptions config dryRun).canUseActivationWatermark = true := rfl
      have hallowed : (resolveIssueEnrichmentRepoPolicy texts (daemonOptions config dryRun).config repo).allowed =
        true := hallowed
      simp only [hw, hallowed, hactivation, Bool.not_true, Option.isSome_none, Bool.or_false, Bool.false_or] at hscans
      exact hscans
    · exact (nodup_eraseDups _).filter _
    · intro repo rest _
      refine ⟨Reading.sound_empty, by simp [Fresh], ?_⟩
      rw [Nat.zero_mul]
      exact Paging.passed_zero

/-! ## Reading pages -/

theorem Inv.phase {texts : Texts} {s : State} {c : Cycle} (h : Inv texts s) (hc : s.cycle = some c) {records : Records}
    {phase : Phase} (hphase : PhaseSound texts c.input s.issues records phase) :
    Inv texts { s with records, cycle := some { c with phase } } where
  touched := h.touched
  watermark := h.watermark
  settled := fun repo w hw x hx => h.settled repo w hw x ⟨hx.mem, hx.isOpen, hx.notPull⟩
  cycle := by
    intro c' hc'
    obtain rfl := Option.some.inj hc'
    have hsound := (h.cycle c hc).1
    exact ⟨⟨hsound.options, hsound.checkedAt, hsound.since, hsound.bounded, hsound.activation⟩, hphase⟩

theorem Inv.stop {texts : Texts} {s : State} (h : Inv texts s) : Inv texts { s with cycle := none } where
  touched := h.touched
  watermark := h.watermark
  settled := fun repo w hw x hx => h.settled repo w hw x ⟨hx.mem, hx.isOpen, hx.notPull⟩
  cycle := fun _ hc => nomatch hc

section
variable {texts : Texts} {c : CycleInput} {issues : String → Table Issue.number} {records records' : Records}
  {repo : String} {todo : List String} {pagesRead : Nat} {reading : Reading} {scans : List RepoScan}

theorem PhaseSound.next (h : PhaseSound texts c issues records (.scanning (repo :: todo) pagesRead reading scans))
    {scan : RepoScan} (hscan : ScanSound texts c issues scan) (hrepo : scan.repo = repo) :
    PhaseSound texts c issues records' (.scanning todo 0 {} (scans ++ [scan])) := by
  obtain ⟨htodo, hnodup, hscans, -⟩ := h
  refine ⟨fun r hr => htodo r (List.mem_cons_of_mem repo hr), ?_, ?_, ?_⟩
  · rw [List.map_append, List.map_singleton, hrepo, List.append_assoc, List.singleton_append]
    exact hnodup
  · intro scan' hscan'
    rcases List.mem_append.mp hscan' with hscan' | hscan'
    · exact hscans scan' hscan'
    · obtain rfl := List.mem_singleton.mp hscan'
      exact hscan
  · intro r rest _
    refine ⟨Reading.sound_empty, by simp [Fresh], ?_⟩
    rw [Nat.zero_mul]
    exact Paging.passed_zero

theorem scanSound_empty (hrepo : repo ∈ c.repos) {scan : RepoScan} (hscan : scan.repo = repo)
    (hreading : scan.reading = {}) (hout : scan.ok = false ∨ scan.allowed = false)
    (hallowed : scan.allowed = true → (resolveIssueEnrichmentRepoPolicy texts c.config repo).allowed = true) :
    ScanSound texts c issues scan where
  repo := hscan ▸ hrepo
  reading := by
    rw [hreading]
    exact Reading.sound_empty
  fresh := by
    rw [hreading]
    simp [Fresh]
  allowed := hscan ▸ hallowed
  complete := by
    intro hok hallow
    rcases hout with hout | hout
    · rw [hout] at hok
      cases hok
    · rw [hout] at hallow
      cases hallow

theorem mem_chunk {s : State} {x : Issue} (h : x ∈ c.chunk texts repo pagesRead s) : x ∈ (s.issues repo).rows := by
  unfold CycleInput.chunk at h
  split at h
  · split at h
    · obtain ⟨number, -, hfound⟩ := List.mem_filterMap.mp h
      exact Table.mem_of_find? hfound
    · cases h
  · have hlisted := List.mem_of_mem_drop (List.mem_of_mem_take h)
    exact (mem_openIssues.mp (Paging.mem_listing.mp hlisted)).1

theorem chunk_eq (hnumbers : c.issueNumbers = none) (s : State) : c.chunk texts repo pagesRead s =
    Paging.page Issue.updatedAt (pagesRead * perPage) perPage (openIssues (s.issues repo) (c.since texts repo)) := by
  unfold CycleInput.chunk
  rw [hnumbers]

/-- One more page: what is listed is as it is now, and the offset passes over nothing unread. -/
theorem Reads.page {s : State} (hnumbers : c.issueNumbers = none)
    (h : Reads texts c s.issues repo pagesRead reading) (answers : Issue → IssueAnswers) :
    Reads texts c s.issues repo (pagesRead + 1)
      (qualifyPage texts c repo answers records reading (c.chunk texts repo pagesRead s)).2 := by
  obtain ⟨hlisted, hsound⟩ := qualifyPage_listed texts c repo answers records h.sound (c.chunk texts repo pagesRead s)
  refine ⟨hsound, ?_, ?_⟩
  · intro y hy x hx hnumber hopen
    rw [hlisted, List.mem_append] at hy
    rcases hy with hy | hy
    · exact h.fresh y hy x hx hnumber hopen
    · exact Or.inl ((s.issues repo).eq_of_key_eq hx (mem_chunk (List.mem_of_mem_filter hy)) hnumber)
  · rw [Nat.succ_mul]
    refine Paging.Passed.read (h.passed.mono ?_) ?_
    · intro x hx hissue
      rw [hlisted]
      exact List.mem_append_left _ (hx hissue)
    · intro x hx hissue
      rw [hlisted]
      rw [← chunk_eq hnumbers s] at hx
      exact List.mem_append_right _ (List.mem_filter.mpr ⟨hx, by rw [hissue]; rfl⟩)

theorem Reads.complete {s : State} (hnumbers : c.issueNumbers = none)
    (h : Reads texts c s.issues repo (pagesRead + 1) reading)
    (hshort : (c.chunk texts repo pagesRead s).length < perPage) :
    Complete c.checkedAt (c.since texts repo) (s.issues repo) reading.listed := by
  intro x hx hissue hlow
  have hpassed := h.passed
  rw [Nat.succ_mul] at hpassed
  rw [chunk_eq hnumbers s] at hshort
  exact hpassed.all hshort x hx hlow hissue

end

theorem inv_readPage {texts : Texts} {answers : Issue → IssueAnswers} {s s' : State} (h : Inv texts s)
    (hstep : readPage texts answers s = some s') : Inv texts s' := by
  unfold readPage at hstep
  obtain ⟨c, hc, hstep⟩ := Option.bind_eq_some_iff.mp hstep
  obtain ⟨hsound, hphase⟩ := h.cycle c hc
  have hnumbers := hsound.issueNumbers
  generalize hp : c.phase = phase at hphase hstep
  cases phase with
  | settling st => cases hstep
  | scanning todo pagesRead reading scans =>
    cases todo with
    | nil => cases hstep
    | cons repo todo =>
      have hrepo : repo ∈ c.input.repos := hphase.1 repo List.mem_cons_self
      have hreads := hphase.2.2.2 repo todo rfl
      dsimp only at hstep
      split at hstep
      · obtain rfl := Option.some.inj hstep
        exact h.phase hc (hphase.next (scanSound_empty hrepo rfl rfl (Or.inr rfl) nofun) rfl)
      · rename_i hallowed
        have hallowed : (resolveIssueEnrichmentRepoPolicy texts c.input.config repo).allowed = true := by
          simpa using hallowed
        have hread := @Reads.page texts c.input s.records repo pagesRead reading s hnumbers hreads answers
        generalize hq : qualifyPage texts c.input repo answers s.records reading (c.input.chunk texts repo pagesRead s) =
          result at hstep hread
        obtain ⟨records, reading'⟩ := result
        dsimp only at hstep hread
        split at hstep
        · rename_i hshort
          obtain rfl := Option.some.inj hstep
          exact h.phase hc (hphase.next ⟨hrepo, hread.sound, hread.fresh, fun _ => hallowed,
            fun _ _ _ => hread.complete hnumbers hshort⟩ rfl)
        · split at hstep
          · obtain rfl := Option.some.inj hstep
            exact h.phase hc (hphase.next ⟨hrepo, hread.sound, hread.fresh, fun _ => hallowed,
              fun _ _ htruncated => nomatch htruncated⟩ rfl)
          · obtain rfl := Option.some.inj hstep
            refine h.phase hc ⟨hphase.1, hphase.2.1, hphase.2.2.1, ?_⟩
            rintro r rest heq
            obtain ⟨rfl, -⟩ := List.cons.inj heq
            exact hread

theorem inv_readFails {texts : Texts} {s s' : State} (h : Inv texts s) (hstep : readFails texts s = some s') :
    Inv texts s' := by
  unfold readFails at hstep
  obtain ⟨c, hc, hstep⟩ := Option.bind_eq_some_iff.mp hstep
  have hphase := (h.cycle c hc).2
  generalize hp : c.phase = phase at hphase hstep
  cases phase with
  | settling st => cases hstep
  | scanning todo pagesRead reading scans =>
    cases todo with
    | nil => cases hstep
    | cons repo todo =>
      dsimp only at hstep
      split at hstep
      · rename_i hallowed
        obtain rfl := Option.some.inj hstep
        exact h.phase hc
          (hphase.next (scanSound_empty (hphase.1 repo List.mem_cons_self) rfl rfl (Or.inl rfl) fun _ => hallowed) rfl)
      · cases hstep

theorem inv_planSettling {texts : Texts} {s s' : State} (h : Inv texts s) (hstep : planSettling texts s = some s') :
    Inv texts s' := by
  obtain ⟨c, hc, -⟩ := Option.bind_eq_some_iff.mp hstep
  have hphase := (h.cycle c hc).2
  cases hp : c.phase with
  | settling st =>
    unfold planSettling at hstep
    simp [hc, hp] at hstep
  | scanning todo pagesRead reading scans =>
    rw [hp] at hphase
    cases todo with
    | cons repo todo =>
      unfold planSettling at hstep
      simp [hc, hp] at hstep
    | nil =>
      rcases planSettling_accounts hc hp hstep with rfl | ⟨records, st, rfl, hscans, haccounts⟩
      · exact h.stop
      · refine h.phase hc ⟨?_, ?_, haccounts⟩
        · rw [hscans]
          simpa using hphase.2.1
        · rw [hscans]
          exact hphase.2.2.1

/-! ## Finishing -/

theorem getWatermark_advance (c : CycleInput) (scans : List RepoScan) (items : List CycleItem) (w : Watermarks)
    (repo : String) :
    getIssueEnrichmentRepoWatermark (advanceWatermarks c scans items w) repo =
      if (!c.dryRun && c.advanceWatermarks) = true ∧ ∃ scan ∈ scans, scan.advances items = true ∧ scan.repo = repo then
        some ⟨repo, ((getIssueEnrichmentRepoWatermark w repo).map (·.activatedAt)).getD c.checkedAt, c.checkedAt⟩
      else getIssueEnrichmentRepoWatermark w repo := by
  unfold advanceWatermarks
  cases !c.dryRun && c.advanceWatermarks with
  | false => simp
  | true =>
    have hmap := getWatermark_foldl ((scans.filter fun scan => scan.advances items).map (·.repo)) c.checkedAt w repo
    rw [List.foldl_map] at hmap
    simp only [if_true, true_and]
    rw [hmap]
    simp [List.mem_map, List.mem_filter, and_assoc]

theorem settled_of_due {texts : Texts} {s : State} {c : Cycle} {st : Settling}
    (hsound : CycleSound texts s c.input) (hscans : ∀ scan ∈ st.scans, ScanSound texts c.input s.issues scan)
    (haccounts : Accounts texts c.input s.records st) (hexhausted : st.ledger.Exhausted)
    (hlive : c.input.dryRun = false) {scan : RepoScan} (hscan : scan ∈ st.scans)
    (hadvances : scan.advances (cycleItems texts c.input s.records st) = true) {x : Issue}
    (hx : Current s scan.repo x) (hlow : x.updatedAt < c.input.checkedAt)
    (hdue : ∀ w, getIssueEnrichmentRepoWatermark s.watermarks scan.repo = some w → w.lastCheckedAt ≤ x.updatedAt) :
    (scan.repo, x.number, x.version) ∈ settledVersions st.scans (cycleItems texts c.input s.records st) := by
  have hss := hscans scan hscan
  have hflags : scan.allowed = true ∧ scan.ok = true ∧ scan.truncated = false := by
    unfold RepoScan.advances at hadvances
    simp only [Bool.and_eq_true, Bool.not_eq_true'] at hadvances
    exact ⟨hadvances.1.1.1, hadvances.1.1.2, hadvances.1.2⟩
  have hlisted : x ∈ scan.reading.listed := by
    refine hss.complete hflags.2.1 hflags.1 hflags.2.2 x (mem_openIssues.mpr ⟨hx.mem, hx.isOpen, ?_⟩) hx.notPull hlow
    have hsince := hsound.since scan.repo hss.repo
    cases hw : getIssueEnrichmentRepoWatermark s.watermarks scan.repo with
    | some w =>
      rw [hw] at hsince
      rw [hsound.since_eq, hsince]
      exact decide_eq_true (hdue w hw)
    | none =>
      rw [hw] at hsince
      rw [hsound.since_eq, hsince]
      dsimp only [Option.map_none, Option.none_or]
      rw [hsound.activation scan.repo hss.repo (hss.allowed hflags.1) hsince]
      rfl
  -- every listed copy of the issue is the issue as it is now
  have hcopy : ∀ y ∈ scan.reading.listed, y.number = x.number → x = y := by
    intro y hy hnumber
    rcases hss.fresh y hy x hx.mem hnumber.symm hx.isOpen with heq | hbound
    · exact heq
    · exact absurd hbound (not_le.mpr hlow)
  rcases hss.reading.item texts c.input.config hlisted with ⟨y, hy, hnumber⟩ | ⟨item, hitem, hrepo, hnumber, y, hy, hyn, hyv⟩
  · obtain rfl := hcopy y (hss.reading.settled y hy) hnumber
    exact List.mem_append_right _ (List.mem_flatMap.mpr ⟨scan, hscan, List.mem_map_of_mem hy⟩)
  · obtain rfl := hcopy y hy hyn
    have hsettled := settled_of_advances haccounts hexhausted hlive hscan hadvances hitem hrepo
    rwa [hrepo, hnumber, ← hyv] at hsettled

theorem inv_finish {texts : Texts} {s : State} (h : Inv texts s) {c : Cycle} {st : Settling}
    (hsound : CycleSound texts s c.input) (hscans : ∀ scan ∈ st.scans, ScanSound texts c.input s.issues scan)
    (haccounts : Accounts texts c.input s.records st) (hexhausted : st.ledger.Exhausted) :
    Inv texts (finishCycle texts c st s) where
  touched := h.touched
  watermark := by
    intro repo w hw
    change getIssueEnrichmentRepoWatermark
      (advanceWatermarks c.input st.scans (cycleItems texts c.input s.records st) s.watermarks) repo = some w at hw
    rw [getWatermark_advance] at hw
    split at hw
    · obtain rfl := Option.some.inj hw
      exact hsound.checkedAt
    · exact h.watermark repo w hw
  settled := by
    intro repo w hw x hx hactivated hlow
    change getIssueEnrichmentRepoWatermark
      (advanceWatermarks c.input st.scans (cycleItems texts c.input s.records st) s.watermarks) repo = some w at hw
    change _ ∈ s.settled ++ settledVersions st.scans (cycleItems texts c.input s.records st)
    have hcurrent : Current s repo x := ⟨hx.mem, hx.isOpen, hx.notPull⟩
    rw [getWatermark_advance] at hw
    split at hw
    · rename_i hadvanced
      obtain ⟨hmoves, scan, hscan, hadvances, rfl⟩ := hadvanced
      have hlive : c.input.dryRun = false := by simpa using (Bool.and_eq_true_iff.mp hmoves).1
      obtain rfl := Option.some.inj hw
      by_cases hdue : ∀ w, getIssueEnrichmentRepoWatermark s.watermarks scan.repo = some w →
          w.lastCheckedAt ≤ x.updatedAt
      · exact List.mem_append_right _
          (settled_of_due hsound hscans haccounts hexhausted hlive hscan hadvances hcurrent hlow hdue)
      · push Not at hdue
        obtain ⟨w, hw, hbelow⟩ := hdue
        rw [hw] at hactivated
        exact List.mem_append_left _ (h.settled scan.repo w hw x hcurrent hactivated hbelow)
    · exact List.mem_append_left _ (h.settled repo w hw x hcurrent hactivated hlow)
  cycle := fun _ hc => nomatch hc

theorem inv_settleNext {texts : Texts} {answers : Answers} {s s' : State} (h : Inv texts s)
    (hstep : settleNext texts answers s = some s') : Inv texts s' := by
  obtain ⟨c, hc, -⟩ := Option.bind_eq_some_iff.mp hstep
  obtain ⟨hsound, hphase⟩ := h.cycle c hc
  cases hp : c.phase with
  | scanning todo pagesRead reading scans =>
    unfold settleNext at hstep
    simp [hc, hp] at hstep
  | settling st =>
    rw [hp] at hphase
    obtain ⟨hnodup, hscans, haccounts⟩ := hphase
    rcases settleNext_cases hc hp haccounts hstep with
      ⟨records, st', rfl, heq, haccounts'⟩ | ⟨rfl, haccounts', hexhausted⟩
    · exact h.phase hc ⟨heq ▸ hnodup, heq ▸ hscans, haccounts'⟩
    · exact inv_finish h hsound hscans haccounts' hexhausted

/-! ## Runs -/

theorem inv_step {texts : Texts} {s s' : State} {l : Label} (h : Inv texts s) (hun : Undisturbed texts s l)
    (hstep : step texts s l = some s') : Inv texts s' := by
  cases l with
  | tick now =>
    dsimp only [step] at hstep
    split at hstep
    · rename_i hle
      obtain rfl := Option.some.inj hstep
      refine ⟨fun repo x hx => (h.touched repo x hx).trans hle, fun repo w hw => (h.watermark repo w hw).trans hle,
        fun repo w hw x hx => h.settled repo w hw x ⟨hx.mem, hx.isOpen, hx.notPull⟩, ?_⟩
      intro c hc
      obtain ⟨hsound, hphase⟩ := h.cycle c hc
      exact ⟨⟨hsound.options, hsound.checkedAt.trans hle, hsound.since, hsound.bounded, hsound.activation⟩, hphase⟩
    · cases hstep
  | change repo issue =>
    obtain rfl := Option.some.inj hstep
    exact inv_change h hun
  | start config dryRun =>
    obtain ⟨-, rfl⟩ := beginCycle_eq_some.mp hstep
    exact inv_start h config dryRun
  | readPage answers => exact inv_readPage h hstep
  | readFails => exact inv_readFails h hstep
  | planSettling => exact inv_planSettling h hstep
  | settleNext answers => exact inv_settleNext h hstep
  | abort =>
    dsimp only [step] at hstep
    split at hstep
    · obtain rfl := Option.some.inj hstep
      exact h.stop
    · cases hstep

/-- No cycle has run yet, and nothing was touched in the future. -/
structure Initial (s : State) : Prop where
  touched : ∀ repo, ∀ x ∈ (s.issues repo).rows, x.touchedAt ≤ s.now
  watermarks : s.watermarks = .empty
  cycle : s.cycle = none
  settled : s.settled = []

theorem Initial.inv {texts : Texts} {s : State} (h : Initial s) : Inv texts s where
  touched := h.touched
  watermark := by
    intro repo w hw
    rw [h.watermarks] at hw
    cases hw
  settled := by
    intro repo w hw
    rw [h.watermarks] at hw
    cases hw
  cycle := by
    intro c hc
    rw [h.cycle] at hc
    cases hc

/-- The cycle that finishes here leaves an issue of the repository unread, put off or failed. -/
def LeavesUnsettled (texts : Texts) (s s' : State) (repo : String) : Prop :=
  ∃ c st, s.cycle = some c ∧ c.phase = .settling st ∧ ∃ scan ∈ st.scans, scan.repo = repo ∧
    (scan.ok = false ∨ scan.truncated = true ∨
      (∃ o ∈ cycleItems texts c.input s.records { st with ledger := st.ledger.next.2 }, o.item.repo = repo ∧
        (o.recordStatus = some .deferred ∨ o.recordStatus = some .failed)) ∨
      ∃ x, Current s repo x ∧ x.updatedAt < c.input.checkedAt ∧
        (∀ w, getIssueEnrichmentRepoWatermark s.watermarks repo = some w → w.lastCheckedAt ≤ x.updatedAt) ∧
        (repo, x.number, x.version) ∉ s'.settled)

theorem watermark_of_leavesUnsettled {texts : Texts} {s s' : State} {l : Label} (h : Inv texts s)
    (hstep : step texts s l = some s') {repo : String} (hleaves : LeavesUnsettled texts s s' repo) :
    getIssueEnrichmentRepoWatermark s'.watermarks repo = getIssueEnrichmentRepoWatermark s.watermarks repo := by
  obtain ⟨c, st, hc, hp, scan, hscan, rfl, hcause⟩ := hleaves
  cases l with
  | tick now =>
    dsimp only [step] at hstep
    split at hstep
    · obtain rfl := Option.some.inj hstep
      rfl
    · cases hstep
  | change repo issue =>
    obtain rfl := Option.some.inj hstep
    rfl
  | start config dryRun =>
    obtain ⟨hidle, -⟩ := beginCycle_eq_some.mp hstep
    rw [hc] at hidle
    cases hidle
  | readPage answers =>
    dsimp only [step] at hstep
    unfold readPage at hstep
    simp [hc, hp] at hstep
  | readFails =>
    dsimp only [step] at hstep
    unfold readFails at hstep
    simp [hc, hp] at hstep
  | planSettling =>
    dsimp only [step] at hstep
    unfold planSettling at hstep
    simp [hc, hp] at hstep
  | abort =>
    dsimp only [step] at hstep
    rw [if_pos (by rw [hc]; rfl)] at hstep
    obtain rfl := Option.some.inj hstep
    rfl
  | settleNext answers =>
    obtain ⟨hsound, hphase⟩ := h.cycle c hc
    rw [hp] at hphase
    obtain ⟨hnodup, hscans, haccounts⟩ := hphase
    rcases settleNext_cases hc hp haccounts hstep with ⟨records, st', rfl, -, -⟩ | ⟨rfl, haccounts', hexhausted⟩
    · rfl
    · change getIssueEnrichmentRepoWatermark (advanceWatermarks c.input st.scans
        (cycleItems texts c.input s.records { st with ledger := st.ledger.next.2 }) s.watermarks) scan.repo = _
      rw [getWatermark_advance, if_neg]
      rintro ⟨hmoves, scan', hscan', hadvances, hrepo⟩
      have hlive : c.input.dryRun = false := by simpa using (Bool.and_eq_true_iff.mp hmoves).1
      -- a repository is scanned once
      obtain rfl := List.inj_on_of_nodup_map hnodup hscan' hscan hrepo
      have hflags := hadvances
      unfold RepoScan.advances at hflags
      simp only [Bool.and_eq_true, Bool.not_eq_true', List.any_eq_false, Bool.or_eq_true, decide_eq_true_eq] at hflags
      rcases hcause with hok | htruncated | ⟨o, ho, hor, hostatus⟩ | ⟨x, hx, hlow, hdue, hunsettled⟩
      · rw [hok] at hflags
        cases hflags.1.1.2
      · rw [htruncated] at hflags
        cases hflags.1.2
      · exact hflags.2 o ho ⟨hor, hostatus⟩
      · have hscans' : ∀ scan ∈ ({ st with ledger := st.ledger.next.2 } : Settling).scans,
            ScanSound texts c.input s.issues scan := hscans
        exact hunsettled (List.mem_append_right _
          (settled_of_due hsound hscans' haccounts' hexhausted hlive hscan hadvances hx hlow hdue))

/-- In a run without a change that comes too late or from before the pages, no watermark passes an unsettled issue. -/
theorem watermark_never_passes (texts : Texts) {start s : State} {ls : List Label} (hstart : Initial start)
    (hrun : run (step texts) start ls = some s) (hun : Along (step texts) (Undisturbed texts) start ls) :
    WatermarkSettled s ∧
      ∀ l s' repo, step texts s l = some s' → LeavesUnsettled texts s s' repo →
        getIssueEnrichmentRepoWatermark s'.watermarks repo = getIssueEnrichmentRepoWatermark s.watermarks repo := by
  have hinv : Inv texts s := hun.invariant (fun _ _ _ h hl hstep => inv_step h hl hstep) hstart.inv hrun
  exact ⟨hinv.settled, fun l s' repo hstep hleaves => watermark_of_leavesUnsettled hinv hstep hleaves⟩

/-! ## Runs of one repository -/

def plainTexts : Texts := { toLowerCase := id, redactSecrets := id }

def oneRepo : Config := { allowlist := ["acme/site"] }

/-- A cycle that scans nothing: the first one of a repository. -/
def baseline : List Label := [.start oneRepo false, .planSettling, .settleNext {}]

def left (ls : List Label) : Option (Option Watermark × Option Issue × List (String × Nat × Nat)) :=
  (run (step plainTexts) {} ls).map fun s =>
    (getIssueEnrichmentRepoWatermark s.watermarks "acme/site", (s.issues "acme/site").find? 101, s.settled)

def Label.changes : Label → Bool
  | .change .. => true
  | _ => false

theorem along_of_unchanged {texts : Texts} {s : State} {ls : List Label} (h : ls.all (fun l => !l.changes) = true) :
    Along (step texts) (Undisturbed texts) s ls := by
  induction ls generalizing s with
  | nil => trivial
  | cons l ls ih =>
    rw [List.all_cons, Bool.and_eq_true] at h
    refine ⟨?_, fun t _ => ih h.2⟩
    cases l with
    | change repo issue => cases h.1
    | _ => trivial

/-- An issue is opened a while after the baseline, and the next cycle finds and records it. -/
def openedThenScanned : List Label :=
  (.tick 10000 :: baseline ++ [.tick 20000]) ++
    (.change "acme/site" { number := 101 } ::
      [.tick 30000, .start oneRepo false, .readPage fun _ => {}, .planSettling, .settleNext {}, .settleNext {}])

theorem openedThenScanned_settled :
    left openedThenScanned = some (some ⟨"acme/site", 10000, 30000⟩,
      some { number := 101, version := 1, touchedAt := 20000 }, [("acme/site", 101, 1)]) ∧
    ∃ s, run (step plainTexts) {} openedThenScanned = some s ∧ WatermarkSettled s := by
  have hleft : left openedThenScanned = some (some ⟨"acme/site", 10000, 30000⟩,
      some { number := 101, version := 1, touchedAt := 20000 }, [("acme/site", 101, 1)]) := by
    decide +kernel
  refine ⟨hleft, ?_⟩
  obtain ⟨s, hrun, -⟩ := Option.map_eq_some_iff.mp hleft
  refine ⟨s, hrun, (watermark_never_passes plainTexts ⟨?_, rfl, rfl, rfl⟩ hrun ?_).1⟩
  · intro repo x hx
    cases hx
  · refine (along_of_unchanged (by decide)).append ?_
    intro t ht
    -- at the change no cycle runs, and the watermark stands seconds back
    have hview : (run (step plainTexts) {} (.tick 10000 :: baseline ++ [.tick 20000])).map
        (fun s => (getIssueEnrichmentRepoWatermark s.watermarks "acme/site", s.now, s.cycle.isNone)) =
        some (some ⟨"acme/site", 10000, 10000⟩, 20000, true) := by
      decide +kernel
    rw [ht, Option.map_some, Option.some.injEq, Prod.mk.injEq, Prod.mk.injEq] at hview
    obtain ⟨hw, hnow, hidle⟩ := hview
    refine ⟨⟨?_, ?_⟩, fun u _ => along_of_unchanged (by decide)⟩
    · intro w hw'
      rw [hw] at hw'
      obtain rfl := Option.some.inj hw'
      rw [hnow]
      decide
    · intro c hc
      rw [hc] at hidle
      cases hidle

/-! ## Two ways to miss an issue -/

/-- The watermark stands in the middle of a second, and an issue is opened in the rest of it. -/
def lateInTheSecond : List Label :=
  .tick 10200 :: baseline ++ [.tick 10500, .change "acme/site" { number := 101 }]

/-- An issue stands on the second page; a pull request of the first one closes before the second is read. -/
def closedBetweenPages : List Label :=
  .tick 10000 :: baseline ++ [.tick 20000, .change "acme/site" { number := 101 }, .tick 30000] ++
    ((List.range 100).map fun n => .change "acme/site" { number := n + 1, pullRequest := true }) ++
    [.tick 40000, .start oneRepo false, .readPage fun _ => {},
      .change "acme/site" { number := 1, pullRequest := true, isOpen := false },
      .readPage fun _ => {}, .planSettling, .settleNext {}]

theorem not_watermarkSettled {ls : List Label} {w : Watermark} {x : Issue} {settled : List (String × Nat × Nat)}
    (h : left ls = some (some w, some x, settled)) (hopen : x.isOpen = true) (hissue : x.pullRequest = false)
    (hactivated : w.activatedAt < x.touchedAt) (hlow : x.updatedAt < w.lastCheckedAt)
    (hnot : ("acme/site", x.number, x.version) ∉ settled) :
    ∃ s, run (step plainTexts) {} ls = some s ∧ ¬WatermarkSettled s := by
  obtain ⟨s, hrun, hleft⟩ := Option.map_eq_some_iff.mp h
  obtain ⟨hw, hrest⟩ := Prod.mk.inj hleft
  obtain ⟨hx, rfl⟩ := Prod.mk.inj hrest
  refine ⟨s, hrun, fun hsettled => hnot ?_⟩
  exact hsettled "acme/site" w hw x ⟨Table.mem_of_find? hx, hopen, hissue⟩ hactivated hlow

theorem watermark_passes_unsettled :
    (∃ s, run (step plainTexts) {} lateInTheSecond = some s ∧ ¬WatermarkSettled s) ∧
    ∃ s, run (step plainTexts) {} closedBetweenPages = some s ∧ ¬WatermarkSettled s := by
  constructor
  · have h : left lateInTheSecond = some
        (some ⟨"acme/site", 10200, 10200⟩, some { number := 101, version := 1, touchedAt := 10500 }, []) := by
      decide +kernel
    exact not_watermarkSettled h rfl rfl (by decide) (by decide) (by simp)
  · have h : left closedBetweenPages = some
        (some ⟨"acme/site", 10000, 40000⟩, some { number := 101, version := 1, touchedAt := 20000 }, []) := by
      decide +kernel
    exact not_watermarkSettled h rfl rfl (by decide) (by decide) (by simp)

end NeonDiff.Enrichment
