import NeonDiff.Worktrees.Cleanup

/-! # What the cleanup may remove -/

namespace NeonDiff.Worktrees

open NeonDiff.Lib.JsText

structure GitLetsGo (host : TextHost) (probes : Probes) (owned : OwnedName) (mirrorPath path : AbsPath) : Prop where
  mirror : ∃ stat, probes.lstat mirrorPath = .ok stat ∧ stat.kind = .directory
  bare : (probes.runGit ["--git-dir", pathText mirrorPath, "rev-parse", "--is-bare-repository"]).trimmed = "true".toList
  common : ∃ real, probes.realpath (pathText mirrorPath) = .ok real ∧
    probes.realpath (String.ofList (probes.runGit
      ["-C", pathText path, "rev-parse", "--path-format=absolute", "--git-common-dir"]).trimmed) = .ok real
  listed : ∃ stdout real, (probes.runGit ["--git-dir", pathText mirrorPath, "worktree", "list", "--porcelain"]).stdout =
      some stdout ∧ probes.realpath (pathText path) = .ok real ∧
    ∃ line ∈ splitLines stdout.toList, worktreeLine <+: line ∧
      probes.realpath (String.ofList (trim (line.drop 9))) = .ok real
  clean : (probes.runGit (SweepContext.statusArgs path)).ok = true ∧
    (probes.runGit (SweepContext.statusArgs path)).trimmed = []
  head : (probes.runGit (SweepContext.headArgs path)).ok = true ∧
    host.toLowerCase ((probes.runGit (SweepContext.headArgs path)).trimmed.take 12) = host.toLowerCase owned.headSha

/-- The worktree is one that no review needs. -/
structure Removable (host : TextHost) (input : CleanupInput) (world : World) (entry : DirEntry) (mirrorPath path : AbsPath) :
    Prop where
  noReviewRun : input.activeReviewRun = false
  noDryRun : input.dryRun = false
  place : path = input.workRoot ++ ["worktrees", entry.name]
  directory : entry.kind = .directory
  stale : ∃ stat, (world.entryProbes entry.name).lstat path = .ok stat ∧ stat.kind ≠ .symlink ∧
    input.retentionMs < input.nowMs - stat.mtimeMs
  child : ∃ real root, (world.entryProbes entry.name).realpath (pathText path) = .ok real ∧
    world.first.realpath (pathText (input.workRoot ++ ["worktrees"])) = .ok root ∧ real.dropLast = root ∧
    ∀ opened ∈ input.openWorktreePaths, (opened ≠ path ∧ opened ≠ real) ∧
      ∀ target, world.first.realpath (pathText opened) = .ok target → target ≠ path ∧ target ≠ real
  noActiveHead : ∀ head ∈ input.activeReviewHeads,
    (planPullWorktreePaths input.workRoot head.repo head.pullNumber head.headSha).worktreePath ≠ path
  owned : ∃ owned, parseOwnedWorktreeName entry.name.toList = some owned ∧
    mirrorPath = mirrorPathOf input.workRoot owned.safeRepo ∧
    GitLetsGo host (world.entryProbes entry.name) owned mirrorPath path

/-! ## What the checks let through -/

theorem mirror_of_isValidMirror {probes : Probes} {mirrorPath : AbsPath} (h : isValidMirror probes mirrorPath = true) :
    (∃ stat, probes.lstat mirrorPath = .ok stat ∧ stat.kind = .directory) ∧
      (probes.runGit ["--git-dir", pathText mirrorPath, "rev-parse", "--is-bare-repository"]).trimmed = "true".toList := by
  unfold isValidMirror at h
  split at h
  · exact absurd h Bool.false_ne_true
  · rename_i stat hstat
    split at h
    · exact absurd h Bool.false_ne_true
    · rename_i hkind
      rw [Bool.and_eq_true, decide_eq_true_eq] at h
      exact ⟨⟨stat, hstat, not_not.mp hkind⟩, h.2⟩

theorem realpath_of_namesWorktree {probes : Probes} {expected : AbsPath} {line : List Char}
    (h : namesWorktree probes expected line = true) :
    worktreeLine <+: line ∧ probes.realpath (String.ofList (trim (line.drop 9))) = .ok expected := by
  unfold namesWorktree at h
  split at h
  · rename_i hline
    split at h
    · rename_i real hreal
      rw [decide_eq_true_eq] at h
      exact ⟨hline, h ▸ hreal⟩
    · exact absurd h Bool.false_ne_true
  · exact absurd h Bool.false_ne_true

theorem registered_of_isRegistered {probes : Probes} {path mirrorPath : AbsPath}
    (h : isRegisteredToExpectedMirror probes path mirrorPath = .ok true) :
    (∃ real, probes.realpath (pathText mirrorPath) = .ok real ∧
      probes.realpath (String.ofList (probes.runGit
        ["-C", pathText path, "rev-parse", "--path-format=absolute", "--git-common-dir"]).trimmed) = .ok real) ∧
    ∃ stdout real, (probes.runGit ["--git-dir", pathText mirrorPath, "worktree", "list", "--porcelain"]).stdout =
        some stdout ∧ probes.realpath (pathText path) = .ok real ∧
      ∃ line ∈ splitLines stdout.toList, worktreeLine <+: line ∧
        probes.realpath (String.ofList (trim (line.drop 9))) = .ok real := by
  unfold isRegisteredToExpectedMirror at h
  dsimp only at h
  split at h
  · exact absurd h (by simp)
  · split at h
    · exact absurd h (by simp)
    · exact absurd h (by simp)
    · rename_i common mirror hcommon hmirror
      split at h
      · exact absurd h (by simp)
      · rename_i hsame
        obtain rfl := not_not.mp hsame
        split at h
        · exact absurd h (by simp)
        · split at h
          · exact absurd h (by simp)
          · rename_i expected hexpected
            split at h
            · exact absurd h (by simp)
            · rename_i stdout hstdout
              obtain ⟨line, hline, hnames⟩ := List.any_eq_true.mp (Except.ok.inj h)
              exact ⟨⟨common, hmirror, hcommon⟩, stdout, expected, hstdout, hexpected, line, hline,
                realpath_of_namesWorktree hnames⟩

namespace SweepContext

variable {context : SweepContext} {probes : Probes}

theorem judgeGit_ok {owned : OwnedName} {path mirrorPath : AbsPath} (h : context.judgeGit probes owned path = .ok mirrorPath) :
    context.input.dryRun = false ∧ mirrorPath = mirrorPathOf context.input.workRoot owned.safeRepo ∧
      GitLetsGo context.host probes owned mirrorPath path := by
  unfold judgeGit at h
  dsimp only at h
  split at h
  · exact absurd h (by simp)
  · rename_i hvalid
    split at h
    · split at h <;> exact absurd h (by simp)
    · exact absurd h (by simp)
    · rename_i hregistered
      split at h
      · exact absurd h (by simp)
      · rename_i hstatus
        split at h
        · exact absurd h (by simp)
        · rename_i hclean
          split at h
          · exact absurd h (by simp)
          · rename_i hhead
            split at h
            · exact absurd h (by simp)
            · rename_i hsame
              split at h
              · exact absurd h (by simp)
              · rename_i hdry
                obtain rfl := Except.ok.inj h
                simp only [Bool.not_eq_true, Bool.not_eq_false', Bool.or_eq_false_iff] at hvalid hstatus hclean hhead hdry
                obtain ⟨hmirror, hbare⟩ := mirror_of_isValidMirror hvalid
                obtain ⟨hcommon, hlisted⟩ := registered_of_isRegistered hregistered
                exact ⟨hdry, rfl,
                  { mirror := hmirror
                    bare := hbare
                    common := hcommon
                    listed := hlisted
                    clean := ⟨hstatus, List.isEmpty_iff.mp hclean⟩
                    head := ⟨hhead.1, not_not.mp hsame⟩ }⟩

/-- What the checks of an entry before git's let through. -/
structure PassedOn (context : SweepContext) (probes : Probes) (entry : DirEntry) (path : AbsPath) : Prop where
  noReviewRun : context.input.activeReviewRun = false
  directory : entry.kind = .directory
  stale : ∃ stat, probes.lstat path = .ok stat ∧ stat.kind ≠ .symlink ∧
    context.input.retentionMs < context.input.nowMs - stat.mtimeMs
  child : ∃ real, probes.realpath (pathText path) = .ok real ∧ real.dropLast = context.rootRealPath ∧
    path ∉ context.openPaths ∧ real ∉ context.openPaths
  noActiveHead : entry.name.toList ∉ context.activeNames

theorem judge_ok {entry : DirEntry} {owned : OwnedName} {mirrorPath : AbsPath}
    (h : context.judge probes entry owned = .ok mirrorPath) :
    PassedOn context probes entry (context.worktreesRoot ++ [entry.name]) ∧
      context.judgeGit probes owned (context.worktreesRoot ++ [entry.name]) = .ok mirrorPath := by
  unfold judge at h
  dsimp only at h
  split at h
  · exact absurd h (by simp)
  · split at h
    · exact absurd h (by simp)
    · rename_i hdirectory
      split at h
      · exact absurd h (by simp)
      · exact absurd h (by simp)
      · rename_i stat real hstat hreal
        split at h
        · exact absurd h (by simp)
        · rename_i hlink
          split at h
          · exact absurd h (by simp)
          · rename_i hchild
            split at h
            · exact absurd h (by simp)
            · rename_i hstale
              split at h
              · exact absurd h (by simp)
              · rename_i hrun
                split at h
                · exact absurd h (by simp)
                · rename_i hactive
                  split at h
                  · exact absurd h (by simp)
                  · rename_i hopen
                    obtain ⟨hpath, hrealOpen⟩ := not_or.mp hopen
                    refine ⟨?_, h⟩
                    exact
                      { noReviewRun := by simpa using hrun
                        directory := not_not.mp hdirectory
                        stale := ⟨stat, hstat, hlink, not_le.mp hstale⟩
                        child := ⟨real, hreal, not_not.mp hchild, hpath, hrealOpen⟩
                        noActiveHead := hactive }

/-- An entry that is passed over or fails is reported by its path. -/
def Spared (path : AbsPath) (outcome : CleanupOutcome) : Prop := outcome.path = path ∧ outcome.status ≠ .deleted

theorem spared_skipped (path : AbsPath) (reason : CleanupReason) : Spared path (skippedBecause path reason) :=
  ⟨rfl, nofun⟩

theorem spared_failed (path : AbsPath) (reason : CleanupReason) (error : Option String) :
    Spared path (failedWith path reason error) :=
  ⟨rfl, nofun⟩

theorem judgeGit_error {owned : OwnedName} {path : AbsPath} {outcome : CleanupOutcome}
    (h : context.judgeGit probes owned path = .error outcome) : Spared path outcome := by
  unfold judgeGit at h
  dsimp only at h
  repeat' split at h
  all_goals first
    | exact Except.error.inj h ▸ spared_skipped _ _
    | exact Except.error.inj h ▸ spared_failed _ _ _
    | exact absurd h (by simp)

theorem judge_error {entry : DirEntry} {owned : OwnedName} {outcome : CleanupOutcome}
    (h : context.judge probes entry owned = .error outcome) :
    Spared (context.worktreesRoot ++ [entry.name]) outcome := by
  unfold judge at h
  dsimp only at h
  repeat' split at h
  all_goals first
    | exact judgeGit_error h
    | exact Except.error.inj h ▸ spared_skipped _ _
    | exact Except.error.inj h ▸ spared_failed _ _ _

theorem cleanEntry_path (entry : DirEntry) (owned : OwnedName) :
    (context.cleanEntry probes entry owned).1.path = context.worktreesRoot ++ [entry.name] := by
  unfold cleanEntry
  dsimp only
  split
  · rename_i outcome hjudge
    exact (judge_error hjudge).1
  · split
    · rfl
    · split
      · rfl
      · rfl

theorem judge_of_removal {entry : DirEntry} {owned : OwnedName} {removal : Removal}
    (h : (context.cleanEntry probes entry owned).2 = some removal) :
    removal.2 = context.worktreesRoot ++ [entry.name] ∧ context.judge probes entry owned = .ok removal.1 := by
  unfold cleanEntry at h
  dsimp only at h
  split at h
  · exact absurd h (by simp)
  · rename_i mirrorPath hjudge
    have hremoval : some (mirrorPath, context.worktreesRoot ++ [entry.name]) = some removal := by
      split at h
      · exact h
      · split at h
        · exact h
        · exact h
    obtain rfl := Option.some.inj hremoval
    exact ⟨rfl, hjudge⟩

theorem removal_of_deleted {entry : DirEntry} {owned : OwnedName}
    (h : (context.cleanEntry probes entry owned).1.status = .deleted) :
    ∃ mirrorPath, (context.cleanEntry probes entry owned).2 = some (mirrorPath, context.worktreesRoot ++ [entry.name]) ∧
      (probes.removeWorktree mirrorPath (context.worktreesRoot ++ [entry.name])).ok = true := by
  unfold cleanEntry at h ⊢
  dsimp only at h ⊢
  split at h
  · rename_i outcome hjudge
    exact absurd h (judge_error hjudge).2
  · rename_i mirrorPath hjudge
    split at h
    · rename_i hok
      rw [if_pos hok]
      exact ⟨mirrorPath, rfl, hok⟩
    · split at h
      · exact absurd h nofun
      · exact absurd h nofun

/-! ## The loop -/

theorem mem_sweep {entryProbes : String → Probes} {entries : List DirEntry} {step : CleanupOutcome × Option Removal} :
    step ∈ context.sweep entryProbes entries ↔
      ∃ entry ∈ entries, ∃ owned, parseOwnedWorktreeName entry.name.toList = some owned ∧
        context.cleanEntry (entryProbes entry.name) entry owned = step := by
  unfold sweep
  simp only [List.mem_filterMap, Option.map_eq_some_iff]

theorem sweep_paths (entryProbes : String → Probes) (entries : List DirEntry) :
    (context.sweep entryProbes entries).map (·.1.path) =
      (entries.filter fun entry => (parseOwnedWorktreeName entry.name.toList).isSome).map fun entry =>
        context.worktreesRoot ++ [entry.name] := by
  induction entries with
  | nil => rfl
  | cons entry entries ih =>
    unfold sweep at ih ⊢
    cases howned : parseOwnedWorktreeName entry.name.toList with
    | none =>
      rw [List.filterMap_cons_none (by rw [howned]; rfl), List.filter_cons_of_neg (by simp [howned])]
      exact ih
    | some owned =>
      rw [List.filterMap_cons_some (by rw [howned]; rfl), List.filter_cons_of_pos (by simp [howned]), List.map_cons,
        List.map_cons, cleanEntry_path, ih]

end SweepContext

/-! ## The whole cleanup -/

/-- What the cleanup goes through: the entries that are there, or none where there is no root. -/
inductive Listed (input : CleanupInput) (world : World) : List DirEntry → Prop where
  | noRoot {error : FsError} : error.missing = true →
      world.first.lstat (input.workRoot ++ ["worktrees"]) = .error error ∨
        world.first.realpath (pathText (input.workRoot ++ ["worktrees"])) = .error error → Listed input world []
  | entries {entries : List DirEntry} : world.listing = .ok entries → Listed input world entries

variable {host : TextHost} {input : CleanupInput} {world : World} {result : CleanupResult}

theorem cleanup_ok (h : cleanupStaleReviewWorktrees host input world = .ok result) :
    (result = ⟨summarize (input.workRoot ++ ["worktrees"]) input.retentionMs [], []⟩ ∧ Listed input world []) ∨
      ∃ entries rootRealPath, world.listing = .ok entries ∧
        world.first.realpath (pathText (input.workRoot ++ ["worktrees"])) = .ok rootRealPath ∧
        ∃ context : SweepContext, ∃ sorted : List DirEntry, sorted.Perm entries ∧
          context =
            { host := host
              input := input
              worktreesRoot := input.workRoot ++ ["worktrees"]
              rootRealPath := rootRealPath
              activeNames := input.activeReviewHeads.map reviewHeadWorktreeName
              openPaths := input.openWorktreePaths.flatMap (comparablePathVariants world.first) } ∧
          result =
            ⟨summarize (input.workRoot ++ ["worktrees"]) input.retentionMs
              ((context.sweep world.entryProbes sorted).map (·.1)),
              (context.sweep world.entryProbes sorted).filterMap (·.2)⟩ := by
  unfold cleanupStaleReviewWorktrees at h
  dsimp only at h
  split at h
  · exact absurd h (by simp)
  · split at h
    · rename_i error hroot
      split at h
      · rename_i hmissing
        exact Or.inl ⟨(Except.ok.inj h).symm, .noRoot hmissing (Or.inl hroot)⟩
      · exact absurd h (by simp)
    · split at h
      · exact absurd h (by simp)
      · split at h
        · rename_i error hreal
          split at h
          · rename_i hmissing
            exact Or.inl ⟨(Except.ok.inj h).symm, .noRoot hmissing (Or.inr hreal)⟩
          · exact absurd h (by simp)
        · rename_i rootRealPath hreal
          split at h
          · exact absurd h (by simp)
          · rename_i entries hlisting
            exact Or.inr ⟨entries, rootRealPath, hlisting, hreal, _, _, List.perm_insertionSort _ entries, rfl,
              (Except.ok.inj h).symm⟩

theorem removable_of_removal {context : SweepContext} {entry : DirEntry} {owned : OwnedName} {rootRealPath : AbsPath}
    (hroot : world.first.realpath (pathText (input.workRoot ++ ["worktrees"])) = .ok rootRealPath)
    (hcontext : context =
      { host := host
        input := input
        worktreesRoot := input.workRoot ++ ["worktrees"]
        rootRealPath := rootRealPath
        activeNames := input.activeReviewHeads.map reviewHeadWorktreeName
        openPaths := input.openWorktreePaths.flatMap (comparablePathVariants world.first) })
    (howned : parseOwnedWorktreeName entry.name.toList = some owned) {removal : SweepContext.Removal}
    (h : (context.cleanEntry (world.entryProbes entry.name) entry owned).2 = some removal) :
    Removable host input world entry removal.1 removal.2 := by
  obtain ⟨hpath, hjudge⟩ := SweepContext.judge_of_removal h
  obtain ⟨hpassed, hgit⟩ := SweepContext.judge_ok hjudge
  obtain ⟨hdry, hmirror, hlets⟩ := SweepContext.judgeGit_ok hgit
  subst hcontext
  obtain ⟨mirrorPath, path⟩ := removal
  dsimp only at hpath hpassed hgit hdry hmirror hlets ⊢
  subst hpath
  obtain ⟨real, hreal, hparent, hclosed, hclosedReal⟩ := hpassed.child
  refine
    { noReviewRun := hpassed.noReviewRun
      noDryRun := hdry
      place := by simp
      directory := hpassed.directory
      stale := hpassed.stale
      child := ⟨real, rootRealPath, hreal, hroot, hparent, ?_⟩
      noActiveHead := ?_
      owned := ⟨owned, howned, hmirror, hlets⟩ }
  · intro opened hopened
    have hvariant : ∀ p ∈ comparablePathVariants world.first opened,
        p ≠ input.workRoot ++ ["worktrees"] ++ [entry.name] ∧ p ≠ real := by
      intro p hp
      have hmem := List.mem_flatMap.mpr ⟨opened, hopened, hp⟩
      exact ⟨fun heq => hclosed (heq ▸ hmem), fun heq => hclosedReal (heq ▸ hmem)⟩
    refine ⟨hvariant opened List.mem_cons_self, fun target htarget => hvariant target ?_⟩
    unfold comparablePathVariants
    rw [htarget]
    exact List.mem_cons_of_mem _ List.mem_cons_self
  · intro head hhead heq
    rw [worktreePath_planPullWorktreePaths] at heq
    have hname : String.ofList (reviewHeadWorktreeName head) = entry.name := by simpa using heq
    apply hpassed.noActiveHead
    rw [← hname, String.toList_ofList]
    exact List.mem_map_of_mem hhead

/-- The cleanup asks for no removal but that of a worktree that no review needs, reports as deleted only what was
removed, and reports each owned entry once. -/
structure CleanedSafely (host : TextHost) (input : CleanupInput) (world : World) (result : CleanupResult) : Prop where
  removals : ∀ removal ∈ result.removals, ∃ entries, world.listing = .ok entries ∧ ∃ entry ∈ entries,
    Removable host input world entry removal.1 removal.2
  deleted : ∀ outcome ∈ result.summary.outcomes, outcome.status = .deleted →
    ∃ mirrorPath, (mirrorPath, outcome.path) ∈ result.removals
  once : ∃ entries, Listed input world entries ∧ (result.summary.outcomes.map CleanupOutcome.path).Perm
    ((entries.filter fun entry => (parseOwnedWorktreeName entry.name.toList).isSome).map fun entry =>
      input.workRoot ++ ["worktrees"] ++ [entry.name])

theorem cleanedSafely (h : cleanupStaleReviewWorktrees host input world = .ok result) :
    CleanedSafely host input world result := by
  obtain ⟨rfl, hlisted⟩ | ⟨entries, rootRealPath, hlisting, hroot, context, sorted, hsorted, hcontext, rfl⟩ := cleanup_ok h
  · exact
      { removals := fun removal hremoval => absurd hremoval List.not_mem_nil
        deleted := fun outcome houtcome => absurd houtcome List.not_mem_nil
        once := ⟨[], hlisted, List.Perm.refl _⟩ }
  · refine { removals := ?_, deleted := ?_, once := ⟨entries, .entries hlisting, ?_⟩ }
    · intro removal hremoval
      obtain ⟨step, hstep, hasked⟩ := List.mem_filterMap.mp hremoval
      obtain ⟨entry, hentry, owned, howned, rfl⟩ := SweepContext.mem_sweep.mp hstep
      exact ⟨entries, hlisting, entry, hsorted.subset hentry, removable_of_removal hroot hcontext howned hasked⟩
    · intro outcome houtcome hdeleted
      obtain ⟨step, hstep, rfl⟩ := List.mem_map.mp houtcome
      obtain ⟨entry, hentry, owned, howned, rfl⟩ := SweepContext.mem_sweep.mp hstep
      obtain ⟨mirrorPath, hasked, -⟩ := SweepContext.removal_of_deleted hdeleted
      refine ⟨mirrorPath, List.mem_filterMap.mpr ⟨_, hstep, ?_⟩⟩
      rw [SweepContext.cleanEntry_path]
      exact hasked
    · have hpaths := @SweepContext.sweep_paths context world.entryProbes sorted
      have hrootPath : context.worktreesRoot = input.workRoot ++ ["worktrees"] := by rw [hcontext]
      change (((context.sweep world.entryProbes sorted).map (·.1)).map CleanupOutcome.path).Perm _
      rw [List.map_map]
      change ((context.sweep world.entryProbes sorted).map (·.1.path)).Perm _
      rw [hpaths, hrootPath]
      exact (hsorted.filter _).map _

/-- The worktree that is planned for a head has a name that is read as its repository and head. -/
structure ReadBack (sha256 : Sha256) (workRoot : AbsPath) (repo : RepoSlug) (pullNumber : PullNumber) (branch : String)
    (head : HeadSha) : Prop where
  branch : parseOwnedWorktreeName (branchWorktreeName sha256 repo.text branch head.hex) =
    some ⟨safeRepo repo.text, head.hex.take 12⟩
  pull : ∃ name, (planPullWorktreePaths workRoot repo.text pullNumber.value head.hex).worktreePath =
      workRoot ++ ["worktrees", String.ofList name] ∧
    parseOwnedWorktreeName name = some ⟨safeRepo repo.text, head.hex.take 12⟩
  mirror : (planPullWorktreePaths workRoot repo.text pullNumber.value head.hex).mirrorPath =
    mirrorPathOf workRoot (safeRepo repo.text)

theorem worktree_names_and_cleanup_safe :
    (∀ sha256 workRoot repo pullNumber branch head, ReadBack sha256 workRoot repo pullNumber branch head) ∧
      ∀ host input world result, cleanupStaleReviewWorktrees host input world = .ok result →
        CleanedSafely host input world result := by
  constructor
  · intro sha256 workRoot repo pullNumber branch head
    exact
      { branch := parse_branchWorktreeName sha256 repo branch head
        pull := ⟨_, rfl, parse_reviewHeadWorktreeName repo pullNumber head⟩
        mirror := rfl }
  · intro host input world result h
    exact cleanedSafely h

/-- A worktree whose pull request was closed three hours ago. -/
def closedName : String := "acme__app__pr-7__0123456789ab"

def closedMirror : AbsPath := ["work", "mirrors", "acme__app.git"]

def closedPath : AbsPath := ["work", "worktrees", closedName]

/-- A host on which every path is real, and git answers for the closed pull request. -/
def closedProbes : Probes where
  lstat _ := .ok ⟨.directory, 0⟩
  realpath text :=
    if text = pathText closedPath then .ok closedPath
    else if text = pathText closedMirror then .ok closedMirror
    else .ok ["work", "worktrees"]
  runGit args :=
    if args.contains "--is-bare-repository" then ⟨true, some "true\n", none, false⟩
    else if args.contains "--git-common-dir" then ⟨true, some (pathText closedMirror ++ "\n"), none, false⟩
    else if args.contains "list" then ⟨true, some ("worktree " ++ pathText closedPath ++ "\n"), none, false⟩
    else if args.contains "status" then ⟨true, some "", none, false⟩
    else ⟨true, some "0123456789abcdef0123456789abcdef01234567\n", none, false⟩
  removeWorktree _ _ := ⟨true, none, none, false⟩

def closedWorld : World where
  first := closedProbes
  listing := .ok [⟨"notes", .directory⟩, ⟨closedName, .directory⟩]
  entryProbes _ := closedProbes

def closedInput : CleanupInput where
  workRoot := ["work"]
  retentionMs := 7200000
  leaseTtlMs := 60000
  activeReviewRun := false
  activeReviewHeads := [⟨"acme/app".toList, 8, "0123456789abcdef".toList⟩]
  openWorktreePaths := []
  nowMs := 10800000
  dryRun := false

def constantSha256 : Sha256 where
  hex _ := List.replicate 64 'a'
  hex_digits _ c hc := by
    rw [List.eq_of_mem_replicate hc]
    rfl
  hex_length _ := List.length_replicate

def appSlug : RepoSlug := ⟨"acme/app".toList, by decide⟩

def pullSeven : PullNumber := ⟨7, by decide⟩

def closedHead : HeadSha :=
  ⟨"0123456789abcdef0123456789abcdef01234567".toList, List.all_eq_true.mp (by decide), by decide⟩

theorem worktree_names_and_cleanup_safe_closed :
    ReadBack constantSha256 ["work"] appSlug pullSeven "fix/login" closedHead ∧
    ∃ result, cleanupStaleReviewWorktrees ⟨id, compare⟩ closedInput closedWorld = .ok result ∧
      result.removals = [(closedMirror, closedPath)] ∧ CleanedSafely ⟨id, compare⟩ closedInput closedWorld result := by
  refine ⟨worktree_names_and_cleanup_safe.1 constantSha256 ["work"] appSlug pullSeven "fix/login" closedHead, ?_⟩
  have hruns : ((cleanupStaleReviewWorktrees ⟨id, compare⟩ closedInput closedWorld).toOption.map
      CleanupResult.removals) = some [(closedMirror, closedPath)] := by decide +kernel
  cases hresult : cleanupStaleReviewWorktrees ⟨id, compare⟩ closedInput closedWorld with
  | error message =>
    rw [hresult] at hruns
    exact absurd hruns (by simp [Except.toOption])
  | ok result =>
    rw [hresult] at hruns
    exact ⟨result, rfl, Option.some.inj hruns,
      worktree_names_and_cleanup_safe.2 ⟨id, compare⟩ closedInput closedWorld result hresult⟩

end NeonDiff.Worktrees
