import Mathlib.Data.List.Sort
import Mathlib.Data.Rat.Defs
import Mathlib.Algebra.Order.Ring.Rat
import NeonDiff.Worktrees.Names

/-! # The cleanup of stale review worktrees

Paths are absolute and normal, as their segments.
-/

namespace NeonDiff.Worktrees

open NeonDiff.Lib.JsText

abbrev AbsPath := List String

def pathText (path : AbsPath) : String := "/" ++ "/".intercalate path

/-! ## What the host answers -/

inductive FileKind where
  | file | directory | symlink | other
  deriving DecidableEq, Repr

structure FileStat where
  kind : FileKind
  mtimeMs : ℚ
  deriving DecidableEq

/-- An error of the file system, and whether its code is `ENOENT`. -/
structure FsError where
  missing : Bool
  message : String

structure DirEntry where
  name : String
  kind : FileKind
  deriving DecidableEq, Repr

structure GitCommandResult where
  ok : Bool
  stdout : Option String
  error : Option String
  activeReviewRun : Bool

/-- `result.stdout?.trim()`, which is as good as missing when it is empty. -/
def GitCommandResult.trimmed (result : GitCommandResult) : List Char := trim (result.stdout.getD "").toList

structure Probes where
  lstat : AbsPath → Except FsError FileStat
  realpath : String → Except FsError AbsPath
  runGit : List String → GitCommandResult
  removeWorktree : AbsPath → AbsPath → GitCommandResult

/-- What the cleanup finds: first, and at each entry by its name. -/
structure World where
  first : Probes
  listing : Except FsError (List DirEntry)
  entryProbes : String → Probes

structure TextHost where
  toLowerCase : List Char → List Char
  localeCompare : String → String → Ordering

structure CleanupInput where
  workRoot : AbsPath
  retentionMs : ℚ
  leaseTtlMs : Int
  activeReviewRun : Bool
  activeReviewHeads : List ActiveReviewHead
  openWorktreePaths : List AbsPath
  nowMs : ℚ
  dryRun : Bool

/-! ## What the cleanup reports -/

inductive CleanupReason where
  | stale_clean_owned | recent | dirty | symlink | non_directory | path_escape | active_head | active_review_run
  | open_or_in_use | unexpected_head | not_registered_to_expected_mirror | mirror_missing_or_invalid
  | git_probe_failed | git_remove_refused | dry_run
  deriving DecidableEq, Repr

inductive CleanupStatus where
  | deleted | skipped | error
  deriving DecidableEq, Repr

structure CleanupOutcome where
  path : AbsPath
  status : CleanupStatus
  reason : CleanupReason
  error : Option String
  deriving DecidableEq, Repr

structure CleanupSummary where
  worktreesRoot : AbsPath
  retentionMs : ℚ
  checked : Nat
  deleted : Nat
  skipped : Nat
  errors : Nat
  outcomes : List CleanupOutcome

def skippedBecause (path : AbsPath) (reason : CleanupReason) : CleanupOutcome := ⟨path, .skipped, reason, none⟩

def failedWith (path : AbsPath) (reason : CleanupReason) (error : Option String) : CleanupOutcome :=
  ⟨path, .error, reason, error⟩

def summarize (worktreesRoot : AbsPath) (retentionMs : ℚ) (outcomes : List CleanupOutcome) : CleanupSummary where
  worktreesRoot := worktreesRoot
  retentionMs := retentionMs
  checked := outcomes.length
  deleted := (outcomes.filter fun outcome => outcome.status = .deleted).length
  skipped := (outcomes.filter fun outcome => outcome.status = .skipped).length
  errors := (outcomes.filter fun outcome => outcome.status = .error).length
  outcomes := outcomes

/-! ## The probes of one worktree -/

def isValidMirror (probes : Probes) (mirrorPath : AbsPath) : Bool :=
  match probes.lstat mirrorPath with
  | .error _ => false
  | .ok stat =>
    if stat.kind ≠ .directory then false
    else
      let result := probes.runGit ["--git-dir", pathText mirrorPath, "rev-parse", "--is-bare-repository"]
      result.ok && result.trimmed = "true".toList

def worktreeLine : List Char := "worktree ".toList

def namesWorktree (probes : Probes) (expected : AbsPath) (line : List Char) : Bool :=
  if worktreeLine <+: line then
    match probes.realpath (String.ofList (trim (line.drop 9))) with
    | .ok real => real = expected
    | .error _ => false
  else false

/-- `.error` is an answer with an error text. -/
def isRegisteredToExpectedMirror (probes : Probes) (path mirrorPath : AbsPath) : Except String Bool :=
  let commonDir := probes.runGit ["-C", pathText path, "rev-parse", "--path-format=absolute", "--git-common-dir"]
  if !commonDir.ok || commonDir.trimmed.isEmpty then .error (commonDir.error.getD "git common-dir probe failed")
  else
    match probes.realpath (String.ofList commonDir.trimmed), probes.realpath (pathText mirrorPath) with
    | .error error, _ => .error error.message
    | _, .error error => .error error.message
    | .ok common, .ok mirror =>
      if common ≠ mirror then .ok false
      else
        let listed := probes.runGit ["--git-dir", pathText mirrorPath, "worktree", "list", "--porcelain"]
        if !listed.ok then .error (listed.error.getD "git worktree list failed")
        else
          match probes.realpath (pathText path) with
          | .error error => .error error.message
          | .ok expected =>
            match listed.stdout with
            | none => .ok false
            | some stdout => .ok ((splitLines stdout.toList).any (namesWorktree probes expected))

def comparablePathVariants (probes : Probes) (path : AbsPath) : List AbsPath :=
  path :: (probes.realpath (pathText path)).toOption.toList

/-! ## One entry -/

/-- What the loop has before it looks at an entry. -/
structure SweepContext where
  host : TextHost
  input : CleanupInput
  worktreesRoot : AbsPath
  rootRealPath : AbsPath
  activeNames : List (List Char)
  openPaths : List AbsPath

namespace SweepContext

variable (context : SweepContext) (probes : Probes)

def statusArgs (path : AbsPath) : List String :=
  ["-C", pathText path, "status", "--porcelain=v1", "--untracked-files=all", "--ignored=matching"]

def headArgs (path : AbsPath) : List String := ["-C", pathText path, "rev-parse", "HEAD"]

/-- The checks of git on a worktree: the mirror to remove it from, or what is reported instead. -/
def judgeGit (ownedName : OwnedName) (path : AbsPath) : Except CleanupOutcome AbsPath :=
  let mirrorPath := mirrorPathOf context.input.workRoot ownedName.safeRepo
  if !isValidMirror probes mirrorPath then .error (skippedBecause path .mirror_missing_or_invalid)
  else
    match isRegisteredToExpectedMirror probes path mirrorPath with
    | .error error =>
      -- an empty error text counts as none
      if error = "" then .error (skippedBecause path .not_registered_to_expected_mirror)
      else .error (failedWith path .git_probe_failed (some error))
    | .ok false => .error (skippedBecause path .not_registered_to_expected_mirror)
    | .ok true =>
      let status := probes.runGit (statusArgs path)
      if !status.ok then .error (failedWith path .git_probe_failed status.error)
      else if !status.trimmed.isEmpty then .error (skippedBecause path .dirty)
      else
        let head := probes.runGit (headArgs path)
        if !head.ok || head.trimmed.isEmpty then
          .error (failedWith path .git_probe_failed (some (head.error.getD "git head probe failed")))
        else if context.host.toLowerCase (head.trimmed.take 12) ≠ context.host.toLowerCase ownedName.headSha then
          .error (skippedBecause path .unexpected_head)
        else if context.input.dryRun then .error (skippedBecause path .dry_run)
        else .ok mirrorPath

local instance names_lawful : LawfulBEq (List Char) := inferInstance

/-- The checks of an entry from its place on. -/
def judge (entry : DirEntry) (ownedName : OwnedName) : Except CleanupOutcome AbsPath :=
  let path := context.worktreesRoot ++ [entry.name]
  if entry.kind = .symlink then .error (skippedBecause path .symlink)
  else if entry.kind ≠ .directory then .error (skippedBecause path .non_directory)
  else
    match probes.lstat path, probes.realpath (pathText path) with
    | .error error, _ => .error (failedWith path .git_probe_failed (some error.message))
    | _, .error error => .error (failedWith path .git_probe_failed (some error.message))
    | .ok stat, .ok realPath =>
      if stat.kind = .symlink then .error (skippedBecause path .symlink)
      else if realPath.dropLast ≠ context.rootRealPath then .error (skippedBecause path .path_escape)
      else if context.input.nowMs - stat.mtimeMs ≤ context.input.retentionMs then .error (skippedBecause path .recent)
      else if context.input.activeReviewRun then .error (skippedBecause path .active_review_run)
      else if entry.name.toList ∈ context.activeNames then .error (skippedBecause path .active_head)
      else if path ∈ context.openPaths ∨ realPath ∈ context.openPaths then
        .error (skippedBecause path .open_or_in_use)
      else context.judgeGit probes ownedName path

/-- A removal that is asked for: the mirror and the worktree. -/
abbrev Removal := AbsPath × AbsPath

def cleanEntry (entry : DirEntry) (ownedName : OwnedName) : CleanupOutcome × Option Removal :=
  let path := context.worktreesRoot ++ [entry.name]
  match context.judge probes entry ownedName with
  | .error outcome => (outcome, none)
  | .ok mirrorPath =>
    let removed := probes.removeWorktree mirrorPath path
    if removed.ok then (⟨path, .deleted, .stale_clean_owned, none⟩, some (mirrorPath, path))
    else if removed.activeReviewRun then (skippedBecause path .active_review_run, some (mirrorPath, path))
    else (failedWith path .git_remove_refused removed.error, some (mirrorPath, path))

def sweep (entryProbes : String → Probes) (entries : List DirEntry) : List (CleanupOutcome × Option Removal) :=
  entries.filterMap fun entry =>
    (parseOwnedWorktreeName entry.name.toList).map (context.cleanEntry (entryProbes entry.name) entry)

end SweepContext

/-! ## The cleanup -/

def minRetentionMs : Int := 2 * 60 * 60000

structure CleanupResult where
  summary : CleanupSummary
  removals : List SweepContext.Removal

def cleanupStaleReviewWorktrees (host : TextHost) (input : CleanupInput) (world : World) :
    Except String CleanupResult :=
  let safetyFloor := max minRetentionMs input.leaseTtlMs
  let worktreesRoot := input.workRoot ++ ["worktrees"]
  if !input.retentionMs.isInt || input.retentionMs < safetyFloor then
    .error ("worktree cleanup retentionMs must be at least " ++ toString safetyFloor)
  else
    match world.first.lstat worktreesRoot with
    | .error error =>
      if error.missing then .ok ⟨summarize worktreesRoot input.retentionMs [], []⟩ else .error error.message
    | .ok rootStat =>
      if rootStat.kind ≠ .directory then
        .error ("review worktrees root is not a real directory: " ++ pathText worktreesRoot)
      else
        match world.first.realpath (pathText worktreesRoot) with
        | .error error =>
          if error.missing then .ok ⟨summarize worktreesRoot input.retentionMs [], []⟩ else .error error.message
        | .ok rootRealPath =>
          match world.listing with
          | .error error => .error error.message
          | .ok entries =>
            let context : SweepContext :=
              { host := host
                input := input
                worktreesRoot := worktreesRoot
                rootRealPath := rootRealPath
                activeNames := input.activeReviewHeads.map reviewHeadWorktreeName
                openPaths := input.openWorktreePaths.flatMap (comparablePathVariants world.first) }
            let sorted := entries.insertionSort fun a b => (host.localeCompare a.name b.name).isLE = true
            let swept := context.sweep world.entryProbes sorted
            .ok ⟨summarize worktreesRoot input.retentionMs (swept.map (·.1)), swept.filterMap (·.2)⟩

end NeonDiff.Worktrees
