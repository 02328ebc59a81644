import NeonDiff.Lib.FileTree

/-! # Paths that must stay outside the protected checkouts

Paths are POSIX paths, as their segments. The system follows at most `maxLinks` links on one walk.
-/

namespace NeonDiff.PathSafety

open NeonDiff.Lib

/-- A path's text at its slashes; the empty text has no segment. -/
structure Path where
  absolute : Bool
  segments : List String
  deriving DecidableEq, Repr

def Path.text (path : Path) : String := (if path.absolute then "/" else "") ++ "/".intercalate path.segments

def Path.isEmpty (path : Path) : Bool := !path.absolute && path.segments.isEmpty

/-- The working directory of the process, which the system reports without links. -/
structure WorkingDirectory (tree : FileTree) where
  location : List String
  settled : FileTree.Settled tree location

/-! ## `node:path` -/

/-- The segments from a location on, without steps in place and up. -/
def normalize (here : List String) : List String → List String
  | [] => here
  | segment :: rest =>
    if segment = "" ∨ segment = "." then normalize here rest
    else if segment = ".." then normalize here.dropLast rest
    else normalize (here ++ [segment]) rest

/-- `relative`, of absolute paths. -/
def relative : List String → List String → List String
  | a :: as, b :: bs => if a = b then relative as bs else List.replicate (as.length + 1) ".." ++ b :: bs
  | as, bs => List.replicate as.length ".." ++ bs

section

variable (tree : FileTree) (maxLinks : Nat) (cwd : WorkingDirectory tree)

def resolve (path : Path) : List String := normalize (if path.absolute then [] else cwd.location) path.segments

/-! ## `node:fs` -/

def existsSync (path : List String) : Bool := tree.present maxLinks path

/-- `realpathSync.native`; nothing when it throws. -/
def realpath (path : List String) : Option (List String) :=
  if existsSync tree maxLinks path then (tree.walk maxLinks [] path).map (·.location) else none

/-- Where the system comes to when it opens the path or makes what the path names, if it comes anywhere. -/
def reach (path : Path) : Option (List String) :=
  if path.isEmpty then none
  else (tree.walk maxLinks (if path.absolute then [] else cwd.location) path.segments).map (·.location)

/-! ## The boundary -/

/-- The loop up to the nearest ancestor that exists, from the last segment on. -/
def climb (absolutePath : List String) : List String → List String → List String
  | [], missingSegments => (realpath tree maxLinks []).elim absolutePath (· ++ missingSegments)
  | name :: parent, missingSegments =>
    match realpath tree maxLinks (name :: parent).reverse with
    | some real => real ++ missingSegments
    | none => climb absolutePath parent (name :: missingSegments)

def resolvePathFollowingExistingSymlinks (inputPath : Path) : List String :=
  let absolutePath := resolve tree cwd inputPath
  (realpath tree maxLinks absolutePath).getD (climb tree maxLinks absolutePath absolutePath.reverse [])

def isParentRelativePath (rel : List String) : Bool := rel.head? = some ".."

/-- A relative path here is never absolute. -/
def isSameOrChildRelativePath (rel : List String) : Bool := rel = [] || !isParentRelativePath rel

/-- The loop over the paths, which keeps the first of each. -/
def uniqueDefinedPathsLoop (output : List (List String)) : List (Option Path) → List (List String)
  | [] => output
  | path :: paths =>
    match path.filter (!·.isEmpty) with
    | none => uniqueDefinedPathsLoop output paths
    | some path =>
      let normalized := resolvePathFollowingExistingSymlinks tree maxLinks cwd path
      if output.contains normalized then uniqueDefinedPathsLoop output paths
      else uniqueDefinedPathsLoop (output ++ [normalized]) paths

def uniqueDefinedPaths (paths : List (Option Path)) : List (List String) :=
  uniqueDefinedPathsLoop tree maxLinks cwd [] paths

structure PathBoundary where
  path : Path
  protectedRoot : Option Path
  protectedRoots : List Path := []
  pathLabel : String
  protectedRootLabel : String

def PathBoundary.roots (boundary : PathBoundary) : List (Option Path) :=
  boundary.protectedRoot :: boundary.protectedRoots.map some

def assertPathOutsideSingleProtectedRoot (boundary : PathBoundary) (protectedRoot : List String) :
    Except String Unit :=
  let root := resolvePathFollowingExistingSymlinks tree maxLinks cwd ⟨true, protectedRoot⟩
  let candidate := resolvePathFollowingExistingSymlinks tree maxLinks cwd boundary.path
  if isSameOrChildRelativePath (relative root candidate) || isSameOrChildRelativePath (relative candidate root) then
    .error (boundary.pathLabel ++ " must be outside " ++ boundary.protectedRootLabel ++ "; got " ++ boundary.path.text)
  else .ok ()

def assertPathOutsideProtectedRoot (boundary : PathBoundary) : Except String Unit :=
  (uniqueDefinedPaths tree maxLinks cwd boundary.roots).forM
    (assertPathOutsideSingleProtectedRoot tree maxLinks cwd boundary)

end

end NeonDiff.PathSafety
