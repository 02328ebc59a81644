import NeonDiff.Lib.RegexSource
import NeonDiff.Lib.Replace
import NeonDiff.Review.Gate

/-! # Path filters of a repository profile -/

open NeonDiff.Lib NeonDiff.Review

namespace NeonDiff.PathFilter

structure ResolvedRepoProfile where
  pathFilters : Option (List String)
  deriving Repr

inductive PullFileFilterReason where
  | noProfileFilters | matchedProfileInclude | matchedSafetyInclude | excludedByProfile | noMatchingInclude
  deriving DecidableEq, Repr

structure PullFileFilterDecision where
  filename : String
  included : Bool
  reason : PullFileFilterReason
  pattern : Option String
  deriving DecidableEq, Repr

structure PullFileFilterImpact where
  originalCount : Nat
  includedCount : Nat
  excludedCount : Nat
  profileIncludeFilters : List String
  profileExcludeFilters : List String
  safetyIncludePatterns : List String
  included : List PullFileFilterDecision
  excluded : List PullFileFilterDecision
  deriving Repr

def safetyIncludePatterns : List String :=
  [".github/**", "README.md", "AGENTS.md", "CHANGELOG.md", "SECURITY.md", "CODEOWNERS", "Dockerfile", "Dockerfile.*",
    "docker-compose*.yml", "Makefile", "justfile", "package.json", "package-lock.json", "pnpm-lock.yaml", "yarn.lock",
    "bun.lock", "tsconfig*.json", "vite.config.*", "vitest.config.*", "playwright.config.*", "next.config.*",
    "tailwind.config.*", "eslint.config.*", ".npmrc", ".nvmrc", ".node-version", ".env.example", ".gitleaks.toml",
    ".gitattributes", ".gitignore", "go.mod", "go.sum", "Cargo.toml", "Cargo.lock", "pyproject.toml", "uv.lock",
    "requirements*.txt", "poetry.lock", "Pipfile", "Pipfile.lock", "**/*.plist", "**/*.entitlements",
    "**/*.entitlements.plist"]

/-! ## Globs -/

def placeholder : List Char := "\x00DOUBLE_STAR\x00".toList

/-- The characters of `/[.+?^$\x7b\x7d()|[\]\\]/g`. -/
def escapedCharacters : List Char := ".+?^$\x7b\x7d()|[]\\".toList

/-- `.replace(/[…]/g, "\\$&")` on one character. -/
def escape (c : Char) : List Char := if c ∈ escapedCharacters then ['\\', c] else [c]

def escaped (pattern : List Char) : List Char :=
  replaceAll placeholder ".*".toList
    (replaceAll "*".toList "[^/]*".toList ((replaceAll "**".toList placeholder pattern).flatMap escape))

def globToRegExp (pattern : List Char) : Option (Regex Char) := Regex.ofSource ('^' :: (escaped pattern ++ ['$']))

/-- `.replace(/^\/+/, "")`. -/
def withoutLeadingSlashes (text : String) : List Char := text.toList.dropWhile (· = '/')

def matchesGlob (path pattern : String) : Bool :=
  (globToRegExp (withoutLeadingSlashes pattern)).any fun regExp => regExp.test (withoutLeadingSlashes path)

/-! ## Decisions -/

/-- An empty pattern counts as none: `if (excludePattern)`. -/
def truthy (pattern : Option String) : Option String := pattern.filter (· ≠ "")

def decideFileFilter (filename : String) (includeFilters excludeFilters : List String) : PullFileFilterDecision :=
  match truthy (excludeFilters.find? (matchesGlob filename)) with
  | some excludePattern => ⟨filename, false, .excludedByProfile, some excludePattern⟩
  | none =>
    if includeFilters = [] then ⟨filename, true, .noProfileFilters, none⟩
    else
      match truthy (includeFilters.find? (matchesGlob filename)) with
      | some includePattern => ⟨filename, true, .matchedProfileInclude, some includePattern⟩
      | none =>
        match truthy (safetyIncludePatterns.find? (matchesGlob filename)) with
        | some safetyPattern => ⟨filename, true, .matchedSafetyInclude, some safetyPattern⟩
        | none => ⟨filename, false, .noMatchingInclude, none⟩

def startsWithBang (pattern : String) : Bool := pattern.toList.head? = some '!'

def includeFilters (profile : ResolvedRepoProfile) : List String :=
  ((profile.pathFilters.getD []).filter (· ≠ "")).filter fun pattern => !startsWithBang pattern

def excludeFilters (profile : ResolvedRepoProfile) : List String :=
  (((profile.pathFilters.getD []).filter (· ≠ "")).filter startsWithBang).map fun pattern =>
    String.ofList pattern.toList.tail

def buildPullFileFilterImpact (files : List PullFilePatch) (profile : ResolvedRepoProfile) : PullFileFilterImpact :=
  let decisions := files.map fun file => decideFileFilter file.filename (includeFilters profile) (excludeFilters profile)
  let included := decisions.filter PullFileFilterDecision.included
  let excluded := decisions.filter fun decision => !decision.included
  { originalCount := files.length, includedCount := included.length, excludedCount := excluded.length
    profileIncludeFilters := includeFilters profile, profileExcludeFilters := excludeFilters profile
    safetyIncludePatterns, included, excluded }

def filterPullFilesForProfile (files : List PullFilePatch) (profile : ResolvedRepoProfile) : List PullFilePatch :=
  let included := (buildPullFileFilterImpact files profile).included.map PullFileFilterDecision.filename
  files.filter fun file => file.filename ∈ included

example : matchesGlob "src/worker.ts" "/src/*.ts" = true := by decide +kernel

example : matchesGlob "src/store/state.ts" "src/*.ts" = false := by decide +kernel

end NeonDiff.PathFilter
