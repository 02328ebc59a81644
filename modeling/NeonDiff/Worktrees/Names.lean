import NeonDiff.Lib.Lines
import NeonDiff.Lib.Separators

/-! # Names of review worktrees

A worktree of a pull request or of a branch carries in its name the repository and the head that it was made for. The
name is written in three places, and read in one.
-/

namespace NeonDiff.Worktrees

open NeonDiff.Lib NeonDiff.Lib.JsText NeonDiff.Lib.Separators

def isHexDigit (c : Char) : Bool := c.isDigit || ('a' ≤ c && c ≤ 'f') || ('A' ≤ c && c ≤ 'F')

/-- `[A-Za-z0-9_.-]`. -/
def isSafeChar (c : Char) : Bool := c.isAlphanum || c = '_' || c = '.' || c = '-'

/-- `createHash("sha256").update(text).digest("hex")`. -/
structure Sha256 where
  hex : String → List Char
  hex_digits : ∀ text, ∀ c ∈ hex text, isHexDigit c = true
  hex_length : ∀ text, (hex text).length = 64

/-- The name of a repository, `owner/name`. -/
structure RepoSlug where
  text : List Char
  nonempty : text ≠ []

structure PullNumber where
  value : Nat
  positive : 0 < value

/-- A commit, as git names it. -/
structure HeadSha where
  hex : List Char
  digits : ∀ c ∈ hex, isHexDigit c = true
  long : 12 ≤ hex.length

/-! ## Writing -/

/-- The replacement of `/[^A-Za-z0-9_.-]+/g`; `inRun` says that the run here is replaced already. -/
def replaceUnsafe (inRun : Bool) : List Char → List Char
  | [] => []
  | c :: cs =>
    if isSafeChar c then c :: replaceUnsafe false cs
    else if inRun then replaceUnsafe true cs
    else '_' :: '_' :: replaceUnsafe true cs

/-- `repo.replace(/[^A-Za-z0-9_.-]+/g, "__")`. -/
def safeRepo (repo : List Char) : List Char := replaceUnsafe false repo

def pullMark : List Char := "__pr-".toList

def branchMark : List Char := "__branch-".toList

def headMark : List Char := "__".toList

def branchWorktreeName (sha256 : Sha256) (repo : List Char) (branch : String) (headSha : List Char) : List Char :=
  safeRepo repo ++ (branchMark ++ ((sha256.hex branch).take 16 ++ (headMark ++ headSha.take 12)))

structure PullWorktreePathPlan where
  mirrorPath : List String
  worktreePath : List String
  repoUrl : List Char

def mirrorPathOf (workRoot : List String) (safeRepo : List Char) : List String :=
  workRoot ++ ["mirrors", String.ofList (safeRepo ++ ".git".toList)]

/-- The paths, as their segments, that are then checked to lie outside the protected checkouts. -/
def planPullWorktreePaths (workRoot : List String) (repo : List Char) (pullNumber : Nat) (expectedHeadSha : List Char) :
    PullWorktreePathPlan where
  mirrorPath := mirrorPathOf workRoot (safeRepo repo)
  worktreePath := workRoot ++
    ["worktrees", String.ofList
      (safeRepo repo ++ (pullMark ++ (Nat.toDigits 10 pullNumber ++ (headMark ++ expectedHeadSha.take 12))))]
  repoUrl := "https://github.com/".toList ++ repo ++ ".git".toList

structure ActiveReviewHead where
  repo : List Char
  pullNumber : Nat
  headSha : List Char

def reviewHeadWorktreeName (head : ActiveReviewHead) : List Char :=
  safeRepo head.repo ++ (pullMark ++ (Nat.toDigits 10 head.pullNumber ++ (headMark ++ head.headSha.take 12)))

/-! ## Reading -/

structure OwnedName where
  safeRepo : List Char
  headSha : List Char
  deriving DecidableEq, Repr

/-- `/^[A-Za-z0-9_.-]+$/`. -/
def isSafeName (text : List Char) : Bool := !text.isEmpty && text.all isSafeChar

/-- `/^[1-9][0-9]*$/`. -/
def isPullNumber (text : List Char) : Bool := !text.isEmpty && text.head? ≠ some '0' && text.all Char.isDigit

/-- `/^[0-9a-fA-F]{12}$/`. -/
def isShortHead (text : List Char) : Bool := text.length = 12 && text.all isHexDigit

def parsePullWorktreeName (name : List Char) : Option OwnedName :=
  match splitLast pullMark name with
  | none => none
  | some (safeRepo, pullAndHead) =>
    if safeRepo = [] then none
    else
      match splitFirst headMark pullAndHead with
      | none => none
      | some (pullNumber, headSha) =>
        if pullNumber = [] ∨ headMark <:+: headSha then none
        else if isSafeName safeRepo && isPullNumber pullNumber && isShortHead headSha then some ⟨safeRepo, headSha⟩
        else none

def parseBranchWorktreeName (name : List Char) : Option OwnedName :=
  match splitLast branchMark name with
  | none => none
  | some (safeRepo, branchAndHead) =>
    if safeRepo = [] then none
    else
      match splitLast headMark branchAndHead with
      | none => none
      | some (safeBranch, headSha) =>
        if safeBranch = [] then none
        else if !isSafeName safeRepo || !isSafeName safeBranch then none
        else if !isShortHead headSha then none
        else some ⟨safeRepo, headSha⟩

def parseOwnedWorktreeName (name : List Char) : Option OwnedName :=
  (parsePullWorktreeName name).or (parseBranchWorktreeName name)

/-! ## The parts of a name -/

theorem all_isSafeChar_replaceUnsafe (inRun : Bool) (text : List Char) :
    ∀ c ∈ replaceUnsafe inRun text, isSafeChar c = true := by
  induction text generalizing inRun with
  | nil => exact fun c hc => absurd hc List.not_mem_nil
  | cons d text ih =>
    intro c hc
    unfold replaceUnsafe at hc
    split at hc
    · rename_i hd
      obtain rfl | hc := List.mem_cons.mp hc
      · exact hd
      · exact ih false c hc
    · split at hc
      · exact ih true c hc
      · simp only [List.mem_cons] at hc
        obtain rfl | rfl | hc := hc
        · decide
        · decide
        · exact ih true c hc

theorem safeRepo_ne_nil (repo : RepoSlug) : safeRepo repo.text ≠ [] := by
  obtain ⟨text, hne⟩ := repo
  unfold safeRepo
  cases text with
  | nil => exact absurd rfl hne
  | cons c text =>
    unfold replaceUnsafe
    split
    · exact List.cons_ne_nil _ _
    · exact List.cons_ne_nil _ _

theorem isSafeName_safeRepo (repo : RepoSlug) : isSafeName (safeRepo repo.text) = true := by
  have hall := all_isSafeChar_replaceUnsafe false repo.text
  have hne := safeRepo_ne_nil repo
  unfold isSafeName
  rw [Bool.and_eq_true, List.all_eq_true]
  exact ⟨by simpa using hne, hall⟩

namespace HeadSha

theorem take_digits (head : HeadSha) : ∀ c ∈ head.hex.take 12, isHexDigit c = true :=
  fun c hc => head.digits c (List.mem_of_mem_take hc)

theorem isShortHead_take (head : HeadSha) : isShortHead (head.hex.take 12) = true := by
  have hlength : (head.hex.take 12).length = 12 := by
    rw [List.length_take]
    exact min_eq_left head.long
  unfold isShortHead
  rw [Bool.and_eq_true, List.all_eq_true]
  exact ⟨decide_eq_true hlength, head.take_digits⟩

end HeadSha

theorem notMem_of_isHexDigit {c : Char} {text : List Char} (hc : isHexDigit c = false)
    (h : ∀ d ∈ text, isHexDigit d = true) : c ∉ text := by
  intro hmem
  rw [h c hmem] at hc
  exact Bool.noConfusion hc

theorem isHexDigit_of_isDigit {c : Char} (h : c.isDigit = true) : isHexDigit c = true := by
  rw [isHexDigit, h]
  rfl

theorem isPullNumber_toDigits (n : PullNumber) : isPullNumber (Nat.toDigits 10 n.value) = true := by
  unfold isPullNumber
  rw [Bool.and_eq_true, Bool.and_eq_true, List.all_eq_true]
  refine ⟨⟨by simp, ?_⟩, fun c hc => Nat.isDigit_of_mem_toDigits (by decide) (by decide) hc⟩
  exact decide_eq_true (head?_toDigits n.positive)

theorem notMem_tail {c : Char} {number head : List Char} (hc : isHexDigit c = false) (hunder : c ≠ '_')
    (hnumber : ∀ d ∈ number, isHexDigit d = true) (hhead : ∀ d ∈ head, isHexDigit d = true) :
    c ∉ number ++ (headMark ++ head) := by
  rw [List.mem_append, List.mem_append, not_or, not_or]
  refine ⟨notMem_of_isHexDigit hc hnumber, ?_, notMem_of_isHexDigit hc hhead⟩
  intro hmem
  have hmark : (headMark.all fun d => decide (d = '_')) = true := by decide
  exact hunder (of_decide_eq_true (List.all_eq_true.mp hmark c hmem))

/-! ## What is written is read back -/

theorem parsePullWorktreeName_written {safe number head : List Char} (hsafe : isSafeName safe = true)
    (hnumber : isPullNumber number = true) (hhead : isShortHead head = true) :
    parsePullWorktreeName (safe ++ (pullMark ++ (number ++ (headMark ++ head)))) = some ⟨safe, head⟩ := by
  have hsafeNe : safe ≠ [] := by
    rintro rfl
    exact absurd hsafe (by decide)
  have hnumberNe : number ≠ [] := by
    rintro rfl
    exact absurd hnumber (by decide)
  simp only [isPullNumber, Bool.and_eq_true, List.all_eq_true] at hnumber
  simp only [isShortHead, Bool.and_eq_true, List.all_eq_true] at hhead
  have hnumberHex : ∀ d ∈ number, isHexDigit d = true := fun d hd => isHexDigit_of_isDigit (hnumber.2 d hd)
  have hlast : splitLast pullMark (safe ++ (pullMark ++ (number ++ (headMark ++ head)))) =
      some (safe, number ++ (headMark ++ head)) :=
    splitLast_mark (u := ['_', '_', 'p']) (v := ['-']) (c := 'r') (by decide)
      (notMem_tail (by decide) (by decide) hnumberHex hhead.2) safe
  have hunder : '_' ∉ number := notMem_of_isHexDigit (by decide) hnumberHex
  have hfirst : splitFirst headMark (number ++ (headMark ++ head)) = some (number, head) :=
    splitFirst_mark (v := ['_']) hunder head
  have hnoMark : ¬headMark <:+: head :=
    not_infix_of_notMem (x := '_') (by decide) (notMem_of_isHexDigit (by decide) hhead.2)
  unfold parsePullWorktreeName
  rw [hlast]
  dsimp only
  rw [if_neg hsafeNe, hfirst]
  dsimp only
  rw [if_neg (not_or.mpr ⟨hnumberNe, hnoMark⟩), if_pos]
  simp only [isPullNumber, isShortHead, hsafe, Bool.and_eq_true, List.all_eq_true]
  exact ⟨⟨trivial, hnumber⟩, hhead⟩

theorem eq_of_parsePullWorktreeName {name : List Char} {owned : OwnedName} (h : parsePullWorktreeName name = some owned) :
    ∃ number, name = owned.safeRepo ++ (pullMark ++ (number ++ (headMark ++ owned.headSha))) ∧
      isPullNumber number = true ∧ isShortHead owned.headSha = true := by
  unfold parsePullWorktreeName at h
  split at h
  · exact absurd h (by simp)
  · rename_i safe rest hlast
    split at h
    · exact absurd h (by simp)
    · split at h
      · exact absurd h (by simp)
      · rename_i number head hfirst
        split at h
        · exact absurd h (by simp)
        · split at h
          · rename_i hshape
            obtain rfl := Option.some.inj h
            rw [Bool.and_eq_true, Bool.and_eq_true] at hshape
            refine ⟨number, ?_, hshape.1.2, hshape.2⟩
            have hrest := eq_append_of_splitFirst hfirst
            have hname := eq_append_of_splitLast hlast
            dsimp only at hrest hname ⊢
            rw [hname, hrest]
          · exact absurd h (by simp)

theorem isHexDigit_sha256 (sha256 : Sha256) (branch : String) :
    ∀ c ∈ (sha256.hex branch).take 16, isHexDigit c = true :=
  fun c hc => sha256.hex_digits branch c (List.mem_of_mem_take hc)

theorem length_sha256 (sha256 : Sha256) (branch : String) : ((sha256.hex branch).take 16).length = 16 := by
  rw [List.length_take, sha256.hex_length]
  rfl

theorem parsePullWorktreeName_branch {safe identity head : List Char} (hidentity : ∀ c ∈ identity, isHexDigit c = true)
    (hhead : isShortHead head = true) :
    parsePullWorktreeName (safe ++ (branchMark ++ (identity ++ (headMark ++ head)))) = none := by
  cases hparse : parsePullWorktreeName (safe ++ (branchMark ++ (identity ++ (headMark ++ head)))) with
  | none => rfl
  | some owned =>
    obtain ⟨number, hname, hnumber, howned⟩ := eq_of_parsePullWorktreeName hparse
    simp only [isPullNumber, Bool.and_eq_true, List.all_eq_true] at hnumber
    simp only [isShortHead, Bool.and_eq_true, List.all_eq_true] at howned hhead
    have hleft : (safe ++ "__branch".toList) ++ '-' :: (identity ++ (headMark ++ head)) =
        (owned.safeRepo ++ "__pr".toList) ++ '-' :: (number ++ (headMark ++ owned.headSha)) := by
      simp only [List.append_assoc]
      exact hname
    obtain ⟨hmarks, -⟩ := append_cons_inj (notMem_tail (by decide) (by decide) hidentity hhead.2)
      (notMem_tail (by decide) (by decide) (fun d hd => isHexDigit_of_isDigit (hnumber.2 d hd)) howned.2) hleft
    have hends := congrArg List.getLast? hmarks
    simp at hends

theorem parseBranchWorktreeName_written {safe identity head : List Char} (hsafe : isSafeName safe = true)
    (hidentity : isSafeName identity = true) (hhex : ∀ c ∈ identity, isHexDigit c = true) (hhead : isShortHead head = true) :
    parseBranchWorktreeName (safe ++ (branchMark ++ (identity ++ (headMark ++ head)))) = some ⟨safe, head⟩ := by
  have hsafeNe : safe ≠ [] := by
    rintro rfl
    exact absurd hsafe (by decide)
  have hidentityNe : identity ≠ [] := by
    rintro rfl
    exact absurd hidentity (by decide)
  have hheadHex : ∀ c ∈ head, isHexDigit c = true := by
    simp only [isShortHead, Bool.and_eq_true, List.all_eq_true] at hhead
    exact hhead.2
  have hlast : splitLast branchMark (safe ++ (branchMark ++ (identity ++ (headMark ++ head)))) =
      some (safe, identity ++ (headMark ++ head)) :=
    splitLast_mark (u := ['_', '_', 'b']) (v := "anch-".toList) (c := 'r') (by decide)
      (notMem_tail (by decide) (by decide) hhex hheadHex) safe
  have hinner : splitLast headMark (identity ++ (headMark ++ head)) = some (identity, head) :=
    splitLast_mark (u := ['_']) (v := []) (c := '_') List.not_mem_nil
      (notMem_of_isHexDigit (by decide) hheadHex) identity
  unfold parseBranchWorktreeName
  rw [hlast]
  dsimp only
  rw [if_neg hsafeNe, hinner]
  dsimp only
  rw [if_neg hidentityNe, if_neg (by simp [hsafe, hidentity]), if_neg (by simp [hhead])]

theorem isSafeChar_of_isHexDigit {c : Char} (h : isHexDigit c = true) : isSafeChar c = true := by
  have halnum : c.isAlphanum = true := by
    simp only [isHexDigit, Bool.or_eq_true, Bool.and_eq_true, decide_eq_true_eq] at h
    unfold Char.isAlphanum Char.isAlpha Char.isUpper Char.isLower
    obtain (hdigit | ⟨hlow, hhigh⟩) | ⟨hlow, hhigh⟩ := h
    · rw [hdigit, Bool.or_true]
    · have hfrom : 97 ≤ c.val := hlow
      have hto : c.val ≤ 122 := UInt32.le_trans hhigh (by decide)
      simp [hfrom, hto]
    · have hfrom : 65 ≤ c.val := hlow
      have hto : c.val ≤ 90 := UInt32.le_trans hhigh (by decide)
      simp [hfrom, hto]
  unfold isSafeChar
  rw [halnum]
  rfl

theorem isSafeName_sha256 (sha256 : Sha256) (branch : String) : isSafeName ((sha256.hex branch).take 16) = true := by
  have hlength := length_sha256 sha256 branch
  unfold isSafeName
  rw [Bool.and_eq_true, List.all_eq_true]
  refine ⟨?_, fun c hc => isSafeChar_of_isHexDigit (isHexDigit_sha256 sha256 branch c hc)⟩
  cases hidentity : (sha256.hex branch).take 16 with
  | nil => simp [hidentity] at hlength
  | cons c cs => rfl

theorem parse_branchWorktreeName (sha256 : Sha256) (repo : RepoSlug) (branch : String) (head : HeadSha) :
    parseOwnedWorktreeName (branchWorktreeName sha256 repo.text branch head.hex) =
      some ⟨safeRepo repo.text, head.hex.take 12⟩ := by
  unfold parseOwnedWorktreeName branchWorktreeName
  rw [parsePullWorktreeName_branch (isHexDigit_sha256 sha256 branch) head.isShortHead_take, Option.none_or]
  exact parseBranchWorktreeName_written (isSafeName_safeRepo repo) (isSafeName_sha256 sha256 branch)
    (isHexDigit_sha256 sha256 branch) head.isShortHead_take

theorem parse_reviewHeadWorktreeName (repo : RepoSlug) (pullNumber : PullNumber) (head : HeadSha) :
    parseOwnedWorktreeName (reviewHeadWorktreeName ⟨repo.text, pullNumber.value, head.hex⟩) =
      some ⟨safeRepo repo.text, head.hex.take 12⟩ := by
  unfold parseOwnedWorktreeName reviewHeadWorktreeName
  rw [parsePullWorktreeName_written (isSafeName_safeRepo repo) (isPullNumber_toDigits pullNumber) head.isShortHead_take]
  rfl

theorem worktreePath_planPullWorktreePaths (workRoot : List String) (head : ActiveReviewHead) :
    (planPullWorktreePaths workRoot head.repo head.pullNumber head.headSha).worktreePath =
      workRoot ++ ["worktrees", String.ofList (reviewHeadWorktreeName head)] := rfl

end NeonDiff.Worktrees
