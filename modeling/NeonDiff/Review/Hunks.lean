import NeonDiff.Lib.Lines
import NeonDiff.Review.Gate

/-! # The right-side lines of a diff

A diff is a list of hunks. It is rendered as GitHub lists a patch, or as `git diff` prints it, and the gate reads the
line numbers back.
-/

namespace NeonDiff.Review

open NeonDiff.Lib

/-! ## Diffs -/

abbrev LineText := { cs : List Char // '\n' ∉ cs }

inductive DiffLine where
  | context (text : LineText)
  | added (text : LineText)
  | deleted (text : LineText)
  | noNewline

structure Hunk where
  oldStart : Nat
  oldCount : Option Nat
  newStart : Nat
  newCount : Option Nat
  heading : LineText
  lines : List DiffLine

/-- `git diff` puts header lines in front of the hunks, and ends every line. -/
inductive PatchForm where
  | listed
  | printed (header : List { line : LineText // line.1.head? ≠ some '@' })

structure DiffFile where
  name : String
  form : PatchForm
  hunks : List Hunk

namespace DiffLine

def render : DiffLine → List Char
  | context text => ' ' :: text.1
  | added text => '+' :: text.1
  | deleted text => '-' :: text.1
  | noNewline => "\\ No newline at end of file".toList

def isRight : DiffLine → Bool
  | context _ | added _ => true
  | deleted _ | noNewline => false

/-- A deleted line that looks like a file header. -/
def isMisread : DiffLine → Bool
  | deleted text => "--".toList.isPrefixOf text.1
  | _ => false

end DiffLine

namespace Hunk

def renderCount : Option Nat → List Char
  | none => []
  | some count => ',' :: Nat.toDigits 10 count

def header (hunk : Hunk) : List Char :=
  "@@ -".toList ++ (Nat.toDigits 10 hunk.oldStart ++ (renderCount hunk.oldCount ++ (" +".toList ++
    (Nat.toDigits 10 hunk.newStart ++ (renderCount hunk.newCount ++ (" @@".toList ++ hunk.heading.1))))))

def render (hunk : Hunk) : List (List Char) := hunk.header :: hunk.lines.map DiffLine.render

/-- The numbers of the right-side lines among `lines`, the first of which is numbered `next`. -/
def numbered (next : Nat) : List DiffLine → List Nat
  | [] => []
  | line :: lines => if line.isRight then next :: numbered (next + 1) lines else numbered next lines

def rightLines (hunk : Hunk) : List Nat := numbered hunk.newStart hunk.lines

def misread (hunk : Hunk) : Nat := hunk.lines.countP DiffLine.isMisread

/-- The first number behind the hunk. -/
def nextLine (hunk : Hunk) : Nat := hunk.newStart + hunk.lines.countP DiffLine.isRight

end Hunk

namespace DiffFile

def headerLines (file : DiffFile) : List (List Char) :=
  match file.form with
  | .listed => []
  | .printed header => header.map fun line => line.1.1

/-- What stands behind the last line end. -/
def lastLines (file : DiffFile) : List (List Char) :=
  match file.form with
  | .listed => []
  | .printed _ => [[]]

def lines (file : DiffFile) : List (List Char) := file.headerLines ++ file.hunks.flatMap Hunk.render ++ file.lastLines

def patch (file : DiffFile) : PullFilePatch := ⟨file.name, some (String.ofList (['\n'].intercalate file.lines))⟩

def rightLines (file : DiffFile) : List Nat := file.hunks.flatMap Hunk.rightLines

/-- The numbers behind its hunks under which the file's misread lines are counted: those that look like a header, and
the empty one behind the last line end. -/
def overshoot (file : DiffFile) : List Nat :=
  (file.hunks.flatMap fun hunk => List.range' hunk.nextLine hunk.misread) ++
    match file.form, file.hunks.getLast? with
    | .printed _, some hunk => [hunk.nextLine + hunk.misread]
    | _, _ => []

end DiffFile

/-! ## Reading a header back -/

theorem takeDigits_toDigits (n : Nat) {rest : List Char} (h : rest.head?.any Char.isDigit = false) :
    takeDigits (Nat.toDigits 10 n ++ rest) = some (n, rest) := by
  have hdigits : ∀ c ∈ Nat.toDigits 10 n, c.isDigit = true := fun c hc =>
    Nat.isDigit_of_mem_toDigits (by decide) (by decide) hc
  have hrest : rest.takeWhile Char.isDigit = [] ∧ rest.dropWhile Char.isDigit = rest := by
    cases rest with
    | nil => exact ⟨rfl, rfl⟩
    | cons c rest =>
      have hc : c.isDigit = false := by simpa using h
      exact ⟨List.takeWhile_cons_of_neg (by simp [hc]), List.dropWhile_cons_of_neg (by simp [hc])⟩
  unfold takeDigits
  rw [List.takeWhile_append_of_pos hdigits, List.dropWhile_append_of_pos hdigits, hrest.1, hrest.2, List.append_nil]
  dsimp only
  rw [if_neg Nat.toDigits_ne_nil]
  rw [JsText.digitsValue_toDigits]

theorem dropText_append (text : String) (rest : List Char) : dropText text (text.toList ++ rest) = some rest := by
  unfold dropText
  rw [if_pos (List.isPrefixOf_iff_prefix.mpr (List.prefix_append _ _)), List.drop_left]

theorem skipCount_renderCount (count : Option Nat) {rest : List Char} (h : rest.head? = some ' ') :
    skipCount (Hunk.renderCount count ++ rest) = rest := by
  cases count with
  | none =>
    rw [Hunk.renderCount, List.nil_append]
    unfold skipCount
    split
    · cases h
    · rfl
  | some count =>
    rw [Hunk.renderCount, List.cons_append]
    have hdigits : takeDigits (Nat.toDigits 10 count ++ rest) = some (count, rest) := takeDigits_toDigits count (by rw [h]; rfl)
    simp only [skipCount, hdigits]

theorem hunkStart_header (hunk : Hunk) : hunkStart hunk.header = some hunk.newStart := by
  have hcount : ∀ (count : Option Nat) (rest : List Char), rest.head? = some ' ' →
      (Hunk.renderCount count ++ rest).head?.any Char.isDigit = false := by
    intro count rest hrest
    cases count with
    | none =>
      rw [Hunk.renderCount, List.nil_append, hrest]
      rfl
    | some count => rfl
  unfold hunkStart Hunk.header
  rw [dropText_append]
  simp only [Option.bind_eq_bind, Option.bind_some]
  rw [takeDigits_toDigits _ (hcount _ _ rfl)]
  simp only [Option.bind_some]
  rw [skipCount_renderCount _ rfl, dropText_append]
  simp only [Option.bind_some]
  rw [takeDigits_toDigits _ (hcount _ _ rfl)]
  simp only [Option.bind_some]
  rw [skipCount_renderCount _ rfl, dropText_append]
  rfl

theorem hunkStart_of_head {cs : List Char} (h : cs.head? ≠ some '@') : hunkStart cs = none := by
  unfold hunkStart dropText
  rw [if_neg]
  · rfl
  · cases cs with
    | nil => decide
    | cons c cs =>
      have hc : c ≠ '@' := fun heq => h (by rw [heq]; rfl)
      simp [List.isPrefixOf, Ne.symm hc]

/-! ## Scanning -/

theorem scanPatchLine_inside {rawLine : List Char} (h : hunkStart rawLine = none) (next : Nat) (seen : List Int) :
    scanPatchLine (some next, seen) rawLine =
      if "\\ No newline".toList.isPrefixOf rawLine then (some next, seen)
      else if "+".toList.isPrefixOf rawLine && !"+++".toList.isPrefixOf rawLine then
        (some (next + 1), seen ++ [(next : Int)])
      else if "-".toList.isPrefixOf rawLine && !"---".toList.isPrefixOf rawLine then (some next, seen)
      else (some (next + 1), seen ++ [(next : Int)]) := by
  simp only [scanPatchLine, h]

theorem isPrefixOf_of_head {c d : Char} (h : c ≠ d) (cs ds : List Char) : (c :: cs).isPrefixOf (d :: ds) = false := by
  simp [List.isPrefixOf, h]

theorem isPrefixOf_cons_self (c : Char) (cs ds : List Char) : (c :: cs).isPrefixOf (c :: ds) = cs.isPrefixOf ds := by
  simp [List.isPrefixOf]

theorem DiffLine.render_context (text : LineText) : (context text).render = ' ' :: text.1 := rfl

theorem DiffLine.render_added (text : LineText) : (added text).render = '+' :: text.1 := rfl

theorem DiffLine.render_deleted (text : LineText) : (deleted text).render = '-' :: text.1 := rfl

theorem DiffLine.head_render (line : DiffLine) : line.render.head? ≠ some '@' := by
  cases line with
  | noNewline => decide
  | context text => exact fun h => absurd (Option.some.inj h) (by decide)
  | added text => exact fun h => absurd (Option.some.inj h) (by decide)
  | deleted text => exact fun h => absurd (Option.some.inj h) (by decide)

/-- Inside a hunk a line counts when it is on the right side, or deleted and misread. -/
theorem scan_line (line : DiffLine) (next : Nat) (seen : List Int) :
    scanPatchLine (some next, seen) line.render =
      if line.isRight || line.isMisread then (some (next + 1), seen ++ [(next : Int)]) else (some next, seen) := by
  have hmarker : "\\ No newline".toList = '\\' :: " No newline".toList := by decide
  have hplus : "+".toList = '+' :: [] ∧ "+++".toList = '+' :: "++".toList := by decide
  have hminus : "-".toList = '-' :: [] ∧ "---".toList = '-' :: "--".toList := by decide
  rw [scanPatchLine_inside (hunkStart_of_head line.head_render)]
  cases line with
  | noNewline =>
    have hstart : "\\ No newline".toList.isPrefixOf DiffLine.noNewline.render = true := by decide
    rw [if_pos hstart]
    simp [DiffLine.isRight, DiffLine.isMisread]
  | context text =>
    have hnoPlus := isPrefixOf_of_head (c := '+') (d := ' ') (by decide) [] text.1
    have hnoMinus := isPrefixOf_of_head (c := '-') (d := ' ') (by decide) [] text.1
    rw [hmarker, hplus.1, hminus.1, DiffLine.render_context, isPrefixOf_of_head (by decide), hnoPlus, hnoMinus]
    simp [DiffLine.isRight]
  | added text =>
    have hnot := isPrefixOf_of_head (c := '-') (d := '+') (by decide) [] text.1
    rw [hmarker, hplus.1, hminus.1, DiffLine.render_added, isPrefixOf_of_head (by decide), hnot]
    -- a line with `+++` falls through to the last branch, which counts it as well
    split
    · contradiction
    · split
      · rfl
      · rfl
  | deleted text =>
    have hnot := isPrefixOf_of_head (c := '+') (d := '-') (by decide) [] text.1
    rw [hmarker, hplus.1, hminus.1, hminus.2, DiffLine.render_deleted, isPrefixOf_of_head (by decide), hnot,
      isPrefixOf_cons_self, isPrefixOf_cons_self]
    have hmisread : (DiffLine.deleted text).isMisread = "--".toList.isPrefixOf text.1 := rfl
    rw [hmisread]
    cases "--".toList.isPrefixOf text.1
    · rfl
    · rfl

theorem scan_lines (lines : List DiffLine) (next : Nat) (seen : List Int) :
    (lines.map DiffLine.render).foldl scanPatchLine (some next, seen) =
      (some (next + (lines.countP DiffLine.isRight + lines.countP DiffLine.isMisread)),
        seen ++ (List.range' next (lines.countP DiffLine.isRight + lines.countP DiffLine.isMisread)).map
          fun n : Nat => (n : Int)) := by
  induction lines generalizing next seen with
  | nil => simp
  | cons line lines ih =>
    have hexclusive : ¬(line.isRight = true ∧ line.isMisread = true) := by
      cases line <;> simp [DiffLine.isRight, DiffLine.isMisread]
    have hcount : (line :: lines).countP DiffLine.isRight + (line :: lines).countP DiffLine.isMisread =
        lines.countP DiffLine.isRight + lines.countP DiffLine.isMisread +
          if line.isRight || line.isMisread then 1 else 0 := by
      rw [List.countP_cons, List.countP_cons]
      cases hright : line.isRight <;> cases hmisread : line.isMisread
      · simp
      · simp
        omega
      · simp
        omega
      · exact absurd ⟨hright, hmisread⟩ hexclusive
    rw [List.map_cons, List.foldl_cons, scan_line, hcount]
    split
    · rw [ih, List.range'_succ, List.map_cons, List.append_assoc, List.singleton_append]
      congr 2
      omega
    · rw [ih, Nat.add_zero]

def Hunk.counted (hunk : Hunk) : List Nat :=
  List.range' hunk.newStart (hunk.lines.countP DiffLine.isRight + hunk.misread)

theorem numbered_eq_range' (next : Nat) (lines : List DiffLine) :
    Hunk.numbered next lines = List.range' next (lines.countP DiffLine.isRight) := by
  induction lines generalizing next with
  | nil => rfl
  | cons line lines ih =>
    unfold Hunk.numbered
    rw [List.countP_cons]
    split
    · rw [ih, List.range'_succ]
    · rw [ih, Nat.add_zero]

theorem mem_counted {hunk : Hunk} {n : Nat} :
    n ∈ hunk.counted ↔ n ∈ hunk.rightLines ∨ n ∈ List.range' hunk.nextLine hunk.misread := by
  unfold Hunk.counted Hunk.rightLines Hunk.nextLine
  rw [numbered_eq_range']
  simp only [List.mem_range'_1]
  omega

theorem scan_hunk (hunk : Hunk) (next : Option Nat) (seen : List Int) :
    hunk.render.foldl scanPatchLine (next, seen) =
      (some (hunk.nextLine + hunk.misread), seen ++ hunk.counted.map fun n : Nat => (n : Int)) := by
  have hheader : scanPatchLine (next, seen) hunk.header = (some hunk.newStart, seen) := by
    simp only [scanPatchLine, hunkStart_header]
  rw [Hunk.render, List.foldl_cons, hheader, scan_lines, ← Nat.add_assoc]
  rfl

theorem scan_hunks (hunks : List Hunk) (next : Option Nat) (seen : List Int) :
    (hunks.flatMap Hunk.render).foldl scanPatchLine (next, seen) =
      ((hunks.getLast?.map fun hunk => hunk.nextLine + hunk.misread).or next,
        seen ++ (hunks.flatMap Hunk.counted).map fun n : Nat => (n : Int)) := by
  induction hunks generalizing next seen with
  | nil => simp
  | cons hunk hunks ih =>
    rw [List.flatMap_cons, List.foldl_append, scan_hunk, ih, List.flatMap_cons, List.map_append, List.append_assoc]
    cases hunks with
    | nil => rfl
    | cons next hunks =>
      rw [List.getLast?_cons_cons]
      cases hlast : (next :: hunks).getLast? with
      | none => simp at hlast
      | some last => rfl

theorem scan_header {lines : List (List Char)} (h : ∀ line ∈ lines, line.head? ≠ some '@') :
    lines.foldl scanPatchLine (none, []) = (none, []) := by
  induction lines with
  | nil => rfl
  | cons line lines ih =>
    have hline : scanPatchLine (none, []) line = (none, []) := by
      simp only [scanPatchLine, hunkStart_of_head (h line List.mem_cons_self)]
    rw [List.foldl_cons, hline]
    exact ih fun l hl => h l (List.mem_cons_of_mem _ hl)

theorem scan_empty (next : Option Nat) (seen : List Int) :
    (scanPatchLine (next, seen) []).2 = seen ++ (next.toList.map fun n : Nat => (n : Int)) := by
  have hstart : hunkStart [] = none := hunkStart_of_head (by simp)
  cases next with
  | none => simp [scanPatchLine, hstart]
  | some next =>
    rw [scanPatchLine_inside hstart]
    rfl

/-! ## A file -/

theorem newline_notMem_toDigits (n : Nat) : '\n' ∉ Nat.toDigits 10 n := by
  intro h
  have hdigit := Nat.isDigit_of_mem_toDigits (by decide) (by decide) h
  revert hdigit
  decide

theorem newline_notMem_renderCount (count : Option Nat) : '\n' ∉ Hunk.renderCount count := by
  cases count with
  | none => simp [Hunk.renderCount]
  | some count =>
    rw [Hunk.renderCount, List.mem_cons, not_or]
    exact ⟨by decide, newline_notMem_toDigits count⟩

theorem newline_notMem_header (hunk : Hunk) : '\n' ∉ hunk.header := by
  unfold Hunk.header
  simp only [List.mem_append, not_or]
  exact ⟨by decide, newline_notMem_toDigits _, newline_notMem_renderCount _, by decide, newline_notMem_toDigits _,
    newline_notMem_renderCount _, by decide, hunk.heading.2⟩

theorem newline_notMem_render (line : DiffLine) : '\n' ∉ line.render := by
  cases line with
  | noNewline => decide
  | context text =>
    rw [DiffLine.render_context, List.mem_cons, not_or]
    exact ⟨by decide, text.2⟩
  | added text =>
    rw [DiffLine.render_added, List.mem_cons, not_or]
    exact ⟨by decide, text.2⟩
  | deleted text =>
    rw [DiffLine.render_deleted, List.mem_cons, not_or]
    exact ⟨by decide, text.2⟩

theorem newline_notMem_lines (file : DiffFile) : ∀ line ∈ file.lines, '\n' ∉ line := by
  intro line hline
  unfold DiffFile.lines at hline
  simp only [List.mem_append] at hline
  rcases hline with (hheader | hhunk) | hlast
  · unfold DiffFile.headerLines at hheader
    split at hheader
    · simp at hheader
    · obtain ⟨text, -, rfl⟩ := List.mem_map.mp hheader
      exact text.1.2
  · obtain ⟨hunk, -, hhunk⟩ := List.mem_flatMap.mp hhunk
    rcases List.mem_cons.mp hhunk with rfl | hhunk
    · exact newline_notMem_header hunk
    · obtain ⟨text, -, rfl⟩ := List.mem_map.mp hhunk
      exact newline_notMem_render text
  · unfold DiffFile.lastLines at hlast
    split at hlast
    · simp at hlast
    · rw [List.mem_singleton.mp hlast]
      simp

theorem patchLines_patch (file : DiffFile) : patchLines file.patch = (file.lines.foldl scanPatchLine (none, [])).2 := by
  have htext : (file.patch.patch.getD "").toList = ['\n'].intercalate file.lines := String.toList_ofList
  unfold patchLines
  rw [htext]
  cases hlines : file.lines with
  | nil => rfl
  | cons line lines =>
    rw [← hlines, JsText.split_intercalate (by simp [hlines]) (newline_notMem_lines file)]

theorem scan_file (file : DiffFile) :
    patchLines file.patch = (file.hunks.flatMap Hunk.counted ++
      match file.form, file.hunks.getLast? with
      | .printed _, some hunk => [hunk.nextLine + hunk.misread]
      | _, _ => []).map fun n : Nat => (n : Int) := by
  rw [patchLines_patch]
  unfold DiffFile.lines
  rw [List.foldl_append, List.foldl_append]
  cases hform : file.form with
  | listed =>
    simp only [DiffFile.headerLines, DiffFile.lastLines, hform, List.foldl_nil]
    rw [scan_hunks]
    simp
  | printed header =>
    simp only [DiffFile.headerLines, DiffFile.lastLines, hform, List.foldl_cons, List.foldl_nil]
    rw [scan_header, scan_hunks, scan_empty]
    · cases file.hunks.getLast? <;> simp
    · intro line hline
      obtain ⟨text, -, rfl⟩ := List.mem_map.mp hline
      exact text.2

theorem mem_patchLines {file : DiffFile} {n : Int} :
    n ∈ patchLines file.patch ↔ ∃ m : Nat, n = m ∧ (m ∈ file.rightLines ∨ m ∈ file.overshoot) := by
  have hcounted : ∀ m, m ∈ file.hunks.flatMap Hunk.counted ↔
      m ∈ file.rightLines ∨ m ∈ file.hunks.flatMap fun hunk => List.range' hunk.nextLine hunk.misread := by
    intro m
    unfold DiffFile.rightLines
    simp only [List.mem_flatMap, mem_counted, ← exists_or, ← and_or_left]
  rw [scan_file, List.mem_map]
  unfold DiffFile.overshoot
  simp only [List.mem_append, hcounted, or_assoc]
  constructor
  · rintro ⟨m, hm, rfl⟩
    exact ⟨m, rfl, hm⟩
  · rintro ⟨m, rfl, hm⟩
    exact ⟨m, hm, rfl⟩

/-! ## The files of a pull request -/

theorem collect_other {files : List PullFilePatch} {path : String} (h : ∀ file ∈ files, file.filename ≠ path)
    (found : Option (List Int)) :
    files.foldl (fun found file =>
      if file.filename = path && patchLines file ≠ [] then some (patchLines file) else found) found = found := by
  induction files generalizing found with
  | nil => rfl
  | cons file files ih =>
    rw [List.foldl_cons, if_neg (by simp [h file List.mem_cons_self])]
    exact ih (fun f hf => h f (List.mem_cons_of_mem _ hf)) found

theorem collectRightSideLines_of_mem {files : List DiffFile} (hnames : (files.map DiffFile.name).Nodup)
    {file : DiffFile} (hfile : file ∈ files) :
    collectRightSideLines (files.map DiffFile.patch) file.name =
      if patchLines file.patch ≠ [] then some (patchLines file.patch) else none := by
  obtain ⟨before, after, rfl⟩ := List.append_of_mem hfile
  rw [List.map_append, List.map_cons, List.nodup_append] at hnames
  obtain ⟨-, hafter, hbefore⟩ := hnames
  have hothers : ∀ f ∈ before.map DiffFile.patch, f.filename ≠ file.name := by
    intro f hf
    obtain ⟨other, hother, rfl⟩ := List.mem_map.mp hf
    exact hbefore _ (List.mem_map_of_mem hother) _ List.mem_cons_self
  have hlater : ∀ f ∈ after.map DiffFile.patch, f.filename ≠ file.name := by
    intro f hf heq
    obtain ⟨other, hother, rfl⟩ := List.mem_map.mp hf
    exact (List.nodup_cons.mp hafter).1 (List.mem_map.mpr ⟨other, hother, heq⟩)
  unfold collectRightSideLines
  rw [List.map_append, List.map_cons, List.foldl_append, List.foldl_cons, collect_other hothers, collect_other hlater]
  have hname : file.patch.filename = file.name := rfl
  by_cases hempty : patchLines file.patch = []
  · simp [hempty]
  · simp [hname, hempty]

theorem mem_collectRightSideLines {files : List DiffFile} (hnames : (files.map DiffFile.name).Nodup) {path : String}
    {n : Int} : (∃ lines, collectRightSideLines (files.map DiffFile.patch) path = some lines ∧ n ∈ lines) ↔
      ∃ file ∈ files, file.name = path ∧ n ∈ patchLines file.patch := by
  constructor
  · rintro ⟨lines, hlines, hn⟩
    by_cases hfile : ∃ file ∈ files, file.name = path
    · obtain ⟨file, hfile, rfl⟩ := hfile
      rw [collectRightSideLines_of_mem hnames hfile] at hlines
      split at hlines
      · cases hlines
        exact ⟨file, hfile, rfl, hn⟩
      · cases hlines
    · have hnone : collectRightSideLines (files.map DiffFile.patch) path = none := by
        apply collect_other
        intro f hf heq
        obtain ⟨file, hmem, rfl⟩ := List.mem_map.mp hf
        exact hfile ⟨file, hmem, heq⟩
      rw [hnone] at hlines
      cases hlines
  · rintro ⟨file, hfile, rfl, hn⟩
    rw [collectRightSideLines_of_mem hnames hfile, if_pos (List.ne_nil_of_mem hn)]
    exact ⟨_, rfl, hn⟩

theorem mem_validateFindingLocations {findings : List Finding} {files : List PullFilePatch} {finding : Finding} :
    finding ∈ (validateFindingLocations findings files).1 ↔ finding ∈ findings ∧
      ∃ lines, collectRightSideLines files finding.path = some lines ∧ finding.line ∈ lines := by
  unfold validateFindingLocations keep
  rw [List.mem_filter, Option.isNone_iff_eq_none]
  unfold locationDrop
  cases collectRightSideLines files finding.path with
  | none => simp
  | some lines => by_cases hline : finding.line ∈ lines <;> simp [hline]

def RightSideExact (files : List DiffFile) : Prop :=
  (∀ file ∈ files, ∀ n : Int, (∃ lines, collectRightSideLines (files.map DiffFile.patch) file.name = some lines ∧
      n ∈ lines) ↔ ∃ m ∈ file.rightLines, n = m) ∧
  ∀ (findings : List Finding) (finding : Finding),
    finding ∈ (validateFindingLocations findings (files.map DiffFile.patch)).1 ↔
      finding ∈ findings ∧ ∃ file ∈ files, file.name = finding.path ∧ ∃ m ∈ file.rightLines, finding.line = m

/-- The lines are exact exactly when every number behind a hunk that a misread line is counted under is a right-side
line of another hunk. -/
theorem right_side_lines_exact_iff (files : List DiffFile) (hnames : (files.map DiffFile.name).Nodup) :
    RightSideExact files ↔ ∀ file ∈ files, ∀ m ∈ file.overshoot, m ∈ file.rightLines := by
  have hread : ∀ file ∈ files, ∀ n : Int, (∃ lines, collectRightSideLines (files.map DiffFile.patch) file.name =
      some lines ∧ n ∈ lines) ↔ ∃ m : Nat, n = m ∧ (m ∈ file.rightLines ∨ m ∈ file.overshoot) := by
    intro file hfile n
    rw [← mem_patchLines, mem_collectRightSideLines hnames]
    constructor
    · rintro ⟨other, hother, hname, hn⟩
      obtain rfl := List.inj_on_of_nodup_map hnames hother hfile hname
      exact hn
    · exact fun hn => ⟨file, hfile, rfl, hn⟩
  constructor
  · intro hexact file hfile m hm
    have hseen := (hread file hfile m).mpr ⟨m, rfl, Or.inr hm⟩
    obtain ⟨k, hk, heq⟩ := (hexact.1 file hfile m).mp hseen
    rw [Int.ofNat_inj.mp heq]
    exact hk
  · intro hcovered
    have hlines : ∀ file ∈ files, ∀ n : Int, (∃ lines, collectRightSideLines (files.map DiffFile.patch) file.name =
        some lines ∧ n ∈ lines) ↔ ∃ m ∈ file.rightLines, n = m := by
      intro file hfile n
      rw [hread file hfile]
      constructor
      · rintro ⟨m, rfl, hm | hm⟩
        · exact ⟨m, hm, rfl⟩
        · exact ⟨m, hcovered file hfile m hm, rfl⟩
      · rintro ⟨m, hm, rfl⟩
        exact ⟨m, rfl, Or.inl hm⟩
    refine ⟨hlines, fun findings finding => ?_⟩
    rw [mem_validateFindingLocations, and_congr_right_iff]
    intro _
    constructor
    · intro hseen
      obtain ⟨file, hfile, hname, -⟩ := (mem_collectRightSideLines hnames).mp hseen
      rw [← hname] at hseen
      exact ⟨file, hfile, hname, (hlines file hfile _).mp hseen⟩
    · rintro ⟨file, hfile, hname, hline⟩
      have hseen := (hlines file hfile _).mpr hline
      rw [hname] at hseen
      exact hseen

namespace HunksExample

def text (line : String) (h : '\n' ∉ line.toList := by decide) : LineText := ⟨line.toList, h⟩

def replaced : DiffFile :=
  ⟨"schema.sql", .listed, [⟨1, some 2, 1, some 2, text "", [.context (text "a"), .deleted (text "b"), .added (text "c")]⟩]⟩

def uncommented : DiffFile :=
  ⟨"schema.sql", .listed, [⟨1, some 2, 1, some 1, text "", [.deleted (text "-- old"), .context (text "a")]⟩]⟩

end HunksExample

open HunksExample

theorem right_side_lines_exact_of_replaced : RightSideExact [replaced] :=
  (right_side_lines_exact_iff [replaced] (by decide)).mpr (by decide)

/-- The deleted comment is counted, and line 2 with it, which the new file does not have. -/
theorem right_side_lines_of_deleted_comment :
    ¬∀ files : List DiffFile, (files.map DiffFile.name).Nodup → RightSideExact files := by
  intro h
  have hlines : (2 : Int) ∈ patchLines uncommented.patch := by decide +kernel
  have hexact := (h [uncommented] (by decide)).1 uncommented List.mem_cons_self 2
  obtain ⟨m, hm, heq⟩ := hexact.mp ((mem_collectRightSideLines (by decide)).mpr
    ⟨uncommented, List.mem_cons_self, rfl, hlines⟩)
  obtain rfl : m = 2 := Int.ofNat_inj.mp heq.symm
  revert hm
  decide

end NeonDiff.Review
