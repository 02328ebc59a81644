import Mathlib.Data.List.Forall2
import NeonDiff.Lib.Regex

/-! # Expressions from their source text

The part of JavaScript's syntax in which a text is matched one character after the other: characters, escaped syntax
characters, `.`, `[^c]`, `^`, `$`, and each of them with `*`.
-/

namespace NeonDiff.Lib.Regex

def isLineTerminator (c : Char) : Bool := c = '\n' || c = '\r' || c = '\u2028' || c = '\u2029'

/-- `.`. -/
def dot : Regex Char := .set fun c => !isLineTerminator c

/-- `[^c]`. -/
def other (c : Char) : Regex Char := .set fun d => d ≠ c

def syntaxCharacters : List Char := "^$\\.*+?()[]\x7b\x7d|".toList

def readEscape : List Char → Option (Regex Char × List Char)
  | [] => none
  | c :: cs => if c ∈ syntaxCharacters then some (lit c, cs) else none

def readClass : List Char → Option (Regex Char × List Char)
  | c :: d :: e :: cs => if c = '^' ∧ d ≠ '\\' ∧ d ≠ ']' ∧ e = ']' then some (other d, cs) else none
  | _ => none

/-- The first atom of a source text, and the text behind it. -/
def readAtom : List Char → Option (Regex Char × List Char)
  | [] => none
  | c :: cs =>
    if c = '\\' then readEscape cs
    else if c = '[' then readClass cs
    else if c = '.' then some (dot, cs)
    else if c = '^' then some (atStart, cs)
    else if c = '$' then some (atEnd, cs)
    else if c ∈ syntaxCharacters then none
    else some (lit c, cs)

/-- `n` atoms at most. -/
def readAtoms : Nat → List Char → Option (Regex Char)
  | _, [] => some .empty
  | 0, _ :: _ => none
  | n + 1, c :: cs =>
    (readAtom (c :: cs)).bind fun (atom, rest) =>
      if rest.head? = some '*' then (readAtoms n rest.tail).map (.cat (.star atom))
      else (readAtoms n rest).map (.cat atom)

/-- `new RegExp(source)`, for a source text of this part of the syntax. -/
def ofSource (source : List Char) : Option (Regex Char) := readAtoms source.length source

theorem readAtoms_star {n : Nat} {source rest : List Char} {atom : Regex Char}
    (h : readAtom source = some (atom, '*' :: rest)) :
    readAtoms (n + 1) source = (readAtoms n rest).map (.cat (.star atom)) := by
  cases source with
  | nil => cases h
  | cons c cs =>
    rw [readAtoms, h]
    dsimp only [Option.bind_some]
    rw [List.head?_cons, if_pos rfl, List.tail_cons]

theorem readAtoms_once {n : Nat} {source rest : List Char} {atom : Regex Char} (h : readAtom source = some (atom, rest))
    (hrest : rest.head? ≠ some '*') : readAtoms (n + 1) source = (readAtoms n rest).map (.cat atom) := by
  cases source with
  | nil => cases h
  | cons c cs =>
    rw [readAtoms, h]
    dsimp only [Option.bind_some]
    rw [if_neg hrest]

theorem readAtom_escaped {c : Char} (h : c ∈ syntaxCharacters) (rest : List Char) :
    readAtom ('\\' :: c :: rest) = some (lit c, rest) := by
  rw [readAtom, if_pos rfl, readEscape, if_pos h]

theorem readAtom_plain {c : Char} (h : c ∉ syntaxCharacters) (rest : List Char) :
    readAtom (c :: rest) = some (lit c, rest) := by
  have hne : ∀ d ∈ syntaxCharacters, c ≠ d := by
    rintro d hd rfl
    exact h hd
  rw [readAtom, if_neg (hne '\\' (by decide)), if_neg (hne '[' (by decide)), if_neg (hne '.' (by decide)),
    if_neg (hne '^' (by decide)), if_neg (hne '$' (by decide)), if_neg h]

theorem readAtom_dot (rest : List Char) : readAtom ('.' :: rest) = some (dot, rest) := rfl

theorem readAtom_other_slash (rest : List Char) : readAtom ("[^/]".toList ++ rest) = some (other '/', rest) := rfl

theorem readAtom_atStart (rest : List Char) : readAtom ('^' :: rest) = some (atStart, rest) := rfl

/-! ## Classes and the flag `i` -/

/-- `\w`. -/
def isWord (c : Char) : Bool := c.isAlphanum || c = '_'

/-- `\b`. -/
def wordBoundary : Regex Char := .look fun before after => before.head?.any isWord != after.head?.any isWord

/-- What the flag `i` compares, for a `toUpperCase` of single characters: no character outside ASCII counts as one of
ASCII, and none outside the first plane as another. -/
def canonicalize (toUpperCase : Char → Char) (c : Char) : Char :=
  if c.toNat < 0x80 then c.toUpper
  else if 0x10000 ≤ c.toNat then c
  else if (toUpperCase c).toNat < 0x80 then c
  else toUpperCase c

/-- The text under the flag `i`. -/
def textIgnoringCase (toUpperCase : Char → Char) (cs : List Char) : Regex Char :=
  textBy (fun c d => canonicalize toUpperCase c = canonicalize toUpperCase d) cs

theorem canonicalize_ascii {toUpperCase : Char → Char} {c : Char} (h : c.toNat < 0x80) :
    canonicalize toUpperCase c = c.toUpper := by
  rw [canonicalize, if_pos h]

theorem mem_results_textIgnoringCase {toUpperCase : Char → Char} {cs : List Char} {i j : Place Char} :
    j ∈ results (textIgnoringCase toUpperCase cs) i ↔
      ∃ taken rest, i.after = taken ++ rest ∧
        taken.map (canonicalize toUpperCase) = cs.map (canonicalize toUpperCase) ∧ j = i.past taken rest := by
  have hsame : ∀ taken : List Char,
      List.Forall₂ (fun c d => decide (canonicalize toUpperCase c = canonicalize toUpperCase d) = true) cs taken ↔
        taken.map (canonicalize toUpperCase) = cs.map (canonicalize toUpperCase) := by
    intro taken
    simp only [decide_eq_true_eq]
    rw [eq_comm, ← List.forall₂_eq_eq_eq, List.forall₂_map_left_iff, List.forall₂_map_right_iff]
  rw [textIgnoringCase, mem_results_textBy]
  simp only [hsame]

end NeonDiff.Lib.Regex
