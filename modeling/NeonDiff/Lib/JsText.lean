import Mathlib.Algebra.GroupWithZero.Nat
import Mathlib.Data.List.Basic
import Mathlib.Data.List.DropRight
import Mathlib.Data.String.Basic

/-! # JavaScript's text functions -/

namespace NeonDiff.Lib.JsText

/-- `s.startsWith(p)`. -/
def startsWith (s p : String) : Bool := p.toList.isPrefixOf s.toList

theorem startsWith_iff {s p : String} : startsWith s p = true ↔ p.toList <+: s.toList := by
  rw [startsWith, List.isPrefixOf_iff_prefix]

@[simp] theorem startsWith_append (p s : String) : startsWith (p ++ s) p = true := by
  rw [startsWith_iff, String.toList_append]
  exact List.prefix_append _ _

/-- `s.length`: characters outside the first plane count twice. -/
def length (cs : List Char) : Nat := (cs.map fun c => if c.toNat < 0x10000 then 1 else 2).sum

/-- The white space and line ends that `trim` drops. -/
def isSpace (c : Char) : Bool :=
  c = '\t' || c = '\n' || c = '\r' || c = ' ' || c.toNat = 0x0b || c.toNat = 0x0c || c.toNat = 0xa0 ||
  c.toNat = 0x1680 || (0x2000 ≤ c.toNat && c.toNat ≤ 0x200a) || c.toNat = 0x2028 || c.toNat = 0x2029 ||
  c.toNat = 0x202f || c.toNat = 0x205f || c.toNat = 0x3000 || c.toNat = 0xfeff

def trimStart (cs : List Char) : List Char := cs.dropWhile isSpace

def trimEnd (cs : List Char) : List Char := (trimStart cs.reverse).reverse

/-- `s.trim()`, on the characters of the text. -/
def trim (cs : List Char) : List Char := trimEnd (trimStart cs)

theorem trimEnd_eq_rdropWhile (cs : List Char) : trimEnd cs = cs.rdropWhile isSpace := rfl

theorem trim_eq_nil {cs : List Char} : trim cs = [] ↔ ∀ c ∈ cs, isSpace c = true := by
  rw [trim, trimEnd_eq_rdropWhile, List.rdropWhile_eq_nil_iff, trimStart]
  constructor
  · intro h
    by_contra hsome
    have hne : cs.dropWhile isSpace ≠ [] := fun hnil => hsome (List.dropWhile_eq_nil_iff.mp hnil)
    have hhead := List.head_dropWhile_not isSpace hne
    rw [h _ (List.head_mem hne)] at hhead
    cases hhead
  · exact fun h c hc => h c (List.dropWhile_subset _ hc)

theorem trimStart_of_prefix {cs pre : List Char} (h : pre <+: trimStart cs) : trimStart pre = pre := by
  cases pre with
  | nil => rfl
  | cons c rest =>
    obtain ⟨suffix, hsuffix⟩ := h
    have hhead := List.head?_dropWhile_not isSpace cs
    rw [show cs.dropWhile isSpace = c :: (rest ++ suffix) from hsuffix.symm] at hhead
    have hspace : isSpace c = false := by simpa using hhead
    rw [trimStart, List.dropWhile_cons_of_neg (by rw [hspace]; exact Bool.false_ne_true)]

theorem trim_trim (cs : List Char) : trim (trim cs) = trim cs := by
  have hstart : trimStart (trim cs) = trim cs := trimStart_of_prefix (List.rdropWhile_prefix isSpace _)
  rw [trim, hstart, trim, trimEnd_eq_rdropWhile, trimEnd_eq_rdropWhile, List.rdropWhile_idempotent]

theorem trim_concat_newline {cs : List Char} (h : trim cs = cs) : trim (cs ++ ['\n']) = cs := by
  have hstart : trimStart cs = cs := by
    rw [← h]
    exact trimStart_of_prefix (List.rdropWhile_prefix isSpace _)
  have hend : trimEnd cs = cs := by rwa [trim, hstart] at h
  cases cs with
  | nil => rfl
  | cons c rest =>
    have hkept : trimStart (c :: rest ++ ['\n']) = c :: rest ++ ['\n'] := by
      have hspace : isSpace c = false := by
        have hhead := List.head?_dropWhile_not isSpace (c :: rest)
        rw [show (c :: rest).dropWhile isSpace = c :: rest from hstart] at hhead
        simpa using hhead
      rw [trimStart, List.cons_append, List.dropWhile_cons_of_neg (by rw [hspace]; exact Bool.false_ne_true)]
    rw [trim, hkept, trimEnd_eq_rdropWhile, List.rdropWhile_concat_pos _ _ _ (by decide), ← trimEnd_eq_rdropWhile, hend]

/-- `s.split(sep)` for a one-character separator: never empty. -/
def split (sep : Char) : List Char → List (List Char)
  | [] => [[]]
  | c :: cs =>
    if c = sep then [] :: split sep cs
    else match split sep cs with
      | [] => [[c]]
      | part :: rest => (c :: part) :: rest

def digitsValue (cs : List Char) : Nat := cs.foldl (fun n c => 10 * n + (c.toNat - '0'.toNat)) 0

/-- `Number.parseInt(s, 10)`: the leading integer, or nothing for `NaN`. -/
def parseInt (cs : List Char) : Option Int :=
  match trimStart cs with
  | '-' :: rest => let ds := rest.takeWhile Char.isDigit; if ds = [] then none else some (-(digitsValue ds : Int))
  | '+' :: rest => let ds := rest.takeWhile Char.isDigit; if ds = [] then none else some (digitsValue ds)
  | rest => let ds := rest.takeWhile Char.isDigit; if ds = [] then none else some (digitsValue ds)

example : parseInt " 42ms".toList = some 42 := by decide

theorem toLower_toLower (c : Char) : c.toLower.toLower = c.toLower := by
  unfold Char.toLower
  split
  · rename_i h
    rw [dif_neg]
    rintro ⟨-, hle⟩
    have hlower := UInt32.le_iff_toNat_le.mp h.1
    have hupper := UInt32.le_iff_toNat_le.mp h.2
    have hshifted := UInt32.le_iff_toNat_le.mp hle
    simp [UInt32.toNat_add] at hlower hupper hshifted
    omega
  · rfl

end NeonDiff.Lib.JsText
