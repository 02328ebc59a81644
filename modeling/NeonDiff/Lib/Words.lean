import Mathlib.Data.List.Basic

/-! # Words of a text -/

namespace NeonDiff.Lib.Words

/-- `text.includes(needle)`. -/
def includes (needle : List Char) : List Char → Bool
  | [] => needle.isEmpty
  | c :: cs => needle.isPrefixOf (c :: cs) || includes needle cs

/-- The runs of the characters that `keep` holds of: the non-empty parts of `text.split(/[^…]+/)`. -/
def runs (keep : Char → Bool) : List Char → List (List Char)
  | [] => []
  | [c] => if keep c then [[c]] else []
  | c :: d :: cs =>
    if keep c then
      match keep d, runs keep (d :: cs) with
      | true, run :: rest => (c :: run) :: rest
      | _, rest => [c] :: rest
    else runs keep (d :: cs)

/-- `RegExp("(^|[^…])needle([^…]|$)").test(text)` for the characters that `keep` holds of; `start` says whether the
match may begin here. -/
def includesWord (keep : Char → Bool) (needle : List Char) (start : Bool) : List Char → Bool
  | [] => start && needle.isEmpty
  | c :: cs =>
    (start && needle.isPrefixOf (c :: cs) && !((c :: cs).drop needle.length).head?.any keep) ||
      includesWord keep needle (!keep c) cs

/-- `[a-z0-9]`. -/
def isLowerAlnum (c : Char) : Bool := c.isLower || c.isDigit

example : includesWord isLowerAlnum "auth".toList true "an auth-check".toList = true := by decide

example : includesWord isLowerAlnum "auth".toList true "the author".toList = false := by decide

example : runs isLowerAlnum "off  by-one".toList = ["off".toList, "by".toList, "one".toList] := by decide

end NeonDiff.Lib.Words
