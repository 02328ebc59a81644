import NeonDiff.Lib.JsonText

/-! # Reading JSON texts

A reader by descent over the grammar. It can be asked to stop at a depth of nesting, at a name that an object has
already, and at strings that are not well-formed.
-/

namespace NeonDiff.Lib.JsonText

inductive Failure where
  | malformed | depth | duplicateKey | unicode
  /-- The steps given to the reader are used up. -/
  | unfinished
  deriving DecidableEq, Repr

structure Checks where
  maxDepth : Option Nat
  uniqueKeys : Bool
  wellFormed : Bool

/-! ## Spaces, literals, numbers and strings -/

def skipSpace (cs : Units) : Units := cs.dropWhile isSpace

def readDigits : Units → Except Failure Units
  | [] => .error .malformed
  | c :: cs => if isDigit c then .ok (cs.dropWhile isDigit) else .error .malformed

def readWhole : Units → Except Failure Units
  | [] => .error .malformed
  | c :: cs =>
    if c = 48 then .ok cs
    else if isDigit c then .ok (cs.dropWhile isDigit)
    else .error .malformed

def readFraction : Units → Except Failure Units
  | [] => .ok []
  | c :: cs => if c = 46 then readDigits cs else .ok (c :: cs)

def skipSign : Units → Units
  | [] => []
  | c :: cs => if c = 43 || c = 45 then cs else c :: cs

def readExponent : Units → Except Failure Units
  | [] => .ok []
  | c :: cs => if c = 101 || c = 69 then readDigits (skipSign cs) else .ok (c :: cs)

def skipMinus : Units → Units
  | [] => []
  | c :: cs => if c = 45 then cs else c :: cs

/-- What is left behind a number. -/
def readNumber (cs : Units) : Except Failure Units :=
  ((readWhole (skipMinus cs)).bind readFraction).bind readExponent

/-- The characters of a string up to its closing quote. -/
def readChars : Units → Except Failure (Units × Units)
  | [] => .error .malformed
  | c :: cs =>
    if c = 34 then .ok ([], cs)
    else if c < 32 then .error .malformed
    else if c ≠ 92 then (readChars cs).map fun read => (c :: read.1, read.2)
    else
      match cs with
      | [] => .error .malformed
      | e :: cs =>
        match simpleEscape e with
        | some u => (readChars cs).map fun read => (u :: read.1, read.2)
        | none =>
          if e ≠ 117 then .error .malformed
          else
            match cs with
            | a :: b :: c :: d :: cs =>
              match hexUnit a b c d with
              | some u => (readChars cs).map fun read => (u :: read.1, read.2)
              | none => .error .malformed
            | _ => .error .malformed

/-- No lone surrogates. -/
def isWellFormed : Units → Bool
  | [] => true
  | [c] => !isHigh c && !isLow c
  | c :: d :: cs => if isHigh c then isLow d && isWellFormed cs else !isLow c && isWellFormed (d :: cs)

variable (k : Checks)

def Checks.tooDeep (depth : Nat) : Bool := k.maxDepth.any fun max => max ≤ depth

def readString (cs : Units) : Except Failure (Units × Units) :=
  (readChars cs).bind fun read => if k.wellFormed && !isWellFormed read.1 then .error .unicode else .ok read

/-! ## Values -/

mutual

/-- A value behind white space, and what is left behind it; `depth` is the number of arrays and objects around it. -/
def readValue : Nat → Nat → Units → Except Failure (Tree × Units)
  | 0, _, _ => .error .unfinished
  | n + 1, depth, cs =>
    match skipSpace cs with
    | [] => .error .malformed
    | c :: rest =>
      if c = 34 then (readString k rest).map fun read => (.string read.1, read.2)
      else if c = 123 then
        if k.tooDeep depth then .error .depth
        else if (skipSpace rest).head? = some 125 then .ok (.object [], (skipSpace rest).tail)
        else (readMembers n (depth + 1) [] (skipSpace rest)).map fun read => (.object read.1, read.2)
      else if c = 91 then
        if k.tooDeep depth then .error .depth
        else if (skipSpace rest).head? = some 93 then .ok (.array [], (skipSpace rest).tail)
        else (readElements n (depth + 1) (skipSpace rest)).map fun read => (.array read.1, read.2)
      else if [116, 114, 117, 101] <+: c :: rest then .ok (.bool true, (c :: rest).drop 4)
      else if [102, 97, 108, 115, 101] <+: c :: rest then .ok (.bool false, (c :: rest).drop 5)
      else if [110, 117, 108, 108] <+: c :: rest then .ok (.null, (c :: rest).drop 4)
      else if c = 45 || isDigit c then
        (readNumber (c :: rest)).map fun behind => (.number ((c :: rest).take ((c :: rest).length - behind.length)), behind)
      else .error .malformed

/-- Elements up to the closing bracket. -/
def readElements : Nat → Nat → Units → Except Failure (List Tree × Units)
  | 0, _, _ => .error .unfinished
  | n + 1, depth, cs =>
    (readValue n depth cs).bind fun (v, rest) =>
      match skipSpace rest with
      | [] => .error .malformed
      | c :: rest =>
        if c = 93 then .ok ([v], rest)
        else if c = 44 then (readElements n depth (skipSpace rest)).map fun read => (v :: read.1, read.2)
        else .error .malformed

/-- Members up to the closing brace; `keys` are the names that the object has. -/
def readMembers : Nat → Nat → List Units → Units → Except Failure (List (Units × Tree) × Units)
  | 0, _, _, _ => .error .unfinished
  | _ + 1, _, _, [] => .error .malformed
  | n + 1, depth, keys, c :: cs =>
    if c ≠ 34 then .error .malformed
    else (readString k cs).bind fun (key, rest) =>
      match skipSpace rest with
      | [] => .error .malformed
      | c :: rest =>
        if c ≠ 58 then .error .malformed
        else if k.uniqueKeys && key ∈ keys then .error .duplicateKey
        else (readValue n depth rest).bind fun (v, rest) =>
          match skipSpace rest with
          | [] => .error .malformed
          | c :: rest =>
            if c = 125 then .ok ([(key, v)], rest)
            else if c = 44 then
              (readMembers n depth (key :: keys) (skipSpace rest)).map fun read => ((key, v) :: read.1, read.2)
            else .error .malformed

end

def stepsFor (text : Units) : Nat := 2 * text.length + 1

def readDocument (text : Units) : Except Failure Tree :=
  (readValue k (stepsFor text) 0 text).bind fun (v, rest) => if skipSpace rest = [] then .ok v else .error .malformed

end NeonDiff.Lib.JsonText
