import Mathlib.Data.List.Basic

/-! # JSON texts

The grammar of RFC 8259 over UTF-16 code units. Each rule relates a text to what is left of it behind the rule.
-/

namespace NeonDiff.Lib.JsonText

/-- A string of JavaScript. -/
abbrev Units := List UInt16

/-- A document as it is written: a number keeps its spelling, and an object its members in their order. -/
inductive Tree where
  | null
  | bool (b : Bool)
  | number (spelling : Units)
  | string (s : Units)
  | array (vs : List Tree)
  | object (ms : List (Units × Tree))
  deriving Repr

/-! ## White space and digits -/

def isSpace (c : UInt16) : Bool := c = 9 || c = 10 || c = 13 || c = 32

def isDigit (c : UInt16) : Bool := 48 ≤ c && c ≤ 57

inductive Ws : Units → Units → Prop where
  | done (cs : Units) : Ws cs cs
  | more {c : UInt16} {cs rest : Units} (hc : isSpace c = true) (h : Ws cs rest) : Ws (c :: cs) rest

inductive Digits : Units → Units → Prop where
  | one {c : UInt16} {cs : Units} (hc : isDigit c = true) : Digits (c :: cs) cs
  | more {c : UInt16} {cs rest : Units} (hc : isDigit c = true) (h : Digits cs rest) : Digits (c :: cs) rest

/-! ## Numbers -/

inductive Minus : Units → Units → Prop where
  | absent (cs : Units) : Minus cs cs
  | present (cs : Units) : Minus (45 :: cs) cs

/-- `int`: a zero, or digits that do not begin with one. -/
inductive Whole : Units → Units → Prop where
  | zero (cs : Units) : Whole (48 :: cs) cs
  | digits {c : UInt16} {cs rest : Units} (hc : c ≠ 48) (h : Digits (c :: cs) rest) : Whole (c :: cs) rest

inductive Fraction : Units → Units → Prop where
  | absent (cs : Units) : Fraction cs cs
  | present {cs rest : Units} (h : Digits cs rest) : Fraction (46 :: cs) rest

inductive Sign : Units → Units → Prop where
  | absent (cs : Units) : Sign cs cs
  | plus (cs : Units) : Sign (43 :: cs) cs
  | minus (cs : Units) : Sign (45 :: cs) cs

inductive Exponent : Units → Units → Prop where
  | absent (cs : Units) : Exponent cs cs
  | present {e : UInt16} {cs mid rest : Units} (he : e = 101 ∨ e = 69) (hsign : Sign cs mid) (h : Digits mid rest) :
    Exponent (e :: cs) rest

def Number (cs rest : Units) : Prop :=
  ∃ behindMinus behindWhole behindFraction, Minus cs behindMinus ∧ Whole behindMinus behindWhole ∧
    Fraction behindWhole behindFraction ∧ Exponent behindFraction rest

/-! ## Strings -/

/-- The unit that an escaped character stands for. -/
def simpleEscape (c : UInt16) : Option UInt16 :=
  if c = 34 || c = 92 || c = 47 then some c
  else if c = 98 then some 8
  else if c = 102 then some 12
  else if c = 110 then some 10
  else if c = 114 then some 13
  else if c = 116 then some 9
  else none

/-- `Number.parseInt(digit, 16)`. -/
def hexDigit (c : UInt16) : Option Nat :=
  if 48 ≤ c && c ≤ 57 then some (c.toNat - 48)
  else if 97 ≤ c && c ≤ 102 then some (c.toNat - 87)
  else if 65 ≤ c && c ≤ 70 then some (c.toNat - 55)
  else none

def hexUnit (a b c d : UInt16) : Option UInt16 :=
  match hexDigit a, hexDigit b, hexDigit c, hexDigit d with
  | some a, some b, some c, some d => some (UInt16.ofNat (((a * 16 + b) * 16 + c) * 16 + d))
  | _, _, _, _ => none

/-- The characters of a string and its closing quote; first what they stand for. -/
inductive Chars : Units → Units → Units → Prop where
  | quote (rest : Units) : Chars [] (34 :: rest) rest
  | plain {c : UInt16} {s cs rest : Units} (hlow : ¬c < 32) (hquote : c ≠ 34) (hback : c ≠ 92) (h : Chars s cs rest) :
    Chars (c :: s) (c :: cs) rest
  | escape {e u : UInt16} {s cs rest : Units} (he : simpleEscape e = some u) (h : Chars s cs rest) :
    Chars (u :: s) (92 :: e :: cs) rest
  | hex {a b c d u : UInt16} {s cs rest : Units} (hu : hexUnit a b c d = some u) (h : Chars s cs rest) :
    Chars (u :: s) (92 :: 117 :: a :: b :: c :: d :: cs) rest

/-! ## Values -/

inductive Item where
  | value (v : Tree)
  | elements (vs : List Tree)
  | members (ms : List (Units × Tree))

inductive Reads : Item → Units → Units → Prop where
  | literalNull (rest : Units) : Reads (.value .null) (110 :: 117 :: 108 :: 108 :: rest) rest
  | literalTrue (rest : Units) : Reads (.value (.bool true)) (116 :: 114 :: 117 :: 101 :: rest) rest
  | literalFalse (rest : Units) : Reads (.value (.bool false)) (102 :: 97 :: 108 :: 115 :: 101 :: rest) rest
  | number {s rest : Units} (h : Number (s ++ rest) rest) : Reads (.value (.number s)) (s ++ rest) rest
  | string {s cs rest : Units} (h : Chars s cs rest) : Reads (.value (.string s)) (34 :: cs) rest
  | emptyArray {cs rest : Units} (h : Ws cs (93 :: rest)) : Reads (.value (.array [])) (91 :: cs) rest
  | array {vs : List Tree} {cs rest : Units} (h : Reads (.elements vs) cs (93 :: rest)) :
    Reads (.value (.array vs)) (91 :: cs) rest
  | element {v : Tree} {cs front behind rest : Units} (hfront : Ws cs front) (h : Reads (.value v) front behind)
    (hbehind : Ws behind rest) : Reads (.elements [v]) cs rest
  | elements {v : Tree} {vs : List Tree} {cs front behind more rest : Units} (hfront : Ws cs front)
    (h : Reads (.value v) front behind) (hbehind : Ws behind (44 :: more)) (hmore : Reads (.elements vs) more rest) :
    Reads (.elements (v :: vs)) cs rest
  | emptyObject {cs rest : Units} (h : Ws cs (125 :: rest)) : Reads (.value (.object [])) (123 :: cs) rest
  | object {ms : List (Units × Tree)} {cs rest : Units} (h : Reads (.members ms) cs (125 :: rest)) :
    Reads (.value (.object ms)) (123 :: cs) rest
  | member {key : Units} {v : Tree} {cs name colon text front behind rest : Units} (hname : Ws cs (34 :: name))
    (hkey : Chars key name colon) (hcolon : Ws colon (58 :: text)) (hfront : Ws text front)
    (h : Reads (.value v) front behind) (hbehind : Ws behind rest) : Reads (.members [(key, v)]) cs rest
  | members {key : Units} {v : Tree} {ms : List (Units × Tree)} {cs name colon text front behind more rest : Units}
    (hname : Ws cs (34 :: name)) (hkey : Chars key name colon) (hcolon : Ws colon (58 :: text))
    (hfront : Ws text front) (h : Reads (.value v) front behind) (hbehind : Ws behind (44 :: more))
    (hmore : Reads (.members ms) more rest) : Reads (.members ((key, v) :: ms)) cs rest

/-- The text is a document of RFC 8259, and `v` what it says. -/
def Document (v : Tree) (text : Units) : Prop :=
  ∃ front behind, Ws text front ∧ Reads (.value v) front behind ∧ Ws behind []

/-! ## What documents may be asked to meet -/

def isHigh (c : UInt16) : Bool := 0xd800 ≤ c && c ≤ 0xdbff

def isLow (c : UInt16) : Bool := 0xdc00 ≤ c && c ≤ 0xdfff

/-- No lone surrogates. -/
inductive WellFormed : Units → Prop where
  | nil : WellFormed []
  | unit {c : UInt16} {cs : Units} (hhigh : isHigh c = false) (hlow : isLow c = false) (h : WellFormed cs) :
    WellFormed (c :: cs)
  | pair {c d : UInt16} {cs : Units} (hhigh : isHigh c = true) (hlow : isLow d = true) (h : WellFormed cs) :
    WellFormed (c :: d :: cs)

mutual

/-- How many arrays and objects are nested. -/
def Tree.depth : Tree → Nat
  | .array vs => 1 + elementsDepth vs
  | .object ms => 1 + membersDepth ms
  | _ => 0

def elementsDepth : List Tree → Nat
  | [] => 0
  | v :: vs => max v.depth (elementsDepth vs)

def membersDepth : List (Units × Tree) → Nat
  | [] => 0
  | (_, v) :: ms => max v.depth (membersDepth ms)

end

mutual

def Tree.KeysUnique : Tree → Prop
  | .array vs => ElementsUnique vs
  | .object ms => (ms.map Prod.fst).Nodup ∧ MembersUnique ms
  | _ => True

def ElementsUnique : List Tree → Prop
  | [] => True
  | v :: vs => v.KeysUnique ∧ ElementsUnique vs

def MembersUnique : List (Units × Tree) → Prop
  | [] => True
  | (_, v) :: ms => v.KeysUnique ∧ MembersUnique ms

end

mutual

def Tree.StringsWellFormed : Tree → Prop
  | .string s => WellFormed s
  | .array vs => ElementsWellFormed vs
  | .object ms => MembersWellFormed ms
  | _ => True

def ElementsWellFormed : List Tree → Prop
  | [] => True
  | v :: vs => v.StringsWellFormed ∧ ElementsWellFormed vs

def MembersWellFormed : List (Units × Tree) → Prop
  | [] => True
  | (key, v) :: ms => WellFormed key ∧ v.StringsWellFormed ∧ MembersWellFormed ms

end

end NeonDiff.Lib.JsonText
