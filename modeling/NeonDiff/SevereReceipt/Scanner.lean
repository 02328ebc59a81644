import NeonDiff.Lib.JsonChecks

/-! # The JSON stage of a severe verification receipt

A text is bounded, scanned and then given to `JSON.parse`. The scanner walks the text by position; here what is left of
the text stands for the position.
-/

namespace NeonDiff.SevereReceipt

open NeonDiff.Lib.JsonText

def maxSevereVerificationReceiptBytes : Nat := 512 * 1024

def maxJsonDepth : Nat := 256

/-! ## The byte cap -/

def unitBytes (code : UInt16) : Nat := if code ≤ 0x7f then 1 else if code ≤ 0x7ff then 2 else 3

/-- The loop of `withinByteCap`, from the bytes counted so far. -/
def withinByteCapFrom (bytes : Nat) : Units → Bool
  | [] => true
  | [code] => bytes + unitBytes code ≤ maxSevereVerificationReceiptBytes
  | code :: next :: rest =>
    if isHigh code && isLow next then
      bytes + 4 ≤ maxSevereVerificationReceiptBytes && withinByteCapFrom (bytes + 4) rest
    else
      bytes + unitBytes code ≤ maxSevereVerificationReceiptBytes &&
        withinByteCapFrom (bytes + unitBytes code) (next :: rest)

def withinByteCap (value : Units) : Bool := withinByteCapFrom 0 value

/-- The length of the text in UTF-8, where a lone surrogate takes three bytes. -/
def utf8Length : Units → Nat
  | [] => 0
  | [code] => unitBytes code
  | code :: next :: rest =>
    if isHigh code && isLow next then 4 + utf8Length rest else unitBytes code + utf8Length (next :: rest)

theorem withinByteCapFrom_iff (value : Units) {bytes : Nat} (h : bytes ≤ maxSevereVerificationReceiptBytes) :
    withinByteCapFrom bytes value = true ↔ bytes + utf8Length value ≤ maxSevereVerificationReceiptBytes := by
  induction bytes, value using withinByteCapFrom.induct with
  | case1 bytes =>
    unfold withinByteCapFrom utf8Length
    simpa using h
  | case2 bytes code =>
    unfold withinByteCapFrom utf8Length
    rw [decide_eq_true_eq]
  | case3 bytes code next rest hpair ih =>
    unfold withinByteCapFrom utf8Length
    rw [if_pos hpair, if_pos hpair, Bool.and_eq_true, decide_eq_true_eq]
    constructor
    · rintro ⟨hroom, hrest⟩
      have := (ih hroom).mp hrest
      omega
    · intro hall
      have hroom : bytes + 4 ≤ maxSevereVerificationReceiptBytes := by omega
      exact ⟨hroom, (ih hroom).mpr (by omega)⟩
  | case4 bytes code next rest hpair ih =>
    unfold withinByteCapFrom utf8Length
    rw [if_neg hpair, if_neg hpair, Bool.and_eq_true, decide_eq_true_eq]
    constructor
    · rintro ⟨hroom, hrest⟩
      have := (ih hroom).mp hrest
      omega
    · intro hall
      have hroom : bytes + unitBytes code ≤ maxSevereVerificationReceiptBytes := by omega
      exact ⟨hroom, (ih hroom).mpr (by omega)⟩

theorem withinByteCap_iff (value : Units) :
    withinByteCap value = true ↔ utf8Length value ≤ maxSevereVerificationReceiptBytes := by
  unfold withinByteCap
  rw [withinByteCapFrom_iff value (Nat.zero_le _), Nat.zero_add]

/-! ## The scanner -/

/-- `JsonScanner.string`, behind the opening quote: the decoded string and what is left. -/
def scanString (cs : Units) : Except Failure (Units × Units) :=
  (readChars cs).bind fun read => if isWellFormed read.1 then .ok read else .error .unicode

local instance keys_lawful : LawfulBEq Units := inferInstance

mutual

/-- `JsonScanner.value`, with the number of arrays and objects around it. -/
def scanValue : Nat → Nat → Units → Except Failure Units
  | 0, _, _ => .error .unfinished
  | n + 1, depth, cs =>
    if maxJsonDepth < depth then .error .depth
    else
      match skipSpace cs with
      | [] => .error .malformed
      | code :: rest =>
        if code = 34 then (scanString rest).map Prod.snd
        else if code = 123 then
          if maxJsonDepth ≤ depth then .error .depth
          else if (skipSpace rest).head? = some 125 then .ok (skipSpace rest).tail
          else scanMembers n (depth + 1) [] (skipSpace rest)
        else if code = 91 then
          if maxJsonDepth ≤ depth then .error .depth
          else if (skipSpace rest).head? = some 93 then .ok (skipSpace rest).tail
          else scanElements n (depth + 1) (skipSpace rest)
        else if code = 116 ∧ [116, 114, 117, 101] <+: code :: rest then .ok ((code :: rest).drop 4)
        else if code = 102 ∧ [102, 97, 108, 115, 101] <+: code :: rest then .ok ((code :: rest).drop 5)
        else if code = 110 ∧ [110, 117, 108, 108] <+: code :: rest then .ok ((code :: rest).drop 4)
        else if code = 45 || isDigit code then readNumber (code :: rest)
        else .error .malformed

/-- The loop of `JsonScanner.array`. -/
def scanElements : Nat → Nat → Units → Except Failure Units
  | 0, _, _ => .error .unfinished
  | n + 1, depth, cs =>
    (scanValue n depth cs).bind fun rest =>
      match skipSpace rest with
      | [] => .error .malformed
      | next :: rest =>
        if next = 93 then .ok rest
        else if next ≠ 44 then .error .malformed
        else scanElements n depth (skipSpace rest)

/-- The loop of `JsonScanner.object`, with the keys so far. -/
def scanMembers : Nat → Nat → List Units → Units → Except Failure Units
  | 0, _, _, _ => .error .unfinished
  | _ + 1, _, _, [] => .error .malformed
  | n + 1, depth, keys, code :: cs =>
    if code ≠ 34 then .error .malformed
    else (scanString cs).bind fun (key, rest) =>
      match skipSpace rest with
      | [] => .error .malformed
      | colon :: rest =>
        if colon ≠ 58 then .error .malformed
        else if key ∈ keys then .error .duplicateKey
        else (scanValue n depth rest).bind fun rest =>
          match skipSpace rest with
          | [] => .error .malformed
          | next :: rest =>
            if next = 125 then .ok rest
            else if next ≠ 44 then .error .malformed
            else scanMembers n depth (key :: keys) (skipSpace rest)

end

/-- `JsonScanner.scan`. -/
def scanJson (text : Units) : Except Failure Unit :=
  (scanValue (stepsFor text) 0 text).bind fun rest => if skipSpace rest = [] then .ok () else .error .malformed

/-! ## The stage -/

inductive Rejection where
  | capExceeded
  | bom
  | scan (failure : Failure)
  deriving DecidableEq, Repr

/-- The message behind `severe_receipt_`; a scan is never unfinished. -/
def Rejection.code : Rejection → String
  | .capExceeded => "cap_exceeded"
  | .bom => "bom"
  | .scan .malformed => "malformed"
  | .scan .depth => "depth"
  | .scan .duplicateKey => "duplicate_key"
  | .scan .unicode => "unicode"
  | .scan .unfinished => "unfinished"

variable {Value : Type} (evaluate : Tree → Value)

/-- `JSON.parse`, for the JavaScript value of what is written. -/
def jsonParse (text : Units) : Option Value := (read text).map evaluate

/-- `parseSevereVerificationReceiptJson` of a string. -/
def parseSevereVerificationReceiptJson (input : Units) : Except Rejection Value :=
  if !withinByteCap input then .error .capExceeded
  else if input.head? = some 0xfeff then .error .bom
  else
    match scanJson input with
    | .error failure => .error (.scan failure)
    | .ok _ =>
      match jsonParse evaluate input with
      | some value => .ok value
      | none => .error (.scan .malformed)

end NeonDiff.SevereReceipt
