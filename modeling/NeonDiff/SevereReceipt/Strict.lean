import NeonDiff.Lib.Checked
import NeonDiff.SevereReceipt.Scanner

/-! # The scanner is a strict reader

Step for step the scanner is the reader of the documents of bounded depth with unique names and well-formed strings,
less what is read.
-/

namespace NeonDiff.SevereReceipt

open NeonDiff.Lib NeonDiff.Lib.JsonText

def left {α : Type} (read : Except Failure (α × Units)) : Except Failure Units := read.map Prod.snd

section

variable {α β : Type}

theorem left_map (read : Except Failure (α × Units)) (f : α → β) :
    left (read.map fun r => (f r.1, r.2)) = left read := by
  cases read <;> rfl

theorem left_bind (read : Except Failure α) (f : α → Except Failure (β × Units)) :
    left (read.bind f) = read.bind fun a => left (f a) := by
  cases read <;> rfl

theorem bind_left (read : Except Failure (α × Units)) (f : Units → Except Failure β) :
    (left read).bind f = read.bind fun r => f r.2 := by
  cases read <;> rfl

end

theorem scanString_eq (cs : Units) : scanString cs = readString (strict maxJsonDepth) cs := by
  unfold scanString readString
  congr 1
  funext read
  have hstrict : (strict maxJsonDepth).wellFormed = true := rfl
  rw [hstrict, Bool.true_and]
  cases isWellFormed read.1 <;> rfl

/-- With `n` steps the scanner goes as far as the reader. -/
structure Simulates (n : Nat) : Prop where
  value : ∀ depth ≤ maxJsonDepth, ∀ cs, scanValue n depth cs = left (readValue (strict maxJsonDepth) n depth cs)
  elements : ∀ depth ≤ maxJsonDepth, ∀ cs, scanElements n depth cs = left (readElements (strict maxJsonDepth) n depth cs)
  members : ∀ depth ≤ maxJsonDepth, ∀ keys cs,
    scanMembers n depth keys cs = left (readMembers (strict maxJsonDepth) n depth keys cs)

variable {n depth : Nat}

theorem scanValue_eq (ih : Simulates n) (hdepth : depth ≤ maxJsonDepth) (cs : Units) :
    scanValue (n + 1) depth cs = left (readValue (strict maxJsonDepth) (n + 1) depth cs) := by
  rw [scanValue.eq_def]
  dsimp only
  rw [if_neg (Nat.not_lt.mpr hdepth)]
  cases hcs : skipSpace cs with
  | nil =>
    rw [readValue.eq_def]
    dsimp only
    rw [hcs]
    rfl
  | cons code rest =>
    rw [readValue_cons hcs]
    dsimp only
    by_cases hquote : code = 34
    · rw [if_pos hquote, if_pos hquote, left_map, scanString_eq]
      rfl
    rw [if_neg hquote, if_neg hquote]
    have hlimit : (strict maxJsonDepth).tooDeep depth = true ↔ maxJsonDepth ≤ depth := decide_eq_true_iff
    by_cases hobject : code = 123
    · rw [if_pos hobject, if_pos hobject]
      by_cases hdeep : maxJsonDepth ≤ depth
      · rw [if_pos hdeep, if_pos (hlimit.mpr hdeep)]
        rfl
      rw [if_neg hdeep, if_neg (hlimit.not.mpr hdeep)]
      by_cases hempty : (skipSpace rest).head? = some 125
      · rw [if_pos hempty, if_pos hempty]
        rfl
      · rw [if_neg hempty, if_neg hempty, left_map, ih.members _ (by omega)]
    rw [if_neg hobject, if_neg hobject]
    by_cases harray : code = 91
    · rw [if_pos harray, if_pos harray]
      by_cases hdeep : maxJsonDepth ≤ depth
      · rw [if_pos hdeep, if_pos (hlimit.mpr hdeep)]
        rfl
      rw [if_neg hdeep, if_neg (hlimit.not.mpr hdeep)]
      by_cases hempty : (skipSpace rest).head? = some 93
      · rw [if_pos hempty, if_pos hempty]
        rfl
      · rw [if_neg hempty, if_neg hempty, left_map, ih.elements _ (by omega)]
    rw [if_neg harray, if_neg harray]
    -- The scanner looks at the first letter of a literal before it looks at the rest.
    have hliteral : ∀ (c : UInt16) (cs : Units), (code = c ∧ c :: cs <+: code :: rest) ↔ c :: cs <+: code :: rest := by
      intro c cs
      constructor
      · exact And.right
      · intro hbegin
        exact ⟨(List.cons_prefix_cons.mp hbegin).1.symm, hbegin⟩
    rw [if_congr (hliteral 116 [114, 117, 101]) rfl rfl]
    by_cases htrue : [116, 114, 117, 101] <+: code :: rest
    · rw [if_pos htrue, if_pos htrue]
      rfl
    rw [if_neg htrue, if_neg htrue, if_congr (hliteral 102 [97, 108, 115, 101]) rfl rfl]
    by_cases hfalse : [102, 97, 108, 115, 101] <+: code :: rest
    · rw [if_pos hfalse, if_pos hfalse]
      rfl
    rw [if_neg hfalse, if_neg hfalse, if_congr (hliteral 110 [117, 108, 108]) rfl rfl]
    by_cases hnull : [110, 117, 108, 108] <+: code :: rest
    · rw [if_pos hnull, if_pos hnull]
      rfl
    rw [if_neg hnull, if_neg hnull]
    by_cases hnumber : (code = 45 || isDigit code) = true
    · rw [if_pos hnumber, if_pos hnumber]
      cases readNumber (code :: rest) <;> rfl
    · rw [if_neg hnumber, if_neg hnumber]
      rfl

theorem scanElements_eq (ih : Simulates n) (hdepth : depth ≤ maxJsonDepth) (cs : Units) :
    scanElements (n + 1) depth cs = left (readElements (strict maxJsonDepth) (n + 1) depth cs) := by
  rw [scanElements.eq_def, readElements.eq_def]
  dsimp only
  rw [ih.value depth hdepth, bind_left, left_bind]
  congr 1
  funext read
  obtain ⟨v, rest⟩ := read
  dsimp only
  cases skipSpace rest with
  | nil => rfl
  | cons next more =>
    dsimp only
    by_cases hclose : next = 93
    · rw [if_pos hclose, if_pos hclose]
      rfl
    rw [if_neg hclose, if_neg hclose]
    by_cases hcomma : next = 44
    · rw [if_neg (not_not.mpr hcomma), if_pos hcomma, left_map, ih.elements depth hdepth]
    · rw [if_pos hcomma, if_neg hcomma]
      rfl

theorem scanMembers_eq (ih : Simulates n) (hdepth : depth ≤ maxJsonDepth) (keys : List Units) (cs : Units) :
    scanMembers (n + 1) depth keys cs = left (readMembers (strict maxJsonDepth) (n + 1) depth keys cs) := by
  rw [scanMembers.eq_def, readMembers.eq_def]
  cases cs with
  | nil => rfl
  | cons code name =>
    dsimp only
    by_cases hname : code ≠ 34
    · rw [if_pos hname, if_pos hname]
      rfl
    rw [if_neg hname, if_neg hname, scanString_eq, left_bind]
    congr 1
    funext read
    obtain ⟨key, behindKey⟩ := read
    dsimp only
    cases skipSpace behindKey with
    | nil => rfl
    | cons colon text =>
      dsimp only
      by_cases hcolon : colon ≠ 58
      · rw [if_pos hcolon, if_pos hcolon]
        rfl
      have hkeys : ((strict maxJsonDepth).uniqueKeys && decide (key ∈ keys)) = true ↔ key ∈ keys := decide_eq_true_iff
      rw [if_neg hcolon, if_neg hcolon, if_congr hkeys rfl rfl]
      by_cases hduplicate : key ∈ keys
      · rw [if_pos hduplicate, if_pos hduplicate]
        rfl
      rw [if_neg hduplicate, if_neg hduplicate, ih.value depth hdepth, bind_left, left_bind]
      congr 1
      funext read
      obtain ⟨v, rest⟩ := read
      dsimp only
      cases skipSpace rest with
      | nil => rfl
      | cons next more =>
        dsimp only
        by_cases hclose : next = 125
        · rw [if_pos hclose, if_pos hclose]
          rfl
        rw [if_neg hclose, if_neg hclose]
        by_cases hcomma : next = 44
        · rw [if_neg (not_not.mpr hcomma), if_pos hcomma, left_map, ih.members depth hdepth]
        · rw [if_pos hcomma, if_neg hcomma]
          rfl

theorem simulates (n : Nat) : Simulates n := by
  induction n with
  | zero => exact ⟨fun _ _ _ => rfl, fun _ _ _ => rfl, fun _ _ _ _ => rfl⟩
  | succ n ih =>
    constructor
    · exact fun depth hdepth cs => scanValue_eq ih hdepth cs
    · exact fun depth hdepth cs => scanElements_eq ih hdepth cs
    · exact fun depth hdepth keys cs => scanMembers_eq ih hdepth keys cs

theorem scanJson_eq (text : Units) :
    scanJson text = (readDocument (strict maxJsonDepth) text).map fun _ => () := by
  unfold scanJson readDocument
  rw [(simulates _).value 0 (Nat.zero_le _), bind_left]
  cases readValue (strict maxJsonDepth) (stepsFor text) 0 text with
  | error failure => rfl
  | ok read =>
    change (if _ then _ else _) = Except.map _ (if _ then _ else _)
    by_cases hrest : skipSpace read.2 = []
    · rw [if_pos hrest, if_pos hrest]
      rfl
    · rw [if_neg hrest, if_neg hrest]
      rfl

theorem scanJson_ne_unfinished (text : Units) : scanJson text ≠ .error .unfinished := by
  rw [scanJson_eq]
  exact map_ne_error (readDocument_ne_unfinished text)

theorem scanJson_eq_ok {text : Units} :
    scanJson text = .ok () ↔
      ∃ v, Document v text ∧ v.depth ≤ maxJsonDepth ∧ v.KeysUnique ∧ v.StringsWellFormed := by
  rw [scanJson_eq, map_eq_ok]
  simp only [readDocument_strict, and_true]

/-! ## Acceptance -/

section

variable {Value : Type}

/-- A text is accepted if and only if it is short enough, has no byte-order mark and is a document of bounded depth with
unique names and well-formed strings; its value is the one of `JSON.parse`. Every scan ends. -/
theorem parse_accepts_iff (evaluate : Tree → Value) (text : Units) :
    (∀ value, parseSevereVerificationReceiptJson evaluate text = .ok value ↔
      utf8Length text ≤ maxSevereVerificationReceiptBytes ∧ text.head? ≠ some 0xfeff ∧
        (∃ v, Document v text ∧ v.depth ≤ maxJsonDepth ∧ v.KeysUnique ∧ v.StringsWellFormed) ∧
          jsonParse evaluate text = some value) ∧
      scanJson text ≠ .error .unfinished := by
  refine ⟨?_, scanJson_ne_unfinished text⟩
  intro value
  unfold parseSevereVerificationReceiptJson
  rw [← withinByteCap_iff, ← scanJson_eq_ok]
  by_cases hcap : withinByteCap text = true
  swap
  · rw [if_pos (by simpa using hcap)]
    exact iff_of_false (fun h => nomatch h) fun h => hcap h.1
  rw [if_neg (by simp [hcap])]
  by_cases hbom : text.head? = some 0xfeff
  · rw [if_pos hbom]
    exact iff_of_false (fun h => nomatch h) fun h => h.2.1 hbom
  rw [if_neg hbom]
  cases hscan : scanJson text with
  | error failure => exact iff_of_false (fun h => nomatch h) fun h => nomatch h.2.2.1
  | ok scanned =>
    have hvalue : ∃ value, jsonParse evaluate text = some value := by
      obtain ⟨v, hdocument, -⟩ := scanJson_eq_ok.mp hscan
      exact ⟨evaluate v, Option.map_eq_some_iff.mpr ⟨v, read_eq_some.mpr hdocument, rfl⟩⟩
    obtain ⟨parsed, hparsed⟩ := hvalue
    rw [hparsed]
    dsimp only
    rw [Except.ok.injEq, Option.some.injEq]
    exact ⟨fun h => ⟨hcap, hbom, rfl, h⟩, fun h => h.2.2.2⟩

end

/-- An escaped name is the name it stands for, so this object has one name twice. -/
example : scanJson ("\x7b\"a\":1,\"\\u0061\":2\x7d".toList.map fun c => UInt16.ofNat c.toNat) = .error .duplicateKey := by
  decide +kernel

end NeonDiff.SevereReceipt
