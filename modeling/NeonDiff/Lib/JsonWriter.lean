import NeonDiff.Lib.JsonChecks

/-! # `JSON.stringify`, and that what it writes is read back -/

namespace NeonDiff.Lib.JsonText

/-! ## Strings -/

def hexChar (n : Nat) : UInt16 := if n < 10 then UInt16.ofNat (48 + n) else UInt16.ofNat (87 + n)

theorem hexDigit_hexChar {n : Nat} (h : n < 16) : hexDigit (hexChar n) = some n := by
  have hall : ∀ m < 16, hexDigit (hexChar m) = some m := by decide
  exact hall n h

def unicodeEscape (c : UInt16) : Units :=
  [92, 117, hexChar (c.toNat / 4096), hexChar (c.toNat / 256 % 16), hexChar (c.toNat / 16 % 16), hexChar (c.toNat % 16)]

theorem hexUnit_unicodeEscape (c : UInt16) :
    hexUnit (hexChar (c.toNat / 4096)) (hexChar (c.toNat / 256 % 16)) (hexChar (c.toNat / 16 % 16))
      (hexChar (c.toNat % 16)) = some c := by
  have hc : c.toNat < 65536 := c.toNat_lt
  have hsum : ((c.toNat / 4096 * 16 + c.toNat / 256 % 16) * 16 + c.toNat / 16 % 16) * 16 + c.toNat % 16 = c.toNat := by
    omega
  unfold hexUnit
  rw [hexDigit_hexChar (by omega), hexDigit_hexChar (by omega), hexDigit_hexChar (by omega),
    hexDigit_hexChar (by omega)]
  dsimp only
  rw [hsum, UInt16.ofNat_toNat]

/-- What `QuoteJSONString` writes for a unit that is not part of a pair. -/
def quoteUnit (c : UInt16) : Units :=
  if c = 8 then [92, 98]
  else if c = 9 then [92, 116]
  else if c = 10 then [92, 110]
  else if c = 12 then [92, 102]
  else if c = 13 then [92, 114]
  else if c = 34 then [92, 34]
  else if c = 92 then [92, 92]
  else if c < 32 || isHigh c || isLow c then unicodeEscape c
  else [c]

theorem chars_quoteUnit (c : UInt16) {s cs rest : Units} (h : Chars s cs rest) :
    Chars (c :: s) (quoteUnit c ++ cs) rest := by
  unfold quoteUnit
  split_ifs with h8 h9 h10 h12 h13 h34 h92 hescape
  · exact .escape (by rw [h8]; rfl) h
  · exact .escape (by rw [h9]; rfl) h
  · exact .escape (by rw [h10]; rfl) h
  · exact .escape (by rw [h12]; rfl) h
  · exact .escape (by rw [h13]; rfl) h
  · exact .escape (by rw [h34]; rfl) h
  · exact .escape (by rw [h92]; rfl) h
  · exact .hex (hexUnit_unicodeEscape c) h
  · have hlow : ¬c < 32 := fun hlow => hescape (by simp [hlow])
    exact .plain hlow h34 h92 h

def quoteChars : Units → Units
  | [] => []
  | [c] => quoteUnit c
  | c :: d :: cs =>
    if isHigh c && isLow d then c :: d :: quoteChars cs else quoteUnit c ++ quoteChars (d :: cs)

theorem plain_of_surrogate {c : UInt16} (h : isHigh c = true ∨ isLow c = true) : ¬c < 32 ∧ c ≠ 34 ∧ c ≠ 92 := by
  have hbound : 0xd800 ≤ c := by
    unfold isHigh isLow at h
    rcases h with h | h <;> rw [Bool.and_eq_true, decide_eq_true_iff] at h
    · exact h.1
    · exact UInt16.le_trans (by decide) h.1
  rw [UInt16.le_iff_toNat_le] at hbound
  change 0xd800 ≤ c.toNat at hbound
  refine ⟨?_, ?_, ?_⟩
  · rw [UInt16.lt_iff_toNat_lt]
    change ¬c.toNat < 32
    omega
  · rintro rfl
    simp at hbound
  · rintro rfl
    simp at hbound

theorem chars_quoteChars (s rest : Units) : Chars s (quoteChars s ++ 34 :: rest) rest := by
  induction s using quoteChars.induct with
  | case1 => exact .quote rest
  | case2 c => exact chars_quoteUnit c (.quote rest)
  | case3 c d cs hpair ih =>
    rw [quoteChars, if_pos hpair]
    rw [Bool.and_eq_true] at hpair
    obtain ⟨hc, hcquote, hcback⟩ := plain_of_surrogate (.inl hpair.1)
    obtain ⟨hd, hdquote, hdback⟩ := plain_of_surrogate (.inr hpair.2)
    exact .plain hc hcquote hcback (.plain hd hdquote hdback ih)
  | case4 c d cs hpair ih =>
    rw [quoteChars, if_neg hpair, List.append_assoc]
    exact chars_quoteUnit c ih

def quote (s : Units) : Units := 34 :: (quoteChars s ++ [34])

theorem quote_append (s rest : Units) : quote s ++ rest = 34 :: (quoteChars s ++ 34 :: rest) := by
  simp [quote]

/-! ## Numbers keep their spelling -/

section

variable {cs rest : Units} (more : Units)

theorem Digits.append (h : Digits cs rest) : Digits (cs ++ more) (rest ++ more) := by
  induction h with
  | one hc => exact .one hc
  | more hc h ih => exact .more hc ih

theorem Minus.append (h : Minus cs rest) : Minus (cs ++ more) (rest ++ more) := by
  cases h with
  | absent => exact .absent _
  | present => exact .present _

theorem Whole.append (h : Whole cs rest) : Whole (cs ++ more) (rest ++ more) := by
  cases h with
  | zero => exact .zero _
  | digits hc h => exact .digits hc (h.append more)

theorem Fraction.append (h : Fraction cs rest) : Fraction (cs ++ more) (rest ++ more) := by
  cases h with
  | absent => exact .absent _
  | present h => exact .present (h.append more)

theorem Sign.append (h : Sign cs rest) : Sign (cs ++ more) (rest ++ more) := by
  cases h with
  | absent => exact .absent _
  | plus => exact .plus _
  | minus => exact .minus _

theorem Exponent.append (h : Exponent cs rest) : Exponent (cs ++ more) (rest ++ more) := by
  cases h with
  | absent => exact .absent _
  | present he hsign h => exact .present he (hsign.append more) (h.append more)

theorem Number.append (h : Number cs rest) : Number (cs ++ more) (rest ++ more) := by
  obtain ⟨behindMinus, behindWhole, behindFraction, hminus, hwhole, hfraction, hexponent⟩ := h
  exact ⟨behindMinus ++ more, behindWhole ++ more, behindFraction ++ more, hminus.append more, hwhole.append more,
    hfraction.append more, hexponent.append more⟩

end

structure Numeral where
  spelling : Units
  reads : Number spelling []

theorem Numeral.ext_spelling {m n : Numeral} (h : m.spelling = n.spelling) : m = n := by
  cases m
  cases n
  subst h
  rfl

/-! ## Values -/

mutual

def Tree.Spelled : Tree → Prop
  | .number s => Number s []
  | .array vs => ElementsSpelled vs
  | .object ms => MembersSpelled ms
  | _ => True

def ElementsSpelled : List Tree → Prop
  | [] => True
  | v :: vs => v.Spelled ∧ ElementsSpelled vs

def MembersSpelled : List (Units × Tree) → Prop
  | [] => True
  | (_, v) :: ms => v.Spelled ∧ MembersSpelled ms

end

/-- `parts.join(",")`. -/
def joinCommas (parts : List Units) : Units := [44].intercalate parts

@[simp] theorem joinCommas_nil : joinCommas [] = [] := rfl

@[simp] theorem joinCommas_one (part : Units) : joinCommas [part] = part := by
  simp [joinCommas, List.intercalate]

@[simp] theorem joinCommas_cons (part next : Units) (parts : List Units) :
    joinCommas (part :: next :: parts) = part ++ 44 :: joinCommas (next :: parts) := by
  simp [joinCommas, List.intercalate]

def literal (b : Bool) : Units := if b then [116, 114, 117, 101] else [102, 97, 108, 115, 101]

mutual

/-- `JSON.stringify`. -/
def write : Tree → Units
  | .null => [110, 117, 108, 108]
  | .bool b => literal b
  | .number s => s
  | .string s => quote s
  | .array vs => 91 :: (joinCommas (writeElements vs) ++ [93])
  | .object ms => 123 :: (joinCommas (writeMembers ms) ++ [125])

def writeElements : List Tree → List Units
  | [] => []
  | v :: vs => write v :: writeElements vs

def writeMembers : List (Units × Tree) → List Units
  | [] => []
  | (key, v) :: ms => (quote key ++ 58 :: write v) :: writeMembers ms

end

mutual

theorem reads_write : (v : Tree) → v.Spelled → (rest : Units) → Reads (.value v) (write v ++ rest) rest
  | .null, _, rest => .literalNull rest
  | .bool true, _, rest => .literalTrue rest
  | .bool false, _, rest => .literalFalse rest
  | .number _, h, rest => by
    rw [write]
    exact .number (Number.append rest h)
  | .string s, _, rest => by
    rw [write, quote_append]
    exact .string (chars_quoteChars s rest)
  | .array vs, h, rest => by
    by_cases hempty : vs = []
    · subst hempty
      simp only [write, writeElements, joinCommas_nil]
      exact .emptyArray (.done _)
    · simp only [write, List.cons_append, List.append_assoc, List.nil_append]
      exact .array (reads_writeElements vs h hempty (93 :: rest))
  | .object ms, h, rest => by
    by_cases hempty : ms = []
    · subst hempty
      simp only [write, writeMembers, joinCommas_nil]
      exact .emptyObject (.done _)
    · simp only [write, List.cons_append, List.append_assoc, List.nil_append]
      exact .object (reads_writeMembers ms h hempty (125 :: rest))

theorem reads_writeElements : (vs : List Tree) → ElementsSpelled vs → vs ≠ [] → (rest : Units) →
    Reads (.elements vs) (joinCommas (writeElements vs) ++ rest) rest
  | [], _, hne, _ => absurd rfl hne
  | [v], h, _, rest => by
    simp only [writeElements, joinCommas_one]
    exact .element (.done _) (reads_write v h.1 rest) (.done _)
  | v :: w :: vs, h, _, rest => by
    have hmore := reads_writeElements (w :: vs) h.2 (List.cons_ne_nil w vs) rest
    simp only [writeElements, joinCommas_cons, List.append_assoc, List.cons_append] at hmore ⊢
    exact .elements (.done _) (reads_write v h.1 _) (.done _) hmore

theorem reads_writeMembers : (ms : List (Units × Tree)) → MembersSpelled ms → ms ≠ [] → (rest : Units) →
    Reads (.members ms) (joinCommas (writeMembers ms) ++ rest) rest
  | [], _, hne, _ => absurd rfl hne
  | [(key, v)], h, _, rest => by
    simp only [writeMembers, joinCommas_one, List.append_assoc, List.cons_append, quote_append]
    exact .member (.done _) (chars_quoteChars key _) (.done _) (.done _) (reads_write v h.1 rest) (.done _)
  | (key, v) :: m :: ms, h, _, rest => by
    have hmore := reads_writeMembers (m :: ms) h.2 (List.cons_ne_nil m ms) rest
    simp only [writeMembers, joinCommas_cons, List.append_assoc, List.cons_append, quote_append] at hmore ⊢
    exact .members (.done _) (chars_quoteChars key _) (.done _) (.done _) (reads_write v h.1 _) (.done _) hmore

end

theorem document_write {v : Tree} (h : v.Spelled) : Document v (write v) := by
  have hreads := reads_write v h []
  rw [List.append_nil] at hreads
  exact ⟨write v, [], .done _, hreads, .done _⟩

theorem read_write {v : Tree} (h : v.Spelled) : read (write v) = some v := read_eq_some.mpr (document_write h)

theorem write_injective {v w : Tree} (hv : v.Spelled) (hw : w.Spelled) (h : write v = write w) : v = w := by
  have hread := read_write hv
  rw [h, read_write hw] at hread
  exact (Option.some.inj hread).symm

end NeonDiff.Lib.JsonText
