import NeonDiff.Lib.Checked
import NeonDiff.Lib.JsonReader

/-! # The reader reads what the grammar derives -/

namespace NeonDiff.Lib.JsonText

/-! ## White space -/

theorem ws_skipSpace (cs : Units) : Ws cs (skipSpace cs) := by
  induction cs with
  | nil => exact .done []
  | cons c cs ih =>
    unfold skipSpace
    by_cases hc : isSpace c = true
    · rw [List.dropWhile_cons_of_pos hc]
      exact .more hc ih
    · rw [List.dropWhile_cons_of_neg hc]
      exact .done _

theorem skipSpace_of_ws {cs rest : Units} (h : Ws cs rest) : skipSpace cs = skipSpace rest := by
  induction h with
  | done cs => rfl
  | more hc h ih =>
    rw [← ih]
    exact List.dropWhile_cons_of_pos hc

theorem skipSpace_cons {c : UInt16} (hc : isSpace c = false) (cs : Units) : skipSpace (c :: cs) = c :: cs :=
  List.dropWhile_cons_of_neg (by rw [hc]; exact Bool.false_ne_true)

@[simp]
theorem skipSpace_skipSpace (cs : Units) : skipSpace (skipSpace cs) = skipSpace cs :=
  (skipSpace_of_ws (ws_skipSpace cs)).symm

theorem Ws.length_le {cs rest : Units} (h : Ws cs rest) : rest.length ≤ cs.length := by
  induction h with
  | done cs => exact Nat.le_refl _
  | more hc h ih =>
    rw [List.length_cons]
    omega

theorem length_skipSpace_le (cs : Units) : (skipSpace cs).length ≤ cs.length := (ws_skipSpace cs).length_le

/-! ## Numbers -/

/-- What may stand behind a number. -/
def Ends (rest : Units) : Prop :=
  ∀ c, rest.head? = some c → isDigit c = false ∧ c ≠ 46 ∧ c ≠ 101 ∧ c ≠ 69

theorem digits_dropWhile {c : UInt16} (hc : isDigit c = true) (cs : Units) : Digits (c :: cs) (cs.dropWhile isDigit) := by
  induction cs generalizing c with
  | nil => exact .one hc
  | cons d cs ih =>
    by_cases hd : isDigit d = true
    · rw [List.dropWhile_cons_of_pos hd]
      exact .more hc (ih hd)
    · rw [List.dropWhile_cons_of_neg hd]
      exact .one hc

theorem Digits.read {cs rest : Units} (h : Digits cs rest) (hrest : ∀ c, rest.head? = some c → isDigit c = false) :
    ∃ c t, cs = c :: t ∧ isDigit c = true ∧ t.dropWhile isDigit = rest := by
  induction h with
  | @one c cs hc =>
    refine ⟨c, cs, rfl, hc, ?_⟩
    cases cs with
    | nil => rfl
    | cons d cs => exact List.dropWhile_cons_of_neg (by rw [hrest d rfl]; exact Bool.false_ne_true)
  | @more c cs rest hc h ih =>
    obtain ⟨d, t, rfl, hd, hdrop⟩ := ih hrest
    exact ⟨c, d :: t, rfl, hc, by rw [List.dropWhile_cons_of_pos hd, hdrop]⟩

/-- The text does not go on with a digit. -/
def NoDigit (rest : Units) : Prop := ∀ c, rest.head? = some c → isDigit c = false

theorem noDigit_cons {c : UInt16} (hc : isDigit c = false) (cs : Units) : NoDigit (c :: cs) := by
  rintro d ⟨rfl⟩
  exact hc

theorem readDigits_sound {cs rest : Units} (h : readDigits cs = .ok rest) : Digits cs rest := by
  unfold readDigits at h
  cases cs with
  | nil => cases h
  | cons c cs =>
    dsimp only at h
    by_cases hc : isDigit c = true
    · rw [if_pos hc] at h
      injection h with h
      rw [← h]
      exact digits_dropWhile hc cs
    · rw [if_neg hc] at h
      cases h

theorem readDigits_complete {cs rest : Units} (h : Digits cs rest) (hrest : NoDigit rest) : readDigits cs = .ok rest := by
  obtain ⟨c, t, rfl, hc, hdrop⟩ := h.read hrest
  rw [readDigits, if_pos hc, hdrop]

theorem readWhole_sound {cs rest : Units} (h : readWhole cs = .ok rest) : Whole cs rest := by
  unfold readWhole at h
  cases cs with
  | nil => cases h
  | cons c cs =>
    dsimp only at h
    by_cases hzero : c = 48
    · rw [if_pos hzero] at h
      injection h with h
      rw [hzero, h]
      exact .zero rest
    · rw [if_neg hzero] at h
      by_cases hc : isDigit c = true
      · rw [if_pos hc] at h
        injection h with h
        rw [← h]
        exact .digits hzero (digits_dropWhile hc cs)
      · rw [if_neg hc] at h
        cases h

theorem readWhole_complete {cs rest : Units} (h : Whole cs rest) (hrest : NoDigit rest) : readWhole cs = .ok rest := by
  cases h with
  | zero => rw [readWhole, if_pos rfl]
  | digits hzero h =>
    obtain ⟨c, t, hcons, hc, hdrop⟩ := h.read hrest
    injection hcons with hhead htail
    rw [readWhole, if_neg hzero, hhead, if_pos hc, htail, hdrop]

theorem readFraction_sound {cs rest : Units} (h : readFraction cs = .ok rest) : Fraction cs rest := by
  unfold readFraction at h
  cases cs with
  | nil =>
    injection h with h
    rw [h]
    exact .absent rest
  | cons c cs =>
    dsimp only at h
    by_cases hc : c = 46
    · rw [if_pos hc] at h
      rw [hc]
      exact .present (readDigits_sound h)
    · rw [if_neg hc] at h
      injection h with h
      rw [h]
      exact .absent rest

theorem readFraction_complete {cs rest : Units} (h : Fraction cs rest) (hrest : NoDigit rest)
    (hpoint : rest.head? ≠ some 46) : readFraction cs = .ok rest := by
  cases h with
  | absent =>
    cases cs with
    | nil => rfl
    | cons c rest =>
      have hc : c ≠ 46 := fun hc => hpoint (by rw [hc]; rfl)
      rw [readFraction, if_neg hc]
  | present h => rw [readFraction, if_pos rfl, readDigits_complete h hrest]

theorem sign_skipSign (cs : Units) : Sign cs (skipSign cs) := by
  cases cs with
  | nil => exact .absent []
  | cons c cs =>
    rw [skipSign]
    by_cases hplus : c = 43
    · subst hplus
      exact .plus cs
    · by_cases hminus : c = 45
      · subst hminus
        exact .minus cs
      · rw [if_neg (by simp [hplus, hminus])]
        exact .absent _

theorem Digits.head {cs rest : Units} (h : Digits cs rest) : ∃ c t, cs = c :: t ∧ isDigit c = true := by
  cases h with
  | one hc => exact ⟨_, _, rfl, hc⟩
  | more hc _ => exact ⟨_, _, rfl, hc⟩

theorem skipSign_of_digits {cs mid rest : Units} (hsign : Sign cs mid) (h : Digits mid rest) : skipSign cs = mid := by
  cases hsign with
  | absent =>
    obtain ⟨c, t, rfl, hc⟩ := h.head
    have hne : ¬(c = 43 || c = 45) = true := by
      intro hor
      rw [Bool.or_eq_true, decide_eq_true_eq, decide_eq_true_eq] at hor
      rcases hor with rfl | rfl
      · exact absurd hc (by decide)
      · exact absurd hc (by decide)
    rw [skipSign, if_neg hne]
  | plus => rfl
  | minus => rfl

theorem readExponent_sound {cs rest : Units} (h : readExponent cs = .ok rest) : Exponent cs rest := by
  unfold readExponent at h
  cases cs with
  | nil =>
    injection h with h
    rw [h]
    exact .absent rest
  | cons c cs =>
    dsimp only at h
    by_cases hc : (c = 101 || c = 69) = true
    · rw [if_pos hc] at h
      rw [Bool.or_eq_true, decide_eq_true_eq, decide_eq_true_eq] at hc
      exact .present hc (sign_skipSign cs) (readDigits_sound h)
    · rw [if_neg hc] at h
      injection h with h
      rw [h]
      exact .absent rest

theorem readExponent_complete {cs rest : Units} (h : Exponent cs rest) (hrest : Ends rest) :
    readExponent cs = .ok rest := by
  cases h with
  | absent =>
    cases cs with
    | nil => rfl
    | cons c rest =>
      obtain ⟨-, -, hlower, hupper⟩ := hrest c rfl
      rw [readExponent, if_neg (by simp [hlower, hupper])]
  | present he hsign h =>
    rw [readExponent, if_pos (by simpa using he), skipSign_of_digits hsign h,
      readDigits_complete h fun c hc => (hrest c hc).1]

theorem minus_skipMinus (cs : Units) : Minus cs (skipMinus cs) := by
  cases cs with
  | nil => exact .absent []
  | cons c cs =>
    rw [skipMinus]
    by_cases hc : c = 45
    · subst hc
      exact .present cs
    · rw [if_neg hc]
      exact .absent _

theorem Whole.head {cs rest : Units} (h : Whole cs rest) : ∃ c t, cs = c :: t ∧ isDigit c = true := by
  cases h with
  | zero => exact ⟨48, _, rfl, by decide⟩
  | digits _ h => exact h.head

theorem skipMinus_of_whole {cs mid rest : Units} (hminus : Minus cs mid) (h : Whole mid rest) : skipMinus cs = mid := by
  cases hminus with
  | absent =>
    obtain ⟨c, t, rfl, hc⟩ := h.head
    rw [skipMinus, if_neg]
    rintro rfl
    exact absurd hc (by decide)
  | present => rfl

theorem readNumber_sound {cs rest : Units} (h : readNumber cs = .ok rest) : Number cs rest := by
  unfold readNumber at h
  cases hwhole : readWhole (skipMinus cs) with
  | error e =>
    rw [hwhole] at h
    cases h
  | ok behindWhole =>
    rw [hwhole] at h
    cases hfraction : readFraction behindWhole with
    | error e =>
      change (readFraction behindWhole).bind readExponent = .ok rest at h
      rw [hfraction] at h
      cases h
    | ok behindFraction =>
      change (readFraction behindWhole).bind readExponent = .ok rest at h
      rw [hfraction] at h
      exact ⟨_, behindWhole, behindFraction, minus_skipMinus cs, readWhole_sound hwhole, readFraction_sound hfraction,
        readExponent_sound h⟩

theorem Exponent.noDigit {cs rest : Units} (h : Exponent cs rest) (hrest : Ends rest) :
    NoDigit cs ∧ cs.head? ≠ some 46 := by
  cases h with
  | absent => exact ⟨fun c hc => (hrest c hc).1, fun hc => (hrest 46 hc).2.1 rfl⟩
  | present he _ _ =>
    rcases he with rfl | rfl
    · exact ⟨noDigit_cons (by decide) _, fun h => absurd (Option.some.inj h) (by decide)⟩
    · exact ⟨noDigit_cons (by decide) _, fun h => absurd (Option.some.inj h) (by decide)⟩

theorem Fraction.noDigit {cs rest : Units} (h : Fraction cs rest) (hrest : NoDigit rest) : NoDigit cs := by
  cases h with
  | absent => exact hrest
  | present _ => exact noDigit_cons (by decide) _

theorem readNumber_complete {cs rest : Units} (h : Number cs rest) (hrest : Ends rest) : readNumber cs = .ok rest := by
  obtain ⟨behindMinus, behindWhole, behindFraction, hminus, hwhole, hfraction, hexponent⟩ := h
  obtain ⟨hdigit, hpoint⟩ := hexponent.noDigit hrest
  have hfractionRead := readFraction_complete hfraction hdigit hpoint
  have hwholeRead := readWhole_complete hwhole (hfraction.noDigit hdigit)
  unfold readNumber
  rw [skipMinus_of_whole hminus hwhole, hwholeRead]
  change (readFraction behindWhole).bind readExponent = _
  rw [hfractionRead]
  exact readExponent_complete hexponent hrest

/-! ## Suffixes -/

theorem Digits.suffix {cs rest : Units} (h : Digits cs rest) : rest <:+ cs := by
  induction h with
  | one hc => exact List.suffix_cons _ _
  | more hc h ih => exact ih.trans (List.suffix_cons _ _)

theorem Number.suffix {cs rest : Units} (h : Number cs rest) : rest <:+ cs ∧ rest.length < cs.length := by
  obtain ⟨behindMinus, behindWhole, behindFraction, hminus, hwhole, hfraction, hexponent⟩ := h
  have h₁ : behindMinus <:+ cs := by
    cases hminus with
    | absent => exact List.suffix_refl _
    | present => exact List.suffix_cons _ _
  have h₂ : behindWhole <:+ behindMinus ∧ behindWhole.length < behindMinus.length := by
    cases hwhole with
    | zero => exact ⟨List.suffix_cons _ _, Nat.lt_succ_self _⟩
    | digits _ h =>
      cases h with
      | one _ => exact ⟨List.suffix_cons _ _, Nat.lt_succ_self _⟩
      | more _ h => exact ⟨h.suffix.trans (List.suffix_cons _ _), Nat.lt_succ_of_le h.suffix.length_le⟩
  have h₃ : behindFraction <:+ behindWhole := by
    cases hfraction with
    | absent => exact List.suffix_refl _
    | present h => exact h.suffix.trans (List.suffix_cons _ _)
  have h₄ : rest <:+ behindFraction := by
    cases hexponent with
    | absent => exact List.suffix_refl _
    | present _ hsign h =>
      apply (h.suffix.trans _).trans (List.suffix_cons _ _)
      cases hsign with
      | absent => exact List.suffix_refl _
      | plus => exact List.suffix_cons _ _
      | minus => exact List.suffix_cons _ _
  refine ⟨h₄.trans (h₃.trans (h₂.1.trans h₁)), ?_⟩
  have hlen₁ := h₁.length_le
  have hlen₃ := h₃.length_le
  have hlen₄ := h₄.length_le
  omega

/-! ## Strings -/

/-- A character with what it stands for in front of a string. -/
def push (u : UInt16) (read : Units × Units) : Units × Units := (u :: read.1, read.2)

theorem readChars_quote (cs : Units) : readChars (34 :: cs) = .ok ([], cs) := by
  rw [readChars.eq_def]
  rfl

theorem readChars_plain {c : UInt16} (hlow : ¬c < 32) (hquote : c ≠ 34) (hback : c ≠ 92) (cs : Units) :
    readChars (c :: cs) = (readChars cs).map (push c) := by
  rw [readChars.eq_def]
  dsimp only
  rw [if_neg hquote, if_neg hlow, if_pos hback]
  rfl

theorem readChars_escape {e u : UInt16} (he : simpleEscape e = some u) (cs : Units) :
    readChars (92 :: e :: cs) = (readChars cs).map (push u) := by
  rw [readChars.eq_def]
  dsimp only
  rw [if_neg (by decide), if_neg (by decide), if_neg (by decide), he]
  rfl

theorem readChars_hex {a b c d u : UInt16} (hu : hexUnit a b c d = some u) (cs : Units) :
    readChars (92 :: 117 :: a :: b :: c :: d :: cs) = (readChars cs).map (push u) := by
  rw [readChars.eq_def]
  dsimp only
  have hnone : simpleEscape 117 = none := by decide
  rw [if_neg (by decide), if_neg (by decide), if_neg (by decide), hnone]
  dsimp only
  rw [if_neg (by decide), hu]
  rfl

theorem readChars_complete {s cs rest : Units} (h : Chars s cs rest) : readChars cs = .ok (s, rest) := by
  induction h with
  | quote rest => exact readChars_quote rest
  | plain hlow hquote hback h ih =>
    rw [readChars_plain hlow hquote hback, ih]
    rfl
  | escape he h ih =>
    rw [readChars_escape he, ih]
    rfl
  | hex hu h ih =>
    rw [readChars_hex hu, ih]
    rfl

theorem map_push_eq_ok {u : UInt16} {x : Except Failure (Units × Units)} {s rest : Units}
    (h : x.map (push u) = .ok (s, rest)) : ∃ t, x = .ok (t, rest) ∧ s = u :: t := by
  obtain ⟨⟨t, behind⟩, hread, heq⟩ := map_eq_ok.mp h
  injection heq with hs hrest
  subst hrest
  exact ⟨t, hread, hs.symm⟩

theorem readChars_sound {s cs rest : Units} (h : readChars cs = .ok (s, rest)) : Chars s cs rest := by
  induction cs using readChars.induct generalizing s with
  | case1 => cases h
  | case2 cs =>
    rw [readChars_quote] at h
    injection h with h
    injection h with hs hrest
    subst hs hrest
    exact .quote cs
  | case3 c cs hquote hlow =>
    rw [readChars.eq_def] at h
    dsimp only at h
    rw [if_neg hquote, if_pos hlow] at h
    cases h
  | case4 c cs hquote hlow hback ih =>
    rw [readChars_plain hlow hquote hback] at h
    obtain ⟨t, hread, rfl⟩ := map_push_eq_ok h
    exact .plain hlow hquote hback (ih hread)
  | case5 c hquote hlow hback =>
    rw [readChars.eq_def] at h
    dsimp only at h
    rw [if_neg hquote, if_neg hlow, if_neg hback] at h
    cases h
  | case6 c hquote hlow hback e cs u he ih =>
    obtain rfl : c = 92 := not_not.mp hback
    rw [readChars_escape he] at h
    obtain ⟨t, hread, rfl⟩ := map_push_eq_ok h
    exact .escape he (ih hread)
  | case7 c hquote hlow hback e cs he hhex =>
    rw [readChars.eq_def] at h
    dsimp only at h
    rw [if_neg hquote, if_neg hlow, if_neg hback, he] at h
    dsimp only at h
    rw [if_pos hhex] at h
    cases h
  | case8 c hquote hlow hback e he hhex a b c' d cs u hu ih =>
    obtain rfl : c = 92 := not_not.mp hback
    obtain rfl : e = 117 := not_not.mp hhex
    rw [readChars_hex hu] at h
    obtain ⟨t, hread, rfl⟩ := map_push_eq_ok h
    exact .hex hu (ih hread)
  | case9 c hquote hlow hback e he hhex a b c' d cs hu =>
    rw [readChars.eq_def] at h
    dsimp only at h
    rw [if_neg hquote, if_neg hlow, if_neg hback, he] at h
    dsimp only at h
    rw [if_neg hhex, hu] at h
    cases h
  | case10 c hquote hlow hback e cs he hhex hshort =>
    rw [readChars.eq_def] at h
    dsimp only at h
    rw [if_neg hquote, if_neg hlow, if_neg hback, he] at h
    dsimp only at h
    rw [if_neg hhex] at h
    split at h
    · exact (hshort _ _ _ _ _ rfl).elim
    · cases h

theorem Chars.length_lt {s cs rest : Units} (h : Chars s cs rest) : rest.length < cs.length := by
  induction h with
  | quote rest => exact Nat.lt_succ_self _
  | plain _ _ _ h ih => exact Nat.lt_succ_of_lt ih
  | escape _ h ih =>
    simp only [List.length_cons]
    omega
  | hex _ h ih =>
    simp only [List.length_cons]
    omega

theorem isWellFormed_iff (s : Units) : isWellFormed s = true ↔ WellFormed s := by
  have hexclusive : ∀ c : UInt16, isHigh c = true → isLow c = false := by
    intro c h
    unfold isHigh isLow at *
    rw [Bool.and_eq_true, decide_eq_true_eq, decide_eq_true_eq] at h
    rw [Bool.and_eq_false_iff, decide_eq_false_iff_not]
    left
    have hle := UInt16.le_iff_toNat_le.mp h.2
    intro hge
    have hfalse : (0xdc00 : UInt16).toNat ≤ (0xdbff : UInt16).toNat :=
      Nat.le_trans (UInt16.le_iff_toNat_le.mp hge) hle
    exact absurd hfalse (by decide)
  constructor
  · intro h
    induction s using isWellFormed.induct with
    | case1 => exact .nil
    | case2 c =>
      rw [isWellFormed, Bool.and_eq_true, Bool.not_eq_true', Bool.not_eq_true'] at h
      exact .unit h.1 h.2 .nil
    | case3 c d cs hhigh ih =>
      rw [isWellFormed, if_pos hhigh, Bool.and_eq_true] at h
      exact .pair hhigh h.1 (ih h.2)
    | case4 c d cs hhigh ih =>
      rw [isWellFormed, if_neg hhigh, Bool.and_eq_true, Bool.not_eq_true'] at h
      exact .unit (Bool.eq_false_iff.mpr hhigh) h.1 (ih h.2)
  · intro h
    induction h with
    | nil => rfl
    | @unit c cs hhigh hlow h ih =>
      cases cs with
      | nil => simp [isWellFormed, hhigh, hlow]
      | cons d cs => rw [isWellFormed, if_neg (by rw [hhigh]; exact Bool.false_ne_true), hlow, ih]; rfl
    | pair hhigh hlow h ih => rw [isWellFormed, if_pos hhigh, hlow, ih]; rfl

end NeonDiff.Lib.JsonText
