import NeonDiff.Lib.JsonCorrect

/-! # Documents are what the reader reads -/

namespace NeonDiff.Lib.JsonText

variable (k : Checks)

/-! ## What the checks ask for -/

def Checks.StringMeets (s : Units) : Prop := k.wellFormed = true → WellFormed s

mutual

/-- The value passes the checks with `depth` arrays and objects around it. -/
def Tree.Meets : Nat → Tree → Prop
  | _, .string s => k.StringMeets s
  | depth, .array vs => k.tooDeep depth = false ∧ ElementsMeet (depth + 1) vs
  | depth, .object ms => k.tooDeep depth = false ∧ MembersMeet (depth + 1) [] ms
  | _, _ => True

def ElementsMeet : Nat → List Tree → Prop
  | _, [] => True
  | depth, v :: vs => v.Meets depth ∧ ElementsMeet depth vs

/-- `keys` are the names that the object has already. -/
def MembersMeet : Nat → List Units → List (Units × Tree) → Prop
  | _, _, [] => True
  | depth, keys, (key, v) :: ms =>
    k.StringMeets key ∧ (k.uniqueKeys = true → key ∉ keys) ∧ v.Meets depth ∧ MembersMeet depth (key :: keys) ms

end

theorem readString_eq_ok {s cs rest : Units} :
    readString k cs = .ok (s, rest) ↔ Chars s cs rest ∧ k.StringMeets s := by
  unfold readString Checks.StringMeets
  constructor
  · intro h
    obtain ⟨⟨t, behind⟩, hread, h⟩ := bind_eq_ok h
    by_cases hbad : (k.wellFormed && !isWellFormed t) = true
    · rw [if_pos hbad] at h
      cases h
    · rw [if_neg hbad] at h
      injection h with h
      injection h with ht hbehind
      subst ht hbehind
      refine ⟨readChars_sound hread, fun hwellFormed => (isWellFormed_iff t).mp ?_⟩
      simpa [hwellFormed] using hbad
  · rintro ⟨hchars, hmeets⟩
    have hgood : ¬(k.wellFormed && !isWellFormed s) = true := by
      intro hbad
      rw [Bool.and_eq_true, Bool.not_eq_true'] at hbad
      rw [(isWellFormed_iff s).mpr (hmeets hbad.1)] at hbad
      cases hbad.2
    rw [readChars_complete hchars]
    change (if _ then _ else _) = _
    rw [if_neg hgood]

/-! ## What is read is written there -/

theorem eq_append_of_suffix {cs rest : Units} (h : rest <:+ cs) : cs = cs.take (cs.length - rest.length) ++ rest := by
  obtain ⟨front, rfl⟩ := h
  rw [List.length_append, Nat.add_sub_cancel, List.take_left']
  rfl

theorem head_cons {c : UInt16} {cs : Units} (h : cs.head? = some c) : cs = c :: cs.tail := by
  cases cs with
  | nil => cases h
  | cons d cs =>
    obtain rfl := Option.some.inj h
    rfl

variable {k}

/-- What reading with `n` steps gives is what the grammar derives. -/
structure Sound (k : Checks) (n : Nat) : Prop where
  value : ∀ {depth cs v rest}, readValue k n depth cs = .ok (v, rest) →
    Reads (.value v) (skipSpace cs) rest ∧ v.Meets k depth
  elements : ∀ {depth cs vs rest}, readElements k n depth cs = .ok (vs, rest) →
    Reads (.elements vs) cs (93 :: rest) ∧ ElementsMeet k depth vs
  members : ∀ {depth keys cs ms rest}, readMembers k n depth keys cs = .ok (ms, rest) →
    Reads (.members ms) cs (125 :: rest) ∧ MembersMeet k depth keys ms

theorem Ws.trans {a b c : Units} (h : Ws a b) (h' : Ws b c) : Ws a c := by
  induction h with
  | done => exact h'
  | more hc h ih => exact .more hc (ih h')

theorem Reads.elements_of_ws {vs : List Tree} {cs mid rest : Units} (hws : Ws cs mid)
    (h : Reads (.elements vs) mid rest) : Reads (.elements vs) cs rest := by
  cases h with
  | element hfront h hbehind => exact .element (hws.trans hfront) h hbehind
  | elements hfront h hbehind hmore => exact .elements (hws.trans hfront) h hbehind hmore

theorem Reads.members_of_ws {ms : List (Units × Tree)} {cs mid rest : Units} (hws : Ws cs mid)
    (h : Reads (.members ms) mid rest) : Reads (.members ms) cs rest := by
  cases h with
  | member hname hkey hcolon hfront h hbehind => exact .member (hws.trans hname) hkey hcolon hfront h hbehind
  | members hname hkey hcolon hfront h hbehind hmore =>
    exact .members (hws.trans hname) hkey hcolon hfront h hbehind hmore

theorem map_read_eq_ok {α β : Type} {f : α → β} {x : Except Failure (α × Units)} {b : β} {rest : Units}
    (h : x.map (fun read => (f read.1, read.2)) = .ok (b, rest)) : ∃ a, x = .ok (a, rest) ∧ b = f a := by
  obtain ⟨⟨a, behind⟩, hread, heq⟩ := map_eq_ok.mp h
  injection heq with hb hrest
  subst hrest
  exact ⟨a, hread, hb.symm⟩

theorem ws_of_head {c : UInt16} {cs : Units} (h : (skipSpace cs).head? = some c) : Ws cs (c :: (skipSpace cs).tail) := by
  rw [← head_cons h]
  exact ws_skipSpace cs

theorem readValue_sound {n depth : Nat} {cs : Units} {v : Tree} {rest : Units} (ih : Sound k n)
    (h : readValue k (n + 1) depth cs = .ok (v, rest)) : Reads (.value v) (skipSpace cs) rest ∧ v.Meets k depth := by
  rw [readValue.eq_def] at h
  dsimp only at h
  cases hcs : skipSpace cs with
  | nil =>
    rw [hcs] at h
    cases h
  | cons c text =>
    rw [hcs] at h
    dsimp only at h
    by_cases hquote : c = 34
    · subst hquote
      rw [if_pos rfl] at h
      obtain ⟨s, hread, rfl⟩ := map_read_eq_ok h
      obtain ⟨hchars, hmeets⟩ := (readString_eq_ok k).mp hread
      exact ⟨.string hchars, hmeets⟩
    rw [if_neg hquote] at h
    by_cases hobject : c = 123
    · subst hobject
      rw [if_pos rfl] at h
      by_cases hdeep : k.tooDeep depth = true
      · rw [if_pos hdeep] at h
        cases h
      rw [if_neg hdeep] at h
      have hshallow := Bool.eq_false_iff.mpr hdeep
      by_cases hempty : (skipSpace text).head? = some 125
      · rw [if_pos hempty] at h
        injection h with h
        injection h with hv hrest
        subst hv hrest
        exact ⟨.emptyObject (ws_of_head hempty), hshallow, trivial⟩
      · rw [if_neg hempty] at h
        obtain ⟨ms, hread, rfl⟩ := map_read_eq_ok h
        obtain ⟨hreads, hmeets⟩ := ih.members hread
        exact ⟨.object (hreads.members_of_ws (ws_skipSpace text)), hshallow, hmeets⟩
    rw [if_neg hobject] at h
    by_cases harray : c = 91
    · subst harray
      rw [if_pos rfl] at h
      by_cases hdeep : k.tooDeep depth = true
      · rw [if_pos hdeep] at h
        cases h
      rw [if_neg hdeep] at h
      have hshallow := Bool.eq_false_iff.mpr hdeep
      by_cases hempty : (skipSpace text).head? = some 93
      · rw [if_pos hempty] at h
        injection h with h
        injection h with hv hrest
        subst hv hrest
        exact ⟨.emptyArray (ws_of_head hempty), hshallow, trivial⟩
      · rw [if_neg hempty] at h
        obtain ⟨vs, hread, rfl⟩ := map_read_eq_ok h
        obtain ⟨hreads, hmeets⟩ := ih.elements hread
        exact ⟨.array (hreads.elements_of_ws (ws_skipSpace text)), hshallow, hmeets⟩
    rw [if_neg harray] at h
    by_cases htrue : [116, 114, 117, 101] <+: c :: text
    · rw [if_pos htrue] at h
      obtain ⟨behind, htext⟩ := htrue
      rw [← htext] at h ⊢
      injection h with h
      injection h with hv hrest
      subst hv hrest
      exact ⟨.literalTrue behind, trivial⟩
    rw [if_neg htrue] at h
    by_cases hfalse : [102, 97, 108, 115, 101] <+: c :: text
    · rw [if_pos hfalse] at h
      obtain ⟨behind, htext⟩ := hfalse
      rw [← htext] at h ⊢
      injection h with h
      injection h with hv hrest
      subst hv hrest
      exact ⟨.literalFalse behind, trivial⟩
    rw [if_neg hfalse] at h
    by_cases hnull : [110, 117, 108, 108] <+: c :: text
    · rw [if_pos hnull] at h
      obtain ⟨behind, htext⟩ := hnull
      rw [← htext] at h ⊢
      injection h with h
      injection h with hv hrest
      subst hv hrest
      exact ⟨.literalNull behind, trivial⟩
    rw [if_neg hnull] at h
    by_cases hnumber : (c = 45 || isDigit c) = true
    · rw [if_pos hnumber] at h
      obtain ⟨behind, hread, heq⟩ := map_eq_ok.mp h
      injection heq with hv hrest
      subst hv hrest
      have hnumber := readNumber_sound hread
      have hsplit := eq_append_of_suffix hnumber.suffix.1
      refine ⟨?_, trivial⟩
      rw [hsplit] at hnumber
      have hreads := Reads.number hnumber
      rwa [← hsplit] at hreads
    · rw [if_neg hnumber] at h
      cases h

theorem readElements_sound {n depth : Nat} {cs : Units} {vs : List Tree} {rest : Units} (ih : Sound k n)
    (h : readElements k (n + 1) depth cs = .ok (vs, rest)) :
    Reads (.elements vs) cs (93 :: rest) ∧ ElementsMeet k depth vs := by
  rw [readElements.eq_def] at h
  dsimp only at h
  obtain ⟨⟨v, behind⟩, hvalue, h⟩ := bind_eq_ok h
  obtain ⟨hreads, hmeets⟩ := ih.value hvalue
  dsimp only at h
  cases hcs : skipSpace behind with
  | nil =>
    rw [hcs] at h
    cases h
  | cons c more =>
    have hws := ws_skipSpace behind
    rw [hcs] at h hws
    dsimp only at h
    by_cases hclose : c = 93
    · subst hclose
      rw [if_pos rfl] at h
      injection h with h
      injection h with hvs hrest
      subst hvs hrest
      exact ⟨.element (ws_skipSpace cs) hreads hws, hmeets, trivial⟩
    rw [if_neg hclose] at h
    by_cases hcomma : c = 44
    · subst hcomma
      rw [if_pos rfl] at h
      obtain ⟨vs, hread, rfl⟩ := map_read_eq_ok h
      obtain ⟨hmore, hmeetMore⟩ := ih.elements hread
      exact ⟨.elements (ws_skipSpace cs) hreads hws (hmore.elements_of_ws (ws_skipSpace more)), hmeets, hmeetMore⟩
    · rw [if_neg hcomma] at h
      cases h

theorem readMembers_sound {n depth : Nat} {keys : List Units} {cs : Units} {ms : List (Units × Tree)} {rest : Units}
    (ih : Sound k n) (h : readMembers k (n + 1) depth keys cs = .ok (ms, rest)) :
    Reads (.members ms) cs (125 :: rest) ∧ MembersMeet k depth keys ms := by
  rw [readMembers.eq_def] at h
  cases cs with
  | nil => cases h
  | cons c name =>
    dsimp only at h
    by_cases hname : c = 34
    swap
    · rw [if_pos hname] at h
      cases h
    rw [if_neg (not_not.mpr hname)] at h
    obtain ⟨⟨key, behindKey⟩, hkey, h⟩ := bind_eq_ok h
    obtain ⟨hchars, hkeyMeets⟩ := (readString_eq_ok k).mp hkey
    dsimp only at h
    cases hcolon : skipSpace behindKey with
    | nil =>
      rw [hcolon] at h
      cases h
    | cons c text =>
      have hwsColon := ws_skipSpace behindKey
      rw [hcolon] at h hwsColon
      dsimp only at h
      by_cases hc : c = 58
      swap
      · rw [if_pos hc] at h
        cases h
      rw [if_neg (not_not.mpr hc)] at h
      by_cases hduplicate : (k.uniqueKeys && decide (key ∈ keys)) = true
      · rw [if_pos hduplicate] at h
        cases h
      rw [if_neg hduplicate] at h
      have hunique : k.uniqueKeys = true → key ∉ keys := by
        intro hkeys hmem
        exact hduplicate (by rw [hkeys, Bool.true_and]; exact decide_eq_true hmem)
      obtain ⟨⟨v, behind⟩, hvalue, h⟩ := bind_eq_ok h
      obtain ⟨hreads, hmeets⟩ := ih.value hvalue
      subst hname hc
      dsimp only at h
      cases hcs : skipSpace behind with
      | nil =>
        rw [hcs] at h
        cases h
      | cons d more =>
        have hws := ws_skipSpace behind
        rw [hcs] at h hws
        dsimp only at h
        by_cases hclose : d = 125
        · subst hclose
          rw [if_pos rfl] at h
          injection h with h
          injection h with hms hrest
          subst hms hrest
          exact ⟨.member (.done _) hchars hwsColon (ws_skipSpace text) hreads hws, hkeyMeets, hunique, hmeets, trivial⟩
        rw [if_neg hclose] at h
        by_cases hcomma : d = 44
        · subst hcomma
          rw [if_pos rfl] at h
          obtain ⟨ms, hread, rfl⟩ := map_read_eq_ok h
          obtain ⟨hmore, hmeetMore⟩ := ih.members hread
          exact ⟨.members (.done _) hchars hwsColon (ws_skipSpace text) hreads hws
            (hmore.members_of_ws (ws_skipSpace more)), hkeyMeets, hunique, hmeets, hmeetMore⟩
        · rw [if_neg hcomma] at h
          cases h

theorem sound (n : Nat) : Sound k n := by
  induction n with
  | zero =>
    constructor
    · intro depth cs v rest h
      cases h
    · intro depth cs vs rest h
      cases h
    · intro depth keys cs ms rest h
      cases h
  | succ n ih => exact ⟨readValue_sound ih, readElements_sound ih, readMembers_sound ih⟩

/-! ## What is written there is read -/

theorem Reads.length_lt {item : Item} {cs rest : Units} (h : Reads item cs rest) : rest.length < cs.length := by
  induction h with
  | literalNull | literalTrue | literalFalse =>
    simp only [List.length_cons]
    omega
  | number h => exact h.suffix.2
  | string h =>
    have := h.length_lt
    rw [List.length_cons]
    omega
  | emptyArray h | emptyObject h =>
    have := h.length_le
    rw [List.length_cons] at this ⊢
    omega
  | array h ih | object h ih =>
    rw [List.length_cons] at ih ⊢
    omega
  | element hfront h hbehind ih =>
    have := hfront.length_le
    have := hbehind.length_le
    omega
  | elements hfront h hbehind hmore ih ihmore =>
    have := hfront.length_le
    have := hbehind.length_le
    rw [List.length_cons] at this
    omega
  | member hname hkey hcolon hfront h hbehind ih =>
    have := hname.length_le
    have := hkey.length_lt
    have := hcolon.length_le
    have := hfront.length_le
    have := hbehind.length_le
    simp only [List.length_cons] at *
    omega
  | members hname hkey hcolon hfront h hbehind hmore ih ihmore =>
    have := hname.length_le
    have := hkey.length_lt
    have := hcolon.length_le
    have := hfront.length_le
    have := hbehind.length_le
    simp only [List.length_cons] at *
    omega

/-- What a number cannot begin with: white space, marks and the first letters of the literals. -/
def numberStops : List UInt16 := [9, 10, 13, 32, 34, 44, 91, 93, 102, 110, 116, 123, 125]

theorem notMem_numberStops {c : UInt16} (h : c = 45 ∨ isDigit c = true) : c ∉ numberStops := by
  have hstops : (numberStops.all fun d => !(decide (d = 45) || isDigit d)) = true := by decide
  have hall : ∀ d ∈ numberStops, ¬(d = 45 ∨ isDigit d = true) := fun d hd => by
    simpa using List.all_eq_true.mp hstops d hd
  exact fun hmem => hall c hmem h

theorem isSpace_iff {c : UInt16} : isSpace c = true ↔ c = 9 ∨ c = 10 ∨ c = 13 ∨ c = 32 := by
  simp [isSpace, or_assoc]

theorem Number.head {cs rest : Units} (h : Number cs rest) : ∃ c t, cs = c :: t ∧ (c = 45 ∨ isDigit c = true) := by
  obtain ⟨mid, behindWhole, behindFraction, hminus, hwhole, -, -⟩ := h
  cases hminus with
  | absent =>
    obtain ⟨c, t, rfl, hc⟩ := hwhole.head
    exact ⟨c, t, rfl, .inr hc⟩
  | present => exact ⟨45, mid, rfl, .inl rfl⟩

theorem Reads.head {v : Tree} {cs rest : Units} (h : Reads (.value v) cs rest) :
    ∃ c t, cs = c :: t ∧ isSpace c = false ∧ c ≠ 93 := by
  generalize hitem : Item.value v = item at h
  cases h with
  | number h =>
    obtain ⟨c, t, hcons, hc⟩ := h.head
    have hstops := notMem_numberStops hc
    refine ⟨c, t, hcons, ?_, ?_⟩
    · rw [Bool.eq_false_iff, ne_eq, isSpace_iff]
      rintro (rfl | rfl | rfl | rfl) <;> exact hstops (by decide)
    · rintro rfl
      exact hstops (by decide)
  | element | elements | member | members => cases hitem
  | literalNull | literalTrue | literalFalse | string | emptyArray | array | emptyObject | object =>
    exact ⟨_, _, rfl, by decide, by decide⟩

theorem skipSpace_of_value {v : Tree} {cs front rest : Units} (hws : Ws cs front) (h : Reads (.value v) front rest) :
    skipSpace cs = front := by
  obtain ⟨c, t, rfl, hspace, -⟩ := h.head
  rw [skipSpace_of_ws hws, skipSpace_cons hspace]

theorem skipSpace_of_cons {c : UInt16} {cs rest : Units} (hws : Ws cs (c :: rest)) (hc : isSpace c = false) :
    skipSpace cs = c :: rest := by
  rw [skipSpace_of_ws hws, skipSpace_cons hc]

theorem Reads.elements_head {vs : List Tree} {cs rest : Units} (h : Reads (.elements vs) cs rest) :
    (skipSpace cs).head? ≠ some 93 := by
  have hvalue : ∀ {v : Tree} {front behind : Units}, Ws cs front → Reads (.value v) front behind →
      (skipSpace cs).head? ≠ some 93 := by
    intro v front behind hws hreads
    rw [skipSpace_of_value hws hreads]
    obtain ⟨c, t, rfl, -, hc⟩ := hreads.head
    exact fun h => hc (Option.some.inj h)
  cases h with
  | element hfront h hbehind => exact hvalue hfront h
  | elements hfront h hbehind hmore => exact hvalue hfront h

theorem Reads.members_head {ms : List (Units × Tree)} {cs rest : Units} (h : Reads (.members ms) cs rest) :
    (skipSpace cs).head? ≠ some 125 := by
  cases h with
  | member hname _ _ _ _ _ =>
    rw [skipSpace_of_cons hname (by decide)]
    exact fun h => absurd (Option.some.inj h) (by decide)
  | members hname _ _ _ _ _ _ =>
    rw [skipSpace_of_cons hname (by decide)]
    exact fun h => absurd (Option.some.inj h) (by decide)

theorem ends_of_ws {behind rest : Units} (h : Ws behind rest)
    (hrest : ∀ c, rest.head? = some c → c = 44 ∨ c = 93 ∨ c = 125) : Ends behind := by
  have hstop : ∀ c ∈ ([9, 10, 13, 32, 44, 93, 125] : List UInt16),
      isDigit c = false ∧ c ≠ 46 ∧ c ≠ 101 ∧ c ≠ 69 := by
    have hall : (([9, 10, 13, 32, 44, 93, 125] : List UInt16).all fun c =>
        decide (isDigit c = false ∧ c ≠ 46 ∧ c ≠ 101 ∧ c ≠ 69)) = true := by decide
    intro c hc
    exact of_decide_eq_true (List.all_eq_true.mp hall c hc)
  intro c hc
  apply hstop
  cases h with
  | done =>
    rcases hrest c hc with rfl | rfl | rfl <;> decide
  | more hspace _ =>
    obtain rfl := Option.some.inj hc
    rcases isSpace_iff.mp hspace with rfl | rfl | rfl | rfl <;> decide

theorem ends_of_ws_cons {behind rest : Units} {c : UInt16} (h : Ws behind (c :: rest)) (hc : c = 44 ∨ c = 93 ∨ c = 125) :
    Ends behind :=
  ends_of_ws h fun d hd => by
    rw [← Option.some.inj hd]
    exact hc

/-- Enough steps read what the grammar derives. -/
def Completes (k : Checks) : Item → Units → Units → Prop
  | .value v, cs, rest => ∀ {n depth : Nat} {text : Units}, skipSpace text = cs → v.Meets k depth → Ends rest →
    2 * cs.length ≤ n + 2 * rest.length → readValue k n depth text = .ok (v, rest)
  | .elements vs, cs, rest => ∀ {n depth : Nat} {behind : Units}, rest = 93 :: behind → ElementsMeet k depth vs →
    2 * cs.length + 1 ≤ n + 2 * rest.length → readElements k n depth (skipSpace cs) = .ok (vs, behind)
  | .members ms, cs, rest => ∀ {n depth : Nat} {keys : List Units} {behind : Units}, rest = 125 :: behind →
    MembersMeet k depth keys ms → 2 * cs.length + 1 ≤ n + 2 * rest.length →
      readMembers k n depth keys (skipSpace cs) = .ok (ms, behind)

theorem readValue_cons {n depth : Nat} {text rest : Units} {c : UInt16} (htext : skipSpace text = c :: rest) :
    readValue k (n + 1) depth text =
      if c = 34 then (readString k rest).map fun read => (.string read.1, read.2)
      else if c = 123 then
        if k.tooDeep depth then .error .depth
        else if (skipSpace rest).head? = some 125 then .ok (.object [], (skipSpace rest).tail)
        else (readMembers k n (depth + 1) [] (skipSpace rest)).map fun read => (.object read.1, read.2)
      else if c = 91 then
        if k.tooDeep depth then .error .depth
        else if (skipSpace rest).head? = some 93 then .ok (.array [], (skipSpace rest).tail)
        else (readElements k n (depth + 1) (skipSpace rest)).map fun read => (.array read.1, read.2)
      else if [116, 114, 117, 101] <+: c :: rest then .ok (.bool true, (c :: rest).drop 4)
      else if [102, 97, 108, 115, 101] <+: c :: rest then .ok (.bool false, (c :: rest).drop 5)
      else if [110, 117, 108, 108] <+: c :: rest then .ok (.null, (c :: rest).drop 4)
      else if c = 45 || isDigit c then
        (readNumber (c :: rest)).map fun behind => (.number ((c :: rest).take ((c :: rest).length - behind.length)), behind)
      else .error .malformed := by
  rw [readValue.eq_def]
  dsimp only
  rw [htext]

theorem exists_succ_of_lt {n m : Nat} (h : m < n) : ∃ l, n = l + 1 := ⟨n - 1, by omega⟩

theorem completes_number {s rest : Units} (h : Number (s ++ rest) rest) :
    Completes k (.value (.number s)) (s ++ rest) rest := by
  intro n depth text htext _ hends hsteps
  obtain ⟨c, t, hcons, hc⟩ := h.head
  have hlength := h.suffix.2
  obtain ⟨n, rfl⟩ := exists_succ_of_lt (show 0 < n by omega)
  have hstops := notMem_numberStops hc
  have hne : ∀ d ∈ numberStops, c ≠ d := by
    rintro d hd rfl
    exact hstops hd
  have hbegin : ∀ {d : UInt16} {word : Units}, d ∈ numberStops → ¬d :: word <+: c :: t :=
    fun hd hpre => hne _ hd (List.cons_prefix_cons.mp hpre).1.symm
  have hread := readNumber_complete h hends
  rw [hcons] at htext
  rw [readValue_cons htext, if_neg (hne 34 (by decide)), if_neg (hne 123 (by decide)), if_neg (hne 91 (by decide)),
    if_neg (hbegin (by decide)), if_neg (hbegin (by decide)), if_neg (hbegin (by decide)),
    if_pos (by rw [Bool.or_eq_true, decide_eq_true_eq]; exact hc), ← hcons, hread]
  have htake : (s ++ rest).take ((s ++ rest).length - rest.length) = s := by
    rw [List.length_append, Nat.add_sub_cancel, List.take_left' rfl]
  change Except.ok (Tree.number ((s ++ rest).take ((s ++ rest).length - rest.length)), rest) = _
  rw [htake]

theorem readMembers_cons {n depth : Nat} {keys : List Units} {key name colon text behind : Units} {v : Tree}
    {result : Except Failure (List (Units × Tree) × Units)} (hkey : Chars key name colon) (hmeets : k.StringMeets key)
    (hcolon : Ws colon (58 :: text)) (hunique : k.uniqueKeys = true → key ∉ keys)
    (hvalue : readValue k n depth text = .ok (v, behind))
    (hnext : (match skipSpace behind with
      | [] => .error .malformed
      | c :: rest =>
        if c = 125 then .ok ([(key, v)], rest)
        else if c = 44 then
          (readMembers k n depth (key :: keys) (skipSpace rest)).map fun read => ((key, v) :: read.1, read.2)
        else .error .malformed) = result) :
    readMembers k (n + 1) depth keys (34 :: name) = result := by
  have hfresh : ¬(k.uniqueKeys && decide (key ∈ keys)) = true := by
    intro h
    rw [Bool.and_eq_true, decide_eq_true_eq] at h
    exact hunique h.1 h.2
  rw [readMembers.eq_def]
  dsimp only
  rw [if_neg (by decide), (readString_eq_ok k).mpr ⟨hkey, hmeets⟩]
  change (match skipSpace colon with | [] => _ | c :: rest => _) = _
  rw [skipSpace_of_cons hcolon (by decide)]
  dsimp only
  rw [if_neg (by decide), if_neg hfresh, hvalue]
  exact hnext

theorem completes {item : Item} {cs rest : Units} (h : Reads item cs rest) : Completes k item cs rest := by
  induction h with
  | literalNull rest =>
    intro n depth text htext _ _ hsteps
    obtain ⟨n, rfl⟩ := exists_succ_of_lt (show 0 < n by simp only [List.length_cons] at hsteps; omega)
    rw [readValue_cons htext]
    rfl
  | literalTrue rest =>
    intro n depth text htext _ _ hsteps
    obtain ⟨n, rfl⟩ := exists_succ_of_lt (show 0 < n by simp only [List.length_cons] at hsteps; omega)
    rw [readValue_cons htext]
    rfl
  | literalFalse rest =>
    intro n depth text htext _ _ hsteps
    obtain ⟨n, rfl⟩ := exists_succ_of_lt (show 0 < n by simp only [List.length_cons] at hsteps; omega)
    rw [readValue_cons htext]
    rfl
  | number h => exact completes_number h
  | @string s cs rest h =>
    intro n depth text htext hmeets _ hsteps
    have := h.length_lt
    obtain ⟨n, rfl⟩ := exists_succ_of_lt (show 0 < n by simp only [List.length_cons] at hsteps; omega)
    rw [readValue_cons htext, if_pos rfl, (readString_eq_ok k).mpr ⟨h, hmeets⟩]
    rfl
  | @emptyArray cs rest h =>
    intro n depth text htext hmeets _ hsteps
    have := h.length_le
    obtain ⟨n, rfl⟩ := exists_succ_of_lt (show 0 < n by simp only [List.length_cons] at *; omega)
    have hclose := skipSpace_of_cons h (by decide)
    rw [readValue_cons htext, if_neg (by decide), if_neg (by decide), if_pos rfl, hmeets.1, if_neg Bool.false_ne_true,
      hclose, List.head?_cons, if_pos rfl]
    rfl
  | @array vs cs rest h ih =>
    intro n depth text htext hmeets _ hsteps
    have := h.length_lt
    obtain ⟨n, rfl⟩ := exists_succ_of_lt (show 0 < n by simp only [List.length_cons] at *; omega)
    rw [readValue_cons htext, if_neg (by decide), if_neg (by decide), if_pos rfl, hmeets.1, if_neg Bool.false_ne_true,
      if_neg h.elements_head, ih rfl hmeets.2 (by simp only [List.length_cons] at *; omega)]
    rfl
  | @emptyObject cs rest h =>
    intro n depth text htext hmeets _ hsteps
    have := h.length_le
    obtain ⟨n, rfl⟩ := exists_succ_of_lt (show 0 < n by simp only [List.length_cons] at *; omega)
    have hclose := skipSpace_of_cons h (by decide)
    rw [readValue_cons htext, if_neg (by decide), if_pos rfl, hmeets.1, if_neg Bool.false_ne_true, hclose,
      List.head?_cons, if_pos rfl]
    rfl
  | @object ms cs rest h ih =>
    intro n depth text htext hmeets _ hsteps
    have := h.length_lt
    obtain ⟨n, rfl⟩ := exists_succ_of_lt (show 0 < n by simp only [List.length_cons] at *; omega)
    rw [readValue_cons htext, if_neg (by decide), if_pos rfl, hmeets.1, if_neg Bool.false_ne_true,
      if_neg h.members_head, ih rfl hmeets.2 (by simp only [List.length_cons] at *; omega)]
    rfl
  | @element v cs front behind rest hfront h hbehind ih =>
    intro n depth final hrest hmeets hsteps
    subst hrest
    have := h.length_lt
    have := hfront.length_le
    have := hbehind.length_le
    obtain ⟨n, rfl⟩ := exists_succ_of_lt (show 0 < n by omega)
    have hvalue := @ih n depth (skipSpace cs) (by rw [skipSpace_skipSpace]; exact skipSpace_of_value hfront h) hmeets.1
      (ends_of_ws_cons hbehind (.inr (.inl rfl))) (by omega)
    rw [readElements.eq_def]
    dsimp only
    rw [hvalue]
    change (match skipSpace behind with | [] => _ | c :: rest => _) = _
    rw [skipSpace_of_cons hbehind (by decide)]
    rfl
  | @elements v vs cs front behind more rest hfront h hbehind hmore ih ihmore =>
    intro n depth final hrest hmeets hsteps
    subst hrest
    have := h.length_lt
    have := hfront.length_le
    have := hbehind.length_le
    have := hmore.length_lt
    simp only [List.length_cons] at *
    obtain ⟨n, rfl⟩ := exists_succ_of_lt (show 0 < n by omega)
    have hvalue := @ih n depth (skipSpace cs) (by rw [skipSpace_skipSpace]; exact skipSpace_of_value hfront h) hmeets.1
      (ends_of_ws_cons hbehind (.inl rfl)) (by omega)
    rw [readElements.eq_def]
    dsimp only
    rw [hvalue]
    change (match skipSpace behind with | [] => _ | c :: rest => _) = _
    rw [skipSpace_of_cons hbehind (by decide)]
    dsimp only
    rw [if_neg (by decide), if_pos rfl, ihmore rfl hmeets.2 (by simp only [List.length_cons]; omega)]
    rfl
  | @member key v cs name colon text front behind rest hname hkey hcolon hfront h hbehind ih =>
    intro n depth keys final hrest hmeets hsteps
    subst hrest
    have := h.length_lt
    have := hname.length_le
    have := hkey.length_lt
    have := hcolon.length_le
    have := hfront.length_le
    have := hbehind.length_le
    simp only [List.length_cons] at *
    obtain ⟨n, rfl⟩ := exists_succ_of_lt (show 0 < n by omega)
    obtain ⟨hkeyMeets, hunique, hvalueMeets, -⟩ := hmeets
    have hvalue := @ih n depth text (skipSpace_of_value hfront h) hvalueMeets
      (ends_of_ws_cons hbehind (.inr (.inr rfl))) (by omega)
    rw [skipSpace_of_cons hname (by decide)]
    apply readMembers_cons hkey hkeyMeets hcolon hunique hvalue
    rw [skipSpace_of_cons hbehind (by decide)]
    rfl
  | @members key v ms cs name colon text front behind more rest hname hkey hcolon hfront h hbehind hmore ih ihmore =>
    intro n depth keys final hrest hmeets hsteps
    subst hrest
    have := h.length_lt
    have := hname.length_le
    have := hkey.length_lt
    have := hcolon.length_le
    have := hfront.length_le
    have := hbehind.length_le
    have := hmore.length_lt
    simp only [List.length_cons] at *
    obtain ⟨n, rfl⟩ := exists_succ_of_lt (show 0 < n by omega)
    obtain ⟨hkeyMeets, hunique, hvalueMeets, hmoreMeet⟩ := hmeets
    have hvalue := @ih n depth text (skipSpace_of_value hfront h) hvalueMeets (ends_of_ws_cons hbehind (.inl rfl))
      (by omega)
    rw [skipSpace_of_cons hname (by decide)]
    apply readMembers_cons hkey hkeyMeets hcolon hunique hvalue
    rw [skipSpace_of_cons hbehind (by decide)]
    dsimp only
    rw [if_neg (by decide), if_pos rfl, ihmore rfl hmoreMeet (by simp only [List.length_cons]; omega)]
    rfl

/-! ## The steps last -/

theorem readChars_ne_unfinished (cs : Units) : readChars cs ≠ .error .unfinished := by
  induction cs using readChars.induct with
  | case1 =>
    intro h
    cases h
  | case2 | case3 | case5 | case7 | case9 | case10 =>
    rw [readChars.eq_def]
    intro h
    simp_all
  | case4 c cs hquote hlow hback ih =>
    rw [readChars_plain hlow hquote hback]
    exact map_ne_error ih
  | case6 c hquote hlow hback e cs u he ih =>
    obtain rfl : c = 92 := not_not.mp hback
    rw [readChars_escape he]
    exact map_ne_error ih
  | case8 c hquote hlow hback e he hhex a b c' d cs u hu ih =>
    obtain rfl : c = 92 := not_not.mp hback
    obtain rfl : e = 117 := not_not.mp hhex
    rw [readChars_hex hu]
    exact map_ne_error ih

theorem readString_ne_unfinished (cs : Units) : readString k cs ≠ .error .unfinished := by
  apply bind_ne_error (readChars_ne_unfinished cs)
  intro read _ h
  split at h <;> cases h

theorem readDigits_ne_unfinished (cs : Units) : readDigits cs ≠ .error .unfinished := by
  unfold readDigits
  intro h
  split at h
  · cases h
  · split at h <;> cases h

theorem readNumber_ne_unfinished (cs : Units) : readNumber cs ≠ .error .unfinished := by
  have hwhole : ∀ cs, readWhole cs ≠ .error .unfinished := by
    intro cs h
    unfold readWhole at h
    split at h
    · cases h
    · split at h
      · cases h
      · split at h <;> cases h
  have hfraction : ∀ cs, readFraction cs ≠ .error .unfinished := by
    intro cs h
    unfold readFraction at h
    split at h
    · cases h
    · split at h
      · exact readDigits_ne_unfinished _ h
      · cases h
  have hexponent : ∀ cs, readExponent cs ≠ .error .unfinished := by
    intro cs h
    unfold readExponent at h
    split at h
    · cases h
    · split at h
      · exact readDigits_ne_unfinished _ h
      · cases h
  exact bind_ne_error (bind_ne_error (hwhole _) fun behind _ => hfraction behind) fun behind _ => hexponent behind

/-- Two steps for each unit of the text are enough. -/
structure Finishes (k : Checks) (n : Nat) : Prop where
  value : ∀ {depth cs}, 2 * cs.length + 1 ≤ n → readValue k n depth cs ≠ .error .unfinished
  elements : ∀ {depth cs}, 2 * cs.length + 2 ≤ n → readElements k n depth cs ≠ .error .unfinished
  members : ∀ {depth keys cs}, 2 * cs.length + 2 ≤ n → readMembers k n depth keys cs ≠ .error .unfinished

theorem readValue_length_lt {n depth : Nat} {cs rest : Units} {v : Tree} (h : readValue k n depth cs = .ok (v, rest)) :
    rest.length < cs.length := by
  have hreads := ((sound n).value h).1.length_lt
  have := length_skipSpace_le cs
  omega

theorem readValue_finishes {n depth : Nat} {cs : Units} (ih : Finishes k n) (hn : 2 * cs.length + 1 ≤ n + 1) :
    readValue k (n + 1) depth cs ≠ .error .unfinished := by
  have hlength := length_skipSpace_le cs
  cases hcs : skipSpace cs with
  | nil =>
    rw [readValue.eq_def]
    dsimp only
    rw [hcs]
    exact fun h => nomatch h
  | cons c text =>
    have hinner := length_skipSpace_le text
    rw [hcs, List.length_cons] at hlength
    rw [readValue_cons hcs]
    split
    · exact map_ne_error (readString_ne_unfinished text)
    split
    · split
      · exact fun h => nomatch h
      split
      · exact fun h => nomatch h
      · exact map_ne_error (ih.members (by omega))
    split
    · split
      · exact fun h => nomatch h
      split
      · exact fun h => nomatch h
      · exact map_ne_error (ih.elements (by omega))
    split
    · exact fun h => nomatch h
    split
    · exact fun h => nomatch h
    split
    · exact fun h => nomatch h
    split
    · exact map_ne_error (readNumber_ne_unfinished _)
    · exact fun h => nomatch h

theorem readElements_finishes {n depth : Nat} {cs : Units} (ih : Finishes k n) (hn : 2 * cs.length + 2 ≤ n + 1) :
    readElements k (n + 1) depth cs ≠ .error .unfinished := by
  rw [readElements.eq_def]
  dsimp only
  apply bind_ne_error (ih.value (by omega))
  rintro ⟨v, rest⟩ hvalue
  have hlength := readValue_length_lt hvalue
  have hspace := length_skipSpace_le rest
  dsimp only
  cases hcs : skipSpace rest with
  | nil => exact fun h => nomatch h
  | cons c more =>
    have hmore := length_skipSpace_le more
    rw [hcs, List.length_cons] at hspace
    dsimp only
    split
    · exact fun h => nomatch h
    split
    · exact map_ne_error (ih.elements (by omega))
    · exact fun h => nomatch h

theorem readMembers_finishes {n depth : Nat} {keys : List Units} {cs : Units} (ih : Finishes k n)
    (hn : 2 * cs.length + 2 ≤ n + 1) : readMembers k (n + 1) depth keys cs ≠ .error .unfinished := by
  rw [readMembers.eq_def]
  cases cs with
  | nil => exact fun h => nomatch h
  | cons c name =>
    dsimp only
    split
    · exact fun h => nomatch h
    apply bind_ne_error (readString_ne_unfinished name)
    rintro ⟨key, behindKey⟩ hkey
    have hkeyLength := ((readString_eq_ok k).mp hkey).1.length_lt
    have hcolonLength := length_skipSpace_le behindKey
    rw [List.length_cons] at hn
    dsimp only
    cases hcolon : skipSpace behindKey with
    | nil => exact fun h => nomatch h
    | cons d text =>
      rw [hcolon, List.length_cons] at hcolonLength
      dsimp only
      split
      · exact fun h => nomatch h
      split
      · exact fun h => nomatch h
      apply bind_ne_error (ih.value (by omega))
      rintro ⟨v, rest⟩ hvalue
      have hlength := readValue_length_lt hvalue
      have hspace := length_skipSpace_le rest
      dsimp only
      cases hcs : skipSpace rest with
      | nil => exact fun h => nomatch h
      | cons e more =>
        have hmore := length_skipSpace_le more
        rw [hcs, List.length_cons] at hspace
        dsimp only
        split
        · exact fun h => nomatch h
        split
        · exact map_ne_error (ih.members (by omega))
        · exact fun h => nomatch h

theorem finishes (n : Nat) : Finishes k n := by
  induction n with
  | zero => exact ⟨fun h => by omega, fun h => by omega, fun h => by omega⟩
  | succ n ih => exact ⟨readValue_finishes ih, readElements_finishes ih, readMembers_finishes ih⟩

/-! ## Documents -/

theorem readDocument_ne_unfinished (text : Units) : readDocument k text ≠ .error .unfinished := by
  apply bind_ne_error ((finishes _).value (Nat.le_refl _))
  rintro ⟨v, rest⟩ _ h
  dsimp only at h
  split at h <;> cases h

theorem readDocument_eq_ok {text : Units} {v : Tree} :
    readDocument k text = .ok v ↔ Document v text ∧ v.Meets k 0 := by
  unfold readDocument
  constructor
  · intro h
    obtain ⟨⟨w, rest⟩, hvalue, h⟩ := bind_eq_ok h
    dsimp only at h
    by_cases hrest : skipSpace rest = []
    · rw [if_pos hrest] at h
      injection h with h
      subst h
      obtain ⟨hreads, hmeets⟩ := (sound _).value hvalue
      refine ⟨⟨skipSpace text, rest, ws_skipSpace text, hreads, ?_⟩, hmeets⟩
      rw [← hrest]
      exact ws_skipSpace rest
    · rw [if_neg hrest] at h
      cases h
  · rintro ⟨⟨front, behind, hfront, hreads, hbehind⟩, hmeets⟩
    have hends : Ends behind := ends_of_ws hbehind fun c hc => nomatch hc
    have := hfront.length_le
    have hvalue := @completes k _ _ _ hreads (stepsFor text) 0 text (skipSpace_of_value hfront hreads) hmeets hends (by
      unfold stepsFor
      omega)
    have hrest : skipSpace behind = [] := skipSpace_of_ws hbehind
    rw [hvalue]
    change (if skipSpace behind = [] then _ else _) = _
    rw [if_pos hrest]

end NeonDiff.Lib.JsonText
