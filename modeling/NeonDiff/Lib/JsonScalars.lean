import NeonDiff.Lib.Json
import NeonDiff.Lib.Lines
import NeonDiff.Lib.Munch

/-! # Rows and records of scalars, as `JSON.stringify` writes them

A text is quoted and ends where its quote does. Every other scalar holds no comma, so it ends at the next one.
-/

namespace NeonDiff.Lib.Json

open NeonDiff.Lib.JsText

/-! ## Integers -/

theorem signedDigits_injective :
    Function.Injective fun n : Int =>
      if n < 0 then '-' :: Nat.toDigits 10 n.natAbs else Nat.toDigits 10 n.natAbs := by
  intro m n h
  have hdigits : ∀ m n : Nat, Nat.toDigits 10 m = Nat.toDigits 10 n → m = n := by
    intro m n h
    rw [← digitsValue_toDigits m, h, digitsValue_toDigits]
  have hminus : ∀ (n : Nat) (cs : List Char), Nat.toDigits 10 n ≠ '-' :: cs := by
    intro n cs heq
    have hmem : '-' ∈ Nat.toDigits 10 n := heq ▸ List.mem_cons_self
    have := isDigit_of_mem_toDigits hmem
    revert this
    decide
  dsimp only at h
  split at h
  · split at h
    · have := hdigits _ _ (List.cons.inj h).2
      omega
    · exact absurd h.symm (hminus _ _)
  · split at h
    · exact absurd h (hminus _ _)
    · have := hdigits _ _ h
      omega

theorem stringify_int (n : Int) :
    stringify (.int n) = if n < 0 then '-' :: Nat.toDigits 10 n.natAbs else Nat.toDigits 10 n.natAbs := by
  unfold stringify
  cases n with
  | ofNat n =>
    have hn : ¬ Int.ofNat n < 0 := by simp
    rw [if_neg hn]
    exact String.toList_ofList
  | negSucc n =>
    rw [if_pos (Int.negSucc_lt_zero n)]
    change ("-" ++ Nat.repr (n + 1)).toList = _
    rw [String.toList_append, Nat.repr, String.toList_ofList, String.toList_ofList]
    rfl

/-! ## Scalars -/

/-- The scalars but for texts and fractions. -/
inductive Plain : Json → Prop
  | null : Plain .null
  | bool (b : Bool) : Plain (.bool b)
  | int (n : Int) : Plain (.int n)

inductive Scalar : Json → Prop
  | plain {v : Json} (h : Plain v) : Scalar v
  | str (s : String) : Scalar (.str s)

theorem Plain.mem_stringify {v : Json} (hv : Plain v) {c : Char} (hc : c ∈ stringify v) : c ≠ ',' ∧ c ≠ '"' := by
  have hdigit : ∀ n : Nat, c ∈ Nat.toDigits 10 n → c ≠ ',' ∧ c ≠ '"' := by
    intro n hmem
    have hd := isDigit_of_mem_toDigits hmem
    constructor
    all_goals
      rintro rfl
      revert hd
      decide
  cases hv with
  | null => revert hc; simp [stringify]; rintro (rfl | rfl | rfl) <;> decide
  | bool b => cases b <;> (revert hc; simp [stringify]; rintro (rfl | rfl | rfl | rfl | rfl) <;> decide)
  | int n =>
    rw [stringify_int] at hc
    split at hc
    · rcases List.mem_cons.mp hc with rfl | hc
      · decide
      · exact hdigit _ hc
    · exact hdigit _ hc

theorem Plain.head {v : Json} (hv : Plain v) : ∃ c cs, stringify v = c :: cs := by
  cases hv with
  | null => exact ⟨_, _, rfl⟩
  | bool b => cases b <;> exact ⟨_, _, rfl⟩
  | int n =>
    rw [stringify_int]
    split
    · exact ⟨_, _, rfl⟩
    · exact List.exists_cons_of_ne_nil Nat.toDigits_ne_nil

theorem Plain.stringify_inj {v w : Json} (hv : Plain v) (hw : Plain w) (h : stringify v = stringify w) : v = w := by
  have hword : ∀ (n : Int) (c : Char) (cs : List Char), c.isAlpha = true → stringify (.int n) ≠ c :: cs := by
    intro n c cs hc heq
    rw [stringify_int] at heq
    split at heq
    · obtain rfl := (List.cons.inj heq).1
      revert hc
      decide
    · have hmem : c ∈ Nat.toDigits 10 n.natAbs := heq ▸ List.mem_cons_self
      have hd := isDigit_of_mem_toDigits hmem
      have hchars : ∀ n < 58, 48 ≤ n → (Char.ofNat n).isAlpha = false := by decide
      obtain ⟨hlow, hhigh⟩ := isDigit_bounds hd
      have hnot := hchars c.toNat (by omega) hlow
      rw [Char.ofNat_toNat, hc] at hnot
      cases hnot
  cases hv with
  | null =>
    cases hw with
    | null => rfl
    | bool b => cases b <;> exact absurd h (by decide)
    | int n => exact absurd h.symm (hword n _ _ (by decide))
  | bool b =>
    cases hw with
    | null => cases b <;> exact absurd h (by decide)
    | bool b' => cases b <;> cases b' <;> first | rfl | exact absurd h (by decide)
    | int n => cases b <;> exact absurd h.symm (hword n _ _ (by decide))
  | int n =>
    cases hw with
    | null => exact absurd h (hword n _ _ (by decide))
    | bool b => cases b <;> exact absurd h (hword n _ _ (by decide))
    | int m =>
      rw [stringify_int, stringify_int] at h
      rw [signedDigits_injective h]

/-! ## Rows -/

/-- What follows an item of a row: nothing, or a comma. -/
def Ends (rest : List Char) : Prop := Munch.Stops (· ≠ ',') rest

theorem Plain.append_inj {v w : Json} (hv : Plain v) (hw : Plain w) {rest rest' : List Char} (hrest : Ends rest)
    (hrest' : Ends rest') (h : stringify v ++ rest = stringify w ++ rest') : v = w ∧ rest = rest' := by
  have hwords : ∀ {u : Json}, Plain u → ∀ c ∈ stringify u, decide (c ≠ ',') = true :=
    fun hu c hc => decide_eq_true (hu.mem_stringify hc).1
  obtain ⟨htake, hdrop⟩ := Munch.takeWhile_append (hwords hv) hrest
  obtain ⟨htake', hdrop'⟩ := Munch.takeWhile_append (hwords hw) hrest'
  rw [h] at htake hdrop
  exact ⟨hv.stringify_inj hw (htake.symm.trans htake'), hdrop.symm.trans hdrop'⟩

theorem Plain.append_ne_quote {v : Json} (hv : Plain v) (rest cs : List Char) (s : String) :
    stringify v ++ rest ≠ quote s ++ cs := by
  intro h
  obtain ⟨c, text, htext⟩ := hv.head
  have hc : c ∈ stringify v := htext ▸ List.mem_cons_self
  rw [htext] at h
  exact (hv.mem_stringify hc).2 (List.cons.inj h).1

theorem Scalar.append_inj {v w : Json} (hv : Scalar v) (hw : Scalar w) {rest rest' : List Char} (hrest : Ends rest)
    (hrest' : Ends rest') (h : stringify v ++ rest = stringify w ++ rest') : v = w ∧ rest = rest' := by
  cases hv with
  | plain hv =>
    cases hw with
    | plain hw => exact hv.append_inj hw hrest hrest' h
    | str s => exact absurd h (hv.append_ne_quote _ _ _)
  | str s =>
    cases hw with
    | plain hw => exact absurd h.symm (hw.append_ne_quote _ _ _)
    | str t =>
      obtain ⟨rfl, hrest⟩ := quote_append_inj h
      exact ⟨rfl, hrest⟩

section

variable {α : Type} {text : α → List Char} {S : α → Prop}

/-- The texts of items, a comma before each. -/
def row (text : α → List Char) (items : List α) : List Char := items.flatMap fun item => ',' :: text item

theorem ends_row (items : List α) : Ends (row text items) := by
  cases items with
  | nil => exact Munch.stops_nil
  | cons item items => exact Munch.stops_cons (by decide) _

theorem row_inj (hitem : ∀ {a b : α}, S a → S b → ∀ {rest rest' : List Char}, Ends rest → Ends rest' →
      text a ++ rest = text b ++ rest' → a = b ∧ rest = rest')
    {items items' : List α} (h : ∀ a ∈ items, S a) (h' : ∀ a ∈ items', S a) (heq : row text items = row text items') :
    items = items' := by
  induction items generalizing items' with
  | nil =>
    cases items' with
    | nil => rfl
    | cons item' items' => cases heq
  | cons item items ih =>
    cases items' with
    | nil => cases heq
    | cons item' items' =>
      have hrow : text item ++ row text items = text item' ++ row text items' := (List.cons.inj heq).2
      obtain ⟨rfl, htail⟩ := hitem (h item List.mem_cons_self) (h' item' List.mem_cons_self) (ends_row _)
        (ends_row _) hrow
      rw [ih (fun a ha => h a (List.mem_cons_of_mem _ ha)) (fun a ha => h' a (List.mem_cons_of_mem _ ha)) htail]

end

theorem row_stringify (item : Json) (items : List Json) :
    row stringify (item :: items) = ',' :: stringifyItems (item :: items) := by
  induction items generalizing item with
  | nil => exact congrArg _ (List.append_nil _)
  | cons next items ih =>
    rw [stringifyItems_cons, ← ih]
    rfl

theorem stringifyItems_inj {item item' : Json} {items items' : List Json} (h : ∀ v ∈ item :: items, Scalar v)
    (h' : ∀ v ∈ item' :: items', Scalar v)
    (heq : stringifyItems (item :: items) = stringifyItems (item' :: items')) : item :: items = item' :: items' := by
  apply row_inj Scalar.append_inj h h'
  rw [row_stringify, row_stringify, heq]

/-! ## Records -/

def fieldText (field : String × Json) : List Char := quote field.1 ++ ':' :: stringify field.2

theorem fieldText_append_inj {a b : String × Json} (ha : Scalar a.2) (hb : Scalar b.2) {rest rest' : List Char}
    (hrest : Ends rest) (hrest' : Ends rest') (h : fieldText a ++ rest = fieldText b ++ rest') :
    a = b ∧ rest = rest' := by
  unfold fieldText at h
  rw [List.append_assoc, List.append_assoc] at h
  obtain ⟨hkey, hvalue⟩ := quote_append_inj h
  obtain ⟨hsame, hends⟩ := ha.append_inj hb hrest hrest' (List.cons.inj hvalue).2
  exact ⟨Prod.ext hkey hsame, hends⟩

theorem row_fieldText (field : String × Json) (fields : List (String × Json)) :
    row fieldText (field :: fields) = ',' :: stringifyFields (field :: fields) := by
  induction fields generalizing field with
  | nil => exact congrArg _ (List.append_nil _)
  | cons next fields ih =>
    have htail : stringifyFields (field :: next :: fields) =
        fieldText field ++ ',' :: stringifyFields (next :: fields) := by
      unfold fieldText
      rw [List.append_assoc]
      rfl
    rw [htail, ← ih]
    rfl

theorem stringify_obj_inj {field field' : String × Json} {fields fields' : List (String × Json)}
    (h : ∀ f ∈ field :: fields, Scalar f.2) (h' : ∀ f ∈ field' :: fields', Scalar f.2)
    (heq : stringify (.obj (field :: fields)) = stringify (.obj (field' :: fields'))) :
    field :: fields = field' :: fields' := by
  apply row_inj fieldText_append_inj h h'
  rw [row_fieldText, row_fieldText, List.append_cancel_right (List.cons.inj heq).2]

end NeonDiff.Lib.Json
