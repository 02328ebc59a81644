import NeonDiff.Lib.JsText

/-! # JSON values and plain objects -/

namespace NeonDiff.Lib

/-- A value of `JSON.parse`. Numbers that are not integers keep their text only. -/
inductive Json where
  | null
  | bool (b : Bool)
  | int (n : Int)
  | fraction (text : String)
  | str (s : String)
  | arr (items : List Json)
  | obj (fields : List (String × Json))

namespace Json

/-- `record[key]` of an own field; nothing stands for `undefined`. -/
def field (fields : List (String × Json)) (key : String) : Option Json :=
  (fields.find? fun f => f.1 = key).map Prod.snd

/-- `Number.isSafeInteger(n)`. -/
def isSafeInteger (n : Int) : Bool := -9007199254740991 ≤ n && n ≤ 9007199254740991

/-! ### `JSON.stringify` -/

def hexDigit (n : Nat) : Char := Char.ofNat (if n < 10 then 48 + n else 87 + n)

def escapeChar (c : Char) : List Char :=
  if c = '"' then ['\\', '"']
  else if c = '\\' then ['\\', '\\']
  else if c.toNat = 8 then ['\\', 'b']
  else if c = '\t' then ['\\', 't']
  else if c = '\n' then ['\\', 'n']
  else if c.toNat = 12 then ['\\', 'f']
  else if c = '\r' then ['\\', 'r']
  else if c.toNat < 32 then ['\\', 'u', '0', '0', hexDigit (c.toNat / 16), hexDigit (c.toNat % 16)]
  else [c]

def quote (s : String) : List Char := '"' :: (s.toList.flatMap escapeChar ++ ['"'])

mutual

/-- The characters of `JSON.stringify(value)`. -/
def stringify : Json → List Char
  | null => "null".toList
  | bool b => if b then "true".toList else "false".toList
  | int n => (toString n).toList
  | fraction text => text.toList
  | str s => quote s
  | arr items => '[' :: (stringifyItems items ++ [']'])
  | obj fields => '{' :: (stringifyFields fields ++ ['}'])

def stringifyItems : List Json → List Char
  | [] => []
  | [item] => stringify item
  | item :: items => stringify item ++ ',' :: stringifyItems items

def stringifyFields : List (String × Json) → List Char
  | [] => []
  | [(key, value)] => quote key ++ ':' :: stringify value
  | (key, value) :: fields => quote key ++ ':' :: (stringify value ++ ',' :: stringifyFields fields)

end

theorem stringifyItems_cons (item next : Json) (items : List Json) :
    stringifyItems (item :: next :: items) = stringify item ++ ',' :: stringifyItems (next :: items) := rfl

theorem stringifyItems_append_inj {front : List Json} {a b : Json} {as bs : List Json}
    (h : stringifyItems (front ++ a :: as) = stringifyItems (front ++ b :: bs)) :
    stringifyItems (a :: as) = stringifyItems (b :: bs) := by
  induction front with
  | nil => exact h
  | cons item front ih =>
    cases front with
    | nil =>
      rw [List.singleton_append, List.singleton_append, stringifyItems_cons, stringifyItems_cons] at h
      exact (List.cons.inj (List.append_cancel_left h)).2
    | cons next front =>
      rw [List.cons_append, List.cons_append, List.cons_append, List.cons_append, stringifyItems_cons,
        stringifyItems_cons] at h
      exact ih (List.cons.inj (List.append_cancel_left h)).2

/-! ### Reading a quoted text back -/

def hexValue (c : Char) : Nat := if c.toNat < 58 then c.toNat - 48 else c.toNat - 87

theorem hexValue_hexDigit : ∀ n < 16, hexValue (hexDigit n) = n := by decide

/-- The first character of a quoted text and what follows it. -/
def readChar : List Char → Option (Char × List Char)
  | '\\' :: 'b' :: cs => some (Char.ofNat 8, cs)
  | '\\' :: 't' :: cs => some ('\t', cs)
  | '\\' :: 'n' :: cs => some ('\n', cs)
  | '\\' :: 'f' :: cs => some (Char.ofNat 12, cs)
  | '\\' :: 'r' :: cs => some ('\r', cs)
  | '\\' :: 'u' :: _ :: _ :: a :: b :: cs => some (Char.ofNat (16 * hexValue a + hexValue b), cs)
  | '\\' :: c :: cs => some (c, cs)
  | c :: cs => some (c, cs)
  | [] => none

theorem readChar_escapeChar (c : Char) (cs : List Char) : readChar (escapeChar c ++ cs) = some (c, cs) := by
  unfold escapeChar
  split_ifs with h1 h2 h3 h4 h5 h6 h7 h8
  · simp [readChar, h1]
  · simp [readChar, h2]
  · exact congrArg (fun c => some (c, cs)) (h3 ▸ Char.ofNat_toNat c : Char.ofNat 8 = c)
  · simp [readChar, h4]
  · simp [readChar, h5]
  · exact congrArg (fun c => some (c, cs)) (h6 ▸ Char.ofNat_toNat c : Char.ofNat 12 = c)
  · simp [readChar, h7]
  · have hvalue : 16 * hexValue (hexDigit (c.toNat / 16)) + hexValue (hexDigit (c.toNat % 16)) = c.toNat := by
      rw [hexValue_hexDigit _ (by omega), hexValue_hexDigit _ (by omega)]
      omega
    simp [readChar, hvalue]
  · simp only [List.singleton_append]
    unfold readChar
    split <;> simp_all

theorem escapeChar_append_inj {c d : Char} {cs ds : List Char} (h : escapeChar c ++ cs = escapeChar d ++ ds) :
    c = d ∧ cs = ds := by
  have := congrArg readChar h
  rw [readChar_escapeChar, readChar_escapeChar] at this
  simpa using this

theorem escapeChar_head_ne (c : Char) (cs ds : List Char) : escapeChar c ++ cs ≠ '"' :: ds := by
  unfold escapeChar
  split_ifs <;> simp_all

theorem quote_append_inj {a b : String} {cs ds : List Char} (h : quote a ++ cs = quote b ++ ds) : a = b ∧ cs = ds := by
  simp only [quote, List.cons_append, List.append_assoc, List.nil_append, List.cons.injEq, true_and] at h
  have key : ∀ as bs : List Char, as.flatMap escapeChar ++ '"' :: cs = bs.flatMap escapeChar ++ '"' :: ds →
      as = bs ∧ cs = ds := by
    intro as
    induction as with
    | nil =>
      rintro (_ | ⟨b, bs⟩) h
      · simpa using h
      · rw [List.flatMap_cons, List.append_assoc] at h
        exact absurd h.symm (escapeChar_head_ne _ _ _)
    | cons a as ih =>
      rintro (_ | ⟨b, bs⟩) h
      · rw [List.flatMap_cons, List.append_assoc] at h
        exact absurd h (escapeChar_head_ne _ _ _)
      · rw [List.flatMap_cons, List.flatMap_cons, List.append_assoc, List.append_assoc] at h
        obtain ⟨rfl, htail⟩ := escapeChar_append_inj h
        obtain ⟨rfl, rfl⟩ := ih bs htail
        exact ⟨rfl, rfl⟩
  obtain ⟨hab, hcd⟩ := key _ _ h
  exact ⟨String.toList_inj.mp hab, hcd⟩

end Json

/-- `new Map(entries).get(key)`: of two entries under one key the later counts. -/
def mapGet {α : Type} (entries : List (String × α)) (key : String) : Option α :=
  (entries.reverse.find? fun e => e.1 = key).map Prod.snd

theorem mem_of_mapGet {α : Type} {entries : List (String × α)} {key : String} {a : α}
    (h : mapGet entries key = some a) : (key, a) ∈ entries := by
  obtain ⟨⟨k, b⟩, hfind, rfl⟩ := Option.map_eq_some_iff.mp h
  have hkey : k = key := by simpa using List.find?_some hfind
  exact hkey ▸ List.mem_reverse.mp (List.mem_of_find?_eq_some hfind)

theorem mapGet_isSome {α : Type} {entries : List (String × α)} {key : String} (h : ∃ a, (key, a) ∈ entries) :
    (mapGet entries key).isSome = true := by
  obtain ⟨a, ha⟩ := h
  rw [mapGet, Option.isSome_map, List.find?_isSome]
  exact ⟨(key, a), List.mem_reverse.mpr ha, by simp⟩

/-! ## Lookups on an object literal -/

/-- What a plain object inherits. -/
def objectPrototypeMembers : List String :=
  ["constructor", "__proto__", "__defineGetter__", "__defineSetter__", "__lookupGetter__", "__lookupSetter__",
    "hasOwnProperty", "isPrototypeOf", "propertyIsEnumerable", "toLocaleString", "toString", "valueOf"]

/-- What `literal[key]` finds. -/
inductive Found (α : Type) where
  | own (value : α)
  | inherited
  | undefined
  deriving DecidableEq, Repr

def lookup {α : Type} (literal : List (String × α)) (key : String) : Found α :=
  match literal.find? fun e => e.1 = key with
  | some e => .own e.2
  | none => if objectPrototypeMembers.contains key then .inherited else .undefined

/-- `object[key] = value` for a text value: an own field is set, or set anew; a prototype is not. -/
def assign {α : Type} (object : List (String × α)) (key : String) (value : α) : List (String × α) :=
  if key = "__proto__" then object
  else if object.any fun e => e.1 = key then object.map fun e => if e.1 = key then (key, value) else e
  else object ++ [(key, value)]

end NeonDiff.Lib
