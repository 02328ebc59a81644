import NeonDiff.Lib.JsonWriter

/-! # `stableStringify`

The text under the hash of a review-mode configuration and of an ensemble packet.
-/

namespace NeonDiff.Review

open NeonDiff.Lib.JsonText

/-- A value of JavaScript without functions; an object has its own enumerable members in their order. -/
inductive Value where
  | undefined
  | null
  | nonFinite
  | bool (b : Bool)
  | number (n : Numeral)
  | string (s : Units)
  | array (vs : List Value)
  | object (ms : List (Units × Value))

def nullText : Units := [110, 117, 108, 108]

def keyLe (a b : Units) : Bool := decide (a ≤ b)

/-- `Object.keys(record).sort()`. -/
def sortedKeys {α : Type} (record : List (Units × α)) : List Units := (record.map Prod.fst).mergeSort keyLe

/-- A member behind the sort; a name without one would be `undefined`. -/
def memberText (texts : List (Units × Units)) (key : Units) : Units :=
  quote key ++ 58 :: (texts.lookup key).getD nullText

mutual

def stableStringify : Value → Units
  | .undefined => nullText
  | .null => nullText
  | .nonFinite => nullText
  | .bool b => literal b
  | .number n => n.spelling
  | .string s => quote s
  | .array vs => 91 :: (joinCommas (stringifyElements vs) ++ [93])
  | .object ms => 123 :: (joinCommas ((sortedKeys ms).map (memberText (stringifyMembers ms))) ++ [125])

def stringifyElements : List Value → List Units
  | [] => []
  | v :: vs => stableStringify v :: stringifyElements vs

def stringifyMembers : List (Units × Value) → List (Units × Units)
  | [] => []
  | (key, v) :: ms => (key, stableStringify v) :: stringifyMembers ms

end

mutual

/-- An object has one member of a name. -/
def Value.KeysUnique : Value → Prop
  | .array vs => ValuesUnique vs
  | .object ms => (ms.map Prod.fst).Nodup ∧ RecordUnique ms
  | _ => True

def ValuesUnique : List Value → Prop
  | [] => True
  | v :: vs => v.KeysUnique ∧ ValuesUnique vs

def RecordUnique : List (Units × Value) → Prop
  | [] => True
  | (_, v) :: ms => v.KeysUnique ∧ RecordUnique ms

end

/-- `JSON.stringify` has no word for it, or the word `null`. -/
def Value.Nullish : Value → Prop
  | .undefined => True
  | .null => True
  | .nonFinite => True
  | _ => False

/-- The same up to the order of members, at every depth, with `null` for what JSON has no word for. -/
inductive Alike : Value → Value → Prop where
  | nullish {v w : Value} (hv : v.Nullish) (hw : w.Nullish) : Alike v w
  | bool (b : Bool) : Alike (.bool b) (.bool b)
  | number (n : Numeral) : Alike (.number n) (.number n)
  | string (s : Units) : Alike (.string s) (.string s)
  | array {vs ws : List Value} (hlength : vs.length = ws.length)
    (h : ∀ (i : Nat) v w, vs[i]? = some v → ws[i]? = some w → Alike v w) : Alike (.array vs) (.array ws)
  | object {ms ns : List (Units × Value)} (hkeys : ∀ key, key ∈ ms.map Prod.fst ↔ key ∈ ns.map Prod.fst)
    (h : ∀ key v w, (key, v) ∈ ms → (key, w) ∈ ns → Alike v w) : Alike (.object ms) (.object ns)

/-! ## The tree that is written -/

def memberTree (trees : List (Units × Tree)) (key : Units) : Units × Tree := (key, (trees.lookup key).getD .null)

mutual

def stableTree : Value → Tree
  | .undefined => .null
  | .null => .null
  | .nonFinite => .null
  | .bool b => .bool b
  | .number n => .number n.spelling
  | .string s => .string s
  | .array vs => .array (treeElements vs)
  | .object ms => .object ((sortedKeys ms).map (memberTree (treeMembers ms)))

def treeElements : List Value → List Tree
  | [] => []
  | v :: vs => stableTree v :: treeElements vs

def treeMembers : List (Units × Value) → List (Units × Tree)
  | [] => []
  | (key, v) :: ms => (key, stableTree v) :: treeMembers ms

end

theorem treeElements_eq (vs : List Value) : treeElements vs = vs.map stableTree := by
  induction vs with
  | nil => rfl
  | cons v vs ih => rw [treeElements, ih, List.map_cons]

theorem treeMembers_eq (ms : List (Units × Value)) : treeMembers ms = ms.map fun m => (m.1, stableTree m.2) := by
  induction ms with
  | nil => rfl
  | cons m ms ih =>
    obtain ⟨key, v⟩ := m
    rw [treeMembers, ih, List.map_cons]

/-! ## A record is read by its names -/

section

variable {α β : Type} {ms : List (Units × α)}

theorem lookup_of_mem {key : Units} {a : α} (hnodup : (ms.map Prod.fst).Nodup) (h : (key, a) ∈ ms) :
    ms.lookup key = some a := by
  induction ms with
  | nil => cases h
  | cons m ms ih =>
    obtain ⟨name, b⟩ := m
    rw [List.map_cons, List.nodup_cons] at hnodup
    rcases List.mem_cons.mp h with heq | hmem
    · cases heq
      rw [List.lookup_cons_self]
    · have hne : key ≠ name := by
        rintro rfl
        exact hnodup.1 (List.mem_map.mpr ⟨_, hmem, rfl⟩)
      rw [List.lookup_cons, beq_false_of_ne hne]
      exact ih hnodup.2 hmem

theorem lookup_map (f : α → β) (key : Units) :
    (ms.map fun m => (m.1, f m.2)).lookup key = (ms.lookup key).map f := by
  induction ms with
  | nil => rfl
  | cons m ms ih =>
    rw [List.map_cons, List.lookup_cons, List.lookup_cons]
    cases key == m.1 with
    | true => rfl
    | false => exact ih

theorem mem_sortedKeys {key : Units} : key ∈ sortedKeys ms ↔ key ∈ ms.map Prod.fst :=
  (List.mergeSort_perm _ _).mem_iff

theorem exists_of_mem_sortedKeys {key : Units} (h : key ∈ sortedKeys ms) : ∃ a, (key, a) ∈ ms := by
  obtain ⟨⟨name, a⟩, hmem, rfl⟩ := List.mem_map.mp (mem_sortedKeys.mp h)
  exact ⟨a, hmem⟩

theorem keyLe_iff {a b : Units} : keyLe a b = true ↔ a ≤ b := decide_eq_true_iff

theorem sortedKeys_sorted : (sortedKeys ms).Pairwise (· ≤ ·) := by
  have h := @List.pairwise_mergeSort _ keyLe
    (fun a b c hab hbc => keyLe_iff.mpr (List.le_trans (keyLe_iff.mp hab) (keyLe_iff.mp hbc)))
    (fun a b => by
      rw [Bool.or_eq_true, keyLe_iff, keyLe_iff]
      exact List.le_total a b)
    (ms.map Prod.fst)
  exact h.imp keyLe_iff.mp

theorem sortedKeys_eq {ns : List (Units × β)} (hms : (ms.map Prod.fst).Nodup) (hns : (ns.map Prod.fst).Nodup)
    (h : ∀ key, key ∈ ms.map Prod.fst ↔ key ∈ ns.map Prod.fst) : sortedKeys ms = sortedKeys ns := by
  have hperm : (ms.map Prod.fst).Perm (ns.map Prod.fst) := (List.perm_ext_iff_of_nodup hms hns).mpr h
  have hsorted : (sortedKeys ms).Perm (sortedKeys ns) :=
    (List.mergeSort_perm _ _).trans (hperm.trans (List.mergeSort_perm _ _).symm)
  exact hsorted.eq_of_pairwise (fun a b _ _ hab hba => List.le_antisymm hab hba) sortedKeys_sorted sortedKeys_sorted

end

/-! ## What is written -/

theorem writeMembers_map (trees : List (Units × Tree)) (keys : List Units) :
    writeMembers (keys.map (memberTree trees)) =
      keys.map (memberText (trees.map fun m => (m.1, write m.2))) := by
  induction keys with
  | nil => rfl
  | cons key keys ih =>
    have htext : ((trees.map fun m => (m.1, write m.2)).lookup key).getD nullText =
        write ((trees.lookup key).getD .null) := by
      rw [lookup_map]
      cases trees.lookup key <;> rfl
    rw [List.map_cons, List.map_cons, ← ih, memberText, htext]
    rfl

mutual

theorem write_stableTree : (v : Value) → stableStringify v = write (stableTree v)
  | .undefined => rfl
  | .null => rfl
  | .nonFinite => rfl
  | .bool _ => rfl
  | .number _ => rfl
  | .string _ => rfl
  | .array vs => by rw [stableStringify, stableTree, write, stringifyElements_eq vs]
  | .object ms => by rw [stableStringify, stableTree, write, stringifyMembers_eq ms, writeMembers_map]

theorem stringifyElements_eq : (vs : List Value) → stringifyElements vs = writeElements (treeElements vs)
  | [] => rfl
  | v :: vs => by
    rw [stringifyElements, treeElements, writeElements, write_stableTree v, stringifyElements_eq vs]

theorem stringifyMembers_eq : (ms : List (Units × Value)) →
    stringifyMembers ms = (treeMembers ms).map fun m => (m.1, write m.2)
  | [] => rfl
  | (key, v) :: ms => by
    rw [stringifyMembers, treeMembers, List.map_cons, write_stableTree v, stringifyMembers_eq ms]

end

theorem membersSpelled_iff (ms : List (Units × Tree)) : MembersSpelled ms ↔ ∀ m ∈ ms, m.2.Spelled := by
  induction ms with
  | nil => simp [MembersSpelled]
  | cons m ms ih =>
    obtain ⟨key, v⟩ := m
    rw [MembersSpelled, ih, List.forall_mem_cons]

mutual

theorem stableTree_spelled : (v : Value) → (stableTree v).Spelled
  | .undefined => trivial
  | .null => trivial
  | .nonFinite => trivial
  | .bool _ => trivial
  | .number n => n.reads
  | .string _ => trivial
  | .array vs => treeElements_spelled vs
  | .object ms => by
    rw [stableTree, Tree.Spelled, membersSpelled_iff]
    intro m hm
    obtain ⟨key, -, rfl⟩ := List.mem_map.mp hm
    cases hlookup : (treeMembers ms).lookup key with
    | none =>
      rw [memberTree, hlookup]
      trivial
    | some v =>
      obtain ⟨before, behind, hsplit, -⟩ := List.lookup_eq_some_iff.mp hlookup
      have hmem : (key, v) ∈ treeMembers ms := by simp [hsplit]
      rw [memberTree, hlookup]
      exact treeMembers_spelled ms _ hmem

theorem treeElements_spelled : (vs : List Value) → ElementsSpelled (treeElements vs)
  | [] => trivial
  | v :: vs => ⟨stableTree_spelled v, treeElements_spelled vs⟩

theorem treeMembers_spelled : (ms : List (Units × Value)) → ∀ m ∈ treeMembers ms, m.2.Spelled
  | [] => fun _ h => nomatch h
  | (key, v) :: ms => by
    intro m hm
    rcases List.mem_cons.mp hm with rfl | hm
    · exact stableTree_spelled v
    · exact treeMembers_spelled ms m hm

end

theorem document_stableStringify (v : Value) : Document (stableTree v) (stableStringify v) := by
  rw [write_stableTree]
  exact document_write (stableTree_spelled v)

theorem stableTree_eq_of_text {v w : Value} (h : stableStringify v = stableStringify w) :
    stableTree v = stableTree w := by
  rw [write_stableTree, write_stableTree] at h
  exact write_injective (stableTree_spelled v) (stableTree_spelled w) h

/-! ## What the text tells -/

theorem recordUnique_iff (ms : List (Units × Value)) : RecordUnique ms ↔ ∀ m ∈ ms, m.2.KeysUnique := by
  induction ms with
  | nil => simp [RecordUnique]
  | cons m ms ih =>
    obtain ⟨key, v⟩ := m
    rw [RecordUnique, ih, List.forall_mem_cons]

theorem valuesUnique_iff (vs : List Value) : ValuesUnique vs ↔ ∀ v ∈ vs, v.KeysUnique := by
  induction vs with
  | nil => simp [ValuesUnique]
  | cons v vs ih => rw [ValuesUnique, ih, List.forall_mem_cons]

theorem lookup_treeMembers {ms : List (Units × Value)} {key : Units} {v : Value} (hnodup : (ms.map Prod.fst).Nodup)
    (h : (key, v) ∈ ms) : (treeMembers ms).lookup key = some (stableTree v) := by
  rw [treeMembers_eq, lookup_map, lookup_of_mem hnodup h]
  rfl

theorem tree_of_nullish {v : Value} (h : v.Nullish) : stableTree v = .null := by
  cases v with
  | undefined => rfl
  | null => rfl
  | nonFinite => rfl
  | bool _ => cases h
  | number _ => cases h
  | string _ => cases h
  | array _ => cases h
  | object _ => cases h

theorem stableTree_eq_of_alike {v w : Value} (h : Alike v w) (hv : v.KeysUnique) (hw : w.KeysUnique) :
    stableTree v = stableTree w := by
  induction h with
  | nullish hnullv hnullw => rw [tree_of_nullish hnullv, tree_of_nullish hnullw]
  | bool => rfl
  | number => rfl
  | string => rfl
  | @array vs ws hlength h ih =>
    rw [stableTree, stableTree, treeElements_eq, treeElements_eq]
    congr 1
    apply List.ext_getElem (by rw [List.length_map, List.length_map, hlength])
    intro i hi hj
    rw [List.length_map] at hi hj
    rw [List.getElem_map, List.getElem_map]
    exact ih i _ _ (List.getElem?_eq_getElem hi) (List.getElem?_eq_getElem hj)
      ((valuesUnique_iff vs).mp hv _ (List.getElem_mem hi)) ((valuesUnique_iff ws).mp hw _ (List.getElem_mem hj))
  | @object ms ns hkeys h ih =>
    rw [stableTree, stableTree, sortedKeys_eq hv.1 hw.1 hkeys]
    congr 1
    apply List.map_congr_left
    intro key hkey
    obtain ⟨w, hmemw⟩ := exists_of_mem_sortedKeys hkey
    obtain ⟨⟨name, v⟩, hmemv, rfl⟩ := List.mem_map.mp ((hkeys key).mpr (List.mem_map.mpr ⟨_, hmemw, rfl⟩))
    have heq := ih name v w hmemv hmemw ((recordUnique_iff ms).mp hv.2 _ hmemv) ((recordUnique_iff ns).mp hw.2 _ hmemw)
    rw [memberTree, memberTree, lookup_treeMembers hv.1 hmemv, lookup_treeMembers hw.1 hmemw, heq]

theorem nullish_of_tree {v : Value} (h : stableTree v = .null) : v.Nullish := by
  cases v with
  | undefined => trivial
  | null => trivial
  | nonFinite => trivial
  | bool _ => cases h
  | number _ => cases h
  | string _ => cases h
  | array _ => cases h
  | object _ => cases h

theorem keys_of_sorted {ms ns : List (Units × Value)} (h : sortedKeys ms = sortedKeys ns) (key : Units) :
    key ∈ ms.map Prod.fst ↔ key ∈ ns.map Prod.fst := by
  rw [← mem_sortedKeys, ← mem_sortedKeys, h]

mutual

theorem alike_of_tree : (v : Value) → v.KeysUnique → (w : Value) → w.KeysUnique → stableTree v = stableTree w →
    Alike v w
  | .undefined, _, w, _, h => .nullish trivial (nullish_of_tree h.symm)
  | .null, _, w, _, h => .nullish trivial (nullish_of_tree h.symm)
  | .nonFinite, _, w, _, h => .nullish trivial (nullish_of_tree h.symm)
  | .bool b, _, w, _, h => by
    cases w <;> rw [stableTree, stableTree] at h <;> cases h
    exact .bool b
  | .number m, _, w, _, h => by
    cases w with
    | number n =>
      rw [Numeral.ext_spelling (Tree.number.inj h)]
      exact .number n
    | _ => cases h
  | .string s, _, w, _, h => by
    cases w <;> rw [stableTree, stableTree] at h <;> cases h
    exact .string s
  | .array vs, hv, w, hw, h => by
    cases w with
    | array ws =>
      rw [stableTree, stableTree] at h
      have helements := Tree.array.inj h
      rw [treeElements_eq, treeElements_eq] at helements
      have hlength := congrArg List.length helements
      rw [List.length_map, List.length_map] at hlength
      refine .array hlength ?_
      intro i a b ha hb
      have hat := congrArg (fun trees => trees[i]?) helements
      rw [List.getElem?_map, List.getElem?_map, ha, hb] at hat
      exact alike_of_elements vs hv a (List.mem_of_getElem? ha) b
        ((valuesUnique_iff ws).mp hw b (List.mem_of_getElem? hb)) (Option.some.inj hat)
    | _ => cases h
  | .object ms, hv, w, hw, h => by
    cases w with
    | object ns =>
      rw [stableTree, stableTree] at h
      have hmembers := Tree.object.inj h
      have hsorted := congrArg (List.map Prod.fst) hmembers
      rw [List.map_map, List.map_map] at hsorted
      have hkeys : sortedKeys ms = sortedKeys ns := by simpa [Function.comp_def, memberTree] using hsorted
      refine .object (keys_of_sorted hkeys) ?_
      intro key a b ha hb
      rw [hkeys] at hmembers
      have hkey : key ∈ sortedKeys ns := mem_sortedKeys.mpr (List.mem_map.mpr ⟨_, hb, rfl⟩)
      have hmember := List.map_inj_left.mp hmembers key hkey
      rw [memberTree, memberTree, lookup_treeMembers hv.1 ha, lookup_treeMembers hw.1 hb] at hmember
      exact alike_of_members ms hv.2 key a ha b ((recordUnique_iff ns).mp hw.2 _ hb) (Prod.ext_iff.mp hmember).2
    | _ => cases h

theorem alike_of_elements : (vs : List Value) → ValuesUnique vs → ∀ v ∈ vs, ∀ w : Value, w.KeysUnique →
    stableTree v = stableTree w → Alike v w
  | [], _ => fun v hv => absurd hv List.not_mem_nil
  | u :: vs, h => by
    intro v hv w hw heq
    rcases List.mem_cons.mp hv with hfirst | hv
    · rw [hfirst] at heq ⊢
      exact alike_of_tree u h.1 w hw heq
    · exact alike_of_elements vs h.2 v hv w hw heq

theorem alike_of_members : (ms : List (Units × Value)) → RecordUnique ms → ∀ key v, (key, v) ∈ ms →
    ∀ w : Value, w.KeysUnique → stableTree v = stableTree w → Alike v w
  | [], _ => fun key v hv => absurd hv List.not_mem_nil
  | (name, u) :: ms, h => by
    intro key v hv w hw heq
    rcases List.mem_cons.mp hv with hfirst | hv
    · have hvalue : v = u := (Prod.ext_iff.mp hfirst).2
      rw [hvalue] at heq ⊢
      exact alike_of_tree u h.1 w hw heq
    · exact alike_of_members ms h.2 key v hv w hw heq

end

/-- Two configurations or packets have one text, and so one hash, if and only if they differ in no more than the order
of members, and the text is a JSON document. -/
theorem stableStringify_eq_iff {v w : Value} (hv : v.KeysUnique) (hw : w.KeysUnique) :
    (stableStringify v = stableStringify w ↔ Alike v w) ∧ Document (stableTree v) (stableStringify v) := by
  refine ⟨⟨fun h => alike_of_tree v hv w hw (stableTree_eq_of_text h), fun h => ?_⟩, document_stableStringify v⟩
  rw [write_stableTree, write_stableTree, stableTree_eq_of_alike h hv hw]

/-! ### Two members in either order -/

/-- `{"enabled":true,"mode":undefined}` with its members in one order. -/
def enabledFirst : Value := .object [([101], .bool true), ([109], .undefined)]

/-- `{"mode":null,"enabled":true}`. -/
def modeFirst : Value := .object [([109], .null), ([101], .bool true)]

theorem stableStringify_of_two_members :
    (stableStringify enabledFirst = stableStringify modeFirst ↔ Alike enabledFirst modeFirst) ∧
      Document (stableTree enabledFirst) (stableStringify enabledFirst) :=
  stableStringify_eq_iff ⟨by decide, trivial, trivial, trivial⟩ ⟨by decide, trivial, trivial, trivial⟩

end NeonDiff.Review
