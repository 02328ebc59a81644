import NeonDiff.Lib.JsonDocuments

/-! # `JSON.parse`, and the checks as properties of documents -/

namespace NeonDiff.Lib.JsonText

/-! ## No checks -/

def unchecked : Checks := ⟨none, false, false⟩

mutual

theorem Tree.meets_unchecked (depth : Nat) : (v : Tree) → v.Meets unchecked depth
  | .null => trivial
  | .bool _ => trivial
  | .number _ => trivial
  | .string _ => fun h => nomatch h
  | .array vs => ⟨rfl, elementsMeet_unchecked (depth + 1) vs⟩
  | .object ms => ⟨rfl, membersMeet_unchecked (depth + 1) [] ms⟩

theorem elementsMeet_unchecked (depth : Nat) : (vs : List Tree) → ElementsMeet unchecked depth vs
  | [] => trivial
  | v :: vs => ⟨v.meets_unchecked depth, elementsMeet_unchecked depth vs⟩

theorem membersMeet_unchecked (depth : Nat) (keys : List Units) :
    (ms : List (Units × Tree)) → MembersMeet unchecked depth keys ms
  | [] => trivial
  | (key, v) :: ms =>
    ⟨fun h => (nomatch h), fun h => (nomatch h), v.meets_unchecked depth, membersMeet_unchecked depth (key :: keys) ms⟩

end

/-- What `JSON.parse` reads; it throws on other texts. -/
def read (text : Units) : Option Tree := (readDocument unchecked text).toOption

theorem read_eq_some {text : Units} {v : Tree} : read text = some v ↔ Document v text := by
  have hok := @readDocument_eq_ok unchecked text v
  unfold read
  cases hread : readDocument unchecked text with
  | ok w =>
    rw [hread] at hok
    rw [Except.toOption, Option.some.injEq, ← Except.ok.injEq (ε := Failure), hok]
    exact ⟨And.left, fun h => ⟨h, v.meets_unchecked 0⟩⟩
  | error e =>
    rw [hread] at hok
    constructor
    · exact fun h => nomatch h
    · intro h
      cases hok.mpr ⟨h, v.meets_unchecked 0⟩

theorem Document.unique {text : Units} {v w : Tree} (hv : Document v text) (hw : Document w text) : v = w := by
  rw [← read_eq_some] at hv hw
  rw [hv] at hw
  exact Option.some.inj hw

/-! ## All checks -/

/-- At most `limit` arrays and objects in each other, no name twice, and no lone surrogate. -/
def strict (limit : Nat) : Checks := ⟨some limit, true, true⟩

/-- What nests `nested` deep fits inside `depth` others. -/
def Fits (limit depth nested : Nat) : Prop := nested = 0 ∨ depth + nested ≤ limit

theorem fits_max {limit depth a b : Nat} : Fits limit depth (max a b) ↔ Fits limit depth a ∧ Fits limit depth b := by
  unfold Fits
  rcases Nat.le_total a b with h | h
  · rw [Nat.max_eq_right h]
    omega
  · rw [Nat.max_eq_left h]
    omega

theorem tooDeep_strict {limit depth : Nat} : (strict limit).tooDeep depth = false ↔ depth < limit := by
  unfold Checks.tooDeep strict
  rw [Option.any_some, decide_eq_false_iff_not, Nat.not_le]

theorem fits_nested {limit depth nested : Nat} :
    depth < limit ∧ Fits limit (depth + 1) nested ↔ Fits limit depth (1 + nested) := by
  unfold Fits
  omega

theorem stringMeets_strict {limit : Nat} {s : Units} : (strict limit).StringMeets s ↔ WellFormed s :=
  ⟨fun h => h rfl, fun h _ => h⟩

mutual

theorem Tree.meets_strict (limit depth : Nat) : (v : Tree) →
    (v.Meets (strict limit) depth ↔ Fits limit depth v.depth ∧ v.KeysUnique ∧ v.StringsWellFormed)
  | .null => by simp [Tree.Meets, Fits, Tree.depth, Tree.KeysUnique, Tree.StringsWellFormed]
  | .bool _ => by simp [Tree.Meets, Fits, Tree.depth, Tree.KeysUnique, Tree.StringsWellFormed]
  | .number _ => by simp [Tree.Meets, Fits, Tree.depth, Tree.KeysUnique, Tree.StringsWellFormed]
  | .string s => by
    simp [Tree.Meets, Fits, Tree.depth, Tree.KeysUnique, Tree.StringsWellFormed, stringMeets_strict]
  | .array vs => by
    rw [Tree.Meets, Tree.depth, Tree.KeysUnique, Tree.StringsWellFormed, tooDeep_strict, elementsMeet_strict,
      ← and_assoc, fits_nested]
  | .object ms => by
    rw [Tree.Meets, Tree.depth, Tree.KeysUnique, Tree.StringsWellFormed, tooDeep_strict, membersMeet_strict,
      ← and_assoc, fits_nested, and_assoc]
    simp

theorem elementsMeet_strict (limit depth : Nat) : (vs : List Tree) →
    (ElementsMeet (strict limit) depth vs ↔
      Fits limit depth (elementsDepth vs) ∧ ElementsUnique vs ∧ ElementsWellFormed vs)
  | [] => by simp [ElementsMeet, Fits, elementsDepth, ElementsUnique, ElementsWellFormed]
  | v :: vs => by
    rw [ElementsMeet, elementsDepth, ElementsUnique, ElementsWellFormed, Tree.meets_strict, elementsMeet_strict]
    have hmax := @fits_max limit depth v.depth (elementsDepth vs)
    rw [hmax]
    tauto

theorem membersMeet_strict (limit depth : Nat) (keys : List Units) : (ms : List (Units × Tree)) →
    (MembersMeet (strict limit) depth keys ms ↔ Fits limit depth (membersDepth ms) ∧
      ((∀ key ∈ ms.map Prod.fst, key ∉ keys) ∧ (ms.map Prod.fst).Nodup ∧ MembersUnique ms) ∧ MembersWellFormed ms)
  | [] => by simp [MembersMeet, Fits, membersDepth, MembersUnique, MembersWellFormed]
  | (key, v) :: ms => by
    rw [MembersMeet, membersDepth, MembersUnique, MembersWellFormed, Tree.meets_strict, membersMeet_strict,
      stringMeets_strict]
    have hmax := @fits_max limit depth v.depth (membersDepth ms)
    have hunique : (strict limit).uniqueKeys = true := rfl
    have hfresh : (∀ name ∈ ms.map Prod.fst, name ∉ key :: keys) ↔
        key ∉ ms.map Prod.fst ∧ ∀ name ∈ ms.map Prod.fst, name ∉ keys := by
      constructor
      · intro h
        exact ⟨fun hkey => h key hkey List.mem_cons_self, fun name hname hmem => h name hname (List.mem_cons_of_mem _ hmem)⟩
      · rintro ⟨hkey, h⟩ name hname hmem
        rcases List.mem_cons.mp hmem with rfl | hmem
        · exact hkey hname
        · exact h name hname hmem
    rw [hmax, hfresh, hunique, List.map_cons, List.nodup_cons, List.forall_mem_cons]
    tauto

end

theorem readDocument_strict {limit : Nat} {text : Units} {v : Tree} :
    readDocument (strict limit) text = .ok v ↔
      Document v text ∧ v.depth ≤ limit ∧ v.KeysUnique ∧ v.StringsWellFormed := by
  have hfits : Fits limit 0 v.depth ↔ v.depth ≤ limit := by
    unfold Fits
    omega
  rw [readDocument_eq_ok, Tree.meets_strict, hfits]

end NeonDiff.Lib.JsonText
