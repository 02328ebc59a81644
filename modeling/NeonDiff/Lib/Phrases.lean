import NeonDiff.Lib.Words

/-! # Phrases and words in joined texts

Text parts joined by a separator that the needle does not hold have it where one of the parts has it.
-/

namespace NeonDiff.Lib.Words

variable {needle gap : List Char}

/-! ## The start of a text -/

theorem isPrefixOf_append_cons {c : Char} (hc : c ∉ needle) (cs rest : List Char) :
    needle.isPrefixOf (cs ++ c :: rest) = needle.isPrefixOf cs := by
  induction needle generalizing cs with
  | nil => simp
  | cons n needle ih =>
    obtain ⟨hn, hneedle⟩ := not_or.mp (List.mem_cons.not.mp hc)
    cases cs with
    | nil =>
      rw [List.nil_append, List.isPrefixOf_cons_cons, beq_false_of_ne (Ne.symm hn), Bool.false_and]
      rfl
    | cons d cs => rw [List.cons_append, List.isPrefixOf_cons_cons, List.isPrefixOf_cons_cons, ih hneedle]

theorem isPrefixOf_cons_of_ne {n g : Char} (h : n ≠ g) (needle cs : List Char) :
    (n :: needle).isPrefixOf (g :: cs) = false := by
  rw [List.isPrefixOf_cons_cons, beq_false_of_ne h, Bool.false_and]

/-! ## Phrases -/

theorem includes_cons (c : Char) (cs : List Char) :
    includes needle (c :: cs) = (needle.isPrefixOf (c :: cs) || includes needle cs) := rfl

theorem includes_append_cons {c : Char} (hc : c ∉ needle) (cs rest : List Char) :
    includes needle (cs ++ c :: rest) = (includes needle cs || includes needle rest) := by
  induction cs with
  | nil =>
    have hstart := isPrefixOf_append_cons hc [] rest
    rw [List.nil_append] at hstart ⊢
    rw [includes_cons, hstart]
    cases needle <;> rfl
  | cons d cs ih =>
    have hstart := isPrefixOf_append_cons hc (d :: cs) rest
    rw [List.cons_append] at hstart ⊢
    rw [includes_cons, includes_cons, hstart, ih, Bool.or_assoc]

theorem includes_iff {cs : List Char} : includes needle cs = true ↔ needle <:+: cs := by
  induction cs with
  | nil => simp [includes]
  | cons c cs ih =>
    rw [includes_cons, Bool.or_eq_true, ih, List.infix_cons_iff, List.isPrefixOf_iff_prefix]

theorem includes_reverse (cs : List Char) : includes needle.reverse cs.reverse = includes needle cs := by
  apply Bool.eq_iff_iff.mpr
  rw [includes_iff, includes_iff, List.reverse_infix]

theorem includes_gap_append {n : Char} (h : n ∉ gap) (needle cs : List Char) :
    includes (n :: needle) (gap ++ cs) = includes (n :: needle) cs := by
  induction gap with
  | nil => rfl
  | cons g gap ih =>
    obtain ⟨hg, hgap⟩ := not_or.mp (List.mem_cons.not.mp h)
    rw [List.cons_append, includes_cons, isPrefixOf_cons_of_ne hg, Bool.false_or, ih hgap]

theorem includes_append_gap {n : Char} (h : n ∉ gap) (needle cs : List Char) :
    includes (needle ++ [n]) (cs ++ gap) = includes (needle ++ [n]) cs := by
  rw [← includes_reverse, ← @includes_reverse (needle ++ [n]), List.reverse_append, List.reverse_append]
  exact includes_gap_append (by rwa [List.mem_reverse]) _ _

/-! ## Words -/

theorem includesWord_cons (keep : Char → Bool) (start : Bool) (c : Char) (cs : List Char) :
    includesWord keep needle start (c :: cs) =
      ((start && needle.isPrefixOf (c :: cs) && !((c :: cs).drop needle.length).head?.any keep) ||
        includesWord keep needle (!keep c) cs) := rfl

section

variable {keep : Char → Bool} (hword : ∀ c ∈ needle, keep c = true) (hne : needle ≠ [])
include hword hne

theorem includesWord_append_cons {c : Char} (hc : keep c = false) (start : Bool) (cs rest : List Char) :
    includesWord keep needle start (cs ++ c :: rest) =
      (includesWord keep needle start cs || includesWord keep needle true rest) := by
  have hnot : c ∉ needle := by
    intro hmem
    rw [hword c hmem] at hc
    cases hc
  have hempty : needle.isEmpty = false := by simpa using hne
  induction cs generalizing start with
  | nil =>
    have hstart := isPrefixOf_append_cons hnot [] rest
    rw [List.nil_append] at hstart ⊢
    rw [includesWord_cons, hstart, hc]
    cases needle with
    | nil => exact absurd rfl hne
    | cons n needle => simp [includesWord]
  | cons d cs ih =>
    have hstart := isPrefixOf_append_cons hnot (d :: cs) rest
    rw [List.cons_append] at hstart ⊢
    rw [includesWord_cons, includesWord_cons, hstart, ih]
    cases hpart : needle.isPrefixOf (d :: cs) with
    | false => simp
    | true =>
      have hlength : needle.length ≤ (d :: cs).length := (List.isPrefixOf_iff_prefix.mp hpart).length_le
      have hnext : ((d :: (cs ++ c :: rest)).drop needle.length).head?.any keep =
          ((d :: cs).drop needle.length).head?.any keep := by
        rw [← List.cons_append, List.drop_append_of_le_length hlength]
        cases (d :: cs).drop needle.length with
        | nil => simp [hc]
        | cons e es => rfl
      rw [hnext, Bool.or_assoc]

theorem includesWord_gap (h : ∀ c ∈ gap, keep c = false) (start : Bool) :
    includesWord keep needle start gap = false := by
  have hempty : needle.isEmpty = false := by simpa using hne
  induction gap generalizing start with
  | nil => simp [includesWord, hempty]
  | cons g gap ih =>
    have hcons := includesWord_append_cons hword hne (h g List.mem_cons_self) start [] gap
    rw [List.nil_append] at hcons
    rw [hcons, ih (fun c hc => h c (List.mem_cons_of_mem g hc))]
    simp [includesWord, hempty]

theorem includesWord_gap_append (h : ∀ c ∈ gap, keep c = false) (cs : List Char) :
    includesWord keep needle true (gap ++ cs) = includesWord keep needle true cs := by
  have hempty : needle.isEmpty = false := by simpa using hne
  induction gap with
  | nil => rfl
  | cons g gap ih =>
    have hcons := includesWord_append_cons hword hne (h g List.mem_cons_self) true [] (gap ++ cs)
    rw [List.nil_append] at hcons
    rw [List.cons_append, hcons, ih (fun c hc => h c (List.mem_cons_of_mem g hc))]
    simp [includesWord, hempty]

theorem includesWord_append_gap (h : ∀ c ∈ gap, keep c = false) (start : Bool) (cs : List Char) :
    includesWord keep needle start (cs ++ gap) = includesWord keep needle start cs := by
  cases gap with
  | nil => rw [List.append_nil]
  | cons g gap =>
    rw [includesWord_append_cons hword hne (h g List.mem_cons_self),
      includesWord_gap hword hne fun c hc => h c (List.mem_cons_of_mem g hc), Bool.or_false]

end

end NeonDiff.Lib.Words
