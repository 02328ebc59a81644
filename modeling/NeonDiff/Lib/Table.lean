import Mathlib.Data.List.Nodup
import Mathlib.Data.List.Perm.Basic

/-! # Tables with a primary key

Rows stand in insertion order, and the key of a row is unique by construction.
-/

namespace NeonDiff.Lib

universe u v

@[ext]
structure Table {κ : Type u} {ρ : Type v} (key : ρ → κ) where
  rows : List ρ
  nodup : (rows.map key).Nodup

namespace Table

variable {κ : Type u} {ρ : Type v} {key : ρ → κ}

def empty : Table key := ⟨[], List.nodup_nil⟩

instance : Inhabited (Table key) := ⟨empty⟩

theorem eq_of_key_eq (t : Table key) {r s : ρ} (hr : r ∈ t.rows) (hs : s ∈ t.rows) (h : key r = key s) :
    r = s :=
  List.inj_on_of_nodup_map t.nodup hr hs h

/-! ## Deleting and rewriting rows -/

/-- `delete from t where p`. -/
def delete (t : Table key) (p : ρ → Bool) : Table key where
  rows := t.rows.filter fun r => !p r
  nodup := t.nodup.sublist (List.filter_sublist.map key)

/-- `update t set f`, for an `f` that leaves the key alone. -/
def update (t : Table key) (f : ρ → ρ) (hf : ∀ r, key (f r) = key r) : Table key where
  rows := t.rows.map f
  nodup := by
    rw [List.map_map, show key ∘ f = key from funext hf]
    exact t.nodup

theorem mem_delete {t : Table key} {p : ρ → Bool} {r : ρ} :
    r ∈ (t.delete p).rows ↔ r ∈ t.rows ∧ p r = false := by
  simp [delete]

theorem mem_update {t : Table key} {f : ρ → ρ} (hf : ∀ r, key (f r) = key r) {r : ρ} :
    r ∈ (t.update f hf).rows ↔ ∃ s ∈ t.rows, f s = r := by
  simp [update]

/-! ## Counting rows by their keys -/

theorem countP_update (t : Table key) (f : ρ → ρ) (hf : ∀ r, key (f r) = key r) (p : κ → Bool) :
    (t.update f hf).rows.countP (fun r => p (key r)) = t.rows.countP fun r => p (key r) := by
  simp only [update, List.countP_map, Function.comp_def, hf]

theorem countP_delete_le (t : Table key) (q : ρ → Bool) (p : κ → Bool) :
    (t.delete q).rows.countP (fun r => p (key r)) ≤ t.rows.countP fun r => p (key r) :=
  List.filter_sublist.countP_le

/-! ## Reading by key -/

variable [DecidableEq κ]

/-- `select * from t where key = k`. -/
def find? (t : Table key) (k : κ) : Option ρ := t.rows.find? fun r => key r = k

theorem find?_eq_some {t : Table key} {k : κ} {r : ρ} :
    t.find? k = some r ↔ r ∈ t.rows ∧ key r = k := by
  constructor
  · intro h
    exact ⟨List.mem_of_find?_eq_some h, by simpa using List.find?_some h⟩
  · rintro ⟨hm, hk⟩
    cases hf : t.find? k with
    | none =>
      have := List.find?_eq_none.mp hf r hm
      simp [hk] at this
    | some s =>
      have hs := List.mem_of_find?_eq_some hf
      have hks : key s = k := by simpa using List.find?_some hf
      rw [t.eq_of_key_eq hs hm (hks.trans hk.symm)]

theorem find?_eq_none {t : Table key} {k : κ} : t.find? k = none ↔ ∀ r ∈ t.rows, key r ≠ k := by
  simp [find?, List.find?_eq_none]

theorem key_of_find? {t : Table key} {k : κ} {r : ρ} (h : t.find? k = some r) : key r = k :=
  (find?_eq_some.mp h).2

theorem mem_of_find? {t : Table key} {k : κ} {r : ρ} (h : t.find? k = some r) : r ∈ t.rows :=
  (find?_eq_some.mp h).1

theorem find?_congr {t t' : Table key} {k : κ}
    (h : ∀ r, key r = k → (r ∈ t'.rows ↔ r ∈ t.rows)) : t'.find? k = t.find? k := by
  cases hf : t.find? k with
  | none =>
    rw [find?_eq_none] at hf ⊢
    exact fun r hr hk => hf r ((h r hk).mp hr) hk
  | some s =>
    rw [find?_eq_some] at hf ⊢
    exact ⟨(h s hf.2).mpr hf.1, hf.2⟩

@[simp] theorem find?_empty (k : κ) : (empty : Table key).find? k = none := rfl

theorem find?_delete (t : Table key) (p : ρ → Bool) (k : κ) :
    (t.delete p).find? k = (t.find? k).filter fun r => !p r := by
  cases hf : t.find? k with
  | none =>
    rw [find?_eq_none] at hf
    simp only [Option.filter_none, find?_eq_none, mem_delete]
    exact fun r hr => hf r hr.1
  | some s =>
    rw [find?_eq_some] at hf
    cases hp : p s with
    | false =>
      simp only [Option.filter_some, hp, Bool.not_false, if_true, find?_eq_some, mem_delete]
      exact ⟨⟨hf.1, trivial⟩, hf.2⟩
    | true =>
      simp only [Option.filter_some, hp, Bool.not_true, Bool.false_eq_true, if_false, find?_eq_none,
        mem_delete]
      rintro r ⟨hr, hpr⟩ hk
      rw [t.eq_of_key_eq hr hf.1 (hk.trans hf.2.symm), hp] at hpr
      exact Bool.noConfusion hpr

theorem find?_update (t : Table key) (f : ρ → ρ) (hf : ∀ r, key (f r) = key r) (k : κ) :
    (t.update f hf).find? k = (t.find? k).map f := by
  cases hs : t.find? k with
  | none =>
    rw [find?_eq_none] at hs
    rw [Option.map_none, find?_eq_none]
    rintro r hr hk
    obtain ⟨s, hm, rfl⟩ := (mem_update hf).mp hr
    exact hs s hm ((hf s).symm.trans hk)
  | some s =>
    rw [find?_eq_some] at hs
    rw [Option.map_some, find?_eq_some]
    exact ⟨(mem_update hf).mpr ⟨s, hs.1, rfl⟩, (hf s).trans hs.2⟩

/-! ## Inserting rows -/

/-- `insert into t`, where the key is free. -/
def append (t : Table key) (r : ρ) (h : t.find? (key r) = none) : Table key where
  rows := t.rows ++ [r]
  nodup := by
    rw [List.map_append, List.map_singleton, List.nodup_append]
    refine ⟨t.nodup, List.nodup_singleton _, ?_⟩
    intro a ha b hb hab
    obtain ⟨s, hs, rfl⟩ := List.mem_map.mp ha
    rw [List.mem_singleton] at hb
    exact find?_eq_none.mp h s hs (hab.trans hb)

/-- `insert into t`: a taken key is a constraint violation. -/
def insert? (t : Table key) (r : ρ) : Option (Table key) :=
  if h : t.find? (key r) = none then some (t.append r h) else none

/-- `insert into t ... on conflict(key) do update`: a row under the same key keeps its place. -/
def upsert (t : Table key) (r : ρ) : Table key :=
  if h : t.find? (key r) = none then t.append r h
  else t.update (fun s => if key s = key r then r else s) fun s => by
    by_cases hs : key s = key r
    · simp [hs]
    · simp [hs]

/-- `insert or replace into t`: a row under the same key loses its place. -/
def replace (t : Table key) (r : ρ) : Table key :=
  (t.delete fun s => key s = key r).append r (by simp [find?_delete, Option.filter_eq_none_iff, find?_eq_some])

theorem mem_replace {t : Table key} {r s : ρ} : s ∈ (t.replace r).rows ↔ (s ∈ t.rows ∧ key s ≠ key r) ∨ s = r := by
  simp [replace, append, delete]

theorem find?_append (t : Table key) (r : ρ) (h : t.find? (key r) = none) (k : κ) :
    (t.append r h).find? k = if key r = k then some r else t.find? k := by
  by_cases hk : key r = k
  · rw [if_pos hk, find?_eq_some]
    exact ⟨by simp [append], hk⟩
  · rw [if_neg hk]
    apply find?_congr
    intro s hs
    have : s ≠ r := fun he => hk (he ▸ hs)
    simp [append, this]

theorem insert?_eq_some {t t' : Table key} {r : ρ} :
    t.insert? r = some t' ↔ ∃ h : t.find? (key r) = none, t' = t.append r h := by
  unfold insert?
  split
  · rename_i h
    simp only [Option.some.injEq, exists_prop_of_true h]
    exact eq_comm
  · rename_i h
    simp [h]

theorem find?_upsert (t : Table key) (r : ρ) (k : κ) :
    (t.upsert r).find? k = if key r = k then some r else t.find? k := by
  unfold upsert
  split
  · exact find?_append t r _ k
  · rename_i h
    rw [find?_update]
    by_cases hk : key r = k
    · subst hk
      obtain ⟨s, hs⟩ := Option.ne_none_iff_exists'.mp h
      simp [hs, key_of_find? hs]
    · rw [if_neg hk]
      cases hs : t.find? k with
      | none => rfl
      | some s =>
        have : key s ≠ key r := fun he => hk (he.symm.trans (key_of_find? hs))
        simp [this]

theorem mem_upsert {t : Table key} {r s : ρ} : s ∈ (t.upsert r).rows ↔ (s ∈ t.rows ∧ key s ≠ key r) ∨ s = r := by
  constructor
  · intro hs
    have hfind : (t.upsert r).find? (key s) = some s := find?_eq_some.mpr ⟨hs, rfl⟩
    rw [find?_upsert] at hfind
    split at hfind
    · exact Or.inr (Option.some.inj hfind).symm
    · rename_i hne
      exact Or.inl ⟨mem_of_find? hfind, fun he => hne he.symm⟩
  · intro hs
    apply @mem_of_find? _ _ key _ _ (key s)
    rw [find?_upsert]
    rcases hs with ⟨hs, hne⟩ | rfl
    · rw [if_neg fun he => hne he.symm]
      exact find?_eq_some.mpr ⟨hs, rfl⟩
    · rw [if_pos rfl]

theorem filter_upsert (t : Table key) (r : ρ) :
    ((t.upsert r).rows.filter fun s => key s ≠ key r) = t.rows.filter fun s => key s ≠ key r := by
  unfold upsert
  split
  · simp [append]
  · have hmap : ∀ rows : List ρ, ((rows.map fun s => if key s = key r then r else s).filter fun s => key s ≠ key r) =
        rows.filter fun s => key s ≠ key r := by
      intro rows
      induction rows with
      | nil => rfl
      | cons s rows ih =>
        rw [List.map_cons, List.filter_cons, List.filter_cons, ih]
        by_cases hs : key s = key r
        · simp [hs]
        · simp [hs]
    exact hmap t.rows

theorem countP_upsert (t : Table key) (r : ρ) (p : κ → Bool) :
    (t.upsert r).rows.countP (fun s => p (key s)) =
      t.rows.countP (fun s => p (key s)) + if t.find? (key r) = none ∧ p (key r) = true then 1 else 0 := by
  unfold upsert
  split
  · rename_i hnone
    simp [append, List.countP_append, List.countP_singleton, hnone]
  · rename_i hsome
    rw [countP_update, if_neg fun h => hsome h.1]
    rfl

theorem length_filter_key_le (t : Table key) (k : κ) : (t.rows.filter fun s => key s = k).length ≤ 1 := by
  have hnodup : (t.rows.filter fun s => key s = k).Nodup := (List.Nodup.of_map key t.nodup).filter _
  cases hrows : t.rows.filter fun s => key s = k with
  | nil => simp
  | cons a rest =>
    cases rest with
    | nil => simp
    | cons b rest =>
      rw [hrows] at hnodup
      have hmem : ∀ s ∈ a :: b :: rest, s ∈ t.rows ∧ key s = k := by
        intro s hs
        rw [← hrows, List.mem_filter, decide_eq_true_eq] at hs
        exact hs
      have ha := hmem a List.mem_cons_self
      have hb := hmem b (List.mem_cons_of_mem a List.mem_cons_self)
      have hab := t.eq_of_key_eq ha.1 hb.1 (ha.2.trans hb.2.symm)
      simp [hab] at hnodup

theorem find?_replace (t : Table key) (r : ρ) (k : κ) :
    (t.replace r).find? k = if key r = k then some r else t.find? k := by
  unfold replace
  rw [find?_append]
  by_cases hk : key r = k
  · rw [if_pos hk, if_pos hk]
  · rw [if_neg hk, if_neg hk, find?_delete]
    cases hs : t.find? k with
    | none => rfl
    | some s =>
      have : key s ≠ key r := fun he => hk (he.symm.trans (key_of_find? hs))
      simp [this]

end Table

/-! ## Rows rewritten one by one -/

/-- Every row stays, or becomes in its place what `P` says. -/
def Rewritten {ρ : Type v} (P : ρ → ρ → Prop) (rows rows' : List ρ) : Prop :=
  ∃ f, rows' = rows.map f ∧ ∀ r ∈ rows, f r = r ∨ P r (f r)

namespace Rewritten

variable {ρ : Type v} {P Q : ρ → ρ → Prop} {rows rows' rows'' : List ρ}

theorem refl (rows : List ρ) : Rewritten P rows rows := ⟨id, rows.map_id.symm, fun _ _ => .inl rfl⟩

theorem mono (hPQ : ∀ r r', P r r' → Q r r') (h : Rewritten P rows rows') : Rewritten Q rows rows' := by
  obtain ⟨f, hf, hrows⟩ := h
  exact ⟨f, hf, fun r hr => (hrows r hr).imp_right (hPQ r _)⟩

theorem trans (hP : ∀ q r s, P q r → P r s → P q s) (h : Rewritten P rows rows') (h' : Rewritten P rows' rows'') :
    Rewritten P rows rows'' := by
  obtain ⟨f, rfl, hf⟩ := h
  obtain ⟨g, rfl, hg⟩ := h'
  refine ⟨g ∘ f, List.map_map, ?_⟩
  intro r hr
  rw [Function.comp_apply]
  rcases hg (f r) (List.mem_map_of_mem hr) with hsame | hchanged
  · rw [hsame]
    exact hf r hr
  · rcases hf r hr with hsame | hbefore
    · rw [hsame] at hchanged ⊢
      exact .inr hchanged
    · exact .inr (hP _ _ _ hbefore hchanged)

theorem before (h : Rewritten P rows rows') {r' : ρ} (hr' : r' ∈ rows') : ∃ r ∈ rows, r' = r ∨ P r r' := by
  obtain ⟨f, rfl, hf⟩ := h
  obtain ⟨r, hr, rfl⟩ := List.mem_map.mp hr'
  exact ⟨r, hr, hf r hr⟩

theorem after (h : Rewritten P rows rows') {r : ρ} (hr : r ∈ rows) : r ∈ rows' ∨ ∃ r' ∈ rows', P r r' := by
  obtain ⟨f, rfl, hf⟩ := h
  have hmem : f r ∈ rows.map f := List.mem_map_of_mem hr
  rcases hf r hr with hsame | hchanged
  · exact .inl (hsame ▸ hmem)
  · exact .inr ⟨f r, hmem, hchanged⟩

theorem stays (h : Rewritten P rows rows') {r : ρ} (hr : r ∈ rows) (hP : ∀ r', ¬P r r') : r ∈ rows' := by
  rcases h.after hr with hr' | ⟨r', -, hchanged⟩
  · exact hr'
  · exact absurd hchanged (hP r')

theorem mem_iff (h : Rewritten P rows rows') {r : ρ} (hafter : ∀ r', ¬P r r') (hbefore : ∀ r', ¬P r' r) :
    r ∈ rows' ↔ r ∈ rows := by
  constructor
  · intro hr
    obtain ⟨q, hq, rfl | hchanged⟩ := h.before hr
    · exact hq
    · exact absurd hchanged (hbefore q)
  · intro hr
    exact h.stays hr hafter

theorem countP_le {p : ρ → Bool} (h : Rewritten P rows rows') (hp : ∀ r r', P r r' → p r' = true → p r = true) :
    rows'.countP p ≤ rows.countP p := by
  obtain ⟨f, rfl, hf⟩ := h
  rw [List.countP_map]
  refine List.countP_mono_left ?_
  intro r hr hafter
  rw [Function.comp_apply] at hafter
  rcases hf r hr with hsame | hchanged
  · rwa [hsame] at hafter
  · exact hp r _ hchanged hafter

end Rewritten

end NeonDiff.Lib
