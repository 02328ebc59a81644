import NeonDiff.Store.Changes

/-! # Carried skips

A row with the error `base_merge_only` says that the review of an older head covers this one.
-/

namespace NeonDiff.Store

open NeonDiff.Lib

/-! ## The latest posted review -/

namespace Stamp

theorem textLt_iso (a b : Int) : (iso a).textLt (iso b) = true ↔ a < b := decide_eq_true_iff

theorem textLt_sqlite (a b : Int) : (sqlite a).textLt (sqlite b) = true ↔ a < b := decide_eq_true_iff

theorem textLt_sqlite_iso (a b : Int) : (sqlite a).textLt (iso b) = true ↔ a / 86400 ≤ b / 1000 / 86400 :=
  decide_eq_true_iff

theorem textLt_iso_sqlite (a b : Int) : (iso a).textLt (sqlite b) = true ↔ a / 1000 / 86400 < b / 86400 :=
  decide_eq_true_iff

theorem not_textLt_of_textLt {a b : Stamp} (h : a.textLt b = true) : ¬b.textLt a = true := by
  cases a <;> cases b <;>
    simp only [textLt_iso, textLt_sqlite, textLt_sqlite_iso, textLt_iso_sqlite] at h ⊢ <;> omega

theorem not_textLt_self (a : Stamp) : ¬a.textLt a = true := fun h => not_textLt_of_textLt h h

theorem not_textLt_trans {a b c : Stamp} (hab : ¬b.textLt a = true) (hbc : ¬c.textLt b = true) :
    ¬c.textLt a = true := by
  cases a <;> cases b <;> cases c <;>
    simp only [textLt_iso, textLt_sqlite, textLt_sqlite_iso, textLt_iso_sqlite] at hab hbc ⊢ <;> omega

end Stamp

def postedReviews (s : State) (repo : String) (pullNumber : Nat) : List StoredProcessedReviewRecord :=
  s.processed.rows.filter fun r => r.head.repo = repo && r.head.pullNumber = pullNumber && r.status = .posted

/-- The last in the order of `created_at` and, for equal times, of the rows. -/
def IsLast (rows : List StoredProcessedReviewRecord) (a : StoredProcessedReviewRecord) : Prop :=
  ∃ before behind, rows = before ++ a :: behind ∧
    (∀ r ∈ before, ¬a.createdAt.textLt r.createdAt = true) ∧ ∀ r ∈ behind, r.createdAt.textLt a.createdAt = true

theorem isLast_of_foldl {rows : List StoredProcessedReviewRecord} {a : StoredProcessedReviewRecord}
    (h : rows.foldl (fun best r =>
      match best with
      | none => some r
      | some b => if r.createdAt.textLt b.createdAt then some b else some r) none = some a) : IsLast rows a := by
  induction rows using List.reverseRecOn generalizing a with
  | nil => cases h
  | append_singleton rows r ih =>
    rw [List.foldl_concat] at h
    cases hbest : rows.foldl (fun best r =>
        match best with
        | none => some r
        | some b => if r.createdAt.textLt b.createdAt then some b else some r) none with
    | none =>
      rw [hbest] at h
      obtain rfl := Option.some.inj h
      have hnil : rows = [] := by
        rcases List.eq_nil_or_concat rows with hnil | ⟨front, x, hfront⟩
        · exact hnil
        · rw [hfront, List.concat_eq_append, List.foldl_concat] at hbest
          split at hbest
          · cases hbest
          · split at hbest <;> cases hbest
      exact ⟨[], [], by rw [hnil, List.nil_append], by simp, by simp⟩
    | some b =>
      rw [hbest] at h
      obtain ⟨before, behind, hrows, hbefore, hbehind⟩ := ih hbest
      dsimp only at h
      split at h
      · rename_i hlt
        obtain rfl := Option.some.inj h
        refine ⟨before, behind ++ [r], by rw [hrows, List.append_assoc]; rfl, hbefore, ?_⟩
        intro x hx
        rcases List.mem_append.mp hx with hx | hx
        · exact hbehind x hx
        · obtain rfl := List.mem_singleton.mp hx
          exact hlt
      · rename_i hnlt
        obtain rfl := Option.some.inj h
        refine ⟨rows, [], rfl, ?_, by simp⟩
        intro x hx
        have hbx : ¬b.createdAt.textLt x.createdAt = true := by
          rw [hrows] at hx
          rcases List.mem_append.mp hx with hx | hx
          · exact hbefore x hx
          · rcases List.mem_cons.mp hx with rfl | hx
            · exact Stamp.not_textLt_self x.createdAt
            · exact Stamp.not_textLt_of_textLt (hbehind x hx)
        exact Stamp.not_textLt_trans hbx hnlt

/-- A posted review that a skip may refer to: it has its URL and its fingerprint, and no disqualifying error. -/
structure Anchors (s : State) (repo : String) (pullNumber : Nat) (a : StoredProcessedReviewRecord) : Prop where
  latest : IsLast (postedReviews s repo pullNumber) a
  url : a.reviewUrl.isSome = true
  fingerprint : a.diffFingerprint.isSome = true
  error : a.error = none ∨ a.error = some REVIEW_POSTED_HEAD_CHANGED_ERROR

theorem anchors_of_getBaseMergeOnlyAnchor {s : State} {repo : String} {pullNumber : Nat}
    {a : StoredProcessedReviewRecord} (h : getBaseMergeOnlyAnchor s repo pullNumber = some a) :
    ∃ row, Anchors s repo pullNumber row ∧ a = mapProcessedReviewRow row := by
  unfold getBaseMergeOnlyAnchor at h
  dsimp only at h
  obtain ⟨row, hrow, hchecked⟩ := Option.bind_eq_some_iff.mp h
  split at hchecked
  · cases hchecked
  · rename_i hchecks
    obtain rfl := Option.some.inj hchecked
    simp only [Bool.or_eq_true, not_or, Bool.and_eq_true, not_and, decide_eq_true_eq, ne_eq, not_not,
      Option.isNone_iff_eq_none] at hchecks
    obtain ⟨⟨hurl, hfingerprint⟩, herror⟩ := hchecks
    refine ⟨row, ⟨isLast_of_foldl hrow, ?_, ?_, ?_⟩, rfl⟩
    · exact Option.isSome_iff_ne_none.mpr hurl
    · exact Option.isSome_iff_ne_none.mpr hfingerprint
    · cases he : row.error with
      | none => exact .inl rfl
      | some e =>
        right
        rw [← he]
        exact herror (by rw [he]; rfl)

/-! ## One call -/

/-- The moment at which a skip is carried over: an anchor, no finished row in its place, and no claim. -/
structure SoundCarry (s : State) (now : Int) (row : StoredProcessedReviewRecord) : Prop where
  anchor : ∃ a, Anchors s row.head.repo row.head.pullNumber a ∧ row.carriedFromHead = some a.head.headSha
  replaced : ∀ old, s.processed.find? row.head = some old →
    old.status ≠ .posted ∧ old.status ≠ .dryRun ∧ isRetryableRow (mapProcessedReviewRow old) = true
  unclaimed : liveClaim s row.head now = none

/-- How a call can write a row with the error `base_merge_only`. -/
inductive WritesCarry (s : State) (now : Int) (row : StoredProcessedReviewRecord) : StoreCall → Prop where
  | skip (record : ProcessedReviewRecord) (head : record.head = row.head) (status : row.status = .skipped)
      (sound : SoundCarry s now row) : WritesCarry s now row (.recordBaseMergeOnlySkip record)
  | generic (record : ProcessedReviewRecord) (head : record.head = row.head) (error : record.error = some baseMergeOnly)
      (unposted : ∀ old, s.processed.find? row.head = some old → old.status ≠ .posted) :
      WritesCarry s now row (.recordProcessed record)

theorem status_of_isRetryableRow {row : StoredProcessedReviewRecord}
    (h : isRetryableRow (mapProcessedReviewRow row) = true) : row.status ≠ .posted ∧ row.status ≠ .dryRun := by
  have hstatus : (mapProcessedReviewRow row).status = row.status := rfl
  unfold isRetryableRow at h
  rw [hstatus] at h
  constructor
  · intro hposted
    simp [hposted] at h
  · intro hdry
    simp [hdry] at h

variable {redactSecrets : String → String} {now : Int} {s s' : State} {row : StoredProcessedReviewRecord} {k : HeadKey}

theorem recordProcessed_keeps_posted {record : ProcessedReviewRecord} (herror : record.error = some baseMergeOnly)
    (hold : s.processed.find? record.head = some row) (hposted : row.status = .posted) (k : HeadKey) :
    (recordProcessed record now s).processed.find? k = s.processed.find? k := by
  unfold recordProcessed
  rw [find?_upsert_recordedRow]
  split
  · rename_i hk
    subst hk
    rw [hold]
    show some (upsertedRow record now row) = some row
    unfold upsertedRow
    rw [if_pos ⟨herror, hposted⟩]
  · rfl

theorem recordProcessed_writes {record : ProcessedReviewRecord}
    (hrow : (recordProcessed record now s).processed.find? k = some row) (herror : row.error = some baseMergeOnly) :
    s.processed.find? k = some row ∨ WritesCarry s now row (.recordProcessed record) := by
  unfold recordProcessed at hrow
  rw [find?_upsert_recordedRow] at hrow
  split at hrow
  · rename_i hk
    subst hk
    cases hold : s.processed.find? record.head with
    | none =>
      rw [hold] at hrow
      obtain rfl := Option.some.inj hrow
      right
      refine .generic record rfl herror ?_
      intro old hfound
      rw [show s.processed.find? record.head = some old from hfound] at hold
      cases hold
    | some old =>
      rw [hold] at hrow
      have hrow : upsertedRow record now old = row := Option.some.inj hrow
      have hhead : old.head = record.head := head_of_find? hold
      unfold upsertedRow at hrow
      split at hrow
      · left
        rw [hrow]
      · rename_i hguard
        subst hrow
        right
        refine .generic record rfl herror ?_
        intro other hother hposted
        obtain rfl : old = other := Option.some.inj (hold.symm.trans hother)
        exact hguard ⟨herror, hposted⟩
  · left
    exact hrow

theorem recordBaseMergeOnlySkip_writes {record : ProcessedReviewRecord}
    (hrow : (recordBaseMergeOnlySkip record now s).2.processed.find? k = some row) :
    s.processed.find? k = some row ∨ WritesCarry s now row (.recordBaseMergeOnlySkip record) := by
  unfold recordBaseMergeOnlySkip at hrow
  split at hrow
  · left
    exact hrow
  rename_i hclaim
  split at hrow
  · left
    exact hrow
  rename_i hretryable
  split at hrow
  · left
    exact hrow
  rename_i anchor hanchor
  split at hrow
  · left
    exact hrow
  rename_i hcarried
  rw [Table.find?_upsert] at hrow
  split at hrow
  · rename_i hk
    obtain rfl : record.head = k := hk
    obtain ⟨a, hanchors, rfl⟩ := anchors_of_getBaseMergeOnlyAnchor hanchor
    obtain rfl := Option.some.inj hrow
    right
    refine .skip record rfl rfl ⟨⟨a, hanchors, ?_⟩, ?_, ?_⟩
    · simp only [Bool.or_eq_true, not_or, decide_eq_true_eq, ne_eq, not_not] at hcarried
      exact hcarried.1
    · intro old hold
      have hread : getProcessedReview s record.head = some (mapProcessedReviewRow old) := by
        rw [getProcessedReview, show s.processed.find? record.head = some old from hold]
        rfl
      rw [hread] at hretryable
      have hok : isRetryableRow (mapProcessedReviewRow old) = true := by simpa using hretryable
      exact ⟨(status_of_isRetryableRow hok).1, (status_of_isRetryableRow hok).2, hok⟩
    · rw [liveClaim_eq_none]
      intro c hc
      rw [show s.claims.find? record.head = some c from hc] at hclaim
      simpa using hclaim
  · left
    exact hrow

theorem tryRecordDryRun_error {input : DryRunInput}
    (hrow : (tryRecordDryRun input now s).2.processed.find? k = some row) :
    s.processed.find? k = some row ∨ row.error = none := by
  unfold tryRecordDryRun at hrow
  dsimp only at hrow
  split at hrow
  · left
    exact hrow
  · rw [Table.find?_replace] at hrow
    split at hrow
    · obtain rfl := Option.some.inj hrow
      right
      rfl
    · left
      exact hrow

theorem carry_step {uuid : String} {call : StoreCall} (hrow : (call.after redactSecrets now uuid s).processed.find? k = some row)
    (herror : row.error = some baseMergeOnly) :
    s.processed.find? k = some row ∨ WritesCarry s now row call := by
  unfold StoreCall.after at hrow
  cases hexec : call.exec redactSecrets now uuid s with
  | error e =>
    rw [hexec] at hrow
    exact .inl hrow
  | ok result =>
    obtain ⟨v, t⟩ := result
    rw [hexec] at hrow
    dsimp only at hrow
    have hchange := rowChange_of_ok hexec k
    obtain ⟨left, hleft⟩ : ∃ left, some row = left := ⟨_, rfl⟩
    rw [hrow, hleft] at hchange
    cases hchange with
    | kept => exact .inl hleft.symm
    | recorded record head =>
      obtain ⟨-, rfl⟩ := Prod.mk.inj (Except.ok.inj hexec)
      exact recordProcessed_writes hrow herror
    | carried record row' head admits status error =>
      obtain ⟨-, rfl⟩ := Prod.mk.inj (Except.ok.inj hexec)
      exact recordBaseMergeOnlySkip_writes hrow
    | dryRun input row' head recorded free admits status revision =>
      obtain ⟨-, rfl⟩ := Prod.mk.inj (Except.ok.inj hexec)
      rcases tryRecordDryRun_error hrow with hsame | hnone
      · exact .inl hsame
      · rw [hnone] at herror
        cases herror
    | cleared reason row' found status error => cases hleft
    | consumed input row' head found ok consumes =>
      obtain rfl := Option.some.inj hleft
      have hsame : APPROVED_DRY_RUN_LIVE_CLAIM_ERROR = baseMergeOnly := Option.some.inj herror
      exact absurd hsame (by decide)
    | authorized input head =>
      left
      cases hold : s.processed.find? k with
      | none =>
        rw [hold] at hleft
        obtain rfl := Option.some.inj hleft
        cases herror
      | some old =>
        rw [hold] at hleft
        have hrow : row = upsertedRow (authorizedPostedRecord input) now old := Option.some.inj hleft
        unfold upsertedRow at hrow
        have hnone : (authorizedPostedRecord input).error ≠ some baseMergeOnly := nofun
        rw [if_neg fun h => hnone h.1] at hrow
        rw [hrow] at herror
        cases herror

/-! ## Runs -/

theorem afterCalls_append (s : State) (calls more : List TimedCall) :
    afterCalls redactSecrets s (calls ++ more) = afterCalls redactSecrets (afterCalls redactSecrets s calls) more := by
  unfold afterCalls
  rw [List.foldl_append]

/-- The call `c` of the run wrote the row under the head `k`, and no later call changed it. -/
structure LastWrite (redactSecrets : String → String) (pre : List TimedCall) (c : TimedCall) (post : List TimedCall)
    (k : HeadKey) (row : StoredProcessedReviewRecord) : Prop where
  kept : ∀ mid, mid <+: post →
    (afterCalls redactSecrets {} (pre ++ c :: mid)).processed.find? k = some row
  writes : WritesCarry (afterCalls redactSecrets {} pre) c.now row c.call

theorem LastWrite.concat {pre : List TimedCall} {c : TimedCall} {post : List TimedCall} (d : TimedCall)
    (h : LastWrite redactSecrets pre c post k row)
    (hkept : (afterCalls redactSecrets {} (pre ++ c :: (post ++ [d]))).processed.find? k = some row) :
    LastWrite redactSecrets pre c (post ++ [d]) k row := by
  refine ⟨?_, h.writes⟩
  intro mid hmid
  rcases List.prefix_concat_iff.mp hmid with rfl | hmid
  · exact hkept
  · exact h.kept mid hmid

theorem exists_lastWrite {calls : List TimedCall} (herror : row.error = some baseMergeOnly)
    (hrow : (afterCalls redactSecrets {} calls).processed.find? k = some row) :
    ∃ pre c post, calls = pre ++ c :: post ∧ LastWrite redactSecrets pre c post k row := by
  induction calls using List.reverseRecOn with
  | nil => cases hrow
  | append_singleton calls d ih =>
    have hafter : afterCalls redactSecrets {} (calls ++ [d]) =
        d.call.after redactSecrets d.now d.uuid (afterCalls redactSecrets {} calls) := afterCalls_append ..
    have hstep := hrow
    rw [hafter] at hstep
    rcases carry_step hstep herror with hbefore | hwrites
    · obtain ⟨pre, c, post, rfl, hlast⟩ := ih hbefore
      refine ⟨pre, c, post ++ [d], by simp, hlast.concat d ?_⟩
      rw [← List.cons_append, ← List.append_assoc]
      exact hrow
    · refine ⟨calls, d, [], rfl, ?_, hwrites⟩
      intro mid hmid
      obtain rfl := List.prefix_nil.mp hmid
      exact hrow

/-- Each row with the error `base_merge_only` was last written by a carried skip, over nothing or a retryable row,
without a claim and while the head it names was the latest posted review, or by a generic record that brought this
error itself; and such a record never changes a posted row. -/
theorem base_merge_only_carried :
    (∀ (redactSecrets : String → String) (calls : List TimedCall) (row : StoredProcessedReviewRecord),
      (afterCalls redactSecrets {} calls).processed.find? row.head = some row → row.error = some baseMergeOnly →
      ∃ pre c post, calls = pre ++ c :: post ∧
        (∀ mid, mid <+: post → (afterCalls redactSecrets {} (pre ++ c :: mid)).processed.find? row.head = some row) ∧
        ((∃ record, c.call = .recordBaseMergeOnlySkip record ∧ record.head = row.head ∧
            SoundCarry (afterCalls redactSecrets {} pre) c.now row) ∨
          (∃ record, c.call = .recordProcessed record ∧ record.head = row.head ∧ record.error = some baseMergeOnly ∧
            ∀ old, (afterCalls redactSecrets {} pre).processed.find? row.head = some old → old.status ≠ .posted))) ∧
    (∀ (s : State) (now : Int) (record : ProcessedReviewRecord) (row : StoredProcessedReviewRecord),
      record.error = some baseMergeOnly → s.processed.find? record.head = some row → row.status = .posted →
      ∀ k, (recordProcessed record now s).processed.find? k = s.processed.find? k) := by
  constructor
  · intro redactSecrets calls row hrow herror
    obtain ⟨pre, c, post, hcalls, hlast⟩ := exists_lastWrite herror hrow
    refine ⟨pre, c, post, hcalls, hlast.kept, ?_⟩
    have hwrites := hlast.writes
    generalize hcall : c.call = call at hwrites
    cases hwrites with
    | skip record head status sound => exact .inl ⟨record, rfl, head, sound⟩
    | generic record head error unposted => exact .inr ⟨record, rfl, head, error, unposted⟩
  · intro s now record row herror hold hposted
    exact recordProcessed_keeps_posted herror hold hposted

/-! ## A carried skip, and a generic record with its error -/

namespace CarryExample

def older : HeadKey := ⟨"owner/repo", 7, "a"⟩

def newer : HeadKey := ⟨"owner/repo", 7, "b"⟩

def post : TimedCall :=
  ⟨.recordProcessed { head := older, status := .posted, reviewUrl := some "u", diffFingerprint := some "f" }, 1, ""⟩

def skip : TimedCall := ⟨.recordBaseMergeOnlySkip { head := newer, status := .skipped, carriedFromHead := some "a" }, 2, ""⟩

def generic : TimedCall := ⟨.recordProcessed { head := newer, status := .skipped, error := some baseMergeOnly }, 1, ""⟩

def carriedRow : StoredProcessedReviewRecord :=
  { head := newer, status := .skipped, error := some baseMergeOnly, carriedFromHead := some "a", createdAt := .iso 2 }

end CarryExample

open CarryExample

/-- The newer head of a pull is covered by the review of the older one. -/
theorem base_merge_only_carried_newer :
    ∃ pre c post', [post, skip] = pre ++ c :: post' ∧
      (∀ mid, mid <+: post' → (afterCalls id {} (pre ++ c :: mid)).processed.find? newer = some carriedRow) ∧
      ((∃ record, c.call = .recordBaseMergeOnlySkip record ∧ record.head = newer ∧
          SoundCarry (afterCalls id {} pre) c.now carriedRow) ∨
        (∃ record, c.call = .recordProcessed record ∧ record.head = newer ∧ record.error = some baseMergeOnly ∧
          ∀ old, (afterCalls id {} pre).processed.find? newer = some old → old.status ≠ .posted)) ∧
      (recordProcessed { head := older, status := .skipped, error := some baseMergeOnly } 3
        (afterCalls id {} [post])).processed.find? older = (afterCalls id {} [post]).processed.find? older := by
  obtain ⟨pre, c, post', hcalls, hkept, hwrites⟩ :=
    base_merge_only_carried.1 id [post, skip] carriedRow (by decide) rfl
  exact ⟨pre, c, post', hcalls, hkept, hwrites,
    base_merge_only_carried.2 (afterCalls id {} [post]) 3 _
      { head := older, status := .posted, reviewUrl := some "u", diffFingerprint := some "f", createdAt := .iso 1 }
      rfl (by decide) rfl older⟩

/-- A generic record with this error leaves a row that names no review at all. -/
theorem base_merge_only_without_anchor :
    ¬∀ (calls : List TimedCall) (row : StoredProcessedReviewRecord),
      (afterCalls id {} calls).processed.find? row.head = some row → row.error = some baseMergeOnly →
      ∃ pre c post, calls = pre ++ c :: post ∧ SoundCarry (afterCalls id {} pre) c.now row := by
  intro h
  obtain ⟨pre, c, post, -, hsound⟩ :=
    h [generic] { head := newer, status := .skipped, error := some baseMergeOnly, createdAt := .iso 1 } (by decide) rfl
  obtain ⟨a, -, hcarried⟩ := hsound.anchor
  cases hcarried

end NeonDiff.Store
