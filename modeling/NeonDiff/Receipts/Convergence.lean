import NeonDiff.Lib.Newest
import NeonDiff.Receipts.Lane
import Mathlib.Data.Prod.Lex

/-! # The receipts converge -/

open NeonDiff.Lib NeonDiff.Lib.IsoDate

namespace NeonDiff.Receipts

/-! ## What is written is read back -/

theorem Timestamp.read_text (t : Timestamp) : Timestamp.read t.text = some t := by
  have hread : readTime (toISOString t.ms).toList = t.ms := readTime_toISOString t.valid
  unfold Timestamp.read Timestamp.text
  simp [hread, t.valid]

theorem Timestamp.text_inj {s t : Timestamp} (h : s.text = t.text) : s = t := by
  have := congrArg Timestamp.read h
  rwa [Timestamp.read_text, Timestamp.read_text, Option.some.injEq] at this

theorem CountKey.name_inj : ∀ a ∈ countKeys, ∀ b ∈ countKeys, a.name = b.name → a = b := by decide

theorem mem_countKeys (key : CountKey) : key ∈ countKeys := by cases key <;> decide

theorem LaneCode.ofName_name (code : LaneCode) : LaneCode.ofName code.name = some code := by cases code <;> decide

theorem LaneReason.ofName_name (reason : LaneReason) : LaneReason.ofName reason.name = some reason := by
  cases reason <;> decide

theorem field_counts (counts : Counts) (key : CountKey) :
    Json.field (countKeys.map fun key => (key.name, Json.int (counts key))) key.name = some (.int (counts key)) := by
  have hfind : ∀ keys : List CountKey, (∀ a ∈ keys, a ∈ countKeys) → key ∈ keys →
      (keys.map fun key => (key.name, Json.int (counts key))).find? (fun f => f.1 = key.name) =
        some (key.name, .int (counts key)) := by
    intro keys
    induction keys with
    | nil =>
      intro _ hmem
      cases hmem
    | cons a rest ih =>
      intro hall hmem
      rw [List.map_cons, List.find?_cons]
      by_cases hname : a.name = key.name
      · have : a = key := CountKey.name_inj a (hall a List.mem_cons_self) key (mem_countKeys key) hname
        simp [this]
      · have hrest : key ∈ rest := by
          rcases List.mem_cons.mp hmem with rfl | h
          · exact absurd rfl hname
          · exact h
        simp only [hname, decide_false]
        exact ih (fun b hb => hall b (List.mem_cons_of_mem _ hb)) hrest
  unfold Json.field
  rw [hfind countKeys (fun _ h => h) (mem_countKeys key)]
  rfl

theorem readCount_counts (r : LaneReceipt) (key : CountKey) :
    readCount (countKeys.map fun key => (key.name, Json.int (r.counts key))) key = some (r.counts key) := by
  have hbounds := r.counted key
  have hsafe : Json.isSafeInteger (r.counts key) = true := by
    unfold countCap at hbounds
    simp only [Json.isSafeInteger, Bool.and_eq_true, decide_eq_true_eq]
    omega
  unfold readCount
  rw [field_counts]
  simp [hsafe, hbounds]

theorem snapshot_toJson (r : LaneReceipt) : snapshotIssueEnrichmentLaneReceipt r.toJson = some r := by
  obtain ⟨ok, code, counts, reason, hcounted, hvalid⟩ := r
  have hcounts : ∀ key, readCount (countKeys.map fun key => (key.name, Json.int (counts key))) key =
      some (counts key) := readCount_counts ⟨ok, code, counts, reason, hcounted, hvalid⟩
  have hreceipt : laneReceipt ok code counts reason = some ⟨ok, code, counts, reason, hcounted, hvalid⟩ :=
    dif_pos ⟨fun key _ => hcounted key, hvalid⟩
  cases reason with
  | none =>
    simp [LaneReceipt.toJson, snapshotIssueEnrichmentLaneReceipt, Json.field, laneRootKeys, hcounts, readReason,
      LaneCode.ofName_name, hreceipt]
  | some reason =>
    simp [LaneReceipt.toJson, snapshotIssueEnrichmentLaneReceipt, Json.field, laneRootKeys, hcounts, readReason,
      LaneCode.ofName_name, LaneReason.ofName_name, hreceipt]

theorem decodeSlot_columns (a : LaneSlot) (recentFailure : Bool) (h : recentFailure = true → a.receipt.ok = false) :
    decodeSlot recentFailure a.columns = some (.held a) := by
  have hslot : laneSlot a.receipt a.runId a.runStartedAt a.cycle a.recordedAt = some a := by
    simp [laneSlot, a.bound]
  have hread : a.columns.read recentFailure = some a := by
    simp [SlotColumns.read, LaneSlot.columns, Timestamp.read_text, snapshot_toJson, hslot]
    exact h
  unfold decodeSlot
  rw [hread]
  rfl

/-! ## The order of receipts -/

/-- Receipts in the order of their run's start, their cycle and their own time. -/
def LaneSlot.key (a : LaneSlot) : Int ×ₗ Int ×ₗ Int :=
  toLex (a.runStartedAt.ms, toLex (a.cycle, a.recordedAt.ms))

theorem LaneSlot.key_le_iff (a b : LaneSlot) :
    a.key ≤ b.key ↔ a.runStartedAt.ms < b.runStartedAt.ms ∨ a.runStartedAt.ms = b.runStartedAt.ms ∧
      (a.cycle < b.cycle ∨ a.cycle = b.cycle ∧ a.recordedAt.ms ≤ b.recordedAt.ms) := by
  simp only [LaneSlot.key, Prod.Lex.toLex_le_toLex]

def SameRun (a m : LaneSlot) : Prop := a.runStartedAt.ms = m.runStartedAt.ms → a.runId = m.runId

theorem key_le_of_newer {a m : LaneSlot} (h : isNewerIssueEnrichmentTuple a m = true) : m.key ≤ a.key := by
  rw [LaneSlot.key_le_iff]
  unfold isNewerIssueEnrichmentTuple at h
  split_ifs at h with hstart hcycle
  · left
    simpa using h
  · right
    have hlt : m.cycle < a.cycle := by simpa using (Bool.and_eq_true_iff.mp h).2
    omega
  · right
    have hlate : m.recordedAt.ms ≤ a.recordedAt.ms := by
      rcases Bool.or_eq_true_iff.mp (Bool.and_eq_true_iff.mp h).2 with hlt | heq
      · have := of_decide_eq_true hlt
        omega
      · have := of_decide_eq_true (Bool.and_eq_true_iff.mp heq).1
        omega
    omega

theorem key_le_of_not_newer {a m : LaneSlot} (hrun : SameRun a m)
    (h : isNewerIssueEnrichmentTuple a m = false) : a.key ≤ m.key := by
  rw [LaneSlot.key_le_iff]
  unfold isNewerIssueEnrichmentTuple at h
  split_ifs at h with hstart hcycle
  · left
    have := of_decide_eq_false h
    omega
  · right
    simp only [ne_eq, not_not] at hstart
    have hle := of_decide_eq_false ((Bool.and_eq_false_imp.mp h) (by simpa using hrun hstart))
    omega
  · right
    simp only [ne_eq, not_not] at hstart hcycle
    have hlate := (Bool.and_eq_false_imp.mp h) (by simpa using hrun hstart)
    have hle := of_decide_eq_false (Bool.or_eq_false_iff.mp hlate).1
    omega

/-! ## What a delivery does -/

/-- What the row says: the receipts that its slots hold. -/
structure Slots where
  latest : Option LaneSlot := none
  failure : Option LaneSlot := none

def Shows (db : Option Row) (s : Slots) : Prop :=
  getLatest db = s.latest.map .held ∧ getRecentFailure db = s.failure.map .held

def NewerThan (a : LaneSlot) (slot : Option LaneSlot) : Prop :=
  ∀ m, slot = some m → isNewerIssueEnrichmentTuple a m = true

/-- The receipt's run is the slot's when both began together. -/
def OneRun (a : LaneSlot) (slot : Option LaneSlot) : Prop := ∀ m, slot = some m → SameRun a m

theorem newerThanSlot_iff (a : LaneSlot) (slot : Option LaneSlot) :
    newerThanSlot a (slot.map .held) = true ↔ NewerThan a slot := by
  cases slot with
  | none => simp [newerThanSlot, NewerThan]
  | some m => simp [newerThanSlot, NewerThan]

theorem ambiguous_eq_false_iff (a : LaneSlot) (slot : Option LaneSlot) :
    ambiguous a (slot.map .held) = false ↔ OneRun a slot := by
  cases slot with
  | none => simp [ambiguous, OneRun]
  | some m =>
    have htext : m.runStartedAt.text = a.runStartedAt.text ↔ a.runStartedAt.ms = m.runStartedAt.ms := by
      constructor
      · intro h
        rw [Timestamp.text_inj h]
      · intro h
        unfold Timestamp.text
        rw [h]
    simp only [Option.map_some, ambiguous, htext, OneRun, SameRun, Option.some.injEq, forall_eq',
      Bool.and_eq_false_imp, decide_eq_true_eq, ne_eq, decide_not, Bool.not_eq_false', eq_comm (a := m.runId)]

structure Taken (a : LaneSlot) (s t : Slots) : Prop where
  latestRun : OneRun a s.latest
  failureRun : OneRun a s.failure
  success : a.receipt.ok = true → t.failure = s.failure ∧ NewerThan a s.latest
  failed : a.receipt.ok = false → t.failure = some a ∧ NewerThan a s.failure
  latest : NewerThan a s.latest ∧ t.latest = some a ∨ ¬NewerThan a s.latest ∧ t.latest = s.latest

def Refused (a : LaneSlot) (s : Slots) : Prop :=
  ¬OneRun a s.latest ∨ ¬OneRun a s.failure ∨ (a.receipt.ok = true ∧ ¬NewerThan a s.latest) ∨
    (a.receipt.ok = false ∧ ¬NewerThan a s.failure)

theorem Shows.getD {db : Option Row} {s : Slots} (h : Shows db s) : Shows (some (db.getD {})) s := by
  cases db with
  | none => exact h
  | some row => exact h

theorem Shows.setLatest {row : Row} {s : Slots} (h : Shows (some row) s) (a : LaneSlot) :
    Shows (some { row with latest := a.columns }) { s with latest := some a } :=
  ⟨decodeSlot_columns a false nofun, h.2⟩

theorem Shows.setFailure {row : Row} {s : Slots} (h : Shows (some row) s) {a : LaneSlot}
    (hfailed : a.receipt.ok = false) :
    Shows (some { row with recentFailure := a.columns }) { s with failure := some a } :=
  ⟨h.1, decodeSlot_columns a true fun _ => hfailed⟩

theorem deliver_spec {db : Option Row} {s : Slots} {d : Delivery} {a : LaneSlot} (h : Shows db s)
    (ha : d.admitted = some a) : ∃ t, Shows (deliver db d) t ∧ (t = s ∧ Refused a s ∨ Taken a s t) := by
  have hlatest : (db.bind fun row => decodeSlot false row.latest) = s.latest.map .held := h.1
  have hfailure : (db.bind fun row => decodeSlot true row.recentFailure) = s.failure.map .held := h.2
  have hinput : admitIssueEnrichmentLaneReceiptInput d.now d.input = some a := ha
  have hrow := h.getD
  unfold deliver recordIssueEnrichmentLaneReceipt
  simp only [hinput, hlatest, hfailure]
  cases hrunLatest : ambiguous a (s.latest.map .held) with
  | true =>
    have hno : ¬OneRun a s.latest := by
      rw [← ambiguous_eq_false_iff, hrunLatest]
      simp
    exact ⟨s, h, .inl ⟨rfl, .inl hno⟩⟩
  | false =>
  cases hrunFailure : ambiguous a (s.failure.map .held) with
  | true =>
    have hno : ¬OneRun a s.failure := by
      rw [← ambiguous_eq_false_iff, hrunFailure]
      simp
    exact ⟨s, h, .inl ⟨rfl, .inr (.inl hno)⟩⟩
  | false =>
  rw [ambiguous_eq_false_iff] at hrunLatest hrunFailure
  simp only [Bool.or_self, Bool.false_eq_true, if_false]
  cases hok : a.receipt.ok with
  | true =>
    cases hnewer : newerThanSlot a (s.latest.map .held) with
    | true =>
      have hnewer := (newerThanSlot_iff a s.latest).mp hnewer
      refine ⟨{ s with latest := some a }, hrow.setLatest a, .inr ⟨hrunLatest, hrunFailure, ?_, ?_, .inl ⟨hnewer, rfl⟩⟩⟩
      · intro _
        exact ⟨rfl, hnewer⟩
      · intro hfailed
        rw [hok] at hfailed
        cases hfailed
    | false =>
      have hstale : ¬NewerThan a s.latest := by
        rw [← newerThanSlot_iff, hnewer]
        simp
      exact ⟨s, h, .inl ⟨rfl, .inr (.inr (.inl ⟨hok, hstale⟩))⟩⟩
  | false =>
    cases hfailureNewer : newerThanSlot a (s.failure.map .held) with
    | false =>
      have hstale : ¬NewerThan a s.failure := by
        rw [← newerThanSlot_iff, hfailureNewer]
        simp
      simp only [Bool.and_false, Bool.false_eq_true, if_false]
      exact ⟨s, h, .inl ⟨rfl, .inr (.inr (.inr ⟨hok, hstale⟩))⟩⟩
    | true =>
      have hfailureNewer := (newerThanSlot_iff a s.failure).mp hfailureNewer
      have hsuccess : a.receipt.ok = true → False := by
        rw [hok]
        exact Bool.false_ne_true
      cases hnewer : newerThanSlot a (s.latest.map .held) with
      | true =>
        have hnewer := (newerThanSlot_iff a s.latest).mp hnewer
        exact ⟨⟨some a, some a⟩, (hrow.setLatest a).setFailure hok, .inr ⟨hrunLatest, hrunFailure,
          fun h => (hsuccess h).elim, fun _ => ⟨rfl, hfailureNewer⟩, .inl ⟨hnewer, rfl⟩⟩⟩
      | false =>
        have hstale : ¬NewerThan a s.latest := by
          rw [← newerThanSlot_iff, hnewer]
          simp
        exact ⟨{ s with failure := some a }, hrow.setFailure hok, .inr ⟨hrunLatest, hrunFailure,
          fun h => (hsuccess h).elim, fun _ => ⟨rfl, hfailureNewer⟩, .inr ⟨hstale, rfl⟩⟩⟩

theorem deliver_refused {db : Option Row} {d : Delivery} (h : d.admitted = none) : deliver db d = db := by
  have hinput : admitIssueEnrichmentLaneReceiptInput d.now d.input = none := h
  unfold deliver recordIssueEnrichmentLaneReceipt
  rw [hinput]

theorem exists_of_not_newerThan {a : LaneSlot} {slot : Option LaneSlot} (h : ¬NewerThan a slot) :
    ∃ m, slot = some m ∧ isNewerIssueEnrichmentTuple a m = false := by
  unfold NewerThan at h
  push Not at h
  obtain ⟨m, hslot, hnewer⟩ := h
  exact ⟨m, hslot, by simpa using hnewer⟩

/-! ## The failure slot follows the latest slot -/

structure Ordered (s : Slots) : Prop where
  below : ∀ f, s.failure = some f → ∃ l, s.latest = some l ∧ f.key ≤ l.key
  equal : ∀ l, s.latest = some l → l.receipt.ok = false → s.failure = some l

theorem Ordered.taken {a : LaneSlot} {s t : Slots} (h : Ordered s) (ht : Taken a s t) : Ordered t := by
  rcases ht.latest with ⟨hnewer, hlatest⟩ | ⟨hstale, hlatest⟩
  · constructor
    · intro f hf
      refine ⟨a, hlatest, ?_⟩
      cases hok : a.receipt.ok with
      | true =>
        rw [(ht.success hok).1] at hf
        obtain ⟨l, hl, hle⟩ := h.below f hf
        exact le_trans hle (key_le_of_newer (hnewer l hl))
      | false =>
        rw [(ht.failed hok).1] at hf
        obtain rfl := Option.some.inj hf
        exact le_rfl
    · intro l hl hfailed
      rw [hlatest] at hl
      obtain rfl := Option.some.inj hl
      exact (ht.failed hfailed).1
  · -- an older receipt is taken for the failure slot only
    obtain ⟨m, hm, hnot⟩ := exists_of_not_newerThan hstale
    have hfailed : a.receipt.ok = false := by
      cases hok : a.receipt.ok with
      | true => exact absurd (ht.success hok).2 hstale
      | false => rfl
    obtain ⟨hfailure, hnewer⟩ := ht.failed hfailed
    constructor
    · intro f hf
      rw [hfailure] at hf
      obtain rfl := Option.some.inj hf
      exact ⟨m, hlatest.trans hm, key_le_of_not_newer (ht.latestRun m hm) hnot⟩
    · intro l hl hlfailed
      rw [hlatest, hm] at hl
      obtain rfl := Option.some.inj hl
      have := hnewer m (h.equal m hm hlfailed)
      rw [hnot] at this
      cases this

theorem Ordered.deliver {db : Option Row} {s : Slots} (h : Ordered s) (hs : Shows db s) (d : Delivery) :
    ∃ t, Shows (deliver db d) t ∧ Ordered t := by
  cases hd : d.admitted with
  | none => exact ⟨s, deliver_refused hd ▸ hs, h⟩
  | some a =>
    obtain ⟨t, ht, ⟨rfl, -⟩ | htaken⟩ := deliver_spec hs hd
    · exact ⟨t, ht, h⟩
    · exact ⟨t, ht, h.taken htaken⟩

theorem Ordered.foldl {db : Option Row} {s : Slots} (h : Ordered s) (hs : Shows db s) (ds : List Delivery) :
    ∃ t, Shows (ds.foldl Receipts.deliver db) t ∧ Ordered t := by
  induction ds generalizing db s with
  | nil => exact ⟨s, hs, h⟩
  | cons d ds ih =>
    obtain ⟨t, ht, hordered⟩ := h.deliver hs d
    exact ih hordered ht

/-! ## The slots hold the newest receipts -/

def failing (a : LaneSlot) : Bool := !a.receipt.ok

/-- The receipts that the deliveries bring. -/
def received (ds : List Delivery) : List LaneSlot := ds.filterMap Delivery.admitted

structure Converged (seen : List LaneSlot) (s : Slots) : Prop where
  latest : Newest LaneSlot.key seen s.latest
  failure : Newest LaneSlot.key (seen.filter failing) s.failure

section
variable {seen : List LaneSlot} {s t : Slots} {a : LaneSlot}

theorem filter_concat_success (h : a.receipt.ok = true) :
    (seen ++ [a]).filter failing = seen.filter failing := by
  simp [failing, h]

theorem filter_concat_failed (h : a.receipt.ok = false) :
    (seen ++ [a]).filter failing = seen.filter failing ++ [a] := by
  simp [failing, h]

theorem Converged.taken (h : Converged seen s) (ht : Taken a s t) : Converged (seen ++ [a]) t := by
  constructor
  · rcases ht.latest with ⟨hnewer, hlatest⟩ | ⟨hstale, hlatest⟩
    · rw [hlatest]
      exact h.latest.take fun m hm => key_le_of_newer (hnewer m hm)
    · obtain ⟨m, hm, hnot⟩ := exists_of_not_newerThan hstale
      have hnewest := h.latest
      rw [hlatest]
      rw [hm] at hnewest ⊢
      exact hnewest.keep (key_le_of_not_newer (ht.latestRun m hm) hnot)
  · cases hok : a.receipt.ok with
    | true =>
      rw [filter_concat_success hok, (ht.success hok).1]
      exact h.failure
    | false =>
      obtain ⟨hfailure, hnewer⟩ := ht.failed hok
      rw [filter_concat_failed hok, hfailure]
      exact h.failure.take fun m hm => key_le_of_newer (hnewer m hm)

theorem Converged.refused (h : Converged seen s) (hrun : ∀ m ∈ seen, SameRun a m) (hrefused : Refused a s) :
    Converged (seen ++ [a]) s := by
  have hrunLatest : OneRun a s.latest := fun m hm => hrun m (h.latest.mem hm)
  have hrunFailure : OneRun a s.failure := fun m hm =>
    hrun m (List.mem_of_mem_filter (h.failure.mem hm))
  have hnewest := h.latest
  have hnewestFailure := h.failure
  rcases hrefused with hno | hno | ⟨hok, hstale⟩ | ⟨hfailed, hstale⟩
  · exact absurd hrunLatest hno
  · exact absurd hrunFailure hno
  · obtain ⟨m, hm, hnot⟩ := exists_of_not_newerThan hstale
    constructor
    · rw [hm] at hnewest ⊢
      exact hnewest.keep (key_le_of_not_newer (hrunLatest m hm) hnot)
    · rw [filter_concat_success hok]
      exact hnewestFailure
  · obtain ⟨f, hf, hnot⟩ := exists_of_not_newerThan hstale
    have hle : a.key ≤ f.key := key_le_of_not_newer (hrunFailure f hf) hnot
    have hmem : f ∈ seen := List.mem_of_mem_filter (h.failure.mem hf)
    constructor
    · cases hl : s.latest with
      | none =>
        rw [hl] at hnewest
        obtain rfl : seen = [] := hnewest
        cases hmem
      | some l =>
        rw [hl] at hnewest
        exact hnewest.keep (le_trans hle (hnewest.2 f hmem))
    · rw [filter_concat_failed hfailed]
      rw [hf] at hnewestFailure ⊢
      exact hnewestFailure.keep hle

theorem Converged.foldl {db : Option Row} (h : Converged seen s) (hs : Shows db s) (ds : List Delivery)
    (hrun : ∀ a ∈ seen ++ received ds, ∀ b ∈ seen ++ received ds, SameRun a b) :
    ∃ t, Shows (ds.foldl deliver db) t ∧ Converged (seen ++ received ds) t := by
  induction ds generalizing seen db s with
  | nil => exact ⟨s, hs, by simpa [received] using h⟩
  | cons d ds ih =>
    cases hd : d.admitted with
    | none =>
      have hreceived : received (d :: ds) = received ds := List.filterMap_cons_none hd
      rw [hreceived] at hrun ⊢
      rw [List.foldl_cons, deliver_refused hd]
      exact ih h hs hrun
    | some a =>
      have hreceived : seen ++ received (d :: ds) = (seen ++ [a]) ++ received ds := by
        rw [received, List.filterMap_cons_some hd, List.append_assoc]
        rfl
      rw [hreceived] at hrun ⊢
      rw [List.foldl_cons]
      obtain ⟨t, ht, hcase⟩ := deliver_spec hs hd
      refine ih ?_ ht hrun
      rcases hcase with ⟨rfl, hrefused⟩ | htaken
      · exact h.refused (fun m hm => hrun a (by simp) m (by simp [hm])) hrefused
      · exact h.taken htaken

end

theorem shows_empty : Shows none {} := ⟨rfl, rfl⟩

theorem ordered_empty : Ordered {} := by
  constructor
  · intro f hf
    cases hf
  · intro l hl
    cases hl

theorem converged_empty : Converged [] {} := ⟨.nil, .nil⟩

/-- In whatever order the receipts of a set are delivered, the latest slot ends with the newest of them and the
failure slot with the newest that failed; and after any deliveries the failure slot holds nothing newer than the
latest slot, and the same receipt when the latest one failed. -/
theorem lane_receipts_converge :
    (∀ ds : List Delivery,
      (∀ a ∈ received ds, ∀ b ∈ received ds, a.runStartedAt = b.runStartedAt → a.runId = b.runId) →
      (∀ a ∈ received ds, ∀ b ∈ received ds, a.key = b.key → a = b) →
      (∀ m, getLatest (ds.foldl deliver none) = some (.held m) ↔
        m ∈ received ds ∧ ∀ a ∈ received ds, a.key ≤ m.key) ∧
      (∀ m, getRecentFailure (ds.foldl deliver none) = some (.held m) ↔
        (m ∈ received ds ∧ m.receipt.ok = false) ∧
          ∀ a ∈ received ds, a.receipt.ok = false → a.key ≤ m.key)) ∧
    (∀ ds : List Delivery,
      getLatest (ds.foldl deliver none) ≠ some .unavailable ∧
      getRecentFailure (ds.foldl deliver none) ≠ some .unavailable ∧
      (∀ f, getRecentFailure (ds.foldl deliver none) = some (.held f) →
        ∃ l, getLatest (ds.foldl deliver none) = some (.held l) ∧ f.key ≤ l.key) ∧
      (∀ l, getLatest (ds.foldl deliver none) = some (.held l) → l.receipt.ok = false →
        getRecentFailure (ds.foldl deliver none) = some (.held l))) := by
  have hheld : ∀ (slot : Option LaneSlot) (m : LaneSlot), slot.map StateSlot.held = some (.held m) ↔ slot = some m := by
    intro slot m
    cases slot with
    | none => simp
    | some a => simp
  have hnone : ∀ slot : Option LaneSlot, slot.map StateSlot.held ≠ some .unavailable := by
    intro slot
    cases slot with
    | none => simp
    | some a => simp
  constructor
  · intro ds hrun hkey
    have hsame : ∀ a ∈ [] ++ received ds, ∀ b ∈ [] ++ received ds, SameRun a b := by
      intro a ha b hb hms
      have hstart : a.runStartedAt = b.runStartedAt := Timestamp.text_inj (congrArg toISOString hms)
      exact hrun a ha b hb hstart
    obtain ⟨t, ⟨hlatest, hfailure⟩, hconverged⟩ := converged_empty.foldl shows_empty ds hsame
    rw [hlatest, hfailure]
    constructor
    · intro m
      rw [hheld]
      exact hconverged.latest.eq_some_iff hkey
    · intro m
      rw [hheld, hconverged.failure.eq_some_iff fun a ha b hb =>
        hkey a (List.mem_of_mem_filter ha) b (List.mem_of_mem_filter hb)]
      simp [failing]
  · intro ds
    obtain ⟨t, ⟨hlatest, hfailure⟩, hordered⟩ := ordered_empty.foldl shows_empty ds
    rw [hlatest, hfailure]
    refine ⟨hnone _, hnone _, ?_, ?_⟩
    · intro f hf
      obtain ⟨l, hl, hle⟩ := hordered.below f ((hheld _ f).mp hf)
      exact ⟨l, (hheld _ l).mpr hl, hle⟩
    · intro l hl hfailed
      exact (hheld _ l).mpr (hordered.equal l ((hheld _ l).mp hl) hfailed)

def LaneSlot.delivery (a : LaneSlot) : Delivery where
  input := ⟨a.receipt.toJson, .str a.runId, .text a.runStartedAt.text, .int a.cycle, some (.text a.recordedAt.text)⟩
  now := a.recordedAt

theorem LaneSlot.admitted_delivery (a : LaneSlot) : a.delivery.admitted = some a := by
  have hslot : laneSlot a.receipt a.runId a.runStartedAt a.cycle a.recordedAt = some a := by
    simp [laneSlot, a.bound]
  simp only [LaneSlot.delivery, Delivery.admitted, admitIssueEnrichmentLaneReceiptInput, snapshot_toJson,
    canonicalIssueEnrichmentLaneTimestamp, Option.getD_some, Timestamp.read_text, hslot]

/-! ## A late failure -/

namespace Late

theorem run_valid : IsoDate.isTime 1700000000000 = true := by decide

def run : Timestamp := ⟨1700000000000, run_valid⟩

def succeeded : LaneSlot where
  receipt := ⟨true, .disabled, fun _ => 0, none, fun _ => by decide, by decide⟩
  runId := "00000000-0000-4000-8000-000000000000"
  runStartedAt := run
  cycle := 2
  recordedAt := run
  bound := by decide

def failed : LaneSlot where
  receipt := ⟨false, .malformedSummary, fun _ => 0, some .malformedSummary, fun _ => by decide, by decide⟩
  runId := "00000000-0000-4000-8000-000000000000"
  runStartedAt := run
  cycle := 1
  recordedAt := run
  bound := by decide

theorem received_late : received [succeeded.delivery, failed.delivery] = [succeeded, failed] := by
  simp [received, LaneSlot.admitted_delivery]

end Late

/-- The failure of the first cycle comes after the success of the second, and both slots are as they should be. -/
theorem lane_receipts_converge_late :
    getLatest ([Late.succeeded.delivery, Late.failed.delivery].foldl deliver none) = some (.held Late.succeeded) ∧
    getRecentFailure ([Late.succeeded.delivery, Late.failed.delivery].foldl deliver none) =
      some (.held Late.failed) := by
  have hkey : ¬Late.succeeded.key ≤ Late.failed.key := by
    rw [LaneSlot.key_le_iff]
    decide
  have hle : Late.failed.key ≤ Late.succeeded.key := le_of_lt (not_le.mp hkey)
  have hconverge := lane_receipts_converge.1 [Late.succeeded.delivery, Late.failed.delivery]
  rw [Late.received_late] at hconverge
  obtain ⟨hlatest, hfailure⟩ := hconverge
    (by
      intro a ha b hb _
      rcases (by simpa using ha : a = Late.succeeded ∨ a = Late.failed) with rfl | rfl <;>
        rcases (by simpa using hb : b = Late.succeeded ∨ b = Late.failed) with rfl | rfl <;> rfl)
    (by
      intro a ha b hb heq
      rcases (by simpa using ha : a = Late.succeeded ∨ a = Late.failed) with rfl | rfl <;>
        rcases (by simpa using hb : b = Late.succeeded ∨ b = Late.failed) with rfl | rfl
      · rfl
      · exact absurd heq.le hkey
      · exact absurd heq.ge hkey
      · rfl)
  rw [hlatest, hfailure]
  refine ⟨⟨by simp, ?_⟩, ⟨by simp, rfl⟩, ?_⟩
  · intro a ha
    rcases (by simpa using ha : a = Late.succeeded ∨ a = Late.failed) with rfl | rfl
    · exact le_rfl
    · exact hle
  · intro a ha hok
    rcases (by simpa using ha : a = Late.succeeded ∨ a = Late.failed) with rfl | rfl
    · cases hok
    · exact le_rfl

end NeonDiff.Receipts
