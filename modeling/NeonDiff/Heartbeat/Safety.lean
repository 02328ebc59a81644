import Mathlib.Order.Nat
import NeonDiff.Heartbeat.Model

/-! # The heartbeat's times stay in order -/

namespace NeonDiff.Heartbeat

variable {Time : Type} [LinearOrder Time] {record : DaemonHeartbeatRecord Time} {row next : DaemonHeartbeatRow Time}

/-- The row after the events, oldest first. -/
def recorded (row : Option (DaemonHeartbeatRow Time)) (records : List (DaemonHeartbeatRecord Time)) :
    Option (DaemonHeartbeatRow Time) :=
  records.foldl recordDaemonHeartbeat row

/-! ## What an event does -/

theorem takesEvent_iff : takesEvent row record = true ↔
    isTerminalEvent row.event = false ∧ row.runId = record.runId ∧ row.completedAt = none ∧
      (∃ started, row.startedAt = some started ∧ started ≤ record.recordedAt) ∧
      ∀ progress, row.lastProgressAt = some progress → progress ≤ record.recordedAt := by
  unfold takesEvent isBefore isNotAfter
  simp only [Bool.and_eq_true, Bool.not_eq_true', decide_eq_true_eq, Option.isNone_iff_eq_none, Option.any_eq_true,
    Option.all_eq_true, and_assoc]

def Begins (current : Option (DaemonHeartbeatRow Time)) (record : DaemonHeartbeatRecord Time) : Prop :=
  record.event = .daemon_cycle_start ∧ (current.any fun row => isRepeatedStart row record) = false

theorem recordDaemonHeartbeat_cases (row : DaemonHeartbeatRow Time) (record : DaemonHeartbeatRecord Time) :
    recordDaemonHeartbeat (some row) record = some row ∨
    (Begins (some row) record ∧ recordDaemonHeartbeat (some row) record = some (startedRow record)) ∨
    (record.event ≠ .daemon_cycle_start ∧ takesEvent row record = true ∧
      ((isTerminalEvent (some record.event) = false ∧ recordDaemonHeartbeat (some row) record =
          some { touchedRow row record with lastProgressAt := some record.recordedAt }) ∨
        (isTerminalEvent (some record.event) = true ∧ recordDaemonHeartbeat (some row) record =
          some { touchedRow row record with completedAt := some record.recordedAt }))) := by
  unfold recordDaemonHeartbeat Begins
  cases hevent : record.event with
  | daemon_cycle_start =>
    rw [Option.any_some]
    cases hrepeated : isRepeatedStart row record with
    | true => simp
    | false => simp
  | daemon_cycle_progress =>
    cases htakes : takesEvent row record with
    | true => simp [htakes, isTerminalEvent]
    | false => simp [htakes]
  | daemon_cycle_complete =>
    cases htakes : takesEvent row record with
    | true => simp [htakes, isTerminalEvent]
    | false => simp [htakes]
  | daemon_cycle_failed =>
    cases htakes : takesEvent row record with
    | true => simp [htakes, isTerminalEvent]
    | false => simp [htakes]

/-! ## The order of the times -/

def NotAfter (earlier later : Option Time) : Prop := ∀ a b, earlier = some a → later = some b → a ≤ b

structure Ordered (row : DaemonHeartbeatRow Time) : Prop where
  progress : NotAfter row.startedAt row.lastProgressAt
  completed : NotAfter row.lastProgressAt row.completedAt
  whole : NotAfter row.startedAt row.completedAt
  recorded : row.recordedAt = row.completedAt.or row.lastProgressAt

theorem NotAfter.none_right (earlier : Option Time) : NotAfter earlier none := by
  intro a b _ hb
  cases hb

theorem NotAfter.none_left (later : Option Time) : NotAfter none later := by
  intro a b ha _
  cases ha

theorem ordered_startedRow (record : DaemonHeartbeatRecord Time) : Ordered (startedRow record) :=
  ⟨.none_right _, .none_right _, .none_right _, rfl⟩

theorem ordered_terminalRow (record : DaemonHeartbeatRecord Time) : Ordered (terminalRow record) := by
  refine ⟨.none_right _, .none_left _, ?_, rfl⟩
  intro a b ha hb
  rw [← Option.some.inj ha, ← Option.some.inj hb]

theorem recordDaemonHeartbeat_ordered (h : Ordered row)
    (hnext : recordDaemonHeartbeat (some row) record = some next) : Ordered next := by
  rcases recordDaemonHeartbeat_cases row record with hstays | ⟨-, hbegins⟩ | ⟨-, htakes, htaken⟩
  · rw [hstays] at hnext
    rwa [← Option.some.inj hnext]
  · rw [hbegins] at hnext
    rw [← Option.some.inj hnext]
    exact ordered_startedRow record
  · obtain ⟨-, -, hopen, ⟨started, hstarted, hle⟩, hprogress⟩ := takesEvent_iff.mp htakes
    have hstart : ∀ a, row.startedAt = some a → a ≤ record.recordedAt := by
      intro a ha
      rw [hstarted] at ha
      rwa [← Option.some.inj ha]
    rcases htaken with ⟨-, heq⟩ | ⟨-, heq⟩
    · rw [heq] at hnext
      rw [← Option.some.inj hnext]
      refine ⟨?_, ?_, ?_, ?_⟩
      · intro a b ha hb
        rw [← Option.some.inj hb]
        exact hstart a ha
      · intro a b _ hb
        exact absurd (hopen.symm.trans hb) (by simp)
      · intro a b _ hb
        exact absurd (hopen.symm.trans hb) (by simp)
      · exact (congrArg (·.or (some record.recordedAt)) hopen).symm
    · rw [heq] at hnext
      rw [← Option.some.inj hnext]
      refine ⟨h.progress, ?_, ?_, rfl⟩
      · intro a b ha hb
        rw [← Option.some.inj hb]
        exact hprogress a ha
      · intro a b ha hb
        rw [← Option.some.inj hb]
        exact hstart a ha

theorem recorded_ordered (records : List (DaemonHeartbeatRecord Time)) {current : Option (DaemonHeartbeatRow Time)}
    (h : ∀ row, current = some row → Ordered row) : ∀ row, recorded current records = some row → Ordered row := by
  induction records generalizing current with
  | nil => exact h
  | cons record records ih =>
    apply ih
    intro next hnext
    cases current with
    | some row => exact recordDaemonHeartbeat_ordered (h row rfl) hnext
    | none =>
      unfold recordDaemonHeartbeat at hnext
      split at hnext
      · rw [Option.any_none, if_neg Bool.false_ne_true] at hnext
        rw [← Option.some.inj hnext]
        exact ordered_startedRow record
      · cases hnext
      · rw [← Option.some.inj hnext]
        exact ordered_terminalRow record
      · rw [← Option.some.inj hnext]
        exact ordered_terminalRow record

/-! ## Within one run -/

/-- A time that is present stays present and does not go back. -/
def NeverBack (before after : Option Time) : Prop := ∀ a, before = some a → ∃ b, after = some b ∧ a ≤ b

theorem NeverBack.refl (time : Option Time) : NeverBack time time := fun a ha => ⟨a, ha, le_refl a⟩

theorem NeverBack.trans {a b c : Option Time} (hab : NeverBack a b) (hbc : NeverBack b c) : NeverBack a c := by
  intro x hx
  obtain ⟨y, hy, hxy⟩ := hab x hx
  obtain ⟨z, hz, hyz⟩ := hbc y hy
  exact ⟨z, hz, le_trans hxy hyz⟩

structure WentOn (before after : DaemonHeartbeatRow Time) : Prop where
  runId : after.runId = before.runId
  startedAt : after.startedAt = before.startedAt
  lastProgressAt : NeverBack before.lastProgressAt after.lastProgressAt
  completedAt : NeverBack before.completedAt after.completedAt
  recordedAt : NeverBack before.recordedAt after.recordedAt

theorem WentOn.refl (row : DaemonHeartbeatRow Time) : WentOn row row :=
  ⟨rfl, rfl, .refl _, .refl _, .refl _⟩

theorem WentOn.trans {a b c : DaemonHeartbeatRow Time} (hab : WentOn a b) (hbc : WentOn b c) : WentOn a c where
  runId := hbc.runId.trans hab.runId
  startedAt := hbc.startedAt.trans hab.startedAt
  lastProgressAt := hab.lastProgressAt.trans hbc.lastProgressAt
  completedAt := hab.completedAt.trans hbc.completedAt
  recordedAt := hab.recordedAt.trans hbc.recordedAt

theorem recordDaemonHeartbeat_wentOn (h : Ordered row) (hbegins : ¬Begins (some row) record) :
    ∃ next, recordDaemonHeartbeat (some row) record = some next ∧ WentOn row next := by
  rcases recordDaemonHeartbeat_cases row record with hstays | ⟨hbegun, -⟩ | ⟨-, htakes, htaken⟩
  · exact ⟨row, hstays, .refl row⟩
  · exact absurd hbegun hbegins
  · obtain ⟨-, -, hopen, -, hprogress⟩ := takesEvent_iff.mp htakes
    have hdone : ∀ after, NeverBack row.completedAt after := by
      intro after a ha
      rw [hopen] at ha
      cases ha
    have hlast : NeverBack row.lastProgressAt (some record.recordedAt) := fun a ha => ⟨_, rfl, hprogress a ha⟩
    have hrecorded : NeverBack row.recordedAt (some record.recordedAt) := by
      rw [h.recorded, hopen, Option.none_or]
      exact hlast
    rcases htaken with ⟨-, heq⟩ | ⟨-, heq⟩
    · exact ⟨_, heq, rfl, rfl, hlast, hdone _, hrecorded⟩
    · exact ⟨_, heq, rfl, rfl, .refl _, hdone _, hrecorded⟩

/-- No start is taken on the way. -/
def WithinRun (current : Option (DaemonHeartbeatRow Time)) : List (DaemonHeartbeatRecord Time) → Prop
  | [] => True
  | record :: records => ¬Begins current record ∧ WithinRun (recordDaemonHeartbeat current record) records

theorem recorded_wentOn (records : List (DaemonHeartbeatRecord Time)) (h : Ordered row)
    (hwithin : WithinRun (some row) records) : ∃ next, recorded (some row) records = some next ∧ WentOn row next := by
  induction records generalizing row with
  | nil => exact ⟨row, rfl, .refl row⟩
  | cons record records ih =>
    obtain ⟨mid, hmid, hfirst⟩ := recordDaemonHeartbeat_wentOn h hwithin.1
    have hrest := hwithin.2
    rw [hmid] at hrest
    obtain ⟨next, hnext, hlast⟩ := ih (recordDaemonHeartbeat_ordered h hmid) hrest
    refine ⟨next, ?_, hfirst.trans hlast⟩
    rw [← hnext]
    exact congrArg (fun current => recorded current records) hmid

/-! ## The row -/

/-- What holds of the row after any events. -/
structure KeepsTime (row : DaemonHeartbeatRow Time) : Prop where
  ordered : Ordered row
  terminal : isTerminalEvent row.event = true → ∀ record, record.event ≠ .daemon_cycle_start →
    recordDaemonHeartbeat (some row) record = some row
  foreign : ∀ record, record.runId ≠ row.runId → record.event ≠ .daemon_cycle_start →
    recordDaemonHeartbeat (some row) record = some row
  forward : ∀ records, WithinRun (some row) records → ∃ next, recorded (some row) records = some next ∧ WentOn row next

/-- Whatever events come, of whatever runs and times, the row keeps its times in order, its outcome until a start and
its run's times from going back until a start is taken. -/
theorem heartbeat_keeps_time (records : List (DaemonHeartbeatRecord Time)) :
    ∀ row ∈ recorded none records, KeepsTime row := by
  intro row hrow
  have hordered : Ordered row := recorded_ordered records (fun row hnone => by cases hnone) row hrow
  have hstays : ∀ record : DaemonHeartbeatRecord Time, record.event ≠ .daemon_cycle_start →
      takesEvent row record = false → recordDaemonHeartbeat (some row) record = some row := by
    intro record hevent hrefused
    rcases recordDaemonHeartbeat_cases row record with hsame | ⟨⟨hstart, -⟩, -⟩ | ⟨-, htakes, -⟩
    · exact hsame
    · exact absurd hstart hevent
    · rw [hrefused] at htakes
      cases htakes
  constructor
  case ordered => exact hordered
  case terminal =>
    intro hterminal record hevent
    apply hstays record hevent
    by_contra htakes
    have hopen := (takesEvent_iff.mp (Bool.not_eq_false _ ▸ htakes)).1
    rw [hterminal] at hopen
    cases hopen
  case foreign =>
    intro record hrun hevent
    apply hstays record hevent
    by_contra htakes
    exact hrun (takesEvent_iff.mp (Bool.not_eq_false _ ▸ htakes)).2.1.symm
  case forward => exact fun later hwithin => recorded_wentOn later hordered hwithin

/-! ## Runs -/

def sampleRecord (event : DaemonHeartbeatEvent) (time : Nat) : DaemonHeartbeatRecord Nat :=
  ⟨1, event, false, none, some "run-a", time, none⟩

/-- Progress that comes late is not taken. -/
theorem heartbeat_keeps_time_of_late_progress :
    KeepsTime (terminalRow (sampleRecord .daemon_cycle_complete 200)) := by
  have hrun : recorded none [sampleRecord .daemon_cycle_complete 200, sampleRecord .daemon_cycle_progress 150] =
      some (terminalRow (sampleRecord .daemon_cycle_complete 200)) := by decide
  exact heartbeat_keeps_time _ _ hrun

/-- The late start of a run that has ended sets the run's time back. -/
theorem run_starts_again_earlier :
    ¬∀ (earlier later : List (DaemonHeartbeatRecord Nat)) (before after : DaemonHeartbeatRow Nat),
      recorded none earlier = some before → recorded none (earlier ++ later) = some after →
      after.runId = before.runId → NotAfter before.startedAt after.startedAt := by
  intro h
  have hback := h [sampleRecord .daemon_cycle_start 100, sampleRecord .daemon_cycle_complete 200]
    [sampleRecord .daemon_cycle_start 50] _ _ rfl rfl rfl 100 50 rfl rfl
  revert hback
  decide

end NeonDiff.Heartbeat
