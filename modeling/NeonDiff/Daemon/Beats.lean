import NeonDiff.Daemon.Passes

/-! # What the heartbeat row tells while passes run on

A pass records its progress under the run of the cycle that started it, in the row that the later cycles write. Any
heartbeat may fail to reach the store.
-/

namespace NeonDiff.Daemon

open NeonDiff.Lib NeonDiff.Heartbeat

/-! ## The last run in a log -/

structure LastRun where
  cycle : Nat
  runId : String
  /-- Nothing while no end of the run is stored. -/
  ok : Option Bool
  deriving DecidableEq

/-- The end of a run ends no other, and none twice. -/
def LastRun.close (run : LastRun) (runId : String) (ok : Bool) : LastRun :=
  if run.runId = runId ∧ run.ok = none then { run with ok := some ok } else run

theorem LastRun.close_own (cycle : Nat) (runId : String) (ok : Bool) :
    (LastRun.mk cycle runId none).close runId ok = ⟨cycle, runId, some ok⟩ := if_pos ⟨rfl, rfl⟩

theorem LastRun.close_other {run : LastRun} {runId : String} (h : run.runId ≠ runId ∨ run.ok ≠ none) (ok : Bool) :
    run.close runId ok = run := by
  unfold LastRun.close
  rw [if_neg]
  rintro ⟨hid, hopen⟩
  exact h.elim (fun hne => hne hid) fun hne => hne hopen

/-- The last run whose start is stored; in a store without a row (`found`) an end opens one. -/
def lastRun (found : Bool) : List Event → Option LastRun
  | [] => none
  | .started cycle runId true :: _ => some ⟨cycle, runId, none⟩
  | .finished cycle runId ok true :: older =>
    match lastRun found older with
    | some run => some (run.close runId ok)
    | none => if found then none else some ⟨cycle, runId, some ok⟩
  | _ :: older => lastRun found older

variable {Time : Type}

structure Running (cycle : Nat) (runId : String) (row : DaemonHeartbeatRow Time) : Prop where
  runId : row.runId = some runId
  startedCycle : row.startedCycle = some cycle
  completedAt : row.completedAt = none
  event : isTerminalEvent row.event = false

structure Ended (cycle : Nat) (runId : String) (ok : Bool) (row : DaemonHeartbeatRow Time) : Prop where
  runId : row.runId = some runId
  startedCycle : row.startedCycle = some cycle
  cycle : row.cycle = some cycle
  event : row.event = some (if ok then .daemon_cycle_complete else .daemon_cycle_failed)
  completedAt : row.completedAt ≠ none

/-- The row is the one of the last run, and before the first the one that was found. -/
def Tells (found : Option (DaemonHeartbeatRow Time)) (log : List Event) (row : Option (DaemonHeartbeatRow Time)) :
    Prop :=
  match lastRun found.isSome log with
  | none => row = found
  | some ⟨cycle, runId, none⟩ => ∃ r, row = some r ∧ Running cycle runId r
  | some ⟨cycle, runId, some ok⟩ => ∃ r, row = some r ∧ Ended cycle runId ok r

variable [LinearOrder Time] {env : Env Time} {config : DaemonConfig} {d d' : Process Time}
  {found : Option (DaemonHeartbeatRow Time)}

/-! ## Heartbeats on a row -/

/-- The row's times are not behind the clock's next readings. -/
structure InTime (env : Env Time) (beats : Nat) (row : DaemonHeartbeatRow Time) : Prop where
  startedAt : ∃ t, row.startedAt = some t ∧ ∀ n, beats ≤ n → t ≤ env.now n
  lastProgressAt : ∀ t, row.lastProgressAt = some t → ∀ n, beats ≤ n → t ≤ env.now n

theorem InTime.later {beats : Nat} {row : DaemonHeartbeatRow Time} (h : InTime env beats row) :
    InTime env (beats + 1) row := by
  obtain ⟨⟨t, ht, hle⟩, hprogress⟩ := h
  refine ⟨⟨t, ht, ?_⟩, ?_⟩
  · intro n hn
    exact hle n (by omega)
  · intro p hp n hn
    exact hprogress p hp n (by omega)

section

variable {row : DaemonHeartbeatRow Time} {record : DaemonHeartbeatRecord Time} {cycle beats : Nat} {runId : String}

theorem takesEvent_of_running (h : Running cycle runId row) (ht : InTime env beats row)
    (hrun : record.runId = some runId) (hnow : record.recordedAt = env.now beats) : takesEvent row record = true := by
  obtain ⟨⟨t, hstarted, hle⟩, hprogress⟩ := ht
  rw [takesEvent_iff, hnow]
  refine ⟨h.event, h.runId.trans hrun.symm, h.completedAt, ⟨t, hstarted, hle beats (le_refl _)⟩, ?_⟩
  intro p hp
  exact hprogress p hp beats (le_refl _)

theorem takesEvent_of_foreign (hrun : row.runId ≠ record.runId) : takesEvent row record = false := by
  by_contra htakes
  exact hrun (takesEvent_iff.mp (Bool.not_eq_false _ ▸ htakes)).2.1

theorem takesEvent_of_ended {ok : Bool} (h : Ended cycle runId ok row) : takesEvent row record = false := by
  by_contra htakes
  have hopen := (takesEvent_iff.mp (Bool.not_eq_false _ ▸ htakes)).1
  rw [h.event] at hopen
  cases ok <;> cases hopen

theorem progress_refused (hevent : record.event = .daemon_cycle_progress) (hno : takesEvent row record = false) :
    recordDaemonHeartbeat (some row) record = some row := by
  unfold recordDaemonHeartbeat
  rw [hevent]
  simp [hno]

theorem progress_running (h : Running cycle runId row) (ht : InTime env beats row) (hmono : Monotone env.now)
    (hevent : record.event = .daemon_cycle_progress) (hrun : record.runId = some runId)
    (hnow : record.recordedAt = env.now beats) :
    ∃ r, recordDaemonHeartbeat (some row) record = some r ∧ Running cycle runId r ∧ InTime env (beats + 1) r := by
  have htakes := takesEvent_of_running h ht hrun hnow
  refine ⟨{ touchedRow row record with lastProgressAt := some record.recordedAt }, ?_, ?_, ?_⟩
  · unfold recordDaemonHeartbeat
    rw [hevent]
    simp [htakes]
  · refine ⟨h.runId, h.startedCycle, h.completedAt, ?_⟩
    change isTerminalEvent (some record.event) = false
    rw [hevent]
    rfl
  · refine ⟨ht.later.startedAt, ?_⟩
    intro t hsome n hn
    obtain rfl := Option.some.inj hsome
    rw [hnow]
    exact hmono (by omega)

theorem finish_running (h : Running cycle runId row) (ht : InTime env beats row) {ok : Bool}
    (hevent : record.event = if ok then .daemon_cycle_complete else .daemon_cycle_failed)
    (hcycle : record.cycle = cycle) (hrun : record.runId = some runId) (hnow : record.recordedAt = env.now beats) :
    ∃ r, recordDaemonHeartbeat (some row) record = some r ∧ Ended cycle runId ok r := by
  have htakes := takesEvent_of_running h ht hrun hnow
  refine ⟨{ touchedRow row record with completedAt := some record.recordedAt }, ?_, ?_⟩
  · unfold recordDaemonHeartbeat
    rw [hevent]
    cases ok <;> simp [htakes]
  · refine ⟨h.runId, h.startedCycle, congrArg some hcycle, congrArg some hevent, ?_⟩
    intro hnone
    cases hnone

theorem finish_refused {ok : Bool} (hevent : record.event = if ok then .daemon_cycle_complete else .daemon_cycle_failed)
    (hno : takesEvent row record = false) : recordDaemonHeartbeat (some row) record = some row := by
  unfold recordDaemonHeartbeat
  rw [hevent]
  cases ok <;> simp [hno]

omit [LinearOrder Time] in
theorem terminalRow_ended {ok : Bool}
    (hevent : record.event = if ok then .daemon_cycle_complete else .daemon_cycle_failed)
    (hrun : record.runId = some runId) : Ended record.cycle runId ok (terminalRow record) := by
  refine ⟨hrun, rfl, rfl, congrArg some hevent, ?_⟩
  intro hnone
  cases hnone

theorem finish_opens {ok : Bool} (hevent : record.event = if ok then .daemon_cycle_complete else .daemon_cycle_failed) :
    recordDaemonHeartbeat none record = some (terminalRow record) := by
  unfold recordDaemonHeartbeat
  rw [hevent]
  cases ok <;> rfl

theorem start_fresh {current : Option (DaemonHeartbeatRow Time)} (hevent : record.event = .daemon_cycle_start)
    (hrun : record.runId = some runId) (hfresh : ∀ r, current = some r → r.runId ≠ some runId)
    (hcycle : record.cycle = cycle) (hnow : record.recordedAt = env.now beats) (hmono : Monotone env.now) :
    ∃ r, recordDaemonHeartbeat current record = some r ∧ Running cycle runId r ∧ InTime env (beats + 1) r := by
  have hnew : (current.any fun row => isRepeatedStart row record) = false := by
    cases current with
    | none => rfl
    | some row =>
      have hne : row.runId ≠ record.runId := by
        rw [hrun]
        exact hfresh row rfl
      rw [Option.any_some, isRepeatedStart, decide_eq_false hne]
      rfl
  refine ⟨startedRow record, ?_, ?_, ?_⟩
  · unfold recordDaemonHeartbeat
    rw [hevent]
    dsimp only
    rw [if_neg (by rw [hnew]; exact Bool.false_ne_true)]
  · exact ⟨hrun, congrArg some hcycle, rfl, rfl⟩
  · refine ⟨⟨record.recordedAt, rfl, ?_⟩, fun t ht => by cases ht⟩
    intro n hn
    rw [hnow]
    exact hmono (by omega)

end

/-! ## The invariant -/

omit [LinearOrder Time] in
theorem tells_of_none {log : List Event} {row : Option (DaemonHeartbeatRow Time)}
    (h : lastRun found.isSome log = none) : Tells found log row ↔ row = found := by
  unfold Tells
  rw [h]

omit [LinearOrder Time] in
theorem tells_of_running {log : List Event} {row : Option (DaemonHeartbeatRow Time)} {cycle : Nat} {runId : String}
    (h : lastRun found.isSome log = some ⟨cycle, runId, none⟩) :
    Tells found log row ↔ ∃ r, row = some r ∧ Running cycle runId r := by
  unfold Tells
  rw [h]

omit [LinearOrder Time] in
theorem tells_of_ended {log : List Event} {row : Option (DaemonHeartbeatRow Time)} {cycle : Nat} {runId : String}
    {ok : Bool} (h : lastRun found.isSome log = some ⟨cycle, runId, some ok⟩) :
    Tells found log row ↔ ∃ r, row = some r ∧ Ended cycle runId ok r := by
  unfold Tells
  rw [h]

omit [LinearOrder Time] in
theorem exists_row {log : List Event} {row : Option (DaemonHeartbeatRow Time)} {last : LastRun}
    (h : lastRun found.isSome log = some last) (htells : Tells found log row) : ∃ r, row = some r := by
  rcases last with ⟨cycle, runId, _ | ok⟩
  · obtain ⟨r, hr, -⟩ := (tells_of_running h).mp htells
    exact ⟨r, hr⟩
  · obtain ⟨r, hr, -⟩ := (tells_of_ended h).mp htells
    exact ⟨r, hr⟩

omit [LinearOrder Time] in
theorem tells_congr {log log' : List Event} {row : Option (DaemonHeartbeatRow Time)}
    (h : lastRun found.isSome log' = lastRun found.isSome log) : Tells found log' row ↔ Tells found log row := by
  unfold Tells
  rw [h]

/-- The row is the last stored run's, and every run so far has an id of its own. -/
structure Beats (env : Env Time) (found : Option (DaemonHeartbeatRow Time)) (d : Process Time) : Prop where
  tells : Tells found d.log d.row
  inTime : ∀ cycle runId, lastRun found.isSome d.log = some ⟨cycle, runId, none⟩ →
    ∀ r, d.row = some r → InTime env d.beats r
  runIds : ∀ last, lastRun found.isSome d.log = some last → ∃ n < d.runsBegun, last.runId = env.randomUUID n
  passIds : ∀ p ∈ d.passes, ∃ n < d.runsBegun, p.runId = env.randomUUID n

/-- Nothing that the row rests on differs. -/
structure Silent (d d' : Process Time) : Prop where
  row : d'.row = d.row
  beats : d'.beats = d.beats
  runsBegun : d'.runsBegun = d.runsBegun
  last : ∀ found, lastRun found d'.log = lastRun found d.log

theorem Beats.silent (h : Beats env found d) (hs : Silent d d')
    (hpasses : ∀ p ∈ d'.passes, (∃ n < d.runsBegun, p.runId = env.randomUUID n) ∨ ∃ q ∈ d.passes, q.runId = p.runId) :
    Beats env found d' := by
  constructor
  case tells =>
    rw [hs.row, tells_congr (hs.last _)]
    exact h.tells
  case inTime =>
    rw [hs.row, hs.last, hs.beats]
    exact h.inTime
  case runIds =>
    rw [hs.last, hs.runsBegun]
    exact h.runIds
  case passIds =>
    intro p hp
    rw [hs.runsBegun]
    rcases hpasses p hp with hnew | ⟨q, hq, heq⟩
    · exact hnew
    · rw [← heq]
      exact h.passIds q hq

theorem Beats.lost (h : Beats env found d) (hrow : d'.row = d.row) (hbeats : d'.beats = d.beats + 1)
    (hruns : d.runsBegun ≤ d'.runsBegun) (hlast : lastRun found.isSome d'.log = lastRun found.isSome d.log)
    (hpasses : d'.passes = d.passes) : Beats env found d' := by
  have hlater : ∀ runId, (∃ n < d.runsBegun, runId = env.randomUUID n) →
      ∃ n < d'.runsBegun, runId = env.randomUUID n := by
    rintro runId ⟨n, hn, heq⟩
    exact ⟨n, by omega, heq⟩
  constructor
  case tells =>
    rw [hrow, tells_congr hlast]
    exact h.tells
  case inTime =>
    rw [hrow, hlast, hbeats]
    exact fun cycle runId hrunning r hr => (h.inTime cycle runId hrunning r hr).later
  case runIds =>
    rw [hlast]
    exact fun last hsome => hlater _ (h.runIds last hsome)
  case passIds =>
    rw [hpasses]
    exact fun p hp => hlater _ (h.passIds p hp)

/-- A heartbeat goes to the row where it is stored. -/
structure Recorded (env : Env Time) (record : DaemonHeartbeatRecord Time) (d d' : Process Time) : Prop where
  row : d'.row = if env.stored d.beats then recordDaemonHeartbeat d.row record else d.row
  beats : d'.beats = d.beats + 1
  passes : d'.passes = d.passes
  runsBegun : d'.runsBegun = d.runsBegun

theorem Beats.unrecorded {record : DaemonHeartbeatRecord Time} (h : Beats env found d) (hrec : Recorded env record d d')
    (hlast : lastRun found.isSome d'.log = lastRun found.isSome d.log)
    (hsame : env.stored d.beats = true → recordDaemonHeartbeat d.row record = d.row) : Beats env found d' := by
  refine h.lost ?_ hrec.beats (le_of_eq hrec.runsBegun.symm) hlast hrec.passes
  rw [hrec.row]
  split
  · exact hsame ‹_›
  · rfl

theorem Beats.recorded {record : DaemonHeartbeatRecord Time} {last : LastRun} (h : Beats env found d)
    (hrec : Recorded env record d d') (hlast : lastRun found.isSome d'.log = some last)
    (hid : ∃ n < d.runsBegun, last.runId = env.randomUUID n) (htells : Tells found d'.log d'.row)
    (hintime : last.ok = none → ∀ r, d'.row = some r → InTime env (d.beats + 1) r) : Beats env found d' := by
  constructor
  case tells => exact htells
  case inTime =>
    intro cycle runId hrunning
    obtain rfl := Option.some.inj (hlast.symm.trans hrunning)
    rw [hrec.beats]
    exact hintime rfl
  case runIds =>
    intro last' hsome
    obtain rfl := Option.some.inj (hlast.symm.trans hsome)
    rw [hrec.runsBegun]
    exact hid
  case passIds =>
    rw [hrec.passes, hrec.runsBegun]
    exact h.passIds

structure OfRun (env : Env Time) (found : Option (DaemonHeartbeatRow Time)) (d : Process Time) (runId : String) :
    Prop where
  begun : ∃ n < d.runsBegun, runId = env.randomUUID n
  cycle : ∀ cycle, lastRun found.isSome d.log = some ⟨cycle, runId, none⟩ → cycle = d.cycle

omit [LinearOrder Time] in
theorem OfRun.silent {runId : String} (h : OfRun env found d runId) (hruns : d'.runsBegun = d.runsBegun)
    (hlast : lastRun found.isSome d'.log = lastRun found.isSome d.log) (hcycle : d'.cycle = d.cycle) :
    OfRun env found d' runId := by
  refine ⟨?_, ?_⟩
  · rw [hruns]
    exact h.begun
  · rw [hlast, hcycle]
    exact h.cycle

section

variable (hmono : Monotone env.now) (hinj : Function.Injective env.randomUUID)
  (hfound : ∀ r, found = some r → ∀ n, r.runId ≠ some (env.randomUUID n))

include hinj in
omit [LinearOrder Time] in
theorem fresh_runId {n : Nat} {runId : String} (h : ∃ m < n, runId = env.randomUUID m) : runId ≠ env.randomUUID n := by
  obtain ⟨m, hm, rfl⟩ := h
  intro heq
  have hsame := hinj heq
  omega

include hinj hfound in
theorem Beats.fresh (h : Beats env found d) (r : DaemonHeartbeatRow Time) (hr : d.row = some r) :
    r.runId ≠ some (env.randomUUID d.runsBegun) := by
  have htells := h.tells
  rcases hlast : lastRun found.isSome d.log with _ | ⟨cycle, runId, _ | ok⟩
  · rw [tells_of_none hlast] at htells
    exact hfound r (htells.symm.trans hr) d.runsBegun
  · obtain ⟨r', hr', hrunning⟩ := (tells_of_running hlast).mp htells
    obtain rfl := Option.some.inj (hr.symm.trans hr')
    rw [hrunning.runId]
    exact fun heq => fresh_runId hinj (h.runIds _ hlast) (Option.some.inj heq)
  · obtain ⟨r', hr', hended⟩ := (tells_of_ended hlast).mp htells
    obtain rfl := Option.some.inj (hr.symm.trans hr')
    rw [hended.runId]
    exact fun heq => fresh_runId hinj (h.runIds _ hlast) (Option.some.inj heq)

include hmono hinj hfound in
theorem begin_beats (h : Beats env found d) : Beats env found (d.begin env config) ∧
    OfRun env found (d.begin env config) (env.randomUUID d.runsBegun) := by
  have hbegun : ∃ n < (d.begin env config).runsBegun, env.randomUUID d.runsBegun = env.randomUUID n :=
    ⟨d.runsBegun, Nat.lt_succ_self _, rfl⟩
  have hlog : (d.begin env config).log =
      .started d.cycle (env.randomUUID d.runsBegun) (env.stored d.beats) :: d.log := rfl
  have hwrite : (d.begin env config).row = if env.stored d.beats then recordDaemonHeartbeat d.row
      (d.heartbeat env config .daemon_cycle_start none d.cycle (env.randomUUID d.runsBegun)) else d.row := rfl
  cases hstored : env.stored d.beats with
  | false =>
    rw [hstored] at hlog hwrite
    have hlast : lastRun found.isSome (d.begin env config).log = lastRun found.isSome d.log := by
      rw [hlog]
      rfl
    refine ⟨h.lost hwrite rfl (Nat.le_succ _) hlast rfl, hbegun, fun cycle hold => ?_⟩
    rw [hlast] at hold
    exact absurd rfl (fresh_runId hinj (h.runIds _ hold))
  | true =>
    rw [hstored] at hlog hwrite
    obtain ⟨r, hr, hrunning, hintime⟩ := @start_fresh Time _ env
      (d.heartbeat env config .daemon_cycle_start none d.cycle (env.randomUUID d.runsBegun)) d.cycle d.beats
      (env.randomUUID d.runsBegun) d.row rfl rfl (h.fresh hinj hfound) rfl rfl hmono
    have hlast : lastRun found.isSome (d.begin env config).log =
        some ⟨d.cycle, env.randomUUID d.runsBegun, none⟩ := by
      rw [hlog]
      rfl
    have hrow : (d.begin env config).row = some r := hwrite.trans hr
    refine ⟨⟨(tells_of_running hlast).mpr ⟨r, hrow, hrunning⟩, ?_, ?_, ?_⟩, hbegun, ?_⟩
    · intro cycle runId _ r' hr'
      obtain rfl := Option.some.inj (hrow.symm.trans hr')
      exact hintime
    · intro last hsome
      obtain rfl := Option.some.inj (hlast.symm.trans hsome)
      exact hbegun
    · intro p hp
      obtain ⟨n, hn, heq⟩ := h.passIds p hp
      exact ⟨n, Nat.lt_succ_of_lt hn, heq⟩
    · intro cycle hsome
      rw [hlast] at hsome
      cases hsome
      rfl

include hfound in
theorem Beats.refuses (h : Beats env found d) {record : DaemonHeartbeatRecord Time} {runId : String}
    (hrun : record.runId = some runId) (hid : ∃ n < d.runsBegun, runId = env.randomUUID n)
    (hother : ∀ last, lastRun found.isSome d.log = some last → last.runId ≠ runId ∨ last.ok ≠ none)
    (r : DaemonHeartbeatRow Time) (hr : d.row = some r) : takesEvent r record = false := by
  have htells := h.tells
  rcases hlast : lastRun found.isSome d.log with _ | ⟨cycle, last, _ | ok⟩
  · rw [tells_of_none hlast] at htells
    apply takesEvent_of_foreign
    obtain ⟨n, -, rfl⟩ := hid
    rw [hrun]
    exact hfound r (htells.symm.trans hr) n
  · obtain ⟨r', hr', hrunning⟩ := (tells_of_running hlast).mp htells
    obtain rfl := Option.some.inj (hr.symm.trans hr')
    apply takesEvent_of_foreign
    rw [hrun, hrunning.runId]
    intro heq
    exact (hother _ hlast).elim (fun hne => hne (Option.some.inj heq)) fun hne => hne rfl
  · obtain ⟨r', hr', hended⟩ := (tells_of_ended hlast).mp htells
    obtain rfl := Option.some.inj (hr.symm.trans hr')
    exact takesEvent_of_ended hended

include hmono hfound in
theorem progress_beats (h : Beats env found d) (error : Option String) (cycle : Nat) {runId : String}
    (hid : ∃ n < d.runsBegun, runId = env.randomUUID n) :
    Beats env found (d.recordHeartbeat env config .daemon_cycle_progress error cycle runId) := by
  generalize hrecord : d.heartbeat env config .daemon_cycle_progress error cycle runId = record
  generalize hd' : d.recordHeartbeat env config .daemon_cycle_progress error cycle runId = d'
  have hrun : record.runId = some runId := by rw [← hrecord]; rfl
  have hevent : record.event = .daemon_cycle_progress := by rw [← hrecord]; rfl
  have hnow : record.recordedAt = env.now d.beats := by rw [← hrecord]; rfl
  have hrec : Recorded env record d d' := by
    rw [← hd', ← hrecord]
    exact ⟨rfl, rfl, rfl, rfl⟩
  have hlog : lastRun found.isSome d'.log = lastRun found.isSome d.log := by rw [← hd']; rfl
  by_cases hown : env.stored d.beats = true ∧ ∃ c, lastRun found.isSome d.log = some ⟨c, runId, none⟩
  · obtain ⟨hstored, c, hlast⟩ := hown
    obtain ⟨r, hr, hrunning⟩ := (tells_of_running hlast).mp h.tells
    obtain ⟨r', hr', hrunning', hintime'⟩ := progress_running hrunning (h.inTime c runId hlast r hr) hmono hevent hrun
      hnow
    have hrow : d'.row = some r' := by rw [hrec.row, if_pos hstored, hr, hr']
    have hlast' := hlog.trans hlast
    refine h.recorded hrec hlast' hid ((tells_of_running hlast').mpr ⟨r', hrow, hrunning'⟩) fun _ r'' hr'' => ?_
    obtain rfl := Option.some.inj (hrow.symm.trans hr'')
    exact hintime'
  · refine h.unrecorded hrec hlog fun hstored => ?_
    cases hrow : d.row with
    | none =>
      unfold recordDaemonHeartbeat
      rw [hevent]
      rfl
    | some r =>
      refine progress_refused hevent (h.refuses hfound hrun hid (fun last hlast => ?_) r hrow)
      by_contra hsame
      push Not at hsame
      obtain ⟨rfl, hopen⟩ := hsame
      exact hown ⟨hstored, last.cycle, hlast.trans (by rw [← hopen])⟩

include hfound in
theorem finish_beats (h : Beats env found d) {runId : String} (hrunOf : OfRun env found d runId) (ok : Bool) :
    Beats env found (d.finish env config runId ok) := by
  generalize hrecord : d.heartbeat env config (if ok then .daemon_cycle_complete else .daemon_cycle_failed)
    (if ok then none else some "daemon_cycle_failed") d.cycle runId = record
  generalize hd' : d.finish env config runId ok = d'
  have hrun : record.runId = some runId := by rw [← hrecord]; rfl
  have hevent : record.event = if ok then .daemon_cycle_complete else .daemon_cycle_failed := by rw [← hrecord]; rfl
  have hnow : record.recordedAt = env.now d.beats := by rw [← hrecord]; rfl
  have hcycle : record.cycle = d.cycle := by rw [← hrecord]; rfl
  have hlog : d'.log = .finished d.cycle runId ok (env.stored d.beats) :: d.log := by rw [← hd']; rfl
  have hrec : Recorded env record d d' := by
    rw [← hd', ← hrecord]
    exact ⟨rfl, rfl, rfl, rfl⟩
  have hends : ∀ r, d'.row = some r → Ended d.cycle runId ok r →
      lastRun found.isSome d'.log = some ⟨d.cycle, runId, some ok⟩ → Beats env found d' := by
    intro r hrow hended hlast'
    exact h.recorded hrec hlast' hrunOf.begun ((tells_of_ended hlast').mpr ⟨r, hrow, hended⟩) fun hnone => by cases hnone
  cases hstored : env.stored d.beats with
  | false =>
    refine h.unrecorded hrec (by rw [hlog, hstored]; rfl) fun htrue => ?_
    rw [hstored] at htrue
    cases htrue
  | true =>
    have hwrite : d'.row = recordDaemonHeartbeat d.row record := by rw [hrec.row, if_pos hstored]
    have hclose : lastRun found.isSome d'.log = match lastRun found.isSome d.log with
        | some run => some (run.close runId ok)
        | none => if found.isSome then none else some ⟨d.cycle, runId, some ok⟩ := by
      rw [hlog, hstored]
      rfl
    cases hlast : lastRun found.isSome d.log with
    | none =>
      have htells := (tells_of_none hlast).mp h.tells
      rw [hlast] at hclose
      cases hrow : found with
      | some r =>
        subst hrow
        refine h.unrecorded hrec (hclose.trans hlast.symm) fun _ => ?_
        rw [htells]
        refine finish_refused hevent (h.refuses hfound hrun hrunOf.begun (fun last hsome => ?_) r htells)
        rw [hlast] at hsome
        cases hsome
      | none =>
        -- a store without a row takes the end of a run as its first
        subst hrow
        rw [htells, finish_opens hevent] at hwrite
        exact hends _ hwrite (hcycle ▸ terminalRow_ended hevent hrun) hclose
    | some last =>
      obtain ⟨r, hr⟩ := exists_row hlast h.tells
      rw [hlast] at hclose
      by_cases hown : last.runId = runId ∧ last.ok = none
      · obtain ⟨c, i, o⟩ := last
        obtain ⟨rfl, rfl⟩ := hown
        obtain rfl := hrunOf.cycle c hlast
        obtain ⟨r', hr', hrunning⟩ := (tells_of_running hlast).mp h.tells
        obtain rfl := Option.some.inj (hr.symm.trans hr')
        obtain ⟨r', hr', hended⟩ := finish_running hrunning (h.inTime _ _ hlast r hr) hevent hcycle hrun hnow
        refine hends r' (by rw [hwrite, hr, hr']) hended ?_
        exact hclose.trans (congrArg some (LastRun.close_own d.cycle i ok))
      · have hother : last.runId ≠ runId ∨ last.ok ≠ none := not_and_or.mp hown
        refine h.unrecorded hrec ?_ fun _ => ?_
        · exact (hclose.trans (congrArg some (LastRun.close_other hother ok))).trans hlast.symm
        · rw [hr]
          refine finish_refused hevent (h.refuses hfound hrun hrunOf.begun (fun last' hsome => ?_) r hr)
          obtain rfl := Option.some.inj (hlast.symm.trans hsome)
          exact hother

end

/-! ## Every run -/

def Stage.runId? : Stage → Option String
  | .reviewing runId => some runId
  | .retrying runId => some runId
  | .failing runId => some runId
  | _ => none

/-- The cycle that awaits something goes on in a run that has begun. -/
def Linked (env : Env Time) (found : Option (DaemonHeartbeatRow Time)) (d : Process Time) : Prop :=
  ∀ runId, d.stage.runId? = some runId → OfRun env found d runId

omit [LinearOrder Time] in
theorem linked_of_none (h : d.stage.runId? = none) : Linked env found d := by
  intro runId hsome
  rw [h] at hsome
  cases hsome

theorem Beats.quiet (h : Beats env found d) (hrow : d'.row = d.row) (hbeats : d'.beats = d.beats)
    (hruns : d'.runsBegun = d.runsBegun) (hlast : ∀ found, lastRun found d'.log = lastRun found d.log)
    (hpasses : d'.passes = d.passes) : Beats env found d' := by
  apply h.silent ⟨hrow, hbeats, hruns, hlast⟩
  rw [hpasses]
  exact fun p hp => .inr ⟨p, hp, rfl⟩

omit [LinearOrder Time] in
theorem sweepWorktrees_quiet : (sweepWorktrees d).row = d.row ∧ (sweepWorktrees d).beats = d.beats ∧
    (sweepWorktrees d).runsBegun = d.runsBegun ∧
    (∀ found, lastRun found (sweepWorktrees d).log = lastRun found d.log) ∧
    (sweepWorktrees d).passes = d.passes ∧ (sweepWorktrees d).cycle = d.cycle := by
  unfold sweepWorktrees
  by_cases hwaits : d.worktreeCleanupPending = true
  · rw [if_pos hwaits]
    cases d.issueEnrichmentPassInFlight with
    | some pass => exact ⟨rfl, rfl, rfl, fun _ => rfl, rfl, rfl⟩
    | none => exact ⟨rfl, rfl, rfl, fun _ => rfl, rfl, rfl⟩
  · rw [if_neg hwaits]
    exact ⟨rfl, rfl, rfl, fun _ => rfl, rfl, rfl⟩

theorem startIssueEnrichmentPass_beats (h : Beats env found d) (admissions : Option DaemonCycleAdmissions)
    {runId : String} (hrun : OfRun env found d runId) :
    Beats env found (startIssueEnrichmentPass admissions runId d) ∧
      OfRun env found (startIssueEnrichmentPass admissions runId d) runId := by
  unfold startIssueEnrichmentPass
  cases d.issueEnrichmentPassInFlight with
  | some pass => exact ⟨h.quiet rfl rfl rfl (fun _ => rfl) rfl, hrun.silent rfl rfl rfl⟩
  | none =>
    dsimp only
    unfold runIssueEnrichmentLane
    have hpasses : ∀ working, ∀ p ∈ (⟨d.passesBegun, d.cycle, runId, working⟩ : Pass) :: d.passes,
        (∃ n < d.runsBegun, p.runId = env.randomUUID n) ∨ ∃ q ∈ d.passes, q.runId = p.runId := by
      intro working p hp
      rcases List.mem_cons.mp hp with rfl | hp
      · exact .inl hrun.begun
      · exact .inr ⟨p, hp, rfl⟩
    split_ifs
    · exact ⟨h.silent ⟨rfl, rfl, rfl, fun _ => rfl⟩ (hpasses false), hrun.silent rfl rfl rfl⟩
    · exact ⟨h.silent ⟨rfl, rfl, rfl, fun _ => rfl⟩ (hpasses true), hrun.silent rfl rfl rfl⟩

section

variable (hmono : Monotone env.now) (hinj : Function.Injective env.randomUUID)
  (hfound : ∀ r, found = some r → ∀ n, r.runId ≠ some (env.randomUUID n))

include hmono hinj hfound in
theorem runDaemonCycle_beats (h : Beats env found d) (admissions : Option DaemonCycleAdmissions) :
    Beats env found (runDaemonCycle env config admissions d) ∧
      Linked env found (runDaemonCycle env config admissions d) := by
  obtain ⟨hrow, hbeats, hruns, hlast, hpasses, hcycle⟩ := @sweepWorktrees_quiet Time (noteDue config d)
  have hswept : Beats env found (sweepWorktrees (noteDue config d)) := h.quiet hrow hbeats hruns hlast hpasses
  obtain ⟨hbegun, hrun⟩ := @begin_beats Time _ env config _ found hmono hinj hfound hswept
  rw [show (sweepWorktrees (noteDue config d)).runsBegun = d.runsBegun from hruns] at hrun
  have hpass : ∃ d₁, d₁ = (if config.issueEnrichmentEnabled then
        startIssueEnrichmentPass admissions (env.randomUUID d.runsBegun)
          ((sweepWorktrees (noteDue config d)).begin env config)
      else (sweepWorktrees (noteDue config d)).begin env config) ∧ Beats env found d₁ ∧
      OfRun env found d₁ (env.randomUUID d.runsBegun) := by
    refine ⟨_, rfl, ?_⟩
    split_ifs
    · exact startIssueEnrichmentPass_beats hbegun admissions hrun
    · exact ⟨hbegun, hrun⟩
  obtain ⟨d₁, heq, hkept, hof⟩ := hpass
  unfold runDaemonCycle
  dsimp only
  rw [← heq]
  by_cases hheld : config.reviewLane = .held
  · rw [if_pos hheld]
    exact ⟨finish_beats hfound hkept hof true, linked_of_none rfl⟩
  · rw [if_neg hheld]
    refine ⟨hkept.quiet rfl rfl rfl (fun _ => rfl) rfl, ?_⟩
    intro runId hsome
    obtain rfl := Option.some.inj hsome
    exact hof.silent rfl rfl rfl

include hmono hfound in
theorem afterReview_beats (h : Beats env found d) (hlinked : Linked env found d) {runId : String}
    (hstage : d.stage = .reviewing runId) (ok : Bool) :
    Beats env found (afterReview env config runId ok d) ∧ Linked env found (afterReview env config runId ok d) := by
  have hof : OfRun env found d runId := hlinked runId (by rw [hstage]; rfl)
  have hprogress := @progress_beats Time _ env config d found hmono hfound h none d.cycle runId hof.begun
  have hlinks : ∀ d₂ : Process Time, d₂.log = d.log → d₂.cycle = d.cycle → d₂.runsBegun = d.runsBegun →
      d₂.stage.runId? = some runId → Linked env found d₂ := by
    intro d₂ hlog hcycle hruns hrun runId' hrun'
    obtain rfl := Option.some.inj (hrun.symm.trans hrun')
    exact hof.silent hruns (by rw [hlog]) hcycle
  unfold afterReview
  dsimp only
  split_ifs
  · exact ⟨finish_beats hfound hprogress (hof.silent rfl rfl rfl) true, linked_of_none rfl⟩
  · exact ⟨hprogress.quiet rfl rfl rfl (fun _ => rfl) rfl, hlinks _ rfl rfl rfl rfl⟩
  · exact ⟨h.quiet rfl rfl rfl (fun _ => rfl) rfl, hlinks _ rfl rfl rfl rfl⟩

include hmono hinj hfound in
theorem takes_beats (h : Beats env found d) (hlinked : Linked env found d) (ht : Takes env config d d') :
    Beats env found d' ∧ Linked env found d' := by
  cases ht with
  | wake => exact ⟨h.quiet rfl rfl rfl (fun _ => rfl) rfl, linked_of_none rfl⟩
  | allow admissions => exact runDaemonCycle_beats hmono hinj hfound h admissions
  | deny => exact ⟨h.quiet rfl rfl rfl (fun _ => rfl) rfl, linked_of_none rfl⟩
  | denied => exact ⟨h.quiet rfl rfl rfl (fun _ => rfl) rfl, linked_of_none rfl⟩
  | failed runId hstage =>
    exact ⟨finish_beats hfound h (hlinked runId (by rw [hstage]; rfl)) false, linked_of_none rfl⟩
  | reviewed runId hstage ok => exact afterReview_beats hmono hfound h hlinked hstage ok
  | retried runId hstage =>
    exact ⟨finish_beats hfound h (hlinked runId (by rw [hstage]; rfl)) true, linked_of_none rfl⟩
  | resume result =>
    unfold afterCycle
    dsimp only
    split_ifs
    · exact ⟨h.quiet rfl rfl rfl (fun _ => rfl) rfl, linked_of_none rfl⟩
    · exact ⟨h.quiet rfl rfl rfl (fun _ => rfl) rfl, linked_of_none rfl⟩
    · exact ⟨h.quiet rfl rfl rfl (fun _ => rfl) rfl, linked_of_none rfl⟩
  | awaited => exact ⟨h.quiet rfl rfl rfl (fun _ => rfl) rfl, linked_of_none rfl⟩
  | analysed pass hpass _ ok =>
    have hprogress := @progress_beats Time _ env config d found hmono hfound h
      (if ok then none else some "issue_enrichment_failed") pass.cycle pass.runId (h.passIds pass hpass)
    refine ⟨hprogress.silent ⟨rfl, rfl, rfl, fun _ => rfl⟩ ?_, ?_⟩
    · intro p hp
      obtain ⟨q, hq, rfl⟩ := List.mem_map.mp hp
      refine .inr ⟨q, hq, ?_⟩
      unfold Pass.ended
      split_ifs <;> rfl
    · intro runId hsome
      exact (hlinked runId hsome).silent rfl rfl rfl
  | settled pass hpass hended =>
    refine ⟨h.silent ⟨rfl, rfl, rfl, fun _ => rfl⟩ ?_, ?_⟩
    · intro p hp
      exact .inr ⟨p, List.mem_of_mem_filter hp, rfl⟩
    · intro runId hsome
      exact (hlinked runId hsome).silent rfl rfl rfl

end

/-! ### Which steps record -/

/-- The steps at which a heartbeat is recorded: a cycle is admitted, goes on or ends, or the analysis of a pass does. -/
def Records (d : Process Time) : Act → Prop
  | .allow _ => True
  | .reviewed _ => True
  | .retried => True
  | .failureRecorded => ∃ runId, d.stage = .failing runId
  | .analysed _ _ => True
  | _ => False

theorem row_of_not_records {act : Act} (hstep : step env config d act = some d') (hnot : ¬Records d act) :
    d'.row = d.row := by
  unfold step at hstep
  cases act with
  | allow admissions => exact absurd trivial hnot
  | reviewed ok => exact absurd trivial hnot
  | retried => exact absurd trivial hnot
  | analysed serial ok => exact absurd trivial hnot
  | settled serial =>
    obtain ⟨pass, -, rfl⟩ := Option.map_eq_some_iff.mp hstep
    rfl
  | wake =>
    cases hstage : d.stage <;> rw [hstage] at hstep <;> cases hstep
    rfl
  | deny =>
    cases hstage : d.stage <;> rw [hstage] at hstep <;> cases hstep
    rfl
  | failureRecorded =>
    cases hstage : d.stage <;> rw [hstage] at hstep <;> cases hstep
    · rfl
    · exact absurd ⟨_, hstage⟩ hnot
  | resume =>
    cases hstage : d.stage <;> rw [hstage] at hstep <;> cases hstep
    unfold afterCycle
    dsimp only
    split_ifs <;> rfl
  | awaited =>
    cases hstage : d.stage with
    | exiting awaits failed =>
      rw [hstage] at hstep
      dsimp only at hstep
      split_ifs at hstep
      obtain rfl := Option.some.inj hstep
      rfl
    | _ =>
      rw [hstage] at hstep
      cases hstep

/-- What a cycle that is denied does from its timer to the next one, and passes that settle meanwhile. -/
def Act.isOfDenied : Act → Bool
  | .wake => true
  | .deny => true
  | .failureRecorded => true
  | .resume => true
  | .settled _ => true
  | .awaited => true
  | _ => false

theorem denied_step {act : Act} (hstage : d.stage.runId? = none) (hact : act.isOfDenied = true)
    (hstep : step env config d act = some d') : d'.row = d.row ∧ d'.stage.runId? = none := by
  have hnot : ¬Records d act := by
    intro hrecords
    cases act with
    | failureRecorded =>
      obtain ⟨runId, hfailing⟩ := hrecords
      rw [hfailing] at hstage
      cases hstage
    | allow | reviewed | retried | analysed => cases hact
    | wake | deny | resume | settled | awaited => exact hrecords
  refine ⟨row_of_not_records hstep hnot, ?_⟩
  unfold step at hstep
  cases act with
  | allow | reviewed | retried | analysed => cases hact
  | settled serial =>
    obtain ⟨pass, -, rfl⟩ := Option.map_eq_some_iff.mp hstep
    exact hstage
  | wake | deny | failureRecorded =>
    cases hnow : d.stage <;> rw [hnow] at hstep <;> cases hstep
    all_goals rfl
  | resume =>
    cases hnow : d.stage <;> rw [hnow] at hstep <;> cases hstep
    unfold afterCycle
    dsimp only
    split_ifs <;> rfl
  | awaited =>
    cases hnow : d.stage with
    | exiting awaits failed =>
      rw [hnow] at hstep
      dsimp only at hstep
      split_ifs at hstep
      obtain rfl := Option.some.inj hstep
      rfl
    | _ =>
      rw [hnow] at hstep
      cases hstep

theorem denied_cycle {acts : List Act} (hstage : d.stage.runId? = none) (hacts : ∀ act ∈ acts, act.isOfDenied = true)
    (hrun : Lib.run (step env config) d acts = some d') : d'.row = d.row := by
  induction acts generalizing d with
  | nil =>
    obtain rfl := Option.some.inj hrun
    rfl
  | cons act acts ih =>
    obtain ⟨d₁, hstep, hrest⟩ := run_cons_eq_some.mp hrun
    obtain ⟨hrow, hnext⟩ := denied_step hstage (hacts act List.mem_cons_self) hstep
    rw [ih hnext (fun a ha => hacts a (List.mem_cons_of_mem _ ha)) hrest, hrow]

/-- While the clock does not go back and no id of a run comes twice, the row is at any time that of the last run whose
start is stored: of a run that goes on until its end is stored, and then of how it ended, whatever passes of earlier
cycles record and whatever heartbeats are lost. A cycle that is denied leaves the row as it was. -/
theorem heartbeat_tells {row : Option (DaemonHeartbeatRow Time)} (hmono : Monotone env.now)
    (hinj : Function.Injective env.randomUUID) (hrow : ∀ r, row = some r → ∀ n, r.runId ≠ some (env.randomUUID n))
    (h : Reachable env config row d) :
    Tells row d.log d.row ∧
      (∀ act d', step env config d act = some d' → ¬Records d act → d'.row = d.row) ∧
      ∀ acts d', d.stage = .sleeping → (∀ act ∈ acts, act.isOfDenied = true) →
        Lib.run (step env config) d acts = some d' → d'.row = d.row := by
  have hboth : Beats env row d ∧ Linked env row d := by
    apply h.invariant
    · refine ⟨⟨rfl, ?_, ?_, ?_⟩, linked_of_none rfl⟩
      · intro cycle runId hlast
        cases hlast
      · intro last hlast
        cases hlast
      · intro p hp
        cases hp
    · rintro d d' ⟨hbeats, hlinked⟩ ht
      exact takes_beats hmono hinj hrow hbeats hlinked ht
  refine ⟨hboth.1.tells, fun act d' hstep hnot => row_of_not_records hstep hnot, ?_⟩
  intro acts d' hsleeping hacts hrun
  exact denied_cycle (by rw [hsleeping]; rfl) hacts hrun

/-! ### Progress that comes behind the next cycle -/

/-- The start of the second run is lost. -/
def lossyEnv : Env Nat := { slowEnv with stored := fun n => n ≠ 3 }

theorem lossyEnv_injective : Function.Injective lossyEnv.randomUUID := by
  intro m n h
  have hlength := congrArg (fun s : String => s.toList.length) h
  simpa [lossyEnv, slowEnv] using hlength

theorem heartbeat_tells_of_slow_pass :
    ∃ d, Lib.run (step lossyEnv slowConfig) (Process.init none) slowPass = some d ∧ d.runsBegun = 2 ∧
      lastRun false d.log = some ⟨1, "", some true⟩ ∧ Tells none d.log d.row := by
  refine ⟨_, rfl, rfl, by decide +kernel, ?_⟩
  refine (@heartbeat_tells Nat _ lossyEnv slowConfig _ none monotone_id lossyEnv_injective ?_ ⟨slowPass, rfl⟩).1
  intro r hr
  cases hr

end NeonDiff.Daemon
