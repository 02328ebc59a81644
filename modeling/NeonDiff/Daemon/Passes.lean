import NeonDiff.Daemon.Model

/-! # Passes, cleanups and the end of the process

At most one pass is under way. No worktrees are cleaned up meanwhile, as the pass may use one; the cleanup stays due.
-/

namespace NeonDiff.Daemon

open NeonDiff.Lib NeonDiff.Heartbeat

/-! ## What a log tells -/

def InFlight (log : List Event) (serial : Nat) : Prop :=
  (∃ cycle, .passBegun serial cycle ∈ log) ∧ .passSettled serial ∉ log

def Analysing (log : List Event) (serial : Nat) : Prop :=
  .analysisBegun serial ∈ log ∧ ∀ ok, .analysisEnded serial ok ∉ log

def IsDue (e : Event) : Prop := ∃ cycle, e = .admitted cycle true

def IsCleanup (e : Event) : Prop := ∃ cycle, e = .cleanup cycle

def Waiting (log : List Event) : Prop := Unused IsDue IsCleanup log

/-- What an event may come after. -/
def Orderly (e : Event) (older : List Event) : Prop :=
  match e with
  | .cleanup cycle =>
    (∀ serial, ¬InFlight older serial) ∧ Waiting older ∧ ∃ due, older.head? = some (.admitted cycle due)
  | .cleanupDeferred _ _ => (∃ serial, InFlight older serial) ∧ Waiting older
  | .started cycle _ _ => Waiting older → ∃ startedCycle, older.head? = some (.cleanupDeferred cycle startedCycle)
  | .passBegun _ _ => ∀ serial, ¬InFlight older serial
  | .analysisBegun _ => ∀ serial, ¬Analysing older serial
  | .exited _ => ∀ serial, ¬InFlight older serial
  | _ => True

/-! ## The variables say what the log says -/

def Event.serial? : Event → Option Nat
  | .passBegun serial _ => some serial
  | .analysisSkipped serial => some serial
  | .analysisBegun serial => some serial
  | .analysisEnded serial _ => some serial
  | .passSettled serial => some serial
  | _ => none

variable {Time : Type} [LinearOrder Time] {env : Env Time} {config : DaemonConfig} {d d' : Process Time}

/-- At most one coroutine, and the variables agree with it and with the log. -/
structure Kept (d : Process Time) : Prop where
  refs : d.passes.map Pass.serial = d.issueEnrichmentPassInFlight.toList.map PassRef.serial
  fresh : ∀ e ∈ d.log, ∀ n ∈ e.serial?, n < d.passesBegun
  inFlight : ∀ serial, InFlight d.log serial ↔ ∃ p ∈ d.passes, p.serial = serial
  analysing : ∀ serial, Analysing d.log serial ↔ ∃ p ∈ d.passes, p.serial = serial ∧ p.working = true
  pending : d.worktreeCleanupPending = true ↔ Waiting d.log
  orderly : Each Orderly d.log

omit [LinearOrder Time] in
theorem Kept.passes_nil (h : Kept d) (hnone : d.issueEnrichmentPassInFlight = none) : d.passes = [] := by
  have hrefs := h.refs
  rw [hnone] at hrefs
  exact List.map_eq_nil_iff.mp hrefs

omit [LinearOrder Time] in
theorem Kept.passes_one (h : Kept d) {pass : Pass} (hpass : pass ∈ d.passes) :
    d.passes = [pass] ∧ ∃ r, d.issueEnrichmentPassInFlight = some r ∧ r.serial = pass.serial := by
  have hrefs := h.refs
  cases hflight : d.issueEnrichmentPassInFlight with
  | none =>
    rw [h.passes_nil hflight] at hpass
    cases hpass
  | some r =>
    rw [hflight, Option.toList_some, List.map_singleton] at hrefs
    obtain ⟨p, hp, hserial⟩ := List.map_eq_singleton_iff.mp hrefs
    rw [hp, List.mem_singleton] at hpass
    subst hpass
    exact ⟨hp, r, rfl, hserial.symm⟩

/-- An event that neither a pass nor a cleanup is told by. -/
structure Plain (e : Event) : Prop where
  serial : e.serial? = none
  due : ¬IsDue e
  cleanup : ¬IsCleanup e

def Event.isPlain : Event → Bool
  | .cleanupDeferred _ _ => true
  | .started _ _ _ => true
  | .passInFlight _ _ => true
  | .reviewBegun _ => true
  | .finished _ _ _ _ => true
  | .denied _ => true
  | .exited _ => true
  | _ => false

theorem plain {e : Event} (h : e.isPlain = true) : Plain e := by
  constructor
  case serial => cases e <;> first | rfl | cases h
  case due =>
    rintro ⟨cycle, rfl⟩
    cases h
  case cleanup =>
    rintro ⟨cycle, rfl⟩
    cases h

theorem waiting_cons {e : Event} (hdue : ¬IsDue e) (hcleanup : ¬IsCleanup e) {log : List Event} :
    Waiting (e :: log) ↔ Waiting log := by
  constructor
  · rintro (h | ⟨-, h⟩)
    · exact absurd h hdue
    · exact h
  · exact fun h => Unused.cons h hcleanup

theorem inFlight_cons {e : Event} (hserial : e.serial? = none) {log : List Event} {serial : Nat} :
    InFlight (e :: log) serial ↔ InFlight log serial := by
  have hbegun : ∀ cycle, .passBegun serial cycle ≠ e := by
    rintro cycle rfl
    cases hserial
  have hsettled : .passSettled serial ≠ e := by
    rintro rfl
    cases hserial
  unfold InFlight
  simp [List.mem_cons, hbegun, hsettled]

theorem analysing_cons {e : Event} (hserial : e.serial? = none) {log : List Event} {serial : Nat} :
    Analysing (e :: log) serial ↔ Analysing log serial := by
  have hbegun : .analysisBegun serial ≠ e := by
    rintro rfl
    cases hserial
  have hended : ∀ ok, .analysisEnded serial ok ≠ e := by
    rintro ok rfl
    cases hserial
  unfold Analysing
  simp [List.mem_cons, hbegun, hended]

omit [LinearOrder Time] in
theorem Kept.note (h : Kept d) {e : Event} (hplain : Plain e) (horder : Orderly e d.log) : Kept (d.note e) where
  refs := h.refs
  fresh := by
    intro f hf n hn
    rcases List.mem_cons.mp hf with rfl | hf
    · rw [hplain.serial] at hn
      cases hn
    · exact h.fresh f hf n hn
  inFlight serial := (inFlight_cons hplain.serial).trans (h.inFlight serial)
  analysing serial := (analysing_cons hplain.serial).trans (h.analysing serial)
  pending := h.pending.trans (waiting_cons hplain.due hplain.cleanup).symm
  orderly := ⟨horder, h.orderly⟩

/-- Only the stage, the cycle, the row and the counters of runs and heartbeats differ. -/
structure Aside (d d' : Process Time) : Prop where
  inFlight : d'.issueEnrichmentPassInFlight = d.issueEnrichmentPassInFlight
  pending : d'.worktreeCleanupPending = d.worktreeCleanupPending
  passes : d'.passes = d.passes
  passesBegun : d'.passesBegun = d.passesBegun
  log : d'.log = d.log

omit [LinearOrder Time] in
theorem Kept.aside (h : Kept d) (ha : Aside d d') : Kept d' := by
  constructor
  case refs => rw [ha.passes, ha.inFlight, h.refs]
  case fresh =>
    rw [ha.log, ha.passesBegun]
    exact h.fresh
  case inFlight =>
    rw [ha.log, ha.passes]
    exact h.inFlight
  case analysing =>
    rw [ha.log, ha.passes]
    exact h.analysing
  case pending =>
    rw [ha.log, ha.pending]
    exact h.pending
  case orderly =>
    rw [ha.log]
    exact h.orderly

omit [LinearOrder Time] in
theorem Kept.noted (h : Kept d) (e : Event) (he : e.isPlain = true) (horder : Orderly e d.log)
    (ha : Aside (d.note e) d') : Kept d' := (h.note (plain he) horder).aside ha

theorem aside_recordHeartbeat (event : DaemonHeartbeatEvent) (error : Option String) (cycle : Nat) (runId : String) :
    Aside d (d.recordHeartbeat env config event error cycle runId) := ⟨rfl, rfl, rfl, rfl, rfl⟩

/-! ## Cleanups -/

omit [LinearOrder Time] in
theorem noteDue_kept (h : Kept d) : Kept (noteDue config d) := by
  unfold noteDue
  generalize config.worktreeCleanupDue d.cycle = due
  generalize hcycle : d.cycle = cycle
  constructor
  case refs => exact h.refs
  case fresh =>
    intro f hf n hn
    rcases List.mem_cons.mp hf with rfl | hf
    · cases hn
    · exact h.fresh f hf n hn
  case inFlight => exact fun serial => (inFlight_cons rfl).trans (h.inFlight serial)
  case analysing => exact fun serial => (analysing_cons rfl).trans (h.analysing serial)
  case pending =>
    change (d.worktreeCleanupPending || due) = true ↔ Waiting (.admitted cycle due :: d.log)
    have hcleanup : ¬IsCleanup (.admitted cycle due) := by
      rintro ⟨c, hc⟩
      cases hc
    cases due with
    | true =>
      rw [Bool.or_true]
      exact ⟨fun _ => Or.inl ⟨cycle, rfl⟩, fun _ => rfl⟩
    | false =>
      have hdue : ¬IsDue (.admitted cycle false) := by
        rintro ⟨c, hc⟩
        cases hc
      rw [Bool.or_false, waiting_cons hdue hcleanup]
      exact h.pending
  case orderly => exact ⟨trivial, h.orderly⟩

omit [LinearOrder Time] in
theorem cleanWorktrees_kept (h : Kept d) (horder : Orderly (.cleanup d.cycle) d.log) : Kept (cleanWorktrees d) := by
  constructor
  case refs => exact h.refs
  case fresh =>
    intro f hf n hn
    rcases List.mem_cons.mp hf with rfl | hf
    · cases hn
    · exact h.fresh f hf n hn
  case inFlight => exact fun serial => (inFlight_cons rfl).trans (h.inFlight serial)
  case analysing => exact fun serial => (analysing_cons rfl).trans (h.analysing serial)
  case pending =>
    refine ⟨fun hfalse => absurd hfalse Bool.false_ne_true, ?_⟩
    rintro (⟨c, hc⟩ | ⟨hno, -⟩)
    · cases hc
    · exact absurd ⟨d.cycle, rfl⟩ hno
  case orderly => exact ⟨horder, h.orderly⟩

omit [LinearOrder Time] in
theorem Kept.busy (h : Kept d) {r : PassRef} (hflight : d.issueEnrichmentPassInFlight = some r) :
    ∃ serial, InFlight d.log serial := by
  have hrefs := h.refs
  rw [hflight, Option.toList_some, List.map_singleton] at hrefs
  obtain ⟨p, hp, -⟩ := List.map_eq_singleton_iff.mp hrefs
  exact ⟨p.serial, (h.inFlight _).mpr ⟨p, by rw [hp]; exact List.mem_cons_self, rfl⟩⟩

omit [LinearOrder Time] in
theorem Kept.idle (h : Kept d) (hnone : d.issueEnrichmentPassInFlight = none) (serial : Nat) :
    ¬InFlight d.log serial := by
  rw [h.inFlight, h.passes_nil hnone]
  rintro ⟨p, hp, -⟩
  cases hp

omit [LinearOrder Time] in
theorem sweepWorktrees_kept (h : Kept d) {due : Bool} (hhead : d.log.head? = some (.admitted d.cycle due)) :
    Kept (sweepWorktrees d) ∧ (sweepWorktrees d).cycle = d.cycle ∧
      (Waiting (sweepWorktrees d).log →
        ∃ startedCycle, (sweepWorktrees d).log.head? = some (.cleanupDeferred d.cycle startedCycle)) := by
  unfold sweepWorktrees
  by_cases hwaits : d.worktreeCleanupPending = true
  · rw [if_pos hwaits]
    have hwaiting := h.pending.mp hwaits
    cases hflight : d.issueEnrichmentPassInFlight with
    | some pass =>
      exact ⟨h.note (plain rfl) ⟨h.busy hflight, hwaiting⟩, rfl, fun _ => ⟨pass.cycle, rfl⟩⟩
    | none =>
      refine ⟨cleanWorktrees_kept h ⟨h.idle hflight, hwaiting, due, hhead⟩, rfl, ?_⟩
      rintro (⟨c, hc⟩ | ⟨hno, -⟩)
      · cases hc
      · exact absurd ⟨d.cycle, rfl⟩ hno
  · rw [if_neg hwaits]
    exact ⟨h, rfl, fun hwaiting => absurd (h.pending.mpr hwaiting) hwaits⟩

/-! ## Passes -/

omit [LinearOrder Time] in
theorem Kept.unheard (h : Kept d) {e : Event} (he : e.serial? = some d.passesBegun) : e ∉ d.log := by
  intro hmem
  have hlt := h.fresh e hmem d.passesBegun he
  omega

/-- The log behind the first steps of a pass. -/
def begunLog (serial cycle : Nat) (working : Bool) (log : List Event) : List Event :=
  (if working then .analysisBegun serial else .analysisSkipped serial) :: .passBegun serial cycle :: log

theorem mem_begunLog {serial cycle : Nat} {working : Bool} {log : List Event} {e : Event} :
    e ∈ begunLog serial cycle working log ↔
      e = (if working then .analysisBegun serial else .analysisSkipped serial) ∨ e = .passBegun serial cycle ∨
        e ∈ log := by
  rw [begunLog, List.mem_cons, List.mem_cons]

omit [LinearOrder Time] in
theorem Kept.inFlight_begun (h : Kept d) (hnone : d.issueEnrichmentPassInFlight = none) (cycle : Nat) (working : Bool)
    (serial : Nat) : InFlight (begunLog d.passesBegun cycle working d.log) serial ↔ serial = d.passesBegun := by
  have hidle := h.idle hnone serial
  constructor
  · rintro ⟨⟨c, hc⟩, hsettled⟩
    rcases mem_begunLog.mp hc with heq | heq | hmem
    · cases working <;> cases heq
    · cases heq
      rfl
    · exact absurd ⟨⟨c, hmem⟩, fun hold => hsettled (mem_begunLog.mpr (.inr (.inr hold)))⟩ hidle
  · rintro rfl
    refine ⟨⟨cycle, mem_begunLog.mpr (.inr (.inl rfl))⟩, ?_⟩
    intro hsettled
    rcases mem_begunLog.mp hsettled with heq | heq | hmem
    · cases working <;> cases heq
    · cases heq
    · exact h.unheard rfl hmem

omit [LinearOrder Time] in
theorem Kept.analysing_begun (h : Kept d) (hnone : d.issueEnrichmentPassInFlight = none) (cycle : Nat) (working : Bool)
    (serial : Nat) :
    Analysing (begunLog d.passesBegun cycle working d.log) serial ↔ serial = d.passesBegun ∧ working = true := by
  have hidle : ¬Analysing d.log serial := by
    rw [h.analysing, h.passes_nil hnone]
    rintro ⟨p, hp, -⟩
    cases hp
  constructor
  · rintro ⟨hbegun, hended⟩
    rcases mem_begunLog.mp hbegun with heq | heq | hmem
    · cases working with
      | true =>
        cases heq
        exact ⟨rfl, rfl⟩
      | false => cases heq
    · cases heq
    · exact absurd ⟨hmem, fun ok hold => hended ok (mem_begunLog.mpr (.inr (.inr hold)))⟩ hidle
  · rintro ⟨rfl, rfl⟩
    refine ⟨mem_begunLog.mpr (.inl rfl), ?_⟩
    intro ok hended
    rcases mem_begunLog.mp hended with heq | heq | hmem
    · cases heq
    · cases heq
    · exact h.unheard rfl hmem

omit [LinearOrder Time] in
theorem Kept.begin_pass (h : Kept d) (hnone : d.issueEnrichmentPassInFlight = none) {working : Bool} {cycle : Nat}
    {runId : String} (hflight : d'.issueEnrichmentPassInFlight = some ⟨d.passesBegun, cycle⟩)
    (hpasses : d'.passes = ⟨d.passesBegun, cycle, runId, working⟩ :: d.passes)
    (hbegun : d'.passesBegun = d.passesBegun + 1) (hpending : d'.worktreeCleanupPending = d.worktreeCleanupPending)
    (hlog : d'.log = begunLog d.passesBegun cycle working d.log) : Kept d' := by
  rw [h.passes_nil hnone] at hpasses
  have hidle : ∀ serial, ¬Analysing d.log serial := by
    intro serial
    rw [h.analysing, h.passes_nil hnone]
    rintro ⟨p, hp, -⟩
    cases hp
  have hfirst : ∀ serial, ¬Analysing (.passBegun d.passesBegun cycle :: d.log) serial := by
    rintro serial ⟨hbegun, hended⟩
    rcases List.mem_cons.mp hbegun with heq | hmem
    · cases heq
    · exact hidle serial ⟨hmem, fun ok hold => hended ok (List.mem_cons_of_mem _ hold)⟩
  constructor
  case refs => rw [hpasses, hflight]; rfl
  case fresh =>
    intro e he n hn
    rw [hlog, mem_begunLog] at he
    rw [hbegun]
    rcases he with rfl | rfl | he
    · cases working <;> cases hn <;> omega
    · cases hn
      omega
    · have := h.fresh e he n hn
      omega
  case inFlight =>
    intro serial
    rw [hlog, hpasses, h.inFlight_begun hnone]
    simp only [List.mem_singleton, exists_eq_left]
    exact eq_comm
  case analysing =>
    intro serial
    rw [hlog, hpasses, h.analysing_begun hnone, @eq_comm _ serial]
    simp only [List.mem_singleton, exists_eq_left]
  case pending =>
    have hplain : Waiting (begunLog d.passesBegun cycle working d.log) ↔ Waiting d.log := by
      unfold begunLog
      rw [waiting_cons, waiting_cons]
      all_goals
        rintro ⟨c, hc⟩
        first | cases hc | (cases working <;> cases hc)
    rw [hpending, hlog, hplain, h.pending]
  case orderly =>
    rw [hlog]
    refine ⟨?_, h.idle hnone, h.orderly⟩
    cases working with
    | true => exact hfirst
    | false => trivial

omit [LinearOrder Time] in
theorem startIssueEnrichmentPass_kept (h : Kept d) (admissions : Option DaemonCycleAdmissions) (runId : String) :
    Kept (startIssueEnrichmentPass admissions runId d) := by
  unfold startIssueEnrichmentPass
  cases hflight : d.issueEnrichmentPassInFlight with
  | some pass => exact h.note (plain rfl) trivial
  | none =>
    dsimp only
    unfold runIssueEnrichmentLane
    split_ifs with hskip
    · exact h.begin_pass hflight rfl rfl rfl rfl rfl
    · exact h.begin_pass hflight rfl rfl rfl rfl rfl

theorem afterAnalysis_kept (h : Kept d) {pass : Pass} (hpass : pass ∈ d.passes) (ok : Bool) :
    Kept (afterAnalysis env config pass ok d) := by
  obtain ⟨hone, r, hr, hserial⟩ := h.passes_one hpass
  unfold afterAnalysis
  generalize hbeat : d.recordHeartbeat env config _ _ _ _ = d'
  have haside : Aside d d' := hbeat ▸ aside_recordHeartbeat _ _ _ _
  have hkept := h.aside haside
  rw [← haside.passes] at hone
  dsimp only
  have hended : d'.passes.map (Pass.ended pass.serial) = [{ pass with working := false }] := by
    rw [hone, List.map_singleton, Pass.ended, if_pos rfl]
  constructor
  case refs =>
    change (d'.passes.map (Pass.ended pass.serial)).map Pass.serial = _
    rw [hended]
    have hrefs := hkept.refs
    rwa [hone] at hrefs
  case fresh =>
    intro e he n hn
    rcases List.mem_cons.mp he with rfl | he
    · cases hn
      have hbegun := ((hkept.inFlight pass.serial).mpr ⟨pass, by rw [hone]; exact List.mem_cons_self, rfl⟩).1
      obtain ⟨cycle, hcycle⟩ := hbegun
      exact hkept.fresh _ hcycle _ rfl
    · exact hkept.fresh e he n hn
  case inFlight =>
    intro serial
    change InFlight (_ :: d'.log) serial ↔ ∃ p ∈ d'.passes.map (Pass.ended pass.serial), p.serial = serial
    rw [hended]
    have hold := hkept.inFlight serial
    rw [hone] at hold
    unfold InFlight at hold ⊢
    simpa using hold
  case analysing =>
    intro serial
    change Analysing (_ :: d'.log) serial ↔
      ∃ p ∈ d'.passes.map (Pass.ended pass.serial), p.serial = serial ∧ p.working = true
    rw [hended]
    constructor
    · rintro ⟨hbegun, hnone⟩
      rcases List.mem_cons.mp hbegun with heq | hbegun
      · cases heq
      · obtain ⟨p, hp, hp', -⟩ := (hkept.analysing serial).mp
          ⟨hbegun, fun ok hold => hnone ok (List.mem_cons_of_mem _ hold)⟩
        rw [hone, List.mem_singleton] at hp
        subst hp hp'
        exact absurd List.mem_cons_self (hnone ok)
    · rintro ⟨p, hp, -, hworking⟩
      rw [List.mem_singleton] at hp
      subst hp
      cases hworking
  case pending =>
    refine hkept.pending.trans (waiting_cons ?_ ?_).symm
    · rintro ⟨c, hc⟩
      cases hc
    · rintro ⟨c, hc⟩
      cases hc
  case orderly => exact ⟨trivial, hkept.orderly⟩

omit [LinearOrder Time] in
theorem settle_kept (h : Kept d) {pass : Pass} (hpass : pass ∈ d.passes) (hended : pass.working = false) :
    Kept (settle pass.serial d) := by
  obtain ⟨hone, r, hr, hserial⟩ := h.passes_one hpass
  have hnil : d.passes.filter (fun p => p.serial ≠ pass.serial) = [] := by
    rw [hone]
    simp
  constructor
  case refs =>
    change (d.passes.filter _).map _ = (d.issueEnrichmentPassInFlight.filter _).toList.map _
    rw [hnil, hr, Option.filter_some, if_neg (by simp [hserial])]
    rfl
  case fresh =>
    intro e he n hn
    rcases List.mem_cons.mp he with rfl | he
    · cases hn
      obtain ⟨cycle, hcycle⟩ := ((h.inFlight pass.serial).mpr ⟨pass, hpass, rfl⟩).1
      exact h.fresh _ hcycle _ rfl
    · exact h.fresh e he n hn
  case inFlight =>
    intro serial
    change InFlight (_ :: d.log) serial ↔ ∃ p ∈ d.passes.filter _, p.serial = serial
    rw [hnil]
    constructor
    · rintro ⟨⟨cycle, hcycle⟩, hsettled⟩
      rcases List.mem_cons.mp hcycle with heq | hcycle
      · cases heq
      · obtain ⟨p, hp, hp'⟩ := (h.inFlight serial).mp
          ⟨⟨cycle, hcycle⟩, fun hold => hsettled (List.mem_cons_of_mem _ hold)⟩
        rw [hone, List.mem_singleton] at hp
        subst hp hp'
        exact absurd List.mem_cons_self hsettled
    · rintro ⟨p, hp, -⟩
      cases hp
  case analysing =>
    intro serial
    change Analysing (_ :: d.log) serial ↔ ∃ p ∈ d.passes.filter _, p.serial = serial ∧ p.working = true
    rw [hnil]
    constructor
    · rintro ⟨hbegun, hnone⟩
      rcases List.mem_cons.mp hbegun with heq | hbegun
      · cases heq
      · obtain ⟨p, hp, -, hworking⟩ := (h.analysing serial).mp
          ⟨hbegun, fun ok hold => hnone ok (List.mem_cons_of_mem _ hold)⟩
        rw [hone, List.mem_singleton] at hp
        rw [hp, hended] at hworking
        cases hworking
    · rintro ⟨p, hp, -⟩
      cases hp
  case pending =>
    refine h.pending.trans (waiting_cons ?_ ?_).symm
    · rintro ⟨c, hc⟩
      cases hc
    · rintro ⟨c, hc⟩
      cases hc
  case orderly => exact ⟨trivial, h.orderly⟩

/-! ## Every run -/

theorem finish_kept (h : Kept d) (runId : String) (ok : Bool) : Kept (d.finish env config runId ok) :=
  h.noted (.finished d.cycle runId ok (env.stored d.beats)) rfl trivial ⟨rfl, rfl, rfl, rfl, rfl⟩

theorem begin_kept (h : Kept d)
    (horder : Orderly (.started d.cycle (env.randomUUID d.runsBegun) (env.stored d.beats)) d.log) :
    Kept (d.begin env config) :=
  h.noted (.started d.cycle (env.randomUUID d.runsBegun) (env.stored d.beats)) rfl horder ⟨rfl, rfl, rfl, rfl, rfl⟩

theorem runDaemonCycle_kept (h : Kept d) (admissions : Option DaemonCycleAdmissions) :
    Kept (runDaemonCycle env config admissions d) := by
  obtain ⟨hswept, hcycle, hdeferred⟩ := sweepWorktrees_kept (@noteDue_kept Time config d h) rfl
  have hbegun : Kept ((sweepWorktrees (noteDue config d)).begin env config) := by
    apply begin_kept hswept
    rw [hcycle]
    exact hdeferred
  have hpass : Kept (if config.issueEnrichmentEnabled then
      startIssueEnrichmentPass admissions (env.randomUUID d.runsBegun)
        ((sweepWorktrees (noteDue config d)).begin env config)
      else (sweepWorktrees (noteDue config d)).begin env config) := by
    split_ifs
    · exact startIssueEnrichmentPass_kept hbegun admissions _
    · exact hbegun
  unfold runDaemonCycle
  dsimp only
  by_cases hheld : config.reviewLane = .held
  · rw [if_pos hheld]
    exact finish_kept hpass _ true
  · rw [if_neg hheld]
    exact hpass.noted (.reviewBegun _) rfl trivial ⟨rfl, rfl, rfl, rfl, rfl⟩

theorem afterReview_kept (h : Kept d) (runId : String) (ok : Bool) : Kept (afterReview env config runId ok d) := by
  have hbeat := h.aside (@aside_recordHeartbeat Time _ env config d .daemon_cycle_progress none d.cycle runId)
  unfold afterReview
  dsimp only
  split_ifs
  · exact finish_kept hbeat runId true
  · exact hbeat.aside ⟨rfl, rfl, rfl, rfl, rfl⟩
  · exact h.aside ⟨rfl, rfl, rfl, rfl, rfl⟩

omit [LinearOrder Time] in
theorem afterCycle_kept (h : Kept d) (result : DaemonCycleResult) : Kept (afterCycle config result d) := by
  unfold afterCycle
  dsimp only
  split_ifs
  · exact h.aside ⟨rfl, rfl, rfl, rfl, rfl⟩
  · exact h.aside ⟨rfl, rfl, rfl, rfl, rfl⟩
  · exact h.aside ⟨rfl, rfl, rfl, rfl, rfl⟩

/-- The process ends behind the pass that it waits for: no other has begun since. -/
def Awaits (d : Process Time) : Prop :=
  ∀ awaits failed, d.stage = .exiting awaits failed →
    ∀ r, d.issueEnrichmentPassInFlight = some r → awaits = some r.serial

theorem takes_kept (h : Kept d) (hawaits : Awaits d) (ht : Takes env config d d') : Kept d' := by
  cases ht with
  | wake => exact h.aside ⟨rfl, rfl, rfl, rfl, rfl⟩
  | allow admissions => exact runDaemonCycle_kept h admissions
  | deny => exact h.aside ⟨rfl, rfl, rfl, rfl, rfl⟩
  | denied => exact h.noted (.denied d.cycle) rfl trivial ⟨rfl, rfl, rfl, rfl, rfl⟩
  | failed runId => exact finish_kept h runId false
  | reviewed runId _ ok => exact afterReview_kept h runId ok
  | retried runId => exact finish_kept h runId true
  | resume result => exact afterCycle_kept h result
  | awaited awaits failed hstage hsettled =>
    refine h.noted (.exited failed) rfl ?_ ⟨rfl, rfl, rfl, rfl, rfl⟩
    intro serial
    cases hflight : d.issueEnrichmentPassInFlight with
    | none => exact h.idle hflight serial
    | some r =>
      obtain ⟨p, hp, hserial⟩ : ∃ p ∈ d.passes, p.serial = r.serial := by
        have hrefs := h.refs
        rw [hflight, Option.toList_some, List.map_singleton] at hrefs
        obtain ⟨p, hp, hserial⟩ := List.map_eq_singleton_iff.mp hrefs
        exact ⟨p, by rw [hp]; exact List.mem_cons_self, hserial⟩
      exact absurd hserial (hsettled r.serial (by rw [hawaits awaits failed hstage r hflight]; rfl) p hp)
  | analysed pass hpass _ ok => exact afterAnalysis_kept h hpass ok
  | settled pass hpass hended => exact settle_kept h hpass hended

omit [LinearOrder Time] in
theorem awaits_of_stage (h : ∀ awaits failed, d.stage ≠ .exiting awaits failed) : Awaits d :=
  fun awaits failed hstage => absurd hstage (h awaits failed)

theorem takes_awaits (hawaits : Awaits d) (ht : Takes env config d d') : Awaits d' := by
  cases ht with
  | wake => exact awaits_of_stage fun _ _ h => by cases h
  | allow admissions =>
    apply awaits_of_stage
    intro awaits failed h
    unfold runDaemonCycle at h
    dsimp only at h
    by_cases hheld : config.reviewLane = .held
    · rw [if_pos hheld] at h
      cases h
    · rw [if_neg hheld] at h
      cases h
  | deny => exact awaits_of_stage fun _ _ h => by cases h
  | denied => exact awaits_of_stage fun _ _ h => by cases h
  | failed runId => exact awaits_of_stage fun _ _ h => by cases h
  | reviewed runId _ ok =>
    apply awaits_of_stage
    intro awaits failed h
    unfold afterReview at h
    dsimp only at h
    split_ifs at h
    all_goals cases h
  | retried runId => exact awaits_of_stage fun _ _ h => by cases h
  | resume result =>
    intro awaits failed hstage r hflight
    unfold afterCycle at hstage hflight
    dsimp only at hstage hflight
    split_ifs at hstage hflight <;> cases hstage
    · rw [hflight]
      rfl
    · rw [hflight]
      rfl
  | awaited => exact awaits_of_stage fun _ _ h => by cases h
  | analysed pass hpass _ ok => exact fun awaits failed hstage r hflight => hawaits awaits failed hstage r hflight
  | settled pass hpass hended =>
    intro awaits failed hstage r hflight
    exact hawaits awaits failed hstage r (Option.filter_eq_some_iff.mp hflight).1

omit [LinearOrder Time] in
theorem kept_init (row : Option (DaemonHeartbeatRow Time)) : Kept (Process.init row) := by
  constructor
  case refs => rfl
  case fresh =>
    intro e he
    cases he
  case inFlight =>
    intro serial
    constructor
    · rintro ⟨⟨cycle, h⟩, -⟩
      cases h
    · rintro ⟨p, h, -⟩
      cases h
  case analysing =>
    intro serial
    constructor
    · rintro ⟨h, -⟩
      cases h
    · rintro ⟨p, h, -⟩
      cases h
  case pending => exact ⟨fun h => absurd h Bool.false_ne_true, False.elim⟩
  case orderly => trivial

/-- Whatever ends when: an analysis begins and worktrees are cleaned up only while no other pass is under way, a cleanup
that is due stays due until a cycle without a pass makes it, and the process ends behind its pass. -/
theorem daemon_orderly {row : Option (DaemonHeartbeatRow Time)} (h : Reachable env config row d) :
    Each Orderly d.log := by
  have hboth : Kept d ∧ Awaits d := by
    apply h.invariant
    · exact ⟨kept_init row, awaits_of_stage fun _ _ h => by cases h⟩
    · rintro d d' ⟨hkept, hawaits⟩ ht
      exact ⟨takes_kept hkept hawaits ht, takes_awaits hawaits ht⟩
  exact hboth.1.orderly

/-! ### A pass that outlasts its cycle -/

def slowEnv : Env Nat := ⟨id, fun _ => true, fun n => String.ofList (List.replicate n 'x')⟩

/-- A cleanup is due in every cycle. -/
def slowConfig : DaemonConfig :=
  ⟨false, false, .active, true, true, true, 1000, 1000, Nat.zero_lt_succ _, Nat.zero_lt_succ _⟩

def slowPass : List Act :=
  [.wake, .allow none, .reviewed true, .resume, .wake, .allow none, .reviewed true, .resume, .analysed 0 true,
    .settled 0]

theorem daemon_orderly_of_slow_pass :
    ∃ d, Lib.run (step slowEnv slowConfig) (Process.init none) slowPass = some d ∧ Each Orderly d.log :=
  ⟨_, rfl, @daemon_orderly Nat _ slowEnv slowConfig _ none ⟨slowPass, rfl⟩⟩

end NeonDiff.Daemon
