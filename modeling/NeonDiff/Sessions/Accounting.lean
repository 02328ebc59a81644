import Mathlib.Tactic.Linarith
import Mathlib.Data.Rat.Lemmas
import NeonDiff.Sessions.Model

/-! # Every head is accounted to its session

Each operation either closes sessions, or gives one job to an open session, or sets one job's state.
-/

namespace NeonDiff.Sessions

open NeonDiff.Lib NeonDiff.Lib.IsoDate NeonDiff.Store SessionStore

/-! ## The invariant -/

def jobsOf (s : SessionStore) (sessionId : String) : Nat := s.jobs.rows.countP fun job => job.sessionId = sessionId

structure Accounted (s : SessionStore) : Prop where
  counted : ∀ r ∈ s.sessions.rows, r.headCountUsed = jobsOf s r.sessionId
  within : ∀ r ∈ s.sessions.rows, r.headCountUsed ≤ r.headCountLimit
  oneJob : ∀ j ∈ s.jobs.rows, ∀ k ∈ s.jobs.rows, j.head = k.head → j = k
  drained : ∀ r ∈ s.sessions.rows, r.state = .draining →
    ∃ job ∈ s.jobs.rows, job.sessionId = r.sessionId ∧ job.jobState.isFinished = false

/-- Every job's session stands: the foreign key. -/
def Housed (s : SessionStore) : Prop :=
  ∀ job ∈ s.jobs.rows, ∃ r ∈ s.sessions.rows, r.sessionId = job.sessionId

theorem unfinishedJobs_pos {s : SessionStore} {sessionId : String} :
    0 < s.unfinishedJobs sessionId ↔
      ∃ job ∈ s.jobs.rows, job.sessionId = sessionId ∧ job.jobState.isFinished = false := by
  simp [unfinishedJobs, List.countP_pos_iff]

/-! ## Updates -/

theorem mem_updateSessions {s : SessionStore} {p : ReviewerSessionRecord → Bool}
    {f : ReviewerSessionRecord → ReviewerSessionRecord} {hf : ∀ r, (f r).sessionId = r.sessionId}
    {r' : ReviewerSessionRecord} :
    r' ∈ (s.updateSessions p f hf).sessions.rows ↔ ∃ r ∈ s.sessions.rows, (if p r then f r else r) = r' := by
  simp only [updateSessions, Table.mem_update]

@[simp] theorem jobs_updateSessions (s : SessionStore) (p : ReviewerSessionRecord → Bool)
    (f : ReviewerSessionRecord → ReviewerSessionRecord) (hf : ∀ r, (f r).sessionId = r.sessionId) :
    (s.updateSessions p f hf).jobs = s.jobs := rfl

theorem mem_updateJob {s : SessionStore} {head : HeadKey} {f : ReviewerSessionJobRecord → ReviewerSessionJobRecord}
    {hf : ∀ job, (f job).head = job.head} {job' : ReviewerSessionJobRecord} :
    job' ∈ (s.updateJob head f hf).jobs.rows ↔ ∃ job ∈ s.jobs.rows, (if job.head = head then f job else job) = job' := by
  simp only [updateJob, Table.mem_update]

/-! ## Closing sessions -/

structure Closed (r r' : ReviewerSessionRecord) : Prop where
  sessionId : r'.sessionId = r.sessionId
  used : r'.headCountUsed = r.headCountUsed
  limit : r'.headCountLimit = r.headCountLimit
  state : r'.state = r.state ∨ r'.state = .expired ∨ r'.state = .failed

theorem Closed.refl (r : ReviewerSessionRecord) : Closed r r := ⟨rfl, rfl, rfl, Or.inl rfl⟩

theorem Closed.trans {r r' r'' : ReviewerSessionRecord} (h : Closed r r') (h' : Closed r' r'') : Closed r r'' where
  sessionId := h'.sessionId.trans h.sessionId
  used := h'.used.trans h.used
  limit := h'.limit.trans h.limit
  state := by
    rcases h'.state with hs | hs
    · rw [hs]
      exact h.state
    · exact Or.inr hs

/-- Some sessions are closed and nothing else happens. -/
structure Closes (s s' : SessionStore) : Prop where
  jobs : s'.jobs = s.jobs
  before : ∀ r' ∈ s'.sessions.rows, ∃ r ∈ s.sessions.rows, Closed r r'
  after : ∀ r ∈ s.sessions.rows, ∃ r' ∈ s'.sessions.rows, Closed r r'

theorem Closes.refl (s : SessionStore) : Closes s s where
  jobs := rfl
  before r hr := ⟨r, hr, .refl r⟩
  after r hr := ⟨r, hr, .refl r⟩

theorem Closes.trans {s s' s'' : SessionStore} (h : Closes s s') (h' : Closes s' s'') : Closes s s'' where
  jobs := h'.jobs.trans h.jobs
  before r'' hr'' := by
    obtain ⟨r', hr', hc'⟩ := h'.before r'' hr''
    obtain ⟨r, hr, hc⟩ := h.before r' hr'
    exact ⟨r, hr, hc.trans hc'⟩
  after r hr := by
    obtain ⟨r', hr', hc⟩ := h.after r hr
    obtain ⟨r'', hr'', hc'⟩ := h'.after r' hr'
    exact ⟨r'', hr'', hc.trans hc'⟩

theorem closes_updateSessions (s : SessionStore) (p : ReviewerSessionRecord → Bool)
    (f : ReviewerSessionRecord → ReviewerSessionRecord) (hf : ∀ r, (f r).sessionId = r.sessionId)
    (hclosed : ∀ r, Closed r (f r)) : Closes s (s.updateSessions p f hf) := by
  have hrow : ∀ r, Closed r (if p r then f r else r) := by
    intro r
    split
    · exact hclosed r
    · exact .refl r
  constructor
  · rfl
  · intro r' hr'
    obtain ⟨r, hr, rfl⟩ := mem_updateSessions.mp hr'
    exact ⟨r, hr, hrow r⟩
  · intro r hr
    exact ⟨_, mem_updateSessions.mpr ⟨r, hr, rfl⟩, hrow r⟩

theorem closes_expire (nowIso : String) (repo : Option String) (s : SessionStore) :
    Closes s (s.expireReviewerSessions nowIso repo).2 := by
  unfold expireReviewerSessions
  dsimp only
  apply closes_updateSessions
  intro r
  exact ⟨rfl, rfl, rfl, Or.inr (Or.inl rfl)⟩

theorem closes_failSession (pid : Nat) (sessionId : String) (s : SessionStore) :
    Closes s (s.failSession pid sessionId) := by
  unfold failSession
  apply closes_updateSessions
  intro r
  exact ⟨rfl, rfl, rfl, Or.inr (Or.inr rfl)⟩

theorem closes_failDeadWorkers (isProcessAlive : Nat → Bool) (rows : List ReviewerSessionRecord) (s : SessionStore) :
    Closes s (failDeadWorkers isProcessAlive rows s).2 := by
  induction rows generalizing s with
  | nil => exact .refl s
  | cons row rows ih =>
    unfold failDeadWorkers
    split
    · exact ih s
    · split
      · exact ih s
      · exact (closes_failSession _ _ s).trans (ih _)

theorem closes_reconcile (isProcessAlive : Nat → Bool) (nowIso : String) (repo : Option String) (s : SessionStore) :
    Closes s (s.reconcileReviewerSessions isProcessAlive nowIso repo).2 :=
  (closes_expire nowIso repo s).trans (closes_failDeadWorkers _ _ _)

theorem closes_expireDrained (sessionId : String) (s : SessionStore) :
    Closes s (s.expireDrainedReviewerSessionIfComplete sessionId) := by
  unfold expireDrainedReviewerSessionIfComplete
  split
  · exact .refl s
  · split
    · exact .refl s
    · split
      · exact .refl s
      · apply closes_updateSessions
        intro r
        exact ⟨rfl, rfl, rfl, Or.inr (Or.inl rfl)⟩

theorem Closes.draining {s s' : SessionStore} (h : Closes s s') {r' : ReviewerSessionRecord}
    (hr' : r' ∈ s'.sessions.rows) (hstate : r'.state = .draining) :
    ∃ r ∈ s.sessions.rows, r.sessionId = r'.sessionId ∧ r.state = .draining := by
  obtain ⟨r, hr, hc⟩ := h.before r' hr'
  refine ⟨r, hr, hc.sessionId.symm, ?_⟩
  rcases hc.state with hs | hs | hs
  · exact hs.symm.trans hstate
  · rw [hstate] at hs
    cases hs
  · rw [hstate] at hs
    cases hs

theorem Housed.closes {s s' : SessionStore} (hhoused : Housed s) (h : Closes s s') : Housed s' := by
  intro job hjob
  rw [h.jobs] at hjob
  obtain ⟨r, hr, hid⟩ := hhoused job hjob
  obtain ⟨r', hr', hc⟩ := h.after r hr
  exact ⟨r', hr', hc.sessionId.trans hid⟩

theorem Accounted.closes {s s' : SessionStore} (hs : Accounted s) (h : Closes s s') : Accounted s' where
  counted r' hr' := by
    obtain ⟨r, hr, hc⟩ := h.before r' hr'
    have hcount := hs.counted r hr
    unfold jobsOf at hcount ⊢
    rw [h.jobs, hc.used, hc.sessionId, hcount]
  within r' hr' := by
    obtain ⟨r, hr, hc⟩ := h.before r' hr'
    have hwithin := hs.within r hr
    rw [hc.used, hc.limit]
    exact hwithin
  oneJob := by
    rw [h.jobs]
    exact hs.oneJob
  drained r' hr' hstate := by
    obtain ⟨r, hr, hid, hdraining⟩ := h.draining hr' hstate
    rw [h.jobs, ← hid]
    exact hs.drained r hr hdraining

/-! ## The session a job goes to -/

theorem firstLiveSession_spec {isProcessAlive : Nat → Bool} {rows : List ReviewerSessionRecord}
    {s s' : SessionStore} {found : Option ReviewerSessionRecord}
    (h : firstLiveSession isProcessAlive rows s = (found, s')) (hmem : ∀ r ∈ rows, r ∈ s.sessions.rows)
    (hnodup : (rows.map (·.sessionId)).Nodup) :
    Closes s s' ∧ ∀ session, found = some session →
      ∃ r ∈ rows, session = mapReviewerSessionRow r ∧ r ∈ s'.sessions.rows := by
  induction rows generalizing s with
  | nil =>
    cases h
    exact ⟨.refl _, nofun⟩
  | cons row rows ih =>
    rw [List.map_cons, List.nodup_cons] at hnodup
    have hhead : firstLiveSession isProcessAlive (row :: rows) s = (some (mapReviewerSessionRow row), s) →
        Closes s s' ∧ ∀ session, found = some session →
          ∃ r ∈ row :: rows, session = mapReviewerSessionRow r ∧ r ∈ s'.sessions.rows := by
      intro hlive
      rw [hlive] at h
      cases h
      refine ⟨.refl _, fun session hsession => ?_⟩
      exact ⟨row, List.mem_cons_self, (Option.some.inj hsession).symm, hmem row List.mem_cons_self⟩
    cases hpid : (mapReviewerSessionRow row).workerPid with
    | none =>
      apply hhead
      unfold firstLiveSession
      simp only [hpid]
    | some pid =>
      cases halive : isProcessAlive pid with
      | true =>
        apply hhead
        unfold firstLiveSession
        simp only [hpid, halive, if_true]
      | false =>
        have hnext : firstLiveSession isProcessAlive rows (s.failSession pid row.sessionId) = (found, s') := by
          unfold firstLiveSession at h
          simp only [hpid, halive] at h
          exact h
        -- The rows that are left have other ids than the row that fails.
        have hleft : ∀ r ∈ rows, r ∈ (s.failSession pid row.sessionId).sessions.rows := by
          intro r hr
          have hne : r.sessionId ≠ row.sessionId := fun he => hnodup.1 (he ▸ List.mem_map_of_mem hr)
          apply mem_updateSessions.mpr
          exact ⟨r, hmem r (List.mem_cons_of_mem _ hr), by simp [hne]⟩
        obtain ⟨hcloses, hfound⟩ := ih hnext hleft hnodup.2
        refine ⟨(closes_failSession pid row.sessionId s).trans hcloses, fun session hsession => ?_⟩
        obtain ⟨r, hr, hmap, hin⟩ := hfound session hsession
        exact ⟨r, List.mem_cons_of_mem _ hr, hmap, hin⟩

theorem getReusableReviewerSession_spec {isProcessAlive : Nat → Bool} {repo nowIso : String} {s s' : SessionStore}
    {found : Option ReviewerSessionRecord}
    (h : s.getReusableReviewerSession isProcessAlive repo nowIso = (found, s')) :
    Closes s s' ∧ ∀ session, found = some session →
      ∃ r ∈ s.sessions.rows, isReusable repo nowIso r = true ∧ session = mapReviewerSessionRow r ∧
        r ∈ s'.sessions.rows := by
  have hperm := List.perm_insertionSort (fun a b => usedBefore a b = true)
    (s.sessions.rows.filter (isReusable repo nowIso))
  have hmem : ∀ r ∈ (s.sessions.rows.filter (isReusable repo nowIso)).insertionSort fun a b => usedBefore a b,
      r ∈ s.sessions.rows ∧ isReusable repo nowIso r = true := by
    intro r hr
    exact List.mem_filter.mp (hperm.mem_iff.mp hr)
  have hnodup : (((s.sessions.rows.filter (isReusable repo nowIso)).insertionSort
      fun a b => usedBefore a b).map (·.sessionId)).Nodup :=
    (hperm.map _).nodup_iff.mpr (s.sessions.nodup.sublist (List.filter_sublist.map _))
  obtain ⟨hcloses, hfound⟩ := firstLiveSession_spec h (fun r hr => (hmem r hr).1) hnodup
  refine ⟨hcloses, fun session hsession => ?_⟩
  obtain ⟨r, hr, hmap, hin⟩ := hfound session hsession
  exact ⟨r, (hmem r hr).1, (hmem r hr).2, hmap, hin⟩

/-- A session that may be given a job: a new one, or one that serves below its limit and before its end. -/
def Admits (s : SessionStore) (nowIso sessionId : String) : Prop :=
  s.sessions.find? sessionId = none ∨
  ∃ r, s.sessions.find? sessionId = some r ∧ (r.state = .warming ∨ r.state = .active) ∧
    r.headCountUsed < r.headCountLimit ∧ nowIso < r.expiresAt

theorem isReusable_iff {repo nowIso : String} {r : ReviewerSessionRecord} :
    isReusable repo nowIso r = true ↔ r.repo = repo ∧ (r.state = .warming ∨ r.state = .active) ∧
      nowIso < r.expiresAt ∧ r.headCountUsed < r.headCountLimit := by
  simp [isReusable, isServing, and_assoc]

theorem mem_of_mem_expire {nowIso repo : String} {expired : Option String} {s : SessionStore}
    {r : ReviewerSessionRecord} (hr : r ∈ (s.expireReviewerSessions nowIso expired).2.sessions.rows)
    (hreusable : isReusable repo nowIso r = true) : r ∈ s.sessions.rows := by
  simp only [expireReviewerSessions, mem_updateSessions] at hr
  obtain ⟨old, hold, hrow⟩ := hr
  split at hrow
  · obtain ⟨-, hstate, -⟩ := isReusable_iff.mp hreusable
    rw [← hrow] at hstate
    rcases hstate with hstate | hstate <;> cases hstate
  · rw [← hrow]
    exact hold

theorem createReviewerSession_spec {session made : ReviewerSessionRecord} {s s' : SessionStore}
    (h : s.createReviewerSession session = .ok (made, s')) :
    s.sessions.find? session.sessionId = none ∧ made = mapReviewerSessionRow session ∧ s'.jobs = s.jobs ∧
      ∀ r, r ∈ s'.sessions.rows ↔ r ∈ s.sessions.rows ∨ r = session := by
  unfold createReviewerSession at h
  split at h
  · cases h
  · rename_i sessions hinsert
    cases h
    obtain ⟨hfree, rfl⟩ := Table.insert?_eq_some.mp hinsert
    refine ⟨hfree, rfl, rfl, fun r => ?_⟩
    simp [Table.append]

theorem Housed.jobsOf_eq_zero {s : SessionStore} (hhoused : Housed s) {sessionId : String}
    (hfree : s.sessions.find? sessionId = none) : jobsOf s sessionId = 0 := by
  unfold jobsOf
  rw [List.countP_eq_zero]
  intro job hjob hid
  obtain ⟨r, hr, hrid⟩ := hhoused job hjob
  apply Table.find?_eq_none.mp hfree r hr
  rw [hrid]
  simpa using hid

theorem Accounted.create {session made : ReviewerSessionRecord} {s s' : SessionStore} (hs : Accounted s)
    (hhoused : Housed s) (h : s.createReviewerSession session = .ok (made, s')) (hused : session.headCountUsed = 0)
    (hactive : session.state = .active) : Accounted s' ∧ Housed s' := by
  obtain ⟨hfree, -, hjobs, hrows⟩ := createReviewerSession_spec h
  refine ⟨⟨?_, ?_, ?_, ?_⟩, ?_⟩
  · intro r hr
    unfold jobsOf
    rw [hjobs]
    rcases (hrows r).mp hr with hr | rfl
    · exact hs.counted r hr
    · rw [hused]
      exact (hhoused.jobsOf_eq_zero hfree).symm
  · intro r hr
    rcases (hrows r).mp hr with hr | rfl
    · exact hs.within r hr
    · omega
  · rw [hjobs]
    exact hs.oneJob
  · intro r hr hstate
    rw [hjobs]
    rcases (hrows r).mp hr with hr | rfl
    · exact hs.drained r hr hstate
    · rw [hactive] at hstate
      cases hstate
  · intro job hjob
    rw [hjobs] at hjob
    obtain ⟨r, hr, hid⟩ := hhoused job hjob
    exact ⟨r, (hrows r).mpr (Or.inl hr), hid⟩

structure Chosen (s s' : SessionStore) (nowIso : String) (session : ReviewerSessionRecord) : Prop where
  accounted : Accounted s'
  housed : Housed s'
  jobs : s'.jobs = s.jobs
  admits : Admits s nowIso session.sessionId
  room : ∃ r ∈ s'.sessions.rows, session = mapReviewerSessionRow r ∧ r.headCountUsed < r.headCountLimit

theorem chooseSession_spec {env : SessionEnv} {input : AssignInput} {nowIso expiresAt : String}
    {s s' : SessionStore} {session : ReviewerSessionRecord} {reason : ReviewerSessionAssignmentReason}
    (h : chooseSession env input nowIso expiresAt s = .ok ((session, reason), s')) (hs : Accounted s)
    (hhoused : Housed s) (hlimit : 0 < input.headCountLimit.num.toNat) : Chosen s s' nowIso session := by
  have hexpire := closes_expire nowIso (some input.head.repo) s
  unfold chooseSession at h
  dsimp only at h
  split at h
  · rename_i found reused hreuse
    cases h
    obtain ⟨hcloses, hfound⟩ := getReusableReviewerSession_spec hreuse
    obtain ⟨r, hr, hreusable, rfl, hin⟩ := hfound session rfl
    obtain ⟨-, hstate, hend, hroom⟩ := isReusable_iff.mp hreusable
    have hold := mem_of_mem_expire hr hreusable
    have hall := hexpire.trans hcloses
    refine ⟨hs.closes hall, hhoused.closes hall, hall.jobs, Or.inr ?_, ⟨r, hin, rfl, hroom⟩⟩
    exact ⟨r, Table.find?_eq_some.mpr ⟨hold, rfl⟩, hstate, hroom, hend⟩
  · rename_i reused hreuse
    obtain ⟨hcloses, -⟩ := getReusableReviewerSession_spec hreuse
    have hall := hexpire.trans hcloses
    obtain ⟨⟨made, created⟩, hcreate, h⟩ := bind_eq_ok h
    cases h
    obtain ⟨hfree, rfl, hjobs, hrows⟩ := createReviewerSession_spec hcreate
    obtain ⟨haccounted, hhoused'⟩ := (hs.closes hall).create (hhoused.closes hall) hcreate rfl rfl
    refine ⟨haccounted, hhoused', hjobs.trans hall.jobs, Or.inl ?_, ⟨_, (hrows _).mpr (Or.inr rfl), rfl, hlimit⟩⟩
    -- A row of the store before the call has its id after the closing too.
    rw [Table.find?_eq_none] at hfree ⊢
    intro r hr hid
    obtain ⟨r', hr', hc⟩ := hall.after r hr
    exact hfree r' hr' (hc.sessionId.trans hid)

/-! ## Giving the job -/

theorem takeJob_spec {session : ReviewerSessionRecord} {reason : ReviewerSessionAssignmentReason} {head : HeadKey}
    {nowIso : String} {s s' : SessionStore} (h : takeJob session reason head nowIso s = .ok s') :
    s.jobs.find? head = none ∧
    s'.jobs.rows = s.jobs.rows ++ [⟨session.sessionId, head, .assigned, reason, nowIso, none, none, none⟩] ∧
    ∀ r', r' ∈ s'.sessions.rows ↔ ∃ r ∈ s.sessions.rows, r.sessionId ≠ session.sessionId ∧ r = r' ∨
      r.sessionId = session.sessionId ∧ { r with
        headCountUsed := session.headCountUsed + 1
        lastUsedAt := nowIso
        state := if session.headCountLimit ≤ session.headCountUsed + 1 then .draining else .active } = r' := by
  unfold takeJob at h
  split at h
  · cases h
  · rename_i jobs hinsert
    cases h
    obtain ⟨hfree, rfl⟩ := Table.insert?_eq_some.mp hinsert
    refine ⟨hfree, rfl, fun r' => ?_⟩
    rw [mem_updateSessions]
    apply exists_congr
    intro r
    by_cases hid : r.sessionId = session.sessionId <;> simp [hid]

theorem Chosen.take {s s₁ s' : SessionStore} {nowIso : String} {session : ReviewerSessionRecord}
    {reason : ReviewerSessionAssignmentReason} {head : HeadKey} (hchosen : Chosen s s₁ nowIso session)
    (h : takeJob session reason head nowIso s₁ = .ok s') :
    Accounted s' ∧ Housed s' ∧ ∃ r ∈ s'.sessions.rows, r.sessionId = session.sessionId ∧
      (r.state = .active ∨ r.state = .draining) := by
  obtain ⟨hfree, hjobs, hrows⟩ := takeJob_spec h
  obtain ⟨row, hrow, rfl, hroom⟩ := hchosen.room
  simp only [sessionId_mapReviewerSessionRow, headCountUsed_mapReviewerSessionRow,
    headCountLimit_mapReviewerSessionRow] at hjobs hrows ⊢
  have hs := hchosen.accounted
  have hcount : ∀ sessionId, jobsOf s' sessionId = jobsOf s₁ sessionId + if row.sessionId = sessionId then 1 else 0 := by
    intro sessionId
    unfold jobsOf
    rw [hjobs, List.countP_append, List.countP_singleton]
    simp
  -- The session's row is the chosen one: the id is the key.
  have hsplit : ∀ r' ∈ s'.sessions.rows,
      (r'.sessionId = row.sessionId ∧ r'.headCountUsed = row.headCountUsed + 1 ∧
        r'.headCountLimit = row.headCountLimit) ∨ (r'.sessionId ≠ row.sessionId ∧ r' ∈ s₁.sessions.rows) := by
    intro r' hr'
    obtain ⟨r, hr, ⟨hid, rfl⟩ | ⟨hid, rfl⟩⟩ := (hrows r').mp hr'
    · exact Or.inr ⟨hid, hr⟩
    · rw [← s₁.sessions.eq_of_key_eq hr hrow hid]
      exact Or.inl ⟨rfl, rfl, rfl⟩
  refine ⟨⟨?_, ?_, ?_, ?_⟩, ?_, ?_⟩
  · intro r' hr'
    rw [hcount]
    rcases hsplit r' hr' with ⟨hid, hused, -⟩ | ⟨hid, hr⟩
    · rw [if_pos hid.symm, hid, hused, hs.counted row hrow]
    · rw [if_neg hid.symm, hs.counted r' hr, Nat.add_zero]
  · intro r' hr'
    rcases hsplit r' hr' with ⟨-, hused, hlimit⟩ | ⟨-, hr⟩
    · omega
    · exact hs.within r' hr
  · intro j hj k hk hhead
    exact s'.jobs.eq_of_key_eq hj hk hhead
  · intro r' hr' hstate
    rw [hjobs]
    rcases hsplit r' hr' with ⟨hid, -⟩ | ⟨-, hr⟩
    · exact ⟨_, List.mem_append_right _ List.mem_cons_self, hid.symm, rfl⟩
    · obtain ⟨job, hjob, hof, hopen⟩ := hs.drained r' hr hstate
      exact ⟨job, List.mem_append_left _ hjob, hof, hopen⟩
  · have hkept : ∀ sessionId, (∃ r ∈ s₁.sessions.rows, r.sessionId = sessionId) →
        ∃ r ∈ s'.sessions.rows, r.sessionId = sessionId := by
      rintro sessionId ⟨r, hr, rfl⟩
      by_cases hid : r.sessionId = row.sessionId
      · exact ⟨_, (hrows _).mpr ⟨r, hr, Or.inr ⟨hid, rfl⟩⟩, rfl⟩
      · exact ⟨r, (hrows _).mpr ⟨r, hr, Or.inl ⟨hid, rfl⟩⟩, rfl⟩
    intro job hjob
    rw [hjobs, List.mem_append, List.mem_singleton] at hjob
    apply hkept
    rcases hjob with hjob | rfl
    · exact hchosen.housed job hjob
    · exact ⟨row, hrow, rfl⟩
  · refine ⟨_, (hrows _).mpr ⟨row, hrow, Or.inr ⟨rfl, rfl⟩⟩, rfl, ?_⟩
    by_cases hlast : row.headCountLimit ≤ row.headCountUsed + 1
    · simp [hlast]
    · simp [hlast]

theorem headCountLimit_pos {ttlMs headCountLimit : Rat} {workerPid : Option Rat} {u : Unit}
    (h : validateReviewerSessionInput ttlMs headCountLimit workerPid = .ok u) : 0 < headCountLimit.num.toNat := by
  obtain ⟨_, -, h⟩ := bind_eq_ok h
  obtain ⟨_, -, h⟩ := bind_eq_ok h
  obtain ⟨_, -, h⟩ := bind_eq_ok h
  obtain ⟨_, hlimit, -⟩ := bind_eq_ok h
  have hone : (1 : Rat) ≤ headCountLimit := by simpa using hlimit
  have hpos : 0 < headCountLimit.num := Rat.num_pos.mpr (by linarith)
  omega

theorem assignReviewerSessionJob_cases {env : SessionEnv} {input : AssignInput} {s s' : SessionStore}
    {result : ReviewerSessionAssignResult} (h : assignReviewerSessionJob env input s = .ok (result, s'))
    (hs : Accounted s) (hhoused : Housed s) :
    s' = s ∨ ∃ session reason s₁, Chosen s s₁ (toISOString input.now) session ∧
      takeJob session reason input.head (toISOString input.now) s₁ = .ok s' := by
  obtain ⟨_, hvalid, h⟩ := bind_eq_ok h
  obtain ⟨nowIso, hnow, h⟩ := bind_eq_ok h
  obtain ⟨expiresAt, -, h⟩ := bind_eq_ok h
  obtain rfl : toISOString input.now = nowIso := by
    unfold isoText at hnow
    split at hnow
    · exact Except.ok.inj hnow
    · cases hnow
  split at h
  · cases h
    exact Or.inl rfl
  · split at h
    · cases h
      exact Or.inl rfl
    · obtain ⟨⟨⟨session, reason⟩, s₁⟩, hchoose, h⟩ := bind_eq_ok h
      obtain ⟨s₂, htake, h⟩ := bind_eq_ok h
      cases h
      exact Or.inr ⟨session, reason, s₁, chooseSession_spec hchoose hs hhoused (headCountLimit_pos hvalid), htake⟩

/-! ## Setting a job's state -/

theorem mem_setJobState {input : UpdateJobStateInput} {timestamp : String} {s : SessionStore}
    {job' : ReviewerSessionJobRecord} :
    job' ∈ (setJobState input timestamp s).jobs.rows ↔
      ∃ job ∈ s.jobs.rows, job.head ≠ input.head ∧ job = job' ∨
        job.head = input.head ∧ withJobState input timestamp job = job' := by
  rw [setJobState, mem_updateJob]
  apply exists_congr
  intro job
  by_cases hhead : job.head = input.head <;> simp [hhead]

theorem jobsOf_setJobState (input : UpdateJobStateInput) (timestamp : String) (s : SessionStore) (sessionId : String) :
    jobsOf (setJobState input timestamp s) sessionId = jobsOf s sessionId := by
  unfold jobsOf setJobState updateJob Table.update
  rw [List.countP_map]
  congr 1
  funext job
  dsimp only [Function.comp_def]
  split <;> rfl

theorem unfinishedJobs_pos_of_draining {s : SessionStore} {sessionId : String} {r : ReviewerSessionRecord}
    (hr : r ∈ (s.expireDrainedReviewerSessionIfComplete sessionId).sessions.rows) (hid : r.sessionId = sessionId)
    (hstate : r.state = .draining) : 0 < s.unfinishedJobs sessionId := by
  by_contra hnone
  have hfound : ∀ old ∈ s.sessions.rows, old.sessionId = sessionId → old.state = .draining →
      s.getReviewerSession sessionId = some (mapReviewerSessionRow old) := by
    intro old hold holdId _
    rw [getReviewerSession, Table.find?_eq_some.mpr ⟨hold, holdId⟩, Option.map_some]
  obtain ⟨old, hold, holdId, hdraining⟩ := (closes_expireDrained sessionId s).draining hr hstate
  rw [hid] at holdId
  unfold expireDrainedReviewerSessionIfComplete at hr
  rw [hfound old hold holdId hdraining] at hr
  have hkept : ¬(mapReviewerSessionRow old).state ≠ .draining := fun hne => hne hdraining
  simp only [if_neg hkept, if_neg hnone, mem_updateSessions] at hr
  obtain ⟨row, -, hrow⟩ := hr
  split at hrow
  · rw [← hrow] at hstate
    cases hstate
  · rename_i hne
    rw [← hrow] at hid
    simp [hid] at hne

theorem updateReviewerSessionJobState_cases {input : UpdateJobStateInput} {s s' : SessionStore}
    {result : Option ReviewerSessionJobRecord} (h : updateReviewerSessionJobState input s = .ok (result, s')) :
    ∃ timestamp existing, s.jobs.find? input.head = some existing ∧
      ((input.jobState.isFinished = true ∧
        s' = (setJobState input timestamp s).expireDrainedReviewerSessionIfComplete existing.sessionId) ∨
      (input.jobState.isFinished = false ∧ s' = setJobState input timestamp s)) := by
  unfold updateReviewerSessionJobState at h
  split at h
  · cases h
  · rename_i mapped hmapped
    obtain ⟨timestamp, -, h⟩ := bind_eq_ok h
    obtain ⟨existing, hexisting, rfl⟩ := Option.map_eq_some_iff.mp hmapped
    refine ⟨timestamp, existing, hexisting, ?_⟩
    dsimp only at h
    split at h
    · rename_i hfinished
      cases h
      exact Or.inl ⟨hfinished, rfl⟩
    · rename_i hopen
      cases h
      exact Or.inr ⟨by simpa using hopen, rfl⟩

theorem mem_jobs_of_updateJobState {input : UpdateJobStateInput} {s s' : SessionStore}
    {result : Option ReviewerSessionJobRecord} (h : updateReviewerSessionJobState input s = .ok (result, s'))
    {job' : ReviewerSessionJobRecord} (hjob' : job' ∈ s'.jobs.rows) :
    ∃ job ∈ s.jobs.rows, job.head = job'.head ∧ job.sessionId = job'.sessionId := by
  obtain ⟨timestamp, existing, -, hcases⟩ := updateReviewerSessionJobState_cases h
  have hset : job' ∈ (setJobState input timestamp s).jobs.rows := by
    rcases hcases with ⟨-, rfl⟩ | ⟨-, rfl⟩
    · rw [(closes_expireDrained _ _).jobs] at hjob'
      exact hjob'
    · exact hjob'
  obtain ⟨job, hjob, ⟨-, rfl⟩ | ⟨-, rfl⟩⟩ := mem_setJobState.mp hset
  · exact ⟨job, hjob, rfl, rfl⟩
  · exact ⟨job, hjob, rfl, rfl⟩

theorem Accounted.updateJobState {input : UpdateJobStateInput} {s s' : SessionStore}
    {result : Option ReviewerSessionJobRecord} (hs : Accounted s) (hhoused : Housed s)
    (h : updateReviewerSessionJobState input s = .ok (result, s')) : Accounted s' ∧ Housed s' := by
  obtain ⟨timestamp, existing, hexisting, hcases⟩ := updateReviewerSessionJobState_cases h
  obtain ⟨hin, hhead⟩ := Table.find?_eq_some.mp hexisting
  have hcloses : Closes (setJobState input timestamp s) s' := by
    rcases hcases with ⟨-, rfl⟩ | ⟨-, rfl⟩
    · exact closes_expireDrained _ _
    · exact .refl _
  refine ⟨⟨?_, ?_, ?_, ?_⟩, Housed.closes ?_ hcloses⟩
  · intro r' hr'
    obtain ⟨r, hr, hc⟩ := hcloses.before r' hr'
    have hcount := jobsOf_setJobState input timestamp s r.sessionId
    unfold jobsOf at hcount ⊢
    rw [hcloses.jobs, hc.used, hc.sessionId, hcount]
    exact hs.counted r hr
  · intro r' hr'
    obtain ⟨r, hr, hc⟩ := hcloses.before r' hr'
    rw [hc.used, hc.limit]
    exact hs.within r hr
  · intro j hj k hk hheads
    exact s'.jobs.eq_of_key_eq hj hk hheads
  · intro r' hr' hstate
    obtain ⟨r, hr, hid, hdraining⟩ := hcloses.draining hr' hstate
    obtain ⟨job, hjob, hof, hopen⟩ := hs.drained r hr hdraining
    rw [hid] at hof
    by_cases hother : job.head = input.head
    · -- The unfinished job is the one that is set.
      obtain rfl := s.jobs.eq_of_key_eq hjob hin (hother.trans hhead.symm)
      rcases hcases with ⟨-, rfl⟩ | ⟨hunfinished, rfl⟩
      · have hleft := unfinishedJobs_pos_of_draining hr' hof.symm hstate
        obtain ⟨left, hmem, hleftOf, hleftOpen⟩ := unfinishedJobs_pos.mp hleft
        rw [hcloses.jobs]
        exact ⟨left, hmem, hleftOf.trans hof, hleftOpen⟩
      · exact ⟨_, mem_setJobState.mpr ⟨job, hjob, Or.inr ⟨hother, rfl⟩⟩, hof, hunfinished⟩
    · rw [hcloses.jobs]
      exact ⟨job, mem_setJobState.mpr ⟨job, hjob, Or.inl ⟨hother, rfl⟩⟩, hof, hopen⟩
  · intro job' hjob'
    obtain ⟨job, hjob, ⟨-, rfl⟩ | ⟨-, rfl⟩⟩ := mem_setJobState.mp hjob'
    · exact hhoused job hjob
    · exact hhoused job hjob

/-! ## Sequences of operations -/

/-- What an operation does to the jobs of a store that is accounted for: each job was there on the same session, or
the operation assigned it to a session that may be given a job and is open after it. -/
def Assigns (s : SessionStore) (op : SessionOp) : Prop :=
  ∀ job ∈ (op.exec s).jobs.rows,
    (∃ old ∈ s.jobs.rows, old.head = job.head ∧ old.sessionId = job.sessionId) ∨
    ∃ env input, op = .assign env input ∧ job.head = input.head ∧ s.jobs.find? job.head = none ∧
      Admits s (toISOString input.now) job.sessionId ∧
      ∃ r ∈ (op.exec s).sessions.rows, r.sessionId = job.sessionId ∧ (r.state = .active ∨ r.state = .draining)

theorem exec_closes {s s' : SessionStore} {op : SessionOp} (hexec : op.exec s = s') (hs : Accounted s)
    (hhoused : Housed s) (h : Closes s s') : Accounted (op.exec s) ∧ Housed (op.exec s) ∧ Assigns s op := by
  refine ⟨hexec ▸ hs.closes h, hexec ▸ hhoused.closes h, ?_⟩
  intro job hjob
  rw [hexec, h.jobs] at hjob
  exact Or.inl ⟨job, hjob, rfl, rfl⟩

theorem exec_assign {env : SessionEnv} {input : AssignInput} {result : ReviewerSessionAssignResult}
    {s s' : SessionStore} (h : assignReviewerSessionJob env input s = .ok (result, s')) (hs : Accounted s)
    (hhoused : Housed s) (hexec : SessionOp.exec s (.assign env input) = s') :
    Accounted (SessionOp.exec s (.assign env input)) ∧ Housed (SessionOp.exec s (.assign env input)) ∧
      Assigns s (.assign env input) := by
  rcases assignReviewerSessionJob_cases h hs hhoused with rfl | ⟨session, reason, s₁, hchosen, htake⟩
  · exact exec_closes hexec hs hhoused (.refl _)
  · obtain ⟨haccounted, hhoused', hopen⟩ := hchosen.take htake
    obtain ⟨hfree, hjobs, -⟩ := takeJob_spec htake
    refine ⟨hexec ▸ haccounted, hexec ▸ hhoused', ?_⟩
    intro job hjob
    rw [hexec, hjobs, hchosen.jobs, List.mem_append, List.mem_singleton] at hjob
    rcases hjob with hjob | rfl
    · exact Or.inl ⟨job, hjob, rfl, rfl⟩
    · right
      rw [hchosen.jobs] at hfree
      exact ⟨env, input, rfl, rfl, hfree, hchosen.admits, hexec ▸ hopen⟩

theorem exec_spec {s : SessionStore} (op : SessionOp) (hs : Accounted s) (hhoused : Housed s) :
    Accounted (op.exec s) ∧ Housed (op.exec s) ∧ Assigns s op := by
  cases hcommit : op.commit s with
  | error e =>
    have hexec : op.exec s = s := by simp [SessionOp.exec, hcommit]
    exact exec_closes hexec hs hhoused (.refl s)
  | ok s' =>
    have hexec : op.exec s = s' := by simp [SessionOp.exec, hcommit]
    cases op with
    | assign env input =>
      obtain ⟨⟨result, s'⟩, hassign, rfl⟩ := map_eq_ok.mp hcommit
      exact exec_assign hassign hs hhoused hexec
    | updateJobState input =>
      obtain ⟨⟨result, s'⟩, hupdate, rfl⟩ := map_eq_ok.mp hcommit
      obtain ⟨haccounted, hhoused'⟩ := hs.updateJobState hhoused hupdate
      refine ⟨hexec ▸ haccounted, hexec ▸ hhoused', ?_⟩
      intro job hjob
      rw [hexec] at hjob
      exact Or.inl (mem_jobs_of_updateJobState hupdate hjob)
    | expire now repo =>
      obtain ⟨nowIso, -, rfl⟩ := map_eq_ok.mp hcommit
      exact exec_closes hexec hs hhoused (closes_expire nowIso repo s)
    | reconcile isProcessAlive now repo =>
      obtain ⟨nowIso, -, rfl⟩ := map_eq_ok.mp hcommit
      exact exec_closes hexec hs hhoused (closes_reconcile isProcessAlive nowIso repo s)

theorem runOps_spec (ops : List SessionOp) : Accounted (runOps ops) ∧ Housed (runOps ops) := by
  induction ops using List.reverseRecOn with
  | nil => exact ⟨⟨nofun, nofun, nofun, nofun⟩, nofun⟩
  | append_singleton ops op ih =>
    have hlast : runOps (ops ++ [op]) = op.exec (runOps ops) := List.foldl_concat ..
    obtain ⟨haccounted, hhoused, -⟩ := exec_spec op ih.1 ih.2
    rw [hlast]
    exact ⟨haccounted, hhoused⟩

/-- After any operations, at any times, the sessions are accounted for, and the next operation assigns no job to a
session that is closed, over, or at its limit. -/
theorem reviewer_sessions_are_accounted (ops : List SessionOp) :
    Accounted (runOps ops) ∧ ∀ op, Assigns (runOps ops) op := by
  obtain ⟨haccounted, hhoused⟩ := runOps_spec ops
  refine ⟨haccounted, fun op => ?_⟩
  exact (exec_spec op haccounted hhoused).2.2

example :
    (runOps [.assign ⟨7, "u", fun _ => true, fun _ => false⟩
        { head := ⟨"o/r", 1, "a"⟩, ttlMs := 60000, headCountLimit := 1, now := 0 },
      .updateJobState { head := ⟨"o/r", 1, "a"⟩, jobState := .completed, now := 5 },
      .assign ⟨7, "v", fun _ => true, fun _ => false⟩
        { head := ⟨"o/r", 1, "b"⟩, ttlMs := 60000, headCountLimit := 2, now := 6 }]).sessions.rows.map
      (fun r => (r.sessionId, r.state, r.headCountUsed)) = [("u", .expired, 1), ("v", .active, 1)] := by
  decide +kernel

end NeonDiff.Sessions
