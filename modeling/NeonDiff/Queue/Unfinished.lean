import NeonDiff.Queue.Machine

/-! # One unfinished job for each attempt -/

namespace NeonDiff.Queue

open NeonDiff.Lib NeonDiff.Lib.JsText NeonDiff.Store NeonDiff.Lease

/-! ## Families -/

/-- A retry of `base` after a terminal job. -/
def IsRetryOf (base attemptId : String) : Prop := startsWith attemptId (afterTerminalPrefix base) = true

/-- The job of an attempt, and its retries. -/
def InFamily (base attemptId : String) : Prop := attemptId = base ∨ IsRetryOf base attemptId

instance (base attemptId : String) : Decidable (InFamily base attemptId) :=
  inferInstanceAs (Decidable (_ ∨ startsWith attemptId (afterTerminalPrefix base) = true))

def OneUnfinished (jobs : JobTable) : Prop :=
  ∀ base, ∀ i ∈ jobs.rows, ∀ j ∈ jobs.rows, InFamily base i.attemptId → InFamily base j.attemptId →
    i.state.isTerminal = false → j.state.isTerminal = false → i = j

def Plain (attemptId : String) : Prop :=
  ∀ base, startsWith (afterTerminalPrefix attemptId) (afterTerminalPrefix base) = true → base = attemptId

theorem isRetryOf_iff {base attemptId : String} :
    IsRetryOf base attemptId ↔ base.toList ++ ":after-terminal:".toList <+: attemptId.toList := by
  rw [IsRetryOf, startsWith_iff, afterTerminalPrefix, String.toList_append]

theorem plain_iff {attemptId : String} : Plain attemptId ↔ ∀ base : String,
    base.toList ++ ":after-terminal:".toList <+: attemptId.toList ++ ":after-terminal:".toList → base = attemptId := by
  simp only [Plain, startsWith_iff, afterTerminalPrefix, String.toList_append]

theorem Plain.not_isRetryOf {attemptId base : String} (h : Plain attemptId) : ¬ IsRetryOf base attemptId := by
  intro hretry
  rw [isRetryOf_iff] at hretry
  obtain rfl := plain_iff.mp h base (hretry.trans (List.prefix_append _ _))
  have := hretry.length_le
  rw [List.length_append] at this
  have : ":after-terminal:".toList.length = 16 := rfl
  omega

theorem Plain.base_of_isRetryOf {attemptId base : String} (h : Plain attemptId) (uuid : Uuid)
    (hretry : IsRetryOf base (afterTerminalPrefix attemptId ++ uuid.text)) : base = attemptId := by
  rw [isRetryOf_iff, afterTerminalPrefix, String.toList_append, String.toList_append] at hretry
  rcases List.prefix_or_prefix_of_prefix hretry (List.prefix_append _ _) with hpre | hpre
  · exact plain_iff.mp h base hpre
  · obtain ⟨rest, hrest⟩ := hpre
    cases rest with
    | nil =>
      rw [List.append_nil] at hrest
      exact (String.toList_inj.mp (List.append_cancel_right hrest)).symm
    | cons c rest =>
      -- a longer base ends inside the uuid, and with a colon
      exfalso
      rw [← hrest, List.append_assoc, List.append_assoc] at hretry
      have hrest' : c :: rest <+: uuid.text.toList :=
        List.prefix_append_right_inj _ |>.mp (List.prefix_append_right_inj _ |>.mp hretry)
      have hcolon : (c :: rest).getLast? = some ':' := by
        have := congrArg List.getLast? hrest
        simpa using this
      exact uuid.plain (hrest'.subset (List.mem_of_getLast? hcolon))

theorem plain_of_not_infix {attemptId : String} (h : ¬ ":after-terminal".toList <:+: attemptId.toList) :
    Plain attemptId := by
  rw [plain_iff]
  intro base hpre
  have hcolon : ∀ k < 15, 0 < k → ":after-terminal:".toList[k]? ≠ some ':' := by decide
  obtain hlt | heq | hgt := lt_trichotomy base.toList.length attemptId.toList.length
  · exfalso
    by_cases hin : base.toList.length + 15 ≤ attemptId.toList.length
    · -- the whole mark lies inside the attempt id
      have hmark : base.toList ++ ":after-terminal".toList <+: base.toList ++ ":after-terminal:".toList :=
        ⟨[':'], by simp⟩
      have hinside := List.prefix_of_prefix_length_le (hmark.trans hpre) (List.prefix_append _ _)
        (by rw [List.length_append]; exact hin)
      exact h ⟨base.toList, _, hinside.choose_spec⟩
    · -- the mark runs over the end, where the appended mark begins with a colon
      obtain ⟨rest, hrest⟩ := hpre
      have hat := congrArg (·[attemptId.toList.length]?) hrest
      have hlength : ":after-terminal:".toList.length = 16 := rfl
      rw [List.getElem?_append_right (le_refl _), List.getElem?_append_left (by rw [List.length_append]; omega),
        List.getElem?_append_right hlt.le, Nat.sub_self] at hat
      exact hcolon _ (by omega) (Nat.sub_pos_of_lt hlt) (hat.trans rfl)
  · exact String.toList_inj.mp (List.append_inj_left (hpre.eq_of_length (by simp [heq])) heq)
  · have := hpre.length_le
    simp only [List.length_append] at this
    omega

/-! ## What a call makes of the jobs -/

/-- The rows move by `f`, which keeps every attempt id and leaves finished jobs finished. -/
def Quiet (t t' : JobTable) : Prop :=
  ∃ f : ReviewQueueJobRecord → ReviewQueueJobRecord, t'.rows = t.rows.map f ∧
    ∀ j ∈ t.rows, (f j).attemptId = j.attemptId ∧ ((f j).state.isTerminal = false → j.state.isTerminal = false)

theorem Quiet.refl (t : JobTable) : Quiet t t := ⟨id, by simp, fun _ _ => ⟨rfl, id⟩⟩

theorem Quiet.trans {t u v : JobTable} (htu : Quiet t u) (huv : Quiet u v) : Quiet t v := by
  obtain ⟨f, hf, hkeepf⟩ := htu
  obtain ⟨g, hg, hkeepg⟩ := huv
  refine ⟨g ∘ f, by rw [hg, hf, List.map_map], fun j hj => ?_⟩
  have hfj : f j ∈ u.rows := hf ▸ List.mem_map_of_mem hj
  exact ⟨(hkeepg _ hfj).1.trans (hkeepf j hj).1, fun h => (hkeepf j hj).2 ((hkeepg _ hfj).2 h)⟩

theorem quiet_of_rows {t t' : JobTable} {f : ReviewQueueJobRecord → ReviewQueueJobRecord}
    (hrows : t'.rows = t.rows.map f) (hattempt : ∀ j, (f j).attemptId = j.attemptId)
    (h : ∀ j ∈ t.rows, (f j).state.isTerminal = false → j.state.isTerminal = false) : Quiet t t' :=
  ⟨f, hrows, fun j hj => ⟨hattempt j, h j hj⟩⟩

theorem isTerminal_of_isActive {j : ReviewQueueJobRecord} (h : j.isActive = true) : j.state.isTerminal = false := by
  simp only [ReviewQueueJobRecord.isActive, Bool.or_eq_true, decide_eq_true_eq] at h
  rcases h with h | h <;> rw [h] <;> rfl

theorem isTerminal_of_leasable {jobId : String} {j : ReviewQueueJobRecord} (h : leasable jobId j = true) :
    j.state.isTerminal = false := by
  simp only [leasable, Bool.and_eq_true, Bool.or_eq_true, decide_eq_true_eq] at h
  obtain ⟨-, (h | h) | h⟩ := h <;> rw [h] <;> rfl

theorem quiet_leaseRow (jobId leaseId : String) (expires now : Int) (t : JobTable) :
    Quiet t (leaseRow jobId leaseId expires now t) := by
  refine quiet_of_rows rfl (fun j => by split <;> rfl) fun j _ h => ?_
  split at h
  · exact isTerminal_of_leasable ‹_›
  · exact h

theorem quiet_leaseLoop (lower : String → String) (limits : LeaseLimits) (uuid : Nat → String) (now : Int)
    (activeCount : Nat) : ∀ (todo : List ReviewQueueJobRecord) (st : LeaseScan),
      Quiet st.jobs (leaseLoop lower limits uuid now activeCount todo st).jobs
  | [], st => .refl _
  | job :: rest, st => by
    unfold leaseLoop
    split
    · exact .refl _
    split
    · exact .refl _
    split
    · exact quiet_leaseLoop lower limits uuid now activeCount rest st
    · exact (quiet_leaseRow ..).trans (quiet_leaseLoop lower limits uuid now activeCount rest _)

theorem quiet_requeueExpiredLeases (leaseTtlMs now : Int) (t : JobTable) :
    Quiet t (requeueExpiredLeases leaseTtlMs now t) := by
  refine quiet_of_rows rfl (fun j => by split <;> rfl) fun j _ h => ?_
  split at h
  · rename_i hexpired
    exact isTerminal_of_isActive (Bool.and_eq_true_iff.mp hexpired).1
  · exact h

theorem isActive_of_clearCandidate {input : ClearLeasesInput} {stale : List String} {now : Int}
    {j : ReviewQueueJobRecord} {reason : LeaseStaleReason} (h : clearCandidate input stale now j = some reason) :
    j.isActive = true := by
  unfold clearCandidate at h
  by_contra hactive
  simp [hactive] at h

def QueueCall.isQuiet : QueueCall → Bool
  | .insert _ | .update .. => false
  | _ => true

theorem exec_quiet (texts : Texts) {act : QueueCall} (h : act.isQuiet = true) (s : State) :
    Quiet s.jobs (act.exec texts s).2.jobs := by
  cases act with
  | getByAttempt _ => exact .refl _
  | getActiveRetry _ => exact .refl _
  | insert _ => cases h
  | update _ _ => cases h
  | updatePriority jobId priority now =>
    simp only [QueueCall.exec, updateReviewQueueJobPriority]
    split
    · exact .refl _
    split
    · exact .refl _
    · refine quiet_of_rows rfl (fun j => by split <;> rfl) fun j _ hj => ?_
      split at hj
      · exact hj
      · exact hj
  | leaseNext input uuid now =>
    simp only [QueueCall.exec, leaseNextReviewQueueJobs]
    split
    · exact .refl _
    · exact (quiet_requeueExpiredLeases ..).trans (quiet_leaseLoop ..)
  | clearLeases input stale now =>
    simp only [QueueCall.exec, clearReviewQueueLeases]
    split
    · exact .refl _
    split
    · exact .refl _
    · refine quiet_of_rows rfl (fun j => by split <;> rfl) fun j _ hj => ?_
      split at hj
      · exact isTerminal_of_isActive (isActive_of_clearCandidate ‹_›)
      · exact hj
  | retireFailed head retiredError now =>
    refine quiet_of_rows rfl (fun j => by split <;> rfl) fun j _ hj => ?_
    split at hj
    · cases hj
    · exact hj
  | listFailed => exact .refl _
  | getProcessed _ => exact .refl _

/-! ## The invariant -/

def attemptIds (jobs : JobTable) : List String := jobs.rows.map ReviewQueueJobRecord.attemptId

def Parented (jobs : JobTable) : Prop :=
  ∀ attemptId ∈ attemptIds jobs, ∀ base, IsRetryOf base attemptId → base ∈ attemptIds jobs

theorem Quiet.attemptIds_eq {t t' : JobTable} (h : Quiet t t') : attemptIds t' = attemptIds t := by
  obtain ⟨f, hrows, hkeep⟩ := h
  rw [attemptIds, hrows, List.map_map]
  exact List.map_congr_left fun j hj => (hkeep j hj).1

theorem OneUnfinished.quiet {t t' : JobTable} (ho : OneUnfinished t) (h : Quiet t t') : OneUnfinished t' := by
  obtain ⟨f, hrows, hkeep⟩ := h
  intro base i' hi' j' hj' hbi hbj hui huj
  rw [hrows] at hi' hj'
  obtain ⟨i, hi, rfl⟩ := List.mem_map.mp hi'
  obtain ⟨j, hj, rfl⟩ := List.mem_map.mp hj'
  rw [(hkeep i hi).1] at hbi
  rw [(hkeep j hj).1] at hbj
  rw [ho base i hi j hj hbi hbj ((hkeep i hi).2 hui) ((hkeep j hj).2 huj)]

theorem OneUnfinished.insert {t t' : JobTable} {job : ReviewQueueJobRecord} (ho : OneUnfinished t)
    (h : t'.rows = t.rows ++ [job])
    (hfinished : ∀ base, InFamily base job.attemptId → ∀ j ∈ t.rows, InFamily base j.attemptId →
      j.state.isTerminal = true) : OneUnfinished t' := by
  intro base i hi j hj hbi hbj hui huj
  rw [h, List.mem_append, List.mem_singleton] at hi hj
  rcases hi with hi | rfl <;> rcases hj with hj | rfl
  · exact ho base i hi j hj hbi hbj hui huj
  · rw [hfinished base hbj i hi hbi] at hui
    cases hui
  · rw [hfinished base hbi j hj hbj] at huj
    cases huj
  · rfl

theorem isRetryOf_trans {a b c : String} (hab : IsRetryOf a b) (hbc : IsRetryOf b c) : IsRetryOf a c := by
  rw [isRetryOf_iff] at *
  exact hab.trans ((List.prefix_append _ _).trans hbc)

theorem attemptIds_insert {t t' : JobTable} {job : ReviewQueueJobRecord} (h : t'.rows = t.rows ++ [job]) :
    attemptIds t' = attemptIds t ++ [job.attemptId] := by
  rw [attemptIds, h, List.map_append]
  rfl

theorem Parented.insert {t t' : JobTable} {job : ReviewQueueJobRecord} (hp : Parented t)
    (h : t'.rows = t.rows ++ [job]) (hparent : ∀ base, IsRetryOf base job.attemptId → base ∈ attemptIds t) :
    Parented t' := by
  intro attemptId hid base hretry
  rw [attemptIds_insert h] at hid ⊢
  refine List.mem_append_left _ ?_
  rcases List.mem_append.mp hid with hid | hid
  · exact hp attemptId hid base hretry
  · exact hparent base (List.mem_singleton.mp hid ▸ hretry)

/-! ## Steps that nothing disturbs -/

/-- The two reads of an enqueue, repeated now, answer what the enqueue decided on. -/
def ReadsStand (attemptId : String) (existing : ReviewQueueJobRecord) (retry : Option ReviewQueueJobRecord)
    (s : State) : Prop :=
  (getReviewQueueJobByAttemptId s attemptId).map (·.state.isTerminal) = some existing.state.isTerminal ∧
  (getActiveReviewQueueRetryJobByAttemptId s attemptId).isSome = retry.isSome

def RevivesAlone (input : UpdateJobInput) (s : State) : Prop :=
  ∀ row ∈ s.jobs.rows, row.jobId = input.jobId → row.state.isTerminal = true → input.state.isTerminal = false →
    ∀ base, InFamily base row.attemptId → ∀ other ∈ s.jobs.rows, InFamily base other.attemptId →
      other.state.isTerminal = true

/-- What an enqueue that inserts, and an update, must meet for the family to keep one unfinished job. -/
def Settled (s : State) : Phase → QueueCall → Prop
  | .sawBase attemptId none, .insert _ => Plain attemptId
  | .sawRetry attemptId existing retry, .insert _ => Plain attemptId ∧ ReadsStand attemptId existing retry s
  | _, .update input _ => RevivesAlone input s
  | _, _ => True

/-- The attempt whose job a process has seen in the table. -/
def Phase.base : Phase → Option String
  | .sawBase attemptId (some _) => some attemptId
  | .sawRetry attemptId _ _ => some attemptId
  | _ => none

theorem activeRetry_eq_none {s : State} {attemptId : String}
    (h : getActiveReviewQueueRetryJobByAttemptId s attemptId = none) :
    ∀ j ∈ s.jobs.rows, IsRetryOf attemptId j.attemptId → j.state.isTerminal = true := by
  intro j hj hretry
  by_contra hactive
  rw [getActiveReviewQueueRetryJobByAttemptId, Option.map_eq_none_iff, latestCreated, List.head?_eq_none_iff] at h
  have hmem : j ∈ s.jobs.rows.filter fun j =>
      startsWith j.attemptId (afterTerminalPrefix attemptId) && !j.state.isTerminal := by
    rw [List.mem_filter]
    exact ⟨hj, by simpa using ⟨hretry, by simpa using hactive⟩⟩
  rw [← List.mem_insertionSort (fun a b : ReviewQueueJobRecord => b.createdAt / 1000 ≤ a.createdAt / 1000), h] at hmem
  cases hmem

theorem byAttempt_isTerminal {s : State} {attemptId : String} {b : Bool}
    (h : (getReviewQueueJobByAttemptId s attemptId).map (·.state.isTerminal) = some b) :
    ∀ j ∈ s.jobs.rows, j.attemptId = attemptId → j.state.isTerminal = b := by
  intro j hj hid
  rw [getReviewQueueJobByAttemptId, JobTable.byAttempt?_eq_some.mpr ⟨hj, hid⟩] at h
  exact Option.some.inj h

theorem insert_settled {s : State} {phase : Phase} {job : ReviewQueueJobRecord} {t' : JobTable}
    (hallowed : enqueueDiscipline.allows phase (.insert job)) (hsettled : Settled s phase (.insert job))
    (hparented : Parented s.jobs) (hins : s.jobs.insertJob? job = some t')
    (hseen : ∀ a, phase.base = some a → a ∈ attemptIds s.jobs)
    (ho : OneUnfinished s.jobs) : OneUnfinished t' ∧ Parented t' := by
  obtain ⟨hrows, -, hfree⟩ := JobTable.insertJob?_eq_some hins
  rcases phase with _ | ⟨attemptId, _ | existing⟩ | ⟨attemptId, existing, _ | retry⟩
  · exact hallowed.elim
  · -- a first job: nothing can be its retry yet, since the attempt id is free
    have hplain : Plain attemptId := hsettled
    have hid : job.attemptId = attemptId := hallowed.2
    refine ⟨ho.insert hrows ?_, hparented.insert hrows ?_⟩
    · rintro base (hbase | hbase) j hj hfam
      · rcases hfam with hfam | hfam
        · exact absurd (hfam.trans hbase.symm) (hfree j hj)
        · obtain ⟨parent, hparent, hpid⟩ := List.mem_map.mp (hparented _ (List.mem_map_of_mem hj) base hfam)
          exact absurd (hpid.trans hbase.symm) (hfree parent hparent)
      · exact absurd (hid ▸ hbase) hplain.not_isRetryOf
    · intro base hretry
      exact absurd (hid ▸ hretry) hplain.not_isRetryOf
  · exact hallowed.elim
  · -- a retry: the reads still stand, so its family is finished
    obtain ⟨hplain, hstand⟩ : Plain attemptId ∧ ReadsStand attemptId existing none s := hsettled
    obtain ⟨-, hterminal, uuid, hid⟩ : job.state = .queued ∧ existing.state.isTerminal = true ∧
      ∃ uuid : Uuid, job.attemptId = afterTerminalPrefix attemptId ++ uuid.text := hallowed
    have hretries : ∀ j ∈ s.jobs.rows, IsRetryOf attemptId j.attemptId → j.state.isTerminal = true :=
      activeRetry_eq_none (by simpa using hstand.2)
    have hown : IsRetryOf attemptId job.attemptId := by
      rw [hid]
      exact startsWith_append _ _
    refine ⟨ho.insert hrows ?_, hparented.insert hrows ?_⟩
    · rintro base (hbase | hbase) j hj hfam
      · rcases hfam with hfam | hfam
        · exact absurd (hfam.trans hbase.symm) (hfree j hj)
        · exact hretries j hj (isRetryOf_trans (hbase ▸ hown) hfam)
      · obtain rfl := hplain.base_of_isRetryOf uuid (hid ▸ hbase)
        rcases hfam with hfam | hfam
        · exact (byAttempt_isTerminal hstand.1 j hj hfam).trans hterminal
        · exact hretries j hj hfam
    · intro base hretry
      obtain rfl := hplain.base_of_isRetryOf uuid (hid ▸ hretry)
      exact hseen _ rfl
  · exact hallowed.elim

/-- The condition on a retry is exact: where the reads no longer stand, its insert makes two unfinished jobs. -/
theorem insert_retry_iff {s : State} {attemptId : String} {existing job : ReviewQueueJobRecord} {t' : JobTable}
    (hallowed : enqueueDiscipline.allows (.sawRetry attemptId existing none) (.insert job)) (hplain : Plain attemptId)
    (hparented : Parented s.jobs) (hins : s.jobs.insertJob? job = some t') (hseen : attemptId ∈ attemptIds s.jobs)
    (ho : OneUnfinished s.jobs) : OneUnfinished t' ↔ ReadsStand attemptId existing none s := by
  refine ⟨fun ho' => ?_, fun hstand => (insert_settled hallowed ⟨hplain, hstand⟩ hparented hins
    (fun a ha => Option.some.inj ha ▸ hseen) ho).1⟩
  obtain ⟨hqueued, hterminal, uuid, hid⟩ : job.state = .queued ∧ existing.state.isTerminal = true ∧
    ∃ uuid : Uuid, job.attemptId = afterTerminalPrefix attemptId ++ uuid.text := hallowed
  obtain ⟨hrows, -, hfree⟩ := JobTable.insertJob?_eq_some hins
  have hown : InFamily attemptId job.attemptId := .inr (by rw [IsRetryOf, hid]; exact startsWith_append _ _)
  -- an unfinished job of the family would now stand next to the new one
  have hfinished : ∀ j ∈ s.jobs.rows, InFamily attemptId j.attemptId → j.state.isTerminal = true := by
    intro j hj hfam
    by_contra hactive
    have hjob : job ∈ t'.rows := by simp [hrows]
    have := ho' attemptId j (by simp [hrows, hj]) job hjob hfam hown (by simpa using hactive) (by rw [hqueued]; rfl)
    exact hfree j hj (by rw [this])
  constructor
  · obtain ⟨row, hrow, hrid⟩ := List.mem_map.mp hseen
    rw [getReviewQueueJobByAttemptId, JobTable.byAttempt?_eq_some.mpr ⟨hrow, hrid⟩, hterminal]
    exact congrArg some (hfinished row hrow (.inl hrid))
  · cases hretry : getActiveReviewQueueRetryJobByAttemptId s attemptId with
    | none => rfl
    | some retry =>
      rw [getActiveReviewQueueRetryJobByAttemptId, Option.map_eq_some_iff] at hretry
      obtain ⟨row, hrow, -⟩ := hretry
      have hmem := List.mem_of_mem_head? (Option.mem_def.mpr hrow)
      rw [List.mem_insertionSort, List.mem_filter, Bool.and_eq_true] at hmem
      rw [hfinished row hmem.1 (.inr hmem.2.1)] at hmem
      exact absurd hmem.2.2 (by decide)

theorem update_cases (redactSecrets : String → String) (input : UpdateJobInput) (now : Int) (s : State) :
    (settle (updateReviewQueueJobState redactSecrets input now s) s).2 = s ∨
      (settle (updateReviewQueueJobState redactSecrets input now s) s).2.jobs.rows =
        s.jobs.rows.map fun j => if j.jobId = input.jobId then updatedJob redactSecrets input now j else j := by
  unfold updateReviewQueueJobState
  split
  · exact .inl rfl
  · exact .inr rfl

theorem update_settled (redactSecrets : String → String) (now : Int) {input : UpdateJobInput} {s : State}
    (halone : RevivesAlone input s) (ho : OneUnfinished s.jobs) :
    OneUnfinished (settle (updateReviewQueueJobState redactSecrets input now s) s).2.jobs ∧
      attemptIds (settle (updateReviewQueueJobState redactSecrets input now s) s).2.jobs = attemptIds s.jobs := by
  rcases update_cases redactSecrets input now s with h | hrows
  · rw [h]
    exact ⟨ho, rfl⟩
  have hattempt : ∀ j : ReviewQueueJobRecord,
      (if j.jobId = input.jobId then updatedJob redactSecrets input now j else j).attemptId = j.attemptId := by
    intro j
    split <;> rfl
  refine ⟨?_, ?_⟩
  · intro base i' hi' j' hj' hbi hbj hui huj
    rw [hrows] at hi' hj'
    obtain ⟨i, hi, rfl⟩ := List.mem_map.mp hi'
    obtain ⟨j, hj, rfl⟩ := List.mem_map.mp hj'
    rw [hattempt] at hbi hbj
    -- the job the update revives, if it does, is the only unfinished one
    have hkey : ∀ k ∈ s.jobs.rows, k.jobId = input.jobId → k.state.isTerminal = true →
        input.state.isTerminal = false → ∀ l ∈ s.jobs.rows, InFamily base k.attemptId → InFamily base l.attemptId →
        l.jobId ≠ input.jobId → l.state.isTerminal = true :=
      fun k hk hid hterminal hrevives l hl hbk hbl _ => halone k hk hid hterminal hrevives base hbk l hl hbl
    by_cases hidi : i.jobId = input.jobId <;> by_cases hidj : j.jobId = input.jobId
    · rw [s.jobs.toTable.eq_of_key_eq hi hj (hidi.trans hidj.symm)]
    · simp only [if_pos hidi, if_neg hidj] at hui huj ⊢
      cases hterminal : i.state.isTerminal with
      | true =>
        rw [hkey i hi hidi hterminal hui j hj hbi hbj hidj] at huj
        cases huj
      | false => exact absurd (ho base i hi j hj hbi hbj hterminal huj ▸ hidi) hidj
    · simp only [if_neg hidi, if_pos hidj] at hui huj ⊢
      cases hterminal : j.state.isTerminal with
      | true =>
        rw [hkey j hj hidj hterminal huj i hi hbj hbi hidi] at hui
        cases hui
      | false => exact absurd (ho base i hi j hj hbi hbj hui hterminal ▸ hidj) hidi
    · simp only [if_neg hidi, if_neg hidj] at hui huj ⊢
      exact ho base i hi j hj hbi hbj hui huj
  · rw [attemptIds, hrows, List.map_map]
    exact List.map_congr_left fun j _ => hattempt j

theorem update_iff (redactSecrets : String → String) (now : Int) {input : UpdateJobInput} {s : State}
    (ho : OneUnfinished s.jobs) :
    OneUnfinished (settle (updateReviewQueueJobState redactSecrets input now s) s).2.jobs ↔ RevivesAlone input s := by
  refine ⟨fun ho' row hrow hid hterminal hrevives base hbase other hother hfam => ?_,
    fun halone => (update_settled redactSecrets now halone ho).1⟩
  by_contra hactive
  have hne : other.jobId ≠ input.jobId := by
    intro heq
    rw [s.jobs.toTable.eq_of_key_eq hother hrow (heq.trans hid.symm)] at hactive
    exact hactive hterminal
  have hfound : s.jobs.toTable.find? input.jobId = some row := Table.find?_eq_some.mpr ⟨hrow, hid⟩
  have hrows : (settle (updateReviewQueueJobState redactSecrets input now s) s).2.jobs.rows =
      s.jobs.rows.map fun j => if j.jobId = input.jobId then updatedJob redactSecrets input now j else j := by
    unfold updateReviewQueueJobState
    rw [hfound]
    rfl
  have hmem : ∀ j ∈ s.jobs.rows, (if j.jobId = input.jobId then updatedJob redactSecrets input now j else j) ∈
      (settle (updateReviewQueueJobState redactSecrets input now s) s).2.jobs.rows :=
    fun j hj => hrows ▸ List.mem_map_of_mem hj
  have hrow' := hmem row hrow
  have hother' := hmem other hother
  rw [if_pos hid] at hrow'
  rw [if_neg hne] at hother'
  have := ho' base _ hrow' _ hother' hbase hfam hrevives (by simpa using hactive)
  exact hne (this ▸ hid)

theorem exec_settled (texts : Texts) {s : State} {phase : Phase} {act : QueueCall}
    (hallowed : enqueueDiscipline.allows phase act) (hsettled : Settled s phase act)
    (ho : OneUnfinished s.jobs) (hparented : Parented s.jobs)
    (hseen : ∀ a, phase.base = some a → a ∈ attemptIds s.jobs) :
    OneUnfinished (act.exec texts s).2.jobs ∧ Parented (act.exec texts s).2.jobs ∧
      attemptIds s.jobs ⊆ attemptIds (act.exec texts s).2.jobs := by
  cases hquiet : act.isQuiet with
  | true =>
    have h := exec_quiet texts hquiet s
    refine ⟨ho.quiet h, ?_, by rw [h.attemptIds_eq]; exact List.Subset.refl _⟩
    rw [Parented, h.attemptIds_eq]
    exact hparented
  | false =>
    cases act with
    | insert job =>
      simp only [QueueCall.exec, insertReviewQueueJob]
      split
      · exact ⟨ho, hparented, List.Subset.refl _⟩
      · rename_i t' hins
        obtain ⟨hone, hpar⟩ := insert_settled hallowed hsettled hparented hins hseen ho
        refine ⟨hone, hpar, ?_⟩
        change attemptIds s.jobs ⊆ attemptIds t'
        rw [attemptIds_insert (JobTable.insertJob?_eq_some hins).1]
        exact List.subset_append_left _ _
    | update input now =>
      have halone : RevivesAlone input s := by
        rcases phase with _ | ⟨_, _ | _⟩ | ⟨_, _, _ | _⟩ <;> exact hsettled
      obtain ⟨hone, hids⟩ := update_settled texts.redactSecrets now halone ho
      refine ⟨hone, ?_, fun a ha => hids.symm ▸ ha⟩
      change Parented (settle (updateReviewQueueJobState texts.redactSecrets input now s) s).2.jobs
      rw [Parented, hids]
      exact hparented
    | _ => cases hquiet

/-! ## Processes and their runs -/

section
variable {α : Type}

/-- A process: any sequence of enqueues, reconciliations and single calls, none of which inserts by itself. -/
inductive QueueProcess : QueueProg α → Prop where
  | done (a : α) : QueueProcess (.done a)
  | fail (e : String) : QueueProcess (.fail e)
  | enqueue (input : EnqueueInput) (ids : EnqueueIds) (now : Int) (k : Except String EnqueueResult → QueueProg α) :
      (∀ r, QueueProcess (k r)) → QueueProcess ((enqueueReviewQueueJob input ids now).attempt k)
  | reconcile (now : Int) (k : Except String Reconciled → QueueProg α) :
      (∀ r, QueueProcess (k r)) → QueueProcess ((reconcileProcessedSkippedFailedQueueJobs now).attempt k)
  | call (act : QueueCall) (k : QueueAnswer act → QueueProg α) :
      (∀ job, act ≠ .insert job) → (∀ r, QueueProcess (k r)) → QueueProcess (.call act k)

/-- A discipline that bounds no end. -/
abbrev Keeps {β : Type} (phase : Phase) (p : QueueProg β) : Prop :=
  Follows enqueueDiscipline phase (fun _ _ => True) p

theorem allows_of_not_insert {phase : Phase} {act : QueueCall} (h : ∀ job, act ≠ .insert job) :
    enqueueDiscipline.allows phase act := by
  cases act with
  | insert job => exact absurd rfl (h job)
  | _ => rcases phase with _ | ⟨_, _ | _⟩ | ⟨_, _, _ | _⟩ <;> trivial

theorem enqueueReviewQueueJob_keeps (input : EnqueueInput) (ids : EnqueueIds) (now : Int) (phase : Phase) :
    Keeps phase (enqueueReviewQueueJob input ids now) := by
  have hthrow : ∀ (phase : Phase) (r : Except String Unit) (e : EnqueueResult),
      Keeps phase (orThrow (fun _ => .done e) r : QueueProg EnqueueResult) := by
    intro phase r e
    cases r <;> trivial
  unfold enqueueReviewQueueJob
  split
  · trivial
  refine ⟨allows_of_not_insert (by simp), fun existing => ?_⟩
  have hnext : ∀ (a : String) (r : Option ReviewQueueJobRecord),
      enqueueDiscipline.next phase (.getByAttempt a) r = .sawBase a r := by
    intro a r
    rcases phase with _ | ⟨_, _ | _⟩ | ⟨_, _, _ | _⟩ <;> rfl
  rw [hnext]
  rcases existing with _ | existing
  · exact ⟨⟨rfl, rfl⟩, fun r => hthrow _ r _⟩
  cases hterminal : existing.state.isTerminal with
  | false =>
    simp only [hterminal, Bool.not_false, if_true]
    trivial
  | true =>
    simp only [hterminal, Bool.not_true, Bool.false_eq_true, if_false]
    refine ⟨allows_of_not_insert (by simp), fun retry => ?_⟩
    simp only [enqueueDiscipline, if_true]
    rcases retry with _ | retry
    · exact ⟨⟨rfl, hterminal, ids.retry, rfl⟩, fun r => hthrow _ r _⟩
    · trivial

theorem reconcileJobs_keeps (now : Int) : ∀ (jobs : List ReviewQueueJobRecord) (result : Reconciled) (phase : Phase),
    Keeps phase (reconcileJobs now jobs result)
  | [], _, _ => trivial
  | job :: rest, result, phase => by
    have hrest := fun result phase => reconcileJobs_keeps now rest result phase
    have hthrow : ∀ (phase : Phase) (r : Except String Unit) (result : Reconciled),
        Keeps phase (orThrow (fun _ => reconcileJobs now rest result) r) := by
      intro phase r result
      cases r with
      | error _ => trivial
      | ok _ => exact hrest result phase
    unfold reconcileJobs
    split
    · exact hrest _ _
    refine ⟨allows_of_not_insert (by simp), fun processed => ?_⟩
    beta_reduce
    split
    · exact hrest _ _
    split
    · exact ⟨allows_of_not_insert (by simp), fun r => hthrow _ r _⟩
    · exact ⟨allows_of_not_insert (by simp), fun r => hthrow _ r _⟩

theorem QueueProcess.keeps {p : QueueProg α} (h : QueueProcess p) : ∀ phase, Keeps phase p := by
  induction h with
  | done _ => exact fun _ => trivial
  | fail _ => exact fun _ => trivial
  | enqueue input ids now k _ ih =>
    intro phase
    exact follows_attempt.mpr ((enqueueReviewQueueJob_keeps input ids now phase).mono fun r s _ => ih r s)
  | reconcile now k _ ih =>
    intro phase
    refine follows_attempt.mpr (Follows.mono (Q := fun _ _ => True) ?_ fun r s _ => ih r s)
    exact ⟨allows_of_not_insert (by simp), fun jobs => reconcileJobs_keeps now jobs _ _⟩
  | call act k hnot _ ih => exact fun phase => ⟨allows_of_not_insert hnot, fun r => ih r _⟩

variable {ι : Type} {texts : Texts}

/-- Processes before their first calls, over a store without jobs. -/
structure Fresh (w : World QueueAnswer String α ι (Shared ι)) : Prop where
  empty : w.shared.store.jobs.rows = []
  idle : ∀ i, w.shared.phase i = .idle
  processes : ∀ i, QueueProcess (w.progs i)

/-- What the next step must meet. -/
def Undisturbed (w : World QueueAnswer String α ι (Shared ι)) :
    Label ι Unit (Table StoredProcessedReviewRecord.key) → Prop
  | .act i _ => match w.progs i with
    | .call act _ => Settled w.shared.store (w.shared.phase i) act
    | _ => True
  | .ambient _ => True

structure QueueInv (w : World QueueAnswer String α ι (Shared ι)) : Prop where
  one : OneUnfinished w.shared.store.jobs
  parented : Parented w.shared.store.jobs
  seen : ∀ i a, (w.shared.phase i).base = some a → a ∈ attemptIds w.shared.store.jobs
  keeps : ∀ i, Keeps (w.shared.phase i) (w.progs i)

theorem QueueInv.fresh {w : World QueueAnswer String α ι (Shared ι)} (h : Fresh w) : QueueInv w where
  one := by
    intro base i hi
    rw [h.empty] at hi
    cases hi
  parented := by
    intro a ha
    rw [attemptIds, h.empty] at ha
    cases ha
  seen := by
    intro i a ha
    rw [h.idle] at ha
    cases ha
  keeps := fun i => (h.processes i).keeps _

theorem base_next {s : State} {phase : Phase} {act : QueueCall} {a : String}
    (hseen : ∀ a, phase.base = some a → a ∈ attemptIds s.jobs)
    (h : (enqueueDiscipline.next phase act (act.exec texts s).1).base = some a) : a ∈ attemptIds s.jobs := by
  have hread : ∀ attemptId, (Phase.sawBase attemptId (getReviewQueueJobByAttemptId s attemptId)).base = some a →
      a ∈ attemptIds s.jobs := by
    intro attemptId h
    cases hrow : s.jobs.byAttempt? attemptId with
    | none =>
      rw [getReviewQueueJobByAttemptId, hrow] at h
      cases h
    | some row =>
      rw [getReviewQueueJobByAttemptId, hrow] at h
      obtain ⟨hmem, hid⟩ := JobTable.byAttempt?_eq_some.mp hrow
      obtain rfl := Option.some.inj h
      exact hid ▸ List.mem_map_of_mem hmem
  cases act with
  | getByAttempt attemptId => rcases phase with _ | ⟨_, _ | _⟩ | ⟨_, _, _ | _⟩ <;> exact hread _ h
  | getActiveRetry attemptId =>
    rcases phase with _ | ⟨b, _ | existing⟩ | ⟨_, _, _ | _⟩
    · cases h
    · cases h
    · simp only [enqueueDiscipline] at h
      split at h
      · exact hseen a h
      · cases h
    · cases h
    · cases h
  | _ => rcases phase with _ | ⟨_, _ | _⟩ | ⟨_, _, _ | _⟩ <;> cases h

variable [DecidableEq ι]

theorem QueueInv.step {w w' : World QueueAnswer String α ι (Shared ι)}
    {l : Label ι Unit (Table StoredProcessedReviewRecord.key)} (hinv : QueueInv w) (hsettled : Undisturbed w l)
    (h : w.step (queueSemantics texts) l = some w') : QueueInv w' := by
  cases l with
  | ambient processed =>
    obtain ⟨s, hs, rfl⟩ := World.ambient_cases h
    obtain rfl := Option.some.inj hs
    exact ⟨hinv.one, hinv.parented, hinv.seen, hinv.keeps⟩
  | act i env =>
    obtain ⟨act, k, r, s, hprog, hexec, rfl⟩ := World.act_cases h
    obtain ⟨rfl, rfl⟩ := Prod.mk.inj (Option.some.inj hexec)
    have hkeep := hinv.keeps i
    rw [hprog] at hkeep
    simp only [Undisturbed, hprog] at hsettled
    obtain ⟨hone, hparented, hsub⟩ := exec_settled texts hkeep.1 hsettled hinv.one hinv.parented (hinv.seen i)
    refine ⟨hone, hparented, fun j a hj => ?_, fun j => ?_⟩
    · by_cases hji : j = i
      · subst hji
        simp only [Function.update_self] at hj
        exact hsub (base_next (hinv.seen j) hj)
      · simp only [Function.update_of_ne hji] at hj
        exact hsub (hinv.seen j a hj)
    · by_cases hji : j = i
      · subst hji
        simp only [Function.update_self]
        exact hkeep.2 _
      · simp only [Function.update_of_ne hji]
        exact hinv.keeps j

/-- In every run whose enqueues and updates nothing disturbs, no attempt has two unfinished jobs. -/
theorem oneUnfinished_of_run {w w' : World QueueAnswer String α ι (Shared ι)}
    {ls : List (Label ι Unit (Table StoredProcessedReviewRecord.key))} (hfresh : Fresh w)
    (hsettled : Along (World.step (queueSemantics texts)) Undisturbed w ls)
    (hrun : run (World.step (queueSemantics texts)) w ls = some w') : OneUnfinished w'.shared.store.jobs :=
  (hsettled.invariant (I := QueueInv) (fun _ _ _ hinv hl hstep => hinv.step hl hstep) (.fresh hfresh) hrun).one

end

/-! ## A race of two enqueues, and a revival by the reconciliation -/

def demoTexts : Texts := ⟨id, fun _ => none, id⟩

def demoHead : HeadKey := ⟨"o/r", 1, "h"⟩

def demoEnqueue (ids : EnqueueIds) (now : Int) (k : QueueProg Unit) : QueueProg Unit :=
  (enqueueReviewQueueJob { head := demoHead, attemptId := some "a" } ids now).attempt fun _ => k

def demoIds (n : Nat) : EnqueueIds :=
  let ids : List EnqueueIds := [⟨⟨"j1", by decide⟩, ⟨"m", by decide⟩, ⟨"r1", by decide⟩⟩,
    ⟨⟨"j2", by decide⟩, ⟨"m", by decide⟩, ⟨"r2", by decide⟩⟩, ⟨⟨"j3", by decide⟩, ⟨"m", by decide⟩, ⟨"r3", by decide⟩⟩]
  ids.getD n ⟨⟨"j", by decide⟩, ⟨"m", by decide⟩, ⟨"r", by decide⟩⟩

/-- One process enqueues, posts and enqueues again; the other enqueues. -/
def raceWorld : World QueueAnswer String Unit Bool (Shared Bool) where
  shared := ⟨{}, fun _ => .idle⟩
  progs
    | false => demoEnqueue (demoIds 0) 0 <| .call (.update { jobId := "j1", state := .posted } 1) fun _ =>
        demoEnqueue (demoIds 1) 2 (.done ())
    | true => demoEnqueue (demoIds 2) 2 (.done ())

/-- Both read before either inserts its retry. -/
def raceLabels : List (Label Bool Unit (Table StoredProcessedReviewRecord.key)) :=
  [false, false, false, false, false, true, true, false, true].map fun i => .act i ()

theorem raceWorld_fresh : Fresh raceWorld where
  empty := rfl
  idle := fun _ => rfl
  processes
    | false => .enqueue _ _ _ _ fun _ => .call _ _ (by simp) fun _ => .enqueue _ _ _ _ fun _ => .done _
    | true => .enqueue _ _ _ _ fun _ => .done _

/-- The first process alone. -/
def aloneLabels : List (Label Bool Unit (Table StoredProcessedReviewRecord.key)) :=
  [.act false (), .act false (), .act false (), .act false (), .act false (), .act false ()]

/-- With the other process still, the second enqueue of the first adds the one retry. -/
theorem oneUnfinished_of_run_alone :
    ∃ w', run (World.step (queueSemantics demoTexts)) raceWorld aloneLabels = some w' ∧
      OneUnfinished w'.shared.store.jobs := by
  have hplain : Plain "a" := plain_of_not_infix (by decide)
  have hsettled : Along (World.step (queueSemantics demoTexts)) Undisturbed raceWorld aloneLabels := by
    refine .cons trivial rfl (.cons hplain rfl (.cons ?_ rfl (.cons trivial rfl (.cons trivial rfl
      (.cons ⟨hplain, rfl, rfl⟩ rfl trivial)))))
    intro row _ _ _ hrevives
    cases hrevives
  exact ⟨_, rfl, oneUnfinished_of_run raceWorld_fresh hsettled rfl⟩

/-- A job fails behind a cooled-down row, is enqueued again, and is then deferred by the reconciliation. -/
def reviveWorld : World QueueAnswer String Unit Bool (Shared Bool) where
  shared := ⟨{}, fun _ => .idle⟩
  progs
    | false => demoEnqueue (demoIds 0) 0 <|
        .call (.update { jobId := "j1", state := .failed, lastError := some "processed_head_already_skipped" } 1) fun _ =>
          demoEnqueue (demoIds 1) 2 (.done ())
    | true => (reconcileProcessedSkippedFailedQueueJobs 3).attempt fun _ => .done ()

def cooledRows : Table StoredProcessedReviewRecord.key :=
  ⟨[{ head := demoHead, status := .skipped, createdAt := .iso 0
      error := some "provider_rate_limit_cooldown_until=T; reason=quota" }], by decide⟩

def reviveLabels : List (Label Bool Unit (Table StoredProcessedReviewRecord.key)) :=
  [false, false, false, false, false, false].map (fun i => .act i ()) ++ .ambient cooledRows ::
    [true, true, true].map fun i => .act i ()

theorem reviveWorld_fresh : Fresh reviveWorld where
  empty := rfl
  idle := fun _ => rfl
  processes
    | false => .enqueue _ _ _ _ fun _ => .call _ _ (by simp) fun _ => .enqueue _ _ _ _ fun _ => .done _
    | true => .reconcile _ _ fun _ => .done _

theorem not_oneUnfinished {jobs : JobTable} (base : String) (h : ∃ i ∈ jobs.rows, ∃ j ∈ jobs.rows, i ≠ j ∧
    InFamily base i.attemptId ∧ InFamily base j.attemptId ∧ i.state.isTerminal = false ∧
    j.state.isTerminal = false) : ¬ OneUnfinished jobs := by
  obtain ⟨i, hi, j, hj, hne, hbi, hbj, hui, huj⟩ := h
  exact fun ho => hne (ho base i hi j hj hbi hbj hui huj)

theorem twoUnfinished_of_race_or_revival :
    (Fresh raceWorld ∧ ∃ w', run (World.step (queueSemantics demoTexts)) raceWorld raceLabels = some w' ∧
      ¬ OneUnfinished w'.shared.store.jobs) ∧
    (Fresh reviveWorld ∧ ∃ w', run (World.step (queueSemantics demoTexts)) reviveWorld reviveLabels = some w' ∧
      ¬ OneUnfinished w'.shared.store.jobs) := by
  refine ⟨⟨raceWorld_fresh, _, rfl, not_oneUnfinished "a" ?_⟩,
    reviveWorld_fresh, _, rfl, not_oneUnfinished "a" ?_⟩
  · decide
  · decide

end NeonDiff.Queue
