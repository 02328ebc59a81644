import NeonDiff.Retire.Model
import NeonDiff.Store.Changes

/-! # What a retirement may overwrite -/

namespace NeonDiff.Retire

open NeonDiff.Lib NeonDiff.Lib.JsText NeonDiff.Store

/-! ## Rows that are not posted -/

def Unposted (s : State) (head : HeadKey) : Prop :=
  ∀ row, s.processed.find? head = some row → row.status ≠ .posted

def Posts (head : HeadKey) : StoreCall → Prop
  | .recordProcessed record => record.head = head ∧ record.status = .posted
  | .recordAuthorizedReviewPosted input => input.head = head
  | _ => False

section
variable {redactSecrets : String → String} {now : Int} {uuid : String} {s s' : State} {head : HeadKey}

theorem recordedRow_unposted {record : ProcessedReviewRecord} (hstatus : record.status ≠ .posted)
    {old : Option StoredProcessedReviewRecord} (hold : ∀ row, old = some row → row.status ≠ .posted) :
    (recordedRow record now old).status ≠ .posted := by
  cases old with
  | none => exact hstatus
  | some row =>
    show (upsertedRow record now row).status ≠ .posted
    unfold upsertedRow
    split
    · exact hold row rfl
    · exact hstatus

theorem Unposted.after_ok {call : StoreCall} {v : call.Value} (h : Unposted s head) (hposts : ¬Posts head call)
    (hexec : call.exec redactSecrets now uuid s = .ok (v, s')) : Unposted s' head := by
  intro row hrow
  have hchange := rowChange_of_ok hexec head
  rw [hrow] at hchange
  obtain ⟨left, hleft⟩ : ∃ left, some row = left := ⟨_, rfl⟩
  rw [hleft] at hchange
  cases hchange with
  | kept => exact h row hleft.symm
  | recorded record hhead =>
    obtain rfl := Option.some.inj hleft
    exact recordedRow_unposted (fun hposted => hposts ⟨hhead, hposted⟩) h
  | carried record row' hhead admits status error =>
    obtain rfl := Option.some.inj hleft
    rw [status]
    decide
  | dryRun input row' hhead recorded free admits status revision =>
    obtain rfl := Option.some.inj hleft
    rw [status]
    decide
  | cleared reason row' found status error => cases hleft
  | consumed input row' hhead found ok consumes =>
    obtain rfl := Option.some.inj hleft
    exact nofun
  | authorized input hhead => exact absurd hhead hposts

theorem Unposted.after {call : StoreCall} (h : Unposted s head) (hposts : ¬Posts head call) :
    Unposted (call.after redactSecrets now uuid s) head := by
  unfold StoreCall.after
  cases hexec : call.exec redactSecrets now uuid s with
  | error e => exact h
  | ok result => exact h.after_ok hposts hexec

def KeepsPosted (s s' : State) : Prop :=
  ∀ head row, s.processed.find? head = some row → row.status = .posted → s'.processed.find? head = some row

theorem recordProcessed_keepsPosted {record : ProcessedReviewRecord} (h : Unposted s record.head) :
    KeepsPosted s (recordProcessed record now s) := by
  intro head row hrow hposted
  unfold recordProcessed
  rw [find?_upsert_recordedRow, if_neg]
  · exact hrow
  · rintro rfl
    exact h row hrow hposted

end

/-! ## What a retirement has checked -/

inductive Seen where
  | nothing
  | failed (head : HeadKey)

/-- A retirement writes a row only as skipped, and only after it read the row as failed. -/
def retireDiscipline : Discipline StoreCall.Value Seen where
  allows
    | _, .getProcessedReview _ => True
    | .failed head, .recordProcessed record => record.head = head ∧ record.status = .skipped
    | _, .retireFailedReviewQueueJobs .. => True
    | _, _ => False
  next
    | _, .getProcessedReview head, answer => if answer.any (·.status = .failed) then .failed head else .nothing
    | _, _, _ => .nothing

theorem retireFailedReview_follows (texts : Texts) (input : RetireFailedReviewInput) :
    Follows retireDiscipline .nothing (fun _ _ => True) (retireFailedReview texts input) := by
  refine ⟨trivial, ?_⟩
  intro answer
  cases answer with
  | none => trivial
  | some existing =>
    dsimp only
    split
    · rename_i hfailed
      have hnext : retireDiscipline.next .nothing (.getProcessedReview input.head) (some existing) =
          .failed input.head := if_pos (by simpa using hfailed)
      rw [hnext]
      exact ⟨⟨rfl, rfl⟩, fun _ => ⟨trivial, fun _ => ⟨trivial, fun _ => trivial⟩⟩⟩
    · split
      · refine ⟨?_, fun _ => trivial⟩
        rename_i hfailed _ _ _
        have hnext : retireDiscipline.next .nothing (.getProcessedReview input.head) (some existing) =
            .nothing := if_neg (by simpa using hfailed)
        rw [hnext]
        trivial
      · trivial

/-! ## Interleavings -/

section
variable {ι : Type} [DecidableEq ι] {texts : Texts} {w w' : RetireWorld ι}

/-- The next call of program `i` writes the head's row. -/
def AboutToWrite (w : RetireWorld ι) (i : ι) (head : HeadKey) : Prop :=
  ∃ record k, w.progs i = .call (.recordProcessed record) k ∧ record.head = head

structure Safe (w : RetireWorld ι) : Prop where
  follows : ∀ i, ∃ seen, Follows retireDiscipline seen (fun _ _ => True) (w.progs i)
  unposted : ∀ i head, AboutToWrite w i head → Unposted w.shared head

/-- No other process posts a head whose retirement has read the row and not written it. -/
def Undisturbed (w : RetireWorld ι) : Label ι Env TimedCall → Prop
  | .act .. => True
  | .ambient c => ∀ i head, AboutToWrite w i head → ¬Posts head c.call

omit [DecidableEq ι] in
theorem safe_startWorld (texts : Texts) (s : State) (inputs : ι → RetireFailedReviewInput) :
    Safe (startWorld texts s inputs) := by
  constructor
  · intro i
    exact ⟨.nothing, retireFailedReview_follows texts (inputs i)⟩
  · rintro i head ⟨record, k, hprog, -⟩
    cases hprog

theorem allowed_not_posts {seen : Seen} {act : StoreCall} (h : retireDiscipline.allows seen act) (head : HeadKey) :
    ¬Posts head act := by
  cases act with
  | recordProcessed record =>
    cases seen with
    | nothing => exact h.elim
    | failed head' =>
      rintro ⟨-, hposted⟩
      rw [h.2] at hposted
      cases hposted
  | recordAuthorizedReviewPosted input => cases seen <;> exact h.elim
  | _ => exact id

theorem aboutToWrite_after_get {env : Env} {seen : Seen} {act : StoreCall} {answer : act.Value} {s s' : State}
    {record : ProcessedReviewRecord} {k : Unit → RetireProg}
    (hexec : act.exec texts.redactSecrets env.now env.uuid s = .ok (answer, s'))
    (hfollows : Follows retireDiscipline (retireDiscipline.next seen act answer) (fun _ _ => True)
      (.call (.recordProcessed record) k : RetireProg)) : Unposted s' record.head := by
  have hallowed := hfollows.1
  cases act with
  | getProcessedReview head =>
    obtain ⟨rfl, rfl⟩ := Prod.mk.inj (Except.ok.inj hexec)
    cases hrow : s.processed.find? head with
    | none =>
      have hnext : retireDiscipline.next seen (.getProcessedReview head) (getProcessedReview s head) = .nothing := by
        unfold getProcessedReview
        rw [hrow]
        rfl
      rw [hnext] at hallowed
      exact hallowed.elim
    | some row =>
      by_cases hfailed : row.status = .failed
      · have hnext : retireDiscipline.next seen (.getProcessedReview head) (getProcessedReview s head) =
            .failed head := by
          unfold getProcessedReview
          rw [hrow]
          exact if_pos (by simpa [mapProcessedReviewRow] using hfailed)
        rw [hnext] at hallowed
        obtain ⟨hhead, -⟩ : record.head = head ∧ _ := hallowed
        intro other hother
        rw [hhead, hrow] at hother
        obtain rfl := Option.some.inj hother
        rw [hfailed]
        decide
      · have hnext : retireDiscipline.next seen (.getProcessedReview head) (getProcessedReview s head) =
            .nothing := by
          unfold getProcessedReview
          rw [hrow]
          exact if_neg (by simpa [mapProcessedReviewRow] using hfailed)
        rw [hnext] at hallowed
        exact hallowed.elim
  | _ => exact hallowed.elim

theorem safe_act {i : ι} {env : Env} (h : Safe w) (hstep : w.step (storeSemantics texts ι) (.act i env) = some w') :
    Safe w' ∧ KeepsPosted w.shared w'.shared := by
  obtain ⟨act, k, answer, s', hprog, hexec, rfl⟩ := World.act_cases hstep
  obtain ⟨seen, hfollows⟩ := h.follows i
  rw [hprog] at hfollows
  replace hexec : act.exec texts.redactSecrets env.now env.uuid w.shared = .ok (answer, s') := by
    change (act.exec texts.redactSecrets env.now env.uuid w.shared).toOption = _ at hexec
    cases hcall : act.exec texts.redactSecrets env.now env.uuid w.shared with
    | error e =>
      rw [hcall] at hexec
      cases hexec
    | ok result =>
      rw [hcall] at hexec
      rw [Option.some.inj hexec]
  refine ⟨⟨?_, ?_⟩, ?_⟩
  · intro j
    dsimp only
    by_cases hj : j = i
    · subst hj
      refine ⟨retireDiscipline.next seen act answer, ?_⟩
      rw [Function.update_self]
      exact hfollows.2 answer
    · rw [Function.update_of_ne hj]
      exact h.follows j
  · rintro j head ⟨record, k', hnext, rfl⟩
    dsimp only at hnext
    by_cases hj : j = i
    · subst hj
      rw [Function.update_self] at hnext
      have hrest := hfollows.2 answer
      rw [hnext] at hrest
      exact aboutToWrite_after_get hexec hrest
    · rw [Function.update_of_ne hj] at hnext
      exact (h.unposted j _ ⟨record, k', hnext, rfl⟩).after_ok (allowed_not_posts hfollows.1 _) hexec
  · intro head row hrow hposted
    have hallowed := hfollows.1
    cases act with
    | recordProcessed record =>
      obtain ⟨-, rfl⟩ := Prod.mk.inj (Except.ok.inj hexec)
      exact recordProcessed_keepsPosted (h.unposted i record.head ⟨record, k, hprog, rfl⟩) head row hrow hposted
    | getProcessedReview _ =>
      obtain ⟨-, rfl⟩ := Prod.mk.inj (Except.ok.inj hexec)
      exact hrow
    | retireFailedReviewQueueJobs _ _ =>
      obtain ⟨-, rfl⟩ := Prod.mk.inj (Except.ok.inj hexec)
      exact hrow
    | _ => cases seen <;> exact hallowed.elim

theorem safe_ambient {c : TimedCall} (h : Safe w) (hC : Undisturbed w (.ambient c))
    (hstep : w.step (storeSemantics texts ι) (.ambient c) = some w') : Safe w' := by
  obtain ⟨s', hs', rfl⟩ := World.ambient_cases hstep
  obtain rfl := Option.some.inj hs'
  refine ⟨h.follows, ?_⟩
  rintro i head ⟨record, k, hprog, hhead⟩
  have habout : AboutToWrite w i head := ⟨record, k, hprog, hhead⟩
  exact (h.unposted i head habout).after (hC i head habout)

theorem safe_step {l : Label ι Env TimedCall} (h : Safe w) (hC : Undisturbed w l)
    (hstep : w.step (storeSemantics texts ι) l = some w') : Safe w' := by
  cases l with
  | act i env => exact (safe_act h hstep).1
  | ambient c => exact safe_ambient h hC hstep

end

/-! ## A crash between the two writes -/

theorem startsWith_retired (texts : Texts) (reason : String) (previousError : Option String) :
    startsWith (buildRetiredFailedHeadError texts reason previousError) retiredPrefix = true :=
  startsWith_append _ _

theorem retired_ne_empty (texts : Texts) (reason : String) (previousError : Option String) :
    buildRetiredFailedHeadError texts reason previousError ≠ "" := by
  intro h
  have hstarts := startsWith_retired texts reason previousError
  rw [h] at hstarts
  exact absurd hstarts (by decide)

theorem act_step {texts : Texts} {w : RetireWorld Unit} {env : Env} (act : StoreCall) (k : act.Value → RetireProg)
    (answer : act.Value) {s' : State} (hprog : w.progs () = .call act k)
    (hexec : act.exec texts.redactSecrets env.now env.uuid w.shared = .ok (answer, s')) :
    w.step (storeSemantics texts Unit) (.act () env) = some ⟨s', fun _ => k answer⟩ := by
  unfold World.step World.act
  simp only [hprog]
  have hsem : (storeSemantics texts Unit).exec () act env w.shared = some (answer, s') := by
    show (act.exec texts.redactSecrets env.now env.uuid w.shared).toOption = _
    rw [hexec]
    rfl
  rw [hsem, Option.map_some]
  congr 2

section
variable (texts : Texts) {s : State} {input : RetireFailedReviewInput} {row : StoredProcessedReviewRecord}

def retiredErrorOf (input : RetireFailedReviewInput) (row : StoredProcessedReviewRecord) : String :=
  buildRetiredFailedHeadError texts (normalizeRetirementReason texts input.reason) (mapProcessedReviewRow row).error

def retiredRecord (input : RetireFailedReviewInput) (row : StoredProcessedReviewRecord) : ProcessedReviewRecord where
  head := input.head
  status := .skipped
  error := some (retiredErrorOf texts input row)

theorem run_retire_get (hrow : s.processed.find? input.head = some row) (hfailed : row.status = .failed) (env : Env) :
    (startWorld texts s fun _ : Unit => input).step (storeSemantics texts Unit) (.act () env) =
      some ⟨s, fun _ => retireRow texts input (mapProcessedReviewRow row)⟩ := by
  have hread : getProcessedReview s input.head = some (mapProcessedReviewRow row) := by
    unfold getProcessedReview
    rw [hrow]
    rfl
  have hstatus : (mapProcessedReviewRow row).status = .failed := hfailed
  have hstart : (startWorld texts s fun _ : Unit => input).progs () = retireFailedReview texts input := rfl
  rw [act_step (.getProcessedReview input.head) _ (getProcessedReview s input.head) hstart rfl]
  simp only [hread, if_pos hstatus]
  rfl

theorem find?_retiredRecord (hrow : s.processed.find? input.head = some row) (hfailed : row.status = .failed)
    (now : Int) :
    (recordProcessed (retiredRecord texts input row) now s).processed.find? input.head =
      some { retiredRecord texts input row with createdAt := .iso now } := by
  unfold recordProcessed
  rw [find?_upsert_recordedRow, if_pos (show (retiredRecord texts input row).head = input.head from rfl), hrow]
  show some (upsertedRow _ _ _) = _
  unfold upsertedRow
  rw [if_neg, if_neg]
  · rintro ⟨hposted, -⟩
    rw [hfailed] at hposted
    cases hposted
  · rintro ⟨-, hposted⟩
    rw [hfailed] at hposted
    cases hposted

theorem run_resume_get {retired : StoredProcessedReviewRecord} {retiredError : String}
    (hread : getProcessedReview s input.head = some retired) (hstatus : retired.status = .skipped)
    (herror : retired.error = some retiredError) (hretired : startsWith retiredError retiredPrefix = true) (env : Env) :
    (startWorld texts s fun _ : Unit => input).step (storeSemantics texts Unit) (.act () env) =
      some ⟨s, fun _ => .call (.retireFailedReviewQueueJobs input.head retiredError) fun _ => .done (some retired)⟩ := by
  have hnot : ¬retired.status = .failed := by
    rw [hstatus]
    decide
  have hfilter : (retired.error.filter fun e => retired.status = .skipped && startsWith e retiredPrefix) =
      some retiredError := by
    rw [herror, hstatus]
    simp [Option.filter, hretired]
  have hstart : (startWorld texts s fun _ : Unit => input).progs () = retireFailedReview texts input := rfl
  rw [act_step (.getProcessedReview input.head) _ (getProcessedReview s input.head) hstart rfl]
  simp only [hread, if_neg hnot, hfilter]
  rfl

/-- The run of a retirement alone: two calls write the row, two more finish it, and after the first two a new
retirement reaches the same store with two calls of its own. -/
theorem retirement_resumes (hrow : s.processed.find? input.head = some row) (hfailed : row.status = .failed)
    (reason : String) (e0 e1 e3 f0 f1 : Env) :
    ∃ w1 w2 w3,
      run (World.step (storeSemantics texts Unit)) (startWorld texts s fun _ => input) [.act () e0, .act () e1] =
        some w1 ∧
      (∃ e k, w1.progs () = .call (.retireFailedReviewQueueJobs input.head e) k) ∧
      run (World.step (storeSemantics texts Unit))
        (startWorld texts w1.shared fun _ => { input with reason := reason }) [.act () f0, .act () f1] = some w2 ∧
      run (World.step (storeSemantics texts Unit)) (startWorld texts s fun _ => input)
        [.act () e0, .act () e1, .act () f1, .act () e3] = some w3 ∧
      w2.shared = w3.shared ∧ ∃ r, w2.progs () = .done r ∧ w3.progs () = .done r := by
  have hwritten := find?_retiredRecord texts hrow hfailed e1.now
  have hget := run_retire_get texts hrow hfailed e0
  let s1 := recordProcessed (retiredRecord texts input row) e1.now s
  let s2 := retireFailedReviewQueueJobs input.head (retiredErrorOf texts input row) f1.now s1
  let last : RetireProg := .call (.getProcessedReview input.head) .done
  let queueing : RetireProg :=
    .call (.retireFailedReviewQueueJobs input.head (retiredErrorOf texts input row)) fun _ => last
  let retired := mapProcessedReviewRow { retiredRecord texts input row with createdAt := .iso e1.now }
  have hread : getProcessedReview s1 input.head = some retired := by
    unfold getProcessedReview
    rw [hwritten]
    rfl
  have herror : retired.error = some (retiredErrorOf texts input row) := by
    show truthy (some (retiredErrorOf texts input row)) = _
    unfold truthy
    simp [Option.filter, retiredErrorOf, retired_ne_empty]
  have hwrite : World.step (storeSemantics texts Unit)
      (⟨s, fun _ => retireRow texts input (mapProcessedReviewRow row)⟩ : RetireWorld Unit) (.act () e1) =
      some ⟨s1, fun _ => queueing⟩ :=
    act_step (.recordProcessed (retiredRecord texts input row)) (fun _ => queueing) () rfl rfl
  have hqueue : World.step (storeSemantics texts Unit) (⟨s1, fun _ => queueing⟩ : RetireWorld Unit) (.act () f1) =
      some ⟨s2, fun _ => last⟩ :=
    act_step (.retireFailedReviewQueueJobs input.head (retiredErrorOf texts input row)) (fun _ => last) () rfl rfl
  have hlast : World.step (storeSemantics texts Unit) (⟨s2, fun _ => last⟩ : RetireWorld Unit) (.act () e3) =
      some ⟨s2, fun _ => .done (getProcessedReview s2 input.head)⟩ :=
    act_step (.getProcessedReview input.head) .done (getProcessedReview s2 input.head) rfl rfl
  have hresume := run_resume_get texts (show getProcessedReview s1 ({ input with reason := reason } : RetireFailedReviewInput).head = _ from hread) rfl herror
    (startsWith_retired ..) f0
  have hrequeue : World.step (storeSemantics texts Unit)
      (⟨s1, fun _ => .call (.retireFailedReviewQueueJobs input.head (retiredErrorOf texts input row)) fun _ =>
        .done (some retired)⟩ : RetireWorld Unit) (.act () f1) = some ⟨s2, fun _ => .done (some retired)⟩ :=
    act_step (.retireFailedReviewQueueJobs input.head (retiredErrorOf texts input row))
      (fun _ => .done (some retired)) () rfl rfl
  refine ⟨⟨s1, fun _ => queueing⟩, ⟨s2, fun _ => .done (some retired)⟩,
    ⟨s2, fun _ => .done (getProcessedReview s2 input.head)⟩, ?_, ⟨_, _, rfl⟩, ?_, ?_, rfl, some retired, rfl, ?_⟩
  · rw [run_cons, hget, Option.bind_some, run_cons, hwrite, Option.bind_some, run_nil]
  · rw [run_cons, hresume, Option.bind_some, run_cons, hrequeue, Option.bind_some, run_nil]
  · rw [run_cons, hget, Option.bind_some, run_cons, hwrite, Option.bind_some, run_cons, hqueue, Option.bind_some,
      run_cons, hlast, Option.bind_some, run_nil]
  · exact congrArg Prog.done hread

end

/-! ## Retiring beside a review -/

/-- As long as nobody posts a head between the check and the row write of its retirement, no retirement replaces a
posted row; and a retirement that is run again after a crash between its row write and its queue update ends as the
uninterrupted one does. -/
theorem retirement_spares_posted (texts : Texts) (s : State) :
    (∀ (ι : Type) [DecidableEq ι] (inputs : ι → RetireFailedReviewInput)
      (ls : List (Label ι Env TimedCall)),
      Along (World.step (storeSemantics texts ι)) Undisturbed (startWorld texts s inputs) ls →
      ∀ pre i env post w w', ls = pre ++ .act i env :: post →
        run (World.step (storeSemantics texts ι)) (startWorld texts s inputs) pre = some w →
        w.step (storeSemantics texts ι) (.act i env) = some w' →
        ∀ head row, w.shared.processed.find? head = some row → row.status = .posted →
          w'.shared.processed.find? head = some row) ∧
    (∀ (input : RetireFailedReviewInput) (row : StoredProcessedReviewRecord),
      s.processed.find? input.head = some row → row.status = .failed →
      ∀ (reason : String) (e0 e1 e3 f0 f1 : Env), ∃ w1 w2 w3,
        run (World.step (storeSemantics texts Unit)) (startWorld texts s fun _ => input) [.act () e0, .act () e1] =
          some w1 ∧
        (∃ e k, w1.progs () = .call (.retireFailedReviewQueueJobs input.head e) k) ∧
        run (World.step (storeSemantics texts Unit))
          (startWorld texts w1.shared fun _ => { input with reason := reason }) [.act () f0, .act () f1] = some w2 ∧
        run (World.step (storeSemantics texts Unit)) (startWorld texts s fun _ => input)
          [.act () e0, .act () e1, .act () f1, .act () e3] = some w3 ∧
        w2.shared = w3.shared ∧ ∃ r, w2.progs () = .done r ∧ w3.progs () = .done r) := by
  constructor
  · rintro ι _ inputs ls halong pre i env post w w' rfl hrun hstep
    have hsafe : Safe w := Along.invariant (fun _ _ _ hs hC hstep => safe_step hs hC hstep)
      (safe_startWorld texts s inputs) halong.append_left hrun
    exact (safe_act hsafe hstep).2
  · intro input row hrow hfailed
    exact retirement_resumes texts hrow hfailed

namespace RetireExample

def texts : Texts := ⟨id, id⟩

def head : HeadKey := ⟨"owner/repo", 7, "a"⟩

def input : RetireFailedReviewInput := ⟨head, "closed"⟩

def failed : State := recordProcessed { head := head, status := .failed, error := some "timeout" } 1 {}

def post : TimedCall := ⟨.recordProcessed { head := head, status := .posted, reviewUrl := some "u" }, 3, ""⟩

def start : RetireWorld Unit := startWorld texts failed fun _ => input

def overtaken : List (Label Unit Env TimedCall) := [.act () ⟨2, ""⟩, .ambient post]

/-- The retirement writes the row first, and the review is posted over it. -/
def followed : List (Label Unit Env TimedCall) := [.act () ⟨2, ""⟩, .act () ⟨2, ""⟩, .ambient post]

def failedRow : StoredProcessedReviewRecord :=
  { head := head, status := .failed, error := some "timeout", createdAt := .iso 1 }

def postedRow : StoredProcessedReviewRecord :=
  { head := head, status := .posted, reviewUrl := some "u", createdAt := .iso 3 }

end RetireExample

open RetireExample

/-- A review that is posted after the row write stays, and the failed row is retired at once or in two attempts. -/
theorem retirement_spares_posted_later :
    (∃ w w', run (World.step (storeSemantics texts Unit)) start followed = some w ∧
      w.step (storeSemantics texts Unit) (.act () ⟨4, ""⟩) = some w' ∧
      w'.shared.processed.find? head = some postedRow) ∧
    ∃ w1 w2 w3,
      run (World.step (storeSemantics texts Unit)) start [.act () ⟨2, ""⟩, .act () ⟨3, ""⟩] = some w1 ∧
      (∃ e k, w1.progs () = .call (.retireFailedReviewQueueJobs head e) k) ∧
      run (World.step (storeSemantics texts Unit)) (startWorld texts w1.shared fun _ => ⟨head, "again"⟩)
        [.act () ⟨4, ""⟩, .act () ⟨5, ""⟩] = some w2 ∧
      run (World.step (storeSemantics texts Unit)) start
        [.act () ⟨2, ""⟩, .act () ⟨3, ""⟩, .act () ⟨5, ""⟩, .act () ⟨6, ""⟩] = some w3 ∧
      w2.shared = w3.shared ∧ ∃ r, w2.progs () = .done r ∧ w3.progs () = .done r := by
  constructor
  · have halong : Along (World.step (storeSemantics texts Unit)) Undisturbed start (followed ++ [.act () ⟨4, ""⟩]) := by
      refine .cons trivial rfl (.cons trivial rfl (.cons ?_ rfl (.cons trivial rfl trivial)))
      rintro i k ⟨record, rest, hprog, -⟩
      cases hprog
    refine ⟨_, _, rfl, rfl, ?_⟩
    exact (retirement_spares_posted texts failed).1 Unit (fun _ => input) _ halong followed () ⟨4, ""⟩ [] _ _ rfl rfl rfl
      head postedRow (by decide) rfl
  · exact (retirement_spares_posted texts failed).2 input failedRow (by decide) rfl "again" ⟨2, ""⟩ ⟨3, ""⟩ ⟨6, ""⟩
      ⟨4, ""⟩ ⟨5, ""⟩

/-- A review that is posted between the two calls is lost: the retirement replaces its row. -/
theorem retirement_overwrites_posted :
    ¬∀ (ls : List (Label Unit Env TimedCall)) (env : Env) (w w' : RetireWorld Unit),
      run (World.step (storeSemantics texts Unit)) start ls = some w →
      w.step (storeSemantics texts Unit) (.act () env) = some w' →
      ∀ row, w.shared.processed.find? head = some row → row.status = .posted →
        w'.shared.processed.find? head = some row := by
  intro h
  have hkept := h overtaken ⟨4, ""⟩ _ _ rfl rfl _ rfl rfl
  revert hkept
  decide

end NeonDiff.Retire
