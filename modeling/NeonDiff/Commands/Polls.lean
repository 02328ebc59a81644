import NeonDiff.Commands.Model
import NeonDiff.Lib.Transition

/-! # Commands that a newer command overtook -/

namespace NeonDiff.Commands

open NeonDiff.Lib NeonDiff.Store

/-! ## One decision -/

section Decision

variable {commands : List ReviewCommand} {processed : Nat → Bool} {c : ReviewCommand} {b : Bool}

theorem sortByCommentId_sorted (commands : List ReviewCommand) :
    (sortByCommentId commands).Pairwise fun left right => left.commentId ≤ right.commentId := by
  have : Std.Total fun left right : ReviewCommand => left.commentId ≤ right.commentId :=
    ⟨fun left right => Nat.le_total _ _⟩
  have : IsTrans ReviewCommand fun left right => left.commentId ≤ right.commentId :=
    ⟨fun _ _ _ => Nat.le_trans⟩
  exact List.pairwise_insertionSort _ _

@[simp] theorem mem_sortByCommentId : c ∈ sortByCommentId commands ↔ c ∈ commands := List.mem_insertionSort _

theorem latest_spec {kind : ReviewCommand → Bool} {latest : ReviewCommand}
    (hsorted : commands.Pairwise fun l r => l.commentId ≤ r.commentId)
    (h : (commands.filter kind).getLast? = some latest) :
    latest ∈ commands ∧ kind latest = true ∧ ∀ d ∈ commands, kind d = true → d.commentId ≤ latest.commentId := by
  obtain ⟨init, hsplit⟩ := List.getLast?_eq_some_iff.mp h
  have hmem : ∀ d, d ∈ commands ∧ kind d = true ↔ d ∈ init ++ [latest] := by
    intro d
    rw [← hsplit, List.mem_filter]
  have hkind : (init ++ [latest]).Pairwise fun l r => l.commentId ≤ r.commentId := hsplit ▸ hsorted.filter kind
  obtain ⟨hin, hlatest⟩ := (hmem latest).mpr (by simp)
  refine ⟨hin, hlatest, fun d hd hdk => ?_⟩
  obtain hd | hd := List.mem_append.mp ((hmem d).mp ⟨hd, hdk⟩)
  · exact (List.pairwise_append.mp hkind).2.2 d hd latest (List.mem_singleton_self latest)
  · rw [List.mem_singleton.mp hd]

theorem latest_none {kind : ReviewCommand → Bool} (h : (commands.filter kind).getLast? = none) :
    ∀ d ∈ commands, kind d = false := by
  intro d hd
  rw [List.getLast?_eq_none_iff, List.filter_eq_nil_iff] at h
  simpa using h d hd

def steers (c : ReviewCommand) : Bool := isReviewCommandAction c.action || c.action = .stop

theorem latestOf_spec {pending : List ReviewCommand} {latest : ReviewCommand}
    (hsorted : pending.Pairwise fun l r => l.commentId ≤ r.commentId)
    (h : (match (pending.filter fun command => command.action = .stop).getLast? with
      | some stop =>
        if (pending.filter fun command => isReviewCommandAction command.action).getLast?.all
            fun review => review.commentId < stop.commentId then some stop
        else (pending.filter fun command => isReviewCommandAction command.action).getLast?.orElse
          fun _ => pending.getLast?
      | none => (pending.filter fun command => isReviewCommandAction command.action).getLast?.orElse
          fun _ => pending.getLast?) = some latest) :
    latest ∈ pending ∧ ∀ d ∈ pending, steers d = true → steers latest = true ∧ d.commentId ≤ latest.commentId := by
  cases hstop : (pending.filter fun command => command.action = .stop).getLast? with
  | none =>
    rw [hstop] at h
    have hnostop := latest_none hstop
    cases hreview : (pending.filter fun command => isReviewCommandAction command.action).getLast? with
    | none =>
      rw [hreview] at h
      have hnoreview := latest_none hreview
      refine ⟨List.mem_of_getLast? h, fun d hd hsteers => ?_⟩
      simp only [steers, hnoreview d hd, hnostop d hd, Bool.or_self, Bool.false_eq_true] at hsteers
    | some review =>
      rw [hreview] at h
      obtain rfl := Option.some.inj h
      obtain ⟨hin, hkind, hnewest⟩ := latest_spec hsorted hreview
      refine ⟨hin, fun d hd hsteers => ⟨by simp [steers, hkind], ?_⟩⟩
      simp only [steers, hnostop d hd, Bool.or_false] at hsteers
      exact hnewest d hd hsteers
  | some stop =>
    rw [hstop] at h
    obtain ⟨hstopIn, hstopKind, hstopNewest⟩ := latest_spec hsorted hstop
    cases hreview : (pending.filter fun command => isReviewCommandAction command.action).getLast? with
    | none =>
      simp only [hreview, Option.all_none, if_true, Option.some.injEq] at h
      subst h
      have hnoreview := latest_none hreview
      refine ⟨hstopIn, fun d hd hsteers => ⟨by simp [steers, hstopKind], ?_⟩⟩
      simp only [steers, hnoreview d hd, Bool.false_or] at hsteers
      exact hstopNewest d hd hsteers
    | some review =>
      obtain ⟨hin, hkind, hnewest⟩ := latest_spec hsorted hreview
      simp only [hreview, Option.all_some, decide_eq_true_eq] at h
      split at h
      · rename_i hlt
        obtain rfl := Option.some.inj h
        refine ⟨hstopIn, fun d hd hsteers => ⟨by simp [steers, hstopKind], ?_⟩⟩
        obtain hd' | hd' := Bool.or_eq_true_iff.mp hsteers
        · exact Nat.le_trans (hnewest d hd hd') (Nat.le_of_lt hlt)
        · exact hstopNewest d hd hd'
      · rename_i hge
        obtain rfl := Option.some.inj h
        refine ⟨hin, fun d hd hsteers => ⟨by simp [steers, hkind], ?_⟩⟩
        obtain hd' | hd' := Bool.or_eq_true_iff.mp hsteers
        · exact hnewest d hd hd'
        · exact Nat.le_trans (hstopNewest d hd hd') (Nat.le_of_not_lt hge)

theorem decideCommandAction_spec (hsorted : commands.Pairwise fun l r => l.commentId ≤ r.commentId)
    (h : decideCommandAction commands processed = .act c b) :
    c ∈ commands ∧ processed c.commentId = false ∧ b = isReviewCommandAction c.action ∧
      ∀ d ∈ commands, processed d.commentId = false → steers d = true →
        steers c = true ∧ d.commentId ≤ c.commentId := by
  unfold decideCommandAction at h
  dsimp only at h
  split at h
  · cases h
  · rename_i latest hlatest
    obtain ⟨rfl, rfl⟩ := CommandDecision.act.inj h
    obtain ⟨hin, hnewest⟩ := latestOf_spec (hsorted.filter _) hlatest
    obtain ⟨hmem, hpending⟩ := List.mem_filter.mp hin
    refine ⟨hmem, by simpa using hpending, rfl, fun d hd hdp hsteers => ?_⟩
    exact hnewest d (List.mem_filter.mpr ⟨hd, by simpa using hdp⟩) hsteers

theorem decideCommandAction_ne_none {d : ReviewCommand} (hd : d ∈ commands) (hpending : processed d.commentId = false)
    (hsteers : steers d = true) : decideCommandAction commands processed ≠ .none := by
  intro h
  unfold decideCommandAction at h
  dsimp only at h
  have hmem : d ∈ commands.filter fun command => !processed command.commentId :=
    List.mem_filter.mpr ⟨hd, by simpa using hpending⟩
  generalize (commands.filter fun command => !processed command.commentId) = pending at h hmem
  split at h
  · rename_i hlatest
    cases hstop : (pending.filter fun command => command.action = .stop).getLast? with
    | none =>
      rw [hstop] at hlatest
      obtain ⟨hreview, -⟩ := Option.or_eq_none_iff.mp ((Option.orElse_eq_or ..).symm.trans hlatest)
      simp [steers, latest_none hstop d hmem, latest_none hreview d hmem] at hsteers
    | some stop =>
      cases hreview : (pending.filter fun command => isReviewCommandAction command.action).getLast? with
      | none => simp [hstop, hreview] at hlatest
      | some review =>
        simp only [hstop, hreview] at hlatest
        split at hlatest <;> cases hlatest
  · cases h

end Decision

/-! ## One poll -/

section Poll

variable {head : HeadKey} {s t : Polled}

theorem hasProcessedCommand_record {table : ProcessedCommands} {command : ReviewCommand} {id : Nat} :
    hasProcessedCommand (recordProcessedCommand table (decisionRecord head command)) head id = true ↔
      hasProcessedCommand table head id = true ∨ id = command.commentId := by
  simp only [hasProcessedCommand, recordProcessedCommand, List.any_eq_true, Table.mem_replace, Bool.and_eq_true,
    decide_eq_true_eq]
  constructor
  · rintro ⟨row, ⟨hrow, -⟩ | rfl, hkey⟩
    · exact Or.inl ⟨row, hrow, hkey⟩
    · exact Or.inr hkey.2.symm
  · rintro (⟨row, hrow, hkey⟩ | rfl)
    · by_cases hsame : row.key = (decisionRecord head command).key
      · have hid : row.commentId = command.commentId := (Prod.mk.inj hsame).2
        exact ⟨_, Or.inr rfl, ⟨rfl, rfl⟩, hid.symm.trans hkey.2⟩
      · exact ⟨row, Or.inl ⟨hrow, hsame⟩, hkey⟩
    · exact ⟨_, Or.inr rfl, ⟨rfl, rfl⟩, rfl⟩

def Polled.Pending (head : HeadKey) (s : Polled) (c : ReviewCommand) : Prop :=
  c ∈ s.comments ∧ s.isProcessed head c.commentId = false

/-- Everything a poll can do. -/
inductive Polls (head : HeadKey) (s : Polled) : Polled → Prop where
  | idle (nothing : ∀ d, s.Pending head d → steers d = false) : Polls head s s
  | acts (c : ReviewCommand) (t : Polled) (pending : s.Pending head c)
      (newest : ∀ d, s.Pending head d → steers d = true → steers c = true ∧ d.commentId ≤ c.commentId)
      (comments : t.comments = s.comments)
      (processed : ∀ id, t.isProcessed head id = true ↔ s.isProcessed head id = true ∨ id = c.commentId)
      (decisions : t.decisions = s.decisions ++ [(c, isReviewCommandAction c.action)]) : Polls head s t

theorem Polled.step_poll (h : s.step head .poll = some t) : Polls head s t := by
  simp only [Polled.step] at h
  split at h
  · rename_i hnone
    obtain rfl := Option.some.inj h
    refine .idle fun d hd => ?_
    by_contra hsteers
    exact decideCommandAction_ne_none (mem_sortByCommentId.mpr hd.1) hd.2 (by simpa using hsteers) hnone
  · rename_i c b hact
    obtain rfl := Option.some.inj h
    obtain ⟨hmem, hpending, rfl, hnewest⟩ := decideCommandAction_spec (sortByCommentId_sorted s.comments) hact
    refine .acts c _ ⟨mem_sortByCommentId.mp hmem, hpending⟩ ?_ rfl (fun id => hasProcessedCommand_record) rfl
    intro d hd hsteers
    exact hnewest d (mem_sortByCommentId.mpr hd.1) hd.2 hsteers

end Poll

/-! ## Runs in which nothing pending was overtaken -/

section Runs

variable {head : HeadKey} {s t : Polled} {events : List PollEvent}

def NothingOvertaken (head : HeadKey) (s : Polled) : PollEvent → Prop
  | .appear c => isReviewCommandAction c.action = true → ∀ id, s.isProcessed head id = true → id < c.commentId
  | .poll => ∀ r, s.Pending head r → isReviewCommandAction r.action = true →
      ∀ d, s.Pending head d → steers d = true → d.commentId ≤ r.commentId

structure InOrder (head : HeadKey) (s : Polled) : Prop where
  pending : ∀ r, s.Pending head r → isReviewCommandAction r.action = true →
    ∀ id, s.isProcessed head id = true → id < r.commentId
  decided : ∀ d ∈ s.decisions, s.isProcessed head d.1.commentId = true
  order : s.decisions.Pairwise fun earlier later => later.2 = true → earlier.1.commentId < later.1.commentId

theorem steers_of_review {c : ReviewCommand} (h : isReviewCommandAction c.action = true) : steers c = true := by
  simp [steers, h]

theorem InOrder.step {event : PollEvent} (hs : InOrder head s) (hsafe : NothingOvertaken head s event)
    (h : s.step head event = some t) : InOrder head t := by
  cases event with
  | appear c =>
    obtain rfl := Option.some.inj h
    refine ⟨?_, hs.decided, hs.order⟩
    rintro r ⟨hr, hpending⟩ hreview id hid
    obtain hr | hr := List.mem_append.mp hr
    · exact hs.pending r ⟨hr, hpending⟩ hreview id hid
    · obtain rfl := List.mem_singleton.mp hr
      exact hsafe hreview id hid
  | poll =>
    cases Polled.step_poll h with
    | idle => exact hs
    | acts c t pending newest comments processed decisions =>
      refine ⟨?_, ?_, ?_⟩
      · rintro r ⟨hr, hunprocessed⟩ hreview id -
        have hnot : ¬ (s.isProcessed head r.commentId = true ∨ r.commentId = c.commentId) := by
          rw [← processed]
          simp [hunprocessed]
        have hrs : s.Pending head r := ⟨comments ▸ hr, by simpa using fun hp => hnot (Or.inl hp)⟩
        -- a review that is still pending was as old as the decided command, so it is the decided command
        obtain ⟨hsteers, hle⟩ := newest r hrs (steers_of_review hreview)
        have hge := hsafe r hrs hreview c pending hsteers
        exact absurd (Or.inr (Nat.le_antisymm hle hge)) hnot
      · intro d hd
        rw [decisions, List.mem_append, List.mem_singleton] at hd
        obtain hd | rfl := hd
        · exact (processed _).mpr (Or.inl (hs.decided d hd))
        · exact (processed _).mpr (Or.inr rfl)
      · rw [decisions, List.pairwise_append]
        refine ⟨hs.order, List.pairwise_singleton _ _, ?_⟩
        intro earlier hearlier later hlater hreview
        obtain rfl := List.mem_singleton.mp hlater
        exact hs.pending c pending hreview _ (hs.decided earlier hearlier)

/-- What a run adds to the decisions was pending, or had not appeared, where it started. -/
structure Continues (head : HeadKey) (s t : Polled) : Prop where
  processed : ∀ id, s.isProcessed head id = true → t.isProcessed head id = true
  decisions : ∃ later, t.decisions = s.decisions ++ later ∧
    ∀ d ∈ later, s.isProcessed head d.1.commentId = false ∧ d.2 = isReviewCommandAction d.1.action

theorem Continues.step {u : Polled} {event : PollEvent} (hst : Continues head s t) (h : t.step head event = some u) :
    Continues head s u := by
  cases event with
  | appear c =>
    obtain rfl := Option.some.inj h
    exact ⟨hst.processed, hst.decisions⟩
  | poll =>
    cases Polled.step_poll h with
    | idle => exact hst
    | acts c u pending newest comments processed decisions =>
      obtain ⟨later, hlater, hfresh⟩ := hst.decisions
      refine ⟨fun id hid => (processed id).mpr (Or.inl (hst.processed id hid)),
        later ++ [(c, isReviewCommandAction c.action)], by rw [decisions, hlater, List.append_assoc], ?_⟩
      intro d hd
      obtain hd | hd := List.mem_append.mp hd
      · exact hfresh d hd
      · obtain rfl := List.mem_singleton.mp hd
        refine ⟨?_, rfl⟩
        have hnot := pending.2
        by_contra hp
        rw [hst.processed _ (by simpa using hp)] at hnot
        cases hnot

theorem continues_of_run (h : run (Polled.step head) s events = some t) : Continues head s t :=
  run_invariant (I := Continues head s) (fun _ _ _ hst hstep => hst.step hstep)
    ⟨fun _ h => h, [], (List.append_nil _).symm, fun _ hd => by cases hd⟩ h

def reviewsOf (batch : List ReviewCommand) (decisions : List (ReviewCommand × Bool)) : List (ReviewCommand × Bool) :=
  decisions.filter fun d => d.2 && batch.contains d.1

theorem one_review_per_batch (hs : NothingOvertaken head s .poll) (ht : InOrder head t) (hst : Continues head s t) :
    (reviewsOf s.comments (t.decisions.drop s.decisions.length)).length ≤ 1 := by
  obtain ⟨later, hlater, hfresh⟩ := hst.decisions
  rw [hlater, List.drop_left]
  have hpending : ∀ d ∈ reviewsOf s.comments later,
      s.Pending head d.1 ∧ isReviewCommandAction d.1.action = true ∧ d.2 = true := by
    intro d hd
    obtain ⟨hd, hkind⟩ := List.mem_filter.mp hd
    obtain ⟨hunprocessed, hflag⟩ := hfresh d hd
    simp only [Bool.and_eq_true, List.contains_iff_mem] at hkind
    exact ⟨⟨hkind.2, hunprocessed⟩, hflag.symm.trans hkind.1, hkind.1⟩
  have horder : (reviewsOf s.comments later).Pairwise fun earlier l =>
      l.2 = true → earlier.1.commentId < l.1.commentId := by
    have := ht.order
    rw [hlater, List.pairwise_append] at this
    exact this.2.1.filter _
  match hlist : reviewsOf s.comments later with
  | [] => simp
  | [_] => simp
  | a :: b :: rest =>
    rw [hlist] at hpending horder
    obtain ⟨hpa, hra, -⟩ := hpending a (by simp)
    obtain ⟨hpb, hrb, hflag⟩ := hpending b (by simp)
    have hlt : a.1.commentId < b.1.commentId := (List.pairwise_cons.mp horder).1 b (by simp) hflag
    have hle : b.1.commentId ≤ a.1.commentId := hs a.1 hpa hra b.1 hpb (steers_of_review hrb)
    omega

/-- While nothing pending is overtaken, no review is decided on after a newer command, and one batch of comments
leads to at most one review. -/
theorem stop_prevails (head : HeadKey) (comments : List ReviewCommand) (processed : ProcessedCommands)
    (events : List PollEvent) (t : Polled) (hfresh : ∀ id, hasProcessedCommand processed head id = false)
    (hsafe : Along (Polled.step head) (NothingOvertaken head) { comments, processed } events)
    (hrun : run (Polled.step head) { comments, processed } events = some t) :
    (t.decisions.Pairwise fun earlier later => later.2 = true → earlier.1.commentId < later.1.commentId) ∧
    ∀ before after s, events = before ++ .poll :: after →
      run (Polled.step head) { comments, processed } before = some s →
      (reviewsOf s.comments (t.decisions.drop s.decisions.length)).length ≤ 1 := by
  have hinit : InOrder head { comments, processed } := by
    refine ⟨?_, ?_, List.Pairwise.nil⟩
    · intro r _ _ id hid
      rw [Polled.isProcessed, hfresh id] at hid
      cases hid
    · intro d hd
      cases hd
  have ht : InOrder head t :=
    hsafe.invariant (I := InOrder head) (fun _ _ _ hs hl hstep => hs.step hl hstep) hinit hrun
  refine ⟨ht.order, fun before after s hevents hbefore => ?_⟩
  subst hevents
  have hrest := (hsafe.append_right hbefore).1
  rw [run_append, hbefore, Option.bind_some] at hrun
  exact one_review_per_batch hrest ht (continues_of_run hrun)

end Runs

/-! ## Runs in which something was overtaken -/

section Overtaken

variable {head : HeadKey} {r : ReviewCommand}

theorem exists_poll (head : HeadKey) (s : Polled) : ∃ u, s.step head .poll = some u := by
  simp only [Polled.step]
  split
  · exact ⟨_, rfl⟩
  · exact ⟨_, rfl⟩

theorem Polled.Pending.of_processed {s u : Polled} {id : Nat} (hr : s.Pending head r) (hcomments : u.comments = s.comments)
    (hprocessed : ∀ i, u.isProcessed head i = true ↔ s.isProcessed head i = true ∨ i = id)
    (hne : r.commentId ≠ id) : u.Pending head r := by
  refine ⟨hcomments ▸ hr.1, ?_⟩
  have hnot : ¬ (s.isProcessed head r.commentId = true ∨ r.commentId = id) := by
    rintro (hp | he)
    · rw [hr.2] at hp
      cases hp
    · exact hne he
  rw [← hprocessed] at hnot
  simpa using hnot

/-- The pending reviews and stops newer than `r`. -/
def newerPending (head : HeadKey) (r : ReviewCommand) (s : Polled) : List ReviewCommand :=
  s.comments.filter fun d => steers d && r.commentId < d.commentId && !s.isProcessed head d.commentId

/-- A pending review is decided on once the newer reviews and stops are. -/
theorem pending_review_returns (s : Polled) (hr : s.Pending head r) (hreview : isReviewCommandAction r.action = true)
    (hids : ∀ c ∈ s.comments, c.commentId = r.commentId → c = r) :
    ∃ k t later, run (Polled.step head) s (List.replicate k .poll) = some t ∧
      t.decisions = s.decisions ++ later ++ [(r, true)] := by
  induction hn : (newerPending head r s).length using Nat.strong_induction_on generalizing s with
  | _ n ih =>
    subst hn
    obtain ⟨u, hu⟩ := exists_poll head s
    cases Polled.step_poll hu with
    | idle nothing =>
      have := nothing r hr
      simp [steers, hreview] at this
    | acts c u pending newest comments processed decisions =>
      obtain ⟨hsteers, hle⟩ := newest r hr (steers_of_review hreview)
      by_cases hsame : c.commentId = r.commentId
      · obtain rfl := hids c pending.1 hsame
        refine ⟨1, u, [], run_cons_eq_some.mpr ⟨u, hu, rfl⟩, ?_⟩
        rw [decisions, hreview, List.append_nil]
      · have hlt : r.commentId < c.commentId := by omega
        have hmem : c ∈ newerPending head r s := by
          refine List.mem_filter.mpr ⟨pending.1, ?_⟩
          simp [hsteers, hlt, pending.2]
        have hdrop : newerPending head r u = (newerPending head r s).filter fun d => d.commentId ≠ c.commentId := by
          rw [newerPending, newerPending, comments, List.filter_filter]
          refine List.filter_congr fun d _ => ?_
          have := processed d.commentId
          cases hd : u.isProcessed head d.commentId <;> cases hd' : s.isProcessed head d.commentId <;>
            simp [hd, hd'] at this ⊢ <;> simp [this]
        have hfewer : (newerPending head r u).length < (newerPending head r s).length := by
          rw [hdrop, List.length_filter_lt_length_iff_exists]
          exact ⟨c, hmem, by simp⟩
        have hru : u.Pending head r := hr.of_processed comments processed (Ne.symm hsame)
        obtain ⟨k, t, later, hrun, hlater⟩ := ih _ hfewer u hru (by rwa [comments]) rfl
        refine ⟨k + 1, t, (c, isReviewCommandAction c.action) :: later, run_cons_eq_some.mpr ⟨u, hu, hrun⟩, ?_⟩
        rw [hlater, decisions]
        simp

/-- A pending review that a newer pending review or stop overtakes is decided on after it, if the polls go on. -/
theorem overtaken_review_returns {s : Polled} {d : ReviewCommand} (hr : s.Pending head r)
    (hreview : isReviewCommandAction r.action = true) (hd : s.Pending head d) (hsteers : steers d = true)
    (hlt : r.commentId < d.commentId) (hids : ∀ c ∈ s.comments, c.commentId = r.commentId → c = r) :
    ∃ k t, run (Polled.step head) s (List.replicate k .poll) = some t ∧
      ¬ t.decisions.Pairwise fun earlier later => later.2 = true → earlier.1.commentId < later.1.commentId := by
  obtain ⟨u, hu⟩ := exists_poll head s
  cases Polled.step_poll hu with
  | idle nothing =>
    rw [nothing d hd] at hsteers
    cases hsteers
  | acts c u pending newest comments processed decisions =>
    have hle := (newest d hd hsteers).2
    have hru : u.Pending head r := hr.of_processed comments processed (by omega)
    obtain ⟨k, t, later, hrun, hlater⟩ := pending_review_returns u hru hreview (by rwa [comments])
    refine ⟨k + 1, t, run_cons_eq_some.mpr ⟨u, hu, hrun⟩, fun horder => ?_⟩
    rw [hlater, decisions, List.pairwise_append] at horder
    have := horder.2.2 (c, isReviewCommandAction c.action) (by simp) (r, true) (by simp) rfl
    dsimp only at this
    omega

end Overtaken

def pollHead : HeadKey := ⟨"o/r", 1, "head"⟩

def reviewCommand (id : Nat) : ReviewCommand := ⟨.review, id, "owner", "@neondiff review", none⟩

def stopCommand (id : Nat) : ReviewCommand := ⟨.stop, id, "owner", "@neondiff stop", none⟩

/-- A stop that is written, and polled, after the review it follows was decided on. -/
theorem stop_prevails_afterReview :
    ∃ t, run (Polled.step pollHead) { comments := [reviewCommand 1] } [.poll, .appear (stopCommand 2), .poll] = some t ∧
      t.decisions = [(reviewCommand 1, true), (stopCommand 2, false)] ∧
      t.decisions.Pairwise fun earlier later => later.2 = true → earlier.1.commentId < later.1.commentId := by
  refine ⟨_, rfl, rfl, (stop_prevails pollHead [reviewCommand 1] .empty [.poll, .appear (stopCommand 2), .poll] _
    (fun _ => rfl) (.cons ?_ rfl (.cons ?_ rfl (.cons ?_ rfl trivial))) rfl).1⟩
  · rintro r ⟨hr, -⟩ - d ⟨hd, -⟩ -
    obtain rfl := List.mem_singleton.mp hr
    obtain rfl := List.mem_singleton.mp hd
    exact Nat.le_refl _
  · intro hreview
    cases hreview
  · rintro r ⟨hr, hpending⟩ hreview d ⟨hd, hdp⟩ -
    obtain rfl | hr := List.mem_cons.mp hr
    · cases hpending
    · obtain rfl := List.mem_singleton.mp hr
      cases hreview

/-- A review, and a stop after it: the first poll decides on the stop, and the second on the review. -/
theorem overtaken_review_decided :
    ∃ t, run (Polled.step pollHead) { comments := [reviewCommand 1, stopCommand 2] } [.poll, .poll] = some t ∧
      t.decisions = [(stopCommand 2, false), (reviewCommand 1, true)] ∧
      ¬ t.decisions.Pairwise fun earlier later => later.2 = true → earlier.1.commentId < later.1.commentId :=
  ⟨_, rfl, rfl, by decide⟩

end NeonDiff.Commands
