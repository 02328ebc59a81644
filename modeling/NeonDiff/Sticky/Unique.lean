import NeonDiff.Lib.Paging
import NeonDiff.Sticky.Model

/-! # One sticky comment

A search knows that no sticky comment stands before its offset, a run that will create knows that there is none, and
a run that will update knows that its comment is one.
-/

namespace NeonDiff.Sticky

open NeonDiff.Lib NeonDiff.Lib.Words

section
variable {ι : Type} [DecidableEq ι]
variable (toLowerCase : String → String) (marker : String) (account : GitHubAuthorIdentity) (runs : ι → Upsert)

/-- How many comments the search has passed. -/
def offset (page : Nat) : Nat := 100 * (page - 1)

/-- The next comment to come in is not one that a run has missed. -/
def Clear (t : IssueThread) : UpsertTask → Prop
  | .creating => False
  -- the search still has to pass the end of the listing
  | .searching page => offset page ≤ t.comments.length
  | _ => True

/-- What a run meets for the sticky comment to stay one. -/
def Undisturbed (w : Writers ι) : WriterLabel ι → Prop
  | .call i delivery => match w.tasks i with
    -- the comments are looked for under the account that they are posted under
    | .searching _ => (runs i).client.postingIdentity = account
    | .creating => delivery.done = true → ∀ j, j ≠ i → Clear w.thread (w.tasks j)
    | _ => True
  | .addComment .. => True
  -- a comment that goes from before a search does not draw a sticky one over its offset
  | .deleteComment id => ∀ j page, w.tasks j = .searching page →
      (∃ c ∈ w.thread.comments.take (offset page), c.id = id) →
      ∀ c, w.thread.comments[offset page]? = some c → isSticky toLowerCase marker account c = false

/-- What a run knows of the thread. -/
def TaskOk (t : IssueThread) : UpsertTask → Prop
  | .searching page => ∀ c ∈ t.comments.take (offset page), isSticky toLowerCase marker account c = false
  | .creating => ∀ c ∈ t.comments, isSticky toLowerCase marker account c = false
  | .updating id => id < t.nextId ∧ ∀ c ∈ t.comments, c.id = id → isSticky toLowerCase marker account c = true
  | .finished _ => True

def stickyComments (t : IssueThread) : List IssueCommentSummary :=
  t.comments.filter (isSticky toLowerCase marker account)

structure WritersInv (w : Writers ι) : Prop where
  unique : (stickyComments toLowerCase marker account w.thread).length ≤ 1
  tasks : ∀ i, TaskOk toLowerCase marker account w.thread (w.tasks i)

variable {toLowerCase marker account runs} {t : IssueThread} {w : Writers ι} {i : ι}

theorem IssueThread.eq_of_id_eq (t : IssueThread) {a b : IssueCommentSummary} (ha : a ∈ t.comments)
    (hb : b ∈ t.comments) (h : a.id = b.id) : a = b := by
  have hnodup : (t.comments.map (·.id)).Nodup := by
    rw [List.Nodup, List.pairwise_map]
    exact t.ascending.imp fun hlt heq => absurd hlt (by omega)
  exact List.inj_on_of_nodup_map hnodup ha hb h

/-! ## Searching -/

theorem taskOk_start (client : Client) : TaskOk toLowerCase marker account t (upsertIssueComment client) := by
  unfold upsertIssueComment
  split
  · trivial
  · intro c hc
    simp [offset] at hc

theorem mem_page {page : Nat} {c : IssueCommentSummary} (hc : c ∈ t.page page) : c ∈ t.comments :=
  List.mem_of_mem_drop (List.mem_of_mem_take hc)

theorem passed_page {page : Nat} {c : IssueCommentSummary}
    (hbefore : ∀ c ∈ t.comments.take (offset page), isSticky toLowerCase marker account c = false)
    (hpage : ∀ c ∈ t.page page, isSticky toLowerCase marker account c = false)
    (hc : c ∈ t.comments.take (offset page + 100)) : isSticky toLowerCase marker account c = false := by
  rw [List.take_add, List.mem_append] at hc
  rcases hc with hc | hc
  · exact hbefore c hc
  · exact hpage c hc

theorem taskOk_afterPage {client : Client} {page : Nat} (hidentity : client.postingIdentity = account)
    (h : TaskOk toLowerCase marker account t (.searching page)) :
    TaskOk toLowerCase marker account t (afterPage toLowerCase marker client.postingIdentity page (t.page page)) := by
  unfold afterPage
  rw [hidentity]
  split
  · rename_i existing hfound
    have hsticky : isSticky toLowerCase marker account existing = true := List.find?_some hfound
    have hmem := mem_page (List.mem_of_find?_eq_some hfound)
    refine ⟨t.bounded existing hmem, fun c hc hid => ?_⟩
    rw [t.eq_of_id_eq hc hmem hid]
    exact hsticky
  · rename_i hnone
    have hpage : ∀ c ∈ t.page page, isSticky toLowerCase marker account c = false := by
      intro c hc
      have hnot := List.find?_eq_none.mp hnone c hc
      exact Bool.eq_false_iff.mpr hnot
    split
    · rename_i hshort
      -- a short page ends the listing
      have hlength : t.comments.length ≤ offset page + 100 := by
        simp only [IssueThread.page, List.length_take, List.length_drop, offset] at hshort ⊢
        omega
      intro c hc
      apply passed_page h hpage
      rw [List.take_of_length_le hlength]
      exact hc
    · rename_i hfull
      intro c hc
      cases page with
      | zero =>
        apply passed_page h hpage
        simp only [offset] at hc ⊢
        exact List.take_subset_take_left _ (by omega) hc
      | succ page =>
        apply passed_page h hpage
        simp only [offset, Nat.add_sub_cancel] at hc ⊢
        exact hc

/-! ## Writing -/

theorem isSticky_withBody {id : Nat} {body : String} {c : IssueCommentSummary}
    (hbody : carriesMarker toLowerCase marker (some body) = true)
    (hsticky : c.id = id → isSticky toLowerCase marker account c = true) :
    isSticky toLowerCase marker account (IssueThread.withBody id body c) = isSticky toLowerCase marker account c := by
  unfold IssueThread.withBody
  split
  · rename_i hid
    have hboth := hsticky hid
    rw [hboth]
    unfold isSticky at hboth ⊢
    rw [hbody, Bool.true_and]
    exact (Bool.and_eq_true_iff.mp hboth).2
  · rfl

theorem taskOk_patch {id : Nat} {body : String} {task : UpsertTask}
    (hbody : carriesMarker toLowerCase marker (some body) = true)
    (hsticky : ∀ c ∈ t.comments, c.id = id → isSticky toLowerCase marker account c = true)
    (h : TaskOk toLowerCase marker account t task) :
    TaskOk toLowerCase marker account (t.patch id body) task := by
  have hsame : ∀ c ∈ t.comments, isSticky toLowerCase marker account (IssueThread.withBody id body c) =
      isSticky toLowerCase marker account c := fun c hc => isSticky_withBody hbody (hsticky c hc)
  cases task with
  | searching page =>
    intro c hc
    rw [show (t.patch id body).comments = t.comments.map (IssueThread.withBody id body) from rfl, ← List.map_take] at hc
    obtain ⟨old, hold, rfl⟩ := List.mem_map.mp hc
    rw [hsame old (List.mem_of_mem_take hold)]
    exact h old hold
  | updating other =>
    refine ⟨h.1, fun c hc hid => ?_⟩
    obtain ⟨old, hold, rfl⟩ := List.mem_map.mp hc
    rw [hsame old hold]
    exact h.2 old hold (by simpa using hid)
  | creating =>
    intro c hc
    obtain ⟨old, hold, rfl⟩ := List.mem_map.mp hc
    rw [hsame old hold]
    exact h old hold
  | finished => trivial

theorem stickyComments_patch {id : Nat} {body : String}
    (hbody : carriesMarker toLowerCase marker (some body) = true)
    (hsticky : ∀ c ∈ t.comments, c.id = id → isSticky toLowerCase marker account c = true) :
    (stickyComments toLowerCase marker account (t.patch id body)).length =
      (stickyComments toLowerCase marker account t).length := by
  unfold stickyComments IssueThread.patch
  rw [List.filter_map, List.length_map]
  congr 1
  apply List.filter_congr
  intro c hc
  exact isSticky_withBody hbody (hsticky c hc)

theorem taskOk_post {user : Option GitHubUser} {body : String} {task : UpsertTask}
    (h : TaskOk toLowerCase marker account t task)
    (hclear : isSticky toLowerCase marker account ⟨t.nextId, some body, user⟩ = true → Clear t task) :
    TaskOk toLowerCase marker account (t.post user body) task := by
  have hnew : ∀ c ∈ (t.post user body).comments, c ∈ t.comments ∨ c = ⟨t.nextId, some body, user⟩ := by
    intro c hc
    simpa [IssueThread.post] using hc
  cases task with
  | searching page =>
    intro c hc
    cases hsticky : isSticky toLowerCase marker account ⟨t.nextId, some body, user⟩ with
    | true =>
      have hle : offset page ≤ t.comments.length := hclear hsticky
      rw [IssueThread.post, List.take_append_of_le_length hle] at hc
      exact h c hc
    | false =>
      rw [IssueThread.post, List.take_append, List.mem_append] at hc
      rcases hc with hc | hc
      · exact h c hc
      · rw [List.mem_singleton.mp (List.mem_of_mem_take hc)]
        exact hsticky
  | updating id =>
    refine ⟨Nat.lt_succ_of_lt h.1, fun c hc hid => ?_⟩
    rcases hnew c hc with hc | rfl
    · exact h.2 c hc hid
    · exact absurd hid (Nat.ne_of_gt h.1)
  | creating =>
    intro c hc
    rcases hnew c hc with hc | rfl
    · exact h c hc
    · exact Bool.eq_false_iff.mpr fun hsticky => hclear hsticky
  | finished => trivial

theorem stickyComments_post (user : Option GitHubUser) (body : String) :
    (stickyComments toLowerCase marker account (t.post user body)).length =
      (stickyComments toLowerCase marker account t).length +
        if isSticky toLowerCase marker account ⟨t.nextId, some body, user⟩ then 1 else 0 := by
  unfold stickyComments IssueThread.post
  rw [List.filter_append, List.length_append]
  split <;> simp [*]

/-! ## Deleting -/

theorem length_filter_id_le (t : IssueThread) (id : Nat) : (t.comments.filter fun c => c.id = id).length ≤ 1 := by
  cases hrest : t.comments.filter fun c => c.id = id with
  | nil => simp
  | cons a rest =>
    cases rest with
    | nil => simp
    | cons b rest =>
      have hpair := t.ascending.sublist (List.filter_sublist (p := fun c => decide (c.id = id)))
      rw [hrest] at hpair
      have hlt := List.rel_of_pairwise_cons hpair List.mem_cons_self
      have hids : ∀ c ∈ a :: b :: rest, c.id = id := by
        intro c hc
        rw [← hrest] at hc
        simpa using (List.mem_filter.mp hc).2
      have ha := hids a List.mem_cons_self
      have hb := hids b (List.mem_cons_of_mem a List.mem_cons_self)
      omega

theorem taskOk_delete {id : Nat} {task : UpsertTask} (h : TaskOk toLowerCase marker account t task)
    (hdrawn : ∀ page, task = .searching page → (∃ c ∈ t.comments.take (offset page), c.id = id) →
      ∀ c, t.comments[offset page]? = some c → isSticky toLowerCase marker account c = false) :
    TaskOk toLowerCase marker account (t.delete id) task := by
  cases task with
  | searching page =>
    intro c hc
    by_cases hbefore : ∃ c ∈ t.comments.take (offset page), c.id = id
    · -- one comment moves over the offset
      have hmem := Paging.mem_take_of_filter _ hc
      have hone := length_filter_id_le t id
      have htake : c ∈ t.comments.take (offset page + 1) := by
        apply List.take_subset_take_left _ _ hmem
        have hsame : (t.comments.filter fun c => !decide (c.id ≠ id)) = t.comments.filter fun c => c.id = id := by
          apply List.filter_congr
          intro c _
          simp
        rw [hsame]
        omega
      rw [List.take_add_one, List.mem_append] at htake
      rcases htake with htake | htake
      · exact h c htake
      · exact hdrawn page rfl hbefore c (by simpa using htake)
    · have htake : (t.delete id).comments.take (offset page) = t.comments.take (offset page) := by
        apply Paging.take_filter_of_take
        intro c hc
        have hne : c.id ≠ id := fun heq => hbefore ⟨c, hc, heq⟩
        simpa using hne
      rw [htake] at hc
      exact h c hc
  | updating other => exact ⟨h.1, fun c hc hid => h.2 c (List.mem_of_mem_filter hc) hid⟩
  | creating => exact fun c hc => h c (List.mem_of_mem_filter hc)
  | finished => trivial

/-! ## Runs -/

omit [DecidableEq ι] in
theorem WritersInv.addComment {user : Option GitHubUser} {body : String}
    (hw : WritersInv toLowerCase marker account w)
    (hother : isSticky toLowerCase marker account ⟨w.thread.nextId, some body, user⟩ = false) :
    WritersInv toLowerCase marker account { w with thread := w.thread.post user body } where
  unique := by
    dsimp only
    rw [stickyComments_post, hother]
    exact hw.unique
  tasks i := by
    apply taskOk_post (hw.tasks i)
    intro hsticky
    rw [hother] at hsticky
    cases hsticky

omit [DecidableEq ι] in
theorem WritersInv.deleteComment {id : Nat} (hw : WritersInv toLowerCase marker account w)
    (hundisturbed : Undisturbed toLowerCase marker account runs w (.deleteComment id)) :
    WritersInv toLowerCase marker account { w with thread := w.thread.delete id } where
  unique := by
    have hsub : (stickyComments toLowerCase marker account (w.thread.delete id)).Sublist
        (stickyComments toLowerCase marker account w.thread) := List.filter_sublist.filter _
    exact le_trans hsub.length_le hw.unique
  tasks i := by
    apply taskOk_delete (hw.tasks i)
    intro page hpage
    exact hundisturbed i page hpage

theorem WritersInv.update {thread : IssueThread} {task : UpsertTask}
    (hunique : (stickyComments toLowerCase marker account thread).length ≤ 1)
    (htask : TaskOk toLowerCase marker account thread task)
    (hothers : ∀ j, j ≠ i → TaskOk toLowerCase marker account thread (w.tasks j)) :
    WritersInv toLowerCase marker account ⟨thread, Function.update w.tasks i task⟩ where
  unique := hunique
  tasks j := by
    dsimp only
    by_cases hj : j = i
    · subst hj
      rw [Function.update_self]
      exact htask
    · rw [Function.update_of_ne hj]
      exact hothers j hj

theorem isSticky_post {body : String} {id : Nat} (hbody : carriesMarker toLowerCase marker (some body) = true) :
    isSticky toLowerCase marker account ⟨id, some body, some ⟨account.login, some account.type⟩⟩ = true := by
  simp [isSticky, hbody, isAuthoredBy]

theorem WritersInv.call {delivery : Delivery} {task : UpsertTask} {thread : IssueThread}
    (hbodies : ∀ i, carriesMarker toLowerCase marker (some (runs i).body) = true)
    (hw : WritersInv toLowerCase marker account w)
    (hundisturbed : Undisturbed toLowerCase marker account runs w (.call i delivery))
    (h : callGitHub toLowerCase marker account runs w.thread i delivery (w.tasks i) = some (task, thread)) :
    WritersInv toLowerCase marker account ⟨thread, Function.update w.tasks i task⟩ := by
  have hknown := hw.tasks i
  unfold Undisturbed at hundisturbed
  unfold callGitHub at h
  cases hi : w.tasks i with
  | finished answer =>
    rw [hi] at h
    cases h
  | searching page =>
    rw [hi] at h hknown
    simp only [hi] at hundisturbed
    dsimp only at h
    split at h
    · cases h
      exact .update hw.unique (taskOk_afterPage hundisturbed hknown) fun j _ => hw.tasks j
    · cases h
      exact .update hw.unique trivial fun j _ => hw.tasks j
  | updating id =>
    rw [hi] at h hknown
    dsimp only at h
    split at h
    · cases h
      refine .update ?_ trivial fun j _ => taskOk_patch (hbodies i) hknown.2 (hw.tasks j)
      rw [stickyComments_patch (hbodies i) hknown.2]
      exact hw.unique
    · cases h
      exact .update hw.unique trivial fun j _ => hw.tasks j
  | creating =>
    rw [hi] at h hknown
    simp only [hi] at hundisturbed
    dsimp only at h
    split at h
    · rename_i hdone
      cases h
      refine .update ?_ trivial fun j hj => taskOk_post (hw.tasks j) fun _ => hundisturbed hdone j hj
      rw [postComment, stickyComments_post, isSticky_post (hbodies i)]
      have hnone : stickyComments toLowerCase marker account w.thread = [] := by
        apply List.filter_eq_nil_iff.mpr
        intro c hc
        exact Bool.eq_false_iff.mp (hknown c hc)
      rw [hnone]
      rfl
    · cases h
      exact .update hw.unique trivial fun j _ => hw.tasks j

theorem writersInv_step {w' : Writers ι} {label : WriterLabel ι}
    (hbodies : ∀ i, carriesMarker toLowerCase marker (some (runs i).body) = true)
    (hw : WritersInv toLowerCase marker account w) (hundisturbed : Undisturbed toLowerCase marker account runs w label)
    (h : w.step toLowerCase marker account runs label = some w') : WritersInv toLowerCase marker account w' := by
  cases label with
  | call i delivery =>
    obtain ⟨⟨task, thread⟩, hcall, rfl⟩ := Option.map_eq_some_iff.mp h
    exact hw.call hbodies hundisturbed hcall
  | addComment user body =>
    simp only [Writers.step] at h
    split at h
    · cases h
    · rename_i hother
      cases h
      exact hw.addComment (Bool.eq_false_iff.mpr hother)
  | deleteComment id =>
    cases h
    exact hw.deleteComment hundisturbed

/-- In every run whose steps are undisturbed, and from any thread with at most one sticky comment, there is at most one
at any time, and a run that is about to update a comment updates a sticky one. -/
theorem sticky_comment_stays_one {t : IssueThread} {labels : List (WriterLabel ι)}
    (hbodies : ∀ i, carriesMarker toLowerCase marker (some (runs i).body) = true)
    (hstart : (stickyComments toLowerCase marker account t).length ≤ 1)
    (halong : Along (Writers.step toLowerCase marker account runs) (Undisturbed toLowerCase marker account runs)
      (startWriters runs t) labels)
    (hrun : run (Writers.step toLowerCase marker account runs) (startWriters runs t) labels = some w) :
    (stickyComments toLowerCase marker account w.thread).length ≤ 1 ∧
    ∀ i id, w.tasks i = .updating id → ∀ c ∈ w.thread.comments, c.id = id →
      isSticky toLowerCase marker account c = true := by
  have hinv : WritersInv toLowerCase marker account w :=
    Along.invariant (fun _ _ _ hw hundisturbed hstep => writersInv_step hbodies hw hundisturbed hstep)
      ⟨hstart, fun i => taskOk_start (runs i).client⟩ halong hrun
  refine ⟨hinv.unique, fun i id hi => ?_⟩
  have hknown := hinv.tasks i
  rw [hi] at hknown
  exact hknown.2

end

namespace UpsertExample

def account : GitHubAuthorIdentity := ⟨"n", "User"⟩

/-- Two runs with the marker `m`. -/
def runs : Bool → Upsert :=
  fun _ => ⟨⟨"n[bot]", false, some "t", some ⟨some "n", some "User"⟩⟩, "m"⟩

def emptyThread : IssueThread := ⟨[], 0, .nil, by simp⟩

def writersAfter (labels : List (WriterLabel Bool)) : Option (List IssueCommentSummary) :=
  (run (Writers.step id "m" account runs) (startWriters runs emptyThread) labels).map (·.thread.comments)

/-- The second run starts when the first one has created its comment. -/
def inTurn : List (WriterLabel Bool) :=
  [.call false .answered, .call false .answered, .call true .answered, .call true .answered]

/-- Both runs search before either creates its comment. -/
def interleaved : List (WriterLabel Bool) :=
  [.call false .answered, .call true .answered, .call false .answered, .call true .answered]

end UpsertExample

open UpsertExample

theorem sticky_comment_stays_one_in_turn :
    ∃ w, run (Writers.step id "m" account runs) (startWriters runs emptyThread) inTurn = some w ∧
      w.thread.comments = [⟨0, some "m", some ⟨"n", some "User"⟩⟩] ∧
      (stickyComments id "m" account w.thread).length ≤ 1 := by
  have hcomments : writersAfter inTurn = some [⟨0, some "m", some ⟨"n", some "User"⟩⟩] := by decide +kernel
  obtain ⟨w, hrun, hw⟩ := Option.map_eq_some_iff.mp hcomments
  have halong : Along (Writers.step id "m" account runs) (Undisturbed id "m" account runs)
      (startWriters runs emptyThread) inTurn := by
    refine .cons rfl rfl (.cons ?_ rfl (.cons rfl rfl (.cons trivial rfl trivial)))
    intro _ j hj
    cases j with
    | false => exact absurd rfl hj
    | true => exact Nat.zero_le _
  have hone := sticky_comment_stays_one (by decide +kernel) (by decide +kernel) halong hrun
  exact ⟨w, hrun, hw, hone.1⟩

/-- Each run finds nothing and creates a comment of its own. -/
theorem sticky_comments_become_two :
    ¬∀ (toLowerCase : String → String) (marker : String) (account : GitHubAuthorIdentity) (runs : Bool → Upsert)
      (t : IssueThread) (labels : List (WriterLabel Bool)) (w : Writers Bool),
      (∀ i, carriesMarker toLowerCase marker (some (runs i).body) = true) →
      (stickyComments toLowerCase marker account t).length ≤ 1 →
      run (Writers.step toLowerCase marker account runs) (startWriters runs t) labels = some w →
      (stickyComments toLowerCase marker account w.thread).length ≤ 1 := by
  intro h
  have hcomments : writersAfter interleaved =
      some [⟨0, some "m", some ⟨"n", some "User"⟩⟩, ⟨1, some "m", some ⟨"n", some "User"⟩⟩] := by decide +kernel
  obtain ⟨w, hrun, hw⟩ := Option.map_eq_some_iff.mp hcomments
  have hone := h id "m" account runs emptyThread interleaved w (by decide +kernel) (by decide +kernel) hrun
  unfold stickyComments at hone
  rw [hw] at hone
  revert hone
  decide +kernel

end NeonDiff.Sticky
