import NeonDiff.Events.History

/-! # What the reader keeps to, whatever answers

No server makes the reader ask for more than seven pages, keep one id twice, or count an item that it did not take.
-/

namespace NeonDiff.Events

open Lib

/-- What a run has asked for so far: pages, and the items that came with them. -/
structure Traffic where
  reads : Nat
  items : Nat
  deriving DecidableEq, Repr

section Counting

variable {ε α : Type}

def itemsSent (answer : Except ε (Option (IssueEventPage α))) : Nat :=
  match answer with
  | .error _ => 0
  | .ok candidate => (rawItems candidate).length

def Traffic.after (t : Traffic) (answer : Except ε (Option (IssueEventPage α))) : Traffic :=
  { reads := t.reads + 1, items := t.items + itemsSent answer }

/-- A server that answers the `k`-th request, which is for page `p`, with `server k p`. -/
def answering (server : Nat → Nat → Except ε (Option (IssueEventPage α))) (t : Traffic) (p : Nat) :
    Except ε (Option (IssueEventPage α)) × Traffic :=
  (server t.reads p, t.after (server t.reads p))

/-- Seven requests at the most. -/
def withinSeven : Discipline (fun _ : Nat => Except ε (Option (IssueEventPage α))) Traffic where
  allows t _ := t.reads < 7
  next t _ answer := t.after answer

end Counting

/-! ## The events that are kept -/

section Keeping

variable {α : Type} (idOf : α → IdValue)

structure Keyed (h : IssueEventHistory α) : Prop where
  apart : (h.newest.map Prod.fst).Nodup
  known : ∀ entry ∈ h.newest, ∀ text, (idOf entry.2).known = some text → entry.1 = .id text
  fresh : ∀ n, .anonymous n ∈ h.newest.map Prod.fst → n < h.anonymous

variable {idOf} {h : IssueEventHistory α}

theorem keyed_empty : Keyed idOf (IssueEventHistory.empty : IssueEventHistory α) where
  apart := List.nodup_nil
  known := by
    intro entry hentry
    cases hentry
  fresh := by
    intro n hn
    cases hn

theorem Keyed.addItem (hk : Keyed idOf h) (tail : Bool) (item : α) : Keyed idOf (h.addItem idOf tail item) := by
  have hfilter : ∀ (key : EventKey) entry, entry ∈ h.newest.filter (fun e => e.1 ≠ key) → entry ∈ h.newest ∧ entry.1 ≠ key := by
    intro key entry hentry
    simpa using hentry
  have hapart : ∀ key : EventKey, ((h.newest.filter (fun e => e.1 ≠ key) ++ [(key, item)]).map Prod.fst).Nodup := by
    intro key
    rw [List.map_append, List.nodup_append]
    refine ⟨hk.apart.sublist (List.filter_sublist.map _), by simp, ?_⟩
    intro a ha b hb
    obtain ⟨entry, hentry, rfl⟩ := List.mem_map.mp ha
    simp only [List.map_cons, List.map_nil, List.mem_singleton] at hb
    rw [hb]
    exact (hfilter key entry hentry).2
  unfold IssueEventHistory.addItem IssueEventHistory.keyOf
  cases hknown : (idOf item).known with
  | some text =>
    refine ⟨hapart _, ?_, ?_⟩
    · intro entry hentry text' htext'
      rcases List.mem_append.mp hentry with hentry | hentry
      · exact hk.known entry (hfilter _ _ hentry).1 text' htext'
      · rw [List.mem_singleton.mp hentry] at htext' ⊢
        rw [hknown] at htext'
        cases htext'
        rfl
    · intro n hn
      rw [List.map_append, List.mem_append] at hn
      rcases hn with hn | hn
      · obtain ⟨entry, hentry, hkey⟩ := List.mem_map.mp hn
        exact hk.fresh n (List.mem_map.mpr ⟨entry, (hfilter _ _ hentry).1, hkey⟩)
      · simp at hn
  | none =>
    refine ⟨hapart _, ?_, ?_⟩
    · intro entry hentry text' htext'
      rcases List.mem_append.mp hentry with hentry | hentry
      · exact hk.known entry (hfilter _ _ hentry).1 text' htext'
      · rw [List.mem_singleton.mp hentry, hknown] at htext'
        cases htext'
    · intro n hn
      simp only [Option.isSome_none, Bool.false_eq_true, if_false]
      rw [List.map_append, List.mem_append] at hn
      rcases hn with hn | hn
      · obtain ⟨entry, hentry, hkey⟩ := List.mem_map.mp hn
        have := hk.fresh n (List.mem_map.mpr ⟨entry, (hfilter _ _ hentry).1, hkey⟩)
        omega
      · simp only [List.map_cons, List.map_nil, List.mem_singleton, EventKey.anonymous.injEq] at hn
        omega

theorem Keyed.add (hk : Keyed idOf h) (items : List α) (tail : Bool) : Keyed idOf (h.add idOf items tail) := by
  have hstart : Keyed idOf { h with trustedRawCount := h.trustedRawCount + items.length } := ⟨hk.apart, hk.known, hk.fresh⟩
  have hrun : ∀ (items : List α) {h' : IssueEventHistory α}, Keyed idOf h' →
      Keyed idOf (items.foldl (IssueEventHistory.addItem idOf tail) h') := by
    intro items
    induction items with
    | nil => exact fun hk' => hk'
    | cons item items ih => exact fun hk' => ih (hk'.addItem tail item)
  exact hrun items hstart

/-- No more events are kept than came. -/
def Sized (h : IssueEventHistory α) : Prop := h.newest.length ≤ h.trustedRawCount

theorem length_addItems (idOf : α → IdValue) (items : List α) (tail : Bool) (h : IssueEventHistory α) :
    (items.foldl (IssueEventHistory.addItem idOf tail) h).newest.length ≤ h.newest.length + items.length := by
  induction items generalizing h with
  | nil => simp
  | cons item items ih =>
    have hone : (h.addItem idOf tail item).newest.length ≤ h.newest.length + 1 := by
      unfold IssueEventHistory.addItem
      simp only [List.length_append, List.length_cons, List.length_nil]
      have := List.length_filter_le (fun entry : EventKey × α => entry.1 ≠ h.keyOf idOf item) h.newest
      omega
    have := ih (h.addItem idOf tail item)
    simp only [List.foldl_cons, List.length_cons]
    omega

theorem add_counts (idOf : α → IdValue) (items : List α) (tail : Bool) (h : IssueEventHistory α) :
    (h.add idOf items tail).pagesRead = h.pagesRead ∧ (h.add idOf items tail).rawCount = h.rawCount ∧
      (h.add idOf items tail).trustedRawCount = h.trustedRawCount + items.length ∧
      (h.add idOf items tail).skipped = h.skipped ∧ (h.add idOf items tail).lastPage = h.lastPage := by
  have hrun : ∀ (items : List α) (h' : IssueEventHistory α),
      let h'' := items.foldl (IssueEventHistory.addItem idOf tail) h'
      h''.pagesRead = h'.pagesRead ∧ h''.rawCount = h'.rawCount ∧ h''.trustedRawCount = h'.trustedRawCount ∧
        h''.skipped = h'.skipped ∧ h''.lastPage = h'.lastPage := by
    intro items
    induction items with
    | nil => exact fun h' => ⟨rfl, rfl, rfl, rfl, rfl⟩
    | cons item items ih => exact fun h' => ih (h'.addItem idOf tail item)
  exact hrun items _

theorem Sized.add (hs : Sized h) (items : List α) (tail : Bool) : Sized (h.add idOf items tail) := by
  have hle := length_addItems idOf items tail { h with trustedRawCount := h.trustedRawCount + items.length }
  obtain ⟨-, -, htrusted, -, -⟩ := add_counts idOf items tail h
  unfold Sized at *
  rw [htrusted]
  unfold IssueEventHistory.add
  dsimp only at hle
  omega

/-- The variables agree with the traffic, `pending` items being read and not yet taken. -/
structure InStep (idOf : α → IdValue) (h : IssueEventHistory α) (t : Traffic) (pending : Nat) : Prop where
  keyed : Keyed idOf h
  sized : Sized h
  reads : h.pagesRead = t.reads
  raw : h.rawCount = t.items
  taken : h.trustedRawCount + pending = t.items

variable {t : Traffic} {pending : Nat}

theorem InStep.setLast (hs : InStep idOf h t pending) (last : Option Nat) : InStep idOf { h with lastPage := last } t pending :=
  ⟨⟨hs.keyed.apart, hs.keyed.known, hs.keyed.fresh⟩, hs.sized, hs.reads, hs.raw, hs.taken⟩

theorem InStep.setSkipped (hs : InStep idOf h t pending) (skipped : Bool) : InStep idOf { h with skipped } t pending :=
  ⟨⟨hs.keyed.apart, hs.keyed.known, hs.keyed.fresh⟩, hs.sized, hs.reads, hs.raw, hs.taken⟩

theorem InStep.add {items : List α} (hs : InStep idOf h t (items.length + pending)) (tail : Bool) :
    InStep idOf (h.add idOf items tail) t pending := by
  obtain ⟨hreads, hraw, htrusted, -, -⟩ := add_counts idOf items tail h
  refine ⟨hs.keyed.add items tail, hs.sized.add items tail, by rw [hreads, hs.reads], by rw [hraw, hs.raw], ?_⟩
  have := hs.taken
  omega

theorem InStep.add_all {items : List α} (hs : InStep idOf h t items.length) (tail : Bool) :
    InStep idOf (h.add idOf items tail) t 0 :=
  @InStep.add _ _ _ _ 0 items hs tail

structure Accounted (idOf : α → IdValue) (receipt : IssueEventPaginationReceipt α) (t : Traffic) : Prop where
  reads : receipt.pagesRead = t.reads
  bounded : receipt.items.length ≤ 200
  apart : receipt.items.Pairwise fun x y => ∀ text, (idOf x).known = some text → (idOf y).known ≠ some text
  conserved : (receipt.uniqueCount : Int) + receipt.duplicateCount =
    if receipt.terminal = .event_history_unbounded then 0 else (t.items : Int)
  duplicates : 0 ≤ receipt.duplicateCount

theorem InStep.fail (hs : InStep idOf h t pending) : Accounted idOf h.fail t where
  reads := hs.reads
  bounded := by simp [IssueEventHistory.fail, IssueEventHistory.finish, List.rtake]
  apart := by simp [IssueEventHistory.fail, IssueEventHistory.finish, List.rtake]
  conserved := by simp [IssueEventHistory.fail, IssueEventHistory.finish]
  duplicates := by simp [IssueEventHistory.fail, IssueEventHistory.finish]

theorem InStep.finish (hs : InStep idOf h t 0) {terminal : IssueEventTerminal} (hne : terminal ≠ .event_history_unbounded) :
    Accounted idOf (h.finish terminal) t := by
  have hkept : (h.newest.map Prod.snd).Pairwise fun x y => ∀ text, (idOf x).known = some text → (idOf y).known ≠ some text := by
    have hkeys : h.newest.Pairwise fun a b => a.1 ≠ b.1 := List.pairwise_map.mp hs.keyed.apart
    rw [List.pairwise_map]
    refine hkeys.imp_of_mem ?_
    intro a b ha hb hab text hx hy
    apply hab
    rw [hs.keyed.known a ha text hx, hs.keyed.known b hb text hy]
  have htaken := hs.taken
  have hsized := hs.sized
  refine ⟨hs.reads, ?_, ?_, ?_, ?_⟩
  · simp only [IssueEventHistory.finish, hne, decide_false, if_false, List.rtake, List.length_drop, MAX]
    omega
  · simp only [IssueEventHistory.finish, hne, decide_false, if_false, List.rtake]
    exact hkept.sublist (List.drop_sublist _ _)
  · simp only [IssueEventHistory.finish, hne, decide_false, if_false, List.length_map]
    omega
  · unfold Sized at hsized
    simp only [IssueEventHistory.finish, hne, decide_false, if_false, List.length_map]
    omega

end Keeping

/-! ## The run -/

section Run

variable {ε α : Type} {newURL : List Char → Option Url} {identity : GitHubIssueEventEndpointIdentity} {idOf : α → IdValue}
  {h : IssueEventHistory α} {t : Traffic}

theorem checkPage_items (requested : Nat) (candidate : Option (IssueEventPage α)) :
    (checkPage newURL identity requested candidate).items = rawItems candidate := by
  unfold checkPage
  split
  · rfl
  · dsimp only
    split
    · rfl
    · split
      · rfl
      · split
        · rfl
        · rfl

/-- Where a run ends, whatever came. -/
def Ended (idOf : α → IdValue) (out : Except ε (IssueEventPaginationReceipt α)) (t : Traffic) : Prop :=
  match out with
  | .ok receipt => Accounted idOf receipt t
  | .error _ => True

theorem follows_read {requested pending : Nat} (hs : InStep idOf h t pending) (hreads : t.reads < 7)
    {f : CheckedPage α × IssueEventHistory α → Reading ε α (IssueEventPaginationReceipt α)}
    (hf : ∀ (page : CheckedPage α) (h' : IssueEventHistory α) (t' : Traffic), t'.reads = t.reads + 1 →
      h'.lastPage = h.lastPage → InStep idOf h' t' (page.items.length + pending) → Follows withinSeven t' (Ended idOf) (f (page, h'))) :
    Follows withinSeven t (Ended idOf) ((read newURL identity requested h).bind f) := by
  refine ⟨hreads, ?_⟩
  rintro (e | candidate)
  · trivial
  · refine hf _ _ (t.after (.ok candidate)) rfl rfl ⟨⟨hs.keyed.apart, hs.keyed.known, hs.keyed.fresh⟩, hs.sized, ?_, ?_, ?_⟩
    · have := hs.reads
      simpa [Traffic.after] using this
    · have := hs.raw
      simpa [Traffic.after, itemsSent] using this
    · have := hs.taken
      rw [checkPage_items]
      simp only [Traffic.after, itemsSent]
      omega

theorem follows_tailLoop {lastPage : Nat} {pages : List Nat} (hs : InStep idOf h t 0) (hpages : t.reads + pages.length ≤ 7) :
    Follows withinSeven t (Ended idOf) (tailLoop newURL identity idOf lastPage pages h : Reading ε α _) := by
  induction pages generalizing h t with
  | nil =>
    unfold tailLoop
    simp only [follows_done]
    split
    · exact hs.fail
    · exact hs.finish (by decide)
  | cons page pages ih =>
    simp only [List.length_cons] at hpages
    refine follows_read hs (by omega) ?_
    intro result h' t' hreads _ hs'
    exact Follows.ite (fun _ => hs'.fail) fun _ => Follows.ite (fun _ => hs'.fail) fun _ => ih (hs'.add true) (by omega)

/-- The tail is five pages at the most. -/
theorem follows_tail {existing : Nat} (hs : InStep idOf h t 0) (hreads : t.reads = existing) (hle : existing ≤ 2) :
    Follows withinSeven t (Ended idOf) (tail newURL identity idOf existing h : Reading ε α _) := by
  unfold tail
  split
  · exact hs.fail
  · rename_i lastPage _
    split
    · exact hs.fail
    · refine follows_tailLoop (hs.setSkipped _) ?_
      simp only [List.length_range', tailStart]
      omega

theorem follows_afterSecond {firstItems : List α} {second : CheckedPage α}
    (hs : InStep idOf h t (firstItems.length + second.items.length)) (hreads : t.reads = 2) :
    Follows withinSeven t (Ended idOf) (afterSecond newURL identity idOf firstItems second h : Reading ε α _) := by
  unfold afterSecond
  split
  · exact hs.fail
  · split
    · refine Follows.ite (fun _ => hs.fail) fun _ => ?_
      have hs' := (hs.setLast (some (if second.items.length = 0 then 1 else 2))).add false
      dsimp only
      rw [follows_done]
      by_cases hnone : second.items.length = 0
      · rw [if_pos hnone]
        rw [hnone] at hs' ⊢
        exact hs'.finish (by decide)
      · rw [if_neg hnone]
        exact (hs'.add_all false).finish (by decide)
    · split
      · exact hs.fail
      · rename_i last _
        split
        · exact hs.fail
        · exact follows_tail (((hs.setLast (some last)).add false).add_all false) hreads le_rfl

theorem follows_afterFirst {first : CheckedPage α} (hs : InStep idOf h t first.items.length) (hreads : t.reads = 1) :
    Follows withinSeven t (Ended idOf) (afterFirst newURL identity idOf first h : Reading ε α _) := by
  unfold afterFirst
  split
  · exact hs.fail
  · split
    · split
      · exact hs.fail
      · exact ((hs.setLast _).add_all false).finish (by decide)
    · split
      · split
        · exact hs.fail
        · rename_i last _
          split
          · exact hs.fail
          · dsimp only
            have hs' := (hs.setLast (some last)).add_all false
            split
            · exact hs'.finish (by decide)
            · exact follows_tail hs' hreads (by decide)
      · refine follows_read hs (by omega) ?_
        intro second h' t' hreads' _ hs'
        rw [Nat.add_comm] at hs'
        exact follows_afterSecond hs' (by omega)

theorem follows_readIssueEventHistory :
    Follows withinSeven ⟨0, 0⟩ (Ended idOf) (readIssueEventHistory newURL identity idOf : Reading ε α _) := by
  have hempty : InStep idOf (IssueEventHistory.empty : IssueEventHistory α) ⟨0, 0⟩ 0 :=
    ⟨keyed_empty, le_rfl, rfl, rfl, rfl⟩
  unfold readIssueEventHistory
  split
  · exact hempty.fail
  · refine follows_read hempty (by decide) ?_
    intro first h' t' hreads _ hs
    exact follows_afterFirst hs hreads

theorem readIssueEventHistory_accounted (server : Nat → Nat → Except ε (Option (IssueEventPage α))) :
    ((readIssueEventHistory newURL identity idOf).alone (answering server) ⟨0, 0⟩).2.reads ≤ 7 ∧
      ∀ receipt, ((readIssueEventHistory newURL identity idOf).alone (answering server) ⟨0, 0⟩).1 = .ok receipt →
        Accounted idOf receipt ((readIssueEventHistory newURL identity idOf).alone (answering server) ⟨0, 0⟩).2 := by
  have hrun : Runs (fun (t : Traffic) _ answer t' => t' = t.after answer)
      (readIssueEventHistory newURL identity idOf) ⟨0, 0⟩
      ((readIssueEventHistory newURL identity idOf).alone (answering server) ⟨0, 0⟩).1
      ((readIssueEventHistory newURL identity idOf).alone (answering server) ⟨0, 0⟩).2 :=
    runs_alone (fun _ _ => rfl) _ _
  have hkeep : ∀ (t x : Traffic) (p : Nat) (answer : Except ε (Option (IssueEventPage α))) (y : Traffic),
      t = x ∧ x.reads ≤ 7 → t.reads < 7 → y = x.after answer → t.after answer = y ∧ y.reads ≤ 7 := by
    rintro t x p answer y ⟨rfl, -⟩ hallowed rfl
    exact ⟨rfl, hallowed⟩
  obtain ⟨t, hended, rfl, hseven⟩ := follows_readIssueEventHistory.of_runs hkeep ⟨rfl, by decide⟩ hrun
  refine ⟨hseven, ?_⟩
  intro receipt hreceipt
  rw [hreceipt] at hended
  exact hended

end Run

end NeonDiff.Events
