import NeonDiff.Events.Bounded
import NeonDiff.Lib.JsonScalars
import Mathlib.Data.List.Nodup
import Mathlib.Data.List.DropRight

/-! # The history is exact or refused

Events come in at the end of a history while it is read. A server conforms when it answers for a page with the events
that the page has by then and with true links. What the reader gives are then the newest events of the history as its
last request found it, or nothing.
-/

namespace NeonDiff.Events

open Lib Lib.JsText

section Server

variable {α : Type}

/-- The pages of a history; an empty one has one page. -/
def pageCount (events : List α) : Nat := max 1 ((events.length + 99) / 100)

def pageItems (events : List α) (p : Nat) : List α := (events.drop (100 * (p - 1))).take 100

/-- The links that page `p` of a listing of `pages` pages may carry, and those that it must. -/
structure Truthful (pages p : Nat) (links : List PageLink) : Prop where
  first : ∀ link ∈ links, link.relation = .first → link.page = 1
  prev : ∀ link ∈ links, link.relation = .prev → link.page + 1 = p
  next : ∀ link ∈ links, link.relation = .next → p < pages ∧ link.page = p + 1
  last : ∀ link ∈ links, link.relation = .last → link.page = pages
  goesOn : p < pages → (∃ link ∈ links, link.relation = .next) ∧ ∃ link ∈ links, link.relation = .last

/-- The answer of a conforming server for page `p`. It has a link header in one of the two places or in both, and may
do without one when the history has a single page. -/
structure Conforming (events : List α) (p : Nat) (answer : IssueEventPage α) : Prop where
  page : answer.page = some (p : Int)
  items : answer.items = some (pageItems events p)
  linked : ∀ value, answer.link = some value ∨ answer.linkHeader = some value →
    ∃ links, value = .text (linkHeader links) ∧ Truthful (pageCount events) p links
  unlinked : answer.link = none → answer.linkHeader = none → pageCount events = 1

variable (idOf : α → IdValue)

/-- A history as its requests find it: nothing leaves it, and its ids are safe integers and distinct. -/
structure AppendOnly (histories : Nat → List α) : Prop where
  grows : ∀ k, histories k <+: histories (k + 1)
  numbered : ∀ k, ∀ event ∈ histories k, ∃ n, idOf event = .number n ∧ Json.isSafeInteger n = true
  distinct : ∀ k, ((histories k).map idOf).Nodup

def Refused (receipt : IssueEventPaginationReceipt α) : Prop :=
  receipt.terminal = .event_history_unbounded ∧ receipt.items = []

/-- The receipt gives the newest 200 events, or all of them, and says which of the two. -/
def Exact (events : List α) (receipt : IssueEventPaginationReceipt α) : Prop :=
  receipt.items = events.rtake 200 ∧ (receipt.truncated = true ↔ 200 < events.length)

end Server

/-! ## Ids -/

theorem integerText_injective : Function.Injective integerText := fun _ _ h => Json.signedDigits_injective h

theorem trim_integerText (n : Int) : trim (integerText n) = integerText n := by
  apply trim_of_not_isSpace
  intro c hc
  have hdigits : ∀ m : Nat, c ∈ Nat.toDigits 10 m → isSpace c = false :=
    fun m hm => not_isSpace_of_isDigit (isDigit_of_mem_toDigits hm)
  unfold integerText at hc
  split at hc
  · rcases List.mem_cons.mp hc with rfl | hc
    · decide
    · exact hdigits _ hc
  · exact hdigits _ hc

section Ids

variable {α : Type} {idOf : α → IdValue} {histories : Nat → List α}

theorem AppendOnly.known (ha : AppendOnly idOf histories) {k : Nat} {event : α} (hmem : event ∈ histories k) :
    ∃ n, idOf event = .number n ∧ (idOf event).known = some (integerText n) := by
  obtain ⟨n, hn, hsafe⟩ := ha.numbered k event hmem
  refine ⟨n, hn, ?_⟩
  rw [hn]
  simp only [IdValue.known, hsafe, if_true, trim_integerText]

theorem AppendOnly.nodup_known (ha : AppendOnly idOf histories) (k : Nat) :
    ((histories k).map fun event => (idOf event).known).Nodup := by
  have hids := List.inj_on_of_nodup_map (ha.distinct k)
  apply List.Nodup.map_on ?_ (List.Nodup.of_map idOf (ha.distinct k))
  intro x hx y hy hxy
  obtain ⟨m, hm, hkm⟩ := ha.known hx
  obtain ⟨n, hn, hkn⟩ := ha.known hy
  rw [hkm, hkn] at hxy
  apply hids hx hy
  rw [hm, hn, integerText_injective (Option.some.inj hxy)]

/-- What is kept are the events `xs`, each under its id. -/
def Holds (idOf : α → IdValue) (h : IssueEventHistory α) (xs : List α) : Prop :=
  h.newest = xs.map fun x => (.id ((idOf x).known.getD []), x)

theorem Holds.addItems {h : IssueEventHistory α} {xs items : List α} (hh : Holds idOf h xs) (tail : Bool)
    (hknown : ∀ x ∈ xs ++ items, ((idOf x).known).isSome = true)
    (hnodup : ((xs ++ items).map fun x => (idOf x).known).Nodup) :
    Holds idOf (items.foldl (IssueEventHistory.addItem idOf tail) h) (xs ++ items) := by
  induction items generalizing h xs with
  | nil => simpa using hh
  | cons item items ih =>
    have happ : xs ++ item :: items = (xs ++ [item]) ++ items := by simp
    rw [happ] at hknown hnodup ⊢
    refine ih ?_ hknown hnodup
    obtain ⟨text, htext⟩ := Option.isSome_iff_exists.mp (hknown item (by simp))
    have hother : h.newest.filter (fun entry => entry.1 ≠ h.keyOf idOf item) = h.newest := by
      rw [List.filter_eq_self]
      intro entry hentry
      rw [hh] at hentry
      obtain ⟨x, hx, rfl⟩ := List.mem_map.mp hentry
      obtain ⟨text', htext'⟩ := Option.isSome_iff_exists.mp (hknown x (by simp [hx]))
      have hne : text' ≠ text := by
        rintro rfl
        rw [List.map_append, List.map_append] at hnodup
        have hapart := (List.nodup_append.mp (List.nodup_append.mp hnodup).1).2.2
        exact hapart _ (List.mem_map.mpr ⟨x, hx, htext'⟩) _ (by simp [htext]) rfl
      simp [IssueEventHistory.keyOf, htext, htext', hne]
    unfold IssueEventHistory.addItem Holds
    dsimp only
    rw [hother, hh]
    simp [IssueEventHistory.keyOf, htext]

end Ids

/-! ## What is read of a conforming page -/

section Pages

variable {α : Type} {newURL : List Char → Option Url} {identity : GitHubIssueEventEndpointIdentity} {events : List α} {p : Nat}

theorem pageCount_spec (events : List α) (h : 0 < events.length) :
    100 * (pageCount events - 1) < events.length ∧ events.length ≤ 100 * pageCount events := by
  unfold pageCount
  omega

structure Shows (events : List α) (p : Nat) (page : CheckedPage α) : Prop where
  items : page.items = pageItems events p
  absent : page.valid = true → page.present = false → pageCount events = 1
  last : ∀ r, page.relations = some r → ∀ n, r .last = some n → n = pageCount events
  next : ∀ r, page.relations = some r → p < pageCount events → (r .next).isSome = true

theorem linkRelations_truthful {pages : Nat} {links : List PageLink} (ht : Truthful pages p links) {r : Relations}
    (h : linkRelations newURL identity (.text (linkHeader links)) = some r) :
    (∀ n, r .last = some n → n = pages) ∧ (p < pages → (r .next).isSome = true) := by
  unfold linkRelations at h
  dsimp only at h
  split at h
  · cases h
  · rename_i members hmembers
    rw [parseIssueEventLink_linkHeader hmembers] at h
    constructor
    · intro n hn
      obtain ⟨link, hlink, hrel, rfl⟩ := (relations_links h .last n).mp hn
      exact ht.last link hlink hrel
    · intro hp
      obtain ⟨⟨link, hlink, hrel⟩, -⟩ := ht.goesOn hp
      rw [(relations_links h .next link.page).mpr ⟨link, hlink, hrel, rfl⟩]
      rfl

theorem checkPage_shows {answer : IssueEventPage α} (hc : Conforming events p answer) :
    Shows events p (checkPage newURL identity p (some answer)) := by
  have hitems : rawItems (some answer) = pageItems events p := by
    simp [rawItems, hc.items]
  have hnone : ∀ present : Bool, Shows events p ⟨pageItems events p, none, present, false⟩ := by
    intro present
    exact ⟨rfl, by simp, by simp, by simp⟩
  unfold checkPage
  dsimp only
  rw [hitems]
  split
  · exact hnone false
  · split
    · exact hnone true
    · split
      · rename_i hlink
        rw [Option.or_eq_none_iff] at hlink
        exact ⟨rfl, fun _ _ => hc.unlinked hlink.1 hlink.2, by simp, by simp⟩
      · rename_i value hlink
        have hvalue : answer.link = some value ∨ answer.linkHeader = some value := by
          rcases Option.or_eq_some_iff.mp hlink with h | ⟨-, h⟩
          · exact .inl h
          · exact .inr h
        obtain ⟨links, rfl, ht⟩ := hc.linked value hvalue
        refine ⟨rfl, ?_, ?_, ?_⟩
        · intro _ hpresent
          cases hpresent
        · intro r hr
          exact (linkRelations_truthful ht hr).1
        · intro r hr
          exact (linkRelations_truthful ht hr).2

theorem Shows.of_chain {page : CheckedPage α} (hs : Shows events p page) {last : Nat} (hp : p ≤ last) (hle : last ≤ pageCount events)
    (h : chain page.relations p last = true) : pageCount events = last := by
  unfold chain at h
  split at h
  · cases h
  · rename_i r hr
    simp only [Bool.and_eq_true, lastMatches, Bool.or_eq_true, decide_eq_true_eq] at h
    obtain ⟨⟨hlast, -⟩, hrest⟩ := h
    rcases hlast with hlast | ⟨rfl, -⟩
    · exact (hs.last r hr last hlast).symm
    · -- the last page has no next one
      have hnext : (r .next).isNone = true := by
        split at hrest
        · simp only [Bool.and_eq_true] at hrest
          exact hrest.2
        · rw [if_pos rfl] at hrest
          simp only [Bool.and_eq_true] at hrest
          exact hrest.2
      by_contra hne
      have := hs.next r hr (by omega)
      cases hopt : r .next with
      | none => simp [hopt] at this
      | some n => simp [hopt] at hnext

end Pages

/-! ## The run -/

section Run

variable {ε α : Type} {newURL : List Char → Option Url} {identity : GitHubIssueEventEndpointIdentity} {idOf : α → IdValue}
  {histories : Nat → List α} {server : Nat → Nat → Except ε (Option (IssueEventPage α))} {h : IssueEventHistory α} {t : Traffic}

def ServerConforms (histories : Nat → List α) (server : Nat → Nat → Except ε (Option (IssueEventPage α))) : Prop :=
  ∀ k p, 1 ≤ p → ∃ answer, server k p = .ok (some answer) ∧ Conforming (histories k) p answer

def Settled (histories : Nat → List α) (out : Except ε (IssueEventPaginationReceipt α) × Traffic) : Prop :=
  ∃ receipt, out.1 = .ok receipt ∧ (Refused receipt ∨ Exact (histories (out.2.reads - 1)) receipt)

theorem settled_fail (h : IssueEventHistory α) (t : Traffic) :
    Settled histories ((.done h.fail : Reading ε α _).alone (answering server) t) :=
  ⟨h.fail, rfl, .inl ⟨rfl, by simp [IssueEventHistory.fail, IssueEventHistory.finish, List.rtake]⟩⟩

theorem settled_ite {c : Prop} [Decidable c] {p q : Reading ε α (IssueEventPaginationReceipt α)}
    (hp : c → Settled histories (p.alone (answering server) t)) (hq : ¬c → Settled histories (q.alone (answering server) t)) :
    Settled histories ((if c then p else q).alone (answering server) t) := by
  split
  · exact hp ‹c›
  · exact hq ‹¬c›

theorem settled_finish {xs : List α} {k : Nat} (hh : Holds idOf h xs) (hk : t.reads = k + 1)
    (hxs : if h.skipped then xs.rtake 200 = (histories k).rtake 200 ∧ 200 < (histories k).length else xs = histories k)
    {terminal : IssueEventTerminal} (hne : terminal ≠ .event_history_unbounded) :
    Settled histories ((.done (h.finish terminal) : Reading ε α _).alone (answering server) t) := by
  have hvalues : h.newest.map Prod.snd = xs := by
    rw [hh, List.map_map]
    exact List.map_id xs
  refine ⟨h.finish terminal, rfl, .inr ?_⟩
  rw [Prog.alone_done, hk, Nat.add_sub_cancel]
  simp only [Exact, IssueEventHistory.finish, hne, decide_false, if_false, hvalues, MAX, Bool.false_or, Bool.or_eq_true,
    decide_eq_true_eq]
  cases hskip : h.skipped with
  | true =>
    rw [hskip, if_pos rfl] at hxs
    simp [hxs.1, hxs.2]
  | false =>
    rw [hskip, if_neg (by simp)] at hxs
    simp [hxs]

theorem settled_read {p : Nat} (hserver : ServerConforms histories server) (hp : 1 ≤ p)
    {f : CheckedPage α × IssueEventHistory α → Reading ε α (IssueEventPaginationReceipt α)}
    (hf : ∀ (page : CheckedPage α) (h' : IssueEventHistory α) (t' : Traffic), t'.reads = t.reads + 1 →
      h'.newest = h.newest → h'.skipped = h.skipped → Shows (histories t.reads) p page →
      Settled histories ((f (page, h')).alone (answering server) t')) :
    Settled histories (((read newURL identity p h).bind f).alone (answering server) t) := by
  obtain ⟨answer, hanswer, hc⟩ := hserver t.reads p hp
  have hread : (read newURL identity p h : Reading ε α _).alone (answering server) t =
      (.ok (checkPage newURL identity p (some answer),
        { h with pagesRead := h.pagesRead + 1, rawCount := h.rawCount + (rawItems (some answer)).length }),
        t.after (server t.reads p)) := by
    unfold read
    rw [Prog.alone_call]
    simp only [answering, hanswer]
    rfl
  rw [Prog.alone_bind_of_ok (answering server) hread]
  exact hf _ _ _ rfl rfl rfl (checkPage_shows hc)

theorem rtake_append_of_le {n : Nat} {xs ys : List α} (hn : n ≤ ys.length) : (xs ++ ys).rtake n = ys.rtake n := by
  have hlen : (xs ++ ys).length - n = xs.length + (ys.length - n) := by
    rw [List.length_append]
    omega
  unfold List.rtake
  rw [hlen, List.drop_length_add_append]

theorem Holds.add (hevents : AppendOnly idOf histories) (k : Nat) {xs items : List α} (hh : Holds idOf h xs)
    (hsub : (xs ++ items).Sublist (histories k)) (tail : Bool) : Holds idOf (h.add idOf items tail) (xs ++ items) := by
  have hh' : Holds idOf { h with trustedRawCount := h.trustedRawCount + items.length } xs := hh
  refine hh'.addItems tail ?_ ((hevents.nodup_known k).sublist (hsub.map _))
  intro x hx
  obtain ⟨n, -, hn⟩ := hevents.known (hsub.subset hx)
  rw [hn]
  rfl

theorem part_sublist {l : List α} {a b c : Nat} (hab : a ≤ b) : (l.take a ++ (l.take c).drop b).Sublist l := by
  have hdrop : ((l.take c).drop b).Sublist (l.drop a) := by
    rw [show b = a + (b - a) by omega, ← List.drop_drop]
    exact (List.drop_sublist _ _).trans ((List.take_sublist c l).drop a)
  calc l.take a ++ (l.take c).drop b |>.Sublist (l.take a ++ l.drop a) := (List.Sublist.refl _).append hdrop
    _ = l := List.take_append_drop a l

/-- After page `p` of the history at request `k`, which has `last` pages, the reader holds the first `existing` pages
and those after page `base`. -/
structure After (idOf : α → IdValue) (histories : Nat → List α) (existing base last : Nat) (h : IssueEventHistory α)
    (k p : Nat) : Prop where
  holds : Holds idOf h ((histories k).take (100 * existing) ++ ((histories k).take (100 * p)).drop (100 * base))
  skipped : h.skipped = decide (existing < base)
  newest : existing < base → base + 5 = last ∧ 2 ≤ base
  ordered : existing ≤ base ∧ base ≤ p ∧ p ≤ last
  pages : pageCount (histories k) = last
  nonempty : 0 < (histories k).length

variable {existing base last k p : Nat}

theorem After.settled (ha : After idOf histories existing base last h k last) (hk : t.reads = k + 1)
    {terminal : IssueEventTerminal} (hne : terminal ≠ .event_history_unbounded) :
    Settled histories ((.done (h.finish terminal) : Reading ε α _).alone (answering server) t) := by
  obtain ⟨hlow, hhigh⟩ := pageCount_spec (histories k) ha.nonempty
  rw [ha.pages] at hlow hhigh
  have htake : (histories k).take (100 * last) = histories k := List.take_of_length_le hhigh
  have hholds := ha.holds
  rw [htake] at hholds
  refine settled_finish hholds hk ?_ hne
  rw [ha.skipped]
  by_cases hgap : existing < base
  · obtain ⟨hlast, hbase⟩ := ha.newest hgap
    rw [decide_eq_true hgap, if_pos rfl]
    refine ⟨?_, by omega⟩
    -- the pages behind the gap hold more than 200 events
    have hmany : 200 ≤ ((histories k).drop (100 * base)).length := by
      rw [List.length_drop]
      omega
    rw [rtake_append_of_le hmany]
    conv_rhs => rw [← List.take_append_drop (100 * base) (histories k), rtake_append_of_le hmany]
  · have heq : base = existing := le_antisymm (not_lt.mp hgap) ha.ordered.1
    rw [decide_eq_false hgap, if_neg (by simp), heq]
    exact List.take_append_drop _ _

theorem take_grows (ha : AppendOnly idOf histories) {n : Nat} (hn : n ≤ (histories k).length) :
    (histories (k + 1)).take n = (histories k).take n := by
  obtain ⟨new, hnew⟩ := ha.grows k
  rw [← hnew, List.take_append_of_le_length hn]

theorem After.step (hevents : AppendOnly idOf histories) (ha : After idOf histories existing base last h k p) (hp : p < last)
    {h' : IssueEventHistory α} {page : CheckedPage α} (hnewest : h'.newest = h.newest) (hskipped : h'.skipped = h.skipped)
    (hs : Shows (histories (k + 1)) (p + 1) page) (hchain : chain page.relations (p + 1) last = true) :
    After idOf histories existing base last (h'.add idOf page.items true) (k + 1) (p + 1) := by
  obtain ⟨hexisting, hbase, -⟩ := ha.ordered
  have hgrown : (histories k).length ≤ (histories (k + 1)).length := (hevents.grows k).length_le
  have hlen : 100 * p ≤ (histories k).length := by
    have := (pageCount_spec (histories k) ha.nonempty).1
    rw [ha.pages] at this
    omega
  have hmore : last ≤ pageCount (histories (k + 1)) := by
    rw [← ha.pages]
    unfold pageCount
    omega
  have hpages := hs.of_chain hp hmore hchain
  have hheld : (histories k).take (100 * existing) ++ ((histories k).take (100 * p)).drop (100 * base) ++ page.items =
      (histories (k + 1)).take (100 * existing) ++ ((histories (k + 1)).take (100 * (p + 1))).drop (100 * base) := by
    have hitems : page.items = ((histories (k + 1)).drop (100 * p)).take 100 := hs.items
    rw [← take_grows hevents (by omega : 100 * existing ≤ _), ← take_grows hevents hlen, hitems, List.append_assoc]
    congr 1
    rw [Nat.mul_add, Nat.mul_one, List.take_add, List.drop_append_of_le_length]
    rw [List.length_take]
    omega
  refine ⟨?_, ?_, ha.newest, ⟨hexisting, by omega, hp⟩, hpages, by have := ha.nonempty; omega⟩
  · rw [← hheld]
    refine Holds.add hevents (k + 1) ?_ ?_ true
    · unfold Holds
      rw [hnewest]
      exact ha.holds
    · rw [hheld]
      exact part_sublist (by omega)
  · obtain ⟨-, -, -, hskip, -⟩ := add_counts idOf page.items true h'
    rw [hskip, hskipped, ha.skipped]

variable (newURL identity)

theorem tailLoop_settled (hevents : AppendOnly idOf histories) (hserver : ServerConforms histories server) {n : Nat}
    (ha : After idOf histories existing base last h k p) (hk : t.reads = k + 1) (hn : p + n = last) :
    Settled histories ((tailLoop newURL identity idOf last (List.range' (p + 1) n) h : Reading ε α _).alone
      (answering server) t) := by
  induction n generalizing h k p t with
  | zero =>
    obtain rfl : p = last := hn
    unfold tailLoop
    dsimp only [List.range']
    split
    · exact settled_fail h t
    · exact ha.settled hk (by decide)
  | succ n ih =>
    rw [List.range'_succ]
    unfold tailLoop
    refine settled_read hserver (by omega) ?_
    intro page h' t' hreads hnewest hskipped hs
    rw [hk] at hs
    refine settled_ite (fun _ => settled_fail h' t') fun hvalid => ?_
    simp only [Bool.or_eq_true, Bool.not_eq_true', not_or, Bool.not_eq_false] at hvalid
    refine settled_ite (fun _ => settled_fail h' t') fun _ => ?_
    exact ih (ha.step hevents (by omega) hnewest hskipped hs hvalid.2) (by omega) (by omega)

theorem tail_settled (hevents : AppendOnly idOf histories) (hserver : ServerConforms histories server)
    (hholds : Holds idOf h ((histories k).take (100 * existing))) (hlast : h.lastPage = some last) (hk : t.reads = k + 1)
    (hpages : pageCount (histories k) = last) (hnonempty : 0 < (histories k).length) (hexisting : 1 ≤ existing)
    (hfit : existing < last ∨ existing = 2) :
    Settled histories ((tail newURL identity idOf existing h : Reading ε α _).alone (answering server) t) := by
  unfold tail
  rw [hlast]
  dsimp only
  refine settled_ite (fun _ => settled_fail h t) fun hle => ?_
  have hstart : tailStart existing last = tailStart existing last - 1 + 1 := by
    unfold tailStart
    omega
  have ha : After idOf histories existing (tailStart existing last - 1) last
      { h with skipped := decide (existing + 1 < tailStart existing last) } k (tailStart existing last - 1) := by
    refine ⟨?_, ?_, ?_, ⟨?_, le_rfl, ?_⟩, hpages, hnonempty⟩
    · rw [List.drop_take_self, List.append_nil]
      exact hholds
    · dsimp only
      rw [hstart]
      simp
    · unfold tailStart
      omega
    · unfold tailStart
      omega
    · unfold tailStart
      rcases hfit with hfit | hfit
      · omega
      · omega
  have hloop := tailLoop_settled newURL identity hevents hserver ha hk
    (n := last + 1 - tailStart existing last) (by unfold tailStart; omega)
  rw [← hstart, hlast] at hloop
  exact hloop

theorem settled_whole {k : Nat} (hh : Holds idOf h (histories k)) (hskip : h.skipped = false) (hk : t.reads = k + 1)
    {terminal : IssueEventTerminal} (hne : terminal ≠ .event_history_unbounded) :
    Settled histories ((.done (h.finish terminal) : Reading ε α _).alone (answering server) t) := by
  refine settled_finish hh hk ?_ hne
  rw [hskip]
  simp

theorem afterSecond_settled (hevents : AppendOnly idOf histories) (hserver : ServerConforms histories server)
    {second : CheckedPage α} (hnew : h.newest = []) (hskip : h.skipped = false) (hk : t.reads = 2)
    (hs : Shows (histories 1) 2 second) (hfull : 100 ≤ (histories 0).length) :
    Settled histories ((afterSecond newURL identity idOf ((histories 0).take 100) second h : Reading ε α _).alone
      (answering server) t) := by
  have hgrown : (histories 0).length ≤ (histories 1).length := (hevents.grows 0).length_le
  have hfirst : (histories 0).take 100 = (histories 1).take 100 := (take_grows hevents hfull).symm
  have hsecond : second.items = ((histories 1).drop 100).take 100 := hs.items
  have htwo : (histories 1).take 100 ++ second.items = (histories 1).take 200 := by
    rw [hsecond, ← List.take_add]
  have hheld : ∀ last, Holds idOf ({ h with lastPage := last }.add idOf ((histories 0).take 100) false) ((histories 1).take 100) := by
    intro last
    have hh : Holds idOf { h with lastPage := last } [] := hnew
    rw [hfirst]
    exact hh.add hevents 1 (List.take_sublist _ _) false
  have hheld' : ∀ last, Holds idOf (({ h with lastPage := last }.add idOf ((histories 0).take 100) false).add idOf
      second.items false) ((histories 1).take 200) := by
    intro last
    rw [← htwo]
    refine (hheld last).add hevents 1 ?_ false
    rw [htwo]
    exact List.take_sublist _ _
  unfold afterSecond
  refine settled_ite (fun _ => settled_fail h t) fun _ => ?_
  refine settled_ite (fun hshort => ?_) fun hlong => ?_
  · have hlen : (histories 1).length < 200 := by
      have : second.items.length = min 100 ((histories 1).length - 100) := by
        rw [hsecond, List.length_take, List.length_drop]
      unfold SIZE at hshort
      omega
    refine settled_ite (fun _ => settled_fail h t) fun _ => ?_
    dsimp only
    have hskip' : ∀ last, ({ h with lastPage := last }.add idOf ((histories 0).take 100) false).skipped = false :=
      fun last => (add_counts idOf _ _ _).2.2.2.1.trans hskip
    by_cases hnone : second.items.length = 0
    · rw [if_pos hnone, if_pos hnone]
      have hall : (histories 1).take 100 = histories 1 := by
        rw [hsecond, List.length_take, List.length_drop] at hnone
        exact List.take_of_length_le (by omega)
      have hwhole := hheld (some 1)
      rw [hall] at hwhole
      exact settled_whole hwhole (hskip' _) hk (by decide)
    · rw [if_neg hnone, if_neg hnone]
      have hall : (histories 1).take 200 = histories 1 := List.take_of_length_le hlen.le
      have hwhole := hheld' (some 2)
      rw [hall] at hwhole
      exact settled_whole hwhole ((add_counts idOf _ _ _).2.2.2.1.trans (hskip' _)) hk (by decide)
  · split
    · exact settled_fail h t
    · rename_i last hlast
      obtain ⟨r, hr, hlast⟩ := Option.bind_eq_some_iff.mp hlast
      refine settled_ite (fun _ => settled_fail h t) fun _ => ?_
      refine tail_settled newURL identity hevents hserver (hheld' (some last)) ?_ hk (hs.last r hr last hlast).symm (by omega)
        (by decide) (.inr rfl)
      rw [(add_counts idOf _ _ _).2.2.2.2, (add_counts idOf _ _ _).2.2.2.2]

theorem afterFirst_settled (hevents : AppendOnly idOf histories) (hserver : ServerConforms histories server)
    {first : CheckedPage α} (hnew : h.newest = []) (hskip : h.skipped = false) (hk : t.reads = 1)
    (hs : Shows (histories 0) 1 first) :
    Settled histories ((afterFirst newURL identity idOf first h : Reading ε α _).alone (answering server) t) := by
  have hitems : first.items = (histories 0).take 100 := hs.items
  have hcount : first.items.length = min 100 (histories 0).length := by
    rw [hitems, List.length_take]
  have hheld : ∀ last, Holds idOf ({ h with lastPage := last }.add idOf first.items false) ((histories 0).take 100) := by
    intro last
    have hh : Holds idOf { h with lastPage := last } [] := hnew
    rw [hitems]
    exact hh.add hevents 0 (List.take_sublist _ _) false
  have hskip' : ∀ last, ({ h with lastPage := last }.add idOf first.items false).skipped = false :=
    fun last => (add_counts idOf _ _ _).2.2.2.1.trans hskip
  have hwhole : ∀ last, (histories 0).length ≤ 100 →
      Settled histories ((.done (({ h with lastPage := last }.add idOf first.items false).finish .short_page) :
        Reading ε α _).alone (answering server) t) := by
    intro last hle
    have hh := hheld last
    rw [List.take_of_length_le hle] at hh
    exact settled_whole hh (hskip' last) hk (by decide)
  unfold afterFirst
  refine settled_ite (fun _ => settled_fail h t) fun hvalid => ?_
  refine settled_ite (fun hshort => ?_) fun hlong => ?_
  · unfold SIZE at hshort
    exact settled_ite (fun _ => settled_fail h t) fun _ => hwhole (some 1) (by omega)
  · unfold SIZE at hlong
    refine settled_ite (fun _ => ?_) fun _ => ?_
    · split
      · exact settled_fail h t
      · rename_i last hlast
        obtain ⟨r, hr, hlast⟩ := Option.bind_eq_some_iff.mp hlast
        have hpages := (hs.last r hr last hlast).symm
        refine settled_ite (fun _ => settled_fail h t) fun _ => settled_ite (fun hone => ?_) fun hmany => ?_
        · have := (pageCount_spec (histories 0) (by omega)).2
          rw [hpages, hone] at this
          exact hwhole (some last) this
        · refine tail_settled newURL identity hevents hserver (hheld (some last)) (add_counts idOf _ _ _).2.2.2.2 hk hpages
            (by omega) le_rfl (.inl ?_)
          have : 1 ≤ pageCount (histories 0) := le_max_left _ _
          omega
    · refine settled_read hserver (by decide) ?_
      intro second h' t' hreads hnewest hskipped hs'
      rw [hk] at hs'
      dsimp only
      rw [hitems]
      exact afterSecond_settled newURL identity hevents hserver (hnewest.trans hnew) (hskipped.trans hskip) (by omega) hs' (by omega)

theorem readIssueEventHistory_settled (hevents : AppendOnly idOf histories) (hserver : ServerConforms histories server) :
    Settled histories ((readIssueEventHistory newURL identity idOf).alone (answering server) ⟨0, 0⟩) := by
  unfold readIssueEventHistory
  refine settled_ite (fun _ => settled_fail _ _) fun _ => ?_
  refine settled_read hserver le_rfl ?_
  intro first h t hreads hnewest hskipped hs
  exact afterFirst_settled newURL identity hevents hserver hnewest hskipped hreads hs

end Run

/-- A conforming server makes the history exact or refused while it grows, and no server makes the reader ask for more
than seven pages, give more than 200 items, give one id twice, or count an item that it did not take. -/
theorem issue_event_history_exact {ε α : Type} (newURL : List Char → Option Url)
    (identity : GitHubIssueEventEndpointIdentity) (idOf : α → IdValue) :
    (∀ (histories : Nat → List α) (server : Nat → Nat → Except ε (Option (IssueEventPage α))),
      AppendOnly idOf histories → ServerConforms histories server →
        Settled histories ((readIssueEventHistory newURL identity idOf).alone (answering server) ⟨0, 0⟩)) ∧
    ∀ server : Nat → Nat → Except ε (Option (IssueEventPage α)),
      ((readIssueEventHistory newURL identity idOf).alone (answering server) ⟨0, 0⟩).2.reads ≤ 7 ∧
        ∀ receipt, ((readIssueEventHistory newURL identity idOf).alone (answering server) ⟨0, 0⟩).1 = .ok receipt →
          Accounted idOf receipt ((readIssueEventHistory newURL identity idOf).alone (answering server) ⟨0, 0⟩).2 :=
  ⟨fun _ _ hevents hserver => readIssueEventHistory_settled newURL identity hevents hserver,
    readIssueEventHistory_accounted⟩

/-! ## A server of the API -/

def apiOrigin : List Char := "https://api.github.com".toList

def eventsPath : List Char := "/repos/owner/repo/issues/7/events".toList

def apiIdentity : GitHubIssueEventEndpointIdentity :=
  { resolved := true
    origin := apiOrigin
    repositoryPath := eventsPath
    canonicalRepositoryPath := "/repositories/42/issues/7/events".toList }

/-- `new URL` for an address of the API. -/
def apiURL (text : List Char) : Option Url :=
  if apiOrigin.isPrefixOf text then
    let rest := text.drop apiOrigin.length
    some { origin := apiOrigin, pathname := rest.takeWhile (· ≠ '?'), username := [], password := [],
           search := rest.dropWhile (· ≠ '?'), hash := [] }
  else none

def apiLink (relation : Relation) (page : Nat) : PageLink :=
  { relation, base := apiOrigin ++ eventsPath, page, bracketed := by decide, queried := by decide }

def apiLinks (pages p : Nat) : List PageLink :=
  (if 1 < p then [apiLink .prev (p - 1)] else []) ++ (if p < pages then [apiLink .next (p + 1), apiLink .last pages] else []) ++
    [apiLink .first 1]

def apiServer {α : Type} (histories : Nat → List α) (k p : Nat) : Except String (Option (IssueEventPage α)) :=
  .ok (some
    { page := some p
      items := some (pageItems (histories k) p)
      link := some (.text (linkHeader (apiLinks (pageCount (histories k)) p)))
      linkHeader := none })

theorem mem_apiLinks {pages p : Nat} {link : PageLink} (h : link ∈ apiLinks pages p) :
    (link = apiLink .prev (p - 1) ∧ 1 < p) ∨ (link = apiLink .next (p + 1) ∧ p < pages) ∨
      (link = apiLink .last pages ∧ p < pages) ∨ link = apiLink .first 1 := by
  unfold apiLinks at h
  rcases List.mem_append.mp h with h | h
  · rcases List.mem_append.mp h with h | h
    · split at h
      · exact .inl ⟨List.mem_singleton.mp h, ‹_›⟩
      · cases h
    · split at h
      · rcases List.mem_cons.mp h with h | h
        · exact .inr (.inl ⟨h, ‹_›⟩)
        · exact .inr (.inr (.inl ⟨List.mem_singleton.mp h, ‹_›⟩))
      · cases h
  · exact .inr (.inr (.inr (List.mem_singleton.mp h)))

theorem apiLinks_truthful (pages p : Nat) : Truthful pages p (apiLinks pages p) where
  first := by
    intro link hlink hrel
    rcases mem_apiLinks hlink with ⟨rfl, -⟩ | ⟨rfl, -⟩ | ⟨rfl, -⟩ | rfl
    · cases hrel
    · cases hrel
    · cases hrel
    · rfl
  prev := by
    intro link hlink hrel
    rcases mem_apiLinks hlink with ⟨rfl, hp⟩ | ⟨rfl, -⟩ | ⟨rfl, -⟩ | rfl
    · exact Nat.sub_add_cancel hp.le
    · cases hrel
    · cases hrel
    · cases hrel
  next := by
    intro link hlink hrel
    rcases mem_apiLinks hlink with ⟨rfl, -⟩ | ⟨rfl, hp⟩ | ⟨rfl, -⟩ | rfl
    · cases hrel
    · exact ⟨hp, rfl⟩
    · cases hrel
    · cases hrel
  last := by
    intro link hlink hrel
    rcases mem_apiLinks hlink with ⟨rfl, -⟩ | ⟨rfl, -⟩ | ⟨rfl, -⟩ | rfl
    · cases hrel
    · cases hrel
    · rfl
    · cases hrel
  goesOn := by
    intro hp
    unfold apiLinks
    rw [if_pos hp]
    exact ⟨⟨apiLink .next (p + 1), by simp, rfl⟩, ⟨apiLink .last pages, by simp, rfl⟩⟩

theorem apiServer_conforms {α : Type} (histories : Nat → List α) : ServerConforms histories (apiServer histories) := by
  intro k p _
  refine ⟨_, rfl, rfl, rfl, ?_, ?_⟩
  · rintro value (hvalue | hvalue)
    · cases hvalue
      exact ⟨_, rfl, apiLinks_truthful _ _⟩
    · cases hvalue
  · intro hlink
    cases hlink

/-- A history of 101 events that grows to 110. -/
def growing (k : Nat) : List Int := (List.range (min (101 + k) 110)).map Int.ofNat

theorem growing_appendOnly : AppendOnly IdValue.number growing where
  grows := by
    intro k
    refine List.IsPrefix.map _ ?_
    have hle : min (101 + k) 110 ≤ min (101 + (k + 1)) 110 := by omega
    have htake : List.range (min (101 + k) 110) = (List.range (min (101 + (k + 1)) 110)).take (min (101 + k) 110) := by
      rw [List.take_range, Nat.min_eq_left hle]
    rw [htake]
    exact List.take_prefix _ _
  numbered := by
    intro k event hevent
    obtain ⟨n, hn, rfl⟩ := List.mem_map.mp hevent
    have := List.mem_range.mp hn
    refine ⟨n, rfl, ?_⟩
    simp only [Json.isSafeInteger, Bool.and_eq_true, decide_eq_true_eq]
    omega
  distinct := by
    intro k
    refine ((List.nodup_range (n := min (101 + k) 110)).map ?_).map ?_
    · intro m n h
      exact Int.ofNat.inj h
    · intro m n h
      cases h
      rfl

/-- The reader gets all 102 events that the history has by its second request. -/
theorem issue_event_history_exact_growing :
    ∃ receipt, ((readIssueEventHistory apiURL apiIdentity IdValue.number).alone (answering (apiServer growing)) ⟨0, 0⟩).1 =
      .ok receipt ∧ Exact (growing 1) receipt := by
  obtain ⟨receipt, hreceipt, hsettled⟩ :=
    (issue_event_history_exact apiURL apiIdentity IdValue.number).1 growing (apiServer growing) growing_appendOnly
      (apiServer_conforms growing)
  have hrun : (((readIssueEventHistory apiURL apiIdentity IdValue.number).alone (answering (apiServer growing)) ⟨0, 0⟩).1.toOption.map
      IssueEventPaginationReceipt.terminal,
      ((readIssueEventHistory apiURL apiIdentity IdValue.number).alone (answering (apiServer growing)) ⟨0, 0⟩).2.reads) =
      (some .bounded_tail, 2) := by
    decide +kernel
  rw [Prod.mk.injEq, hreceipt] at hrun
  obtain ⟨hterminal, hreads⟩ := hrun
  refine ⟨receipt, hreceipt, ?_⟩
  rcases hsettled with ⟨hrefused, -⟩ | hexact
  · cases (Option.some.inj hterminal).symm.trans hrefused
  · rw [hreads] at hexact
    exact hexact

end NeonDiff.Events
