import NeonDiff.Lib.IsoDate
import NeonDiff.Lib.Table

/-! # The cooldown of public commands

The record of an author's last accepted invocation is compared with the start of the window in whole seconds, while
cooldowns and clocks count milliseconds.
-/

namespace NeonDiff.PublicCommands

open NeonDiff.Lib NeonDiff.Lib.IsoDate

/-! ## The store -/

/-- The primary key of `public_command_invocations`. -/
structure InvocationKey where
  repo : String
  pullNumber : Nat
  headSha : String
  author : String
  action : String
  deriving DecidableEq, Repr

/-- `invokedAt` is the milliseconds of the `toISOString` text. -/
structure PublicCommandInvocation where
  key : InvocationKey
  invokedAt : Int
  deriving DecidableEq, Repr

abbrev Invocations := Table PublicCommandInvocation.key

structure InvocationCall where
  key : InvocationKey
  now : Int
  deriving DecidableEq, Repr

/-- SQLite's `datetime(text)`, in seconds. -/
def datetime (ms : Int) : Int := ms / 1000

def existingInvocation (cooldownMs : Int) (call : InvocationCall) (t : Invocations) : Option PublicCommandInvocation :=
  t.rows.find? fun row => row.key = call.key ∧ datetime (call.now - cooldownMs) < datetime row.invokedAt

def tryRecordPublicCommandInvocation (cooldownMs : Int) (call : InvocationCall) (t : Invocations) :
    Except String (Bool × Invocations) :=
  if cooldownMs < 1 then .error "cooldownMs must be a positive integer"
  else if !isTime call.now || !isTime (call.now - cooldownMs) then .error "Invalid time value"
  else if (existingInvocation cooldownMs call t).isSome then .ok (false, t)
  else .ok (true, t.replace ⟨call.key, call.now⟩)

/-! ## Runs -/

inductive Answer where
  | accepted
  | rejected
  | failed (message : String)
  deriving DecidableEq, Repr

def invoke (cooldownMs : Int) (call : InvocationCall) (t : Invocations) : Answer × Invocations :=
  match tryRecordPublicCommandInvocation cooldownMs call t with
  | .error message => (.failed message, t)
  | .ok (true, t') => (.accepted, t')
  | .ok (false, t') => (.rejected, t')

def history (cooldownMs : Int) : Invocations → List InvocationCall → List (InvocationCall × Answer)
  | _, [] => []
  | t, call :: calls =>
    (call, (invoke cooldownMs call t).1) :: history cooldownMs (invoke cooldownMs call t).2 calls

/-- An accepted invocation comes `cooldownMs` after every accepted one of its key, and a rejected one has an accepted
one of its key within the `cooldownMs` before it. -/
structure Spaced (cooldownMs : Int) (past : List (InvocationCall × Answer)) (entry : InvocationCall × Answer) : Prop where
  accepted : entry.2 = .accepted →
    ∀ earlier ∈ past, earlier.2 = .accepted → earlier.1.key = entry.1.key → earlier.1.now + cooldownMs ≤ entry.1.now
  rejected : entry.2 = .rejected →
    ∃ earlier ∈ past, earlier.2 = .accepted ∧ earlier.1.key = entry.1.key ∧
      entry.1.now - cooldownMs < earlier.1.now ∧ earlier.1.now ≤ entry.1.now

/-- The call finds the last accepted invocation of its key behind the start of its window and in the same second. -/
def SplitsSecond (cooldownMs : Int) (call : InvocationCall) (t : Invocations) : Prop :=
  1 ≤ cooldownMs ∧ isTime call.now = true ∧ isTime (call.now - cooldownMs) = true ∧
    ∃ row ∈ t.rows, row.key = call.key ∧ datetime row.invokedAt = datetime (call.now - cooldownMs) ∧
      call.now - cooldownMs < row.invokedAt

def WholeSeconds (cooldownMs : Int) : Invocations → List InvocationCall → Prop
  | _, [] => True
  | t, call :: calls => ¬SplitsSecond cooldownMs call t ∧ WholeSeconds cooldownMs (invoke cooldownMs call t).2 calls

/-! ## One call -/

theorem invoke_cases (cooldownMs : Int) (call : InvocationCall) (t : Invocations) :
    (∃ message, invoke cooldownMs call t = (.failed message, t) ∧ ¬SplitsSecond cooldownMs call t) ∨
    (∃ row ∈ t.rows, row.key = call.key ∧ datetime (call.now - cooldownMs) < datetime row.invokedAt ∧
      invoke cooldownMs call t = (.rejected, t)) ∨
    (1 ≤ cooldownMs ∧ isTime call.now = true ∧ isTime (call.now - cooldownMs) = true ∧
      (∀ row ∈ t.rows, row.key = call.key → datetime row.invokedAt ≤ datetime (call.now - cooldownMs)) ∧
      invoke cooldownMs call t = (.accepted, t.replace ⟨call.key, call.now⟩)) := by
  unfold invoke tryRecordPublicCommandInvocation
  by_cases hcooldown : cooldownMs < 1
  · left
    rw [if_pos hcooldown]
    refine ⟨_, rfl, ?_⟩
    rintro ⟨hpositive, -⟩
    omega
  rw [if_neg hcooldown]
  by_cases htime : (!isTime call.now || !isTime (call.now - cooldownMs)) = true
  · left
    rw [if_pos htime]
    refine ⟨_, rfl, ?_⟩
    rintro ⟨-, hnow, hstart, -⟩
    rw [hnow, hstart] at htime
    cases htime
  rw [if_neg htime]
  right
  cases hrow : existingInvocation cooldownMs call t with
  | some row =>
    left
    have hfound := List.find?_some hrow
    simp only [decide_eq_true_eq] at hfound
    exact ⟨row, List.mem_of_find?_eq_some hrow, hfound.1, hfound.2, rfl⟩
  | none =>
    right
    simp only [Bool.or_eq_true, Bool.not_eq_true', not_or, Bool.not_eq_false] at htime
    refine ⟨by omega, htime.1, htime.2, fun row hmem hkey => ?_, rfl⟩
    have hnone := List.find?_eq_none.mp hrow row hmem
    simp only [hkey, true_and, decide_eq_true_eq, not_lt] at hnone
    exact hnone

/-! ## The run -/

/-- The table holds the last accepted invocation of every key. -/
structure Tracks (past : List (InvocationCall × Answer)) (t : Invocations) : Prop where
  recorded : ∀ row ∈ t.rows, (⟨row.key, row.invokedAt⟩, .accepted) ∈ past
  latest : ∀ entry ∈ past, entry.2 = .accepted →
    ∃ row ∈ t.rows, row.key = entry.1.key ∧ entry.1.now ≤ row.invokedAt

theorem Tracks.quiet {past : List (InvocationCall × Answer)} {t : Invocations} (h : Tracks past t)
    {entry : InvocationCall × Answer} (hentry : entry.2 ≠ .accepted) : Tracks (past ++ [entry]) t where
  recorded row hrow := List.mem_append_left _ (h.recorded row hrow)
  latest other hother haccepted := by
    rcases List.mem_append.mp hother with hother | hother
    · exact h.latest other hother haccepted
    · rw [List.mem_singleton] at hother
      subst hother
      exact absurd haccepted hentry

theorem Tracks.accept {past : List (InvocationCall × Answer)} {t : Invocations} (h : Tracks past t)
    {call : InvocationCall} (hlater : ∀ entry ∈ past, entry.1.now ≤ call.now) :
    Tracks (past ++ [(call, .accepted)]) (t.replace ⟨call.key, call.now⟩) where
  recorded row hrow := by
    rcases Table.mem_replace.mp hrow with ⟨hold, -⟩ | rfl
    · exact List.mem_append_left _ (h.recorded row hold)
    · exact List.mem_append_right _ List.mem_cons_self
  latest other hother haccepted := by
    by_cases hkey : other.1.key = call.key
    · refine ⟨⟨call.key, call.now⟩, Table.mem_replace.mpr (Or.inr rfl), hkey.symm, ?_⟩
      rcases List.mem_append.mp hother with hother | hother
      · exact hlater other hother
      · rw [List.mem_singleton] at hother
        rw [hother]
    · rcases List.mem_append.mp hother with hother | hother
      · obtain ⟨row, hrow, hrowKey, hnow⟩ := h.latest other hother haccepted
        refine ⟨row, Table.mem_replace.mpr (Or.inl ⟨hrow, ?_⟩), hrowKey, hnow⟩
        rw [hrowKey]
        exact hkey
      · rw [List.mem_singleton] at hother
        rw [hother] at hkey
        exact absurd rfl hkey

/-- The entries of a run are spaced, each behind `past` and what came before it in the run. -/
def AllSpaced (cooldownMs : Int) : List (InvocationCall × Answer) → List (InvocationCall × Answer) → Prop
  | _, [] => True
  | past, entry :: entries => Spaced cooldownMs past entry ∧ AllSpaced cooldownMs (past ++ [entry]) entries

theorem allSpaced_iff (cooldownMs : Int) (before entries : List (InvocationCall × Answer)) :
    AllSpaced cooldownMs before entries ↔
      ∀ past entry later, entries = past ++ entry :: later → Spaced cooldownMs (before ++ past) entry := by
  induction entries generalizing before with
  | nil => simp [AllSpaced]
  | cons first entries ih =>
    rw [AllSpaced, ih]
    constructor
    · rintro ⟨hfirst, hrest⟩ past entry later hsplit
      cases past with
      | nil =>
        cases hsplit
        rwa [List.append_nil]
      | cons next past =>
        cases hsplit
        have hspaced := hrest past entry later rfl
        rwa [List.append_assoc] at hspaced
    · intro hall
      refine ⟨?_, fun past entry later hsplit => ?_⟩
      · have hspaced := hall [] first entries rfl
        rwa [List.append_nil] at hspaced
      · have hspaced := hall (first :: past) entry later (by rw [hsplit]; rfl)
        rwa [List.append_assoc]

theorem spaced_accepted_iff {cooldownMs : Int} {call : InvocationCall} {past : List (InvocationCall × Answer)}
    {t : Invocations} (htracks : Tracks past t) (hcooldown : 1 ≤ cooldownMs) (hnow : isTime call.now = true)
    (hstart : isTime (call.now - cooldownMs) = true)
    (hseconds : ∀ row ∈ t.rows, row.key = call.key → datetime row.invokedAt ≤ datetime (call.now - cooldownMs)) :
    Spaced cooldownMs past (call, .accepted) ↔ ¬SplitsSecond cooldownMs call t := by
  constructor
  · rintro hspaced ⟨-, -, -, row, hrow, hkey, -, hinside⟩
    have hapart := hspaced.accepted rfl _ (htracks.recorded row hrow) rfl hkey
    dsimp only at hapart
    omega
  · intro hwhole
    refine ⟨fun _ earlier hearlier haccepted hkey => ?_, fun h => nomatch h⟩
    obtain ⟨row, hrow, hrowKey, hlatest⟩ := htracks.latest earlier hearlier haccepted
    by_contra hclose
    have hsecond := hseconds row hrow (hrowKey.trans hkey)
    refine hwhole ⟨hcooldown, hnow, hstart, row, hrow, hrowKey.trans hkey, ?_, ?_⟩
    · unfold datetime at hsecond ⊢
      dsimp only at hclose
      omega
    · dsimp only at hclose
      omega

theorem allSpaced_history_iff (cooldownMs : Int) {past : List (InvocationCall × Answer)} {t : Invocations}
    {calls : List InvocationCall} (htracks : Tracks past t) (horder : (calls.map InvocationCall.now).Pairwise (· ≤ ·))
    (hlater : ∀ entry ∈ past, ∀ call ∈ calls, entry.1.now ≤ call.now) :
    AllSpaced cooldownMs past (history cooldownMs t calls) ↔ WholeSeconds cooldownMs t calls := by
  induction calls generalizing past t with
  | nil => exact Iff.rfl
  | cons call calls ih =>
    rw [List.map_cons, List.pairwise_cons] at horder
    obtain ⟨hfirst, horder⟩ := horder
    have hnext : ∀ answer, ∀ entry ∈ past ++ [(call, answer)], ∀ later ∈ calls, entry.1.now ≤ later.now := by
      intro answer entry hentry later hcall
      rcases List.mem_append.mp hentry with hentry | hentry
      · exact hlater entry hentry later (List.mem_cons_of_mem _ hcall)
      · rw [List.mem_singleton] at hentry
        rw [hentry]
        exact hfirst _ (List.mem_map_of_mem hcall)
    rw [history, AllSpaced, WholeSeconds]
    rcases invoke_cases cooldownMs call t with ⟨message, hinvoke, hwhole⟩ | ⟨row, hrow, hkey, hsecond, hinvoke⟩ |
      ⟨hcooldown, hnow, hstart, hseconds, hinvoke⟩
    · have hspaced : Spaced cooldownMs past (call, .failed message) := ⟨(fun h => nomatch h), (fun h => nomatch h)⟩
      have hquiet : Tracks (past ++ [(call, .failed message)]) t := htracks.quiet (fun h => nomatch h)
      rw [hinvoke, ih hquiet horder (hnext _)]
      exact ⟨fun h => ⟨hwhole, h.2⟩, fun h => ⟨hspaced, h.2⟩⟩
    · have hspaced : Spaced cooldownMs past (call, .rejected) := by
        refine ⟨(fun h => nomatch h), fun _ => ⟨_, htracks.recorded row hrow, rfl, hkey, ?_, ?_⟩⟩
        · unfold datetime at hsecond
          dsimp only
          omega
        · exact hlater _ (htracks.recorded row hrow) call List.mem_cons_self
      have hwhole : ¬SplitsSecond cooldownMs call t := by
        rintro ⟨-, -, -, other, hother, hotherKey, hsame, -⟩
        have heq := t.eq_of_key_eq hother hrow (hotherKey.trans hkey.symm)
        subst heq
        omega
      have hquiet : Tracks (past ++ [(call, .rejected)]) t := htracks.quiet (fun h => nomatch h)
      rw [hinvoke, ih hquiet horder (hnext _)]
      exact ⟨fun h => ⟨hwhole, h.2⟩, fun h => ⟨hspaced, h.2⟩⟩
    · have hspaced := spaced_accepted_iff htracks hcooldown hnow hstart hseconds
      have haccept := htracks.accept fun entry hentry => hlater entry hentry call List.mem_cons_self
      rw [hinvoke, ih haccept horder (hnext _), hspaced]

/-- In a run with a fixed cooldown and a clock that does not go back, every answer is spaced exactly where no call
finds the last accepted invocation of its key in the second that its window starts in, behind that start. -/
theorem spaced_iff_whole_seconds (cooldownMs : Int) (calls : List InvocationCall)
    (h : (calls.map InvocationCall.now).Pairwise (· ≤ ·)) :
    (∀ past entry later, history cooldownMs .empty calls = past ++ entry :: later → Spaced cooldownMs past entry) ↔
      WholeSeconds cooldownMs .empty calls := by
  have htracks : Tracks [] .empty := ⟨(fun _ hrow => nomatch hrow), (fun _ hentry => nomatch hentry)⟩
  have hall := allSpaced_iff cooldownMs [] (history cooldownMs .empty calls)
  simp only [List.nil_append] at hall
  rw [← hall]
  exact allSpaced_history_iff cooldownMs htracks h fun _ hentry => nomatch hentry

/-! ## Two runs -/

def demoKey : InvocationKey := ⟨"acme/app", 7, "head", "mallory", "review"⟩

theorem spaced_iff_whole_seconds_late :
    ([⟨demoKey, 999⟩, ⟨demoKey, 600999⟩].map InvocationCall.now).Pairwise (· ≤ ·) ∧
      ∀ past entry later, history 600000 .empty [⟨demoKey, 999⟩, ⟨demoKey, 600999⟩] = past ++ entry :: later →
        Spaced 600000 past entry := by
  refine ⟨by decide, ?_⟩
  refine (spaced_iff_whole_seconds 600000 [⟨demoKey, 999⟩, ⟨demoKey, 600999⟩] (by decide)).mpr ⟨?_, ?_, trivial⟩
  · rintro ⟨-, -, -, row, hrow, -⟩
    exact nomatch hrow
  · have hinvoke : invoke 600000 ⟨demoKey, 999⟩ .empty = (.accepted, Table.empty.replace ⟨demoKey, 999⟩) := rfl
    rw [hinvoke]
    rintro ⟨-, -, -, row, hrow, -, -, hinside⟩
    rcases Table.mem_replace.mp hrow with ⟨hold, -⟩ | rfl
    · exact nomatch hold
    · exact absurd hinside (by decide)

/-- With a cooldown of ten minutes, a second invocation goes through 998 milliseconds early. -/
theorem accepted_within_cooldown :
    history 600000 .empty [⟨demoKey, 999⟩, ⟨demoKey, 600001⟩] =
        [(⟨demoKey, 999⟩, .accepted), (⟨demoKey, 600001⟩, .accepted)] ∧
      ¬Spaced 600000 [(⟨demoKey, 999⟩, .accepted)] (⟨demoKey, 600001⟩, .accepted) := by
  refine ⟨by decide, fun hspaced => ?_⟩
  have hapart := hspaced.accepted rfl (⟨demoKey, 999⟩, .accepted) List.mem_cons_self rfl rfl
  revert hapart
  decide

end NeonDiff.PublicCommands
