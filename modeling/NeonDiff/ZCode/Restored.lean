import NeonDiff.ZCode.Model

/-! # The checkout gets back what it had -/

namespace NeonDiff.ZCode

open NeonDiff.Lib

section
variable {β : Type} (host : Host β)

def policyFile : StoredFile β where
  contents := host.encode reviewPolicyText
  mode := host.created policyMode

def Process.PolicyInPlace (s : Process β) : Prop := s.configFile = some (policyFile host)

/-! ## The directory of a checkout -/

/-- A checkout's directory while the policy stands in it. -/
def withPolicy (dir : Option (ConfigDir β)) : ConfigDir β :=
  { madeDir dir with config := { file := some (policyFile host), temp := none } }

/-- Written back, the file is as it was read. -/
structure Rewritable (file : StoredFile β) : Prop where
  contents : host.encode (host.decode file.contents) = file.contents
  mode : host.created file.mode = file.mode

/-- What a first call notes of the checkout. -/
def noted (dir : Option (ConfigDir β)) (users : Nat) : ActiveZCodeReviewPolicy where
  users := users
  hadConfigDir := dir.isSome
  originalConfig := (dir.bind fun d => d.config.file).map fun file => (host.decode file.contents, file.mode)

/-- No write is under way in the directory. -/
def Settled (dir : Option (ConfigDir β)) : Prop := ∀ d, dir = some d → d.config.temp = none

theorem restore_withPolicy {dir : Option (ConfigDir β)} (hsettled : Settled dir)
    (hfile : ∀ d file, dir = some d → d.config.file = some file → Rewritable host file) (users : Nat) :
    restore host (noted host dir users) (some (withPolicy host dir)) = dir := by
  cases dir with
  | none => rfl
  | some d =>
    obtain ⟨⟨file, temp⟩, others⟩ := d
    have htemp : temp = none := hsettled _ rfl
    subst htemp
    cases file with
    | none => rfl
    | some file =>
      obtain ⟨hcontents, hmode⟩ := hfile _ file rfl rfl
      unfold restore noted withPolicy madeDir writeFileAtomic
      simp only [Option.bind_some, Option.map_some, Option.getD_some, reduceCtorEq, if_false]
      rw [hcontents, hmode]

/-! ## The states between two calls and during one -/

variable (was : Option (ConfigDir β))

structure Idle (s : Process β) : Prop where
  activePolicy : s.activePolicy = none
  dir : s.dir = was

/-- The policy is held by a number of calls over a directory that can be restored. -/
structure Held (users : Nat) (s : Process β) : Prop where
  activePolicy : s.activePolicy = some (noted host was users)
  dir : s.dir = some (withPolicy host was)
  rewritable : ∀ d file, was = some d → d.config.file = some file → Rewritable host file

variable {host was} {s : Process β}

theorem Held.policyInPlace {users : Nat} (h : Held host was users s) : s.PolicyInPlace host := by
  unfold Process.PolicyInPlace Process.configFile
  rw [h.dir]
  rfl

theorem Held.release_last (hsettled : Settled was) (h : Held host was 1 s) : Idle was (s.release host) := by
  unfold Process.release
  rw [h.activePolicy]
  exact { activePolicy := rfl, dir := by rw [h.dir]; exact restore_withPolicy host hsettled h.rewritable 1 }

theorem Held.release {users : Nat} (h : Held host was (users + 2) s) : Held host was (users + 1) (s.release host) := by
  have hpos : users + 2 - 1 > 0 := by omega
  unfold Process.release
  rw [h.activePolicy]
  change Held host was (users + 1) (if users + 2 - 1 > 0 then _ else _)
  rw [if_pos hpos]
  exact { activePolicy := rfl, dir := h.dir, rewritable := h.rewritable }

theorem release_running : (s.release host).running = s.running := by
  unfold Process.release
  split
  · rfl
  · dsimp only
    split
    · rfl
    · rfl

theorem recordEvidence_frame (evidenceDir : Option String) (failing : Option FileOperation) :
    (s.recordEvidence host evidenceDir failing).1.dir = s.dir ∧
      (s.recordEvidence host evidenceDir failing).1.activePolicy = s.activePolicy ∧
      (s.recordEvidence host evidenceDir failing).1.running = s.running := by
  unfold Process.recordEvidence
  split
  · exact ⟨rfl, rfl, rfl⟩
  · split
    · exact ⟨rfl, rfl, rfl⟩
    · exact ⟨rfl, rfl, rfl⟩

/-! ## A call that finds no policy -/

/-- The set-up of a first call goes through. -/
def setUpPasses (s : Process β) (failing : Option FileOperation) : Prop :=
  ¬(s.configFile.isSome ∧ failing = some .readConfig) ∧ failing ≠ some .makeConfigDir ∧
    failing.bind FileOperation.policyWrite = none

/-- A first call does not lose the write of the policy in a directory that it made, and the config file that it notes
can be written back. -/
def Recoverable (host : Host β) (s : Process β) : Event → Prop
  | .call _ _ failing =>
    s.activePolicy = none →
      (failing.bind FileOperation.policyWrite ≠ none → s.dir.isSome) ∧
      (setUpPasses s failing → ∀ file, s.configFile = some file → Rewritable host file)
  | .ends _ _ => True

theorem writeFileAtomic_none (text : String) (mode : Mode) (slot : Slot β) :
    writeFileAtomic host none text mode slot =
      ({ file := some { contents := host.encode text, mode := host.created mode }, temp := none }, true) := rfl

theorem writeFileAtomic_some (failure : WriteStep) (text : String) (mode : Mode) (slot : Slot β) :
    writeFileAtomic host (some failure) text mode slot = ({ slot with temp := none }, false) := by
  cases failure
  · rfl
  · rfl

theorem install_running (failing : Option FileOperation) : (s.install host failing).1.running = s.running := by
  unfold Process.install
  split
  · rfl
  · split
    · rfl
    · dsimp only
      split
      · rfl
      · rfl

theorem install_of_passes (h : Idle was s) {failing : Option FileOperation} (hpasses : setUpPasses s failing)
    (hfile : ∀ file, s.configFile = some file → Rewritable host file) :
    (s.install host failing).2 = true ∧ Held host was 1 (s.install host failing).1 := by
  obtain ⟨hread, hmake, hwrite⟩ := hpasses
  unfold Process.install
  rw [if_neg hread, if_neg hmake, hwrite]
  dsimp only
  rw [writeFileAtomic_none]
  refine ⟨rfl, ?_⟩
  obtain ⟨hactive, rfl⟩ := h
  exact
    { activePolicy := rfl
      dir := rfl
      rewritable := fun d file hd hf => hfile file (by rw [Process.configFile, hd]; exact hf) }

theorem install_of_fails (hsettled : Settled was) (h : Idle was s) {failing : Option FileOperation}
    (hpasses : ¬setUpPasses s failing)
    (hmade : failing.bind FileOperation.policyWrite ≠ none → s.dir.isSome) :
    (s.install host failing).2 = false ∧ Idle was (s.install host failing).1 := by
  unfold Process.install
  by_cases hread : s.configFile.isSome ∧ failing = some .readConfig
  · rw [if_pos hread]
    exact ⟨rfl, h⟩
  · rw [if_neg hread]
    by_cases hmake : failing = some .makeConfigDir
    · rw [if_pos hmake]
      exact ⟨rfl, h⟩
    · rw [if_neg hmake]
      have hwrite : failing.bind FileOperation.policyWrite ≠ none := fun hnone => hpasses ⟨hread, hmake, hnone⟩
      obtain ⟨failure, hfailure⟩ := Option.ne_none_iff_exists'.mp hwrite
      obtain ⟨d, hd⟩ := Option.isSome_iff_exists.mp (hmade hwrite)
      obtain ⟨hactive, hdir⟩ := h
      have htemp : d.config.temp = none := hsettled d (hdir ▸ hd)
      dsimp only
      rw [hfailure, writeFileAtomic_some]
      refine ⟨rfl, { activePolicy := hactive, dir := ?_ }⟩
      rw [← hdir, hd]
      obtain ⟨⟨file, temp⟩, others⟩ := d
      dsimp only at htemp
      subst htemp
      rfl

/-! ## Any run -/

variable (host was) in
/-- Each call whose run goes on holds the policy, and without one the directory is as given. -/
def Restored (s : Process β) : Prop :=
  (s.running = [] ∧ Idle was s) ∨ ∃ users, s.running.length = users + 1 ∧ Held host was (users + 1) s

theorem acquire_running (failing : Option FileOperation) : (s.acquire host failing).1.running = s.running := by
  unfold Process.acquire
  split
  · rfl
  · exact install_running failing

theorem acquire_restored (hsettled : Settled was) (h : Restored host was s) {id : Nat} {evidenceDir : Option String}
    {failing : Option FileOperation} (hrecoverable : Recoverable host s (.call id evidenceDir failing)) :
    ((s.acquire host failing).2 = true ∧ Held host was (s.running.length + 1) (s.acquire host failing).1) ∨
      ((s.acquire host failing).2 = false ∧ Restored host was (s.acquire host failing).1) := by
  obtain ⟨hnone, hidle⟩ | ⟨users, hlen, hheld⟩ := h
  · obtain ⟨hmade, hfile⟩ := hrecoverable hidle.activePolicy
    have hacquire : s.acquire host failing = s.install host failing := by
      unfold Process.acquire
      rw [hidle.activePolicy]
    rw [hacquire, hnone]
    by_cases hpasses : setUpPasses s failing
    · exact Or.inl (install_of_passes hidle hpasses (hfile hpasses))
    · obtain ⟨hfailed, hleft⟩ := @install_of_fails _ host was s hsettled hidle failing hpasses hmade
      exact Or.inr ⟨hfailed, Or.inl ⟨(install_running failing).trans hnone, hleft⟩⟩
  · left
    unfold Process.acquire
    rw [hheld.activePolicy, hlen]
    exact ⟨rfl, { activePolicy := rfl, dir := hheld.dir, rewritable := hheld.rewritable }⟩

theorem release_restored (hsettled : Settled was) (h : Held host was (s.running.length + 1) s) :
    Restored host was (s.release host) := by
  unfold Restored
  rw [release_running]
  cases hlen : s.running.length with
  | zero =>
    rw [hlen] at h
    exact Or.inl ⟨List.length_eq_zero_iff.mp hlen, h.release_last hsettled⟩
  | succ users =>
    rw [hlen] at h
    exact Or.inr ⟨users, rfl, h.release⟩

theorem call_restored (hsettled : Settled was) (h : Restored host was s) {id : Nat} {evidenceDir : Option String}
    {failing : Option FileOperation} (hrecoverable : Recoverable host s (.call id evidenceDir failing)) :
    Restored host was (s.withTemporaryZCodeReviewPolicy host id evidenceDir failing) := by
  have hrunning := @acquire_running _ host s failing
  unfold Process.withTemporaryZCodeReviewPolicy
  obtain ⟨hok, hheld⟩ | ⟨hfailed, hleft⟩ := acquire_restored hsettled h hrecoverable
  · dsimp only
    rw [if_pos hok]
    rw [← hrunning] at hheld
    obtain ⟨hdir, hactive, hsame⟩ := @recordEvidence_frame _ host (s.acquire host failing).1 evidenceDir failing
    have hrecorded : Held host was (((s.acquire host failing).1.recordEvidence host evidenceDir failing).1.running.length + 1)
        ((s.acquire host failing).1.recordEvidence host evidenceDir failing).1 := by
      rw [hsame]
      exact
        { activePolicy := hactive.trans hheld.activePolicy
          dir := hdir.trans hheld.dir
          rewritable := hheld.rewritable }
    split
    · refine Or.inr ⟨_, List.length_append, ?_⟩
      exact { activePolicy := hrecorded.activePolicy, dir := hrecorded.dir, rewritable := hrecorded.rewritable }
    · exact release_restored hsettled hrecorded
  · dsimp only
    rw [if_neg (by rw [hfailed]; exact Bool.false_ne_true)]
    exact hleft

theorem leave_eq_release (outcome : RunOutcome) : s.leave host outcome = s.release host := by
  cases outcome <;> rfl

theorem step_call {id : Nat} {evidenceDir : Option String} {failing : Option FileOperation} {t : Process β}
    (h : step host s (.call id evidenceDir failing) = some t) :
    t = s.withTemporaryZCodeReviewPolicy host id evidenceDir failing := by
  change (if id ∈ s.running then none else some _) = some t at h
  split at h
  · exact absurd h (by simp)
  · exact (Option.some.inj h).symm

theorem step_ends {id : Nat} {outcome : RunOutcome} {t : Process β} (h : step host s (.ends id outcome) = some t) :
    id ∈ s.running ∧ t = { s with running := s.running.erase id }.release host := by
  change (if id ∈ s.running then some _ else none) = some t at h
  split at h
  · rename_i hmem
    rw [leave_eq_release] at h
    exact ⟨hmem, (Option.some.inj h).symm⟩
  · exact absurd h (by simp)

theorem step_restored (hsettled : Settled was) {e : Event} {t : Process β} (h : Restored host was s)
    (hrecoverable : Recoverable host s e) (hstep : step host s e = some t) : Restored host was t := by
  cases e with
  | call id evidenceDir failing =>
    rw [step_call hstep]
    exact call_restored hsettled h hrecoverable
  | ends id outcome =>
    obtain ⟨hmem, rfl⟩ := step_ends hstep
    obtain ⟨hnone, -⟩ | ⟨users, hlen, hheld⟩ := h
    · rw [hnone] at hmem
      exact absurd hmem List.not_mem_nil
    · apply release_restored hsettled
      have herase : (s.running.erase id).length + 1 = users + 1 := by
        rw [List.length_erase_of_mem hmem]
        omega
      rw [herase]
      exact { activePolicy := hheld.activePolicy, dir := hheld.dir, rewritable := hheld.rewritable }

end

/-- The policy stands while a run goes on, and without one the directory is as it was before the first call. -/
def Process.Restores {β : Type} (host : Host β) (s s₀ : Process β) : Prop :=
  (s.running ≠ [] → s.PolicyInPlace host) ∧ (s.running = [] → s.dir = s₀.dir)

theorem policy_restored {β : Type} (host : Host β) (checkout : Option (Option (StoredFile β) × List String))
    (events : List Event) (s : Process β) (hrecoverable : Along (step host) (Recoverable host) (start checkout) events)
    (hrun : run (step host) (start checkout) events = some s) : s.Restores host (start checkout) := by
  have hsettled : Settled (start checkout).dir := by
    intro d hd
    obtain ⟨c, -, rfl⟩ := Option.map_eq_some_iff.mp hd
    rfl
  have hstart : Restored host (start checkout).dir (start checkout) := Or.inl ⟨rfl, { activePolicy := rfl, dir := rfl }⟩
  have hend : Restored host (start checkout).dir s :=
    hrecoverable.invariant (fun _ _ _ h hC hs => step_restored hsettled h hC hs) hstart hrun
  obtain ⟨hnone, hidle⟩ | ⟨users, hlen, hheld⟩ := hend
  · exact ⟨fun h => absurd hnone h, fun _ => hidle.dir⟩
  · refine ⟨fun _ => hheld.policyInPlace, fun h => ?_⟩
    rw [h] at hlen
    exact absurd hlen (by simp)

/-- Texts as they are, and the mask that lets only the owner write. -/
def plainHost : Host String where
  umask := 0o022
  decode := id
  encode := id

/-- Two calls overlap, a third loses its evidence, and the first run ends in an error. -/
def overlap : List Event :=
  [.call 1 none none, .call 2 none none, .call 3 (some "evidence") (some .renameEvidence), .ends 1 .rejects,
    .ends 2 .returns]

theorem policy_restored_overlap :
    ∃ s, run (step plainHost) (start (some (some ⟨"config", 0o644⟩, ["skills"]))) overlap = some s ∧
      s.Restores plainHost (start (some (some ⟨"config", 0o644⟩, ["skills"]))) := by
  refine ⟨_, rfl, policy_restored plainHost _ overlap _ ?_ rfl⟩
  have hfirst : Recoverable plainHost (start (some (some ⟨"config", 0o644⟩, ["skills"]))) (.call 1 none none) := by
    refine fun _ => ⟨fun _ => rfl, fun _ file hfile => ?_⟩
    obtain rfl := Option.some.inj hfile
    exact { contents := rfl, mode := by decide }
  refine Along.cons hfirst rfl (Along.cons ?_ rfl (Along.cons ?_ rfl (Along.cons trivial rfl (Along.cons trivial rfl trivial))))
  · intro h
    cases h
  · intro h
    cases h

/-- The write of the policy fails in a checkout that had no `.zcode`, and the directory that the call made stays. -/
theorem failed_write_leaves_directory :
    ¬∀ (host : Host String) (checkout : Option (Option (StoredFile String) × List String)) (events : List Event)
      (s : Process String), run (step host) (start checkout) events = some s → s.Restores host (start checkout) := by
  intro h
  have hleft := (h plainHost none [.call 1 none (some .writePolicy)] _ rfl).2 rfl
  exact absurd hleft (by decide)

end NeonDiff.ZCode
