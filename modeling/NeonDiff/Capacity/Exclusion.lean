import NeonDiff.Capacity.Model

/-! # Run leases and the cleanup guard exclude each other -/

namespace NeonDiff.Capacity

open NeonDiff.Lib

/-! ## What the operations leave of the leases -/

section Operations

variable {isProcessAlive : Nat → Bool} {s s' : RunStore} {now : Int}

theorem guard_of_prune {g : WorktreeCleanupGuard}
    (h : (pruneInactiveWorktreeCleanupGuard isProcessAlive now s).guard = some g) : s.guard = some g :=
  (Option.filter_eq_some_iff.mp h).1

theorem prune_of_guard {g : WorktreeCleanupGuard} (hg : s.guard = some g) (halive : isProcessAlive g.ownerPid = true)
    (hnow : now < g.expiresAt) : (pruneInactiveWorktreeCleanupGuard isProcessAlive now s).guard = some g := by
  refine Option.filter_eq_some_iff.mpr ⟨hg, ?_⟩
  rw [halive, Bool.not_true, Bool.or_false, Bool.not_eq_true', decide_eq_false_iff_not]
  exact Int.not_le.mpr hnow

def swept (isProcessAlive : Nat → Bool) (now : Int) (s : RunStore) : RunStore :=
  pruneInactiveWorktreeCleanupGuard isProcessAlive now
    (pruneInactiveReviewRunLeases isProcessAlive { s with leases := s.leases.delete fun row => row.expiresAt ≤ now })

theorem swept_sublist : (swept isProcessAlive now s).leases.rows.Sublist s.leases.rows :=
  List.filter_sublist.trans List.filter_sublist

theorem mem_swept {row : ReviewRunLeaseRow} (hrow : row ∈ s.leases.rows)
    (halive : row.ownerAlive isProcessAlive = true) (hnow : now < row.expiresAt) :
    row ∈ (swept isProcessAlive now s).leases.rows := by
  refine List.mem_filter.mpr ⟨List.mem_filter.mpr ⟨hrow, ?_⟩, ?_⟩
  · rw [Bool.not_eq_true', decide_eq_false_iff_not]
    exact Int.not_le.mpr hnow
  · dsimp only
    rw [halive]
    rfl

theorem tryAcquire_spec {maxActiveRuns leaseTtlMs : Int} {ownerPid : Nat} {leaseId : String}
    {lease : Option ReviewRunLease}
    (h : tryAcquireReviewRunLease isProcessAlive maxActiveRuns leaseTtlMs now ownerPid leaseId s = .ok (lease, s')) :
    (lease = none ∧ s' = swept isProcessAlive now s) ∨
      (lease = some ⟨leaseId, now + leaseTtlMs, ownerPid⟩ ∧ (swept isProcessAlive now s).guard = none ∧
        s'.guard = none ∧ ((swept isProcessAlive now s).leases.rows.length : Int) < maxActiveRuns ∧
        (∀ row ∈ (swept isProcessAlive now s).leases.rows, row.leaseId ≠ leaseId) ∧
        s'.leases.rows = (swept isProcessAlive now s).leases.rows ++
          [⟨leaseId, now, now + leaseTtlMs, some ownerPid⟩]) := by
  unfold tryAcquireReviewRunLease at h
  split at h
  · cases h
  split at h
  · cases h
  split at h
  · cases h
  dsimp only at h
  split at h
  · obtain ⟨rfl, rfl⟩ := Prod.mk.inj (Except.ok.inj h)
    exact Or.inl ⟨rfl, rfl⟩
  · rename_i hguard
    split at h
    · obtain ⟨rfl, rfl⟩ := Prod.mk.inj (Except.ok.inj h)
      exact Or.inl ⟨rfl, rfl⟩
    · rename_i hcount
      split at h
      · cases h
      · rename_i leases hinsert
        obtain ⟨hfree, rfl⟩ := Table.insert?_eq_some.mp hinsert
        obtain ⟨rfl, rfl⟩ := Prod.mk.inj (Except.ok.inj h)
        have hnone : (swept isProcessAlive now s).guard = none := by
          rw [← Option.not_isSome_iff_eq_none]
          exact hguard
        exact Or.inr ⟨rfl, hnone, hnone, Int.not_le.mp hcount, Table.find?_eq_none.mp hfree, rfl⟩

theorem acquireIdleGuard_spec {ownerPid : Nat} :
    ((acquireIdleGuard isProcessAlive now ownerPid s).1 = false ∧
      (acquireIdleGuard isProcessAlive now ownerPid s).2 = pruneInactiveWorktreeCleanupGuard isProcessAlive now s) ∨
    ((acquireIdleGuard isProcessAlive now ownerPid s).1 = true ∧
      (pruneInactiveWorktreeCleanupGuard isProcessAlive now s).guard = none ∧
      (∀ row ∈ s.leases.rows, row.ownerAlive isProcessAlive = false) ∧
      (acquireIdleGuard isProcessAlive now ownerPid s).2 =
        { s with guard := some ⟨ownerPid, now + WORKTREE_CLEANUP_GUARD_TTL_MS⟩ }) := by
  unfold acquireIdleGuard
  dsimp only
  split
  · exact Or.inl ⟨rfl, rfl⟩
  · rename_i hfree
    simp only [Bool.or_eq_true, not_or, Bool.not_eq_true, Option.isSome_eq_false_iff,
      Option.isNone_iff_eq_none] at hfree
    refine Or.inr ⟨rfl, hfree.1, fun row hrow => ?_, rfl⟩
    have hnone := List.any_eq_false.mp (show s.leases.rows.any _ = false from hfree.2) row hrow
    rwa [Bool.not_eq_true] at hnone

end Operations

/-! ## The rows exclude each other -/

structure Excluding (maxActiveRuns : Int) (h : Host) : Prop where
  alone : ∀ g, h.store.guard = some g → ∀ row ∈ h.store.leases.rows, row.ownerAlive h.isAlive = false
  owned : ∀ row ∈ h.store.leases.rows, ∀ pid, row.ownerPid = some pid → h.processes pid ≠ .unborn
  count : h.store.leases.rows.length ≤ maxActiveRuns.toNat

theorem Host.born_of_isAlive {h : Host} {pid : Nat} (halive : h.isAlive pid = true) : h.processes pid ≠ .unborn := by
  have hstatus : h.processes pid = .alive := by simpa [Host.isAlive] using halive
  rw [hstatus]
  exact ProcessStatus.noConfusion

namespace Excluding

variable {maxActiveRuns : Int} {h : Host} {store : RunStore} {granted : Granted}

theorem of_sublist (hex : Excluding maxActiveRuns h) (hrows : store.leases.rows.Sublist h.store.leases.rows)
    (hguard : ∀ g, store.guard = some g → h.store.guard = some g) :
    Excluding maxActiveRuns { h with store := store, granted := granted } where
  alone := by
    intro g hg row hrow
    exact hex.alone g (hguard g hg) row (hrows.subset hrow)
  owned := by
    intro row hrow
    exact hex.owned row (hrows.subset hrow)
  count := Nat.le_trans hrows.length_le hex.count

theorem of_acquired {kept : List ReviewRunLeaseRow} {row : ReviewRunLeaseRow} {pid : Nat}
    (hex : Excluding maxActiveRuns h) (hkept : kept.Sublist h.store.leases.rows)
    (hrows : store.leases.rows = kept ++ [row]) (hguard : store.guard = none)
    (hcount : (kept.length : Int) < maxActiveRuns) (howner : row.ownerPid = some pid) (halive : h.isAlive pid = true) :
    Excluding maxActiveRuns { h with store := store, granted := granted } where
  alone := by
    intro g hg
    have hg : store.guard = some g := hg
    rw [hguard] at hg
    cases hg
  owned := by
    intro r hr p hp
    have hr : r ∈ store.leases.rows := hr
    rw [hrows, List.mem_append, List.mem_singleton] at hr
    obtain hr | rfl := hr
    · exact hex.owned r (hkept.subset hr) p hp
    · obtain rfl := Option.some.inj (howner.symm.trans hp)
      exact Host.born_of_isAlive halive
  count := by
    show store.leases.rows.length ≤ _
    rw [hrows, List.length_append, List.length_singleton]
    omega

theorem exec {pid : Nat} {env : RunEnv} (hex : Excluding maxActiveRuns h) (halive : h.isAlive pid = true)
    (call : RunCall) :
    Excluding maxActiveRuns { h with store := (call.exec maxActiveRuns pid h env).2, granted := granted } := by
  cases call with
  | tryAcquireReviewRunLease leaseTtlMs =>
    cases hr : Capacity.tryAcquireReviewRunLease h.isAlive maxActiveRuns leaseTtlMs env.now pid env.leaseId h.store with
    | error e =>
      simp only [RunCall.exec, hr]
      exact hex.of_sublist (List.Sublist.refl _) fun g hg => hg
    | ok r =>
      obtain ⟨lease, store⟩ := r
      simp only [RunCall.exec, hr]
      obtain ⟨-, rfl⟩ | ⟨-, -, hguard, hcount, -, hrows⟩ := tryAcquire_spec hr
      · exact hex.of_sublist swept_sublist fun g hg => guard_of_prune hg
      · exact hex.of_acquired swept_sublist hrows hguard hcount rfl halive
  | releaseReviewRunLease leaseId => exact hex.of_sublist List.filter_sublist fun g hg => hg
  | hasActiveReviewRunLease => exact hex.of_sublist (List.Sublist.refl _) fun g hg => hg
  | acquireIdleGuard =>
    unfold RunCall.exec
    dsimp only
    obtain ⟨-, hstore⟩ | ⟨-, -, hidle, hstore⟩ := @acquireIdleGuard_spec h.isAlive h.store env.now pid
    · rw [hstore]
      exact hex.of_sublist (List.Sublist.refl _) fun g hg => guard_of_prune hg
    · rw [hstore]
      exact ⟨fun g _ => hidle, hex.owned, hex.count⟩
  | releaseIdleGuard =>
    refine hex.of_sublist (List.Sublist.refl _) fun g hg => ?_
    exact (Option.filter_eq_some_iff.mp hg).1

end Excluding

/-! ## The grants stand in the rows -/

/-- A grant whose owner lives and whose time is not up. -/
def Host.current (h : Host) (ownerPid : Nat) (expiresAt : Int) : Bool := h.isAlive ownerPid && h.clock < expiresAt

def Host.leaseCurrent (h : Host) (lease : ReviewRunLease) : Bool := h.current lease.ownerPid lease.expiresAt

def Host.guardCurrent (h : Host) (g : WorktreeCleanupGuard) : Bool := h.current g.ownerPid g.expiresAt

theorem Host.current_iff {h : Host} {ownerPid : Nat} {expiresAt : Int} :
    h.current ownerPid expiresAt = true ↔ h.isAlive ownerPid = true ∧ h.clock < expiresAt := by
  unfold Host.current
  rw [Bool.and_eq_true, decide_eq_true_eq]

def StandsFor (row : ReviewRunLeaseRow) (lease : ReviewRunLease) : Prop :=
  row.leaseId = lease.leaseId ∧ row.expiresAt = lease.expiresAt ∧ row.ownerPid = some lease.ownerPid

theorem StandsFor.ownerAlive {row : ReviewRunLeaseRow} {lease : ReviewRunLease} (hrow : StandsFor row lease)
    (isProcessAlive : Nat → Bool) : row.ownerAlive isProcessAlive = isProcessAlive lease.ownerPid := by
  rw [ReviewRunLeaseRow.ownerAlive, hrow.2.2, Option.any_some]

structure Backed (h : Host) : Prop where
  lease : ∀ lease ∈ h.granted.leases, h.leaseCurrent lease = true → ∃ row ∈ h.store.leases.rows, StandsFor row lease
  apart : ((h.granted.leases.filter h.leaseCurrent).map ReviewRunLease.leaseId).Nodup
  guard : ∀ g ∈ h.granted.guards, h.guardCurrent g = true → h.store.guard = some g
  one : h.granted.guards.countP h.guardCurrent ≤ 1
  leaseBorn : ∀ lease ∈ h.granted.leases, h.processes lease.ownerPid ≠ .unborn
  guardBorn : ∀ g ∈ h.granted.guards, h.processes g.ownerPid ≠ .unborn

namespace Backed

variable {h : Host} {store : RunStore}

theorem of_kept (hb : Backed h)
    (hleases : ∀ row ∈ h.store.leases.rows, row.ownerAlive h.isAlive = true → h.clock < row.expiresAt →
      row ∈ store.leases.rows)
    (hguard : ∀ g, h.store.guard = some g → h.guardCurrent g = true → store.guard = some g) :
    Backed { h with store := store } where
  lease := by
    intro lease hlease hcurrent
    obtain ⟨row, hrow, hstands⟩ := hb.lease lease hlease hcurrent
    obtain ⟨halive, hclock⟩ := Host.current_iff.mp hcurrent
    exact ⟨row, hleases row hrow (hstands.ownerAlive _ ▸ halive) (hstands.2.1 ▸ hclock), hstands⟩
  apart := hb.apart
  guard := by
    intro g hg hcurrent
    exact hguard g (hb.guard g hg hcurrent) hcurrent
  one := hb.one
  leaseBorn := hb.leaseBorn
  guardBorn := hb.guardBorn

theorem of_swept {now : Int} (hb : Backed h) (hnow : now ≤ h.clock) :
    Backed { h with store := swept h.isAlive now h.store } := by
  refine hb.of_kept (fun row hrow halive hclock => mem_swept hrow halive (by omega)) fun g hg hcurrent => ?_
  obtain ⟨halive, hclock⟩ := Host.current_iff.mp hcurrent
  exact prune_of_guard hg halive (by omega)

theorem guard_not_current {now : Int} (hb : Backed h) (hnow : now ≤ h.clock)
    (hnone : (pruneInactiveWorktreeCleanupGuard h.isAlive now h.store).guard = none) :
    ∀ g ∈ h.granted.guards, h.guardCurrent g = false := by
  intro g hg
  by_contra hcurrent
  rw [Bool.not_eq_false] at hcurrent
  obtain ⟨halive, hclock⟩ := Host.current_iff.mp hcurrent
  rw [prune_of_guard (hb.guard g hg hcurrent) halive (by omega)] at hnone
  cases hnone

theorem of_acquired {lease : ReviewRunLease} {row : ReviewRunLeaseRow} (hb : Backed h)
    (hidle : ∀ g ∈ h.granted.guards, h.guardCurrent g = false)
    (hrows : store.leases.rows = h.store.leases.rows ++ [row])
    (hfresh : ∀ r ∈ h.store.leases.rows, r.leaseId ≠ row.leaseId)
    (hstands : StandsFor row lease) (halive : h.isAlive lease.ownerPid = true) :
    Backed { h with store := store, granted := { h.granted with leases := h.granted.leases ++ [lease] } } where
  lease := by
    intro l hl hcurrent
    have hrow : ∀ r, r ∈ h.store.leases.rows ++ [row] → r ∈ store.leases.rows := fun r hr => hrows ▸ hr
    obtain hl | hl := List.mem_append.mp hl
    · obtain ⟨r, hr, hfor⟩ := hb.lease l hl hcurrent
      exact ⟨r, hrow r (List.mem_append_left _ hr), hfor⟩
    · obtain rfl := List.mem_singleton.mp hl
      exact ⟨row, hrow row (List.mem_append_right _ List.mem_cons_self), hstands⟩
  apart := by
    show (((h.granted.leases ++ [lease]).filter h.leaseCurrent).map ReviewRunLease.leaseId).Nodup
    rw [List.filter_append, List.map_append, List.nodup_append]
    refine ⟨hb.apart, List.Nodup.map_on ?_ ?_, ?_⟩
    · intro a ha b hb' _
      have ha' := List.mem_singleton.mp (List.mem_of_mem_filter ha)
      have hb'' := List.mem_singleton.mp (List.mem_of_mem_filter hb')
      rw [ha', hb'']
    · exact (List.nodup_singleton lease).filter _
    · intro x hx y hy heq
      obtain ⟨old, hold, rfl⟩ := List.mem_map.mp hx
      obtain ⟨new, hnew, rfl⟩ := List.mem_map.mp hy
      obtain ⟨hmem, hcurrent⟩ := List.mem_filter.mp hold
      obtain rfl := List.mem_singleton.mp (List.mem_of_mem_filter hnew)
      obtain ⟨r, hr, hfor⟩ := hb.lease old hmem hcurrent
      exact hfresh r hr (hfor.1.trans (heq.trans hstands.1.symm))
  guard := by
    intro g hg hcurrent
    have hover := hidle g hg
    rw [show h.guardCurrent g = true from hcurrent] at hover
    cases hover
  one := hb.one
  leaseBorn := by
    intro l hl
    obtain hl | hl := List.mem_append.mp hl
    · exact hb.leaseBorn l hl
    · obtain rfl := List.mem_singleton.mp hl
      exact Host.born_of_isAlive halive
  guardBorn := hb.guardBorn

theorem of_released (hb : Backed h) (leaseId : String) :
    Backed { h with
      store := releaseReviewRunLease leaseId h.store
      granted := { h.granted with leases := h.granted.leases.filter fun lease => lease.leaseId ≠ leaseId } } where
  lease := by
    intro lease hlease hcurrent
    obtain ⟨hmem, hother⟩ := List.mem_filter.mp hlease
    obtain ⟨row, hrow, hstands⟩ := hb.lease lease hmem hcurrent
    refine ⟨row, List.mem_filter.mpr ⟨hrow, ?_⟩, hstands⟩
    dsimp only
    rw [hstands.1, Bool.not_eq_true', decide_eq_false_iff_not]
    exact of_decide_eq_true hother
  apart := by
    refine hb.apart.sublist (List.Sublist.map _ ?_)
    exact List.filter_sublist.filter h.leaseCurrent
  guard := hb.guard
  one := hb.one
  leaseBorn := fun lease hlease => hb.leaseBorn lease (List.mem_of_mem_filter hlease)
  guardBorn := hb.guardBorn

theorem of_guarded {g : WorktreeCleanupGuard} (hb : Backed h)
    (hidle : ∀ g ∈ h.granted.guards, h.guardCurrent g = false) (halive : h.isAlive g.ownerPid = true) :
    Backed { h with
      store := { h.store with guard := some g }
      granted := { h.granted with guards := h.granted.guards ++ [g] } } where
  lease := hb.lease
  apart := hb.apart
  guard := by
    intro other hother hcurrent
    obtain hother | hother := List.mem_append.mp hother
    · have hover := hidle other hother
      rw [show h.guardCurrent other = true from hcurrent] at hover
      cases hover
    · rw [List.mem_singleton.mp hother]
  one := by
    have hnone : h.granted.guards.countP h.guardCurrent = 0 := by
      rw [List.countP_eq_zero]
      intro other hother hcurrent
      rw [hidle other hother] at hcurrent
      cases hcurrent
    show (h.granted.guards ++ [g]).countP h.guardCurrent ≤ 1
    rw [List.countP_append, hnone, Nat.zero_add]
    exact List.countP_le_length
  leaseBorn := hb.leaseBorn
  guardBorn := by
    intro other hother
    obtain hother | hother := List.mem_append.mp hother
    · exact hb.guardBorn other hother
    · rw [List.mem_singleton.mp hother]
      exact Host.born_of_isAlive halive

theorem of_guardReleased (hb : Backed h) (pid : Nat) :
    Backed { h with
      store := releaseIdleGuard pid h.store
      granted := { h.granted with guards := h.granted.guards.filter fun g => g.ownerPid ≠ pid } } where
  lease := hb.lease
  apart := hb.apart
  guard := by
    intro g hg hcurrent
    obtain ⟨hmem, hother⟩ := List.mem_filter.mp hg
    exact Option.filter_eq_some_iff.mpr ⟨hb.guard g hmem hcurrent, hother⟩
  one := Nat.le_trans (List.filter_sublist.countP_le) hb.one
  leaseBorn := hb.leaseBorn
  guardBorn := fun g hg => hb.guardBorn g (List.mem_of_mem_filter hg)

theorem exec {maxActiveRuns : Int} {pid : Nat} {env : RunEnv} (hb : Backed h) (halive : h.isAlive pid = true)
    (hnow : env.now ≤ h.clock) (call : RunCall) :
    Backed { h with
      store := (call.exec maxActiveRuns pid h env).2
      granted := h.granted.after pid env call (call.exec maxActiveRuns pid h env).1 } := by
  cases call with
  | tryAcquireReviewRunLease leaseTtlMs =>
    cases hr : Capacity.tryAcquireReviewRunLease h.isAlive maxActiveRuns leaseTtlMs env.now pid env.leaseId h.store with
    | error e =>
      simp only [RunCall.exec, hr]
      exact hb
    | ok r =>
      obtain ⟨lease, store⟩ := r
      simp only [RunCall.exec, hr]
      obtain ⟨rfl, rfl⟩ | ⟨rfl, hnone, -, -, hfresh, hrows⟩ := tryAcquire_spec hr
      · exact hb.of_swept hnow
      · exact (hb.of_swept hnow).of_acquired (hb.guard_not_current hnow hnone) hrows hfresh ⟨rfl, rfl, rfl⟩ halive
  | releaseReviewRunLease leaseId => exact hb.of_released leaseId
  | hasActiveReviewRunLease => exact hb
  | acquireIdleGuard =>
    unfold RunCall.exec
    dsimp only
    obtain ⟨hanswer, hstore⟩ | ⟨hanswer, hnone, -, hstore⟩ := @acquireIdleGuard_spec h.isAlive h.store env.now pid
    · rw [hstore, hanswer]
      refine hb.of_kept (fun row hrow _ _ => hrow) fun g hg hcurrent => ?_
      obtain ⟨hlives, hclock⟩ := Host.current_iff.mp hcurrent
      exact prune_of_guard hg hlives (by omega)
    · rw [hstore, hanswer]
      exact hb.of_guarded (hb.guard_not_current hnow hnone) halive
  | releaseIdleGuard => exact hb.of_guardReleased pid

theorem of_processes {processes : Nat → ProcessStatus} {clock : Int} (hb : Backed h) (hclock : h.clock ≤ clock)
    (halive : ∀ pid, processes pid = .alive → h.processes pid = .alive ∨ h.processes pid = .unborn)
    (hunborn : ∀ pid, processes pid = .unborn → h.processes pid = .unborn) :
    Backed { h with processes := processes, clock := clock } := by
  have hstill : ∀ pid expiresAt, h.processes pid ≠ .unborn →
      Host.current { h with processes := processes, clock := clock } pid expiresAt = true →
      h.current pid expiresAt = true := by
    intro pid expiresAt hborn hcurrent
    obtain ⟨hlives, hruns⟩ := Host.current_iff.mp hcurrent
    have hnow : processes pid = .alive := by simpa [Host.isAlive] using hlives
    refine Host.current_iff.mpr ⟨?_, Int.lt_of_le_of_lt hclock hruns⟩
    simpa [Host.isAlive] using (halive pid hnow).resolve_right hborn
  have hleases : ∀ lease ∈ h.granted.leases,
      Host.leaseCurrent { h with processes := processes, clock := clock } lease = true → h.leaseCurrent lease = true :=
    fun lease hlease => hstill _ _ (hb.leaseBorn lease hlease)
  have hguards : ∀ g ∈ h.granted.guards,
      Host.guardCurrent { h with processes := processes, clock := clock } g = true → h.guardCurrent g = true :=
    fun g hg => hstill _ _ (hb.guardBorn g hg)
  constructor
  case lease =>
    intro lease hlease hcurrent
    exact hb.lease lease hlease (hleases lease hlease hcurrent)
  case apart =>
    refine hb.apart.sublist (List.Sublist.map _ ?_)
    have hfewer : h.granted.leases.filter (Host.leaseCurrent { h with processes := processes, clock := clock }) =
        (h.granted.leases.filter h.leaseCurrent).filter
          (Host.leaseCurrent { h with processes := processes, clock := clock }) := by
      rw [List.filter_filter]
      refine List.filter_congr fun lease hlease => ?_
      rw [Bool.eq_iff_iff, Bool.and_eq_true]
      exact ⟨fun hcurrent => ⟨hcurrent, hleases lease hlease hcurrent⟩, And.left⟩
    show (h.granted.leases.filter _).Sublist _
    rw [hfewer]
    exact List.filter_sublist
  case guard =>
    intro g hg hcurrent
    exact hb.guard g hg (hguards g hg hcurrent)
  case one =>
    refine Nat.le_trans (List.countP_mono_left fun g hg hcurrent => ?_) hb.one
    exact hguards g hg hcurrent
  case leaseBorn =>
    intro lease hlease hnow
    exact hb.leaseBorn lease hlease (hunborn _ hnow)
  case guardBorn =>
    intro g hg hnow
    exact hb.guardBorn g hg (hunborn _ hnow)

theorem countP_le (hb : Backed h) : h.granted.leases.countP h.leaseCurrent ≤ h.store.leases.rows.length := by
  rw [List.countP_eq_length_filter, ← List.length_map ReviewRunLease.leaseId,
    ← List.length_map ReviewRunLeaseRow.leaseId]
  refine (List.subperm_of_subset hb.apart fun id hid => ?_).length_le
  obtain ⟨lease, hlease, rfl⟩ := List.mem_map.mp hid
  obtain ⟨hmem, hcurrent⟩ := List.mem_filter.mp hlease
  obtain ⟨row, hrow, hstands⟩ := hb.lease lease hmem hcurrent
  rw [← hstands.1]
  exact List.mem_map_of_mem hrow

end Backed

/-! ## Runs -/

section Runs

variable {maxActiveRuns : Int} {α : Type} {h h' : Host}

/-- The rows exclude each other, and the grants stand in them. -/
structure Sound (maxActiveRuns : Int) (h : Host) : Prop where
  excluding : Excluding maxActiveRuns h
  backed : Backed h

theorem Excluding.of_processes {processes : Nat → ProcessStatus} {clock : Int} (hex : Excluding maxActiveRuns h)
    (halive : ∀ pid, processes pid = .alive → h.processes pid = .alive ∨ h.processes pid = .unborn)
    (hunborn : ∀ pid, processes pid = .unborn → h.processes pid = .unborn) :
    Excluding maxActiveRuns { h with processes := processes, clock := clock } where
  alone := by
    intro g hg row hrow
    have hdead := hex.alone g hg row hrow
    cases hp : row.ownerPid with
    | none => simp [ReviewRunLeaseRow.ownerAlive, hp]
    | some pid =>
      have hborn := hex.owned row hrow pid hp
      have hold : h.processes pid ≠ .alive := by simpa [ReviewRunLeaseRow.ownerAlive, hp, Host.isAlive] using hdead
      have : processes pid ≠ .alive := fun hnow => (halive pid hnow).elim hold hborn
      simpa [ReviewRunLeaseRow.ownerAlive, hp, Host.isAlive] using this
  owned := by
    intro row hrow pid hp hnow
    exact hex.owned row hrow pid hp (hunborn pid hnow)
  count := hex.count

theorem Sound.of_processes {processes : Nat → ProcessStatus} {clock : Int} (hs : Sound maxActiveRuns h)
    (hclock : h.clock ≤ clock)
    (halive : ∀ pid, processes pid = .alive → h.processes pid = .alive ∨ h.processes pid = .unborn)
    (hunborn : ∀ pid, processes pid = .unborn → h.processes pid = .unborn) :
    Sound maxActiveRuns { h with processes := processes, clock := clock } :=
  ⟨hs.excluding.of_processes halive hunborn, hs.backed.of_processes hclock halive hunborn⟩

theorem Sound.ambient {t : HostEvent} (hs : Sound maxActiveRuns h)
    (ht : (runSemantics maxActiveRuns).ambient t h = some h') : Sound maxActiveRuns h' := by
  cases t with
  | tick ms =>
    obtain rfl := Option.some.inj ht
    exact hs.of_processes (by omega) (fun _ hp => Or.inl hp) fun _ hp => hp
  | start pid =>
    simp only [runSemantics, Option.ite_none_right_eq_some, Option.some.injEq] at ht
    obtain ⟨hunborn, rfl⟩ := ht
    apply hs.of_processes (Int.le_refl _)
    · intro p hp
      by_cases hpp : p = pid
      · exact Or.inr (hpp ▸ hunborn)
      · exact Or.inl (by simpa [Function.update, hpp] using hp)
    · intro p hp
      by_cases hpp : p = pid <;> simp [Function.update, hpp] at hp
      exact hp
  | die pid =>
    simp only [runSemantics, Option.ite_none_right_eq_some, Option.some.injEq] at ht
    obtain ⟨-, rfl⟩ := ht
    apply hs.of_processes (Int.le_refl _)
    · intro p hp
      by_cases hpp : p = pid <;> simp [Function.update, hpp] at hp
      exact Or.inl hp
    · intro p hp
      by_cases hpp : p = pid <;> simp [Function.update, hpp] at hp
      exact hp

theorem sound_step {w w' : World RunAnswer String α Nat Host} {l : Label Nat RunEnv HostEvent}
    (hs : Sound maxActiveRuns w.shared) (hstep : w.step (runSemantics maxActiveRuns) l = some w') :
    Sound maxActiveRuns w'.shared := by
  cases l with
  | act pid env =>
    obtain ⟨call, k, r, h', -, hexec, rfl⟩ := World.act_cases hstep
    simp only [runSemantics, Option.ite_none_right_eq_some, Bool.and_eq_true, Option.some.injEq, Prod.mk.injEq] at hexec
    obtain ⟨⟨halive, hnow⟩, -, rfl⟩ := hexec
    exact ⟨hs.excluding.exec halive call, hs.backed.exec halive (of_decide_eq_true hnow) call⟩
  | ambient t =>
    obtain ⟨h', hamb, rfl⟩ := World.ambient_cases hstep
    exact hs.ambient hamb

/-- A lease row whose owner lives and whose time is not up. -/
def Host.leaseHeld (h : Host) (row : ReviewRunLeaseRow) : Bool := row.ownerAlive h.isAlive && h.clock < row.expiresAt

def Host.guardHeld (h : Host) : Bool := h.store.guard.any h.guardCurrent

/-- The exclusion, and the bounds, of the leases and guards that calls granted and nobody gave back. -/
structure GrantsExclude (maxActiveRuns : Int) (h : Host) : Prop where
  alone : ∀ g ∈ h.granted.guards, h.guardCurrent g = true → ∀ lease ∈ h.granted.leases, h.leaseCurrent lease = false
  leases : h.granted.leases.countP h.leaseCurrent ≤ maxActiveRuns.toNat
  guards : h.granted.guards.countP h.guardCurrent ≤ 1

theorem Sound.grantsExclude (hs : Sound maxActiveRuns h) : GrantsExclude maxActiveRuns h where
  alone := by
    intro g hg hguard lease hlease
    by_contra hcurrent
    rw [Bool.not_eq_false] at hcurrent
    obtain ⟨row, hrow, hstands⟩ := hs.backed.lease lease hlease hcurrent
    have hdead := hs.excluding.alone g (hs.backed.guard g hg hguard) row hrow
    rw [hstands.ownerAlive, (Host.current_iff.mp hcurrent).1] at hdead
    cases hdead
  leases := Nat.le_trans hs.backed.countP_le hs.excluding.count
  guards := hs.backed.one

/-- Whatever the processes run, and however their calls, deaths and the clock interleave. -/
theorem idleGuard_excludes_runLeases (progs : Nat → RunProg α) (clock : Int) (processes : Nat → ProcessStatus)
    (labels : List (Label Nat RunEnv HostEvent)) (w : World RunAnswer String α Nat Host)
    (hrun : run (World.step (runSemantics maxActiveRuns)) ⟨{ clock, processes }, progs⟩ labels = some w) :
    (w.shared.guardHeld = true → ∀ row ∈ w.shared.store.leases.rows, w.shared.leaseHeld row = false) ∧
    w.shared.store.leases.rows.countP w.shared.leaseHeld ≤ maxActiveRuns.toNat ∧
    GrantsExclude maxActiveRuns w.shared := by
  have hinit : Sound maxActiveRuns { clock, processes } := by
    constructor
    · refine ⟨?_, ?_, Nat.zero_le _⟩
      · intro g hg
        cases hg
      · intro row hrow
        cases hrow
    · refine ⟨?_, List.nodup_nil, ?_, Nat.zero_le _, ?_, ?_⟩
      · intro lease hlease
        cases hlease
      · intro g hg
        cases hg
      · intro lease hlease
        cases hlease
      · intro g hg
        cases hg
  have hs : Sound maxActiveRuns w.shared :=
    run_invariant (I := fun w => Sound maxActiveRuns w.shared) (fun _ _ _ hw hstep => sound_step hw hstep) hinit hrun
  refine ⟨fun hheld row hrow => ?_, ?_, hs.grantsExclude⟩
  · obtain ⟨g, hg, -⟩ := (Option.any_eq_true _ _).mp hheld
    simp [Host.leaseHeld, hs.excluding.alone g hg row hrow]
  · exact Nat.le_trans List.countP_le_length hs.excluding.count

end Runs

/-- Process 1 dies with its lease, process 2 then cleans up, and process 3 asks for a lease in between. -/
def cleanupAfterCrash : Nat → RunProg Unit
  | 1 => .call (.tryAcquireReviewRunLease 1000) fun _ => .done ()
  | 2 => (runWithExclusiveReviewIdleGuard (.done ())).bind fun _ => .done ()
  | 3 => .call (.tryAcquireReviewRunLease 1000) fun _ => .done ()
  | _ => .done ()

def crashLabels : List (Label Nat RunEnv HostEvent) :=
  [.act 1 ⟨0, "lease"⟩, .ambient (.tick 5), .ambient (.die 1), .act 2 ⟨3, "unused"⟩, .act 3 ⟨4, "refused"⟩]

/-- The guard of process 2 is current, and of the two leases asked for one is dead and the other was not granted. -/
theorem idleGuard_excludes_runLeases_crash :
    ∃ w, run (World.step (runSemantics 1)) ⟨{ clock := 0, processes := fun _ => .alive }, cleanupAfterCrash⟩
        crashLabels = some w ∧ w.shared.guardHeld = true ∧
      w.shared.granted.guards.countP w.shared.guardCurrent = 1 ∧
      w.shared.granted.leases.map ReviewRunLease.leaseId = ["lease"] ∧
      (∀ row ∈ w.shared.store.leases.rows, w.shared.leaseHeld row = false) ∧
      w.shared.store.leases.rows.countP w.shared.leaseHeld ≤ 1 ∧ GrantsExclude 1 w.shared := by
  refine ⟨_, rfl, rfl, rfl, rfl, ?_⟩
  have hsound := @idleGuard_excludes_runLeases 1 _ cleanupAfterCrash 0 (fun _ => .alive) crashLabels _ rfl
  exact ⟨hsound.1 rfl, hsound.2⟩

end NeonDiff.Capacity
