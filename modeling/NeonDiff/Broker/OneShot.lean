import NeonDiff.Lib.History
import NeonDiff.Broker.Connect

/-! # Connect states are one-shot

Every event of a history is allowed by the events before it. The store's rows say the same of their states as the
history does, and that carries the invariant from step to step.
-/

namespace NeonDiff.Broker

open NeonDiff.Lib

/-! ## Allowed histories -/

def creates (key : StateKey) : ConnectEvent → Prop
  | .created k _ _ => k = key
  | _ => False

/-- A use of the state: its consumption, or the binding made from it. -/
def usesState (key : StateKey) : ConnectEvent → Prop
  | .consumed k _ _ => k = key
  | .bound k _ _ _ => k = key
  | _ => False

def latest (key : StateKey) : List ConnectEvent → Option (String × Int)
  | [] => none
  | .created k deviceId expiresAt :: older => if k = key then some (deviceId, expiresAt) else latest key older
  | _ :: older => latest key older

/-- `timely` asks for the expiry too. -/
def Allowed (timely : Prop) : ConnectEvent → List ConnectEvent → Prop
  | .created .., _ => True
  | .proven .., _ => True
  | .consumed key _ clock, older => Unused (creates key) (usesState key) older ∧
      ∃ deviceId expiresAt, latest key older = some (deviceId, expiresAt) ∧ (timely → clock < expiresAt)
  | .bound key request deviceId identity, older => (∃ clock rest, older = .consumed key request clock :: rest) ∧
      (∃ expiresAt, latest key older = some (deviceId, expiresAt)) ∧ .proven request identity ∈ older

/-- What a row says of its state. -/
structure Recorded (history : List ConnectEvent) (key : StateKey) (deviceId : String) (expiresAt : Int)
    (consumedAt : Option Int) : Prop where
  latest : latest key history = some (deviceId, expiresAt)
  unused : consumedAt = none → Unused (creates key) (usesState key) history

/-- An event that is about another state, or about none. -/
def Elsewhere (key : StateKey) (event : ConnectEvent) : Prop := ¬creates key event ∧ ¬usesState key event

theorem latest_cons {key : StateKey} {event : ConnectEvent} {history : List ConnectEvent} (h : ¬creates key event) :
    latest key (event :: history) = latest key history := by
  cases event with
  | created k deviceId expiresAt => exact if_neg h
  | proven => rfl
  | consumed => rfl
  | bound => rfl

theorem Recorded.cons {history : List ConnectEvent} {key : StateKey} {deviceId : String} {expiresAt : Int}
    {consumedAt : Option Int} {event : ConnectEvent} (h : Recorded history key deviceId expiresAt consumedAt)
    (he : Elsewhere key event) : Recorded (event :: history) key deviceId expiresAt consumedAt where
  latest := (latest_cons he.1).trans h.latest
  unused hnone := (h.unused hnone).cons he.2

theorem recorded_created (history : List ConnectEvent) (key : StateKey) (deviceId : String) (expiresAt : Int) :
    Recorded (.created key deviceId expiresAt :: history) key deviceId expiresAt none where
  latest := if_pos rfl
  unused _ := Or.inl rfl

theorem Recorded.use {history : List ConnectEvent} {key : StateKey} {deviceId : String} {expiresAt clock now : Int}
    {consumedAt : Option Int} {request : Nat} {identity : Identity}
    (h : Recorded history key deviceId expiresAt consumedAt) :
    Recorded (.bound key request deviceId identity :: .consumed key request clock :: history) key deviceId expiresAt
      (some now) where
  latest := h.latest
  unused hnone := nomatch hnone

theorem allowed_use {timely : Prop} {history : List ConnectEvent} {key : StateKey} {deviceId : String}
    {expiresAt clock : Int} {request : Nat} {identity : Identity} (heach : Each (Allowed timely) history)
    (h : Recorded history key deviceId expiresAt none) (htimely : timely → clock < expiresAt)
    (hproven : .proven request identity ∈ history) :
    Each (Allowed timely) (.bound key request deviceId identity :: .consumed key request clock :: history) := by
  have hlatest : latest key (.consumed key request clock :: history) = some (deviceId, expiresAt) := h.latest
  refine ⟨⟨⟨clock, history, rfl⟩, ⟨expiresAt, hlatest⟩, List.mem_cons_of_mem _ hproven⟩, ?_, heach⟩
  exact ⟨h.unused rfl, deviceId, expiresAt, h.latest, htimely⟩

/-! ## The shared state -/

structure SharedInv (timely : Prop) (s : Shared) : Prop where
  allowed : Each (Allowed timely) s.history
  github : ∀ row ∈ s.store.connectStates.rows,
    Recorded s.history (.github row.state) row.deviceId row.expiresAt row.consumedAt
  account : ∀ row ∈ s.store.accountConnectStates.rows,
    Recorded s.history (.account row.stateHash) row.deviceId row.expiresAt row.consumedAt

def Stands (s : Shared) (state : String) (stored : ConnectStateRow) : Prop :=
  ∃ row, s.store.getConnectState state = some row ∧ row.deviceId = stored.deviceId ∧ row.expiresAt = stored.expiresAt

/-- What a step leaves to the other requests. -/
structure Grows (s s' : Shared) : Prop where
  proven : ∀ request identity, .proven request identity ∈ s.history → .proven request identity ∈ s'.history
  stands : ∀ state stored, Stands s state stored → Stands s' state stored

theorem Grows.refl (s : Shared) : Grows s s := ⟨fun _ _ h => h, fun _ _ h => h⟩

theorem Grows.trans {s t u : Shared} (h : Grows s t) (h' : Grows t u) : Grows s u where
  proven _ _ hp := h'.proven _ _ (h.proven _ _ hp)
  stands _ _ hs := h'.stands _ _ (h.stands _ _ hs)

/-- What a request knows while it waits. -/
def TaskOk (i : Nat) (s : Shared) : Task → Prop
  | .callbackProving _ state stored _ _ => Stands s state stored
  | .callbackResolving _ state stored installationId _ =>
    Stands s state stored ∧ .proven i (.installation installationId) ∈ s.history
  | .existingProving _ deviceId request stored => Stands s request.state stored ∧ stored.deviceId = deviceId
  | .existingResolving _ deviceId request stored _ => Stands s request.state stored ∧ stored.deviceId = deviceId ∧
      .proven i (.installation request.installationId) ∈ s.history
  | _ => True

theorem TaskOk.grows {i : Nat} {s s' : Shared} {task : Task} (h : TaskOk i s task) (hgrows : Grows s s') :
    TaskOk i s' task := by
  cases task with
  | callbackProving => exact hgrows.stands _ _ h
  | callbackResolving => exact ⟨hgrows.stands _ _ h.1, hgrows.proven _ _ h.2⟩
  | existingProving => exact ⟨hgrows.stands _ _ h.1, h.2⟩
  | existingResolving => exact ⟨hgrows.stands _ _ h.1, h.2.1, hgrows.proven _ _ h.2.2⟩
  | _ => trivial

/-- The outcome of a step of request `i` from `s`. -/
structure Fine (timely : Prop) (i : Nat) (s : Shared) (outcome : Task × Shared) : Prop where
  inv : SharedInv timely outcome.2
  grows : Grows s outcome.2
  task : TaskOk i outcome.2 outcome.1

/-! ## Steps that use no state -/

/-- Nothing happens to the states and to the history. -/
structure Quiet (s s' : Shared) : Prop where
  github : s'.store.connectStates = s.store.connectStates
  account : s'.store.accountConnectStates = s.store.accountConnectStates
  history : s'.history = s.history

theorem Quiet.trans {s t u : Shared} (h : Quiet s t) (h' : Quiet t u) : Quiet s u :=
  ⟨h'.github.trans h.github, h'.account.trans h.account, h'.history.trans h.history⟩

theorem quiet_touchDevice (s : Shared) (deviceId : String) (now : Int) : Quiet s (s.touchDevice deviceId now) :=
  ⟨rfl, rfl, rfl⟩

theorem quiet_allowConnect (s : Shared) (key : String) (now : Int) : Quiet s (s.allowConnect key now).2 :=
  ⟨rfl, rfl, rfl⟩

theorem quiet_allowAccountConnect (s : Shared) (key : String) (now : Int) :
    Quiet s (s.allowAccountConnect key now).2 := ⟨rfl, rfl, rfl⟩

theorem quiet_allowAccountComplete (s : Shared) (key : String) (now : Int) :
    Quiet s (s.allowAccountComplete key now).2 := ⟨rfl, rfl, rfl⟩

section
variable {timely : Prop} {s s' : Shared} {i : Nat}

theorem SharedInv.quiet (hs : SharedInv timely s) (h : Quiet s s') : SharedInv timely s' where
  allowed := h.history ▸ hs.allowed
  github := by
    rw [h.github, h.history]
    exact hs.github
  account := by
    rw [h.account, h.history]
    exact hs.account

theorem Quiet.grows (h : Quiet s s') : Grows s s' where
  proven request identity hp := h.history ▸ hp
  stands state stored hs := by
    unfold Stands ConnectStore.getConnectState at hs ⊢
    rw [h.github]
    exact hs

theorem SharedInv.proven (hs : SharedInv timely s) (request : Nat) (identity : Identity) :
    SharedInv timely (s.record (.proven request identity)) where
  allowed := ⟨trivial, hs.allowed⟩
  github row hrow := (hs.github row hrow).cons ⟨id, id⟩
  account row hrow := (hs.account row hrow).cons ⟨id, id⟩

theorem grows_record (s : Shared) (event : ConnectEvent) : Grows s (s.record event) where
  proven _ _ hp := List.mem_cons_of_mem _ hp
  stands _ _ hs := hs

/-! ## New states -/

theorem SharedInv.createConnectState {state deviceId : String} {createdAt expiresAt : Int} (hs : SharedInv timely s)
    (h : s.createConnectState state deviceId createdAt expiresAt = some s') : SharedInv timely s' ∧ Grows s s' := by
  obtain ⟨store, hstore, rfl⟩ := Option.map_eq_some_iff.mp h
  obtain ⟨states, hinsert, rfl⟩ := Option.map_eq_some_iff.mp hstore
  obtain ⟨hfree, rfl⟩ := Table.insert?_eq_some.mp hinsert
  refine ⟨⟨⟨trivial, hs.allowed⟩, ?_, ?_⟩, ⟨fun _ _ hp => List.mem_cons_of_mem _ hp, ?_⟩⟩
  · intro row hrow
    rcases List.mem_append.mp hrow with hrow | hrow
    · have hne : state ≠ row.state := fun he => Table.find?_eq_none.mp hfree row hrow he.symm
      exact (hs.github row hrow).cons ⟨fun he => hne (StateKey.github.inj he), id⟩
    · rw [List.mem_singleton.mp hrow]
      exact recorded_created ..
  · intro row hrow
    exact (hs.account row hrow).cons ⟨fun he => StateKey.noConfusion he, id⟩
  · rintro other stored ⟨row, hfind, hrow⟩
    refine ⟨row, ?_, hrow⟩
    have hne : state ≠ other := by
      rintro rfl
      rw [ConnectStore.getConnectState, hfree] at hfind
      cases hfind
    show (Table.append _ _ hfree).find? other = some row
    rw [Table.find?_append, if_neg hne]
    exact hfind

theorem SharedInv.createAccountConnectState {stateHash deviceId : String} {createdAt expiresAt : Int} {created : Bool}
    (hs : SharedInv timely s)
    (h : s.createAccountConnectState stateHash deviceId createdAt expiresAt = (created, s')) :
    SharedInv timely s' ∧ Grows s s' := by
  have hswept : ∀ row ∈ (s.store.accountConnectStates.delete (ConnectStore.isSwept createdAt)).rows,
      Recorded s.history (.account row.stateHash) row.deviceId row.expiresAt row.consumedAt :=
    fun row hrow => hs.account row (Table.mem_delete.mp hrow).1
  unfold Shared.createAccountConnectState ConnectStore.createAccountConnectState at h
  dsimp only at h
  cases hinsert : (s.store.accountConnectStates.delete (ConnectStore.isSwept createdAt)).insert?
      { stateHash, deviceId, createdAt, expiresAt } with
  | none =>
    rw [hinsert] at h
    cases h
    exact ⟨⟨hs.allowed, hs.github, hswept⟩, ⟨fun _ _ hp => hp, fun _ _ hstands => hstands⟩⟩
  | some states =>
    rw [hinsert] at h
    cases h
    obtain ⟨hfree, rfl⟩ := Table.insert?_eq_some.mp hinsert
    refine ⟨⟨⟨trivial, hs.allowed⟩, ?_, ?_⟩, ⟨fun _ _ hp => List.mem_cons_of_mem _ hp, fun _ _ hstands => hstands⟩⟩
    · intro row hrow
      exact (hs.github row hrow).cons ⟨fun he => StateKey.noConfusion he, id⟩
    · intro row hrow
      rcases List.mem_append.mp hrow with hrow | hrow
      · have hne : stateHash ≠ row.stateHash := fun he => Table.find?_eq_none.mp hfree row hrow he.symm
        exact (hswept row hrow).cons ⟨fun he => hne (StateKey.account.inj he), id⟩
      · rw [List.mem_singleton.mp hrow]
        exact recorded_created ..

/-! ## Using a state -/

theorem Recorded.elsewhere {history : List ConnectEvent} {key used : StateKey} {deviceId boundTo : String}
    {expiresAt clock : Int} {consumedAt : Option Int} {request : Nat} {identity : Identity}
    (h : Recorded history key deviceId expiresAt consumedAt) (hne : used ≠ key) :
    Recorded (.bound used request boundTo identity :: .consumed used request clock :: history) key deviceId expiresAt
      consumedAt := by
  have hconsumed : Recorded (.consumed used request clock :: history) key deviceId expiresAt consumedAt :=
    h.cons ⟨id, hne⟩
  exact hconsumed.cons ⟨id, hne⟩

theorem consumesState_iff {state : String} {row : ConnectStateRow} :
    ConnectStore.consumesState state row = true ↔ row.state = state ∧ row.consumedAt = none := by
  simp [ConnectStore.consumesState]

theorem consumesAccountState_iff {stateHash : String} {consumedAt : Int} {row : AccountConnectStateRow} :
    ConnectStore.consumesAccountState stateHash consumedAt row = true ↔
      row.stateHash = stateHash ∧ row.consumedAt = none ∧ consumedAt < row.expiresAt := by
  simp [ConnectStore.consumesAccountState, and_assoc]

theorem stands_consumeConnectState {state other : String} {installationId now : Int} {stored : ConnectStateRow}
    {store store' : ConnectStore} {changed : Bool}
    (h : store.consumeConnectState state installationId now = (changed, store'))
    (hstands : ∃ row, store.getConnectState other = some row ∧ row.deviceId = stored.deviceId ∧
      row.expiresAt = stored.expiresAt) :
    ∃ row, store'.getConnectState other = some row ∧ row.deviceId = stored.deviceId ∧
      row.expiresAt = stored.expiresAt := by
  obtain ⟨row, hfind, hdevice, hexpires⟩ := hstands
  unfold ConnectStore.consumeConnectState at h
  cases h
  refine ⟨ConnectStore.consumedState state installationId now row, ?_, ?_⟩
  · rw [ConnectStore.getConnectState, Table.find?_update, show store.connectStates.find? other = some row from hfind]
    rfl
  · unfold ConnectStore.consumedState
    split <;> exact ⟨hdevice, hexpires⟩

theorem consumeConnectState_spec {state : String} {installationId now : Int} {store store' : ConnectStore}
    (h : store.consumeConnectState state installationId now = (true, store')) :
    (∃ row ∈ store.connectStates.rows, row.state = state ∧ row.consumedAt = none) ∧
    store'.accountConnectStates = store.accountConnectStates ∧
    ∀ row' ∈ store'.connectStates.rows,
      (row' ∈ store.connectStates.rows ∧ ¬(row'.state = state ∧ row'.consumedAt = none)) ∨
      (row'.state = state ∧ row'.consumedAt = some now ∧
        ∃ row ∈ store.connectStates.rows, row.state = state ∧ row.deviceId = row'.deviceId ∧
          row.expiresAt = row'.expiresAt) := by
  unfold ConnectStore.consumeConnectState at h
  obtain ⟨hany, rfl⟩ := Prod.mk.inj h
  refine ⟨?_, rfl, ?_⟩
  · obtain ⟨row, hrow, hconsumes⟩ := List.any_eq_true.mp hany
    exact ⟨row, hrow, consumesState_iff.mp hconsumes⟩
  · intro row' hrow'
    obtain ⟨row, hrow, hset⟩ := (Table.mem_update (ConnectStore.state_consumedState _ _ _)).mp hrow'
    unfold ConnectStore.consumedState at hset
    split at hset
    · rename_i hconsumes
      rw [← hset]
      exact Or.inr ⟨(consumesState_iff.mp hconsumes).1, rfl, row, hrow, (consumesState_iff.mp hconsumes).1, rfl, rfl⟩
    · rename_i hkeeps
      rw [← hset]
      exact Or.inl ⟨hrow, fun hboth => hkeeps (consumesState_iff.mpr hboth)⟩

theorem consumeConnectState_false {state : String} {installationId now : Int} {store store' : ConnectStore}
    (h : store.consumeConnectState state installationId now = (false, store')) :
    store'.accountConnectStates = store.accountConnectStates ∧
    ∀ row' ∈ store'.connectStates.rows, row' ∈ store.connectStates.rows := by
  unfold ConnectStore.consumeConnectState at h
  obtain ⟨hany, rfl⟩ := Prod.mk.inj h
  refine ⟨rfl, fun row' hrow' => ?_⟩
  obtain ⟨row, hrow, hset⟩ := (Table.mem_update (ConnectStore.state_consumedState _ _ _)).mp hrow'
  have hkeeps : ¬ConnectStore.consumesState state row = true := fun hconsumes =>
    List.any_eq_false.mp hany row hrow hconsumes
  rw [ConnectStore.consumedState, if_neg hkeeps] at hset
  rw [← hset]
  exact hrow

theorem SharedInv.consumeAndBind {state deviceId : String} {stored : ConnectStateRow} {installationId now : Int}
    {installation : InstallationSummary} {authorized : List String} {changed : Bool} (hs : SharedInv timely s)
    (h : s.consumeAndBind i state deviceId installationId installation authorized now = (changed, s'))
    (hstands : Stands s state stored) (hdevice : stored.deviceId = deviceId)
    (hproven : .proven i (.installation installationId) ∈ s.history)
    (htimely : timely → (∀ row, s.store.getConnectState state = some row → row.consumedAt = none) →
      s.clock < stored.expiresAt) :
    SharedInv timely s' ∧ Grows s s' := by
  unfold Shared.consumeAndBind at h
  split at h
  · rename_i store hconsume
    cases h
    obtain ⟨haccount, hrows⟩ := consumeConnectState_false hconsume
    refine ⟨⟨hs.allowed, fun row hrow => hs.github row (hrows row hrow), ?_⟩, ⟨fun _ _ hp => hp, ?_⟩⟩
    · intro row hrow
      exact hs.account row (haccount ▸ hrow)
    · intro other kept hkept
      exact stands_consumeConnectState hconsume hkept
  · rename_i store hconsume
    cases h
    obtain ⟨⟨row, hrow, hstate, hfree⟩, haccount, hrows⟩ := consumeConnectState_spec hconsume
    have hfind : s.store.getConnectState state = some row := Table.find?_eq_some.mpr ⟨hrow, hstate⟩
    obtain ⟨row', hfind', hrowDevice, hrowExpires⟩ := hstands
    obtain rfl := Option.some.inj (hfind.symm.trans hfind')
    have hrecorded := hs.github row hrow
    rw [hstate, hrowDevice, hdevice, hfree] at hrecorded
    have hclock : timely → s.clock < row.expiresAt := by
      intro ht
      rw [hrowExpires]
      apply htimely ht
      intro other hother
      rw [← Option.some.inj (hfind.symm.trans hother)]
      exact hfree
    refine ⟨⟨allowed_use hs.allowed hrecorded hclock hproven, ?_, ?_⟩, ⟨?_, ?_⟩⟩
    · intro kept hkept
      rcases hrows kept hkept with ⟨hmem, hother⟩ | ⟨hkeptState, hkeptConsumed, old, hold, holdState, hd, he⟩
      · apply (hs.github kept hmem).elsewhere
        intro heq
        have hsame := s.store.connectStates.eq_of_key_eq hmem hrow (StateKey.github.inj heq ▸ hstate.symm)
        exact hother ⟨(StateKey.github.inj heq).symm, hsame ▸ hfree⟩
      · have hsame := s.store.connectStates.eq_of_key_eq hold hrow (holdState.trans hstate.symm)
        rw [hkeptState, hkeptConsumed, ← hd, ← he, hsame, hrowDevice, hdevice]
        exact hrecorded.use
    · intro kept hkept
      exact (hs.account kept (haccount ▸ hkept)).elsewhere fun heq => StateKey.noConfusion heq
    · exact fun _ _ hp => List.mem_cons_of_mem _ (List.mem_cons_of_mem _ hp)
    · intro other kept hkept
      have hafter := stands_consumeConnectState hconsume hkept
      exact hafter

theorem consumeAccountConnectStateAndBind_spec {stateHash userId deviceId : String} {consumedAt : Int}
    {store store' : ConnectStore}
    (h : store.consumeAccountConnectStateAndBind stateHash userId consumedAt = (some deviceId, store')) :
    (∃ row ∈ store.accountConnectStates.rows, row.stateHash = stateHash ∧ row.consumedAt = none ∧
      row.deviceId = deviceId ∧ consumedAt < row.expiresAt) ∧
    store'.connectStates = store.connectStates ∧
    ∀ row' ∈ store'.accountConnectStates.rows,
      (row' ∈ store.accountConnectStates.rows ∧ row'.stateHash ≠ stateHash) ∨
      (row'.stateHash = stateHash ∧ row'.consumedAt = some consumedAt ∧
        ∃ row ∈ store.accountConnectStates.rows, row.stateHash = stateHash ∧ row.deviceId = row'.deviceId ∧
          row.expiresAt = row'.expiresAt) := by
  unfold ConnectStore.consumeAccountConnectStateAndBind at h
  split at h
  · cases h
  · rename_i state hstate
    obtain ⟨hmem, hhash⟩ := Table.find?_eq_some.mp hstate
    split at h
    · cases h
    · rename_i hchecked
      split at h
      · cases h
      · cases h
        simp only [Bool.or_eq_true, not_or, Option.not_isSome_iff_eq_none, decide_eq_true_eq, Int.not_le] at hchecked
        refine ⟨⟨state, hmem, hhash, hchecked.1, rfl, hchecked.2⟩, rfl, fun row' hrow' => ?_⟩
        obtain ⟨row, hrow, hset⟩ :=
          (Table.mem_update (ConnectStore.stateHash_consumedAccountState _ _ _)).mp hrow'
        unfold ConnectStore.consumedAccountState at hset
        split at hset
        · rename_i hconsumes
          have hrowHash := (consumesAccountState_iff.mp hconsumes).1
          rw [← hset]
          exact Or.inr ⟨hrowHash, rfl, row, hrow, hrowHash, rfl, rfl⟩
        · rename_i hkeeps
          rw [← hset]
          refine Or.inl ⟨hrow, fun hrowHash => hkeeps (consumesAccountState_iff.mpr ?_)⟩
          obtain rfl := store.accountConnectStates.eq_of_key_eq hrow hmem (hrowHash.trans hhash.symm)
          exact ⟨hrowHash, hchecked⟩

theorem consumeAccountConnectStateAndBind_none {stateHash userId : String} {consumedAt : Int}
    {store store' : ConnectStore}
    (h : store.consumeAccountConnectStateAndBind stateHash userId consumedAt = (none, store')) : store' = store := by
  unfold ConnectStore.consumeAccountConnectStateAndBind at h
  split at h
  · cases h
    rfl
  · split at h
    · cases h
      rfl
    · split at h
      · cases h
        rfl
      · cases h

theorem SharedInv.consumeAccountConnectStateAndBind {stateHash userId : String} {changed : Bool}
    (hs : SharedInv timely s)
    (h : s.consumeAccountConnectStateAndBind i stateHash userId s.clock = (changed, s'))
    (hproven : .proven i (.user userId) ∈ s.history) : SharedInv timely s' ∧ Grows s s' := by
  unfold Shared.consumeAccountConnectStateAndBind at h
  split at h
  · rename_i store hconsume
    cases h
    obtain rfl := consumeAccountConnectStateAndBind_none hconsume
    exact ⟨hs, .refl _⟩
  · rename_i deviceId store hconsume
    cases h
    obtain ⟨⟨row, hrow, hhash, hfree, hdevice, hclock⟩, hgithub, hrows⟩ :=
      consumeAccountConnectStateAndBind_spec hconsume
    have hrecorded := hs.account row hrow
    rw [hhash, hfree, hdevice] at hrecorded
    refine ⟨⟨allowed_use hs.allowed hrecorded (fun _ => hclock) hproven, ?_, ?_⟩, ⟨?_, ?_⟩⟩
    · intro kept hkept
      exact (hs.github kept (hgithub ▸ hkept)).elsewhere fun heq => StateKey.noConfusion heq
    · intro kept hkept
      rcases hrows kept hkept with ⟨hmem, hother⟩ | ⟨hkeptHash, hkeptConsumed, old, hold, holdHash, hd, he⟩
      · exact (hs.account kept hmem).elsewhere fun heq => hother (StateKey.account.inj heq).symm
      · have hsame := s.store.accountConnectStates.eq_of_key_eq hold hrow (holdHash.trans hhash.symm)
        rw [hkeptHash, hkeptConsumed, ← hd, ← he, hsame, hdevice]
        exact hrecorded.use
    · exact fun _ _ hp => List.mem_cons_of_mem _ (List.mem_cons_of_mem _ hp)
    · rintro other stored ⟨kept, hkept, hsame⟩
      refine ⟨kept, ?_, hsame⟩
      show store.connectStates.find? other = some kept
      rw [hgithub]
      exact hkept

/-! ## The steps of the requests -/

theorem fine_refuse (e : BrokerError) (hs : SharedInv timely s') (hgrows : Grows s s') :
    Fine timely i s (refuse e s') := ⟨hs, hgrows, trivial⟩

theorem fine_finished (answer : Except ConnectError ConnectAnswer) (hs : SharedInv timely s') (hgrows : Grows s s') :
    Fine timely i s (.finished answer, s') := ⟨hs, hgrows, trivial⟩

theorem fine_settle {outcome : Except BrokerError Task} (hs : SharedInv timely s') (hgrows : Grows s s')
    (htask : ∀ task, outcome = .ok task → TaskOk i s' task) : Fine timely i s (settle outcome s') := by
  unfold settle
  split
  · exact fine_refuse _ hs hgrows
  · exact ⟨hs, hgrows, htask _ rfl⟩

variable (env : ConnectEnv)

theorem fine_connectStartAuthenticated (answers : Answers) (now : Int) (pending : PendingAuthentication)
    (hs : SharedInv timely s) : Fine timely i s (connectStartAuthenticated env answers now pending s) := by
  unfold connectStartAuthenticated
  split
  · exact fine_refuse _ hs (.refl s)
  · rename_i deviceId _
    have hquiet := (quiet_touchDevice s deviceId now).trans
      (quiet_allowConnect (s.touchDevice deviceId now) (env.sha256 ("connect:" ++ deviceId)) now)
    dsimp only
    split
    · exact fine_refuse _ (hs.quiet hquiet) hquiet.grows
    · split
      · exact fine_finished _ (hs.quiet hquiet) hquiet.grows
      · rename_i created hcreate
        obtain ⟨hcreated, hgrows⟩ := (hs.quiet hquiet).createConnectState hcreate
        exact fine_finished _ hcreated (hquiet.grows.trans hgrows)

theorem fine_accountConnectStartAuthenticated (answers : Answers) (now : Int) (pending : PendingAuthentication)
    (hs : SharedInv timely s) : Fine timely i s (accountConnectStartAuthenticated env answers now pending s) := by
  unfold accountConnectStartAuthenticated
  split
  · exact fine_refuse _ hs (.refl s)
  · rename_i deviceId _
    have hquiet := (quiet_touchDevice s deviceId now).trans
      (quiet_allowAccountConnect (s.touchDevice deviceId now) (env.sha256 ("account-connect:" ++ deviceId)) now)
    dsimp only
    split
    · exact fine_refuse _ (hs.quiet hquiet) hquiet.grows
    · split
      all_goals
        rename_i created hcreate
        obtain ⟨hcreated, hgrows⟩ := (hs.quiet hquiet).createAccountConnectState hcreate
        exact fine_finished _ hcreated (hquiet.grows.trans hgrows)

theorem taskOk_beginCallback {query : CallbackQuery} {now : Int} {task : Task}
    (h : beginCallback env query s.store now = .ok task) : TaskOk i s task := by
  unfold beginCallback at h
  split at h
  · obtain ⟨installationId, -, h⟩ := bind_eq_ok h
    split at h
    · rename_i stored hstored
      obtain ⟨_, -, h⟩ := bind_eq_ok h
      split at h
      · cases h
        exact ⟨stored, hstored, rfl, rfl⟩
      · obtain ⟨_, -, h⟩ := bind_eq_ok h
        cases h
        trivial
    · cases h
  · cases h

theorem taskOk_beginExisting {body : Json} {deviceId : String} {now : Int} {task : Task}
    (h : beginExisting env body s.store deviceId now = .ok task) : TaskOk i s task := by
  obtain ⟨request, -, h⟩ := bind_eq_ok h
  split at h
  · rename_i stored hstored
    obtain ⟨_, -, h⟩ := bind_eq_ok h
    cases h
    obtain ⟨hfound, hdevice⟩ := Option.filter_eq_some_iff.mp hstored
    exact ⟨⟨stored, hfound, rfl, rfl⟩, by simpa using hdevice⟩
  · cases h

theorem fine_connectAuthorizeExistingAuthenticated (now : Int) (pending : PendingAuthentication) (body : Json)
    (hs : SharedInv timely s) :
    Fine timely i s (connectAuthorizeExistingAuthenticated env now pending body s) := by
  unfold connectAuthorizeExistingAuthenticated
  split
  · exact fine_refuse _ hs (.refl s)
  · rename_i deviceId _
    have hquiet := (quiet_touchDevice s deviceId now).trans
      (quiet_allowConnect (s.touchDevice deviceId now) (env.sha256 ("connect-existing:" ++ deviceId)) now)
    dsimp only
    split
    · exact fine_refuse _ (hs.quiet hquiet) hquiet.grows
    · apply fine_settle (hs.quiet hquiet) hquiet.grows
      intro task htask
      exact taskOk_beginExisting env htask

theorem fine_accountConnectComplete (authorization : Option String) (body : Json) (hs : SharedInv timely s) :
    Fine timely i s (accountConnectComplete env authorization body s) := by
  unfold accountConnectComplete
  split
  · exact fine_refuse _ hs (.refl s)
  · rename_i stateHash stored _
    have hquiet := quiet_allowAccountComplete s (env.sha256 ("account-complete:" ++ stored.deviceId)) s.clock
    dsimp only
    split
    · exact fine_refuse _ (hs.quiet hquiet) hquiet.grows
    · apply fine_settle (hs.quiet hquiet) hquiet.grows
      intro task htask
      obtain ⟨token, -, rfl⟩ := map_eq_ok.mp htask
      trivial

theorem fine_arrive (request : Request) (hs : SharedInv timely s) : Fine timely i s (request.arrive env s) := by
  cases request with
  | connectStart authorization =>
    apply fine_settle hs (.refl s)
    intro task htask
    obtain ⟨pending, -, rfl⟩ := map_eq_ok.mp htask
    trivial
  | connectCallback query =>
    apply fine_settle hs (.refl s)
    intro task htask
    exact taskOk_beginCallback env htask
  | connectAuthorizeExisting authorization body =>
    apply fine_settle hs (.refl s)
    intro task htask
    obtain ⟨pending, -, rfl⟩ := map_eq_ok.mp htask
    trivial
  | accountConnectStart authorization =>
    apply fine_settle hs (.refl s)
    intro task htask
    obtain ⟨pending, -, rfl⟩ := map_eq_ok.mp htask
    trivial
  | accountConnectComplete authorization body => exact fine_accountConnectComplete env authorization body hs

theorem fine_connectCallbackProven (answers : Answers) {now installationId : Int} {state : String}
    {stored : ConnectStateRow} (hs : SharedInv timely s) (hstands : Stands s state stored) :
    Fine timely i s (connectCallbackProven i answers now state stored installationId s) := by
  unfold connectCallbackProven
  split
  · exact fine_refuse _ hs (.refl s)
  · refine ⟨hs.proven i _, grows_record s _, ?_, ?_⟩
    · exact (grows_record s _).stands _ _ hstands
    · exact List.mem_cons_self

theorem fine_connectAuthorizeExistingProven (answers : Answers) {now : Int} {deviceId : String}
    {request : ExistingAuthorizationRequest} {stored : ConnectStateRow} (hs : SharedInv timely s)
    (hstands : Stands s request.state stored) (hdevice : stored.deviceId = deviceId) :
    Fine timely i s (connectAuthorizeExistingProven i answers now deviceId request stored s) := by
  unfold connectAuthorizeExistingProven
  split
  · exact fine_refuse _ hs (.refl s)
  · refine ⟨hs.proven i _, grows_record s _, ?_, hdevice, ?_⟩
    · exact (grows_record s _).stands _ _ hstands
    · exact List.mem_cons_self

/-- A GitHub flow whose installation is found uses an unconsumed state before the state's expiry. -/
def UsedInTime (s : Shared) (answers : Answers) (state : String) (stored : ConnectStateRow) : Prop :=
  (∃ installation, answers.getInstallation = .ok (some installation)) →
  (∀ row, s.store.getConnectState state = some row → row.consumedAt = none) → s.clock < stored.expiresAt

theorem fine_bindInstallation (answers : Answers) {now installationId : Int} {state deviceId : String}
    {stored : ConnectStateRow} {authorized : List String} {answer : ConnectAnswer} (hs : SharedInv timely s)
    (hstands : Stands s state stored) (hdevice : stored.deviceId = deviceId)
    (hproven : .proven i (.installation installationId) ∈ s.history)
    (htimely : timely → UsedInTime s answers state stored) :
    Fine timely i s (bindInstallation i answers now state deviceId installationId authorized answer s) := by
  unfold bindInstallation
  split
  · exact fine_refuse _ hs (.refl s)
  · rename_i installation hresolved
    have hfound : ∃ found, answers.getInstallation = .ok (some found) := by
      obtain ⟨found, hanswer, hresolved⟩ := bind_eq_ok hresolved
      cases found with
      | none => cases hresolved
      | some found => exact ⟨found, mapError_eq_ok.mp hanswer⟩
    have huse := fun ht => htimely ht hfound
    split
    all_goals
      rename_i used hused
      obtain ⟨hinv, hgrows⟩ := hs.consumeAndBind hused hstands hdevice hproven huse
    · exact fine_refuse _ hinv hgrows
    · exact fine_finished _ hinv hgrows

theorem fine_accountConnectCompleteProven (answers : Answers) (stateHash : String) (stored : AccountConnectStateRow)
    (hs : SharedInv timely s) : Fine timely i s (accountConnectCompleteProven i answers stateHash stored s) := by
  unfold accountConnectCompleteProven
  split
  · exact fine_refuse _ hs (.refl s)
  · rename_i userId _
    have hproven := hs.proven i (.user userId)
    have hgrows := grows_record s (.proven i (.user userId))
    dsimp only
    split
    · exact fine_refuse _ hproven hgrows
    · split
      all_goals
        rename_i used hused
        obtain ⟨hinv, hused⟩ := hproven.consumeAccountConnectStateAndBind hused List.mem_cons_self
      · exact fine_refuse _ hinv (hgrows.trans hused)
      · exact fine_finished _ hinv (hgrows.trans hused)

/-! ## Runs -/

/-- What a step meets for the expiries to be kept. -/
def Prompt (w : ConnectServer) : ConnectLabel → Prop
  | .resume i answers => match w.tasks i with
    | .callbackResolving _ state stored _ _ => UsedInTime w.shared answers state stored
    | .existingResolving _ _ request stored _ => UsedInTime w.shared answers request.state stored
    | _ => True
  | _ => True

structure ServerInv (timely : Prop) (w : ConnectServer) : Prop where
  shared : SharedInv timely w.shared
  tasks : ∀ i, TaskOk i w.shared (w.tasks i)

theorem serverInv_start (timely : Prop) (clock : Int) : ServerInv timely (startServer clock) where
  shared := ⟨trivial, nofun, nofun⟩
  tasks _ := trivial

theorem ServerInv.update {w : ConnectServer} {outcome : Task × Shared} (hw : ServerInv timely w)
    (h : Fine timely i w.shared outcome) :
    ServerInv timely ⟨outcome.2, Function.update w.tasks i outcome.1⟩ where
  shared := h.inv
  tasks j := by
    dsimp only
    by_cases hj : j = i
    · subst hj
      rw [Function.update_self]
      exact h.task
    · rw [Function.update_of_ne hj]
      exact (hw.tasks j).grows h.grows

theorem fine_resume {w : ConnectServer} {answers : Answers} {outcome : Task × Shared} (hw : ServerInv timely w)
    (hprompt : timely → Prompt w (.resume i answers))
    (h : (w.tasks i).resume env i answers w.shared = some outcome) : Fine timely i w.shared outcome := by
  have hs := hw.shared
  have htask := hw.tasks i
  unfold Prompt at hprompt
  cases hi : w.tasks i with
  | idle =>
    rw [hi] at h
    cases h
  | finished answer =>
    rw [hi] at h
    cases h
  | starting now pending =>
    rw [hi] at h
    cases h
    exact fine_connectStartAuthenticated env answers now pending hs
  | callbackProving now state stored installationId code =>
    rw [hi] at h htask
    cases h
    exact fine_connectCallbackProven answers hs htask
  | callbackResolving now state stored installationId authorized =>
    rw [hi] at h htask
    simp only [hi] at hprompt
    cases h
    exact fine_bindInstallation answers hs htask.1 rfl htask.2 hprompt
  | existingAuthenticating now pending body =>
    rw [hi] at h
    cases h
    exact fine_connectAuthorizeExistingAuthenticated env now pending body hs
  | existingProving now deviceId request stored =>
    rw [hi] at h htask
    cases h
    exact fine_connectAuthorizeExistingProven answers hs htask.1 htask.2
  | existingResolving now deviceId request stored authorized =>
    rw [hi] at h htask
    simp only [hi] at hprompt
    cases h
    exact fine_bindInstallation answers hs htask.1 htask.2.1 htask.2.2 hprompt
  | accountStarting now pending =>
    rw [hi] at h
    cases h
    exact fine_accountConnectStartAuthenticated env answers now pending hs
  | completing stateHash stored token =>
    rw [hi] at h
    cases h
    exact fine_accountConnectCompleteProven answers stateHash stored hs

theorem ServerInv.quiet {w : ConnectServer} {shared : Shared} (hw : ServerInv timely w) (h : Quiet w.shared shared) :
    ServerInv timely { w with shared := shared } where
  shared := hw.shared.quiet h
  tasks j := (hw.tasks j).grows h.grows

theorem serverInv_step {w w' : ConnectServer} {label : ConnectLabel} (hw : ServerInv timely w)
    (hprompt : timely → Prompt w label) (h : w.step env label = some w') : ServerInv timely w' := by
  cases label with
  | tick ms =>
    cases h
    exact hw.quiet ⟨rfl, rfl, rfl⟩
  | registerDevice deviceId publicJwk now =>
    cases h
    exact hw.quiet ⟨rfl, rfl, rfl⟩
  | arrive i request =>
    simp only [ConnectServer.step] at h
    split at h
    · cases h
      exact hw.update (fine_arrive env request hw.shared)
    · cases h
  | resume i answers =>
    obtain ⟨outcome, houtcome, rfl⟩ := Option.map_eq_some_iff.mp h
    exact hw.update (fine_resume env hw hprompt houtcome)

end

/-! ## One-shot states -/

/-- What holds of every history: the newer events stand first. -/
structure OneShot (history : List ConnectEvent) : Prop where
  /-- Between two consumptions of a state it is created again. -/
  consumedOnce : ∀ newer mid older key request request' clock clock',
    history = newer ++ .consumed key request clock :: (mid ++ .consumed key request' clock' :: older) →
    ∃ deviceId expiresAt, .created key deviceId expiresAt ∈ mid
  /-- Between two bindings of a state it is created again. -/
  boundOnce : ∀ newer mid older key request request' deviceId deviceId' identity identity',
    history = newer ++ .bound key request deviceId identity ::
      (mid ++ .bound key request' deviceId' identity' :: older) →
    ∃ deviceId expiresAt, .created key deviceId expiresAt ∈ mid
  /-- A binding follows the consumption by its request, goes to the device that created the state, and is of an
  identity that the request proved. -/
  bound : ∀ newer older key request deviceId identity,
    history = newer ++ .bound key request deviceId identity :: older →
    (∃ clock rest, older = .consumed key request clock :: rest) ∧
    (∃ expiresAt, latest key older = some (deviceId, expiresAt)) ∧ .proven request identity ∈ older

/-- Every consumption is before the expiry of its state. -/
def InTime (history : List ConnectEvent) : Prop :=
  ∀ newer older key request clock, history = newer ++ .consumed key request clock :: older →
    ∃ deviceId expiresAt, latest key older = some (deviceId, expiresAt) ∧ clock < expiresAt

theorem exists_created {key : StateKey} {events : List ConnectEvent} (h : ∃ e ∈ events, creates key e) :
    ∃ deviceId expiresAt, .created key deviceId expiresAt ∈ events := by
  obtain ⟨e, he, hcreates⟩ := h
  cases e with
  | created k deviceId expiresAt =>
    obtain rfl : k = key := hcreates
    exact ⟨deviceId, expiresAt, he⟩
  | _ => exact hcreates.elim

theorem oneShot_of_allowed {timely : Prop} {history : List ConnectEvent} (h : Each (Allowed timely) history) :
    OneShot history where
  consumedOnce newer mid older key request request' clock clock' hhistory := by
    rw [hhistory] at h
    exact exists_created (h.at.1.issued_between rfl id)
  boundOnce newer mid older key request request' deviceId deviceId' identity identity' hhistory := by
    rw [hhistory] at h
    obtain ⟨⟨clock, rest, hrest⟩, -⟩ := h.at
    -- The newer binding follows a consumption, which the older one cannot be.
    cases mid with
    | nil => cases hrest
    | cons consumed mid =>
      obtain ⟨rfl, rfl⟩ := List.cons.inj hrest
      have hafter : Each (Allowed timely)
          ([] ++ .consumed key request clock :: (mid ++ .bound key request' deviceId' identity' :: older)) :=
        h.append_right.2
      obtain ⟨d, e, hmem⟩ := exists_created (hafter.at.1.issued_between rfl id)
      exact ⟨d, e, List.mem_cons_of_mem _ hmem⟩
  bound newer older key request deviceId identity hhistory := by
    rw [hhistory] at h
    exact h.at

theorem inTime_of_allowed {history : List ConnectEvent} (h : Each (Allowed True) history) : InTime history := by
  intro newer older key request clock hhistory
  rw [hhistory] at h
  obtain ⟨-, deviceId, expiresAt, hlatest, hclock⟩ := h.at
  exact ⟨deviceId, expiresAt, hlatest, hclock trivial⟩

/-- In every run a state is used once, by the request that proved the identity and for the device that created it; and
where no GitHub flow goes on to its use after the expiry, no state is consumed after it. -/
theorem connect_states_are_one_shot (env : ConnectEnv) (clock : Int) (labels : List ConnectLabel) (w : ConnectServer)
    (hrun : run (ConnectServer.step env) (startServer clock) labels = some w) :
    OneShot w.shared.history ∧
    (Along (ConnectServer.step env) Prompt (startServer clock) labels → InTime w.shared.history) := by
  constructor
  · have hinv : ServerInv False w :=
      run_invariant (fun _ _ _ hs hstep => serverInv_step env hs False.elim hstep) (serverInv_start False clock) hrun
    exact oneShot_of_allowed hinv.shared.allowed
  · intro halong
    have hinv : ServerInv True w :=
      Along.invariant (fun _ _ _ hs hprompt hstep => serverInv_step env hs (fun _ => hprompt) hstep)
        (serverInv_start True clock) halong hrun
    exact inTime_of_allowed hinv.shared.allowed

namespace ConnectExample

def env : ConnectEnv where
  jose := ⟨fun token => if token = "t" then some "d" else none, fun _ => true, fun _ _ _ _ => true⟩
  sha256 := id
  numberOf := fun text => if text = "7" then some 7 else none
  installUrl := id
  connectUrl := id

/-- The device starts at 0, and its callback comes at once and proves installation 7. -/
def proven : List ConnectLabel :=
  [.registerDevice "d" "k" 0, .arrive 0 (.connectStart (some "Bearer t")), .resume 0 { randomBytes := "s" },
    .arrive 1 (.connectCallback { installationId := some "7", state := some "s", code := some "c" }),
    .resume 1 { verifyInstallation := .ok (some ["o/r"]) }]

def resolved : ConnectLabel := .resume 1 { getInstallation := .ok (some { suspended := false }) }

def soon : List ConnectLabel := proven ++ [.tick 1000, resolved]

/-- The installation is resolved when the ten minutes are over. -/
def late : List ConnectLabel := proven ++ [.tick 600000, resolved]

def historyAfter (labels : List ConnectLabel) : Option (List ConnectEvent) :=
  (run (ConnectServer.step env) (startServer 0) labels).map (·.shared.history)

end ConnectExample

open ConnectExample

theorem connect_state_is_used_soon :
    ∃ w, run (ConnectServer.step env) (startServer 0) soon = some w ∧
      .consumed (.github "s") 1 1000 ∈ w.shared.history ∧ OneShot w.shared.history ∧ InTime w.shared.history := by
  have hhistory : historyAfter soon = some [.bound (.github "s") 1 "d" (.installation 7),
      .consumed (.github "s") 1 1000, .proven 1 (.installation 7), .created (.github "s") "d" 600000] := by
    decide +kernel
  obtain ⟨w, hrun, hw⟩ := Option.map_eq_some_iff.mp hhistory
  have halong : Along (ConnectServer.step env) Prompt (startServer 0) soon := by
    refine .cons trivial rfl (.cons trivial rfl (.cons trivial rfl (.cons trivial rfl (.cons trivial rfl
      (.cons trivial rfl (.cons ?_ rfl trivial))))))
    intro _ _
    decide
  have hshot := connect_states_are_one_shot env 0 soon w hrun
  exact ⟨w, hrun, by simp [hw], hshot.1, hshot.2 halong⟩

/-- The expiry is read before the proof and not again: the state that expired at 600000 is consumed then. -/
theorem connect_state_is_used_late :
    ¬∀ (env : ConnectEnv) (clock : Int) (labels : List ConnectLabel) (w : ConnectServer),
      run (ConnectServer.step env) (startServer clock) labels = some w →
      OneShot w.shared.history ∧ InTime w.shared.history := by
  intro h
  have hhistory : historyAfter late = some [.bound (.github "s") 1 "d" (.installation 7),
      .consumed (.github "s") 1 600000, .proven 1 (.installation 7), .created (.github "s") "d" 600000] := by
    decide +kernel
  obtain ⟨w, hrun, hw⟩ := Option.map_eq_some_iff.mp hhistory
  obtain ⟨deviceId, expiresAt, hlatest, hclock⟩ := (h env 0 late w hrun).2 [_] _ (.github "s") 1 600000 hw
  have hexpires : latest (.github "s") [.proven 1 (.installation 7), .created (.github "s") "d" 600000] =
      some ("d", 600000) := by decide
  rw [hexpires] at hlatest
  cases hlatest
  omega

end NeonDiff.Broker
