import Pgfe.ConnectionPool.Safety

/-!
When a run loses a slot. A slot is lost when it is busy and no valid handle holds it. Two
operations lose one: a move assignment onto a valid handle, which destroys the target's
connection, and a `connection()` that takes a free slot holding no connection, which
`release()` destroyed while the pool was disconnected and `connect()` could not reopen; it
marks the slot busy and hands out an invalid handle, which `release()` then ignores. Every
other operation keeps each busy slot held, `disconnect()` and `connect()` included. So a run
from a freshly connected pool ends with a lost slot exactly when one of its steps is one of
these two.
-/

namespace Pgfe

variable {Conn : Type}

namespace PoolOp

/-- Whether the operation loses a slot of the state: a `connection()` that binds a handle to
a slot with no connection, or a move assignment onto a valid handle other than its source. -/
def losesSlot (state : PoolState Conn) : PoolOp → Bool
  | connection => state.pool.connection.2.pool && state.pool.connection.2.connection.isNone
  | moveAssign target source =>
      match state.handles[target]?, state.handles[source]? with
      | some self, some _ => target != source && self.isValid
      | _, _ => false
  | _ => false

/-- Whether some step of the run loses a slot. -/
def someLosesSlot (releaseHandler close : Conn → Conn) :
    PoolState Conn → List PoolOp → Bool
  | _, [] => false
  | state, op :: ops =>
      op.losesSlot state ||
        someLosesSlot releaseHandler close (step releaseHandler close state op) ops

end PoolOp

/-- No slot is lost: every busy slot is held by a valid handle. -/
def PoolState.Kept (state : PoolState Conn) : Prop :=
  ∀ index, state.pool.busy index = true → 0 < state.holders index

theorem PoolState.kept_initial (connections : List Conn) :
    (PoolState.initial connections).Kept := fun index => by
  simp only [PoolState.initial, ConnectionPool.busy, ConnectionPool.connected,
    List.getElem?_map]
  cases connections[index]? <;> simp

namespace PoolState.Kept

variable {state : PoolState Conn}

theorem of_le (kept : state.Kept) {next : PoolState Conn}
    (busy : ∀ index, next.pool.busy index = state.pool.busy index)
    (more : ∀ index, state.holders index ≤ next.holders index) : next.Kept := fun index taken =>
  (kept index ((busy index).symm.trans taken)).trans_le (more index)

theorem release (kept : state.Kept) (releaseHandler : Conn → Conn) {handle : Handle Conn}
    {handles : List (Handle Conn)}
    (count : ∀ index, handles.countP (Handle.holds index) + bit (handle.holds index) =
      state.holders index) :
    (PoolState.mk (state.pool.release releaseHandler handle).1 handles).Kept := by
  intro index busy
  have counted := count index
  cases holds : handle.holds index
  · rw [ConnectionPool.busy_release releaseHandler _ holds] at busy
    rw [holds, bit_false, Nat.add_zero] at counted
    exact (kept index busy).trans_eq counted.symm
  · rw [ConnectionPool.free_release releaseHandler _ holds] at busy
    cases busy

variable (releaseHandler close : Conn → Conn)

theorem step_connection (kept : state.Kept) (keeps : PoolOp.connection.losesSlot state = false) :
    (PoolOp.step releaseHandler close state .connection).Kept := by
  rcases ConnectionPool.connection_cases state.pool with
    ⟨taken, slot, -, found, result⟩ | ⟨-, refused⟩
  · have stocked : slot.isSome = true := by simpa [PoolOp.losesSlot, result] using keeps
    intro index busy
    simp only [PoolOp.step, result, PoolState.holders, List.countP_append,
      countP_singleton_eq_bit,
      ConnectionPool.busy_set_busy _ (List.getElem?_eq_some_iff.mp found).1] at busy ⊢
    by_cases same : taken = index
    · simp [same, Handle.holds, Handle.isValid, stocked]
    · rw [if_neg same] at busy
      exact Nat.lt_add_right _ (kept index busy)
  · exact kept.of_le (by simp [PoolOp.step, refused]) fun index => by
      simp [PoolOp.step, refused, PoolState.holders]

theorem step_release (kept : state.Kept) (index : Nat) :
    (PoolOp.step releaseHandler close state (.release index)).Kept := by
  simp only [PoolOp.step]
  split
  · rename_i handle found
    refine kept.release releaseHandler fun other => ?_
    simpa only [ConnectionPool.holds_release, bit_false, Nat.add_zero] using
      countP_set_add (Handle.holds other) _ index handle
        (state.pool.release releaseHandler handle).2 found
  · exact kept

theorem step_destroy (kept : state.Kept) (index : Nat) :
    (PoolOp.step releaseHandler close state (.destroy index)).Kept := by
  simp only [PoolOp.step]
  split
  · rename_i handle found
    exact kept.release releaseHandler fun other =>
      countP_eraseIdx_add (Handle.holds other) _ index handle found
  · exact kept

theorem step_moveConstruct (kept : state.Kept) (source : Nat) :
    (PoolOp.step releaseHandler close state (.moveConstruct source)).Kept :=
  kept.of_le (by simp [PoolOp.pool_moveConstruct]) fun index =>
    (PoolOp.holders_moveConstruct releaseHandler close state source index).ge

theorem step_moveAssign (kept : state.Kept) {target source : Nat}
    (keeps : (PoolOp.moveAssign target source).losesSlot state = false) :
    (PoolOp.step releaseHandler close state (.moveAssign target source)).Kept := by
  refine kept.of_le (by simp [PoolOp.pool_moveAssign]) fun index => ?_
  cases foundSelf : state.handles[target]? with
  | none => simp [PoolOp.step, foundSelf]
  | some self =>
      cases found : state.handles[source]? with
      | none => simp [PoolOp.step, foundSelf, found]
      | some rhs =>
          by_cases distinct : target = source
          · simp [PoolOp.step, foundSelf, found, distinct]
          · have invalid : self.isValid = false := by
              simpa [PoolOp.losesSlot, foundSelf, found, distinct] using keeps
            have moved := PoolOp.holders_moveAssign releaseHandler close state distinct
              foundSelf found index
            rw [Handle.holds_of_not_valid invalid, bit_false, Nat.add_zero] at moved
            exact moved.ge

theorem step (kept : state.Kept) {op : PoolOp} (keeps : op.losesSlot state = false) :
    (PoolOp.step releaseHandler close state op).Kept := by
  cases op with
  | connection => exact kept.step_connection releaseHandler close keeps
  | release index => exact kept.step_release releaseHandler close index
  | moveConstruct source => exact kept.step_moveConstruct releaseHandler close source
  | moveAssign target source => exact kept.step_moveAssign releaseHandler close keeps
  | destroy index => exact kept.step_destroy releaseHandler close index
  | connect => exact kept
  | disconnect => exact kept.of_le (ConnectionPool.busy_disconnect close state.pool) fun _ => le_rfl

theorem run (kept : state.Kept) (ops : List PoolOp)
    (keeps : PoolOp.someLosesSlot releaseHandler close state ops = false) :
    (PoolOp.run releaseHandler close state ops).Kept := by
  induction ops generalizing state with
  | nil => exact kept
  | cons op ops ih =>
      rw [PoolOp.someLosesSlot, Bool.or_eq_false_iff] at keeps
      exact ih (kept.step releaseHandler close keeps.1) keeps.2

end PoolState.Kept

namespace PoolState.Safe

variable {state : PoolState Conn} (releaseHandler close : Conn → Conn)

theorem moveAssign_lost (safe : state.Safe) {target source : Nat} (distinct : target ≠ source)
    {self rhs : Handle Conn} (foundSelf : state.handles[target]? = some self)
    (found : state.handles[source]? = some rhs) (valid : self.isValid = true) :
    (PoolOp.step releaseHandler close state (.moveAssign target source)).Lost
      self.connectionIndex := by
  have busy := safe.busy_of_valid (List.getElem?_mem foundSelf) valid
  have held := safe self.connectionIndex
  have moved := PoolOp.holders_moveAssign releaseHandler close state distinct foundSelf found
    self.connectionIndex
  have holds : self.holds self.connectionIndex = true := by simp [Handle.holds, valid]
  rw [busy, bit_true] at held
  rw [holds, bit_true] at moved
  refine PoolState.Lost.of_holders_eq_zero ?_ (by omega)
  rw [PoolOp.pool_moveAssign]
  exact busy

theorem connection_lost (safe : state.Safe)
    (empty : PoolOp.connection.losesSlot state = true) :
    ∃ index, (PoolOp.step releaseHandler close state .connection).Lost index := by
  rcases ConnectionPool.connection_cases state.pool with
    ⟨taken, slot, -, found, result⟩ | ⟨-, refused⟩
  · have none : slot = none := by simpa [PoolOp.losesSlot, result] using empty
    have held := safe taken
    rw [ConnectionPool.busy_eq found, bit_false] at held
    refine ⟨taken, PoolState.Lost.of_holders_eq_zero ?_ ?_⟩
    · simp [PoolOp.step, result,
        ConnectionPool.busy_set_busy _ (List.getElem?_eq_some_iff.mp found).1]
    · simpa [PoolOp.step, result, PoolState.holders, none, Handle.holds, Handle.isValid]
        using held
  · simp [PoolOp.losesSlot, refused, Handle.invalid] at empty

theorem lost_of_losesSlot (safe : state.Safe) {op : PoolOp} (loses : op.losesSlot state = true) :
    ∃ index, (PoolOp.step releaseHandler close state op).Lost index := by
  cases op with
  | connection => exact safe.connection_lost releaseHandler close loses
  | moveAssign target source =>
      cases foundSelf : state.handles[target]? with
      | none => simp [PoolOp.losesSlot, foundSelf] at loses
      | some self =>
          cases found : state.handles[source]? with
          | none => simp [PoolOp.losesSlot, foundSelf, found] at loses
          | some rhs =>
              obtain ⟨distinct, valid⟩ : target ≠ source ∧ self.isValid = true := by
                simpa [PoolOp.losesSlot, foundSelf, found] using loses
              exact ⟨_, safe.moveAssign_lost releaseHandler close distinct foundSelf found valid⟩
  | _ => cases loses

theorem lost_of_someLosesSlot (safe : state.Safe) (ops : List PoolOp)
    (loses : PoolOp.someLosesSlot releaseHandler close state ops = true) :
    ∃ index, (PoolOp.run releaseHandler close state ops).Lost index := by
  induction ops generalizing state with
  | nil => cases loses
  | cons op ops ih =>
      rw [PoolOp.someLosesSlot, Bool.or_eq_true] at loses
      rcases loses with now | later
      · obtain ⟨index, lost⟩ := safe.lost_of_losesSlot releaseHandler close now
        exact ⟨index, lost.run releaseHandler close ops⟩
      · exact ih (safe.step releaseHandler close op) later

end PoolState.Safe

/-- A run from a freshly connected pool ends with a lost slot, busy and held by no valid
handle, exactly when one of its steps move-assigns onto a valid handle or hands out a slot
whose connection `release()` destroyed while the pool was disconnected: no other operation,
`connect()` and `disconnect()` included, ever loses a slot. -/
theorem run_loses_slot_iff (releaseHandler close : Conn → Conn) (connections : List Conn)
    (ops : List PoolOp) :
    (∃ index, (PoolOp.run releaseHandler close (.initial connections) ops).pool.busy index = true ∧
        (PoolOp.run releaseHandler close (.initial connections) ops).holders index = 0) ↔
      PoolOp.someLosesSlot releaseHandler close (.initial connections) ops = true := by
  constructor
  · rintro ⟨index, busy, unheld⟩
    cases loses : PoolOp.someLosesSlot releaseHandler close (.initial connections) ops
    · have held := (PoolState.kept_initial connections).run releaseHandler close ops loses
        index busy
      omega
    · rfl
  · intro loses
    obtain ⟨index, lost⟩ := (PoolState.safe_initial connections).lost_of_someLosesSlot
      releaseHandler close ops loses
    exact ⟨index, lost.busy, PoolState.holders_eq_zero lost⟩

example :
    PoolOp.someLosesSlot id id (PoolState.initial [0, 1])
        [.connection, .connection, .moveAssign 1 0, .disconnect] = true ∧
      PoolOp.someLosesSlot id id (PoolState.initial [0, 1])
        [.connection, .disconnect, .release 0, .connect, .connection] = true ∧
      PoolOp.someLosesSlot id id (PoolState.initial [0, 1])
        [.connection, .connection, .disconnect, .destroy 0, .moveAssign 0 0, .connect] = false := by
  decide

end Pgfe
