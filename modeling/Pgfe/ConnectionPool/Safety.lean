import Mathlib.Data.List.Nodup
import Pgfe.ConnectionPool.Invariant

/-!
Safety of the pool over every run, whatever the program does: `connect()`, `disconnect()` and
the move assignment that loses a slot included. A slot is held by at most one valid handle, and only
while it is busy, so the valid handles hold pairwise different slots of the pool and never
outnumber its connections. Losing a slot breaks the count of the invariant, not its bound.
-/

namespace Pgfe

variable {Conn : Type}

/-- Every slot is held by at most one valid handle, and only while it is busy. -/
def PoolState.Safe (state : PoolState Conn) : Prop :=
  ∀ index, state.holders index ≤ bit (state.pool.busy index)

theorem PoolState.safe_initial (connections : List Conn) : (PoolState.initial connections).Safe :=
  fun index => by simp [PoolState.holders, PoolState.initial]

namespace PoolOp

variable (releaseHandler close : Conn → Conn) (state : PoolState Conn)

theorem pool_moveConstruct (source : Nat) :
    (step releaseHandler close state (.moveConstruct source)).pool = state.pool := by
  simp only [step]
  split <;> rfl

theorem holders_moveConstruct (source index : Nat) :
    (step releaseHandler close state (.moveConstruct source)).holders index =
      state.holders index := by
  simp only [step]
  split
  · rename_i rhs found
    have counted := countP_set_add (Handle.holds index) _ source rhs
      { rhs with connection := none } found
    rw [Handle.holds_without_connection, bit_false, Nat.add_zero] at counted
    simp only [PoolState.holders, Handle.moveConstruct_eq, List.countP_append,
      countP_singleton_eq_bit, counted]
  · rfl

theorem pool_moveAssign (target source : Nat) :
    (step releaseHandler close state (.moveAssign target source)).pool = state.pool := by
  simp only [step]
  split
  · split <;> rfl
  · rfl

theorem holders_moveAssign {target source : Nat} (distinct : target ≠ source)
    {self rhs : Handle Conn} (foundSelf : state.handles[target]? = some self)
    (found : state.handles[source]? = some rhs) (index : Nat) :
    (step releaseHandler close state (.moveAssign target source)).holders index +
      bit (self.holds index) = state.holders index := by
  have first := countP_set_add (Handle.holds index) _ target self rhs foundSelf
  have second := countP_set_add (Handle.holds index) (state.handles.set target rhs) source rhs
    { rhs with connection := none } (by rw [List.getElem?_set_ne distinct, found])
  rw [Handle.holds_without_connection, bit_false, Nat.add_zero] at second
  simp only [step, foundSelf, found, if_neg distinct, Handle.moveAssign_eq, PoolState.holders]
  simp only [PoolState.holders] at first
  omega

theorem holders_moveAssign_le (target source index : Nat) :
    (step releaseHandler close state (.moveAssign target source)).holders index ≤
      state.holders index := by
  cases foundSelf : state.handles[target]? with
  | none => simp [step, foundSelf]
  | some self =>
      cases found : state.handles[source]? with
      | none => simp [step, foundSelf, found]
      | some rhs =>
          by_cases distinct : target = source
          · simp [step, foundSelf, found, distinct]
          · have moved := holders_moveAssign releaseHandler close state distinct foundSelf found
              index
            omega

end PoolOp

namespace PoolState.Safe

variable {state : PoolState Conn}

theorem of_le (safe : state.Safe) {next : PoolState Conn}
    (busy : ∀ index, next.pool.busy index = state.pool.busy index)
    (fewer : ∀ index, next.holders index ≤ state.holders index) : next.Safe := fun index =>
  (fewer index).trans ((safe index).trans (busy index ▸ le_refl _))

theorem busy_of_valid (safe : state.Safe) {handle : Handle Conn} (member : handle ∈ state.handles)
    (valid : handle.isValid = true) : state.pool.busy handle.connectionIndex = true := by
  have holding : 0 < state.holders handle.connectionIndex :=
    List.countP_pos_iff.mpr ⟨handle, member, by simp [Handle.holds, valid]⟩
  have held := safe handle.connectionIndex
  cases busy : state.pool.busy handle.connectionIndex
  · rw [busy, bit_false] at held
    omega
  · rfl

theorem release (safe : state.Safe) (releaseHandler : Conn → Conn) {handle : Handle Conn}
    {handles : List (Handle Conn)}
    (count : ∀ index, handles.countP (Handle.holds index) + bit (handle.holds index) =
      state.holders index) :
    (PoolState.mk (state.pool.release releaseHandler handle).1 handles).Safe := by
  intro index
  have counted := count index
  have held := safe index
  unfold ConnectionPool.release
  split
  · rename_i valid
    simp only [PoolState.holders, ConnectionPool.busy_set_free] at counted held ⊢
    by_cases same : handle.connectionIndex = index
    · have holds : handle.holds index = true := by simp [Handle.holds, valid, same]
      rw [if_pos same, bit_false]
      rw [holds, bit_true] at counted
      have most := bit_le_one (state.pool.busy index)
      omega
    · have other : handle.holds index = false := by simp [Handle.holds, same]
      rw [if_neg same]
      rw [other, bit_false] at counted
      omega
  · simp only [PoolState.holders] at counted held ⊢
    omega

variable (releaseHandler close : Conn → Conn)

theorem step_connection (safe : state.Safe) :
    (PoolOp.step releaseHandler close state .connection).Safe := by
  rcases ConnectionPool.connection_cases state.pool with
    ⟨taken, slot, -, found, result⟩ | ⟨-, refused⟩
  · intro index
    have held := safe index
    have bound := (List.getElem?_eq_some_iff.mp found).1
    simp only [PoolOp.step, result, PoolState.holders, List.countP_append,
      countP_singleton_eq_bit, ConnectionPool.busy_set_busy _ bound] at held ⊢
    by_cases same : taken = index
    · subst same
      rw [ConnectionPool.busy_eq found, bit_false] at held
      rw [if_pos rfl, bit_true]
      have most := bit_le_one ((⟨true, slot, taken⟩ : Handle Conn).holds taken)
      omega
    · have free : (⟨true, slot, taken⟩ : Handle Conn).holds index = false := by
        simp [Handle.holds, same]
      rw [if_neg same, free, bit_false, Nat.add_zero]
      exact held
  · exact safe.of_le (by simp [PoolOp.step, refused]) fun index => by
      simp [PoolOp.step, refused, PoolState.holders, Handle.holds, Handle.invalid, Handle.isValid]

theorem step_release (safe : state.Safe) (index : Nat) :
    (PoolOp.step releaseHandler close state (.release index)).Safe := by
  simp only [PoolOp.step]
  split
  · rename_i handle found
    refine safe.release releaseHandler fun other => ?_
    simpa only [ConnectionPool.holds_release, bit_false, Nat.add_zero] using
      countP_set_add (Handle.holds other) _ index handle
        (state.pool.release releaseHandler handle).2 found
  · exact safe

theorem step_destroy (safe : state.Safe) (index : Nat) :
    (PoolOp.step releaseHandler close state (.destroy index)).Safe := by
  simp only [PoolOp.step]
  split
  · rename_i handle found
    exact safe.release releaseHandler fun other =>
      countP_eraseIdx_add (Handle.holds other) _ index handle found
  · exact safe

theorem step_moveConstruct (safe : state.Safe) (source : Nat) :
    (PoolOp.step releaseHandler close state (.moveConstruct source)).Safe :=
  safe.of_le (by simp [PoolOp.pool_moveConstruct]) fun index =>
    (PoolOp.holders_moveConstruct releaseHandler close state source index).le

theorem step_moveAssign (safe : state.Safe) (target source : Nat) :
    (PoolOp.step releaseHandler close state (.moveAssign target source)).Safe :=
  safe.of_le (by simp [PoolOp.pool_moveAssign])
    (PoolOp.holders_moveAssign_le releaseHandler close state target source)

theorem step_connect (safe : state.Safe) :
    (PoolOp.step releaseHandler close state .connect).Safe :=
  safe

theorem step_disconnect (safe : state.Safe) :
    (PoolOp.step releaseHandler close state .disconnect).Safe :=
  safe.of_le (ConnectionPool.busy_disconnect close state.pool) fun _ => le_refl _

theorem step (safe : state.Safe) (op : PoolOp) :
    (PoolOp.step releaseHandler close state op).Safe := by
  cases op with
  | connection => exact safe.step_connection releaseHandler close
  | release index => exact safe.step_release releaseHandler close index
  | moveConstruct source => exact safe.step_moveConstruct releaseHandler close source
  | moveAssign target source => exact safe.step_moveAssign releaseHandler close target source
  | destroy index => exact safe.step_destroy releaseHandler close index
  | connect => exact safe.step_connect releaseHandler close
  | disconnect => exact safe.step_disconnect releaseHandler close

theorem run (safe : state.Safe) (ops : List PoolOp) :
    (PoolOp.run releaseHandler close state ops).Safe := by
  induction ops generalizing state with
  | nil => exact safe
  | cons op ops ih => exact ih (safe.step releaseHandler close op)

end PoolState.Safe

theorem ConnectionPool.busy_lt {pool : ConnectionPool Conn} {index : Nat}
    (busy : pool.busy index = true) : index < pool.connections.length := by
  unfold ConnectionPool.busy at busy
  split at busy
  · rename_i slot found
    exact (List.getElem?_eq_some_iff.mp found).1
  · cases busy

theorem Handle.count_validIndices (handles : List (Handle Conn)) (index : Nat) :
    ((handles.filter Handle.isValid).map Handle.connectionIndex).count index =
      handles.countP (Handle.holds index) := by
  simp only [List.count, List.countP_map, List.countP_filter, Function.comp_def]
  congr 1
  funext handle
  rw [Handle.holds, Bool.and_comm]

/-- In every run from a freshly connected pool, whatever the program does, the valid handles
hold pairwise different slots, each busy and inside the pool, so there are never more valid
handles than connections. -/
theorem run_exclusive (releaseHandler close : Conn → Conn) (connections : List Conn)
    (ops : List PoolOp) :
    let state := PoolOp.run releaseHandler close (.initial connections) ops
    ((state.handles.filter Handle.isValid).map Handle.connectionIndex).Nodup ∧
      (∀ handle ∈ state.handles, handle.isValid = true →
        state.pool.busy handle.connectionIndex = true ∧
          handle.connectionIndex < connections.length) ∧
      (state.handles.filter Handle.isValid).length ≤ connections.length := by
  intro state
  have safe : state.Safe := (PoolState.safe_initial connections).run releaseHandler close ops
  have slots : state.pool.connections.length = connections.length := by
    simp [state, PoolOp.length_run, PoolState.initial, ConnectionPool.connected]
  have inside : ∀ handle ∈ state.handles, handle.isValid = true →
      state.pool.busy handle.connectionIndex = true ∧
        handle.connectionIndex < connections.length := fun handle member valid =>
    have busy := safe.busy_of_valid member valid
    ⟨busy, slots ▸ ConnectionPool.busy_lt busy⟩
  have nodup : ((state.handles.filter Handle.isValid).map Handle.connectionIndex).Nodup :=
    List.nodup_iff_count_le_one.mpr fun index => by
      rw [Handle.count_validIndices]
      exact (safe index).trans (bit_le_one _)
  have within : (state.handles.filter Handle.isValid).map Handle.connectionIndex ⊆
      List.range connections.length := fun index member => by
    obtain ⟨handle, kept, rfl⟩ := List.mem_map.mp member
    obtain ⟨member, valid⟩ := List.mem_filter.mp kept
    exact List.mem_range.mpr (inside handle member valid).2
  refine ⟨nodup, inside, ?_⟩
  simpa using (List.subperm_of_subset nodup within).length_le

end Pgfe
