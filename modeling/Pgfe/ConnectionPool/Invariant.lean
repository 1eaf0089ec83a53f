import Pgfe.ConnectionPool.Basic

/-!
The invariant of the pool over runs: the pool stays connected, a slot is busy exactly while
one valid handle holds it, and a free slot keeps its connection. Every operation keeps it but
`disconnect()` and a move assignment onto a valid handle: the defaulted move assignment
destroys the target's connection and leaves its slot busy with no holder, so the slot is lost
for good. Runs that avoid that move never lose a slot.
-/

namespace Pgfe

variable {Conn : Type}

def bit (b : Bool) : Nat := if b then 1 else 0

@[simp] theorem bit_true : bit true = 1 := rfl

@[simp] theorem bit_false : bit false = 0 := rfl

theorem bit_le_one (b : Bool) : bit b ≤ 1 := by
  cases b <;> decide

@[simp] theorem countP_singleton_eq_bit {α : Type} (p : α → Bool) (a : α) :
    [a].countP p = bit (p a) := by
  cases h : p a <;> simp [h]

theorem countP_set_add {α : Type} (p : α → Bool) (l : List α) (index : Nat) (old new : α)
    (found : l[index]? = some old) :
    (l.set index new).countP p + bit (p old) = l.countP p + bit (p new) := by
  obtain ⟨bound, rfl⟩ := List.getElem?_eq_some_iff.mp found
  have counted := List.boole_getElem_le_countP p l index bound
  rw [List.countP_set p l index new bound]
  unfold bit
  omega

theorem countP_eraseIdx_add {α : Type} (p : α → Bool) : ∀ (l : List α) (index : Nat) (old : α),
    l[index]? = some old → (l.eraseIdx index).countP p + bit (p old) = l.countP p
  | [], _, _, found => by simp at found
  | x :: xs, 0, old, found => by
      simp only [List.getElem?_cons_zero, Option.some.injEq] at found
      subst found
      simp only [List.eraseIdx_cons_zero, List.countP_cons, bit]
  | x :: xs, index + 1, old, found => by
      have tail := countP_eraseIdx_add p xs index old (by simpa using found)
      simp only [List.eraseIdx_cons_succ, List.countP_cons]
      omega

namespace ConnectionPool

theorem busy_set_free (pool : ConnectionPool Conn) (index : Nat) (connection : Option Conn)
    (other : Nat) :
    ({ pool with connections := pool.connections.set index (connection, false) }).busy other =
      if index = other then false else pool.busy other := by
  unfold busy
  rw [List.getElem?_set]
  split_ifs <;> rfl

theorem busy_set_busy (pool : ConnectionPool Conn) {index : Nat}
    (bound : index < pool.connections.length) (other : Nat) :
    ({ pool with connections := pool.connections.set index (none, true) }).busy other =
      if index = other then true else pool.busy other := by
  unfold busy
  rw [List.getElem?_set]
  split_ifs <;> rfl

theorem connection_cases (pool : ConnectionPool Conn) :
    (∃ index slot, pool.isConnected = true ∧ pool.connections[index]? = some (slot, false) ∧
      pool.connection = ({ pool with connections := pool.connections.set index (none, true) },
        ⟨true, slot, index⟩)) ∨
    ((pool.isConnected = false ∨ ∀ slot ∈ pool.connections, slot.2 = true) ∧
      pool.connection = (pool, .invalid)) := by
  unfold connection
  split
  · rename_i connected
    split
    · rename_i index found
      obtain ⟨bound, free, -⟩ := List.findIdx?_eq_some_iff_getElem.mp found
      have slot : pool.connections[index]? = some (pool.connections[index].1, false) := by
        rw [List.getElem?_eq_getElem bound]
        exact congrArg some (Prod.ext rfl (by simpa using free))
      exact .inl ⟨index, _, connected, slot, by rw [slot]; rfl⟩
    · rename_i none
      exact .inr ⟨.inr fun slot member => by
        simpa using List.findIdx?_eq_none_iff.mp none slot member, rfl⟩
  · rename_i disconnected
    exact .inr ⟨.inl (by simpa using disconnected), rfl⟩

end ConnectionPool

theorem ConnectionPool.connect_of_connected {pool : ConnectionPool Conn}
    (connected : pool.isConnected = true) : pool.connect = pool := by
  cases pool
  subst connected
  rfl

theorem ConnectionPool.busy_eq {pool : ConnectionPool Conn} {index : Nat}
    {slot : Option Conn × Bool} (found : pool.connections[index]? = some slot) :
    pool.busy index = slot.2 := by
  simp [ConnectionPool.busy, found]

def ConnectionPool.freeSlots (pool : ConnectionPool Conn) : Nat :=
  pool.connections.countP fun slot => !slot.2

namespace Handle

theorem holds_of_not_valid {handle : Handle Conn} (invalid : handle.isValid = false)
    (index : Nat) : handle.holds index = false := by
  simp [holds, invalid]

@[simp] theorem holds_without_connection (handle : Handle Conn) (index : Nat) :
    ({ handle with connection := none } : Handle Conn).holds index = false := by
  simp [holds, isValid]

theorem moveConstruct_eq (rhs : Handle Conn) :
    rhs.moveConstruct = (rhs, { rhs with connection := none }) := rfl

theorem moveAssign_eq (self rhs : Handle Conn) :
    self.moveAssign rhs = (rhs, { rhs with connection := none }) := rfl

end Handle

theorem ConnectionPool.holds_release (releaseHandler : Conn → Conn) (pool : ConnectionPool Conn)
    (handle : Handle Conn) (index : Nat) :
    (pool.release releaseHandler handle).2.holds index = false := by
  unfold ConnectionPool.release
  split
  · simp [Handle.holds, Handle.isValid]
  · rename_i invalid
    exact Handle.holds_of_not_valid (by simpa using invalid) index

/-- The invariant: the pool is connected, a slot is busy exactly when one valid handle holds
it, and no free slot has lost its connection. -/
structure PoolState.Consistent (state : PoolState Conn) : Prop where
  connected : state.pool.isConnected = true
  held : ∀ index : Nat, state.holders index = bit (state.pool.busy index)
  stocked : ∀ index : Nat, state.pool.connections[index]? ≠ some (none, false)

theorem PoolState.consistent_initial (connections : List Conn) :
    (PoolState.initial connections).Consistent where
  connected := rfl
  held index := by
    simp only [PoolState.holders, PoolState.initial, List.countP_nil, ConnectionPool.busy,
      ConnectionPool.connected, List.getElem?_map]
    cases connections[index]? <;> rfl
  stocked index := by
    simp only [PoolState.initial, ConnectionPool.connected, List.getElem?_map]
    cases connections[index]? <;> simp

namespace PoolState.Consistent

variable {state : PoolState Conn}

theorem busy_of_valid (consistent : state.Consistent) {handle : Handle Conn}
    (member : handle ∈ state.handles) (valid : handle.isValid = true) :
    state.pool.busy handle.connectionIndex = true := by
  have held := consistent.held handle.connectionIndex
  have holding : 0 < state.holders handle.connectionIndex :=
    List.countP_pos_iff.mpr ⟨handle, member, by simp [Handle.holds, valid]⟩
  cases busy : state.pool.busy handle.connectionIndex
  · rw [busy, bit_false] at held
    omega
  · rfl

theorem exclusive (consistent : state.Consistent) {first second : Nat} (distinct : first ≠ second)
    {handle other : Handle Conn} (foundFirst : state.handles[first]? = some handle)
    (foundSecond : state.handles[second]? = some other) (valid : handle.isValid = true)
    (validOther : other.isValid = true) : handle.connectionIndex ≠ other.connectionIndex := by
  intro same
  have counted := countP_eraseIdx_add (Handle.holds handle.connectionIndex) _ first handle
    foundFirst
  have remaining :
      0 < (state.handles.eraseIdx first).countP (Handle.holds handle.connectionIndex) :=
    List.countP_pos_iff.mpr ⟨other, List.mem_eraseIdx_iff_getElem?.mpr ⟨second, distinct.symm,
      foundSecond⟩, by simp [Handle.holds, validOther, same]⟩
  have holds : handle.holds handle.connectionIndex = true := by simp [Handle.holds, valid]
  have held := consistent.held handle.connectionIndex
  have most := bit_le_one (state.pool.busy handle.connectionIndex)
  rw [holds, bit_true] at counted
  simp only [PoolState.holders] at held
  omega

theorem release (consistent : state.Consistent) (releaseHandler : Conn → Conn)
    {handle : Handle Conn} (member : handle ∈ state.handles) {handles : List (Handle Conn)}
    (count : ∀ index, handles.countP (Handle.holds index) + bit (handle.holds index) =
      state.holders index) :
    (PoolState.mk (state.pool.release releaseHandler handle).1 handles).Consistent := by
  unfold ConnectionPool.release
  split
  · rename_i valid
    have busy := consistent.busy_of_valid member valid
    obtain ⟨connection, present⟩ := Option.isSome_iff_exists.mp
      (Bool.and_eq_true _ _ ▸ valid).2
    refine ⟨consistent.connected, fun index => ?_, fun index => ?_⟩
    · have counted := count index
      have held := consistent.held index
      simp only [PoolState.holders, ConnectionPool.busy_set_free] at counted held ⊢
      by_cases same : handle.connectionIndex = index
      · subst same
        simp only [busy, Handle.holds, valid, beq_self_eq_true, Bool.and_self, bit_true,
          if_true, bit_false] at counted held ⊢
        omega
      · have other : handle.holds index = false := by simp [Handle.holds, same]
        simp only [same, if_false, other, bit_false, Nat.add_zero] at counted ⊢
        rw [counted, held]
    · rw [List.getElem?_set, consistent.connected, if_pos rfl]
      split_ifs
      · simp [present]
      · simp
      · exact consistent.stocked index
  · rename_i invalid
    refine ⟨consistent.connected, fun index => ?_, consistent.stocked⟩
    have counted := count index
    rw [Handle.holds_of_not_valid (by simpa using invalid), bit_false, Nat.add_zero] at counted
    exact counted.trans (consistent.held index)

variable (releaseHandler close : Conn → Conn)

theorem step_connection (consistent : state.Consistent) :
    (PoolOp.step releaseHandler close state .connection).Consistent := by
  rcases ConnectionPool.connection_cases state.pool with
    ⟨index, slot, -, found, taken⟩ | ⟨-, refused⟩
  · simp only [PoolOp.step, taken]
    have bound := (List.getElem?_eq_some_iff.mp found).1
    obtain ⟨connection, rfl⟩ : ∃ connection, slot = some connection :=
      Option.ne_none_iff_exists'.mp fun empty => consistent.stocked index (by rw [found, empty])
    refine ⟨consistent.connected, fun other => ?_, fun other => ?_⟩
    · have held := consistent.held other
      simp only [PoolState.holders, List.countP_append, List.countP_singleton,
        ConnectionPool.busy_set_busy _ bound] at held ⊢
      by_cases same : index = other
      · subst same
        rw [ConnectionPool.busy_eq found] at held
        simp [held, Handle.holds, Handle.isValid]
      · simp [held, same, Handle.holds]
    · rw [List.getElem?_set]
      split_ifs
      · simp
      · exact consistent.stocked other
  · simp only [PoolOp.step, refused]
    refine ⟨consistent.connected, fun other => ?_, consistent.stocked⟩
    simpa [PoolState.holders, Handle.holds, Handle.invalid, Handle.isValid] using
      consistent.held other

theorem step_release (consistent : state.Consistent) (index : Nat) :
    (PoolOp.step releaseHandler close state (.release index)).Consistent := by
  simp only [PoolOp.step]
  split
  · rename_i handle found
    refine consistent.release releaseHandler (List.getElem?_mem found) fun other => ?_
    have counted := countP_set_add (Handle.holds other) _ index handle
      (state.pool.release releaseHandler handle).2 found
    rw [ConnectionPool.holds_release, bit_false, Nat.add_zero] at counted
    exact counted
  · exact consistent

theorem step_destroy (consistent : state.Consistent) (index : Nat) :
    (PoolOp.step releaseHandler close state (.destroy index)).Consistent := by
  simp only [PoolOp.step]
  split
  · rename_i handle found
    exact consistent.release releaseHandler (List.getElem?_mem found) fun other =>
      countP_eraseIdx_add (Handle.holds other) _ index handle found
  · exact consistent

theorem step_connect (consistent : state.Consistent) :
    (PoolOp.step releaseHandler close state .connect).Consistent := by
  simp only [PoolOp.step, ConnectionPool.connect_of_connected consistent.connected]
  exact consistent

theorem step_moveConstruct (consistent : state.Consistent) (source : Nat) :
    (PoolOp.step releaseHandler close state (.moveConstruct source)).Consistent := by
  simp only [PoolOp.step]
  split
  · rename_i rhs found
    refine ⟨consistent.connected, fun other => ?_, consistent.stocked⟩
    have counted := countP_set_add (Handle.holds other) _ source rhs { rhs with connection := none }
      found
    rw [Handle.holds_without_connection, bit_false, Nat.add_zero] at counted
    rw [← consistent.held other]
    simp only [PoolState.holders, Handle.moveConstruct_eq, List.countP_append,
      countP_singleton_eq_bit, counted]
  · exact consistent

theorem step_moveAssign (consistent : state.Consistent) {target source : Nat}
    (keeps : target = source ∨ ∀ self, state.handles[target]? = some self → self.isValid = false) :
    (PoolOp.step releaseHandler close state (.moveAssign target source)).Consistent := by
  simp only [PoolOp.step]
  split
  · rename_i self rhs foundSelf found
    split
    · exact consistent
    · rename_i distinct
      have invalid := keeps.resolve_left distinct self foundSelf
      refine ⟨consistent.connected, fun other => ?_, consistent.stocked⟩
      have first := countP_set_add (Handle.holds other) _ target self rhs foundSelf
      have second := countP_set_add (Handle.holds other) (state.handles.set target rhs) source rhs
        { rhs with connection := none } (by rw [List.getElem?_set_ne distinct, found])
      rw [Handle.holds_of_not_valid invalid, bit_false, Nat.add_zero] at first
      rw [Handle.holds_without_connection, bit_false, Nat.add_zero] at second
      rw [← consistent.held other]
      simp only [PoolState.holders, Handle.moveAssign_eq] at first second ⊢
      omega
  · exact consistent

end PoolState.Consistent

namespace PoolOp

/-- The operations a run may make for the invariant to survive: all but `disconnect()` and a
move assignment onto a distinct valid handle. A `connect()` of the connected pool changes
nothing. -/
def Keeps (state : PoolState Conn) : PoolOp → Prop
  | moveAssign target source =>
      target = source ∨ ∀ self, state.handles[target]? = some self → self.isValid = false
  | disconnect => False
  | _ => True

/-- Every operation of the run keeps the invariant in the state it runs in. -/
def KeepsAll (releaseHandler close : Conn → Conn) : PoolState Conn → List PoolOp → Prop
  | _, [] => True
  | state, op :: ops =>
      op.Keeps state ∧ KeepsAll releaseHandler close (step releaseHandler close state op) ops

end PoolOp

namespace PoolState.Consistent

variable {state : PoolState Conn} (releaseHandler close : Conn → Conn)

theorem step (consistent : state.Consistent) {op : PoolOp} (keeps : op.Keeps state) :
    (PoolOp.step releaseHandler close state op).Consistent := by
  cases op with
  | connection => exact consistent.step_connection releaseHandler close
  | release index => exact consistent.step_release releaseHandler close index
  | moveConstruct source => exact consistent.step_moveConstruct releaseHandler close source
  | moveAssign target source => exact consistent.step_moveAssign releaseHandler close keeps
  | destroy index => exact consistent.step_destroy releaseHandler close index
  | connect => exact consistent.step_connect releaseHandler close
  | disconnect => exact keeps.elim

theorem run (consistent : state.Consistent) (ops : List PoolOp)
    (keeps : PoolOp.KeepsAll releaseHandler close state ops) :
    (PoolOp.run releaseHandler close state ops).Consistent := by
  induction ops generalizing state with
  | nil => exact consistent
  | cons op ops ih => exact ih (consistent.step releaseHandler close keeps.1) keeps.2

theorem moveAssign_loses_slot (consistent : state.Consistent) {target source : Nat}
    (distinct : target ≠ source) {self rhs : Handle Conn}
    (foundSelf : state.handles[target]? = some self) (found : state.handles[source]? = some rhs)
    (valid : self.isValid = true) :
    (PoolOp.step releaseHandler close state (.moveAssign target source)).pool.busy
        self.connectionIndex = true ∧
      (PoolOp.step releaseHandler close state (.moveAssign target source)).holders
        self.connectionIndex = 0 := by
  have busy := consistent.busy_of_valid (List.getElem?_mem foundSelf) valid
  have held := consistent.held self.connectionIndex
  have first := countP_set_add (Handle.holds self.connectionIndex) _ target self rhs foundSelf
  have second := countP_set_add (Handle.holds self.connectionIndex) (state.handles.set target rhs)
    source rhs { rhs with connection := none } (by rw [List.getElem?_set_ne distinct, found])
  have holds : self.holds self.connectionIndex = true := by simp [Handle.holds, valid]
  rw [busy, bit_true] at held
  rw [holds, bit_true] at first
  rw [Handle.holds_without_connection, bit_false, Nat.add_zero] at second
  simp only [PoolState.holders] at held
  simp only [PoolOp.step, foundSelf, found, if_neg distinct, Handle.moveAssign_eq,
    PoolState.holders]
  exact ⟨busy, by omega⟩

/-! No slot is lost -/

theorem connection_valid (consistent : state.Consistent) (free : 0 < state.pool.freeSlots) :
    state.pool.connection.2.isValid = true ∧
      state.pool.connection.1.freeSlots + 1 = state.pool.freeSlots := by
  rcases ConnectionPool.connection_cases state.pool with
    ⟨index, slot, -, found, taken⟩ | ⟨refused, -⟩
  · obtain ⟨connection, rfl⟩ : ∃ connection, slot = some connection :=
      Option.ne_none_iff_exists'.mp fun empty => consistent.stocked index (by rw [found, empty])
    have counted := countP_set_add (fun slot : Option Conn × Bool => !slot.2) _ index _
      (none, true) found
    simp only [Bool.not_false, bit_true, Bool.not_true, bit_false, Nat.add_zero] at counted
    rw [taken]
    exact ⟨rfl, counted⟩
  · rcases refused with disconnected | busy
    · simp [consistent.connected] at disconnected
    · have none : state.pool.freeSlots = 0 :=
        List.countP_eq_zero.mpr fun slot member => by simp [busy slot member]
      omega

theorem run_connections (consistent : state.Consistent) (count : Nat)
    (enough : count ≤ state.pool.freeSlots) :
    ∃ fresh, (PoolOp.run releaseHandler close state (List.replicate count .connection)).handles =
      state.handles ++ fresh ∧ fresh.length = count ∧ ∀ handle ∈ fresh, handle.isValid = true := by
  induction count generalizing state with
  | zero => exact ⟨[], by simp [PoolOp.run], rfl, by simp⟩
  | succ count ih =>
      obtain ⟨valid, fewer⟩ := connection_valid consistent (by omega)
      obtain ⟨fresh, handles, length, all⟩ :=
        ih (consistent.step_connection releaseHandler close) (by simp only [PoolOp.step]; omega)
      refine ⟨state.pool.connection.2 :: fresh, ?_, by simp [length],
        List.forall_mem_cons.mpr ⟨valid, all⟩⟩
      simp only [PoolOp.run, List.replicate_succ, List.foldl_cons] at handles ⊢
      rw [handles]
      simp [PoolOp.step]

theorem freeSlots_of_released (consistent : state.Consistent)
    (released : ∀ handle ∈ state.handles, handle.isValid = false) :
    state.pool.freeSlots = state.pool.connections.length := by
  refine List.countP_eq_length.mpr fun slot member => ?_
  obtain ⟨index, found⟩ := List.mem_iff_getElem?.mp member
  have held := consistent.held index
  rw [ConnectionPool.busy_eq found] at held
  have none : state.holders index = 0 := List.countP_eq_zero.mpr fun handle member => by
    simp [Handle.holds_of_not_valid (released handle member)]
  cases busy : slot.2
  · rfl
  · rw [none, busy, bit_true] at held
    cases held

end PoolState.Consistent

theorem ConnectionPool.length_connection (pool : ConnectionPool Conn) :
    pool.connection.1.connections.length = pool.connections.length := by
  rcases connection_cases pool with ⟨_, _, -, -, taken⟩ | ⟨-, refused⟩
  · simp [taken]
  · simp [refused]

theorem ConnectionPool.length_release (releaseHandler : Conn → Conn) (pool : ConnectionPool Conn)
    (handle : Handle Conn) :
    (pool.release releaseHandler handle).1.connections.length = pool.connections.length := by
  unfold release
  split <;> simp

theorem PoolOp.length_step (releaseHandler close : Conn → Conn) (state : PoolState Conn)
    (op : PoolOp) :
    (step releaseHandler close state op).pool.connections.length =
      state.pool.connections.length := by
  cases op <;> simp only [step] <;> (repeat' split) <;>
    simp [ConnectionPool.length_connection, ConnectionPool.length_release,
      ConnectionPool.connect, ConnectionPool.disconnect]

theorem PoolOp.length_run (releaseHandler close : Conn → Conn) (ops : List PoolOp) :
    ∀ state : PoolState Conn,
      (run releaseHandler close state ops).pool.connections.length =
        state.pool.connections.length := by
  induction ops with
  | nil => exact fun _ => rfl
  | cons op ops ih => exact fun state => (ih _).trans (length_step releaseHandler close state op)

/-- From a freshly connected pool of `N` connections, a run that neither disconnects nor
move-assigns onto a valid handle keeps each slot busy exactly while one valid handle holds it,
no two valid handles share a slot, and once no handle is valid any more, `N` more
`connection()` calls all return valid handles. -/
theorem run_keeps_slots (releaseHandler close : Conn → Conn) (connections : List Conn)
    (ops : List PoolOp) (keeps : PoolOp.KeepsAll releaseHandler close (.initial connections) ops) :
    let state := PoolOp.run releaseHandler close (.initial connections) ops
    (∀ index, state.holders index = bit (state.pool.busy index)) ∧
      (∀ (first second : Nat) (handle other : Handle Conn), first ≠ second →
        state.handles[first]? = some handle → state.handles[second]? = some other →
        handle.isValid = true → other.isValid = true →
        handle.connectionIndex ≠ other.connectionIndex) ∧
      ((∀ handle ∈ state.handles, handle.isValid = false) →
        ∃ fresh, (PoolOp.run releaseHandler close state
            (List.replicate connections.length .connection)).handles = state.handles ++ fresh ∧
          fresh.length = connections.length ∧ ∀ handle ∈ fresh, handle.isValid = true) := by
  intro state
  have consistent : state.Consistent :=
    (PoolState.consistent_initial connections).run releaseHandler close ops keeps
  refine ⟨consistent.held, fun _ _ _ _ distinct => consistent.exclusive distinct,
    fun released => consistent.run_connections releaseHandler close _ ?_⟩
  rw [consistent.freeSlots_of_released released, PoolOp.length_run]
  simp [PoolState.initial, ConnectionPool.connected]

theorem run_keeps_slots_of_two :
    PoolOp.KeepsAll id id (.initial ([0, 1] : List Nat)) [.connection, .connection, .destroy 1] ∧
      let state := PoolOp.run id id (.initial ([0, 1] : List Nat))
        [.connection, .connection, .destroy 1]
      (∀ index, state.holders index = bit (state.pool.busy index)) ∧
        (∀ (first second : Nat) (handle other : Handle Nat), first ≠ second →
          state.handles[first]? = some handle → state.handles[second]? = some other →
          handle.isValid = true → other.isValid = true →
          handle.connectionIndex ≠ other.connectionIndex) ∧
        ((∀ handle ∈ state.handles, handle.isValid = false) →
          ∃ fresh, (PoolOp.run id id state (List.replicate 2 .connection)).handles =
              state.handles ++ fresh ∧
            fresh.length = 2 ∧ ∀ handle ∈ fresh, handle.isValid = true) :=
  ⟨⟨trivial, trivial, trivial, trivial⟩,
    run_keeps_slots id id [0, 1] _ ⟨trivial, trivial, trivial, trivial⟩⟩

/-! A lost slot stays lost -/

namespace ConnectionPool

theorem busy_connection {pool : ConnectionPool Conn} {index : Nat} (busy : pool.busy index = true) :
    pool.connection.1.busy index = true ∧ pool.connection.2.holds index = false := by
  rcases connection_cases pool with ⟨taken, slot, -, found, result⟩ | ⟨-, result⟩
  · have distinct : taken ≠ index := by
      rintro rfl
      rw [busy_eq found] at busy
      cases busy
    rw [result, busy_set_busy pool (List.getElem?_eq_some_iff.mp found).1, if_neg distinct]
    simp [busy, Handle.holds, distinct]
  · simp [result, busy, Handle.holds, Handle.invalid, Handle.isValid]

theorem busy_release (releaseHandler : Conn → Conn) (pool : ConnectionPool Conn)
    {handle : Handle Conn} {index : Nat} (free : handle.holds index = false) :
    (pool.release releaseHandler handle).1.busy index = pool.busy index := by
  unfold release
  split
  · rename_i valid
    have distinct : handle.connectionIndex ≠ index := by simpa [Handle.holds, valid] using free
    rw [busy_set_free, if_neg distinct]
  · rfl

theorem free_release (releaseHandler : Conn → Conn) (pool : ConnectionPool Conn)
    {handle : Handle Conn} {index : Nat} (holds : handle.holds index = true) :
    (pool.release releaseHandler handle).1.busy index = false := by
  obtain ⟨valid, same⟩ : handle.isValid = true ∧ handle.connectionIndex = index := by
    simpa [Handle.holds] using holds
  unfold release
  rw [if_pos valid, busy_set_free, if_pos same]

theorem busy_disconnect (close : Conn → Conn) (pool : ConnectionPool Conn) (index : Nat) :
    (pool.disconnect close).busy index = pool.busy index := by
  unfold busy disconnect
  rw [List.getElem?_map]
  cases pool.connections[index]? with
  | none => rfl
  | some slot => by_cases taken : slot.2 <;> simp [taken]

end ConnectionPool

/-- Slot `index` is lost: it is busy, and no handle holds it. -/
structure PoolState.Lost (state : PoolState Conn) (index : Nat) : Prop where
  busy : state.pool.busy index = true
  unheld : ∀ handle ∈ state.handles, handle.holds index = false

theorem PoolState.holders_eq_zero {state : PoolState Conn} {index : Nat} (lost : state.Lost index) :
    state.holders index = 0 :=
  List.countP_eq_zero.mpr fun handle member => by simp [lost.unheld handle member]

namespace PoolState.Lost

variable {state : PoolState Conn} {index : Nat} (releaseHandler close : Conn → Conn)

theorem unheld_set (lost : state.Lost index) (position : Nat) {handle : Handle Conn}
    (free : handle.holds index = false) :
    ∀ other ∈ state.handles.set position handle, other.holds index = false := fun other member =>
  (List.mem_or_eq_of_mem_set member).elim (lost.unheld other) fun same => same ▸ free

theorem step (lost : state.Lost index) (op : PoolOp) :
    (PoolOp.step releaseHandler close state op).Lost index := by
  cases op with
  | connection =>
      obtain ⟨busy, free⟩ := ConnectionPool.busy_connection lost.busy
      exact ⟨busy, List.forall_mem_append.mpr ⟨lost.unheld, List.forall_mem_singleton.mpr free⟩⟩
  | release position =>
      simp only [PoolOp.step]
      split
      · rename_i handle found
        have free := lost.unheld handle (List.getElem?_mem found)
        exact ⟨by rw [ConnectionPool.busy_release releaseHandler _ free]; exact lost.busy,
          lost.unheld_set position (ConnectionPool.holds_release releaseHandler _ _ _)⟩
      · exact lost
  | moveConstruct source =>
      simp only [PoolOp.step]
      split
      · rename_i rhs found
        exact ⟨lost.busy, List.forall_mem_append.mpr
          ⟨lost.unheld_set source (Handle.holds_without_connection rhs index),
            List.forall_mem_singleton.mpr (lost.unheld rhs (List.getElem?_mem found))⟩⟩
      · exact lost
  | moveAssign target source =>
      simp only [PoolOp.step]
      split
      · rename_i self rhs _ found
        split
        · exact lost
        · have moved : PoolState.Lost ⟨state.pool, state.handles.set target rhs⟩ index :=
            ⟨lost.busy, lost.unheld_set target (lost.unheld rhs (List.getElem?_mem found))⟩
          exact ⟨lost.busy, moved.unheld_set source (Handle.holds_without_connection rhs index)⟩
      · exact lost
  | destroy position =>
      simp only [PoolOp.step]
      split
      · rename_i handle found
        have free := lost.unheld handle (List.getElem?_mem found)
        exact ⟨by rw [ConnectionPool.busy_release releaseHandler _ free]; exact lost.busy,
          fun other member => lost.unheld other (List.mem_of_mem_eraseIdx member)⟩
      · exact lost
  | connect => exact ⟨lost.busy, lost.unheld⟩
  | disconnect =>
      exact ⟨by simp only [PoolOp.step, ConnectionPool.busy_disconnect]; exact lost.busy,
        lost.unheld⟩

theorem run (lost : state.Lost index) (ops : List PoolOp) :
    (PoolOp.run releaseHandler close state ops).Lost index := by
  induction ops generalizing state with
  | nil => exact lost
  | cons op ops ih => exact ih (lost.step releaseHandler close op)

end PoolState.Lost

theorem PoolOp.run_append (releaseHandler close : Conn → Conn) (state : PoolState Conn)
    (ops more : List PoolOp) :
    run releaseHandler close state (ops ++ more) =
      run releaseHandler close (run releaseHandler close state ops) more :=
  List.foldl_append _ _ _ _

theorem PoolState.Lost.of_holders_eq_zero {state : PoolState Conn} {index : Nat}
    (busy : state.pool.busy index = true) (unheld : state.holders index = 0) : state.Lost index :=
  ⟨busy, fun handle member => by simpa using List.countP_eq_zero.mp unheld handle member⟩

/-- The defaulted move assignment onto a valid handle loses the handle's slot for good: after
it, whatever the program does, the slot stays busy and no handle holds it. -/
theorem moveAssign_loses_slot_forever (releaseHandler close : Conn → Conn) {state : PoolState Conn}
    (consistent : state.Consistent) {target source : Nat} (distinct : target ≠ source)
    {self rhs : Handle Conn} (foundSelf : state.handles[target]? = some self)
    (found : state.handles[source]? = some rhs) (valid : self.isValid = true) (ops : List PoolOp) :
    (PoolOp.run releaseHandler close state (.moveAssign target source :: ops)).Lost
      self.connectionIndex := by
  obtain ⟨busy, unheld⟩ :=
    consistent.moveAssign_loses_slot releaseHandler close distinct foundSelf found valid
  exact (PoolState.Lost.of_holders_eq_zero busy unheld).run releaseHandler close ops

theorem moveAssign_loses_slot_forever_of_two :
    (PoolOp.run id id (.initial ([0, 1] : List Nat)) [.connection, .connection]).handles =
        [⟨true, some 0, 0⟩, ⟨true, some 1, 1⟩] ∧
      (PoolOp.run id id (PoolOp.run id id (.initial ([0, 1] : List Nat)) [.connection, .connection])
        [.moveAssign 0 1]).Lost 0 :=
  ⟨rfl, moveAssign_loses_slot_forever id id
    ((PoolState.consistent_initial _).run id id [.connection, .connection]
      ⟨trivial, trivial, trivial⟩)
    (by decide) (show _ = some ⟨true, some 0, 0⟩ from rfl)
    (show _ = some ⟨true, some 1, 1⟩ from rfl) rfl []⟩

/-- The failing run: a pool of two connections, `h0 = connection()`, `h1 = connection()`,
`h0 = std::move(h1)`. Slot 0 is then lost whatever the program does next, and once both
handles are destroyed only one of two `connection()` calls returns a valid handle. -/
theorem moveAssign_loses_slot_of_two :
    (∀ ops : List PoolOp, (PoolOp.run id id (PoolState.initial ([0, 1] : List Nat))
        ([.connection, .connection, .moveAssign 0 1] ++ ops)).Lost 0) ∧
      (PoolOp.run id id (PoolState.initial ([0, 1] : List Nat)) [.connection, .connection,
        .moveAssign 0 1, .destroy 1, .destroy 0, .connection, .connection]).handles.map
          Handle.isValid = [true, false] := by
  refine ⟨fun ops => ?_, by decide⟩
  rw [PoolOp.run_append]
  exact PoolState.Lost.run id id ⟨by decide, by decide⟩ ops

end Pgfe
