import Mathlib.Data.List.Basic

/-!
Model of `Connection_pool` and its `Handle` from `pgfe/connection_pool.hpp`. The header
gives the members and defaults the moves of `Handle`; `connect()`, `connection()`,
`release()`, `disconnect()` and the destructor of `Handle` are defined in
`connection_pool.cpp`, which is not among the sources, and are modelled from the spec. A
`Connection` is opaque: the pool only moves it between its slots and the handles. A program's
pool and handles form a state, and the operations on them a step function.
-/

namespace Pgfe

variable {Conn : Type}

/-- Models the members `pool_` (set or null), `connection_` and `connection_index_` of
`Connection_pool::Handle`. -/
structure Handle (Conn : Type) where
  pool : Bool
  connection : Option Conn
  connectionIndex : Nat
deriving DecidableEq, Repr

namespace Handle

/-- Models `Handle()`, which constructs an invalid handle. -/
def invalid : Handle Conn := ⟨false, none, 0⟩

/-- Modelled from the spec: `Handle::is_valid()` (in `connection_pool.cpp`) holds when both
the pool and the connection are present. -/
def isValid (handle : Handle Conn) : Bool := handle.pool && handle.connection.isSome

/-- Models `Handle(Handle&& rhs) = default`: the members are moved one by one. Moving the raw
pointer `pool_` and the index copies them, and moving `connection_` leaves `rhs` without it.
Returns the new handle and `rhs`. -/
def moveConstruct (rhs : Handle Conn) : Handle Conn × Handle Conn :=
  (⟨rhs.pool, rhs.connection, rhs.connectionIndex⟩, { rhs with connection := none })

/-- Models `operator=(Handle&& rhs) = default` for two distinct handles: every member is
move-assigned, so the connection `*this` held is destroyed by `unique_ptr::operator=` and not
given back to its slot. Returns `*this` and `rhs`. -/
def moveAssign (_self rhs : Handle Conn) : Handle Conn × Handle Conn :=
  (⟨rhs.pool, rhs.connection, rhs.connectionIndex⟩, { rhs with connection := none })

end Handle

/-- Models the members `is_connected_` and `connections_` of `Connection_pool`: each slot is
its connection (moved out while a handle holds it) and its busy flag. -/
structure ConnectionPool (Conn : Type) where
  isConnected : Bool
  connections : List (Option Conn × Bool)
deriving DecidableEq, Repr

namespace ConnectionPool

/-- Modelled from the spec: `Connection_pool(count, options)` and `connect()` (in
`connection_pool.cpp`) give a connected pool whose slots hold the opened connections, all
free. -/
def connected (connections : List Conn) : ConnectionPool Conn :=
  ⟨true, connections.map fun connection => (some connection, false)⟩

def busy (pool : ConnectionPool Conn) (index : Nat) : Bool :=
  match pool.connections[index]? with
  | some slot => slot.2
  | none => false

/-- Modelled from the spec: `Connection_pool::connection()` (in `connection_pool.cpp`) takes
the first free slot of a connected pool, marks it busy and moves its connection into a new
handle bound to the slot. Otherwise the handle is invalid. -/
def connection (pool : ConnectionPool Conn) : ConnectionPool Conn × Handle Conn :=
  if pool.isConnected then
    match pool.connections.findIdx? (fun slot => !slot.2) with
    | some index =>
        ({ pool with connections := pool.connections.set index (none, true) },
          ⟨true, (pool.connections[index]?).bind Prod.fst, index⟩)
    | none => (pool, .invalid)
  else (pool, .invalid)

/-- Modelled from the spec: `Connection_pool::release(handle)` (in `connection_pool.cpp`)
does nothing to an invalid handle. A connected pool runs the release handler on the
connection and moves it back into its slot, a disconnected one destroys it, and either way the
slot is freed and the handle is left with neither pool nor connection. The header's comment
says a disconnected pool closes the connection instead; the model follows the spec, under
which the slot is left without one. -/
def release (releaseHandler : Conn → Conn) (pool : ConnectionPool Conn) (handle : Handle Conn) :
    ConnectionPool Conn × Handle Conn :=
  if handle.isValid then
    let returned := if pool.isConnected then handle.connection.map releaseHandler else none
    ({ pool with connections := pool.connections.set handle.connectionIndex (returned, false) },
      { handle with pool := false, connection := none })
  else (pool, handle)

/-- Modelled from the spec: `Connection_pool::connect()` (in `connection_pool.cpp`) opens the
connection of every slot in place and marks the pool connected. Opening does not change
which connection a slot holds, so only the flag changes here. A free slot whose connection
`release()` destroyed while the pool was disconnected holds none to open, and the pool keeps
no connection options to make a new one, so the slot stays empty. -/
def connect (pool : ConnectionPool Conn) : ConnectionPool Conn :=
  { pool with isConnected := true }

/-- Modelled from the spec: `Connection_pool::disconnect()` (in `connection_pool.cpp`) closes
the free connections, leaves the busy ones alone, and marks the pool disconnected. -/
def disconnect (close : Conn → Conn) (pool : ConnectionPool Conn) : ConnectionPool Conn :=
  ⟨false, pool.connections.map fun slot => if slot.2 then slot else (slot.1.map close, slot.2)⟩

end ConnectionPool

/-- A program's pool and the handles it holds, in the order they were made. -/
structure PoolState (Conn : Type) where
  pool : ConnectionPool Conn
  handles : List (Handle Conn)
deriving DecidableEq, Repr

/-- What a program does with the pool and its handles; handles are named by position. -/
inductive PoolOp
  | connection
  | release (handle : Nat)
  | moveConstruct (source : Nat)
  | moveAssign (target source : Nat)
  | destroy (handle : Nat)
  | connect
  | disconnect
deriving DecidableEq, Repr

namespace PoolOp

/-- One operation. `destroy` runs the destructor, which releases the handle; a self-move
assignment keeps the handle, as `unique_ptr`'s does. The release handler and the closing of
a connection are the pool's callbacks. -/
def step (releaseHandler close : Conn → Conn) (state : PoolState Conn) : PoolOp → PoolState Conn
  | connection =>
      let (pool, handle) := state.pool.connection
      ⟨pool, state.handles ++ [handle]⟩
  | release index =>
      match state.handles[index]? with
      | some handle =>
          let (pool, handle) := state.pool.release releaseHandler handle
          ⟨pool, state.handles.set index handle⟩
      | none => state
  | moveConstruct source =>
      match state.handles[source]? with
      | some rhs => ⟨state.pool, state.handles.set source rhs.moveConstruct.2 ++ [rhs.moveConstruct.1]⟩
      | none => state
  | moveAssign target source =>
      match state.handles[target]?, state.handles[source]? with
      | some self, some rhs =>
          if target = source then state
          else ⟨state.pool, (state.handles.set target (self.moveAssign rhs).1).set source
            (self.moveAssign rhs).2⟩
      | _, _ => state
  | destroy index =>
      match state.handles[index]? with
      | some handle =>
          ⟨(state.pool.release releaseHandler handle).1, state.handles.eraseIdx index⟩
      | none => state
  | connect => ⟨state.pool.connect, state.handles⟩
  | disconnect => ⟨state.pool.disconnect close, state.handles⟩

def run (releaseHandler close : Conn → Conn) (state : PoolState Conn) (ops : List PoolOp) :
    PoolState Conn :=
  ops.foldl (step releaseHandler close) state

end PoolOp

def PoolState.initial (connections : List Conn) : PoolState Conn :=
  ⟨.connected connections, []⟩

def Handle.holds (index : Nat) (handle : Handle Conn) : Bool :=
  handle.isValid && handle.connectionIndex == index

def PoolState.holders (state : PoolState Conn) (index : Nat) : Nat :=
  state.handles.countP (Handle.holds index)

end Pgfe
