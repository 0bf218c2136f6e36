import Mathlib.Algebra.Order.Ring.Nat
import Mathlib.Data.List.MinMax
import CqlDriver.Common.NodeCollection

/-!
# The connection pool

`ConnectionPool` hands out pairs of a connection and a stream. Callers that find
nothing wait in a queue, which four parties empty: a returned connection, a spawn
loop that connects, a spawn loop that gives up, and a timer that looks for idle
streams.

The model is one state and one step per event-loop task. A `spawnConnection` loop
is a record of how far it has come, a timer is the state its flag and its pending
task are in, and connections live in a heap and are named by their position in
it, as the code compares them by pointer. `deliveries` and `failures` record how
the promises of the callers were resolved.

## Main definitions

* `Connection` — the streams and the ready flag of one connection
* `ConnectionPool` — the state of the pool
* `ConnectionPool.tryGetConnection`, `getConnection`, `returnConnection`, … — the
  operations, under the names of the code
* `ConnectionPool.system` — the pool driven by events in any order
-/

namespace CqlDriver

/-- The settings of a session the pool reads. -/
structure SessionConfiguration where
  minPoolSize : Nat
  maxPoolSize : Nat
  maxWaitersAfterConnectionsExhausted : Nat
  deriving DecidableEq, Repr

/-- The settings of a node the pool's connections read. `setMaxStreams` rejects
every value below two. -/
structure NodeConfiguration where
  maxStreams : Nat
  two_le_maxStreams : 2 ≤ maxStreams

/-- One connection as the pool sees it. The end of the code's vector of free
stream ids, where ids are taken and put back, is the head of the list. -/
structure Connection where
  node : Nat
  isReady : Bool
  freeStreamIds : List Nat
  deriving DecidableEq, Repr

namespace Connection

/-- The constructor: stream zero is kept for internal communication. -/
def create (node maxStreams : Nat) : Connection :=
  ⟨node, false, List.range' 1 (maxStreams - 1)⟩

/-- `openStream`; no stream when all are in use. -/
def openStream (connection : Connection) : Option Nat × Connection :=
  match connection.freeStreamIds with
  | [] => (none, connection)
  | stream :: rest => (some stream, { connection with freeStreamIds := rest })

/-- `ConnectionStream::close` on a valid stream. -/
def closeStream (connection : Connection) (stream : Nat) : Connection :=
  { connection with freeStreamIds := stream :: connection.freeStreamIds }

/-- `getFreeStreamsCount`. -/
def getFreeStreamsCount (connection : Connection) : Nat := connection.freeStreamIds.length

/-- `isAllStreamsFree`, stream zero excepted. -/
def isAllStreamsFree (connection : Connection) (maxStreams : Nat) : Bool :=
  decide (maxStreams ≤ connection.freeStreamIds.length + 1)

end Connection

/-- How far a `spawnConnection` loop has come. -/
inductive SpawnPhase
  /-- The next iteration is about to choose a node. -/
  | choosing
  /-- `ready()` of a new connection is pending. -/
  | connecting (node connection : Nat)
  /-- The loop has ended and its `finally` is pending. -/
  | finishing
  /-- The loop is no longer counted by `connectingCount_`. -/
  | finished
  deriving DecidableEq, Repr

/-- A `spawnConnection` loop with its count of failed attempts. -/
structure SpawnLoop where
  count : Nat
  phase : SpawnPhase
  deriving DecidableEq, Repr

/-- A timer: its flag is set unless it is `off`. -/
inductive Timer
  | off
  /-- The sleep before the next tick is pending. -/
  | sleeping
  /-- The last tick asked to stop and `finally` is pending. -/
  | stopping
  deriving DecidableEq, Repr

/-- A connection and stream handed to a caller, with what was true at that moment. -/
structure Delivery where
  caller : Nat
  connection : Nat
  stream : Nat
  /-- `connection->isReady()`. -/
  isReady : Bool
  /-- Some holder already had this stream of this connection. -/
  isHeld : Bool
  deriving DecidableEq, Repr

/-- The state of a `ConnectionPool` and of everything it reaches. -/
structure ConnectionPool where
  /-- All connections ever made; a connection is named by its index. -/
  connections : List Connection
  allConnections : List Nat
  connectingCount : Nat
  waiters : List Nat
  findIdleTimer : Timer
  dropIdleTimer : Timer
  /-- All spawn loops ever started; a loop is named by its index. -/
  spawns : List SpawnLoop
  nodeCollection : NodeCollectionImpl
  /-- The caller id the next `getConnection` gets. -/
  nextCaller : Nat
  /-- The streams that are in the hands of callers. -/
  held : List (Nat × Nat)
  deliveries : List Delivery
  failures : List (Nat × Exception)
  deriving DecidableEq, Repr

namespace ConnectionPool

/-- The bound of the waiter queue, `static_cast<std::size_t>(-1)`. -/
def waitersCapacity : Nat := 2 ^ 64 - 1

/-- The constructor. -/
def create (nodeCollection : NodeCollectionImpl) : ConnectionPool where
  connections := []
  allConnections := []
  connectingCount := 0
  waiters := []
  findIdleTimer := .off
  dropIdleTimer := .off
  spawns := []
  nodeCollection := nodeCollection
  nextCaller := 0
  held := []
  deliveries := []
  failures := []

/-! ## Connections and promises -/

/-- `connection->isReady()`. -/
def isReady (p : ConnectionPool) (id : Nat) : Bool :=
  match p.connections[id]? with
  | some connection => connection.isReady
  | none => false

/-- `connection->getFreeStreamsCount()`. -/
def getFreeStreamsCount (p : ConnectionPool) (id : Nat) : Nat :=
  match p.connections[id]? with
  | some connection => connection.getFreeStreamsCount
  | none => 0

/-- `connection->openStream()`. -/
def openStream (p : ConnectionPool) (id : Nat) : Option Nat × ConnectionPool :=
  match p.connections[id]? with
  | some connection =>
    let result := connection.openStream
    (result.1, { p with connections := p.connections.set id result.2 })
  | none => (none, p)

/-- A holder releases its stream. -/
def closeStream (p : ConnectionPool) (id stream : Nat) : ConnectionPool :=
  { p with
    connections := p.connections.modify id fun connection => connection.closeStream stream
    held := p.held.erase (id, stream) }

/-- Write the ready flag of one connection. -/
def setReady (p : ConnectionPool) (id : Nat) (isReady : Bool) : ConnectionPool :=
  { p with
    connections := p.connections.modify id fun connection => { connection with isReady } }

/-- Resolve a caller's promise with a connection and a stream. -/
def deliver (p : ConnectionPool) (caller id stream : Nat) : ConnectionPool :=
  { p with
    held := (id, stream) :: p.held
    deliveries :=
      ⟨caller, id, stream, p.isReady id, decide ((id, stream) ∈ p.held)⟩ :: p.deliveries }

/-- Resolve a caller's promise with an exception. -/
def fail (p : ConnectionPool) (caller : Nat) (ex : Exception) : ConnectionPool :=
  { p with failures := (caller, ex) :: p.failures }

/-! ## The operations -/

/-- The loop of `tryGetConnection` with the given number of iterations left; each
one ends the search or erases a connection. `std::max_element` and `argmax` both
return the first of the largest. -/
def tryGetConnectionLoop : Nat → ConnectionPool → Option (Nat × Nat) × ConnectionPool
  | 0, p => (none, p)
  | k + 1, p =>
    match p.allConnections.argmax p.getFreeStreamsCount with
    | none => (none, p)
    | some id =>
      if p.isReady id then
        match p.openStream id with
        | (some stream, opened) => (some (id, stream), opened)
        | (none, _) => (none, p)
      else
        -- found a closed connection
        tryGetConnectionLoop k { p with allConnections := p.allConnections.erase id }

/-- Try to get a connection with idle stream. -/
def tryGetConnection (p : ConnectionPool) : Option (Nat × Nat) × ConnectionPool :=
  tryGetConnectionLoop (p.allConnections.length + 1) p

/-- Add a new waiter. -/
def addWaiter (p : ConnectionPool) (caller : Nat) : ConnectionPool :=
  if p.waiters.length < waitersCapacity then
    { p with waiters := p.waiters ++ [caller] }
  else
    p.fail caller (logicException "push connection waiter to queue failed")

/-- The loop of `feedWaiters`; each iteration pops a waiter or ends. -/
def feedWaitersLoop : Nat → ConnectionPool → ConnectionPool
  | 0, p => p
  | k + 1, p =>
    match p.waiters with
    | [] => p
    | caller :: rest =>
      match p.tryGetConnection with
      | (some (id, stream), found) =>
        feedWaitersLoop k ({ found with waiters := rest }.deliver caller id stream)
      | (none, searched) => searched

/-- Find idle connection and feed waiters. -/
def feedWaiters (p : ConnectionPool) : ConnectionPool := feedWaitersLoop p.waiters.length p

/-- Tell all waiters that an error has occurred. -/
def cleanWaiters (p : ConnectionPool) (ex : Exception) : ConnectionPool :=
  { p with
    waiters := []
    failures := (p.waiters.map fun caller => (caller, ex)).reverse ++ p.failures }

variable (nodeConfiguration : Nat → NodeConfiguration) (config : SessionConfiguration)

/-- One iteration of a spawn loop up to the pending `ready()`: choose one node and
create the connection. -/
def chooseNode (p : ConnectionPool) (i count : Nat) : ConnectionPool :=
  match p.nodeCollection.chooseOneNode with
  | .ok (node, nodeCollection) =>
    { p with
      nodeCollection
      connections := p.connections ++ [Connection.create node (nodeConfiguration node).maxStreams]
      spawns := p.spawns.set i ⟨count, .connecting node p.connections.length⟩ }
  | .error _ => { p with spawns := p.spawns.set i ⟨count, .finishing⟩ }

/-- Spawn a new connection: the first iteration of the loop starts at once. -/
def spawnConnection (p : ConnectionPool) : ConnectionPool :=
  chooseNode nodeConfiguration
    { p with
      connectingCount := p.connectingCount + 1
      spawns := p.spawns ++ [⟨0, .choosing⟩] }
    p.spawns.length 0

/-- Initialize connection failed: try next node until all tried. -/
def connectFailed (p : ConnectionPool) (i count node : Nat) (ex : Exception) : ConnectionPool :=
  match p.nodeCollection.reportFailure node with
  | .ok nodeCollection =>
    if nodeCollection.getNodesCount ≤ count + 1 then
      { p with nodeCollection, spawns := p.spawns.set i ⟨count + 1, .finishing⟩ }.cleanWaiters ex
    else
      { p with nodeCollection, spawns := p.spawns.set i ⟨count + 1, .choosing⟩ }
  | .error _ => { p with spawns := p.spawns.set i ⟨count, .finishing⟩ }

/-- Initialize connection success. -/
def connected (p : ConnectionPool) (i count node id : Nat) : ConnectionPool :=
  match p.nodeCollection.reportSuccess node with
  | .ok nodeCollection =>
    { p.setReady id true with
      nodeCollection
      allConnections := p.allConnections ++ [id]
      spawns := p.spawns.set i ⟨count, .finishing⟩ }.feedWaiters
  | .error ex => (p.setReady id true).connectFailed i count node ex

/-- `findIdleConnectionTimer`. -/
def findIdleConnectionTimer (p : ConnectionPool) : ConnectionPool :=
  if p.findIdleTimer = .off then { p with findIdleTimer := .sleeping } else p

/-- `dropIdleConnectionTimer`. -/
def dropIdleConnectionTimer (p : ConnectionPool) : ConnectionPool :=
  if p.dropIdleTimer = .off then { p with dropIdleTimer := .sleeping } else p

/-- Get a connection with idle stream, wait until they are available. -/
def getConnection (p : ConnectionPool) : ConnectionPool :=
  let caller := p.nextCaller
  let p := { p with nextCaller := p.nextCaller + 1 }
  if p.allConnections.length < config.minPoolSize then
    let p := p.addWaiter caller
    if p.allConnections.length + p.connectingCount < config.minPoolSize then
      p.spawnConnection nodeConfiguration
    else
      p.findIdleConnectionTimer
  else
    match p.tryGetConnection with
    | (some (id, stream), found) => found.deliver caller id stream
    | (none, p) =>
      let poolIsFull := config.maxPoolSize ≤ p.allConnections.length + p.connectingCount
      if poolIsFull ∧ config.maxWaitersAfterConnectionsExhausted ≤ p.waiters.length then
        p.fail caller ⟨.connectionNotAvailable, "no connections available"⟩
      else
        let p := p.addWaiter caller
        if ¬ poolIsFull then
          (p.spawnConnection nodeConfiguration).dropIdleConnectionTimer
        else
          p.findIdleConnectionTimer

/-- Return the connection to the pool manually. -/
def returnConnection (p : ConnectionPool) (id stream : Nat) : ConnectionPool :=
  let p := p.closeStream id stream
  match p.waiters with
  | [] => p
  | caller :: rest =>
    match { p with waiters := rest }.openStream id with
    | (some stream, opened) => opened.deliver caller id stream
    | (none, p) =>
      p.fail caller (logicException "open stream form a returned connection failed")

/-- One tick of the timer used to find idle connection and feed waiters. -/
def findIdleTick (p : ConnectionPool) : ConnectionPool :=
  let p := p.feedWaiters
  if p.waiters.isEmpty then
    { p with findIdleTimer := .stopping }
  else if p.allConnections.length + p.connectingCount < config.minPoolSize then
    p.spawnConnection nodeConfiguration
  else
    p

/-- The `finally` of the same timer. -/
def findIdleFinally (p : ConnectionPool) : ConnectionPool :=
  let p := { p with findIdleTimer := .off }
  if p.waiters.isEmpty then p else p.findIdleConnectionTimer

/-- `connection->isAllStreamsFree()`. -/
def isAllStreamsFree (p : ConnectionPool) (id : Nat) : Bool :=
  match p.connections[id]? with
  | some connection => connection.isAllStreamsFree (nodeConfiguration connection.node).maxStreams
  | none => false

/-- The `std::remove_if` of the other timer: what is kept, and the running count. -/
def removeIdle (p : ConnectionPool) : Nat → List Nat → List Nat × Nat
  | existCount, [] => ([], existCount)
  | existCount, id :: rest =>
    if !p.isReady id ||
        (decide (config.minPoolSize < existCount) && p.isAllStreamsFree nodeConfiguration id) then
      removeIdle p (existCount - 1) rest
    else
      let (kept, existCount) := removeIdle p existCount rest
      (id :: kept, existCount)

/-- One tick of the timer used to drop idle connections. -/
def dropIdleTick (p : ConnectionPool) : ConnectionPool :=
  let existCount := p.allConnections.length
  if existCount ≤ config.minPoolSize then
    { p with dropIdleTimer := .stopping }
  else
    let (kept, existCount) := removeIdle nodeConfiguration config p existCount p.allConnections
    { p with
      allConnections := kept
      dropIdleTimer := if existCount ≤ config.minPoolSize then .stopping else .sleeping }

/-! ## Events -/

/-- What can happen next. -/
inductive Event
  | getConnection
  /-- A holder returns a connection with its stream. -/
  | returnConnection (id stream : Nat)
  /-- A holder lets its stream go out of scope. -/
  | releaseStream (id stream : Nat)
  /-- A send or receive error closes a connection. -/
  | closeConnection (id : Nat)
  /-- The next iteration of a spawn loop starts. -/
  | spawnChoose (i : Nat)
  /-- The pending `ready()` of a spawn loop succeeds. -/
  | spawnConnected (i : Nat)
  /-- The pending `ready()` of a spawn loop fails. -/
  | spawnConnectFailed (i : Nat) (ex : Exception)
  /-- The `finally` of a spawn loop runs. -/
  | spawnFinally (i : Nat)
  | findIdleTick
  | findIdleFinally
  | dropIdleTick
  | dropIdleFinally
  /-- Another pool calls the shared node collection. -/
  | otherPool (request : NodeCollectionImpl.Call)
  deriving DecidableEq, Repr

/-- One event-loop task. -/
def step (p : ConnectionPool) : Event → Option ConnectionPool
  | .getConnection => some (p.getConnection nodeConfiguration config)
  | .returnConnection id stream =>
    if (id, stream) ∈ p.held then some (p.returnConnection id stream) else none
  | .releaseStream id stream =>
    if (id, stream) ∈ p.held then some (p.closeStream id stream) else none
  | .closeConnection id => some (p.setReady id false)
  | .spawnChoose i =>
    match p.spawns[i]? with
    | some ⟨count, .choosing⟩ => some (p.chooseNode nodeConfiguration i count)
    | _ => none
  | .spawnConnected i =>
    match p.spawns[i]? with
    | some ⟨count, .connecting node id⟩ => some (p.connected i count node id)
    | _ => none
  | .spawnConnectFailed i ex =>
    match p.spawns[i]? with
    | some ⟨count, .connecting node _⟩ => some (p.connectFailed i count node ex)
    | _ => none
  | .spawnFinally i =>
    match p.spawns[i]? with
    | some ⟨count, .finishing⟩ =>
      some { p with
        connectingCount := p.connectingCount - 1
        spawns := p.spawns.set i ⟨count, .finished⟩ }
    | _ => none
  | .findIdleTick =>
    if p.findIdleTimer = .sleeping then some (p.findIdleTick nodeConfiguration config) else none
  | .findIdleFinally => if p.findIdleTimer = .stopping then some p.findIdleFinally else none
  | .dropIdleTick =>
    if p.dropIdleTimer = .sleeping then some (p.dropIdleTick nodeConfiguration config) else none
  | .dropIdleFinally =>
    if p.dropIdleTimer = .stopping then some { p with dropIdleTimer := .off } else none
  | .otherPool request =>
    (p.nodeCollection.call request).map fun nodeCollection => { p with nodeCollection }

/-- What each event requires and does. -/
inductive StepTo (p : ConnectionPool) : Event → ConnectionPool → Prop
  | getConnection : StepTo p .getConnection (p.getConnection nodeConfiguration config)
  | returnConnection {id stream : Nat} (held : (id, stream) ∈ p.held) :
      StepTo p (.returnConnection id stream) (p.returnConnection id stream)
  | releaseStream {id stream : Nat} (held : (id, stream) ∈ p.held) :
      StepTo p (.releaseStream id stream) (p.closeStream id stream)
  | closeConnection {id : Nat} : StepTo p (.closeConnection id) (p.setReady id false)
  | spawnChoose {i count : Nat} (spawn : p.spawns[i]? = some (SpawnLoop.mk count .choosing)) :
      StepTo p (.spawnChoose i) (p.chooseNode nodeConfiguration i count)
  | spawnConnected {i count node id : Nat}
      (spawn : p.spawns[i]? = some (SpawnLoop.mk count (.connecting node id))) :
      StepTo p (.spawnConnected i) (p.connected i count node id)
  | spawnConnectFailed {i count node id : Nat} {ex : Exception}
      (spawn : p.spawns[i]? = some (SpawnLoop.mk count (.connecting node id))) :
      StepTo p (.spawnConnectFailed i ex) (p.connectFailed i count node ex)
  | spawnFinally {i count : Nat} (spawn : p.spawns[i]? = some (SpawnLoop.mk count .finishing)) :
      StepTo p (.spawnFinally i)
        { p with
          connectingCount := p.connectingCount - 1
          spawns := p.spawns.set i ⟨count, .finished⟩ }
  | findIdleTick (sleeping : p.findIdleTimer = .sleeping) :
      StepTo p .findIdleTick (p.findIdleTick nodeConfiguration config)
  | findIdleFinally (stopping : p.findIdleTimer = .stopping) :
      StepTo p .findIdleFinally p.findIdleFinally
  | dropIdleTick (sleeping : p.dropIdleTimer = .sleeping) :
      StepTo p .dropIdleTick (p.dropIdleTick nodeConfiguration config)
  | dropIdleFinally (stopping : p.dropIdleTimer = .stopping) :
      StepTo p .dropIdleFinally { p with dropIdleTimer := .off }
  | otherPool {request : NodeCollectionImpl.Call} {c : NodeCollectionImpl}
      (called : p.nodeCollection.call request = some c) :
      StepTo p (.otherPool request) { p with nodeCollection := c }

variable {nodeConfiguration config} in
/-- Every step is one of these. -/
theorem stepTo {p q : ConnectionPool} {event : Event}
    (h : step nodeConfiguration config p event = some q) :
    StepTo nodeConfiguration config p event q := by
  cases event with
  | getConnection =>
    cases h
    exact .getConnection
  | closeConnection id =>
    cases h
    exact .closeConnection
  | otherPool request =>
    obtain ⟨c, hcall, rfl⟩ := Option.map_eq_some_iff.mp h
    exact .otherPool hcall
  | returnConnection id stream =>
    simp only [step, Option.ite_none_right_eq_some, Option.some.injEq] at h
    obtain ⟨held, rfl⟩ := h
    exact .returnConnection held
  | releaseStream id stream =>
    simp only [step, Option.ite_none_right_eq_some, Option.some.injEq] at h
    obtain ⟨held, rfl⟩ := h
    exact .releaseStream held
  | spawnChoose i =>
    simp only [step] at h
    split at h
    next spawn =>
      cases h
      exact .spawnChoose spawn
    · cases h
  | spawnConnected i =>
    simp only [step] at h
    split at h
    next spawn =>
      cases h
      exact .spawnConnected spawn
    · cases h
  | spawnConnectFailed i ex =>
    simp only [step] at h
    split at h
    next spawn =>
      cases h
      exact .spawnConnectFailed spawn
    · cases h
  | spawnFinally i =>
    simp only [step] at h
    split at h
    next spawn =>
      cases h
      exact .spawnFinally spawn
    · cases h
  | findIdleTick =>
    simp only [step, Option.ite_none_right_eq_some, Option.some.injEq] at h
    obtain ⟨sleeping, rfl⟩ := h
    exact .findIdleTick sleeping
  | findIdleFinally =>
    simp only [step, Option.ite_none_right_eq_some, Option.some.injEq] at h
    obtain ⟨stopping, rfl⟩ := h
    exact .findIdleFinally stopping
  | dropIdleTick =>
    simp only [step, Option.ite_none_right_eq_some, Option.some.injEq] at h
    obtain ⟨sleeping, rfl⟩ := h
    exact .dropIdleTick sleeping
  | dropIdleFinally =>
    simp only [step, Option.ite_none_right_eq_some, Option.some.injEq] at h
    obtain ⟨stopping, rfl⟩ := h
    exact .dropIdleFinally stopping

/-- A new pool over a node collection that may have been used before. -/
def system : Math.TransitionSystem ConnectionPool Event where
  start p := ∃ c, NodeCollectionImpl.system.Reachable c ∧ p = create c
  step := step nodeConfiguration config

/-! ## A small pool to run -/

/-- Nodes whose connections have one stream for callers. -/
def oneStream : Nat → NodeConfiguration := fun _ => ⟨2, le_rfl⟩

/-- A new collection of one node. -/
def oneNode : NodeCollectionImpl := ⟨[⟨0, false⟩], 0, [], 1⟩

theorem oneNode_reachable : NodeCollectionImpl.system.Reachable oneNode :=
  .of_start ⟨[0], by decide, rfl⟩

end ConnectionPool

end CqlDriver
