import Mathlib.Logic.Function.Basic
import Reactor.Lib.Format
import Reactor.Net.ConnectionEvents

/-!
# Net — TcpServer

`TcpServer` with the loops of its connections: the map `_connections`, and for each loop the
functors in its queue and those it is running.  A loop that runs none is handling events.  `log` is
history: what was done to a connection, in which loop's thread, and whether from
`doPendingFunctors`.

A connection is a `Conn`, and what its loop does to it a step of `ConnStep`; if that invokes the
close callback, `removeConnection` is called.  The destructor is taken apart, so that the io loops
may go on while it walks the map, and until it has joined their threads; they go on after it if
someone else has a share in the pool.
-/

namespace Reactor.Net
open Reactor.Lib

/-! ### Addresses -/

/-- An IPv4 address with its port. -/
structure InetAddress where
  /-- `sin_addr` -/
  addr : UInt8 × UInt8 × UInt8 × UInt8
  /-- `sin_port`, in host byte order. -/
  port : UInt16

namespace InetAddress

/-- `inet_ntop` -/
def toIp (a : InetAddress) : List Byte :=
  decimal a.addr.1.toNat ++ 46 :: (decimal a.addr.2.1.toNat ++ 46 ::
    (decimal a.addr.2.2.1.toNat ++ 46 :: decimal a.addr.2.2.2.toNat))

/-- `toIpPort()` -/
def toIpPort (a : InetAddress) : List Byte := a.toIp ++ 58 :: decimal a.port.toNat

end InetAddress

/-! ### The objects -/

/-- The base loop, or one of the pool. -/
inductive LoopId where
  | base
  | io (k : Nat)
  deriving DecidableEq, Repr

/-- What the server and its connections queue in loops; a connection is named by the number of
connections accepted before it. -/
inductive ServerFunctor where
  | connectEstablished (i : Nat)
  | forceCloseInLoop (i : Nat)
  | removeConnectionInLoop (i : Nat)
  | connectDestroyed (i : Nat)
  deriving DecidableEq, Repr

/-- What is logged of a connection: `connectEstablished`, an event handled, `handleClose`,
`removeConnectionInLoop`, the visit of the server's destructor, and `connectDestroyed`. -/
inductive Action where
  | established
  | event
  | closed
  | removed
  | swept
  | destroyed
  deriving DecidableEq, Repr

/-- An entry of the history. -/
structure LogEntry where
  action : Action
  conn : Nat
  /-- The loop in whose thread it was done. -/
  loop : LoopId
  /-- From `doPendingFunctors`, not from the dispatch of events. -/
  inFunctors : Bool
  /-- The server's destructor had finished. -/
  late : Bool
  deriving DecidableEq, Repr

/-- A connection, with the loop and the name it was constructed with. -/
structure ServerConn where
  /-- `_loop` -/
  loop : LoopId
  /-- `_name` -/
  name : List Byte
  conn : Conn

/-- How far the destructor has come, with the entries it has still to visit. -/
inductive Teardown where
  | alive
  | sweeping (rest : List Nat)
  | gone

/-- What the server is constructed and started with. -/
structure ServerConfig where
  name : List Byte
  listenAddr : InetAddress
  /-- `_loops.size()` -/
  numLoops : Nat
  /-- `_writeCompleteCallback` is set. -/
  writeCompleteCallback : Bool
  /-- A copy of `threadPool()` outlives the server. -/
  poolShared : Bool

/-- `TcpServer` with its connections and its loops. -/
structure TcpServer where
  /-- `_next` of the pool. -/
  next : Nat
  /-- `_nextConnId` -/
  nextConnId : BitVec 32
  /-- `_connections` -/
  connections : List Byte → Option Nat
  /-- The connections accepted so far. -/
  conns : List ServerConn
  /-- `_pendingFunctors` of each loop. -/
  queue : LoopId → List ServerFunctor
  /-- The functors `doPendingFunctors` has still to run, if it is running. -/
  batch : LoopId → Option (List ServerFunctor)
  teardown : Teardown
  log : List LogEntry

/-- The step invokes the close callback. -/
def ConnStep.Closes (c : Conn) : ConnStep → Prop
  | .handleClose => True
  | .handleRead r => r = .data []
  | .forceCloseInLoop => c.state = .kConnected ∨ c.state = .kDisconnecting
  | _ => False

/-- Whether a step closes can be computed. -/
instance (c : Conn) : (l : ConnStep) → Decidable (l.Closes c)
  | .handleClose => .isTrue trivial
  | .handleRead r => decEq r (.data [])
  | .forceCloseInLoop => inferInstanceAs (Decidable (c.state = .kConnected ∨ _))
  | .connectEstablished | .connectDestroyed | .sendInLoop _ _ | .shutdown | .shutdownInLoop
  | .forceClose | .handleWrite _ => .isFalse id

namespace TcpServer

/-- The constructor, and `start`. -/
def new : TcpServer where
  next := 0
  nextConnId := 1
  connections := fun _ => none
  conns := []
  queue := fun _ => []
  batch := fun _ => none
  teardown := .alive
  log := []

variable (s : TcpServer)

/-- An entry is added to the history. -/
def record (L : LoopId) (a : Action) (i : Nat) : TcpServer :=
  { s with log := s.log ++ [⟨a, i, L, (s.batch L).isSome, s.teardown matches .gone⟩] }

/-- `queueInLoop` of the loop `L`. -/
def queueInLoop (L : LoopId) (f : ServerFunctor) : TcpServer :=
  { s with queue := Function.update s.queue L (s.queue L ++ [f]) }

/-- A connection changes. -/
def setConn (i : Nat) (c : Conn) : TcpServer :=
  { s with conns := s.conns.modify i fun x => { x with conn := c } }

/-- `removeConnectionInLoop`, in the base loop's thread. -/
def removeConnectionInLoop (i : Nat) : TcpServer :=
  match s.conns[i]? with
  | none => s
  | some x =>
    let s := s.record .base .removed i
    let s := { s with connections := Function.update s.connections x.name none }
    s.queueInLoop x.loop (.connectDestroyed i)

/-- `removeConnection`, called in the thread of `L`: `runInLoop` of the base loop. -/
def removeConnection (L : LoopId) (i : Nat) : TcpServer :=
  if L = .base then s.removeConnectionInLoop i
  else s.queueInLoop .base (.removeConnectionInLoop i)

/-- A step of the connection, in the thread of `L`, with its close callback. -/
def runConn (L : LoopId) (i : Nat) (l : ConnStep) : TcpServer :=
  match s.conns[i]? with
  | none => s
  | some x =>
    let t := s.setConn i (l.run x.conn)
    if l.Closes x.conn then (t.record L .closed i).removeConnection L i else t

/-- `connectEstablished` of the connection, in the thread of `L`. -/
def connectEstablished (L : LoopId) (i : Nat) : TcpServer :=
  (s.record L .established i).runConn L i .connectEstablished

/-- `connectDestroyed` of the connection, in the thread of `L`. -/
def connectDestroyed (L : LoopId) (i : Nat) : TcpServer :=
  (s.record L .destroyed i).runConn L i .connectDestroyed

/-- A functor run in the thread of `L`. -/
def runFunctor (L : LoopId) : ServerFunctor → TcpServer
  | .connectEstablished i => s.connectEstablished L i
  | .forceCloseInLoop i => s.runConn L i .forceCloseInLoop
  | .removeConnectionInLoop i => s.removeConnectionInLoop i
  | .connectDestroyed i => s.connectDestroyed L i

/-- `getNextLoop` of the pool: the loop, and `_next` after it. -/
def getNextLoop (g : ServerConfig) : LoopId × Nat :=
  if g.numLoops = 0 then (.base, s.next)
  else (.io s.next, if s.next + 1 ≥ g.numLoops then 0 else s.next + 1)

/-- The name of a connection; `buf` has 64 bytes. -/
def connName (g : ServerConfig) (id : BitVec 32) : List Byte :=
  g.name ++ snprintf 64 (45 :: (g.listenAddr.toIpPort ++ 35 :: signed id.toInt))

/-- `newConnection`, in the base loop's thread. -/
def newConnection (g : ServerConfig) : TcpServer :=
  let (ioLoop, next) := s.getNextLoop g
  let name := connName g s.nextConnId
  let i := s.conns.length
  let conn : ServerConn :=
    ⟨ioLoop, name, .new (64 * 1024 * 1024) g.writeCompleteCallback false⟩
  let s := { s with
    next := next
    nextConnId := s.nextConnId + 1
    conns := s.conns ++ [conn]
    connections := Function.update s.connections name (some i) }
  if ioLoop = .base then s.connectEstablished .base i
  else s.queueInLoop ioLoop (.connectEstablished i)

/-- The destructor visits a connection: `runInLoop` of its loop. -/
def sweep (i : Nat) : TcpServer :=
  match s.conns[i]? with
  | none => s
  | some x =>
    let s := s.record .base .swept i
    if x.loop = .base then s.connectDestroyed .base i
    else s.queueInLoop x.loop (.connectDestroyed i)

/-- The base loop's thread is not in the destructor. -/
def Free (L : LoopId) : Prop := L = .base → ∀ rest, s.teardown ≠ .sweeping rest

/-- The loop has a thread: those of the pool end with the pool. -/
def Runs (g : ServerConfig) (L : LoopId) : Prop :=
  L ≠ .base → s.teardown = .gone → g.poolShared = true

/-- What may be handled as an event; `handleError` only logs. -/
def IsEvent : ConnStep → Prop
  | .handleRead _ | .handleWrite _ | .handleClose => True
  | _ => False

/-- What a client's call does to the connection at once; `forceClose` is taken apart. -/
def IsCall : ConnStep → Prop
  | .sendInLoop _ _ | .shutdown | .shutdownInLoop => True
  | _ => False

end TcpServer

/-! ### Runs -/

/-- The steps of the base loop, of the io loops, of the threads that have a connection, and of the
destructor. -/
inductive ServerStep where
  | accept
  | event (i : Nat) (l : ConnStep)
  | call (i : Nat) (l : ConnStep)
  | storeDisconnecting (i : Nat)
  | queueForceClose (i : Nat)
  | swap (L : LoopId)
  | run (L : LoopId)
  | done (L : LoopId)
  | destroy (order : List Nat)
  | sweep
  | finish

/-- One step of the base loop, an io loop, a client or the destructor. -/
inductive TcpServer.Step (g : ServerConfig) : TcpServer → ServerStep → TcpServer → Prop where
  | accept {s : TcpServer} (ht : s.teardown = .alive) (hb : s.batch .base = none) :
      Step g s .accept (s.newConnection g)
  /-- The poller knows the channel, and the loop is handling events. -/
  | event {s : TcpServer} {i : Nat} {x : ServerConn} {l : ConnStep} (hx : s.conns[i]? = some x)
      (hf : s.Free x.loop) (hb : s.batch x.loop = none) (hr : x.conn.channel.registered = true)
      (hl : IsEvent l) (hp : l.Possible x.conn) (hg : s.Runs g x.loop) :
      Step g s (.event i l) ((s.record x.loop .event i).runConn x.loop i l)
  /-- A client has a connection once it is no longer in `kConnecting`. -/
  | call {s : TcpServer} {i : Nat} {x : ServerConn} {l : ConnStep} (hx : s.conns[i]? = some x)
      (hc : x.conn.state ≠ .kConnecting) (hl : IsCall l) (hp : l.Possible x.conn) :
      Step g s (.call i l) (s.setConn i (l.run x.conn))
  /-- `shutdown` and `forceClose` of any thread, the test having been made before. -/
  | storeDisconnecting {s : TcpServer} {i : Nat} {x : ServerConn} (hx : s.conns[i]? = some x)
      (hc : x.conn.state ≠ .kConnecting) :
      Step g s (.storeDisconnecting i) (s.setConn i (x.conn.setState .kDisconnecting))
  | queueForceClose {s : TcpServer} {i : Nat} {x : ServerConn} (hx : s.conns[i]? = some x)
      (hc : x.conn.state ≠ .kConnecting) :
      Step g s (.queueForceClose i) (s.queueInLoop x.loop (.forceCloseInLoop i))
  /-- `doPendingFunctors` takes the queue. -/
  | swap {s : TcpServer} {L : LoopId} (hf : s.Free L) (hb : s.batch L = none) (hg : s.Runs g L) :
      Step g s (.swap L) { s with
        batch := Function.update s.batch L (some (s.queue L))
        queue := Function.update s.queue L [] }
  | run {s : TcpServer} {L : LoopId} {f : ServerFunctor} {rest : List ServerFunctor}
      (hf : s.Free L) (hb : s.batch L = some (f :: rest)) (hg : s.Runs g L) :
      Step g s (.run L)
        ({ s with batch := Function.update s.batch L (some rest) }.runFunctor L f)
  | done {s : TcpServer} {L : LoopId} (hf : s.Free L) (hb : s.batch L = some [])
      (hg : s.Runs g L) :
      Step g s (.done L) { s with batch := Function.update s.batch L none }
  /-- The destructor begins, in the base loop's thread; the order of the map is its own. -/
  | destroy {s : TcpServer} {order : List Nat} (ht : s.teardown = .alive) (hn : order.Nodup)
      (ho : ∀ i, i ∈ order ↔ ∃ name, s.connections name = some i) :
      Step g s (.destroy order) { s with teardown := .sweeping order }
  | sweep {s : TcpServer} {i : Nat} {rest : List Nat} (ht : s.teardown = .sweeping (i :: rest)) :
      Step g s .sweep { s.sweep i with teardown := .sweeping rest }
  /-- The destructor ends; the threads of the pool have been joined if the pool is destroyed. -/
  | finish {s : TcpServer} (ht : s.teardown = .sweeping [])
      (hg : g.poolShared = false → ∀ k, s.batch (.io k) = none) :
      Step g s .finish { s with teardown := .gone, connections := fun _ => none }

/-- The server, its loops and its clients. -/
def serverMachine (g : ServerConfig) : Machine TcpServer ServerStep where
  init s := s = .new
  step := TcpServer.Step g

end Reactor.Net
