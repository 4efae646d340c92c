import Reactor.Net.PendingFunctors
import Reactor.Net.WriteInterest

/-!
# Net — a connection shared by threads

A `TcpConnection`, the `EventLoop` it belongs to, and threads that call `send` and `shutdown` on
it.  Each call is cut where another thread can come in: it loads `_state`; `shutdown` stores
`kDisconnecting`; then `sendInLoop` or `shutdownInLoop` is run in place, in the loop thread, or
queued, in any other; then the call returns.  The loop thread dispatches the connection's events
and runs the queued functors as `EventLoop.Step` has it.

`send(const std::string&)` binds the address of the string's characters into the functor, so
`memory` is part of the state, and a thread may write to it between its calls.

`sends`, `handed`, `returned`, `shutdownCalled` and `due` are history: the messages of the sends
that saw `kConnected`, numbered in the order in which they were queued or run; what `sendInLoop`
was called on, by number; the sends that have returned; and those among them at the time
`shutdown()` was called.
-/

namespace Reactor.Net
open Reactor.Lib

/-- The argument of `send`: a string, given by where its characters are, or the readable bytes of
a `Buffer`. -/
inductive SendArg where
  | string (data len : Nat)
  | buffer (message : List Byte)
  deriving DecidableEq

/-- The bytes of the argument; a string's are those in memory now. -/
def SendArg.bytes (memory : Nat → Byte) : SendArg → List Byte
  | .string data len => (List.range len).map fun k => memory (data + k)
  | .buffer message => message

/-- The address lies in the characters of the string. -/
def SendArg.Spans (a : Nat) : SendArg → Prop
  | .string data len => data ≤ a ∧ a < data + len
  | .buffer _ => False

/-- The functors that go through the loop's queue. -/
inductive Task where
  /-- `sendInLoop` bound by the send of that number. -/
  | sendInLoop (call : Nat) (arg : SendArg)
  | shutdownInLoop
  /-- A callback the connection queued. -/
  | callback (f : ConnFunctor)
  /-- A functor of client code, or of another connection. -/
  | other
  deriving DecidableEq

/-- The call of `send` a functor belongs to. -/
def Task.call? : Task → Option Nat
  | .sendInLoop call _ => some call
  | _ => none

/-- Where a thread is in a call of `send` or `shutdown`. -/
inductive ClientPc where
  | idle
  /-- `send` has seen `kConnected`. -/
  | sendLoaded (arg : SendArg)
  /-- `shutdown` has seen `kConnected`. -/
  | shutdownLoaded
  /-- `shutdown` has stored `kDisconnecting`. -/
  | shutdownStored
  /-- The functor has been run or queued; the call is a send of that number, or `shutdown`. -/
  | returning (call : Option Nat)
  deriving DecidableEq

/-- A connection, its loop and the threads that call it; the rest is history: what was sent, what
`sendInLoop` was called with, and which calls have returned. -/
structure SharedConn (T : Type) where
  loop : EventLoop T Task
  conn : Conn
  clients : T → ClientPc
  memory : Nat → Byte
  sends : List (List Byte)
  handed : List (Nat × List Byte)
  returned : List Nat
  shutdownCalled : Bool
  due : List Nat

namespace EventLoop

variable {T F : Type} [DecidableEq T]

/-- `queueInLoop` called in the loop thread. -/
def queueHere (s : EventLoop T F) (f : F) : EventLoop T F :=
  (s.emplaceBack s.threadId f).queueInLoopWakeup s.threadId

end EventLoop

namespace SharedConn

variable {T : Type} [DecidableEq T]

/-- No call has been made. -/
def new (threadId : T) (conn : Conn) (memory : Nat → Byte) : SharedConn T where
  loop := .new threadId
  conn := conn
  clients := fun _ => .idle
  memory := memory
  sends := []
  handed := []
  returned := []
  shutdownCalled := false
  due := []

/-- What is queued in the loop, oldest first. -/
def queue (s : SharedConn T) : List Task := s.loop.queue.contents

/-- A thread gets to another place in a call. -/
def setClient (s : SharedConn T) (t : T) (pc : ClientPc) : SharedConn T :=
  { s with clients := Function.update s.clients t pc }

/-- The loop thread has run a function of the connection; the callbacks it queued go into the
loop's queue. -/
def setConn (s : SharedConn T) (c : Conn) : SharedConn T :=
  { s with
    conn := c
    loop := (c.queued.drop s.conn.queued.length).foldl (fun l f => l.queueHere (.callback f))
      s.loop }

/-- `sendInLoop` in the loop thread, for the send of that number. -/
def handOver (s : SharedConn T) (call : Nat) (data : List Byte) (r : WriteResult) :
    SharedConn T :=
  { s.setConn (s.conn.sendInLoop data r) with handed := s.handed ++ [(call, data)] }

/-- The loop calls a functor of its queue. -/
def runTask (s : SharedConn T) (r : WriteResult) : Task → SharedConn T
  | .sendInLoop call arg => s.handOver call (arg.bytes s.memory) r
  | .shutdownInLoop => s.setConn s.conn.shutdownInLoop
  | .callback _ | .other => s

/-- The body of `send`, after the test of `_state`. -/
def sendAct (s : SharedConn T) (t : T) (arg : SendArg) (r : WriteResult) : SharedConn T :=
  let call := s.sends.length
  let s := { s with sends := s.sends ++ [arg.bytes s.memory] }.setClient t (.returning (some call))
  if s.loop.isInLoopThread t then s.handOver call (arg.bytes s.memory) r
  else { s with loop := s.loop.emplaceBack t (.sendInLoop call arg) }

/-- `shutdown()` is called: it loads `_state`. -/
def shutdownCall (s : SharedConn T) (t : T) : SharedConn T :=
  { s with shutdownCalled := true, due := s.returned }.setClient t
    (if s.conn.state = StateE.kConnected then .shutdownLoaded else .idle)

/-- `_loop->runInLoop` in `shutdown`. -/
def shutdownAct (s : SharedConn T) (t : T) : SharedConn T :=
  let s := s.setClient t (.returning none)
  if s.loop.isInLoopThread t then s.setConn s.conn.shutdownInLoop
  else { s with loop := s.loop.emplaceBack t .shutdownInLoop }

theorem sendAct_eq (s : SharedConn T) (t : T) (arg : SendArg) (r : WriteResult) :
    s.sendAct t arg r =
      if s.loop.isInLoopThread t then
        ({ s with sends := s.sends ++ [arg.bytes s.memory] }.setClient t
          (.returning (some s.sends.length))).handOver s.sends.length (arg.bytes s.memory) r
      else
        { { s with sends := s.sends ++ [arg.bytes s.memory] }.setClient t
            (.returning (some s.sends.length)) with
          loop := s.loop.emplaceBack t (.sendInLoop s.sends.length arg) } := rfl

theorem shutdownAct_eq (s : SharedConn T) (t : T) :
    s.shutdownAct t =
      if s.loop.isInLoopThread t then
        (s.setClient t (.returning none)).setConn s.conn.shutdownInLoop
      else
        { s.setClient t (.returning none) with
          loop := s.loop.emplaceBack t .shutdownInLoop } := rfl

/-- `t` can start a call: it is not in one, and the loop thread starts one from client code. -/
def CanCall (s : SharedConn T) (t : T) : Prop := s.clients t = .idle ∧ s.loop.CanCall t

/-- The steps of the loop that are not calls on this connection: the loop thread is not in such a
call, and neither is a thread that queues a functor or quits. -/
def Free (s : SharedConn T) : LoopStep T Task → Prop
  | .call => False
  | .queueInLoop t task | .runInLoop t task => s.clients t = .idle ∧ task = .other
  | .quit t => s.clients t = .idle
  | .queueInLoopWakeup _ | .quitWakeup _ => True
  | _ => s.clients s.loop.threadId = .idle

/-- The functions of the connection the loop thread runs without closing it: `connectEstablished`
once, from client code, and the handlers from `Channel::handleEvent`. -/
def Runs (s : SharedConn T) : ConnStep → Prop
  | .connectEstablished => s.conn.state = .kConnecting ∧ s.loop.InClientCode
  | .handleRead (.data bytes) => bytes ≠ [] ∧ ∃ rest, s.loop.pc = .dispatch (.other :: rest)
  | .handleWrite _ => ∃ rest, s.loop.pc = .dispatch (.other :: rest)
  | _ => False

end SharedConn

/-- The steps of the loop, of its functors, of the connection in it, and of the threads that call
`send` and `shutdown`. -/
inductive SharedStep (T : Type) where
  | loop (l : LoopStep T Task)
  | call (r : WriteResult)
  | conn (l : ConnStep)
  | send (t : T) (arg : SendArg)
  | sendAct (t : T) (r : WriteResult)
  | shutdown (t : T)
  | storeState (t : T)
  | shutdownAct (t : T)
  | ret (t : T)
  | store (t : T) (a : Nat) (b : Byte)

namespace SharedConn

variable {T : Type} [DecidableEq T]

/-- The steps; the test of the state and what follows it in `send` and `shutdown` are steps of their
own. -/
inductive Step : SharedConn T → SharedStep T → SharedConn T → Prop where
  | loop {s : SharedConn T} {l : LoopStep T Task} {u : EventLoop T Task}
      (h : EventLoop.Step s.loop l u) (hl : s.Free l) : Step s (.loop l) { s with loop := u }
  | call {s : SharedConn T} {u : EventLoop T Task} {task : Task} (r : WriteResult)
      (hidle : s.clients s.loop.threadId = .idle) (h : EventLoop.Step s.loop .call u)
      (hpc : u.pc = .run (some task))
      (hr : ∀ call arg, task = .sendInLoop call arg → r.Fits (arg.bytes s.memory).length) :
      Step s (.call r) (SharedConn.runTask { s with loop := u } r task)
  | conn {s : SharedConn T} (l : ConnStep) (hidle : s.clients s.loop.threadId = .idle)
      (hidle' : s.loop.callers s.loop.threadId = .idle) (hl : s.Runs l)
      (hp : l.Possible s.conn) : Step s (.conn l) (s.setConn (l.run s.conn))
  /-- A send that does not see `kConnected` does nothing. -/
  | send {s : SharedConn T} (t : T) (arg : SendArg) (hc : s.CanCall t) :
      Step s (.send t arg)
        (s.setClient t (if s.conn.state = .kConnected then .sendLoaded arg else .idle))
  | sendAct {s : SharedConn T} (t : T) (arg : SendArg) (r : WriteResult)
      (hc : s.clients t = .sendLoaded arg) (hr : r.Fits (arg.bytes s.memory).length) :
      Step s (.sendAct t r) (s.sendAct t arg r)
  /-- The one call of `shutdown()`. -/
  | shutdown {s : SharedConn T} (t : T) (hc : s.CanCall t) (hone : s.shutdownCalled = false) :
      Step s (.shutdown t) (s.shutdownCall t)
  | storeState {s : SharedConn T} (t : T) (hc : s.clients t = .shutdownLoaded) :
      Step s (.storeState t)
        ({ s with conn := s.conn.setState .kDisconnecting }.setClient t .shutdownStored)
  | shutdownAct {s : SharedConn T} (t : T) (hc : s.clients t = .shutdownStored) :
      Step s (.shutdownAct t) (s.shutdownAct t)
  | ret {s : SharedConn T} (t : T) {call : Option Nat} (hc : s.clients t = .returning call)
      (hidle : s.loop.callers t = .idle) :
      Step s (.ret t) ({ s with returned := s.returned ++ call.toList }.setClient t .idle)
  | store {s : SharedConn T} (t : T) (a : Nat) (b : Byte) (hc : s.clients t = .idle) :
      Step s (.store t a b) { s with memory := Function.update s.memory a b }

end SharedConn

/-- The machine, from a constructed loop and a constructed connection. -/
def sharedMachine (T : Type) [DecidableEq T] : Machine (SharedConn T) (SharedStep T) where
  init s := ∃ threadId mark writeComplete highWater memory,
    s = .new threadId (.new mark writeComplete highWater) memory
  step := SharedConn.Step

end Reactor.Net
