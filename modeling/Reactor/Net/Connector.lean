import Mathlib.Logic.Function.Basic
import Mathlib.Data.BitVec
import Reactor.Lib.Runs
import Reactor.Net.Channel

/-!
# Net — Connector

One `Connector` in its loop: the attempts to connect, the handlers of its channel, the retry timers
and the functors it queues.  The functors run in their order and the timers in any; both may come
between any two events.  What `::connect`, `getsockname` and `getpeername` answer, and how an
attempt ends, is the kernel's choice.

* Sockets are known by the order in which `connect()` made them, as a descriptor may be used again
  after it is closed.
* A `Channel` destroyed while the poller has it stays in the poller; an event for it is undefined
  behaviour.
* `reported`, `errorSeen` and `destroyed` are history.
-/

namespace Reactor.Net
open Reactor.Lib

/-! ### Sockets -/

/-- The values of `errno` that `connect()` tells apart. -/
inductive ConnectErrno where
  | EINPROGRESS
  | EINTR
  | EISCONN
  | EAGAIN
  | EADDRINUSE
  | EADDRNOTAVAIL
  | ECONNREFUSED
  | ENETUNREACH
  | EACCES
  | EPERM
  | EAFNOSUPPORT
  | EALREADY
  | EBADF
  | EFAULT
  | ENOTSOCK
  | other (n : Nat)
  deriving DecidableEq, Repr

/-- What has become of an attempt to connect. -/
inductive Outcome where
  | pending
  | succeeded
  | failed
  deriving DecidableEq, Repr

/-- A socket as the kernel has it. -/
structure Attempt where
  outcome : Outcome
  /-- `SO_ERROR`, where `none` is 0. -/
  soError : Option ConnectErrno
  deriving DecidableEq, Repr

/-- How the attempt stands when `::connect` has returned. -/
def connectOutcome : Option ConnectErrno → Outcome
  | none | some .EISCONN => .succeeded
  | some .EINPROGRESS | some .EINTR => .pending
  | some _ => .failed

/-- The sockets made by `connect()`, and what was done with them. -/
structure Sockets where
  /-- The number of them. -/
  created : Nat
  attempts : Nat → Attempt
  /-- The calls of `close`. -/
  closed : List Nat
  /-- The calls of `_newConnectionCallback`. -/
  reported : List Nat
  /-- The sockets of which `handleError` read an error. -/
  errorSeen : List Nat

namespace Sockets

/-- No socket has been created. -/
def new : Sockets := ⟨0, fun _ => ⟨.pending, none⟩, [], [], []⟩

/-- `createNonblockingOrDie`, and `::connect` with this result. -/
def connect (S : Sockets) (ret : Option ConnectErrno) : Sockets :=
  { S with
    created := S.created + 1
    attempts := Function.update S.attempts S.created ⟨connectOutcome ret, none⟩ }

/-- `close(sockfd)`, of a socket of the connector. -/
def close (S : Sockets) (sockfd : Nat) : Sockets := { S with closed := S.closed ++ [sockfd] }

/-- `_newConnectionCallback(sockfd)` -/
def report (S : Sockets) (sockfd : Nat) : Sockets := { S with reported := S.reported ++ [sockfd] }

/-- The answer of `getSocketError`. -/
def socketError (S : Sockets) (sockfd : Nat) : Option ConnectErrno := (S.attempts sockfd).soError

/-- `getSocketError`: the error is cleared. -/
def clearError (S : Sockets) (sockfd : Nat) : Sockets :=
  { S with
    attempts := Function.update S.attempts sockfd { S.attempts sockfd with soError := none } }

/-- `getSocketError` in `handleError`. -/
def seeError (S : Sockets) (sockfd : Nat) : Sockets :=
  let seen := if (S.socketError sockfd).isSome then [sockfd] else []
  { S.clearError sockfd with errorSeen := S.errorSeen ++ seen }

/-- The attempt ends, without an error or with this one. -/
def complete (S : Sockets) (sockfd : Nat) (error : Option ConnectErrno) : Sockets :=
  let outcome : Outcome := if error.isSome then .failed else .succeeded
  { S with attempts := Function.update S.attempts sockfd ⟨outcome, error⟩ }

/-- An error on an established connection. -/
def fail (S : Sockets) (sockfd : Nat) (error : ConnectErrno) : Sockets :=
  { S with attempts := Function.update S.attempts sockfd ⟨.succeeded, some error⟩ }

end Sockets

/-- `sin6_family` -/
inductive SaFamily where
  | AF_INET
  | AF_INET6
  | other
  deriving DecidableEq, Repr

/-- A `sockaddr_in6`, which `getsockname` and `getpeername` fill for either family. -/
structure SockaddrIn6 where
  sin6_family : SaFamily
  sin6_port : BitVec 16
  /-- In the place where a `sockaddr_in` has `sin_addr`. -/
  sin6_flowinfo : BitVec 32
  sin6_addr : BitVec 128
  deriving DecidableEq, Repr

/-- `sockets::isSelfConnect`.  `memcmp` is not 0 where the addresses differ. -/
def isSelfConnect (localaddr peeraddr : SockaddrIn6) : Bool :=
  match localaddr.sin6_family with
  | .AF_INET => localaddr.sin6_port == peeraddr.sin6_port &&
      localaddr.sin6_flowinfo == peeraddr.sin6_flowinfo
  | .AF_INET6 => localaddr.sin6_port == peeraddr.sin6_port &&
      localaddr.sin6_addr != peeraddr.sin6_addr
  | .other => false

/-! ### The connector -/

/-- The states of a connector. -/
inductive States where
  | kDisconnected
  | kConnecting
  | kConnected
  deriving DecidableEq, Repr

/-- The channel of an attempt, with its descriptor. -/
structure SocketChannel extends Channel where
  fd : Nat
  deriving DecidableEq, Repr

/-- What the connector queues in its loop. -/
inductive ConnectorFunctor where
  | startInLoop
  | resetChannel
  deriving DecidableEq, Repr

/-- The longest delay of a retry. -/
def kMaxRetryDelayMs : Nat := 30 * 1000

/-- The delay of the first retry. -/
def kInitRetryDelayMs : Nat := 500

/-- `Connector`, with its sockets, its timers and its functors in the loop. -/
structure Connector where
  /-- `_connect` -/
  connectFlag : Bool
  /-- `_state` -/
  state : States
  /-- `_channel` -/
  channel : Option SocketChannel
  /-- `_retryDelayMs` -/
  retryDelayMs : Nat
  /-- The pending functors of the loop that are the connector's. -/
  functors : List ConnectorFunctor
  /-- The delays of the retry timers that have not fired. -/
  timers : List Nat
  sockets : Sockets
  /-- The sockets whose channel was destroyed while the poller had it. -/
  destroyed : List Nat
  /-- The behaviour is undefined. -/
  undefined : Bool

/-- The cases of the `switch` on `savedErrno`. -/
inductive ConnectCase where
  | connecting
  | retry
  | close
  deriving DecidableEq, Repr

/-- The `switch` in `connect`. -/
def connectCase : Option ConnectErrno → ConnectCase
  | none | some .EINPROGRESS | some .EINTR | some .EISCONN => .connecting
  | some .EAGAIN | some .EADDRINUSE | some .EADDRNOTAVAIL | some .ECONNREFUSED
  | some .ENETUNREACH => .retry
  | some .EACCES | some .EPERM | some .EAFNOSUPPORT | some .EALREADY | some .EBADF
  | some .EFAULT | some .ENOTSOCK => .close
  | some (.other _) => .close

namespace Connector

/-- The constructor. -/
def new : Connector where
  connectFlag := false
  state := .kDisconnected
  channel := none
  retryDelayMs := kInitRetryDelayMs
  functors := []
  timers := []
  sockets := .new
  destroyed := []
  undefined := false

/-- The socket whose channel the poller has. -/
def held (s : Connector) : Option Nat :=
  s.channel.bind fun c => if c.registered then some c.fd else none

/-- `retry(sockfd)`: the socket is closed, and a timer set if the connector is to connect. -/
def retry (s : Connector) (sockfd : Nat) : Connector :=
  let s := { s with sockets := s.sockets.close sockfd, state := .kDisconnected }
  if s.connectFlag then
    { s with
      timers := s.timers ++ [s.retryDelayMs]
      retryDelayMs := min (s.retryDelayMs * 2) kMaxRetryDelayMs }
  else s

/-- `_channel.reset(channel)` -/
def setChannel (s : Connector) (channel : Option SocketChannel) : Connector :=
  { s with channel := channel, destroyed := s.destroyed ++ s.held.toList }

/-- `resetChannel()` -/
def resetChannel (s : Connector) : Connector := s.setChannel none

/-- `connecting(sockfd)`: a new channel that waits for the attempt to end. -/
def connecting (s : Connector) (sockfd : Nat) : Connector :=
  let s := { s with state := .kConnecting }
  s.setChannel (some { Channel.new.enableWriting with fd := sockfd })

/-- `connect()`, when `::connect` has answered `ret`. -/
def connect (s : Connector) (ret : Option ConnectErrno) : Connector :=
  let sockfd := s.sockets.created
  let s := { s with sockets := s.sockets.connect ret }
  match connectCase ret with
  | .connecting => s.connecting sockfd
  | .retry => s.retry sockfd
  | .close => { s with sockets := s.sockets.close sockfd }

/-- `startInLoop()` -/
def startInLoop (s : Connector) (ret : Option ConnectErrno) : Connector :=
  if s.connectFlag then s.connect ret else s

/-- `start()` on the loop thread. -/
def start (s : Connector) (ret : Option ConnectErrno) : Connector :=
  { s with connectFlag := true }.startInLoop ret

/-- `start()` on another thread. -/
def startElsewhere (s : Connector) : Connector :=
  { s with connectFlag := true, functors := s.functors ++ [.startInLoop] }

/-- `restart()` -/
def restart (s : Connector) (ret : Option ConnectErrno) : Connector :=
  { s with
    state := .kDisconnected
    retryDelayMs := kInitRetryDelayMs
    connectFlag := true }.startInLoop ret

/-- `stop()`, which queues `startInLoop`. -/
def stop (s : Connector) : Connector :=
  { s with connectFlag := false, functors := s.functors ++ [.startInLoop] }

/-- `removeAndResetChannel()`: the channel leaves the poller, and goes when the loop runs
functors. -/
def removeAndResetChannel (s : Connector) (c : SocketChannel) : Connector :=
  { s with
    channel := some { c with toChannel := c.disableAll.remove }
    functors := s.functors ++ [.resetChannel] }

/-- A member call through `_channel`. -/
def withChannel (s : Connector) (f : SocketChannel → Connector) : Connector :=
  match s.channel with
  | some c => f c
  | none => { s with undefined := true }

/-- `handleWrite()`, with the addresses the two ends of the socket have. -/
def handleWrite (s : Connector) (localaddr peeraddr : SockaddrIn6) : Connector :=
  if s.state = .kConnecting then
    s.withChannel fun c =>
      let sockfd := c.fd
      let s := s.removeAndResetChannel c
      let err := s.sockets.socketError sockfd
      let s := { s with sockets := s.sockets.clearError sockfd }
      if err.isSome then s.retry sockfd
      else if isSelfConnect localaddr peeraddr then s.retry sockfd
      else
        let s := { s with state := .kConnected }
        if s.connectFlag then { s with sockets := s.sockets.report sockfd }
        else { s with sockets := s.sockets.close sockfd }
  else s

/-- `handleError()`, which reads the error and does nothing about it. -/
def handleError (s : Connector) : Connector :=
  if s.state = .kConnecting then
    s.withChannel fun c =>
      let sockfd := c.fd
      let s := s.removeAndResetChannel c
      { s with sockets := s.sockets.seeError sockfd }
  else s

/-- `Channel::handleEvent` with `EPOLLERR` and `EPOLLOUT` in `_revents`; for other events the
channel has no callback. -/
def dispatch (s : Connector) (err out : Bool) (localaddr peeraddr : SockaddrIn6) : Connector :=
  let s := if err then s.handleError else s
  if out then s.handleWrite localaddr peeraddr else s

/-- The functor runs in the loop; `ret` is for its `connect`. -/
def runFunctor (s : Connector) (f : ConnectorFunctor) (ret : Option ConnectErrno) : Connector :=
  match f with
  | .startInLoop => s.startInLoop ret
  | .resetChannel => s.resetChannel

end Connector

/-- Each step that may call `::connect` has what it returns. -/
inductive ConnectorStep where
  | start (ret : Option ConnectErrno)
  | startElsewhere
  | restart (ret : Option ConnectErrno)
  | stop
  | functor (ret : Option ConnectErrno)
  | timer (delay : Nat) (ret : Option ConnectErrno)
  | dispatch (err out : Bool) (localaddr peeraddr : SockaddrIn6)
  | dispatchDestroyed (sockfd : Nat)
  | complete (sockfd : Nat) (error : Option ConnectErrno)
  | fail (sockfd : Nat) (error : ConnectErrno)

namespace Connector

/-- The calls of the client, the functors, timers and events of the loop, and the kernel. -/
inductive Step : Connector → ConnectorStep → Connector → Prop where
  | start {s} (ret : Option ConnectErrno) : Step s (.start ret) (s.start ret)
  | startElsewhere {s} : Step s .startElsewhere s.startElsewhere
  | restart {s} (ret : Option ConnectErrno) : Step s (.restart ret) (s.restart ret)
  | stop {s} : Step s .stop s.stop
  | functor {s} {f : ConnectorFunctor} {rest : List ConnectorFunctor} (ret : Option ConnectErrno)
      (hf : s.functors = f :: rest) :
      Step s (.functor ret) ({ s with functors := rest }.runFunctor f ret)
  | timer {s} {delay : Nat} (ret : Option ConnectErrno) (hd : delay ∈ s.timers) :
      Step s (.timer delay ret) ({ s with timers := s.timers.erase delay }.startInLoop ret)
  /-- The socket is writable only once the attempt is over. -/
  | dispatch {s} {k : Nat} (err out : Bool) (localaddr peeraddr : SockaddrIn6)
      (hk : s.held = some k)
      (hout : out = true → (s.sockets.attempts k).outcome ≠ .pending) :
      Step s (.dispatch err out localaddr peeraddr) (s.dispatch err out localaddr peeraddr)
  | dispatchDestroyed {s} {k : Nat} (hk : k ∈ s.destroyed) :
      Step s (.dispatchDestroyed k) { s with undefined := true }
  | complete {s} {k : Nat} (error : Option ConnectErrno)
      (hk : (s.sockets.attempts k).outcome = .pending) (hlt : k < s.sockets.created) :
      Step s (.complete k error) { s with sockets := s.sockets.complete k error }
  | fail {s} {k : Nat} (error : ConnectErrno) (hk : (s.sockets.attempts k).outcome = .succeeded) :
      Step s (.fail k error) { s with sockets := s.sockets.fail k error }

end Connector

/-! ### What the calls do -/

namespace Connector

/-- The poller has the channel of that socket. -/
theorem held_eq_some {s : Connector} {k : Nat} :
    s.held = some k ↔ ∃ c, s.channel = some c ∧ c.registered = true ∧ c.fd = k := by
  simp [held, Option.bind_eq_some_iff]

theorem retry_eq (s : Connector) (sockfd : Nat) : s.retry sockfd = { s with
    sockets := s.sockets.close sockfd
    state := .kDisconnected
    timers := s.timers ++ if s.connectFlag then [s.retryDelayMs] else []
    retryDelayMs := if s.connectFlag then min (s.retryDelayMs * 2) kMaxRetryDelayMs
      else s.retryDelayMs } := by
  cases h : s.connectFlag with
  | true => simp [retry, h]
  | false => simp [retry, h]

/-- `connect()`, case by case. -/
theorem connect_cases (s : Connector) (ret : Option ConnectErrno) :
    connectCase ret = .connecting ∧ connectOutcome ret ≠ .failed ∧
        s.connect ret = { s with
          sockets := s.sockets.connect ret
          state := .kConnecting
          channel := some { Channel.new.enableWriting with fd := s.sockets.created }
          destroyed := s.destroyed ++ s.held.toList } ∨
      connectCase ret = .retry ∧
        s.connect ret = { s with sockets := s.sockets.connect ret }.retry s.sockets.created ∨
      connectCase ret = .close ∧
        s.connect ret =
          { s with sockets := (s.sockets.connect ret).close s.sockets.created } := by
  cases hcase : connectCase ret with
  | connecting =>
    refine .inl ⟨rfl, ?_, by simp only [connect, hcase]; rfl⟩
    revert hcase
    rcases ret with _ | e
    · simp [connectOutcome]
    · cases e <;> simp [connectCase, connectOutcome]
  | retry => exact .inr (.inl ⟨rfl, by simp only [connect, hcase]⟩)
  | close => exact .inr (.inr ⟨rfl, by simp only [connect, hcase]⟩)

/-- `handleWrite()` for the attempt under way: it is tried again, reported, or given up. -/
theorem handleWrite_cases {s : Connector} {c : SocketChannel} (hs : s.state = .kConnecting)
    (hc : s.channel = some c) (localaddr peeraddr : SockaddrIn6) :
    (s.sockets.socketError c.fd ≠ none ∨ isSelfConnect localaddr peeraddr = true) ∧
        s.handleWrite localaddr peeraddr = { s.removeAndResetChannel c with
          sockets := s.sockets.clearError c.fd }.retry c.fd ∨
      (s.sockets.socketError c.fd = none ∧ isSelfConnect localaddr peeraddr = false) ∧
        (s.connectFlag = true ∧ s.handleWrite localaddr peeraddr = { s.removeAndResetChannel c with
            sockets := (s.sockets.clearError c.fd).report c.fd
            state := .kConnected } ∨
          s.connectFlag = false ∧ s.handleWrite localaddr peeraddr =
            { s.removeAndResetChannel c with
              sockets := (s.sockets.clearError c.fd).close c.fd
              state := .kConnected }) := by
  have hsockets : (s.removeAndResetChannel c).sockets = s.sockets := rfl
  have hflag : (s.removeAndResetChannel c).connectFlag = s.connectFlag := rfl
  cases herr : s.sockets.socketError c.fd with
  | some e =>
    exact .inl ⟨.inl (by simp), by simp [handleWrite, hs, withChannel, hc, hsockets, herr]⟩
  | none =>
    cases hself : isSelfConnect localaddr peeraddr with
    | true =>
      exact .inl ⟨.inr rfl, by simp [handleWrite, hs, withChannel, hc, hsockets, herr, hself]⟩
    | false =>
      refine .inr ⟨⟨rfl, rfl⟩, ?_⟩
      cases hconnect : s.connectFlag with
      | true =>
        exact .inl ⟨rfl, by
          simp [handleWrite, hs, withChannel, hc, hsockets, herr, hself, hflag, hconnect]⟩
      | false =>
        exact .inr ⟨rfl, by
          simp [handleWrite, hs, withChannel, hc, hsockets, herr, hself, hflag, hconnect]⟩

/-- What `handleError` does where there is an attempt. -/
theorem handleError_eq {s : Connector} {c : SocketChannel} (hs : s.state = .kConnecting)
    (hc : s.channel = some c) : s.handleError = { s.removeAndResetChannel c with
      sockets := s.sockets.seeError c.fd } := by
  simp only [handleError, hs, if_true, withChannel, hc]
  rfl

/-- The handlers do nothing unless an attempt is under way. -/
theorem dispatch_idle {s : Connector} (hs : s.state ≠ .kConnecting) (err out : Bool)
    (localaddr peeraddr : SockaddrIn6) : s.dispatch err out localaddr peeraddr = s := by
  have herr : s.handleError = s := by simp [handleError, hs]
  have hwrite : s.handleWrite localaddr peeraddr = s := by simp [handleWrite, hs]
  cases err <;> cases out <;> simp [dispatch, herr, hwrite]

end Connector

/-- A connector that has been constructed, and all that can follow. -/
def connectorMachine : Machine Connector ConnectorStep where
  init s := s = .new
  step := Connector.Step

end Reactor.Net
