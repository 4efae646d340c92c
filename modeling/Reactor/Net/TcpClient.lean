import Reactor.Net.Connector

/-!
# Net — TcpClient

`TcpClient` with its `Connector`, and one thread besides the loop's that calls `connect`,
`disconnect` and `stop`.  Client and connector each have a `_connect`.  Every read and every write
of one is a step, and so is the queueing of a functor; between two of them a function touches only
what is the loop's own.

* `Connector.connectCall`, `Connector.writeCall`, `Connector.readFlag`: the connector's functions,
  cut at the read of its flag.
* `TcpClient.refines`: each step of the connector's machine in its loop's thread is a run of the
  client's.

`connectDestroyed`, which `removeConnection` queues, changes nothing of this and is left out.
-/

namespace Reactor.Net
open Reactor.Lib

/-- Where the loop's thread is: in none of the functions, or before its next step in one. -/
inductive LoopStage where
  | idle
  /-- `removeConnection`, before `_retry && _connect`. -/
  | removing
  /-- `restart`, before `_connect = true`. -/
  | restarting
  /-- `startInLoop`, before `if (_connect)`. -/
  | starting
  /-- `startInLoop`, before `connect()`. -/
  | entering
  /-- `retry`, before `if (_connect)`. -/
  | retrying
  /-- `handleWrite`, before `if (_connect)`. -/
  | reporting (sockfd : Nat)
  deriving DecidableEq, Repr

/-- Where the calling thread is. -/
inductive CallerStage where
  | outside
  /-- `Connector::start`, before `_connect = true`. -/
  | starting
  /-- `Connector::start`, before `runInLoop`. -/
  | queueingStart
  /-- `Connector::stop`, before `_connect = false`. -/
  | stopping
  /-- `Connector::stop`, before `queueInLoop`. -/
  | queueingStop
  /-- `TcpClient::stop`, before it returns. -/
  | returning
  deriving DecidableEq, Repr

namespace Connector

/-- `retry` before it reads `_connect`. -/
def retryClose (s : Connector) (sockfd : Nat) : Connector :=
  { s with sockets := s.sockets.close sockfd, state := .kDisconnected }

/-- `connect()`, as far as the read in `retry`. -/
def connectCall (s : Connector) (ret : Option ConnectErrno) : Connector × LoopStage :=
  let sockfd := s.sockets.created
  let s := { s with sockets := s.sockets.connect ret }
  match connectCase ret with
  | .connecting => (s.connecting sockfd, .idle)
  | .retry => (s.retryClose sockfd, .retrying)
  | .close => ({ s with sockets := s.sockets.close sockfd }, .idle)

/-- `handleWrite()`, as far as its read or that in `retry`. -/
def writeCall (s : Connector) (localaddr peeraddr : SockaddrIn6) : Connector × LoopStage :=
  if s.state = .kConnecting then
    match s.channel with
    | none => ({ s with undefined := true }, .idle)
    | some c =>
      let sockfd := c.fd
      let s := s.removeAndResetChannel c
      let err := s.sockets.socketError sockfd
      let s := { s with sockets := s.sockets.clearError sockfd }
      if err.isSome then (s.retryClose sockfd, .retrying)
      else if isSelfConnect localaddr peeraddr then (s.retryClose sockfd, .retrying)
      else ({ s with state := .kConnected }, .reporting sockfd)
  else (s, .idle)

/-- `Channel::handleEvent`, as far as the read. -/
def dispatchCall (s : Connector) (err out : Bool) (localaddr peeraddr : SockaddrIn6) :
    Connector × LoopStage :=
  let s := if err then s.handleError else s
  if out then s.writeCall localaddr peeraddr else (s, .idle)

/-- `if (_connect)`, and what follows it in `retry` and in `handleWrite`. -/
def readFlag (s : Connector) : LoopStage → Connector
  | .retrying =>
    if s.connectFlag then
      { s with
        timers := s.timers ++ [s.retryDelayMs]
        retryDelayMs := min (s.retryDelayMs * 2) kMaxRetryDelayMs }
    else s
  | .reporting sockfd =>
    if s.connectFlag then { s with sockets := s.sockets.report sockfd }
    else { s with sockets := s.sockets.close sockfd }
  | _ => s

/-- The two parts of `connect()`. -/
theorem connect_cut (s : Connector) (ret : Option ConnectErrno) :
    s.connect ret = (s.connectCall ret).1.readFlag (s.connectCall ret).2 := by
  unfold connect connectCall
  cases connectCase ret <;> rfl

/-- The two parts of an event. -/
theorem dispatch_cut (s : Connector) (err out : Bool) (localaddr peeraddr : SockaddrIn6) :
    s.dispatch err out localaddr peeraddr =
      (s.dispatchCall err out localaddr peeraddr).1.readFlag
        (s.dispatchCall err out localaddr peeraddr).2 := by
  have hwrite : ∀ s : Connector, s.handleWrite localaddr peeraddr =
      (s.writeCall localaddr peeraddr).1.readFlag (s.writeCall localaddr peeraddr).2 := fun s => by
    unfold handleWrite writeCall
    split
    · cases hc : s.channel with
      | none => simp [withChannel, hc, readFlag]
      | some c =>
        simp only [withChannel, hc]
        split
        · rfl
        · split <;> rfl
    · rfl
  unfold dispatch dispatchCall
  cases out with
  | true => exact hwrite _
  | false => rfl

end Connector

/-! ### The client -/

/-- `TcpClient` with its connector, and the places of the loop's thread and of the one that calls
it. -/
structure TcpClient where
  /-- `_retry` -/
  retry : Bool
  /-- `_connect` -/
  connectFlag : Bool
  /-- `_connection`, known by its socket. -/
  connection : Option Nat
  /-- The connections that have not been closed. -/
  opened : List Nat
  /-- `_connector` -/
  connector : Connector
  stage : LoopStage
  caller : CallerStage
  /-- `stop()` has returned, and `connect()` has not been called since. -/
  stopped : Bool

namespace TcpClient

/-- The constructor. -/
def new : TcpClient where
  retry := false
  connectFlag := true
  connection := none
  opened := []
  connector := .new
  stage := .idle
  caller := .outside
  stopped := false

/-- `newConnection(sockfd)` -/
def newConnection (s : TcpClient) (sockfd : Nat) : TcpClient :=
  { s with connection := some sockfd, opened := s.opened ++ [sockfd] }

/-- The read of the connector's flag in `retry` or `handleWrite`, which may call
`_newConnectionCallback`. -/
def readFlag (s : TcpClient) : TcpClient :=
  let t := { s with connector := s.connector.readFlag s.stage, stage := .idle }
  match s.stage with
  | .reporting sockfd => if s.connector.connectFlag then t.newConnection sockfd else t
  | _ => t

/-- What the loop's thread has called, as far as it has come. -/
def enter (s : TcpClient) (c : Connector × LoopStage) : TcpClient :=
  { s with connector := c.1, stage := c.2 }

end TcpClient

/-- The steps of the loop's thread, of the kernel, and of the thread that calls. -/
inductive ClientStep where
  | removeConnection (sockfd : Nat)
  | readConnect
  | restart
  | functor
  | timer (delay : Nat)
  | readStart
  | connect (ret : Option ConnectErrno)
  | dispatch (err out : Bool) (localaddr peeraddr : SockaddrIn6)
  | dispatchDestroyed (sockfd : Nat)
  | readFlag
  | complete (sockfd : Nat) (error : Option ConnectErrno)
  | fail (sockfd : Nat) (error : ConnectErrno)
  | enableRetry
  | callConnect
  | storeStart
  | queueStart
  | callDisconnect
  | callStop
  | storeStop
  | queueStop
  | returnStop

namespace TcpClient

/-- The steps, in this order of threads. -/
inductive Step : TcpClient → ClientStep → TcpClient → Prop where
  /-- A connection closes: `_connection.reset()`. -/
  | removeConnection {s : TcpClient} {k : Nat} (hs : s.stage = .idle) (hk : k ∈ s.opened) :
      Step s (.removeConnection k)
        { s with connection := none, opened := s.opened.erase k, stage := .removing }
  | readConnect {s : TcpClient} (hs : s.stage = .removing) :
      Step s .readConnect
        { s with stage := if s.retry && s.connectFlag then .restarting else .idle }
  | restart {s : TcpClient} (hs : s.stage = .restarting) :
      Step s .restart { s with
        connector := { s.connector with
          state := .kDisconnected
          retryDelayMs := kInitRetryDelayMs
          connectFlag := true }
        stage := .starting }
  | functor {s : TcpClient} {f : ConnectorFunctor} {rest : List ConnectorFunctor}
      (hs : s.stage = .idle) (hf : s.connector.functors = f :: rest) :
      Step s .functor (match f with
        | .startInLoop => s.enter ({ s.connector with functors := rest }, .starting)
        | .resetChannel => s.enter ({ s.connector with functors := rest }.resetChannel, .idle))
  | timer {s : TcpClient} {delay : Nat} (hs : s.stage = .idle) (hd : delay ∈ s.connector.timers) :
      Step s (.timer delay)
        (s.enter ({ s.connector with timers := s.connector.timers.erase delay }, .starting))
  | readStart {s : TcpClient} (hs : s.stage = .starting) :
      Step s .readStart { s with stage := if s.connector.connectFlag then .entering else .idle }
  /-- `connect()` is entered. -/
  | connect {s : TcpClient} (ret : Option ConnectErrno) (hs : s.stage = .entering) :
      Step s (.connect ret) (s.enter (s.connector.connectCall ret))
  | dispatch {s : TcpClient} {k : Nat} (err out : Bool) (localaddr peeraddr : SockaddrIn6)
      (hs : s.stage = .idle) (hk : s.connector.held = some k)
      (hout : out = true → (s.connector.sockets.attempts k).outcome ≠ .pending) :
      Step s (.dispatch err out localaddr peeraddr)
        (s.enter (s.connector.dispatchCall err out localaddr peeraddr))
  | dispatchDestroyed {s : TcpClient} {k : Nat} (hs : s.stage = .idle)
      (hk : k ∈ s.connector.destroyed) :
      Step s (.dispatchDestroyed k) (s.enter ({ s.connector with undefined := true }, .idle))
  | readFlag {s : TcpClient} (hs : s.stage = .retrying ∨ ∃ sockfd, s.stage = .reporting sockfd) :
      Step s .readFlag s.readFlag
  /-- The kernel. -/
  | complete {s : TcpClient} {k : Nat} (error : Option ConnectErrno)
      (hk : (s.connector.sockets.attempts k).outcome = .pending)
      (hlt : k < s.connector.sockets.created) :
      Step s (.complete k error) { s with
        connector := { s.connector with sockets := s.connector.sockets.complete k error } }
  | fail {s : TcpClient} {k : Nat} (error : ConnectErrno)
      (hk : (s.connector.sockets.attempts k).outcome = .succeeded) :
      Step s (.fail k error) { s with
        connector := { s.connector with sockets := s.connector.sockets.fail k error } }
  /-- The calling thread. -/
  | enableRetry {s : TcpClient} (hc : s.caller = .outside) :
      Step s .enableRetry { s with retry := true }
  | callConnect {s : TcpClient} (hc : s.caller = .outside) :
      Step s .callConnect { s with connectFlag := true, caller := .starting, stopped := false }
  | storeStart {s : TcpClient} (hc : s.caller = .starting) :
      Step s .storeStart { s with
        connector := { s.connector with connectFlag := true }, caller := .queueingStart }
  | queueStart {s : TcpClient} (hc : s.caller = .queueingStart) :
      Step s .queueStart { s with
        connector := { s.connector with functors := s.connector.functors ++ [.startInLoop] }
        caller := .outside }
  /-- `disconnect`; the close it brings about is `removeConnection`. -/
  | callDisconnect {s : TcpClient} (hc : s.caller = .outside) :
      Step s .callDisconnect { s with connectFlag := false }
  | callStop {s : TcpClient} (hc : s.caller = .outside) :
      Step s .callStop { s with connectFlag := false, caller := .stopping }
  | storeStop {s : TcpClient} (hc : s.caller = .stopping) :
      Step s .storeStop { s with
        connector := { s.connector with connectFlag := false }, caller := .queueingStop }
  | queueStop {s : TcpClient} (hc : s.caller = .queueingStop) :
      Step s .queueStop { s with
        connector := { s.connector with functors := s.connector.functors ++ [.startInLoop] }
        caller := .returning }
  | returnStop {s : TcpClient} (hc : s.caller = .returning) :
      Step s .returnStop { s with caller := .outside, stopped := true }

end TcpClient

/-- The loop's thread, the calling thread and the kernel. -/
def clientMachine : Machine TcpClient ClientStep where
  init s := s = .new
  step := TcpClient.Step

/-! ### Uninterrupted calls -/

namespace TcpClient

open Machine

variable {s : TcpClient}

/-- A call of the loop's thread runs to its end, and leaves the connector so. -/
def RunsTo (s : TcpClient) (c : Connector) : Prop :=
  ∃ tr t, clientMachine.Run s tr t ∧ t.connector = c ∧ t.stage = .idle

theorem RunsTo.cons {t : TcpClient} {l : ClientStep} {c : Connector}
    (h : clientMachine.step s l t) (ht : t.RunsTo c) : s.RunsTo c := by
  obtain ⟨tr, u, hr, hc, hu⟩ := ht
  exact ⟨[(s, l)] ++ tr, u, (Run.one h).trans hr, hc, hu⟩

/-- Where a call is cut: at its end, or at the read of the flag. -/
def Cut (stage : LoopStage) : Prop :=
  stage = .idle ∨ stage = .retrying ∨ ∃ sockfd, stage = .reporting sockfd

/-- What follows the read of the flag. -/
theorem runsTo_readFlag (s : TcpClient) {c : Connector × LoopStage} (hc : Cut c.2) :
    (s.enter c).RunsTo (c.1.readFlag c.2) := by
  rcases hc with hc | hc
  · exact ⟨[], s.enter c, .nil, by rw [hc]; rfl, hc⟩
  · refine .cons (Step.readFlag hc) ⟨[], _, .nil, ?_, ?_⟩
    · rcases hc with hc | ⟨sockfd, hc⟩
      · simp [TcpClient.readFlag, enter, hc]
      · by_cases hflag : c.1.connectFlag = true <;>
          simp [TcpClient.readFlag, enter, hc, hflag, newConnection]
    · rcases hc with hc | ⟨sockfd, hc⟩
      · simp [TcpClient.readFlag, enter, hc]
      · by_cases hflag : c.1.connectFlag = true <;>
          simp [TcpClient.readFlag, enter, hc, hflag, newConnection]

/-- `connect()` is cut at the read of the flag, or not at all. -/
theorem cut_connectCall (c : Connector) (ret : Option ConnectErrno) :
    Cut (c.connectCall ret).2 := by
  unfold Connector.connectCall Cut
  cases connectCase ret <;> simp

theorem cut_writeCall (c : Connector) (localaddr peeraddr : SockaddrIn6) :
    Cut (c.writeCall localaddr peeraddr).2 := by
  unfold Connector.writeCall
  split
  · cases c.channel with
    | none => exact .inl rfl
    | some ch =>
      simp only
      split
      · exact .inr (.inl rfl)
      · split
        · exact .inr (.inl rfl)
        · exact .inr (.inr ⟨_, rfl⟩)
  · exact .inl rfl

theorem cut_dispatchCall (c : Connector) (err out : Bool) (localaddr peeraddr : SockaddrIn6) :
    Cut (c.dispatchCall err out localaddr peeraddr).2 := by
  unfold Connector.dispatchCall
  cases out with
  | false => exact .inl rfl
  | true => exact cut_writeCall _ localaddr peeraddr

theorem runsTo_startInLoop (hs : s.stage = .starting) (ret : Option ConnectErrno) :
    s.RunsTo (s.connector.startInLoop ret) := by
  refine .cons (Step.readStart hs) ?_
  rw [Connector.startInLoop]
  split
  · refine .cons (Step.connect ret rfl) ?_
    rw [Connector.connect_cut]
    exact runsTo_readFlag _ (cut_connectCall _ ret)
  · exact ⟨[], _, .nil, rfl, rfl⟩

/-- **A step of the connector in its loop's thread is a run of the client.** -/
theorem refines (hs : s.stage = .idle) {l : ConnectorStep} {c : Connector}
    (hl : match l with
      | .functor _ | .timer _ _ | .dispatch _ _ _ _ | .dispatchDestroyed _ => True
      | _ => False)
    (h : Connector.Step s.connector l c) : s.RunsTo c := by
  cases h with
  | @functor f rest ret hf =>
    refine .cons (Step.functor hs hf) ?_
    cases f with
    | startInLoop => exact runsTo_startInLoop (s := s.enter _) rfl ret
    | resetChannel => exact ⟨[], _, .nil, rfl, rfl⟩
  | timer ret hd =>
    exact .cons (Step.timer hs hd) (runsTo_startInLoop (s := s.enter _) rfl ret)
  | dispatch err out localaddr peeraddr hk hout =>
    refine .cons (Step.dispatch err out localaddr peeraddr hs hk hout) ?_
    rw [Connector.dispatch_cut]
    exact runsTo_readFlag _ (cut_dispatchCall _ err out localaddr peeraddr)
  | dispatchDestroyed hk => exact .cons (Step.dispatchDestroyed hs hk) ⟨[], _, .nil, rfl, rfl⟩
  | _ => exact hl.elim

theorem runsTo_restart (hs : s.stage = .restarting) (ret : Option ConnectErrno) :
    s.RunsTo (s.connector.restart ret) :=
  .cons (Step.restart hs) (runsTo_startInLoop (s := { s with
    connector := { s.connector with
      state := .kDisconnected
      retryDelayMs := kInitRetryDelayMs
      connectFlag := true }
    stage := .starting }) rfl ret)

/-- So is the reconnection of a client, its flags set. -/
theorem refines_restart (hs : s.stage = .idle) {k : Nat} (hk : k ∈ s.opened)
    (hretry : s.retry = true) (hflag : s.connectFlag = true) (ret : Option ConnectErrno) :
    s.RunsTo (s.connector.restart ret) :=
  .cons (Step.removeConnection hs hk)
    (.cons (Step.readConnect rfl) (runsTo_restart (by simp [hretry, hflag]) ret))

end TcpClient

end Reactor.Net
