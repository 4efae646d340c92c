import Reactor.Net.ConnectionLife

/-!
# Net — connections kept apart

The io loops, the base loop and the clients of a server all work on its connections, and each
connection is named by its place in the order of acceptance only.  What is transmitted on one is
what was sent on that one.

* `server_output`: the output stream of a connection in every run of its server.
-/

namespace Reactor.Net
open Reactor.Lib

/-- The bytes a step of the server hands to a connection to transmit; only a call hands any. -/
def ServerStep.message (s : TcpServer) (i : Nat) : ServerStep → List Byte
  | .event j l | .call j l => if j = i then (s.conns[i]?).elim [] fun x => l.message x.conn else []
  | _ => []

/-- All that a run hands to a connection, in order. -/
def serverMessages (i : Nat) (tr : List (TcpServer × ServerStep)) : List Byte :=
  tr.flatMap fun p => p.2.message p.1 i

variable {g : ServerConfig} {s t : TcpServer} {i : Nat} {x : ServerConn}

/-- A step in the life of a connection takes on what it is handed. -/
theorem Life.Step.outputStream {v w : Life} {k : LifeStep} {l : ServerStep} (h : Life.Step v k w)
    (hdoes : l.Does s i k) (hx : s.conns[i]? = some x) (hv : v.conn = x.conn) :
    w.conn.outputStream = v.conn.outputStream ++ l.message s i := by
  cases h with
  | establish =>
    cases l with
    | run L => exact (List.append_nil _).symm
    | _ => exact hdoes.elim
  | @run l' hl hp =>
    have hstream := ConnStep.outputStream_run hp
    rw [Life.ran, hstream]
    cases l with
    | event j l | call j l =>
      obtain ⟨rfl, rfl⟩ := hdoes
      simp [ServerStep.message, hx, hv]
    | run L =>
      rw [show l' = .forceCloseInLoop from hdoes]
      rfl
    | _ => exact hdoes.elim
  | storeDisconnecting =>
    cases l with
    | storeDisconnecting j => exact (List.append_nil _).symm
    | _ => exact hdoes.elim
  | destroy =>
    cases l with
    | run L => simp [ServerStep.message]
    | _ => exact hdoes.elim

namespace TcpServer

theorem message_of_isEvent {l : ConnStep} (hl : IsEvent l) (c : Conn) : l.message c = [] := by
  cases l <;> first | rfl | exact hl.elim

/-- What is taken on for a connection, in one step of the server. -/
theorem step_outputStream {l : ServerStep} {y : ServerConn} (h : Orderly g s none)
    (ht : s.teardown = .alive) (hd : ∀ order, l ≠ .destroy order)
    (hstep : TcpServer.Step g s l t) (hx : s.conns[i]? = some x) (hy : t.conns[i]? = some y) :
    y.conn.outputStream = x.conn.outputStream ++ l.message s i := by
  obtain ⟨v, hv, hconn, -⟩ := exists_life hx
  obtain ⟨w, hw, hcases⟩ := step_life h ht hd hstep hv
  rw [← conn_of_life hy hw, ← hconn]
  rcases hcases with ⟨rfl, hne⟩ | ⟨k, hk, hdoes⟩
  · have hnone : l.message s i = [] := by
      cases l with
      | call j l =>
        have hij : j ≠ i := fun hij => hne l (by rw [hij])
        exact if_neg hij
      | event j l =>
        cases hstep with
        | event _ _ _ _ hl _ _ => simp [ServerStep.message, hx, message_of_isEvent hl]
      | _ => rfl
    rw [hnone, List.append_nil]
  · exact hk.outputStream hdoes hx hconn

/-- A connection not yet accepted is handed nothing. -/
theorem message_of_none {l : ServerStep} (hi : s.conns[i]? = none) : l.message s i = [] := by
  cases l with
  | event j l | call j l =>
    simp [ServerStep.message, hi]
  | _ => rfl

/-- Nothing has been taken on for a connection just accepted. -/
theorem outputStream_newConnection {y : ServerConn}
    (hy : (s.newConnection g).conns[s.conns.length]? = some y) : y.conn.outputStream = [] := by
  let c : Conn := .new (64 * 1024 * 1024) g.writeCompleteCallback false
  let u := s.insert (s.getNextLoop g).1 (s.getNextLoop g).2 (s.nextConnId + 1)
    (connName g s.nextConnId) c
  have hx : u.conns[s.conns.length]? = some ⟨(s.getNextLoop g).1, connName g s.nextConnId, c⟩ := by
    simp [u, TcpServer.insert]
  have hc : c.outputStream = [] := by simp [c, Conn.outputStream, Conn.new]
  change (if (s.getNextLoop g).1 = .base then u.connectEstablished .base s.conns.length
    else u.queueInLoop (s.getNextLoop g).1 (.connectEstablished s.conns.length)).conns[_]? = _ at hy
  split at hy
  · rw [connectEstablished_eq hx, getElem?_setConn, if_pos rfl] at hy
    obtain ⟨z, -, rfl⟩ := Option.map_eq_some_iff.mp hy
    simpa using hc
  · change u.conns[s.conns.length]? = some y at hy
    rw [hx] at hy
    cases hy
    exact hc

/-- What a run hands to a connection is taken on for it. -/
theorem run_output {tr : List (TcpServer × ServerStep)} (h : (serverMachine g).Run .new tr t)
    (halive : Meets (fun _ l => ∀ order, l ≠ .destroy order) tr) (i : Nat) :
    (t.Orderly g none ∧ t.teardown = .alive) ∧
      serverMessages i tr = (t.conns[i]?).elim [] fun y => y.conn.outputStream := by
  induction h with
  | nil => exact ⟨⟨orderly_init g, rfl⟩, rfl⟩
  | @snoc tr u v l _ hst ih =>
    obtain ⟨halive', hd⟩ := meets_snoc.mp halive
    obtain ⟨⟨hu, hualive⟩, hmessages⟩ := ih halive'
    have hstep : TcpServer.Step g u l v := hst
    refine ⟨⟨orderly_step hu hstep, alive_step hu hualive hd hstep⟩, ?_⟩
    have hsnoc : serverMessages i (tr ++ [(u, l)]) = serverMessages i tr ++ l.message u i := by
      simp [serverMessages]
    rw [hsnoc, hmessages]
    cases hx : u.conns[i]? with
    | some x =>
      obtain ⟨w, hw, -⟩ := exists_life hx
      obtain ⟨w', hw', -⟩ := step_life hu hualive hd hstep hw
      obtain ⟨y, hy, -⟩ := Option.map_eq_some_iff.mp hw'
      rw [hy]
      exact (step_outputStream hu hualive hd hstep hx hy).symm
    | none =>
      rw [message_of_none hx]
      cases hy : v.conns[i]? with
      | none => rfl
      | some y =>
        -- it has just been accepted
        have hi := List.getElem?_eq_none_iff.mp hx
        have hlt := lt_length hy
        rcases step_length hstep with hlen | ⟨rfl, hlen⟩
        · omega
        · obtain rfl : i = u.conns.length := by omega
          cases hstep with
          | accept ht hb => exact (outputStream_newConnection hy).symm

end TcpServer

/-- **The connections are kept apart.**  In every run in which the server is not destroyed, whatever
its loops and its clients do to the other connections: what the kernel has accepted on a connection
followed by what is pending there is what was sent on that connection while it was not disconnected,
in order. -/
theorem server_output {tr : List (TcpServer × ServerStep)} (hinit : (serverMachine g).init s)
    (h : (serverMachine g).Run s tr t)
    (halive : Meets (fun _ l => ∀ order, l ≠ .destroy order) tr) {y : ServerConn}
    (hy : t.conns[i]? = some y) :
    y.conn.accepted ++ y.conn.outputBuffer.content = serverMessages i tr := by
  obtain rfl : s = .new := hinit
  rw [(TcpServer.run_output h halive i).2, hy]
  rfl

/-- The theorem on two connections of one loop, of which the second is sent two bytes. -/
theorem server_output_two : ∃ t, (serverMachine oneLoop).Reachable t ∧
    (∃ y, t.conns[0]? = some y ∧ y.conn.accepted ++ y.conn.outputBuffer.content = []) ∧
    ∃ y, t.conns[1]? = some y ∧ y.conn.accepted ++ y.conn.outputBuffer.content = [7, 8] := by
  let s₁ := TcpServer.new.newConnection oneLoop
  let s₂ := s₁.newConnection oneLoop
  have h₁ : TcpServer.Step oneLoop .new .accept s₁ := .accept rfl rfl
  have h₂ : TcpServer.Step oneLoop s₁ .accept s₂ := .accept rfl rfl
  have h₃ : TcpServer.Step oneLoop s₂ (.call 1 (.sendInLoop [7, 8] (.wrote 1))) _ :=
    .call (x := s₂.conns[1]) rfl (by decide) trivial (by decide)
  have hruns : (serverMachine oneLoop).Run .new _ _ :=
    ((Machine.Run.nil.snoc h₁).snoc h₂).snoc h₃
  have halive : Meets (fun _ l => ∀ order, l ≠ .destroy order)
      ([] ++ [(.new, ServerStep.accept)] ++ [(s₁, .accept)] ++
        [(s₂, .call 1 (.sendInLoop [7, 8] (.wrote 1)))]) := by simp [Meets]
  refine ⟨_, ⟨.new, _, rfl, hruns⟩, ⟨_, rfl, ?_⟩, ⟨_, rfl, ?_⟩⟩
  · exact server_output (i := 0) rfl hruns halive rfl
  · exact server_output (i := 1) rfl hruns halive rfl

end Reactor.Net
