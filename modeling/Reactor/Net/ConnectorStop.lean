import Reactor.Net.ConnectorSockets

/-!
# Net — ConnectorStop

What `Connector::stop()` does to the attempt under way.  It queues `startInLoop`, which finds that
no connection is wanted; `stopInLoop`, which would cancel the attempt, is called nowhere.

* `Waiting`, `Finished`: how the connector stands after `stop()`, before and after `EPOLLOUT` is
  dispatched for the attempt.
* `Step.waiting`, `Step.finished`: which steps lead from one to the other.
* `stop_reports_nothing`: no connection is reported.
* `stop_cancels_iff`: so the attempt is over if and only if there was none, or it has ended by
  itself; no other is begun.
-/

namespace Reactor.Net
open Reactor.Lib

namespace Connector

/-- Neither `start()` nor `restart()`. -/
def Unstarted : ConnectorStep → Prop
  | .start _ | .startElsewhere | .restart _ => False
  | _ => True

/-- `EPOLLOUT` is dispatched for the attempt under way. -/
def Finishes (s : Connector) : ConnectorStep → Prop
  | .dispatch _ out _ _ => s.state = .kConnecting ∧ out = true
  | _ => False

/-- No attempt is under way, and the poller has no channel. -/
def Idle (s : Connector) : Prop :=
  s.state ≠ .kConnecting ∧ s.held = none ∧ s.destroyed = []

/-- No attempt is under way in `t`, and the socket of the one in `s` is closed. -/
def Cancelled (s t : Connector) : Prop := t.Idle ∧ ∀ k, s.held = some k → k ∈ t.sockets.closed

/-! ### After a stop -/

/-- `t` comes after `stop()` in `s`, and the attempt has not ended. -/
structure Waiting (s t : Connector) : Prop where
  connectFlag : t.connectFlag = false
  created : t.sockets.created = s.sockets.created
  state : t.state = s.state
  /-- The channel is as it was, or has been given up or destroyed. -/
  channel : t.held = s.held ∧ t.destroyed = s.destroyed ∨
    t.held = none ∧ s.held ≠ none ∧ (s.state = .kConnecting ∨ t.destroyed ≠ [])

/-- `t` comes after `stop()` in `s`, and the attempt has ended. -/
structure Finished (s t : Connector) : Prop where
  connectFlag : t.connectFlag = false
  created : t.sockets.created = s.sockets.created
  state : t.state ≠ .kConnecting
  held : t.held = none
  destroyed : t.destroyed = s.destroyed
  closed : ∀ k, s.held = some k → k ∈ t.sockets.closed

variable {s t u : Connector} {l : ConnectorStep}

/-- Nothing is under way behind a `stop` exactly if nothing was. -/
theorem Waiting.cancelled_iff (h : Waiting s t) : Cancelled s t ↔ s.Idle := by
  rw [Cancelled, Idle, Idle, h.state]
  rcases h.channel with ⟨hheld, hdestroyed⟩ | ⟨-, hsome, hlost⟩
  · rw [hheld, hdestroyed]
    refine ⟨And.left, fun hi => ⟨hi, fun k hk => ?_⟩⟩
    rw [hi.2.1] at hk
    cases hk
  · refine iff_of_false (fun hi => ?_) fun hi => hsome hi.2.1
    rcases hlost with hstate | hne
    · exact hi.1.1 hstate
    · exact hne hi.1.2.2

/-- An attempt that has ended is cancelled if its channel has not been lost. -/
theorem Finished.cancelled_iff (h : Finished s t) : Cancelled s t ↔ s.destroyed = [] := by
  rw [Cancelled, Idle, h.destroyed]
  exact ⟨fun hi => hi.1.2.2, fun hnil => ⟨⟨h.state, h.held, hnil⟩, h.closed⟩⟩

theorem waiting_stop (s : Connector) : Waiting s s.stop := ⟨rfl, rfl, rfl, .inl ⟨rfl, rfl⟩⟩

/-- The queued functor and the timers find that no connection is wanted. -/
theorem startInLoop_stopped (h : s.connectFlag = false) (ret : Option ConnectErrno) :
    s.startInLoop ret = s := by
  simp [startInLoop, h]

/-- `resetChannel` destroys what channel there is. -/
theorem Waiting.reset (h : Waiting s t) (rest : List ConnectorFunctor) :
    Waiting s { t with functors := rest }.resetChannel := by
  refine ⟨h.connectFlag, h.created, h.state, ?_⟩
  show none = s.held ∧ t.destroyed ++ t.held.toList = s.destroyed ∨
    none = none ∧ s.held ≠ none ∧
      (s.state = .kConnecting ∨ t.destroyed ++ t.held.toList ≠ [])
  rcases h.channel with ⟨hheld, hdestroyed⟩ | ⟨hnone, hsome, hlost⟩
  · rw [hheld, hdestroyed]
    cases s.held with
    | none => simp
    | some k => simp
  · rw [hnone]
    simpa [hsome] using .inr hlost

/-- `EPOLLERR` alone takes the channel out of the poller. -/
theorem Waiting.error {k : Nat} (h : Waiting s t) (hk : t.held = some k)
    (hstate : t.state = .kConnecting) : Waiting s t.handleError := by
  obtain ⟨c, hc, -, -⟩ := held_eq_some.mp hk
  rw [handleError_eq hstate hc]
  refine ⟨h.connectFlag, h.created, h.state, .inr ⟨rfl, ?_, .inl (h.state ▸ hstate)⟩⟩
  rcases h.channel with ⟨hheld, -⟩ | ⟨-, hsome, -⟩
  · rw [← hheld, hk]
    exact Option.some_ne_none k
  · exact hsome

/-- A step after `stop` that does not end the attempt. -/
theorem Step.waiting (h : Waiting s t) (hl : Unstarted l) (hn : ¬ t.Finishes l) (hs : Step t l u) :
    Waiting s u := by
  cases hs with
  | start | startElsewhere | restart => exact hl.elim
  | stop => exact ⟨rfl, h.created, h.state, h.channel⟩
  | @functor f rest ret hf =>
    cases f with
    | startInLoop =>
      rw [Connector.runFunctor, startInLoop_stopped]
      · exact ⟨h.connectFlag, h.created, h.state, h.channel⟩
      · exact h.connectFlag
    | resetChannel => exact h.reset rest
  | timer ret hd =>
    rw [startInLoop_stopped]
    · exact ⟨h.connectFlag, h.created, h.state, h.channel⟩
    · exact h.connectFlag
  | dispatch err out localaddr peeraddr hk hout =>
    by_cases hstate : t.state = .kConnecting
    · cases out with
      | true => exact absurd ⟨hstate, rfl⟩ hn
      | false =>
        cases err with
        | true => exact h.error hk hstate
        | false => exact h
    · rw [dispatch_idle hstate]
      exact h
  | dispatchDestroyed | complete | fail => exact ⟨h.connectFlag, h.created, h.state, h.channel⟩

/-- `handleWrite()` closes the socket, as no connection is wanted. -/
theorem finished_handleWrite {c : SocketChannel} (hflag : t.connectFlag = false)
    (hcreated : t.sockets.created = s.sockets.created) (hstate : t.state = .kConnecting)
    (hc : t.channel = some c) (hdestroyed : t.destroyed = s.destroyed) (hk : s.held = some c.fd)
    (localaddr peeraddr : SockaddrIn6) : Finished s (t.handleWrite localaddr peeraddr) := by
  rcases handleWrite_cases hstate hc localaddr peeraddr with ⟨-, heq⟩ | ⟨-, ⟨hno, -⟩ | ⟨-, heq⟩⟩
  · rw [heq, retry_eq]
    refine ⟨hflag, hcreated, by simp, rfl, hdestroyed, fun k hk' => ?_⟩
    cases hk.symm.trans hk'
    simp [Sockets.close]
  · simp [hflag] at hno
  · rw [heq]
    refine ⟨hflag, hcreated, by simp, rfl, hdestroyed, fun k hk' => ?_⟩
    cases hk.symm.trans hk'
    simp [Sockets.close]

/-- The step that ends it. -/
theorem Step.finishes (h : Waiting s t) (hn : t.Finishes l) (hs : Step t l u) : Finished s u := by
  cases hs with
  | dispatch err out localaddr peeraddr hk hout =>
    obtain ⟨hstate, rfl⟩ := hn
    obtain ⟨c, hc, -, rfl⟩ := held_eq_some.mp hk
    obtain ⟨hheld, hdestroyed⟩ := h.channel.resolve_right fun hno => by simp [hk] at hno
    rw [hk] at hheld
    cases err with
    | false =>
      exact finished_handleWrite h.connectFlag h.created hstate hc hdestroyed hheld.symm localaddr
        peeraddr
    | true =>
      have herr := handleError_eq hstate hc
      exact finished_handleWrite (t := t.handleError)
        (c := { c with toChannel := c.disableAll.remove }) (by rw [herr]; exact h.connectFlag)
        (by rw [herr]; exact h.created) (by rw [herr]; exact hstate) (by rw [herr]; rfl)
        (by rw [herr]; exact hdestroyed) hheld.symm localaddr peeraddr
  | _ => exact hn.elim

/-- The steps behind that one. -/
theorem Step.finished (h : Finished s t) (hl : Unstarted l) (hs : Step t l u) : Finished s u := by
  cases hs with
  | start | startElsewhere | restart => exact hl.elim
  | stop => exact ⟨rfl, h.created, h.state, h.held, h.destroyed, h.closed⟩
  | @functor f rest ret hf =>
    cases f with
    | startInLoop =>
      rw [Connector.runFunctor, startInLoop_stopped]
      · exact ⟨h.connectFlag, h.created, h.state, h.held, h.destroyed, h.closed⟩
      · exact h.connectFlag
    | resetChannel =>
      refine ⟨h.connectFlag, h.created, h.state, rfl, ?_, h.closed⟩
      show t.destroyed ++ t.held.toList = s.destroyed
      simp [h.held, h.destroyed]
  | timer ret hd =>
    rw [startInLoop_stopped]
    · exact ⟨h.connectFlag, h.created, h.state, h.held, h.destroyed, h.closed⟩
    · exact h.connectFlag
  | dispatch err out localaddr peeraddr hk hout =>
    rw [h.held] at hk
    cases hk
  | dispatchDestroyed | complete | fail =>
    exact ⟨h.connectFlag, h.created, h.state, h.held, h.destroyed, h.closed⟩

/-- A run after `stop()`. -/
theorem run_stopped {tr : List (Connector × ConnectorStep)} (hr : connectorMachine.Run s.stop tr t)
    (hl : Meets (fun _ l => Unstarted l) tr) :
    (Meets (fun u l => ¬ u.Finishes l) tr → Waiting s t) ∧
      (¬ Meets (fun u l => ¬ u.Finishes l) tr → Finished s t) := by
  induction hr with
  | nil => exact ⟨fun _ => waiting_stop s, fun hn => absurd (meets_nil _) hn⟩
  | @snoc tr u v l hr hst ih =>
    obtain ⟨hl', hlast⟩ := meets_snoc.mp hl
    obtain ⟨hwaiting, hfinished⟩ := ih hl'
    rw [meets_snoc]
    refine ⟨fun hm => Step.waiting (hwaiting hm.1) hlast hm.2 hst, fun hm => ?_⟩
    by_cases hm' : Meets (fun u l => ¬ u.Finishes l) tr
    · exact Step.finishes (hwaiting hm') (by_contra fun hn => hm ⟨hm', hn⟩) hst
    · exact Step.finished (hfinished hm') hlast hst

/-! ### What is reported after a stop -/

/-- No connection is wanted in `t`, and none was reported since `s`. -/
structure Unreported (s t : Connector) : Prop where
  connectFlag : t.connectFlag = false
  reported : t.sockets.reported = s.sockets.reported

/-- An attempt that is over is tried again without a timer, or its socket is closed. -/
theorem Unreported.handleWrite (h : Unreported s t) (localaddr peeraddr : SockaddrIn6) :
    Unreported s (t.handleWrite localaddr peeraddr) := by
  by_cases hstate : t.state = .kConnecting
  · cases hc : t.channel with
    | none =>
      rw [Connector.handleWrite, if_pos hstate, withChannel, hc]
      exact ⟨h.connectFlag, h.reported⟩
    | some c =>
      rcases handleWrite_cases hstate hc localaddr peeraddr with
        ⟨-, heq⟩ | ⟨-, ⟨hwanted, -⟩ | ⟨-, heq⟩⟩
      · rw [heq, retry_eq]
        exact ⟨h.connectFlag, h.reported⟩
      · rw [h.connectFlag] at hwanted
        cases hwanted
      · rw [heq]
        exact ⟨h.connectFlag, h.reported⟩
  · rw [Connector.handleWrite, if_neg hstate]
    exact h

theorem Unreported.handleError (h : Unreported s t) : Unreported s t.handleError := by
  by_cases hstate : t.state = .kConnecting
  · cases hc : t.channel with
    | none =>
      rw [Connector.handleError, if_pos hstate, withChannel, hc]
      exact ⟨h.connectFlag, h.reported⟩
    | some c =>
      rw [handleError_eq hstate hc]
      exact ⟨h.connectFlag, h.reported⟩
  · rw [Connector.handleError, if_neg hstate]
    exact h

/-- The queued functors and the timers reach `connect()` only if a connection is wanted. -/
theorem Unreported.startInLoop (h : Unreported s t) (ret : Option ConnectErrno) :
    Unreported s (t.startInLoop ret) := by
  rw [startInLoop_stopped h.connectFlag]
  exact h

/-- No step after `stop` reports a socket. -/
theorem Step.unreported (h : Unreported s t) (hl : Unstarted l) (hs : Step t l u) :
    Unreported s u := by
  cases hs with
  | start | startElsewhere | restart => exact hl.elim
  | stop => exact ⟨rfl, h.reported⟩
  | @functor f rest ret hf =>
    cases f with
    | startInLoop =>
      have hrest : Unreported s { t with functors := rest } := ⟨h.connectFlag, h.reported⟩
      exact hrest.startInLoop ret
    | resetChannel => exact ⟨h.connectFlag, h.reported⟩
  | @timer delay ret hd =>
    have hfired : Unreported s { t with timers := t.timers.erase delay } :=
      ⟨h.connectFlag, h.reported⟩
    exact hfired.startInLoop ret
  | dispatch err out localaddr peeraddr hk hout =>
    rw [Connector.dispatch]
    have herror : Unreported s (if err then t.handleError else t) := by
      split
      · exact h.handleError
      · exact h
    cases out with
    | true => exact herror.handleWrite localaddr peeraddr
    | false => exact herror
  | dispatchDestroyed | complete | fail => exact ⟨h.connectFlag, h.reported⟩

end Connector

/-- **Nothing is reported after `stop()`.**  In a run after `stop()` without `start()` or
`restart()`, whatever events, timers, queued functors and further calls of `stop()` come in it,
`_newConnectionCallback` is not invoked. -/
theorem stop_reports_nothing {s t : Connector} {tr : List (Connector × ConnectorStep)}
    (hr : connectorMachine.Run s.stop tr t) (hl : Meets (fun _ l => Connector.Unstarted l) tr) :
    t.sockets.reported = s.sockets.reported := by
  have hstop : Connector.Unreported s s.stop := ⟨rfl, rfl⟩
  have hend : Connector.Unreported s t := hr.keeps Connector.Step.unreported hl hstop
  exact hend.reported

/-- The theorem where the attempt succeeds after the call. -/
theorem stop_reports_nothing_connected : ∃ s t : Connector, ∃ tr,
    connectorMachine.Run s.stop tr t ∧ s.held = some 0 ∧ t.state = .kConnected ∧
    t.sockets.closed = [0] ∧ t.sockets.reported = [] := by
  let addr : SockaddrIn6 := ⟨.AF_INET, 80, 1, 0⟩
  let peer : SockaddrIn6 := ⟨.AF_INET, 81, 1, 0⟩
  let s : Connector := Connector.new.start (some .EINPROGRESS)
  have hr := Machine.Run.nil (M := connectorMachine) (s := s.stop)
    |>.snoc (.complete (k := 0) none rfl (by decide))
    |>.snoc (.dispatch (k := 0) false true addr peer rfl (by decide))
  refine ⟨s, _, _, hr, rfl, rfl, rfl, (stop_reports_nothing hr ?_).trans rfl⟩
  simp only [meets_snoc, meets_nil, true_and]
  exact ⟨trivial, trivial⟩

/-- **When `stop()` cancels the attempt.**  In a run after `stop()` without `start()` or
`restart()`, whether the functor queued by `stop()` has run or not: no socket is made; and no
attempt is under way, no channel is in the poller and the socket is closed, if and only if so it was
when `stop()` was called, or `EPOLLOUT` has been dispatched for the attempt since (and no channel
was destroyed in the poller before). -/
theorem stop_cancels_iff {s t : Connector} {tr : List (Connector × ConnectorStep)}
    (hr : connectorMachine.Run s.stop tr t) (hl : Meets (fun _ l => Connector.Unstarted l) tr) :
    t.sockets.created = s.sockets.created ∧
      (Connector.Cancelled s t ↔
        s.Idle ∨ s.destroyed = [] ∧ ∃ p ∈ tr, p.1.Finishes p.2) := by
  obtain ⟨hwaiting, hfinished⟩ := Connector.run_stopped hr hl
  have hexists : (∃ p ∈ tr, p.1.Finishes p.2) ↔ ¬ Meets (fun u l => ¬ u.Finishes l) tr := by
    simp [Meets]
  rw [hexists]
  by_cases hm : Meets (fun u l => ¬ u.Finishes l) tr
  · have h := hwaiting hm
    refine ⟨h.created, h.cancelled_iff.trans ?_⟩
    simp [hm]
  · have h := hfinished hm
    refine ⟨h.created, h.cancelled_iff.trans ?_⟩
    simp only [hm, not_false_eq_true, and_true]
    exact ⟨.inr, fun hor => hor.elim (fun hi => hi.2.2) id⟩

/-- The theorem where the attempt ends by itself. -/
theorem stop_cancels_refused : ∃ s t tr, connectorMachine.Run s.stop tr t ∧ t.functors.length = 1 ∧
    s.held = some 0 ∧ Connector.Cancelled s t := by
  let addr : SockaddrIn6 := ⟨.AF_INET, 80, 1, 0⟩
  let s : Connector := Connector.new.start (some .EINPROGRESS)
  have hr := Machine.Run.nil (M := connectorMachine) (s := s.stop)
    |>.snoc (.functor none rfl)
    |>.snoc (.complete (k := 0) (some .ECONNREFUSED) rfl (by decide))
    |>.snoc (.dispatch (k := 0) false true addr addr rfl (by decide))
  refine ⟨s, _, _, hr, rfl, rfl, (stop_cancels_iff hr ?_).2.mpr (.inr ⟨rfl, ?_⟩)⟩
  · simp only [meets_snoc, meets_nil, true_and]
    exact ⟨⟨trivial, trivial⟩, trivial⟩
  · exact ⟨_, List.mem_append_right _ (List.mem_singleton_self _), rfl, rfl⟩

/-- After `stop()` and its functor the attempt goes on. -/
theorem stop_leaves_attempt : ∃ s t tr, connectorMachine.Reachable s ∧
    connectorMachine.Run s.stop tr t ∧ Meets (fun _ l => Connector.Unstarted l) tr ∧
    t.functors = [] ∧ t.state = .kConnecting ∧ t.held = some 0 ∧ ¬ Connector.Cancelled s t := by
  let s : Connector := Connector.new.start (some .EINPROGRESS)
  have hreach : connectorMachine.Reachable s :=
    ⟨_, _, rfl, Machine.Run.one (.start (some .EINPROGRESS))⟩
  have hr := Machine.Run.nil (M := connectorMachine) (s := s.stop)
    |>.snoc (.functor none rfl)
  refine ⟨s, _, _, hreach, hr, ?_, rfl, rfl, rfl, fun h => h.1.1 rfl⟩
  simp only [meets_snoc, meets_nil, true_and]
  trivial

end Reactor.Net
