import Reactor.Net.ConnectorSockets

/-!
# Net — ConnectorProgress

When a `Connector` that wants to connect goes on trying.  Of the ways an attempt can end, an error
event alone is the one that sets no retry timer.

* `Trying`: an attempt is under way, or a retry timer or a queued `startInLoop` is pending, unless a
  connection was reported.
* `Step.trying_iff`: the steps that keep it so, `stop()`, `restart()` and a final error of
  `::connect` apart.
* `keeps_trying_iff`: so a run in which the connector is never stuck is one of such steps.
-/

namespace Reactor.Net
open Reactor.Lib

namespace Connector

/-- A connecting channel is in the poller for writing. -/
def Attempting (s : Connector) : Prop :=
  s.state = .kConnecting ∧ ∃ c, s.channel = some c ∧ c.registered = true ∧ c.isWriting = true

/-- A retry timer or a queued `startInLoop` is to come. -/
def Pending (s : Connector) : Prop := s.timers ≠ [] ∨ .startInLoop ∈ s.functors

/-- Once `start()` is called: a connection was reported, or there is an attempt or one to come. -/
def Trying (s : Connector) : Prop :=
  s.undefined = false ∧
    (s.connectFlag = true → s.sockets.reported = [] → s.Attempting ∨ s.Pending)

/-- Neither `stop()` nor `restart()`, and no `::connect` with an error after which `connect()` does
not try again. -/
def Undisturbed : ConnectorStep → Prop
  | .start ret | .functor ret | .timer _ ret => connectCase ret ≠ .close
  | .restart _ | .stop => False
  | _ => True

/-- The attempt under way is given up though no other is to come: `EPOLLERR` is dispatched alone, or
`resetChannel` finds the channel in the poller.  Or an event is dispatched to a destroyed
channel. -/
def GivesUp (s : Connector) (l : ConnectorStep) : Prop :=
  (s.ErrorOnly l ∨ s.Resetting l ∧ s.state = .kConnecting ∧ s.held ≠ none) ∧
      s.sockets.reported = [] ∧ ¬ s.Pending ∨
    ∃ k, l = .dispatchDestroyed k

/-! ### The invariant -/

/-- What holds of a connector that nobody stops. -/
structure Wanted (s : Connector) : Prop where
  /-- There is no attempt before `start()` is called. -/
  connectFlag : s.state = .kConnecting → s.connectFlag = true
  writing : ∀ c, s.channel = some c → c.registered = true → c.isWriting = true

/-- Where the poller has a channel that waits for writing. -/
theorem Wanted.attempting_iff {s : Connector} (h : s.Wanted) :
    s.Attempting ↔ s.state = .kConnecting ∧ s.held ≠ none := by
  refine and_congr_right fun _ => ⟨?_, fun hheld => ?_⟩
  · rintro ⟨c, hc, hreg, -⟩
    rw [held_eq_some.mpr ⟨c, hc, hreg, rfl⟩]
    exact Option.some_ne_none _
  · obtain ⟨k, hk⟩ := Option.ne_none_iff_exists'.mp hheld
    obtain ⟨c, hc, hreg, -⟩ := held_eq_some.mp hk
    exact ⟨c, hc, hreg, h.writing c hc hreg⟩

/-- `startInLoop` leaves the connector as it should be. -/
theorem Wanted.startInLoop {s : Connector} (h : s.Wanted) (ret : Option ConnectErrno) :
    (s.startInLoop ret).Wanted := by
  cases hflag : s.connectFlag with
  | false =>
    rw [Connector.startInLoop, hflag]
    exact h
  | true =>
    rw [Connector.startInLoop, hflag, if_pos rfl]
    rcases s.connect_cases ret with ⟨-, -, heq⟩ | ⟨-, heq⟩ | ⟨-, heq⟩
    · rw [heq]
      refine ⟨fun _ => hflag, ?_⟩
      rintro _ ⟨⟩ -
      exact Channel.isWriting_enableWriting _
    · rw [heq, retry_eq]
      exact ⟨fun _ => hflag, h.writing⟩
    · rw [heq]
      exact ⟨h.connectFlag, h.writing⟩

theorem Wanted.dispatch {s : Connector} {k : Nat} (h : s.Wanted) (hk : s.held = some k)
    (err out : Bool) (localaddr peeraddr : SockaddrIn6) :
    (s.dispatch err out localaddr peeraddr).Wanted := by
  by_cases hs : s.state = .kConnecting
  · obtain ⟨c, hc, -, rfl⟩ := held_eq_some.mp hk
    -- `removeAndResetChannel` takes the channel out of the poller
    have hwrite : ∀ (s' : Connector) c', s'.state = .kConnecting → s'.channel = some c' →
        (s'.handleWrite localaddr peeraddr).Wanted := by
      intro s' c' hs' hc'
      rcases handleWrite_cases hs' hc' localaddr peeraddr with
        ⟨-, heq⟩ | ⟨-, ⟨-, heq⟩ | ⟨-, heq⟩⟩
      · rw [heq, retry_eq]
        exact ⟨by simp, by rintro _ ⟨⟩ ⟨⟩⟩
      · rw [heq]
        exact ⟨by simp, by rintro _ ⟨⟩ ⟨⟩⟩
      · rw [heq]
        exact ⟨by simp, by rintro _ ⟨⟩ ⟨⟩⟩
    have herr := handleError_eq hs hc
    have hwanted : s.handleError.Wanted := by
      rw [herr]
      exact ⟨fun _ => h.connectFlag hs, by rintro _ ⟨⟩ ⟨⟩⟩
    cases err with
    | false =>
      cases out with
      | false => exact h
      | true => exact hwrite s c hs hc
    | true =>
      cases out with
      | false => exact hwanted
      | true => exact hwrite _ _ (by rw [herr]; exact hs) (by rw [herr]; rfl)
  · rw [dispatch_idle hs]
    exact h

/-- So does every step that is not disturbed. -/
theorem Step.wanted {s t : Connector} {l : ConnectorStep} (h : s.Wanted) (hl : Undisturbed l)
    (hs : Step s l t) : t.Wanted := by
  cases hs with
  | start ret =>
    have hstart : Wanted { s with connectFlag := true } := ⟨fun _ => rfl, h.writing⟩
    exact hstart.startInLoop ret
  | @timer delay ret hd =>
    have htimer : Wanted { s with timers := s.timers.erase delay } := ⟨h.connectFlag, h.writing⟩
    exact htimer.startInLoop ret
  | @functor f rest ret hf =>
    have hrest : Wanted { s with functors := rest } := ⟨h.connectFlag, h.writing⟩
    cases f with
    | startInLoop => exact hrest.startInLoop ret
    | resetChannel => exact ⟨h.connectFlag, by rintro _ ⟨⟩⟩
  | startElsewhere => exact ⟨fun _ => rfl, h.writing⟩
  | restart | stop => exact hl.elim
  | dispatch err out localaddr peeraddr hk hout => exact h.dispatch hk err out localaddr peeraddr
  | dispatchDestroyed | complete | fail => exact ⟨h.connectFlag, h.writing⟩

/-! ### Which steps keep trying -/

/-- `startInLoop()` starts an attempt or sets a timer. -/
theorem trying_startInLoop {s : Connector} {ret : Option ConnectErrno} (hu : s.undefined = false)
    (hret : connectCase ret ≠ .close) : (s.startInLoop ret).Trying := by
  cases hflag : s.connectFlag with
  | false =>
    rw [startInLoop, hflag]
    exact ⟨hu, by simp [hflag]⟩
  | true =>
    rw [startInLoop, hflag, if_pos rfl]
    rcases s.connect_cases ret with ⟨-, -, heq⟩ | ⟨-, heq⟩ | ⟨hcase, -⟩
    · rw [heq]
      exact ⟨hu, fun _ _ => .inl ⟨rfl, _, rfl, rfl, Channel.isWriting_enableWriting _⟩⟩
    · rw [heq, retry_eq]
      exact ⟨hu, fun _ _ => .inr (.inl (by simp [hflag]))⟩
    · exact absurd hcase hret

/-- `handleWrite()` reports a connection or sets a timer. -/
theorem trying_handleWrite {s : Connector} {c : SocketChannel} (hu : s.undefined = false)
    (hs : s.state = .kConnecting) (hc : s.channel = some c) (hflag : s.connectFlag = true)
    (localaddr peeraddr : SockaddrIn6) : (s.handleWrite localaddr peeraddr).Trying := by
  rcases handleWrite_cases hs hc localaddr peeraddr with ⟨-, heq⟩ | ⟨-, ⟨-, heq⟩ | ⟨hno, -⟩⟩
  · rw [heq, retry_eq]
    exact ⟨hu, fun _ _ => .inr (.inl (by simp [removeAndResetChannel, hflag]))⟩
  · rw [heq]
    exact ⟨hu, fun _ hnil => absurd hnil (by simp [Sockets.report])⟩
  · simp [hflag] at hno

theorem not_givesUp {s : Connector} {l : ConnectorStep} (he : ¬ s.ErrorOnly l)
    (hr : ¬ s.Resetting l) (hh : ∀ k, l ≠ .dispatchDestroyed k) : ¬ s.GivesUp l := by
  rintro (⟨hl | hl, -⟩ | ⟨k, hk⟩)
  · exact he hl
  · exact hr hl.1
  · exact hh k hk

/-- A step after which the channel is not in the poller, and which leaves the rest. -/
theorem trying_gone {s t : Connector} (h : s.Wanted) (hs : s.Trying)
    (hundefined : t.undefined = s.undefined) (hflag : t.connectFlag = s.connectFlag)
    (hreported : t.sockets.reported = s.sockets.reported) (hpending : t.Pending ↔ s.Pending)
    (hgone : t.held = none) : t.Trying ↔ ¬ ((s.state = .kConnecting ∧ s.held ≠ none) ∧
      s.sockets.reported = [] ∧ ¬ s.Pending) := by
  have hno : ¬ t.Attempting := by
    rintro ⟨-, c, hc, hreg, -⟩
    rw [held_eq_some.mpr ⟨c, hc, hreg, rfl⟩] at hgone
    cases hgone
  rw [← h.attempting_iff]
  constructor
  · rintro ht ⟨hatt, hnil, hnot⟩
    rcases ht.2 (hflag ▸ h.connectFlag hatt.1) (hreported ▸ hnil) with hatt' | hp
    · exact hno hatt'
    · exact hnot (hpending.mp hp)
  · intro hnot
    refine ⟨hundefined ▸ hs.1, fun hflag' hnil => .inr (hpending.mpr ?_)⟩
    rw [hflag] at hflag'
    rw [hreported] at hnil
    by_contra hp
    exact hnot ⟨(hs.2 hflag' hnil).resolve_right hp, hnil, hp⟩

/-- A connector that tries goes on trying exactly if the step does not give up. -/
theorem Step.trying_iff {s t : Connector} {l : ConnectorStep} (h : s.Wanted) (hl : Undisturbed l)
    (ht : s.Trying) (hs : Step s l t) : t.Trying ↔ ¬ s.GivesUp l := by
  cases hs with
  | start ret | timer ret hd =>
    exact iff_of_true (trying_startInLoop ht.1 hl) (not_givesUp id id (by simp))
  | startElsewhere =>
    exact iff_of_true ⟨ht.1, fun _ _ => .inr (.inr (by simp [Connector.startElsewhere]))⟩
      (not_givesUp id id (by simp))
  | restart | stop => exact hl.elim
  | @functor f rest ret hf =>
    cases f with
    | startInLoop =>
      exact iff_of_true (trying_startInLoop ht.1 hl)
        (not_givesUp id (by simp [Resetting, hf]) (by simp))
    | resetChannel =>
      have hgone := trying_gone (t := { s with functors := rest }.resetChannel) h ht rfl rfl rfl
        (by simp [Pending, resetChannel, setChannel, hf]) rfl
      refine hgone.trans (not_congr ?_)
      simp [GivesUp, ErrorOnly, Resetting, hf, and_assoc]
  | @dispatch k err out localaddr peeraddr hk hout =>
    by_cases hstate : s.state = .kConnecting
    · obtain ⟨c, hc, -, -⟩ := held_eq_some.mp hk
      have hflag := h.connectFlag hstate
      have herr := handleError_eq hstate hc
      cases err with
      | false =>
        refine iff_of_true ?_ (not_givesUp (by simp [ErrorOnly]) id (by simp))
        cases out with
        | false => exact ht
        | true => exact trying_handleWrite ht.1 hstate hc hflag localaddr peeraddr
      | true =>
        cases out with
        | true =>
          refine iff_of_true ?_ (not_givesUp (by simp [ErrorOnly]) id (by simp))
          exact trying_handleWrite (s := s.handleError) (by rw [herr]; exact ht.1)
            (by rw [herr]; exact hstate) (by rw [herr]; rfl) (by rw [herr]; exact hflag) localaddr
            peeraddr
        | false =>
          have hgone := trying_gone (t := s.handleError) h ht (by rw [herr]; rfl)
            (by rw [herr]; rfl) (by rw [herr]; rfl)
            (by rw [herr]; simp [Pending, removeAndResetChannel]) (by rw [herr]; rfl)
          refine hgone.trans (not_congr ?_)
          simp [GivesUp, ErrorOnly, Resetting, hstate, hk]
    · rw [dispatch_idle hstate]
      exact iff_of_true ht (not_givesUp (fun he => hstate he.1) id (by simp))
  | @dispatchDestroyed k hk =>
    refine iff_of_false (fun ht' => ?_) (fun hno => hno (.inr ⟨k, rfl⟩))
    exact absurd ht'.1 (by simp)
  | complete | fail => exact iff_of_true ht (not_givesUp id id (by simp))

end Connector

/-- **When the connector is never stuck.**  In a run without `stop()`, `restart()` or a final error
of `::connect`, there is in every state after `start()` a connecting channel in the poller for
writing, or a retry timer or a queued `startInLoop`, or a connection was reported, if and only if no
step gives up an attempt with no other to come. -/
theorem keeps_trying_iff {s t : Connector} {tr : List (Connector × ConnectorStep)}
    (h₀ : connectorMachine.init s) (hr : connectorMachine.Run s tr t)
    (hu : Meets (fun _ l => Connector.Undisturbed l) tr) :
    (Meets (fun s _ => s.Trying) tr ∧ t.Trying) ↔ Meets (fun s l => ¬ s.GivesUp l) tr := by
  obtain rfl : s = .new := h₀
  have hwanted : Connector.new.Wanted := ⟨by simp [Connector.new], by rintro _ ⟨⟩⟩
  exact hr.holds_iff (I := Connector.Wanted) (Q := Connector.Trying)
    (fun hi hl hs => Connector.Step.wanted hi hl hs)
    (fun hi hl hq hs => Connector.Step.trying_iff hi hl hq hs) hu hwanted
    ⟨rfl, by simp [Connector.new]⟩

/-- The theorem for an attempt that is refused, found so when the socket is writable. -/
theorem keeps_trying_refused : ∃ t tr, connectorMachine.Run .new tr t ∧
    t.sockets.closed = [0] ∧ Meets (fun s _ => s.Trying) tr ∧ t.Trying := by
  let addr : SockaddrIn6 := ⟨.AF_INET, 80, 1, 0⟩
  have hr := Machine.Run.nil (M := connectorMachine) (s := .new)
    |>.snoc (.start (some .EINPROGRESS))
    |>.snoc (.complete (k := 0) (some .ECONNREFUSED) rfl (by decide))
    |>.snoc (.dispatch (k := 0) false true addr addr rfl (by decide))
  have hret : connectCase (some .EINPROGRESS) ≠ .close := by decide
  refine ⟨_, _, hr, rfl, (keeps_trying_iff rfl hr ?_).mpr ?_⟩
  · simp only [meets_snoc, meets_nil, true_and]
    exact ⟨⟨hret, trivial⟩, trivial⟩
  · simp only [meets_snoc, meets_nil, true_and]
    refine ⟨⟨?_, ?_⟩, ?_⟩
    · exact Connector.not_givesUp id id (by simp)
    · exact Connector.not_givesUp id id (by simp)
    · exact Connector.not_givesUp (by simp [Connector.ErrorOnly]) id (by simp)

/-- After an error event alone, nothing is to come. -/
theorem stuck_error : ∃ t tr, connectorMachine.Run .new tr t ∧
    Meets (fun _ l => Connector.Undisturbed l) tr ∧ t.connectFlag = true ∧
    t.sockets.reported = [] ∧ t.channel = none ∧ t.timers = [] ∧ t.functors = [] ∧ ¬ t.Trying := by
  let addr : SockaddrIn6 := ⟨.AF_INET, 80, 1, 0⟩
  have hr := Machine.Run.nil (M := connectorMachine) (s := .new)
    |>.snoc (.start (some .EINPROGRESS))
    |>.snoc (.complete (k := 0) (some .ECONNREFUSED) rfl (by decide))
    |>.snoc (.dispatch (k := 0) true false addr addr rfl (by decide))
    |>.snoc (.functor none rfl)
  have hret : connectCase (some .EINPROGRESS) ≠ .close := by decide
  have hnone : connectCase none ≠ .close := by decide
  refine ⟨_, _, hr, ?_, rfl, rfl, rfl, rfl, rfl, fun h => ?_⟩
  · simp only [meets_snoc, meets_nil, true_and]
    exact ⟨⟨⟨hret, trivial⟩, trivial⟩, hnone⟩
  rcases h.2 rfl rfl with ⟨-, c, hc, -⟩ | hnil | hmem
  · cases hc
  · exact hnil rfl
  · cases hmem

end Reactor.Net
