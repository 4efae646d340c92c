import Reactor.Net.TcpClient

/-!
# Net — TcpClient stopped

`stop()` clears the client's flag and then the connector's.  `removeConnection` tests the first and
`restart` sets the second, so a `stop()` that falls between the two is lost; and one that returns
while `startInLoop` has read the flag does not keep it from `connect()`.

* `Uninterrupted`: `stop()` does not fall there.
* `Settled`: what holds while a `stop()` is under way and after it.
* `stop_final`: after an uninterrupted `stop()` the connector does not connect; after another it
  may.
* `stop_lost`: a run in which it does.
-/

namespace Reactor.Net
open Reactor.Lib

namespace TcpClient

/-- Not a step that enters `Connector::connect()` after `stop()` has returned. -/
def NotEntered (s : TcpClient) (l : ClientStep) : Prop :=
  ∀ ret, l = .connect ret → s.stopped = false

/-- `stop()` clears the connector's flag while the loop's thread is not about to set it, and returns
while it is not about to call `connect()`. -/
def Uninterrupted (s : TcpClient) (l : ClientStep) : Prop :=
  (l = .storeStop → s.stage ≠ .restarting) ∧ (l = .returnStop → s.stage ≠ .entering)

/-- Neither `connect()` nor `stop()` is called. -/
def Uncalled (_ : TcpClient) (l : ClientStep) : Prop := l ≠ .callConnect ∧ l ≠ .callStop

/-! ### After an uninterrupted stop -/

/-- `stop()` has cleared the client's flag. -/
def Cleared (s : TcpClient) : Prop :=
  s.caller = .stopping ∨ s.caller = .queueingStop ∨ s.caller = .returning ∨ s.stopped = true

/-- `stop()` has cleared the connector's flag. -/
def ClearedBoth (s : TcpClient) : Prop :=
  s.caller = .queueingStop ∨ s.caller = .returning ∨ s.stopped = true

/-- What holds of the flags while a `stop()` is under way that nothing has undone, and after it. -/
structure Settled (s : TcpClient) : Prop where
  client : s.Cleared → s.connectFlag = false
  connector : s.ClearedBoth → s.connector.connectFlag = false ∧ s.stage ≠ .restarting
  entering : s.stopped = true → s.stage ≠ .entering
  starting : s.caller = .starting → s.stopped = false

variable {s t : TcpClient} {l : ClientStep}

theorem connectFlag_connectCall (c : Connector) (ret : Option ConnectErrno) :
    (c.connectCall ret).1.connectFlag = c.connectFlag := by
  unfold Connector.connectCall
  cases connectCase ret <;> rfl

theorem connectFlag_handleError (c : Connector) : c.handleError.connectFlag = c.connectFlag := by
  unfold Connector.handleError Connector.withChannel
  split
  · cases c.channel <;> rfl
  · rfl

theorem connectFlag_writeCall (c : Connector) (localaddr peeraddr : SockaddrIn6) :
    (c.writeCall localaddr peeraddr).1.connectFlag = c.connectFlag := by
  unfold Connector.writeCall
  split
  · cases c.channel with
    | none => rfl
    | some ch =>
      simp only
      split
      · rfl
      · split <;> rfl
  · rfl

/-- An event does not write the flag, as far as it is cut. -/
theorem connectFlag_dispatchCall (c : Connector) (err out : Bool)
    (localaddr peeraddr : SockaddrIn6) :
    (c.dispatchCall err out localaddr peeraddr).1.connectFlag = c.connectFlag := by
  have herr : (if err then c.handleError else c).connectFlag = c.connectFlag := by
    cases err with
    | true => exact connectFlag_handleError c
    | false => rfl
  unfold Connector.dispatchCall
  cases out with
  | true => exact (connectFlag_writeCall _ localaddr peeraddr).trans herr
  | false => exact herr

theorem connectFlag_readFlag (c : Connector) (stage : LoopStage) :
    (c.readFlag stage).connectFlag = c.connectFlag := by
  unfold Connector.readFlag
  split
  · split <;> rfl
  · split <;> rfl
  · rfl

/-- The loop's thread leaves the flags, and is not before a write of one or before `connect()`. -/
theorem Settled.quiet (hs : Settled s) (hclient : t.connectFlag = s.connectFlag)
    (hconnector : t.connector.connectFlag = s.connector.connectFlag) (hcaller : t.caller = s.caller)
    (hstopped : t.stopped = s.stopped)
    (hrestarting : t.stage = .restarting → s.stage = .restarting)
    (hentering : t.stage = .entering → s.stage = .entering) : Settled t := by
  have hcleared : t.Cleared → s.Cleared := by
    rw [Cleared, Cleared, hcaller, hstopped]
    exact id
  have hboth : t.ClearedBoth → s.ClearedBoth := by
    rw [ClearedBoth, ClearedBoth, hcaller, hstopped]
    exact id
  refine ⟨fun h => ?_, fun h => ⟨?_, fun ht => ?_⟩, fun h ht => ?_, ?_⟩
  · rw [hclient]
    exact hs.client (hcleared h)
  · rw [hconnector]
    exact (hs.connector (hboth h)).1
  · exact (hs.connector (hboth h)).2 (hrestarting ht)
  · exact hs.entering (hstopped ▸ h) (hentering ht)
  · rw [hcaller, hstopped]
    exact hs.starting

theorem settled_new : Settled .new := by
  constructor <;> simp [TcpClient.new, Cleared, ClearedBoth]

/-- A call that is cut is not before the write, nor before `connect()`. -/
theorem Settled.enter (hs : Settled s) {c : Connector × LoopStage}
    (hc : c.1.connectFlag = s.connector.connectFlag)
    (hcut : Cut c.2 ∨ c.2 = .starting) : Settled (s.enter c) := by
  refine hs.quiet rfl hc rfl rfl (fun h => ?_) fun h => ?_
  · change c.2 = .restarting at h
    rw [h] at hcut
    simp [Cut] at hcut
  · change c.2 = .entering at h
    rw [h] at hcut
    simp [Cut] at hcut

/-- An uninterrupted step keeps the flags as `stop()` has left them. -/
theorem settled_step (hs : Settled s) (hl : s.Uninterrupted l) (hstep : clientMachine.step s l t) :
    Settled t := by
  cases hstep with
  | removeConnection hi hk => exact hs.quiet rfl rfl rfl rfl (by simp) (by simp)
  | readConnect hi =>
    -- the client's flag is cleared before the connector's
    refine ⟨hs.client, fun h => ⟨(hs.connector h).1, ?_⟩, fun h => ?_, hs.starting⟩
    · have hflag : s.connectFlag = false := hs.client (.inr h)
      simp [hflag]
    · dsimp only
      split <;> simp
  | restart hi =>
    -- this is the write that would undo `stop()`
    have hnot : ¬ s.ClearedBoth := fun h => (hs.connector h).2 hi
    exact ⟨hs.client, fun h => absurd h hnot, by simp, hs.starting⟩
  | @functor f rest hi hf =>
    cases f with
    | startInLoop => exact hs.enter rfl (.inr rfl)
    | resetChannel => exact hs.enter rfl (.inl (.inl rfl))
  | timer hi hd => exact hs.enter rfl (.inr rfl)
  | readStart hi =>
    refine ⟨hs.client, fun h => ⟨(hs.connector h).1, ?_⟩, fun h => ?_, hs.starting⟩
    · dsimp only
      split <;> simp
    · have hflag : s.connector.connectFlag = false := (hs.connector (.inr (.inr h))).1
      simp [hflag]
  | connect ret hi =>
    exact hs.enter (connectFlag_connectCall _ ret) (.inl (cut_connectCall _ ret))
  | dispatch err out localaddr peeraddr hi hk hout =>
    exact hs.enter (connectFlag_dispatchCall _ err out localaddr peeraddr)
      (.inl (cut_dispatchCall _ err out localaddr peeraddr))
  | dispatchDestroyed hi hk => exact hs.enter rfl (.inl (.inl rfl))
  | readFlag hi =>
    have hquiet := hs.enter (c := (s.connector.readFlag s.stage, .idle))
      (connectFlag_readFlag _ _) (.inl (.inl rfl))
    rcases hi with hi | ⟨sockfd, hi⟩
    · rw [hi] at hquiet
      simp only [TcpClient.readFlag, hi]
      exact hquiet
    · rw [hi] at hquiet
      simp only [TcpClient.readFlag, hi]
      split
      · exact hquiet.quiet rfl rfl rfl rfl id id
      · exact hquiet
  | complete error hk hlt => exact hs.quiet rfl rfl rfl rfl id id
  | fail error hk => exact hs.quiet rfl rfl rfl rfl id id
  | enableRetry hc => exact hs.quiet rfl rfl rfl rfl id id
  | callConnect hc => constructor <;> simp [Cleared, ClearedBoth]
  | storeStart hc =>
    have hstopped := hs.starting hc
    constructor <;> simp [Cleared, ClearedBoth, hstopped]
  | queueStart hc =>
    refine ⟨fun h => hs.client ?_, fun h => hs.connector ?_, hs.entering, by simp⟩
    · simpa [Cleared, hc] using h
    · simpa [ClearedBoth, hc] using h
  | callDisconnect hc =>
    exact ⟨fun _ => rfl, fun h => hs.connector h, hs.entering, hs.starting⟩
  | callStop hc =>
    refine ⟨fun _ => rfl, fun h => hs.connector ?_, hs.entering, by simp⟩
    simpa [ClearedBoth, hc] using h
  | storeStop hc =>
    exact ⟨fun _ => hs.client (.inl hc), fun _ => ⟨rfl, hl.1 rfl⟩, hs.entering, by simp⟩
  | queueStop hc =>
    exact ⟨fun _ => hs.client (.inr (.inl hc)), fun _ => hs.connector (.inl hc), hs.entering,
      by simp⟩
  | returnStop hc =>
    exact ⟨fun _ => hs.client (.inr (.inr (.inl hc))), fun _ => hs.connector (.inr (.inl hc)),
      fun _ => hl.2 rfl, by simp⟩

/-- Settled, the connector does not connect after `stop()`. -/
theorem Settled.notEntered (hs : Settled s) (hstep : clientMachine.step s l t) :
    s.NotEntered l := by
  rintro ret rfl
  cases hstep with
  | connect _ hi =>
    by_contra hstopped
    exact hs.entering (by simpa using hstopped) hi

/-! ### After another -/

/-- Nobody calls, and the connector connects after `stop()`. -/
def Reconnects (s : TcpClient) : Prop :=
  ∃ tr t, clientMachine.Run s tr t ∧ Meets Uncalled tr ∧ ¬ Meets NotEntered tr

/-- A step that is no call, and then a run that connects. -/
theorem Reconnects.cons (h : clientMachine.step s l t) (hl : Uncalled s l) (ht : t.Reconnects) :
    s.Reconnects := by
  obtain ⟨tr, u, hr, hcalled, hentered⟩ := ht
  refine ⟨[(s, l)] ++ tr, u, (Machine.Run.one h).trans hr, ?_, fun hm => hentered ?_⟩
  · intro p hp
    rcases List.mem_append.mp hp with hp | hp
    · rw [List.mem_singleton.mp hp]
      exact hl
    · exact hcalled p hp
  · exact fun p hp => hm p (List.mem_append_right _ hp)

/-- About to call `connect()` when `stop()` has returned. -/
theorem reconnects_entering (hi : s.stage = .entering) (hstopped : s.stopped = true) :
    s.Reconnects := by
  refine ⟨_, _, .one (Step.connect none hi), ?_, fun hm => ?_⟩
  · simp [Meets, Uncalled]
  · have := hm (s, .connect none) (List.mem_singleton_self _) none rfl
    rw [hstopped] at this
    exact Bool.noConfusion this

/-- About to set the connector's flag when `stop()` has cleared it. -/
theorem reconnects_restarting (hi : s.stage = .restarting) (hc : s.caller = .queueingStop) :
    s.Reconnects := by
  refine .cons (Step.queueStop hc) (by simp [Uncalled]) (.cons (Step.returnStop rfl)
    (by simp [Uncalled]) (.cons (Step.restart hi) (by simp [Uncalled])
      (.cons (Step.readStart rfl) (by simp [Uncalled]) (reconnects_entering rfl rfl))))

end TcpClient

open TcpClient

/-- **When `stop()` is final.**  In a run whose `stop()`s are not interrupted at the wrong place,
`Connector::connect()` is not entered between the return of `stop()` and the next call of
`connect()`.  After a step that interrupts one there, a run in which nobody calls enters it. -/
theorem stop_final {s t : TcpClient} {tr : List (TcpClient × ClientStep)}
    (hinit : clientMachine.init s) (h : clientMachine.Run s tr t) :
    (Meets Uninterrupted tr → Meets NotEntered tr) ∧
      ∀ l u, clientMachine.step t l u → ¬ t.Uninterrupted l → u.Reconnects := by
  obtain rfl : s = .new := hinit
  constructor
  · intro hm
    have hiff := h.meets_iff (I := Settled) (C := Uninterrupted) (P := NotEntered)
      (Q := fun _ _ => True) (fun hs hl hst => settled_step hs hl hst)
      (fun hs _ hst => iff_true_intro (hs.notEntered hst)) hm settled_new
    exact hiff.mpr fun _ _ => trivial
  · intro l u hst hl
    rw [Uninterrupted, not_and_or] at hl
    rcases hl with hl | hl
    · push Not at hl
      obtain ⟨rfl, hi⟩ := hl
      cases hst with
      | storeStop hc => exact reconnects_restarting hi rfl
    · push Not at hl
      obtain ⟨rfl, hi⟩ := hl
      cases hst with
      | returnStop hc => exact reconnects_entering hi rfl

/-- A client that retries connects, its connection closes, and the loop's thread has found the
client's flag set. -/
theorem run_restarting : ∃ (s : TcpClient) (tr : List (TcpClient × ClientStep)),
    clientMachine.Run .new tr s ∧ Meets Uninterrupted tr ∧ s.stage = .restarting ∧
      s.caller = .outside ∧ s.connector.functors = [.resetChannel] ∧ s.connector.timers = [] := by
  let addr : SockaddrIn6 := ⟨.other, 0, 0, 0⟩
  have hcall := (((Machine.Run.nil (M := clientMachine) (s := .new)).snoc
    (Step.enableRetry rfl)).snoc (Step.callConnect rfl)).snoc (Step.storeStart rfl)
  have hconnect := (((hcall.snoc (Step.queueStart rfl)).snoc (Step.functor rfl rfl)).snoc
    (Step.readStart rfl)).snoc (Step.connect none rfl)
  have hreport := (hconnect.snoc
    (Step.dispatch (k := 0) false true addr addr rfl rfl (by decide))).snoc
    (Step.readFlag (.inr ⟨0, rfl⟩))
  have hclose := (hreport.snoc (Step.removeConnection (k := 0) rfl (by decide))).snoc
    (Step.readConnect rfl)
  refine ⟨_, _, hclose, ?_, rfl, rfl, rfl, rfl⟩
  simp [Meets, Uninterrupted]

/-- `stop()` beside a client that connects again: it comes when the loop's thread has found the
client's flag set, but clears the connector's only when `restart` has set it.  The attempt made
meanwhile is refused; it is not repeated, and what `stop()` has queued makes no other. -/
theorem stop_final_closed : ∃ (s t : TcpClient) (tr tr' : List (TcpClient × ClientStep)),
    clientMachine.Run .new tr s ∧ s.stage = .restarting ∧ s.caller = .outside ∧
      clientMachine.Run s tr' t ∧ t.stopped = true ∧ t.stage = .idle ∧
      t.connector.functors = [] ∧ t.connector.timers = [] ∧ Meets NotEntered (tr ++ tr') := by
  obtain ⟨s, tr, hr, hm, hs, hc, hfunctors, htimers⟩ := run_restarting
  have hcall := ((Machine.Run.nil (M := clientMachine) (s := s)).snoc (Step.callStop hc)).snoc
    (Step.restart hs)
  have hstop := ((hcall.snoc (Step.readStart rfl)).snoc (Step.storeStop rfl)).snoc
    (Step.connect (some .ECONNREFUSED) rfl)
  have hqueue := (hstop.snoc (Step.readFlag (.inl rfl))).snoc (Step.queueStop rfl)
  have hqueued : s.connector.functors ++ [.startInLoop] = [.resetChannel, .startInLoop] :=
    congrArg (· ++ _) hfunctors
  have hreturn := (hqueue.snoc (Step.returnStop rfl)).snoc (Step.functor rfl hqueued)
  have hidle := (hreturn.snoc (Step.functor rfl rfl)).snoc (Step.readStart rfl)
  refine ⟨s, _, tr, _, hr, hs, hc, hidle, rfl, rfl, rfl, htimers,
    (stop_final rfl (hr.trans hidle)).1 (List.forall_mem_append.mpr ⟨hm, ?_⟩)⟩
  simp [Uninterrupted, TcpClient.enter, TcpClient.readFlag, Connector.connectCall, connectCase]

/-- The connection closes, and `stop()` comes between `_retry && _connect` and `restart`. -/
theorem stop_lost : ¬ ∀ s t tr, clientMachine.init s → clientMachine.Run s tr t →
    Meets NotEntered tr := by
  obtain ⟨s, tr, hr, -, hs, hc, -, -⟩ := run_restarting
  have hstop := (hr.snoc (Step.callStop hc)).snoc (Step.storeStop rfl)
  obtain ⟨tr', t, hr', -, hentered⟩ := reconnects_restarting (s := { s with
    connectFlag := false
    connector := { s.connector with connectFlag := false }
    caller := .queueingStop }) hs rfl
  intro h
  exact hentered fun p hp => h .new t _ rfl (hstop.trans hr') p (List.mem_append_right _ hp)

end Reactor.Net
