import Reactor.Net.WriteInterest

/-!
# Net — connection events

An established connection in its loop thread, with `Channel::handleEvent` taken apart: the mask is
set when the poller delivers it, and each branch of `handleEventWithGuard` is a step, so that what
a client calls from one handler's callback comes before the next handler.  The poller delivers to a
channel it has an entry for and whose interest set is not empty.

* `Quiet`: what the operations do that neither close the connection nor deliver a message.
* `Sound`: how far a dispatch has come says what the state can be.
* `closes_once_iff`: the connection is closed once if and only if no hang-up without `EPOLLIN` is
  dispatched together with `EPOLLPRI` and a successful read.
* `hangup_with_pri`: a dispatch that closes twice.
-/

namespace Reactor.Net
open Reactor.Lib

/-- There is something to read. -/
def EPOLLIN : BitVec 32 := 0x001

/-- There is something urgent to read. -/
def EPOLLPRI : BitVec 32 := 0x002

/-- There is room for writing. -/
def EPOLLOUT : BitVec 32 := 0x004

/-- An error is pending. -/
def EPOLLERR : BitVec 32 := 0x008

/-- Both directions are shut down. -/
def EPOLLHUP : BitVec 32 := 0x010

/-- `revents & mask` is not zero. -/
def Has (revents mask : BitVec 32) : Prop := revents &&& mask ≠ 0

/-- Whether a mask has a bit can be computed. -/
instance (revents mask : BitVec 32) : Decidable (Has revents mask) := by
  unfold Has; infer_instance

/-- The first branch of `handleEventWithGuard`. -/
def HangsUp (revents : BitVec 32) : Prop := Has revents EPOLLHUP ∧ ¬ Has revents EPOLLIN

/-- The third branch. -/
def Reads (revents : BitVec 32) : Prop := Has revents (EPOLLIN ||| EPOLLPRI)

/-- Whether `handleEvent` closes can be computed. -/
instance (revents : BitVec 32) : Decidable (HangsUp revents) := by
  unfold HangsUp; infer_instance

/-- Whether `handleEvent` reads can be computed. -/
instance (revents : BitVec 32) : Decidable (Reads revents) := by
  unfold Reads; infer_instance

/-- The branch of `handleEventWithGuard` that is next, or that no dispatch is going on. -/
inductive DispatchStage where
  | idle
  | hangup
  | error
  | read
  | write
  deriving DecidableEq, Repr

/-- A connection, and the dispatch of its channel. -/
structure EventConn where
  conn : Conn
  stage : DispatchStage
  /-- `_revents` -/
  revents : BitVec 32

/-- What the loop thread does: a dispatch and its branches, what a client calls, and queued
functors. -/
inductive EventStep where
  | deliver (revents : BitVec 32)
  | hangup
  | error
  | read (r : ReadResult)
  | write (r : WriteResult)
  | send (data : List Byte) (r : WriteResult)
  | shutdown
  | forceClose
  | sendInLoop (data : List Byte) (r : WriteResult)
  | shutdownInLoop
  | forceCloseInLoop

/-- `send` called in the loop thread. -/
def Conn.send (c : Conn) (data : List Byte) (r : WriteResult) : Conn :=
  if c.state = .kConnected then c.sendInLoop data r else c

/-- The poller has an entry for the channel, and reports its events. -/
def Channel.Watched (c : Channel) : Prop := c.registered = true ∧ c.isNoneEvent = false

namespace EventConn

/-- The constructor, the callbacks, and `connectEstablished`. -/
def established (highWaterMark : Nat) (writeCompleteCallback highWaterMarkCallback : Bool) :
    EventConn :=
  ⟨(Conn.new highWaterMark writeCompleteCallback highWaterMarkCallback).connectEstablished,
    .idle, 0⟩

/-- The parts of `handleEvent`, each with what the system call in it answers. -/
inductive Step : EventConn → EventStep → EventConn → Prop where
  /-- `handleEvent` is called. -/
  | deliver {s : EventConn} (revents : BitVec 32) (h : s.stage = .idle)
      (hw : s.conn.channel.Watched) :
      Step s (.deliver revents) { s with stage := .hangup, revents := revents }
  | hangup {s : EventConn} (h : s.stage = .hangup) :
      Step s .hangup { s with
        conn := if HangsUp s.revents then s.conn.handleClose else s.conn
        stage := .error }
  /-- `handleError` logs. -/
  | error {s : EventConn} (h : s.stage = .error) : Step s .error { s with stage := .read }
  | read {s : EventConn} (r : ReadResult) (h : s.stage = .read)
      (hp : (ConnStep.handleRead r).Possible s.conn) :
      Step s (.read r) { s with
        conn := if Reads s.revents then s.conn.handleRead r else s.conn
        stage := .write }
  | write {s : EventConn} (r : WriteResult) (h : s.stage = .write)
      (hp : (ConnStep.handleWrite r).Possible s.conn) :
      Step s (.write r) { s with
        conn := if Has s.revents EPOLLOUT then s.conn.handleWrite r else s.conn
        stage := .idle }
  /-- A client calls from a callback of this connection or of another. -/
  | send {s : EventConn} (data : List Byte) (r : WriteResult) (hp : r.Fits data.length) :
      Step s (.send data r) { s with conn := s.conn.send data r }
  | shutdown {s : EventConn} : Step s .shutdown { s with conn := s.conn.shutdown }
  | forceClose {s : EventConn} : Step s .forceClose { s with conn := s.conn.forceClose }
  /-- Functors run when no event is being handled. -/
  | sendInLoop {s : EventConn} (data : List Byte) (r : WriteResult) (h : s.stage = .idle)
      (hp : r.Fits data.length) :
      Step s (.sendInLoop data r) { s with conn := s.conn.sendInLoop data r }
  | shutdownInLoop {s : EventConn} (h : s.stage = .idle) :
      Step s .shutdownInLoop { s with conn := s.conn.shutdownInLoop }
  | forceCloseInLoop {s : EventConn} (h : s.stage = .idle) :
      Step s .forceCloseInLoop { s with conn := s.conn.forceCloseInLoop }

end EventConn

/-- An established connection in its loop thread, before `connectDestroyed`. -/
def eventMachine : Machine EventConn EventStep where
  init s := ∃ mark writeComplete highWater, s = .established mark writeComplete highWater
  step := EventConn.Step

/-! ### What the operations do to the state -/

/-- No callback is invoked; an open connection stays open, and a closed one closed. -/
structure Quiet (c d : Conn) : Prop where
  callbacks : d.callbacks = c.callbacks
  stays_open : c.state ≠ .kDisconnected → d.state ≠ .kDisconnected
  stays_closed : c.state = .kDisconnected → c.channel.isNoneEvent = true →
    d.state = .kDisconnected ∧ d.channel = c.channel
  connecting : d.state = .kConnecting → c.state = .kConnecting

namespace Conn

variable (c : Conn)

theorem notifyWriteComplete_callbacks : c.notifyWriteComplete.callbacks = c.callbacks := by
  rw [notifyWriteComplete_eq]

theorem keepRemaining_callbacks (data : List Byte) (nwrote remaining : Nat) :
    (c.keepRemaining data nwrote remaining).callbacks = c.callbacks := by
  obtain ⟨functors, heq⟩ := c.notifyHighWaterMark_eq remaining
  simp only [keepRemaining, requestWriting_eq, heq]

theorem directWrite_callbacks (data : List Byte) (r : WriteResult) :
    (c.directWrite data r).1.callbacks = c.callbacks := by
  cases r with
  | wrote n =>
    rw [directWrite]
    split
    · exact notifyWriteComplete_callbacks _
    · rfl
  | failed errno => rfl

/-- `sendInLoop` invokes none; it queues them. -/
theorem sendInLoop_callbacks (data : List Byte) (r : WriteResult) :
    (c.sendInLoop data r).callbacks = c.callbacks := by
  rw [sendInLoop]
  split
  · rfl
  · simp only []
    split <;> split <;> simp [keepRemaining_callbacks, directWrite_callbacks]

end Conn

theorem Quiet.refl (c : Conn) : Quiet c c := ⟨rfl, id, fun h _ => ⟨h, rfl⟩, id⟩

theorem quiet_sendInLoop (c : Conn) (data : List Byte) (r : WriteResult) :
    Quiet c (c.sendInLoop data r) := by
  refine ⟨c.sendInLoop_callbacks data r, by simp, fun h _ => ?_, by simp⟩
  rw [Conn.sendInLoop, if_pos h]
  exact ⟨h, rfl⟩

theorem quiet_send (c : Conn) (data : List Byte) (r : WriteResult) : Quiet c (c.send data r) := by
  unfold Conn.send
  split
  · exact quiet_sendInLoop c data r
  · exact .refl c

theorem quiet_shutdownInLoop (c : Conn) : Quiet c c.shutdownInLoop := by
  rw [Conn.shutdownInLoop_eq]
  exact ⟨rfl, id, fun h _ => ⟨h, rfl⟩, id⟩

theorem quiet_shutdown (c : Conn) : Quiet c c.shutdown := by
  unfold Conn.shutdown
  split
  · next h =>
    rw [Conn.shutdownInLoop_eq]
    exact ⟨rfl, fun _ => by simp [Conn.setState], fun hc => by simp [hc] at h,
      by simp [Conn.setState]⟩
  · exact .refl c

/-- `forceClose` is: the close comes from the loop. -/
theorem quiet_forceClose (c : Conn) : Quiet c c.forceClose := by
  unfold Conn.forceClose
  split
  · next h =>
    exact ⟨rfl, fun _ => by simp [Conn.setState, Conn.queueInLoop], fun hc => by simp [hc] at h,
      by simp [Conn.setState, Conn.queueInLoop]⟩
  · exact .refl c

theorem quiet_handleWrite (c : Conn) (r : WriteResult) : Quiet c (c.handleWrite r) := by
  have hstate := c.handleWrite_state r
  refine ⟨?_, fun h => by rwa [hstate], fun h hnone => ⟨by rwa [hstate], ?_⟩,
    fun h => by rwa [hstate] at h⟩
  · cases r with
    | failed errno => simp [Conn.handleWrite]
    | wrote n =>
      rw [Conn.handleWrite]
      split
      · split
        · dsimp only
          split
          · rw [Conn.drained]
            split <;> simp [Conn.shutdownInLoop_eq, Conn.notifyWriteComplete_eq]
          · rfl
        · rfl
      · rfl
  · -- with no interest the channel is not writing
    have hw : c.channel.isWriting = false := by
      have hevents : c.channel.events = kNoneEvent := by simpa [Channel.isNoneEvent] using hnone
      simp [Channel.isWriting, hevents, kNoneEvent]
    simp [Conn.handleWrite, hw]

/-- What `handleClose` does: the state, the mask, and the two callbacks. -/
theorem handleClose_spec (c : Conn) :
    c.handleClose.state = .kDisconnected ∧ c.handleClose.channel.isNoneEvent = true ∧
      c.handleClose.callbacks = c.callbacks ++ [.connection .kDisconnected, .close] := by
  refine ⟨rfl, ?_, by simp [Conn.handleClose, Conn.setState, Conn.invoke]⟩
  simp [Conn.handleClose, Conn.setState, Conn.invoke, Channel.isNoneEvent, Channel.disableAll,
    Channel.update, kNoneEvent]

/-- A read that fails only logs; at the end of the stream it closes; else it delivers a message. -/
theorem handleRead_cases (c : Conn) (r : ReadResult) :
    ((∃ errno, r = .failed errno) ∧ c.handleRead r = c) ∨
      (r = .data [] ∧ c.handleRead r = c.handleClose) ∨
      ((∃ bytes, r = .data bytes) ∧ (c.handleRead r).state = c.state ∧
        (c.handleRead r).channel = c.channel ∧
        (c.handleRead r).callbacks = c.callbacks ++ [.message]) := by
  cases r with
  | failed errno => exact .inl ⟨⟨errno, rfl⟩, rfl⟩
  | data bytes =>
    cases bytes with
    | nil => exact .inr (.inl ⟨rfl, by simp [Conn.handleRead]⟩)
    | cons b bytes =>
      refine .inr (.inr ⟨⟨_, rfl⟩, ?_⟩)
      simp [Conn.handleRead, Conn.invoke]

/-! ### How far a dispatch has come -/

/-- What the state says about the callbacks and the interest set, and the stage of the dispatch
about the state: it has been delivered to an open connection, and only a hang-up closes one before
it is read from. -/
structure Sound (s : EventConn) : Prop where
  silent : s.conn.state ≠ .kDisconnected →
    .close ∉ s.conn.callbacks ∧ .connection .kDisconnected ∉ s.conn.callbacks
  closed : s.conn.state = .kDisconnected → s.conn.channel.isNoneEvent = true ∧
    .close ∈ s.conn.callbacks ∧ .connection .kDisconnected ∈ s.conn.callbacks
  hangup : s.stage = .hangup → s.conn.state ≠ .kDisconnected
  reading : s.stage = .error ∨ s.stage = .read →
    (s.conn.state = .kDisconnected ↔ HangsUp s.revents)

theorem sound_established (mark : Nat) (writeComplete highWater : Bool) :
    Sound (.established mark writeComplete highWater) := by
  constructor <;>
    simp [EventConn.established, Conn.connectEstablished, Conn.new, Conn.setState, Conn.invoke]

theorem Quiet.state_iff {c d : Conn} (h : Quiet c d)
    (hc : c.state = .kDisconnected → c.channel.isNoneEvent = true) :
    d.state = .kDisconnected ↔ c.state = .kDisconnected := by
  constructor
  · intro hd
    by_contra hne
    exact h.stays_open hne hd
  · exact fun hd => (h.stays_closed hd (hc hd)).1

namespace Sound

variable {s : EventConn} {d : Conn}

theorem quiet (hs : Sound s) (h : Quiet s.conn d) : Sound { s with conn := d } := by
  have hiff := h.state_iff fun hc => (hs.closed hc).1
  refine ⟨fun hd => ?_, fun hd => ?_, fun hstage => ?_, fun hstage => ?_⟩
  · rw [h.callbacks]
    exact hs.silent (mt hiff.mpr hd)
  · have hc := hs.closed (hiff.mp hd)
    rw [h.callbacks, (h.stays_closed (hiff.mp hd) hc.1).2]
    exact hc
  · exact h.stays_open (hs.hangup hstage)
  · exact hiff.trans (hs.reading hstage)

/-- Out of a dispatch nothing is asked but what the state says. -/
theorem close (hs : d = s.conn.handleClose) (stage : DispatchStage) (hstage : stage ≠ .hangup)
    (hread : stage = .error ∨ stage = .read → HangsUp s.revents) :
    Sound { s with conn := d, stage := stage } := by
  subst hs
  obtain ⟨hstate, hnone, hcallbacks⟩ := handleClose_spec s.conn
  refine ⟨fun h => absurd hstate h, fun _ => ⟨hnone, ?_, ?_⟩, fun h => absurd h hstage,
    fun h => iff_of_true hstate (hread h)⟩ <;>
  simp [hcallbacks]

end Sound

/-- Every part of `handleEvent` keeps the invariant. -/
theorem EventConn.Step.sound {s t : EventConn} {l : EventStep} (hs : Sound s)
    (h : EventConn.Step s l t) : Sound t := by
  cases h with
  | deliver revents hidle hw =>
    refine ⟨hs.silent, hs.closed, fun _ hc => ?_, fun hstage => by simp at hstage⟩
    -- a closed connection has no interest left to deliver for
    have hnone := (hs.closed hc).1
    rw [hw.2] at hnone
    cases hnone
  | hangup hstage =>
    have hopen := hs.hangup hstage
    by_cases hup : HangsUp s.revents
    · simp only [hup, if_true]
      exact .close rfl .error (by simp) fun _ => hup
    · simp only [hup, if_false]
      exact ⟨hs.silent, hs.closed, by simp, fun _ => iff_of_false hopen hup⟩
  | error hstage =>
    exact ⟨hs.silent, hs.closed, by simp, fun _ => hs.reading (.inl hstage)⟩
  | read r hstage hp =>
    by_cases hread : Reads s.revents
    · simp only [hread, if_true]
      rcases handleRead_cases s.conn r with ⟨-, hr⟩ | ⟨-, hr⟩ | ⟨-, hstate, hchannel, hcallbacks⟩
      · rw [hr]
        exact ⟨hs.silent, hs.closed, by simp, by simp⟩
      · exact .close hr .write (by simp) (by simp)
      · refine ⟨fun h => ?_, fun h => ?_, by simp, by simp⟩
        · have := hs.silent (hstate ▸ h)
          simpa [hcallbacks] using this
        · have := hs.closed (hstate ▸ h)
          simpa [hcallbacks, hchannel] using this
    · simp only [hread, if_false]
      exact ⟨hs.silent, hs.closed, by simp, by simp⟩
  | write r hstage hp =>
    have hout : Sound { s with
        conn := if Has s.revents EPOLLOUT then s.conn.handleWrite r else s.conn } := by
      split
      · exact hs.quiet (quiet_handleWrite s.conn r)
      · exact hs
    exact ⟨hout.silent, hout.closed, by simp, by simp⟩
  | send data r hp => exact hs.quiet (quiet_send s.conn data r)
  | shutdown => exact hs.quiet (quiet_shutdown s.conn)
  | forceClose => exact hs.quiet (quiet_forceClose s.conn)
  | sendInLoop data r hidle hp => exact hs.quiet (quiet_sendInLoop s.conn data r)
  | shutdownInLoop hidle => exact hs.quiet (quiet_shutdownInLoop s.conn)
  | forceCloseInLoop hidle =>
    unfold Conn.forceCloseInLoop
    split
    · exact .close rfl s.stage (by simp [hidle]) (by simp [hidle])
    · exact hs

/-! ### Closing once -/

/-- The close callback at most once, the connection callback in `kDisconnected` at most once, and no
message after that. -/
def ClosedOnce (callbacks : List ConnCallback) : Prop :=
  callbacks.count .close ≤ 1 ∧ callbacks.count (.connection .kDisconnected) ≤ 1 ∧
    ∀ pre post, callbacks = pre ++ .connection .kDisconnected :: post → .message ∉ post

/-- A read that does not fail in a dispatch that has hung up. -/
def ReadsPastHangup (s : EventConn) (l : EventStep) : Prop :=
  ∃ bytes, l = .read (.data bytes) ∧ HangsUp s.revents ∧ Reads s.revents

/-- What a step does: nothing that shows, a close, or a message.  The last two come to a connection
that is closed already exactly if the step reads past a hang-up. -/
inductive Effect (s : EventConn) (l : EventStep) (t : EventConn) : Prop where
  | quiet (h : Quiet s.conn t.conn) (hl : ¬ ReadsPastHangup s l)
  | close (h : t.conn = s.conn.handleClose)
      (hl : Sound s → (ReadsPastHangup s l ↔ s.conn.state = .kDisconnected))
  | message (hstate : t.conn.state = s.conn.state)
      (h : t.conn.callbacks = s.conn.callbacks ++ [.message])
      (hl : Sound s → (ReadsPastHangup s l ↔ s.conn.state = .kDisconnected))

/-- What a part of `handleEvent` does to the callbacks. -/
theorem EventConn.Step.effect {s t : EventConn} {l : EventStep} (h : EventConn.Step s l t) :
    Effect s l t := by
  cases h with
  | deliver | error => exact .quiet (.refl _) (by simp [ReadsPastHangup])
  | hangup hstage =>
    by_cases hup : HangsUp s.revents
    · exact .close (if_pos hup) fun hs =>
        iff_of_false (by simp [ReadsPastHangup]) (hs.hangup hstage)
    · simp only [hup, if_false]
      exact .quiet (.refl _) (by simp [ReadsPastHangup])
  | read r hstage hp =>
    by_cases hread : Reads s.revents
    · simp only [hread, if_true]
      have hiff : ∀ bytes, r = .data bytes → Sound s →
          (ReadsPastHangup s (.read r) ↔ s.conn.state = .kDisconnected) := by
        rintro bytes rfl hs
        simp [ReadsPastHangup, hread, hs.reading (.inr hstage)]
      rcases handleRead_cases s.conn r with ⟨⟨errno, rfl⟩, hr⟩ | ⟨hdata, hr⟩ |
        ⟨⟨bytes, hdata⟩, hsame, -, hcallbacks⟩
      · rw [hr]
        exact .quiet (.refl _) (by simp [ReadsPastHangup])
      · exact .close hr (hiff [] hdata)
      · exact .message hsame hcallbacks (hiff bytes hdata)
    · simp only [hread, if_false]
      exact .quiet (.refl _) (by simp [ReadsPastHangup, hread])
  | write r hstage hp =>
    refine .quiet ?_ (by simp [ReadsPastHangup])
    simp only
    split
    · exact quiet_handleWrite s.conn r
    · exact .refl _
  | send data r hp => exact .quiet (quiet_send s.conn data r) (by simp [ReadsPastHangup])
  | shutdown => exact .quiet (quiet_shutdown s.conn) (by simp [ReadsPastHangup])
  | forceClose => exact .quiet (quiet_forceClose s.conn) (by simp [ReadsPastHangup])
  | sendInLoop data r hidle hp =>
    exact .quiet (quiet_sendInLoop s.conn data r) (by simp [ReadsPastHangup])
  | shutdownInLoop hidle =>
    exact .quiet (quiet_shutdownInLoop s.conn) (by simp [ReadsPastHangup])
  | forceCloseInLoop hidle =>
    unfold Conn.forceCloseInLoop
    split
    · next hopen =>
      refine .close rfl fun _ => iff_of_false (by simp [ReadsPastHangup]) fun hc => ?_
      simp [hc] at hopen
    · exact .quiet (.refl _) (by simp [ReadsPastHangup])

theorem closedOnce_of_not_mem {callbacks : List ConnCallback} (hc : .close ∉ callbacks)
    (hm : .connection .kDisconnected ∉ callbacks) : ClosedOnce callbacks := by
  refine ⟨by simp [List.count_eq_zero.mpr hc], by simp [List.count_eq_zero.mpr hm],
    fun pre post he => absurd ?_ hm⟩
  rw [he]
  simp

/-- No message comes behind a disconnection. -/
theorem not_mem_of_closedOnce {callbacks : List ConnCallback}
    (h : ClosedOnce (callbacks ++ [.message])) : .connection .kDisconnected ∉ callbacks := by
  intro hm
  obtain ⟨pre, post, rfl⟩ := List.append_of_mem hm
  refine h.2.2 pre (post ++ [.message]) (by simp) (by simp)

theorem not_closedOnce_close {callbacks : List ConnCallback} (h : .close ∈ callbacks) :
    ¬ ClosedOnce (callbacks ++ [.connection .kDisconnected, .close]) := by
  intro hQ
  have hpos := List.count_pos_iff.mpr h
  have hcount := hQ.1
  have hone : ([.connection .kDisconnected, .close] : List ConnCallback).count .close = 1 := by
    decide
  rw [List.count_append, hone] at hcount
  omega

theorem closedOnce_message {callbacks : List ConnCallback} (hc : .close ∉ callbacks)
    (hm : .connection .kDisconnected ∉ callbacks) : ClosedOnce (callbacks ++ [.message]) :=
  closedOnce_of_not_mem (by simp [hc]) (by simp [hm])

theorem closedOnce_close {callbacks : List ConnCallback} (hc : .close ∉ callbacks)
    (hm : .connection .kDisconnected ∉ callbacks) :
    ClosedOnce (callbacks ++ [.connection .kDisconnected, .close]) := by
  refine ⟨by simp [List.count_eq_zero.mpr hc], by simp [List.count_eq_zero.mpr hm],
    fun pre post he => ?_⟩
  rcases List.append_eq_append_iff.mp he with ⟨as, rfl, has⟩ | ⟨bs, rfl, hbs⟩
  · cases as with
    | nil => simp at has; simp [← has]
    | cons x as =>
      simp only [List.cons_append, List.cons.injEq] at has
      obtain ⟨rfl, has⟩ := has
      cases as with
      | nil => simp at has
      | cons y as => simp at has
  · cases bs with
    | nil => simp at hbs; simp [hbs]
    | cons x bs =>
      simp only [List.cons_append, List.cons.injEq] at hbs
      exact absurd (by simp [← hbs.1]) hm

/-- A step from a sound state keeps the connection closed once exactly if it is no read past a
hang-up. -/
theorem EventConn.Step.closedOnce_iff {s t : EventConn} {l : EventStep} (hs : Sound s)
    (hQ : ClosedOnce s.conn.callbacks) (h : EventConn.Step s l t) :
    ClosedOnce t.conn.callbacks ↔ ¬ ReadsPastHangup s l := by
  -- a second close or a late message breaks it, a first one does not
  have hfirst : s.conn.state ≠ .kDisconnected →
      ClosedOnce (s.conn.callbacks ++ [.connection .kDisconnected, .close]) ∧
        ClosedOnce (s.conn.callbacks ++ [.message]) := fun hne =>
    ⟨closedOnce_close (hs.silent hne).1 (hs.silent hne).2,
      closedOnce_message (hs.silent hne).1 (hs.silent hne).2⟩
  have hlate : s.conn.state = .kDisconnected →
      ¬ ClosedOnce (s.conn.callbacks ++ [.connection .kDisconnected, .close]) ∧
        ¬ ClosedOnce (s.conn.callbacks ++ [.message]) := fun hc =>
    ⟨not_closedOnce_close (hs.closed hc).2.1,
      fun hQ' => not_mem_of_closedOnce hQ' (hs.closed hc).2.2⟩
  have hcases : ∀ {P : Prop}, (ReadsPastHangup s l ↔ s.conn.state = .kDisconnected) →
      (s.conn.state ≠ .kDisconnected → P) → (s.conn.state = .kDisconnected → ¬ P) →
        (P ↔ ¬ ReadsPastHangup s l) := by
    intro P hl hne hc
    rw [hl]
    exact ⟨fun hP he => hc he hP, hne⟩
  cases h.effect with
  | quiet hquiet hl =>
    rw [hquiet.callbacks]
    exact iff_of_true hQ hl
  | close hclose hl =>
    rw [hclose, (handleClose_spec s.conn).2.2]
    exact hcases (hl hs) (fun hne => (hfirst hne).1) fun hc => (hlate hc).1
  | message _ hmessage hl =>
    rw [hmessage]
    exact hcases (hl hs) (fun hne => (hfirst hne).2) fun hc => (hlate hc).2

/-- A connection that is closed stays so. -/
theorem EventConn.Step.stays_closed {s t : EventConn} {l : EventStep} (hs : Sound s)
    (hc : s.conn.state = .kDisconnected) (h : EventConn.Step s l t) :
    t.conn.state = .kDisconnected := by
  cases h.effect with
  | quiet hquiet _ => exact (hquiet.stays_closed hc (hs.closed hc).1).1
  | close hclose _ => rw [hclose, (handleClose_spec s.conn).1]
  | message hstate _ _ => rw [hstate, hc]

/-- **When a connection is closed once.**  In every run of an established connection
`kDisconnected` is kept, and in every state of the run the close callback has been invoked at most
once, the connection callback in `kDisconnected` at most once, and no message delivered after that,
if and only if in no dispatch whose mask has `EPOLLHUP` and `EPOLLPRI` without `EPOLLIN` a read
succeeds. -/
theorem closes_once_iff {s t : EventConn} {tr : List (EventConn × EventStep)}
    (hinit : eventMachine.init s) (h : eventMachine.Run s tr t) :
    ((tr.map Prod.fst ++ [t]).Pairwise fun u v =>
        u.conn.state = .kDisconnected → v.conn.state = .kDisconnected) ∧
      Meets (fun u _ => ClosedOnce u.conn.callbacks) tr ∧ ClosedOnce t.conn.callbacks ↔
    Meets (fun u l => ¬ ReadsPastHangup u l) tr := by
  obtain ⟨mark, writeComplete, highWater, rfl⟩ := hinit
  have hsound := sound_established mark writeComplete highWater
  have hclosed :
      ClosedOnce (EventConn.established mark writeComplete highWater).conn.callbacks := by
    have hopen :
        (EventConn.established mark writeComplete highWater).conn.state ≠ .kDisconnected := by
      simp [EventConn.established, Conn.connectEstablished, Conn.setState, Conn.invoke]
    exact closedOnce_of_not_mem (hsound.silent hopen).1 (hsound.silent hopen).2
  have hstays := h.stays (I := Sound) (Q := fun u => u.conn.state = .kDisconnected)
    (fun hs hst => EventConn.Step.sound hs hst)
    (fun hs hc hst => EventConn.Step.stays_closed hs hc hst) hsound
  rw [and_iff_right hstays]
  exact h.holds_iff (I := Sound) (Q := fun u => ClosedOnce u.conn.callbacks)
    (D := fun _ _ => True) (fun hs _ hst => EventConn.Step.sound hs hst)
    (fun hs _ hQ hst => EventConn.Step.closedOnce_iff hs hQ hst) (fun _ _ => trivial) hsound hclosed

theorem watched_established (mark : Nat) (writeComplete highWater : Bool) :
    (EventConn.established mark writeComplete highWater).conn.channel.Watched := by
  have hreading : Channel.new.enableReading.isNoneEvent = false := by decide
  exact ⟨rfl, hreading⟩

/-- A dispatch up to its read. -/
theorem run_read {s : EventConn} (hidle : s.stage = .idle) (hw : s.conn.channel.Watched)
    (revents : BitVec 32) {c : Conn}
    (hc : c = if HangsUp revents then s.conn.handleClose else s.conn) {r : ReadResult}
    (hp : (ConnStep.handleRead r).Possible c) :
    eventMachine.Run s [(s, .deliver revents), (⟨s.conn, .hangup, revents⟩, .hangup),
        (⟨c, .error, revents⟩, .error), (⟨c, .read, revents⟩, .read r)]
      ⟨if Reads revents then c.handleRead r else c, .write, revents⟩ := by
  subst hc
  exact ((((Machine.Run.nil (M := eventMachine)).snoc (.deliver revents hidle hw)).snoc
    (.hangup rfl)).snoc (.error rfl)).snoc (.read r rfl hp)

/-- The end of the stream, dispatched with `EPOLLIN`: the connection is closed once. -/
theorem closes_once_end_of_stream : ∃ t tr,
    eventMachine.Run (.established 64 false false) tr t ∧ t.conn.state = .kDisconnected ∧
      ClosedOnce t.conn.callbacks := by
  have hrun := run_read (s := .established 64 false false) rfl (watched_established _ _ _) EPOLLIN
    rfl (r := .data []) (Nat.zero_le _)
  refine ⟨_, _, hrun, rfl, ?_⟩
  refine ((closes_once_iff ⟨64, false, false, rfl⟩ hrun).mpr ?_).2.2
  simp [Meets, ReadsPastHangup, HangsUp, Has, EPOLLHUP, EPOLLIN]

/-- The end of the stream, dispatched with `EPOLLHUP` and `EPOLLPRI`: it is closed twice. -/
theorem hangup_with_pri : ¬ ∀ s t tr, eventMachine.init s → eventMachine.Run s tr t →
    ClosedOnce t.conn.callbacks := by
  intro h
  have hrun := run_read (s := .established 64 false false) rfl (watched_established _ _ _)
    (EPOLLHUP ||| EPOLLPRI) rfl (r := .data []) (Nat.zero_le _)
  have htwice := (h _ _ _ ⟨64, false, false, rfl⟩ hrun).1
  revert htwice
  decide

end Reactor.Net
