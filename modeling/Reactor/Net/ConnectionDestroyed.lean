import Reactor.Net.ConnectionEvents

/-!
# Net — connectDestroyed

`connectDestroyed` disconnects a connection that is in `kConnected`, and takes the channel from the
poller.  A connection in `kDisconnecting` it leaves in that state, with its user not told, and a
functor still queued may register the channel again.

* `Notified`: whoever is in `kDisconnected` has been told.
* `connectDestroyed_dead_iff`: a connection is dead after `connectDestroyed` if and only if it was
  not in `kDisconnecting`.
* `destroyed_while_disconnecting`: a connection that is not.
-/

namespace Reactor.Net
open Reactor.Lib

/-- A step of the loop thread, or the store of another thread's `shutdown` or `forceClose`, which
has tested the state before. -/
inductive DestroyStep where
  | loop (l : EventStep)
  | storeDisconnecting

/-- An established connection, with other threads calling `shutdown` and `forceClose`. -/
def destroyMachine : Machine EventConn DestroyStep where
  init := eventMachine.init
  step s l t :=
    match l with
    | .loop l => EventConn.Step s l t
    | .storeDisconnecting => t = { s with conn := s.conn.setState .kDisconnecting }

/-- The functors that may be queued when `connectDestroyed` is run. -/
inductive QueuedFunctor where
  | sendInLoop (data : List Byte) (r : WriteResult)
  | shutdownInLoop
  | forceCloseInLoop

/-- The functor runs in the loop. -/
def QueuedFunctor.run (c : Conn) : QueuedFunctor → Conn
  | .sendInLoop data r => c.sendInLoop data r
  | .shutdownInLoop => c.shutdownInLoop
  | .forceCloseInLoop => c.forceCloseInLoop

/-- Disconnected, the user told, and unregistered, whatever functors are run. -/
structure Dead (c : Conn) : Prop where
  state : c.state = .kDisconnected
  told : .connection .kDisconnected ∈ c.callbacks
  unregistered : c.channel.registered = false
  stays : ∀ fs : List QueuedFunctor, (fs.foldl QueuedFunctor.run c).channel.registered = false

/-- Whoever is in `kDisconnected` has been told, and nobody is in `kConnecting`. -/
structure Notified (s : EventConn) : Prop where
  told : s.conn.state = .kDisconnected → .connection .kDisconnected ∈ s.conn.callbacks
  connecting : s.conn.state ≠ .kConnecting

/-- An established connection has nothing to tell yet. -/
theorem notified_init {s : EventConn} (h : destroyMachine.init s) : Notified s := by
  obtain ⟨mark, writeComplete, highWater, rfl⟩ := h
  constructor <;>
    simp [EventConn.established, Conn.connectEstablished, Conn.setState, Conn.invoke]

/-- A disconnection is told by the step that makes it, or by `connectDestroyed`. -/
theorem notified_step {s t : EventConn} {l : DestroyStep} (hs : Notified s)
    (h : destroyMachine.step s l t) : Notified t := by
  cases l with
  | storeDisconnecting =>
    rw [show t = _ from h]
    constructor <;> simp [Conn.setState]
  | loop l =>
    cases EventConn.Step.effect h with
    | quiet hquiet _ =>
      refine ⟨fun ht => ?_, fun ht => hs.connecting (hquiet.connecting ht)⟩
      rw [hquiet.callbacks]
      refine hs.told ?_
      by_contra hne
      exact hquiet.stays_open hne ht
    | close hclose _ =>
      obtain ⟨hstate, -, hcallbacks⟩ := handleClose_spec s.conn
      rw [← hclose] at hstate hcallbacks
      exact ⟨fun _ => by simp [hcallbacks], by simp [hstate]⟩
    | message hstate hmessage _ =>
      refine ⟨fun ht => ?_, by rw [hstate]; exact hs.connecting⟩
      rw [hmessage]
      exact List.mem_append_left _ (hs.told (hstate ▸ ht))

/-- In `kDisconnected` no functor touches the channel. -/
theorem foldl_run_disconnected (fs : List QueuedFunctor) {c : Conn} (h : c.state = .kDisconnected) :
    (fs.foldl QueuedFunctor.run c).channel = c.channel := by
  induction fs generalizing c with
  | nil => rfl
  | cons f fs ih =>
    have hf : (f.run c).state = .kDisconnected ∧ (f.run c).channel = c.channel := by
      cases f with
      | sendInLoop data r => simp [QueuedFunctor.run, Conn.sendInLoop, h]
      | shutdownInLoop => simp [QueuedFunctor.run, h]
      | forceCloseInLoop => simp [QueuedFunctor.run, Conn.forceCloseInLoop, h]
    rw [List.foldl_cons, ih hf.1, hf.2]

/-- **When a destroyed connection is dead.**  In every reachable state `connectDestroyed` leaves the
connection in `kDisconnected`, its user told and its channel unregistered for good, if and only if
the connection was not in `kDisconnecting`. -/
theorem connectDestroyed_dead_iff {s : EventConn} (h : destroyMachine.Reachable s) :
    Dead s.conn.connectDestroyed ↔ s.conn.state ≠ .kDisconnecting := by
  have hs : Notified s := h.keeps notified_init notified_step
  have hdead : ∀ {c : Conn}, c.state = .kDisconnected →
      .connection .kDisconnected ∈ c.callbacks → c.channel.registered = false → Dead c :=
    fun hstate htold hreg => ⟨hstate, htold, hreg, fun fs => by
      rw [foldl_run_disconnected fs hstate, hreg]⟩
  cases hstate : s.conn.state with
  | kConnecting => exact absurd hstate hs.connecting
  | kConnected =>
    refine iff_of_true (hdead ?_ ?_ ?_) (by simp) <;>
      simp [Conn.connectDestroyed, hstate, Conn.setState, Conn.invoke, Channel.remove]
  | kDisconnected =>
    refine iff_of_true (hdead ?_ ?_ ?_) (by simp)
    · simp [Conn.connectDestroyed, hstate]
    · simpa [Conn.connectDestroyed, hstate] using hs.told hstate
    · simp [Conn.connectDestroyed, hstate, Channel.remove]
  | kDisconnecting =>
    refine iff_of_false (fun hd => ?_) (by simp)
    have := hd.state
    simp [Conn.connectDestroyed, hstate] at this

/-- The theorem at a connection just established. -/
theorem connectDestroyed_dead_established :
    Dead (EventConn.established 64 false false).conn.connectDestroyed :=
  (connectDestroyed_dead_iff (.of_init ⟨64, false, false, rfl⟩)).mpr (by decide)

/-- Shut down and then destroyed, a connection keeps its state, its user is not told, and a functor
registers the channel again. -/
theorem destroyed_while_disconnecting : ¬ ∀ s, destroyMachine.Reachable s →
    Dead s.conn.connectDestroyed := by
  intro h
  have hinit : destroyMachine.init (.established 64 false false) := ⟨64, false, false, rfl⟩
  have hstep : destroyMachine.step (.established 64 false false) (.loop .forceClose)
      { EventConn.established 64 false false with
        conn := (EventConn.established 64 false false).conn.forceClose } :=
    EventConn.Step.forceClose
  have hstays := (h _ ((Machine.Reachable.of_init hinit).run (.one hstep))).stays
    [.forceCloseInLoop]
  revert hstays
  decide

end Reactor.Net
