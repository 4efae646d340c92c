import Mathlib.Logic.Function.Basic
import Reactor.Net.TcpConnection

/-!
# Net — the stores of _state

An established connection that is closed by its loop thread while other threads call `shutdown()`
and `forceClose()`.  Each load and each store of `_state` is a step; `shutdown` and `forceClose`
test `_state` in one step and store `kDisconnecting` in another.  What the loop thread does between
two accesses is a step as well, and so is the call that queues a functor.

`disconnected` and `overtaken` are history: `kDisconnected` has been stored, and it has been stored
since the test of that thread.

* `handleClose_eq`, `connectDestroyed_eq`: the steps of the loop thread are its functions.
* `Step.effect`: what a step does to `_state`.
* `stays_disconnected_iff`: `kDisconnected` is final if and only if no thread's store comes after a
  close that came after its test.
-/

namespace Reactor.Net
open Reactor.Lib

/-- Where another thread is in a call of `shutdown` or `forceClose`. -/
inductive CloserPc where
  | idle
  /-- `shutdown` has seen `kConnected`. -/
  | shutdownSeen
  /-- `shutdown` has stored `kDisconnecting`. -/
  | shutdownStored
  /-- `forceClose` has seen a state other than `kConnected`. -/
  | forceCloseTested
  /-- `forceClose` has seen `kConnected` or `kDisconnecting`. -/
  | forceCloseSeen
  /-- `forceClose` has stored `kDisconnecting`. -/
  | forceCloseStored
  deriving DecidableEq

/-- The thread has passed its test and not stored. -/
def CloserPc.InWindow (pc : CloserPc) : Prop := pc = .shutdownSeen ∨ pc = .forceCloseSeen

/-- Where the loop thread is. -/
inductive ClosingPc where
  | idle
  /-- `forceCloseInLoop` is called. -/
  | forceCloseInLoop
  /-- `forceCloseInLoop` has seen a state other than `kConnected`. -/
  | forceCloseTested
  /-- `handleClose` is called. -/
  | handleClose
  /-- `handleClose` has stored `kDisconnected`. -/
  | closeStored
  /-- `connectDestroyed` has seen `kConnected`. -/
  | destroySeen
  /-- `connectDestroyed` has stored `kDisconnected`. -/
  | destroyStored
  deriving DecidableEq

namespace Conn

/-- `handleClose` after its store. -/
def closeRest (c : Conn) : Conn :=
  ({ c with channel := c.channel.disableAll }.invoke (.connection c.state)).invoke .close

/-- `connectDestroyed` after its store. -/
def destroyRest (c : Conn) : Conn :=
  let c := { c with channel := c.channel.disableAll }.invoke (.connection c.state)
  { c with channel := c.channel.remove }

/-- `connectDestroyed` where it does not store. -/
def removeChannel (c : Conn) : Conn := { c with channel := c.channel.remove }

theorem handleClose_eq (c : Conn) : c.handleClose = (c.setState .kDisconnected).closeRest := rfl

theorem connectDestroyed_eq (c : Conn) : c.connectDestroyed =
    if c.state = .kConnected then (c.setState .kDisconnected).destroyRest
    else c.removeChannel := by
  rw [connectDestroyed]
  split
  · rfl
  · rfl

end Conn

/-- A connection, and the places of the loop's thread and of those that call `shutdown` and
`forceClose`; `disconnected` and `overtaken` are history. -/
structure ClosingConn (T : Type) where
  conn : Conn
  loop : ClosingPc
  clients : T → CloserPc
  /-- The functors queued in the loop. -/
  queue : List ConnFunctor
  disconnected : Bool
  overtaken : T → Bool

namespace ClosingConn

variable {T : Type}

/-- A connection just established. -/
def established (mark : Nat) (writeComplete highWater : Bool) : ClosingConn T where
  conn := (Conn.new mark writeComplete highWater).connectEstablished
  loop := .idle
  clients := fun _ => .idle
  queue := []
  disconnected := false
  overtaken := fun _ => false

/-- `setState(kDisconnected)` in the loop thread. -/
def storeDisconnected (s : ClosingConn T) (pc : ClosingPc) : ClosingConn T :=
  { s with
    conn := s.conn.setState .kDisconnected
    loop := pc
    disconnected := true
    overtaken := fun _ => true }

/-- The loop's thread gets to another place. -/
def setLoop (s : ClosingConn T) (pc : ClosingPc) : ClosingConn T := { s with loop := pc }

variable [DecidableEq T]

/-- A thread gets to another place in its call. -/
def setClient (s : ClosingConn T) (t : T) (pc : CloserPc) : ClosingConn T :=
  { s with clients := Function.update s.clients t pc }

/-- The thread's test of `_state` lets it through. -/
def pass (s : ClosingConn T) (t : T) (pc : CloserPc) : ClosingConn T :=
  { s.setClient t pc with overtaken := Function.update s.overtaken t false }

/-- `setState(kDisconnecting)` in another thread. -/
def storeDisconnecting (s : ClosingConn T) (t : T) (pc : CloserPc) : ClosingConn T :=
  { s.setClient t pc with conn := s.conn.setState .kDisconnecting }

end ClosingConn

/-- A step of the loop's thread, or of a thread in its call. -/
inductive ClosingStep (T : Type) where
  | loop
  /-- A call of `shutdown` or `forceClose`, and what follows in it up to the store. -/
  | test (t : T)
  | store (t : T)
  | queueFunctor (t : T)

namespace ClosingConn

variable {T : Type} [DecidableEq T]

/-- The steps: every test of the state, every store to it, and what comes between. -/
inductive Step : ClosingConn T → ClosingStep T → ClosingConn T → Prop where
  /-- The loop thread finds the end of the stream. -/
  | handleClose {s} (h : s.loop = .idle) : Step s .loop (s.setLoop .handleClose)
  | closeStore {s} (h : s.loop = .handleClose) : Step s .loop (s.storeDisconnected .closeStored)
  | closeRest {s} (h : s.loop = .closeStored) :
      Step s .loop { s.setLoop .idle with conn := s.conn.closeRest }
  | runShutdownInLoop {s} {queue : List ConnFunctor} (h : s.loop = .idle)
      (hq : s.queue = .shutdownInLoop :: queue) :
      Step s .loop { s with conn := s.conn.shutdownInLoop, queue := queue }
  | runForceCloseInLoop {s} {queue : List ConnFunctor} (h : s.loop = .idle)
      (hq : s.queue = .forceCloseInLoop :: queue) :
      Step s .loop { s.setLoop .forceCloseInLoop with queue := queue }
  | forceCloseTest {s} (h : s.loop = .forceCloseInLoop) :
      Step s .loop (s.setLoop
        (if s.conn.state = .kConnected then .handleClose else .forceCloseTested))
  | forceCloseRetest {s} (h : s.loop = .forceCloseTested) :
      Step s .loop (s.setLoop
        (if s.conn.state = .kDisconnecting then .handleClose else .idle))
  | connectDestroyed {s} (h : s.loop = .idle) (hs : s.conn.state = .kConnected) :
      Step s .loop (s.setLoop .destroySeen)
  | destroyStore {s} (h : s.loop = .destroySeen) :
      Step s .loop (s.storeDisconnected .destroyStored)
  | destroyRest {s} (h : s.loop = .destroyStored) :
      Step s .loop { s.setLoop .idle with conn := s.conn.destroyRest }
  | connectDestroyedElse {s} (h : s.loop = .idle) (hs : s.conn.state ≠ .kConnected) :
      Step s .loop { s with conn := s.conn.removeChannel }
  /-- `shutdown()` is called: it tests `_state`. -/
  | shutdown {s} (t : T) (h : s.clients t = .idle) (hs : s.conn.state = .kConnected) :
      Step s (.test t) (s.pass t .shutdownSeen)
  | shutdownElse {s} (t : T) (h : s.clients t = .idle) (hs : s.conn.state ≠ .kConnected) :
      Step s (.test t) s
  | shutdownStore {s} (t : T) (h : s.clients t = .shutdownSeen) :
      Step s (.store t) (s.storeDisconnecting t .shutdownStored)
  | shutdownQueue {s} (t : T) (h : s.clients t = .shutdownStored) :
      Step s (.queueFunctor t) { s.setClient t .idle with queue := s.queue ++ [.shutdownInLoop] }
  /-- `forceClose()` is called: it tests `_state` for `kConnected`. -/
  | forceClose {s} (t : T) (h : s.clients t = .idle) (hs : s.conn.state = .kConnected) :
      Step s (.test t) (s.pass t .forceCloseSeen)
  | forceCloseElse {s} (t : T) (h : s.clients t = .idle) (hs : s.conn.state ≠ .kConnected) :
      Step s (.test t) (s.setClient t .forceCloseTested)
  /-- It tests `_state` for `kDisconnecting`. -/
  | forceCloseAgain {s} (t : T) (h : s.clients t = .forceCloseTested)
      (hs : s.conn.state = .kDisconnecting) : Step s (.test t) (s.pass t .forceCloseSeen)
  | forceCloseAgainElse {s} (t : T) (h : s.clients t = .forceCloseTested)
      (hs : s.conn.state ≠ .kDisconnecting) : Step s (.test t) (s.setClient t .idle)
  | forceCloseStore {s} (t : T) (h : s.clients t = .forceCloseSeen) :
      Step s (.store t) (s.storeDisconnecting t .forceCloseStored)
  | forceCloseQueue {s} (t : T) (h : s.clients t = .forceCloseStored) :
      Step s (.queueFunctor t) { s.setClient t .idle with queue := s.queue ++ [.forceCloseInLoop] }

end ClosingConn

/-- An established connection in an idle loop, and all that can follow. -/
def closingMachine (T : Type) [DecidableEq T] : Machine (ClosingConn T) (ClosingStep T) where
  init s := ∃ mark writeComplete highWater, s = .established mark writeComplete highWater
  step := ClosingConn.Step

namespace ClosingConn

variable {T : Type}

/-- Once `kDisconnected` has been stored, `_state` holds it. -/
def Final (s : ClosingConn T) : Prop := s.disconnected = true → s.conn.state = .kDisconnected

/-- No thread stores `kDisconnecting` if `kDisconnected` has been stored since its test. -/
def NotOvertaken (s : ClosingConn T) (l : ClosingStep T) : Prop :=
  ∀ t, l = .store t → s.overtaken t = false

/-- A thread between its test and its store has been overtaken if and only if the connection has
been disconnected: a test passes before that only. -/
structure Windows (s : ClosingConn T) : Prop where
  window : ∀ t, (s.clients t).InWindow → s.disconnected = true → s.overtaken t = true
  overtaken : ∀ t, s.overtaken t = true → s.disconnected = true

/-- What a step does to `_state`. -/
inductive Effect (s : ClosingConn T) (l : ClosingStep T) (u : ClosingConn T) : Prop where
  /-- Nothing. -/
  | quiet (hl : ∀ t, l ≠ .store t) (hstate : u.conn.state = s.conn.state)
      (hd : u.disconnected = s.disconnected) (ho : u.overtaken = s.overtaken)
      (hw : ∀ t, (u.clients t).InWindow → (s.clients t).InWindow)
  /-- A thread passes its test. -/
  | pass (t : T) (hl : ∀ t, l ≠ .store t) (hs : s.conn.state ≠ .kDisconnected)
      (hstate : u.conn.state = s.conn.state) (hd : u.disconnected = s.disconnected)
      (ho : ∀ t, u.overtaken t = true → s.overtaken t = true)
  | storeDisconnecting (t : T) (hl : l = .store t) (hw : (s.clients t).InWindow)
      (hstate : u.conn.state = .kDisconnecting) (hd : u.disconnected = s.disconnected)
      (ho : u.overtaken = s.overtaken) (hw' : ∀ t, (u.clients t).InWindow → (s.clients t).InWindow)
  | storeDisconnected (hl : ∀ t, l ≠ .store t) (hstate : u.conn.state = .kDisconnected)
      (hd : u.disconnected = true) (ho : ∀ t, u.overtaken t = true)

variable [DecidableEq T]

/-- A thread that is in no window of its own opens none for the others. -/
theorem inWindow_update {clients : T → CloserPc} {t : T} {pc : CloserPc} (hpc : ¬ pc.InWindow)
    {u : T} (h : (Function.update clients t pc u).InWindow) : (clients u).InWindow := by
  by_cases hut : u = t
  · subst hut
    rw [Function.update_self] at h
    exact absurd h hpc
  · rwa [Function.update_of_ne hut] at h

theorem pass_overtaken {s : ClosingConn T} {t : T} {pc : CloserPc} (u : T)
    (h : (s.pass t pc).overtaken u = true) : s.overtaken u = true := by
  by_cases hut : u = t
  · subst hut
    simp [pass] at h
  · simpa [pass, hut] using h

/-- What a step does to the state. -/
theorem Step.effect {s u : ClosingConn T} {l : ClosingStep T} (h : Step s l u) : Effect s l u := by
  cases h with
  | handleClose | forceCloseTest | forceCloseRetest | connectDestroyed | runForceCloseInLoop =>
    exact .quiet (by simp) rfl rfl rfl fun _ => id
  | closeRest | destroyRest | connectDestroyedElse => exact .quiet (by simp) rfl rfl rfl fun _ => id
  | runShutdownInLoop =>
    refine .quiet (by simp) ?_ rfl rfl fun _ => id
    rw [Conn.shutdownInLoop]
    split
    · rfl
    · rfl
  | closeStore | destroyStore => exact .storeDisconnected (by simp) rfl rfl fun _ => rfl
  | shutdown t h hs | forceClose t h hs | forceCloseAgain t h hs =>
    exact .pass t (by simp) (by simp [hs]) rfl rfl pass_overtaken
  | shutdownElse => exact .quiet (by simp) rfl rfl rfl fun _ => id
  | forceCloseElse | forceCloseAgainElse | shutdownQueue | forceCloseQueue =>
    exact .quiet (by simp) rfl rfl rfl fun _ => inWindow_update (by simp [CloserPc.InWindow])
  | shutdownStore t h =>
    exact .storeDisconnecting t rfl (.inl h) rfl rfl rfl
      fun _ => inWindow_update (by simp [CloserPc.InWindow])
  | forceCloseStore t h =>
    exact .storeDisconnecting t rfl (.inr h) rfl rfl rfl
      fun _ => inWindow_update (by simp [CloserPc.InWindow])

/-- The window of a thread is open from its test to its store. -/
theorem Step.windows {s u : ClosingConn T} {l : ClosingStep T} (hs : s.Windows) (hf : s.Final)
    (h : Step s l u) : u.Windows := by
  cases h.effect with
  | quiet _ _ hd ho hw =>
    exact ⟨fun t ht => by rw [hd, ho]; exact hs.window t (hw t ht),
      by rw [hd, ho]; exact hs.overtaken⟩
  | pass _ _ hopen _ hd ho =>
    refine ⟨fun t _ hdis => ?_, fun t ht => by rw [hd]; exact hs.overtaken t (ho t ht)⟩
    exact absurd (hf (hd ▸ hdis)) hopen
  | storeDisconnecting _ _ _ _ hd ho hw =>
    exact ⟨fun t ht => by rw [hd, ho]; exact hs.window t (hw t ht),
      by rw [hd, ho]; exact hs.overtaken⟩
  | storeDisconnected _ _ hd ho => exact ⟨fun t _ _ => ho t, fun _ _ => hd⟩

/-- A store of `kDisconnecting` revives the connection exactly if its thread has been overtaken. -/
theorem Step.final_iff {s u : ClosingConn T} {l : ClosingStep T} (hs : s.Windows) (hf : s.Final)
    (h : Step s l u) : u.Final ↔ s.NotOvertaken l := by
  cases h.effect with
  | quiet hl hstate hd _ _ | pass _ hl _ hstate hd _ =>
    refine iff_of_true ?_ fun t ht => absurd ht (hl t)
    rw [Final, hstate, hd]
    exact hf
  | storeDisconnected hl hstate =>
    exact iff_of_true (fun _ => hstate) fun t ht => absurd ht (hl t)
  | storeDisconnecting t hl hw hstate hd =>
    subst hl
    have hdis : s.disconnected = true ↔ s.overtaken t = true := ⟨hs.window t hw, hs.overtaken t⟩
    simp [Final, NotOvertaken, hstate, hd, hdis]

end ClosingConn

/-- **When a disconnected connection stays so.**  In every run of the closing functions of the loop
thread and of `shutdown()` and `forceClose()` in other threads, `_state` holds `kDisconnected` in
every state after it was stored, if and only if no thread stores `kDisconnecting` after a store of
`kDisconnected` that came after the test that let the thread through. -/
theorem stays_disconnected_iff {T : Type} [DecidableEq T] {s t : ClosingConn T}
    {tr : List (ClosingConn T × ClosingStep T)} (h₀ : (closingMachine T).init s)
    (hr : (closingMachine T).Run s tr t) :
    (Meets (fun s _ => s.Final) tr ∧ t.Final) ↔ Meets ClosingConn.NotOvertaken tr := by
  obtain ⟨mark, writeComplete, highWater, rfl⟩ := h₀
  refine hr.holds_iff_while (I := ClosingConn.Windows) (D := fun _ _ => True)
    (fun hi _ hq hs => ClosingConn.Step.windows hi hq hs)
    (fun hi _ hq hs => ClosingConn.Step.final_iff hi hq hs) (fun _ _ => trivial) ⟨?_, ?_⟩ ?_
  · rintro t (h | h) <;> cases h
  · exact fun t h => by cases h
  · exact fun h => by cases h

/-- The theorem where `shutdown()` is done before the connection is closed. -/
theorem stays_disconnected_shutdown : ∃ (s t : ClosingConn Unit) (tr : _),
    (closingMachine Unit).Run s tr t ∧ t.conn.state = .kDisconnected ∧ t.Final := by
  have hr := Machine.Run.nil (M := closingMachine Unit) (s := .established 64 false false)
    |>.snoc (.shutdown () rfl rfl)
    |>.snoc (.shutdownStore () rfl)
    |>.snoc (.handleClose rfl)
    |>.snoc (.closeStore rfl)
    |>.snoc (.closeRest rfl)
  refine ⟨_, _, _, hr, rfl, ((stays_disconnected_iff ⟨64, false, false, rfl⟩ hr).mpr ?_).2⟩
  simp only [meets_snoc, meets_nil]
  simp [ClosingConn.NotOvertaken, ClosingConn.established, ClosingConn.pass, ClosingConn.setClient]

/-- A connection closed between the test and the store of a `shutdown()` is revived. -/
theorem revived_by_shutdown : ¬ ∀ (s t : ClosingConn Unit) tr, (closingMachine Unit).init s →
    (closingMachine Unit).Run s tr t → t.Final := by
  intro hstays
  have hr := Machine.Run.nil (M := closingMachine Unit) (s := .established 64 false false)
    |>.snoc (.shutdown () rfl rfl)
    |>.snoc (.handleClose rfl)
    |>.snoc (.closeStore rfl)
    |>.snoc (.closeRest rfl)
    |>.snoc (.shutdownStore () rfl)
  have hfinal := hstays _ _ _ ⟨64, false, false, rfl⟩ hr
  cases hfinal rfl

end Reactor.Net
