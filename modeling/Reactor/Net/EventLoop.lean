import Mathlib.Algebra.Group.Nat.Defs
import Mathlib.Logic.Function.Basic
import Reactor.Lib.Runs
import Reactor.Lib.SwapQueue

/-!
# Net — EventLoop

`EventLoop` as a machine of one loop thread and any other threads.  The loop thread goes round
`loop()`: test `_quit`, poll, dispatch the active channels, swap out the pending functors and run
them.  Every thread, the loop thread included, may call `queueInLoop` and `quit`; each call is two
steps, the store (of the functor, under the mutex, or of the flag) and the `wakeup()` that
follows it, and other threads may come in between.  The loop thread calls them from client code
only: before it calls `loop()`, while a channel's handler runs, or while a functor runs.

`functors`, the local vector of `doPendingFunctors`, and `_pendingFunctors` are the two stages of
a `SwapQueue`.  `appended`, `executed` and `quits` are history: the functors in the order
`queueInLoop` stored them, each with the thread that did; those the loop has called; and, for each
store of `_quit`, its thread and how many functors were stored before it.
-/

namespace Reactor.Net
open Reactor.Lib

/-- An entry of `_activeChannels`: the loop's `_wakeupChannel`, or another channel. -/
inductive ActiveChannel where
  | wakeup
  | other
  deriving DecidableEq, Repr

/-- Where the loop thread is. -/
inductive LoopPc (F : Type) where
  /-- Before `loop()` has stored `_quit = false`. -/
  | outside
  /-- At `while (!_quit)`. -/
  | test
  /-- In `_poller->poll`. -/
  | poll
  /-- In the `for` over `_activeChannels`, at the first of those left. -/
  | dispatch (active : List ActiveChannel)
  /-- In `doPendingFunctors`, before the swap. -/
  | swap
  /-- In `doPendingFunctors`, in the loop over `functors`; inside the functor, if there is one. -/
  | run (functor : Option F)
  /-- `loop()` has returned. -/
  | returned
  deriving DecidableEq, Repr

/-- Where a thread is in a call of `queueInLoop` or `quit`. -/
inductive CallPc where
  | idle
  /-- The functor is stored; the test that guards `wakeup()` comes next. -/
  | appended
  /-- `_quit = true` is stored; the test that guards `wakeup()` comes next. -/
  | quitStored
  deriving DecidableEq, Repr

/-- `EventLoop`, with the place of its thread in `loop()`, those of the threads that call it, and
what has been queued and run. -/
structure EventLoop (T F : Type) where
  /-- `_threadId` -/
  threadId : T
  pc : LoopPc F
  /-- `_quit` -/
  quit : Bool
  /-- `_callingPendingFunctors` -/
  callingPendingFunctors : Bool
  /-- The counter of the eventfd `_wakeupFd`. -/
  wakeupFd : Nat
  /-- The rest of `functors`, and `_pendingFunctors`. -/
  queue : SwapQueue F
  callers : T → CallPc
  appended : List (T × F)
  executed : List F
  quits : List (T × Nat)

/-- The largest value of an eventfd counter; a non-blocking write that would pass it fails. -/
def eventfdMax : Nat := 2 ^ 64 - 2

namespace EventLoop

variable {T F : Type} [DecidableEq T]

/-- The constructor, in thread `threadId`. -/
def new (threadId : T) : EventLoop T F where
  threadId := threadId
  pc := .outside
  quit := false
  callingPendingFunctors := false
  wakeupFd := 0
  queue := .empty
  callers := fun _ => .idle
  appended := []
  executed := []
  quits := []

/-- `isInLoopThread()`, called in the thread `t`. -/
def isInLoopThread (s : EventLoop T F) (t : T) : Bool := t == s.threadId

/-- `wakeup()`: the write adds one to the counter of the eventfd, if it can. -/
def wakeup (s : EventLoop T F) : EventLoop T F :=
  if s.wakeupFd + 1 ≤ eventfdMax then { s with wakeupFd := s.wakeupFd + 1 } else s

/-- `handleRead` of the wakeup channel: reading an eventfd sets its counter to 0. -/
def handleRead (s : EventLoop T F) : EventLoop T F := { s with wakeupFd := 0 }

/-- A thread gets to another place in a call. -/
def setCaller (s : EventLoop T F) (t : T) (pc : CallPc) : EventLoop T F :=
  { s with callers := Function.update s.callers t pc }

/-- The critical section of `queueInLoop`. -/
def emplaceBack (s : EventLoop T F) (t : T) (f : F) : EventLoop T F :=
  { s with queue := s.queue.push f, appended := s.appended ++ [(t, f)] }.setCaller t .appended

/-- The rest of `queueInLoop`. -/
def queueInLoopWakeup (s : EventLoop T F) (t : T) : EventLoop T F :=
  (if !s.isInLoopThread t || s.callingPendingFunctors then s.wakeup else s).setCaller t .idle

/-- The store of `quit`. -/
def storeQuit (s : EventLoop T F) (t : T) : EventLoop T F :=
  { s with quit := true, quits := s.quits ++ [(t, s.appended.length)] }.setCaller t .quitStored

/-- The rest of `quit`. -/
def quitWakeup (s : EventLoop T F) (t : T) : EventLoop T F :=
  (if !s.isInLoopThread t then s.wakeup else s).setCaller t .idle

/-- The loop thread is running client code. -/
def InClientCode (s : EventLoop T F) : Prop :=
  match s.pc with
  | .outside => True
  | .dispatch (.other :: _) => True
  | .run (some _) => True
  | _ => False

/-- `t` can start a call: it is not in one, and the loop thread starts one from client code. -/
def CanCall (s : EventLoop T F) (t : T) : Prop :=
  s.callers t = .idle ∧ (t = s.threadId → s.InClientCode)

end EventLoop

/-- The steps: those of the loop thread going round, then those of any thread's calls. -/
inductive LoopStep (T F : Type) where
  | enter
  | leave
  | startPoll
  | pollReturn (active : List ActiveChannel)
  | handleRead
  | handleEvent
  | startPending
  | swap
  | call
  | finish
  | endPending
  | queueInLoop (t : T) (f : F)
  | runInLoop (t : T) (f : F)
  | queueInLoopWakeup (t : T)
  | quit (t : T)
  | quitWakeup (t : T)
  deriving DecidableEq

namespace EventLoop

variable {T F : Type} [DecidableEq T]

/-- The statements of `loop()` and `doPendingFunctors()`, and those of `queueInLoop`, `runInLoop`
and `quit` in any thread. -/
inductive Step : EventLoop T F → LoopStep T F → EventLoop T F → Prop where
  /-- `_looping = true; _quit = false;` -/
  | enter {s} (hpc : s.pc = .outside) (hidle : s.callers s.threadId = .idle) :
      Step s .enter { s with quit := false, pc := .test }
  | leave {s} (hpc : s.pc = .test) (hq : s.quit = true) : Step s .leave { s with pc := .returned }
  | startPoll {s} (hpc : s.pc = .test) (hq : s.quit = false) :
      Step s .startPoll { s with pc := .poll }
  /-- The wakeup channel is reported only when its descriptor is readable. -/
  | pollReturn {s} (active : List ActiveChannel) (hpc : s.pc = .poll)
      (hw : .wakeup ∈ active → 0 < s.wakeupFd) :
      Step s (.pollReturn active) { s with pc := .dispatch active }
  | handleRead {s} {rest : List ActiveChannel} (hpc : s.pc = .dispatch (.wakeup :: rest)) :
      Step s .handleRead { s.handleRead with pc := .dispatch rest }
  | handleEvent {s} {rest : List ActiveChannel} (hpc : s.pc = .dispatch (.other :: rest))
      (hidle : s.callers s.threadId = .idle) : Step s .handleEvent { s with pc := .dispatch rest }
  | startPending {s} (hpc : s.pc = .dispatch []) :
      Step s .startPending { s with callingPendingFunctors := true, pc := .swap }
  | swap {s} (hpc : s.pc = .swap) : Step s .swap { s with queue := s.queue.swap, pc := .run none }
  | call {s} {f : F} {q : SwapQueue F} (hpc : s.pc = .run none)
      (hn : s.queue.next? = some (f, q)) :
      Step s .call { s with queue := q, executed := s.executed ++ [f], pc := .run (some f) }
  | finish {s} {f : F} (hpc : s.pc = .run (some f)) (hidle : s.callers s.threadId = .idle) :
      Step s .finish { s with pc := .run none }
  | endPending {s} (hpc : s.pc = .run none) (hb : s.queue.batch = []) :
      Step s .endPending { s with callingPendingFunctors := false, pc := .test }
  | queueInLoop {s} (t : T) (f : F) (hc : s.CanCall t) :
      Step s (.queueInLoop t f) (s.emplaceBack t f)
  /-- Outside the loop thread `runInLoop` is `queueInLoop`. -/
  | runInLoop {s} (t : T) (f : F) (hc : s.CanCall t) (ht : s.isInLoopThread t = false) :
      Step s (.runInLoop t f) (s.emplaceBack t f)
  /-- In the loop thread it runs the functor in place, and queues nothing. -/
  | runInLoopHere {s} (t : T) (f : F) (hc : s.CanCall t) (ht : s.isInLoopThread t = true) :
      Step s (.runInLoop t f) s
  | queueInLoopWakeup {s} (t : T) (hc : s.callers t = .appended) :
      Step s (.queueInLoopWakeup t) (s.queueInLoopWakeup t)
  | quit {s} (t : T) (hc : s.CanCall t) : Step s (.quit t) (s.storeQuit t)
  | quitWakeup {s} (t : T) (hc : s.callers t = .quitStored) :
      Step s (.quitWakeup t) (s.quitWakeup t)

omit [DecidableEq T] in
/-- A thread that is not the loop's may call at any time. -/
theorem CanCall.of_ne {s : EventLoop T F} {t : T} (hc : s.callers t = .idle)
    (ht : t ≠ s.threadId) : s.CanCall t :=
  ⟨hc, fun h => absurd h ht⟩

/-! ### What the small functions leave alone -/

omit [DecidableEq T] in
@[simp] theorem wakeup_frame (s : EventLoop T F) :
    s.wakeup.pc = s.pc ∧ s.wakeup.quit = s.quit ∧ s.wakeup.queue = s.queue ∧
      s.wakeup.callers = s.callers ∧ s.wakeup.threadId = s.threadId ∧
      s.wakeup.callingPendingFunctors = s.callingPendingFunctors ∧
      s.wakeup.appended = s.appended ∧ s.wakeup.executed = s.executed ∧
      s.wakeup.quits = s.quits := by
  unfold wakeup; split <;> simp

omit [DecidableEq T] in
/-- After `wakeup()` the eventfd is readable. -/
theorem wakeup_pos (s : EventLoop T F) : 0 < s.wakeup.wakeupFd := by
  unfold wakeup
  split
  · exact Nat.succ_pos _
  · next h => unfold eventfdMax at h; omega

@[simp] theorem setCaller_frame (s : EventLoop T F) (t : T) (pc : CallPc) :
    (s.setCaller t pc).pc = s.pc ∧ (s.setCaller t pc).quit = s.quit ∧
      (s.setCaller t pc).queue = s.queue ∧ (s.setCaller t pc).threadId = s.threadId ∧
      (s.setCaller t pc).callingPendingFunctors = s.callingPendingFunctors ∧
      (s.setCaller t pc).wakeupFd = s.wakeupFd ∧ (s.setCaller t pc).appended = s.appended ∧
      (s.setCaller t pc).executed = s.executed ∧ (s.setCaller t pc).quits = s.quits ∧
      (s.setCaller t pc).callers = Function.update s.callers t pc := by
  simp [setCaller]

@[simp] theorem queueInLoopWakeup_frame (s : EventLoop T F) (t : T) :
    (s.queueInLoopWakeup t).pc = s.pc ∧ (s.queueInLoopWakeup t).quit = s.quit ∧
      (s.queueInLoopWakeup t).queue = s.queue ∧ (s.queueInLoopWakeup t).threadId = s.threadId ∧
      (s.queueInLoopWakeup t).callingPendingFunctors = s.callingPendingFunctors ∧
      (s.queueInLoopWakeup t).appended = s.appended ∧
      (s.queueInLoopWakeup t).executed = s.executed ∧ (s.queueInLoopWakeup t).quits = s.quits ∧
      (s.queueInLoopWakeup t).callers = Function.update s.callers t .idle := by
  unfold queueInLoopWakeup; split <;> simp

@[simp] theorem quitWakeup_frame (s : EventLoop T F) (t : T) :
    (s.quitWakeup t).pc = s.pc ∧ (s.quitWakeup t).quit = s.quit ∧
      (s.quitWakeup t).queue = s.queue ∧ (s.quitWakeup t).threadId = s.threadId ∧
      (s.quitWakeup t).callingPendingFunctors = s.callingPendingFunctors ∧
      (s.quitWakeup t).appended = s.appended ∧
      (s.quitWakeup t).executed = s.executed ∧ (s.quitWakeup t).quits = s.quits ∧
      (s.quitWakeup t).callers = Function.update s.callers t .idle := by
  unfold quitWakeup; split <;> simp

end EventLoop

/-- The machine, from a constructed loop. -/
def loopMachine (T F : Type) [DecidableEq T] : Machine (EventLoop T F) (LoopStep T F) where
  init s := ∃ threadId, s = .new threadId
  step := EventLoop.Step

end Reactor.Net
