import Mathlib.Logic.Function.Basic
import Reactor.Lib.Runs

/-!
# Base — ThreadPool

`ThreadPool` as a machine, from the end of `start()`: its `n` workers in `runInThread`, any number
of threads calling `add`, and one call of `stop`, over the mutex and the condition variable.  A
critical section of `add` is one step; a worker's is one step for each statement, and `stop` keeps
the mutex while it joins.

The exit of `runInThread` through `catch(...)`, for a `_threadInitCallback` that throws, is left
out.

In `runInThread` the call `task()` stands after the `while (true)` loop.  `afterLoop` is the place
of that call; no statement of the loop leads there.

`added`, `popped`, `ran` and `ranByAdd` are history: the tasks passed to `add`, those each worker
took out of `_queue` and those it called, and those `add` called itself.
-/

namespace Reactor.Base
open Reactor.Lib

/-- Where a worker is in `runInThread`. -/
inductive WorkerPc where
  /-- At `_threadInitCallback`. -/
  | init
  /-- At the head of `while (true)`, about to lock `_mutex`. -/
  | lock
  /-- At `while (_queue.empty())`, holding `_mutex`. -/
  | test
  /-- In `_cond.wait(lock)`. -/
  | waiting
  /-- In `_cond.wait(lock)`, woken, about to lock `_mutex` again. -/
  | woken
  /-- Past `_queue.pop_front()`, holding `_mutex`. -/
  | popped
  /-- At `if (task)`. -/
  | afterLoop
  | finished
  deriving DecidableEq, Repr

/-- Where the caller of `stop` is. -/
inductive StopPc where
  | notCalled
  /-- Holding `_mutex`, before `_running = false`. -/
  | locked
  /-- At the join of thread `i`. -/
  | joining (i : Nat)
  | returned
  deriving DecidableEq, Repr

/-- Who holds `_mutex`. -/
inductive Holder (n : Nat) where
  | worker (w : Fin n)
  | stop
  deriving DecidableEq, Repr

/-- `n` is the number of `_threads`. -/
structure ThreadPool (n : Nat) (F : Type) where
  /-- The holder of `_mutex`, if it is locked. -/
  mutex : Option (Holder n)
  /-- `_running` -/
  running : Bool
  /-- `_queue` -/
  queue : List F
  pc : Fin n → WorkerPc
  /-- The variable `task` of each worker. -/
  task : Fin n → Option F
  stop : StopPc
  added : List F
  popped : Fin n → List F
  ran : Fin n → List F
  ranByAdd : List F

/-- The steps of the workers, of the callers of `add` and of the caller of `stop`. -/
inductive PoolStep (n : Nat) (F : Type) where
  | init (w : Fin n)
  | lock (w : Fin n)
  | wait (w : Fin n)
  | spurious (w : Fin n)
  | relock (w : Fin n)
  | pop (w : Fin n)
  | unlock (w : Fin n)
  | finish (w : Fin n)
  | call (w : Fin n)
  | skip (w : Fin n)
  | add (f : F) (notified : Option (Fin n))
  | addDirectly (f : F)
  | stopLock
  | stopNotify
  | stopJoin
  | stopReturn
  deriving DecidableEq

namespace ThreadPool

variable {n : Nat} {F : Type}

/-- The pool when `start()` has returned. -/
def started (n : Nat) (F : Type) : ThreadPool n F where
  mutex := none
  running := true
  queue := []
  pc := fun _ => .init
  task := fun _ => none
  stop := .notCalled
  added := []
  popped := fun _ => []
  ran := fun _ => []
  ranByAdd := []

/-- A worker gets to another place. -/
def setPc (s : ThreadPool n F) (w : Fin n) (pc : WorkerPc) : ThreadPool n F :=
  { s with pc := Function.update s.pc w pc }

/-- The assignment to the variable `task` of a worker. -/
def setTask (s : ThreadPool n F) (w : Fin n) (task : Option F) : ThreadPool n F :=
  { s with task := Function.update s.task w task }

/-- `task = _queue.front(); _queue.pop_front();` -/
def pop (s : ThreadPool n F) (w : Fin n) (f : F) (rest : List F) : ThreadPool n F :=
  { s with
    queue := rest
    popped := Function.update s.popped w (s.popped w ++ [f]) }.setTask w (some f)

/-- `_queue.push_back(f)` -/
def pushBack (s : ThreadPool n F) (f : F) : ThreadPool n F :=
  { s with queue := s.queue ++ [f], added := s.added ++ [f] }

/-- `_cond.notify_one()`, when it wakes `notified`. -/
def notifyOne (s : ThreadPool n F) : Option (Fin n) → ThreadPool n F
  | none => s
  | some w => s.setPc w .woken

/-- `_cond.notify_all()` -/
def notifyAll (s : ThreadPool n F) : ThreadPool n F :=
  { s with pc := fun w => if s.pc w = .waiting then .woken else s.pc w }

/-- What `notify_one` can wake: a waiting worker, or nobody when none waits. -/
def CanNotify (s : ThreadPool n F) : Option (Fin n) → Prop
  | none => ∀ w, s.pc w ≠ .waiting
  | some w => s.pc w = .waiting

/-- Whom `notify_one` can wake can be computed. -/
instance (s : ThreadPool n F) : (notified : Option (Fin n)) → Decidable (s.CanNotify notified)
  | none => inferInstanceAs (Decidable (∀ w, s.pc w ≠ .waiting))
  | some w => inferInstanceAs (Decidable (s.pc w = .waiting))

/-- The end of `runInThread`, where `task` is destroyed. -/
def finish (s : ThreadPool n F) (w : Fin n) : ThreadPool n F :=
  (s.setPc w .finished).setTask w none

/-- The steps, each at its place and under its guard; `_mutex` and `_cond` are those of the standard
library, with spurious wakeups. -/
inductive Step : ThreadPool n F → PoolStep n F → ThreadPool n F → Prop where
  | init {s} (w : Fin n) (hpc : s.pc w = .init) : Step s (.init w) (s.setPc w .lock)
  | lock {s} (w : Fin n) (hpc : s.pc w = .lock) (hm : s.mutex = none) :
      Step s (.lock w) { s.setPc w .test with mutex := some (.worker w) }
  | wait {s} (w : Fin n) (hpc : s.pc w = .test) (hq : s.queue = []) (hr : s.running = true) :
      Step s (.wait w) { s.setPc w .waiting with mutex := none }
  | spurious {s} (w : Fin n) (hpc : s.pc w = .waiting) : Step s (.spurious w) (s.setPc w .woken)
  | relock {s} (w : Fin n) (hpc : s.pc w = .woken) (hm : s.mutex = none) :
      Step s (.relock w) { s.setPc w .test with mutex := some (.worker w) }
  | pop {s} (w : Fin n) (f : F) (rest : List F) (hpc : s.pc w = .test)
      (hq : s.queue = f :: rest) : Step s (.pop w) ((s.pop w f rest).setPc w .popped)
  | unlock {s} (w : Fin n) (hpc : s.pc w = .popped) :
      Step s (.unlock w) { s.setPc w .lock with mutex := none }
  /-- `return` -/
  | finish {s} (w : Fin n) (hpc : s.pc w = .test) (hq : s.queue = []) (hr : s.running = false) :
      Step s (.finish w) { s.finish w with mutex := none }
  /-- `task()` -/
  | call {s} (w : Fin n) (f : F) (hpc : s.pc w = .afterLoop) (ht : s.task w = some f) :
      Step s (.call w) ({ s with ran := Function.update s.ran w (s.ran w ++ [f]) }.finish w)
  | skip {s} (w : Fin n) (hpc : s.pc w = .afterLoop) (ht : s.task w = none) :
      Step s (.skip w) (s.finish w)
  | add {s} (f : F) (notified : Option (Fin n)) (hn : 0 < n) (hm : s.mutex = none)
      (hw : s.CanNotify notified) :
      Step s (.add f notified) ((s.pushBack f).notifyOne notified)
  /-- `add` when `_threads` is empty. -/
  | addDirectly {s} (f : F) (hn : n = 0) :
      Step s (.addDirectly f) { s with added := s.added ++ [f], ranByAdd := s.ranByAdd ++ [f] }
  | stopLock {s} (hs : s.stop = .notCalled) (hm : s.mutex = none) :
      Step s .stopLock { s with mutex := some .stop, stop := .locked }
  | stopNotify {s} (hs : s.stop = .locked) :
      Step s .stopNotify { s.notifyAll with running := false, stop := .joining 0 }
  | stopJoin {s} (w : Fin n) (hs : s.stop = .joining w) (hpc : s.pc w = .finished) :
      Step s .stopJoin { s with stop := .joining (w + 1) }
  | stopReturn {s} (hs : s.stop = .joining n) :
      Step s .stopReturn { s with mutex := none, stop := .returned }

end ThreadPool

/-- A pool of `n` threads, from the return of `start()`. -/
def poolMachine (n : Nat) (F : Type) : Machine (ThreadPool n F) (PoolStep n F) where
  init s := s = .started n F
  step := ThreadPool.Step

end Reactor.Base
