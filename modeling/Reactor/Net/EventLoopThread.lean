import Reactor.Net.Wakeup

/-!
# Net — EventLoopThread

`EventLoopThread` as a machine of two threads over the machine of its loop: the new thread in
`threadFunc`, which makes the loop, publishes its address, runs it and takes the address back, and
the thread that calls `startLoop`, uses the loop and destroys the object.  The accesses of `_loop`
under the mutex are one step each; the destructor reads `_loop` without it.

* `QuitKept`: a stored quit stays visible in `_quit`.
* `quit_not_lost`: it does in every run in which no quit is stored before `loop()` has cleared the
  flag.
* `early_quit_is_lost`: a run in which one is, and the loop polls on.
-/

namespace Reactor.Net
open Reactor.Lib

/-- Where the new thread is in `threadFunc`. -/
inductive FuncPc where
  | notStarted
  /-- At `EventLoop loop;`. -/
  | construct
  /-- The loop is constructed; in `_callback(&loop)`, if there is one. -/
  | callback
  /-- `_loop` is set; in `loop.loop()`. -/
  | looping
  /-- `_loop` is null again, and the loop destroyed. -/
  | finished
  deriving DecidableEq, Repr

/-- Where the other thread is: in `startLoop`, using the loop, or in the destructor. -/
inductive OwnerPc where
  | new
  /-- In `startLoop`, at `while (_loop == nullptr)`. -/
  | startLoop
  /-- In `startLoop`, in `_cond.wait(lock)`. -/
  | waiting
  /-- `startLoop` has returned the loop. -/
  | started
  /-- In the destructor, which has found `_loop` set. -/
  | destructor
  /-- In the destructor, past the store of `_quit`; at `_thread.join()` once `quit()` is done. -/
  | join
  | destroyed
  deriving DecidableEq, Repr

/-- `EventLoopThread` with its loop: the place of the thread that owns it, and that of the thread it
has started. -/
structure EventLoopThread (T F : Type) where
  /-- The thread that owns the object. -/
  owner : T
  ownerPc : OwnerPc
  funcPc : FuncPc
  /-- `_loop` is not null. -/
  loopSet : Bool
  /-- The variable `loop` of `threadFunc`. -/
  loop : EventLoop T F

/-- The steps: those of the two threads, and those of the loop. -/
inductive EventLoopThreadStep (T F : Type) where
  | start
  | construct
  | publish
  | clear
  | wait
  | wake
  | startLoopReturn
  | destroy
  | destroyQuit
  | join
  | loop (l : LoopStep T F)
  deriving DecidableEq

namespace EventLoopThread

variable {T F : Type}

/-- The loop object exists. -/
def Alive (s : EventLoopThread T F) : Prop := s.funcPc = .callback ∨ s.funcPc = .looping

/-- The part of the object that a step of the loop waits for: `loop()` is entered by `threadFunc`,
and the owner calls the loop between `startLoop` and the destructor. -/
def Allows (s : EventLoopThread T F) : LoopStep T F → Prop
  | .enter => s.funcPc = .looping
  | .quit t | .queueInLoop t _ | .runInLoop t _ => t = s.owner → s.ownerPc = .started
  | _ => True

variable [DecidableEq T]

/-- The constructor, in thread `owner`; `thread` is the thread to be started. -/
def new (owner thread : T) : EventLoopThread T F where
  owner := owner
  ownerPc := .new
  funcPc := .notStarted
  loopSet := false
  loop := .new thread

/-- The steps of the two threads, and those of the loop while it exists. -/
inductive Step : EventLoopThread T F → EventLoopThreadStep T F → EventLoopThread T F → Prop where
  /-- `_thread.start()` -/
  | start {s} (ho : s.ownerPc = .new) :
      Step s .start { s with ownerPc := .startLoop, funcPc := .construct }
  | construct {s} (hf : s.funcPc = .construct) : Step s .construct { s with funcPc := .callback }
  /-- `_loop = &loop; _cond.notify_one();` -/
  | publish {s} (hf : s.funcPc = .callback) (hidle : s.loop.callers s.loop.threadId = .idle) :
      Step s .publish { s with funcPc := .looping, loopSet := true }
  /-- `_loop = nullptr;` -/
  | clear {s} (hf : s.funcPc = .looping) (hpc : s.loop.pc = .returned) :
      Step s .clear { s with funcPc := .finished, loopSet := false }
  | wait {s} (ho : s.ownerPc = .startLoop) (hl : s.loopSet = false) :
      Step s .wait { s with ownerPc := .waiting }
  /-- Notified, or spuriously. -/
  | wake {s} (ho : s.ownerPc = .waiting) : Step s .wake { s with ownerPc := .startLoop }
  | startLoopReturn {s} (ho : s.ownerPc = .startLoop) (hl : s.loopSet = true) :
      Step s .startLoopReturn { s with ownerPc := .started }
  /-- The destructor, up to the test of `_loop`. -/
  | destroy {s} (ho : s.ownerPc = .started) (hidle : s.loop.callers s.owner = .idle) :
      Step s .destroy { s with ownerPc := if s.loopSet then .destructor else .destroyed }
  /-- The store of the destructor's `_loop->quit()`; the loop must not have gone meanwhile. -/
  | destroyQuit {s u} (ho : s.ownerPc = .destructor) (ha : s.Alive)
      (hs : EventLoop.Step s.loop (.quit s.owner) u) :
      Step s .destroyQuit { s with loop := u, ownerPc := .join }
  | join {s} (ho : s.ownerPc = .join) (hidle : s.loop.callers s.owner = .idle)
      (hf : s.funcPc = .finished) : Step s .join { s with ownerPc := .destroyed }
  | loop {s l u} (ha : s.Alive) (hl : s.Allows l) (hs : EventLoop.Step s.loop l u) :
      Step s (.loop l) { s with loop := u }

end EventLoopThread

/-- The machine, from a constructed object. -/
def eventLoopThreadMachine (T F : Type) [DecidableEq T] :
    Machine (EventLoopThread T F) (EventLoopThreadStep T F) where
  init s := ∃ owner thread, owner ≠ thread ∧ s = .new owner thread
  step := EventLoopThread.Step

/-! ### Stored quits -/

namespace EventLoop

variable {T F : Type}

/-- No quit has been stored before `loop()` has cleared `_quit`, and every one stored since is
visible. -/
structure QuitKept (s : EventLoop T F) : Prop where
  outside : s.pc = .outside → s.quits = []
  visible : s.quits ≠ [] → s.quit = true

variable [DecidableEq T]

/-- What a step does to the quits: it clears the flag in entering `loop()`, stores a quit, or
leaves both alone. -/
theorem Step.quit_cases {s t : EventLoop T F} {l : LoopStep T F} (hs : Step s l t) :
    (s.pc = .outside ∧ t.pc ≠ .outside ∧ t.quits = s.quits) ∨
      (∃ th, l = .quit th ∧ t.pc = s.pc ∧ t.quit = true) ∨
      ((t.pc = .outside → s.pc = .outside) ∧ t.quits = s.quits ∧ t.quit = s.quit) := by
  have hout : t.pc = .outside → s.pc = .outside := fun ht => by
    by_contra h
    exact hs.pc_ne_outside h ht
  cases hs with
  | enter hpc => exact .inl ⟨hpc, by simp, rfl⟩
  | quit th => exact .inr (.inl ⟨th, rfl, rfl, rfl⟩)
  | queueInLoopWakeup | quitWakeup => exact .inr (.inr ⟨hout, by simp, by simp⟩)
  | _ => exact .inr (.inr ⟨hout, rfl, rfl⟩)

/-- In the loop: a `quit` that comes when it has been entered is kept. -/
theorem Step.quitKept {s t : EventLoop T F} {l : LoopStep T F} (h : s.QuitKept)
    (hl : ∀ th, l = .quit th → s.pc ≠ .outside) (hs : Step s l t) : t.QuitKept := by
  rcases hs.quit_cases with ⟨hpc, hpc', hq⟩ | ⟨th, rfl, hpc, hq⟩ | ⟨hpc, hq, hq'⟩
  · exact ⟨fun ht => absurd ht hpc', fun hne => absurd (hq.trans (h.outside hpc)) hne⟩
  · exact ⟨fun ht => absurd (hpc.symm.trans ht) (hl th rfl), fun _ => hq⟩
  · exact ⟨fun ht => hq.trans (h.outside (hpc ht)), fun hne => hq'.trans (h.visible (hq ▸ hne))⟩

end EventLoop

namespace EventLoopThread

variable {T F : Type}

/-- `_quit` is stored only once `loop()` has cleared it. -/
def QuitWhileLooping (s : EventLoopThread T F) : EventLoopThreadStep T F → Prop
  | .destroyQuit | .loop (.quit _) => s.loop.pc ≠ .outside
  | _ => True

variable [DecidableEq T]

/-- A `quit` that comes while the thread is in the loop is kept. -/
theorem Step.quitKept {s t : EventLoopThread T F} {l : EventLoopThreadStep T F}
    (h : s.loop.QuitKept) (hl : s.QuitWhileLooping l) (hs : Step s l t) : t.loop.QuitKept := by
  cases hs with
  | destroyQuit ho ha hs => exact hs.quitKept h fun _ _ => hl
  | loop ha hal hs =>
    refine hs.quitKept h ?_
    rintro th rfl
    exact hl
  | _ => exact h

end EventLoopThread

/-- **A quit stored once `loop()` has cleared the flag is never lost.**  In every run of the two
threads in which each store of `_quit` falls after `loop()` has stored `_quit = false`, the loop
thread starts no poll in any state after a store of `_quit`. -/
theorem quit_not_lost {T F : Type} [DecidableEq T] {s t u : EventLoopThread T F}
    {tr : List (EventLoopThread T F × EventLoopThreadStep T F)}
    (hs : (eventLoopThreadMachine T F).init s) (hr : (eventLoopThreadMachine T F).Run s tr t)
    (hm : Meets EventLoopThread.QuitWhileLooping tr) (hq : t.loop.quits ≠ []) :
    ¬ (eventLoopThreadMachine T F).step t (.loop .startPoll) u := by
  obtain ⟨owner, thread, -, rfl⟩ := hs
  have hkept : t.loop.QuitKept := hr.keeps (I := fun s => s.loop.QuitKept)
    (fun h hl hst => EventLoopThread.Step.quitKept h hl hst) hm
    ⟨fun _ => rfl, fun h => absurd rfl h⟩
  intro hst
  cases hst with
  | loop ha hal hst =>
    cases hst with
    | startPoll hpc hquit =>
      rw [hkept.visible hq] at hquit
      cases hquit

/-- The theorem at a destructor that quits the loop when it is about to poll. -/
theorem quit_not_lost_before_poll : ∃ tr t,
    (eventLoopThreadMachine Bool Nat).Run (.new false true) tr t ∧ t.loop.pc = .test ∧
      ∀ u, ¬ (eventLoopThreadMachine Bool Nat).step t (.loop .startPoll) u := by
  have hr := Machine.Run.nil (M := eventLoopThreadMachine Bool Nat) (s := .new false true)
    |>.snoc (.start rfl)
    |>.snoc (.construct rfl)
    |>.snoc (.publish rfl rfl)
    |>.snoc (.startLoopReturn rfl rfl)
    |>.snoc (.loop (l := LoopStep.enter) (.inr rfl) rfl (.enter rfl rfl))
    |>.snoc (.destroy rfl rfl)
    |>.snoc (.destroyQuit rfl (.inr rfl) (.quit false (.of_ne rfl (by decide))))
  refine ⟨_, _, hr, rfl, fun _ => quit_not_lost ⟨false, true, by decide, rfl⟩ hr ?_
    (List.cons_ne_nil (false, 0) [])⟩
  simp only [meets_snoc, meets_nil, EventLoopThread.QuitWhileLooping, true_and]
  decide

/-- A quit is lost: the destructor stores `_quit` between the publication of the loop and the first
statements of `loop()`, which clear it, and the loop goes on to poll. -/
theorem early_quit_is_lost : ¬ ∀ (s t u : EventLoopThread Bool Nat) tr,
    (eventLoopThreadMachine Bool Nat).init s → (eventLoopThreadMachine Bool Nat).Run s tr t →
      t.loop.quits ≠ [] → ¬ (eventLoopThreadMachine Bool Nat).step t (.loop .startPoll) u := by
  intro hempty
  have hr := Machine.Run.nil (M := eventLoopThreadMachine Bool Nat) (s := .new false true)
    |>.snoc (.start rfl)
    |>.snoc (.construct rfl)
    |>.snoc (.publish rfl rfl)
    |>.snoc (.startLoopReturn rfl rfl)
    |>.snoc (.destroy rfl rfl)
    |>.snoc (.destroyQuit rfl (.inr rfl) (.quit false (.of_ne rfl (by decide))))
    |>.snoc (.loop (l := LoopStep.quitWakeup false) (.inr rfl) trivial (.quitWakeup false rfl))
    |>.snoc (.loop (l := LoopStep.enter) (.inr rfl) rfl (.enter rfl rfl))
  exact hempty _ _ _ _ ⟨false, true, by decide, rfl⟩ hr (List.cons_ne_nil (false, 0) [])
    (.loop (l := LoopStep.startPoll) (.inr rfl) trivial (.startPoll rfl rfl))

end Reactor.Net
