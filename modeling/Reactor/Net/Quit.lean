import Reactor.Net.PendingFunctors

/-!
# Net — quitting

A thread that queues work and then calls `quit()` may lose the work: `_quit` is tested right
after the functors the last swap took, so a functor stored after that swap is dropped when the
loop finds `_quit` set.

* `QueuedWorkDone`: every functor a thread stored before it called `quit()` has been executed.
* `QuitInTime`: the condition on the state in which `_quit` is stored.
* `queuedWorkDone_iff`: when `loop()` has returned, the first holds if and only if every store of
  `_quit` met the second.
* `quit_drops_queued_work`: a run that drops a functor.
-/

namespace Reactor.Net
open Reactor.Lib

namespace EventLoop

variable {T F : Type}

/-- The loop thread tests `_quit` before it swaps again. -/
def PastSwap (s : EventLoop T F) : Prop :=
  s.pc = .test ∨ (∃ f, s.pc = .run f) ∨ s.pc = .returned

/-- Every functor that a thread of `quits` stored before its `quit()` is among the first `n`. -/
def Covers (appended : List (T × F)) (quits : List (T × Nat)) (n : Nat) : Prop :=
  ∀ p ∈ quits, ∀ i < p.2, ∀ f, appended[i]? = some (p.1, f) → i < n

/-- Every functor a thread passed to `queueInLoop` before it called `quit()` has been executed. -/
def QueuedWorkDone (s : EventLoop T F) : Prop :=
  Covers s.appended s.quits s.executed.length

/-- `_quit` is stored in time: the loop swaps once more before it tests the flag, or no functor
of the calling thread, nor of a thread that called `quit()` earlier, is left in
`_pendingFunctors`. -/
def QuitInTime (s : EventLoop T F) : LoopStep T F → Prop
  | .quit t => s.PastSwap → Covers s.appended (s.quits ++ [(t, s.appended.length)]) s.taken
  | _ => True

/-- The history is consistent: no quit counts functors not yet stored, and `loop()` returns only
with `_quit` set. -/
structure QuitHistory (s : EventLoop T F) : Prop where
  bound : ∀ p ∈ s.quits, p.2 ≤ s.appended.length
  returned : s.pc = .returned → s.quit = true

/-- The loop is about to find `_quit` set, and everything that was to be done before has been
taken. -/
def InTime (s : EventLoop T F) : Prop :=
  s.PastSwap → s.quit = true → Covers s.appended s.quits s.taken

/-- The loop is about to find `_quit` set, and drops a functor that was to be done before. -/
def TooLate (s : EventLoop T F) : Prop :=
  s.PastSwap ∧ s.quit = true ∧ ¬ Covers s.appended s.quits s.taken

/-- What is queued after every `quit` need not be done. -/
theorem Covers.append {appended : List (T × F)} {quits : List (T × Nat)} {n : Nat}
    (h : Covers appended quits n) (hb : ∀ p ∈ quits, p.2 ≤ appended.length) (a : T × F) :
    Covers (appended ++ [a]) quits n := by
  intro p hp i hi f hf
  rw [List.getElem?_append_left (Nat.lt_of_lt_of_le hi (hb p hp))] at hf
  exact h p hp i hi f hf

theorem Covers.of_append {appended : List (T × F)} {quits : List (T × Nat)} {n : Nat} {a : T × F}
    (h : Covers (appended ++ [a]) quits n) : Covers appended quits n := by
  intro p hp i hi f hf
  refine h p hp i hi f ?_
  rw [List.getElem?_append_left (List.getElem?_eq_some_iff.mp hf).1, hf]

theorem Covers.of_quits {appended : List (T × F)} {quits : List (T × Nat)} {n : Nat}
    {q : T × Nat} (h : Covers appended (quits ++ [q]) n) : Covers appended quits n :=
  fun p hp => h p (List.mem_append_left _ hp)

theorem Covers.all {appended : List (T × F)} {quits : List (T × Nat)}
    (hb : ∀ p ∈ quits, p.2 ≤ appended.length) : Covers appended quits appended.length :=
  fun p hp _ hi _ _ => Nat.lt_of_lt_of_le hi (hb p hp)

variable [DecidableEq T]

/-- No `quit` is stored before its work is queued. -/
theorem Step.quitHistory {s t : EventLoop T F} {l : LoopStep T F} (h : s.QuitHistory)
    (hs : Step s l t) : t.QuitHistory := by
  obtain ⟨hb, hr⟩ := h
  cases hs with
  | leave hpc hq => exact ⟨hb, fun _ => hq⟩
  | enter | startPoll | pollReturn | handleEvent | startPending | swap | call | finish
  | endPending => exact ⟨hb, by simp⟩
  | handleRead => exact ⟨hb, by simp⟩
  | queueInLoop th f | runInLoop th f =>
    refine ⟨fun p hp => ?_, by simpa [emplaceBack] using hr⟩
    have := hb p (by simpa [emplaceBack] using hp)
    simp [emplaceBack]; omega
  | runInLoopHere => exact ⟨hb, hr⟩
  | quit th =>
    refine ⟨fun p hp => ?_, fun _ => by simp [storeQuit]⟩
    simp only [storeQuit, setCaller_frame, List.mem_append, List.mem_singleton] at hp ⊢
    rcases hp with hp | rfl
    · exact hb p hp
    · exact Nat.le_refl _
  | queueInLoopWakeup th => exact ⟨by simpa using hb, by simpa using hr⟩
  | quitWakeup th => exact ⟨by simpa using hb, by simpa using hr⟩

/-- What a step with the flag set can do to the quits, in or into the last stretch of the loop:
the swap, an append, a store of the flag, or nothing that matters. -/
theorem Step.pastSwap_cases {s t : EventLoop T F} {l : LoopStep T F} (hs : Step s l t)
    (ht : t.PastSwap) (hq : t.quit = true) :
    (l = .swap ∧ t.quits = s.quits ∧ t.appended = s.appended) ∨
      (s.PastSwap ∧ s.quit = true ∧ t.taken = s.taken ∧ t.quits = s.quits ∧
        (t.appended = s.appended ∨ ∃ a, t.appended = s.appended ++ [a])) ∨
      (∃ th, l = .quit th ∧ s.PastSwap ∧ t.taken = s.taken ∧ t.appended = s.appended ∧
        t.quits = s.quits ++ [(th, s.appended.length)]) := by
  have htaken : l ≠ .swap → t.taken = s.taken := fun hl => by
    have := congrArg List.length (hs.executed_batch hl)
    simpa [taken] using this
  cases hs with
  | swap => exact .inl ⟨rfl, rfl, rfl⟩
  | enter => simp at hq
  | startPoll | pollReturn | handleRead | handleEvent | startPending => simp [PastSwap] at ht
  | leave hpc hq' => exact .inr (.inl ⟨.inl hpc, hq', htaken (by simp), rfl, .inl rfl⟩)
  | call hpc hn => exact .inr (.inl ⟨.inr (.inl ⟨_, hpc⟩), hq, htaken (by simp), rfl, .inl rfl⟩)
  | finish hpc | endPending hpc =>
    exact .inr (.inl ⟨.inr (.inl ⟨_, hpc⟩), hq, htaken (by simp), rfl, .inl rfl⟩)
  | queueInLoop th f | runInLoop th f =>
    exact .inr (.inl ⟨ht, hq, htaken (by simp), rfl, .inr ⟨(th, f), rfl⟩⟩)
  | runInLoopHere => exact .inr (.inl ⟨ht, hq, rfl, rfl, .inl rfl⟩)
  | quit th => exact .inr (.inr ⟨th, rfl, ht, htaken (by simp), rfl, rfl⟩)
  | queueInLoopWakeup th =>
    refine .inr (.inl ⟨by simpa [PastSwap] using ht, by simpa using hq, htaken (by simp), ?_⟩)
    simp
  | quitWakeup th =>
    refine .inr (.inl ⟨by simpa [PastSwap] using ht, by simpa using hq, htaken (by simp), ?_⟩)
    simp

/-- As long as no `quit` comes too late, the loop does not leave before its work. -/
theorem Step.inTime {s t : EventLoop T F} {l : LoopStep T F} (hb : s.BatchDone) (hf : s.Fifo)
    (hh : s.QuitHistory) (h : s.InTime) (hl : s.QuitInTime l) (hs : Step s l t) : t.InTime := by
  intro hpast hq
  rcases hs.pastSwap_cases hpast hq with ⟨rfl, hquits, happ⟩ | ⟨hpast', hq', htaken, hquits, happ⟩ |
      ⟨th, rfl, hpast', htaken, happ, hquits⟩
  · -- the swap takes whatever has been stored
    have htaken : t.taken = s.appended.length := by
      cases hs with
      | swap hpc => simp [length_appended hf, taken, hb (by simp [hpc])]
    rw [hquits, happ, htaken]
    exact Covers.all hh.bound
  · -- what is appended now is counted by no quit
    rw [htaken, hquits]
    rcases happ with happ | ⟨a, happ⟩
    · rw [happ]; exact h hpast' hq'
    · rw [happ]; exact (h hpast' hq').append hh.bound a
  · rw [htaken, hquits, happ]
    exact hl hpast'

/-- A `quit` that comes too late leaves work undone. -/
theorem Step.tooLate_of_break {s t : EventLoop T F} {l : LoopStep T F} (hl : ¬ s.QuitInTime l)
    (hs : Step s l t) : t.TooLate := by
  cases hs with
  | quit th =>
    obtain ⟨hpast, hc⟩ := Classical.not_imp.mp hl
    exact ⟨by simpa [PastSwap, storeQuit] using hpast, rfl, by simpa [storeQuit, taken] using hc⟩
  | _ => exact absurd trivial hl

/-- With `_quit` set, the loop thread does not get from the last stretch to another swap. -/
theorem Step.pastSwap {s t : EventLoop T F} {l : LoopStep T F} (h : s.PastSwap)
    (hq : s.quit = true) (hs : Step s l t) : t.PastSwap ∧ t.quit = true ∧ l ≠ .swap := by
  cases hs with
  | enter hpc | pollReturn _ hpc | handleRead hpc | handleEvent hpc | startPending hpc | swap hpc =>
    simp [PastSwap, hpc] at h
  | startPoll _ hq' => rw [hq] at hq'; cases hq'
  | leave => exact ⟨.inr (.inr rfl), hq, by simp⟩
  | call | finish => exact ⟨.inr (.inl ⟨_, rfl⟩), hq, by simp⟩
  | endPending => exact ⟨.inl rfl, hq, by simp⟩
  | queueInLoop | runInLoop => exact ⟨h, hq, by simp⟩
  | runInLoopHere => exact ⟨h, hq, by simp⟩
  | quit => exact ⟨h, rfl, by simp⟩
  | queueInLoopWakeup | quitWakeup =>
    exact ⟨by simpa [PastSwap] using h, by simpa using hq, by simp⟩

/-- Work that is left undone stays so. -/
theorem Step.tooLate {s t : EventLoop T F} {l : LoopStep T F} (h : s.TooLate)
    (hs : Step s l t) : t.TooLate := by
  obtain ⟨hpast, hq, hc⟩ := h
  obtain ⟨hpast', hq', hl⟩ := hs.pastSwap hpast hq
  refine ⟨hpast', hq', fun hcov => hc ?_⟩
  rcases hs.pastSwap_cases hpast' hq' with ⟨hl', -⟩ | ⟨-, -, htaken, hquits, happ⟩ |
      ⟨th, -, -, htaken, happ, hquits⟩
  · exact absurd hl' hl
  · rw [htaken, hquits] at hcov
    rcases happ with happ | ⟨a, happ⟩
    · rwa [happ] at hcov
    · rw [happ] at hcov; exact hcov.of_append
  · rw [htaken, hquits, happ] at hcov
    exact hcov.of_quits

/-- What holds of every state of a run, whenever the quits fall. -/
structure Ordered (s : EventLoop T F) : Prop where
  batchDone : s.BatchDone
  fifo : s.Fifo
  history : s.QuitHistory

omit [DecidableEq T] in
theorem Ordered.new (threadId : T) : (EventLoop.new threadId : EventLoop T F).Ordered :=
  ⟨fun _ => rfl, rfl, by simp [EventLoop.new], by simp [EventLoop.new]⟩

/-- What is run keeps its order in every case. -/
theorem Step.ordered {s t : EventLoop T F} {l : LoopStep T F} (h : s.Ordered) (hs : Step s l t) :
    t.Ordered :=
  ⟨hs.batchDone h.batchDone, hs.fifo h.batchDone h.fifo, hs.quitHistory h.history⟩

omit [DecidableEq T] in
/-- Once `loop()` has returned, the functors taken are those executed. -/
theorem Ordered.taken_returned {s : EventLoop T F} (h : s.Ordered) (hpc : s.pc = .returned) :
    s.taken = s.executed.length := by
  simp [taken, h.batchDone (by simp [hpc])]

end EventLoop

/-- **Queued work is done before `loop()` returns exactly when every quit is in time.**  In a run
after which `loop()` has returned, every functor a thread queued before its `quit()` has been
executed if and only if each store of `_quit` met `QuitInTime`. -/
theorem queuedWorkDone_iff {T F : Type} [DecidableEq T] {s t : EventLoop T F}
    {tr : List (EventLoop T F × LoopStep T F)} (hs : (loopMachine T F).init s)
    (hr : (loopMachine T F).Run s tr t) (hpc : t.pc = .returned) :
    t.QueuedWorkDone ↔ Meets EventLoop.QuitInTime tr := by
  obtain ⟨th, rfl⟩ := hs
  have hord : t.Ordered := hr.keeps (I := EventLoop.Ordered) (C := fun _ _ => True)
    (fun h _ hst => EventLoop.Step.ordered h hst) (fun _ _ => trivial) (.new th)
  rw [EventLoop.QueuedWorkDone, ← hord.taken_returned hpc]
  constructor
  · intro hdone
    by_contra hm
    have hlate : t.TooLate := hr.breaks (I := fun _ => True) (D := EventLoop.TooLate)
      (fun _ _ => trivial) (fun _ hl hst => EventLoop.Step.tooLate_of_break hl hst)
      (fun _ h hst => EventLoop.Step.tooLate h hst) trivial hm
    exact hlate.2.2 hdone
  · intro hm
    have hstep : ∀ {u : EventLoop T F} {l v}, u.Ordered ∧ u.InTime → u.QuitInTime l →
        EventLoop.Step u l v → v.Ordered ∧ v.InTime := fun ⟨ho, hi⟩ hl hst =>
      ⟨hst.ordered ho, hst.inTime ho.batchDone ho.fifo ho.history hi hl⟩
    have hstart : (EventLoop.new th : EventLoop T F).InTime := fun h => by
      simp [EventLoop.PastSwap, EventLoop.new] at h
    have hend := hr.keeps (I := fun u => u.Ordered ∧ u.InTime) hstep hm ⟨.new th, hstart⟩
    exact hend.2 (.inr (.inr hpc)) (hord.history.returned hpc)

/-- The iff at a run that quits in time: functor 7 is stored, and `quit()` called, while the loop
thread polls. -/
theorem queuedWorkDone_iff_during_poll : ∃ tr t, (loopMachine Bool Nat).Run (.new false) tr t ∧
    t.executed = [7] ∧ (t.QueuedWorkDone ↔ Meets EventLoop.QuitInTime tr) := by
  have hr := Machine.Run.nil (M := loopMachine Bool Nat) (s := .new false)
    |>.snoc (.enter rfl rfl)
    |>.snoc (.startPoll rfl rfl)
    |>.snoc (.queueInLoop true 7 (.of_ne rfl (by decide)))
    |>.snoc (.queueInLoopWakeup true rfl)
    |>.snoc (.quit true (.of_ne rfl (by decide)))
    |>.snoc (.quitWakeup true rfl)
    |>.snoc (.pollReturn [.wakeup] rfl (by decide))
    |>.snoc (.handleRead rfl)
    |>.snoc (.startPending rfl)
    |>.snoc (.swap rfl)
    |>.snoc (.call rfl rfl)
    |>.snoc (.finish rfl rfl)
    |>.snoc (.endPending rfl rfl)
    |>.snoc (.leave rfl rfl)
  exact ⟨_, _, hr, rfl, queuedWorkDone_iff ⟨false, rfl⟩ hr rfl⟩

/-- A run that drops a functor: while the loop thread is between the swap and the test of `_quit`,
another thread queues functor 7 and quits, as the destructors of `TcpServer` and
`EventLoopThread` do to an io loop. -/
theorem quit_drops_queued_work : ¬ ∀ (s t : EventLoop Bool Nat) tr, (loopMachine Bool Nat).init s →
    (loopMachine Bool Nat).Run s tr t → t.pc = .returned → t.QueuedWorkDone := by
  intro hworkDone
  have hr := Machine.Run.nil (M := loopMachine Bool Nat) (s := .new false)
    |>.snoc (.enter rfl rfl)
    |>.snoc (.startPoll rfl rfl)
    |>.snoc (.pollReturn [] rfl (by simp))
    |>.snoc (.startPending rfl)
    |>.snoc (.swap rfl)
    |>.snoc (.queueInLoop true 7 (.of_ne rfl (by decide)))
    |>.snoc (.queueInLoopWakeup true rfl)
    |>.snoc (.quit true (.of_ne rfl (by decide)))
    |>.snoc (.quitWakeup true rfl)
    |>.snoc (.endPending rfl rfl)
    |>.snoc (.leave rfl rfl)
  have hdone := hworkDone _ _ _ ⟨false, rfl⟩ hr rfl
  exact absurd (hdone (true, 1) (by decide) 0 (by decide) 7 rfl) (by decide)

end Reactor.Net
