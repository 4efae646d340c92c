import Reactor.Net.PendingFunctors

/-!
# Net — wakeups

No functor waits for a poll that nothing ends.  The wakeup is skipped only by the loop thread
itself outside `doPendingFunctors`, that is while it dispatches, and then the swap is still to
come in the same iteration.

* `Discipline`: the flag `_callingPendingFunctors` says where the loop thread is, and the loop
  thread is inside a call only in client code.
* `Signalled`: the eventfd is readable, or a thread that has stored its functor has still to
  write it.
* `Step.woken`: whatever is pending between a swap and the next poll's end is signalled.
-/

namespace Reactor.Net
open Reactor.Lib

namespace EventLoop

variable {T F : Type} [DecidableEq T]

/-- `_callingPendingFunctors` is set in `doPendingFunctors`, and the loop thread is inside
`queueInLoop` or `quit` only in client code. -/
structure Discipline (s : EventLoop T F) : Prop where
  calling : s.callingPendingFunctors = true ↔ s.pc = .swap ∨ ∃ f, s.pc = .run f
  client : s.callers s.threadId ≠ .idle → s.InClientCode

omit [DecidableEq T] in
theorem inClientCode_congr {s t : EventLoop T F} (h : t.pc = s.pc) :
    t.InClientCode ↔ s.InClientCode := by
  simp only [InClientCode, h]

omit [DecidableEq T] in
/-- Outside client code the loop thread is in no call. -/
theorem Discipline.idle {s : EventLoop T F} (h : s.Discipline) (hc : ¬ s.InClientCode) :
    s.callers s.threadId = .idle := by
  by_contra hne
  exact hc (h.client hne)

/-- A call step of thread `th` leaves the loop thread inside a call only in client code. -/
theorem Discipline.update {s t : EventLoop T F} (h : s.Discipline) {th : T} {pc : CallPc}
    (hpc : t.pc = s.pc) (hcall : t.callingPendingFunctors = s.callingPendingFunctors)
    (hid : t.threadId = s.threadId) (hupd : t.callers = Function.update s.callers th pc)
    (hth : th = s.threadId → pc ≠ .idle → s.InClientCode) : t.Discipline where
  calling := by rw [hcall, hpc, h.calling]
  client := by
    rw [inClientCode_congr hpc, hupd, hid]
    by_cases hth' : th = s.threadId
    · subst hth'
      rw [Function.update_self]
      exact hth rfl
    · rw [Function.update_of_ne (Ne.symm hth')]
      exact h.client

/-- Every step keeps the threads to their places. -/
theorem Step.discipline {s t : EventLoop T F} {l : LoopStep T F} (h : s.Discipline)
    (hs : Step s l t) : t.Discipline := by
  have hmoved : ∀ {u : EventLoop T F}, (u.callers u.threadId = .idle) →
      u.callers u.threadId ≠ .idle → u.InClientCode := fun hi hne => absurd hi hne
  -- where the loop thread moves on, it is in no call
  cases hs with
  | enter hpc hidle | handleEvent hpc hidle =>
    exact ⟨by have := h.calling; simp_all, hmoved hidle⟩
  | leave hpc | startPoll hpc | pollReturn _ hpc | endPending hpc =>
    exact ⟨by have := h.calling; simp_all, hmoved (h.idle (by simp [InClientCode, hpc]))⟩
  | handleRead hpc =>
    exact ⟨by have := h.calling; simp_all [EventLoop.handleRead],
      hmoved (h.idle (by simp [InClientCode, hpc]))⟩
  | startPending hpc => exact ⟨by simp, hmoved (h.idle (by simp [InClientCode, hpc]))⟩
  | swap hpc | call hpc =>
    have hcalling := h.calling
    exact ⟨by simp_all, hmoved (h.idle (by simp [InClientCode, hpc]))⟩
  | finish hpc hidle => exact ⟨by have := h.calling; simp_all, hmoved hidle⟩
  | queueInLoop th f hc | runInLoop th f hc =>
    exact h.update rfl rfl rfl rfl fun hth _ => hc.2 hth
  | quit th hc => exact h.update rfl rfl rfl rfl fun hth _ => hc.2 hth
  | runInLoopHere => exact h
  | queueInLoopWakeup th =>
    obtain ⟨hpc, -, -, hid, hcall, -, -, -, hupd⟩ := queueInLoopWakeup_frame s th
    exact h.update hpc hcall hid hupd fun _ hne => absurd rfl hne
  | quitWakeup th =>
    obtain ⟨hpc, -, -, hid, hcall, -, -, -, hupd⟩ := quitWakeup_frame s th
    exact h.update hpc hcall hid hupd fun _ hne => absurd rfl hne

/-- So they are in every state. -/
theorem reachable_discipline {s : EventLoop T F} (h : (loopMachine T F).Reachable s) :
    s.Discipline := by
  refine h.keeps (I := Discipline) ?_ fun hd hs => Step.discipline hd hs
  rintro s ⟨th, rfl⟩
  exact ⟨by simp [new], fun hne => absurd rfl hne⟩

/-- The eventfd is readable, or some thread has stored its functor and not yet come to its
`wakeup()`. -/
def Signalled (s : EventLoop T F) : Prop :=
  0 < s.wakeupFd ∨ ∃ th, s.callers th = .appended

/-- From the swap to the end of the next poll, what is pending is signalled. -/
def Woken (s : EventLoop T F) : Prop :=
  (s.pc = .test ∨ s.pc = .poll ∨ ∃ f, s.pc = .run f) → s.queue.pending ≠ [] → s.Signalled

/-- `queueInLoop` signals the loop where that could sleep. -/
theorem signalled_queueInLoopWakeup {s : EventLoop T F} {th : T}
    (hw : s.isInLoopThread th = false ∨ s.callingPendingFunctors = true) :
    (s.queueInLoopWakeup th).Signalled := by
  left
  have hguard : (!s.isInLoopThread th || s.callingPendingFunctors) = true := by
    rcases hw with hw | hw <;> simp [hw]
  simpa [queueInLoopWakeup, hguard] using s.wakeup_pos

theorem signalled_quitWakeup {s : EventLoop T F} (h : s.Signalled) {th : T}
    (hc : s.callers th = .quitStored) : (s.quitWakeup th).Signalled := by
  by_cases hw : s.isInLoopThread th
  · rcases h with h | ⟨th', h⟩
    · left; simpa [quitWakeup, hw] using h
    · -- the other thread's call is not the one that ends
      right
      refine ⟨th', ?_⟩
      have hne : th' ≠ th := by rintro rfl; rw [h] at hc; cases hc
      simpa [hne] using h
  · left; simpa [quitWakeup, hw] using s.wakeup_pos

/-- Nothing leads back to before `loop()`. -/
theorem Step.pc_ne_outside {s t : EventLoop T F} {l : LoopStep T F} (hs : Step s l t)
    (h : s.pc ≠ .outside) : t.pc ≠ .outside := by
  cases hs <;> simp_all [emplaceBack, storeQuit]

/-- No step leaves work behind in a loop that sleeps. -/
theorem Step.woken {s t : EventLoop T F} {l : LoopStep T F} (hd : s.Discipline)
    (hb : s.BatchDone) (ho : s.pc ≠ .outside) (h : s.Woken) (hs : Step s l t) : t.Woken := by
  unfold Woken at *
  cases hs with
  | enter hpc => exact absurd hpc ho
  | leave | pollReturn | handleRead | handleEvent | startPending => simp
  | startPoll hpc => exact fun _ hne => h (.inl hpc) hne
  | swap hpc => intro _ hne; exact absurd (hb (by simp [hpc])) (by simpa using hne)
  | call hpc hn =>
    intro _ hne
    refine h (.inr (.inr ⟨_, hpc⟩)) ?_
    simpa [(SwapQueue.next?_eq_some.mp hn).2] using hne
  | finish hpc | endPending hpc => exact fun _ hne => h (.inr (.inr ⟨_, hpc⟩)) hne
  | queueInLoop th f | runInLoop th f =>
    -- the caller itself has still to come to its `wakeup()`
    exact fun _ _ => .inr ⟨th, by simp [emplaceBack]⟩
  | runInLoopHere => exact h
  | quit th hc =>
    intro hpc hne
    rcases h hpc hne with h' | ⟨th', h'⟩
    · exact .inl h'
    · have hth : th' ≠ th := by rintro rfl; rw [hc.1] at h'; cases h'
      exact .inr ⟨th', by simpa [storeQuit, hth] using h'⟩
  | queueInLoopWakeup th hc =>
    intro hpc hne
    have hpc' := hpc
    simp only [(queueInLoopWakeup_frame s th).1] at hpc
    refine signalled_queueInLoopWakeup ?_
    -- the loop thread calls `queueInLoop` outside `doPendingFunctors` only while it dispatches
    by_cases hth : th = s.threadId
    · right
      have hclient := hd.client (by rw [← hth, hc]; simp)
      rcases hpc with hpc | hpc | hpc
      · simp [InClientCode, hpc] at hclient
      · simp [InClientCode, hpc] at hclient
      · exact hd.calling.mpr (.inr hpc)
    · left; simpa [isInLoopThread] using hth
  | quitWakeup th hc =>
    intro hpc hne
    simp only [(quitWakeup_frame s th).1] at hpc
    exact signalled_quitWakeup (h hpc (by simpa using hne)) hc

end EventLoop

/-- **No lost wakeup.**  Once `loop()` has been entered with no functor pending, in every state
in which the loop thread is in `poll` and a functor is pending, the eventfd is readable or
another thread has stored its functor and still has to write it. -/
theorem no_lost_wakeup {T F : Type} [DecidableEq T] {s₀ s t : EventLoop T F}
    {tr : List (EventLoop T F × LoopStep T F)} (h₀ : (loopMachine T F).Reachable s₀)
    (he : (loopMachine T F).step s₀ .enter s) (hempty : s.queue.pending = [])
    (hr : (loopMachine T F).Run s tr t) (hpoll : t.pc = .poll) (hne : t.queue.pending ≠ []) :
    0 < t.wakeupFd ∨ ∃ th, th ≠ t.threadId ∧ t.callers th = .appended := by
  have hs : (loopMachine T F).Reachable s := h₀.run (.one he)
  have hstart : s.pc ≠ .outside ∧ s.Woken := by
    cases he
    exact ⟨by simp, fun _ hne => absurd hempty hne⟩
  have hstep : ∀ {u : EventLoop T F} {l v},
      u.Discipline ∧ u.BatchDone ∧ u.pc ≠ .outside ∧ u.Woken → True → EventLoop.Step u l v →
      v.Discipline ∧ v.BatchDone ∧ v.pc ≠ .outside ∧ v.Woken := by
    rintro u l v ⟨hd, hb, ho, hw⟩ - hst
    exact ⟨hst.discipline hd, hst.batchDone hb, hst.pc_ne_outside ho, hst.woken hd hb ho hw⟩
  obtain ⟨hd, -, -, hw⟩ := hr.keeps (C := fun _ _ => True) hstep (fun _ _ => trivial)
    ⟨EventLoop.reachable_discipline hs, (EventLoop.reachable_fifo hs).1, hstart⟩
  rcases hw (.inr (.inl hpoll)) hne with h | ⟨th, hth⟩
  · exact .inl h
  · refine .inr ⟨th, ?_, hth⟩
    rintro rfl
    rw [hd.idle (by simp [EventLoop.InClientCode, hpoll])] at hth
    cases hth

/-- The theorem at a loop that has begun to poll when another thread stores functor 7. -/
theorem no_lost_wakeup_during_poll : ∃ t, (loopMachine Bool Nat).Reachable t ∧ t.pc = .poll ∧
    t.queue.pending = [7] ∧
    (0 < t.wakeupFd ∨ ∃ th, th ≠ t.threadId ∧ t.callers th = .appended) := by
  have h₀ := Machine.Reachable.of_init (M := loopMachine Bool Nat) ⟨false, rfl⟩
  have he := EventLoop.Step.enter (s := (.new false : EventLoop Bool Nat)) rfl rfl
  have hr := (Machine.Run.one (M := loopMachine Bool Nat) he).here
    |>.snoc (.startPoll rfl rfl)
    |>.snoc (.queueInLoop true 7 (.of_ne rfl (by decide)))
  exact ⟨_, (h₀.run (.one he)).run hr, rfl, rfl,
    no_lost_wakeup h₀ he rfl hr rfl (List.cons_ne_nil 7 [])⟩

end Reactor.Net
