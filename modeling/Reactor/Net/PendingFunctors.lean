import Reactor.Net.EventLoop

/-!
# Net — the functor queue

The functors of an `EventLoop` go through one first-in first-out queue, whatever threads append
to it and whenever.

* `Step.queue_cases`: what a step can do to the queue and its history, once for all.
* `reachable_fifo`: executed, then the rest of the batch, then pending, is the order of the
  appends.
* `run_batch_of_no_swap`: until the next swap nothing queued since the last one is run.
-/

namespace Reactor.Net
open Reactor.Lib

namespace EventLoop

variable {T F : Type} [DecidableEq T]

/-- How many functors the swaps so far have taken out of `_pendingFunctors`. -/
def taken (s : EventLoop T F) : Nat := s.executed.length + s.queue.batch.length

/-- What a step does to the queue: nothing, an append, the swap, or taking the front of the
batch. -/
theorem Step.queue_cases {s t : EventLoop T F} {l : LoopStep T F} (h : Step s l t) :
    (l ≠ .swap ∧ t.executed = s.executed ∧ t.queue = s.queue ∧ t.appended = s.appended) ∨
      (∃ th f, l ≠ .swap ∧ t.executed = s.executed ∧ t.queue = s.queue.push f ∧
        t.appended = s.appended ++ [(th, f)]) ∨
      (l = .swap ∧ s.pc = .swap ∧ t.executed = s.executed ∧ t.queue = s.queue.swap ∧
        t.appended = s.appended) ∨
      (∃ f, l ≠ .swap ∧ t.executed = s.executed ++ [f] ∧ s.queue.next? = some (f, t.queue) ∧
        t.appended = s.appended) := by
  cases h with
  | queueInLoop th f => exact .inr (.inl ⟨th, f, by simp [emplaceBack]⟩)
  | runInLoop th f => exact .inr (.inl ⟨th, f, by simp [emplaceBack]⟩)
  | swap hpc => exact .inr (.inr (.inl ⟨rfl, hpc, rfl, rfl, rfl⟩))
  | call hpc hn => exact .inr (.inr (.inr ⟨_, by simp, rfl, hn, rfl⟩))
  | _ => exact .inl (by simp [EventLoop.handleRead, storeQuit])

/-- Outside the loop over `functors` the batch is exhausted. -/
def BatchDone (s : EventLoop T F) : Prop :=
  (∀ f, s.pc ≠ .run f) → s.queue.batch = []

/-- The batch is empty where no functor is being run. -/
theorem Step.batchDone {s t : EventLoop T F} {l : LoopStep T F} (hs : s.BatchDone)
    (h : Step s l t) : t.BatchDone := by
  unfold BatchDone at *
  cases h with
  | swap => intro hpc; exact absurd rfl (hpc none)
  | call => intro hpc; exact absurd rfl (hpc _)
  | finish => intro hpc; exact absurd rfl (hpc none)
  | endPending hpc hb => exact fun _ => hb
  | queueInLoop th f => simpa [emplaceBack] using hs
  | runInLoop th f => simpa [emplaceBack] using hs
  | runInLoopHere => exact hs
  | quit th => simpa [storeQuit] using hs
  | queueInLoopWakeup th => simpa using hs
  | quitWakeup th => simpa using hs
  | enter hpc | leave hpc | startPoll hpc | pollReturn _ hpc | handleRead hpc | handleEvent hpc
  | startPending hpc => exact fun _ => hs (by simp [hpc])

/-- Executed, then the queue, is the order of the appends. -/
def Fifo (s : EventLoop T F) : Prop :=
  s.appended.map Prod.snd = s.executed ++ s.queue.contents

/-- What has been taken is a front of what was queued. -/
theorem Step.fifo {s t : EventLoop T F} {l : LoopStep T F} (hb : s.BatchDone) (hs : s.Fifo)
    (h : Step s l t) : t.Fifo := by
  unfold Fifo at *
  rcases h.queue_cases with ⟨-, he, hq, ha⟩ | ⟨th, f, -, he, hq, ha⟩ | ⟨-, hpc, he, hq, ha⟩ |
      ⟨f, -, he, hq, ha⟩
  · rw [he, hq, ha, hs]
  · simp [he, hq, ha, hs]
  · rw [he, hq, ha, hs, SwapQueue.contents_swap (hb (by simp [hpc]))]
  · rw [he, ha, hs, SwapQueue.contents_next? hq]; simp

/-- So it is in every state. -/
theorem reachable_fifo {s : EventLoop T F} (h : (loopMachine T F).Reachable s) :
    s.BatchDone ∧ s.Fifo := by
  refine h.keeps (I := fun s => s.BatchDone ∧ s.Fifo) ?_ ?_
  · rintro s ⟨th, rfl⟩; exact ⟨fun _ => rfl, rfl⟩
  · rintro s l t ⟨hb, hf⟩ hs; exact ⟨hs.batchDone hb, hs.fifo hb hf⟩

omit [DecidableEq T] in
theorem length_appended {s : EventLoop T F} (h : s.Fifo) :
    s.appended.length = s.taken + s.queue.pending.length := by
  have := congrArg List.length h
  simpa [SwapQueue.contents, taken, Nat.add_assoc] using this

/-- A step that is no swap takes nothing out of `_pendingFunctors`. -/
theorem Step.executed_batch {s t : EventLoop T F} {l : LoopStep T F} (h : Step s l t)
    (hl : l ≠ .swap) : t.executed ++ t.queue.batch = s.executed ++ s.queue.batch := by
  rcases h.queue_cases with ⟨-, he, hq, -⟩ | ⟨th, f, -, he, hq, -⟩ | ⟨hl', -⟩ |
      ⟨f, -, he, hq, -⟩
  · rw [he, hq]
  · rw [he, hq, SwapQueue.push_batch]
  · exact absurd hl' hl
  · rw [he, (SwapQueue.next?_eq_some.mp hq).1]; simp

/-- Until the next swap, the functors executed and those still to be executed stay the ones the
last swap took. -/
theorem run_batch_of_no_swap {s t : EventLoop T F} {tr : List (EventLoop T F × LoopStep T F)}
    (h : (loopMachine T F).Run s tr t) (hns : Meets (fun _ l => l ≠ .swap) tr) :
    t.executed ++ t.queue.batch = s.executed ++ s.queue.batch :=
  h.keeps (I := fun t => t.executed ++ t.queue.batch = s.executed ++ s.queue.batch)
    (fun hi hl hs => (hs.executed_batch hl).trans hi) hns rfl

end EventLoop

/-- **Each queued functor runs exactly once, in the order of the appends.**  In every reachable
state the functors executed, the rest of the batch and `_pendingFunctors` are together the
functors in the order `queueInLoop` stored them; and along any further run up to the next swap,
the functors executed stay among those the last swap took, so none queued during a batch runs in
that batch. -/
theorem functors_run_in_order {T F : Type} [DecidableEq T] {s : EventLoop T F}
    (h : (loopMachine T F).Reachable s) :
    s.appended.map Prod.snd = s.executed ++ s.queue.batch ++ s.queue.pending ∧
      ∀ tr t, (loopMachine T F).Run s tr t → Meets (fun _ l => l ≠ .swap) tr →
        t.executed ++ t.queue.batch = s.executed ++ s.queue.batch := by
  refine ⟨?_, fun tr t hr hns => EventLoop.run_batch_of_no_swap hr hns⟩
  rw [List.append_assoc]
  exact (EventLoop.reachable_fifo h).2

/-- The theorem at a batch of one functor, 7, during which functor 8 is queued and stays
pending. -/
theorem functors_run_in_order_during_batch : ∃ s tr t, (loopMachine Bool Nat).Run s tr t ∧
    s.appended.map Prod.snd = s.executed ++ s.queue.batch ++ s.queue.pending ∧
    t.executed ++ t.queue.batch = s.executed ++ s.queue.batch ∧
    t.executed = [7] ∧ t.queue.pending = [8] := by
  have hr := Machine.Run.nil (M := loopMachine Bool Nat) (s := .new false)
    |>.snoc (.queueInLoop true 7 (.of_ne rfl (by decide)))
    |>.snoc (.queueInLoopWakeup true rfl)
    |>.snoc (.enter rfl rfl)
    |>.snoc (.startPoll rfl rfl)
    |>.snoc (.pollReturn [] rfl (by simp))
    |>.snoc (.startPending rfl)
    |>.snoc (.swap rfl)
  have hr' := hr.here
    |>.snoc (.call rfl rfl)
    |>.snoc (.queueInLoop true 8 (.of_ne rfl (by decide)))
  have h := functors_run_in_order ⟨_, _, ⟨false, rfl⟩, hr⟩
  have hns := h.2 _ _ hr' (meets_snoc.mpr ⟨meets_snoc.mpr ⟨meets_nil _, by simp⟩, by simp⟩)
  exact ⟨_, _, _, hr', h.1, hns, rfl, rfl⟩

end Reactor.Net
