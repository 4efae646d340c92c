import Reactor.Base.TaskAccounting

/-!
# Base — the deadlock of ThreadPool::stop

`stop` joins the workers with `_mutex` locked, and a worker leaves `runInThread` from a place where
it holds `_mutex`.  So a pool with a thread is stuck once `stop` has the mutex: the workers come to
wait for it, and `stop` waits for them.

* `Deadlocked`: a call of `stop` has not returned, and nobody can go on.
* `Deadlocked.step`: in such a state there are no steps but spurious wakeups.
* `stop_safe_iff`: a pool is safe if and only if it has no threads; one with threads comes to a
  deadlock from every state in which `stop` holds the mutex.
-/

namespace Reactor.Base
open Reactor.Lib

namespace ThreadPool

variable {n : Nat} {F : Type}

/-! ### Who is blocked -/

/-- The worker waits for the mutex, which is locked, or to be notified. -/
def WorkerBlocked (s : ThreadPool n F) (w : Fin n) : Prop :=
  ((s.pc w = .lock ∨ s.pc w = .woken) ∧ s.mutex ≠ none) ∨ s.pc w = .waiting

/-- The caller of `stop` waits for the mutex, which is locked, or for a thread that has not
finished. -/
def StopBlocked (s : ThreadPool n F) : Prop :=
  (s.stop = .notCalled ∧ s.mutex ≠ none) ∨ ∃ w : Fin n, s.stop = .joining w ∧ s.pc w ≠ .finished

/-- `stop` has been called and has not returned, and it is blocked, and so is every worker that has
not finished, and every thread that calls `add`. -/
structure Deadlocked (s : ThreadPool n F) : Prop where
  stop : s.StopBlocked
  workers : ∀ w, s.pc w = .finished ∨ s.WorkerBlocked w
  /-- The mutex is locked, which a call of `add` has to wait for. -/
  add : s.mutex ≠ none

/-- `stop` holds the mutex and joins a worker that waits for it. -/
def JoinsWaiting (s : ThreadPool n F) (w : Fin n) : Prop :=
  s.stop = .joining w ∧ s.mutex = some .stop ∧ (s.pc w = .lock ∨ s.pc w = .woken)

/-- There is no deadlock here, and no worker waits for the mutex of the `stop` that joins it. -/
structure StopSafe (s : ThreadPool n F) : Prop where
  deadlocked : ¬ s.Deadlocked
  joinsWaiting : ∀ w, ¬ s.JoinsWaiting w

/-- `stop` is between its lock of the mutex and its return. -/
def Stopping (s : ThreadPool n F) : Prop := s.stop = .locked ∨ ∃ i, s.stop = .joining i

/-- A deadlock: a step is a spurious wakeup, or it is one of a pool without threads. -/
theorem Deadlocked.step {s t : ThreadPool n F} {l : PoolStep n F} (h : s.Deadlocked)
    (hn : 0 < n) (hs : Step s l t) : ∃ w, l = .spurious w := by
  have hworker : ∀ w pc, s.pc w = pc →
      pc = .finished ∨ pc = .lock ∨ pc = .woken ∨ pc = .waiting := by
    rintro w _ rfl
    rcases h.workers w with hw | ⟨hw | hw, -⟩ | hw <;> simp [hw]
  have hstop : s.stop ≠ .locked ∧ s.stop ≠ .joining n := by
    rcases h.stop with ⟨hs, -⟩ | ⟨w, hs, -⟩ <;> simp only [hs, ne_eq, reduceCtorEq,
      not_false_eq_true, StopPc.joining.injEq, true_and]
    exact Nat.ne_of_lt w.isLt
  cases hs with
  | spurious w => exact ⟨w, rfl⟩
  | init w hpc | wait w hpc | pop w _ _ hpc | unlock w hpc | finish w hpc | call w _ hpc
  | skip w hpc => simpa using hworker w _ hpc
  | lock _ _ hm | relock _ _ hm | add _ _ _ hm | stopLock _ hm => exact absurd hm h.add
  | addDirectly _ h0 => exact absurd h0 (Nat.ne_of_gt hn)
  | stopNotify hs => exact absurd hs hstop.1
  | stopReturn hs => exact absurd hs hstop.2
  | stopJoin w hs hpc =>
    rcases h.stop with ⟨hs', -⟩ | ⟨v, hs', hv⟩
    · rw [hs] at hs'; cases hs'
    · rw [hs] at hs'
      obtain rfl : w = v := Fin.ext (StopPc.joining.inj hs')
      exact absurd hpc hv

/-! ### What holds in a pool with threads -/

/-- Besides the discipline: who holds the mutex is where it is held, and while `stop` joins nobody
waits to be notified. -/
structure Held (s : ThreadPool n F) : Prop where
  discipline : s.Discipline
  stopping : s.mutex = some .stop → s.Stopping
  awake : ∀ i, s.stop = .joining i → ∀ w, s.pc w ≠ .waiting

theorem held_started : (started n F).Held where
  discipline := discipline_started
  stopping h := by simp [started] at h
  awake i h := by simp [started] at h

/-- A worker's step that is not a wait. -/
theorem Held.setPc {s : ThreadPool n F} (h : s.Held) (w : Fin n) {pc : WorkerPc}
    (hpc : pc ≠ .waiting) {i : Nat} (hs : s.stop = .joining i) (v : Fin n) :
    (s.setPc w pc).pc v ≠ .waiting := by
  by_cases hvw : v = w
  · subst hvw; simpa [ThreadPool.setPc] using hpc
  · simpa [ThreadPool.setPc, hvw] using h.awake i hs v

/-- While `stop` joins, no worker holds the mutex. -/
theorem Held.not_holding {s : ThreadPool n F} (h : s.Held) {i : Nat} (hs : s.stop = .joining i)
    (w : Fin n) : s.pc w ≠ .test ∧ s.pc w ≠ .popped := by
  have hm := h.discipline.stopper (.inr ⟨i, hs⟩)
  constructor <;> intro hpc
  · rw [h.discipline.holder w (.inl hpc)] at hm; cases hm
  · rw [h.discipline.holder w (.inr hpc)] at hm; cases hm

/-- No step of a worker, a producer or `stop` lets the mutex go out of the right hands. -/
theorem Step.held {s t : ThreadPool n F} {l : PoolStep n F} (h : s.Held) (hs : Step s l t) :
    t.Held := by
  refine ⟨hs.discipline h.discipline, ?_, ?_⟩
  · -- the mutex
    cases hs with
    | lock | wait | relock | unlock | finish | stopReturn => intro hm; cases hm
    | stopLock => exact fun _ => .inl rfl
    | stopNotify => exact fun _ => .inr ⟨0, rfl⟩
    | stopJoin => exact fun _ => .inr ⟨_, rfl⟩
    | add f notified => cases notified <;> exact h.stopping
    | _ => exact h.stopping
  · -- the waiting workers
    intro i hi
    cases hs with
    | init w | lock w | spurious w | relock w | unlock w | pop w =>
      exact h.setPc w (by simp) hi
    | wait w hpc => exact absurd hpc (h.not_holding hi w).1
    | finish w | call w | skip w => exact h.setPc w (by simp) hi
    | add f notified =>
      cases notified with
      | none => exact h.awake i hi
      | some w => exact h.setPc w (by simp) hi
    | stopNotify =>
      intro w
      by_cases hpc : s.pc w = .waiting <;> simp [notifyAll, hpc]
    | stopJoin w hs => exact h.awake _ hs
    | stopLock | stopReturn => cases hi
    | addDirectly => exact h.awake i hi

/-- So it is in every state of a pool. -/
theorem held_of_reachable {s : ThreadPool n F} (h : (poolMachine n F).Reachable s) : s.Held :=
  h.keeps (I := Held) (fun hinit => hinit ▸ held_started) fun hs hst => Step.held hs hst

/-- **`stop` does not return** in a pool with a thread. -/
theorem Step.stopping {s t : ThreadPool n F} {l : PoolStep n F} (hn : 0 < n) (h : s.Held)
    (hstop : s.Stopping) (hs : Step s l t) : t.Stopping := by
  cases hs with
  | stopLock => exact .inl rfl
  | stopNotify => exact .inr ⟨0, rfl⟩
  | stopJoin => exact .inr ⟨_, rfl⟩
  | stopReturn hs => exact absurd (h.discipline.joining _ hs) (Nat.ne_of_gt hn)
  | add f notified => cases notified <;> exact hstop
  | _ => exact hstop

/-- With all workers past their initialization, a `stop` that joins is in a deadlock. -/
theorem Held.deadlocked {s : ThreadPool n F} (hn : 0 < n) (h : s.Held)
    (hs : s.stop = .joining 0) (hinit : ∀ w, s.pc w ≠ .init) : s.Deadlocked := by
  have hm := h.discipline.stopper (.inr ⟨0, hs⟩)
  have hlocked : s.mutex ≠ none := by simp [hm]
  have hjoin : s.StopBlocked := .inr ⟨⟨0, hn⟩, hs, (h.discipline.inLoop _).2⟩
  refine ⟨hjoin, fun w => .inr (.inl ⟨?_, hlocked⟩), hlocked⟩
  have htest := h.not_holding hs w
  have hloop := h.discipline.inLoop w
  cases hpc : s.pc w with
  | lock => exact .inl rfl
  | woken => exact .inr rfl
  | init => exact absurd hpc (hinit w)
  | test => exact absurd hpc htest.1
  | popped => exact absurd hpc htest.2
  | waiting => exact absurd hpc (h.awake 0 hs w)
  | afterLoop => exact absurd hpc hloop.1
  | finished => exact absurd hpc hloop.2

/-- Workers that are still at their initialization get past it. -/
theorem exists_run_init (ws : List (Fin n)) {s : ThreadPool n F} (hs : s.stop = .joining 0) :
    ∃ tr t, (poolMachine n F).Run s tr t ∧ t.stop = .joining 0 ∧
      (∀ w, s.pc w ≠ .init → t.pc w ≠ .init) ∧ ∀ w ∈ ws, t.pc w ≠ .init := by
  induction ws with
  | nil => exact ⟨[], s, .nil, hs, fun _ => id, by simp⟩
  | cons w ws ih =>
    obtain ⟨tr, t, hr, ht, hkeep, hws⟩ := ih
    by_cases hw : t.pc w = .init
    · have hpc : ∀ v, v ≠ w → (t.setPc w .lock).pc v = t.pc v := fun v hvw => by
        simp [ThreadPool.setPc, hvw]
      have hlock : (t.setPc w .lock).pc w ≠ .init := by simp [ThreadPool.setPc]
      have hall : ∀ v, (v ≠ w → t.pc v ≠ .init) → (t.setPc w .lock).pc v ≠ .init := fun v hv => by
        by_cases hvw : v = w
        · rw [hvw]; exact hlock
        · rw [hpc v hvw]; exact hv hvw
      refine ⟨_, t.setPc w .lock, hr.snoc (.init w hw), ht, fun v hv => ?_, fun v hv => ?_⟩
      · exact hall v fun _ => hkeep v hv
      · exact hall v fun hvw => hws v ((List.mem_cons.mp hv).resolve_left hvw)
    · refine ⟨tr, t, hr, ht, hkeep, fun v hv => ?_⟩
      rcases List.mem_cons.mp hv with rfl | hv
      · exact hw
      · exact hws v hv

/-- **Every state in which `stop` holds the mutex leads to a deadlock.** -/
theorem Held.exists_deadlock {s : ThreadPool n F} (hn : 0 < n) (h : s.Held)
    (hstop : s.Stopping) : ∃ tr t, (poolMachine n F).Run s tr t ∧ t.Deadlocked := by
  have hjoin : ∀ {u : ThreadPool n F}, u.Held → u.stop = .joining 0 →
      ∃ tr t, (poolMachine n F).Run u tr t ∧ t.Deadlocked := by
    intro u hu hs
    obtain ⟨tr, t, hr, ht, -, hinit⟩ := exists_run_init (List.finRange n) hs
    have hheld : t.Held := hr.keeps (I := Held) (C := fun _ _ => True)
      (fun hi _ hst => Step.held hi hst) (fun _ _ => trivial) hu
    exact ⟨tr, t, hr, hheld.deadlocked hn ht fun w => hinit w (List.mem_finRange w)⟩
  rcases hstop with hs | ⟨i, hs⟩
  · have hstep : Step s .stopNotify { s.notifyAll with running := false, stop := .joining 0 } :=
      .stopNotify hs
    obtain ⟨tr, t, hr, ht⟩ := hjoin (hstep.held h) rfl
    exact ⟨_, t, (Machine.Run.one hstep).trans hr, ht⟩
  · obtain rfl := h.discipline.joining i hs
    exact hjoin h hs

/-- A pool without threads has nobody to wait for. -/
theorem Held.stopSafe {s : ThreadPool 0 F} (h : s.Held) : s.StopSafe := by
  refine ⟨fun hd => ?_, fun w => w.elim0⟩
  rcases hd.stop with ⟨hs, hm⟩ | ⟨w, -⟩
  · cases hmutex : s.mutex with
    | none => exact hm hmutex
    | some holder =>
      cases holder with
      | worker w => exact w.elim0
      | stop => rcases h.stopping hmutex with hs' | ⟨i, hs'⟩ <;> rw [hs] at hs' <;> cases hs'
  · exact w.elim0

end ThreadPool

/-- **When `stop` cannot deadlock.**  No reachable state of a pool is a deadlock of a call of
`stop`, or has a worker waiting for the mutex of the `stop` that joins it, if and only if the pool
has no threads.  If it has some, then from every reachable state in which `stop` has the mutex
`stop` never returns, and the pool can come to a deadlock. -/
theorem stop_safe_iff (n : Nat) (F : Type) :
    ((∀ s, (poolMachine n F).Reachable s → s.StopSafe) ↔ n = 0) ∧
      (0 < n → ∀ s, (poolMachine n F).Reachable s → s.Stopping →
        (∀ tr t, (poolMachine n F).Run s tr t → t.Stopping) ∧
        ∃ tr t, (poolMachine n F).Run s tr t ∧ t.Deadlocked) := by
  refine ⟨⟨fun hsafe => ?_, ?_⟩, fun hn s hs hstop => ⟨fun tr t hr => ?_, ?_⟩⟩
  · by_contra hn
    have hstep : ThreadPool.Step (.started n F) .stopLock
        { ThreadPool.started n F with mutex := some .stop, stop := .locked } := .stopLock rfl rfl
    have hlocked := (Machine.Reachable.of_init (M := poolMachine n F) rfl).run (.one hstep)
    obtain ⟨tr, t, hr, ht⟩ :=
      (ThreadPool.held_of_reachable hlocked).exists_deadlock (Nat.pos_of_ne_zero hn) (.inl rfl)
    exact (hsafe t (hlocked.run hr)).deadlocked ht
  · rintro rfl s hs
    exact (ThreadPool.held_of_reachable hs).stopSafe
  · refine (hr.keeps (I := fun u => u.Held ∧ u.Stopping) (C := fun _ _ => True) ?_
      (fun _ _ => trivial) ⟨ThreadPool.held_of_reachable hs, hstop⟩).2
    exact fun ⟨hu, hu'⟩ _ hst =>
      ⟨ThreadPool.Step.held hu hst, ThreadPool.Step.stopping hn hu hu' hst⟩
  · exact (ThreadPool.held_of_reachable hs).exists_deadlock hn hstop

/-- One worker, and `stop` called when it has been initialized: the worker waits for the mutex, and
`stop` for the worker. -/
theorem stop_deadlock_one : ¬ ∀ s, (poolMachine 1 Unit).Reachable s → s.StopSafe := by
  intro hstops
  have hr := Machine.Run.nil (M := poolMachine 1 Unit) (s := .started 1 Unit)
    |>.snoc (.init 0 rfl)
    |>.snoc (.stopLock rfl rfl)
    |>.snoc (.stopNotify rfl)
  refine (hstops _ ((Machine.Reachable.of_init rfl).run hr)).deadlocked ⟨?_, fun w => ?_, ?_⟩
  · exact .inr ⟨0, rfl, by decide⟩
  · obtain rfl : w = 0 := Subsingleton.elim _ _
    exact .inr (.inl ⟨.inl rfl, Option.some_ne_none _⟩)
  · exact Option.some_ne_none _

end Reactor.Base
