import Mathlib.Algebra.BigOperators.Group.Finset.Piecewise
import Mathlib.Data.Fintype.Basic
import Reactor.Base.ThreadPool

/-!
# Base — accounting for the tasks of a ThreadPool

A worker that has popped a task goes back to the head of its loop with the task in `task`, where
the next pop overwrites it: the only call of a task is past a loop the workers never leave.

* `Discipline`: who holds the mutex, and that every worker stays in its loop, even after `stop`.
* `Step.task_cases`: what a step does to the tasks.
* `ExecutesEachOnce`: a task is queued, or held between its pop and the next turn of the loop, or
  run.
* `executesEachOnce_iff`: no worker calls a task, and the tasks stay accounted for exactly as long
  as no worker pops one.
* `popped_task_lost`: one worker, one task.
-/

namespace Reactor.Base
open Reactor.Lib

namespace ThreadPool

variable {n : Nat} {F : Type}

/-! ### The mutex -/

/-- What holds of the mutex and of the places the workers are in, whatever is added and stopped. -/
structure Discipline (s : ThreadPool n F) : Prop where
  holder : ∀ w, s.pc w = .test ∨ s.pc w = .popped → s.mutex = some (.worker w)
  stopper : s.stop = .locked ∨ (∃ i, s.stop = .joining i) → s.mutex = some .stop
  /-- `_running` is cleared under the mutex, which `stop` then keeps as long as there is a worker
  to join. -/
  running : s.running = false → s.mutex = some .stop ∨ n = 0
  inLoop : ∀ w, s.pc w ≠ .afterLoop ∧ s.pc w ≠ .finished
  joining : ∀ i, s.stop = .joining i → i = 0

theorem discipline_started : (started n F).Discipline where
  holder w hw := by simp [started] at hw
  stopper h := by simp [started] at h
  running h := by simp [started] at h
  inLoop w := by simp [started]
  joining i h := by simp [started] at h

/-- A worker goes to a place in its loop; the others are where they were. -/
theorem Discipline.inLoop_setPc {s : ThreadPool n F} (h : s.Discipline) (w : Fin n)
    {pc : WorkerPc} (hl : pc ≠ .afterLoop ∧ pc ≠ .finished) (v : Fin n) :
    (s.setPc w pc).pc v ≠ .afterLoop ∧ (s.setPc w pc).pc v ≠ .finished := by
  by_cases hvw : v = w
  · subst hvw; simpa [setPc] using hl
  · simpa [setPc, hvw] using h.inLoop v

/-- A worker outside its critical sections moves on. -/
theorem Discipline.move {s : ThreadPool n F} (h : s.Discipline) (w : Fin n) {pc : WorkerPc}
    (hpc : pc ≠ .test ∧ pc ≠ .popped) (hl : pc ≠ .afterLoop ∧ pc ≠ .finished) :
    (s.setPc w pc).Discipline where
  holder v hv := by
    by_cases hvw : v = w
    · subst hvw
      exact absurd hv (by simpa [setPc] using hpc)
    · exact h.holder v (by simpa [setPc, hvw] using hv)
  stopper := h.stopper
  running := h.running
  inLoop := h.inLoop_setPc w hl
  joining := h.joining

/-- A worker takes the free mutex, or moves on with it, or gives it back. -/
theorem Discipline.own {s : ThreadPool n F} (h : s.Discipline) (w : Fin n) {pc : WorkerPc}
    {m : Option (Holder n)} (hm : s.mutex = none ∨ s.mutex = some (.worker w))
    (hpc : pc = .test ∨ pc = .popped → m = some (.worker w))
    (hl : pc ≠ .afterLoop ∧ pc ≠ .finished) :
    { s.setPc w pc with mutex := m }.Discipline := by
  have hstop : s.mutex ≠ some .stop := by rcases hm with hm | hm <;> simp [hm]
  refine ⟨fun v hv => ?_, fun hs => absurd (h.stopper hs) hstop,
    fun hr => .inr ((h.running hr).resolve_left hstop), h.inLoop_setPc w hl, h.joining⟩
  by_cases hvw : v = w
  · subst hvw
    exact hpc (by simpa [setPc] using hv)
  · -- another worker in its critical section would hold the mutex
    have hv' := h.holder v (by simpa [setPc, hvw] using hv)
    rcases hm with hm | hm <;> rw [hm] at hv' <;> cases hv'
    exact absurd rfl hvw

/-- `runInThread` does not return: `_running` is false only while `stop` holds the mutex. -/
theorem Discipline.running_of_test {s : ThreadPool n F} (h : s.Discipline) {w : Fin n}
    (hpc : s.pc w = .test) : s.running = true := by
  by_contra hr
  rcases h.running (by simpa using hr) with hm | rfl
  · rw [h.holder w (.inl hpc)] at hm; cases hm
  · exact w.elim0

/-- Every step keeps the discipline; none leads out of the loop. -/
theorem Step.discipline {s t : ThreadPool n F} {l : PoolStep n F} (h : s.Discipline)
    (hs : Step s l t) : t.Discipline := by
  cases hs with
  | init w | spurious w => exact h.move w (by simp) (by simp)
  | lock w _ hm | relock w _ hm => exact h.own w (.inl hm) (fun _ => rfl) (by simp)
  | wait w hpc => exact h.own w (.inr (h.holder w (.inl hpc))) (by simp) (by simp)
  | unlock w hpc => exact h.own w (.inr (h.holder w (.inr hpc))) (by simp) (by simp)
  | pop w f rest hpc =>
    have hm := h.holder w (.inl hpc)
    have hpop : (s.pop w f rest).Discipline :=
      ⟨h.holder, h.stopper, h.running, h.inLoop, h.joining⟩
    exact hpop.own w (.inr hm) (fun _ => hm) (by simp)
  | finish w hpc _ hr => rw [h.running_of_test hpc] at hr; cases hr
  -- the statements after the `while (true)` are never reached
  | call w f hpc | skip w hpc => exact absurd hpc (h.inLoop w).1
  | add f notified =>
    have hpush : (s.pushBack f).Discipline :=
      ⟨h.holder, h.stopper, h.running, h.inLoop, h.joining⟩
    cases notified with
    | none => exact hpush
    | some w => exact hpush.move w (by simp) (by simp)
  | addDirectly => exact ⟨h.holder, h.stopper, h.running, h.inLoop, h.joining⟩
  | stopLock hs hm =>
    refine ⟨fun w hw => ?_, fun _ => rfl, fun _ => .inl rfl, h.inLoop, by simp⟩
    rw [h.holder w hw] at hm; cases hm
  | stopNotify hs =>
    have hm := h.stopper (.inl hs)
    refine ⟨fun w hw => ?_, fun _ => hm, fun _ => .inl hm, fun w => ?_, by simp [eq_comm]⟩
    · refine h.holder w ?_
      simp only [notifyAll] at hw
      split at hw
      · simp at hw
      · exact hw
    · by_cases hpc : s.pc w = .waiting
      · simp [notifyAll, hpc]
      · simpa [notifyAll, hpc] using h.inLoop w
  -- no worker has returned, so `stop` joins none
  | stopJoin w _ hpc => exact absurd hpc (h.inLoop w).2
  | stopReturn hs =>
    obtain rfl := h.joining _ hs
    exact ⟨fun w => w.elim0, by simp, fun _ => .inr rfl, fun w => w.elim0, by simp⟩

/-! ### The tasks -/

/-- The task worker `w` holds: it has popped the task and is not yet back at the head of its
loop.  There the variable `task` is only a place the next pop writes to. -/
def held (s : ThreadPool n F) (w : Fin n) : List F :=
  if s.pc w = .popped ∨ s.pc w = .afterLoop then (s.task w).toList else []

/-- A popped task is run by the worker that popped it before that worker is back at the head of
its loop, and the tasks `add` was given are those queued, those held and those run. -/
structure ExecutesEachOnce (s : ThreadPool n F) : Prop where
  popped : ∀ w, s.popped w = s.ran w ++ s.held w
  added : (s.added : Multiset F) = s.queue + ∑ w, (s.held w : Multiset F) +
    (∑ w, (s.ran w : Multiset F) + s.ranByAdd)

/-- The step is not a pop. -/
def NoPop (_ : ThreadPool n F) : PoolStep n F → Prop
  | .pop _ => False
  | _ => True

/-- What a step does to the tasks: nothing, an `add`, or a pop. -/
theorem Step.task_cases {s t : ThreadPool n F} {l : PoolStep n F} (h : s.Discipline)
    (hs : Step s l t) :
    t.ran = s.ran ∧
      ((t.queue = s.queue ∧ t.added = s.added ∧ t.popped = s.popped ∧ t.task = s.task ∧
          t.ranByAdd = s.ranByAdd ∧ ∀ w, l ≠ .pop w) ∨
        (∃ f, t.queue = s.queue ++ [f] ∧ t.added = s.added ++ [f] ∧ t.popped = s.popped ∧
          t.task = s.task ∧ t.ranByAdd = s.ranByAdd ∧ ∀ w, l ≠ .pop w) ∨
        (∃ f, t.queue = s.queue ∧ t.added = s.added ++ [f] ∧ t.popped = s.popped ∧
          t.task = s.task ∧ t.ranByAdd = s.ranByAdd ++ [f] ∧ ∀ w, l ≠ .pop w) ∨
        ∃ w f, l = .pop w ∧ s.queue = f :: t.queue ∧ t.added = s.added ∧
          t.popped = Function.update s.popped w (s.popped w ++ [f]) ∧
          t.task = Function.update s.task w (some f) ∧ t.ranByAdd = s.ranByAdd) := by
  cases hs with
  | pop w f rest hpc hq => exact ⟨rfl, .inr (.inr (.inr ⟨w, f, rfl, hq, rfl, rfl, rfl, rfl⟩))⟩
  | finish w hpc _ hr => rw [h.running_of_test hpc] at hr; cases hr
  | call w f hpc | skip w hpc => exact absurd hpc (h.inLoop w).1
  | add f notified =>
    cases notified with
    | none => exact ⟨rfl, .inr (.inl ⟨f, rfl, rfl, rfl, rfl, rfl, by simp⟩)⟩
    | some w => exact ⟨rfl, .inr (.inl ⟨f, rfl, rfl, rfl, rfl, rfl, by simp⟩)⟩
  | addDirectly f => exact ⟨rfl, .inr (.inr (.inl ⟨f, rfl, rfl, rfl, rfl, rfl, by simp⟩))⟩
  | _ => exact ⟨rfl, .inl ⟨rfl, rfl, rfl, rfl, rfl, by simp⟩⟩

/-- The history of all workers after one of them has taken one more task. -/
theorem sum_update_snoc (popped : Fin n → List F) (w : Fin n) (f : F) :
    ∑ v, (Function.update popped w (popped w ++ [f]) v : Multiset F) =
      f ::ₘ ∑ v, (popped v : Multiset F) := by
  have hupd : (fun v => (Function.update popped w (popped w ++ [f]) v : Multiset F)) =
      Function.update (fun v => (popped v : Multiset F)) w (f ::ₘ (popped w : Multiset F)) := by
    funext v
    by_cases hvw : v = w
    · subst hvw; simp [← Multiset.coe_add, ← Multiset.singleton_add, add_comm]
    · simp [hvw]
  rw [hupd, Finset.sum_update_of_mem (Finset.mem_univ w), Multiset.cons_add,
    ← Finset.add_sum_erase _ _ (Finset.mem_univ w), Finset.sdiff_singleton_eq_erase]

/-- No worker has called a task, each has the last task it popped in its variable, and no task has
left the queue but by a pop. -/
structure Accounted (s : ThreadPool n F) : Prop where
  discipline : s.Discipline
  ran : ∀ w, s.ran w = []
  task : ∀ w, s.task w = (s.popped w).getLast?
  added : (s.added : Multiset F) = s.queue + (∑ w, (s.popped w : Multiset F) + s.ranByAdd)

theorem accounted_started : (started n F).Accounted :=
  ⟨discipline_started, fun _ => rfl, fun _ => rfl, by simp [started]⟩

/-- A step adds a task to the queue, or takes one from its front into a worker's variable, and calls
none. -/
theorem Step.accounted {s t : ThreadPool n F} {l : PoolStep n F} (h : s.Accounted)
    (hs : Step s l t) : t.Accounted := by
  obtain ⟨hran, hcases⟩ := hs.task_cases h.discipline
  refine ⟨hs.discipline h.discipline, fun w => hran ▸ h.ran w, ?_, ?_⟩
  · rcases hcases with ⟨-, -, hp, ht, -⟩ | ⟨f, -, -, hp, ht, -⟩ | ⟨f, -, -, hp, ht, -⟩ |
        ⟨w, f, -, -, -, hp, ht, -⟩
    · rw [hp, ht]; exact h.task
    · rw [hp, ht]; exact h.task
    · rw [hp, ht]; exact h.task
    · intro v
      rw [hp, ht]
      by_cases hvw : v = w
      · subst hvw; simp
      · simpa [hvw] using h.task v
  · rcases hcases with ⟨hq, ha, hp, -, hb, -⟩ | ⟨f, hq, ha, hp, -, hb, -⟩ |
        ⟨f, hq, ha, hp, -, hb, -⟩ | ⟨w, f, -, hq, ha, hp, -, hb⟩
    · rw [hq, ha, hp, hb]; exact h.added
    · rw [hq, ha, hp, hb, ← Multiset.coe_add, ← Multiset.coe_add, h.added, add_right_comm]
    · rw [hq, ha, hp, hb, ← Multiset.coe_add, ← Multiset.coe_add, h.added, add_assoc, add_assoc]
    · rw [ha, hp, hb, sum_update_snoc, h.added, hq, ← Multiset.cons_coe, Multiset.cons_add,
        Multiset.cons_add, Multiset.add_cons]

/-- No worker has popped a task. -/
def Untouched (s : ThreadPool n F) : Prop := ∀ w, s.popped w = []

/-- A worker that is not between a pop and the head of its loop holds nothing. -/
theorem Discipline.held_eq_nil {s : ThreadPool n F} (h : s.Discipline) {w : Fin n}
    (hpc : s.pc w ≠ .popped) : s.held w = [] := by
  rw [held, if_neg]
  rintro (hp | ha)
  · exact hpc hp
  · exact (h.inLoop w).1 ha

/-- What is left in the queue is accounted for. -/
theorem Accounted.executes {s : ThreadPool n F} (h : s.Accounted) (hu : s.Untouched) :
    s.ExecutesEachOnce := by
  have hpopped : ∀ w, s.popped w = [] := hu
  have hheld : ∀ w, s.held w = [] := fun w => by simp [held, h.task w, hpopped w]
  refine ⟨fun w => by rw [hpopped w, h.ran w, hheld w]; rfl, ?_⟩
  rw [h.added]
  simp [hheld, hpopped, h.ran]

/-- Back at the head of its loop, a worker that has popped a task has not run it. -/
theorem Accounted.not_executes {s : ThreadPool n F} (h : s.Accounted) {w : Fin n}
    (hw : s.popped w ≠ []) (hpc : s.pc w ≠ .popped) : ¬ s.ExecutesEachOnce := by
  intro he
  have hpopped := he.popped w
  rw [h.ran w, h.discipline.held_eq_nil hpc] at hpopped
  exact hw hpopped

/-- A pop shows at the latest when the worker has given the mutex back. -/
theorem Accounted.exposed {s : ThreadPool n F} (h : s.Accounted) {w : Fin n}
    (hw : s.popped w ≠ []) : ∃ tr u, (poolMachine n F).Run s tr u ∧ Meets NoPop tr ∧
      ¬ u.ExecutesEachOnce := by
  by_cases hpc : s.pc w = .popped
  · have hstep : Step s (.unlock w) { s.setPc w .lock with mutex := none } := .unlock w hpc
    refine ⟨_, _, .one hstep, by simp [Meets, NoPop], ?_⟩
    exact (Step.accounted h hstep).not_executes (w := w) hw (by simp [setPc])
  · exact ⟨_, _, .nil, meets_nil _, h.not_executes hw hpc⟩

/-- Only a pop makes a worker's history of pops longer. -/
theorem Step.untouched_iff {s t : ThreadPool n F} {l : PoolStep n F} (h : s.Discipline)
    (hs : Step s l t) : t.Untouched ↔ s.Untouched ∧ s.NoPop l := by
  have hother : (∀ w, l ≠ .pop w) → s.NoPop l := fun hl => by
    cases l with
    | pop w => exact absurd rfl (hl w)
    | _ => trivial
  obtain ⟨-, hcases⟩ := hs.task_cases h
  rcases hcases with ⟨-, -, hp, -, -, hl⟩ | ⟨f, -, -, hp, -, -, hl⟩ | ⟨f, -, -, hp, -, -, hl⟩ |
      ⟨w, f, rfl, -, -, hp, -, -⟩
  · simp [Untouched, hp, hother hl]
  · simp [Untouched, hp, hother hl]
  · simp [Untouched, hp, hother hl]
  · have hw : t.popped w ≠ [] := by simp [hp]
    exact ⟨fun hu => absurd (hu w) hw, fun hu => hu.2.elim⟩

end ThreadPool

/-- **No task is run, and a pop loses it.**  In every state of every run of the pool no worker has
called a task.  As long as no worker pops one, what was added is queued; from a state in which one
has been popped, steps that pop nothing lead to a state in which it is neither queued, nor held,
nor run. -/
theorem executesEachOnce_iff {n : Nat} {F : Type} {t : ThreadPool n F}
    {tr : List (ThreadPool n F × PoolStep n F)} (hr : (poolMachine n F).Run (.started n F) tr t) :
    (∀ w, t.ran w = []) ∧ (Meets ThreadPool.NoPop tr ↔ ∀ tr' u,
      (poolMachine n F).Run t tr' u → Meets ThreadPool.NoPop tr' → u.ExecutesEachOnce) := by
  have hacc : ∀ {s u : ThreadPool n F} {tr}, s.Accounted → (poolMachine n F).Run s tr u →
      u.Accounted := fun h hr =>
    hr.keeps (I := ThreadPool.Accounted) (C := fun _ _ => True)
      (fun h _ hst => ThreadPool.Step.accounted h hst) (fun _ _ => trivial) h
  have huntouched : ∀ {s u : ThreadPool n F} {tr}, s.Accounted → (poolMachine n F).Run s tr u →
      (u.Untouched ↔ s.Untouched ∧ Meets ThreadPool.NoPop tr) := by
    intro s u tr h hr
    induction hr with
    | nil => simp
    | snoc hr hst ih =>
      rw [meets_snoc, ← and_assoc, ← ih,
        ThreadPool.Step.untouched_iff (hacc h hr).discipline hst]
  have ht := hacc ThreadPool.accounted_started hr
  have hiff := huntouched ThreadPool.accounted_started hr
  refine ⟨ht.ran, fun hm tr' u hr' hm' => ?_, fun hall => ?_⟩
  · have hu : t.Untouched := hiff.mpr ⟨fun _ => rfl, hm⟩
    exact (hacc ht hr').executes ((huntouched ht hr').mpr ⟨hu, hm'⟩)
  · by_contra hm
    have hu : ¬ t.Untouched := fun hu => hm (hiff.mp hu).2
    obtain ⟨w, hw⟩ := not_forall.mp hu
    obtain ⟨tr', u, hr', hm', hu'⟩ := ht.exposed hw
    exact hu' (hall tr' u hr' hm')

/-- The theorem at one worker that has popped its task and given the mutex back. -/
theorem executesEachOnce_iff_one_task : ∃ tr t, (poolMachine 1 Nat).Run (.started 1 Nat) tr t ∧
    t.pc 0 = .lock ∧ t.popped 0 = [7] ∧
    (∀ w, t.ran w = []) ∧ (Meets ThreadPool.NoPop tr ↔ ∀ tr' u,
      (poolMachine 1 Nat).Run t tr' u → Meets ThreadPool.NoPop tr' → u.ExecutesEachOnce) := by
  have hr := Machine.Run.nil (M := poolMachine 1 Nat) (s := .started 1 Nat)
    |>.snoc (.init 0 rfl)
    |>.snoc (.add 7 none (by decide) rfl (by decide))
    |>.snoc (.lock 0 rfl rfl)
    |>.snoc (.pop 0 7 [] rfl rfl)
    |>.snoc (.unlock 0 rfl)
  exact ⟨_, _, hr, rfl, rfl, executesEachOnce_iff hr⟩

/-- One worker pops task 7 and is back at the head of its loop: task 7 is neither queued, nor
held, nor run. -/
theorem popped_task_lost : ¬ ∀ (t : ThreadPool 1 Nat) tr,
    (poolMachine 1 Nat).Run (.started 1 Nat) tr t → t.ExecutesEachOnce := by
  intro hexecutes
  have hr := Machine.Run.nil (M := poolMachine 1 Nat) (s := .started 1 Nat)
    |>.snoc (.init 0 rfl)
    |>.snoc (.add 7 none (by decide) rfl (by decide))
    |>.snoc (.lock 0 rfl rfl)
    |>.snoc (.pop 0 7 [] rfl rfl)
    |>.snoc (.unlock 0 rfl)
  exact absurd ((hexecutes _ _ hr).popped 0) (by decide)

end Reactor.Base
