import Mathlib.Order.MinMax
import Reactor.Timer.Firing

/-!
# Timer — arming

When `TimerQueue` sets its timerfd, and to what.

* `Step.timerfd`: the timerfd changes when a step writes an itimerspec, and when `handleRead`
  reads it.
* `newValue_settime`: what `resetTimerfd` writes arms the timerfd for the expiration it is given,
  or for 100 microseconds from now.
* `timerfd_armed`: outside `addTimerInLoop` and `handleRead`, the timerfd is armed for the earliest
  timer.

`resetTimerfd` reads the clock and sets the timerfd in one instant here; the 100 microseconds count
from that instant.
-/

namespace Reactor.Timers
open Reactor.Lib

namespace TimerQueue

/-- The itimerspec the step writes, if it calls `resetTimerfd`. -/
def written (s : TimerQueue) : TimerStep → Option Timespec
  | .addTimerInLoop p timer =>
    if (s.insert p timer).1 then some (newValue timer.expiration s.now) else none
  | .resetTimerfd =>
    (s.timers.first?.bind fun e => s.heap e.second).map fun timer =>
      newValue timer.expiration s.now
  | _ => none

/-- The time of the last step of the trace that writes an itimerspec. -/
def lastSet (tr : List (TimerQueue × TimerStep)) : Option Timestamp :=
  (tr.filterMap fun p => (p.1.written p.2).map fun _ => p.1.now).getLast?

@[simp] theorem lastSet_snoc (tr : List (TimerQueue × TimerStep)) (s : TimerQueue)
    (l : TimerStep) :
    lastSet (tr ++ [(s, l)]) = if (s.written l).isSome then some s.now else lastSet tr := by
  cases h : s.written l <;> simp [lastSet, h]

/-- What a step does to the timerfd. -/
theorem Step.timerfd {s t : TimerQueue} {l : TimerStep} (hs : Step s l t) :
    t.timerfd = match s.written l with
      | some ts => ts.settime s.now
      | none => if l = .handleRead then s.readTimerfd.timerfd else s.timerfd := by
  cases hs with
  | addTimerInLoop p timer =>
    cases h : (s.insert p timer).1 <;>
      simp_all [written, TimerQueue.addTimerInLoop, insert, setTimer, TimerQueue.resetTimerfd]
  | resetTimerfd hph hf ht => simp [written, hf, ht, TimerQueue.resetTimerfd]
  | _ => rfl

/-! ### What is written -/

/-- At least 100 microseconds, cut into whole seconds and the rest. -/
theorem newValue_wellFormed (expiration now : Timestamp) :
    newValue expiration now ≠ ⟨0, 0⟩ ∧ 0 ≤ (newValue expiration now).tv_nsec ∧
      (newValue expiration now).tv_nsec < 10 ^ 9 := by
  have hmin : 100 ≤ max 100 (expiration - now) := le_max_left _ _
  refine ⟨fun h => ?_, ?_, ?_⟩
  · simp only [newValue, kMicroSecondsPerSecond, Timespec.mk.injEq] at h
    omega
  · simp only [newValue, kMicroSecondsPerSecond]
    omega
  · simp only [newValue, kMicroSecondsPerSecond]
    omega

/-- Setting the timerfd arms it. -/
theorem newValue_settime (expiration now : Timestamp) :
    (newValue expiration now).settime now = some (max expiration (now + 100) * 1000) := by
  rw [Timespec.settime, if_neg (newValue_wellFormed expiration now).1]
  simp only [newValue, kMicroSecondsPerSecond, Option.some.injEq]
  omega

/-- Every itimerspec written is `newValue` of some expiration. -/
theorem written_eq {s : TimerQueue} {l : TimerStep} {ts : Timespec} (h : s.written l = some ts) :
    ∃ expiration, ts = newValue expiration s.now := by
  cases l with
  | addTimerInLoop p timer =>
    simp only [written, Option.ite_none_right_eq_some, Option.some.injEq] at h
    exact ⟨_, h.2.symm⟩
  | resetTimerfd =>
    obtain ⟨timer, -, rfl⟩ := Option.map_eq_some_iff.mp h
    exact ⟨_, rfl⟩
  | _ => cases h

/-! ### What it is armed for -/

/-- The timerfd, last set at `last`, does not expire later than 100 microseconds after that, or
than any of the timers. -/
def Armed (s : TimerQueue) (last : Option Timestamp) : Prop :=
  ∃ x a, s.timerfd = some x ∧ last = some a ∧ ∀ e ∈ s.timers, x ≤ max e.first (a + 100) * 1000

/-- Set for the expiration of an entry that none is before. -/
theorem armed_of_settime {s : TimerQueue} {expiration now : Timestamp}
    (hfd : s.timerfd = (newValue expiration now).settime now)
    (hle : ∀ e ∈ s.timers, expiration ≤ e.first) : s.Armed (some now) := by
  refine ⟨_, now, hfd.trans (newValue_settime _ _), rfl, fun e he => ?_⟩
  exact Int.mul_le_mul_of_nonneg_right (max_le_max_right _ (hle e he)) (by decide)

/-- Setting the timerfd for the first entry is setting it for all. -/
theorem first_le {s : TimerQueue} {e : Entry} (hf : s.timers.first? = some e) :
    ∀ x ∈ s.timers, e.first ≤ x.first := by
  intro x hx
  rcases (SortedSet.first?_le hf hx).eq_or_lt with rfl | hlt
  · exact le_refl _
  · exact (Entry.lt_iff.mp hlt).elim le_of_lt fun h => h.1.le

/-- A timer that becomes the earliest has the timerfd set for it. -/
theorem addTimerInLoop_armed {s : TimerQueue} {p : Address} {timer : Timer}
    {last : Option Timestamp} (h : ∀ e ∈ s.timers, s.Armed last) :
    (s.addTimerInLoop p timer).Armed (if (s.insert p timer).1 then some s.now else last) := by
  unfold addTimerInLoop
  cases hf : s.timers.first? with
  | none =>
    -- it is the only entry
    have hnil : ∀ e, e ∉ s.timers := SortedSet.first?_eq_none.mp hf
    simp only [insert, hf]
    refine armed_of_settime rfl fun e he => ?_
    rcases SortedSet.mem_insert.mp he with rfl | he
    · exact le_refl _
    · exact absurd he (hnil e)
  | some f =>
    have hle := first_le hf
    by_cases hlt : timer.expiration < f.first
    · simp only [insert, hf, hlt, decide_true]
      refine armed_of_settime rfl fun e he => ?_
      rcases SortedSet.mem_insert.mp he with rfl | he
      · exact le_refl _
      · exact hlt.le.trans (hle e he)
    · -- the timerfd is armed for an entry that stays the earliest
      simp only [insert, hf, hlt, decide_false]
      obtain ⟨x, a, hfd, hlast, harm⟩ := h f (SortedSet.first?_mem hf)
      refine ⟨x, a, hfd, hlast, fun e he => ?_⟩
      rcases SortedSet.mem_insert.mp he with rfl | he
      · have hmax : max f.first (a + 100) ≤ max timer.expiration (a + 100) :=
          max_le_max_right _ (not_lt.mp hlt)
        exact (harm f (SortedSet.first?_mem hf)).trans
          (Int.mul_le_mul_of_nonneg_right hmax (by decide))
      · exact harm e he

/-- Outside of `handleRead` the timerfd stays armed; `handleRead` sets it again before it
returns. -/
theorem Step.armed {s t : TimerQueue} {l : TimerStep} {last : Option Timestamp}
    (ho : Owned s.heap s.timers s.phase.batch) (hs : Step s l t)
    (h : s.phase = .idle → ∀ e ∈ s.timers, s.Armed last) :
    t.phase = .idle → ∀ e ∈ t.timers,
      t.Armed (if (s.written l).isSome then some s.now else last) := by
  intro hidle
  cases hs with
  | tick => exact h hidle
  | addTimerInLoop p timer =>
    have hw : (s.written (.addTimerInLoop p timer)).isSome = (s.insert p timer).1 := by
      cases hins : (s.insert p timer).1 <;> simp [written, hins]
    rw [hw]
    intro _ _
    exact addTimerInLoop_armed (s := { s.setTimer p (some timer) with handed := s.handed + 1 })
      (h (by simpa [setTimer] using hidle))
  | @resetTimerfd e timer hph hf ht =>
    -- the batch is dealt with, and the first entry tells its timer's expiration
    have hexp : timer.expiration = e.first := ho.expiration (.inl (SortedSet.first?_mem hf)) ht
    intro _ _
    have hw : s.written .resetTimerfd = some (newValue timer.expiration s.now) := by
      simp [written, hf, ht]
    rw [hw]
    exact armed_of_settime rfl (hexp ▸ first_le hf)
  | resetDone hph hf =>
    intro e he
    exact absurd he (SortedSet.first?_eq_none.mp hf e)
  | handleRead => simp at hidle
  | _ => cases hidle

/-- So it is after every run. -/
theorem run_armed {s t : TimerQueue} {tr : List (TimerQueue × TimerStep)}
    (h₀ : timerMachine.init s) (hr : timerMachine.Run s tr t) :
    t.phase = .idle → ∀ e ∈ t.timers, t.Armed (lastSet tr) := by
  induction hr with
  | nil =>
    obtain ⟨now, rfl⟩ := h₀
    intro _ e he
    exact absurd he (SortedSet.not_mem_empty e)
  | snoc hr hs ih =>
    rw [lastSet_snoc]
    exact Step.armed (reachable_owned ⟨s, _, h₀, hr⟩) hs ih

end TimerQueue

/-- **The timerfd is always armed for the earliest timer.**  In a run, outside `addTimerInLoop` and
`handleRead`, when `_timers` is not empty the timerfd is armed, and, unless it has expired unread,
for no later than the larger of the expiration of any timer, so of the earliest, and 100
microseconds after it was last set.  Every itimerspec the run has written is well formed and armed
the timerfd. -/
theorem timerfd_armed {s t : TimerQueue} {tr : List (TimerQueue × TimerStep)}
    (h₀ : timerMachine.init s) (hr : timerMachine.Run s tr t) :
    (t.phase = .idle → ∀ e ∈ t.timers, ∃ x a, t.timerfd = some x ∧
      TimerQueue.lastSet tr = some a ∧
      (x ≤ t.now * 1000 ∨ x ≤ max e.first (a + 100) * 1000)) ∧
    (∀ p ∈ tr, ∀ ts, p.1.written p.2 = some ts →
      ts ≠ ⟨0, 0⟩ ∧ 0 ≤ ts.tv_nsec ∧ ts.tv_nsec < 10 ^ 9 ∧ (ts.settime p.1.now).isSome) := by
  constructor
  · intro hidle e he
    obtain ⟨x, a, hfd, hlast, harm⟩ := TimerQueue.run_armed h₀ hr hidle e he
    exact ⟨x, a, hfd, hlast, .inr (harm e he)⟩
  · intro p _ ts hts
    obtain ⟨expiration, rfl⟩ := TimerQueue.written_eq hts
    obtain ⟨hne, hnonneg, hlt⟩ := TimerQueue.newValue_wellFormed expiration p.1.now
    exact ⟨hne, hnonneg, hlt, by simp [TimerQueue.newValue_settime]⟩

/-- The theorem at a timer for time 5000, added at time 0, with the clock at 7. -/
theorem timerfd_armed_oneShot : ∃ s t tr, timerMachine.Run s tr t ∧ t.now = 7 ∧
    t.timerfd = some 5000000 ∧
    (t.phase = .idle → ∀ e ∈ t.timers, ∃ x a, t.timerfd = some x ∧
      TimerQueue.lastSet tr = some a ∧
      (x ≤ t.now * 1000 ∨ x ≤ max e.first (a + 100) * 1000)) := by
  let timer : Timer := ⟨5000, ⟨false, 0, nofun⟩, 0⟩
  have hr := Machine.Run.nil (M := timerMachine) (s := .new 0)
    |>.snoc (.addTimerInLoop 8 timer (.inl rfl) rfl (by decide) rfl)
    |>.snoc (.tick 7 (by decide))
  exact ⟨_, _, _, hr, rfl, rfl, (timerfd_armed ⟨0, rfl⟩ hr).1⟩

end Reactor.Timers
