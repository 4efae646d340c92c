import Mathlib.Algebra.Group.Int.Defs
import Mathlib.Algebra.Group.Nat.Defs
import Mathlib.Data.Prod.Lex
import Mathlib.Logic.Function.Basic
import Reactor.Lib.Runs
import Reactor.Lib.SortedSet

/-!
# Timer — TimerQueue

`TimerQueue` on its loop thread, as a machine with a clock.  `handleRead` is taken apart into the
steps between which the clock can move: taking out the expired entries, each callback, in which
client code may add timers, and each round of the loop in `reset`.

The heap holds the timers that have been passed to `addTimerInLoop` and not been deleted; a new
timer may get the address of a deleted one, so each carries a serial number.  The serial numbers
and `runs`, the callbacks run so far, are history.
-/

namespace Reactor.Timers
open Reactor.Lib

/-- Microseconds since the epoch. -/
abbrev Timestamp := Int

/-- `Timestamp::kMicroSecondsPerSecond` -/
def kMicroSecondsPerSecond : Int := 1000 * 1000

/-- A `double` number of seconds, as far as the code looks at it. -/
structure Interval where
  /-- `interval > 0.0` -/
  positive : Bool
  /-- `static_cast<int64_t>(interval * Timestamp::kMicroSecondsPerSecond)` -/
  micros : Int
  micros_nonneg : positive = true → 0 ≤ micros
  deriving DecidableEq

/-- `addTime`; the seconds are given as the microseconds they are converted to. -/
def addTime (timestamp : Timestamp) (seconds : Interval) : Timestamp :=
  timestamp + seconds.micros

/-- `Timer`, without its callback; it is known by its serial number. -/
structure Timer where
  expiration : Timestamp
  interval : Interval
  serial : Nat
  deriving DecidableEq

namespace Timer

/-- `_repeat` -/
def repeats (t : Timer) : Bool := t.interval.positive

/-- `restart(now)`: the next expiration, or none. -/
def restart (t : Timer) (now : Timestamp) : Timer :=
  if t.repeats then { t with expiration := addTime now t.interval } else { t with expiration := 0 }

@[simp] theorem restart_serial (t : Timer) (now : Timestamp) :
    (t.restart now).serial = t.serial := by
  unfold restart; split <;> rfl

@[simp] theorem restart_interval (t : Timer) (now : Timestamp) :
    (t.restart now).interval = t.interval := by
  unfold restart; split <;> rfl

@[simp] theorem restart_repeats (t : Timer) (now : Timestamp) :
    (t.restart now).repeats = t.repeats := by
  simp [repeats]

/-- A repeating timer expires an interval from now. -/
theorem restart_expiration {t : Timer} (h : t.repeats = true) (now : Timestamp) :
    (t.restart now).expiration = addTime now t.interval := by
  simp [restart, h]

end Timer

/-- A pointer to a timer. -/
abbrev Address := Nat

/-- The address of the sentry of `getExpired`, above that of any timer. -/
def UINTPTR_MAX : Address := 2 ^ 64 - 1

/-- `TimerQueue::Entry`, a pair ordered by its components. -/
structure Entry where
  first : Timestamp
  second : Address
  deriving DecidableEq

/-- The order of `std::pair`. -/
instance : LinearOrder Entry :=
  LinearOrder.lift' (fun e => toLex (e.first, e.second)) fun e e' h => by
    cases e; cases e'; simpa using h

/-- Entries are ordered by their times, and by the addresses where these are equal. -/
theorem Entry.lt_iff {e e' : Entry} :
    e < e' ↔ e.first < e'.first ∨ e.first = e'.first ∧ e.second < e'.second :=
  Prod.Lex.toLex_lt_toLex

/-- A `timespec`; here `it_value` of what is given to `timerfd_settime`. -/
structure Timespec where
  tv_sec : Int
  tv_nsec : Int
  deriving DecidableEq

/-- `timerfd_settime` with this `it_value` at time `now`: when the timerfd is to expire, in
nanoseconds; a zero value disarms it. -/
def Timespec.settime (ts : Timespec) (now : Timestamp) : Option Int :=
  if ts = ⟨0, 0⟩ then none else some (now * 1000 + ts.tv_sec * 10 ^ 9 + ts.tv_nsec)

/-- The callback of `timer`, called for `entry` at `time`. -/
structure TimerRun where
  entry : Entry
  timer : Timer
  time : Timestamp

/-- Where the loop thread is. -/
inductive Phase where
  | idle
  /-- In the loop of `handleRead` over `expired`, at the first of those left. -/
  | run (expired left : List Entry)
  /-- In that loop, inside a callback. -/
  | callback (expired left : List Entry)
  /-- In the loop of `reset`, at the first of those left. -/
  | reset (left : List Entry)
  deriving DecidableEq

/-- The queue, its timerfd, the timers in memory, and where `handleRead` is. -/
structure TimerQueue where
  /-- The clock `Timestamp::now` reads. -/
  now : Timestamp
  heap : Address → Option Timer
  /-- `_timers` -/
  timers : SortedSet Entry
  /-- When `_timerfd` expires, or has expired unread, if it is armed; in nanoseconds. -/
  timerfd : Option Int
  phase : Phase
  handed : Nat
  runs : List TimerRun

namespace TimerQueue

/-- The constructor, at time `now`. -/
def new (now : Timestamp) : TimerQueue where
  now := now
  heap := fun _ => none
  timers := .empty
  timerfd := none
  phase := .idle
  handed := 0
  runs := []

/-- The value `resetTimerfd` computes. -/
def newValue (expiration now : Timestamp) : Timespec :=
  let microSecond := max 100 (expiration - now)
  ⟨microSecond / kMicroSecondsPerSecond, microSecond % kMicroSecondsPerSecond * 1000⟩

/-- `resetTimerfd(timerfd, expiration)` -/
def resetTimerfd (s : TimerQueue) (expiration : Timestamp) : TimerQueue :=
  { s with timerfd := (newValue expiration s.now).settime s.now }

/-- The read of a timerfd that has not expired fails with `EAGAIN`. -/
def readTimerfd (s : TimerQueue) : TimerQueue :=
  match s.timerfd with
  | some t => if t ≤ s.now * 1000 then { s with timerfd := none } else s
  | none => s

/-- `earliestChanged`, and the queue with the timer in. -/
def insert (s : TimerQueue) (p : Address) (timer : Timer) : Bool × TimerQueue :=
  let earliestChanged :=
    match s.timers.first? with
    | none => true
    | some e => decide (timer.expiration < e.first)
  (earliestChanged, { s with timers := s.timers.insert ⟨timer.expiration, p⟩ })

/-- `addTimerInLoop(timer)`: the timerfd is set if the timer is the earliest. -/
def addTimerInLoop (s : TimerQueue) (p : Address) (timer : Timer) : TimerQueue :=
  match s.insert p timer with
  | (true, s) => s.resetTimerfd timer.expiration
  | (false, s) => s

/-- `getExpired(now)`: the entries below the sentry, which are erased. -/
def getExpired (s : TimerQueue) (now : Timestamp) : List Entry × TimerQueue :=
  let sentry : Entry := ⟨now, UINTPTR_MAX⟩
  (s.timers.below sentry, { s with timers := s.timers.eraseBelow sentry })

/-- `handleRead` up to its loop. -/
def handleRead (s : TimerQueue) : TimerQueue :=
  match s.readTimerfd.getExpired s.now with
  | (expired, s) => { s with phase := .run expired expired }

/-- What is at an address of the heap changes. -/
def setTimer (s : TimerQueue) (p : Address) (timer : Option Timer) : TimerQueue :=
  { s with heap := Function.update s.heap p timer }

/-- Client code runs in the loop thread. -/
def InClientCode (s : TimerQueue) : Prop :=
  s.phase = .idle ∨ ∃ expired left, s.phase = .callback expired left

end TimerQueue

/-- The clock, `addTimerInLoop`, and `handleRead` cut where callbacks are called and timers
changed. -/
inductive TimerStep where
  | tick (now : Timestamp)
  | addTimerInLoop (p : Address) (timer : Timer)
  | handleRead
  | run
  | callbackReturn
  | startReset
  | restart
  | delete
  | resetTimerfd
  | resetDone
  deriving DecidableEq

namespace TimerQueue

/-- The steps of the loop's thread, and the clock, which does not go back. -/
inductive Step : TimerQueue → TimerStep → TimerQueue → Prop where
  | tick {s} (now : Timestamp) (h : s.now ≤ now) : Step s (.tick now) { s with now := now }
  /-- A timer made by `addTimer`, at an address no other timer has. -/
  | addTimerInLoop {s} (p : Address) (timer : Timer) (hc : s.InClientCode)
      (hp : s.heap p = none) (hmax : p < UINTPTR_MAX) (hserial : timer.serial = s.handed) :
      Step s (.addTimerInLoop p timer)
        ({ s.setTimer p (some timer) with handed := s.handed + 1 }.addTimerInLoop p timer)
  | handleRead {s} (hph : s.phase = .idle) : Step s .handleRead s.handleRead
  | run {s} {expired left : List Entry} {e : Entry} {timer : Timer}
      (hph : s.phase = .run expired (e :: left)) (ht : s.heap e.second = some timer) :
      Step s .run
        { s with runs := s.runs ++ [⟨e, timer, s.now⟩], phase := .callback expired left }
  | callbackReturn {s} {expired left : List Entry} (hph : s.phase = .callback expired left) :
      Step s .callbackReturn { s with phase := .run expired left }
  | startReset {s} {expired : List Entry} (hph : s.phase = .run expired []) :
      Step s .startReset { s with phase := .reset expired }
  | restart {s} {left : List Entry} {e : Entry} {timer : Timer}
      (hph : s.phase = .reset (e :: left)) (ht : s.heap e.second = some timer)
      (hr : timer.repeats = true) :
      Step s .restart
        { ((s.setTimer e.second (timer.restart s.now)).insert e.second (timer.restart s.now)).2 with
          phase := .reset left }
  | delete {s} {left : List Entry} {e : Entry} {timer : Timer}
      (hph : s.phase = .reset (e :: left)) (ht : s.heap e.second = some timer)
      (hr : timer.repeats = false) :
      Step s .delete { s.setTimer e.second none with phase := .reset left }
  | resetTimerfd {s} {e : Entry} {timer : Timer} (hph : s.phase = .reset [])
      (hf : s.timers.first? = some e) (ht : s.heap e.second = some timer) :
      Step s .resetTimerfd { s.resetTimerfd timer.expiration with phase := .idle }
  | resetDone {s} (hph : s.phase = .reset []) (hf : s.timers.first? = none) :
      Step s .resetDone { s with phase := .idle }

/-! ### What the functions do to the fields that matter -/

@[simp] theorem addTimerInLoop_frame (s : TimerQueue) (p : Address) (timer : Timer) :
    (s.addTimerInLoop p timer).now = s.now ∧ (s.addTimerInLoop p timer).heap = s.heap ∧
      (s.addTimerInLoop p timer).timers = s.timers.insert ⟨timer.expiration, p⟩ ∧
      (s.addTimerInLoop p timer).phase = s.phase ∧
      (s.addTimerInLoop p timer).handed = s.handed ∧
      (s.addTimerInLoop p timer).runs = s.runs := by
  unfold addTimerInLoop
  cases h : (s.insert p timer).1 <;> simp_all [insert, resetTimerfd]

@[simp] theorem handleRead_frame (s : TimerQueue) :
    s.handleRead.now = s.now ∧ s.handleRead.heap = s.heap ∧
      s.handleRead.timers = s.timers.eraseBelow ⟨s.now, UINTPTR_MAX⟩ ∧
      s.handleRead.phase = .run (s.timers.below ⟨s.now, UINTPTR_MAX⟩)
        (s.timers.below ⟨s.now, UINTPTR_MAX⟩) ∧
      s.handleRead.handed = s.handed ∧ s.handleRead.runs = s.runs := by
  have hread : ∃ fd, s.readTimerfd = { s with timerfd := fd } := by
    unfold readTimerfd
    split
    · split
      · exact ⟨_, rfl⟩
      · exact ⟨s.timerfd, rfl⟩
    · exact ⟨s.timerfd, rfl⟩
  obtain ⟨fd, hread⟩ := hread
  simp [handleRead, getExpired, hread]

end TimerQueue

/-- An empty queue at any time, and all that can follow. -/
def timerMachine : Machine TimerQueue TimerStep where
  init s := ∃ now, s = .new now
  step := TimerQueue.Step

end Reactor.Timers
