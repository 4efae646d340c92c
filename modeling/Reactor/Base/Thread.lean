import Reactor.Lib.Runs

/-!
# Base — Thread

A `Thread` object, the thread that uses it and the thread it starts.  The new thread runs the lambda
of `start`, which reads and writes the object: it stores `_tid`, lets `start` go on, and then calls
`_func`, which is a member.  What the callable in `_func` has captured goes with the object; whether
it reads any of it once it has been entered is a parameter of the object (`reads`).

* `Sound`: the invariant.
* `Safe.step_iff`: what one step does to a safe object.
* `thread_safe_iff`: the runs in which nothing is done with an object that is gone, or through a
  null `_thread`.

`std::thread` may throw when there are no resources for a thread; `_started` is set by then.
-/

namespace Reactor.Base
open Reactor.Lib

/-- Where the new thread is. -/
inductive Child where
  | none
  /-- At `_tid = CurrentThread::tid()`. -/
  | created
  /-- At `sem_post`. -/
  | identified
  /-- At `_func()`. -/
  | posted
  | running
  | finished
  deriving DecidableEq, Repr

/-- Where the thread is that uses the object. -/
inductive Caller where
  | outside
  /-- In `start`, at `sem_wait`. -/
  | start
  /-- In `join`, in `std::thread::join`. -/
  | join
  deriving DecidableEq, Repr

/-- The object, the place of its thread, and that of the thread that uses it. -/
structure Thread where
  /-- Whether the callable in `_func` reads what it has captured for as long as it runs. -/
  reads : Bool
  /-- `_started` -/
  started : Bool
  /-- `_joined` -/
  joined : Bool
  /-- Whether `*_thread` is joinable, if `_thread` is not null. -/
  thread : Option Bool
  /-- `_tid` -/
  tid : Nat
  child : Child
  caller : Caller
  destroyed : Bool
  /-- The behaviour is undefined, or the program has been terminated. -/
  undefined : Bool
  deriving DecidableEq, Repr

namespace Thread

/-- The constructor, with a callable of either kind. -/
def new (reads : Bool) : Thread := ⟨reads, false, false, none, 0, .none, .outside, false, false⟩

/-- `start` up to `sem_wait`. -/
def start (s : Thread) : Thread :=
  { s with started := true, thread := some true, child := .created, caller := .start }

/-- `start`, where `std::thread` throws. -/
def startThrows (s : Thread) : Thread := { s with started := true }

/-- The new thread uses the object. -/
def touch (s : Thread) : Thread := { s with undefined := s.undefined || s.destroyed }

/-- `_tid = CurrentThread::tid()`, in the new thread. -/
def storeTid (s : Thread) (tid : Nat) : Thread := { s.touch with tid := tid, child := .identified }

/-- `_func()` up to the function. -/
def callFunc (s : Thread) : Thread := { s.touch with child := .running }

/-- The function returns; one that reads what it has captured has done so up to here. -/
def funcReturn (s : Thread) : Thread :=
  { if s.reads then s.touch else s with child := .finished }

/-- A call of a member of `*_thread`. -/
def withThread (s : Thread) (f : Thread → Thread) : Thread :=
  if s.thread.isSome then f s else { s with undefined := true }

/-- `join` up to `std::thread::join`. -/
def join (s : Thread) : Thread :=
  { s with joined := true }.withThread fun s => { s with caller := .join }

/-- `std::thread::join` returns. -/
def joinReturn (s : Thread) : Thread := { s with thread := some false, caller := .outside }

/-- `~Thread`; the `std::thread` goes with the object, and must not be joinable then. -/
def destroy (s : Thread) : Thread :=
  let s := if s.started && !s.joined then s.withThread fun s => { s with thread := some false }
    else s
  { s with destroyed := true, undefined := s.undefined || s.thread == some true }

end Thread

/-- The steps of the two threads; `start` and `join` are taken apart where they wait. -/
inductive ThreadStep where
  | start
  | startThrows
  | startReturn
  | storeTid (tid : Nat)
  | post
  | callFunc
  | funcReturn
  | join
  | joinReturn
  | destroy
  deriving DecidableEq

namespace Thread

/-- The steps.  The user keeps to the assertions, and uses no object it has destroyed; the new
thread looks at nothing. -/
inductive Step : Thread → ThreadStep → Thread → Prop where
  | start {s : Thread} (hd : s.destroyed = false) (hc : s.caller = .outside)
      (hs : s.started = false) : Step s .start s.start
  | startThrows {s : Thread} (hd : s.destroyed = false) (hc : s.caller = .outside)
      (hs : s.started = false) : Step s .startThrows s.startThrows
  /-- `sem_wait` returns. -/
  | startReturn {s : Thread} (hc : s.caller = .start) (hcreated : s.child ≠ .created)
      (hidentified : s.child ≠ .identified) : Step s .startReturn { s with caller := .outside }
  | storeTid {s : Thread} {tid : Nat} (htid : 0 < tid) (hchild : s.child = .created) :
      Step s (.storeTid tid) (s.storeTid tid)
  | post {s : Thread} (hchild : s.child = .identified) : Step s .post { s with child := .posted }
  | callFunc {s : Thread} (hchild : s.child = .posted) : Step s .callFunc s.callFunc
  | funcReturn {s : Thread} (hchild : s.child = .running) :
      Step s .funcReturn s.funcReturn
  | join {s : Thread} (hd : s.destroyed = false) (hc : s.caller = .outside)
      (hs : s.started = true) (hj : s.joined = false) : Step s .join s.join
  | joinReturn {s : Thread} (hc : s.caller = .join) (hchild : s.child = .finished) :
      Step s .joinReturn s.joinReturn
  | destroy {s : Thread} (hd : s.destroyed = false) (hc : s.caller = .outside) :
      Step s .destroy s.destroy

end Thread

/-- An object that has been constructed, and all that can follow. -/
def threadMachine : Machine Thread ThreadStep where
  init s := ∃ reads, s = .new reads
  step := Thread.Step

namespace Thread

variable {s t : Thread} {l : ThreadStep}

/-- What holds of an object whatever is done with it. -/
structure Sound (s : Thread) : Prop where
  none_iff : s.thread = none ↔ s.child = .none
  unstarted : s.started = false → s.thread = none ∧ s.joined = false
  /-- `start` waits for the first steps of the new thread. -/
  waits : s.child = .created ∨ s.child = .identified → s.caller = .start
  start : s.caller = .start → s.destroyed = false ∧ s.thread = some true ∧ s.joined = false
  join : s.caller = .join → s.destroyed = false ∧ s.thread = some true ∧ s.joined = true
  joined : s.joined = true → s.caller ≠ .join → s.undefined = false →
    s.thread = some false ∧ s.child = .finished
  joinable : s.joined = false → s.destroyed = false → s.thread ≠ some false
  tid : s.tid = 0 ↔ s.child = .none ∨ s.child = .created

/-- The new thread goes on. -/
theorem Sound.goesOn (h : s.Sound) (hfrom : s.child ≠ .none ∧ s.child ≠ .finished)
    (hto : t.child ≠ .none ∧ t.child ≠ .created)
    (hwaits : t.child = .identified → s.caller = .start)
    (hsame : t.started = s.started ∧ t.joined = s.joined ∧ t.thread = s.thread ∧
      t.caller = s.caller ∧ t.destroyed = s.destroyed)
    (hundefined : t.undefined = false → s.undefined = false) (htid : t.tid ≠ 0) : t.Sound := by
  obtain ⟨hstarted, hjoined, hthread, hcaller, hdestroyed⟩ := hsame
  constructor
  · rw [hthread, h.none_iff]
    exact iff_of_false hfrom.1 hto.1
  · rw [hstarted, hthread, hjoined]
    exact h.unstarted
  · rw [hcaller]
    exact fun hchild => hwaits (hchild.resolve_left hto.2)
  · rw [hcaller, hdestroyed, hthread, hjoined]
    exact h.start
  · rw [hcaller, hdestroyed, hthread, hjoined]
    exact h.join
  · rw [hjoined, hcaller]
    exact fun hj hc hu => absurd (h.joined hj hc (hundefined hu)).2 hfrom.2
  · rw [hjoined, hdestroyed, hthread]
    exact h.joinable
  · exact iff_of_false htid (not_or.mpr hto)

/-- It has stored `_tid` when it gets so far. -/
theorem Sound.tid_ne (h : s.Sound) (hchild : s.child ≠ .none ∧ s.child ≠ .created) : s.tid ≠ 0 :=
  fun htid => not_or.mpr hchild (h.tid.mp htid)

/-- A call through `_thread` is made, or the pointer is null. -/
theorem withThread_cases (s : Thread) (f : Thread → Thread) :
    s.thread ≠ none ∧ s.withThread f = f s ∨
      s.thread = none ∧ s.withThread f = { s with undefined := true } := by
  cases hthread : s.thread with
  | none => exact .inr ⟨rfl, by simp [withThread, hthread]⟩
  | some joinable => exact .inl ⟨by simp, by simp [withThread, hthread]⟩

/-- `join` waits for the thread, if there is one. -/
theorem Sound.join_cases (h : s.Sound) (hd : s.destroyed = false) (hj : s.joined = false) :
    s.thread = some true ∧ s.join = { s with joined := true, caller := .join } ∨
      s.thread = none ∧ s.join = { s with joined := true, undefined := true } := by
  rcases { s with joined := true }.withThread_cases fun s => { s with caller := .join } with
    ⟨hne, heq⟩ | ⟨hnone, heq⟩
  · obtain ⟨joinable, hthread⟩ := Option.ne_none_iff_exists'.mp hne
    cases joinable with
    | false => exact absurd hthread (h.joinable hj hd)
    | true => exact .inl ⟨hthread, heq⟩
  · exact .inr ⟨hnone, heq⟩

/-- `~Thread` gives the thread up that is not joined. -/
theorem destroy_cases (s : Thread) :
    (s.started = true ∧ s.joined = false ∧ s.thread ≠ none ∧
        s.destroy = { s with thread := some false, destroyed := true }) ∨
      (s.started = true ∧ s.joined = false ∧ s.thread = none ∧
        s.destroy = { s with undefined := true, destroyed := true }) ∨
      ((s.started = true → s.joined = true) ∧
        s.destroy = { s with
          destroyed := true, undefined := s.undefined || s.thread == some true }) := by
  by_cases hcond : s.started = true ∧ s.joined = false
  · obtain ⟨hstarted, hjoined⟩ := hcond
    rcases s.withThread_cases fun s => { s with thread := some false } with
      ⟨hne, heq⟩ | ⟨hnone, heq⟩
    · exact .inl ⟨hstarted, hjoined, hne, by simp [destroy, hstarted, hjoined, heq]⟩
    · exact .inr (.inl ⟨hstarted, hjoined, hnone, by simp [destroy, hstarted, hjoined, heq]⟩)
  · have hjoined : s.started = true → s.joined = true := by
      intro hstarted
      simpa using not_and.mp hcond hstarted
    refine .inr (.inr ⟨hjoined, ?_⟩)
    have hcond' : (s.started && !s.joined) = false := by
      cases hs : s.started
      · rfl
      · simp [hjoined hs]
    simp [destroy, hcond']

/-- The return of the function changes nothing but where the new thread is, and what may be
undefined. -/
theorem funcReturn_same (s : Thread) : s.funcReturn.child = .finished ∧
    s.funcReturn.tid = s.tid ∧
    (s.funcReturn.started = s.started ∧ s.funcReturn.joined = s.joined ∧
      s.funcReturn.thread = s.thread ∧ s.funcReturn.caller = s.caller ∧
      s.funcReturn.destroyed = s.destroyed) ∧
    (s.funcReturn.undefined = false → s.undefined = false) := by
  cases hreads : s.reads with
  | false => simp [funcReturn, hreads]
  | true => exact ⟨by simp [funcReturn], by simp [funcReturn, hreads, touch],
      by simp [funcReturn, hreads, touch], fun hu => by simp_all [funcReturn, touch]⟩

/-- Every step keeps the invariant, undefined or not. -/
theorem Sound.step (h : s.Sound) (hs : Step s l t) : t.Sound := by
  cases hs with
  | start hd hc hs =>
    obtain ⟨hthread, hj⟩ := h.unstarted hs
    have htid : s.tid = 0 := h.tid.mpr (.inl (h.none_iff.mp hthread))
    exact ⟨iff_of_false nofun nofun, nofun, fun _ => rfl, fun _ => ⟨hd, rfl, hj⟩, nofun,
      fun hj' => absurd (hj.symm.trans hj') nofun, fun _ _ => nofun, iff_of_true htid (.inr rfl)⟩
  | startThrows hd hc hs =>
    exact ⟨h.none_iff, nofun, h.waits, h.start, h.join, h.joined, h.joinable, h.tid⟩
  | startReturn hc hcreated hidentified =>
    obtain ⟨-, -, hj⟩ := h.start hc
    exact ⟨h.none_iff, h.unstarted, fun hchild => (hchild.elim hcreated hidentified).elim, nofun,
      nofun, fun hj' => absurd (hj.symm.trans hj') nofun, h.joinable, h.tid⟩
  | storeTid htid hchild =>
    exact h.goesOn (by simp [hchild]) ⟨nofun, nofun⟩ (fun _ => h.waits (.inl hchild))
      ⟨rfl, rfl, rfl, rfl, rfl⟩ (fun hu => (Bool.or_eq_false_iff.mp hu).1) (Nat.ne_of_gt htid)
  | post hchild =>
    exact h.goesOn (by simp [hchild]) ⟨nofun, nofun⟩ nofun ⟨rfl, rfl, rfl, rfl, rfl⟩ id
      (h.tid_ne (by simp [hchild]))
  | callFunc hchild =>
    exact h.goesOn (by simp [hchild]) ⟨nofun, nofun⟩ nofun ⟨rfl, rfl, rfl, rfl, rfl⟩
      (fun hu => (Bool.or_eq_false_iff.mp hu).1) (h.tid_ne (by simp [hchild]))
  | funcReturn hchild =>
    have hsame := s.funcReturn_same
    exact h.goesOn (by simp [hchild]) ⟨by simp [hsame.1], by simp [hsame.1]⟩ (by simp [hsame.1])
      hsame.2.2.1 hsame.2.2.2 (hsame.2.1 ▸ h.tid_ne (by simp [hchild]))
  | join hd hc hs hj =>
    have hwaits : ¬ (s.child = .created ∨ s.child = .identified) := fun hchild =>
      absurd (hc.symm.trans (h.waits hchild)) nofun
    rcases h.join_cases hd hj with ⟨hthread, heq⟩ | ⟨hnone, heq⟩ <;> rw [heq]
    · exact ⟨h.none_iff, fun hs' => absurd (hs.symm.trans hs') nofun,
        fun hchild => (hwaits hchild).elim, nofun, fun _ => ⟨hd, hthread, rfl⟩,
        fun _ hc' => absurd rfl hc', nofun, h.tid⟩
    · exact ⟨h.none_iff, fun hs' => absurd (hs.symm.trans hs') nofun,
        fun hchild => (hwaits hchild).elim, fun hc' => absurd (hc.symm.trans hc') nofun,
        fun hc' => absurd (hc.symm.trans hc') nofun, nofun, nofun, h.tid⟩
  | joinReturn hc hchild =>
    obtain ⟨hd, hthread, hj⟩ := h.join hc
    exact ⟨iff_of_false nofun (by simp [joinReturn, hchild]),
      fun hs => absurd (hthread.symm.trans (h.unstarted hs).1) nofun,
      fun hchild' => by simp [joinReturn, hchild] at hchild', nofun, nofun,
      fun _ _ _ => ⟨rfl, hchild⟩, fun hj' => absurd (hj.symm.trans hj') nofun, h.tid⟩
  | destroy hd hc =>
    have hstart : ¬ s.caller = .start := by simp [hc]
    have hjoin : ¬ s.caller = .join := by simp [hc]
    rcases s.destroy_cases with ⟨hs, hj, hne, heq⟩ | ⟨hs, hj, hnone, heq⟩ | ⟨hj, heq⟩ <;> rw [heq]
    · refine ⟨iff_of_false nofun fun hchild => hne (h.none_iff.mpr hchild),
        fun hs' => absurd (hs.symm.trans hs') nofun, h.waits, fun hc' => (hstart hc').elim,
        fun hc' => (hjoin hc').elim, fun hj' => absurd (hj.symm.trans hj') nofun, nofun, h.tid⟩
    · exact ⟨h.none_iff, h.unstarted, h.waits, fun hc' => (hstart hc').elim,
        fun hc' => (hjoin hc').elim, nofun, nofun, h.tid⟩
    · exact ⟨h.none_iff, h.unstarted, h.waits, fun hc' => (hstart hc').elim,
        fun hc' => (hjoin hc').elim,
        fun hj' hc' hu => h.joined hj' hc' (Bool.or_eq_false_iff.mp hu).1, nofun, h.tid⟩

/-- The destructor changes nothing of where the two threads are. -/
theorem destroy_same (s : Thread) : s.destroy.child = s.child ∧ s.destroy.caller = s.caller ∧
    s.destroy.destroyed = true := by
  rcases s.destroy_cases with ⟨-, -, -, heq⟩ | ⟨-, -, -, heq⟩ | ⟨-, heq⟩ <;> rw [heq] <;>
    exact ⟨rfl, rfl, rfl⟩

/-- The steps of the new thread, but for what they do to the object, change nothing but where it
is. -/
theorem Step.frame (hs : Step s l t)
    (hl : l = .post ∨ (∃ tid, l = .storeTid tid) ∨ l = .callFunc ∨ l = .funcReturn) :
    t.reads = s.reads ∧ t.started = s.started ∧ t.joined = s.joined ∧ t.thread = s.thread ∧
      t.caller = s.caller ∧ t.destroyed = s.destroyed := by
  cases hs with
  | storeTid | post | callFunc => exact ⟨rfl, rfl, rfl, rfl, rfl, rfl⟩
  | funcReturn => exact ⟨by rw [Thread.funcReturn]; split <;> rfl, s.funcReturn_same.2.2.1⟩
  | _ => simp at hl

theorem sound_new (reads : Bool) : (new reads).Sound :=
  ⟨by simp [new], fun _ => ⟨rfl, rfl⟩, nofun, nofun, nofun, nofun, nofun, by simp [new]⟩

/-! ### Safe objects -/

/-- The new thread uses the object no more: it has called `_func`, and this has returned if the
callable reads what it has captured. -/
def Done (s : Thread) : Prop :=
  s.child ≠ .posted ∧ (s.reads = true → s.child ≠ .running)

/-- Nothing undefined has happened, and nothing is bound to: the new thread will use an object that
is gone if it has not done with it before. -/
def Safe (s : Thread) : Prop :=
  s.undefined = false ∧ (s.destroyed = true → s.Done)

/-- A started thread is there to be joined; and it is there to be given up, and has done with the
object, if this is destroyed without a `join`. -/
def Careful (s : Thread) : ThreadStep → Prop
  | .join => s.thread ≠ none
  | .destroy => s.started = true → s.joined = false → s.thread ≠ none ∧ s.Done
  | _ => True

/-- A step from a safe state leads to one if and only if it is a careful one. -/
theorem Safe.step_iff (h : s.Sound) (hsafe : s.Safe) (hs : Step s l t) : t.Safe ↔ s.Careful l := by
  have halive : ∀ {t : Thread}, t.undefined = false → t.destroyed = false → t.Safe :=
    fun hu hd => ⟨hu, fun hd' => absurd (hd.symm.trans hd') nofun⟩
  cases hs with
  | start hd hc hs => exact iff_of_true (halive hsafe.1 hd) trivial
  | startThrows hd hc hs => exact iff_of_true (halive hsafe.1 hd) trivial
  | startReturn hc => exact iff_of_true (halive hsafe.1 (h.start hc).1) trivial
  | storeTid htid hchild =>
    have hd := (h.start (h.waits (.inl hchild))).1
    exact iff_of_true (halive (by simp [storeTid, touch, hsafe.1, hd]) hd) trivial
  | post hchild => exact iff_of_true (halive hsafe.1 (h.start (h.waits (.inr hchild))).1) trivial
  | callFunc hchild =>
    have hd : s.destroyed = false := by
      by_contra hne
      exact (hsafe.2 (by simpa using hne)).1 hchild
    exact iff_of_true (halive (by simp [callFunc, touch, hsafe.1, hd]) hd) trivial
  | funcReturn hchild =>
    have hchild' := s.funcReturn_same.1
    refine iff_of_true ⟨?_, fun _ => ⟨by simp [hchild'], by simp [hchild']⟩⟩ trivial
    cases hreads : s.reads with
    | false => simpa [funcReturn, hreads] using hsafe.1
    | true =>
      -- a callable that reads has kept the object from going
      have hd : s.destroyed = false := by
        by_contra hne
        exact (hsafe.2 (by simpa using hne)).2 hreads hchild
      simp [funcReturn, hreads, touch, hsafe.1, hd]
  | join hd hc hs hj =>
    rcases h.join_cases hd hj with ⟨hthread, heq⟩ | ⟨hnone, heq⟩ <;> rw [heq]
    · exact iff_of_true (halive hsafe.1 hd) (by simp [Careful, hthread])
    · exact iff_of_false (fun hsafe' => nomatch hsafe'.1) (not_not.mpr hnone)
  | joinReturn hc hchild => exact iff_of_true (halive hsafe.1 (h.join hc).1) trivial
  | destroy hd hc =>
    rcases s.destroy_cases with ⟨hs, hj, hne, heq⟩ | ⟨hs, hj, hnone, heq⟩ | ⟨hj, heq⟩ <;> rw [heq]
    · exact ⟨fun hsafe' _ _ => ⟨hne, hsafe'.2 rfl⟩,
        fun hcareful => ⟨hsafe.1, fun _ => (hcareful hs hj).2⟩⟩
    · exact iff_of_false (fun hsafe' => nomatch hsafe'.1) fun hcareful => (hcareful hs hj).1 hnone
    · refine iff_of_true ?_ fun hs hj' => absurd ((hj hs).symm.trans hj') nofun
      have hgone : s.thread ≠ some true ∧ s.Done := by
        cases hs : s.started with
        | false =>
          have hnone := (h.unstarted hs).1
          exact ⟨by simp [hnone], by simp [Done, h.none_iff.mp hnone]⟩
        | true =>
          obtain ⟨hthread, hchild⟩ := h.joined (hj hs) (by simp [hc]) hsafe.1
          exact ⟨by simp [hthread], by simp [Done, hchild]⟩
      exact ⟨by simp [hsafe.1, hgone.1], fun _ => hgone.2⟩

end Thread

/-- **When a thread object is used safely.**  In every run, however the two threads are interleaved
and whether or not the callable reads what it has captured: nothing undefined happens or is bound to
happen if and only if `join` is called only where `start` has made a thread, and an object that was
started and not joined is destroyed only where `start` has made a thread and this has called `_func`
or, if the callable reads what it has captured, has come back from it.  In every run, once `start`
has returned `tid()` is set, and once `join` has returned the function has. -/
theorem thread_safe_iff {s t : Thread} {tr : List (Thread × ThreadStep)}
    (hinit : threadMachine.init s) (h : threadMachine.Run s tr t) :
    (Meets (fun u _ => u.Safe) tr ∧ t.Safe ↔ Meets Thread.Careful tr) ∧
      (t.caller = .outside → (t.thread ≠ none → t.tid ≠ 0) ∧
        (t.joined = true → t.undefined = false → t.child = .finished)) := by
  obtain ⟨reads, rfl⟩ := hinit
  constructor
  · exact h.holds_iff (I := Thread.Sound) (D := fun _ _ => True) (fun hi _ hs => hi.step hs)
      (fun hi _ hsafe hs => hsafe.step_iff hi hs) (fun _ _ => trivial)
      (Thread.sound_new reads) ⟨rfl, nofun⟩
  · have ht : t.Sound := h.keeps (C := fun _ _ => True) (fun hi _ hs => hi.step hs)
      (fun _ _ => trivial) (Thread.sound_new reads)
    intro hc
    refine ⟨fun hthread => ht.tid_ne ⟨fun hchild => hthread (ht.none_iff.mpr hchild), ?_⟩,
      fun hj hu => (ht.joined hj (by simp [hc]) hu).2⟩
    intro hchild
    exact absurd (hc.symm.trans (ht.waits (.inl hchild))) nofun

/-- A thread that is started, calls its function, and is given up before this returns. -/
theorem Thread.run_detached (reads : Bool) : ∃ (t : Thread) (tr : List (Thread × ThreadStep)),
    threadMachine.Run (.new reads) tr t ∧ t.destroyed = true ∧ t.child = .running ∧
      (Meets Thread.Careful tr ↔ reads = false) := by
  have hr := Machine.Run.nil (M := threadMachine) (s := .new reads)
    |>.snoc (.start rfl rfl rfl)
    |>.snoc (.storeTid (by decide : 0 < 7) rfl)
    |>.snoc (.post rfl)
    |>.snoc (.startReturn rfl (by rintro ⟨⟩) (by rintro ⟨⟩))
    |>.snoc (.callFunc rfl)
    |>.snoc (.destroy rfl rfl)
  refine ⟨_, _, hr, rfl, rfl, ?_⟩
  simp only [meets_snoc, meets_nil, Thread.Careful, true_and]
  cases reads with
  | false => exact iff_of_true (fun _ _ => ⟨by rintro ⟨⟩, by rintro ⟨⟩, by rintro ⟨⟩⟩) rfl
  | true => exact iff_of_false (fun hdone => (hdone rfl rfl).2.2 rfl rfl) (by rintro ⟨⟩)

/-- The theorem for a thread that is given up when it has called its function: this is safe for a
callable that reads nothing of its own, and not for one that does. -/
theorem thread_safe_iff_detached :
    (∃ (t : Thread) (tr : List (Thread × ThreadStep)), threadMachine.Run (.new false) tr t ∧
      t.destroyed = true ∧ t.child = .running ∧ Meets (fun u _ => u.Safe) tr ∧ t.Safe) ∧
    ∃ (t : Thread) (tr : List (Thread × ThreadStep)), threadMachine.Run (.new true) tr t ∧
      t.destroyed = true ∧ t.child = .running ∧ ¬ (Meets (fun u _ => u.Safe) tr ∧ t.Safe) := by
  obtain ⟨t, tr, hr, hd, hchild, hcareful⟩ := Thread.run_detached false
  obtain ⟨t', tr', hr', hd', hchild', hcareful'⟩ := Thread.run_detached true
  refine ⟨⟨t, tr, hr, hd, hchild, (thread_safe_iff ⟨_, rfl⟩ hr).1.mpr (hcareful.mpr rfl)⟩,
    t', tr', hr', hd', hchild', fun hsafe => ?_⟩
  exact absurd (hcareful'.mp ((thread_safe_iff ⟨_, rfl⟩ hr').1.mp hsafe)) nofun

end Reactor.Base
