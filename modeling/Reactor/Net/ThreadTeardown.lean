import Reactor.Base.Thread

/-!
# Net — the end of an EventLoopThread

`EventLoopThread` over its `Thread`: the new thread in `threadFunc`, and the thread that owns the
object, in `startLoop` and in `~EventLoopThread`.  The loop is a variable of `threadFunc`, and is
taken as far as the others see it: its `_quit`, and that it is gone when `threadFunc` returns.  The
destructor reads `_loop` twice, without the mutex, and `quit` stores `_quit` before it calls
`wakeup`; `threadFunc` lets the mutex go after it has cleared `_loop`.

* `Kept`: the invariant.
* `teardown_safe_iff`: the runs in which no object is used that is gone.
* `wakeup_race`: the one race that is left if only the destructor ends the loop.

That no thread can be started is left out.
-/

namespace Reactor.Net
open Reactor.Lib Reactor.Base

/-- Where the new thread is in `threadFunc`. -/
inductive FuncStage where
  | outside
  /-- Before `_loop = &loop`. -/
  | construct
  /-- In `loop()`, at `_quit = false`. -/
  | enter
  | looping
  /-- `loop()` has returned. -/
  | leave
  /-- `_loop` is null; at the end of the critical section. -/
  | cleared
  /-- At the end of `loop`. -/
  | unlocked
  | finished
  deriving DecidableEq, Repr

/-- Where the owner is. -/
inductive OwnerStage where
  | new
  | startLoop
  | started
  /-- In the destructor, which has found `_loop` set; at `_loop->quit()`. -/
  | load
  /-- In `quit`, at `_quit = true`. -/
  | store
  /-- In `quit`, at `wakeup()`. -/
  | wakeup
  | join
  | destroyed
  deriving DecidableEq, Repr

/-- `EventLoopThread`, with the places of its two threads and what the others see of the loop. -/
structure LoopThread where
  /-- `_thread` -/
  thread : Thread
  func : FuncStage
  /-- `_loop` is not null. -/
  loopSet : Bool
  /-- `_quit` of the loop. -/
  quit : Bool
  owner : OwnerStage
  /-- A null pointer or an object that is gone has been used. -/
  undefined : Bool

/-- The steps of the owner, of `threadFunc`, and of the `Thread` between them. -/
inductive LoopThreadStep where
  | start
  | thread (l : ThreadStep)
  | callFunc
  | publish
  | enter
  | quitInLoop
  | leave
  | clear
  | unlock
  | finish
  | startLoopReturn
  | destroy
  | load
  | store
  | wakeup
  | joinReturn

namespace LoopThread

/-- The callable is `bind(&threadFunc, this)`: what it has captured is read as it is entered. -/
def new : LoopThread := ⟨.new false, .outside, false, false, .new, false⟩

/-- The loop is used through a pointer. -/
def useLoop (s : LoopThread) : LoopThread :=
  { s with undefined := s.undefined || s.func == .finished }

/-- `threadFunc` uses the object. -/
def touch (s : LoopThread) : LoopThread :=
  { s with undefined := s.undefined || s.owner == .destroyed }

/-- The members go, `_thread` among them. -/
def destroyMembers (s : LoopThread) : LoopThread :=
  { s with thread := s.thread.destroy, owner := .destroyed }

/-- `~EventLoopThread`, as far as the second read of `_loop`. -/
def destroy (s : LoopThread) : LoopThread :=
  if s.loopSet then { s with owner := .load } else s.destroyMembers

/-- The second read. -/
def load (s : LoopThread) : LoopThread :=
  { s with owner := .store, undefined := s.undefined || !s.loopSet }

/-- The steps; those of the `Thread` are its own, with the callable `threadFunc`. -/
inductive Step : LoopThread → LoopThreadStep → LoopThread → Prop where
  | start {s : LoopThread} {u : Thread} (ho : s.owner = .new) (h : Thread.Step s.thread .start u) :
      Step s .start { s with thread := u, owner := .startLoop }
  /-- In `Thread::start`, on both sides. -/
  | thread {s : LoopThread} {l : ThreadStep} {u : Thread} (h : Thread.Step s.thread l u)
      (hl : l = .startReturn ∨ l = .post ∨ ∃ tid, l = .storeTid tid) :
      Step s (.thread l) { s with thread := u }
  | callFunc {s : LoopThread} {u : Thread} (h : Thread.Step s.thread .callFunc u) :
      Step s .callFunc { s with thread := u, func := .construct }
  | publish {s : LoopThread} (hf : s.func = .construct) :
      Step s .publish { s.touch with func := .enter, loopSet := true }
  | enter {s : LoopThread} (hf : s.func = .enter) :
      Step s .enter { s with func := .looping, quit := false }
  /-- A callback calls `quit`. -/
  | quitInLoop {s : LoopThread} (hf : s.func = .looping) :
    Step s .quitInLoop { s with quit := true }
  | leave {s : LoopThread} (hf : s.func = .looping) (hq : s.quit = true) :
      Step s .leave { s with func := .leave }
  | clear {s : LoopThread} (hf : s.func = .leave) :
      Step s .clear { s.touch with func := .cleared, loopSet := false }
  | unlock {s : LoopThread} (hf : s.func = .cleared) :
      Step s .unlock { s.touch with func := .unlocked }
  | finish {s : LoopThread} {u : Thread} (hf : s.func = .unlocked)
      (h : Thread.Step s.thread .funcReturn u) :
      Step s .finish { s with thread := u, func := .finished }
  | startLoopReturn {s : LoopThread} (ho : s.owner = .startLoop) (hc : s.thread.caller = .outside)
      (hl : s.loopSet = true) : Step s .startLoopReturn { s with owner := .started }
  | destroy {s : LoopThread} (ho : s.owner = .new ∨ s.owner = .started) : Step s .destroy s.destroy
  | load {s : LoopThread} (ho : s.owner = .load) : Step s .load s.load
  | store {s : LoopThread} (ho : s.owner = .store) :
      Step s .store { s.useLoop with quit := true, owner := .wakeup }
  /-- `wakeup`, and `_thread.join()` up to `std::thread::join`. -/
  | wakeup {s : LoopThread} {u : Thread} (ho : s.owner = .wakeup)
      (h : Thread.Step s.thread .join u) :
      Step s .wakeup { s.useLoop with thread := u, owner := .join }
  | joinReturn {s : LoopThread} {u : Thread} (ho : s.owner = .join)
      (h : Thread.Step s.thread .joinReturn u) :
      Step s .joinReturn { s with thread := u }.destroyMembers

end LoopThread

/-- An object that has been constructed, and all that can follow. -/
def loopThreadMachine : Machine LoopThread LoopThreadStep where
  init s := s = .new
  step := LoopThread.Step

/-! ### The invariant -/

/-- The child of the `Thread` is in `threadFunc`. -/
def FuncStage.At : FuncStage → Child → Prop
  | .outside, child => child ≠ .running ∧ child ≠ .finished
  | .finished, child => child = .finished
  | _, child => child = .running

/-- The `Thread`, between its `start` and its `join`. -/
structure Started (th : Thread) : Prop where
  reads : th.reads = false
  started : th.started = true
  joined : th.joined = false
  thread : th.thread = some true
  destroyed : th.destroyed = false

/-- What the owner has done with it. -/
def OwnerStage.Uses : OwnerStage → Thread → Prop
  | .new, th => th = .new false
  | .startLoop, th => Started th ∧ th.caller ≠ .join
  | .started, th | .load, th | .store, th | .wakeup, th => Started th ∧ th.caller = .outside
  | .join, th => th.caller = .join
  | .destroyed, th => th.destroyed = true ∧ th.caller = .outside

/-- The owner has seen `_loop` set. -/
def OwnerStage.Seen : OwnerStage → Prop
  | .started | .load | .store | .wakeup | .join => True
  | _ => False

namespace LoopThread

variable {s t : LoopThread} {l : LoopThreadStep}

/-- The `Thread` is used as it should be, and the places of the two threads go with its own. -/
structure Kept (s : LoopThread) : Prop where
  sound : s.thread.Sound
  safe : s.thread.Safe
  uses : s.owner.Uses s.thread
  at_ : s.func.At s.thread.child
  loopSet : s.loopSet = true ↔ s.func = .enter ∨ s.func = .looping ∨ s.func = .leave
  seen : s.owner.Seen → s.func ≠ .outside ∧ s.func ≠ .construct

/-- The `Thread` is used with care. -/
theorem Kept.threadStep (h : s.Kept) {lt : ThreadStep} {u : Thread}
    (hs : Thread.Step s.thread lt u) (hl : s.thread.Careful lt) : u.Sound ∧ u.Safe :=
  ⟨h.sound.step hs, (h.safe.step_iff h.sound hs).mpr hl⟩

/-- A step of the new thread does not change what the owner has done. -/
theorem uses_of_frame {o : OwnerStage} {th u : Thread} (h : o.Uses th) (hne : th ≠ .new false)
    (hframe : u.reads = th.reads ∧ u.started = th.started ∧ u.joined = th.joined ∧
      u.thread = th.thread ∧ u.caller = th.caller ∧ u.destroyed = th.destroyed) : o.Uses u := by
  obtain ⟨hreads, hstarted, hjoined, hthread, hcaller, hdestroyed⟩ := hframe
  have hst : Started th → Started u := fun hth =>
    ⟨hreads.trans hth.reads, hstarted.trans hth.started, hjoined.trans hth.joined,
      hthread.trans hth.thread, hdestroyed.trans hth.destroyed⟩
  cases o with
  | new => exact absurd h hne
  | startLoop => exact ⟨hst h.1, hcaller ▸ h.2⟩
  | started | load | store | wakeup => exact ⟨hst h.1, hcaller.trans h.2⟩
  | join => exact hcaller.trans h
  | destroyed => exact ⟨hdestroyed.trans h.1, hcaller.trans h.2⟩

theorem Kept.uses_of (h : s.Kept) {o : OwnerStage} (ho : s.owner = o) : o.Uses s.thread :=
  ho ▸ h.uses

theorem ne_new_of_child {th : Thread} (h : th.child ≠ .none) : th ≠ .new false := by
  rintro rfl
  exact h rfl

/-- Nothing but where `threadFunc` is changes. -/
theorem Kept.go (h : s.Kept) {u : LoopThread} (hthread : u.thread = s.thread)
    (howner : u.owner = s.owner) (hfunc : s.thread.child = .running)
    (hto : u.func ≠ .outside ∧ u.func ≠ .construct ∧ u.func ≠ .finished)
    (hloop : u.loopSet = true ↔ u.func = .enter ∨ u.func = .looping ∨ u.func = .leave) :
    u.Kept where
  sound := hthread ▸ h.sound
  safe := hthread ▸ h.safe
  uses := by rw [howner, hthread]; exact h.uses
  at_ := by
    rw [hthread, hfunc]
    obtain ⟨hout, -, hfin⟩ := hto
    cases hf : u.func <;> simp_all [FuncStage.At]
  loopSet := hloop
  seen := fun _ => ⟨hto.1, hto.2.1⟩

theorem Kept.running (h : s.Kept) (hout : s.func ≠ .outside) (hfin : s.func ≠ .finished) :
    s.thread.child = .running := by
  have hat := h.at_
  cases hf : s.func <;> simp_all [FuncStage.At]

/-- Before its function is called the child is in none of the code. -/
theorem Kept.outside (h : s.Kept) (hrun : s.thread.child ≠ .running)
    (hfin : s.thread.child ≠ .finished) : s.func = .outside := by
  have hat := h.at_
  cases hf : s.func <;> simp_all [FuncStage.At]

/-- The members are destroyed where the `Thread` may be. -/
theorem Kept.destroyMembers (h : s.Kept) {u : Thread} (hsound : u.Sound) (hsafe : u.Safe)
    (hchild : u.child = s.thread.child) (hd : u.destroyed = false) (hc : u.caller = .outside)
    (hcareful : u.Careful .destroy) : { s with thread := u }.destroyMembers.Kept := by
  have hstep : Thread.Step u .destroy u.destroy := .destroy hd hc
  obtain ⟨hchild', hcaller, hdestroyed⟩ := u.destroy_same
  exact ⟨hsound.step hstep, (hsafe.step_iff hsound hstep).mpr hcareful,
    ⟨hdestroyed, hcaller.trans hc⟩,
    by simpa [LoopThread.destroyMembers, hchild', hchild] using h.at_,
    h.loopSet, nofun⟩

/-- Every step keeps it, whether or not an object is gone. -/
theorem Kept.step (h : s.Kept) (hs : Step s l t) : t.Kept := by
  cases hs with
  | @start u ho hst =>
    have hnew : s.thread = .new false := h.uses_of ho
    have hfunc : s.func = .outside :=
      h.outside (by simp [hnew, Thread.new]) (by simp [hnew, Thread.new])
    obtain ⟨hsound, hsafe⟩ := h.threadStep hst trivial
    cases hst
    rw [hnew] at hsound hsafe ⊢
    exact ⟨hsound, hsafe, ⟨⟨rfl, rfl, rfl, rfl, rfl⟩, by simp [Thread.start]⟩,
      by rw [hfunc]; exact ⟨by rintro ⟨⟩, by rintro ⟨⟩⟩, h.loopSet, by rintro ⟨⟩⟩
  | @thread lt u hst hl =>
    obtain ⟨hsound, hsafe⟩ := h.threadStep hst (by rcases hl with rfl | rfl | ⟨_, rfl⟩ <;> trivial)
    cases hst with
    | startReturn hc hcreated hidentified =>
      have huses : s.owner.Uses { s.thread with caller := .outside } := by
        have huses := h.uses
        cases ho : s.owner <;> simp_all [OwnerStage.Uses]
        · cases hc
        · exact ⟨huses.reads, huses.started, huses.joined, huses.thread, huses.destroyed⟩
      exact ⟨hsound, hsafe, huses, h.at_, h.loopSet, h.seen⟩
    | storeTid htid hchild =>
      have hfunc := h.outside (by simp [hchild]) (by simp [hchild])
      exact ⟨hsound, hsafe, uses_of_frame h.uses (ne_new_of_child (by simp [hchild]))
        ⟨rfl, rfl, rfl, rfl, rfl, rfl⟩, by rw [hfunc]; exact ⟨by rintro ⟨⟩, by rintro ⟨⟩⟩,
        h.loopSet, h.seen⟩
    | post hchild =>
      have hfunc := h.outside (by simp [hchild]) (by simp [hchild])
      exact ⟨hsound, hsafe, uses_of_frame h.uses (ne_new_of_child (by simp [hchild]))
        ⟨rfl, rfl, rfl, rfl, rfl, rfl⟩, by rw [hfunc]; exact ⟨by rintro ⟨⟩, by rintro ⟨⟩⟩,
        h.loopSet, h.seen⟩
    | _ => simp at hl
  | @callFunc u hst =>
    obtain ⟨hsound, hsafe⟩ := h.threadStep hst trivial
    have hframe := hst.frame (by simp)
    cases hst with
    | callFunc hchild =>
      have hfunc := h.outside (by simp [hchild]) (by simp [hchild])
      have hunset : ¬ s.loopSet = true := fun hset => by
        have hin := h.loopSet.mp hset
        simp [hfunc] at hin
      exact ⟨hsound, hsafe, uses_of_frame h.uses (ne_new_of_child (by simp [hchild])) hframe, rfl,
        iff_of_false hunset (by simp), fun hseen => absurd hfunc (h.seen hseen).1⟩
  | publish hf =>
    exact h.go rfl rfl (h.running (by simp [hf]) (by simp [hf])) (by simp) (by simp)
  | enter hf =>
    exact h.go rfl rfl (h.running (by simp [hf]) (by simp [hf])) (by simp)
      (by simp [h.loopSet, hf])
  | quitInLoop hf =>
    exact h.go rfl rfl (h.running (by simp [hf]) (by simp [hf])) (by simp [hf]) h.loopSet
  | leave hf =>
    exact h.go rfl rfl (h.running (by simp [hf]) (by simp [hf])) (by simp)
      (by simp [h.loopSet, hf])
  | clear hf =>
    exact h.go rfl rfl (h.running (by simp [hf]) (by simp [hf])) (by simp) (by simp)
  | unlock hf =>
    exact h.go rfl rfl (h.running (by simp [hf]) (by simp [hf])) (by simp)
      (by simp [touch, h.loopSet, hf])
  | @finish u hf hst =>
    obtain ⟨hsound, hsafe⟩ := h.threadStep hst trivial
    have hframe := hst.frame (by simp)
    cases hst with
    | funcReturn hchild =>
      exact ⟨hsound, hsafe, uses_of_frame h.uses (ne_new_of_child (by simp [hchild])) hframe, rfl,
        by simp [h.loopSet, hf], by simp⟩
  | startLoopReturn ho hc hl =>
    have huses : Started s.thread ∧ s.thread.caller ≠ .join := h.uses_of ho
    refine ⟨h.sound, h.safe, ⟨huses.1, hc⟩, h.at_, h.loopSet, fun _ => ?_⟩
    rcases h.loopSet.mp hl with hf | hf | hf <;> simp [hf]
  | destroy ho =>
    rw [LoopThread.destroy]
    split
    · next hset =>
      have hstarted : s.owner = .started := by
        refine ho.resolve_left fun hnew => ?_
        have hthread : s.thread = .new false := h.uses_of hnew
        have hfunc := h.outside (by simp [hthread, Thread.new]) (by simp [hthread, Thread.new])
        have hin := h.loopSet.mp hset
        simp [hfunc] at hin
      have huses : Started s.thread ∧ s.thread.caller = .outside := h.uses_of hstarted
      exact ⟨h.sound, h.safe, huses, h.at_, h.loopSet, fun _ => h.seen (hstarted ▸ trivial)⟩
    · rcases ho with ho | ho
      · have hthread : s.thread = .new false := h.uses_of ho
        exact h.destroyMembers h.sound h.safe rfl (by simp [hthread, Thread.new])
          (by simp [hthread, Thread.new]) (by simp [hthread, Thread.new, Thread.Careful])
      · obtain ⟨hstarted, hc⟩ : Started s.thread ∧ s.thread.caller = .outside := h.uses_of ho
        refine h.destroyMembers h.sound h.safe rfl hstarted.destroyed hc fun _ _ => ?_
        refine ⟨by simp [hstarted.thread], fun hposted => ?_, fun hreads => ?_⟩
        · exact (h.seen (ho ▸ trivial)).1 (h.outside (by simp [hposted]) (by simp [hposted]))
        · rw [hstarted.reads] at hreads; cases hreads
  | load ho | store ho =>
    have huses : Started s.thread ∧ s.thread.caller = .outside := h.uses_of ho
    exact ⟨h.sound, h.safe, huses, h.at_, h.loopSet, fun _ => h.seen (ho ▸ trivial)⟩
  | @wakeup u ho hst =>
    obtain ⟨hstarted, hc⟩ : Started s.thread ∧ s.thread.caller = .outside := h.uses_of ho
    obtain ⟨hsound, hsafe⟩ := h.threadStep hst (by simp [Thread.Careful, hstarted.thread])
    cases hst with
    | join hd _ _ hj =>
      rcases h.sound.join_cases hd hj with ⟨hthread, heq⟩ | ⟨hnone, -⟩
      · rw [heq] at hsound hsafe ⊢
        exact ⟨hsound, hsafe, rfl, h.at_, h.loopSet, fun _ => h.seen (ho ▸ trivial)⟩
      · simp [hstarted.thread] at hnone
  | @joinReturn u ho hst =>
    obtain ⟨hsound, hsafe⟩ := h.threadStep hst trivial
    cases hst with
    | joinReturn hc hchild =>
      obtain ⟨hd, -, hj⟩ := h.sound.join hc
      exact h.destroyMembers hsound hsafe rfl hd rfl fun _ hj' =>
        absurd (hj.symm.trans hj') (by simp)

theorem kept_new : new.Kept :=
  ⟨Thread.sound_new false, ⟨rfl, nofun⟩, rfl, ⟨nofun, nofun⟩, by simp [new], nofun⟩

/-- Before `startLoop` has been called the new thread does not exist. -/
theorem Kept.func_new (h : s.Kept) (ho : s.owner = .new) : s.func = .outside := by
  have hthread : s.thread = .new false := h.uses_of ho
  exact h.outside (by simp [hthread, Thread.new]) (by simp [hthread, Thread.new])

/-! ### Safe runs -/

/-- `threadFunc` does not use the object any more, or never will. -/
def PastMutex (s : LoopThread) : Prop :=
  s.func = .outside ∨ s.func = .unlocked ∨ s.func = .finished

/-- Nothing that is gone has been used, and nothing is bound to be. -/
structure Safe (s : LoopThread) : Prop where
  defined : s.undefined = false
  object : s.owner = .destroyed → s.PastMutex
  pointer : s.owner = .load → s.loopSet = true
  loop : s.owner = .store ∨ s.owner = .wakeup → s.func ≠ .finished

/-- A destructor that finds `_loop` null finds the mutex free for good, `_loop` is not cleared
between its reads, and the loop does not go while it is in `quit`. -/
def Careful (s : LoopThread) : LoopThreadStep → Prop
  | .destroy => s.loopSet = false → s.PastMutex
  | .clear => s.owner ≠ .load
  | .finish => s.owner ≠ .store ∧ s.owner ≠ .wakeup
  | _ => True

/-- In its critical sections `threadFunc` has an object. -/
theorem Safe.alive (h : s.Safe) (hf : s.func = .construct ∨ s.func = .enter ∨ s.func = .looping ∨
    s.func = .leave ∨ s.func = .cleared) : s.owner ≠ .destroyed := by
  intro ho
  rcases h.object ho with heq | heq | heq <;> simp [heq] at hf

/-- A step from a safe state leads to one exactly if it is careful. -/
theorem Safe.step_iff (hk : s.Kept) (h : s.Safe) (hs : Step s l t) : t.Safe ↔ s.Careful l := by
  have hdefined := h.defined
  cases hs with
  | start ho | startLoopReturn ho =>
    exact iff_of_true ⟨hdefined, nofun, nofun, nofun⟩ trivial
  | thread => exact iff_of_true ⟨hdefined, h.object, h.pointer, h.loop⟩ trivial
  | callFunc hst =>
    refine iff_of_true ⟨hdefined, fun ho => ?_, h.pointer, fun _ => nofun⟩ trivial
    -- the child of an object that is gone is not about to call
    cases hst with
    | callFunc hchild =>
      have huses : s.thread.destroyed = true ∧ s.thread.caller = .outside := hk.uses_of ho
      exact absurd hchild (hk.safe.2 huses.1).1
  | publish hf =>
    have halive := h.alive (.inl hf)
    exact iff_of_true ⟨by simp [touch, hdefined, halive], fun ho => absurd ho halive,
      fun _ => rfl, fun _ => nofun⟩ trivial
  | enter hf =>
    have halive := h.alive (.inr (.inl hf))
    exact iff_of_true ⟨hdefined, fun ho => absurd ho halive, h.pointer, fun _ => nofun⟩ trivial
  | quitInLoop hf =>
    have halive := h.alive (.inr (.inr (.inl hf)))
    exact iff_of_true ⟨hdefined, fun ho => absurd ho halive, h.pointer, h.loop⟩ trivial
  | leave hf =>
    have halive := h.alive (.inr (.inr (.inl hf)))
    exact iff_of_true ⟨hdefined, fun ho => absurd ho halive, h.pointer, fun _ => nofun⟩ trivial
  | clear hf =>
    have halive := h.alive (.inr (.inr (.inr (.inl hf))))
    exact ⟨fun ht ho => absurd (ht.pointer ho) nofun, fun ho => ⟨by simp [touch, hdefined, halive],
      fun ho' => absurd ho' halive, fun ho' => absurd ho' ho, fun _ => nofun⟩⟩
  | unlock hf =>
    have halive := h.alive (.inr (.inr (.inr (.inr hf))))
    exact iff_of_true ⟨by simp [touch, hdefined, halive], fun _ => .inr (.inl rfl), h.pointer,
      fun _ => nofun⟩ trivial
  | finish hf =>
    constructor
    · exact fun ht => ⟨fun ho => ht.loop (.inl ho) rfl, fun ho => ht.loop (.inr ho) rfl⟩
    · exact fun ⟨hstore, hwakeup⟩ => ⟨hdefined, fun _ => .inr (.inr rfl), h.pointer,
        fun ho => (ho.elim hstore hwakeup).elim⟩
  | destroy ho =>
    rw [LoopThread.destroy]
    split
    · next hset =>
      exact iff_of_true ⟨hdefined, nofun, fun _ => hset, nofun⟩
        fun hunset => absurd (hset.symm.trans hunset) nofun
    · next hunset =>
      exact ⟨fun ht _ => ht.object rfl,
        fun hpast => ⟨hdefined, fun _ => hpast (by simpa using hunset), nofun, nofun⟩⟩
  | load ho =>
    have hset := h.pointer ho
    refine iff_of_true
      ⟨by simp [LoopThread.load, hdefined, hset], nofun, nofun, fun _ hf => ?_⟩ trivial
    have hin := hk.loopSet.mp hset
    rw [show s.func = .finished from hf] at hin
    simp at hin
  | store ho =>
    have hf := h.loop (.inl ho)
    exact iff_of_true ⟨by simp [useLoop, hdefined, hf], nofun, nofun, fun _ => hf⟩ trivial
  | wakeup ho =>
    have hf := h.loop (.inr ho)
    exact iff_of_true ⟨by simp [useLoop, hdefined, hf], nofun, nofun, nofun⟩ trivial
  | joinReturn ho hst =>
    refine iff_of_true ⟨hdefined, fun _ => .inr (.inr ?_), nofun, nofun⟩ trivial
    cases hst with
    | joinReturn hc hchild =>
      have hat := hk.at_
      have hseen := (hk.seen (ho ▸ trivial)).1
      show s.func = .finished
      cases hf : s.func <;> simp_all [FuncStage.At]

theorem safe_iff {tr : List (LoopThread × LoopThreadStep)} (hinit : loopThreadMachine.init s)
    (h : loopThreadMachine.Run s tr t) :
    Meets (fun u _ => u.Safe) tr ∧ t.Safe ↔ Meets Careful tr := by
  cases hinit
  exact h.holds_iff (I := Kept) (D := fun _ _ => True) (fun hi _ hs => hi.step hs)
    (fun hi _ hsafe hs => hsafe.step_iff hi hs) (fun _ _ => trivial) kept_new
    ⟨rfl, nofun, nofun, nofun⟩

end LoopThread

/-- **When an `EventLoopThread` is destroyed safely.**  In every run of the two threads, whoever
ends the loop: nothing that is gone is used or bound to be used if and only if the destructor, where
it finds `_loop` null, comes after `threadFunc` has let the mutex go, `_loop` is not cleared between
its two reads, and the loop does not go while the destructor is in `quit`. -/
theorem teardown_safe_iff {s t : LoopThread} {tr : List (LoopThread × LoopThreadStep)}
    (hinit : loopThreadMachine.init s) (h : loopThreadMachine.Run s tr t) :
    Meets (fun u _ => u.Safe) tr ∧ t.Safe ↔ Meets LoopThread.Careful tr :=
  LoopThread.safe_iff hinit h

/-- The theorem for a thread that is started and joined. -/
theorem teardown_safe_iff_joined : ∃ t : LoopThread, loopThreadMachine.Reachable t ∧
    t.owner = .destroyed ∧ t.thread.joined = true ∧ t.Safe := by
  have hr := Machine.Run.nil (M := loopThreadMachine) (s := .new)
    |>.snoc (.start rfl (.start rfl rfl rfl))
    |>.snoc (.thread (.storeTid (by decide : 0 < 7) rfl) (.inr (.inr ⟨7, rfl⟩)))
    |>.snoc (.thread (.post rfl) (.inr (.inl rfl)))
    |>.snoc (.thread (.startReturn rfl (by rintro ⟨⟩) (by rintro ⟨⟩)) (.inl rfl))
    |>.snoc (.callFunc (.callFunc rfl))
    |>.snoc (.publish rfl)
    |>.snoc (.startLoopReturn rfl rfl rfl)
    |>.snoc (.enter rfl)
    |>.snoc (.destroy (.inr rfl))
    |>.snoc (.load rfl)
    |>.snoc (.store rfl)
    |>.snoc (.wakeup rfl (.join rfl rfl rfl rfl))
    |>.snoc (.leave rfl rfl)
    |>.snoc (.clear rfl)
    |>.snoc (.unlock rfl)
    |>.snoc (.finish rfl (.funcReturn rfl))
    |>.snoc (.joinReturn rfl (.joinReturn rfl rfl))
  refine ⟨_, ⟨_, _, rfl, hr⟩, rfl, rfl, ((teardown_safe_iff rfl hr).mpr ?_).2⟩
  simp only [meets_snoc, meets_nil, LoopThread.Careful, true_and, and_true]
  exact ⟨⟨(by rintro ⟨⟩), (by rintro ⟨⟩)⟩, (by rintro ⟨⟩), (by rintro ⟨⟩)⟩

/-! ### A loop that only the destructor ends -/

namespace LoopThread

variable {s t : LoopThread} {l : LoopThreadStep}

/-- Nobody else calls `quit`. -/
def OnlyDestructor (_ : LoopThread) (l : LoopThreadStep) : Prop := l ≠ .quitInLoop

/-- The destructor has stored `_quit`. -/
def Stored (s : LoopThread) : Prop :=
  s.owner = .wakeup ∨ s.owner = .join ∨ s.owner = .destroyed

/-- The loop ends only when the destructor has stored `_quit`. -/
structure Quits (s : LoopThread) : Prop where
  quit : s.quit = true → s.Stored
  ended : s.func = .leave ∨ s.func = .cleared ∨ s.func = .unlocked ∨ s.func = .finished → s.Stored

/-- A step that neither writes `_quit` nor moves `threadFunc`. -/
theorem Quits.frame (h : s.Quits) (hq : t.quit = s.quit) (hf : t.func = s.func)
    (hstored : s.Stored → t.Stored) : t.Quits :=
  ⟨fun hquit => hstored (h.quit (hq ▸ hquit)), fun hended => hstored (h.ended (hf ▸ hended))⟩

/-- If nobody else calls `quit`, the loop ends behind the destructor's store. -/
theorem Quits.step (h : s.Quits) (hl : s.OnlyDestructor l) (hs : Step s l t) : t.Quits := by
  have hearly : s.owner = .new ∨ s.owner = .startLoop ∨ s.owner = .started ∨ s.owner = .load →
      ¬ s.Stored := by
    rintro ho (ho' | ho' | ho') <;> simp [ho'] at ho
  cases hs with
  | start ho => exact h.frame rfl rfl fun hst => (hearly (.inl ho) hst).elim
  | thread => exact h.frame rfl rfl id
  | callFunc => exact ⟨h.quit, nofun⟩
  | publish => exact ⟨h.quit, nofun⟩
  | enter => exact ⟨nofun, nofun⟩
  | quitInLoop => exact absurd rfl hl
  | leave hf hq => exact ⟨h.quit, fun _ => h.quit hq⟩
  | clear hf => exact ⟨h.quit, fun _ => h.ended (.inl hf)⟩
  | unlock hf => exact ⟨h.quit, fun _ => h.ended (.inr (.inl hf))⟩
  | finish hf => exact ⟨h.quit, fun _ => h.ended (.inr (.inr (.inl hf)))⟩
  | startLoopReturn ho => exact h.frame rfl rfl fun hst => (hearly (.inr (.inl ho)) hst).elim
  | destroy ho =>
    have hnot := hearly (ho.imp_right fun ho => .inr (.inl ho))
    rw [LoopThread.destroy]
    split
    · exact h.frame rfl rfl fun hst => (hnot hst).elim
    · exact h.frame rfl rfl fun hst => (hnot hst).elim
  | load ho => exact h.frame rfl rfl fun hst => (hearly (.inr (.inr (.inr ho))) hst).elim
  | store => exact ⟨fun _ => .inl rfl, fun _ => .inl rfl⟩
  | wakeup => exact ⟨fun _ => .inr (.inl rfl), fun _ => .inr (.inl rfl)⟩
  | joinReturn => exact ⟨fun _ => .inr (.inr rfl), fun _ => .inr (.inr rfl)⟩

/-- An owner that has seen `_loop` set, and has not stored `_quit`, finds it set again. -/
theorem Quits.set (h : s.Quits) (hk : s.Kept) (hseen : s.owner.Seen) (hnot : ¬ s.Stored) :
    s.loopSet = true := by
  obtain ⟨hout, hcon⟩ := hk.seen hseen
  rw [hk.loopSet]
  cases hf : s.func with
  | enter => exact .inl rfl
  | looping => exact .inr (.inl rfl)
  | leave => exact .inr (.inr rfl)
  | outside => exact absurd hf hout
  | construct => exact absurd hf hcon
  | cleared | unlocked | finished => exact absurd (h.ended (by simp [hf])) hnot

/-- Then the only step that is not careful is that of the race. -/
theorem Quits.careful_iff (h : s.Quits) (hk : s.Kept) (hs : Step s l t) :
    s.Careful l ↔ (l = .finish → s.owner ≠ .wakeup) := by
  cases hs with
  | destroy ho =>
    refine iff_of_true (fun hunset => ?_) nofun
    rcases ho with ho | ho
    · exact .inl (hk.func_new ho)
    · have hset := h.set hk (ho ▸ trivial) (by simp [Stored, ho])
      exact absurd (hset.symm.trans hunset) nofun
  | clear hf =>
    refine iff_of_true (fun ho => ?_) nofun
    have hst := h.ended (.inl hf)
    simp [Stored, ho] at hst
  | finish hf =>
    refine ⟨fun hcareful _ => hcareful.2, fun hne => ⟨fun ho => ?_, hne rfl⟩⟩
    have hst := h.ended (.inr (.inr (.inl hf)))
    simp [Stored, ho] at hst
  | _ => exact iff_of_true trivial nofun

end LoopThread

/-- **One race is left.**  In every run in which only the destructor ends the loop: nothing that is
gone is used or bound to be used if and only if the loop does not go between the destructor's store
of `_quit` and its call of `wakeup`. -/
theorem wakeup_race {s t : LoopThread} {tr : List (LoopThread × LoopThreadStep)}
    (hinit : loopThreadMachine.init s) (h : loopThreadMachine.Run s tr t)
    (honly : Meets LoopThread.OnlyDestructor tr) :
    Meets (fun u _ => u.Safe) tr ∧ t.Safe ↔
      Meets (fun u l => l = .finish → u.owner ≠ .wakeup) tr := by
  rw [LoopThread.safe_iff hinit h]
  cases hinit
  exact h.meets_iff (I := fun s => s.Kept ∧ s.Quits)
    (fun ⟨hk, hi⟩ hl hs => ⟨hk.step hs, hi.step hl hs⟩)
    (fun ⟨hk, hi⟩ _ hs => hi.careful_iff hk hs) honly
    ⟨LoopThread.kept_new, nofun, by simp [LoopThread.new]⟩

/-- The loop leaves and goes between the destructor's store and its call of `wakeup`. -/
theorem LoopThread.run_late : ∃ (t : LoopThread) (tr : List (LoopThread × LoopThreadStep)),
    loopThreadMachine.Run .new tr t ∧ Meets OnlyDestructor tr ∧ t.owner = .wakeup ∧
      ¬ Meets (fun u l => l = .finish → u.owner ≠ .wakeup) tr := by
  have hr := Machine.Run.nil (M := loopThreadMachine) (s := .new)
    |>.snoc (.start rfl (.start rfl rfl rfl))
    |>.snoc (.thread (.storeTid (by decide : 0 < 7) rfl) (.inr (.inr ⟨7, rfl⟩)))
    |>.snoc (.thread (.post rfl) (.inr (.inl rfl)))
    |>.snoc (.thread (.startReturn rfl (by rintro ⟨⟩) (by rintro ⟨⟩)) (.inl rfl))
    |>.snoc (.callFunc (.callFunc rfl))
    |>.snoc (.publish rfl)
    |>.snoc (.startLoopReturn rfl rfl rfl)
    |>.snoc (.enter rfl)
    |>.snoc (.destroy (.inr rfl))
    |>.snoc (.load rfl)
    |>.snoc (.store rfl)
    |>.snoc (.leave rfl rfl)
    |>.snoc (.clear rfl)
    |>.snoc (.unlock rfl)
    |>.snoc (.finish rfl (.funcReturn rfl))
  refine ⟨_, _, hr, ?_, rfl, fun hrace => (meets_snoc.mp hrace).2 rfl rfl⟩
  simp only [meets_snoc, meets_nil, OnlyDestructor, ne_eq, reduceCtorEq, not_false_eq_true,
    true_and]

/-- The race is lost: the loop goes before the destructor calls `wakeup`. -/
theorem wakeup_race_lost : ∃ (t : LoopThread) (tr : List (LoopThread × LoopThreadStep)),
    loopThreadMachine.Run .new tr t ∧ Meets LoopThread.OnlyDestructor tr ∧ t.owner = .wakeup ∧
      ¬ (Meets (fun u _ => u.Safe) tr ∧ t.Safe) := by
  obtain ⟨t, tr, hr, honly, ho, hlate⟩ := LoopThread.run_late
  exact ⟨t, tr, hr, honly, ho, fun hsafe => hlate ((wakeup_race rfl hr honly).mp hsafe)⟩

end Reactor.Net
