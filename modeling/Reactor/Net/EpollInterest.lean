import Reactor.Net.ConnectionEvents
import Reactor.Net.EpollPoller

/-!
# Net — epoll and empty masks

Whether a channel without interest is in the kernel set.  `updateChannel` takes a channel whose
mask has become empty out of the set, but only one that is in it: where the index is `kNew` or
`kDeleted` it adds the channel without a look at the mask, and an entry with an empty mask still
reports `EPOLLERR` and `EPOLLHUP`.

* `silent_iff`: in terms of the objects alone.
* `Step.silent_iff`: what one call does.
* `epoll_silent_iff`: the runs in which a fully disabled channel is never in the set.
-/

namespace Reactor.Net
open Reactor.Lib

/-- What `epoll_wait` may report for an entry: events of its mask, and the two that are reported
whatever the mask. -/
def EpollEvent.Reports {P : Type} (event : EpollEvent P) (revents : BitVec 32) :
    Prop :=
  revents ≠ 0 ∧ revents &&& ~~~(event.events ||| EPOLLERR ||| EPOLLHUP) = 0

namespace EpollPoller

variable {P : Type} [DecidableEq P]

/-- What `poll` may leave in `activateChannels`, each channel with its `revents`. -/
def Polls (s : EpollPoller P) (activateChannels : List (P × BitVec 32)) : Prop :=
  ∀ q ∈ activateChannels, ∃ fd event, s.kernel fd = some event ∧ event.ptr = q.1 ∧
    event.Reports q.2

/-- No channel with an empty mask has its descriptor in the kernel set, on its own account, and
`poll` reports none. -/
structure Silent (s : EpollPoller P) : Prop where
  kernel : ∀ p, (s.objects p).isNoneEvent = true → s.Alone p → s.kernel (s.objects p).fd = none
  poll : ∀ activateChannels, s.Polls activateChannels →
    ∀ q ∈ activateChannels, (s.objects q.1).isNoneEvent = false

omit [DecidableEq P] in
/-- A channel in use is the only one of its descriptor. -/
theorem Mirror.alone {s : EpollPoller P} (h : s.Mirror) {p : P}
    (hp : (s.objects p).index ≠ kNew) : s.Alone p := by
  intro q hq hfd
  by_contra hidx
  have hchannel := (h.channels _ q).mpr ⟨hfd, hidx⟩
  exact hq (Option.some.inj (hchannel.symm.trans ((h.channels _ p).mpr ⟨rfl, hp⟩)))

/-- **In terms of the objects**: no channel with the index `kAdded` has an empty mask. -/
theorem silent_iff {s : EpollPoller P} (h : s.Mirror) :
    s.Silent ↔ ∀ p, (s.objects p).index = kAdded → (s.objects p).isNoneEvent = false := by
  constructor
  · intro hs p hidx
    have ha : s.Alone p := h.alone (by rw [hidx]; decide)
    have hin := (h.kernel_alone ha _).mpr ⟨hidx, rfl⟩
    by_contra hnone
    rw [hs.kernel p (by simpa using hnone) ha] at hin
    cases hin
  · intro hs
    refine ⟨fun p hnone ha => ?_, fun active hpoll q hq => ?_⟩
    · rw [Option.eq_none_iff_forall_ne_some]
      intro event hev
      rw [hs p ((h.kernel_alone ha event).mp hev).1] at hnone
      cases hnone
    · obtain ⟨fd, event, hev, hptr, -⟩ := hpoll q hq
      obtain ⟨p, -, hidx, rfl⟩ := (h.kernel fd event).mp hev
      exact hptr ▸ hs p hidx

end EpollPoller

/-- A call that leaves the mask empty finds the channel in the kernel set. -/
def PollerStep.KeepsSilent {P : Type} (s : EpollPoller P) : PollerStep P → Prop
  | .interest p i => ((s.objects p).setInterest i).isNoneEvent = true →
      (s.objects p).index = kAdded
  | .remove _ | .construct _ _ => True

namespace EpollPoller

variable {P : Type} [DecidableEq P]

/-- A step that leaves `c` where `p` points, and every other object as it was. -/
theorem Mirror.silent_update {s t : EpollPoller P} (ht : t.Mirror)
    (hold : ∀ q, (s.objects q).index = kAdded → (s.objects q).isNoneEvent = false) {p : P}
    {c : PolledChannel} (heq : t.objects = Function.update s.objects p c) :
    t.Silent ↔ (c.index = kAdded → c.isNoneEvent = false) := by
  rw [silent_iff ht, heq, Function.forall_update_iff s.objects
    fun _ c => c.index = kAdded → c.isNoneEvent = false]
  exact and_iff_left fun q _ => hold q

/-- **What one call does**: a fully disabled channel is put into the set exactly if it was not in
it. -/
theorem Step.silent_iff {s t : EpollPoller P} {l : PollerStep P} (h : s.Mirror) (hq : s.Silent)
    (hs : Step s l t) : t.Silent ↔ l.KeepsSilent s := by
  have ht := hs.mirror h
  have hold := (EpollPoller.silent_iff h).mp hq
  cases hs with
  | interest p i ha =>
    obtain ⟨call, -, heq⟩ := interest_eq h ha i
    rw [ht.silent_update hold (congrArg objects heq)]
    constructor
    · -- what the call leaves empty it must have taken out
      intro hc hnone
      by_contra hidx
      have hdis : ¬ s.Disables p i := fun hd => hidx hd.1
      exact absurd (hnone.symm.trans (hc (by simp [hdis]))) (by decide)
    · intro hl hidx
      by_contra hnone
      have hempty : ((s.objects p).setInterest i).isNoneEvent = true := by simpa using hnone
      have hdis : s.Disables p i := ⟨hl hempty, hempty⟩
      simp [hdis] at hidx
  | remove p ha =>
    obtain ⟨calls, -, heq⟩ := remove_eq h ha
    rw [ht.silent_update hold (congrArg objects heq)]
    exact iff_of_true (fun hidx => absurd hidx kNew_ne_kAdded) trivial
  | construct p fd hi =>
    rw [ht.silent_update hold rfl]
    exact iff_of_true (fun hidx => absurd hidx kNew_ne_kAdded) trivial

end EpollPoller

/-- **Channels without interest and the epoll set.**  In every run, no fully disabled channel is
ever in the kernel set, or reported by `poll`, if and only if every call that leaves a mask empty
finds its channel in the set: not one disabled before, never enabled, or removed. -/
theorem epoll_silent_iff {P : Type} [DecidableEq P] {s t : EpollPoller P}
    {tr : List (EpollPoller P × PollerStep P)} (h₀ : (epollMachine P).init s)
    (hr : (epollMachine P).Run s tr t) :
    Meets (fun u _ => u.Silent) tr ∧ t.Silent ↔ Meets (fun u l => l.KeepsSilent u) tr := by
  have hmirror : s.Mirror := EpollPoller.reachable_mirror (.of_init h₀)
  have hsilent : s.Silent := by
    obtain ⟨fds, rfl⟩ := h₀
    exact (EpollPoller.silent_iff hmirror).mpr fun p hidx =>
      absurd hidx kNew_ne_kAdded
  exact hr.holds_iff (I := EpollPoller.Mirror) (D := fun _ _ => True)
    (fun hi _ hs => EpollPoller.Step.mirror hi hs)
    (fun hi _ hq hs => EpollPoller.Step.silent_iff hi hq hs) (fun _ _ => trivial) hmirror hsilent

/-- The theorem on a channel that is enabled and disabled once. -/
theorem epoll_silent_iff_disabled : ∃ s : EpollPoller Unit, s.Silent ∧
    (s.objects ()).isNoneEvent = true ∧ (s.objects ()).index = kDeleted := by
  let s₀ : EpollPoller Unit := .new fun _ => 7
  have ha : ∀ s : EpollPoller Unit, s.Alone () := fun _ _ hq _ => absurd rfl hq
  have hr := Machine.Run.nil (M := epollMachine Unit) (s := s₀)
    |>.snoc (.interest () .enableReading (ha _))
    |>.snoc (.interest () .disableAll (ha _))
  refine ⟨_, ((epoll_silent_iff ⟨_, rfl⟩ hr).mpr ?_).2, by decide, by decide⟩
  simp only [meets_snoc, meets_nil, true_and]
  exact ⟨fun hnone => absurd hnone (by decide), fun _ => by decide⟩

/-- A channel that is disabled twice is put back into the set, and `poll` may report `EPOLLHUP` for
it. -/
theorem disabled_twice_reported : ∃ s : EpollPoller Unit, (epollMachine Unit).Reachable s ∧
    s.Alone () ∧ (s.objects ()).isNoneEvent = true ∧ (s.kernel (s.objects ()).fd).isSome ∧
    s.Polls [((), EPOLLHUP)] ∧ ¬ s.Silent := by
  let s₀ : EpollPoller Unit := .new fun _ => 7
  have ha : ∀ s : EpollPoller Unit, s.Alone () := fun _ _ hq _ => absurd rfl hq
  have hr := Machine.Run.nil (M := epollMachine Unit) (s := s₀)
    |>.snoc (.interest () .enableReading (ha _))
    |>.snoc (.interest () .disableAll (ha _))
    |>.snoc (.interest () .disableAll (ha _))
  have hnone : ((((s₀.interest () .enableReading).interest () .disableAll).interest ()
      .disableAll).objects ()).isNoneEvent = true := by decide
  have hpoll : (((s₀.interest () .enableReading).interest () .disableAll).interest ()
      .disableAll).Polls [((), EPOLLHUP)] := by
    intro q hq
    obtain rfl := List.mem_singleton.mp hq
    exact ⟨7, ⟨kNoneEvent, ()⟩, by decide, rfl, by decide, by decide⟩
  refine ⟨_, ⟨_, _, ⟨_, rfl⟩, hr⟩, ha _, hnone, by decide, hpoll, fun hs => ?_⟩
  have hsome := hs.poll _ hpoll _ (List.mem_singleton.mpr rfl)
  exact absurd (hnone.symm.trans hsome) (by decide)

end Reactor.Net
