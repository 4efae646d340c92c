import Reactor.Net.EpollPoller
import Reactor.Net.PollPoller

/-!
# Net — PollerAgreement

One sequence of calls over a `PollPoller` and over an `EpollPoller`, each with channels of its own.

* `Paired`: what the two executions have in common as long as no channel is used again after its
  removal, whose index `PollPoller` does not reset.
* `Paired.sameWatches_iff`: they watch the same events if and only if the channels whose entry is
  not negated are those whose index is `kAdded`.
* `pollers_agree_iff`: so they do until a channel without events is told again to have none, which
  puts it back into the kernel set.
-/

namespace Reactor.Net
open Reactor.Lib

/-- `poll` waits for events of `mask` on `fd`. -/
def PollPoller.Watches {P : Type} (s : PollPoller P) (fd : Nat) (mask : BitVec 32) : Prop :=
  ∃ pfd ∈ s.pollfds, pfd.fd = fd ∧ mask = pfd.events.signExtend 32

/-- `epoll_wait` waits for events of `mask` on `fd`. -/
def EpollPoller.Watches {P : Type} (s : EpollPoller P) (fd : Nat) (mask : BitVec 32) : Prop :=
  ∃ event, s.kernel fd = some event ∧ mask = event.events

/-- The two pollers, each with channel objects of its own at the same addresses. -/
structure BothPollers (P : Type) where
  /-- `none` once an access was out of range. -/
  poll : Option (PollPoller P)
  epoll : EpollPoller P

namespace BothPollers

variable {P : Type} [DecidableEq P]

/-- A call on a channel, in both. -/
inductive Step : BothPollers P → PollerStep P → BothPollers P → Prop where
  | interest {s} (p : P) (i : Interest) :
      Step s (.interest p i) ⟨s.poll.bind (·.interest p i), s.epoll.interest p i⟩
  /-- The channel has been added and not removed since. -/
  | remove {s} (p : P) (hp : (s.epoll.objects p).registered = true) :
      Step s (.remove p) ⟨s.poll.bind (·.remove p), s.epoll.remove p⟩

omit [DecidableEq P] in
/-- The same events on the same descriptors. -/
def SameWatches (s : BothPollers P) : Prop :=
  ∃ t, s.poll = some t ∧ ∀ fd mask, t.Watches fd mask ↔ s.epoll.Watches fd mask

/-- No call on a channel that has been removed. -/
def Unremoved (s : BothPollers P) (l : PollerStep P) : Prop :=
  ∀ p i, l = .interest p i → ∀ t, s.poll = some t →
    (t.objects p).registered = true ∨ (t.objects p).index < 0

/-- No call that leaves a channel without events so which has been taken out of the kernel set. -/
def Unrepeated (s : BothPollers P) (l : PollerStep P) : Prop :=
  ∀ p i, l = .interest p i → (s.epoll.objects p).index = kDeleted →
    ((s.epoll.objects p).setInterest i).isNoneEvent = false

end BothPollers

/-- Two empty pollers, whose channels have the same descriptors, no two of them one. -/
def bothPollersMachine (P : Type) [DecidableEq P] :
    Machine (BothPollers P) (PollerStep P) where
  init s := ∃ fds, Function.Injective fds ∧ s = ⟨some (.new fds), .new fds⟩
  step := BothPollers.Step

/-! ### What `poll` waits for -/

namespace PollPoller

variable {P : Type}

/-- The channel is in the poller, and its entry is not negated. -/
def Watching (s : PollPoller P) (p : P) : Prop :=
  (s.objects p).registered = true ∧ ∃ pfd, s.entry p = some pfd ∧ 0 ≤ pfd.fd

/-- A channel with the same entry is watched as before. -/
theorem watching_congr {s t : PollPoller P} {p q : P}
    (hreg : (t.objects q).registered = true ↔ (s.objects p).registered = true)
    (hentry : (s.objects p).registered = true → t.entry q = s.entry p) :
    t.Watching q ↔ s.Watching p := by
  rw [Watching, Watching, hreg, and_congr_right_iff]
  intro hp
  rw [hentry hp]

/-- A channel is watched if its entry is not negated. -/
theorem watching_iff {s : PollPoller P} {p : P} {pfd : PollFd}
    (hp : (s.objects p).registered = true) (hentry : s.entry p = some pfd) :
    s.Watching p ↔ 0 ≤ pfd.fd := by
  simp [Watching, hp, hentry]

/-- What `PollPoller` watches, by its channels. -/
theorem Indexed.watches_iff {s : PollPoller P} (h : s.Indexed)
    (hsmall : ∀ p, (s.objects p).events.toNat < 8) (fd : Nat) (mask : BitVec 32) :
    s.Watches fd mask ↔
      ∃ p, s.Watching p ∧ (s.objects p).fd = fd ∧ mask = (s.objects p).events := by
  constructor
  · rintro ⟨pfd, hmem, hfd, rfl⟩
    obtain ⟨j, hj, hget⟩ := List.mem_iff_getElem.mp hmem
    obtain ⟨p, hp, hpj⟩ := h.owner j hj
    obtain ⟨-, pfd', hentry, hchan, hevents⟩ := h.entry p hp
    have hpfd : s.entry p = some pfd := by
      rw [PollPoller.entry, hpj, Int.toNat_natCast, List.getElem?_eq_getElem hj, hget]
    cases hentry.symm.trans hpfd
    refine ⟨p, ⟨hp, pfd, hpfd, by omega⟩, ?_, ?_⟩
    · rw [PollFd.channelFd, if_neg (by omega)] at hchan
      omega
    · rw [hevents, signExtend_truncate (hsmall p)]
  · rintro ⟨p, ⟨hp, pfd, hpfd, hpos⟩, rfl, rfl⟩
    obtain ⟨-, pfd', hentry, hchan, hevents⟩ := h.entry p hp
    cases hentry.symm.trans hpfd
    refine ⟨pfd, List.mem_of_getElem? hpfd, ?_, ?_⟩
    · rwa [PollFd.channelFd, if_neg (by omega)] at hchan
    · rw [hevents, signExtend_truncate (hsmall p)]

/-- What a call on a channel that was not removed before makes of the channels watched. -/
theorem Indexed.interest [DecidableEq P] {s : PollPoller P} (h : s.Indexed) {p : P}
    (hp : (s.objects p).registered = true ∨ (s.objects p).index < 0) (i : Interest) :
    ∃ t idx, s.interest p i = some t ∧ t.Indexed ∧
      t.objects = Function.update s.objects p (((s.objects p).setInterest i).set_index idx) ∧
      (t.Watching p ↔ ((s.objects p).registered = true →
        ((s.objects p).setInterest i).isNoneEvent = false)) ∧
      ∀ q, q ≠ p → (t.Watching q ↔ s.Watching q) := by
  obtain ⟨t, idx, pfd, heq, ht, hobj, hself, hpos, hother⟩ := h.interest_entry hp i
  refine ⟨t, idx, heq, ht, hobj, ?_, fun q hq => ?_⟩
  · rw [watching_iff (by simp [hobj]) hself, hpos]
  · exact watching_congr (by simp [hobj, hq]) (hother q hq)

end PollPoller

/-- What `EpollPoller` watches, by its channels. -/
theorem EpollPoller.Mirror.watches_iff {P : Type} {s : EpollPoller P} (h : s.Mirror) (fd : Nat)
    (mask : BitVec 32) : s.Watches fd mask ↔
      ∃ p, (s.objects p).index = kAdded ∧ (s.objects p).fd = fd ∧ mask = (s.objects p).events := by
  constructor
  · rintro ⟨event, hev, rfl⟩
    obtain ⟨p, hfd, hidx, rfl⟩ := (h.kernel fd event).mp hev
    exact ⟨p, hidx, hfd, rfl⟩
  · rintro ⟨p, hidx, hfd, rfl⟩
    exact ⟨_, (h.kernel fd _).mpr ⟨p, hfd, hidx, rfl⟩, rfl⟩

/-! ### The two executions side by side -/

variable {P : Type}

/-- Each poller is as it should be, and the channels are the same. -/
structure Paired (t : PollPoller P) (e : EpollPoller P) : Prop where
  indexed : t.Indexed
  mirror : e.Mirror
  toChannel : ∀ p, (t.objects p).toChannel = (e.objects p).toChannel
  fd : ∀ p, (t.objects p).fd = (e.objects p).fd
  small : ∀ p, (e.objects p).events.toNat < 8

/-- The channels watched are the same. -/
def SameWatching (t : PollPoller P) (e : EpollPoller P) : Prop :=
  ∀ p, t.Watching p ↔ (e.objects p).index = kAdded

namespace Paired

variable {t t' : PollPoller P} {e : EpollPoller P} {p : P}

theorem registered (h : Paired t e) (p : P) :
    (t.objects p).registered = true ↔ (e.objects p).index ≠ kNew := by
  rw [h.toChannel]
  exact h.mirror.registered p

theorem alone [DecidableEq P] (h : Paired t e) (p : P) : e.Alone p := by
  intro q hqp hfd
  rw [← h.fd, ← h.fd] at hfd
  exact absurd (h.indexed.distinct q p hfd) hqp

/-- The same events are watched if and only if the same channels are. -/
theorem sameWatches_iff (h : Paired t e) :
    (∀ fd mask, t.Watches fd mask ↔ e.Watches fd mask) ↔ SameWatching t e := by
  have hsmall : ∀ p, (t.objects p).events.toNat < 8 := fun p => by
    rw [h.toChannel]
    exact h.small p
  constructor
  · intro hsame p
    have hp := hsame (t.objects p).fd (t.objects p).events
    rw [h.indexed.watches_iff hsmall, h.mirror.watches_iff] at hp
    constructor
    · intro hw
      obtain ⟨q, hidx, hfd, -⟩ := hp.mp ⟨p, hw, rfl, rfl⟩
      rwa [h.indexed.distinct q p (by rw [h.fd, hfd])] at hidx
    · intro hidx
      obtain ⟨q, hw, hfd, -⟩ := hp.mpr ⟨p, hidx, (h.fd p).symm, by rw [h.toChannel]⟩
      rwa [h.indexed.distinct q p hfd] at hw
  · intro hsame fd mask
    rw [h.indexed.watches_iff hsmall, h.mirror.watches_iff]
    refine exists_congr fun p => ?_
    rw [hsame p, h.fd, h.toChannel]

variable [DecidableEq P]

/-- What a call on `p` leaves in common, and when the same channels are watched after it. -/
theorem interest (h : Paired t e)
    (hp : (t.objects p).registered = true ∨ (t.objects p).index < 0) (i : Interest) :
    ∃ t', t.interest p i = some t' ∧ Paired t' (e.interest p i) ∧
      (SameWatching t e → (SameWatching t' (e.interest p i) ↔
        ((e.objects p).index = kDeleted → ((e.objects p).setInterest i).isNoneEvent = false))) := by
  obtain ⟨t', idx, heq, ht', hobj, hwp, hwq⟩ := h.indexed.interest hp i
  obtain ⟨call, -, he⟩ := EpollPoller.interest_eq h.mirror (h.alone p) i
  have heobj : (e.interest p i).objects = Function.update e.objects p
      (((e.objects p).setInterest i).set_index (if e.Disables p i then kDeleted else kAdded)) := by
    rw [he]
  have hmirror := h.mirror.interest (h.alone p) i
  generalize e.interest p i = e' at heobj hmirror
  have hset :
      ((t.objects p).setInterest i).toChannel = ((e.objects p).setInterest i).toChannel := by
    simp only [PolledChannel.setInterest, h.toChannel]
  refine ⟨t', heq, ⟨ht', hmirror, fun q => ?_, fun q => ?_, fun q => ?_⟩, fun hw => ?_⟩
  · by_cases hqp : q = p
    · subst hqp
      simpa [hobj, heobj] using hset
    · simpa [hobj, heobj, hqp] using h.toChannel q
  · by_cases hqp : q = p
    · subst hqp
      simpa [hobj, heobj] using h.fd q
    · simpa [hobj, heobj, hqp] using h.fd q
  · by_cases hqp : q = p
    · subst hqp
      rw [heobj, Function.update_self]
      exact i.events_apply_lt (h.small q)
    · simpa [heobj, hqp] using h.small q
  · have hother : ∀ q, q ≠ p → (t'.Watching q ↔ (e'.objects q).index = kAdded) := by
      intro q hq
      rw [hwq q hq, hw q, heobj, Function.update_of_ne hq]
    have hself : SameWatching t' e' ↔ (t'.Watching p ↔ (e'.objects p).index = kAdded) := by
      refine ⟨fun hs => hs p, fun hs q => ?_⟩
      by_cases hqp : q = p
      · exact hqp ▸ hs
      · exact hother q hqp
    have hadded : (e'.objects p).index = kAdded ↔ ¬ e.Disables p i := by
      rw [heobj, Function.update_self, PolledChannel.set_index_index]
      split
      · simp [*]
      · simp [*]
    have hnone : ((t.objects p).setInterest i).isNoneEvent =
        ((e.objects p).setInterest i).isNoneEvent := by rw [hset]
    rw [hself, hwp, hadded, h.registered, hnone, EpollPoller.Disables]
    -- the first call, a later one on a channel in the kernel set, and one on a channel taken out
    cases ((e.objects p).setInterest i).isNoneEvent with
    | false => simp
    | true =>
      rcases h.mirror.index p with hidx | hidx | hidx <;>
        simp [hidx, kDeleted_ne_kNew.symm, kDeleted_ne_kAdded.symm]

/-- A removal keeps the two together, and watching the same. -/
theorem remove (h : Paired t e) (hp : (t.objects p).registered = true) :
    ∃ t', t.remove p = some t' ∧ Paired t' (e.remove p) ∧
      (SameWatching t e → SameWatching t' (e.remove p)) := by
  obtain ⟨t', heq, ht', hobj, hentry⟩ := h.indexed.remove hp
  obtain ⟨calls, -, he⟩ := EpollPoller.remove_eq h.mirror (h.alone p)
  have heobj : (e.remove p).objects =
      Function.update e.objects p ((e.objects p).removed.set_index kNew) := by
    rw [he]
  have hmirror := h.mirror.remove (h.alone p)
  generalize e.remove p = e' at heobj hmirror
  have hreg : ∀ q, (t'.objects q).registered = true ↔ q ≠ p ∧ (t.objects q).registered = true := by
    intro q
    rw [(hobj q).1]
    by_cases hqp : q = p
    · simp [hqp]
    · simp [hqp]
  refine ⟨t', heq, ⟨ht', hmirror, fun q => ?_, fun q => ?_, fun q => ?_⟩, fun hw q => ?_⟩
  · rw [(hobj q).1]
    by_cases hqp : q = p
    · subst hqp
      simp [heobj, PolledChannel.removed, h.toChannel]
    · simpa [heobj, hqp] using h.toChannel q
  · rw [(hobj q).2, heobj, h.fd]
    exact (PolledChannel.update_field e.objects p ((e.objects p).removed.set_index kNew)
      PolledChannel.fd rfl q).symm
  · by_cases hqp : q = p
    · subst hqp
      rw [heobj, Function.update_self]
      exact h.small q
    · simpa [heobj, hqp] using h.small q
  · by_cases hqp : q = p
    · subst hqp
      simp [PollPoller.Watching, hreg, heobj]
    · have hsame : (t'.objects q).registered = true ↔ (t.objects q).registered = true := by
        rw [hreg, and_iff_right hqp]
      rw [PollPoller.watching_congr hsame fun hq => hentry q (hsame.mpr hq), hw q, heobj,
        Function.update_of_ne hqp]

end Paired

theorem paired_new [DecidableEq P] {fds : P → Nat} (hf : Function.Injective fds) :
    Paired (.new fds) (.new fds) where
  indexed := PollPoller.indexed_new hf
  mirror := EpollPoller.reachable_mirror (.of_init ⟨fds, rfl⟩)
  toChannel _ := rfl
  fd _ := rfl
  small _ := show (0 : BitVec 32).toNat < 8 by decide

namespace BothPollers

variable [DecidableEq P]

/-- `PollPoller` is in no undefined state, and the two are paired. -/
def Sound (s : BothPollers P) : Prop := ∃ t, s.poll = some t ∧ Paired t s.epoll

omit [DecidableEq P] in
/-- Watching the same comes to the same for each channel. -/
theorem sameWatches_iff {t : PollPoller P} {e : EpollPoller P} (h : Paired t e) :
    SameWatches ⟨some t, e⟩ ↔ SameWatching t e := by
  rw [← h.sameWatches_iff]
  simp [SameWatches]

/-- A call on a channel that has not been removed keeps the two together; they watch the same
exactly if it does not disable it again. -/
theorem Step.sound {s s' : BothPollers P} {l : PollerStep P} (h : s.Sound) (hu : s.Unremoved l)
    (hs : Step s l s') : s'.Sound ∧ (s.SameWatches → (s'.SameWatches ↔ s.Unrepeated l)) := by
  obtain ⟨poll, epoll⟩ := s
  obtain ⟨t, rfl, hp⟩ := h
  cases hs with
  | interest p i =>
    obtain ⟨t', heq, hp', hiff⟩ := hp.interest (hu p i rfl t rfl) i
    simp only [Option.bind_some, heq]
    refine ⟨⟨t', rfl, hp'⟩, fun hsame => ?_⟩
    rw [sameWatches_iff hp', hiff ((sameWatches_iff hp).mp hsame)]
    refine ⟨fun hrep p' i' hl => ?_, fun hrep => hrep p i rfl⟩
    cases hl
    exact hrep
  | remove p hreg =>
    obtain ⟨t', heq, hp', hiff⟩ := hp.remove (p := p) (by rw [hp.toChannel]; exact hreg)
    simp only [Option.bind_some, heq]
    refine ⟨⟨t', rfl, hp'⟩, fun hsame => ?_⟩
    rw [sameWatches_iff hp', iff_true_left (hiff ((sameWatches_iff hp).mp hsame))]
    intro p' i' hl
    cases hl

end BothPollers

/-- **When the two pollers watch the same events.**  In a run that calls on no channel after its
removal, the map from watched descriptors to masks is the same in both pollers in every state if and
only if no call leaves a channel without events that has been taken out of the kernel set for having
none. -/
theorem pollers_agree_iff [DecidableEq P] {s t : BothPollers P}
    {tr : List (BothPollers P × PollerStep P)} (h₀ : (bothPollersMachine P).init s)
    (hr : (bothPollersMachine P).Run s tr t) (hu : Meets BothPollers.Unremoved tr) :
    (Meets (fun s _ => s.SameWatches) tr ∧ t.SameWatches) ↔ Meets BothPollers.Unrepeated tr := by
  obtain ⟨fds, hf, rfl⟩ := h₀
  have hp := paired_new hf
  refine hr.holds_iff (I := BothPollers.Sound) (Q := BothPollers.SameWatches)
    (fun hi hd hs => (BothPollers.Step.sound hi hd hs).1)
    (fun hi hd hq hs => (BothPollers.Step.sound hi hd hs).2 hq) hu ⟨_, rfl, hp⟩ ?_
  refine (BothPollers.sameWatches_iff hp).mpr fun p => ?_
  simp [PollPoller.Watching, PollPoller.new, EpollPoller.new, PolledChannel.new, Channel.new,
    kAdded]

/-- The theorem where one of two channels is enabled, disabled and removed. -/
theorem pollers_agree_removed : ∃ s t tr, (bothPollersMachine Bool).Run s tr t ∧ tr.length = 4 ∧
    Meets (fun s _ => s.SameWatches) tr ∧ t.SameWatches := by
  let fds : Bool → Nat := fun p => if p then 7 else 8
  have hf : Function.Injective fds := by decide
  have hr := Machine.Run.nil (M := bothPollersMachine Bool)
      (s := ⟨some (.new fds), .new fds⟩)
    |>.snoc (.interest true .enableReading)
    |>.snoc (.interest false .enableWriting)
    |>.snoc (.interest true .disableAll)
    |>.snoc (.remove true (by decide))
  refine ⟨_, _, _, hr, rfl, (pollers_agree_iff ⟨fds, hf, rfl⟩ hr ?_).mpr ?_⟩
  · simp only [meets_snoc, meets_nil, true_and]
    refine ⟨⟨⟨?_, ?_⟩, ?_⟩, ?_⟩
    · intro p i hl t ht
      cases hl
      cases ht
      exact .inr (by decide)
    · intro p i hl t ht
      cases hl
      cases ht
      exact .inr (by decide)
    · intro p i hl t ht
      cases hl
      cases ht
      exact .inl (by decide)
    · intro p i hl
      cases hl
  · simp only [meets_snoc, meets_nil, true_and]
    refine ⟨⟨⟨?_, ?_⟩, ?_⟩, ?_⟩
    · intro p i hl hidx
      cases hl
      exact absurd hidx (by decide)
    · intro p i hl hidx
      cases hl
      exact absurd hidx (by decide)
    · intro p i hl hidx
      cases hl
      exact absurd hidx (by decide)
    · intro p i hl
      cases hl

/-- A channel disabled twice is watched by the kernel set, and not by `poll`. -/
theorem pollers_disagree_disabled : ∃ s t tr, (bothPollersMachine Unit).init s ∧
    (bothPollersMachine Unit).Run s tr t ∧ ¬ t.SameWatches := by
  let fds : Unit → Nat := fun _ => 7
  have hr := Machine.Run.nil (M := bothPollersMachine Unit) (s := ⟨some (.new fds), .new fds⟩)
    |>.snoc (.interest () .enableReading)
    |>.snoc (.interest () .disableAll)
    |>.snoc (.interest () .disableAll)
  refine ⟨_, _, _, ⟨fds, fun _ _ _ => rfl, rfl⟩, hr, ?_⟩
  rintro ⟨t, ht, hsame⟩
  cases ht
  obtain ⟨pfd, hmem, hfd, -⟩ := (hsame 7 0).mpr ⟨⟨0, ()⟩, by decide, rfl⟩
  revert hfd
  rw [List.mem_singleton.mp hmem]
  decide

end Reactor.Net
