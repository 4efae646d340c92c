import Mathlib.Logic.ExistsUnique
import Reactor.Lib.Runs
import Reactor.Net.PollPoller

/-!
# Net — PollIndex

`_pollfds`, `_channels` and the indices of the channels, after any sequence of calls that removes a
channel only while it is present and does not use it afterwards.

* `Corresponds`: entries and channels correspond one to one, and each entry tells its channel's
  descriptor and mask.
* `Tracked`: the invariant, which also says which channels are present.
* `poll_index_sound`: no call leaves the range of `_pollfds` or misses in `_channels`, and the two
  correspond.
-/

namespace Reactor.Net
open Reactor.Lib

/-- A call on a channel that ends in `updateChannel` or in `removeChannel`. -/
inductive PollCall (P : Type) where
  | update (p : P) (i : Interest)
  | remove (p : P)
  deriving DecidableEq

namespace PollCall

variable {P : Type}

/-- The channel has been added, and not removed. -/
def Present (calls : List (PollCall P)) (p : P) : Prop :=
  (∃ i, update p i ∈ calls) ∧ remove p ∉ calls

/-- A channel is removed only while present, and not updated after its removal. -/
def InOrder (before : List (PollCall P)) : PollCall P → Prop
  | update p _ => remove p ∉ before
  | remove p => Present before p

theorem present_update {calls : List (PollCall P)} {p q : P} {i : Interest}
    (hp : remove p ∉ calls) :
    Present (calls ++ [update p i]) q ↔ q = p ∨ Present calls q := by
  by_cases hqp : q = p
  · subst hqp
    simp only [Present, List.mem_append, List.mem_singleton, true_or, iff_true]
    exact ⟨⟨i, .inr rfl⟩, by simpa using hp⟩
  · simp [Present, hqp]

theorem present_remove {calls : List (PollCall P)} {p q : P} :
    Present (calls ++ [remove p]) q ↔ q ≠ p ∧ Present calls q := by
  simp only [Present, List.mem_append, List.mem_singleton, reduceCtorEq, or_false, not_or,
    remove.injEq]
  tauto

end PollCall

namespace PollPoller

variable {P : Type} [DecidableEq P]

/-- The call, as the poller gets it; `none` when an access is out of range. -/
def call (s : PollPoller P) : PollCall P → Option (PollPoller P)
  | .update p i => s.interest p i
  | .remove p => s.remove p

/-- One call after the other. -/
def callAll (s : PollPoller P) (calls : List (PollCall P)) : Option (PollPoller P) :=
  calls.foldlM call s

theorem callAll_snoc (s : PollPoller P) (calls : List (PollCall P)) (c : PollCall P) :
    s.callAll (calls ++ [c]) = (s.callAll calls).bind (·.call c) := by
  simp [callAll, List.foldlM_append]

omit [DecidableEq P] in
/-- The channel is in `_channels`. -/
def Has (s : PollPoller P) (p : P) : Prop := ∃ fd, s.channels fd = some p

omit [DecidableEq P] in
/-- `_pollfds` and the channels in `_channels` correspond one to one. -/
structure Corresponds (s : PollPoller P) : Prop where
  /-- A channel is filed under its descriptor, and its index is in range: the entry there tells
  the descriptor, negated only if the mask is empty, and the mask. -/
  place : ∀ fd p, s.channels fd = some p → fd = (s.objects p).fd ∧
    ∃ (i : Nat) (pfd : PollFd), (s.objects p).index = i ∧ s.pollfds[i]? = some pfd ∧
      (pfd.fd = fd ∨ pfd.fd = -fd - 1 ∧ (s.objects p).isNoneEvent = true) ∧
      pfd.events.signExtend 32 = (s.objects p).events
  /-- An entry is that of one channel. -/
  owner : ∀ i : Nat, i < s.pollfds.length → ∃! p, s.Has p ∧ (s.objects p).index = i

/-! ### The invariant -/

omit [DecidableEq P] in
/-- The poller and its channels after these calls. -/
structure Tracked (s : PollPoller P) (fds : P → Nat) (calls : List (PollCall P)) : Prop where
  indexed : s.Indexed
  fd : ∀ p, (s.objects p).fd = fds p
  small : ∀ p, (s.objects p).events.toNat < 8
  /-- An entry is negated only for want of events. -/
  negated : ∀ p pfd, (s.objects p).registered = true → s.entry p = some pfd → pfd.fd < 0 →
    (s.objects p).isNoneEvent = true
  present : ∀ p, (s.objects p).registered = true ↔ PollCall.Present calls p
  /-- A channel never used has no index. -/
  unused : ∀ p, (s.objects p).registered = false → PollCall.remove p ∉ calls →
    (s.objects p).index < 0

namespace Tracked

variable {s : PollPoller P} {fds : P → Nat} {calls : List (PollCall P)} {p : P}

omit [DecidableEq P] in
theorem new (hf : Function.Injective fds) : (PollPoller.new fds).Tracked fds [] where
  indexed := indexed_new hf
  fd _ := rfl
  small _ := show (0 : BitVec 32).toNat < 8 by decide
  negated p pfd hp := by simp [PollPoller.new, PolledChannel.new, Channel.new] at hp
  present p := by simp [PollPoller.new, PolledChannel.new, Channel.new, PollCall.Present]
  unused p _ _ := by simp [PollPoller.new, PolledChannel.new]

/-- A call that ends in `updateChannel`, on a channel not yet removed. -/
theorem update (h : s.Tracked fds calls) (hp : PollCall.remove p ∉ calls) (i : Interest) :
    ∃ t, s.interest p i = some t ∧ t.Tracked fds (calls ++ [.update p i]) := by
  have huse : (s.objects p).registered = true ∨ (s.objects p).index < 0 := by
    cases hreg : (s.objects p).registered with
    | true => exact .inl rfl
    | false => exact .inr (h.unused p hreg hp)
  obtain ⟨t, idx, pfd, heq, ht, hobj, hself, hneg, hother⟩ := h.indexed.interest_entry huse i
  have hat : t.objects p = ((s.objects p).setInterest i).set_index idx := by simp [hobj]
  have hfar : ∀ q, q ≠ p → t.objects q = s.objects q := fun q hq => by simp [hobj, hq]
  refine ⟨t, heq, ht, fun q => ?_, fun q => ?_, fun q e hq he hlt => ?_, fun q => ?_,
    fun q hq hnot => ?_⟩
  · by_cases hqp : q = p
    · subst hqp
      simpa [hat] using h.fd q
    · simpa [hfar q hqp] using h.fd q
  · by_cases hqp : q = p
    · subst hqp
      rw [hat]
      exact i.events_apply_lt (h.small q)
    · simpa [hfar q hqp] using h.small q
  · by_cases hqp : q = p
    · subst hqp
      cases he.symm.trans hself
      rw [hat]
      by_contra hsome
      have hsome' : ((s.objects q).setInterest i).isNoneEvent = false := by simpa using hsome
      have := hneg.mpr fun _ => hsome'
      omega
    · rw [hfar q hqp] at hq ⊢
      exact h.negated q e hq ((hother q hqp hq).symm.trans he) hlt
  · rw [PollCall.present_update hp]
    by_cases hqp : q = p
    · simp [hqp, hat]
    · simpa [hfar q hqp, hqp] using h.present q
  · have hqp : q ≠ p := by
      rintro rfl
      simp [hat] at hq
    rw [hfar q hqp] at hq ⊢
    exact h.unused q hq fun hmem => hnot (List.mem_append_left _ hmem)

/-- A call that ends in `removeChannel`, on a channel that is present. -/
theorem remove (h : s.Tracked fds calls) (hp : PollCall.Present calls p) :
    ∃ t, s.remove p = some t ∧ t.Tracked fds (calls ++ [.remove p]) := by
  have hreg := (h.present p).mpr hp
  obtain ⟨q', hq', hlast, heq⟩ := h.indexed.remove_eq hreg
  have htoChannel : ∀ q, q ≠ p →
      ((s.withoutEntry p q').objects q).toChannel = (s.objects q).toChannel := fun q hqp => by
    rw [toChannel_withoutEntry, Function.update_of_ne hqp]
  refine ⟨_, heq, h.indexed.withoutEntry hreg hq' hlast, fun q => ?_, fun q => ?_,
    fun q e hq he hlt => ?_, fun q => ?_, fun q hq hnot => ?_⟩
  · rw [fd_withoutEntry]
    exact h.fd q
  · rw [toChannel_withoutEntry]
    by_cases hqp : q = p
    · subst hqp
      simpa [PolledChannel.removed, Channel.remove] using h.small q
    · simpa [hqp] using h.small q
  · obtain ⟨hqp, hq₀⟩ := registered_withoutEntry.mp hq
    rw [h.indexed.entry_withoutEntry hreg hq' hlast hq] at he
    rw [htoChannel q hqp]
    exact h.negated q e hq₀ he hlt
  · rw [registered_withoutEntry, PollCall.present_remove, h.present]
  · have hqp : q ≠ p := by
      rintro rfl
      simp at hnot
    rw [htoChannel q hqp] at hq
    have hq'' : q ≠ q' := by
      rintro rfl
      rw [hq'] at hq
      cases hq
    rw [index_withoutEntry hqp, if_neg hq'']
    exact h.unused q hq fun hmem => hnot (List.mem_append_left _ hmem)

omit [DecidableEq P] in
/-- The channels in the poller are those the calls say. -/
theorem has_iff (h : s.Tracked fds calls) (p : P) : s.Has p ↔ PollCall.Present calls p := by
  rw [← h.present]
  constructor
  · rintro ⟨fd, hfd⟩
    exact ((h.indexed.channels fd p).mp hfd).1
  · intro hp
    exact ⟨_, (h.indexed.channels _ p).mpr ⟨hp, rfl⟩⟩

omit [DecidableEq P] in
theorem corresponds (h : s.Tracked fds calls) : s.Corresponds where
  place fd p hfd := by
    obtain ⟨hp, rfl⟩ := (h.indexed.channels fd p).mp hfd
    obtain ⟨hpos, pfd, hentry, hchan, hevents⟩ := h.indexed.entry p hp
    refine ⟨rfl, (s.objects p).index.toNat, pfd, by omega, hentry, ?_, ?_⟩
    · rw [PollFd.channelFd] at hchan
      split at hchan
      · next hlt => exact .inr ⟨by omega, h.negated p pfd hp hentry hlt⟩
      · exact .inl hchan
    · rw [hevents, signExtend_truncate (h.small p)]
  owner i hi := by
    obtain ⟨p, hp, hpi⟩ := h.indexed.owner i hi
    refine ⟨p, ⟨(h.has_iff p).mpr ((h.present p).mp hp), hpi⟩, ?_⟩
    rintro q ⟨hq, hqi⟩
    exact h.indexed.index_inj ((h.present q).mpr ((h.has_iff q).mp hq)) hp (hqi.trans hpi.symm)

end Tracked

/-- The calls one after the other. -/
theorem tracked_callAll {fds : P → Nat} (hf : Function.Injective fds)
    (calls : List (PollCall P)) (h : Each PollCall.InOrder calls) :
    ∃ t, (PollPoller.new fds).callAll calls = some t ∧ t.Tracked fds calls := by
  induction calls using List.reverseRecOn with
  | nil => exact ⟨_, rfl, .new hf⟩
  | append_singleton calls c ih =>
    obtain ⟨hbefore, hc⟩ := each_snoc.mp h
    obtain ⟨s, hs, hi⟩ := ih hbefore
    rw [callAll_snoc, hs, Option.bind_some]
    cases c with
    | update p i => exact hi.update hc i
    | remove p => exact hi.remove hc

end PollPoller

/-- **The index structure of `PollPoller` is sound.**  Over channels with distinct descriptors, a
sequence of calls that removes a channel only while it is present, and does not update it after
that, leaves the range of `_pollfds` at no call and misses in `_channels` at none; after it the
channels in `_channels` are those present, and they correspond to the entries one to one. -/
theorem poll_index_sound {P : Type} [DecidableEq P] {fds : P → Nat}
    (hf : Function.Injective fds) {calls : List (PollCall P)}
    (h : Each PollCall.InOrder calls) :
    ∃ t, (PollPoller.new fds).callAll calls = some t ∧ t.Corresponds ∧
      (∀ p, t.Has p ↔ PollCall.Present calls p) ∧ ∀ p, (t.objects p).fd = fds p := by
  obtain ⟨t, ht, hi⟩ := PollPoller.tracked_callAll hf calls h
  exact ⟨t, ht, hi.corresponds, hi.has_iff, hi.fd⟩

/-- The theorem where the first of two channels is disabled and removed, and the entry of the other
moves. -/
theorem poll_index_sound_moved : ∃ t : PollPoller Bool, t.Corresponds ∧ t.Has false ∧
    ¬ t.Has true ∧ (t.objects false).index = 0 := by
  let fds : Bool → Nat := fun p => if p then 7 else 8
  let calls : List (PollCall Bool) :=
    [.update true .enableReading, .update false .enableWriting, .update true .disableAll,
      .remove true]
  have horder : Each PollCall.InOrder calls := by
    have h₁ := (each_nil PollCall.InOrder).snoc (a := PollCall.update true .enableReading)
      (by simp [PollCall.InOrder])
    have h₂ := h₁.snoc (a := .update false .enableWriting) (by simp [PollCall.InOrder])
    have h₃ := h₂.snoc (a := .update true .disableAll) (by simp [PollCall.InOrder])
    have hpresent : PollCall.InOrder
        [.update true .enableReading, .update false .enableWriting, .update true .disableAll]
        (PollCall.remove true) := ⟨⟨.enableReading, by simp⟩, by simp⟩
    exact h₃.snoc hpresent
  have hf : Function.Injective fds := by decide
  obtain ⟨t, ht, hcorr, hhas, hfd⟩ := poll_index_sound hf horder
  refine ⟨t, hcorr, (hhas false).mpr ?_, fun h => ((hhas true).mp h).2 (by simp [calls]), ?_⟩
  · exact ⟨⟨.enableWriting, by simp [calls]⟩, by simp [calls]⟩
  · cases ht
    decide

end Reactor.Net
