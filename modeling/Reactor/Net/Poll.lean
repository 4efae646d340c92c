import Mathlib.Data.List.Nodup
import Mathlib.Data.List.Perm.Basic
import Reactor.Net.ConnectionEvents
import Reactor.Net.PollerAgreement

/-!
# Net — poll

`poll` and `fillActiveChannels` of the two pollers.  What goes on at the descriptors is the same for
both; each reports of it what is in the masks, and errors and hangups.  `::poll` answers for every
entry, `epoll_wait` for as many descriptors as the event list has room for, and which is the
kernel's choice; the list is made twice as long when it was full.

* `polls_agree`: in a run without a call on a channel that has been removed and without a repeated
  disabling, the two report the same channels with the same events, where the list is not full.
* `left_out_le`: how many polls of a run leave out a descriptor that is ready.

A failed call (`EINTR`) reports nothing and is left out.
-/

namespace Reactor.Net
open Reactor.Lib

/-- What the kernel reports of the events at a descriptor to whom waits for those of `mask`. -/
def reported (ready : Nat → BitVec 32) (fd : Nat) (mask : BitVec 32) : BitVec 32 :=
  ready fd &&& (mask ||| EPOLLERR ||| EPOLLHUP)

/-- What is reported of a channel fits in the width of a `short`. -/
theorem reported_lt (ready : Nat → BitVec 32) (fd : Nat) {mask : BitVec 32}
    (h : mask.toNat < 8) : (reported ready fd mask).toNat < 32 := by
  have hor : (mask ||| EPOLLERR ||| EPOLLHUP).toNat < 32 := by
    rw [BitVec.toNat_or, BitVec.toNat_or]
    exact Nat.or_lt_two_pow (n := 5) (Nat.or_lt_two_pow (by omega) (by decide)) (by decide)
  rw [reported, BitVec.toNat_and]
  exact Nat.and_le_right.trans_lt hor

/-! ### PollPoller -/

/-- An entry after `::poll`. -/
def PollFd.polled (ready : Nat → BitVec 32) (pfd : PollFd) : PollFd :=
  { pfd with revents :=
      if pfd.fd < 0 then 0 else (reported ready pfd.fd.toNat (pfd.events.setWidth 32)).truncate 16 }

namespace PollPoller

variable {P : Type}

/-- `fillActiveChannels(numEvents, activeChannels)`, from an entry on. -/
def fillActiveChannels (s : PollPoller P) : List PollFd → Nat → Option (List (P × BitVec 32))
  | [], _ => some []
  | _ :: _, 0 => some []
  | pfd :: rest, numEvents + 1 =>
    if 0 < pfd.revents.toInt then do
      let channel ← s.channels pfd.fd
      let activeChannels ← s.fillActiveChannels rest numEvents
      return (channel, pfd.revents.signExtend 32) :: activeChannels
    else s.fillActiveChannels rest (numEvents + 1)

/-- `poll`, and the channels it leaves in `activateChannels`, each with its `revents`. -/
def poll (s : PollPoller P) (ready : Nat → BitVec 32) :
    Option (PollPoller P × List (P × BitVec 32)) := do
  let pollfds := s.pollfds.map (·.polled ready)
  let numEvents := pollfds.countP fun pfd => pfd.revents ≠ 0
  let s := { s with pollfds := pollfds }
  if numEvents > 0 then
    let activeChannels ← s.fillActiveChannels pollfds numEvents
    return (s, activeChannels)
  else return (s, [])

/-- What an entry adds to `activateChannels`. -/
def activeChannel (s : PollPoller P) (pfd : PollFd) : Option (P × BitVec 32) :=
  if pfd.revents ≠ 0 then (s.channels pfd.fd).map fun p => (p, pfd.revents.signExtend 32) else none

theorem fillActiveChannels_zero (s : PollPoller P) (pollfds : List PollFd) :
    s.fillActiveChannels pollfds 0 = some [] := by
  cases pollfds <;> rfl

/-- The count does not end the loop before the last entry with an event. -/
theorem fillActiveChannels_eq {s : PollPoller P} {pollfds : List PollFd} {numEvents : Nat}
    (hcount : pollfds.countP (fun pfd => pfd.revents ≠ 0) ≤ numEvents)
    (hentry : ∀ pfd ∈ pollfds, pfd.revents ≠ 0 →
      0 < pfd.revents.toInt ∧ (s.channels pfd.fd).isSome) :
    s.fillActiveChannels pollfds numEvents = some (pollfds.filterMap s.activeChannel) := by
  induction pollfds generalizing numEvents with
  | nil => rw [fillActiveChannels, List.filterMap_nil]
  | cons pfd rest ih =>
    have hrest : ∀ pfd ∈ rest, pfd.revents ≠ 0 →
        0 < pfd.revents.toInt ∧ (s.channels pfd.fd).isSome :=
      fun pfd hmem => hentry pfd (List.mem_cons_of_mem _ hmem)
    cases numEvents with
    | zero =>
      -- no entry with an event is left
      have hnone : ∀ x ∈ pfd :: rest, s.activeChannel x = none := fun x hx => by
        have hzero := List.countP_eq_zero.mp (Nat.le_zero.mp hcount) x hx
        exact if_neg (by simpa using hzero)
      rw [fillActiveChannels_zero, List.filterMap_eq_nil_iff.mpr hnone]
    | succ numEvents =>
      by_cases hev : pfd.revents = 0
      · rw [List.countP_cons_of_neg (by simp [hev])] at hcount
        have hnot : ¬ 0 < pfd.revents.toInt := by simp [hev]
        have hskip : s.activeChannel pfd = none := if_neg (not_not.mpr hev)
        rw [fillActiveChannels, if_neg hnot, List.filterMap_cons_none hskip]
        exact ih hcount hrest
      · rw [List.countP_cons_of_pos (by simpa using hev)] at hcount
        obtain ⟨hpos, hsome⟩ := hentry pfd List.mem_cons_self hev
        obtain ⟨channel, hchannel⟩ := Option.isSome_iff_exists.mp hsome
        have hadd : s.activeChannel pfd = some (channel, pfd.revents.signExtend 32) := by
          rw [activeChannel, if_pos hev, hchannel, Option.map_some]
        rw [fillActiveChannels, if_pos hpos, hchannel, List.filterMap_cons_some hadd,
          ih (Nat.le_of_succ_le_succ hcount) hrest]
        rfl

end PollPoller

/-- A mask of few bits is told as a positive `short`. -/
theorem truncate_pos {e : BitVec 32} (h : e.toNat < 32) :
    (e ≠ 0 ↔ e.truncate 16 ≠ 0) ∧ (e ≠ 0 → 0 < (e.truncate 16).toInt) ∧
      (e.truncate 16).signExtend 32 = e := by
  have hnat : (e.truncate 16).toNat = e.toNat := by
    simp only [BitVec.truncate_eq_setWidth, BitVec.toNat_setWidth]
    omega
  have hmsb : (e.truncate 16).msb = false := by
    rw [BitVec.msb_eq_false_iff_two_mul_lt, hnat]
    omega
  refine ⟨?_, fun hne => ?_, ?_⟩
  · rw [ne_eq, ne_eq, ← BitVec.toNat_inj, ← BitVec.toNat_inj, hnat]
    rfl
  · have hpos : e.toNat ≠ 0 := fun hzero => hne (BitVec.eq_of_toNat_eq hzero)
    rw [BitVec.toInt_eq_toNat_of_msb hmsb, hnat]
    omega
  · apply BitVec.eq_of_toNat_eq
    rw [BitVec.signExtend_eq_setWidth_of_msb_false hmsb, BitVec.toNat_setWidth, hnat]
    omega

/-- A mask is not changed by its way through a `short`. -/
theorem setWidth_truncate {e : BitVec 32} (h : e.toNat < 8) :
    (e.truncate 16).setWidth 32 = e := by
  apply BitVec.eq_of_toNat_eq
  simp only [BitVec.truncate_eq_setWidth, BitVec.toNat_setWidth]
  omega

namespace PollPoller

variable {P : Type} {s : PollPoller P} {p : P} {pfd : PollFd}

/-- Every entry is that of a channel in the poller. -/
theorem Indexed.of_mem (h : s.Indexed) (hmem : pfd ∈ s.pollfds) :
    ∃ p, (s.objects p).registered = true ∧ s.entry p = some pfd := by
  obtain ⟨j, hj, hget⟩ := List.mem_iff_getElem.mp hmem
  obtain ⟨p, hp, hpj⟩ := h.owner j hj
  refine ⟨p, hp, ?_⟩
  rw [PollPoller.entry, hpj, Int.toNat_natCast, List.getElem?_eq_getElem hj, hget]

/-- An entry after `::poll`: negated, or with what is reported at the channel's descriptor. -/
theorem Indexed.polled_entry (h : s.Indexed) (hsmall : (s.objects p).events.toNat < 8)
    (hp : (s.objects p).registered = true) (hentry : s.entry p = some pfd)
    (ready : Nat → BitVec 32) :
    pfd.fd < 0 ∧ (pfd.polled ready).revents = 0 ∨ pfd.fd = (s.objects p).fd ∧
      (pfd.polled ready).revents =
        (reported ready (s.objects p).fd (s.objects p).events).truncate 16 := by
  obtain ⟨-, pfd', hentry', hchan, hevents⟩ := h.entry p hp
  cases hentry.symm.trans hentry'
  by_cases hneg : pfd.fd < 0
  · exact .inl ⟨hneg, by simp only [PollFd.polled]; rw [if_pos hneg]⟩
  · rw [PollFd.channelFd, if_neg hneg] at hchan
    refine .inr ⟨hchan, ?_⟩
    simp only [PollFd.polled]
    rw [if_neg hneg, hevents, setWidth_truncate hsmall, hchan, Int.toNat_natCast]

/-- What it adds to `activateChannels`. -/
theorem Indexed.activeChannel_entry (h : s.Indexed)
    (hsmall : (s.objects p).events.toNat < 8) (hp : (s.objects p).registered = true)
    (hentry : s.entry p = some pfd) (ready : Nat → BitVec 32) :
    s.activeChannel (pfd.polled ready) =
      if 0 ≤ pfd.fd ∧ reported ready (s.objects p).fd (s.objects p).events ≠ 0 then
        some (p, reported ready (s.objects p).fd (s.objects p).events)
      else none := by
  rcases h.polled_entry hsmall hp hentry ready with ⟨hneg, hrevents⟩ | ⟨hfd, hrevents⟩
  · rw [activeChannel, if_neg (not_not.mpr hrevents), if_neg (by omega)]
  · obtain ⟨hzero, -, hback⟩ := truncate_pos (reported_lt ready (s.objects p).fd hsmall)
    have hpolled : (pfd.polled ready).fd = (s.objects p).fd := hfd
    have hchannel : s.channels (s.objects p).fd = some p := (h.channels _ p).mpr ⟨hp, rfl⟩
    have hiff : (0 ≤ pfd.fd ∧ reported ready (s.objects p).fd (s.objects p).events ≠ 0) ↔
        (reported ready (s.objects p).fd (s.objects p).events).truncate 16 ≠ 0 := by
      rw [← hzero]
      exact and_iff_right (by omega)
    rw [activeChannel, hrevents, hpolled, hchannel, Option.map_some, hback]
    simp only [hiff]

/-- The loop of `fillActiveChannels` finds the channel of each entry with an event. -/
theorem Indexed.polled_found (h : s.Indexed) (hsmall : ∀ p, (s.objects p).events.toNat < 8)
    (ready : Nat → BitVec 32) (hmem : pfd ∈ s.pollfds) (hev : (pfd.polled ready).revents ≠ 0) :
    0 < (pfd.polled ready).revents.toInt ∧ (s.channels (pfd.polled ready).fd).isSome := by
  obtain ⟨p, hp, hentry⟩ := h.of_mem hmem
  rcases h.polled_entry (hsmall p) hp hentry ready with ⟨-, hrevents⟩ | ⟨hfd, hrevents⟩
  · exact absurd hrevents hev
  · obtain ⟨hzero, hpos, -⟩ := truncate_pos (reported_lt ready (s.objects p).fd (hsmall p))
    have hpolled : (pfd.polled ready).fd = (s.objects p).fd := hfd
    rw [hrevents] at hev ⊢
    rw [hpolled, (h.channels _ p).mpr ⟨hp, rfl⟩]
    exact ⟨hpos (hzero.mpr hev), rfl⟩

/-- The entries are of different descriptors. -/
theorem Indexed.nodup (h : s.Indexed) : (s.pollfds.map PollFd.channelFd).Nodup := by
  refine List.nodup_iff_getElem?_ne_getElem?.mpr fun i j hij hj heq => ?_
  rw [List.length_map] at hj
  have howner : ∀ k, k < s.pollfds.length → ∃ p, (s.objects p).index = k ∧
      (s.pollfds.map PollFd.channelFd)[k]? = some ((s.objects p).fd : Int) := by
    intro k hk
    obtain ⟨p, hp, hpk⟩ := h.owner k hk
    obtain ⟨-, pfd, hentry, hfd, -⟩ := h.entry p hp
    rw [PollPoller.entry, hpk, Int.toNat_natCast] at hentry
    exact ⟨p, hpk, by rw [List.getElem?_map, hentry, Option.map_some, hfd]⟩
  obtain ⟨p, hpi, hfdi⟩ := howner i (by omega)
  obtain ⟨q, hqj, hfdj⟩ := howner j hj
  have hfd : ((s.objects p).fd : Int) = (s.objects q).fd :=
    Option.some.inj (hfdi.symm.trans (heq.trans hfdj))
  rw [h.distinct p q (by exact_mod_cast hfd), hqj] at hpi
  omega

theorem Indexed.nodup_activeChannels (h : s.Indexed) (ready : Nat → BitVec 32) :
    ((s.pollfds.map (PollFd.polled ready)).filterMap s.activeChannel).Nodup := by
  have hpairwise : s.pollfds.Pairwise fun a b => a.channelFd ≠ b.channelFd :=
    List.pairwise_map.mp h.nodup
  have hfd : ∀ pfd b, s.activeChannel pfd = some b → pfd.channelFd = (s.objects b.1).fd := by
    intro pfd b hb
    rw [activeChannel] at hb
    split at hb
    · obtain ⟨p, hp, rfl⟩ := Option.map_eq_some_iff.mp hb
      have hp' := ((h.channels _ p).mp hp).2
      rw [PollFd.channelFd, if_neg (by omega)]
      exact hp'.symm
    · cases hb
  refine List.Pairwise.filterMap (R := fun a b => a.channelFd ≠ b.channelFd) _ ?_
    (List.pairwise_map.mpr hpairwise)
  rintro a a' hne b hb b' hb' rfl
  exact hne ((hfd _ b hb).trans (hfd _ b hb').symm)

/-- **What `poll` leaves in `activateChannels`**: each channel watched at whose descriptor there is
something to report, once. -/
theorem Indexed.poll_spec (h : s.Indexed) (hsmall : ∀ p, (s.objects p).events.toNat < 8)
    (ready : Nat → BitVec 32) : ∃ activeChannels,
      s.poll ready =
        some ({ s with pollfds := s.pollfds.map (PollFd.polled ready) }, activeChannels) ∧
      activeChannels.Nodup ∧ ∀ p revents, (p, revents) ∈ activeChannels ↔ s.Watching p ∧
        revents ≠ 0 ∧ revents = reported ready (s.objects p).fd (s.objects p).events := by
  refine ⟨_, ?_, h.nodup_activeChannels ready, fun p revents => ?_⟩
  · have hfound : ∀ x ∈ s.pollfds.map (PollFd.polled ready), x.revents ≠ 0 →
        0 < x.revents.toInt ∧ (s.channels x.fd).isSome := by
      intro x hx
      obtain ⟨pfd, hmem, rfl⟩ := List.mem_map.mp hx
      exact h.polled_found hsmall ready hmem
    let t : PollPoller P := { s with pollfds := s.pollfds.map (PollFd.polled ready) }
    have hfill : t.fillActiveChannels t.pollfds (t.pollfds.countP fun pfd => pfd.revents ≠ 0) =
        some (t.pollfds.filterMap s.activeChannel) :=
      fillActiveChannels_eq (s := t) (Nat.le_refl _) hfound
    simp only [poll]
    split
    · change (do
        let activeChannels ← t.fillActiveChannels t.pollfds (t.pollfds.countP _)
        pure (t, activeChannels)) = _
      rw [hfill]
      rfl
    · next hzero =>
      have hcount : t.pollfds.countP (fun pfd => pfd.revents ≠ 0) = 0 :=
        Nat.eq_zero_of_not_pos hzero
      rw [hcount, fillActiveChannels_zero] at hfill
      exact congrArg (fun l => some (t, l)) (Option.some.inj hfill)
  · rw [List.mem_filterMap]
    constructor
    · rintro ⟨_, hpolled, hactive⟩
      obtain ⟨pfd, hmem, rfl⟩ := List.mem_map.mp hpolled
      obtain ⟨q, hq, hentry⟩ := h.of_mem hmem
      rw [h.activeChannel_entry (hsmall q) hq hentry ready] at hactive
      split at hactive
      · next hcond =>
        cases hactive
        exact ⟨⟨hq, pfd, hentry, hcond.1⟩, hcond.2, rfl⟩
      · cases hactive
    · rintro ⟨⟨hp, pfd, hentry, hpos⟩, hne, rfl⟩
      refine ⟨pfd.polled ready, List.mem_map_of_mem (List.mem_of_getElem? hentry), ?_⟩
      rw [h.activeChannel_entry (hsmall p) hp hentry ready, if_pos ⟨hpos, hne⟩]

end PollPoller

/-! ### EpollPoller -/

namespace EpollPoller

variable {P : Type}

/-- What `epoll_wait` puts into the event list of a descriptor that is ready. -/
def readyEvent (s : EpollPoller P) (ready : Nat → BitVec 32) (fd : Nat) : Option (EpollEvent P) :=
  (s.kernel fd).bind fun event =>
    let revents := reported ready fd event.events
    if revents ≠ 0 then some ⟨revents, event.ptr⟩ else none

/-- `epoll_wait` with room for `maxevents` answers for these descriptors. -/
structure Waits (s : EpollPoller P) (ready : Nat → BitVec 32) (maxevents : Nat) (fds : List Nat) :
    Prop where
  isReady : ∀ fd ∈ fds, (s.readyEvent ready fd).isSome
  nodup : fds.Nodup
  length_le : fds.length ≤ maxevents
  /-- All that is ready, if there is room. -/
  all : fds.length < maxevents → ∀ fd, (s.readyEvent ready fd).isSome → fd ∈ fds

/-- The size of the event list of a new poller. -/
def kInitEventListSize : Nat := 16

/-- `fillActiveChannels(numEvents, activeChannels)` -/
def fillActiveChannels (events : List (EpollEvent P)) (numEvents : Nat) : List (P × BitVec 32) :=
  (events.take numEvents).map fun event => (event.ptr, event.events)

/-- `poll`, where `epoll_wait` answers for `fds` and `_events` has this size: what it leaves in
`activateChannels`, and the size then. -/
def poll (s : EpollPoller P) (ready : Nat → BitVec 32) (fds : List Nat) (size : Nat) :
    List (P × BitVec 32) × Nat :=
  let events := fds.filterMap (s.readyEvent ready)
  let numEvents := events.length
  if numEvents > 0 then
    (fillActiveChannels events numEvents, if numEvents = size then size * 2 else size)
  else ([], size)

variable {s : EpollPoller P} {ready : Nat → BitVec 32} {fds : List Nat} {size : Nat}

/-- Every descriptor the kernel answers for has an event. -/
theorem Waits.length_filterMap (h : s.Waits ready size fds) :
    (fds.filterMap (s.readyEvent ready)).length = fds.length := by
  rw [List.length_filterMap_eq_countP, List.countP_eq_length]
  exact h.isReady

/-- What `poll` leaves in `activateChannels` is what `epoll_wait` answers, and the list grows when
it was full. -/
theorem Waits.poll_eq (h : s.Waits ready size fds) : s.poll ready fds size =
    ((fds.filterMap (s.readyEvent ready)).map fun event => (event.ptr, event.events),
      if fds.length = size then size * 2 else size) := by
  have hlen := h.length_filterMap
  simp only [poll, fillActiveChannels, hlen]
  split
  · rw [List.take_of_length_le hlen.le]
  · next hzero =>
    have hnil : fds = [] := List.length_eq_zero_iff.mp (Nat.eq_zero_of_not_pos hzero)
    rw [hnil]
    refine Prod.ext rfl ?_
    simp only [List.length_nil]
    split <;> omega

/-- What the kernel answers of a descriptor is about the channel that has it. -/
theorem Mirror.readyEvent_iff (hm : s.Mirror) (ready : Nat → BitVec 32) {fd : Nat} {p : P}
    {revents : BitVec 32} :
    s.readyEvent ready fd = some ⟨revents, p⟩ ↔ (s.objects p).fd = fd ∧
      (s.objects p).index = kAdded ∧ revents ≠ 0 ∧
        revents = reported ready (s.objects p).fd (s.objects p).events := by
  rw [readyEvent, Option.bind_eq_some_iff]
  constructor
  · rintro ⟨event, hev, hsome⟩
    obtain ⟨q, rfl, hidx, rfl⟩ := (hm.kernel fd event).mp hev
    dsimp only at hsome
    split at hsome
    · next hne =>
      cases hsome
      exact ⟨rfl, hidx, hne, rfl⟩
    · cases hsome
  · rintro ⟨rfl, hidx, hne, rfl⟩
    exact ⟨_, (hm.kernel _ _).mpr ⟨p, rfl, hidx, rfl⟩, if_pos hne⟩

/-- **What `poll` leaves in `activateChannels`**, where the event list was not full: each channel in
the kernel set at whose descriptor there is something to report, once. -/
theorem Mirror.poll_spec (hm : s.Mirror) (h : s.Waits ready size fds) (hlt : fds.length < size) :
    (s.poll ready fds size).1.Nodup ∧ ∀ p revents, (p, revents) ∈ (s.poll ready fds size).1 ↔
      (s.objects p).index = kAdded ∧ revents ≠ 0 ∧
        revents = reported ready (s.objects p).fd (s.objects p).events := by
  rw [h.poll_eq]
  refine ⟨?_, fun p revents => ?_⟩
  · refine List.pairwise_map.mpr (List.Pairwise.filterMap _ ?_ h.nodup)
    rintro fd fd' hne ⟨revents, p⟩ hp ⟨revents', p'⟩ hp' heq
    cases heq
    exact hne (((hm.readyEvent_iff ready).mp hp).1.symm.trans ((hm.readyEvent_iff ready).mp hp').1)
  · rw [List.mem_map]
    constructor
    · rintro ⟨⟨events, q⟩, hmem, heq⟩
      cases heq
      obtain ⟨fd, -, hev⟩ := List.mem_filterMap.mp hmem
      exact ((hm.readyEvent_iff ready).mp hev).2
    · intro hp
      have hev := (hm.readyEvent_iff ready).mpr ⟨rfl, hp⟩
      have hmem := h.all hlt _ (Option.isSome_iff_exists.mpr ⟨_, hev⟩)
      exact ⟨_, List.mem_filterMap.mpr ⟨_, hmem, hev⟩, rfl⟩

end EpollPoller

/-! ### Runs with polls -/

section
variable {P : Type}

/-- `::poll` changes nothing but the events found. -/
theorem Paired.polled {q : PollPoller P} {e : EpollPoller P} (h : Paired q e)
    (ready : Nat → BitVec 32) :
    Paired { q with pollfds := q.pollfds.map (PollFd.polled ready) } e where
  indexed := {
    entry := fun p hp => by
      obtain ⟨hpos, pfd, hentry, hfd, hevents⟩ := h.indexed.entry p hp
      refine ⟨hpos, pfd.polled ready, ?_, hfd, hevents⟩
      rw [PollPoller.entry] at hentry ⊢
      rw [List.getElem?_map, hentry, Option.map_some]
    owner := fun j hj => h.indexed.owner j (by simpa using hj)
    channels := h.indexed.channels
    distinct := h.indexed.distinct }
  mirror := h.mirror
  toChannel := h.toChannel
  fd := h.fd
  small := h.small

theorem PollPoller.polled_watching {q : PollPoller P} (ready : Nat → BitVec 32) (p : P) :
    Watching { q with pollfds := q.pollfds.map (PollFd.polled ready) } p ↔
      q.Watching p := by
  refine and_congr_right fun _ => ?_
  simp only [PollPoller.entry, List.getElem?_map, Option.map_eq_some_iff]
  constructor
  · rintro ⟨_, ⟨pfd, hentry, rfl⟩, hpos⟩
    exact ⟨pfd, hentry, hpos⟩
  · rintro ⟨pfd, hentry, hpos⟩
    exact ⟨_, ⟨pfd, hentry, rfl⟩, hpos⟩

end

/-- The two pollers in their loops, which poll. -/
structure Polling (P : Type) where
  pollers : BothPollers P
  /-- `_events.size()` -/
  size : Nat

/-- A call of a function of a channel, or a poll in which the kernel answers for `fds`. -/
inductive PollingStep (P : Type) where
  | call (l : PollerStep P)
  | poll (ready : Nat → BitVec 32) (fds : List Nat)

namespace Polling

variable {P : Type} [DecidableEq P]

/-- The steps, taken by both pollers. -/
inductive Step : Polling P → PollingStep P → Polling P → Prop where
  | call {s l pollers} (h : BothPollers.Step s.pollers l pollers) :
      Step s (.call l) { s with pollers := pollers }
  /-- Both poll, with the same going on. -/
  | poll {s} (ready : Nat → BitVec 32) (fds : List Nat)
      (h : s.pollers.epoll.Waits ready s.size fds) :
      Step s (.poll ready fds) {
        pollers := {
          poll := s.pollers.poll.bind fun t => (t.poll ready).map Prod.fst
          epoll := s.pollers.epoll }
        size := (s.pollers.epoll.poll ready fds s.size).2 }

end Polling

/-- Two empty pollers, the same channels for both, and all that can follow. -/
def pollingMachine (P : Type) [DecidableEq P] : Machine (Polling P) (PollingStep P) where
  init s := (bothPollersMachine P).init s.pollers ∧ s.size = EpollPoller.kInitEventListSize
  step := Polling.Step

namespace Polling

variable {P : Type} [DecidableEq P] {s t : Polling P} {l : PollingStep P}

/-- The call is not one on a channel that has been removed, and does not leave a channel without
events that has been taken out of the kernel set for having none.  In a run these are the calls
under which the two watch the same events. -/
def InStep (s : Polling P) (l : PollingStep P) : Prop :=
  ∀ c, l = .call c → s.pollers.Unremoved c ∧ s.pollers.Unrepeated c

/-- The poll leaves out a descriptor that is ready. -/
def LeavesOut (s : Polling P) (l : PollingStep P) : Prop :=
  ∃ ready fds fd, l = .poll ready fds ∧ (s.pollers.epoll.readyEvent ready fd).isSome ∧ fd ∉ fds

/-- At no poll are more than `n` descriptors ready. -/
def AtMost (n : Nat) (s : Polling P) (l : PollingStep P) : Prop :=
  ∀ ready fds, l = .poll ready fds → ∀ fds' : List Nat, fds'.Nodup →
    (∀ fd ∈ fds', (s.pollers.epoll.readyEvent ready fd).isSome) → fds'.length ≤ n

/-! ### The two agree -/

/-- A call or a poll leaves the two watching the same. -/
theorem step_sound (h : s.pollers.Sound ∧ s.pollers.SameWatches) (hl : s.InStep l)
    (hstep : Step s l t) : t.pollers.Sound ∧ t.pollers.SameWatches := by
  cases hstep with
  | call hcall =>
    obtain ⟨hsound, hsame⟩ := BothPollers.Step.sound h.1 (hl _ rfl).1 hcall
    exact ⟨hsound, (hsame h.2).mpr (hl _ rfl).2⟩
  | poll ready fds hwait =>
    obtain ⟨⟨poll, epoll⟩, size⟩ := s
    obtain ⟨⟨q, rfl, hp⟩, hsame⟩ := h
    have hsmall : ∀ p, (q.objects p).events.toNat < 8 := fun p => by
      rw [hp.toChannel]
      exact hp.small p
    obtain ⟨active, hpoll, -⟩ := hp.indexed.poll_spec hsmall ready
    simp only [Option.bind_some, hpoll, Option.map_some]
    refine ⟨⟨_, rfl, hp.polled ready⟩, ?_⟩
    rw [BothPollers.sameWatches_iff (hp.polled ready)]
    intro p
    rw [PollPoller.polled_watching]
    exact (BothPollers.sameWatches_iff hp).mp hsame p

theorem init_sound (h : (pollingMachine P).init s) :
    s.pollers.Sound ∧ s.pollers.SameWatches := by
  obtain ⟨⟨fds, hf, heq⟩, -⟩ := h
  rw [heq]
  have hp := paired_new (P := P) hf
  refine ⟨⟨_, rfl, hp⟩, (BothPollers.sameWatches_iff hp).mpr fun p => ?_⟩
  simp [PollPoller.Watching, PollPoller.new, EpollPoller.new, PolledChannel.new, Channel.new,
    kAdded]

/-! ### The size of the event list -/

/-- A poll that leaves out a descriptor finds the list full, and it is made twice as long. -/
theorem Step.size_leavesOut {n : Nat} (hn : s.AtMost n l) (hl : s.LeavesOut l)
    (hstep : Step s l t) : s.size < n ∧ t.size = s.size * 2 := by
  obtain ⟨ready, fds, fd, rfl, hready, hnot⟩ := hl
  cases hstep with
  | poll ready fds hwait =>
    have hfull : fds.length = s.size := by
      by_contra hne
      exact hnot (hwait.all (by have := hwait.length_le; omega) fd hready)
    have hmany := hn ready fds rfl (fd :: fds) (List.nodup_cons.mpr ⟨hnot, hwait.nodup⟩)
      (List.forall_mem_cons.mpr ⟨hready, hwait.isReady⟩)
    rw [List.length_cons, hfull] at hmany
    refine ⟨hmany, ?_⟩
    simp only [hwait.poll_eq, if_pos hfull]

/-- The event list never shrinks. -/
theorem Step.size_le (hstep : Step s l t) : s.size ≤ t.size := by
  cases hstep with
  | call hcall => exact Nat.le_refl _
  | poll ready fds hwait =>
    simp only [hwait.poll_eq]
    split <;> omega

end Polling

/-- **The two pollers report the same.**  In a run without a call on a channel that has been removed
and without a call that leaves a channel without events which has been taken out of the kernel set
for having none, with any polls among them: what a poll leaves in `activateChannels` is the same
for both, each channel once with the same events, unless it fills the event list of
`EpollPoller`. -/
theorem polls_agree {P : Type} [DecidableEq P] {s t : Polling P}
    {tr : List (Polling P × PollingStep P)} (hinit : (pollingMachine P).init s)
    (h : (pollingMachine P).Run s tr t) (hstep : Meets Polling.InStep tr)
    {ready : Nat → BitVec 32} {fds : List Nat} (hwait : t.pollers.epoll.Waits ready t.size fds)
    (hlt : fds.length < t.size) : ∃ q q' activeChannels, t.pollers.poll = some q ∧
      q.poll ready = some (q', activeChannels) ∧ activeChannels.Nodup ∧
      activeChannels.Perm (t.pollers.epoll.poll ready fds t.size).1 := by
  obtain ⟨⟨q, hq, hp⟩, hsame⟩ := h.keeps
    (I := fun s => s.pollers.Sound ∧ s.pollers.SameWatches) Polling.step_sound hstep
    (Polling.init_sound hinit)
  have hsmall : ∀ p, (q.objects p).events.toNat < 8 := fun p => by
    rw [hp.toChannel]
    exact hp.small p
  obtain ⟨active, hpoll, hnodup, hmem⟩ := hp.indexed.poll_spec hsmall ready
  obtain ⟨hnodup', hmem'⟩ := hp.mirror.poll_spec hwait hlt
  refine ⟨q, _, active, hq, hpoll, hnodup, ?_⟩
  rw [List.perm_ext_iff_of_nodup hnodup hnodup']
  rintro ⟨p, revents⟩
  have hwatch : q.Watching p ↔ (t.pollers.epoll.objects p).index = kAdded := by
    have hboth : t.pollers = ⟨some q, t.pollers.epoll⟩ := by rw [← hq]
    rw [hboth] at hsame
    exact (BothPollers.sameWatches_iff hp).mp hsame p
  rw [hmem, hmem', hwatch, hp.fd, hp.toChannel]

/-- The theorem for a channel that is enabled, and readable. -/
theorem polls_agree_readable : ∃ (t : Polling Unit) (q q' : PollPoller Unit)
    (activeChannels : List (Unit × BitVec 32)), (pollingMachine Unit).Reachable t ∧
      t.pollers.poll = some q ∧ q.poll (fun _ => EPOLLIN) = some (q', activeChannels) ∧
      activeChannels.Perm [((), EPOLLIN)] := by
  let s : Polling Unit := ⟨⟨some (.new fun _ => 7), .new fun _ => 7⟩, 16⟩
  let e := s.pollers.epoll.interest () .enableReading
  let ready : Nat → BitVec 32 := fun _ => EPOLLIN
  have hinit : (pollingMachine Unit).init s := ⟨⟨_, fun _ _ _ => rfl, rfl⟩, rfl⟩
  have hrun : (pollingMachine Unit).Run s _ _ :=
    .one (Polling.Step.call (BothPollers.Step.interest () .enableReading))
  have hstep : Meets Polling.InStep [(s, .call (.interest () .enableReading))] := by
    refine List.forall_mem_singleton.mpr fun c hc => ?_
    cases hc
    refine ⟨fun p i hl q hq => .inr ?_, fun p i hl hidx => ?_⟩
    · cases hq
      change (-1 : Int) < 0
      decide
    · cases hl
      exact absurd hidx (by decide)
  have hev : e.readyEvent ready 7 = some ⟨EPOLLIN, ()⟩ := by decide
  have hnone : ∀ fd, fd ≠ 7 → e.readyEvent ready fd = none := fun fd hne => by
    have hkernel : e.kernel fd = none := Function.update_of_ne hne _ _
    rw [EpollPoller.readyEvent, hkernel, Option.bind_none]
  have hwait : e.Waits ready 16 [7] := by
    refine ⟨by simp [hev], List.nodup_singleton 7, by decide, fun _ fd hfd => ?_⟩
    by_contra hne
    rw [hnone fd (by simpa using hne)] at hfd
    cases hfd
  obtain ⟨q, q', active, hq, hpoll, -, hperm⟩ := polls_agree hinit hrun hstep hwait (by decide)
  have hactive : (e.poll ready [7] 16).1 = [((), EPOLLIN)] := by decide
  exact ⟨_, q, q', active, ⟨s, _, hinit, hrun⟩, hq, hpoll, hactive ▸ hperm⟩

open Classical in
/-- **Few polls leave out a descriptor that is ready.**  If at no poll of a run more than `n`
descriptors are ready, then of all its polls, as long as it is, `k` leave out one of them only where
`16 * 2 ^ k` is at most `2 * n` (or `k` is 0). -/
theorem left_out_le {P : Type} [DecidableEq P] {s t : Polling P}
    {tr : List (Polling P × PollingStep P)} {n : Nat} (hinit : (pollingMachine P).init s)
    (h : (pollingMachine P).Run s tr t) (hn : Meets (Polling.AtMost n) tr) :
    16 * 2 ^ tr.countP (fun p => p.1.LeavesOut p.2) ≤ max 16 (2 * n) := by
  have hsize : 16 * 2 ^ tr.countP (fun p => p.1.LeavesOut p.2) ≤ t.size ∧
      16 * 2 ^ tr.countP (fun p => p.1.LeavesOut p.2) ≤ max 16 (2 * n) := by
    induction h with
    | nil => exact ⟨by simp [hinit.2, EpollPoller.kInitEventListSize], by simp⟩
    | @snoc tr u v l _ hst ih =>
      obtain ⟨hn', hl⟩ := meets_snoc.mp hn
      obtain ⟨hle, hmax⟩ := ih hn'
      rw [List.countP_append, List.countP_singleton]
      split
      · next hout =>
        obtain ⟨hlt, hdouble⟩ := Polling.Step.size_leavesOut hl (of_decide_eq_true hout) hst
        rw [Nat.pow_succ]
        omega
      · exact ⟨hle.trans (Polling.Step.size_le hst), hmax⟩
  exact hsize.2

/-- A new channel is put into the kernel set. -/
theorem EpollPoller.enableReading_new {s : EpollPoller Nat} {k : Nat}
    (hobject : s.objects k = .new k) (hnone : s.kernel k = none) :
    (s.interest k .enableReading).kernel = Function.update s.kernel k (some ⟨kReadEvent, k⟩) ∧
      ∀ fd, fd ≠ k → (s.interest k .enableReading).objects fd = s.objects fd := by
  have hmask : kNoneEvent ||| kReadEvent = kReadEvent := by decide
  constructor
  · simp [interest, updateChannel, setObject, set_index, update, hobject, hnone, PolledChannel.new,
      epollCtl, PolledChannel.setInterest, PolledChannel.set_index, Interest.apply, Channel.new,
      Channel.enableReading, Channel.update, kNew, hmask]
  · intro fd hne
    simp [interest, updateChannel, setObject, set_index, update, hobject, hnone, PolledChannel.new,
      epollCtl, PolledChannel.setInterest, PolledChannel.set_index, Interest.apply, kNew, hne]

/-- With `k` channels enabled, one after the other. -/
theorem Polling.run_enabled (k : Nat) :
    ∃ (s t : Polling Nat) (tr : List (Polling Nat × PollingStep Nat)),
      (pollingMachine Nat).init s ∧ (pollingMachine Nat).Run s tr t ∧ t.size = 16 ∧
      (∀ p ∈ tr, ∃ l, p.2 = .call l) ∧
      (∀ fd, k ≤ fd → t.pollers.epoll.objects fd = .new fd ∧ t.pollers.epoll.kernel fd = none) ∧
      ∀ fd < k, t.pollers.epoll.kernel fd = some ⟨kReadEvent, fd⟩ := by
  induction k with
  | zero =>
    refine ⟨⟨⟨some (.new id), .new id⟩, 16⟩, _, [], ⟨⟨id, fun _ _ h => h, rfl⟩, rfl⟩, .nil, rfl,
      by simp, fun fd _ => ⟨rfl, rfl⟩, fun fd h => absurd h (Nat.not_lt_zero fd)⟩
  | succ k ih =>
    obtain ⟨s, t, tr, hinit, hrun, hsize, hcalls, hnew, hin⟩ := ih
    obtain ⟨hobject, hnone⟩ := hnew k (Nat.le_refl k)
    obtain ⟨hkernel, hobjects⟩ := EpollPoller.enableReading_new hobject hnone
    refine ⟨s, _, _, hinit,
      hrun.snoc (Polling.Step.call (BothPollers.Step.interest k .enableReading)), hsize,
      fun p hp => ?_, fun fd hfd => ?_, fun fd hfd => ?_⟩
    · rcases List.mem_append.mp hp with hp | hp
      · exact hcalls p hp
      · exact ⟨_, by rw [List.mem_singleton.mp hp]⟩
    · have hne : fd ≠ k := by omega
      rw [hobjects fd hne, hkernel, Function.update_of_ne hne]
      exact hnew fd (by omega)
    · rw [hkernel]
      by_cases heq : fd = k
      · rw [heq, Function.update_self]
      · rw [Function.update_of_ne heq]
        exact hin fd (by omega)

open Classical in
/-- The theorem for seventeen channels, all of them readable, of which the first poll leaves out
one. -/
theorem left_out_le_seventeen : ∃ (s t : Polling Nat) (tr : List (Polling Nat × PollingStep Nat)),
    (pollingMachine Nat).init s ∧ (pollingMachine Nat).Run s tr t ∧
      (∃ p ∈ tr, p.1.LeavesOut p.2) ∧ 16 * 2 ^ tr.countP (fun p => p.1.LeavesOut p.2) ≤ 34 := by
  obtain ⟨s, t, tr, hinit, hrun, hsize, hcalls, hnew, hin⟩ := Polling.run_enabled 17
  let ready : Nat → BitVec 32 := fun _ => EPOLLIN
  have hready : ∀ fd, (t.pollers.epoll.readyEvent ready fd).isSome ↔ fd < 17 := fun fd => by
    by_cases hlt : fd < 17
    · have hne : reported ready fd kReadEvent ≠ 0 := by
        change EPOLLIN &&& (kReadEvent ||| EPOLLERR ||| EPOLLHUP) ≠ 0
        decide
      simpa [EpollPoller.readyEvent, hin fd hlt, hlt] using hne
    · simp [EpollPoller.readyEvent, (hnew fd (by omega)).2, hlt]
  have hwait : t.pollers.epoll.Waits ready t.size (List.range 16) := by
    rw [hsize]
    refine ⟨fun fd hfd => (hready fd).mpr ?_, List.nodup_range, by simp, fun hlt => ?_⟩
    · have := List.mem_range.mp hfd
      omega
    · simp at hlt
  have hrun' := hrun.snoc (Polling.Step.poll ready (List.range 16) hwait)
  refine ⟨s, _, _, hinit, hrun', ⟨_, List.mem_append_right _ (List.mem_singleton_self _), ready, _,
    16, rfl, (hready 16).mpr (by decide), by simp⟩, left_out_le (n := 17) hinit hrun' ?_⟩
  intro p hp ready' fds hl fds' hnodup hall
  rcases List.mem_append.mp hp with hp | hp
  · obtain ⟨l, hcall⟩ := hcalls p hp
    rw [hcall] at hl
    cases hl
  · rw [List.mem_singleton.mp hp] at hl hall
    cases hl
    have hsub : fds' ⊆ List.range 17 := fun fd hfd =>
      List.mem_range.mpr ((hready fd).mp (hall fd hfd))
    simpa using (hnodup.subperm hsub).length_le

end Reactor.Net
