import Mathlib.Logic.Function.Basic
import Reactor.Lib.SwapRemove
import Reactor.Net.Poller

/-!
# Net — PollPoller

`PollPoller` with any number of `Channel` objects, known by their addresses.  An access to
`_pollfds` out of range, and the use of a pointer `_channels` does not have, have the result
`none`.

* `Indexed`: the index of each channel that is in the poller is the place of its entry.
* `pushed`, `rewritten`, `withoutEntry`: what the calls make of the poller.
* `Indexed.interest_new`, `Indexed.interest_old`, `Indexed.remove`: so it stays, as long as a
  channel that was removed is not used again.
-/

namespace Reactor.Net
open Reactor.Lib

/-- A `pollfd`. -/
structure PollFd where
  fd : Int
  events : BitVec 16
  revents : BitVec 16
  deriving DecidableEq, Repr

/-- The descriptor of the channel, whether it is watched or not. -/
def PollFd.channelFd (pfd : PollFd) : Int := if pfd.fd < 0 then -pfd.fd - 1 else pfd.fd

/-- A mask of the three events survives the conversion to `short`. -/
theorem signExtend_truncate {e : BitVec 32} (h : e.toNat < 8) :
    (e.truncate 16).signExtend 32 = e := by
  have hmsb : (e.truncate 16).msb = false := by
    rw [BitVec.msb_eq_false_iff_two_mul_lt]
    simp only [BitVec.truncate_eq_setWidth, BitVec.toNat_setWidth]
    omega
  rw [BitVec.signExtend_eq_setWidth_of_msb_false hmsb]
  apply BitVec.eq_of_toNat_eq
  simp only [BitVec.truncate_eq_setWidth, BitVec.toNat_setWidth]
  omega

/-- `PollPoller` over the channel objects at the addresses `P`. -/
structure PollPoller (P : Type) where
  /-- `_channels` -/
  channels : Int → Option P
  /-- `_pollfds` -/
  pollfds : List PollFd
  objects : P → PolledChannel

namespace PollPoller

variable {P : Type} [DecidableEq P]

/-- The constructor, among new channels with these descriptors. -/
def new (fds : P → Nat) : PollPoller P where
  channels := fun _ => none
  pollfds := []
  objects := fun p => .new (fds p)

/-- The channel at an address changes. -/
def setObject (s : PollPoller P) (p : P) (c : PolledChannel) : PollPoller P :=
  { s with objects := Function.update s.objects p c }

/-- `updateChannel(channel)`; `none` when an access is out of range. -/
def updateChannel (s : PollPoller P) (p : P) : Option (PollPoller P) :=
  let c := s.objects p
  if c.index < 0 then
    let pfd : PollFd := ⟨c.fd, c.events.truncate 16, 0⟩
    let pollfds := s.pollfds ++ [pfd]
    let idx : Int := pollfds.length - 1
    some { s.setObject p (c.set_index idx) with
      pollfds := pollfds, channels := Function.update s.channels pfd.fd (some p) }
  else if c.index < s.pollfds.length then
    let pfd : PollFd := ⟨c.fd, c.events.truncate 16, 0⟩
    let pfd := if c.isNoneEvent then { pfd with fd := -c.fd - 1 } else pfd
    some { s with pollfds := s.pollfds.set c.index.toNat pfd }
  else none

/-- `removeChannel(channel)`; `none` when an access is out of range. -/
def removeChannel (s : PollPoller P) (p : P) : Option (PollPoller P) :=
  let c := s.objects p
  if 0 ≤ c.index ∧ c.index < s.pollfds.length then
    let s := { s with channels := Function.update s.channels c.fd none }
    if c.index = s.pollfds.length - 1 then some { s with pollfds := s.pollfds.dropLast }
    else do
      let back ← s.pollfds.getLast?
      let channelAtEnd := if back.fd < 0 then -back.fd - 1 else back.fd
      let q ← s.channels channelAtEnd
      return { s.setObject q ((s.objects q).set_index c.index) with
        pollfds := (swapLast s.pollfds c.index.toNat).dropLast }
  else none

/-- `enableReading()` and its like, on the channel at `p`. -/
def interest (s : PollPoller P) (p : P) (i : Interest) : Option (PollPoller P) :=
  (s.setObject p ((s.objects p).setInterest i)).updateChannel p

/-- `Channel::remove()` -/
def remove (s : PollPoller P) (p : P) : Option (PollPoller P) :=
  (s.setObject p (s.objects p).removed).removeChannel p

end PollPoller

namespace PollPoller

variable {P : Type}

/-- The entry the channel's index points to. -/
def entry (s : PollPoller P) (p : P) : Option PollFd := s.pollfds[(s.objects p).index.toNat]?

/-- The invariant: the entries of `_pollfds` and the channels in the poller are one to one, by their
indices. -/
structure Indexed (s : PollPoller P) : Prop where
  /-- The entry of a channel in the poller tells its descriptor and its mask. -/
  entry : ∀ p, (s.objects p).registered = true → 0 ≤ (s.objects p).index ∧
    ∃ pfd, s.entry p = some pfd ∧ pfd.channelFd = (s.objects p).fd ∧
      pfd.events = (s.objects p).events.truncate 16
  /-- Every entry is that of a channel. -/
  owner : ∀ j, j < s.pollfds.length →
    ∃ p, (s.objects p).registered = true ∧ (s.objects p).index = j
  channels : ∀ fd p, s.channels fd = some p ↔
    (s.objects p).registered = true ∧ ((s.objects p).fd : Int) = fd
  distinct : ∀ p q, (s.objects p).fd = (s.objects q).fd → p = q

namespace Indexed

variable {s : PollPoller P} {p q : P}

theorem index_lt (h : s.Indexed) (hp : (s.objects p).registered = true) :
    (s.objects p).index < s.pollfds.length := by
  obtain ⟨hpos, pfd, hentry, -⟩ := h.entry p hp
  have hlt := (List.getElem?_eq_some_iff.mp hentry).1
  omega

/-- Two channels in the poller have two entries. -/
theorem index_inj (h : s.Indexed) (hp : (s.objects p).registered = true)
    (hq : (s.objects q).registered = true) (heq : (s.objects p).index = (s.objects q).index) :
    p = q := by
  obtain ⟨-, pfd, hentry, hfd, -⟩ := h.entry p hp
  obtain ⟨-, pfd', hentry', hfd', -⟩ := h.entry q hq
  rw [PollPoller.entry, heq] at hentry
  cases hentry.symm.trans hentry'
  exact h.distinct p q (by exact_mod_cast hfd.symm.trans hfd')

end Indexed

theorem indexed_new {fds : P → Nat} (hf : Function.Injective fds) : (new fds).Indexed where
  entry p hp := by simp [new, PolledChannel.new, Channel.new] at hp
  owner j hj := by simp [new] at hj
  channels := by simp [new, PolledChannel.new, Channel.new]
  distinct _ _ hpq := hf hpq

/-! ### The first call on a channel -/

section Pushed
variable [DecidableEq P] {s : PollPoller P} {p q : P} {i : Interest}

/-- A new entry at the end. -/
def pushed (s : PollPoller P) (p : P) (i : Interest) : PollPoller P where
  channels := Function.update s.channels (s.objects p).fd (some p)
  pollfds := s.pollfds ++
    [⟨(s.objects p).fd, ((s.objects p).setInterest i).events.truncate 16, 0⟩]
  objects := Function.update s.objects p
    (((s.objects p).setInterest i).set_index s.pollfds.length)

/-- A channel that is new is pushed behind the entries. -/
theorem interest_eq_pushed (hidx : (s.objects p).index < 0) :
    s.interest p i = some (s.pushed p i) := by
  simp [interest, updateChannel, setObject, hidx, pushed]

theorem entry_pushed_self : (s.pushed p i).entry p =
    some ⟨(s.objects p).fd, ((s.objects p).setInterest i).events.truncate 16, 0⟩ := by
  simp [entry, pushed]

theorem objects_pushed (hqp : q ≠ p) : (s.pushed p i).objects q = s.objects q :=
  Function.update_of_ne hqp _ _

theorem Indexed.entry_pushed (h : s.Indexed) (hqp : q ≠ p)
    (hq : (s.objects q).registered = true) : (s.pushed p i).entry q = s.entry q := by
  obtain ⟨-, pfd, hentry, -⟩ := h.entry q hq
  have hlt := (List.getElem?_eq_some_iff.mp hentry).1
  rw [PollPoller.entry, objects_pushed hqp]
  exact List.getElem?_append_left hlt

theorem Indexed.pushed (h : s.Indexed) (hidx : (s.objects p).index < 0) :
    (s.pushed p i).Indexed := by
  have hout : ∀ q, (s.objects q).registered = true → q ≠ p := by
    rintro q hq rfl
    have := (h.entry q hq).1
    omega
  refine ⟨fun q hq => ?_, fun j hj => ?_, fun fd q => ?_, fun q r hqr => ?_⟩
  · by_cases hqp : q = p
    · subst hqp
      rw [entry_pushed_self]
      simp [PollPoller.pushed, PollFd.channelFd]
    · rw [objects_pushed hqp] at hq ⊢
      rw [h.entry_pushed hqp hq]
      exact h.entry q hq
  · by_cases hlast : j = s.pollfds.length
    · exact ⟨p, by simp [PollPoller.pushed], by simp [PollPoller.pushed, hlast]⟩
    · obtain ⟨q, hq, hqj⟩ := h.owner j (by simp [PollPoller.pushed] at hj; omega)
      rw [← objects_pushed (i := i) (hout q hq)] at hqj
      exact ⟨q, by rwa [objects_pushed (hout q hq)], hqj⟩
  · by_cases hqp : q = p
    · subst hqp
      have hno : s.channels fd ≠ some q := fun hc => hout q ((h.channels fd q).mp hc).1 rfl
      by_cases hfdq : fd = (s.objects q).fd
      · simp [PollPoller.pushed, hfdq]
      · simp [PollPoller.pushed, Function.update_of_ne hfdq, hno, Ne.symm hfdq]
    · rw [objects_pushed hqp]
      by_cases hfdp : fd = (s.objects p).fd
      · have hne : (s.objects q).fd ≠ (s.objects p).fd := fun heq => hqp (h.distinct _ _ heq)
        simp [PollPoller.pushed, hfdp, Ne.symm hqp, hne]
      · simpa [PollPoller.pushed, Function.update_of_ne hfdp] using h.channels fd q
  · have hfd : ∀ q, ((s.pushed p i).objects q).fd = (s.objects q).fd :=
      PolledChannel.update_field s.objects p
        (((s.objects p).setInterest i).set_index s.pollfds.length) PolledChannel.fd rfl
    rw [hfd, hfd] at hqr
    exact h.distinct q r hqr

/-- The first call on a channel puts a new entry at the end. -/
theorem Indexed.interest_new (h : s.Indexed) (hidx : (s.objects p).index < 0) (i : Interest) :
    ∃ t, s.interest p i = some t ∧ t.Indexed ∧
      t.objects = Function.update s.objects p
        (((s.objects p).setInterest i).set_index s.pollfds.length) ∧
      t.entry p = some ⟨(s.objects p).fd, ((s.objects p).setInterest i).events.truncate 16, 0⟩ ∧
      ∀ q, q ≠ p → (s.objects q).registered = true → t.entry q = s.entry q :=
  ⟨_, interest_eq_pushed hidx, h.pushed hidx, rfl, entry_pushed_self,
    fun _ hqp hq => h.entry_pushed hqp hq⟩

end Pushed

/-! ### A later call -/

section Rewritten
variable [DecidableEq P] {s : PollPoller P} {p q : P} {i : Interest}

/-- The entry for a channel with this interest set, negated if the set is empty. -/
def newEntry (s : PollPoller P) (p : P) (i : Interest) : PollFd :=
  ⟨if ((s.objects p).setInterest i).isNoneEvent then -(s.objects p).fd - 1 else (s.objects p).fd,
    ((s.objects p).setInterest i).events.truncate 16, 0⟩

/-- A new entry in the place of the old one. -/
def rewritten (s : PollPoller P) (p : P) (i : Interest) : PollPoller P :=
  { s with
    pollfds := s.pollfds.set (s.objects p).index.toNat (s.newEntry p i)
    objects := Function.update s.objects p ((s.objects p).setInterest i) }

omit [DecidableEq P] in
theorem channelFd_newEntry : (s.newEntry p i).channelFd = (s.objects p).fd := by
  simp only [PollFd.channelFd, newEntry]
  split
  · split
    · omega
    · omega
  · split
    · omega
    · omega

omit [DecidableEq P] in
theorem newEntry_nonneg :
    0 ≤ (s.newEntry p i).fd ↔ ((s.objects p).setInterest i).isNoneEvent = false := by
  rw [newEntry]
  cases ((s.objects p).setInterest i).isNoneEvent with
  | true =>
    simp only [if_true, reduceCtorEq, iff_false]
    omega
  | false => simp

/-- The entry of a channel that is known is rewritten. -/
theorem Indexed.interest_eq_rewritten (h : s.Indexed) (hp : (s.objects p).registered = true) :
    s.interest p i = some (s.rewritten p i) := by
  simp only [interest, updateChannel, setObject, Function.update_self,
    PolledChannel.setInterest_index, PolledChannel.setInterest_fd,
    if_neg (not_lt.mpr (h.entry p hp).1), if_pos (h.index_lt hp), rewritten, newEntry]
  split
  · rfl
  · rfl

theorem index_rewritten : ((s.rewritten p i).objects q).index = (s.objects q).index :=
  PolledChannel.update_field s.objects p ((s.objects p).setInterest i) PolledChannel.index rfl q

theorem fd_rewritten : ((s.rewritten p i).objects q).fd = (s.objects q).fd :=
  PolledChannel.update_field s.objects p ((s.objects p).setInterest i) PolledChannel.fd rfl q

theorem registered_rewritten (hp : (s.objects p).registered = true) :
    ((s.rewritten p i).objects q).registered = (s.objects q).registered :=
  PolledChannel.update_field s.objects p ((s.objects p).setInterest i) (fun c => c.registered)
    (by simp [hp]) q

theorem Indexed.entry_rewritten_self (h : s.Indexed) (hp : (s.objects p).registered = true) :
    (s.rewritten p i).entry p = some (s.newEntry p i) := by
  have hpos := (h.entry p hp).1
  have hlt := h.index_lt hp
  rw [PollPoller.entry, index_rewritten]
  exact List.getElem?_set_self (by omega)

theorem Indexed.entry_rewritten (h : s.Indexed) (hp : (s.objects p).registered = true)
    (hqp : q ≠ p) (hq : (s.objects q).registered = true) :
    (s.rewritten p i).entry q = s.entry q := by
  have hpos := (h.entry p hp).1
  have hqpos := (h.entry q hq).1
  have hne : (s.objects p).index.toNat ≠ (s.objects q).index.toNat :=
    fun heq => hqp (h.index_inj hq hp (by omega))
  rw [PollPoller.entry, index_rewritten]
  exact List.getElem?_set_ne hne

theorem Indexed.rewritten (h : s.Indexed) (hp : (s.objects p).registered = true) :
    (s.rewritten p i).Indexed := by
  refine ⟨fun q hq => ?_, fun j hj => ?_, fun fd q => ?_, fun q r hqr => ?_⟩
  · rw [registered_rewritten hp] at hq
    rw [index_rewritten, fd_rewritten]
    by_cases hqp : q = p
    · subst hqp
      exact ⟨(h.entry q hp).1, _, h.entry_rewritten_self hp, channelFd_newEntry,
        by simp [PollPoller.rewritten, newEntry]⟩
    · rw [h.entry_rewritten hp hqp hq,
        show (s.rewritten p i).objects q = s.objects q from Function.update_of_ne hqp _ _]
      exact h.entry q hq
  · obtain ⟨q, hq, hqj⟩ := h.owner j (by simpa [PollPoller.rewritten] using hj)
    exact ⟨q, by rw [registered_rewritten hp]; exact hq, by rw [index_rewritten]; exact hqj⟩
  · rw [registered_rewritten hp, fd_rewritten]
    exact h.channels fd q
  · rw [fd_rewritten, fd_rewritten] at hqr
    exact h.distinct q r hqr

/-- A later call rewrites the entry. -/
theorem Indexed.interest_old (h : s.Indexed) (hp : (s.objects p).registered = true)
    (i : Interest) :
    ∃ t, s.interest p i = some t ∧ t.Indexed ∧
      t.objects = Function.update s.objects p ((s.objects p).setInterest i) ∧
      t.entry p = some (s.newEntry p i) ∧
      ∀ q, q ≠ p → (s.objects q).registered = true → t.entry q = s.entry q :=
  ⟨_, h.interest_eq_rewritten hp, h.rewritten hp, rfl, h.entry_rewritten_self hp,
    fun _ hqp hq => h.entry_rewritten hp hqp hq⟩

end Rewritten

/-- A call on a channel that was not removed before: a later one negates the entry of a channel
left without events, the first one does not. -/
theorem Indexed.interest_entry [DecidableEq P] {s : PollPoller P} {p : P} (h : s.Indexed)
    (hp : (s.objects p).registered = true ∨ (s.objects p).index < 0) (i : Interest) :
    ∃ t idx pfd, s.interest p i = some t ∧ t.Indexed ∧
      t.objects = Function.update s.objects p (((s.objects p).setInterest i).set_index idx) ∧
      t.entry p = some pfd ∧
      (0 ≤ pfd.fd ↔ ((s.objects p).registered = true →
        ((s.objects p).setInterest i).isNoneEvent = false)) ∧
      ∀ q, q ≠ p → (s.objects q).registered = true → t.entry q = s.entry q := by
  rcases hp with hreg | hidx
  · obtain ⟨t, heq, ht, hobj, hentryp, hentryq⟩ := h.interest_old hreg i
    rw [← PolledChannel.set_index_self (PolledChannel.setInterest_index (s.objects p) i)] at hobj
    refine ⟨t, _, _, heq, ht, hobj, hentryp, ?_, hentryq⟩
    rw [newEntry_nonneg, forall_prop_of_true hreg]
  · obtain ⟨t, heq, ht, hobj, hentryp, hentryq⟩ := h.interest_new hidx i
    have hnot : (s.objects p).registered ≠ true := by
      intro hreg
      have := (h.entry p hreg).1
      omega
    exact ⟨t, _, _, heq, ht, hobj, hentryp, by simp [hnot], hentryq⟩

/-! ### Removal -/

section WithoutEntry
variable [DecidableEq P] {s : PollPoller P} {p q r : P}

/-- The entry of `p` is removed, and that of `q`, which was the last, is in its place. -/
def withoutEntry (s : PollPoller P) (p q : P) : PollPoller P where
  channels := Function.update s.channels (s.objects p).fd none
  pollfds := swapRemove s.pollfds (s.objects p).index.toNat
  objects := Function.update (Function.update s.objects p (s.objects p).removed) q
    ((Function.update s.objects p (s.objects p).removed q).set_index (s.objects p).index)

/-- `remove()` moves the last entry, and corrects its channel's index. -/
theorem Indexed.remove_eq (h : s.Indexed) (hp : (s.objects p).registered = true) :
    ∃ q, (s.objects q).registered = true ∧ (s.objects q).index = s.pollfds.length - 1 ∧
      s.remove p = some (s.withoutEntry p q) := by
  have hpos := (h.entry p hp).1
  have hlt := h.index_lt hp
  obtain ⟨q, hq, hqlast⟩ := h.owner (s.pollfds.length - 1) (by omega)
  have hqlast' : (s.objects q).index = s.pollfds.length - 1 := by omega
  refine ⟨q, hq, hqlast', ?_⟩
  simp only [PollPoller.remove, removeChannel, setObject, Function.update_self,
    PolledChannel.removed_index,
    PolledChannel.removed_fd, if_pos (And.intro hpos hlt)]
  by_cases hlast : (s.objects p).index = s.pollfds.length - 1
  · obtain rfl := h.index_inj hq hp (hqlast'.trans hlast.symm)
    have hself : (s.objects q).removed.set_index (s.objects q).index = (s.objects q).removed :=
      PolledChannel.set_index_self rfl
    rw [if_pos hlast, withoutEntry, swapRemove_last (by omega) (by omega), Function.update_self,
      hself, Function.update_idem]
  · have hqp : q ≠ p := by
      rintro rfl
      exact hlast hqlast'
    have hfd : ((s.objects q).fd : Int) ≠ (s.objects p).fd := fun heq =>
      hqp (h.distinct _ _ (by exact_mod_cast heq))
    -- the last entry is that of `q`, and tells its descriptor
    obtain ⟨-, pfd, hentry, hpfd, -⟩ := h.entry q hq
    have hback : s.pollfds.getLast? = some pfd := by
      rw [List.getLast?_eq_getElem?, ← hentry, PollPoller.entry]
      congr 1
      omega
    have hmap : s.channels (s.objects q).fd = some q := (h.channels _ q).mpr ⟨hq, rfl⟩
    rw [PollFd.channelFd] at hpfd
    simp [if_neg hlast, hback, hpfd, Function.update_of_ne hfd, hmap, swapRemove, withoutEntry]

/-- The index is not reset: where the entry was the last, the next call on the channel is out of
range. -/
theorem Indexed.interest_removed (h : s.Indexed) (hp : (s.objects p).registered = true)
    (hlast : (s.objects p).index = s.pollfds.length - 1) (i : Interest) :
    (s.remove p).bind (·.interest p i) = none := by
  obtain ⟨q, hq, hqlast, heq⟩ := h.remove_eq hp
  obtain rfl := h.index_inj hq hp (hqlast.trans hlast.symm)
  have hpos := (h.entry q hp).1
  have hlen : (swapRemove s.pollfds (s.objects q).index.toNat).length = s.pollfds.length - 1 := by
    simp
  have hout : ¬ (s.objects q).index <
      (swapRemove s.pollfds (s.objects q).index.toNat).length := by omega
  rw [heq, Option.bind_some]
  simp only [withoutEntry, PollPoller.interest, updateChannel, setObject, Function.update_self,
    PolledChannel.setInterest_index, PolledChannel.set_index_index, if_neg (not_lt.mpr hpos),
    if_neg hout]

theorem toChannel_withoutEntry : ((s.withoutEntry p q).objects r).toChannel =
    (Function.update s.objects p (s.objects p).removed r).toChannel :=
  PolledChannel.update_field (Function.update s.objects p (s.objects p).removed) q
    ((Function.update s.objects p (s.objects p).removed q).set_index (s.objects p).index)
    PolledChannel.toChannel rfl r

theorem fd_withoutEntry : ((s.withoutEntry p q).objects r).fd = (s.objects r).fd := by
  rw [← PolledChannel.update_field s.objects p (s.objects p).removed PolledChannel.fd rfl r]
  exact PolledChannel.update_field (Function.update s.objects p (s.objects p).removed) q
    ((Function.update s.objects p (s.objects p).removed q).set_index (s.objects p).index)
    PolledChannel.fd rfl r

/-- Who is still in the poller. -/
theorem registered_withoutEntry : ((s.withoutEntry p q).objects r).registered = true ↔
    r ≠ p ∧ (s.objects r).registered = true := by
  rw [toChannel_withoutEntry]
  by_cases hrp : r = p
  · simp [hrp]
  · simp [hrp]

/-- Where they are. -/
theorem index_withoutEntry (hrp : r ≠ p) : ((s.withoutEntry p q).objects r).index =
    if r = q then (s.objects p).index else (s.objects r).index := by
  by_cases hrq : r = q
  · subst hrq
    simp [withoutEntry]
  · simp [withoutEntry, hrq, hrp]

/-- Each channel that is left has its entry, the last one in a new place. -/
theorem Indexed.entry_withoutEntry (h : s.Indexed) (hp : (s.objects p).registered = true)
    (hq : (s.objects q).registered = true) (hlast : (s.objects q).index = s.pollfds.length - 1)
    (hr : ((s.withoutEntry p q).objects r).registered = true) :
    (s.withoutEntry p q).entry r = s.entry r := by
  obtain ⟨hrp, hr'⟩ := registered_withoutEntry.mp hr
  have hne : (s.objects r).index ≠ (s.objects p).index := fun hc => hrp (h.index_inj hr' hp hc)
  have hpos := (h.entry p hp).1
  have hlt := h.index_lt hp
  have hrpos := (h.entry r hr').1
  have hrlt := h.index_lt hr'
  have hltn : (s.objects p).index.toNat < s.pollfds.length := by omega
  rw [PollPoller.entry, PollPoller.entry, index_withoutEntry hrp, withoutEntry]
  by_cases hrq : r = q
  · -- the entry that was the last is now where the one removed was
    subst hrq
    rw [if_pos rfl, getElem?_swapRemove hltn (by omega), if_pos rfl]
    congr 1
    omega
  · have hne' : (s.objects r).index ≠ (s.objects q).index :=
      fun hc => hrq (h.index_inj hr' hq hc)
    rw [if_neg hrq, getElem?_swapRemove hltn (by omega), if_neg (by omega)]

theorem Indexed.withoutEntry (h : s.Indexed) (hp : (s.objects p).registered = true)
    (hq : (s.objects q).registered = true) (hlast : (s.objects q).index = s.pollfds.length - 1) :
    (s.withoutEntry p q).Indexed := by
  have hpos := (h.entry p hp).1
  have hlt := h.index_lt hp
  refine ⟨fun r hr => ?_, fun j hj => ?_, fun fd r => ?_, fun r r' hrr => ?_⟩
  · obtain ⟨hrp, hr'⟩ := registered_withoutEntry.mp hr
    obtain ⟨hrpos, hrest⟩ := h.entry r hr'
    rw [h.entry_withoutEntry hp hq hlast hr, fd_withoutEntry, index_withoutEntry hrp,
      toChannel_withoutEntry, Function.update_of_ne hrp]
    refine ⟨?_, hrest⟩
    split
    · exact hpos
    · exact hrpos
  · have hj' : j < s.pollfds.length - 1 := by simpa [PollPoller.withoutEntry] using hj
    by_cases hjp : (j : Int) = (s.objects p).index
    · have hqp : q ≠ p := by
        rintro rfl
        omega
      exact ⟨q, registered_withoutEntry.mpr ⟨hqp, hq⟩,
        by rw [index_withoutEntry hqp, if_pos rfl, hjp]⟩
    · obtain ⟨r, hr, hrj⟩ := h.owner j (by omega)
      have hrp : r ≠ p := by
        rintro rfl
        exact hjp hrj.symm
      have hrq : r ≠ q := by
        rintro rfl
        omega
      exact ⟨r, registered_withoutEntry.mpr ⟨hrp, hr⟩,
        by rw [index_withoutEntry hrp, if_neg hrq, hrj]⟩
  · rw [registered_withoutEntry, fd_withoutEntry]
    by_cases hfdp : fd = (s.objects p).fd
    · subst hfdp
      simp only [PollPoller.withoutEntry, Function.update_self, reduceCtorEq, false_iff]
      rintro ⟨⟨hrp, -⟩, hrfd⟩
      exact hrp (h.distinct r p (by exact_mod_cast hrfd))
    · simp only [PollPoller.withoutEntry, Function.update_of_ne hfdp]
      rw [h.channels]
      refine ⟨fun hr => ⟨⟨?_, hr.1⟩, hr.2⟩, fun hr => ⟨hr.1.2, hr.2⟩⟩
      rintro rfl
      exact hfdp hr.2.symm
  · rw [fd_withoutEntry, fd_withoutEntry] at hrr
    exact h.distinct r r' hrr

/-- A removal goes well, and changes nothing but the places. -/
theorem Indexed.remove (h : s.Indexed) (hp : (s.objects p).registered = true) :
    ∃ t, s.remove p = some t ∧ t.Indexed ∧
      (∀ r, (t.objects r).toChannel =
        (Function.update s.objects p (s.objects p).removed r).toChannel ∧
        (t.objects r).fd = (s.objects r).fd) ∧
      ∀ r, (t.objects r).registered = true → t.entry r = s.entry r := by
  obtain ⟨q, hq, hlast, heq⟩ := h.remove_eq hp
  exact ⟨_, heq, h.withoutEntry hp hq hlast,
    fun r => ⟨toChannel_withoutEntry, fd_withoutEntry⟩,
    fun r hr => h.entry_withoutEntry hp hq hlast hr⟩

end WithoutEntry

end PollPoller

end Reactor.Net
