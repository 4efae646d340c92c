import Mathlib.Logic.Function.Basic
import Reactor.Lib.Runs
import Reactor.Net.Poller

/-!
# Net — EpollPoller

`EpollPoller` over a kernel set that answers `epoll_ctl` as the kernel does, with any number of
`Channel` objects, known by their addresses.  At most one channel of a file descriptor is in use
at a time, and no descriptor is closed while it is in the set.  `calls`, the calls of `epoll_ctl`
so far, is history.

* `Mirror`: the index of each channel, `_channels` and the kernel set agree.
* `epoll_mirrors_channels`: they do in every reachable state, and no call of `epoll_ctl` is one the
  kernel refuses.
-/

namespace Reactor.Net
open Reactor.Lib

/-- A channel that is not in the poller. -/
def kNew : Int := -1
/-- A channel that is in the poller and in the kernel set. -/
def kAdded : Int := 1
/-- A channel that is in the poller and has been taken out of the kernel set. -/
def kDeleted : Int := 2

@[simp] theorem kNew_ne_kAdded : kNew ≠ kAdded := by decide
@[simp] theorem kDeleted_ne_kNew : kDeleted ≠ kNew := by decide
@[simp] theorem kDeleted_ne_kAdded : kDeleted ≠ kAdded := by decide
@[simp] theorem kAdded_ne_kNew : kAdded ≠ kNew := by decide

/-- `EPOLL_CTL_ADD` and its like. -/
inductive EpollOp where
  | ADD
  | MOD
  | DEL
  deriving DecidableEq, Repr

/-- An `epoll_event`, as the kernel keeps it for a descriptor. -/
structure EpollEvent (P : Type) where
  events : BitVec 32
  /-- `data.ptr` -/
  ptr : P
  deriving DecidableEq

/-- A call of `epoll_ctl`, and whether the descriptor was in the set. -/
structure EpollCall where
  operation : EpollOp
  fd : Nat
  registered : Bool
  deriving DecidableEq, Repr

/-- `epoll_ctl`; `none` is the error `EEXIST` or `ENOENT`. -/
def epollCtl {P : Type} (kernel : Nat → Option (EpollEvent P)) (operation : EpollOp) (fd : Nat)
    (event : EpollEvent P) : Option (Nat → Option (EpollEvent P)) :=
  match operation, kernel fd with
  | .ADD, none | .MOD, some _ => some (Function.update kernel fd (some event))
  | .DEL, some _ => some (Function.update kernel fd none)
  | .ADD, some _ | .MOD, none | .DEL, none => none

/-- `EpollPoller` over the channel objects at the addresses `P`, with the kernel's set and the calls
made of it. -/
structure EpollPoller (P : Type) where
  /-- `_channels` -/
  channels : Nat → Option P
  /-- The set of `_epollfd`. -/
  kernel : Nat → Option (EpollEvent P)
  objects : P → PolledChannel
  calls : List EpollCall
  /-- `LOG_FATAL` has been reached. -/
  fatal : Bool

namespace EpollPoller

variable {P : Type} [DecidableEq P]

/-- The constructor, among new channels with these descriptors. -/
def new (fds : P → Nat) : EpollPoller P where
  channels := fun _ => none
  kernel := fun _ => none
  objects := fun p => .new (fds p)
  calls := []
  fatal := false

/-- The channel at an address changes. -/
def setObject (s : EpollPoller P) (p : P) (c : PolledChannel) : EpollPoller P :=
  { s with objects := Function.update s.objects p c }

/-- `channel->set_index(idx)` -/
def set_index (s : EpollPoller P) (p : P) (idx : Int) : EpollPoller P :=
  s.setObject p ((s.objects p).set_index idx)

/-- `update(operation, channel)`: an error is fatal, but for `EPOLL_CTL_DEL`. -/
def update (s : EpollPoller P) (operation : EpollOp) (p : P) : EpollPoller P :=
  let c := s.objects p
  let call : EpollCall := ⟨operation, c.fd, (s.kernel c.fd).isSome⟩
  match epollCtl s.kernel operation c.fd ⟨c.events, p⟩ with
  | some kernel => { s with kernel := kernel, calls := s.calls ++ [call] }
  | none =>
    if operation = .DEL then { s with calls := s.calls ++ [call] }
    else { s with calls := s.calls ++ [call], fatal := true }

/-- `updateChannel(channel)` -/
def updateChannel (s : EpollPoller P) (p : P) : EpollPoller P :=
  let c := s.objects p
  if c.index = kNew ∨ c.index = kDeleted then
    let s :=
      if c.index = kNew then { s with channels := Function.update s.channels c.fd (some p) } else s
    (s.set_index p kAdded).update .ADD p
  else if c.isNoneEvent then (s.update .DEL p).set_index p kDeleted
  else s.update .MOD p

/-- `removeChannel(channel)` -/
def removeChannel (s : EpollPoller P) (p : P) : EpollPoller P :=
  let c := s.objects p
  let s := { s with channels := Function.update s.channels c.fd none }
  let s := if c.index = kAdded then s.update .DEL p else s
  s.set_index p kNew

/-- `hasChannel(channel)` -/
def hasChannel (s : EpollPoller P) (p : P) : Bool := s.channels (s.objects p).fd == some p

/-- `enableReading()` and its like, on the channel at `p`. -/
def interest (s : EpollPoller P) (p : P) (i : Interest) : EpollPoller P :=
  (s.setObject p ((s.objects p).setInterest i)).updateChannel p

/-- `Channel::remove()` -/
def remove (s : EpollPoller P) (p : P) : EpollPoller P :=
  (s.setObject p (s.objects p).removed).removeChannel p

/-- No other channel of the same descriptor is in use. -/
def Alone (s : EpollPoller P) (p : P) : Prop :=
  ∀ q, q ≠ p → (s.objects q).fd = (s.objects p).fd → (s.objects q).index = kNew

end EpollPoller

/-- The calls of the functions of a channel, and the construction of one. -/
inductive PollerStep (P : Type) where
  | interest (p : P) (i : Interest)
  | remove (p : P)
  | construct (p : P) (fd : Nat)

namespace EpollPoller

variable {P : Type} [DecidableEq P]

/-- The calls, of channels none of which shares its descriptor with another in the poller. -/
inductive Step : EpollPoller P → PollerStep P → EpollPoller P → Prop where
  | interest {s} (p : P) (i : Interest) (ha : s.Alone p) : Step s (.interest p i) (s.interest p i)
  | remove {s} (p : P) (ha : s.Alone p) : Step s (.remove p) (s.remove p)
  /-- A new `Channel` object where one that is not in use was. -/
  | construct {s} (p : P) (fd : Nat) (hi : (s.objects p).index = kNew) :
      Step s (.construct p fd) (s.setObject p (.new fd))

end EpollPoller

/-- An empty poller, channels that are in none, and all that can follow. -/
def epollMachine (P : Type) [DecidableEq P] : Machine (EpollPoller P) (PollerStep P) where
  init s := ∃ fds, s = .new fds
  step := EpollPoller.Step

namespace EpollPoller

variable {P : Type} [DecidableEq P]

/-- The invariant: `_channels` and the kernel's set are what the indices and masks of the channels
say. -/
structure Mirror (s : EpollPoller P) : Prop where
  index : ∀ p, (s.objects p).index = kNew ∨ (s.objects p).index = kAdded ∨
    (s.objects p).index = kDeleted
  kernel : ∀ fd event, s.kernel fd = some event ↔ ∃ p, (s.objects p).fd = fd ∧
    (s.objects p).index = kAdded ∧ event = ⟨(s.objects p).events, p⟩
  channels : ∀ fd p, s.channels fd = some p ↔
    (s.objects p).fd = fd ∧ (s.objects p).index ≠ kNew
  registered : ∀ p, (s.objects p).registered = true ↔ (s.objects p).index ≠ kNew
  calls : ∀ call ∈ s.calls, call.operation = .ADD ↔ call.registered = false
  fatal : s.fatal = false

namespace Mirror

variable {s t : EpollPoller P} {p : P}

/-- What is known of the descriptor of a channel that no other is in use with. -/
theorem kernel_alone (h : s.Mirror) (ha : s.Alone p) (event : EpollEvent P) :
    s.kernel (s.objects p).fd = some event ↔
      (s.objects p).index = kAdded ∧ event = ⟨(s.objects p).events, p⟩ := by
  rw [h.kernel]
  constructor
  · rintro ⟨q, hfd, hidx, rfl⟩
    by_cases hqp : q = p
    · subst hqp
      exact ⟨hidx, rfl⟩
    · rw [ha q hqp hfd] at hidx
      exact absurd hidx (by decide)
  · rintro ⟨hidx, rfl⟩
    exact ⟨p, rfl, hidx, rfl⟩

/-- A step that changes one channel and what is known of its descriptor, and leaves them in
agreement, leaves all in agreement. -/
theorem of_local (h : s.Mirror) (ha : s.Alone p)
    (hobj : ∀ q, q ≠ p → t.objects q = s.objects q)
    (hfd : (t.objects p).fd = (s.objects p).fd)
    (hkernel : ∀ fd, fd ≠ (s.objects p).fd → t.kernel fd = s.kernel fd)
    (hchannels : ∀ fd, fd ≠ (s.objects p).fd → t.channels fd = s.channels fd)
    (hindex : (t.objects p).index = kNew ∨ (t.objects p).index = kAdded ∨
      (t.objects p).index = kDeleted)
    (hkernelp : ∀ event, t.kernel (s.objects p).fd = some event ↔
      (t.objects p).index = kAdded ∧ event = ⟨(t.objects p).events, p⟩)
    (hchannelsp : ∀ q, t.channels (s.objects p).fd = some q ↔
      q = p ∧ (t.objects p).index ≠ kNew)
    (hregistered : (t.objects p).registered = true ↔ (t.objects p).index ≠ kNew)
    (hcalls : ∀ call ∈ t.calls, call.operation = .ADD ↔ call.registered = false)
    (hfatal : t.fatal = false) : t.Mirror := by
  -- whoever else has the descriptor is not in use
  have hother : ∀ q, (t.objects q).fd = (s.objects p).fd → (t.objects q).index ≠ kNew → q = p := by
    intro q hq hidx
    by_contra hqp
    rw [hobj q hqp] at hq hidx
    exact hidx (ha q hqp hq)
  refine ⟨fun q => ?_, fun fd event => ?_, fun fd q => ?_, fun q => ?_, hcalls, hfatal⟩
  · by_cases hqp : q = p
    · exact hqp ▸ hindex
    · exact hobj q hqp ▸ h.index q
  · by_cases hfdp : fd = (s.objects p).fd
    · subst hfdp
      rw [hkernelp]
      constructor
      · rintro ⟨hidx, rfl⟩
        exact ⟨p, hfd, hidx, rfl⟩
      · rintro ⟨q, hq, hidx, rfl⟩
        obtain rfl := hother q hq (by rw [hidx]; decide)
        exact ⟨hidx, rfl⟩
    · rw [hkernel fd hfdp, h.kernel]
      refine exists_congr fun q => ?_
      by_cases hqp : q = p
      · subst hqp
        rw [hfd]
        exact ⟨fun hq => absurd hq.1.symm hfdp, fun hq => absurd hq.1.symm hfdp⟩
      · rw [hobj q hqp]
  · by_cases hfdp : fd = (s.objects p).fd
    · subst hfdp
      rw [hchannelsp]
      constructor
      · rintro ⟨rfl, hidx⟩
        exact ⟨hfd, hidx⟩
      · rintro ⟨hq, hidx⟩
        obtain rfl := hother q hq hidx
        exact ⟨rfl, hidx⟩
    · rw [hchannels fd hfdp, h.channels]
      by_cases hqp : q = p
      · subst hqp
        rw [hfd]
        exact ⟨fun hq => absurd hq.1.symm hfdp, fun hq => absurd hq.1.symm hfdp⟩
      · rw [hobj q hqp]
  · by_cases hqp : q = p
    · exact hqp ▸ hregistered
    · exact hobj q hqp ▸ h.registered q

end Mirror

/-! ### What the calls do -/

omit [DecidableEq P] in
/-- A call the kernel does not refuse. -/
theorem update_eq {s : EpollPoller P} {operation : EpollOp} {p : P}
    (h : operation = .ADD ↔ s.kernel (s.objects p).fd = none) :
    s.update operation p = { s with
      kernel := Function.update s.kernel (s.objects p).fd
        (if operation = .DEL then none else some ⟨(s.objects p).events, p⟩),
      calls := s.calls ++ [⟨operation, (s.objects p).fd, operation != .ADD⟩] } := by
  cases hk : s.kernel (s.objects p).fd with
  | none =>
    obtain rfl := h.mpr hk
    simp [update, epollCtl, hk]
  | some event => cases operation <;> simp_all [update, epollCtl]

/-- The call takes the channel out of the kernel set. -/
def Disables (s : EpollPoller P) (p : P) (i : Interest) : Prop :=
  (s.objects p).index = kAdded ∧ ((s.objects p).setInterest i).isNoneEvent = true

/-- Whether a call disables a channel can be computed. -/
instance (s : EpollPoller P) (p : P) (i : Interest) : Decidable (s.Disables p i) :=
  inferInstanceAs (Decidable (_ ∧ _))

/-- The call changes the channel, what is known of its descriptor, and nothing else. -/
theorem interest_eq {s : EpollPoller P} {p : P} (h : s.Mirror) (ha : s.Alone p) (i : Interest) :
    ∃ call : EpollCall, (call.operation = .ADD ↔ call.registered = false) ∧
      s.interest p i = { s with
        objects := Function.update s.objects p
          (((s.objects p).setInterest i).set_index (if s.Disables p i then kDeleted else kAdded)),
        kernel := Function.update s.kernel (s.objects p).fd
          (if s.Disables p i then none else some ⟨((s.objects p).setInterest i).events, p⟩),
        channels := Function.update s.channels (s.objects p).fd (some p),
        calls := s.calls ++ [call] } := by
  have hk := h.kernel_alone ha
  have hmap : (s.objects p).index ≠ kNew →
      Function.update s.channels (s.objects p).fd (some p) = s.channels :=
    fun hne => Function.update_eq_self_iff.mpr ((h.channels _ p).mpr ⟨rfl, hne⟩).symm
  by_cases hadded : (s.objects p).index = kAdded
  · have hin : s.kernel (s.objects p).fd = some ⟨(s.objects p).events, p⟩ :=
      (hk _).mpr ⟨hadded, rfl⟩
    have hold : ¬ ((s.objects p).index = kNew ∨ (s.objects p).index = kDeleted) := by
      rw [hadded]; decide
    rw [hmap fun hnew => hold (.inl hnew)]
    by_cases hnone : ((s.objects p).setInterest i).isNoneEvent = true
    · refine ⟨⟨.DEL, (s.objects p).fd, true⟩, by simp, ?_⟩
      have hdis : s.Disables p i := ⟨hadded, hnone⟩
      simp only [interest, updateChannel, setObject, Function.update_self,
        PolledChannel.setInterest_index, if_neg hold, if_pos hnone]
      rw [update_eq (by simp [hin])]
      simp [set_index, setObject, hdis]
    · refine ⟨⟨.MOD, (s.objects p).fd, true⟩, by simp, ?_⟩
      have hdis : ¬ s.Disables p i := fun hd => hnone hd.2
      simp only [interest, updateChannel, setObject, Function.update_self,
        PolledChannel.setInterest_index, if_neg hold, if_neg hnone]
      rw [update_eq (by simp [hin])]
      simp [hdis, PolledChannel.set_index_self (c := (s.objects p).setInterest i) hadded]
  · have hout : s.kernel (s.objects p).fd = none :=
      Option.eq_none_iff_forall_ne_some.mpr fun event hev => hadded ((hk event).mp hev).1
    have hdis : ¬ s.Disables p i := fun hd => hadded hd.1
    refine ⟨⟨.ADD, (s.objects p).fd, false⟩, by simp, ?_⟩
    have hold : (s.objects p).index = kNew ∨ (s.objects p).index = kDeleted := by
      rcases h.index p with hidx | hidx | hidx
      · exact .inl hidx
      · exact absurd hidx hadded
      · exact .inr hidx
    simp only [interest, updateChannel, setObject, Function.update_self,
      PolledChannel.setInterest_index, if_pos hold]
    by_cases hnew : (s.objects p).index = kNew
    · rw [if_pos hnew, update_eq (by simp [set_index, setObject, hout])]
      simp [set_index, setObject, hdis]
    · rw [if_neg hnew, update_eq (by simp [set_index, setObject, hout])]
      simp [set_index, setObject, hdis, hmap hnew]

theorem remove_eq {s : EpollPoller P} {p : P} (h : s.Mirror) (ha : s.Alone p) :
    ∃ calls : List EpollCall, (∀ call ∈ calls, call.operation = .ADD ↔ call.registered = false) ∧
      s.remove p = { s with
        objects := Function.update s.objects p ((s.objects p).removed.set_index kNew),
        kernel := Function.update s.kernel (s.objects p).fd none,
        channels := Function.update s.channels (s.objects p).fd none,
        calls := s.calls ++ calls } := by
  have hk := h.kernel_alone ha
  by_cases hadded : (s.objects p).index = kAdded
  · have hin : s.kernel (s.objects p).fd = some ⟨(s.objects p).events, p⟩ :=
      (hk _).mpr ⟨hadded, rfl⟩
    refine ⟨[⟨.DEL, (s.objects p).fd, true⟩], by simp, ?_⟩
    simp only [remove, removeChannel, setObject, Function.update_self, PolledChannel.removed_index,
      if_pos hadded]
    rw [update_eq (by simp [hin])]
    simp [set_index, setObject]
  · have hout : s.kernel (s.objects p).fd = none :=
      Option.eq_none_iff_forall_ne_some.mpr fun event hev => hadded ((hk event).mp hev).1
    refine ⟨[], by simp, ?_⟩
    simp only [remove, removeChannel, setObject, Function.update_self, PolledChannel.removed_index,
      if_neg hadded]
    simp [set_index, setObject, hout]

/-! ### The invariant -/

/-- A change of the interest set of a channel. -/
theorem Mirror.interest {s : EpollPoller P} {p : P} (h : s.Mirror) (ha : s.Alone p) (i : Interest) :
    (s.interest p i).Mirror := by
  obtain ⟨call, hcall, heq⟩ := interest_eq h ha i
  rw [heq]
  have hne : (if s.Disables p i then kDeleted else kAdded) ≠ kNew := by split <;> decide
  refine h.of_local ha (fun q hq => Function.update_of_ne hq _ _) (by simp)
    (fun fd hfd => Function.update_of_ne hfd _ _) (fun fd hfd => Function.update_of_ne hfd _ _)
    ?_ (fun event => ?_) (fun q => ?_) (by simp [hne]) (fun c hc => ?_) h.fatal
  · by_cases hd : s.Disables p i <;> simp [hd]
  · by_cases hd : s.Disables p i
    · simp [hd]
    · simp [hd, eq_comm]
  · simp [hne, eq_comm]
  · rcases List.mem_append.mp hc with hc | hc
    · exact h.calls c hc
    · exact List.mem_singleton.mp hc ▸ hcall

theorem Mirror.remove {s : EpollPoller P} {p : P} (h : s.Mirror) (ha : s.Alone p) :
    (s.remove p).Mirror := by
  obtain ⟨calls, hcalls, heq⟩ := remove_eq h ha
  rw [heq]
  refine h.of_local ha (fun q hq => Function.update_of_ne hq _ _) (by simp)
    (fun fd hfd => Function.update_of_ne hfd _ _) (fun fd hfd => Function.update_of_ne hfd _ _)
    (by simp) (by simp) (by simp) (by simp)
    (fun c hc => (List.mem_append.mp hc).elim (h.calls c) (hcalls c)) h.fatal

/-- A new channel in the place of one that is not in use. -/
theorem Mirror.construct {s : EpollPoller P} {p : P} (h : s.Mirror)
    (hi : (s.objects p).index = kNew) (fd : Nat) : (s.setObject p (.new fd)).Mirror := by
  have hnew : (PolledChannel.new fd).index = kNew := rfl
  refine ⟨fun q => ?_, fun fd' event => ?_, fun fd' q => ?_, fun q => ?_, h.calls, h.fatal⟩
  · by_cases hqp : q = p
    · subst hqp
      simp [setObject, hnew]
    · simpa [setObject, hqp] using h.index q
  · -- neither the old object nor the new one is in the kernel set
    refine (h.kernel fd' event).trans (exists_congr fun q => ?_)
    by_cases hqp : q = p
    · subst hqp
      simp [setObject, hnew, hi]
    · simp [setObject, hqp]
  · refine (h.channels fd' q).trans ?_
    by_cases hqp : q = p
    · subst hqp
      simp [setObject, hnew, hi]
    · simp [setObject, hqp]
  · by_cases hqp : q = p
    · subst hqp
      simp [setObject, hnew]
      rfl
    · simpa [setObject, hqp] using h.registered q

/-- Every call keeps the kernel's set in step with the channels. -/
theorem Step.mirror {s t : EpollPoller P} {l : PollerStep P} (h : s.Mirror) (hs : Step s l t) :
    t.Mirror := by
  cases hs with
  | interest p i ha => exact h.interest ha i
  | remove p ha => exact h.remove ha
  | construct p fd hi => exact h.construct hi fd

/-- So it is in every state. -/
theorem reachable_mirror {s : EpollPoller P} (h : (epollMachine P).Reachable s) : s.Mirror := by
  refine h.keeps (I := Mirror) ?_ fun hi hs => Step.mirror hi hs
  rintro s ⟨fds, rfl⟩
  have hnew : ∀ p, (PolledChannel.new (fds p)).index = kNew := fun _ => rfl
  exact ⟨fun p => .inl rfl, by simp [new, hnew], by simp [new, hnew],
    fun p => by simp [new, hnew]; rfl, by simp [new], rfl⟩

end EpollPoller

/-- **The epoll set mirrors the channels.**  After any sequence of calls: `_channels` maps the
descriptor of a channel to it if and only if its index is not `kNew`; if no other channel of the
descriptor is in use, the descriptor is in the kernel set if and only if the index is `kAdded`, and
then the kernel has the channel's mask and its address; whatever is in the kernel set is there for
a channel; and no `EPOLL_CTL_ADD` was issued for a descriptor in the set, nor `MOD` or `DEL` for one
that was not, so that the fatal branch of `update` was not taken. -/
theorem epoll_mirrors_channels {P : Type} [DecidableEq P] {s : EpollPoller P}
    (h : (epollMachine P).Reachable s) :
    (∀ p, s.hasChannel p = true ↔ (s.objects p).index ≠ kNew) ∧
    (∀ p, s.Alone p → ((s.kernel (s.objects p).fd).isSome ↔ (s.objects p).index = kAdded) ∧
      ∀ event, s.kernel (s.objects p).fd = some event → event = ⟨(s.objects p).events, p⟩) ∧
    (∀ fd event, s.kernel fd = some event → (s.objects event.ptr).fd = fd ∧
      (s.objects event.ptr).index = kAdded ∧ event.events = (s.objects event.ptr).events) ∧
    (∀ call ∈ s.calls, call.operation = .ADD ↔ call.registered = false) ∧ s.fatal = false := by
  have hm := EpollPoller.reachable_mirror h
  refine ⟨fun p => ?_, fun p ha => ⟨?_, fun event hev => ((hm.kernel_alone ha event).mp hev).2⟩,
    fun fd event hev => ?_, hm.calls, hm.fatal⟩
  · rw [EpollPoller.hasChannel, beq_iff_eq, hm.channels, and_iff_right rfl]
  · rw [Option.isSome_iff_exists]
    constructor
    · rintro ⟨event, hev⟩
      exact ((hm.kernel_alone ha event).mp hev).1
    · intro hidx
      exact ⟨_, (hm.kernel_alone ha _).mpr ⟨hidx, rfl⟩⟩
  · obtain ⟨p, hfd, hidx, rfl⟩ := (hm.kernel fd event).mp hev
    exact ⟨hfd, hidx, rfl⟩

/-- The theorem after one of two channels has been enabled and disabled. -/
theorem epoll_mirrors_channels_disabled : ∃ s : EpollPoller Bool, (epollMachine Bool).Reachable s ∧
    (s.objects true).index = kDeleted ∧ s.fatal = false := by
  let s₀ : EpollPoller Bool := .new fun p => if p then 7 else 8
  have ha : ∀ s : EpollPoller Bool, (s.objects false).index = kNew → s.Alone true := by
    intro s hs q hq hfd
    cases q with
    | false => exact hs
    | true => exact absurd rfl hq
  have hr := Machine.Run.nil (M := epollMachine Bool) (s := s₀)
    |>.snoc (.interest true .enableReading (ha _ rfl))
    |>.snoc (.interest true .disableAll (ha _ rfl))
  have h : (epollMachine Bool).Reachable _ := ⟨_, _, ⟨_, rfl⟩, hr⟩
  exact ⟨_, h, by decide, (epoll_mirrors_channels h).2.2.2.2⟩

end Reactor.Net
