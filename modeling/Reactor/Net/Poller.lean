import Mathlib.Logic.Function.Basic
import Reactor.Net.Channel

/-!
# Net — Poller

What the two pollers share: the `Channel` objects with the fields a poller reads and writes, and
the calls on them that end in `updateChannel` or `removeChannel`.
-/

namespace Reactor.Net

/-- A `Channel` object. -/
structure PolledChannel extends Channel where
  /-- `_fd` -/
  fd : Nat
  /-- `_index`, which is the poller's. -/
  index : Int

/-- The constructor. -/
def PolledChannel.new (fd : Nat) : PolledChannel := { Channel.new with fd := fd, index := -1 }

/-- A call that changes the interest set and ends in `update()`. -/
inductive Interest where
  | enableReading
  | disableReading
  | enableWriting
  | disableWriting
  | disableAll
  deriving DecidableEq, Repr

/-- What the call does to the channel. -/
def Interest.apply : Interest → Channel → Channel
  | .enableReading => Channel.enableReading
  | .disableReading => Channel.disableReading
  | .enableWriting => Channel.enableWriting
  | .disableWriting => Channel.disableWriting
  | .disableAll => Channel.disableAll

@[simp] theorem Interest.registered_apply (i : Interest) (c : Channel) :
    (i.apply c).registered = true := by
  cases i <;> rfl

/-- Only the three lowest bits are used. -/
theorem Interest.events_apply_lt (i : Interest) {c : Channel} (h : c.events.toNat < 8) :
    (i.apply c).events.toNat < 8 := by
  have hor : ∀ e : BitVec 32, e.toNat < 8 → (c.events ||| e).toNat < 8 := by
    intro e he
    rw [BitVec.toNat_or]
    exact Nat.or_lt_two_pow (n := 3) h he
  have hand : ∀ e : BitVec 32, (c.events &&& e).toNat < 8 := by
    intro e
    rw [BitVec.toNat_and]
    exact Nat.and_le_left.trans_lt h
  cases i with
  | enableReading => exact hor _ (by decide)
  | disableReading => exact hand _
  | enableWriting => exact hor _ (by decide)
  | disableWriting => exact hand _
  | disableAll => exact hand _

namespace PolledChannel

/-- The object up to the call of `updateChannel`. -/
def setInterest (c : PolledChannel) (i : Interest) : PolledChannel :=
  { c with toChannel := i.apply c.toChannel }

/-- `remove()`, as far as it is the channel's. -/
def removed (c : PolledChannel) : PolledChannel := { c with toChannel := c.toChannel.remove }

/-- `set_index(idx)` -/
def set_index (c : PolledChannel) (idx : Int) : PolledChannel := { c with index := idx }

@[simp] theorem setInterest_fd (c : PolledChannel) (i : Interest) : (c.setInterest i).fd = c.fd :=
  rfl

@[simp] theorem setInterest_index (c : PolledChannel) (i : Interest) :
    (c.setInterest i).index = c.index := rfl

@[simp] theorem setInterest_registered (c : PolledChannel) (i : Interest) :
    (c.setInterest i).registered = true := i.registered_apply c.toChannel

@[simp] theorem removed_fd (c : PolledChannel) : c.removed.fd = c.fd := rfl
@[simp] theorem removed_index (c : PolledChannel) : c.removed.index = c.index := rfl
@[simp] theorem removed_registered (c : PolledChannel) : c.removed.registered = false := rfl

@[simp] theorem set_index_fd (c : PolledChannel) (idx : Int) : (c.set_index idx).fd = c.fd := rfl
@[simp] theorem set_index_index (c : PolledChannel) (idx : Int) :
    (c.set_index idx).index = idx := rfl

@[simp] theorem set_index_toChannel (c : PolledChannel) (idx : Int) :
    (c.set_index idx).toChannel = c.toChannel := rfl

theorem set_index_self {c : PolledChannel} {idx : Int} (h : c.index = idx) :
    c.set_index idx = c := by
  subst h; rfl

/-- A field that the new object at `p` shares with the old one is that of the old objects. -/
theorem update_field {P α : Type} [DecidableEq P] (objects : P → PolledChannel) (p : P)
    (c : PolledChannel) (f : PolledChannel → α) (h : f c = f (objects p)) (q : P) :
    f (Function.update objects p c q) = f (objects q) := by
  by_cases hqp : q = p
  · rw [hqp, Function.update_self, h]
  · rw [Function.update_of_ne hqp]

end PolledChannel

end Reactor.Net
