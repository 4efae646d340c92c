import Mathlib.Data.BitVec

/-!
# Net — Channel

The interest set of a `Channel`, as the bit mask the code keeps.  Every change of it ends in
`update()`, after which the poller knows the channel; `remove()` makes the poller forget it.
-/

namespace Reactor.Net

/-- No events. -/
def kNoneEvent : BitVec 32 := 0
/-- `EPOLLIN | EPOLLPRI` -/
def kReadEvent : BitVec 32 := 0x001#32 ||| 0x002#32
/-- `EPOLLOUT` -/
def kWriteEvent : BitVec 32 := 0x004#32

/-- `Channel`, as far as it is of one connection: its mask, and whether it is in the poller. -/
structure Channel where
  /-- `_events` -/
  events : BitVec 32
  /-- The poller has an entry for the channel. -/
  registered : Bool
  deriving DecidableEq, Repr

namespace Channel

/-- The constructor. -/
def new : Channel := ⟨kNoneEvent, false⟩

/-- `update()`: the poller learns of the channel and of its interest set. -/
def update (c : Channel) : Channel := { c with registered := true }

/-- `enableReading()` -/
def enableReading (c : Channel) : Channel := { c with events := c.events ||| kReadEvent }.update

/-- `disableReading()` -/
def disableReading (c : Channel) : Channel := { c with events := c.events &&& ~~~kReadEvent }.update

/-- `enableWriting()` -/
def enableWriting (c : Channel) : Channel := { c with events := c.events ||| kWriteEvent }.update

/-- `disableWriting()` -/
def disableWriting (c : Channel) : Channel :=
  { c with events := c.events &&& ~~~kWriteEvent }.update

/-- `disableAll()` -/
def disableAll (c : Channel) : Channel := { c with events := c.events &&& kNoneEvent }.update

/-- `remove()`: the poller forgets the channel, the mask stays. -/
def remove (c : Channel) : Channel := { c with registered := false }

/-- `isNoneEvent()` -/
def isNoneEvent (c : Channel) : Bool := c.events == kNoneEvent

/-- `isReading()` -/
def isReading (c : Channel) : Bool := c.events &&& kReadEvent != 0

/-- `isWriting()` -/
def isWriting (c : Channel) : Bool := c.events &&& kWriteEvent != 0

/-- Masking with `kWriteEvent` keeps bit 2 only. -/
theorem isWriting_eq_getLsbD (c : Channel) : c.isWriting = c.events.getLsbD 2 := by
  have hbit : c.events &&& kWriteEvent = if c.events.getLsbD 2 then kWriteEvent else 0 :=
    BitVec.and_twoPow c.events 2
  rw [isWriting, hbit]
  cases c.events.getLsbD 2 <;> decide

@[simp] theorem isWriting_new : new.isWriting = false := by decide

@[simp] theorem isWriting_enableWriting (c : Channel) : c.enableWriting.isWriting = true := by
  simp [isWriting_eq_getLsbD, enableWriting, update, kWriteEvent]

@[simp] theorem isWriting_disableWriting (c : Channel) : c.disableWriting.isWriting = false := by
  simp [isWriting_eq_getLsbD, disableWriting, update, kWriteEvent]

@[simp] theorem isWriting_enableReading (c : Channel) :
    c.enableReading.isWriting = c.isWriting := by
  simp [isWriting_eq_getLsbD, enableReading, update, kReadEvent]

end Channel

end Reactor.Net
