import Mathlib.Algebra.Group.Nat.Defs
import Reactor.Lib.Memory
import Reactor.Lib.Runs

/-!
# Log — FixedBuffer

`FixedBuffer<SIZE>`: an array and a cursor into it, kept as its distance from `_data`.  `held` is
what the class is for, the bytes between `_data` and `_cur`; the lemmas give it for each member
function.

`length()` is the distance of `end()`, not of `_cur`, from `_data`.

* `reachable_held`: `held` is the text accepted since construction or the last `reset`.
* `reports_iff`: what `length()` and `toSting()` report is that text just when it fills the array.
* `run_lt`: `append` does not fill the array, and nor does `add` as `LogStream` uses it.
-/

namespace Reactor.Log
open Reactor.Lib

/-- `char`, read as an unsigned byte. -/
abbrev Byte := UInt8

/-- The size of the buffer of a `LogStream`. -/
def kSmallBuffer : Nat := 4000

/-- The size of the buffers of `AsyncLogging`. -/
def kLargeBuffer : Nat := 4000 * 1000

/-- `FixedBuffer<SIZE>`: an array of `SIZE` bytes, and how many of them are in use. -/
structure FixedBuffer (SIZE : Nat) where
  /-- `_data` -/
  data : List Byte
  /-- `_cur` -/
  cur : Nat
  length_data : data.length = SIZE
  cur_le : cur ≤ SIZE

namespace FixedBuffer

variable {SIZE : Nat}

/-- The constructor; it leaves `_data` as it finds the memory. -/
def new (memory : List Byte) (h : memory.length = SIZE) : FixedBuffer SIZE :=
  ⟨memory, 0, h, Nat.zero_le _⟩

/-- `avail()`: from `_cur` to the end of the array. -/
def avail (b : FixedBuffer SIZE) : Nat := SIZE - b.cur

/-- `memcpy(_cur, buf, len)`, within the array. -/
def copy (b : FixedBuffer SIZE) (buf : List Byte) : FixedBuffer SIZE :=
  { b with
    data := Memory.store b.data b.cur buf
    length_data := (Memory.length_store _ _ _).trans b.length_data }

/-- `append(buf, len)`: nothing is done unless there is more room than is needed. -/
def append (b : FixedBuffer SIZE) (buf : List Byte) : FixedBuffer SIZE :=
  if h : buf.length < b.avail then
    { b.copy buf with
      cur := b.cur + buf.length
      cur_le := by have := b.cur_le; unfold avail at h; omega }
  else b

/-- Client code writes at `current()`; `none` is a write outside the array. -/
def write (b : FixedBuffer SIZE) (bytes : List Byte) : Option (FixedBuffer SIZE) :=
  if bytes.length ≤ b.avail then some (b.copy bytes) else none

/-- `none` is a cursor outside the array. -/
def add (b : FixedBuffer SIZE) (len : Nat) : Option (FixedBuffer SIZE) :=
  if h : len ≤ b.avail then
    some { b with
      cur := b.cur + len
      cur_le := by have := b.cur_le; unfold avail at h; omega }
  else none

/-- `reset()` -/
def reset (b : FixedBuffer SIZE) : FixedBuffer SIZE := { b with cur := 0, cur_le := Nat.zero_le _ }

/-- `bzero()`, of the whole array. -/
def bzero (b : FixedBuffer SIZE) : FixedBuffer SIZE :=
  { b with data := List.replicate SIZE 0, length_data := List.length_replicate }

/-- `end() - _data` -/
def length (_ : FixedBuffer SIZE) : Nat := SIZE

/-- What is read by a function called with `data()` and `length()`: by the output function in
`Logger::~Logger`, and by `LogFile::append` in `AsyncLogging::ThreadFunc`. -/
def passed (b : FixedBuffer SIZE) : List Byte := b.data.take b.length

/-- `toSting()`, which takes `length()` bytes. -/
def toSting (b : FixedBuffer SIZE) : List Byte := b.data.take b.length

/-- The bytes between `_data` and `_cur`. -/
def held (b : FixedBuffer SIZE) : List Byte := b.data.take b.cur

/-! ### What is held -/

@[simp] theorem length_held (b : FixedBuffer SIZE) : b.held.length = b.cur := by
  simp [held, b.length_data, b.cur_le]

@[simp] theorem held_new (memory : List Byte) (h : memory.length = SIZE) :
    (new memory h).held = [] := rfl

@[simp] theorem held_reset (b : FixedBuffer SIZE) : b.reset.held = [] := rfl

@[simp] theorem held_bzero_new (memory : List Byte) (h : memory.length = SIZE) :
    (new memory h).bzero.held = [] := rfl

theorem data_copy (b : FixedBuffer SIZE) (bytes : List Byte) :
    (b.copy bytes).data = Memory.store b.data b.cur bytes := rfl

/-- Bytes stored at the cursor follow what is held. -/
theorem take_copy (b : FixedBuffer SIZE) {bytes : List Byte} (h : bytes.length ≤ b.avail)
    {n : Nat} (hn : n ≤ bytes.length) :
    (b.copy bytes).data.take (b.cur + n) = b.held ++ bytes.take n := by
  have hle := b.cur_le
  have hlen : b.cur + bytes.length ≤ b.data.length := by
    unfold avail at h; rw [b.length_data]; omega
  rw [data_copy, Memory.store_eq hlen, List.append_assoc, ← held, List.take_append, length_held,
    List.take_of_length_le (by simp), Nat.add_sub_cancel_left, List.take_append_of_le_length hn]

/-- `append` adds the text if it fits, and else nothing. -/
theorem held_append (b : FixedBuffer SIZE) (buf : List Byte) :
    (b.append buf).held = if buf.length < b.avail then b.held ++ buf else b.held := by
  unfold append
  split
  · next h => exact (b.take_copy (Nat.le_of_lt h) (Nat.le_refl _)).trans (by rw [List.take_length])
  · rfl

/-- Writing at the cursor and then moving it. -/
theorem add_write {b b' b'' : FixedBuffer SIZE} {bytes : List Byte} {len : Nat}
    (hw : b.write bytes = some b') (ha : b'.add len = some b'') :
    bytes.length ≤ b.avail ∧ b''.data = (b.copy bytes).data ∧ b''.cur = b.cur + len := by
  unfold write at hw
  split at hw
  · next h =>
    cases hw
    unfold add at ha
    split at ha
    · cases ha
      exact ⟨h, rfl, rfl⟩
    · cases ha
  · cases hw

/-- `add` makes a part of what was written at `current()` belong to the text. -/
theorem held_add {b b' b'' : FixedBuffer SIZE} {bytes : List Byte} {len : Nat}
    (hlen : len ≤ bytes.length) (hw : b.write bytes = some b') (ha : b'.add len = some b'') :
    b''.held = b.held ++ bytes.take len := by
  obtain ⟨hroom, hdata, hcur⟩ := add_write hw ha
  rw [held, hdata, hcur]
  exact b.take_copy hroom hlen

/-- What is reported is the whole array. -/
theorem passed_eq (b : FixedBuffer SIZE) : b.passed = b.data :=
  List.take_of_length_le (Nat.le_of_eq b.length_data)

theorem toSting_eq (b : FixedBuffer SIZE) : b.toSting = b.data := b.passed_eq

/-- `length()` is the length of the text only where the array is full. -/
theorem passed_eq_held_iff (b : FixedBuffer SIZE) : b.passed = b.held ↔ b.cur = SIZE := by
  rw [passed_eq]
  constructor
  · intro h
    rw [← b.length_held, ← h, b.length_data]
  · intro h
    rw [held, h, List.take_of_length_le (Nat.le_of_eq b.length_data)]

end FixedBuffer

/-! ### Sequences of operations -/

/-- What the users of a buffer do to it. -/
inductive FixedBuffer.Op where
  | append (buf : List Byte)
  /-- `bytes` are written at `current()`, then comes `add(len)`. -/
  | add (bytes : List Byte) (len : Nat)
  | reset

/-- A buffer, with the text accepted since construction or the last `reset`. -/
structure Recorded (SIZE : Nat) where
  buffer : FixedBuffer SIZE
  text : List Byte

namespace Recorded

variable {SIZE : Nat}

/-- The operations, with the text that is meant to be in the buffer. -/
inductive Step : Recorded SIZE → FixedBuffer.Op → Recorded SIZE → Prop where
  | append {s} (buf : List Byte) :
      Step s (.append buf)
        ⟨s.buffer.append buf, if buf.length < s.buffer.avail then s.text ++ buf else s.text⟩
  | add {s} {b b' : FixedBuffer SIZE} (bytes : List Byte) (len : Nat) (hlen : len ≤ bytes.length)
      (hw : s.buffer.write bytes = some b) (ha : b.add len = some b') :
      Step s (.add bytes len) ⟨b', s.text ++ bytes.take len⟩
  | reset {s} : Step s .reset ⟨s.buffer.reset, []⟩

end Recorded

/-- A buffer over memory that holds anything, and all that can be done to it. -/
def fixedBufferMachine (SIZE : Nat) : Machine (Recorded SIZE) FixedBuffer.Op where
  init s := ∃ memory h, s = ⟨.new memory h, []⟩
  step := Recorded.Step

namespace Recorded

variable {SIZE : Nat}

/-- Every operation keeps the buffer and the text together. -/
theorem Step.held {s t : Recorded SIZE} {l : FixedBuffer.Op} (h : s.buffer.held = s.text)
    (hs : Step s l t) : t.buffer.held = t.text := by
  cases hs with
  | append buf => rw [FixedBuffer.held_append, h]
  | add bytes len hlen hw ha => rw [FixedBuffer.held_add hlen hw ha, h]
  | reset => rfl

/-- So the buffer holds the text in every state. -/
theorem reachable_held {s : Recorded SIZE} (h : (fixedBufferMachine SIZE).Reachable s) :
    s.buffer.held = s.text := by
  refine h.keeps (I := fun s => s.buffer.held = s.text) ?_ fun hi hs => Step.held hi hs
  rintro s ⟨memory, hm, rfl⟩
  rfl

/-- The operation leaves room, as every `append` does: `LogStream` writes fewer bytes than the
`kMaxNumericSize` it first makes sure of. -/
def LeavesRoom (s : Recorded SIZE) : FixedBuffer.Op → Prop
  | .add _ len => len < s.buffer.avail
  | _ => True

/-- An operation that leaves room does not fill the array. -/
theorem Step.cur_lt {s t : Recorded SIZE} {l : FixedBuffer.Op} (hlt : s.buffer.cur < SIZE)
    (hr : s.LeavesRoom l) (hs : Step s l t) : t.buffer.cur < SIZE := by
  cases hs with
  | append buf =>
    unfold FixedBuffer.append
    split
    · next h =>
      simp only [FixedBuffer.avail] at h
      show s.buffer.cur + buf.length < SIZE
      omega
    · exact hlt
  | @add b b' bytes len hlen hw ha =>
    have hcur : b'.cur = s.buffer.cur + len := (FixedBuffer.add_write hw ha).2.2
    simp only [LeavesRoom, FixedBuffer.avail] at hr
    show b'.cur < SIZE
    omega
  | reset => exact Nat.zero_lt_of_lt hlt

/-- Operations that leave room do not fill the array. -/
theorem run_lt {s t : Recorded SIZE} {tr : List (Recorded SIZE × FixedBuffer.Op)}
    (hpos : 0 < SIZE) (h₀ : (fixedBufferMachine SIZE).init s)
    (hr : (fixedBufferMachine SIZE).Run s tr t) (hm : Meets LeavesRoom tr) :
    t.text.length < SIZE := by
  have hlt : t.buffer.cur < SIZE := by
    refine hr.keeps (I := fun s => s.buffer.cur < SIZE) (fun hi hl hs => Step.cur_lt hi hl hs) hm ?_
    obtain ⟨memory, hmem, rfl⟩ := h₀
    exact hpos
  rwa [← reachable_held ⟨s, tr, h₀, hr⟩, FixedBuffer.length_held]

end Recorded

/-- **What a buffer reports is what was appended just when that fills it.**  For every capacity
and every sequence of operations: `data()` restricted to `length()` bytes, which is what the sinks
read, and `toSting()` are the text accepted since construction or the last `reset` if and only if
that text is `SIZE` bytes long. -/
theorem reports_iff {SIZE : Nat} {s : Recorded SIZE} (h : (fixedBufferMachine SIZE).Reachable s) :
    (s.buffer.passed = s.text ∧ s.buffer.toSting = s.text) ↔ s.text.length = SIZE := by
  have hheld := Recorded.reachable_held h
  calc (s.buffer.passed = s.text ∧ s.buffer.toSting = s.text)
      ↔ s.buffer.passed = s.buffer.held := by
        rw [FixedBuffer.passed_eq, FixedBuffer.toSting_eq, hheld, and_self_iff]
    _ ↔ s.buffer.cur = SIZE := s.buffer.passed_eq_held_iff
    _ ↔ s.text.length = SIZE := by rw [← s.buffer.length_held, hheld]

/-- The theorem at four bytes written into four. -/
theorem reports_iff_four : ∃ s : Recorded 4, (fixedBufferMachine 4).Reachable s ∧
    s.text = [100, 111, 110, 101] ∧ s.buffer.passed = s.text ∧ s.buffer.toSting = s.text := by
  have hr := Machine.Run.nil (M := fixedBufferMachine 4) (s := ⟨.new [0, 0, 0, 0] rfl, []⟩)
    |>.snoc (.add [100, 111, 110, 101] 4 (by decide) rfl rfl)
  have h : (fixedBufferMachine 4).Reachable _ := ⟨_, _, ⟨_, rfl, rfl⟩, hr⟩
  exact ⟨_, h, rfl, (reports_iff h).mpr rfl⟩

/-- A `LogStream`'s buffer, to which one byte is appended, reports 4000. -/
theorem reports_stale : ∃ s : Recorded kSmallBuffer, (fixedBufferMachine kSmallBuffer).Reachable s ∧
    s.text = [97] ∧ s.buffer.length = 4000 ∧ s.buffer.passed ≠ s.text ∧
    s.buffer.toSting ≠ s.text := by
  let init : Recorded kSmallBuffer := ⟨.new (List.replicate 4000 0) List.length_replicate, []⟩
  have hr := Machine.Run.nil (M := fixedBufferMachine kSmallBuffer) (s := init)
    |>.snoc (.append [97])
  have hne : ∀ b : FixedBuffer kSmallBuffer, b.data ≠ [97] := fun b h => by
    have hlen := b.length_data
    rw [h] at hlen
    exact absurd hlen (by decide)
  refine ⟨_, ⟨_, _, ⟨_, _, rfl⟩, hr⟩, rfl, rfl, ?_, ?_⟩
  · rw [FixedBuffer.passed_eq]
    exact hne _
  · rw [FixedBuffer.toSting_eq]
    exact hne _

end Reactor.Log
