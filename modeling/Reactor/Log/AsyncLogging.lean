import Mathlib.Data.List.Infix
import Reactor.Log.FixedBuffer

/-!
# Log — AsyncLogging

`AsyncLogging` as a machine of any number of producer threads, which call `append`, the back-end
thread in `ThreadFunc`, and the threads that call `start` and `stop`.  `append` is one step, a
critical section on `_mutex`.  An iteration of `ThreadFunc` is taken apart where others may come
in: the test of `_running` is outside the mutex, and `wait_for` gives the mutex up, until it is
notified, its time is over, or for no reason.

A `Buffer` carries the lines appended to it since it was made or last reset, of which the bytes it
holds are made up.  These lines, and the fields `appended`, `written` and `accepted`, are history.
A call that would use a null pointer, or the last element of an empty vector, has the result
`none`.
-/

namespace Reactor.Log
open Reactor.Lib

/-- A line of the log, as `append` is given it. -/
abbrev Line := List Byte

/-- `FixedBuffer<kLargeBuffer>`, with the lines it holds. -/
structure Buffer where
  toFixedBuffer : FixedBuffer kLargeBuffer
  lines : List Line
  held_eq : toFixedBuffer.held = lines.flatten

namespace Buffer

/-- Memory `new` may find for a buffer. -/
abbrev Memory := { memory : List Byte // memory.length = kLargeBuffer }

/-- `new Buffer`, over memory that holds anything. -/
def new (memory : Memory) : Buffer := ⟨.new memory.1 memory.2, [], rfl⟩

/-- A new buffer after `bzero()`. -/
def newZero (memory : Memory) : Buffer := ⟨(FixedBuffer.new memory.1 memory.2).bzero, [], rfl⟩

/-- `avail()` of the buffer's array. -/
def avail (b : Buffer) : Nat := b.toFixedBuffer.avail

/-- `append(logline, len)`: the line is taken as a whole, or not at all. -/
def append (b : Buffer) (line : Line) : Buffer where
  toFixedBuffer := b.toFixedBuffer.append line
  lines := if line.length < b.avail then b.lines ++ [line] else b.lines
  held_eq := by
    rw [FixedBuffer.held_append, b.held_eq, avail]
    split <;> simp

/-- `reset()`: the array keeps its bytes, the buffer has no lines. -/
def reset (b : Buffer) : Buffer := ⟨b.toFixedBuffer.reset, [], rfl⟩

/-- Nothing has been appended since it was made or last reset. -/
def Empty (b : Buffer) : Prop := b.lines = [] ∧ b.avail = kLargeBuffer

theorem empty_new (memory : Memory) : (new memory).Empty := ⟨rfl, rfl⟩
theorem empty_newZero (memory : Memory) : (newZero memory).Empty := ⟨rfl, rfl⟩
theorem empty_reset (b : Buffer) : b.reset.Empty := ⟨rfl, rfl⟩

/-- A line for which there is room is taken whole. -/
theorem lines_append {b : Buffer} {line : Line} (h : line.length < b.avail) :
    (b.append line).lines = b.lines ++ [line] := if_pos h

/-- An empty buffer takes any line `append` is called with. -/
theorem Empty.lines_append {b : Buffer} {line : Line} (hb : b.Empty)
    (h : line.length < kLargeBuffer) : (b.append line).lines = [line] := by
  rw [Buffer.lines_append (hb.2 ▸ h), hb.1, List.nil_append]

end Buffer

/-- `std::unique_ptr<Buffer>` -/
abbrev BufferPtr := Option Buffer

/-- The lines in a vector of buffers, in order. -/
def linesOf (buffers : List BufferPtr) : List Line :=
  buffers.flatMap fun p => match p with
    | some b => b.lines
    | none => []

@[simp] theorem linesOf_nil : linesOf [] = [] := rfl

@[simp] theorem linesOf_append (v w : List BufferPtr) :
    linesOf (v ++ w) = linesOf v ++ linesOf w := by
  simp [linesOf]

@[simp] theorem linesOf_singleton (b : Buffer) : linesOf [some b] = b.lines := by
  simp [linesOf]

theorem linesOf_cons (b : Buffer) (v : List BufferPtr) :
    linesOf (some b :: v) = b.lines ++ linesOf v := by
  simp [linesOf]

/-- `LogFile`, as far as `ThreadFunc` uses it. -/
structure LogFile where
  /-- `_mutex` is not null. -/
  mutex : Bool
  /-- The bytes handed to `AppendFile::append`. -/
  bytes : List Byte
  /-- How many of them have been flushed. -/
  flushed : Nat

namespace LogFile

/-- The constructor; nothing is written yet. -/
def new (threadSafe : Bool) : LogFile := ⟨threadSafe, [], 0⟩

/-- `append_unlocked`, as far as the bytes go. -/
def append_unlocked (f : LogFile) (data : List Byte) : LogFile :=
  { f with bytes := f.bytes ++ data }

/-- Under the mutex or not, the same. -/
def append (f : LogFile) (data : List Byte) : LogFile := f.append_unlocked data

/-- `flush()`, which does nothing without a mutex. -/
def flush (f : LogFile) : LogFile :=
  if f.mutex then { f with flushed := f.bytes.length } else f

end LogFile

/-- Where the back-end thread is. -/
inductive BackEnd where
  /-- There is no thread yet. -/
  | notStarted
  /-- At `while(_running)`. -/
  | test
  /-- Before it takes the mutex. -/
  | lock
  /-- In `wait_for`. -/
  | wait
  /-- In the loop over `buffersToWrite`, at the first of those left. -/
  | write (left : List BufferPtr)
  /-- `ThreadFunc` has returned. -/
  | returned

/-- Where a thread is in `start` or `stop`. -/
inductive Call where
  | idle
  /-- `_running` is stored. -/
  | stored
  | returned
  deriving DecidableEq

/-- `AsyncLogging`, its thread in `ThreadFunc`, the local variables of that, and the history of its
lines. -/
structure AsyncLogging where
  /-- `_running` -/
  running : Bool
  /-- `_currentBuffer` -/
  currentBuffer : BufferPtr
  /-- `_nextBuffer` -/
  nextBuffer : BufferPtr
  /-- `_buffers` -/
  buffers : List BufferPtr
  pc : BackEnd
  output : LogFile
  newBuffer1 : BufferPtr
  newBuffer2 : BufferPtr
  buffersToWrite : List BufferPtr
  start : Call
  stop : Call
  appended : List Line
  /-- The buffers passed to `output.append`, as they were. -/
  written : List BufferPtr
  /-- The lines appended before `stop` was called. -/
  accepted : List Line

namespace AsyncLogging

/-- The constructor. -/
def new (memory₁ memory₂ : Buffer.Memory) : AsyncLogging where
  running := false
  currentBuffer := some (.newZero memory₁)
  nextBuffer := some (.newZero memory₂)
  buffers := []
  pc := .notStarted
  output := .new false
  newBuffer1 := none
  newBuffer2 := none
  buffersToWrite := []
  start := .idle
  stop := .idle
  appended := []
  written := []
  accepted := []

/-- `memory` is what `new` finds, if it is called. -/
def append (s : AsyncLogging) (line : Line) (memory : Buffer.Memory) : Option AsyncLogging := do
  let current ← s.currentBuffer
  if line.length < current.avail then
    return { s with
      currentBuffer := some (current.append line)
      appended := s.appended ++ [line] }
  else
    let next := s.nextBuffer.getD (.new memory)
    return { s with
      buffers := s.buffers ++ [some current]
      currentBuffer := some (next.append line)
      nextBuffer := none
      appended := s.appended ++ [line] }

/-- `ThreadFunc` up to its loop. -/
def enter (s : AsyncLogging) (memory₁ memory₂ : Buffer.Memory) : AsyncLogging :=
  { s with
    output := .new false
    newBuffer1 := some (.newZero memory₁)
    newBuffer2 := some (.newZero memory₂)
    buffersToWrite := []
    pc := .test }

/-- The critical section of an iteration up to the loop over `buffersToWrite`. -/
def collect (s : AsyncLogging) : AsyncLogging :=
  let full := s.buffers ++ [s.currentBuffer]
  { s with
    currentBuffer := s.newBuffer1
    newBuffer1 := none
    buffers := s.buffersToWrite
    buffersToWrite := full
    nextBuffer := if s.nextBuffer.isNone then s.newBuffer2 else s.nextBuffer
    newBuffer2 := if s.nextBuffer.isNone then none else s.newBuffer2
    pc := .write full }

/-- `output.append(buffer->data(), buffer->length())` -/
def writeBuffer (s : AsyncLogging) (buffer : Buffer) : AsyncLogging :=
  { s with
    output := s.output.append buffer.toFixedBuffer.passed
    written := s.written ++ [some buffer] }

/-- `if (!spare) { spare = std::move(v.back()); v.pop_back(); spare->reset(); }` -/
def refill (spare : BufferPtr) (v : List BufferPtr) : Option (BufferPtr × List BufferPtr) :=
  match spare with
  | some b => some (some b, v)
  | none => do
    let back ← v.getLast?
    let b ← back
    return (some b.reset, v.dropLast)

/-- The rest of the iteration. -/
def recycle (s : AsyncLogging) : Option AsyncLogging := do
  let v := if 2 < s.buffersToWrite.length then s.buffersToWrite.take 2 else s.buffersToWrite
  let (newBuffer1, v) ← refill s.newBuffer1 v
  let (newBuffer2, _) ← refill s.newBuffer2 v
  return { s with
    newBuffer1 := newBuffer1
    newBuffer2 := newBuffer2
    buffersToWrite := []
    output := s.output.flush
    pc := .test }

/-- The buffers passed to `output.append` from now to the end of the iteration. -/
def toWrite (s : AsyncLogging) : List BufferPtr :=
  match s.pc with
  | .write left => left
  | _ => []

/-- The back-end thread does not hold `_mutex`. -/
def MutexFree (s : AsyncLogging) : Prop :=
  match s.pc with
  | .write _ => False
  | _ => True

end AsyncLogging

/-- The steps of the threads that log, of the owner and of `ThreadFunc`. -/
inductive LogStep where
  | append (line : Line)
  | start
  | startThread
  | test
  | leave
  | wait
  | collect
  | write
  | recycle
  | stop
  | stopReturn

namespace AsyncLogging

/-- The steps; a critical section of `append` is one, and those of `ThreadFunc` are cut where it
lets the mutex go. -/
inductive Step : AsyncLogging → LogStep → AsyncLogging → Prop where
  | append {s t} (line : Line) (memory : Buffer.Memory) (hm : s.MutexFree)
      (hlen : line.length < kLargeBuffer) (ht : s.append line memory = some t) :
      Step s (.append line) t
  /-- `_running = true` in `start`. -/
  | start {s} (hc : s.start = .idle) : Step s .start { s with running := true, start := .stored }
  /-- `_thread.start()` in `start`. -/
  | startThread {s} (memory₁ memory₂ : Buffer.Memory) (hc : s.start = .stored)
      (hpc : s.pc = .notStarted) :
      Step s .startThread { s.enter memory₁ memory₂ with start := .returned }
  | test {s} (hpc : s.pc = .test) (hr : s.running = true) : Step s .test { s with pc := .lock }
  | leave {s} (hpc : s.pc = .test) (hr : s.running = false) :
      Step s .leave { s with output := s.output.flush, pc := .returned }
  | wait {s} (hpc : s.pc = .lock) (hb : s.buffers = []) : Step s .wait { s with pc := .wait }
  /-- With the mutex taken, or taken again, and nothing to wait for. -/
  | collect {s} (hpc : s.pc = .lock ∧ s.buffers ≠ [] ∨ s.pc = .wait) : Step s .collect s.collect
  | write {s} {buffer : Buffer} {left : List BufferPtr}
      (hpc : s.pc = .write (some buffer :: left)) :
      Step s .write { s.writeBuffer buffer with pc := .write left }
  | recycle {s t} (hpc : s.pc = .write []) (ht : s.recycle = some t) : Step s .recycle t
  /-- `_running = false` in `stop`; what follows up to `join` changes no field. -/
  | stop {s} (hc : s.stop = .idle) :
      Step s .stop { s with running := false, stop := .stored, accepted := s.appended }
  /-- `_thread.join()` returns. -/
  | stopReturn {s} (hc : s.stop = .stored) (hpc : s.pc = .returned) :
      Step s .stopReturn { s with stop := .returned }

end AsyncLogging

/-- A log that has been constructed, over memory that holds anything. -/
def asyncLoggingMachine : Machine AsyncLogging LogStep where
  init s := ∃ memory₁ memory₂, s = .new memory₁ memory₂
  step := AsyncLogging.Step

end Reactor.Log
