import Reactor.Log.BufferPool

/-!
# Log — durability

What of the log has left the process after each round of `ThreadFunc`.  The bytes go through the
buffer of the stdio stream, which the library writes out as it sees fit in a call of
`fwrite_unlocked`, as a whole in `fflush`, and as a whole in `fclose`, when the `LogFile` in
`ThreadFunc` is destroyed.  `LogFile::flush` calls `fflush` only under its mutex, and the back end
asks for a `LogFile` without one: nothing in `ThreadFunc` flushes the stream.

* `Buffered`: the invariant, that there is no mutex and no more is written out than was handed over.
* `Buffered.step_durable_iff`: what one step does to the promise.
* `durable_iff`: the runs that keep it.
-/

namespace Reactor.Log
open Reactor.Lib

/-- `LogFile::flush`, on the number of bytes that have left the buffer of the stream. -/
def LogFile.fflush (f : LogFile) (out : Nat) : Nat := if f.mutex then f.bytes.length else out

/-- `AsyncLogging`, and the stream of the `LogFile` in `ThreadFunc`. -/
structure StreamLogging where
  log : AsyncLogging
  /-- How many of the bytes handed to the `LogFile` have left the buffer of the stream. -/
  out : Nat

namespace StreamLogging

/-- What a step that leads to `log` may do to the stream: a new one with the thread, any part of
what is pending written out in a write, `fclose` when `ThreadFunc` returns. -/
def Streams (s : StreamLogging) (log : AsyncLogging) (out : Nat) : LogStep → Prop
  | .startThread => out = 0
  | .write => s.out ≤ out ∧ out ≤ log.output.bytes.length
  | .recycle => out = s.log.output.fflush s.out
  | .leave => out = log.output.bytes.length
  | _ => out = s.out

end StreamLogging

/-- The log over a stream that goes out when stdio likes, and when it is told to. -/
def streamLoggingMachine : Machine StreamLogging LogStep where
  init s := asyncLoggingMachine.init s.log ∧ s.out = 0
  step s l t := AsyncLogging.Step s.log l t.log ∧ s.Streams t.log t.out l

namespace StreamLogging

theorem step_intro {s : StreamLogging} {log : AsyncLogging} {out : Nat} {l : LogStep}
    (h : AsyncLogging.Step s.log l log) (hout : s.Streams log out l) :
    streamLoggingMachine.step s l ⟨log, out⟩ := ⟨h, hout⟩

/-- At the end of an iteration, and when `ThreadFunc` has returned, every byte handed to the
`LogFile` has left the buffer of the stream. -/
def Durable (s : StreamLogging) : Prop :=
  s.log.pc = .test ∨ s.log.pc = .returned → s.out = s.log.output.bytes.length

/-- An iteration that comes to `output.flush()` finds the buffer of the stream empty. -/
def FlushedAlready (s : StreamLogging) (l : LogStep) : Prop :=
  l = .recycle → s.out = s.log.output.bytes.length

/-! ### The file of the back end -/

/-- What holds of a log whose file has no mutex. -/
structure Buffered (s : StreamLogging) : Prop where
  pool : s.log.Pool
  mutex : s.log.output.mutex = false
  out_le : s.out ≤ s.log.output.bytes.length

/-- Without a mutex neither `flush` nor `fflush` is called. -/
theorem flush_eq {f : LogFile} (h : f.mutex = false) : f.flush = f := by
  simp [LogFile.flush, h]

/-- Without a mutex `flush` has no effect on what has gone out. -/
theorem fflush_eq {f : LogFile} (h : f.mutex = false) (out : Nat) : f.fflush out = out := by
  simp [LogFile.fflush, h]

variable {s t : StreamLogging} {l : LogStep}

theorem Buffered.step (h : s.Buffered) (hs : streamLoggingMachine.step s l t) : t.Buffered := by
  obtain ⟨hlog, hout⟩ := hs
  suffices hfile : t.log.output.mutex = false ∧ t.out ≤ t.log.output.bytes.length from
    ⟨hlog.pool h.pool, hfile.1, hfile.2⟩
  have hkept : t.log.output = s.log.output → t.out = s.out →
      t.log.output.mutex = false ∧ t.out ≤ t.log.output.bytes.length := by
    intro hfile hout
    rw [hfile, hout]
    exact ⟨h.mutex, h.out_le⟩
  obtain ⟨log, out⟩ := t
  cases hlog with
  | append line memory hm hlen ht =>
    obtain ⟨_, _, _, rfl⟩ := AsyncLogging.append_frame h.pool hlen ht
    exact hkept rfl hout
  | start | stop | stopReturn | test | wait | collect => exact hkept rfl hout
  | startThread => exact ⟨rfl, Nat.le_of_eq hout⟩
  | write hpc => exact ⟨h.mutex, hout.2⟩
  | recycle hpc ht =>
    obtain ⟨_, _, rfl⟩ := AsyncLogging.recycle_frame h.pool hpc ht
    exact hkept (flush_eq h.mutex) (hout.trans (fflush_eq h.mutex _))
  | leave =>
    have hfile := flush_eq h.mutex
    refine ⟨?_, Nat.le_of_eq hout⟩
    show s.log.output.flush.mutex = false
    rw [hfile]
    exact h.mutex

/-- **One step.**  Only the end of an iteration can break the promise. -/
theorem Buffered.step_durable_iff (h : s.Buffered) (hd : s.Durable)
    (hs : streamLoggingMachine.step s l t) : t.Durable ↔ s.FlushedAlready l := by
  obtain ⟨hlog, hout⟩ := hs
  have hother : l ≠ .recycle → t.Durable → (t.Durable ↔ s.FlushedAlready l) := fun hl ht =>
    iff_of_true ht fun hrecycle => absurd hrecycle hl
  obtain ⟨log, out⟩ := t
  cases hlog with
  | append line memory hm hlen ht =>
    refine hother nofun ?_
    obtain rfl : out = s.out := hout
    obtain ⟨_, _, _, rfl⟩ := AsyncLogging.append_frame h.pool hlen ht
    exact hd
  | start | stop | stopReturn =>
    refine hother nofun ?_
    obtain rfl : out = s.out := hout
    exact hd
  | startThread => exact hother nofun fun _ => hout
  | test | wait | collect | write => exact hother nofun fun hpc => by simp at hpc
  | leave => exact hother nofun fun _ => hout
  | recycle hpc ht =>
    -- `flush` does nothing, so what has left the buffer is what had left it before
    obtain ⟨_, _, rfl⟩ := AsyncLogging.recycle_frame h.pool hpc ht
    obtain rfl : out = s.out := hout.trans (fflush_eq h.mutex _)
    have hfile : s.log.output.flush.bytes.length = s.log.output.bytes.length := by
      rw [flush_eq h.mutex]
    exact ⟨fun ht _ => (ht (.inl rfl)).trans hfile, fun hl _ => (hl rfl).trans hfile.symm⟩

end StreamLogging

/-- **When the log is durable.**  In every run, all bytes handed to the `LogFile` have left the
buffer of the stream at the end of each iteration of `ThreadFunc` and when it returns, if and only
if in every iteration they had done so before `output.flush()` was called. -/
theorem durable_iff {s t : StreamLogging} {tr : List (StreamLogging × LogStep)}
    (h₀ : streamLoggingMachine.init s) (hr : streamLoggingMachine.Run s tr t) :
    Meets (fun u _ => u.Durable) tr ∧ t.Durable ↔ Meets (fun u l => u.FlushedAlready l) tr := by
  have hbuffered : s.Buffered := by
    refine ⟨AsyncLogging.reachable_pool (.of_init h₀.1), ?_, h₀.2 ▸ Nat.zero_le _⟩
    obtain ⟨memory₁, memory₂, hlog⟩ := h₀.1
    rw [hlog]
    rfl
  have hdurable : s.Durable := by
    obtain ⟨memory₁, memory₂, hlog⟩ := h₀.1
    intro hpc
    rw [hlog, h₀.2]
    rfl
  exact hr.holds_iff (I := StreamLogging.Buffered) (D := fun _ _ => True)
    (fun hi _ hs => hi.step hs) (fun hi _ hd hs => hi.step_durable_iff hd hs) (fun _ _ => trivial)
    hbuffered hdurable

/-- The theorem where the library writes out all it is given at once. -/
theorem durable_iff_written : ∃ t : StreamLogging, t.Durable ∧ t.log.pc = .test ∧
    linesOf t.log.written = [[97]] := by
  let memory : Buffer.Memory := ⟨List.replicate kLargeBuffer 0, List.length_replicate⟩
  have hr := Machine.Run.nil (M := streamLoggingMachine) (s := ⟨.new memory memory, 0⟩)
    |>.snoc (StreamLogging.step_intro (.start rfl) rfl)
    |>.snoc (StreamLogging.step_intro (.startThread memory memory rfl rfl) rfl)
    |>.snoc (StreamLogging.step_intro (.test rfl rfl) rfl)
    |>.snoc (StreamLogging.step_intro (.wait rfl rfl) rfl)
    |>.snoc (StreamLogging.step_intro (.append [97] memory trivial (by decide) rfl) rfl)
    |>.snoc (StreamLogging.step_intro (.collect (.inr rfl)) rfl)
    |>.snoc (StreamLogging.step_intro (.write rfl) ⟨Nat.zero_le _, Nat.le_refl _⟩)
    |>.snoc (StreamLogging.step_intro (.recycle rfl rfl) rfl)
  refine ⟨_, ((durable_iff ⟨⟨memory, memory, rfl⟩, rfl⟩ hr).mpr ?_).2, rfl, rfl⟩
  simp only [meets_snoc, meets_nil, true_and, StreamLogging.FlushedAlready, reduceCtorEq,
    false_imp_iff, true_imp_iff]

/-- What is handed over for one buffer is not empty. -/
theorem length_passed (b : Buffer) : b.toFixedBuffer.passed.length = kLargeBuffer := by
  rw [FixedBuffer.passed_eq]
  exact b.toFixedBuffer.length_data

/-- The library keeps a line in the buffer of the stream, and the iteration ends. -/
theorem flush_keeps_line : ∃ (s t : StreamLogging) (tr : List (StreamLogging × LogStep)),
    streamLoggingMachine.init s ∧ streamLoggingMachine.Run s tr t ∧ t.log.pc = .test ∧
    linesOf t.log.written = [[97]] ∧ t.out = 0 ∧ ¬ t.Durable := by
  let memory : Buffer.Memory := ⟨List.replicate kLargeBuffer 0, List.length_replicate⟩
  have hr := Machine.Run.nil (M := streamLoggingMachine) (s := ⟨.new memory memory, 0⟩)
    |>.snoc (StreamLogging.step_intro (.start rfl) rfl)
    |>.snoc (StreamLogging.step_intro (.startThread memory memory rfl rfl) rfl)
    |>.snoc (StreamLogging.step_intro (.test rfl rfl) rfl)
    |>.snoc (StreamLogging.step_intro (.wait rfl rfl) rfl)
    |>.snoc (StreamLogging.step_intro (.append [97] memory trivial (by decide) rfl) rfl)
    |>.snoc (StreamLogging.step_intro (.collect (.inr rfl)) rfl)
    |>.snoc (StreamLogging.step_intro (.write rfl) ⟨Nat.le_refl 0, Nat.zero_le _⟩)
    |>.snoc (StreamLogging.step_intro (.recycle rfl rfl) rfl)
  refine ⟨_, _, _, ⟨⟨memory, memory, rfl⟩, rfl⟩, hr, rfl, rfl, rfl, fun hd => ?_⟩
  have hbytes : 0 = kLargeBuffer := (hd (.inl rfl)).trans (length_passed _)
  exact absurd hbytes (by decide)

end Reactor.Log
