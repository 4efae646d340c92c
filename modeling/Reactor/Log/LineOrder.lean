import Reactor.Log.BufferPool

/-!
# Log — order of the lines

* `Ordered`: the buffers written, being written, full and current hold the lines in the order they
  were appended.
* `lines_kept`: asynchronous logging keeps every line in order.
-/

namespace Reactor.Log
open Reactor.Lib

namespace AsyncLogging

/-- Where the mutex is free no buffer is on its way to the file. -/
theorem toWrite_eq_nil {s : AsyncLogging} (hm : s.MutexFree) : s.toWrite = [] := by
  unfold MutexFree at hm
  unfold toWrite
  cases hpc : s.pc with
  | write left =>
    rw [hpc] at hm
    exact hm.elim
  | _ => rfl

/-- The lines written, those taken for writing, those of the full buffers and those of the current
one are the lines accepted, in order. -/
structure Ordered (s : AsyncLogging) : Prop where
  lines : linesOf s.written ++ linesOf s.toWrite ++ linesOf s.buffers ++
    linesOf [s.currentBuffer] = s.appended
  written : ∀ p ∈ s.written, p ≠ none

/-- A line goes behind the others, and the buffers move towards the file in their order. -/
theorem Step.ordered {s t : AsyncLogging} {l : LogStep} (hp : s.Pool) (h : s.Ordered)
    (hs : Step s l t) : t.Ordered := by
  have hlines := h.lines
  cases hs with
  | append line memory hm hlen ht =>
    rcases append_eq hp hlen memory with ⟨b, b', hb, hb', heq⟩ | ⟨b, b', hb, hb', heq⟩
    · rw [heq] at ht
      cases ht
      refine ⟨?_, h.written⟩
      rw [← hlines]
      simp [toWrite, hb, hb']
    · rw [heq] at ht
      cases ht
      refine ⟨?_, h.written⟩
      rw [← hlines]
      simp [toWrite, hb, hb']
  | start | stop | stopReturn => exact ⟨hlines, h.written⟩
  | startThread memory₁ memory₂ hc hpc | test hpc | leave hpc | wait hpc =>
    exact ⟨by simpa [toWrite, enter, hpc] using hlines, h.written⟩
  | collect hpc =>
    have hnone : s.toWrite = [] := by
      rcases hpc with ⟨hpc, -⟩ | hpc <;> simp [toWrite, hpc]
    obtain ⟨b₁, b₂, spare, he₁, -, -, -, heq⟩ := collect_eq hp hpc
    rw [heq]
    refine ⟨?_, h.written⟩
    rw [hnone] at hlines
    rw [← hlines]
    simp [toWrite, he₁.1]
  | @write buffer left hpc =>
    refine ⟨?_, fun p hmem => ?_⟩
    · simpa [toWrite, writeBuffer, hpc, linesOf_cons] using hlines
    · rcases List.mem_append.mp hmem with hmem | hmem
      · exact h.written p hmem
      · simp_all
  | recycle hpc ht =>
    obtain ⟨_, _, rfl⟩ := recycle_frame hp hpc ht
    exact ⟨by simpa [toWrite, hpc] using hlines, h.written⟩

/-- So the lines are in order in every state. -/
theorem reachable_ordered {s : AsyncLogging} (h : asyncLoggingMachine.Reachable s) :
    s.Ordered := by
  have hall : s.Pool ∧ s.Ordered := by
    refine h.keeps (I := fun s => s.Pool ∧ s.Ordered) ?_ fun ⟨hp, ho⟩ hs =>
      ⟨Step.pool hp hs, Step.ordered hp ho hs⟩
    rintro s ⟨memory₁, memory₂, rfl⟩
    refine ⟨reachable_pool (.of_init ⟨memory₁, memory₂, rfl⟩), ?_, by simp [new]⟩
    simp [new, toWrite, Buffer.newZero]
  exact hall.2

end AsyncLogging

/-- **Asynchronous logging keeps every line in order.**  Whenever the back-end thread does not hold
`_mutex`: the lines in the buffers passed to `output.append`, then those in `_buffers`, then those
in `_currentBuffer`, are the lines appended so far, in order, each once; and what each of these
buffers holds between `_data` and `_cur` is its lines, whole, one after the other. -/
theorem lines_kept {s : AsyncLogging} (h : asyncLoggingMachine.Reachable s) (hm : s.MutexFree) :
    linesOf s.written ++ linesOf s.buffers ++ linesOf [s.currentBuffer] = s.appended ∧
    ∀ p ∈ s.written ++ s.buffers ++ [s.currentBuffer],
      ∃ b, p = some b ∧ b.toFixedBuffer.held = b.lines.flatten := by
  have hp := AsyncLogging.reachable_pool h
  have ho := AsyncLogging.reachable_ordered h
  constructor
  · have hnone : s.toWrite = [] := AsyncLogging.toWrite_eq_nil hm
    simpa [hnone] using ho.lines
  · intro p hmem
    have hne : p ≠ none := by
      rcases List.mem_append.mp hmem with hmem | hmem
      · exact (List.mem_append.mp hmem).elim (ho.written p) (hp.full p)
      · exact List.mem_singleton.mp hmem ▸ hp.current
    obtain ⟨b, rfl⟩ := Option.ne_none_iff_exists'.mp hne
    exact ⟨b, rfl, b.held_eq⟩

/-- The theorem after the back-end thread has taken one of two lines. -/
theorem lines_kept_two : ∃ s, asyncLoggingMachine.Reachable s ∧ s.appended = [[97], [98]] ∧
    linesOf s.written ++ linesOf s.buffers ++ linesOf [s.currentBuffer] = s.appended := by
  let memory : Buffer.Memory := ⟨List.replicate kLargeBuffer 0, List.length_replicate⟩
  have hr := Machine.Run.nil (M := asyncLoggingMachine) (s := .new memory memory)
    |>.snoc (.start rfl)
    |>.snoc (.startThread memory memory rfl rfl)
    |>.snoc (.test rfl rfl)
    |>.snoc (.wait rfl rfl)
    |>.snoc (.append [97] memory trivial (by decide) rfl)
    |>.snoc (.collect (.inr rfl))
    |>.snoc (.write rfl)
    |>.snoc (.recycle rfl rfl)
    |>.snoc (.append [98] memory trivial (by decide) rfl)
  have h : asyncLoggingMachine.Reachable _ := ⟨_, _, ⟨memory, memory, rfl⟩, hr⟩
  exact ⟨_, h, rfl, (lines_kept h trivial).1⟩

end Reactor.Log
