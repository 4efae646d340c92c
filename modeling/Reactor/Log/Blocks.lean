import Reactor.Lib.Slots
import Reactor.Log.Durability
import Reactor.Log.LineOrder

/-!
# Log — the blocks of the log file

What the file of `ThreadFunc` holds.  A buffer goes out whole, `kLargeBuffer` bytes whatever it
holds, and a buffer used again is reset, not cleared: behind its lines stands what stood there when
it went out before.

* `Over`, `Based`: what a buffer holds behind its lines.
* `log_file`: the file block by block, over every run.
* `slots_whole`: with records of one size, as `Logger` passes them, every record in the file is
  whole.
-/

namespace Reactor.Log
open Reactor.Lib

namespace Buffer

variable {b : Buffer} {base : List Byte} {buffers : List Buffer} {found : List (List Byte)}

/-- What goes out for the buffer. -/
def data (b : Buffer) : List Byte := b.toFixedBuffer.data

/-- Behind the lines stands what stands there in `base`. -/
def Over (b : Buffer) (base : List Byte) : Prop :=
  b.data = b.lines.flatten ++ base.drop b.lines.flatten.length

/-- What a buffer may have held before its lines: nothing, what `new` found, or what it held when it
went out before. -/
def Based (b : Buffer) (buffers : List Buffer) (found : List (List Byte)) : Prop :=
  ∃ base, (base = List.replicate kLargeBuffer 0 ∨ base ∈ found ∨ base ∈ buffers.map data) ∧
    b.Over base

theorem length_data (b : Buffer) : b.data.length = kLargeBuffer := b.toFixedBuffer.length_data

theorem length_map_data (buffers : List Buffer) :
    ∀ block ∈ buffers.map data, block.length = kLargeBuffer := by
  intro block hmem
  obtain ⟨b, -, rfl⟩ := List.mem_map.mp hmem
  exact b.length_data

theorem length_lines (b : Buffer) : b.lines.flatten.length = b.toFixedBuffer.cur := by
  rw [← b.held_eq, FixedBuffer.length_held]

/-- Appending a line writes over nothing but the free part of the array. -/
theorem Over.append (h : b.Over base) (line : Line) : (b.append line).Over base := by
  have hdata : b.toFixedBuffer.data = b.lines.flatten ++ base.drop b.lines.flatten.length := h
  have hcur := b.length_lines
  have hle := b.toFixedBuffer.cur_le
  have hlen := b.toFixedBuffer.length_data
  by_cases hroom : line.length < b.avail
  · have hstore : (b.append line).data = Memory.store b.data b.lines.flatten.length line := by
      rw [hcur]
      have hfixed : line.length < b.toFixedBuffer.avail := hroom
      simp only [data, Buffer.append, FixedBuffer.append]
      rw [dif_pos hfixed, FixedBuffer.data_copy]
    have hfits : b.lines.flatten.length + line.length ≤ b.data.length := by
      rw [hcur, b.length_data]
      simp only [avail, FixedBuffer.avail] at hroom
      omega
    rw [Over, hstore, lines_append hroom, Memory.store_eq hfits, data, hdata, List.take_left,
      ← List.drop_drop, List.drop_left, List.drop_drop, List.flatten_append, List.flatten_singleton,
      List.length_append]
  · have hsame : b.append line = b := by
      have hfull : ¬ line.length < b.toFixedBuffer.avail := hroom
      simp only [Buffer.append, FixedBuffer.append, hroom, hfull]
      rfl
    rw [hsame]
    exact h

/-- What a buffer is based on does not change by appending. -/
theorem Based.append (h : b.Based buffers found) (line : Line) :
    (b.append line).Based buffers found := by
  obtain ⟨base, hbase, hover⟩ := h
  exact ⟨base, hbase, hover.append line⟩

/-- What has gone out and what was found only grow. -/
theorem Based.mono (h : b.Based buffers found) {buffers' : List Buffer} {found' : List (List Byte)}
    (hb : buffers ⊆ buffers') (hf : found ⊆ found') : b.Based buffers' found' := by
  obtain ⟨base, hbase, hover⟩ := h
  exact ⟨base, hbase.imp_right (Or.imp (fun h => hf h) (fun h => List.map_subset data hb h)), hover⟩

/-- A buffer made in the constructors, and cleared. -/
theorem based_newZero (memory : Memory) : (newZero memory).Based buffers found :=
  ⟨_, .inl rfl, rfl⟩

theorem based_new {memory : Memory} (h : memory.1 ∈ found) : (new memory).Based buffers found :=
  ⟨_, .inr (.inl h), rfl⟩

/-- A buffer that has gone out, used again. -/
theorem based_reset (h : b ∈ buffers) : b.reset.Based buffers found :=
  ⟨b.data, .inr (.inr (List.mem_map_of_mem h)), rfl⟩

end Buffer

/-! ### The machine -/

/-- `AsyncLogging` with its stream, and what the memory held that `append` got from `new`. -/
structure BlockLogging extends StreamLogging where
  found : List (List Byte)

namespace AsyncLogging

/-- What `append` finds in the memory of the buffer it makes, if it makes one. -/
def finds (s : AsyncLogging) (line : Line) (memory : Buffer.Memory) : List (List Byte) :=
  match s.currentBuffer, s.nextBuffer with
  | some current, none => if line.length < current.avail then [] else [memory.1]
  | _, _ => []

/-- The memory an `append` finds for a new buffer is noted; no other step needs any. -/
def Finds (s t : AsyncLogging) (found found' : List (List Byte)) : LogStep → Prop
  | .append line => ∃ memory, s.append line memory = some t ∧ found' = found ++ s.finds line memory
  | _ => found' = found

end AsyncLogging

/-- The log with its streams and with the memory it has found. -/
def blockLoggingMachine : Machine BlockLogging LogStep where
  init s := streamLoggingMachine.init s.toStreamLogging ∧ s.found = []
  step s l t := streamLoggingMachine.step s.toStreamLogging l t.toStreamLogging ∧
    s.log.Finds t.log s.found t.found l

/-- What the file holds. -/
def StreamLogging.file (s : StreamLogging) : List Byte := s.log.output.bytes.take s.out

/-! ### What the buffers hold -/

namespace AsyncLogging

/-- The pointers of the pool. -/
def pointers (s : AsyncLogging) : List BufferPtr :=
  s.currentBuffer :: s.nextBuffer :: s.newBuffer1 :: s.newBuffer2 :: (s.buffers ++ s.buffersToWrite)

/-- The file consists of the arrays of the buffers written, and what is in an array is known of
each. -/
structure Laid (s : AsyncLogging) (buffers : List Buffer) (found : List (List Byte)) : Prop where
  written : s.written = buffers.map some
  bytes : s.output.bytes = (buffers.map Buffer.data).flatten
  based : Each (fun before b => b.Based before found) buffers
  pool : ∀ b, some b ∈ s.pointers → b.Based buffers found
  /-- What need not be written any more has gone out. -/
  done : ∀ b, some b ∈ s.buffersToWrite → some b ∈ s.toWrite ∨ b ∈ buffers
  start : s.pc = .notStarted → buffers = []

variable {s t : AsyncLogging} {buffers : List Buffer} {found : List (List Byte)}

/-- A step that writes nothing, and puts no other buffer into the pool. -/
theorem Laid.frame (h : s.Laid buffers found) (hw : t.written = s.written)
    (hbytes : t.output.bytes = s.output.bytes)
    (hpool : ∀ b, some b ∈ t.pointers → some b ∈ s.pointers)
    (hdone : ∀ b, some b ∈ t.buffersToWrite → some b ∈ t.toWrite ∨ b ∈ buffers)
    (hstart : t.pc = .notStarted → s.pc = .notStarted) : t.Laid buffers found where
  written := hw.trans h.written
  bytes := hbytes.trans h.bytes
  based := h.based
  pool := fun b hb => h.pool b (hpool b hb)
  done := hdone
  start := fun hpc => h.start (hstart hpc)

/-- With the current buffer replaced, and the others of the pool left in it. -/
theorem Laid.append (h : s.Laid buffers found) (hp : s.Pool) {line : Line}
    {memory : Buffer.Memory} (ht : s.append line memory = some t) :
    t.Laid buffers (found ++ s.finds line memory) := by
  have hgrow : ∀ {b : Buffer} {before : List Buffer}, b.Based before found →
      b.Based before (found ++ s.finds line memory) := fun hb =>
    hb.mono (List.Subset.refl _) (List.subset_append_left _ _)
  have hbased : Each (fun before b => b.Based before (found ++ s.finds line memory)) buffers :=
    fun before b after heq => hgrow (h.based before b after heq)
  obtain ⟨b, hb⟩ := Option.ne_none_iff_exists'.mp hp.current
  have hcurrent : b.Based buffers found := h.pool b (by simp [pointers, hb])
  by_cases hroom : line.length < b.avail
  · cases (append_short hb hroom memory).symm.trans ht
    refine ⟨h.written, h.bytes, hbased, fun b' hb' => ?_, h.done, h.start⟩
    rcases List.mem_cons.mp hb' with heq | hb'
    · cases heq
      exact hgrow (hcurrent.append line)
    · exact hgrow (h.pool b' (List.mem_cons_of_mem _ hb'))
  · cases (append_long hb hroom memory).symm.trans ht
    have hnext : (s.nextBuffer.getD (.new memory)).Based buffers
        (found ++ s.finds line memory) := by
      cases hn : s.nextBuffer with
      | none => exact Buffer.based_new (by simp [finds, hb, hn, hroom])
      | some next => exact hgrow (h.pool next (by simp [pointers, hn]))
    refine ⟨h.written, h.bytes, hbased, fun b' hb' => ?_, h.done, h.start⟩
    rcases List.mem_cons.mp hb' with heq | hb'
    · cases heq
      exact hnext.append line
    · refine hgrow (h.pool b' ?_)
      simp only [pointers, List.mem_cons, List.mem_append] at hb' ⊢
      simp only [hb, reduceCtorEq, false_or, List.not_mem_nil, or_false] at hb' ⊢
      tauto

/-- Outside of an iteration there is nothing to write. -/
theorem Pool.none_inHand (hp : s.Pool) (hpc : s.pc = .test ∨ s.pc = .lock) :
    s.buffersToWrite = [] := by
  have hin := hp.inHand
  rcases hpc with hpc | hpc <;>
  · simp only [InHand, hpc] at hin
    exact hin.2.2

/-- Collecting makes no buffer: each comes from where the log had one. -/
theorem collect_pointers {b : Buffer} (h : some b ∈ s.collect.pointers) :
    some b ∈ s.pointers := by
  simp only [pointers, collect, List.mem_cons, List.mem_append] at h ⊢
  cases hn : s.nextBuffer with
  | none =>
    simp only [hn, Option.isNone_none, if_true, reduceCtorEq, false_or] at h
    tauto
  | some next =>
    simp only [hn, Option.isNone_some, Bool.false_eq_true, if_false, reduceCtorEq, false_or] at h
    tauto

/-- A spare that is missing is made of one of the buffers written. -/
theorem refill_mem {spare spare' : BufferPtr} {v v' : List BufferPtr}
    (h : refill spare v = some (spare', v')) :
    (spare' = spare ∨ ∃ b, some b ∈ v ∧ spare' = some b.reset) ∧ v' ⊆ v := by
  cases spare with
  | some b =>
    cases h
    exact ⟨.inl rfl, List.Subset.refl _⟩
  | none =>
    simp only [refill, Option.bind_eq_bind, Option.bind_eq_some_iff, Option.pure_def,
      Option.some.injEq, Prod.mk.injEq] at h
    obtain ⟨_, hback, b, rfl, rfl, rfl⟩ := h
    exact ⟨.inr ⟨b, List.mem_of_getLast? hback, rfl⟩, List.dropLast_subset _⟩

/-- At the end of an iteration the pool is as it was, but for buffers reset. -/
theorem recycle_pointers (h : s.recycle = some t) {b : Buffer} (hb : some b ∈ t.pointers) :
    some b ∈ s.pointers ∨ ∃ b', some b' ∈ s.buffersToWrite ∧ b = b'.reset := by
  rw [recycle, ← resized] at h
  simp only [Option.bind_eq_bind, Option.bind_eq_some_iff, Option.pure_def, Option.some.injEq] at h
  obtain ⟨⟨spare₁, v₁⟩, h₁, ⟨spare₂, v₂⟩, h₂, rfl⟩ := h
  obtain ⟨hspare₁, hv₁⟩ := refill_mem h₁
  obtain ⟨hspare₂, -⟩ := refill_mem h₂
  simp only [pointers, List.mem_cons, List.mem_append, List.append_nil] at hb ⊢
  have hreset : ∀ {spare spare' : BufferPtr} {v : List BufferPtr}, v ⊆ resized s.buffersToWrite →
      (spare' = spare ∨ ∃ b, some b ∈ v ∧ spare' = some b.reset) → some b = spare' →
        some b = spare ∨ ∃ b', some b' ∈ s.buffersToWrite ∧ b = b'.reset := by
    rintro spare spare' v hv (rfl | ⟨b', hb', rfl⟩) heq
    · exact .inl heq
    · exact .inr ⟨b', mem_resized (hv hb'), Option.some.inj heq⟩
  rcases hb with hb | hb | hb | hb | hb
  · exact .inl (.inl hb)
  · exact .inl (.inr (.inl hb))
  · exact (hreset (List.Subset.refl _) hspare₁ hb).imp_left fun hb => .inr (.inr (.inl hb))
  · exact (hreset hv₁ hspare₂ hb).imp_left fun hb => .inr (.inr (.inr (.inl hb)))
  · exact .inl (.inr (.inr (.inr (.inr (.inl hb)))))

theorem flush_bytes (f : LogFile) : f.flush.bytes = f.bytes := by
  rw [LogFile.flush]
  split <;> rfl

/-- Every step keeps the layout; a write puts the array of one buffer more behind the others. -/
theorem Step.laid {l : LogStep} {found' : List (List Byte)} (hp : s.Pool)
    (h : s.Laid buffers found) (hs : Step s l t) (hf : s.Finds t found found' l) :
    ∃ buffers', t.Laid buffers' found' := by
  cases hs with
  | append line memory hm hlen ht =>
    obtain ⟨memory, ht, rfl⟩ := hf
    exact ⟨buffers, h.append hp ht⟩
  | start | stop | stopReturn =>
    cases hf
    exact ⟨buffers, h.frame rfl rfl (fun _ hb => hb) h.done id⟩
  | startThread memory₁ memory₂ hc hpc =>
    cases hf
    obtain rfl := h.start hpc
    refine ⟨[], h.written, rfl, h.based, fun b hb => ?_, by simp [enter], by simp⟩
    simp only [pointers, enter, List.mem_cons, List.append_nil] at hb
    rcases hb with hb | hb | hb | hb | hb
    · exact h.pool b (by simp [pointers, hb])
    · exact h.pool b (by simp [pointers, hb])
    · cases hb
      exact Buffer.based_newZero memory₁
    · cases hb
      exact Buffer.based_newZero memory₂
    · exact h.pool b (by simp [pointers, hb])
  | test hpc | wait hpc =>
    cases hf
    exact ⟨buffers, h.frame rfl rfl (fun _ hb => hb) (by simp [hp.none_inHand, hpc]) (by simp)⟩
  | leave hpc =>
    cases hf
    exact ⟨buffers, h.frame rfl (flush_bytes _) (fun _ hb => hb) (by simp [hp.none_inHand, hpc])
      (by simp)⟩
  | collect hpc =>
    cases hf
    exact ⟨buffers, h.frame rfl rfl (fun _ hb => collect_pointers hb) (fun _ hb => .inl hb)
      (by rintro ⟨⟩)⟩
  | @write buffer left hpc =>
    cases hf
    have hin := hp.inHand
    simp only [InHand, hpc] at hin
    obtain ⟨-, -, -, -, -, hsuf⟩ := hin
    have hbuffer : buffer.Based buffers found := by
      refine h.pool buffer ?_
      have hmem : some buffer ∈ s.buffersToWrite := hsuf.subset List.mem_cons_self
      simp [pointers, hmem]
    have hgrow : ∀ {b : Buffer}, b.Based buffers found → b.Based (buffers ++ [buffer]) found :=
      fun hb => hb.mono (List.subset_append_left _ _) (List.Subset.refl _)
    refine ⟨buffers ++ [buffer], ?_, ?_, h.based.snoc hbuffer, fun b hb => hgrow (h.pool b hb),
      fun b hb => ?_, by simp⟩
    · simp [writeBuffer, h.written]
    · simp only [writeBuffer, LogFile.append, LogFile.append_unlocked, FixedBuffer.passed_eq]
      simp [h.bytes, Buffer.data]
    · rcases h.done b hb with hleft | hout
      · simp only [toWrite, hpc] at hleft
        rcases List.mem_cons.mp hleft with heq | hleft
        · cases heq
          exact .inr (List.mem_append_right _ (List.mem_singleton_self _))
        · exact .inl hleft
      · exact .inr (List.mem_append_left _ hout)
  | recycle hpc ht =>
    cases hf
    have hout : ∀ b, some b ∈ s.buffersToWrite → b ∈ buffers := fun b hb =>
      (h.done b hb).resolve_left (by simp [toWrite, hpc])
    have hpointers := fun b => recycle_pointers (b := b) ht
    obtain ⟨_, _, rfl⟩ := recycle_frame hp hpc ht
    refine ⟨buffers, h.written, (flush_bytes _).trans h.bytes, h.based, fun b hb => ?_, by simp,
      by simp⟩
    rcases hpointers b hb with hb | ⟨b', hb', rfl⟩
    · exact h.pool b hb
    · exact Buffer.based_reset (hout b' hb')

end AsyncLogging

namespace BlockLogging

variable {s t : BlockLogging} {l : LogStep}

/-- All that holds of the log in every state. -/
structure Sound (s : BlockLogging) (buffers : List Buffer) : Prop where
  buffered : s.Buffered
  ordered : s.log.Ordered
  laid : s.log.Laid buffers s.found

theorem sound_init (h : blockLoggingMachine.init s) : s.Sound [] := by
  obtain ⟨⟨⟨memory₁, memory₂, hlog⟩, hout⟩, hfound⟩ := h
  have hr : asyncLoggingMachine.Reachable s.log := .of_init ⟨memory₁, memory₂, hlog⟩
  refine ⟨⟨AsyncLogging.reachable_pool hr, ?_, hout ▸ Nat.zero_le _⟩,
    AsyncLogging.reachable_ordered hr, ?_⟩
  · rw [hlog]
    rfl
  · rw [hlog, hfound]
    refine ⟨rfl, rfl, each_nil _, fun b hb => ?_, by simp [AsyncLogging.new], fun _ => rfl⟩
    simp only [AsyncLogging.pointers, AsyncLogging.new, List.mem_cons, List.append_nil,
      List.not_mem_nil, or_false, reduceCtorEq, Option.some.injEq] at hb
    rcases hb with rfl | rfl
    · exact Buffer.based_newZero memory₁
    · exact Buffer.based_newZero memory₂

/-- The layout and the pool are kept together. -/
theorem Sound.step {buffers : List Buffer} (h : s.Sound buffers)
    (hs : blockLoggingMachine.step s l t) : ∃ buffers', t.Sound buffers' := by
  obtain ⟨buffers', hlaid⟩ := AsyncLogging.Step.laid h.buffered.pool h.laid hs.1.1 hs.2
  exact ⟨buffers', h.buffered.step hs.1, hs.1.1.ordered h.buffered.pool h.ordered, hlaid⟩

/-- So they hold in every state, for some buffers. -/
theorem reachable_sound (h : blockLoggingMachine.Reachable s) : ∃ buffers, s.Sound buffers :=
  h.keeps (I := fun s => ∃ buffers, s.Sound buffers) (fun h₀ => ⟨[], sound_init h₀⟩)
    fun ⟨_, hi⟩ hs => hi.step hs

/-- The lines of what has gone out are the first that were appended. -/
theorem Sound.lines {buffers : List Buffer} (h : s.Sound buffers) :
    buffers.flatMap Buffer.lines <+: s.log.appended := by
  have hlines : linesOf s.log.written = buffers.flatMap Buffer.lines := by
    rw [h.laid.written, linesOf, List.flatMap_map]
  rw [← hlines, ← h.ordered.lines, List.append_assoc, List.append_assoc]
  exact List.prefix_append _ _

/-- No more has gone out than the arrays of the buffers written. -/
theorem Sound.out_le {buffers : List Buffer} (h : s.Sound buffers) :
    s.out ≤ kLargeBuffer * buffers.length := by
  have hlen := length_flatten_eq (Buffer.length_map_data buffers)
  rw [List.length_map] at hlen
  rw [← hlen, ← h.laid.bytes]
  exact h.buffered.out_le

/-- Every line appended is of this size. -/
def Sized (n : Nat) (_ : BlockLogging) (l : LogStep) : Prop :=
  ∀ line, l = .append line → line.length = n

/-- Lines of one size stay lines of one size. -/
theorem Sound.appended {n : Nat} {buffers : List Buffer} (h : s.Sound buffers)
    (hall : ∀ line ∈ s.log.appended, line.length = n) (hl : s.Sized n l)
    (hs : blockLoggingMachine.step s l t) : ∀ line ∈ t.log.appended, line.length = n := by
  have hlog := hs.1.1
  generalize t.log = log at hlog
  cases hlog with
  | append line memory hm hlen ht =>
    obtain ⟨_, _, _, rfl⟩ := AsyncLogging.append_frame h.buffered.pool hlen ht
    intro line' hmem
    rcases List.mem_append.mp hmem with hmem | hmem
    · exact hall line' hmem
    · exact List.mem_singleton.mp hmem ▸ hl line rfl
  | recycle hpc ht =>
    obtain ⟨_, _, rfl⟩ := AsyncLogging.recycle_frame h.buffered.pool hpc ht
    exact hall
  | _ => exact hall

end BlockLogging

theorem BlockLogging.step_intro {s : BlockLogging} {log : AsyncLogging} {out : Nat}
    {found : List (List Byte)} {l : LogStep} (h : AsyncLogging.Step s.log l log)
    (hout : s.Streams log out l) (hfound : s.log.Finds log s.found found l) :
    blockLoggingMachine.step s l ⟨⟨log, out⟩, found⟩ := ⟨⟨h, hout⟩, hfound⟩

/-- A line is appended, goes out, and is written out. -/
theorem BlockLogging.run_line (line : Line) (hlen : line.length < kLargeBuffer) :
    ∃ (s t : BlockLogging) (tr : List (BlockLogging × LogStep)),
      blockLoggingMachine.init s ∧ blockLoggingMachine.Run s tr t ∧
      Meets (Sized line.length) tr ∧ t.log.appended = [line] ∧ t.file.length = kLargeBuffer := by
  let memory : Buffer.Memory := ⟨List.replicate kLargeBuffer 0, List.length_replicate⟩
  let s : BlockLogging := ⟨⟨.new memory memory, 0⟩, []⟩
  let b := Buffer.newZero memory
  have happend : (AsyncLogging.new memory memory).append line memory = some
      { AsyncLogging.new memory memory with
        currentBuffer := some (b.append line), appended := [line] } :=
    AsyncLogging.append_short rfl hlen memory
  have hr := Machine.Run.nil (M := blockLoggingMachine) (s := s)
    |>.snoc (step_intro (.append line memory trivial hlen happend) rfl ⟨memory, happend, rfl⟩)
    |>.snoc (step_intro (.start rfl) rfl rfl)
    |>.snoc (step_intro (.startThread memory memory rfl rfl) rfl rfl)
    |>.snoc (step_intro (.test rfl rfl) rfl rfl)
    |>.snoc (step_intro (.wait rfl rfl) rfl rfl)
    |>.snoc (step_intro (.collect (.inr rfl)) rfl rfl)
    |>.snoc (step_intro (.write rfl) ⟨Nat.zero_le _, Nat.le_refl _⟩ rfl)
  refine ⟨s, _, _, ⟨⟨⟨memory, memory, rfl⟩, rfl⟩, rfl⟩, hr, ?_, rfl, ?_⟩
  · simp only [meets_snoc, meets_nil, Sized, reduceCtorEq, false_imp_iff, implies_true, and_true,
      LogStep.append.injEq, forall_eq']
  · rw [StreamLogging.file, List.take_length]
    exact length_passed _

/-- **The log file, block by block.**  In every reachable state the file holds, as far as stdio has
written them out, the arrays of the buffers that have gone out, `kLargeBuffer` bytes each: the lines
of the buffer, which are the first that were appended, in order, and behind them what an earlier
block holds in that place, or zeros, or what `append` found in the memory of a buffer it made. -/
theorem log_file {s : BlockLogging} (h : blockLoggingMachine.Reachable s) :
    ∃ buffers : List Buffer, s.file = ((buffers.map Buffer.data).flatten).take s.out ∧
      s.out ≤ kLargeBuffer * buffers.length ∧
      Each (fun before b => b.Based before s.found) buffers ∧
      buffers.flatMap Buffer.lines <+: s.log.appended := by
  obtain ⟨buffers, hs⟩ := BlockLogging.reachable_sound h
  exact ⟨buffers, by rw [StreamLogging.file, hs.laid.bytes], hs.out_le, hs.laid.based, hs.lines⟩

/-- The theorem for one line. -/
theorem log_file_one : ∃ (s : BlockLogging) (buffers : List Buffer),
    blockLoggingMachine.Reachable s ∧ s.log.appended = [[97]] ∧ s.file ≠ [] ∧
      s.file = ((buffers.map Buffer.data).flatten).take s.out := by
  obtain ⟨s, t, tr, hinit, hr, -, happended, hlen⟩ := BlockLogging.run_line [97] (by decide)
  obtain ⟨buffers, hfile, -⟩ := log_file ⟨s, tr, hinit, hr⟩
  refine ⟨t, buffers, ⟨s, tr, hinit, hr⟩, happended, fun hnil => ?_, hfile⟩
  rw [hnil] at hlen
  exact absurd hlen (by decide)

/-! ### Records -/

/-- A record of a buffer is one of its lines, or what stands in its place before them. -/
theorem Buffer.Over.slot_eq {b : Buffer} {base : List Byte} {n j : Nat} (h : b.Over base)
    (hlines : ∀ line ∈ b.lines, line.length = n) :
    slot n j b.data ∈ b.lines ∨ slot n j b.data = slot n j base := by
  have hlen := length_flatten_eq hlines
  rw [h]
  rcases Nat.lt_or_ge j b.lines.length with hlt | hge
  · left
    rw [slot_append_left (by rw [hlen]; exact Nat.mul_le_mul_left n hlt), slot_flatten hlines hlt]
    exact List.getElem_mem hlt
  · right
    obtain ⟨i, rfl⟩ := Nat.exists_eq_add_of_le hge
    rw [slot_append_right hlen, hlen, slot_drop]

/-- **Every record in the file is whole.**  If the lines appended are all of one size, of which
`kLargeBuffer` is a multiple, as those of `Logger` are: what the file holds, record by record, is
lines that were appended, or zeros, or what `append` found in that place in a buffer it made; no
record is torn. -/
theorem slots_whole {s t : BlockLogging} {tr : List (BlockLogging × LogStep)} {n m k : Nat}
    (hinit : blockLoggingMachine.init s) (h : blockLoggingMachine.Run s tr t)
    (hsize : Meets (BlockLogging.Sized n) tr) (hnm : n * m = kLargeBuffer)
    (hk : n * (k + 1) ≤ t.file.length) :
    slot n k t.file ∈ t.log.appended ∨ slot n k t.file = List.replicate n 0 ∨
      ∃ memory ∈ t.found, slot n k t.file = slot n (k % m) memory := by
  obtain ⟨⟨buffers, ht⟩, hall⟩ := h.keeps
    (I := fun s => (∃ buffers, s.Sound buffers) ∧ ∀ line ∈ s.log.appended, line.length = n)
    (fun ⟨⟨_, hi⟩, ha⟩ hl hs => ⟨hi.step hs, hi.appended ha hl hs⟩) hsize
    ⟨⟨[], BlockLogging.sound_init hinit⟩, fun line hmem => by
      obtain ⟨⟨⟨_, _, hlog⟩, -⟩, -⟩ := hinit
      rw [hlog] at hmem
      cases hmem⟩
  -- a record of a block, from those of the blocks before it
  have hblock : ∀ b ∈ buffers, ∀ j < m, slot n j b.data ∈ t.log.appended ∨
      slot n j b.data = List.replicate n 0 ∨
        ∃ memory ∈ t.found, slot n j b.data = slot n j memory := by
    have heach : Each (fun before b => b.Based before t.found ∧ b.lines ⊆ t.log.appended)
        buffers := by
      intro before b after heq
      refine ⟨ht.laid.based before b after heq, fun line hmem => ht.lines.subset ?_⟩
      exact List.mem_flatMap.mpr ⟨b, by simp [heq], hmem⟩
    refine heach.all ?_
    rintro before b ⟨⟨base, hbase, hover⟩, hlines⟩ hbefore j hj
    rcases hover.slot_eq (n := n) (j := j) fun line hmem => hall line (hlines hmem) with hmem | heq
    · exact .inl (hlines hmem)
    · rw [heq]
      rcases hbase with rfl | hfound | hdata
      · refine .inr (.inl (slot_replicate ?_))
        rw [← hnm]
        exact Nat.mul_le_mul_left n hj
      · exact .inr (.inr ⟨base, hfound, rfl⟩)
      · obtain ⟨b', hb', rfl⟩ := List.mem_map.mp hdata
        exact hbefore b' hb' j hj
  have hpos : 0 < n * m := hnm ▸ by decide
  have hm : 0 < m := Nat.pos_of_mul_pos_left hpos
  have hout : n * (k + 1) ≤ t.out := hk.trans (List.length_take_le _ _)
  have hlt : k / m < (buffers.map Buffer.data).length := by
    have hle := hout.trans ht.out_le
    rw [← hnm, Nat.mul_assoc] at hle
    rw [List.length_map]
    exact Nat.div_lt_of_lt_mul (Nat.le_of_mul_le_mul_left hle (Nat.pos_of_mul_pos_right hpos))
  have hslot : slot n k t.file = slot n (k % m) (buffers.map Buffer.data)[k / m] := by
    rw [← slot_flatten (Buffer.length_map_data buffers) hlt, ← ht.laid.bytes, ← hnm,
      slot_slot (Nat.mod_lt k hm), Nat.div_add_mod, StreamLogging.file, slot_take hout]
  rw [hslot, List.getElem_map]
  exact hblock _ (List.getElem_mem _) _ (Nat.mod_lt k hm)

/-- The theorem for one record of `Logger`. -/
theorem slots_whole_one : ∃ (t : BlockLogging) (record : Line), t.log.appended = [record] ∧
    record.length = kSmallBuffer ∧ (slot kSmallBuffer 999 t.file ∈ t.log.appended ∨
      slot kSmallBuffer 999 t.file = List.replicate kSmallBuffer 0 ∨
      ∃ memory ∈ t.found,
        slot kSmallBuffer 999 t.file = slot kSmallBuffer (999 % 1000) memory) := by
  have hrecord : (List.replicate kSmallBuffer (97 : Byte)).length = kSmallBuffer :=
    List.length_replicate
  obtain ⟨s, t, tr, hinit, hr, hsized, happended, hlen⟩ :=
    BlockLogging.run_line (List.replicate kSmallBuffer 97) (by rw [hrecord]; decide)
  rw [hrecord] at hsized
  exact ⟨t, _, happended, hrecord, slots_whole hinit hr hsized (by decide) (hlen ▸ by decide)⟩

end Reactor.Log
