import Reactor.Log.AsyncLogging

/-!
# Log — the buffer pool

The buffers go round between the current buffer, the next one, the full ones, those being written
and the two spares.

* `Pool`: the invariant of the round.  A pointer is null only where the code expects it, a spare
  is empty, and `_nextBuffer` is missing only when there is a full buffer to replace it.
* `append_eq`, `collect_eq`, `recycle_eq`: so `append` and an iteration find what they need.
* `append_frame`, `recycle_frame`: what they write.
* `reachable_pool`: it holds in every reachable state.
* `pool_never_dry`: what follows for the pointers, with lines of any length.
-/

namespace Reactor.Log
open Reactor.Lib

namespace AsyncLogging

/-- What the back-end thread has in hand. -/
def InHand (s : AsyncLogging) : Prop :=
  match s.pc with
  | .notStarted | .returned => True
  | .test | .lock | .wait =>
    (∃ b, s.newBuffer1 = some b ∧ b.Empty) ∧ (∃ b, s.newBuffer2 = some b ∧ b.Empty) ∧
      s.buffersToWrite = []
  | .write left =>
    s.newBuffer1 = none ∧ (∀ b, s.newBuffer2 = some b → b.Empty) ∧
      (s.newBuffer2 = none → 2 ≤ s.buffersToWrite.length) ∧ s.buffersToWrite ≠ [] ∧
      (∀ p ∈ s.buffersToWrite, p ≠ none) ∧ left <:+ s.buffersToWrite

/-- No pointer to a buffer is null where it will be used, and a spare buffer is empty. -/
structure Pool (s : AsyncLogging) : Prop where
  current : s.currentBuffer ≠ none
  full : ∀ p ∈ s.buffers, p ≠ none
  next : ∀ b, s.nextBuffer = some b → b.Empty
  next_none : s.nextBuffer = none → s.buffers ≠ []
  inHand : s.InHand

/-! ### What the functions find -/

/-- A line the current buffer has room for. -/
theorem append_short {s : AsyncLogging} {b : Buffer} (hb : s.currentBuffer = some b) {line : Line}
    (h : line.length < b.avail) (memory : Buffer.Memory) :
    s.append line memory = some { s with
      currentBuffer := some (b.append line)
      appended := s.appended ++ [line] } := by
  simp [append, hb, h]

/-- A line the current buffer has no room for. -/
theorem append_long {s : AsyncLogging} {b : Buffer} (hb : s.currentBuffer = some b) {line : Line}
    (h : ¬ line.length < b.avail) (memory : Buffer.Memory) :
    s.append line memory = some { s with
      buffers := s.buffers ++ [some b]
      currentBuffer := some ((s.nextBuffer.getD (.new memory)).append line)
      nextBuffer := none
      appended := s.appended ++ [line] } := by
  simp [append, hb, h]

/-- `append` takes the line into the current buffer, or into an empty one after it. -/
theorem append_eq {s : AsyncLogging} (hp : s.Pool) {line : Line} (hlen : line.length < kLargeBuffer)
    (memory : Buffer.Memory) :
    (∃ b b', s.currentBuffer = some b ∧ b'.lines = b.lines ++ [line] ∧
      s.append line memory =
        some { s with currentBuffer := some b', appended := s.appended ++ [line] }) ∨
    (∃ b b', s.currentBuffer = some b ∧ b'.lines = [line] ∧
      s.append line memory =
        some { s with
          buffers := s.buffers ++ [some b], currentBuffer := some b', nextBuffer := none,
          appended := s.appended ++ [line] }) := by
  obtain ⟨b, hb⟩ := Option.ne_none_iff_exists'.mp hp.current
  by_cases hroom : line.length < b.avail
  · exact .inl ⟨b, _, hb, Buffer.lines_append hroom, append_short hb hroom memory⟩
  · have hempty : (s.nextBuffer.getD (.new memory)).Empty := by
      cases hn : s.nextBuffer with
      | none => exact Buffer.empty_new memory
      | some next => exact hp.next next hn
    exact .inr ⟨b, _, hb, hempty.lines_append hlen, append_long hb hroom memory⟩

/-- An iteration hands over an empty buffer for the current one, and one for the next if that is
gone; then there are two buffers to write. -/
theorem collect_eq {s : AsyncLogging} (hp : s.Pool)
    (hpc : s.pc = .lock ∧ s.buffers ≠ [] ∨ s.pc = .wait) :
    ∃ b₁ b₂ spare, b₁.Empty ∧ b₂.Empty ∧ (∀ b, spare = some b → b.Empty) ∧
      (spare = none → s.buffers ≠ []) ∧
      s.collect = { s with
        currentBuffer := some b₁, nextBuffer := some b₂, buffers := [],
        buffersToWrite := s.buffers ++ [s.currentBuffer], newBuffer1 := none,
        newBuffer2 := spare, pc := .write (s.buffers ++ [s.currentBuffer]) } := by
  have hin : (∃ b, s.newBuffer1 = some b ∧ b.Empty) ∧ (∃ b, s.newBuffer2 = some b ∧ b.Empty) ∧
      s.buffersToWrite = [] := by
    have hin := hp.inHand
    rcases hpc with ⟨hpc, -⟩ | hpc <;> simpa only [InHand, hpc] using hin
  obtain ⟨⟨b₁, h₁, he₁⟩, ⟨b₂, h₂, he₂⟩, hw⟩ := hin
  cases hn : s.nextBuffer with
  | none =>
    exact ⟨b₁, b₂, none, he₁, he₂, nofun, fun _ => hp.next_none hn,
      by simp [collect, h₁, h₂, hw, hn]⟩
  | some next =>
    refine ⟨b₁, next, some b₂, he₁, hp.next next hn, fun b hb => ?_, nofun,
      by simp [collect, h₁, h₂, hw, hn]⟩
    cases hb
    exact he₂

/-- `buffersToWrite.resize(2)`, if there are more. -/
def resized (v : List BufferPtr) : List BufferPtr := if 2 < v.length then v.take 2 else v

/-- `back()` is not called, or there is a last element, and it is not null. -/
def Backs (spare : BufferPtr) (v : List BufferPtr) : Prop :=
  spare = none → ∃ b, v.getLast? = some (some b)

theorem length_resized (v : List BufferPtr) : (resized v).length = min 2 v.length := by
  rw [resized]
  split
  · rw [List.length_take]
  · omega

theorem mem_resized {v : List BufferPtr} {p : BufferPtr} (h : p ∈ resized v) : p ∈ v := by
  rw [resized] at h
  split at h
  · exact List.mem_of_mem_take h
  · exact h

/-- A spare buffer or a written one is there to be the next. -/
theorem backs_of_ne_nil {spare : BufferPtr} {v : List BufferPtr} (hv : spare = none → v ≠ [])
    (hall : ∀ p ∈ v, p ≠ none) : Backs spare v := by
  intro hs
  obtain ⟨b, hb⟩ := Option.ne_none_iff_exists'.mp (hall _ (List.getLast_mem (hv hs)))
  exact ⟨b, by rw [List.getLast?_eq_some_getLast (hv hs), hb]⟩

/-- After `resize(2)` there are still as many buffers as are needed. -/
theorem Pool.backs {s : AsyncLogging} (hp : s.Pool) (hpc : s.pc = .write []) :
    Backs s.newBuffer1 (resized s.buffersToWrite) ∧
      Backs s.newBuffer2 (resized s.buffersToWrite).dropLast := by
  have hin := hp.inHand
  simp only [InHand, hpc] at hin
  obtain ⟨-, -, htwo, hne, hall, -⟩ := hin
  have hlen := length_resized s.buffersToWrite
  have hpos := List.length_pos_iff.mpr hne
  refine ⟨backs_of_ne_nil (fun _ => List.length_pos_iff.mp (by omega))
    fun p hmem => hall p (mem_resized hmem), backs_of_ne_nil (fun hn => ?_)
    fun p hmem => hall p (mem_resized (List.mem_of_mem_dropLast hmem))⟩
  have htwo := htwo hn
  apply List.length_pos_iff.mp
  rw [List.length_dropLast]
  omega

/-- `refill` finds an empty buffer, one that has been written if there is no spare. -/
theorem refill_eq {spare : BufferPtr} {v : List BufferPtr} (hs : ∀ b, spare = some b → b.Empty)
    (hv : Backs spare v) :
    ∃ b, b.Empty ∧ refill spare v = some (some b, if spare.isNone then v.dropLast else v) := by
  cases spare with
  | some b => exact ⟨b, hs b rfl, rfl⟩
  | none =>
    obtain ⟨b, hb⟩ := hv rfl
    exact ⟨b.reset, b.empty_reset, by simp [refill, hb]⟩

/-- The end of an iteration finds two buffers to keep, when it needs them. -/
theorem recycle_eq {s : AsyncLogging} (hp : s.Pool) (hpc : s.pc = .write []) :
    ∃ b₁ b₂, b₁.Empty ∧ b₂.Empty ∧
      s.recycle = some { s with
        newBuffer1 := some b₁, newBuffer2 := some b₂, buffersToWrite := [],
        output := s.output.flush, pc := .test } := by
  have hin := hp.inHand
  simp only [InHand, hpc] at hin
  obtain ⟨h₁, hempty, -⟩ := hin
  obtain ⟨hback₁, hback₂⟩ := hp.backs hpc
  obtain ⟨b₁, he₁, hr₁⟩ := refill_eq (by simp [h₁]) hback₁
  obtain ⟨b₂, he₂, hr₂⟩ := refill_eq hempty hback₂
  refine ⟨b₁, b₂, he₁, he₂, ?_⟩
  simp only [h₁, Option.isNone_none, if_true] at hr₁
  rw [recycle, ← resized]
  simp [h₁, hr₁, hr₂]

/-- What `append` writes. -/
theorem append_frame {s t : AsyncLogging} (hp : s.Pool) {line : Line} {memory : Buffer.Memory}
    (hlen : line.length < kLargeBuffer) (ht : s.append line memory = some t) :
    ∃ buffers currentBuffer nextBuffer,
      t = { s with buffers, currentBuffer, nextBuffer, appended := s.appended ++ [line] } := by
  rcases append_eq hp hlen memory with ⟨_, _, -, -, heq⟩ | ⟨_, _, -, -, heq⟩ <;>
    exact ⟨_, _, _, Option.some.inj (ht.symm.trans heq)⟩

/-- What the end of an iteration writes. -/
theorem recycle_frame {s t : AsyncLogging} (hp : s.Pool) (hpc : s.pc = .write [])
    (ht : s.recycle = some t) : ∃ newBuffer1 newBuffer2,
      t = { s with
        newBuffer1, newBuffer2, buffersToWrite := [], output := s.output.flush, pc := .test } := by
  obtain ⟨_, _, -, -, heq⟩ := recycle_eq hp hpc
  exact ⟨_, _, Option.some.inj (ht.symm.trans heq)⟩

/-! ### The invariant -/

/-- `append` keeps the round, for lines of any length. -/
theorem Pool.append {s t : AsyncLogging} (hp : s.Pool) {line : Line} {memory : Buffer.Memory}
    (ht : s.append line memory = some t) : t.Pool := by
  obtain ⟨b, hb⟩ := Option.ne_none_iff_exists'.mp hp.current
  by_cases hroom : line.length < b.avail
  · cases (append_short hb hroom memory).symm.trans ht
    exact ⟨by simp, hp.full, hp.next, hp.next_none, hp.inHand⟩
  · cases (append_long hb hroom memory).symm.trans ht
    refine ⟨by simp, fun p hmem => ?_, by simp, by simp, hp.inHand⟩
    rcases List.mem_append.mp hmem with hmem | hmem
    · exact hp.full p hmem
    · simp_all

/-- Every step keeps the invariant; it is `ThreadFunc` that gives buffers back. -/
theorem Step.pool {s t : AsyncLogging} {l : LogStep} (hp : s.Pool) (hs : Step s l t) : t.Pool := by
  cases hs with
  | append line memory hm hlen ht => exact hp.append ht
  | start | stop | stopReturn => exact ⟨hp.current, hp.full, hp.next, hp.next_none, hp.inHand⟩
  | startThread memory₁ memory₂ =>
    exact ⟨hp.current, hp.full, hp.next, hp.next_none,
      ⟨_, rfl, Buffer.empty_newZero _⟩, ⟨_, rfl, Buffer.empty_newZero _⟩, rfl⟩
  | test hpc | wait hpc =>
    have hin := hp.inHand
    simp only [InHand, hpc] at hin
    exact ⟨hp.current, hp.full, hp.next, hp.next_none, hin⟩
  | leave => exact ⟨hp.current, hp.full, hp.next, hp.next_none, trivial⟩
  | collect hpc =>
    obtain ⟨b₁, b₂, spare, he₁, he₂, hspare, hfull, heq⟩ := collect_eq hp hpc
    rw [heq]
    refine ⟨by simp, by simp, fun b hb => ?_, by simp, rfl, hspare, fun hnone => ?_, by simp,
      fun p hmem => ?_, List.suffix_refl _⟩
    · cases hb
      exact he₂
    · have := List.length_pos_iff.mpr (hfull hnone)
      simp only [List.length_append, List.length_singleton]
      omega
    · rcases List.mem_append.mp hmem with hmem | hmem
      · exact hp.full p hmem
      · exact List.mem_singleton.mp hmem ▸ hp.current
  | write hpc =>
    have hin := hp.inHand
    simp only [InHand, hpc] at hin
    obtain ⟨h₁, hempty, htwo, hne, hall, hsuf⟩ := hin
    exact ⟨hp.current, hp.full, hp.next, hp.next_none, h₁, hempty, htwo, hne, hall,
      (List.suffix_cons _ _).trans hsuf⟩
  | recycle hpc ht =>
    obtain ⟨b₁, b₂, he₁, he₂, heq⟩ := recycle_eq hp hpc
    rw [heq] at ht
    cases ht
    exact ⟨hp.current, hp.full, hp.next, hp.next_none, ⟨b₁, rfl, he₁⟩, ⟨b₂, rfl, he₂⟩, rfl⟩

theorem init_pool {s : AsyncLogging} (h₀ : asyncLoggingMachine.init s) : s.Pool := by
  obtain ⟨memory₁, memory₂, rfl⟩ := h₀
  refine ⟨by simp [new], by simp [new], fun b hb => ?_, by simp [new], trivial⟩
  cases hb
  exact Buffer.empty_newZero memory₂

/-- So it holds in every state of a log. -/
theorem reachable_pool {s : AsyncLogging} (h : asyncLoggingMachine.Reachable s) : s.Pool := by
  exact h.keeps (I := Pool) (fun h₀ => init_pool h₀) fun hp hs => Step.pool hp hs

/-! ### Every call -/

/-- `append(logline, len)`; as a `size_t`, a negative length is more than any buffer has room for,
though as an `int` it is less than `avail()`. -/
def appendLen (s : AsyncLogging) (logline : List Byte) (len : Int) (memory : Buffer.Memory) :
    Option AsyncLogging :=
  if len < 0 then s.currentBuffer.map fun _ => s
  else s.append (logline.take len.toNat) memory

/-- `append` with the length of the line is the `append` of the machine. -/
theorem appendLen_length (s : AsyncLogging) (logline : List Byte) (memory : Buffer.Memory) :
    s.appendLen logline logline.length memory = s.append logline memory := by
  rw [appendLen, if_neg (Int.not_lt.mpr (Int.natCast_nonneg _)), Int.toNat_natCast,
    List.take_length]

/-- A line of any length keeps the invariant, too long or not. -/
theorem Pool.appendLen {s t : AsyncLogging} (hp : s.Pool) {logline : List Byte} {len : Int}
    {memory : Buffer.Memory} (ht : s.appendLen logline len memory = some t) : t.Pool := by
  rw [AsyncLogging.appendLen] at ht
  split at ht
  · obtain ⟨b, -, rfl⟩ := Option.map_eq_some_iff.mp ht
    exact hp
  · exact hp.append ht

/-- The back-end thread is between two iterations, or at the start of one. -/
def AtIteration (s : AsyncLogging) : Prop := s.pc = .test ∨ s.pc = .lock ∨ s.pc = .wait

/-- There is a buffer wherever one is expected. -/
structure NeverDry (s : AsyncLogging) : Prop where
  /-- At the start of a critical section. -/
  current : s.MutexFree → s.currentBuffer ≠ none
  /-- At the start of an iteration. -/
  spares : s.AtIteration →
    (∃ b, s.newBuffer1 = some b ∧ b.Empty) ∧ ∃ b, s.newBuffer2 = some b ∧ b.Empty
  next : ∀ b, s.nextBuffer = some b → b.Empty
  /-- At the two calls of `back()`, the first of which takes an element out. -/
  back : s.pc = .write [] →
    Backs s.newBuffer1 (resized s.buffersToWrite) ∧
      Backs s.newBuffer2 (if s.newBuffer1.isNone then (resized s.buffersToWrite).dropLast
        else resized s.buffersToWrite)

/-- What the invariant means for the places where a pointer is used. -/
theorem Pool.neverDry {s : AsyncLogging} (hp : s.Pool) : s.NeverDry where
  current := fun _ => hp.current
  spares := by
    have hin := hp.inHand
    rintro (hpc | hpc | hpc) <;>
    · simp only [InHand, hpc] at hin
      exact ⟨hin.1, hin.2.1⟩
  next := hp.next
  back := by
    intro hpc
    have hin := hp.inHand
    simp only [InHand, hpc] at hin
    rw [if_pos (by rw [hin.1]; rfl)]
    exact hp.backs hpc

end AsyncLogging

/-- A call of `append` with any length, or another step. -/
inductive PoolStep where
  | append (logline : List Byte) (len : Int)
  | step (l : LogStep)

/-- A step, or an `append` of any length. -/
inductive AsyncLogging.AnyStep : AsyncLogging → PoolStep → AsyncLogging → Prop where
  | append {s t} (logline : List Byte) (len : Int) (memory : Buffer.Memory) (hm : s.MutexFree)
      (ht : s.appendLen logline len memory = some t) : AnyStep s (.append logline len) t
  | step {s t} {l : LogStep} (h : Step s l t) : AnyStep s (.step l) t

/-- The log whose callers append lines of any length. -/
def poolMachine : Machine AsyncLogging PoolStep where
  init := asyncLoggingMachine.init
  step := AsyncLogging.AnyStep

/-- **The buffer pool never runs dry**: in every state that calls of `append` and iterations of
`ThreadFunc` lead to, in whatever order. -/
theorem pool_never_dry {s : AsyncLogging} (h : poolMachine.Reachable s) : s.NeverDry := by
  have hp : s.Pool := by
    refine h.keeps (I := AsyncLogging.Pool) ?_ ?_
    · exact fun h₀ => AsyncLogging.init_pool h₀
    · intro s l t hp hs
      cases hs with
      | append logline len memory hm ht => exact hp.appendLen ht
      | step h => exact h.pool hp
  exact hp.neverDry

/-- The theorem at the end of the first iteration, after a line longer than a buffer: both calls of
`back()` are made. -/
theorem pool_never_dry_longLine : ∃ s : AsyncLogging, s.pc = .write [] ∧
    s.newBuffer1 = none ∧ s.newBuffer2 = none ∧ s.NeverDry := by
  let memory : Buffer.Memory := ⟨List.replicate kLargeBuffer 0, List.length_replicate⟩
  obtain ⟨line, hline⟩ : ∃ line : List Byte, line.length = kLargeBuffer :=
    ⟨List.replicate kLargeBuffer 97, List.length_replicate⟩
  have hlong : ¬ line.length < (Buffer.newZero memory).avail := hline ▸ Nat.lt_irrefl _
  have hr := Machine.Run.nil (M := poolMachine) (s := .new memory memory)
    |>.snoc (.step (.start rfl))
    |>.snoc (.append line line.length memory trivial
      ((AsyncLogging.appendLen_length _ _ _).trans (AsyncLogging.append_long rfl hlong memory)))
    |>.snoc (.step (.startThread memory memory rfl rfl))
    |>.snoc (.step (.test rfl rfl))
    |>.snoc (.step (.collect (.inl ⟨rfl, List.cons_ne_nil _ _⟩)))
    |>.snoc (.step (.write rfl))
    |>.snoc (.step (.write rfl))
  exact ⟨_, rfl, rfl, rfl, pool_never_dry ⟨_, _, ⟨memory, memory, rfl⟩, hr⟩⟩

end Reactor.Log
