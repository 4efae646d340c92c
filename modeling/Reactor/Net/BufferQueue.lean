import Mathlib.Logic.Function.Basic
import Reactor.Lib.Runs
import Reactor.Net.Buffer

/-!
# Net — BufferQueue

`Buffer` refines a first-in first-out queue of bytes, over every run of its member functions on
any number of buffers that may be swapped with each other.

`QueueOp` is the abstract queue: bytes are pushed at the back and popped from the front, a pop of
more than there is taking all.  `Call` is a call of a member function, `Call.exec` what the code
does and returns, `Call.op` the queue operation it stands for.  `hasWritten(n)` pushes the `n`
bytes the writable area holds, so the operation depends on the buffer it is called on.

* `Call.exec_refines`: one call on a valid buffer fails no assertion, keeps the buffer valid, and
  returns and leaves what the queue operation does.
* `runs_refine_queue`: so does every run.
-/

namespace Reactor.Net
open Reactor.Lib

/-- An operation on a queue of bytes. -/
inductive QueueOp where
  | push (data : List Byte)
  | pop (n : Nat)

/-- What a queue operation returns and leaves. -/
def QueueOp.apply : QueueOp → List Byte → List Byte × List Byte
  | .push data, q => ([], q ++ data)
  | .pop n, q => (q.take n, q.drop n)

/-- The calls, with their arguments; `fill` is the client storing bytes through `beginWrite()`. -/
inductive Call where
  | append (data : List Byte)
  | retrieve (len : Nat)
  | retrieveAsString (len : Nat)
  | retrieveAllAsString
  | rertrieveAll
  | retrieveUntil (fin : Nat)
  | ensureWritableBytes (len : Nat)
  | hasWritten (len : Nat)
  | fill (data : List Byte)
  deriving DecidableEq, Repr

namespace Call

/-- What the callers owe: a string no longer than what is readable, an end inside the readable
range, bytes stored and announced only inside the writable area. -/
def Pre : Call → Buffer → Prop
  | .retrieveAsString len, b => len ≤ b.readableBytes
  | .retrieveUntil fin, b => b.peek ≤ fin ∧ fin ≤ b.beginWrite
  | .hasWritten len, b => len ≤ b.writableBytes
  | .fill data, b => data.length ≤ b.writableBytes
  | _, _ => True

/-- Whether the assertions of a call hold can be computed. -/
instance (c : Call) (b : Buffer) : Decidable (c.Pre b) := by
  cases c <;> unfold Pre <;> infer_instance

/-- What the call returns, empty for `void`, and the buffer it leaves; `none` when one of its
assertions fails. -/
def exec : Call → Buffer → Option (List Byte × Buffer)
  | .append data, b => (b.append data).map ([], ·)
  | .retrieve len, b => some ([], b.retrieve len)
  | .retrieveAsString len, b => b.retrieveAsString len
  | .retrieveAllAsString, b => b.retrieveAllAsString
  | .rertrieveAll, b => some ([], b.rertrieveAll)
  | .retrieveUntil fin, b => (b.retrieveUntil fin).map ([], ·)
  | .ensureWritableBytes len, b => (b.ensureWritableBytes len).map ([], ·)
  | .hasWritten len, b => some ([], b.hasWritten len)
  | .fill data, b => some ([], b.fill data)

/-- The queue operation a call on `b` stands for. -/
def op : Call → Buffer → QueueOp
  | .append data, _ => .push data
  | .retrieve len, _ => .pop len
  | .retrieveAsString len, _ => .pop len
  | .retrieveAllAsString, b => .pop b.readableBytes
  | .rertrieveAll, b => .pop b.readableBytes
  | .retrieveUntil fin, b => .pop (fin - b.peek)
  | .ensureWritableBytes _, _ => .push []
  | .hasWritten len, b => .push (b.bytesAt b.beginWrite len)
  | .fill _, _ => .push []

/-- The calls that return the bytes they take off. -/
def Returns : Call → Prop
  | .retrieveAsString _ => True
  | .retrieveAllAsString => True
  | _ => False

/-- **One call refines one queue operation.** -/
theorem exec_refines (c : Call) {b : Buffer} (h : b.Valid) (hp : c.Pre b) :
    ∃ out b', c.exec b = some (out, b') ∧ b'.Valid ∧
      b'.content = ((c.op b).apply b.content).2 ∧
      (c.Returns → out = ((c.op b).apply b.content).1) := by
  have hstring : ∀ len, len ≤ b.readableBytes → ∃ out b',
      b.retrieveAsString len = some (out, b') ∧ b'.Valid ∧ b'.content = b.content.drop len ∧
        out = b.content.take len := fun len hl =>
    ⟨_, _, by rw [Buffer.retrieveAsString, if_pos hl], Buffer.retrieve_valid h len,
      Buffer.retrieve_content h len, Buffer.bytesAt_peek hl⟩
  cases c with
  | append data =>
    obtain ⟨b', he, hv, hc⟩ := Buffer.append_spec h data
    exact ⟨[], b', by simp [exec, he], hv, hc, False.elim⟩
  | retrieve len =>
    exact ⟨_, _, rfl, Buffer.retrieve_valid h len, Buffer.retrieve_content h len, False.elim⟩
  | retrieveAsString len =>
    obtain ⟨out, b', he, hv, hc, ho⟩ := hstring len hp
    exact ⟨out, b', he, hv, hc, fun _ => ho⟩
  | retrieveAllAsString =>
    obtain ⟨out, b', he, hv, hc, ho⟩ := hstring b.readableBytes (Nat.le_refl _)
    exact ⟨out, b', he, hv, hc, fun _ => ho⟩
  | rertrieveAll =>
    refine ⟨_, _, rfl, Buffer.rertrieveAll_valid h, ?_, False.elim⟩
    simp [op, QueueOp.apply, Buffer.rertrieveAll_content, ← Buffer.length_content h]
  | retrieveUntil fin =>
    refine ⟨[], b.retrieve (fin - b.peek), ?_, Buffer.retrieve_valid h _,
      Buffer.retrieve_content h _, False.elim⟩
    simp only [exec, Buffer.retrieveUntil, if_pos (show b.peek ≤ fin ∧ fin ≤ b.beginWrite from hp),
      Option.map_some]
  | ensureWritableBytes len =>
    obtain ⟨b', he, hv, hc, -⟩ := Buffer.ensureWritableBytes_spec h len
    exact ⟨[], b', by simp [exec, he], hv, by simp [hc, op, QueueOp.apply], False.elim⟩
  | hasWritten len =>
    exact ⟨_, _, rfl, Buffer.hasWritten_valid h hp, Buffer.hasWritten_content h len, False.elim⟩
  | fill data =>
    refine ⟨_, _, rfl, Buffer.fill_valid h data, ?_, False.elim⟩
    simp [op, QueueOp.apply, (Buffer.fill_spec h hp).1]

end Call

/-! ### Runs over any number of buffers -/

section Runs

variable {ι : Type} [DecidableEq ι]

/-- A step on a family of buffers: a call on one of them, or a swap of two. -/
inductive BufferStep (ι : Type) where
  | call (i : ι) (c : Call)
  | swap (i j : ι)
  deriving DecidableEq

/-- Buffers of any initial sizes, and what the member functions do to them. -/
def bufferMachine (ι : Type) [DecidableEq ι] : Machine (ι → Buffer) (BufferStep ι) where
  init s := ∃ sizes : ι → Nat, s = fun i => .new (sizes i)
  step s l t := match l with
    | .call i c => c.Pre (s i) ∧
        ∃ out b', c.exec (s i) = some (out, b') ∧ t = Function.update s i b'
    | .swap i j =>
        t = Function.update (Function.update s i ((s i).swap (s j)).1) j ((s i).swap (s j)).2

/-- The abstract queues after one step. -/
def BufferStep.onQueues (s : ι → Buffer) : BufferStep ι → (ι → List Byte) → (ι → List Byte)
  | .call i c, q => Function.update q i ((c.op (s i)).apply (q i)).2
  | .swap i j, q => Function.update (Function.update q i (q j)) j (q i)

/-- The abstract queues after a run: all empty at its start. -/
def queues (tr : List ((ι → Buffer) × BufferStep ι)) : ι → List Byte :=
  tr.foldl (fun q p => p.2.onQueues p.1 q) fun _ => []

@[simp] theorem queues_snoc (tr : List ((ι → Buffer) × BufferStep ι)) (s : ι → Buffer)
    (l : BufferStep ι) : queues (tr ++ [(s, l)]) = l.onQueues s (queues tr) := by
  simp [queues]

/-- The buffers are valid and hold what the queues hold. -/
def Refines (s : ι → Buffer) (q : ι → List Byte) : Prop :=
  ∀ i, (s i).Valid ∧ (s i).content = q i

omit [DecidableEq ι] in
theorem refines_new (sizes : ι → Nat) : Refines (fun i => Buffer.new (sizes i)) fun _ => [] :=
  fun i => ⟨Buffer.new_valid (sizes i), Buffer.new_content (sizes i)⟩

/-- A buffer and its queue change together. -/
theorem Refines.update {s : ι → Buffer} {q : ι → List Byte} (h : Refines s q) {i : ι}
    {b : Buffer} {d : List Byte} (hv : b.Valid) (hc : b.content = d) :
    Refines (Function.update s i b) (Function.update q i d) := by
  intro j
  by_cases hj : j = i
  · subst hj; simp [hv, hc]
  · simpa [hj] using h j

/-- **Each operation of a buffer is that of the queue.** -/
theorem Refines.step {s t : ι → Buffer} {q : ι → List Byte} {l : BufferStep ι} (h : Refines s q)
    (hs : (bufferMachine ι).step s l t) : Refines t (l.onQueues s q) := by
  cases l with
  | call i c =>
    obtain ⟨hp, out, b', he, rfl⟩ := hs
    obtain ⟨out₁, b₁, he₁, hv, hc, -⟩ := c.exec_refines (h i).1 hp
    obtain ⟨-, rfl⟩ : out = out₁ ∧ b' = b₁ := by simpa using he.symm.trans he₁
    exact h.update hv (by rw [hc, (h i).2])
  | swap i j =>
    obtain rfl : t = _ := hs
    exact (h.update (h j).1 (h j).2).update (h i).1 (h i).2

/-- **A `Buffer` is a first-in first-out queue of bytes.**  After every run, every buffer is
valid and holds what its queue holds, and every further call its caller may make fails no
assertion. -/
theorem runs_refine_queue {s t : ι → Buffer} {tr : List ((ι → Buffer) × BufferStep ι)}
    (h₀ : (bufferMachine ι).init s) (h : (bufferMachine ι).Run s tr t) :
    (∀ i, (t i).Valid) ∧ (∀ i, (t i).content = queues tr i) ∧
      ∀ i (c : Call), c.Pre (t i) → ∃ out b', c.exec (t i) = some (out, b') ∧
        (c.Returns → out = ((c.op (t i)).apply (queues tr i)).1) := by
  -- the run carries the refinement; the last part is one more call
  have href : Refines t (queues tr) := by
    induction h with
    | nil => obtain ⟨sizes, rfl⟩ := h₀; exact refines_new sizes
    | snoc _ hs ih => rw [queues_snoc]; exact ih.step hs
  refine ⟨fun i => (href i).1, fun i => (href i).2, fun i c hp => ?_⟩
  obtain ⟨out, b', he, -, -, ho⟩ := c.exec_refines (href i).1 hp
  exact ⟨out, b', he, by rw [← (href i).2]; exact ho⟩

/-- The theorem at one buffer of size 0 that grows, and is read. -/
theorem runs_refine_queue_append :
    ∃ t : Unit → Buffer, (t ()).Valid ∧ (t ()).content = [1, 2] :=
  let s : Unit → Buffer := fun _ => .new 0
  let t := Function.update s () ((((Call.append [1, 2]).exec (s ())).get rfl).2)
  have hr : (bufferMachine Unit).Run s [(s, .call () (.append [1, 2]))] t :=
    .one ⟨trivial, _, _, rfl, rfl⟩
  have h := runs_refine_queue ⟨fun _ => 0, rfl⟩ hr
  ⟨t, h.1 (), h.2.1 ()⟩

end Runs

end Reactor.Net
