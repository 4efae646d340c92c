import Reactor.Net.BufferQueue

/-!
# Net — buffer size

How large the vector of a `Buffer` gets.  `makeSpace` grows it relative to the write index, and
`retrieve` moves only the read index, so the space in front of the readable bytes may be anything;
but the vector grows only where that space and the writable bytes together are too small, and this
bounds the new size by the readable bytes and twice the length asked for.

* `Buffer.makeSpace_size`: the bound for one call.
* `bufferSize_le`: over every run of bounded calls.
-/

namespace Reactor.Net
open Reactor.Lib

namespace Buffer

/-- **Growing is bounded by the live data.**  The branch condition bounds the read index, and with
it the write index the new size is counted from. -/
theorem makeSpace_size {b : Buffer} (h : b.Valid) (len : Nat) :
    (b.makeSpace len).buffer.length ≤
      max b.buffer.length (kCheapPrepend + b.readableBytes + 2 * len) := by
  have hread := h.read_le
  rw [makeSpace]
  split
  · next hgrow =>
    have hindex : b.readIndex < len + kCheapPrepend :=
      Nat.lt_of_le_of_lt (Nat.le_add_left _ _) hgrow
    have hsize : b.writeIndex + len ≤ kCheapPrepend + b.readableBytes + 2 * len := by
      rw [readableBytes]
      omega
    rw [Memory.length_resize]
    exact Nat.le_trans hsize (Nat.le_max_right _ _)
  · rw [Memory.length_copyForward]
    exact Nat.le_max_left _ _

theorem ensureWritableBytes_eq {b b' : Buffer} {len : Nat}
    (he : b.ensureWritableBytes len = some b') :
    b' = if b.writableBytes < len then b.makeSpace len else b := by
  rw [ensureWritableBytes] at he
  by_cases hspace : len ≤ (if b.writableBytes < len then b.makeSpace len else b).writableBytes
  · exact (Option.some.inj ((if_pos hspace).symm.trans he)).symm
  · cases (if_neg hspace).symm.trans he

/-- A vector that grows is not longer than its content and twice what is appended. -/
theorem ensureWritableBytes_size {b b' : Buffer} (h : b.Valid) {len : Nat}
    (he : b.ensureWritableBytes len = some b') : b'.buffer.length ≤
      max b.buffer.length (kCheapPrepend + b.readableBytes + 2 * len) := by
  rw [ensureWritableBytes_eq he]
  split
  · exact makeSpace_size h len
  · exact Nat.le_max_left _ _

theorem append_size {b b' : Buffer} (h : b.Valid) {data : List Byte}
    (he : b.append data = some b') : b'.buffer.length ≤
      max b.buffer.length (kCheapPrepend + b.readableBytes + 2 * data.length) := by
  obtain ⟨b₁, he₁, rfl⟩ := Option.map_eq_some_iff.mp he
  simpa [hasWritten, fill] using ensureWritableBytes_size h he₁

theorem length_retrieve (b : Buffer) (len : Nat) :
    (b.retrieve len).buffer.length = b.buffer.length := by
  rw [retrieve]
  split <;> rfl

end Buffer

/-! ### One call -/

namespace Call

/-- The space a call asks for, if it asks for any. -/
def space : Call → Option Nat
  | .append data => some data.length
  | .ensureWritableBytes len => some len
  | _ => none

/-- A call that asks for space asks for at most `L` bytes, with at most `M` readable. -/
def Bounded (L M : Nat) (b : Buffer) (c : Call) : Prop :=
  ∀ len ∈ c.space, len ≤ L ∧ b.readableBytes ≤ M

/-- A call that asks for no space leaves the size as it is. -/
theorem exec_size_eq {c : Call} {b b' : Buffer} {out : List Byte} (hc : c.space = none)
    (he : c.exec b = some (out, b')) : b'.buffer.length = b.buffer.length := by
  have hstring : ∀ len, b.retrieveAsString len = some (out, b') →
      b'.buffer.length = b.buffer.length := by
    intro len he
    rw [Buffer.retrieveAsString] at he
    split at he
    · cases he; exact b.length_retrieve len
    · cases he
  cases c with
  | append data => cases hc
  | ensureWritableBytes len => cases hc
  | retrieve len => cases he; exact b.length_retrieve len
  | retrieveAsString len => exact hstring len he
  | retrieveAllAsString => exact hstring _ he
  | rertrieveAll => cases he; rfl
  | retrieveUntil fin =>
    obtain ⟨b₁, he', heq⟩ := Option.map_eq_some_iff.mp he
    cases heq
    rw [Buffer.retrieveUntil] at he'
    split at he'
    · cases he'; exact b.length_retrieve _
    · cases he'
  | hasWritten len => cases he; rfl
  | fill data => cases he; exact Memory.length_store _ _ _

/-- The size after a bounded call. -/
theorem exec_size {c : Call} {b b' : Buffer} {out : List Byte} {L M : Nat} (h : b.Valid)
    (hb : c.Bounded L M b) (he : c.exec b = some (out, b')) :
    b'.buffer.length ≤ max b.buffer.length (kCheapPrepend + M + 2 * L) := by
  have hgrow : ∀ {len}, c.space = some len →
      b'.buffer.length ≤ max b.buffer.length (kCheapPrepend + b.readableBytes + 2 * len) →
      b'.buffer.length ≤ max b.buffer.length (kCheapPrepend + M + 2 * L) := by
    intro len hspace hsize
    obtain ⟨hlen, hread⟩ := hb len hspace
    omega
  cases c with
  | append data =>
    obtain ⟨_, he', heq⟩ := Option.map_eq_some_iff.mp he
    cases heq
    exact hgrow rfl (Buffer.append_size h he')
  | ensureWritableBytes len =>
    obtain ⟨_, he', heq⟩ := Option.map_eq_some_iff.mp he
    cases heq
    exact hgrow rfl (Buffer.ensureWritableBytes_size h he')
  | _ =>
    rw [exec_size_eq rfl he]
    exact Nat.le_max_left _ _

end Call

/-! ### Every run -/

section Runs

variable {ι : Type} [DecidableEq ι] {S L M : Nat}

/-- The steps whose call is bounded, and the swaps. -/
def BufferStep.Bounded (L M : Nat) (s : ι → Buffer) : BufferStep ι → Prop
  | .call i c => c.Bounded L M (s i)
  | .swap _ _ => True

/-- Every buffer is valid, and its vector no larger than `size`. -/
def Sized (size : Nat) (s : ι → Buffer) : Prop :=
  ∀ i, (s i).Valid ∧ (s i).buffer.length ≤ size

/-- A buffer is replaced by one that is not larger. -/
theorem Sized.update {size : Nat} {s : ι → Buffer} (h : Sized size s) {i : ι} {b : Buffer}
    (hv : b.Valid) (hb : b.buffer.length ≤ size) : Sized size (Function.update s i b) := by
  intro j
  by_cases hj : j = i
  · subst hj; simp [hv, hb]
  · simpa [hj] using h j

/-- Every step keeps all buffers within the bound. -/
theorem Sized.step {size : Nat} {s t : ι → Buffer} {l : BufferStep ι} (h : Sized size s)
    (hb : l.Bounded L M s) (hsize : kCheapPrepend + M + 2 * L ≤ size)
    (hs : (bufferMachine ι).step s l t) : Sized size t := by
  cases l with
  | call i c =>
    obtain ⟨hp, out, b', he, rfl⟩ := hs
    obtain ⟨_, _, he', hv, -⟩ := c.exec_refines (h i).1 hp
    cases he.symm.trans he'
    have hle := Call.exec_size (h i).1 hb he
    exact h.update hv (Nat.le_trans hle (Nat.max_le.mpr ⟨(h i).2, hsize⟩))
  | swap i j =>
    obtain rfl : t = _ := hs
    exact (h.update (h j).1 (h j).2).update (h i).1 (h i).2

/-- **Buffer memory is bounded by the live data.**  If every request for space is of at most `L`
bytes, made with at most `M` bytes readable, no vector is ever larger than the initial size or
`kCheapPrepend + M + 2L`, whichever is larger: however long the run is, and however the buffers
are read and written. -/
theorem bufferSize_le {sizes : ι → Nat} {t : ι → Buffer} {tr : List ((ι → Buffer) × BufferStep ι)}
    (hS : ∀ i, sizes i ≤ S) (hr : (bufferMachine ι).Run (fun i => .new (sizes i)) tr t)
    (hb : Meets (fun s l => l.Bounded L M s) tr) (i : ι) :
    (t i).buffer.length ≤ max (kCheapPrepend + S) (kCheapPrepend + M + 2 * L) := by
  have hinit : Sized (max (kCheapPrepend + S) (kCheapPrepend + M + 2 * L))
      fun i => Buffer.new (sizes i) := by
    intro i
    have hnew : (Buffer.new (sizes i)).buffer.length ≤ kCheapPrepend + S := by
      simpa [Buffer.new] using hS i
    exact ⟨Buffer.new_valid _, Nat.le_trans hnew (Nat.le_max_left _ _)⟩
  have hsized := hr.keeps (fun h hb hs => h.step hb (Nat.le_max_right _ _) hs) hb hinit
  exact (hsized i).2

/-- The theorem at a buffer of size 0 that takes two bytes. -/
theorem bufferSize_le_append :
    ((Buffer.new 0).append [1, 2]).elim 0 (·.buffer.length) ≤ 12 := by
  let s : Unit → Buffer := fun _ => .new 0
  let t := Function.update s () ((((Call.append [1, 2]).exec (s ())).get rfl).2)
  have hr : (bufferMachine Unit).Run s [(s, .call () (.append [1, 2]))] t :=
    .one ⟨trivial, _, _, rfl, rfl⟩
  have hb : Meets (fun s l => l.Bounded 2 0 s) [(s, BufferStep.call () (.append [1, 2]))] := by
    rintro p hp
    obtain rfl := List.mem_singleton.mp hp
    rintro len ⟨⟩
    exact ⟨Nat.le_refl _, Nat.le_refl _⟩
  exact bufferSize_le (S := 0) (fun _ => Nat.le_refl _) hr hb ()

end Runs

end Reactor.Net
