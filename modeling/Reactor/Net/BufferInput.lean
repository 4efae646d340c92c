import Reactor.Net.BufferQueue
import Reactor.Net.TcpConnection

/-!
# Net — buffer input

`readFd` down to the `readv` call.  The kernel fills the areas it is given in order: the tail of
the vector, and, if that is shorter than `extrabuf`, the array on the stack.  What landed in the
array goes through `append`, after the write index was moved to the end of the vector, so the
vector may then be compacted or grown.

* `Buffer.readFdVec_eq`: on a result that fits the areas, all this is `Buffer.readFd`.
* `readFd_appends`: from every state the public operations lead to, `readFd` adds exactly the
  delivered bytes, or changes nothing and reports the error.
-/

namespace Reactor.Net
open Reactor.Lib

namespace Buffer

/-- `unwrite(len)` -/
def unwrite (b : Buffer) (len : Nat) : Buffer := { b with writeIndex := b.writeIndex - len }

theorem unwrite_valid {b : Buffer} (h : b.Valid) {len : Nat} (hl : len ≤ b.readableBytes) :
    (b.unwrite len).Valid := by
  obtain ⟨h₁, h₂, h₃⟩ := h
  simp only [readableBytes] at hl
  exact ⟨h₁, by simp [unwrite]; omega, by simp [unwrite]; omega⟩

/-! ### The call -/

/-- The lengths of the areas passed: `vec[0].iov_len`, and `vec[1].iov_len` if `iovcnt` is 2. -/
def iovLens (b : Buffer) : List Nat :=
  let iovcnt := if b.writableBytes < kExtraSize then 2 else 1
  [b.writableBytes, kExtraSize].take iovcnt

/-- The pieces of a sequence that fill areas of the given lengths in order. -/
def scatter {α : Type*} : List Nat → List α → List (List α)
  | [], _ => []
  | len :: lens, as => as.take len :: scatter lens (as.drop len)

/-- What `readFd` leaves: its result, `*savedErrno` (`none` as long as nothing is stored), and the
buffer. -/
structure ReadFdResult where
  n : Int
  savedErrno : Option Errno
  buffer : Buffer
  deriving DecidableEq, Repr

/-- `readFd(fd, savedErrno)`, where `readv` did `r`. -/
def readFdVec (b : Buffer) (savedErrno : Option Errno) : ReadResult → Option ReadFdResult
  | .failed errno => some ⟨-1, some errno, b⟩
  | .data bytes =>
    let writable := b.writableBytes
    let pieces := scatter b.iovLens bytes
    let extrabuf := Memory.store (List.replicate kExtraSize 0) 0 (pieces.getD 1 [])
    let b := b.fill (pieces.getD 0 [])
    let n := bytes.length
    if n ≤ writable then
      some ⟨n, savedErrno, { b with writeIndex := b.writeIndex + n }⟩
    else
      let b := { b with writeIndex := b.buffer.length }
      (b.append (extrabuf.take (n - writable))).map (⟨n, savedErrno, ·⟩)

/-- The kernel delivers at most what the areas hold. -/
def Delivers (b : Buffer) : ReadResult → Prop
  | .data bytes => bytes.length ≤ b.iovLens.sum
  | .failed _ => True

/-- The two parts given to `readv` have room for the bytes that fit. -/
theorem sum_iovLens (b : Buffer) : b.iovLens.sum = b.readCapacity := by
  rw [iovLens, readCapacity]
  split <;> simp

/-- The stack array gives back what the kernel stored in it. -/
theorem take_extrabuf {piece : List Byte} (h : piece.length ≤ kExtraSize) :
    (Memory.store (List.replicate kExtraSize 0) 0 piece).take piece.length = piece := by
  have hfit : 0 + piece.length ≤ (List.replicate kExtraSize (0 : Byte)).length := by simpa using h
  rw [Memory.store_eq hfit]
  simp

/-- **The scattered bytes are rejoined.** -/
theorem readFdVec_eq (b : Buffer) (savedErrno : Option Errno) {bytes : List Byte}
    (h : b.Delivers (.data bytes)) : b.readFdVec savedErrno (.data bytes) =
      (b.readFd bytes).map (⟨bytes.length, savedErrno, ·⟩) := by
  have hcap : bytes.length ≤ b.readCapacity := b.sum_iovLens ▸ h
  by_cases hfit : bytes.length ≤ b.writableBytes
  · -- the tail of the vector takes all
    have hpiece : (scatter b.iovLens bytes).getD 0 [] = bytes := by
      rw [iovLens]
      split <;> simp [scatter, List.take_of_length_le hfit]
    simp only [readFdVec, readFd, hpiece, if_pos hfit, hasWritten, fill, Option.map_some]
  · -- there is a second area, and it takes the rest
    have hsmall : b.writableBytes < kExtraSize := by
      by_contra hlarge
      rw [readCapacity, if_neg hlarge] at hcap
      exact hfit hcap
    have hlen : (bytes.drop b.writableBytes).length = bytes.length - b.writableBytes :=
      List.length_drop
    have hrest : (bytes.drop b.writableBytes).length ≤ kExtraSize := by
      rw [readCapacity, if_pos hsmall] at hcap
      rw [hlen]
      exact Nat.sub_le_iff_le_add'.mpr hcap
    have hpieces : scatter b.iovLens bytes =
        [bytes.take b.writableBytes, bytes.drop b.writableBytes] := by
      simp [iovLens, hsmall, scatter, List.take_of_length_le hrest]
    have hextra := take_extrabuf hrest
    rw [hlen] at hextra
    simp only [readFdVec, readFd, hpieces, if_neg hfit, fill, Memory.length_store]
    simp only [List.getD_cons_zero, List.getD_cons_succ, hextra]

/-- What `readFd` does to a valid buffer. -/
theorem readFdVec_spec {b : Buffer} (h : b.Valid) (savedErrno : Option Errno) {bytes : List Byte}
    (hr : b.Delivers (.data bytes)) :
    ∃ b', b.readFdVec savedErrno (.data bytes) = some ⟨bytes.length, savedErrno, b'⟩ ∧
      b'.Valid ∧ b'.content = b.content ++ bytes := by
  obtain ⟨b', he, hv, hc⟩ := readFd_spec h bytes
  exact ⟨b', by rw [readFdVec_eq b savedErrno hr, he, Option.map_some], hv, hc⟩

end Buffer

/-! ### The public operations -/

section Public

variable {ι : Type} [DecidableEq ι]

/-- A public operation on a family of buffers. -/
inductive PublicStep (ι : Type) where
  | member (l : BufferStep ι)
  | unwrite (i : ι) (len : Nat)
  | readFd (i : ι) (savedErrno : Option Errno) (r : ReadResult)

/-- The steps of `bufferMachine`, `unwrite` of bytes that are readable, and `readFd`. -/
def publicMachine (ι : Type) [DecidableEq ι] : Machine (ι → Buffer) (PublicStep ι) where
  init := (bufferMachine ι).init
  step s l t := match l with
    | .member l => (bufferMachine ι).step s l t
    | .unwrite i len => len ≤ (s i).readableBytes ∧ t = Function.update s i ((s i).unwrite len)
    | .readFd i savedErrno r => (s i).Delivers r ∧
        ∃ out, (s i).readFdVec savedErrno r = some out ∧ t = Function.update s i out.buffer

/-- Every buffer of the family is valid. -/
def AllValid (s : ι → Buffer) : Prop := ∀ i, (s i).Valid

/-- One of the buffers is replaced by a valid one. -/
theorem AllValid.update {s : ι → Buffer} (h : AllValid s) {i : ι} {b : Buffer} (hb : b.Valid) :
    AllValid (Function.update s i b) := by
  intro j
  by_cases hj : j = i
  · subst hj; simpa using hb
  · simpa [hj] using h j

/-- No call of the public functions puts the indices out of order. -/
theorem AllValid.step {s t : ι → Buffer} {l : PublicStep ι} (h : AllValid s)
    (hs : (publicMachine ι).step s l t) : AllValid t := by
  cases l with
  | member l =>
    have href : Refines s fun i => (s i).content := fun i => ⟨h i, rfl⟩
    exact fun i => (href.step hs i).1
  | unwrite i len =>
    obtain ⟨hlen, rfl⟩ := hs
    exact h.update (Buffer.unwrite_valid (h i) hlen)
  | readFd i savedErrno r =>
    obtain ⟨hr, out, he, rfl⟩ := hs
    cases r with
    | failed errno =>
      obtain rfl : _ = out := Option.some.inj he
      exact h.update (h i)
    | data bytes =>
      obtain ⟨b', he', hv, -⟩ := Buffer.readFdVec_spec (h i) savedErrno hr
      obtain rfl : _ = out := Option.some.inj (he'.symm.trans he)
      exact h.update hv

/-- So every buffer is valid in every state. -/
theorem allValid_of_reachable {s : ι → Buffer} (h : (publicMachine ι).Reachable s) :
    AllValid s := by
  refine h.keeps ?_ AllValid.step
  rintro _ ⟨sizes, rfl⟩
  exact fun i => Buffer.new_valid (sizes i)

/-- **`readFd` appends what the kernel delivered.**  In every state the public operations lead to,
and for every result of `readv` that fits the areas passed: delivered bytes are added behind the
readable ones, in order, whichever areas they landed in, and the index invariant holds; on an error
the buffer is unchanged, and the error is saved. -/
theorem readFd_appends {s : ι → Buffer} (h : (publicMachine ι).Reachable s) (i : ι)
    (savedErrno : Option Errno) {r : ReadResult} (hr : (s i).Delivers r) :
    match r with
    | .data bytes => ∃ b', (s i).readFdVec savedErrno r = some ⟨bytes.length, savedErrno, b'⟩ ∧
        b'.Valid ∧ b'.content = (s i).content ++ bytes
    | .failed errno => (s i).readFdVec savedErrno r = some ⟨-1, some errno, s i⟩ := by
  cases r with
  | data bytes => exact Buffer.readFdVec_spec (allValid_of_reachable h i) savedErrno hr
  | failed errno => rfl

/-- The theorem where four bytes fit and two spill into the stack array. -/
theorem readFd_appends_spill :
    ∃ b', (Buffer.new 4).readFdVec none (.data [1, 2, 3, 4, 5, 6]) = some ⟨6, none, b'⟩ ∧
      b'.Valid ∧ b'.content = [1, 2, 3, 4, 5, 6] := by
  have hreach : (publicMachine Unit).Reachable fun _ => .new 4 := .of_init ⟨fun _ => 4, rfl⟩
  have hfits : (Buffer.new 4).Delivers (.data [1, 2, 3, 4, 5, 6]) := by
    show 6 ≤ (Buffer.new 4).iovLens.sum
    rw [Buffer.sum_iovLens]
    decide
  obtain ⟨b', he, hv, hc⟩ := readFd_appends hreach () none hfits
  exact ⟨b', he, hv, hc.trans (by rw [Buffer.new_content, List.nil_append])⟩

end Public

end Reactor.Net
