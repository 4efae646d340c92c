import Mathlib.Data.List.Basic
import Reactor.Lib.Lines
import Reactor.Lib.Memory

/-!
# Net — Buffer

`Buffer` as the header writes it: a vector of bytes and two indices into it.  A pointer into the
vector is its distance from `begin()`.  `size_t` arithmetic is ordinary arithmetic on `ℕ`: the
sums the class forms do not overflow on the lengths it is used with.  A call whose assertion
fails has the result `none`.

`Buffer.Valid` is the class invariant, `kCheapPrepend ≤ _readIndex ≤ _writeIndex ≤ size()`;
`Buffer.content` is what the class is for, the bytes between the two indices.  The lemmas below
give, for each member function on a valid buffer, its validity and its content afterwards, and
no later proof looks at an index again.  `ValidBuffer` is the type of valid buffers.
-/

namespace Reactor.Net
open Reactor.Lib

/-- `char`, read as an unsigned byte. -/
abbrev Byte := UInt8

/-- The bytes left free in front of the content. -/
def kCheapPrepend : Nat := 8

/-- The room for content a buffer is constructed with. -/
def kInitialSize : Nat := 1024

/-- `Buffer`: the vector, and the two indices into it. -/
structure Buffer where
  /-- `_buffer` -/
  buffer : List Byte
  /-- `_readIndex` -/
  readIndex : Nat
  /-- `_writeIndex` -/
  writeIndex : Nat
  deriving DecidableEq, Repr

namespace Buffer

/-- The constructor. -/
def new (initialSize : Nat) : Buffer :=
  ⟨List.replicate (kCheapPrepend + initialSize) 0, kCheapPrepend, kCheapPrepend⟩

/-- `readableBytes()` -/
def readableBytes (b : Buffer) : Nat := b.writeIndex - b.readIndex

/-- `writableBytes()` -/
def writableBytes (b : Buffer) : Nat := b.buffer.length - b.writeIndex

/-- `prependableByes()` -/
def prependableByes (b : Buffer) : Nat := b.readIndex

/-- The two buffers after `b.swap(rhs)`. -/
def swap (b rhs : Buffer) : Buffer × Buffer :=
  (⟨rhs.buffer, rhs.readIndex, rhs.writeIndex⟩, ⟨b.buffer, b.readIndex, b.writeIndex⟩)

/-- `peek()`, as an index. -/
def peek (b : Buffer) : Nat := b.readIndex

/-- `beginWrite()`, as an index. -/
def beginWrite (b : Buffer) : Nat := b.writeIndex

/-- `rertrieveAll()`: the content is given up, the indices go back to the front. -/
def rertrieveAll (b : Buffer) : Buffer :=
  { b with readIndex := kCheapPrepend, writeIndex := kCheapPrepend }

/-- `retrieve(len)`: a length beyond the content takes all of it. -/
def retrieve (b : Buffer) (len : Nat) : Buffer :=
  if len ≤ b.readableBytes then { b with readIndex := b.readIndex + len } else b.rertrieveAll

/-- `len` bytes of the vector from the pointer `p` on. -/
def bytesAt (b : Buffer) (p len : Nat) : List Byte := (b.buffer.drop p).take len

/-- `retrieveAsString(len)`, with its assertion. -/
def retrieveAsString (b : Buffer) (len : Nat) : Option (List Byte × Buffer) :=
  if len ≤ b.readableBytes then some (b.bytesAt b.peek len, b.retrieve len) else none

/-- `retrieveAllAsString()` -/
def retrieveAllAsString (b : Buffer) : Option (List Byte × Buffer) :=
  b.retrieveAsString b.readableBytes

/-- `retrieveUntil(end)`, with its assertions. -/
def retrieveUntil (b : Buffer) (fin : Nat) : Option Buffer :=
  if b.peek ≤ fin ∧ fin ≤ b.beginWrite then some (b.retrieve (fin - b.peek)) else none

/-- `kCRLF` -/
def CR : Byte := 13

/-- `\n` -/
def LF : Byte := 10

theorem CR_ne_LF : CR ≠ LF := by decide

/-- Where the first CRLF of the readable bytes is; `none` is the null pointer. -/
def findCRLF (b : Buffer) : Option Nat :=
  (search CR LF (b.bytesAt b.peek b.readableBytes)).map (b.peek + ·)

/-- `hasWritten(len)` -/
def hasWritten (b : Buffer) (len : Nat) : Buffer := { b with writeIndex := b.writeIndex + len }

/-- `makeSpace(len)`: the vector grows, or the content is moved to the front of it. -/
def makeSpace (b : Buffer) (len : Nat) : Buffer :=
  if b.writableBytes + b.prependableByes < len + kCheapPrepend then
    { b with buffer := Memory.resize b.buffer (b.writeIndex + len) 0 }
  else
    let readable := b.readableBytes
    { buffer := Memory.copyForward b.buffer b.readIndex kCheapPrepend (b.writeIndex - b.readIndex)
      readIndex := kCheapPrepend
      writeIndex := kCheapPrepend + readable }

/-- `ensureWritableBytes(len)`, with its assertion. -/
def ensureWritableBytes (b : Buffer) (len : Nat) : Option Buffer :=
  let b' := if b.writableBytes < len then b.makeSpace len else b
  if len ≤ b'.writableBytes then some b' else none

/-- `std::copy(data, data + len, beginWrite())`; also what a client stores through
`beginWrite()`, and `readv` through its first `iovec`, before calling `hasWritten`. -/
def fill (b : Buffer) (data : List Byte) : Buffer :=
  { b with buffer := Memory.store b.buffer b.writeIndex data }

/-- `append(data, len)` -/
def append (b : Buffer) (data : List Byte) : Option Buffer :=
  (b.ensureWritableBytes data.length).map fun b' => (b'.fill data).hasWritten data.length

/-- The size of `extrabuf`. -/
def kExtraSize : Nat := 65536

/-- The total length of the `iovec`s `readFd` passes to `readv`. -/
def readCapacity (b : Buffer) : Nat :=
  if b.writableBytes < kExtraSize then b.writableBytes + kExtraSize else b.writableBytes

/-- `readFd`, where `readv` delivered `data` into the `iovec`s in order. -/
def readFd (b : Buffer) (data : List Byte) : Option Buffer :=
  let writable := b.writableBytes
  if data.length ≤ writable then
    some ((b.fill data).hasWritten data.length)
  else
    { b.fill (data.take writable) with writeIndex := b.buffer.length }.append (data.drop writable)

/-! ### The invariant and the content -/

/-- The invariant: the indices are in order, behind the prepended bytes and within the vector. -/
structure Valid (b : Buffer) : Prop where
  prepend_le : kCheapPrepend ≤ b.readIndex
  read_le : b.readIndex ≤ b.writeIndex
  write_le : b.writeIndex ≤ b.buffer.length

/-- Whether the indices are in order can be computed. -/
instance (b : Buffer) : Decidable b.Valid :=
  decidable_of_iff (kCheapPrepend ≤ b.readIndex ∧ b.readIndex ≤ b.writeIndex ∧
    b.writeIndex ≤ b.buffer.length) ⟨fun h => ⟨h.1, h.2.1, h.2.2⟩, fun h => ⟨h.1, h.2, h.3⟩⟩

/-- The readable bytes. -/
def content (b : Buffer) : List Byte := b.bytesAt b.readIndex b.readableBytes

/-- The content has `readableBytes()` bytes. -/
theorem length_content {b : Buffer} (h : b.Valid) : b.content.length = b.readableBytes := by
  have := h.write_le
  simp only [content, bytesAt, List.length_take, List.length_drop, readableBytes]
  omega

/-- What is read at `peek()` is a front of the content. -/
theorem bytesAt_peek {b : Buffer} {len : Nat} (hl : len ≤ b.readableBytes) :
    b.bytesAt b.peek len = b.content.take len := by
  simp only [content, bytesAt, peek, List.take_take]
  rw [Nat.min_eq_left hl]

theorem new_valid (initialSize : Nat) : (new initialSize).Valid :=
  ⟨Nat.le_refl _, Nat.le_refl _, by simp [new]⟩

theorem new_content (initialSize : Nat) : (new initialSize).content = [] := by
  simp [new, content, bytesAt, readableBytes]

theorem rertrieveAll_valid {b : Buffer} (h : b.Valid) : b.rertrieveAll.Valid :=
  ⟨Nat.le_refl _, Nat.le_refl _,
    Nat.le_trans h.prepend_le (Nat.le_trans h.read_le h.write_le)⟩

theorem rertrieveAll_content (b : Buffer) : b.rertrieveAll.content = [] := by
  simp [rertrieveAll, content, bytesAt, readableBytes]

/-- `retrieve` keeps the indices in order, whatever the length. -/
theorem retrieve_valid {b : Buffer} (h : b.Valid) (len : Nat) : (b.retrieve len).Valid := by
  obtain ⟨h₁, h₂, h₃⟩ := h
  unfold retrieve
  split
  · next hl => exact ⟨by simp; omega, by simp [readableBytes] at hl ⊢; omega, h₃⟩
  · exact rertrieveAll_valid ⟨h₁, h₂, h₃⟩

/-- `retrieve(len)` takes `min(len, readableBytes())` bytes off the front. -/
theorem retrieve_content {b : Buffer} (h : b.Valid) (len : Nat) :
    (b.retrieve len).content = b.content.drop len := by
  unfold retrieve
  split
  · next hl =>
    simp only [content, bytesAt, readableBytes, List.drop_take, List.drop_drop]
    congr 1; omega
  · next hl =>
    rw [rertrieveAll_content, List.drop_eq_nil_of_le]
    rw [length_content h]; omega

theorem retrieveUntil_valid {b b' : Buffer} (h : b.Valid) {fin : Nat}
    (he : b.retrieveUntil fin = some b') : b'.Valid := by
  unfold retrieveUntil at he
  split at he
  · cases he; exact retrieve_valid h _
  · cases he

/-- What the parser does with a line: the pointer `findCRLF` returns, two bytes on, is in the
readable range. -/
theorem retrieveUntil_crlf {b : Buffer} (h : b.Valid) {i : Nat}
    (hi : search CR LF b.content = some i) :
    b.retrieveUntil (b.peek + i + 2) = some (b.retrieve (i + 2)) := by
  have hlen := search_length hi
  rw [length_content h] at hlen
  have hr := h.read_le
  simp only [readableBytes] at hlen
  rw [retrieveUntil, if_pos (by simp only [peek, beginWrite]; omega)]
  congr 2
  omega

/-- `hasWritten` does, up to the room there is. -/
theorem hasWritten_valid {b : Buffer} (h : b.Valid) {len : Nat} (hl : len ≤ b.writableBytes) :
    (b.hasWritten len).Valid := by
  obtain ⟨h₁, h₂, h₃⟩ := h
  simp only [writableBytes] at hl
  exact ⟨h₁, by simp [hasWritten]; omega, by simp [hasWritten]; omega⟩

/-- `hasWritten(len)` makes the next `len` bytes of the writable area readable. -/
theorem hasWritten_content {b : Buffer} (h : b.Valid) (len : Nat) :
    (b.hasWritten len).content = b.content ++ b.bytesAt b.beginWrite len := by
  obtain ⟨h₁, h₂, h₃⟩ := h
  have hsum : b.writeIndex + len - b.readIndex = (b.writeIndex - b.readIndex) + len := by omega
  simp only [content, bytesAt, readableBytes, hasWritten, beginWrite, hsum, List.take_add,
    List.drop_drop]
  rw [Nat.add_sub_cancel' h₂]

/-- The compaction of `makeSpace` copies to a lower address and keeps the content; growing keeps
every byte. -/
theorem makeSpace_spec {b : Buffer} (h : b.Valid) {len : Nat} (hl : b.writableBytes < len) :
    (b.makeSpace len).Valid ∧ (b.makeSpace len).content = b.content ∧
      len ≤ (b.makeSpace len).writableBytes := by
  obtain ⟨h₁, h₂, h₃⟩ := h
  simp only [writableBytes] at hl
  unfold makeSpace
  split
  · -- the buffer grows
    refine ⟨⟨h₁, h₂, by simp⟩, ?_, by simp [writableBytes]⟩
    simp only [content, bytesAt, readableBytes]
    rw [List.take_drop, List.take_drop, Nat.add_sub_cancel' h₂, Memory.take_resize _ h₃ (by omega)]
  · next hsp =>
    -- the readable bytes move to the front
    simp only [writableBytes, prependableByes] at hsp
    have hcopy := Memory.copyForward_eq h₁
      (show b.readIndex + (b.writeIndex - b.readIndex) ≤ b.buffer.length by omega)
    refine ⟨⟨Nat.le_refl _, by simp, ?_⟩, ?_, ?_⟩
    · simp only [readableBytes, Memory.length_copyForward]; omega
    · have hpre : (b.buffer.take kCheapPrepend).length = kCheapPrepend := by simp; omega
      simp only [content, bytesAt, readableBytes, Nat.add_sub_cancel_left]
      rw [hcopy, List.append_assoc, List.drop_append_of_le_length (by omega),
        List.drop_eq_nil_of_le (by omega), List.nil_append, List.take_append_of_le_length,
        List.take_take, Nat.min_self]
      simp only [List.length_take, List.length_drop]; omega
    · simp only [writableBytes, readableBytes, Memory.length_copyForward]; omega

/-- The assertion of `ensureWritableBytes` holds, and the content is unchanged. -/
theorem ensureWritableBytes_spec {b : Buffer} (h : b.Valid) (len : Nat) :
    ∃ b', b.ensureWritableBytes len = some b' ∧ b'.Valid ∧ b'.content = b.content ∧
      len ≤ b'.writableBytes := by
  unfold ensureWritableBytes
  by_cases hl : b.writableBytes < len
  · obtain ⟨hv, hc, hw⟩ := makeSpace_spec h hl
    exact ⟨b.makeSpace len, by simp [hl, hw], hv, hc, hw⟩
  · exact ⟨b, by simp only [hl, if_false]; rw [if_pos (by omega)], h, rfl, by omega⟩

/-- Writing into the vector moves no index. -/
theorem fill_valid {b : Buffer} (h : b.Valid) (data : List Byte) : (b.fill data).Valid :=
  ⟨h.prepend_le, h.read_le, by simpa [fill] using h.write_le⟩

/-- Storing into the writable area is not seen until `hasWritten`, and is what `hasWritten`
then makes readable. -/
theorem fill_spec {b : Buffer} (h : b.Valid) {data : List Byte}
    (hd : data.length ≤ b.writableBytes) :
    (b.fill data).content = b.content ∧
      (b.fill data).bytesAt b.beginWrite data.length = data := by
  obtain ⟨h₁, h₂, h₃⟩ := h
  simp only [writableBytes] at hd
  have hstore := Memory.store_eq (show b.writeIndex + data.length ≤ b.buffer.length by omega)
  have hpre : (b.buffer.take b.writeIndex).length = b.writeIndex := by simp; omega
  constructor
  · simp only [content, bytesAt, readableBytes, fill]
    rw [List.take_drop, List.take_drop, Nat.add_sub_cancel' h₂, hstore, List.append_assoc,
      List.take_append_of_le_length (by omega), List.take_take, Nat.min_self]
  · simp only [bytesAt, beginWrite, fill]
    rw [hstore, List.append_assoc, List.drop_append_of_le_length (by omega),
      List.drop_eq_nil_of_le (by omega), List.nil_append, List.take_left]

/-- `append` succeeds and adds `data` at the back. -/
theorem append_spec {b : Buffer} (h : b.Valid) (data : List Byte) :
    ∃ b', b.append data = some b' ∧ b'.Valid ∧ b'.content = b.content ++ data := by
  obtain ⟨b₁, he, hv, hc, hw⟩ := ensureWritableBytes_spec h data.length
  obtain ⟨hfc, hfb⟩ := fill_spec hv hw
  refine ⟨(b₁.fill data).hasWritten data.length, by simp [append, he],
    hasWritten_valid (fill_valid hv data) ?_, ?_⟩
  · simpa [writableBytes, fill] using hw
  · rw [hasWritten_content (fill_valid hv data), hfc, hc]
    exact congrArg _ hfb

/-- `readFd` adds the delivered bytes at the back, whether or not they fit the writable area. -/
theorem readFd_spec {b : Buffer} (h : b.Valid) (data : List Byte) :
    ∃ b', b.readFd data = some b' ∧ b'.Valid ∧ b'.content = b.content ++ data := by
  unfold readFd
  by_cases hd : data.length ≤ b.writableBytes
  · obtain ⟨hfc, hfb⟩ := fill_spec h hd
    refine ⟨(b.fill data).hasWritten data.length, by simp [hd],
      hasWritten_valid (fill_valid h data) (by simpa [writableBytes, fill] using hd), ?_⟩
    rw [hasWritten_content (fill_valid h data), hfc]
    exact congrArg _ hfb
  · -- the writable area takes what it can, and `append` the rest, from the second buffer
    have hlen : (data.take b.writableBytes).length = b.writableBytes := by simp; omega
    have hfit : (data.take b.writableBytes).length ≤ b.writableBytes := by omega
    obtain ⟨hfc, hfb⟩ := fill_spec h hfit
    have hfv := fill_valid h (data.take b.writableBytes)
    have hfull : { b.fill (data.take b.writableBytes) with writeIndex := b.buffer.length }
        = (b.fill (data.take b.writableBytes)).hasWritten b.writableBytes := by
      have := h.write_le
      simp only [hasWritten, fill, writableBytes, Buffer.mk.injEq, true_and]; omega
    have hv := hasWritten_valid hfv
      (show b.writableBytes ≤ (b.fill (data.take b.writableBytes)).writableBytes by
        simp [writableBytes, fill])
    obtain ⟨b', ha, hv', hc⟩ := append_spec hv (data.drop b.writableBytes)
    refine ⟨b', by simp only [if_neg hd, hfull, ha], hv', ?_⟩
    rw [hc, hasWritten_content hfv, hfc, List.append_assoc]
    have hfb' : (b.fill (data.take b.writableBytes)).bytesAt
        (b.fill (data.take b.writableBytes)).beginWrite b.writableBytes =
        data.take b.writableBytes := by rw [hlen] at hfb; exact hfb
    rw [hfb', List.take_append_drop]

end Buffer

/-! ### Valid buffers -/

/-- A buffer that satisfies the class invariant. -/
abbrev ValidBuffer := { b : Buffer // b.Valid }

namespace ValidBuffer

/-- The constructor. -/
def new (initialSize : Nat) : ValidBuffer := ⟨.new initialSize, Buffer.new_valid _⟩

/-- The readable bytes. -/
def content (b : ValidBuffer) : List Byte := b.1.content

/-- `readableBytes()` -/
def readableBytes (b : ValidBuffer) : Nat := b.1.readableBytes

/-- `append`, which on a valid buffer fails no assertion. -/
def append (b : ValidBuffer) (data : List Byte) : ValidBuffer :=
  ⟨(b.1.append data).get (by obtain ⟨_, he, -⟩ := b.1.append_spec b.2 data; simp [he]), by
    obtain ⟨_, he, hv, -⟩ := b.1.append_spec b.2 data; simpa [he] using hv⟩

/-- `retrieve(len)` -/
def retrieve (b : ValidBuffer) (len : Nat) : ValidBuffer :=
  ⟨b.1.retrieve len, Buffer.retrieve_valid b.2 len⟩

/-- `rertrieveAll()` -/
def rertrieveAll (b : ValidBuffer) : ValidBuffer :=
  ⟨b.1.rertrieveAll, Buffer.rertrieveAll_valid b.2⟩

/-- `readFd`, when `readv` has delivered `data`. -/
def readFd (b : ValidBuffer) (data : List Byte) : ValidBuffer :=
  ⟨(b.1.readFd data).get (by obtain ⟨_, he, -⟩ := b.1.readFd_spec b.2 data; simp [he]), by
    obtain ⟨_, he, hv, -⟩ := b.1.readFd_spec b.2 data; simpa [he] using hv⟩

/-- `findCRLF()` -/
def findCRLF (b : ValidBuffer) : Option Nat := b.1.findCRLF

/-- The bytes from `peek()` to the pointer `p`. -/
def bytesUntil (b : ValidBuffer) (p : Nat) : List Byte := b.1.bytesAt b.1.peek (p - b.1.peek)

/-- `retrieveUntil(end)`, with its assertions. -/
def retrieveUntil (b : ValidBuffer) (fin : Nat) : Option ValidBuffer :=
  match h : b.1.retrieveUntil fin with
  | none => none
  | some b' => some ⟨b', Buffer.retrieveUntil_valid b.2 h⟩

@[simp] theorem content_new (n : Nat) : (new n).content = [] := Buffer.new_content n

@[simp] theorem content_append (b : ValidBuffer) (data : List Byte) :
    (b.append data).content = b.content ++ data := by
  obtain ⟨_, he, -, hc⟩ := b.1.append_spec b.2 data
  simpa [content, append, he] using hc

@[simp] theorem content_retrieve (b : ValidBuffer) (len : Nat) :
    (b.retrieve len).content = b.content.drop len := Buffer.retrieve_content b.2 len

@[simp] theorem content_rertrieveAll (b : ValidBuffer) : b.rertrieveAll.content = [] :=
  Buffer.rertrieveAll_content b.1

@[simp] theorem content_readFd (b : ValidBuffer) (data : List Byte) :
    (b.readFd data).content = b.content ++ data := by
  obtain ⟨_, he, -, hc⟩ := b.1.readFd_spec b.2 data
  simpa [content, readFd, he] using hc

/-- The first line, if there is one. -/
theorem findCRLF_spec (b : ValidBuffer) :
    match search Buffer.CR Buffer.LF b.content with
    | none => b.findCRLF = none
    | some i => ∃ crlf, b.findCRLF = some crlf ∧ b.bytesUntil crlf = b.content.take i ∧
        b.retrieveUntil (crlf + 2) = some (b.retrieve (i + 2)) := by
  have hcontent : b.1.bytesAt b.1.peek b.1.readableBytes = b.content := rfl
  split
  · next h => simp [findCRLF, Buffer.findCRLF, hcontent, h]
  · next i h =>
    have hi := search_length h
    rw [content, Buffer.length_content b.2] at hi
    refine ⟨b.1.peek + i, by simp [findCRLF, Buffer.findCRLF, hcontent, h], ?_, ?_⟩
    · rw [bytesUntil, Nat.add_sub_cancel_left, Buffer.bytesAt_peek (by omega)]
      rfl
    · have hr := Buffer.retrieveUntil_crlf b.2 h
      unfold retrieveUntil
      split
      · next hn => rw [hr] at hn; cases hn
      · next b' hs => rw [hr] at hs; cases hs; rfl

theorem length_content (b : ValidBuffer) : b.content.length = b.readableBytes :=
  Buffer.length_content b.2

@[simp] theorem readableBytes_eq_zero (b : ValidBuffer) :
    b.readableBytes = 0 ↔ b.content = [] := by
  rw [← length_content, List.length_eq_zero_iff]

end ValidBuffer

end Reactor.Net
