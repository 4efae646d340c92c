import Reactor.Lib.AddressSpace
import Reactor.Log.LogStream

/-!
# Log — the stream in memory

`LogStream` with nothing that keeps it in its array.  The memory is that of the whole process, the
cursor is an address in it, and what is written at the cursor goes wherever that is.  `avail()` is
a distance of two pointers as an `int`, which `append` compares as a `size_t`.  The numbers of
`formatIntger` stay in the type of its argument (`Integer.quotient`).

* `Represents.insert`: in bounds, the insertions are those of `LogStream` over its `FixedBuffer`.
* `insert_outside`: they write from the cursor on, and no further than the array goes.
* `integer_exact`: a number is inserted as its canonical numeral.
* `insertions_whole`: after any sequence of insertions, the next is made as a whole or not at all.
-/

namespace Reactor.Log
open Reactor.Lib

/-! ### The arithmetic of a type -/

theorem IntegerType.zero_mem (t : IntegerType) : t.min ≤ 0 ∧ 0 ≤ t.max := by
  cases t <;> decide

/-- `num / 10` does not overflow. -/
def Integer.quotient (v : Integer) : Integer where
  type := v.type
  num := v.num.tdiv 10
  min_le := by
    have hzero := v.type.zero_mem
    have hle := Int.natAbs_tdiv_le_natAbs v.num 10
    have hmin := v.min_le
    rcases Int.le_total 0 v.num with h | h
    · have := Int.tdiv_nonneg h (show (0 : Int) ≤ 10 by decide)
      omega
    · omega
  le_max := by
    have hzero := v.type.zero_mem
    have hle := Int.natAbs_tdiv_le_natAbs v.num 10
    have hmax := v.le_max
    rcases Int.le_total 0 v.num with h | h
    · omega
    · have := Int.tdiv_nonneg (show 0 ≤ -v.num by omega) (show (0 : Int) ≤ 10 by decide)
      rw [Int.neg_tdiv] at this
      omega

@[simp] theorem Integer.quotient_num (v : Integer) : v.quotient.num = v.num.tdiv 10 := rfl

/-- The type a number is formatted in: `short` and `unsigned short` are cast. -/
def IntegerType.promoted : IntegerType → IntegerType
  | .short => .int
  | .unsignedShort => .unsignedInt
  | t => t

theorem IntegerType.promoted_range (t : IntegerType) :
    t.promoted.min ≤ t.min ∧ t.max ≤ t.promoted.max := by
  cases t <;> decide

/-- The value after the integral promotion of its type. -/
def Integer.promoted (v : Integer) : Integer where
  type := v.type.promoted
  num := v.num
  min_le := Int.le_trans v.type.promoted_range.1 v.min_le
  le_max := Int.le_trans v.le_max v.type.promoted_range.2

/-! ### The stream -/

/-- The loop of `formatIntger`: memory, and where `cur` points, after it. -/
def storeDigits (memory : Nat → Byte) (cur : Nat) (num : Integer) : (Nat → Byte) × Nat :=
  let remainder := num.num.tmod 10
  let memory := Function.update memory cur (zero remainder)
  let cur := cur + 1
  if num.quotient.num ≠ 0 then storeDigits memory cur num.quotient else (memory, cur)
termination_by num.num.natAbs
decreasing_by
  rename_i h
  have hnum : num.num ≠ 0 := by
    intro hzero
    exact h (by rw [Integer.quotient_num, hzero, Int.zero_tdiv])
  rw [Integer.quotient_num, Int.natAbs_tdiv]
  exact Nat.div_lt_self (Int.natAbs_pos.mpr hnum) (by decide)

/-- A `LogStream` as the code has it: an address in a memory, and a pointer into it. -/
structure RawStream where
  memory : Nat → Byte
  /-- The address of `_data`. -/
  data : Nat
  /-- `_cur` -/
  cur : Nat

namespace RawStream

/-- The constructor. -/
def new (memory : Nat → Byte) (data : Nat) : RawStream := ⟨memory, data, data⟩

/-- `static_cast<int>(end() - _cur)` -/
def avail (r : RawStream) : Int := ((r.data + kSmallBuffer : Nat) - (r.cur : Int)).bmod (2 ^ 32)

/-- `static_cast<size_t>(n)` of an `int`, which is no less than `-2 ^ 31`. -/
def toSize (n : Int) : Nat := if n < 0 then 2 ^ 64 - min n.natAbs (2 ^ 31) else n.toNat

/-- `append`, with `avail()` compared as a `size_t`. -/
def append (r : RawStream) (buf : List Byte) (len : Nat) : RawStream :=
  if len < toSize r.avail then
    { r with
      memory := AddressSpace.write r.memory r.cur (buf.take len)
      cur := r.cur + len }
  else r

/-- `formatIntger`, byte by byte at `_cur`. -/
def formatIntger (r : RawStream) (num : Integer) : RawStream :=
  if kMaxNumericSize ≤ r.avail then
    let start := r.cur
    let (memory, cur) := storeDigits r.memory start num
    let (memory, cur) :=
      if num.num < 0 then (Function.update memory cur 45, cur + 1) else (memory, cur)
    let memory := Function.update memory cur 0
    { r with
      memory := AddressSpace.reverse memory start (cur - start)
      cur := r.cur + (cur - start) }
  else r

/-- `operator<<(double)`; what `snprintf` returns is the length of the whole text. -/
def formatDouble (r : RawStream) (text : List Byte) : RawStream :=
  if kMaxNumericSize ≤ r.avail then
    { r with
      memory := AddressSpace.write r.memory r.cur (snprintf kMaxNumericSize text ++ [0])
      cur := r.cur + text.length }
  else r

/-- `operator<<` -/
def insert (r : RawStream) : Insertion → RawStream
  | .bool v => r.append (if v then [49] else [48]) 1
  | .integer v => r.formatIntger v.promoted
  | .double text _ => r.formatDouble text
  | .char v => r.append [v] 1
  | .pointer (some memory) => r.append (cString memory) (cString memory).length
  | .pointer none => r.append nullText 6
  | .string str => r.append str str.length
  | .buffer buf => r.append buf.toSting buf.toSting.length
  | .charStream v => r.append v.data (toSize v.len)
  | .append data => r.append data data.length

/-- A chain of insertions. -/
def inserts (r : RawStream) (insertions : List Insertion) : RawStream := insertions.foldl insert r

/-! ### What is written -/

/-- The loop writes the digits from behind, and stops one behind them. -/
theorem storeDigits_eq (memory : Nat → Byte) (cur : Nat) (num : Integer) :
    storeDigits memory cur num =
      (AddressSpace.write memory cur (formatLoop num.num),
        cur + (formatLoop num.num).length) := by
  induction memory, cur, num using storeDigits.induct with
  | case1 memory cur num remainder memory' cur' hne ih =>
    have hquotient : num.num.tdiv 10 ≠ 0 := hne
    rw [storeDigits, formatLoop, if_pos hquotient, if_pos hne, ih, Integer.quotient_num,
      AddressSpace.write, List.length_cons, Nat.add_assoc cur 1, Nat.add_comm 1]
  | case2 memory cur num hnot =>
    have hquotient : ¬ num.num.tdiv 10 ≠ 0 := hnot
    rw [storeDigits, formatLoop, if_neg hquotient, if_neg hnot]
    rfl

/-- The number as it is found, and reversed. -/
theorem formatIntger_found {r : RawStream} (h : kMaxNumericSize ≤ r.avail) (num : Integer) :
    r.formatIntger num = { r with
      memory := AddressSpace.reverse (AddressSpace.write r.memory r.cur (found num.num ++ [0]))
        r.cur (found num.num).length
      cur := r.cur + (found num.num).length } := by
  have hstored : (if num.num < 0 then
      (Function.update (AddressSpace.write r.memory r.cur (formatLoop num.num))
        (r.cur + (formatLoop num.num).length) 45, r.cur + (formatLoop num.num).length + 1)
      else (AddressSpace.write r.memory r.cur (formatLoop num.num),
        r.cur + (formatLoop num.num).length)) =
      (AddressSpace.write r.memory r.cur (found num.num), r.cur + (found num.num).length) := by
    rw [found]
    split
    · rw [AddressSpace.write_concat, List.length_append, List.length_singleton, Nat.add_assoc]
    · rw [List.append_nil]
  rw [formatIntger, if_pos h]
  simp only [storeDigits_eq, hstored]
  rw [Nat.add_sub_cancel_left, AddressSpace.write_concat]

/-- A number is written at the cursor as a whole, with a null after it. -/
theorem formatIntger_eq {r : RawStream} (h : kMaxNumericSize ≤ r.avail) (num : Integer) :
    r.formatIntger num = { r with
      memory := AddressSpace.write r.memory r.cur (signed num.num ++ [0])
      cur := r.cur + (signed num.num).length } := by
  rw [formatIntger_found h, AddressSpace.reverse_write, ← List.length_reverse, reverse_found]

theorem formatDouble_of {r : RawStream} (h : kMaxNumericSize ≤ r.avail) {text : List Byte}
    (htext : text.length < kMaxNumericSize) :
    r.formatDouble text = { r with
      memory := AddressSpace.write r.memory r.cur (text ++ [0]), cur := r.cur + text.length } := by
  rw [formatDouble, if_pos h, snprintf_eq htext]

/-! ### In bounds -/

/-- The cursor is in the array, or at its end. -/
structure InBounds (r : RawStream) : Prop where
  data_le : r.data ≤ r.cur
  cur_le : r.cur ≤ r.data + kSmallBuffer

/-- A length is not changed by the conversion to `size_t`. -/
theorem toSize_natCast (n : Nat) : toSize n = n := by
  rw [toSize, if_neg (Int.not_lt.mpr (Int.natCast_nonneg n)), Int.toNat_natCast]

/-- The casts keep the value. -/
theorem InBounds.avail_eq {r : RawStream} (h : r.InBounds) :
    r.avail = (r.data + kSmallBuffer - r.cur : Nat) := by
  have hsize : kSmallBuffer = 4000 := rfl
  have hdata := h.data_le
  have hcur := h.cur_le
  rw [avail, Int.bmod_eq_of_le (by omega) (by omega)]
  omega

/-- A text for which there is room is written at `_cur`. -/
theorem append_of {r : RawStream} (h : r.InBounds) {buf : List Byte} {len : Nat}
    (hlen : len < r.data + kSmallBuffer - r.cur) :
    r.append buf len = { r with
      memory := AddressSpace.write r.memory r.cur (buf.take len), cur := r.cur + len } := by
  rw [append, h.avail_eq, toSize_natCast, if_pos hlen]

theorem append_of_not {r : RawStream} (h : r.InBounds) {buf : List Byte} {len : Nat}
    (hlen : ¬ len < r.data + kSmallBuffer - r.cur) : r.append buf len = r := by
  rw [append, h.avail_eq, toSize_natCast, if_neg hlen]

/-! ### The stream over its buffer -/

/-- The array and the cursor are those of `b`. -/
structure Represents (r : RawStream) (b : LogStream) : Prop where
  cur_eq : r.cur = r.data + b.cur
  data_eq : AddressSpace.read r.memory r.data kSmallBuffer = b.data

namespace Represents

variable {r : RawStream} {b : LogStream}

theorem new (memory : Nat → Byte) (data : Nat) : Represents (.new memory data)
    (.new (AddressSpace.read memory data kSmallBuffer) AddressSpace.length_read) where
  cur_eq := (Nat.add_zero data).symm
  data_eq := by rw [RawStream.new, FixedBuffer.new]

theorem inBounds (h : Represents r b) : r.InBounds := by
  have hcur := h.cur_eq
  have hle := b.cur_le
  exact ⟨by omega, by omega⟩

theorem room_eq (h : Represents r b) : r.data + kSmallBuffer - r.cur = b.avail := by
  rw [h.cur_eq, FixedBuffer.avail, Nat.add_sub_add_left]

theorem avail_eq (h : Represents r b) : r.avail = b.avail := by
  rw [h.inBounds.avail_eq, h.room_eq]

/-- The bytes between `_data` and `_cur`. -/
theorem held_eq (h : Represents r b) : AddressSpace.read r.memory r.data b.cur = b.held := by
  rw [FixedBuffer.held, ← h.data_eq, AddressSpace.take_read b.cur_le]

/-- A write at the cursor, which is moved past part of it. -/
theorem write (h : Represents r b) (bytes : List Byte) {b' : LogStream} {len : Nat}
    (hdata : b'.data = (b.copy bytes).data) (hcur : b'.cur = b.cur + len) :
    Represents { r with
      memory := AddressSpace.write r.memory r.cur bytes, cur := r.cur + len } b' where
  cur_eq := by rw [hcur, h.cur_eq, Nat.add_assoc]
  data_eq := by
    rw [hdata, FixedBuffer.data_copy, ← h.data_eq, h.cur_eq]
    exact AddressSpace.read_write_block _ _ _ _ _

theorem append (h : Represents r b) {buf : List Byte} {len : Nat} (hlen : len ≤ buf.length) :
    Represents (r.append buf len) (b.append (buf.take len)) := by
  have htake : (buf.take len).length = len := List.length_take_of_le hlen
  by_cases hroom : len < b.avail
  · rw [append_of h.inBounds (h.room_eq ▸ hroom), FixedBuffer.append, dif_pos (htake.symm ▸ hroom)]
    exact h.write _ rfl (congrArg (b.cur + ·) htake)
  · rw [append_of_not h.inBounds (h.room_eq ▸ hroom), FixedBuffer.append,
      dif_neg (htake.symm ▸ hroom)]
    exact h

theorem formatIntger (h : Represents r b) (num : Integer) :
    ∃ b', b.formatIntger num.num = some b' ∧ Represents (r.formatIntger num) b' := by
  by_cases hroom : kMaxNumericSize ≤ b.avail
  · have hnum := num.length_signed_lt
    have hfit : b.cur + (found num.num).length ≤ kSmallBuffer := by
      have hle := b.cur_le
      rw [FixedBuffer.avail] at hroom
      rw [← reverse_found, List.length_reverse] at hnum
      omega
    obtain ⟨b', he, hdata, hcur⟩ := FixedBuffer.formatIntger_eq hnum hroom
    refine ⟨b', he, ?_⟩
    rw [formatIntger_found (by rw [h.avail_eq]; exact Int.ofNat_le.mpr hroom)]
    refine ⟨by rw [hcur, h.cur_eq, Nat.add_assoc], ?_⟩
    change AddressSpace.read (AddressSpace.reverse _ r.cur _) r.data kSmallBuffer = b'.data
    rw [hdata, h.cur_eq, AddressSpace.read_reverse_block hfit, AddressSpace.read_write_block,
      h.data_eq]
    rfl
  · refine ⟨b, if_neg hroom, ?_⟩
    rw [RawStream.formatIntger, if_neg (by rw [h.avail_eq]; exact mt Int.ofNat_le.mp hroom)]
    exact h

theorem formatDouble (h : Represents r b) {text : List Byte}
    (htext : text.length < kMaxNumericSize) :
    ∃ b', b.formatDouble text = some b' ∧ Represents (r.formatDouble text) b' := by
  by_cases hroom : kMaxNumericSize ≤ b.avail
  · obtain ⟨b', he, hdata, hcur⟩ := FixedBuffer.formatDouble_eq htext hroom
    refine ⟨b', he, ?_⟩
    rw [formatDouble_of (by rw [h.avail_eq]; exact Int.ofNat_le.mpr hroom) htext]
    exact h.write _ hdata hcur
  · refine ⟨b, if_neg hroom, ?_⟩
    rw [RawStream.formatDouble, if_neg (by rw [h.avail_eq]; exact mt Int.ofNat_le.mp hroom)]
    exact h

/-- **An insertion does what it does over the buffer.** -/
theorem insert (h : Represents r b) (i : Insertion) :
    ∃ b', b.insert i = some b' ∧ Represents (r.insert i) b' := by
  -- text that is appended as a whole
  have hwhole : ∀ buf : List Byte, Represents (r.append buf buf.length) (b.append buf) :=
    fun buf => by simpa using h.append (Nat.le_refl buf.length)
  cases i with
  | bool v =>
    cases v with
    | false => exact ⟨_, rfl, hwhole [48]⟩
    | true => exact ⟨_, rfl, hwhole [49]⟩
  | integer v => exact h.formatIntger v.promoted
  | double text short => exact h.formatDouble short
  | char v => exact ⟨_, rfl, hwhole [v]⟩
  | pointer str =>
    cases str with
    | none => exact ⟨_, rfl, hwhole nullText⟩
    | some memory => exact ⟨_, rfl, hwhole (cString memory)⟩
  | string str => exact ⟨_, rfl, hwhole str⟩
  | buffer buf => exact ⟨_, rfl, hwhole buf.toSting⟩
  | charStream v =>
    by_cases hneg : v.len < 0
    · refine ⟨b, if_pos hneg, ?_⟩
      have hroom : ¬ toSize v.len < r.data + kSmallBuffer - r.cur := by
        have hsize : kSmallBuffer = 4000 := rfl
        have hdata := h.inBounds.data_le
        rw [toSize, if_pos hneg]
        omega
      rw [RawStream.insert, append_of_not h.inBounds hroom]
      exact h
    · refine ⟨_, if_neg hneg, ?_⟩
      rw [RawStream.insert, toSize, if_neg hneg]
      exact h.append (Int.toNat_le.mpr v.len_le)
  | append data => exact ⟨_, rfl, hwhole data⟩

theorem inserts (h : Represents r b) (is : List Insertion) :
    ∃ b', b.inserts is = some b' ∧ Represents (r.inserts is) b' := by
  induction is generalizing r b with
  | nil => exact ⟨b, rfl, h⟩
  | cons i is ih =>
    obtain ⟨b₁, he₁, h₁⟩ := h.insert i
    obtain ⟨b', he, h'⟩ := ih h₁
    refine ⟨b', ?_, h'⟩
    rw [LogStream.inserts, List.foldlM_cons, he₁]
    exact he

end Represents

/-! ### What is left alone -/

/-- `r'` has all of `r`, and `text` at the cursor. -/
structure Appends (r r' : RawStream) (text : List Byte) : Prop where
  data_eq : r'.data = r.data
  cur_eq : r'.cur = r.cur + text.length
  text_eq : AddressSpace.read r'.memory r.cur text.length = text
  before : ∀ a < r.cur, r'.memory a = r.memory a

/-- The array is where it was, and nothing is written before the cursor or behind the array. -/
structure Outside (r r' : RawStream) : Prop where
  data_eq : r'.data = r.data
  memory : ∀ a, a < r.cur ∨ r.data + kSmallBuffer ≤ a → r'.memory a = r.memory a

theorem Outside.refl (r : RawStream) : r.Outside r := ⟨rfl, fun _ _ => rfl⟩

variable {r : RawStream}

/-- A write that fits changes nothing outside of the array. -/
theorem outside_write {bytes : List Byte} (h : bytes.length ≤ r.data + kSmallBuffer - r.cur)
    (hr : r.InBounds) (cur : Nat) : r.Outside
      { r with memory := AddressSpace.write r.memory r.cur bytes, cur := cur } where
  data_eq := rfl
  memory := by
    have hcur := hr.cur_le
    intro a ha
    exact AddressSpace.write_outside (ha.imp_right fun hle => by omega)

theorem append_outside (h : r.InBounds) (buf : List Byte) (len : Nat) :
    r.Outside (r.append buf len) := by
  by_cases hlen : len < r.data + kSmallBuffer - r.cur
  · rw [append_of h hlen]
    refine outside_write ?_ h _
    rw [List.length_take]
    omega
  · rw [append_of_not h hlen]
    exact .refl r

/-- A number and the null, written where there is room for any number. -/
theorem number_fits (h : r.InBounds) (hroom : kMaxNumericSize ≤ r.avail) {text : List Byte}
    (htext : text.length < kMaxNumericSize) :
    (text ++ [0]).length ≤ r.data + kSmallBuffer - r.cur := by
  rw [h.avail_eq] at hroom
  rw [List.length_append, List.length_singleton]
  omega

theorem formatIntger_outside (h : r.InBounds) (num : Integer) :
    r.Outside (r.formatIntger num) := by
  by_cases hroom : kMaxNumericSize ≤ r.avail
  · rw [formatIntger_eq hroom]
    exact outside_write (number_fits h hroom num.length_signed_lt) h _
  · rw [formatIntger, if_neg hroom]
    exact .refl r

theorem formatDouble_outside (h : r.InBounds) {text : List Byte}
    (htext : text.length < kMaxNumericSize) : r.Outside (r.formatDouble text) := by
  by_cases hroom : kMaxNumericSize ≤ r.avail
  · rw [formatDouble_of hroom htext]
    exact outside_write (number_fits h hroom htext) h _
  · rw [formatDouble, if_neg hroom]
    exact .refl r

/-- No insertion writes outside of the array. -/
theorem insert_outside (h : r.InBounds) (i : Insertion) : r.Outside (r.insert i) := by
  cases i with
  | integer v => exact formatIntger_outside h _
  | double text short => exact formatDouble_outside h short
  | pointer str => cases str <;> exact append_outside h _ _
  | _ => exact append_outside h _ _

/-- **An insertion is made as a whole**, or the cursor stays. -/
theorem Represents.whole {b : LogStream} (h : Represents r b) (i : Insertion) :
    r.Appends (r.insert i) i.text ∨ (r.insert i).cur = r.cur := by
  obtain ⟨b', he, h'⟩ := h.insert i
  obtain ⟨b'', he', hheld⟩ := b.insert_spec i
  obtain rfl : b' = b'' := Option.some.inj (he.symm.trans he')
  have houtside := insert_outside h.inBounds i
  have hlen := congrArg List.length hheld
  rw [FixedBuffer.length_held] at hlen
  split at hheld
  · next haccepted =>
    rw [if_pos haccepted, List.length_append, FixedBuffer.length_held] at hlen
    refine .inl ⟨houtside.data_eq, ?_, ?_, fun a ha => houtside.memory a (.inl ha)⟩
    · rw [h'.cur_eq, hlen, houtside.data_eq, h.cur_eq, Nat.add_assoc]
    · have hread := h'.held_eq
      rw [houtside.data_eq, hlen, hheld] at hread
      rw [h.cur_eq, ← AddressSpace.take_drop_read (Nat.le_refl _), hread,
        List.drop_left' (FixedBuffer.length_held b), List.take_length]
  · next hrefused =>
    rw [if_neg hrefused, FixedBuffer.length_held] at hlen
    exact .inr (by rw [h'.cur_eq, houtside.data_eq, hlen, h.cur_eq])

/-- A sequence of insertions leaves what is not in the array. -/
theorem Represents.inserts_outside {b : LogStream} (h : Represents r b) (is : List Insertion) :
    (r.inserts is).data = r.data ∧
      ∀ a, a < r.data ∨ r.data + kSmallBuffer ≤ a → (r.inserts is).memory a = r.memory a := by
  induction is generalizing r b with
  | nil => exact ⟨rfl, fun _ _ => rfl⟩
  | cons i is ih =>
    obtain ⟨b₁, -, h₁⟩ := h.insert i
    obtain ⟨hdata, hmemory⟩ := insert_outside h.inBounds i
    obtain ⟨hdata', hmemory'⟩ := ih h₁
    refine ⟨hdata'.trans hdata, fun a ha => ?_⟩
    calc (r.inserts (i :: is)).memory a
        = (r.insert i).memory a := hmemory' a (hdata.symm ▸ ha)
      _ = r.memory a := hmemory a (ha.imp_left fun hlt => Nat.lt_of_lt_of_le hlt h.inBounds.data_le)

end RawStream

/-- **Integers are formatted exactly**, whatever the type and the value: with room for
`kMaxNumericSize` bytes, the canonical numeral is appended, from which the value is read back, and
nothing is written but those bytes; without, the stream is as it was. -/
theorem integer_exact (r : RawStream) (v : Integer) :
    if kMaxNumericSize ≤ r.avail then
      (∃ text, Numeral v.num text ∧ r.Appends (r.insert (.integer v)) text) ∧
        ∀ a, ¬ (r.cur ≤ a ∧ a < r.cur + kMaxNumericSize) →
          (r.insert (.integer v)).memory a = r.memory a
    else r.insert (.integer v) = r := by
  split
  · next hroom =>
    have hlen := v.length_signed_lt
    have heq := RawStream.formatIntger_eq hroom v.promoted
    change r.insert (.integer v) = { r with
      memory := AddressSpace.write r.memory r.cur (signed v.num ++ [0])
      cur := r.cur + (signed v.num).length } at heq
    rw [heq]
    refine ⟨⟨signed v.num, numeral_signed v.num, rfl, rfl,
      AddressSpace.read_write_left _ _ _ _, fun a ha => ?_⟩, fun a ha => ?_⟩
    · exact AddressSpace.write_outside (.inl ha)
    · refine AddressSpace.write_outside ?_
      rw [List.length_append, List.length_singleton]
      omega
  · next hroom => exact if_neg hroom

/-- **Insertions are all-or-nothing and stay in bounds.**  After any sequence of insertions into a
new stream, and one more: the cursor is in the array or at its end, no byte outside the array has
been written, the last insertion has appended its whole text or left the cursor where it was, and
the text before it is unaltered. -/
theorem insertions_whole (memory : Nat → Byte) (data : Nat) (is : List Insertion) (i : Insertion) :
    let r := (RawStream.new memory data).inserts is
    let r' := r.insert i
    r'.data = data ∧ data ≤ r'.cur ∧ r'.cur ≤ data + kSmallBuffer ∧
      (∀ a, ¬ (data ≤ a ∧ a < data + kSmallBuffer) → r'.memory a = memory a) ∧
      (r.Appends r' i.text ∨ r'.cur = r.cur) ∧
      ∀ a, data ≤ a → a < r.cur → r'.memory a = r.memory a := by
  intro r r'
  obtain ⟨b, -, h⟩ := (RawStream.Represents.new memory data).inserts is
  obtain ⟨hdata, hmemory⟩ := (RawStream.Represents.new memory data).inserts_outside is
  obtain ⟨b', -, h'⟩ := h.insert i
  obtain ⟨hdata', hmemory'⟩ := RawStream.insert_outside h.inBounds i
  replace hdata : r.data = data := hdata
  have hbounds := h'.inBounds
  have hle : r.data ≤ r.cur := h.inBounds.data_le
  have hsame : r'.data = data := hdata'.trans hdata
  refine ⟨hsame, hsame ▸ hbounds.data_le, hsame ▸ hbounds.cur_le, fun a ha => ?_, h.whole i,
    fun a _ ha => hmemory' a (.inl ha)⟩
  have hout : a < data ∨ data + kSmallBuffer ≤ a := by omega
  have hpast : a < r.cur ∨ r.data + kSmallBuffer ≤ a := by
    rw [hdata]
    exact hout.imp_left fun hlt => Nat.lt_of_lt_of_le hlt (hdata ▸ hle)
  calc r'.memory a = r.memory a := hmemory' a hpast
    _ = memory a := hmemory a hout

end Reactor.Log
