import Mathlib.Algebra.Group.Int.Defs
import Reactor.Lib.Format
import Reactor.Log.FixedBuffer

/-!
# Log — LogStream

`LogStream` over its `FixedBuffer<kSmallBuffer>`, and what one insertion does to it.  Text goes
through `append`, which refuses what does not leave a byte of room; a number is written at the
cursor, if there is room for `kMaxNumericSize` bytes.

A value is inserted with its text where the library makes it: `%.12g` of a `double` is a parameter,
shorter than `kMaxNumericSize`.

* `formatLoop_eq`: the digits of `formatIntger`, in the order it finds them.
* `insert_spec`: each insertion adds the text of its value, or nothing.
* `inserts_spec`: so does a sequence of them, and the buffer is never full.
-/

namespace Reactor.Log
open Reactor.Lib

/-- The room `formatIntger` asks for. -/
def kMaxNumericSize : Nat := 48

/-! ### Values -/

/-- The integer types `operator<<` is overloaded for. -/
inductive IntegerType where
  | short
  | unsignedShort
  | int
  | unsignedInt
  | long
  | unsignedLong
  | longLong
  | unsignedLongLong
  deriving DecidableEq, Repr

namespace IntegerType

/-- The width of the type. -/
def bits : IntegerType → Nat
  | .short | .unsignedShort => 16
  | .int | .unsignedInt => 32
  | .long | .unsignedLong | .longLong | .unsignedLongLong => 64

/-- The type has negative values. -/
def isSigned : IntegerType → Bool
  | .short | .int | .long | .longLong => true
  | .unsignedShort | .unsignedInt | .unsignedLong | .unsignedLongLong => false

/-- The least value of the type. -/
def min (t : IntegerType) : Int := if t.isSigned then -2 ^ (t.bits - 1) else 0

/-- The greatest value of the type. -/
def max (t : IntegerType) : Int := if t.isSigned then 2 ^ (t.bits - 1) - 1 else 2 ^ t.bits - 1

end IntegerType

/-- A value of an integer type. -/
structure Integer where
  type : IntegerType
  num : Int
  min_le : type.min ≤ num
  le_max : num ≤ type.max

/-- `charStream`: `len` bytes at `data`, if `len` is not negative. -/
structure CharStream where
  data : List Byte
  len : Int
  len_le : len ≤ data.length

/-- What is inserted into a stream. -/
inductive Insertion where
  | bool (v : Bool)
  | integer (v : Integer)
  /-- A `float` or a `double`, with its text. -/
  | double (text : List Byte) (short : text.length < kMaxNumericSize)
  | char (v : Byte)
  /-- A `const char*`, also by way of another pointer type, with the memory it points to. -/
  | pointer (str : Option (List Byte))
  | string (str : List Byte)
  | buffer (buf : FixedBuffer kSmallBuffer)
  | charStream (v : CharStream)
  /-- `LogStream::append(data, len)` -/
  | append (data : List Byte)

/-! ### The operators -/

/-- `digits`, of which `zero` is the middle. -/
def digits : List Byte :=
  [57, 56, 55, 54, 53, 52, 51, 50, 49, 48, 49, 50, 51, 52, 53, 54, 55, 56, 57]

/-- `zero[remainder]` -/
def zero (remainder : Int) : Byte := digits.getD (9 + remainder).toNat 0

/-- The bytes the loop of `formatIntger` stores; division is rounded towards 0. -/
def formatLoop (num : Int) : List Byte :=
  let remainder := num.tmod 10
  let quotient := num.tdiv 10
  zero remainder :: if quotient ≠ 0 then formatLoop quotient else []
termination_by num.natAbs
decreasing_by
  rename_i h
  have hnum : num ≠ 0 := by
    rintro rfl
    exact h rfl
  rw [Int.natAbs_tdiv]
  exact Nat.div_lt_self (Int.natAbs_pos.mpr hnum) (by decide)

namespace FixedBuffer

variable {SIZE : Nat}

/-- `std::reverse(current(), current() + len)` -/
def reverse (b : FixedBuffer SIZE) (len : Nat) : FixedBuffer SIZE :=
  { b with
    data := b.data.take b.cur ++ ((b.data.drop b.cur).take len).reverse ++ b.data.drop (b.cur + len)
    length_data := by
      have hlen := b.length_data
      have hcur := b.cur_le
      simp only [List.length_append, List.length_reverse, List.length_take, List.length_drop]
      omega }

/-- `formatIntger`: the digits from behind, the sign and a null, then the text is reversed and
added. -/
def formatIntger (b : FixedBuffer SIZE) (num : Int) : Option (FixedBuffer SIZE) :=
  if kMaxNumericSize ≤ b.avail then do
    let text := formatLoop num ++ if num < 0 then [45] else []
    let b ← b.write (text ++ [0])
    (b.reverse text.length).add text.length
  else some b

/-- `operator<<(double)`, where `snprintf` makes this text of the value. -/
def formatDouble (b : FixedBuffer SIZE) (text : List Byte) : Option (FixedBuffer SIZE) :=
  if kMaxNumericSize ≤ b.avail then do
    let text := snprintf kMaxNumericSize text
    let b ← b.write (text ++ [0])
    b.add text.length
  else some b

end FixedBuffer

/-- A literal of the source. -/
def literal (cs : List Char) : List Byte := cs.map fun c => c.toNat.toUInt8

/-- What is inserted for a null pointer. -/
def nullText : List Byte := literal ['(', 'n', 'u', 'l', 'l', ')']

/-- `strlen` bytes of the memory at a pointer. -/
def cString (memory : List Byte) : List Byte := memory.takeWhile (· ≠ 0)

/-- `LogStream`, which is its buffer. -/
abbrev LogStream := FixedBuffer kSmallBuffer

namespace LogStream

/-- `operator<<`; `none` is a write outside the buffer, or a cursor outside it. -/
def insert (b : LogStream) : Insertion → Option LogStream
  | .bool v => some (b.append (if v then [49] else [48]))
  | .integer v => b.formatIntger v.num
  | .double text _ => b.formatDouble text
  | .char v => some (b.append [v])
  | .pointer (some memory) => some (b.append (cString memory))
  | .pointer none => some (b.append nullText)
  | .string str => some (b.append str)
  | .buffer buf => some (b.append buf.toSting)
  -- as a `size_t`, a negative length is more than any buffer has room for
  | .charStream v => if v.len < 0 then some b else some (b.append (v.data.take v.len.toNat))
  | .append data => some (b.append data)

/-- One insertion after the other. -/
def inserts (b : LogStream) (insertions : List Insertion) : Option LogStream :=
  insertions.foldlM insert b

end LogStream

/-! ### The digits -/

/-- The table is read at the digit, for negative remainders too. -/
theorem zero_eq : ∀ r : Nat, r < 10 → zero (r : Int) = (48 + r).toUInt8 ∧
    zero (-(r : Int)) = (48 + r).toUInt8 := by
  decide

/-- The digit the table gives for a remainder, negative or not. -/
theorem zero_tmod (num : Int) : zero (num.tmod 10) = (48 + num.natAbs % 10).toUInt8 := by
  obtain ⟨hpos, hneg⟩ := zero_eq (num.natAbs % 10) (Nat.mod_lt _ (by decide))
  have habs : (num.tmod 10).natAbs = num.natAbs % 10 := Int.natAbs_tmod num 10
  rcases Int.natAbs_eq (num.tmod 10) with h | h
  · rw [h, habs]
    exact hpos
  · rw [h, habs]
    exact hneg

/-- **The digits of a number, the last first**, for negative numbers as for positive ones. -/
theorem formatLoop_eq (num : Int) : formatLoop num = (decimal num.natAbs).reverse := by
  induction num using formatLoop.induct with
  | case1 num quotient ih =>
    have habs : quotient.natAbs = num.natAbs / 10 := Int.natAbs_tdiv num 10
    have hzero : quotient = 0 ↔ num.natAbs < 10 := by
      rw [← Int.natAbs_eq_zero, habs, Nat.div_eq_zero_iff]
      simp
    rw [formatLoop, zero_tmod, decimal_eq, List.reverse_append, List.reverse_singleton,
      List.singleton_append]
    by_cases hsmall : num.natAbs < 10
    · rw [if_pos hsmall, if_neg (not_not.mpr (hzero.mpr hsmall)), List.reverse_nil]
    · have hne : quotient ≠ 0 := fun h => hsmall (hzero.mp h)
      rw [if_neg hsmall, if_pos hne, ih hne, habs]

/-- What `formatIntger` stores: the digits as it finds them, and the sign. -/
def found (num : Int) : List Byte := formatLoop num ++ if num < 0 then [45] else []

theorem reverse_found (num : Int) : (found num).reverse = signed num := by
  rw [found, formatLoop_eq, signed]
  split <;> simp

/-! ### What an insertion adds -/

namespace FixedBuffer

variable {SIZE : Nat}

theorem write_eq {b : FixedBuffer SIZE} {bytes : List Byte} (h : bytes.length ≤ b.avail) :
    b.write bytes = some (b.copy bytes) := if_pos h

/-- `add` within the array. -/
theorem add_eq {b : FixedBuffer SIZE} {len : Nat} (h : len ≤ b.avail) :
    ∃ b', b.add len = some b' ∧ b'.data = b.data ∧ b'.cur = b.cur + len :=
  ⟨_, dif_pos h, rfl, rfl⟩

/-- Bytes stored at the cursor, and reversed there. -/
theorem take_reverse_copy {b : FixedBuffer SIZE} {bytes : List Byte} (h : bytes.length ≤ b.avail)
    {n : Nat} (hn : n ≤ bytes.length) :
    ((b.copy bytes).reverse n).data.take (b.cur + n) = b.held ++ (bytes.take n).reverse := by
  have hfront := b.take_copy h (Nat.zero_le _)
  have hall := b.take_copy h hn
  rw [Nat.add_zero, List.take_zero, List.append_nil] at hfront
  rw [List.take_add, hfront, List.append_cancel_left_eq] at hall
  change (((b.copy bytes).data.take b.cur ++ (((b.copy bytes).data.drop b.cur).take n).reverse) ++
    (b.copy bytes).data.drop (b.cur + n)).take (b.cur + n) = _
  rw [hfront, hall]
  apply List.take_left'
  rw [List.length_append, length_held, List.length_reverse, List.length_take, Nat.min_eq_left hn]

/-- With room for any number, digits and sign are written as they are found, and reversed. -/
theorem formatIntger_eq {b : FixedBuffer SIZE} {num : Int}
    (hnum : (signed num).length < kMaxNumericSize) (hroom : kMaxNumericSize ≤ b.avail) :
    ∃ b', b.formatIntger num = some b' ∧
      b'.data = ((b.copy (found num ++ [0])).reverse (found num).length).data ∧
        b'.cur = b.cur + (found num).length := by
  have hlen : (found num).length < kMaxNumericSize := by
    rwa [← List.length_reverse, reverse_found]
  have hfit : (found num ++ [0]).length ≤ b.avail := by
    rw [List.length_append, List.length_singleton]
    exact Nat.le_trans hlen hroom
  obtain ⟨b', hadd, hdata, hcur⟩ :=
    add_eq (b := (b.copy (found num ++ [0])).reverse (found num).length)
      (Nat.le_trans (Nat.le_of_lt hlen) hroom)
  refine ⟨b', ?_, hdata, hcur⟩
  rw [formatIntger, if_pos hroom, ← found]
  simp only [write_eq hfit]
  exact hadd

/-- A number is written out as a whole, if there is room for any number. -/
theorem formatIntger_spec (b : FixedBuffer SIZE) {num : Int}
    (hnum : (signed num).length < kMaxNumericSize) :
    ∃ b', b.formatIntger num = some b' ∧
      b'.held = if kMaxNumericSize ≤ b.avail then b.held ++ signed num else b.held := by
  by_cases hroom : kMaxNumericSize ≤ b.avail
  · have hfit : (found num ++ [0]).length ≤ b.avail := by
      rw [List.length_append, List.length_singleton, ← List.length_reverse, reverse_found]
      exact Nat.le_trans hnum hroom
    obtain ⟨b', he, hdata, hcur⟩ := formatIntger_eq hnum hroom
    refine ⟨b', he, ?_⟩
    rw [if_pos hroom, held, hdata, hcur, ← reverse_found]
    refine (take_reverse_copy hfit (by simp)).trans ?_
    rw [List.take_left]
  · exact ⟨b, if_neg hroom, (if_neg hroom).symm⟩

/-- There is room for what `snprintf` writes, with its null. -/
theorem formatDouble_eq {b : FixedBuffer SIZE} {text : List Byte}
    (htext : text.length < kMaxNumericSize) (hroom : kMaxNumericSize ≤ b.avail) :
    ∃ b', b.formatDouble text = some b' ∧ b'.data = (b.copy (text ++ [0])).data ∧
      b'.cur = b.cur + text.length := by
  have hfit : (text ++ [0]).length ≤ b.avail := by
    rw [List.length_append, List.length_singleton]
    exact Nat.le_trans htext hroom
  obtain ⟨b', hadd, hdata, hcur⟩ := add_eq (b := b.copy (text ++ [0]))
    (Nat.le_trans (Nat.le_of_lt htext) hroom)
  refine ⟨b', ?_, hdata, hcur⟩
  rw [formatDouble, if_pos hroom, snprintf_eq htext]
  simp only [write_eq hfit]
  exact hadd

/-- A `double` is inserted whole or not at all. -/
theorem formatDouble_spec (b : FixedBuffer SIZE) {text : List Byte}
    (htext : text.length < kMaxNumericSize) :
    ∃ b', b.formatDouble text = some b' ∧
      b'.held = if kMaxNumericSize ≤ b.avail then b.held ++ text else b.held := by
  by_cases hroom : kMaxNumericSize ≤ b.avail
  · have hfit : (text ++ [0]).length ≤ b.avail := by
      rw [List.length_append, List.length_singleton]
      exact Nat.le_trans htext hroom
    obtain ⟨b', he, hdata, hcur⟩ := formatDouble_eq htext hroom
    refine ⟨b', he, ?_⟩
    rw [if_pos hroom, held, hdata, hcur]
    refine (b.take_copy hfit (by simp)).trans ?_
    rw [List.take_left]
  · exact ⟨b, if_neg hroom, (if_neg hroom).symm⟩

end FixedBuffer

theorem IntegerType.range (t : IntegerType) : -(10 ^ 20 : Int) < t.min ∧ t.max < 10 ^ 20 := by
  cases t <;> decide

/-- Every value of an integer type has at most twenty digits. -/
theorem Integer.natAbs_lt (v : Integer) : v.num.natAbs < 10 ^ 20 := by
  obtain ⟨hmin, hmax⟩ := v.type.range
  have hlow := v.min_le
  have hhigh := v.le_max
  omega

theorem Integer.length_signed_lt (v : Integer) : (signed v.num).length < kMaxNumericSize :=
  Nat.lt_of_le_of_lt (length_signed_le (k := 20) (by decide) v.natAbs_lt) (by decide)

namespace Insertion

/-- The text of what is inserted. -/
def text : Insertion → List Byte
  | .bool v => if v then [49] else [48]
  | .integer v => signed v.num
  | .double text _ => text
  | .char v => [v]
  | .pointer (some memory) => cString memory
  | .pointer none => nullText
  | .string str => str
  | .buffer buf => buf.toSting
  | .charStream v => v.data.take v.len.toNat
  | .append data => data

/-- The text is taken where there is this much room. -/
def Accepted (room : Nat) : Insertion → Prop
  | .integer _ | .double _ _ => kMaxNumericSize ≤ room
  | .charStream v => 0 ≤ v.len ∧ v.len.toNat < room
  | i => i.text.length < room

/-- Whether there is room for an insertion can be computed. -/
instance (room : Nat) : (i : Insertion) → Decidable (i.Accepted room)
  | .integer _ | .double _ _ => inferInstanceAs (Decidable (kMaxNumericSize ≤ room))
  | .charStream v => inferInstanceAs (Decidable (0 ≤ v.len ∧ v.len.toNat < room))
  | .bool v => Nat.decLt (text (.bool v)).length room
  | .char v => Nat.decLt (text (.char v)).length room
  | .pointer str => Nat.decLt (text (.pointer str)).length room
  | .string str => Nat.decLt (text (.string str)).length room
  | .buffer buf => Nat.decLt (text (.buffer buf)).length room
  | .append data => Nat.decLt (text (.append data)).length room

/-- What is taken leaves room for a byte. -/
theorem Accepted.lt {room : Nat} {i : Insertion} (h : i.Accepted room) : i.text.length < room := by
  cases i with
  | integer v => exact Nat.lt_of_lt_of_le v.length_signed_lt h
  | double text short => exact Nat.lt_of_lt_of_le short h
  | charStream v => exact Nat.lt_of_le_of_lt (List.length_take_le _ _) h.2
  | pointer str => cases str <;> exact h
  | _ => exact h

end Insertion

namespace LogStream

/-- **One insertion adds the text of its value, or nothing.** -/
theorem insert_spec (b : LogStream) (i : Insertion) : ∃ b', b.insert i = some b' ∧
    b'.held = if i.Accepted b.avail then b.held ++ i.text else b.held := by
  cases i with
  | integer v => exact b.formatIntger_spec v.length_signed_lt
  | double text short => exact b.formatDouble_spec short
  | charStream v =>
    by_cases hneg : v.len < 0
    · have hnot : ¬ (Insertion.charStream v).Accepted b.avail := fun h =>
        absurd h.1 (Int.not_le.mpr hneg)
      exact ⟨b, if_pos hneg, (if_neg hnot).symm⟩
    · have hlen : (v.data.take v.len.toNat).length = v.len.toNat := by
        rw [List.length_take, Nat.min_eq_left]
        exact Int.toNat_le.mpr v.len_le
      refine ⟨_, if_neg hneg, ?_⟩
      rw [b.held_append, hlen]
      exact if_congr (and_iff_right (Int.not_lt.mp hneg)).symm rfl rfl
  | pointer str => cases str <;> exact ⟨_, rfl, b.held_append _⟩
  | _ => exact ⟨_, rfl, b.held_append _⟩

end LogStream

/-! ### A sequence of insertions -/

namespace Insertion

/-- What is left of the room by an insertion. -/
def roomAfter (room : Nat) (i : Insertion) : Nat :=
  if i.Accepted room then room - i.text.length else room

/-- An insertion does not take the last byte. -/
theorem roomAfter_pos {room : Nat} (h : 0 < room) (i : Insertion) : 0 < i.roomAfter room := by
  rw [roomAfter]
  split
  · next hi => exact Nat.sub_pos_of_lt hi.lt
  · exact h

/-- The text of the insertions that are taken. -/
def taken (room : Nat) : List Insertion → List Byte
  | [] => []
  | i :: rest => (if i.Accepted room then i.text else []) ++ taken (i.roomAfter room) rest

/-- A chain of insertions in two parts: the second has the room the first leaves. -/
theorem taken_append (room : Nat) (is js : List Insertion) :
    taken room (is ++ js) = taken room is ++ taken (is.foldl roomAfter room) js := by
  induction is generalizing room with
  | nil => rfl
  | cons i is ih => rw [List.cons_append, taken, taken, ih, List.foldl_cons, List.append_assoc]

end Insertion

namespace LogStream

theorem avail_eq (b : LogStream) : b.avail = kSmallBuffer - b.held.length := by
  rw [FixedBuffer.length_held, FixedBuffer.avail]

/-- **A sequence of insertions** adds the text of those it takes, and leaves a byte of room. -/
theorem inserts_spec (b : LogStream) (is : List Insertion) : ∃ b', b.inserts is = some b' ∧
    b'.held = b.held ++ Insertion.taken b.avail is ∧
      b'.avail = is.foldl Insertion.roomAfter b.avail := by
  induction is generalizing b with
  | nil => exact ⟨b, rfl, (List.append_nil _).symm, rfl⟩
  | cons i is ih =>
    obtain ⟨b₁, he₁, hheld₁⟩ := b.insert_spec i
    have havail₁ : b₁.avail = i.roomAfter b.avail := by
      rw [avail_eq, hheld₁, Insertion.roomAfter, avail_eq b]
      split
      · rw [List.length_append, Nat.sub_sub]
      · rfl
    obtain ⟨b', he, hheld, havail⟩ := ih b₁
    refine ⟨b', ?_, ?_, havail.trans (by rw [havail₁, List.foldl_cons])⟩
    · rw [inserts, List.foldlM_cons, he₁]
      exact he
    · rw [hheld, hheld₁, havail₁, Insertion.taken, ← List.append_assoc]
      congr 1
      split
      · rfl
      · rw [List.append_nil]

end LogStream

end Reactor.Log
