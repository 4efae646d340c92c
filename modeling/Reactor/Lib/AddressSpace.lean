import Mathlib.Logic.Function.Basic
import Reactor.Lib.Memory

/-!
# Lib — AddressSpace

Memory as a function of its addresses, with no bounds: a write goes wherever it is sent.  A block in
it is a range of addresses, read as a list; `Memory` has the same operations within a block.

* `write_outside`, `read_write`: a write changes its range, and only that.
* `read_write_block`, `read_reverse_block`: the operations, seen from a block they fall into.
-/

namespace Reactor.Lib.AddressSpace

variable {α : Type*}

/-- `*p++ = a` for each `a` of the sequence, from address `p` on. -/
def write (mem : Nat → α) (p : Nat) : List α → Nat → α
  | [] => mem
  | a :: as => write (Function.update mem p a) (p + 1) as

/-- The `n` cells from address `p` on. -/
def read (mem : Nat → α) (p n : Nat) : List α := (List.range n).map fun i => mem (p + i)

/-- `std::reverse(p, p + n)` -/
def reverse (mem : Nat → α) (p n : Nat) : Nat → α := write mem p (read mem p n).reverse

variable {mem : Nat → α} {p n : Nat}

@[simp] theorem length_read : (read mem p n).length = n := by simp [read]

theorem getElem_read {i : Nat} (h : i < (read mem p n).length) :
    (read mem p n)[i] = mem (p + i) := by
  simp [read]

theorem take_read {k : Nat} (h : k ≤ n) : (read mem p n).take k = read mem p k := by
  rw [read, read, ← List.map_take, List.take_range, Nat.min_eq_left h]

theorem read_add (n m : Nat) : read mem p (n + m) = read mem p n ++ read mem (p + n) m := by
  simp [read, List.range_add, Nat.add_assoc]

/-- A range within a range. -/
theorem take_drop_read {k m : Nat} (h : k + m ≤ n) :
    ((read mem p n).drop k).take m = read mem (p + k) m := by
  obtain ⟨l, rfl⟩ := Nat.exists_eq_add_of_le h
  rw [Nat.add_assoc, read_add, List.drop_left' length_read, take_read (Nat.le_add_right m l)]

/-- What is in each cell after a write. -/
theorem write_apply (mem : Nat → α) (p : Nat) (as : List α) (q : Nat) :
    write mem p as q = if p ≤ q then as[q - p]?.getD (mem q) else mem q := by
  induction as generalizing mem p with
  | nil => simp [write]
  | cons a as ih =>
    rw [write, ih]
    rcases Nat.lt_trichotomy q p with hlt | rfl | hgt
    · rw [if_neg (by omega), if_neg (by omega), Function.update_of_ne (by omega)]
    · rw [if_neg (by omega), if_pos (Nat.le_refl q), Nat.sub_self, Function.update_self]
      rfl
    · have hsub : q - p = q - (p + 1) + 1 := by omega
      rw [if_pos (Nat.succ_le_of_lt hgt), if_pos (Nat.le_of_lt hgt), hsub, List.getElem?_cons_succ,
        Function.update_of_ne (by omega)]

/-- **Nothing is written outside the range.** -/
theorem write_outside {as : List α} {q : Nat} (h : q < p ∨ p + as.length ≤ q) :
    write mem p as q = mem q := by
  rw [write_apply]
  split
  · rw [List.getElem?_eq_none (by omega), Option.getD_none]
  · rfl

/-- **What is written is read back.** -/
theorem read_write (mem : Nat → α) (p : Nat) (as : List α) :
    read (write mem p as) p as.length = as := by
  apply List.ext_getElem length_read
  intro i hi hlen
  rw [getElem_read, write_apply, if_pos (Nat.le_add_right p i), Nat.add_sub_cancel_left,
    List.getElem?_eq_getElem hlen, Option.getD_some]

/-- The front of what has been written is read back. -/
theorem read_write_left (mem : Nat → α) (p : Nat) (as bs : List α) :
    read (write mem p (as ++ bs)) p as.length = as := by
  rw [← take_read (Nat.le_add_right as.length bs.length), ← List.length_append, read_write,
    List.take_left]

/-- A write over the first part of another. -/
theorem write_write {as bs cs : List α} (h : as.length = cs.length) :
    write (write mem p (as ++ bs)) p cs = write mem p (cs ++ bs) := by
  funext q
  rw [write_apply, write_apply, write_apply]
  by_cases hq : p ≤ q
  · rw [if_pos hq, if_pos hq, if_pos hq]
    by_cases hlt : q - p < cs.length
    · rw [List.getElem?_append_left hlt, List.getElem?_eq_getElem hlt]
      rfl
    · rw [List.getElem?_eq_none (Nat.not_lt.mp hlt), Option.getD_none,
        List.getElem?_append_right (h ▸ Nat.not_lt.mp hlt),
        List.getElem?_append_right (Nat.not_lt.mp hlt), h]
  · rw [if_neg hq, if_neg hq, if_neg hq]

/-- A part of what has been written is reversed in place. -/
theorem reverse_write (mem : Nat → α) (p : Nat) (as bs : List α) :
    reverse (write mem p (as ++ bs)) p as.length = write mem p (as.reverse ++ bs) := by
  rw [reverse, read_write_left, write_write List.length_reverse.symm]

/-- One cell more. -/
theorem write_concat (mem : Nat → α) (p : Nat) (as : List α) (a : α) :
    write mem p (as ++ [a]) = Function.update (write mem p as) (p + as.length) a := by
  induction as generalizing mem p with
  | nil => rfl
  | cons b as ih =>
    rw [List.cons_append, write, ih, write, List.length_cons, Nat.add_assoc, Nat.add_comm 1]

/-! ### A block -/

theorem read_update_block {a : α} {k : Nat} :
    read (Function.update mem (p + k) a) p n = (read mem p n).set k a := by
  apply List.ext_getElem (by simp)
  intro i hi hlen
  rw [getElem_read, List.getElem_set]
  by_cases hik : k = i
  · subst hik
    rw [if_pos rfl, Function.update_self]
  · rw [if_neg hik, getElem_read, Function.update_of_ne (by omega)]

/-- A write, seen from a block it starts in. -/
theorem read_write_block (mem : Nat → α) (p n k : Nat) (as : List α) :
    read (write mem (p + k) as) p n = Memory.store (read mem p n) k as := by
  induction as generalizing mem k with
  | nil => rfl
  | cons a as ih => rw [write, Nat.add_assoc, ih, read_update_block, Memory.store]

/-- A reversal within a block. -/
theorem read_reverse_block {k m : Nat} (h : k + m ≤ n) :
    read (reverse mem (p + k) m) p n =
      (read mem p n).take k ++ (((read mem p n).drop k).take m).reverse ++
        (read mem p n).drop (k + m) := by
  rw [reverse, read_write_block, take_drop_read h, Memory.store_eq, List.length_reverse,
    length_read]
  rwa [List.length_reverse, length_read, length_read]

end Reactor.Lib.AddressSpace
