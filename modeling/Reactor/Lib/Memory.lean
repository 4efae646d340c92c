import Mathlib.Data.List.Basic

/-!
# Lib — Memory

A block of memory as a list of cells, and the three loops programs run over it: storing a
sequence at a position, copying a range within the block from its first cell on, and resizing.
The first two are given as the loops they are; `store_eq` and `copyForward_eq` say what the
whole loop does.  Copying forward moves a range correctly when the destination does not lie
inside it, in particular to any lower address.
-/

namespace Reactor.Lib.Memory

variable {α : Type*}

/-- `*d++ = a` for each `a` of the sequence, from position `pos` on. -/
def store (mem : List α) (pos : Nat) : List α → List α
  | [] => mem
  | a :: as => store (mem.set pos a) (pos + 1) as

/-- `*d++ = *s++`, `n` times, within one block. -/
def copyForward (mem : List α) (src dst : Nat) : Nat → List α
  | 0 => mem
  | n + 1 => copyForward (match mem[src]? with
      | some a => mem.set dst a
      | none => mem) (src + 1) (dst + 1) n

/-- Cut the block to `n` cells, or fill it up to `n` cells with `a`. -/
def resize (mem : List α) (n : Nat) (a : α) : List α :=
  mem.take n ++ List.replicate (n - mem.length) a

@[simp] theorem length_store (mem : List α) (pos : Nat) (as : List α) :
    (store mem pos as).length = mem.length := by
  induction as generalizing mem pos with
  | nil => rfl
  | cons a as ih => simp [store, ih]

@[simp] theorem length_copyForward (mem : List α) (src dst n : Nat) :
    (copyForward mem src dst n).length = mem.length := by
  induction n generalizing mem src dst with
  | zero => rfl
  | succ n ih =>
    rw [copyForward, ih]
    split <;> simp

@[simp] theorem length_resize (mem : List α) (n : Nat) (a : α) :
    (resize mem n a).length = n := by
  simp only [resize, List.length_append, List.length_take, List.length_replicate]
  omega

/-- Growing a block keeps its cells. -/
theorem take_resize {mem : List α} {n k : Nat} (a : α) (hk : k ≤ mem.length)
    (hn : mem.length ≤ n) : (resize mem n a).take k = mem.take k := by
  rw [resize, List.take_append_of_le_length (by simp; omega), List.take_take, Nat.min_eq_left]
  omega

/-- **The store loop** replaces exactly the cells from `pos` on by the sequence. -/
theorem store_eq {mem : List α} {pos : Nat} {as : List α} (h : pos + as.length ≤ mem.length) :
    store mem pos as = mem.take pos ++ as ++ mem.drop (pos + as.length) := by
  induction as generalizing mem pos with
  | nil => simp [store]
  | cons a as ih =>
    simp only [List.length_cons] at h
    rw [store, ih (by simp only [List.length_set]; omega)]
    have hset : (mem.set pos a).take (pos + 1) = mem.take pos ++ [a] := by
      rw [List.take_add_one, List.take_set_of_le (Nat.le_refl pos)]
      simp [show pos < mem.length by omega]
    have hdrop : (mem.set pos a).drop (pos + 1 + as.length) = mem.drop (pos + 1 + as.length) :=
      List.drop_set_of_lt (by omega)
    rw [hset, hdrop]
    simp [Nat.add_comm as.length 1, Nat.add_assoc]

/-- What the copy loop leaves in each cell, when it copies to a lower address: the loop never
reads a cell it has already overwritten. -/
theorem getElem?_copyForward {mem : List α} {src dst n : Nat} (hd : dst ≤ src)
    (h : src + n ≤ mem.length) (i : Nat) :
    (copyForward mem src dst n)[i]? =
      if dst ≤ i ∧ i < dst + n then mem[src + (i - dst)]? else mem[i]? := by
  induction n generalizing mem src dst with
  | zero => rw [if_neg (by omega)]; rfl
  | succ n ih =>
    have hsrc : mem[src]? = some mem[src] := List.getElem?_eq_getElem (by omega)
    rw [copyForward, hsrc]
    simp only []
    rw [ih (by omega) (by simp only [List.length_set]; omega)]
    by_cases hi : dst ≤ i ∧ i < dst + (n + 1)
    · rw [if_pos hi]
      rcases Nat.eq_or_lt_of_le hi.1 with rfl | hlt
      · rw [if_neg (by omega), List.getElem?_set_self (by omega)]
        simp [hsrc]
      · rw [if_pos (by omega), List.getElem?_set_ne (by omega)]
        congr 1; omega
    · rw [if_neg hi, if_neg (by omega)]
      exact List.getElem?_set_ne (by omega)

/-- **The copy loop to a lower address** moves the range. -/
theorem copyForward_eq {mem : List α} {src dst n : Nat} (hd : dst ≤ src)
    (h : src + n ≤ mem.length) :
    copyForward mem src dst n = mem.take dst ++ (mem.drop src).take n ++ mem.drop (dst + n) := by
  apply List.ext_getElem?
  intro i
  rw [getElem?_copyForward hd h, List.append_assoc]
  have hlen : (mem.take dst).length = dst := by simp; omega
  by_cases h₁ : i < dst
  · rw [if_neg (by omega), List.getElem?_append_left (by omega), List.getElem?_take_of_lt h₁]
  · rw [List.getElem?_append_right (by omega), hlen]
    have hlen' : ((mem.drop src).take n).length = n := by simp; omega
    by_cases h₂ : i < dst + n
    · rw [if_pos (by omega), List.getElem?_append_left (by omega),
        List.getElem?_take_of_lt (by omega), List.getElem?_drop]
    · rw [if_neg (by omega), List.getElem?_append_right (by omega), hlen', List.getElem?_drop]
      congr 1; omega

end Reactor.Lib.Memory
