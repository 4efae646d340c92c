import Mathlib.Data.List.Basic

/-!
# Lib — slots

A list as pieces of one length, one after the other.

* `slot_flatten`: the pieces of lists put together that have the length.
* `slot_slot`: the pieces of a piece.
-/

namespace Reactor.Lib

variable {α : Type*} {n m k : Nat} {xs ys : List α}

/-- The `k`-th piece of `n` elements. -/
def slot (n k : Nat) (xs : List α) : List α := (xs.drop (n * k)).take n

theorem slot_append_left (h : n * (k + 1) ≤ xs.length) : slot n k (xs ++ ys) = slot n k xs := by
  rw [Nat.mul_succ] at h
  rw [slot, slot, List.drop_append_of_le_length (by omega),
    List.take_append_of_le_length (by rw [List.length_drop]; omega)]

theorem slot_drop : slot n k (xs.drop (n * m)) = slot n (m + k) xs := by
  rw [slot, slot, List.drop_drop, Nat.mul_add]

/-- A slot behind the first of two lists, if that has whole slots only. -/
theorem slot_append_right (h : xs.length = n * m) : slot n (m + k) (xs ++ ys) = slot n k ys := by
  rw [← slot_drop, ← h, List.drop_left]

theorem slot_take (h : n * (k + 1) ≤ m) : slot n k (xs.take m) = slot n k xs := by
  rw [Nat.mul_succ] at h
  rw [slot, slot, List.drop_take, List.take_take, Nat.min_eq_left (by omega)]

theorem slot_replicate {a : α} (h : n * (k + 1) ≤ m) :
    slot n k (List.replicate m a) = List.replicate n a := by
  rw [Nat.mul_succ] at h
  rw [slot, List.drop_replicate, List.take_replicate, Nat.min_eq_left (by omega)]

theorem length_flatten_eq {L : List (List α)} (h : ∀ xs ∈ L, xs.length = n) :
    L.flatten.length = n * L.length := by
  induction L with
  | nil => rfl
  | cons xs L ih =>
    rw [List.flatten_cons, List.length_append, h xs List.mem_cons_self,
      ih fun ys hmem => h ys (List.mem_cons_of_mem _ hmem), List.length_cons, Nat.mul_succ,
      Nat.add_comm]

/-- **The pieces of lists put together** are the lists. -/
theorem slot_flatten {L : List (List α)} (h : ∀ xs ∈ L, xs.length = n) (hk : k < L.length) :
    slot n k L.flatten = L[k] := by
  induction L generalizing k with
  | nil => cases hk
  | cons xs L ih =>
    have hxs : xs.length = n := h xs List.mem_cons_self
    rw [List.flatten_cons]
    cases k with
    | zero => rw [slot, Nat.mul_zero, List.drop_zero, List.take_left' hxs, List.getElem_cons_zero]
    | succ k =>
      have hnext : slot n (1 + k) (xs ++ L.flatten) = slot n k L.flatten :=
        slot_append_right (by rw [hxs, Nat.mul_one])
      rw [Nat.add_comm] at hnext
      rw [hnext, List.getElem_cons_succ]
      exact ih (fun ys hmem => h ys (List.mem_cons_of_mem _ hmem)) (Nat.lt_of_succ_lt_succ hk)

/-- **The pieces of a piece.** -/
theorem slot_slot {i j : Nat} (hj : j < m) :
    slot n j (slot (n * m) i xs) = slot n (m * i + j) xs := by
  have hle : n * (j + 1) ≤ n * m := Nat.mul_le_mul_left n hj
  rw [Nat.mul_succ] at hle
  rw [slot, slot, slot, List.drop_take, List.take_take, List.drop_drop,
    Nat.min_eq_left (by omega), Nat.mul_add, Nat.mul_assoc]

end Reactor.Lib
