import Mathlib.Data.List.Basic

/-!
# Lib — SwapRemove

Removal from a vector in constant time: the element is exchanged with the last one, and the last
one is dropped.
-/

namespace Reactor.Lib

variable {α : Type*}

/-- Exchange the element at `i` and the last one. -/
def swapLast (l : List α) (i : Nat) : List α :=
  match l[i]?, l.getLast? with
  | some a, some b => (l.set i b).set (l.length - 1) a
  | _, _ => l

/-- The entry `i` is exchanged with the last one, which is then dropped. -/
def swapRemove (l : List α) (i : Nat) : List α := (swapLast l i).dropLast

@[simp] theorem length_swapLast (l : List α) (i : Nat) : (swapLast l i).length = l.length := by
  unfold swapLast
  split <;> simp

@[simp] theorem length_swapRemove (l : List α) (i : Nat) :
    (swapRemove l i).length = l.length - 1 := by
  simp [swapRemove]

/-- The last element takes the place of the one removed. -/
theorem getElem?_swapRemove {l : List α} {i j : Nat} (hi : i < l.length)
    (hj : j < l.length - 1) :
    (swapRemove l i)[j]? = if j = i then l[l.length - 1]? else l[j]? := by
  have hlast : l.getLast? = some l[l.length - 1] := by
    rw [List.getLast?_eq_getElem?, List.getElem?_eq_getElem (by omega)]
  have hswap : swapLast l i = (l.set i l[l.length - 1]).set (l.length - 1) l[i] := by
    simp only [swapLast, List.getElem?_eq_getElem hi, hlast]
  rw [swapRemove, List.getElem?_dropLast, if_pos (by simpa using hj), hswap,
    List.getElem?_set_ne (by omega)]
  by_cases hij : j = i
  · subst hij
    rw [if_pos rfl, List.getElem?_set_self hi, List.getElem?_eq_getElem (by omega)]
  · rw [if_neg hij, List.getElem?_set_ne (Ne.symm hij)]

/-- Removing the last element is dropping it. -/
theorem swapRemove_last {l : List α} {i : Nat} (hi : i < l.length) (h : i = l.length - 1) :
    swapRemove l i = l.dropLast := by
  apply List.ext_getElem?
  intro j
  by_cases hj : j < l.length - 1
  · rw [getElem?_swapRemove hi hj, if_neg (by omega), List.getElem?_dropLast, if_pos hj]
  · rw [List.getElem?_eq_none (by simp; omega), List.getElem?_eq_none (by simp; omega)]

end Reactor.Lib
