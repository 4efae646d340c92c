import Mathlib.Data.List.Basic
import Mathlib.Order.Lattice

/-!
# Lib — SortedSet

An ordered set as the strictly increasing list of its elements, with the order as a field:
insertion, the first element, and the two halves a bound cuts it into.
-/

namespace Reactor.Lib

/-- A set as the list of its elements in their order, each once. -/
structure SortedSet (α : Type*) [LinearOrder α] where
  elems : List α
  sorted : elems.Pairwise (· < ·)

namespace SortedSet

variable {α : Type*} [LinearOrder α]

/-- An element of the set is one of the list. -/
instance : Membership α (SortedSet α) := ⟨fun s a => a ∈ s.elems⟩

theorem mem_def {s : SortedSet α} {a : α} : a ∈ s ↔ a ∈ s.elems := Iff.rfl

/-! ### Insertion -/

/-- An element put at its place in a sorted list, unless it is there. -/
def insertSorted (a : α) : List α → List α
  | [] => [a]
  | b :: l => if a < b then a :: b :: l else if b < a then b :: insertSorted a l else b :: l

theorem mem_insertSorted {a x : α} {l : List α} : x ∈ insertSorted a l ↔ x = a ∨ x ∈ l := by
  induction l with
  | nil => simp [insertSorted]
  | cons b l ih =>
    simp only [insertSorted]
    split
    · simp
    · next hab =>
      split
      · simp [ih, or_left_comm]
      · next hba =>
        obtain rfl := le_antisymm (not_lt.mp hba) (not_lt.mp hab)
        simp

theorem pairwise_insertSorted (a : α) {l : List α} (h : l.Pairwise (· < ·)) :
    (insertSorted a l).Pairwise (· < ·) := by
  induction l with
  | nil => simp [insertSorted]
  | cons b l ih =>
    obtain ⟨hb, hl⟩ := List.pairwise_cons.mp h
    simp only [insertSorted]
    split
    · next hab =>
      refine List.pairwise_cons.mpr ⟨fun x hx => ?_, h⟩
      rcases List.mem_cons.mp hx with rfl | hx
      · exact hab
      · exact lt_trans hab (hb x hx)
    · split
      · next hba =>
        refine List.pairwise_cons.mpr ⟨fun x hx => ?_, ih hl⟩
        rcases mem_insertSorted.mp hx with rfl | hx
        · exact hba
        · exact hb x hx
      · exact h

/-- The set without elements. -/
def empty : SortedSet α := ⟨[], .nil⟩

/-- The set with one element more, or itself. -/
def insert (s : SortedSet α) (a : α) : SortedSet α :=
  ⟨insertSorted a s.elems, pairwise_insertSorted a s.sorted⟩

@[simp] theorem not_mem_empty (a : α) : a ∉ (empty : SortedSet α) := List.not_mem_nil

@[simp] theorem mem_insert {s : SortedSet α} {a x : α} : x ∈ s.insert a ↔ x = a ∨ x ∈ s :=
  mem_insertSorted

/-- The first element. -/
def first? (s : SortedSet α) : Option α := s.elems.head?

theorem first?_mem {s : SortedSet α} {a : α} (h : s.first? = some a) : a ∈ s :=
  List.mem_of_head? h

theorem first?_eq_none {s : SortedSet α} : s.first? = none ↔ ∀ a, a ∉ s :=
  List.head?_eq_none_iff.trans List.eq_nil_iff_forall_not_mem

theorem first?_le {s : SortedSet α} {a x : α} (h : s.first? = some a) (hx : x ∈ s) : a ≤ x := by
  obtain ⟨l, hl⟩ := List.head?_eq_some_iff.mp h
  have hs := s.sorted
  rw [hl] at hs
  rcases List.mem_cons.mp (hl ▸ mem_def.mp hx) with rfl | hx
  · exact le_refl _
  · exact ((List.pairwise_cons.mp hs).1 x hx).le

/-! ### The halves at a bound -/

/-- Below an element is a front of the list, and the rest is behind it. -/
theorem takeWhile_lt {l : List α} (h : l.Pairwise (· < ·)) (a : α) :
    l.takeWhile (· < a) = l.filter (· < a) ∧ l.dropWhile (· < a) = l.filter (¬ · < a) := by
  induction l with
  | nil => simp
  | cons b l ih =>
    obtain ⟨hb, hl⟩ := List.pairwise_cons.mp h
    obtain ⟨ht, hd⟩ := ih hl
    by_cases hba : b < a
    · simp [hba, ht, hd]
    · -- whatever comes after `b` is not below the bound either
      have hrest : ∀ x ∈ b :: l, ¬ x < a := fun x hx hxa => by
        rcases List.mem_cons.mp hx with rfl | hx
        · exact hba hxa
        · exact hba (lt_trans (hb x hx) hxa)
      rw [List.takeWhile_cons_of_neg (by simpa using hba),
        List.dropWhile_cons_of_neg (by simpa using hba), eq_comm, List.filter_eq_nil_iff, eq_comm,
        List.filter_eq_self]
      exact ⟨by simpa using hrest, by simpa using hrest⟩

/-- The elements before `lower_bound(a)`, in order. -/
def below (s : SortedSet α) (a : α) : List α := s.elems.takeWhile (· < a)

/-- The set from `lower_bound(a)` on. -/
def eraseBelow (s : SortedSet α) (a : α) : SortedSet α :=
  ⟨s.elems.dropWhile (· < a), s.sorted.sublist (List.dropWhile_sublist _)⟩

@[simp] theorem mem_below {s : SortedSet α} {a x : α} : x ∈ s.below a ↔ x ∈ s ∧ x < a := by
  simp [below, (takeWhile_lt s.sorted a).1, mem_def]

@[simp] theorem mem_eraseBelow {s : SortedSet α} {a x : α} :
    x ∈ s.eraseBelow a ↔ x ∈ s ∧ ¬ x < a := by
  simp [eraseBelow, (takeWhile_lt s.sorted a).2, mem_def]

theorem nodup_below (s : SortedSet α) (a : α) : (s.below a).Nodup :=
  (s.sorted.sublist (List.takeWhile_sublist _)).imp fun h => ne_of_lt h

end SortedSet

end Reactor.Lib
