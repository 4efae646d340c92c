import Mathlib.Data.List.Basic

/-!
# Lib — Lines

Lists cut into lines by a delimiter of two distinct elements, as far as the delimiters have
arrived: the complete lines, and the rest.

* `search`: the first place of the delimiter.
* `lines_append`, `rest_append`: what comes later completes the rest, and leaves the lines alone.
* `lines_unlines`: lines that do not contain the delimiter, written out, are read back.
* `length_lines`: there are as many lines as delimiters.
-/

namespace Reactor.Lib

section Lines

variable {α : Type*} [DecidableEq α] (a b : α)

/-- `std::search` for the two elements `a`, `b`: the first place where they stand. -/
def search : List α → Option Nat
  | x :: y :: l => if x = a ∧ y = b then some 0 else (search (y :: l)).map (· + 1)
  | _ => none

variable {a b}

theorem search_cons_cons {x y : α} {l : List α} (h : ¬ (x = a ∧ y = b)) :
    search a b (x :: y :: l) = (search a b (y :: l)).map (· + 1) := by
  simp [search, h]

/-- A delimiter that is found lies in the list with both its elements. -/
theorem search_length {l : List α} {i : Nat} (h : search a b l = some i) : i + 2 ≤ l.length := by
  induction l generalizing i with
  | nil => simp [search] at h
  | cons x l ih =>
    cases l with
    | nil => simp [search] at h
    | cons y l =>
      by_cases hxy : x = a ∧ y = b
      · simp [search, hxy] at h; simp [← h]
      · rw [search_cons_cons hxy] at h
        obtain ⟨j, hj, rfl⟩ := Option.map_eq_some_iff.mp h
        have := ih hj
        simp only [List.length_cons] at this ⊢
        omega

/-- What comes later does not move the first place. -/
theorem search_append {l : List α} {i : Nat} (h : search a b l = some i) (m : List α) :
    search a b (l ++ m) = some i := by
  induction l generalizing i with
  | nil => simp [search] at h
  | cons x l ih =>
    cases l with
    | nil => simp [search] at h
    | cons y l =>
      by_cases hxy : x = a ∧ y = b
      · simpa [search, hxy] using h
      · rw [search_cons_cons hxy] at h
        obtain ⟨j, hj, rfl⟩ := Option.map_eq_some_iff.mp h
        rw [List.cons_append, List.cons_append, search_cons_cons hxy, ← List.cons_append, ih hj]
        rfl

theorem search_eq_none_of_not_mem {l : List α} (h : a ∉ l) : search a b l = none := by
  induction l with
  | nil => simp [search]
  | cons x l ih =>
    cases l with
    | nil => simp [search]
    | cons y l =>
      have hxy : ¬ (x = a ∧ y = b) := by
        rintro ⟨rfl, -⟩
        exact h List.mem_cons_self
      rw [search_cons_cons hxy, ih fun hm => h (List.mem_cons_of_mem x hm)]
      rfl

/-- Two pieces without a delimiter have none together, unless one starts at the seam. -/
theorem search_append_eq_none {l m : List α} (hl : search a b l = none) (hm : search a b m = none)
    (hseam : l.getLast? = some a → m.head? ≠ some b) : search a b (l ++ m) = none := by
  induction l with
  | nil => exact hm
  | cons x l ih =>
    cases l with
    | nil =>
      cases m with
      | nil => simp [search]
      | cons y m =>
        have hxy : ¬ (x = a ∧ y = b) := by
          rintro ⟨rfl, rfl⟩
          exact hseam rfl rfl
        rw [List.singleton_append, search_cons_cons hxy, hm]
        rfl
    | cons y l =>
      have hxy : ¬ (x = a ∧ y = b) := by
        intro hxy; simp [search, hxy] at hl
      rw [search_cons_cons hxy, Option.map_eq_none_iff] at hl
      rw [List.cons_append, List.cons_append, search_cons_cons hxy, ← List.cons_append,
        ih hl (by simpa using hseam)]
      rfl

/-- A delimiter after something without one is the first. -/
theorem search_delimiter (hab : a ≠ b) {x : List α} (h : search a b x = none) (l : List α) :
    search a b (x ++ a :: b :: l) = some x.length := by
  induction x with
  | nil => simp [search]
  | cons c x ih =>
    cases x with
    | nil =>
      have hca : ¬ (c = a ∧ a = b) := fun hc => hab hc.2
      simp [search_cons_cons hca, search]
    | cons d x =>
      have hcd : ¬ (c = a ∧ d = b) := by
        intro hcd; simp [search, hcd] at h
      rw [search_cons_cons hcd, Option.map_eq_none_iff] at h
      rw [List.cons_append, List.cons_append, search_cons_cons hcd, ← List.cons_append, ih h]
      rfl

/-- Where the first delimiter is, and that there is none before it. -/
theorem search_spec {l : List α} {i : Nat} (h : search a b l = some i) :
    l = l.take i ++ a :: b :: l.drop (i + 2) ∧ search a b (l.take i) = none := by
  induction l generalizing i with
  | nil => simp [search] at h
  | cons x l ih =>
    cases l with
    | nil => simp [search] at h
    | cons y l =>
      by_cases hxy : x = a ∧ y = b
      · simp only [search, hxy, and_self, if_true, Option.some.injEq] at h
        subst h
        simp [hxy, search]
      · rw [search_cons_cons hxy] at h
        obtain ⟨j, hj, rfl⟩ := Option.map_eq_some_iff.mp h
        obtain ⟨hl, hnone⟩ := ih hj
        refine ⟨by simpa using hl, ?_⟩
        cases j with
        | zero => simp [search]
        | succ j => simpa [List.take_succ_cons, search_cons_cons hxy] using hnone

variable (a b)

/-- The complete lines of `l`, without their delimiters. -/
def lines (l : List α) : List (List α) :=
  match h : search a b l with
  | none => []
  | some i => l.take i :: lines (l.drop (i + 2))
termination_by l.length
decreasing_by have := search_length h; simp; omega

/-- What stands after the last delimiter. -/
def rest (l : List α) : List α :=
  match h : search a b l with
  | none => l
  | some i => rest (l.drop (i + 2))
termination_by l.length
decreasing_by have := search_length h; simp; omega

/-- The lines written out, each with its delimiter. -/
def unlines (ls : List (List α)) : List α := ls.flatMap (· ++ [a, b])

variable {a b}

/-- Without a delimiter there is no line, and all is rest. -/
theorem lines_none {l : List α} (h : search a b l = none) : lines a b l = [] ∧ rest a b l = l := by
  rw [lines, rest]
  split <;> simp_all

/-- The first delimiter ends the first line. -/
theorem lines_some {l : List α} {i : Nat} (h : search a b l = some i) :
    lines a b l = l.take i :: lines a b (l.drop (i + 2)) ∧
      rest a b l = rest a b (l.drop (i + 2)) := by
  constructor
  · rw [lines]
    split
    · next hnone => rw [h] at hnone; cases hnone
    · next j hj => rw [h] at hj; cases hj; rfl
  · rw [rest]
    split
    · next hnone => rw [h] at hnone; cases hnone
    · next j hj => rw [h] at hj; cases hj; rfl

omit [DecidableEq α] in
@[simp] theorem unlines_nil : unlines a b [] = [] := rfl

omit [DecidableEq α] in
@[simp] theorem unlines_cons (x : List α) (ls : List (List α)) :
    unlines a b (x :: ls) = x ++ a :: b :: unlines a b ls := by
  simp [unlines]

omit [DecidableEq α] in
theorem length_le_length_unlines (ls : List (List α)) : ls.length ≤ (unlines a b ls).length := by
  induction ls with
  | nil => simp
  | cons x ls ih =>
    rw [unlines_cons, List.length_append, List.length_cons, List.length_cons, List.length_cons]
    omega

/-- **Cutting loses nothing.** -/
theorem unlines_lines (l : List α) : unlines a b (lines a b l) ++ rest a b l = l := by
  induction l using lines.induct a b with
  | case1 l h => simp [lines_none h]
  | case2 l i h ih =>
    rw [(lines_some h).1, (lines_some h).2, unlines_cons, List.append_assoc, List.cons_append,
      List.cons_append, ih, ← (search_spec h).1]

theorem search_rest (l : List α) : search a b (rest a b l) = none := by
  induction l using lines.induct a b with
  | case1 l h => rw [(lines_none h).2, h]
  | case2 l i h ih => rw [(lines_some h).2, ih]

/-- No line has a delimiter in it. -/
theorem search_of_mem_lines {l x : List α} (h : x ∈ lines a b l) : search a b x = none := by
  induction l using lines.induct a b with
  | case1 l hs => simp [lines_none hs] at h
  | case2 l i hs ih =>
    rw [(lines_some hs).1] at h
    rcases List.mem_cons.mp h with rfl | h
    · exact (search_spec hs).2
    · exact ih h

/-- The lines of a list in two parts: those of the first, and those of its rest with the second. -/
theorem lines_append (l m : List α) :
    lines a b (l ++ m) = lines a b l ++ lines a b (rest a b l ++ m) ∧
      rest a b (l ++ m) = rest a b (rest a b l ++ m) := by
  induction l using lines.induct a b with
  | case1 l h => simp [lines_none h]
  | case2 l i h ih =>
    have hdrop : (l ++ m).drop (i + 2) = l.drop (i + 2) ++ m :=
      List.drop_append_of_le_length (search_length h)
    have htake : (l ++ m).take i = l.take i :=
      List.take_append_of_le_length (by have := search_length h; omega)
    rw [(lines_some (search_append h m)).1, (lines_some (search_append h m)).2, hdrop, htake,
      (lines_some h).1, (lines_some h).2, ih.1, ih.2]
    exact ⟨rfl, rfl⟩

/-- **Lines written out are read back**, with what follows them. -/
theorem lines_unlines (hab : a ≠ b) {ls : List (List α)} (h : ∀ x ∈ ls, search a b x = none)
    (l : List α) :
    lines a b (unlines a b ls ++ l) = ls ++ lines a b l ∧
      rest a b (unlines a b ls ++ l) = rest a b l := by
  induction ls with
  | nil => simp
  | cons x ls ih =>
    obtain ⟨hx, hls⟩ := List.forall_mem_cons.mp h
    have hs := search_delimiter hab hx (unlines a b ls ++ l)
    have hdrop : (x ++ a :: b :: (unlines a b ls ++ l)).drop (x.length + 2) =
        unlines a b ls ++ l := by
      rw [← List.drop_drop, List.drop_left]; rfl
    rw [unlines_cons, List.append_assoc, List.cons_append, List.cons_append,
      (lines_some hs).1, (lines_some hs).2, hdrop, List.take_left, (ih hls).1, (ih hls).2]
    exact ⟨rfl, rfl⟩

@[simp] theorem lines_nil : lines a b ([] : List α) = [] := (lines_none rfl).1

@[simp] theorem rest_nil : rest a b ([] : List α) = [] := (lines_none rfl).2

/-- Lists of lines written out are the same only if the lines are. -/
theorem unlines_inj (hab : a ≠ b) {ls ms : List (List α)} (hl : ∀ x ∈ ls, search a b x = none)
    (hm : ∀ x ∈ ms, search a b x = none) (h : unlines a b ls = unlines a b ms) : ls = ms := by
  have hls := (lines_unlines hab hl []).1
  have hms := (lines_unlines hab hm []).1
  rw [h, hms] at hls
  simpa using hls.symm

/-- **A cut through lines written out** leaves lines on its left, and lines once the rest of the
left is put in front of the right. -/
theorem exists_lines_of_append (hab : a ≠ b) {ls : List (List α)}
    (h : ∀ x ∈ ls, search a b x = none) {l m : List α} (he : l ++ m = unlines a b ls) :
    ∃ ms, ls = lines a b l ++ ms ∧ rest a b l ++ m = unlines a b ms := by
  have hls := lines_unlines hab h []
  rw [List.append_nil, lines_nil, rest_nil, List.append_nil, ← he] at hls
  obtain ⟨hlines, hrest⟩ := lines_append (a := a) (b := b) l m
  refine ⟨lines a b (rest a b l ++ m), hls.1.symm.trans hlines, ?_⟩
  have hm := unlines_lines (a := a) (b := b) (rest a b l ++ m)
  rw [← hrest, hls.2, List.append_nil] at hm
  exact hm.symm

/-- Something without a delimiter is not a list of lines written out. -/
theorem eq_nil_of_unlines {ls : List (List α)} (hab : a ≠ b)
    (h : ∀ x ∈ ls, search a b x = none) {l : List α} (hl : search a b l = none)
    (he : l = unlines a b ls) : ls = [] := by
  have hls := (lines_unlines hab h []).1
  rw [List.append_nil, lines_nil, List.append_nil, ← he, (lines_none hl).1] at hls
  exact hls.symm

variable (a b)

/-- How often the delimiter stands in `l`. -/
def delimiters : List α → Nat
  | x :: y :: l => (if x = a ∧ y = b then 1 else 0) + delimiters (y :: l)
  | _ => 0

variable {a b}

theorem delimiters_cons_of_ne {x : α} (h : x ≠ a) (l : List α) :
    delimiters a b (x :: l) = delimiters a b l := by
  cases l with
  | nil => rfl
  | cons y l => simp [delimiters, h]

theorem delimiters_eq_zero {l : List α} (h : search a b l = none) : delimiters a b l = 0 := by
  induction l with
  | nil => rfl
  | cons x l ih =>
    cases l with
    | nil => rfl
    | cons y l =>
      have hxy : ¬ (x = a ∧ y = b) := by
        intro hxy; simp [search, hxy] at h
      rw [search_cons_cons hxy, Option.map_eq_none_iff] at h
      rw [delimiters, if_neg hxy, ih h]

/-- Behind the first delimiter there is one less. -/
theorem delimiters_drop (hab : a ≠ b) {l : List α} {i : Nat} (h : search a b l = some i) :
    delimiters a b l = delimiters a b (l.drop (i + 2)) + 1 := by
  induction l generalizing i with
  | nil => simp [search] at h
  | cons x l ih =>
    cases l with
    | nil => simp [search] at h
    | cons y l =>
      by_cases hxy : x = a ∧ y = b
      · simp only [search, hxy, and_self, if_true, Option.some.injEq] at h
        subst h
        rw [delimiters, if_pos hxy, hxy.2, delimiters_cons_of_ne hab.symm, Nat.add_comm]
        rfl
      · rw [search_cons_cons hxy] at h
        obtain ⟨j, hj, rfl⟩ := Option.map_eq_some_iff.mp h
        rw [delimiters, if_neg hxy, Nat.zero_add, ih hj]
        rfl

theorem length_lines (hab : a ≠ b) (l : List α) :
    (lines a b l).length = delimiters a b l := by
  induction l using lines.induct a b with
  | case1 l h => rw [(lines_none h).1, delimiters_eq_zero h, List.length_nil]
  | case2 l i h ih => rw [(lines_some h).1, List.length_cons, ih, delimiters_drop hab h]

theorem length_lines_le (l : List α) : (lines a b l).length ≤ l.length := by
  induction l using lines.induct a b with
  | case1 l h => simp [lines_none h]
  | case2 l i h ih =>
    have := search_length h
    rw [(lines_some h).1, List.length_cons]
    rw [List.length_drop] at ih
    omega

end Lines

end Reactor.Lib
