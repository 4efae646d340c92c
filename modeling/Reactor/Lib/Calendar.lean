import Mathlib.Data.Nat.Basic

/-!
# Lib — Calendar

The numbers laid out in consecutive blocks, and with years and months for blocks the days of the
Gregorian calendar.

* `locate_spec`: the block of a number and its place there.
* `locate_lt`: a larger number is further on.
* `dateOf_lt`: a later day has a later date.
-/

namespace Reactor.Lib

/-! ### Blocks -/

/-- The start of the `k`-th block, where `len` gives the lengths. -/
def blockStart (len : Nat → Nat) : Nat → Nat
  | 0 => 0
  | k + 1 => blockStart len k + len k

/-- The block that holds the number `n` past the start of the `k`-th, and its place in it. -/
def locate (len : Nat → Nat) (n k : Nat) : Nat → Nat × Nat
  | 0 => (k, n)
  | fuel + 1 => if n < len k then (k, n) else locate len (n - len k) (k + 1) fuel

/-- The number lies in the block found, if the blocks passed may hold it. -/
theorem locate_spec (len : Nat → Nat) {n k : Nat} (fuel : Nat)
    (h : blockStart len k + n < blockStart len (k + fuel)) :
    (locate len n k fuel).2 < len (locate len n k fuel).1 ∧
      blockStart len k + n = blockStart len (locate len n k fuel).1 + (locate len n k fuel).2 ∧
      (locate len n k fuel).1 < k + fuel := by
  induction fuel generalizing n k with
  | zero =>
    rw [Nat.add_zero] at h
    omega
  | succ fuel ih =>
    rw [locate]
    split
    · next hn => exact ⟨hn, rfl, by simp⟩
    · next hn =>
      have hstart : blockStart len (k + 1) = blockStart len k + len k := rfl
      have hfuel : k + 1 + fuel = k + (fuel + 1) := by omega
      obtain ⟨hrest, hsum, hlt⟩ := ih (n := n - len k) (k := k + 1) (by rw [hfuel]; omega)
      exact ⟨hrest, by omega, by omega⟩

variable {len : Nat → Nat} {n m k : Nat}

theorem blockStart_mono (h : k ≤ m) : blockStart len k ≤ blockStart len m := by
  induction h with
  | refl => exact Nat.le_refl _
  | step _ ih => exact Nat.le_trans ih (Nat.le_add_right _ _)

/-- A block and a place in it, and another. -/
theorem block_lt (len : Nat → Nat) {k k' r r' : Nat} (hr' : r' < len k')
    (h : blockStart len k + r < blockStart len k' + r') : k < k' ∨ k = k' ∧ r < r' := by
  rcases Nat.lt_trichotomy k k' with hlt | rfl | hgt
  · exact .inl hlt
  · exact .inr ⟨rfl, by omega⟩
  · have hstart : blockStart len (k' + 1) = blockStart len k' + len k' := rfl
    have hmono : blockStart len (k' + 1) ≤ blockStart len k := blockStart_mono hgt
    omega

/-- No block is empty. -/
theorem le_blockStart (hlen : ∀ k, 0 < len k) (k : Nat) : k ≤ blockStart len k := by
  induction k with
  | zero => exact Nat.zero_le _
  | succ k ih =>
    have hpos := hlen k
    rw [blockStart]
    omega

/-! ### The calendar -/

/-- A year of 366 days. -/
def leapYear (y : Nat) : Bool := y % 4 == 0 && (y % 100 != 0 || y % 400 == 0)

/-- The days of a year. -/
def yearLength (y : Nat) : Nat := if leapYear y then 366 else 365

/-- The months are counted from 0. -/
def monthLength (leap : Bool) : Nat → Nat
  | 1 => if leap then 29 else 28
  | 3 | 5 | 8 | 10 => 30
  | _ => 31

/-- A day of the calendar, its month counted from 0. -/
structure Date where
  year : Nat
  mon : Nat
  mday : Nat
  mon_lt : mon < 12
  mday_pos : 0 < mday
  mday_le : mday ≤ monthLength (leapYear year) mon
  deriving DecidableEq

theorem yearLength_pos (y : Nat) : 0 < yearLength y := by
  unfold yearLength
  split <;> decide

theorem monthLength_le (leap : Bool) (mon : Nat) : monthLength leap mon ≤ 31 := by
  unfold monthLength
  cases leap <;> split <;> decide

/-- Twelve months are a year. -/
theorem blockStart_monthLength (y : Nat) :
    blockStart (monthLength (leapYear y)) 12 = yearLength y := by
  unfold yearLength
  cases leapYear y <;> rfl

/-- The year `n` days after the first of January of `y₀`, and how many days it has gone on. -/
def yearOf (y₀ n : Nat) : Nat × Nat := locate (fun k => yearLength (y₀ + k)) n 0 (n + 1)

/-- The day of the year, and the years before, make up the days. -/
theorem yearOf_spec (y₀ n : Nat) : (yearOf y₀ n).2 < yearLength (y₀ + (yearOf y₀ n).1) ∧
    n = blockStart (fun k => yearLength (y₀ + k)) (yearOf y₀ n).1 + (yearOf y₀ n).2 := by
  have hfuel := le_blockStart (fun k => yearLength_pos (y₀ + k)) (0 + (n + 1))
  obtain ⟨hlt, hsum, -⟩ := locate_spec (fun k => yearLength (y₀ + k)) (n := n) (k := 0) (n + 1)
    (by rw [blockStart]; omega)
  rw [blockStart, Nat.zero_add] at hsum
  exact ⟨hlt, hsum⟩

/-- The month a number of days into the year `y`, and how many days it has gone on. -/
def monthOf (y yday : Nat) : Nat × Nat := locate (monthLength (leapYear y)) yday 0 12

/-- The day of the month, and the months before, make up the day of the year. -/
theorem monthOf_spec {y yday : Nat} (h : yday < yearLength y) : (monthOf y yday).1 < 12 ∧
    (monthOf y yday).2 < monthLength (leapYear y) (monthOf y yday).1 ∧
      yday = blockStart (monthLength (leapYear y)) (monthOf y yday).1 + (monthOf y yday).2 := by
  obtain ⟨hlt, hsum, hmon⟩ := locate_spec (monthLength (leapYear y)) (n := yday) (k := 0) 12
    (by rw [Nat.zero_add, blockStart_monthLength, blockStart]; omega)
  rw [blockStart, Nat.zero_add] at hsum
  exact ⟨hmon, hlt, hsum⟩

/-- The date `n` days after the first of January of `y₀`. -/
def dateOf (y₀ n : Nat) : Date where
  year := y₀ + (yearOf y₀ n).1
  mon := (monthOf (y₀ + (yearOf y₀ n).1) (yearOf y₀ n).2).1
  mday := (monthOf (y₀ + (yearOf y₀ n).1) (yearOf y₀ n).2).2 + 1
  mon_lt := (monthOf_spec (yearOf_spec y₀ n).1).1
  mday_pos := Nat.succ_pos _
  mday_le := (monthOf_spec (yearOf_spec y₀ n).1).2.1

/-- The order of the calendar. -/
def Date.Before (d e : Date) : Prop :=
  d.year < e.year ∨ d.year = e.year ∧ (d.mon < e.mon ∨ d.mon = e.mon ∧ d.mday < e.mday)

/-- **A later day has a later date.** -/
theorem dateOf_lt (y₀ : Nat) (h : n < m) : (dateOf y₀ n).Before (dateOf y₀ m) := by
  obtain ⟨hn, hnsum⟩ := yearOf_spec y₀ n
  obtain ⟨hm, hmsum⟩ := yearOf_spec y₀ m
  rw [hnsum, hmsum] at h
  have hyear := block_lt (fun k => yearLength (y₀ + k)) hm h
  rcases hyear with hlt | ⟨heq, hyday⟩
  · exact .inl (Nat.add_lt_add_left hlt y₀)
  · rw [heq] at hn
    obtain ⟨-, -, hnsum'⟩ := monthOf_spec hn
    obtain ⟨-, hm', hmsum'⟩ := monthOf_spec hm
    have hmon := block_lt _ hm' (by rw [← hnsum', ← hmsum']; exact hyday)
    refine .inr ⟨congrArg (y₀ + ·) heq, ?_⟩
    simp only [dateOf, heq]
    exact hmon.imp id (And.imp id Nat.succ_lt_succ)

example : (dateOf 1970 19782).year = 2024 ∧ (dateOf 1970 19782).mon = 1 ∧
    (dateOf 1970 19782).mday = 29 := by decide

end Reactor.Lib
