import Mathlib.Algebra.Group.Nat.Defs
import Mathlib.Data.List.Basic

/-!
# Lib — Format

Numbers written out in decimal, and text cut to the size of a buffer.

* `value_decimal`: a number written out is read back.
* `decimal_eq`: the last digit is the remainder, the others are those of the quotient.
* `length_decimal_le_iff`: how long it gets.
* `signed_inj`: with a sign, too, the text says which number it is.
* `numeral_signed`: it is the canonical numeral, which is read back.
* `zeroPadded_inj`: the text says which number it is behind zeros, too.
* `zeroPadded_lt`: behind zeros, texts are ordered as the numbers.
-/

namespace Reactor.Lib

/-- A number in decimal, `%u` and, below the sign, `%d`. -/
def decimal (n : Nat) : List UInt8 := (Nat.toDigits 10 n).map fun c => c.toNat.toUInt8

/-- `%d` -/
def signed (n : Int) : List UInt8 :=
  if n < 0 then 45 :: decimal n.natAbs else decimal n.natAbs

/-- `%0*d` -/
def zeroPadded (width : Nat) (n : Int) : List UInt8 :=
  if n < 0 then 45 :: (decimal n.natAbs).leftpad (width - 1) 48
  else (decimal n.natAbs).leftpad width 48

/-- `%*d` -/
def spacePadded (width : Nat) (n : Int) : List UInt8 := (signed n).leftpad width 32

/-- `snprintf` into a buffer of `size` bytes: the text, cut to leave room for the null. -/
def snprintf (size : Nat) (s : List UInt8) : List UInt8 := s.take (size - 1)

/-- The number that digits stand for. -/
def value (ds : List UInt8) : Nat := ds.foldl (fun n c => 10 * n + (c.toNat - 48)) 0

theorem toNat_toUInt8 {c : Char} (h : c.isDigit = true) : (c.toNat.toUInt8).toNat = c.toNat := by
  have hc : c.toNat ≤ 57 := by
    simp only [Char.isDigit, Bool.and_eq_true, decide_eq_true_eq] at h
    exact h.2
  simp only [Nat.toUInt8, UInt8.toNat_ofNat']
  omega

/-- Only digits are written. -/
theorem mem_decimal {n : Nat} {c : UInt8} (h : c ∈ decimal n) : 48 ≤ c ∧ c ≤ 57 := by
  obtain ⟨d, hd, rfl⟩ := List.mem_map.mp h
  have hdigit : d.isDigit = true := Nat.isDigit_of_mem_toDigits (by omega) (by omega) hd
  have hnat := toNat_toUInt8 hdigit
  simp only [Char.isDigit, Bool.and_eq_true, decide_eq_true_eq] at hdigit
  rw [UInt8.le_iff_toNat_le, UInt8.le_iff_toNat_le, hnat]
  exact hdigit

theorem digitChar_toUInt8 : ∀ {n : Nat}, n < 10 → n.digitChar.toNat.toUInt8 = (48 + n).toUInt8 := by
  decide

/-- The digits are those of the quotient by ten, and the remainder. -/
theorem decimal_eq (n : Nat) : decimal n =
    (if n < 10 then [] else decimal (n / 10)) ++ [(48 + n % 10).toUInt8] := by
  have hdigit : n % 10 < 10 := Nat.mod_lt _ (by decide)
  rw [← digitChar_toUInt8 hdigit, decimal, Nat.toDigits_eq_if (by decide)]
  split
  · next h => simp [Nat.mod_eq_of_lt h]
  · simp [decimal]

theorem decimal_ne_nil (n : Nat) : decimal n ≠ [] := by
  rw [decimal, ne_eq, List.map_eq_nil_iff]
  exact Nat.toDigits_ne_nil

theorem length_decimal_le_iff {n k : Nat} (hk : 0 < k) : (decimal n).length ≤ k ↔ n < 10 ^ k := by
  rw [decimal, List.length_map, Nat.length_toDigits_le_iff (by omega) hk]

theorem snprintf_eq {size : Nat} {s : List UInt8} (h : s.length < size) : snprintf size s = s :=
  List.take_of_length_le (by omega)

/-- Reading digits one by one gives the number they stand for. -/
theorem foldl_digits {cs : List Char} (h : ∀ c ∈ cs, c.isDigit = true) (n : Nat) :
    (cs.map fun c => c.toNat.toUInt8).foldl (fun n c => 10 * n + (c.toNat - 48)) n =
      Nat.ofDigitChars 10 cs n := by
  induction cs generalizing n with
  | nil => simp
  | cons c cs ih =>
    obtain ⟨hc, hcs⟩ := List.forall_mem_cons.mp h
    rw [List.map_cons, List.foldl_cons, ih hcs, Nat.ofDigitChars_cons, toNat_toUInt8 hc]
    rfl

/-- **A number written out is read back.** -/
theorem value_decimal (n : Nat) : value (decimal n) = n := by
  have hdigits : ∀ c ∈ Nat.toDigits 10 n, c.isDigit = true := fun c hc =>
    Nat.isDigit_of_mem_toDigits (by omega) (by omega) hc
  rw [value, decimal, foldl_digits hdigits, Nat.ofDigitChars_ten_toDigits]

/-- Different numbers have different digits. -/
theorem decimal_inj {n m : Nat} (h : decimal n = decimal m) : n = m := by
  rw [← value_decimal n, h, value_decimal]

/-- No digit is the sign. -/
theorem signed_inj {n m : Int} (h : signed n = signed m) : n = m := by
  have hsign : ∀ k l : Nat, decimal k ≠ 45 :: decimal l := fun k l heq => by
    have := (mem_decimal (heq ▸ List.mem_cons_self : (45 : UInt8) ∈ decimal k)).1
    revert this
    decide
  rw [signed, signed] at h
  split at h <;> split at h
  · have := decimal_inj (List.cons.inj h).2
    omega
  · exact absurd h.symm (hsign _ _)
  · exact absurd h (hsign _ _)
  · have := decimal_inj h
    omega

theorem length_signed_le {n : Int} {k : Nat} (hk : 0 < k) (h : n.natAbs < 10 ^ k) :
    (signed n).length ≤ k + 1 := by
  have := (length_decimal_le_iff hk).mpr h
  rw [signed]
  split
  · rw [List.length_cons]
    omega
  · omega

/-! ### Numerals -/

/-- The digits of a numeral, past the sign. -/
def magnitude (text : List UInt8) : List UInt8 :=
  if text.head? = some 45 then text.tail else text

/-- The number a numeral is read as. -/
def readNumeral (text : List UInt8) : Int :=
  if text.head? = some 45 then -(value (magnitude text) : Int) else value (magnitude text)

/-- The canonical numeral of a number. -/
structure Numeral (n : Int) (text : List UInt8) : Prop where
  sign : text.head? = some 45 ↔ n < 0
  digits : ∀ c ∈ magnitude text, 48 ≤ c ∧ c ≤ 57
  ne_nil : magnitude text ≠ []
  leading : n ≠ 0 → (magnitude text).head? ≠ some 48
  zero : n = 0 → text = [48]
  read : readNumeral text = n

theorem head_decimal_ne_sign (n : Nat) : (decimal n).head? ≠ some 45 := by
  intro h
  have hdigit := (mem_decimal (List.mem_of_mem_head? h)).1
  revert hdigit
  decide

/-- There are no zeros in front. -/
theorem head_decimal_ne_zero {n : Nat} (h : 0 < n) : (decimal n).head? ≠ some 48 := by
  induction n using Nat.strongRecOn with
  | ind n ih =>
    rw [decimal_eq]
    by_cases hsmall : n < 10
    · rw [if_pos hsmall, List.nil_append, List.head?_cons, Nat.mod_eq_of_lt hsmall]
      intro heq
      have hnat := congrArg UInt8.toNat (Option.some.inj heq)
      simp only [Nat.toUInt8, UInt8.toNat_ofNat', UInt8.toNat_ofNat] at hnat
      omega
    · rw [if_neg hsmall, List.head?_append_of_ne_nil _ (decimal_ne_nil _)]
      exact ih (n / 10) (by omega) (by omega)

theorem head_signed (n : Int) : (signed n).head? = some 45 ↔ n < 0 := by
  rw [signed]
  split
  · next h => exact iff_of_true rfl h
  · next h => exact iff_of_false (head_decimal_ne_sign _) h

/-- Behind the sign are the digits of the absolute value. -/
theorem magnitude_signed (n : Int) : magnitude (signed n) = decimal n.natAbs := by
  by_cases h : n < 0
  · rw [magnitude, if_pos ((head_signed n).mpr h), signed, if_pos h, List.tail_cons]
  · rw [magnitude, if_neg (mt (head_signed n).mp h), signed, if_neg h]

/-- **A number written out is the canonical numeral.** -/
theorem numeral_signed (n : Int) : Numeral n (signed n) where
  sign := head_signed n
  digits := fun c hc => mem_decimal (magnitude_signed n ▸ hc)
  ne_nil := by
    rw [magnitude_signed]
    exact decimal_ne_nil _
  leading := fun h => by
    rw [magnitude_signed]
    exact head_decimal_ne_zero (Int.natAbs_pos.mpr h)
  zero := by
    rintro rfl
    rfl
  read := by
    rw [readNumeral, magnitude_signed, value_decimal]
    by_cases h : n < 0
    · rw [if_pos ((head_signed n).mpr h)]
      omega
    · rw [if_neg (mt (head_signed n).mp h)]
      omega

/-! ### Padding -/

theorem zeroPadded_natCast (width n : Nat) :
    zeroPadded width (n : Int) = (decimal n).leftpad width 48 := by
  rw [zeroPadded, if_neg (by omega), Int.natAbs_natCast]

/-- A number of few enough digits is written in just the width. -/
theorem length_zeroPadded {width n : Nat} (hw : 0 < width) (h : n < 10 ^ width) :
    (zeroPadded width (n : Int)).length = width := by
  rw [zeroPadded_natCast, List.length_leftpad]
  exact Nat.max_eq_left ((length_decimal_le_iff hw).mpr h)

/-- Zeros in front do not count. -/
theorem value_zeroPadded (width n : Nat) : value (zeroPadded width (n : Int)) = n := by
  have hzeros : ∀ k, (List.replicate k (48 : UInt8)).foldl
      (fun n c => 10 * n + (c.toNat - 48)) 0 = 0 := by
    intro k
    induction k with
    | zero => rfl
    | succ k ih => exact ih
  rw [zeroPadded_natCast, value, List.leftpad, List.foldl_append, hzeros]
  exact value_decimal n

theorem zeroPadded_inj {width n m : Nat}
    (h : zeroPadded width (n : Int) = zeroPadded width (m : Int)) : n = m := by
  rw [← value_zeroPadded width n, h, value_zeroPadded]

/-- A number that fills the width is not padded. -/
theorem spacePadded_eq {width n : Nat} (h : 10 ^ (width - 1) ≤ n) (hw : 1 < width) :
    spacePadded width (n : Int) = decimal n := by
  have hlen : ¬ (decimal n).length ≤ width - 1 := by
    rw [length_decimal_le_iff (by omega)]
    omega
  have hsigned : signed (n : Int) = decimal n := by
    rw [signed, if_neg (by omega), Int.natAbs_natCast]
  rw [spacePadded, hsigned, List.leftpad, Nat.sub_eq_zero_of_le (by omega), List.replicate_zero,
    List.nil_append]

/-! ### The order of texts -/

/-- The first difference decides. -/
theorem append_lt {s t : List UInt8} (hlen : s.length = t.length) (h : s < t)
    (u v : List UInt8) : s ++ u < t ++ v := by
  induction s generalizing t with
  | nil =>
    cases t with
    | nil => exact absurd h (List.lt_irrefl _)
    | cons b t => cases hlen
  | cons a s ih =>
    cases t with
    | nil => cases hlen
    | cons b t =>
      rw [List.cons_append, List.cons_append, List.cons_lt_cons_iff]
      rcases List.cons_lt_cons_iff.mp h with hlt | ⟨rfl, hlt⟩
      · exact .inl hlt
      · exact .inr ⟨rfl, ih (Nat.succ.inj hlen) hlt⟩

theorem decimal_digit {n : Nat} (h : n < 10) : decimal n = [(48 + n).toUInt8] := by
  rw [decimal_eq, if_pos h, Nat.mod_eq_of_lt h, List.nil_append]

/-- One place more: the last digit is the remainder. -/
theorem zeroPadded_succ (width n : Nat) : zeroPadded (width + 2) (n : Int) =
    zeroPadded (width + 1) ((n / 10 : Nat) : Int) ++ [(48 + n % 10).toUInt8] := by
  rw [zeroPadded_natCast, zeroPadded_natCast, decimal_eq n]
  by_cases hn : n < 10
  · rw [if_pos hn, Nat.div_eq_of_lt hn, decimal_digit (by decide)]
    simp [List.leftpad, List.replicate_succ', List.append_assoc]
  · rw [if_neg hn]
    simp [List.leftpad]

theorem digit_lt {a b : Nat} (h : a < b) (hb : b < 10) : (48 + a).toUInt8 < (48 + b).toUInt8 := by
  rw [UInt8.lt_iff_toNat_lt]
  simp only [Nat.toUInt8, UInt8.toNat_ofNat']
  omega

/-- **Behind zeros, texts are ordered as the numbers.** -/
theorem zeroPadded_lt {width n m : Nat} (h : n < m) (hm : m < 10 ^ (width + 1)) :
    zeroPadded (width + 1) (n : Int) < zeroPadded (width + 1) (m : Int) := by
  induction width generalizing n m with
  | zero =>
    have hn : n < 10 := by omega
    have hone : ∀ {k : Nat}, k < 10 → zeroPadded 1 (k : Int) = [(48 + k).toUInt8] := by
      intro k hk
      rw [zeroPadded_natCast, decimal_digit hk]
      rfl
    rw [hone hn, hone (by omega)]
    exact List.cons_lt_cons_iff.mpr (.inl (digit_lt h (by omega)))
  | succ width ih =>
    rw [zeroPadded_succ, zeroPadded_succ]
    have hm' : m / 10 < 10 ^ (width + 1) := by
      rw [Nat.div_lt_iff_lt_mul (by decide)]
      exact hm
    by_cases hdiv : n / 10 < m / 10
    · refine append_lt ?_ (ih hdiv hm') _ _
      rw [length_zeroPadded (Nat.succ_pos _) (Nat.lt_trans hdiv hm'),
        length_zeroPadded (Nat.succ_pos _) hm']
    · have heq : n / 10 = m / 10 := by omega
      rw [heq]
      exact List.append_left_lt (List.cons_lt_cons_iff.mpr (.inl (digit_lt (by omega) (by omega))))

end Reactor.Lib
