import Reactor.Log.LogStream

/-!
# Log — the header

`Logger::Impl::formatTime`.  The date and the time of day are written into one array and the
microseconds into another, and a counted number of bytes of each goes into the stream.  The first
count is that of a date without slashes, so the seconds are cut off; the second is one more than the
digits, and takes the null along.

* `minuteText_inj`: up to the minute, the text says which time it is.
* `header_eq`: the header, for a year of four digits.
* `header_never`: so it is never the text that was meant, and the seconds are not told.
-/

namespace Reactor.Log
open Reactor.Lib

/-- `struct tm`, with what `localtime` promises of its fields. -/
structure Tm where
  tm_sec : Nat
  tm_min : Nat
  tm_hour : Nat
  tm_mday : Nat
  tm_mon : Nat
  /-- Counted from 1900. -/
  tm_year : Int
  sec_le : tm_sec ≤ 60
  min_le : tm_min ≤ 59
  hour_le : tm_hour ≤ 23
  mday_le : tm_mday ≤ 31
  mon_le : tm_mon ≤ 11
  deriving DecidableEq

/-- `Timestamp::kMicroSecondsPerSecond` -/
def kMicroSecondsPerSecond : Nat := 1000 * 1000

/-- The text of `t_time` up to the seconds. -/
def minuteText (tm : Tm) : List Byte :=
  spacePadded 4 (tm.tm_year + 1900) ++ 47 :: (zeroPadded 2 (tm.tm_mon + 1 : Nat) ++
    47 :: (zeroPadded 2 tm.tm_mday ++ 32 :: (zeroPadded 2 tm.tm_hour ++
      58 :: (zeroPadded 2 tm.tm_min ++ [58]))))

/-- `"%4d/%02d/%02d %02d:%02d:%02d"` -/
def timeText (tm : Tm) : List Byte := minuteText tm ++ zeroPadded 2 tm.tm_sec

/-- An array after `snprintf` into it. -/
def printed (array text : List Byte) : List Byte :=
  Memory.store array 0 (snprintf array.length text ++ [0])

/-- `formatTime()` at this time, where `t_time` is what `ThreadInfo::t_time` holds: what it inserts
into the stream. -/
def formatTime (localtime : Int → Tm) (t_time : { array : List Byte // array.length = 64 })
    (microSecondSinceEpoch : Int) : List Insertion :=
  let seconds := microSecondSinceEpoch.tdiv kMicroSecondsPerSecond
  let microseconds := microSecondSinceEpoch.tmod kMicroSecondsPerSecond
  let t_time := printed t_time (timeText (localtime seconds))
  let buf := printed (List.replicate 32 0) (zeroPadded 6 microseconds)
  [.append (t_time.take 17), .append (buf.take 7)]

/-! ### The text of a time -/

/-- The year is written with four digits. -/
def Tm.FourDigitYear (tm : Tm) : Prop := 1000 ≤ tm.tm_year + 1900 ∧ tm.tm_year + 1900 ≤ 9999

/-- Whether a year has four digits can be computed. -/
instance (tm : Tm) : Decidable tm.FourDigitYear := inferInstanceAs (Decidable (_ ∧ _))

/-- The year of such a time is written with its four digits. -/
theorem Tm.FourDigitYear.year_eq {tm : Tm} (h : tm.FourDigitYear) :
    ∃ y : Nat, tm.tm_year + 1900 = y ∧ spacePadded 4 (tm.tm_year + 1900) = decimal y ∧
      (decimal y).length = 4 := by
  obtain ⟨hlow, hhigh⟩ := h
  obtain ⟨y, hy⟩ := Int.eq_ofNat_of_zero_le (show 0 ≤ tm.tm_year + 1900 by omega)
  have hle : (decimal y).length ≤ 4 := (length_decimal_le_iff (by decide)).mpr (by omega)
  have hgt : ¬ (decimal y).length ≤ 3 := by
    rw [length_decimal_le_iff (by decide)]
    omega
  refine ⟨y, hy, ?_, by omega⟩
  rw [hy]
  exact spacePadded_eq (by omega) (by decide)

/-- A field of two digits and what follows it. -/
theorem field_inj {n m : Nat} {c : Byte} {s t : List Byte} (hn : n < 100) (hm : m < 100)
    (h : zeroPadded 2 (n : Int) ++ c :: s = zeroPadded 2 (m : Int) ++ c :: t) : n = m ∧ s = t := by
  have hlen : (zeroPadded 2 (n : Int)).length = (zeroPadded 2 (m : Int)).length := by
    rw [length_zeroPadded (by decide) hn, length_zeroPadded (by decide) hm]
  obtain ⟨hfield, hrest⟩ := List.append_inj h hlen
  exact ⟨zeroPadded_inj hfield, (List.cons.inj hrest).2⟩

theorem length_minuteText {tm : Tm} (h : tm.FourDigitYear) : (minuteText tm).length = 17 := by
  obtain ⟨y, -, hyear, hlen⟩ := h.year_eq
  have hfield : ∀ {n : Nat}, n < 10 ^ 2 → (zeroPadded 2 (n : Int)).length = 2 :=
    length_zeroPadded (by decide)
  have hmon := tm.mon_le
  have hmday := tm.mday_le
  have hhour := tm.hour_le
  have hmin := tm.min_le
  rw [minuteText, hyear]
  simp only [List.length_append, List.length_cons, List.length_nil, hlen]
  rw [hfield (by omega), hfield (by omega), hfield (by omega), hfield (by omega)]

/-- The fields up to the minute are the same. -/
def Tm.SameMinute (tm tm' : Tm) : Prop :=
  tm.tm_year = tm'.tm_year ∧ tm.tm_mon = tm'.tm_mon ∧ tm.tm_mday = tm'.tm_mday ∧
    tm.tm_hour = tm'.tm_hour ∧ tm.tm_min = tm'.tm_min

/-- **The text up to the minute** says which minute it is. -/
theorem minuteText_inj {tm tm' : Tm} (h : tm.FourDigitYear) (h' : tm'.FourDigitYear) :
    minuteText tm = minuteText tm' ↔ tm.SameMinute tm' := by
  constructor
  · intro heq
    obtain ⟨y, hy, hyear, hlen⟩ := h.year_eq
    obtain ⟨y', hy', hyear', hlen'⟩ := h'.year_eq
    rw [minuteText, minuteText, hyear, hyear'] at heq
    obtain ⟨hdecimal, hrest⟩ := List.append_inj heq (hlen.trans hlen'.symm)
    have hyy := decimal_inj hdecimal
    have hmon := tm.mon_le; have hmon' := tm'.mon_le
    have hmday := tm.mday_le; have hmday' := tm'.mday_le
    have hhour := tm.hour_le; have hhour' := tm'.hour_le
    have hmin := tm.min_le; have hmin' := tm'.min_le
    -- field by field, each of two digits
    obtain ⟨emon, hrest⟩ := field_inj (by omega) (by omega) (List.cons.inj hrest).2
    obtain ⟨emday, hrest⟩ := field_inj (by omega) (by omega) hrest
    obtain ⟨ehour, hrest⟩ := field_inj (by omega) (by omega) hrest
    obtain ⟨emin, -⟩ := field_inj (by omega) (by omega) hrest
    exact ⟨by omega, by omega, emday, ehour, emin⟩
  · rintro ⟨hyear, hmon, hmday, hhour, hmin⟩
    rw [minuteText, minuteText, hyear, hmon, hmday, hhour, hmin]

/-! ### The header -/

/-- What an array holds from its start, once a string that fits is printed into it. -/
theorem take_printed {array text : List Byte} {n : Nat} (h : text.length < array.length)
    (hn : n ≤ text.length + 1) : (printed array text).take n = (text ++ [0]).take n := by
  have hfit : 0 + (text ++ [0]).length ≤ array.length := by
    rw [List.length_append, List.length_singleton, Nat.zero_add]
    exact h
  rw [printed, snprintf_eq h, Memory.store_eq hfit, List.take_zero, List.nil_append,
    List.take_append_of_le_length (by simpa using hn)]

/-- The text that was meant. -/
def meantText (tm : Tm) (microseconds : Nat) : List Byte :=
  timeText tm ++ zeroPadded 6 microseconds

/-- The text of `formatTime` in a new stream. -/
def headerText (localtime : Int → Tm) (t_time : { array : List Byte // array.length = 64 })
    (stream : LogStream) (microSecondSinceEpoch : Nat) : Option (List Byte) :=
  (stream.inserts (formatTime localtime t_time microSecondSinceEpoch)).map FixedBuffer.held

/-- Two texts that fit are taken. -/
theorem taken_texts {room : Nat} {s t : List Byte} (h : s.length + t.length < room) :
    Insertion.taken room [.append s, .append t] = s ++ t := by
  have hs : (Insertion.append s).Accepted room := Nat.lt_of_le_of_lt (Nat.le_add_right _ _) h
  have ht : (Insertion.append t).Accepted (room - s.length) := Nat.lt_sub_iff_add_lt'.mpr h
  rw [Insertion.taken, Insertion.taken, Insertion.taken, Insertion.roomAfter, if_pos hs, if_pos hs]
  change s ++ ((if (Insertion.append t).Accepted (room - s.length) then t else []) ++ []) = s ++ t
  rw [if_pos ht, List.append_nil]

theorem length_timeText {tm : Tm} (h : tm.FourDigitYear) : (timeText tm).length = 19 := by
  have hsec : tm.tm_sec < 10 ^ 2 := Nat.lt_of_le_of_lt tm.sec_le (by decide)
  rw [timeText, List.length_append, length_minuteText h, length_zeroPadded (by decide) hsec]

theorem length_microseconds (n : Nat) :
    (zeroPadded 6 (n % kMicroSecondsPerSecond : Nat)).length = 6 :=
  length_zeroPadded (by decide) (Nat.mod_lt _ (by decide))

/-- What is inserted: the seconds are cut off, and the null comes along. -/
theorem formatTime_eq {localtime : Int → Tm} (t_time : { array : List Byte // array.length = 64 })
    {n : Nat} (h : (localtime (n / kMicroSecondsPerSecond : Nat)).FourDigitYear) :
    formatTime localtime t_time n =
      [.append (minuteText (localtime (n / kMicroSecondsPerSecond : Nat))),
        .append (zeroPadded 6 (n % kMicroSecondsPerSecond : Nat) ++ [0])] := by
  have htime : (printed t_time (timeText (localtime (n / kMicroSecondsPerSecond : Nat)))).take 17 =
      minuteText (localtime (n / kMicroSecondsPerSecond : Nat)) := by
    rw [take_printed (by rw [length_timeText h, t_time.2]; decide)
      (by rw [length_timeText h]; decide), timeText, List.append_assoc]
    exact List.take_left' (length_minuteText h)
  have hbuf : (printed (List.replicate 32 0)
      (zeroPadded 6 (n % kMicroSecondsPerSecond : Nat))).take 7 =
      zeroPadded 6 (n % kMicroSecondsPerSecond : Nat) ++ [0] := by
    rw [take_printed (by rw [length_microseconds, List.length_replicate]; decide)
      (Nat.le_of_eq (by rw [length_microseconds]))]
    apply List.take_of_length_le
    exact Nat.le_of_eq (by rw [List.length_append, length_microseconds, List.length_singleton])
  rw [← htime, ← hbuf]
  rfl

/-- **The header**, in a new stream. -/
theorem header_eq {localtime : Int → Tm} (t_time : { array : List Byte // array.length = 64 })
    {memory : List Byte} (hmem : memory.length = kSmallBuffer) {n : Nat}
    (h : (localtime (n / kMicroSecondsPerSecond : Nat)).FourDigitYear) :
    headerText localtime t_time (.new memory hmem) n =
      some (minuteText (localtime (n / kMicroSecondsPerSecond : Nat)) ++
        (zeroPadded 6 (n % kMicroSecondsPerSecond : Nat) ++ [0])) := by
  obtain ⟨b, he, hheld, -⟩ := LogStream.inserts_spec (.new memory hmem)
    (formatTime localtime t_time n)
  have hfits : (minuteText (localtime (n / kMicroSecondsPerSecond : Nat))).length +
      (zeroPadded 6 (n % kMicroSecondsPerSecond : Nat) ++ [0]).length < kSmallBuffer := by
    rw [length_minuteText h, List.length_append, length_microseconds]
    decide
  rw [headerText, he, Option.map_some, hheld, FixedBuffer.held_new, List.nil_append,
    formatTime_eq t_time h]
  exact congrArg some (taken_texts hfits)

/-- Two headers tell two times apart: each is the text that was meant, neither has a null, and they
differ. -/
def Identify (localtime : Int → Tm) (n m : Nat) (h k : List Byte) : Prop :=
  h ≠ k ∧
    h = meantText (localtime (n / kMicroSecondsPerSecond : Nat)) (n % kMicroSecondsPerSecond) ∧
    k = meantText (localtime (m / kMicroSecondsPerSecond : Nat)) (m % kMicroSecondsPerSecond) ∧
      0 ∉ h ∧ 0 ∉ k

/-- **The header never says the time.**  Whatever `localtime` is, for every two times with a year of
four digits: both headers hold a null and neither is the text that was meant; and they are equal if
and only if the times agree up to the minute and in their microseconds. -/
theorem header_never {localtime : Int → Tm}
    (t_time t_time' : { array : List Byte // array.length = 64 }) {memory memory' : List Byte}
    (hmem : memory.length = kSmallBuffer) (hmem' : memory'.length = kSmallBuffer) {n m : Nat}
    (hn : (localtime (n / kMicroSecondsPerSecond : Nat)).FourDigitYear)
    (hm : (localtime (m / kMicroSecondsPerSecond : Nat)).FourDigitYear) :
    ∃ h k, headerText localtime t_time (.new memory hmem) n = some h ∧
      headerText localtime t_time' (.new memory' hmem') m = some k ∧
      ¬ Identify localtime n m h k ∧ 0 ∈ h ∧ 0 ∈ k ∧
      h ≠ meantText (localtime (n / kMicroSecondsPerSecond : Nat)) (n % kMicroSecondsPerSecond) ∧
      (h = k ↔ (localtime (n / kMicroSecondsPerSecond : Nat)).SameMinute
          (localtime (m / kMicroSecondsPerSecond : Nat)) ∧
        n % kMicroSecondsPerSecond = m % kMicroSecondsPerSecond) := by
  refine ⟨_, _, header_eq t_time hmem hn, header_eq t_time' hmem' hm, ?_, by simp, by simp, ?_, ?_⟩
  · rintro ⟨-, -, -, hnull, -⟩
    exact hnull (by simp)
  · -- one byte fewer than was meant
    intro heq
    have hlen := congrArg List.length heq
    rw [meantText, List.length_append, List.length_append, List.length_append,
      length_timeText hn, length_minuteText hn, length_microseconds, List.length_singleton] at hlen
    exact absurd hlen (by decide)
  · constructor
    · intro heq
      have hlen := (length_minuteText hn).trans (length_minuteText hm).symm
      obtain ⟨hminute, hrest⟩ := List.append_inj heq hlen
      exact ⟨(minuteText_inj hn hm).mp hminute, zeroPadded_inj (List.append_cancel_right hrest)⟩
    · rintro ⟨hminute, hsame⟩
      rw [(minuteText_inj hn hm).mpr hminute, hsame]

/-! ### Two times that are not told apart -/

/-- Days as in January 1970 at UTC: every month has 31. -/
def januaries (seconds : Int) : Tm where
  tm_sec := (seconds % 60).toNat
  tm_min := (seconds / 60 % 60).toNat
  tm_hour := (seconds / 3600 % 24).toNat
  tm_mday := (seconds / 86400 % 31).toNat + 1
  tm_mon := (seconds / 2678400 % 12).toNat
  tm_year := 70 + seconds / 32140800
  sec_le := by omega
  min_le := by omega
  hour_le := by omega
  mday_le := by omega
  mon_le := by omega

/-- A quotient is told by its remainder and by the next quotient. -/
theorem ediv_inj {a b k m : Int} (hk : 0 < k) (hm : 0 < m)
    (hmod : (a / k % m).toNat = (b / k % m).toNat) (hdiv : a / (k * m) = b / (k * m)) :
    a / k = b / k := by
  rw [← Int.ediv_ediv_of_nonneg (Int.le_of_lt hk),
    ← Int.ediv_ediv_of_nonneg (Int.le_of_lt hk)] at hdiv
  have ha := Int.emod_nonneg (a / k) (Int.ne_of_gt hm)
  have hb := Int.emod_nonneg (b / k) (Int.ne_of_gt hm)
  rw [← Int.mul_ediv_add_emod (a / k) m, ← Int.mul_ediv_add_emod (b / k) m, hdiv]
  omega

/-- No two seconds have the same date and time there. -/
theorem januaries_injective : Function.Injective januaries := by
  intro a b h
  have hyear : 70 + a / 32140800 = 70 + b / 32140800 := congrArg Tm.tm_year h
  have hmon : a / 2678400 = b / 2678400 :=
    ediv_inj (by decide) (by decide) (congrArg Tm.tm_mon h) (Int.add_left_cancel hyear)
  have hmday : a / 86400 = b / 86400 :=
    ediv_inj (by decide) (by decide) (Nat.succ_inj.mp (congrArg Tm.tm_mday h)) hmon
  have hhour : a / 3600 = b / 3600 :=
    ediv_inj (by decide) (by decide) (congrArg Tm.tm_hour h) hmday
  have hmin : a / 60 = b / 60 := ediv_inj (by decide) (by decide) (congrArg Tm.tm_min h) hhour
  have hsec : (a % 60).toNat = (b % 60).toNat := congrArg Tm.tm_sec h
  omega

/-- The memory before a logger is made. -/
def zeroTime : { array : List Byte // array.length = 64 } :=
  ⟨List.replicate 64 0, List.length_replicate⟩

/-- A stream whose memory is all zeros. -/
def zeroStream : LogStream := .new (List.replicate 4000 0) List.length_replicate

/-- The theorem at the first two minutes of 1970, which are told apart. -/
theorem header_never_minutes : ∃ h k, h ≠ k ∧ (0 : Byte) ∈ h ∧
    headerText januaries zeroTime zeroStream 0 = some h ∧
    headerText januaries zeroTime zeroStream 60000000 = some k := by
  have hmem : (List.replicate 4000 (0 : Byte)).length = kSmallBuffer := List.length_replicate
  have hfirst : (januaries (0 / kMicroSecondsPerSecond : Nat)).FourDigitYear := by decide
  have hsecond : (januaries (60000000 / kMicroSecondsPerSecond : Nat)).FourDigitYear := by decide
  obtain ⟨h, k, hh, hk, -, hnull, -, -, hiff⟩ :=
    header_never zeroTime zeroTime hmem hmem hfirst hsecond
  refine ⟨h, k, fun heq => ?_, hnull, hh, hk⟩
  exact absurd (hiff.mp heq).1.2.2.2.2 (by decide)

/-- The first two seconds of 1970 are not told apart, though `localtime` does. -/
theorem header_ignores_second : ∃ localtime : Int → Tm, Function.Injective localtime ∧
    ∃ h, headerText localtime zeroTime zeroStream 0 = some h ∧
      headerText localtime zeroTime zeroStream 1000000 = some h ∧ (0 : Byte) ∈ h := by
  have hmem : (List.replicate 4000 (0 : Byte)).length = kSmallBuffer := List.length_replicate
  have hfirst : (januaries (0 / kMicroSecondsPerSecond : Nat)).FourDigitYear := by decide
  have hsecond : (januaries (1000000 / kMicroSecondsPerSecond : Nat)).FourDigitYear := by decide
  have hsame : minuteText (januaries (1000000 / kMicroSecondsPerSecond : Nat)) =
      minuteText (januaries (0 / kMicroSecondsPerSecond : Nat)) :=
    (minuteText_inj hsecond hfirst).mpr ⟨by decide, by decide, by decide, by decide, by decide⟩
  have hone := header_eq zeroTime hmem hsecond
  rw [hsame] at hone
  exact ⟨januaries, januaries_injective, _, header_eq zeroTime hmem hfirst, hone, by simp⟩

end Reactor.Log
