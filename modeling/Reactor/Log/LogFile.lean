import Reactor.Lib.Calendar
import Reactor.Lib.Runs
import Reactor.Log.AppendFile
import Reactor.Log.AsyncLogging
import Reactor.Log.Header

/-!
# Log — LogFile

`LogFile` with the files it writes.  A file is named after the second `rollFile` made it in, and
`rollFile` makes none unless the clock is past the second of the last; the clock may otherwise
answer anything, but no year of five digits.  What `append` takes stays in the stream until stdio
writes it out, which it may do at any time.

* `getLogFileName_lt`: a later file has a later name.
* `files_kept`: what becomes of the data, over every run.
* `append_refines`, `flush_refines`: the `LogFile` of `ThreadFunc`.

A time before the Epoch is none that `time` returns.  The calls do not overlap, though `rollFile`
takes no mutex.
-/

namespace Reactor.Log
open Reactor.Lib

/-- A day. -/
def kRollPerSeconds : Nat := 60 * 60 * 24

/-- `gmtime_r` -/
def gmtime (now : Nat) : Tm where
  tm_sec := now % 60
  tm_min := now / 60 % 60
  tm_hour := now / 3600 % 24
  tm_mday := (dateOf 1970 (now / 86400)).mday
  tm_mon := (dateOf 1970 (now / 86400)).mon
  tm_year := (dateOf 1970 (now / 86400)).year - 1900
  sec_le := by omega
  min_le := by omega
  hour_le := by omega
  mday_le := (dateOf 1970 (now / 86400)).mday_le.trans (monthLength_le _ _)
  mon_le := Nat.le_of_lt_succ (dateOf 1970 (now / 86400)).mon_lt

/-- `strftime` with `".%Y%m%d-%H%M%S"` -/
def strftime (tm : Tm) : List Byte :=
  46 :: (signed (tm.tm_year + 1900) ++ (zeroPadded 2 (tm.tm_mon + 1 : Nat) ++
    (zeroPadded 2 tm.tm_mday ++ 45 :: (zeroPadded 2 tm.tm_hour ++
      (zeroPadded 2 tm.tm_min ++ zeroPadded 2 tm.tm_sec)))))

/-- `getLogFileName`, where `time` answers `now`. -/
def getLogFileName (basename : List Byte) (now : Nat) : List Byte :=
  basename ++ strftime (gmtime now) ++ [46, 108, 111, 103]

/-! ### Names in order -/

/-- The order of time. -/
def Tm.Before (tm tm' : Tm) : Prop :=
  tm.tm_year < tm'.tm_year ∨ tm.tm_year = tm'.tm_year ∧
    (tm.tm_mon < tm'.tm_mon ∨ tm.tm_mon = tm'.tm_mon ∧
      (tm.tm_mday < tm'.tm_mday ∨ tm.tm_mday = tm'.tm_mday ∧
        (tm.tm_hour < tm'.tm_hour ∨ tm.tm_hour = tm'.tm_hour ∧
          (tm.tm_min < tm'.tm_min ∨ tm.tm_min = tm'.tm_min ∧ tm.tm_sec < tm'.tm_sec))))

variable {n m : Nat}

/-- A later second is a later date and time. -/
theorem gmtime_before (h : n < m) : (gmtime n).Before (gmtime m) := by
  rcases Nat.lt_or_eq_of_le (Nat.div_le_div_right (c := 86400) h.le) with hday | hday
  · rcases dateOf_lt 1970 hday with hlt | ⟨heq, hlt | ⟨heq', hlt⟩⟩
    · exact .inl (by simp only [gmtime]; omega)
    · exact .inr ⟨by simp only [gmtime]; omega, .inl hlt⟩
    · exact .inr ⟨by simp only [gmtime]; omega, .inr ⟨heq', .inl hlt⟩⟩
  · have htime : n / 3600 % 24 < m / 3600 % 24 ∨ n / 3600 % 24 = m / 3600 % 24 ∧
        (n / 60 % 60 < m / 60 % 60 ∨ n / 60 % 60 = m / 60 % 60 ∧ n % 60 < m % 60) := by omega
    refine .inr ⟨?_, .inr ⟨?_, .inr ⟨?_, htime⟩⟩⟩ <;> simp only [gmtime, hday]

/-- A field, and what follows it. -/
theorem field_lt {width : Nat} {u v : List Byte} (hn : n < 10 ^ (width + 1))
    (hm : m < 10 ^ (width + 1)) (h : n < m ∨ n = m ∧ u < v) :
    zeroPadded (width + 1) (n : Int) ++ u < zeroPadded (width + 1) (m : Int) ++ v := by
  rcases h with hlt | ⟨rfl, hlt⟩
  · refine append_lt ?_ (zeroPadded_lt hlt hm) u v
    rw [length_zeroPadded (Nat.succ_pos _) hn, length_zeroPadded (Nat.succ_pos _) hm]
  · exact List.append_left_lt hlt

/-- A year of four digits is not padded. -/
theorem Tm.FourDigitYear.signed_eq {tm : Tm} (h : tm.FourDigitYear) : ∃ y : Nat,
    tm.tm_year + 1900 = y ∧ y < 10 ^ 4 ∧ signed (tm.tm_year + 1900) = zeroPadded 4 (y : Int) := by
  obtain ⟨y, hy, -, hlen⟩ := h.year_eq
  refine ⟨y, hy, (length_decimal_le_iff (by decide)).mp hlen.le, ?_⟩
  rw [hy, zeroPadded_natCast, List.leftpad, hlen, signed, if_neg (by omega), Int.natAbs_natCast]
  rfl

/-- Dates in their order are texts in theirs. -/
theorem strftime_lt {tm tm' : Tm} (hyear : tm.FourDigitYear) (hyear' : tm'.FourDigitYear)
    (h : tm.Before tm') : strftime tm < strftime tm' := by
  obtain ⟨y, hy, hlt, hsigned⟩ := hyear.signed_eq
  obtain ⟨y', hy', hlt', hsigned'⟩ := hyear'.signed_eq
  have hmon := tm.mon_le; have hmon' := tm'.mon_le
  have hmday := tm.mday_le; have hmday' := tm'.mday_le
  have hhour := tm.hour_le; have hhour' := tm'.hour_le
  have hmin := tm.min_le; have hmin' := tm'.min_le
  have hsec := tm.sec_le; have hsec' := tm'.sec_le
  rw [strftime, strftime, hsigned, hsigned', List.cons_lt_cons_iff]
  refine .inr ⟨rfl, field_lt hlt hlt' (h.imp (fun h => by omega) (And.imp (fun h => by omega) ?_))⟩
  intro h
  refine field_lt (by omega) (by omega) (h.imp Nat.succ_lt_succ (And.imp (congrArg _) ?_))
  intro h
  refine field_lt (by omega) (by omega) (h.imp id (And.imp id ?_))
  intro h
  refine List.cons_lt_cons_iff.mpr (.inr ⟨rfl, ?_⟩)
  refine field_lt (by omega) (by omega) (h.imp id (And.imp id ?_))
  intro h
  refine field_lt (by omega) (by omega) (h.imp id (And.imp id ?_))
  intro h
  exact zeroPadded_lt h (by omega)

theorem length_strftime {tm : Tm} (h : tm.FourDigitYear) : (strftime tm).length = 16 := by
  obtain ⟨y, -, hlt, hsigned⟩ := h.signed_eq
  have hfield : ∀ {n : Nat}, n < 10 ^ 2 → (zeroPadded 2 (n : Int)).length = 2 :=
    length_zeroPadded (by decide)
  have hmon := tm.mon_le
  have hmday := tm.mday_le
  have hhour := tm.hour_le
  have hmin := tm.min_le
  have hsec := tm.sec_le
  rw [strftime, hsigned]
  simp only [List.length_append, List.length_cons]
  rw [length_zeroPadded (by decide) hlt, hfield (by omega), hfield (by omega), hfield (by omega),
    hfield (by omega), hfield (by omega)]

/-- **A later file has a later name.** -/
theorem getLogFileName_lt {basename : List Byte} (hn : (gmtime n).FourDigitYear)
    (hm : (gmtime m).FourDigitYear) (h : n < m) :
    getLogFileName basename n < getLogFileName basename m := by
  rw [getLogFileName, getLogFileName, List.append_assoc, List.append_assoc]
  refine List.append_left_lt (append_lt ?_ (strftime_lt hn hm (gmtime_before h)) _ _)
  rw [length_strftime hn, length_strftime hm]

/-! ### The files -/

/-- The stream of an `AppendFile`, with its name. -/
structure Stream extends AppendFile where
  name : List Byte
  /-- How many of the bytes accepted stdio has written out. -/
  written : Nat

/-- `new AppendFile(filename)` -/
def Stream.open (filename : List Byte) : Stream :=
  { AppendFile.new with name := filename, written := 0 }

/-- `LogFile`, with the files. -/
structure LogFiles where
  /-- `_basename` -/
  basename : List Byte
  /-- `_mutex` is not null. -/
  mutex : Bool
  /-- `_startOfPeriod` -/
  startOfPeriod : Nat
  /-- `_lastRoll` -/
  lastRoll : Nat
  /-- `_lastFlush` -/
  lastFlush : Nat
  /-- `_file` -/
  file : Option Stream
  /-- What the files hold; nothing where there is none. -/
  disk : List Byte → List Byte
  /-- The streams closed, each with all it accepted. -/
  closed : List (List Byte × List Byte)

namespace LogFiles

/-- stdio writes out as many bytes of the stream. -/
def writeOut (s : LogFiles) (f : Stream) (count : Nat) : LogFiles :=
  let bytes := (f.accepted.drop f.written).take count
  { s with
    file := some { f with written := f.written + bytes.length }
    disk := Function.update s.disk f.name (s.disk f.name ++ bytes) }

/-- `fflush` -/
def fflush (s : LogFiles) (f : Stream) : LogFiles := s.writeOut f f.accepted.length

/-- `_file.reset`: the old stream is closed. -/
def close (s : LogFiles) : LogFiles :=
  match s.file with
  | some f => { s.fflush f with closed := s.closed ++ [(f.name, f.accepted)] }
  | none => s

/-- `rollFile()`, and what it returns. -/
def rollFile (s : LogFiles) (now : Nat) : LogFiles × Bool :=
  let filename := getLogFileName s.basename now
  let start := now / kRollPerSeconds * kRollPerSeconds
  if now > s.lastRoll then
    ({ s.close with
      lastRoll := now, lastFlush := now, startOfPeriod := start
      file := some (.open filename) }, true)
  else (s, false)

/-- The constructor. -/
def new (basename : List Byte) (threadSafe : Bool) (now : Nat) (disk : List Byte → List Byte) :
    LogFiles :=
  let s : LogFiles := ⟨basename, threadSafe, 0, 0, 0, none, disk, []⟩
  (s.rollFile now).1

/-- `flush()`, on the file `f`. -/
def flush (s : LogFiles) (f : Stream) : LogFiles := if s.mutex then s.fflush f else s

end LogFiles

/-- The calls of a `LogFile`, and what stdio does by itself. -/
inductive LogFileStep where
  | append (data : List Byte)
  | flush
  | rollFile (now : Nat)
  | writeOut (count : Nat)

namespace LogFiles

/-- The calls, one after another, and at any time between them a part of the stream goes out. -/
inductive Step : LogFiles → LogFileStep → LogFiles → Prop where
  /-- `append` returns, whatever the calls of `fwrite_unlocked` accept. -/
  | append {s : LogFiles} {f : Stream} {a : AppendFile} {calls : Nat → Fwrite} {data : List Byte}
      {fuel : Nat} (hf : s.file = some f) (ha : f.append calls data fuel = some a) :
      Step s (.append data) { s with file := some { f with toAppendFile := a } }
  | flush {s : LogFiles} {f : Stream} (hf : s.file = some f) : Step s .flush (s.flush f)
  | rollFile {s : LogFiles} (now : Nat) : Step s (.rollFile now) (s.rollFile now).1
  | writeOut {s : LogFiles} {f : Stream} (count : Nat) (hf : s.file = some f) :
      Step s (.writeOut count) (s.writeOut f count)

end LogFiles

/-- A `LogFile` made after the Epoch, so that `rollFile` in the constructor opens a file: it does
only if the time is later than `_lastRoll`, which is 0. -/
def logFileMachine (disk : List Byte → List Byte) : Machine LogFiles LogFileStep where
  init s := ∃ basename threadSafe now, 0 < now ∧ (gmtime now).FourDigitYear ∧
    s = .new basename threadSafe now disk
  step := LogFiles.Step

/-- What `append` was called with. -/
def LogFileStep.data : LogFileStep → List Byte
  | .append data => data
  | _ => []

/-- The data of a run, in order. -/
def logged (tr : List (LogFiles × LogFileStep)) : List Byte := tr.flatMap fun p => p.2.data

namespace LogFiles

/-- The year of the clock's answer has four digits. -/
def Timely (_ : LogFiles) (l : LogFileStep) : Prop :=
  ∀ now, l = .rollFile now → (gmtime now).FourDigitYear

/-- What has become of the data logged when `f` is the file and the disk was `disk`. -/
structure Kept (s : LogFiles) (f : Stream) (disk : List Byte → List Byte) (data : List Byte) :
    Prop where
  file : s.file = some f
  /-- No file is named twice, and the names are in the order of the files. -/
  names : (s.closed.map Prod.fst ++ [f.name]).Pairwise (· < ·)
  /-- The files together got all that was logged, in order. -/
  data : (s.closed.map Prod.snd).flatten ++ f.accepted = data
  /-- A file no longer written holds its part, behind what it held before. -/
  closed : ∀ p ∈ s.closed, s.disk p.1 = disk p.1 ++ p.2
  /-- So does the last, but for what is still in the stream. -/
  last : s.disk f.name ++ f.accepted.drop f.written = disk f.name ++ f.accepted
  /-- No other file is touched. -/
  others : ∀ name, name ∉ s.closed.map Prod.fst → name ≠ f.name → s.disk name = disk name

/-- Moreover the file has the name of the last roll. -/
structure Sound (s : LogFiles) (f : Stream) (disk : List Byte → List Byte) (data : List Byte) :
    Prop extends s.Kept f disk data where
  written_le : f.written ≤ f.accepted.length
  name_eq : f.name = getLogFileName s.basename s.lastRoll
  year : (gmtime s.lastRoll).FourDigitYear

variable {s t : LogFiles} {f : Stream} {disk : List Byte → List Byte} {data : List Byte}
  {l : LogFileStep}

/-! ### What the calls keep -/

/-- The name of the file is not that of one closed before. -/
theorem notMem_names (h : s.Kept f disk data) : f.name ∉ s.closed.map Prod.fst := by
  intro hmem
  exact List.lt_irrefl f.name
    ((List.pairwise_append.mp h.names).2.2 f.name hmem f.name (List.mem_singleton_self _))

/-- The file after as many bytes have been written out. -/
def wroteOut (f : Stream) (count : Nat) : Stream :=
  { f with written := f.written + ((f.accepted.drop f.written).take count).length }

/-- What stdio writes by itself is a part of what it holds. -/
theorem Sound.writeOut (h : s.Sound f disk data) (count : Nat) :
    (s.writeOut f count).Sound (wroteOut f count) disk data where
  file := rfl
  names := h.names
  data := h.data
  closed := fun p hp => by
    have hne : p.1 ≠ f.name := fun heq =>
      notMem_names h.toKept (heq ▸ List.mem_map_of_mem hp)
    simp only [LogFiles.writeOut, Function.update_of_ne hne]
    exact h.closed p hp
  last := by
    have htake : (f.accepted.drop f.written).take count ++
        f.accepted.drop (f.written + ((f.accepted.drop f.written).take count).length) =
          f.accepted.drop f.written := by
      rw [← List.drop_drop, List.length_take, List.take_eq_take_min, List.take_append_drop]
    simp only [LogFiles.writeOut, wroteOut, Function.update_self, List.append_assoc]
    rw [htake]
    exact h.last
  others := fun name hclosed hne => by
    have hne' : name ≠ f.name := hne
    simp only [LogFiles.writeOut, Function.update_of_ne hne']
    exact h.others name hclosed hne
  written_le := by
    simp only [wroteOut, List.length_take, List.length_drop]
    have := h.written_le
    omega
  name_eq := h.name_eq
  year := h.year

/-- `append` returns with all of the data in the stream. -/
theorem accepted_append {a b : AppendFile} {calls : Nat → Fwrite} {bytes : List Byte} {fuel : Nat}
    (ha : a.append calls bytes fuel = some b) : b.accepted = a.accepted ++ bytes := by
  have hzero : 0 = min (AppendFile.roomOf calls 0) bytes.length := by simp [AppendFile.roomOf]
  simpa using (AppendFile.appendLoop_spec hzero ha).2.1

theorem Sound.append (h : s.Sound f disk data) {a : AppendFile} {bytes : List Byte}
    (ha : a.accepted = f.accepted ++ bytes) :
    { s with file := some { f with toAppendFile := a } }.Sound { f with toAppendFile := a } disk
      (data ++ bytes) where
  file := rfl
  names := h.names
  data := by rw [ha, ← List.append_assoc, h.data]
  closed := h.closed
  last := by
    rw [ha, List.drop_append_of_le_length h.written_le, ← List.append_assoc, h.last,
      List.append_assoc]
  others := h.others
  written_le := by
    rw [ha, List.length_append]
    exact Nat.le_add_right_of_le h.written_le
  name_eq := h.name_eq
  year := h.year

/-- All of the file is written out. -/
theorem Sound.fflush (h : s.Sound f disk data) :
    (s.fflush f).disk f.name = disk f.name ++ f.accepted := by
  have hlast := (h.writeOut f.accepted.length).last
  have hall : (wroteOut f f.accepted.length).accepted.drop
      (wroteOut f f.accepted.length).written = [] := by
    simp only [wroteOut, List.length_take, List.length_drop]
    exact List.drop_eq_nil_of_le (by omega)
  rw [hall, List.append_nil] at hlast
  exact hlast

/-- The file is closed, and one of a later name opened. -/
theorem Sound.roll (h : s.Sound f disk data) {now start : Nat} (hlt : s.lastRoll < now)
    (hnow : (gmtime now).FourDigitYear) :
    { s.fflush f with
      closed := s.closed ++ [(f.name, f.accepted)]
      lastRoll := now, lastFlush := now, startOfPeriod := start
      file := some (.open (getLogFileName s.basename now)) }.Sound
        (.open (getLogFileName s.basename now)) disk data := by
  have hflush := h.writeOut f.accepted.length
  have hname : f.name < getLogFileName s.basename now := by
    rw [h.name_eq]
    exact getLogFileName_lt h.year hnow hlt
  have hlater : ∀ name ∈ s.closed.map Prod.fst, name < getLogFileName s.basename now :=
    fun name hmem => List.lt_trans
      ((List.pairwise_append.mp h.names).2.2 name hmem f.name (List.mem_singleton_self _)) hname
  have hnew : (s.fflush f).disk (getLogFileName s.basename now) =
      disk (getLogFileName s.basename now) := by
    refine hflush.others _ (fun hmem => ?_) fun heq => ?_
    · exact List.lt_irrefl _ (hlater _ hmem)
    · exact List.lt_irrefl _ (heq ▸ hname)
  constructor
  · constructor
    · rfl
    · rw [List.map_append, List.map_singleton]
      refine List.pairwise_append.mpr ⟨h.names, List.pairwise_singleton _ _, ?_⟩
      intro name hmem new hnew
      rw [List.mem_singleton.mp hnew]
      rcases List.mem_append.mp hmem with hmem | hmem
      · exact hlater name hmem
      · rw [List.mem_singleton.mp hmem]
        exact hname
    · have hdata := h.data
      simpa [Stream.open, AppendFile.new] using hdata
    · intro p hp
      rcases List.mem_append.mp hp with hp | hp
      · exact hflush.closed p hp
      · rw [List.mem_singleton.mp hp]
        exact h.fflush
    · exact congrArg (· ++ []) hnew
    · intro name hclosed _
      rw [List.map_append, List.map_singleton, List.mem_append, List.mem_singleton,
        not_or] at hclosed
      exact hflush.others name hclosed.1 hclosed.2
  · exact Nat.le_refl _
  · rfl
  · exact hnow

/-- Every step keeps the account of what was logged. -/
theorem step_sound (h : s.Sound f disk data) (hl : s.Timely l) (hstep : Step s l t) :
    ∃ f', t.Sound f' disk (data ++ l.data) := by
  cases hstep with
  | append hf ha =>
    cases h.file.symm.trans hf
    exact ⟨_, h.append (accepted_append ha)⟩
  | flush hf =>
    cases h.file.symm.trans hf
    change ∃ f', Sound _ f' disk (data ++ [])
    rw [List.append_nil, LogFiles.flush]
    split
    · exact ⟨_, h.writeOut _⟩
    · exact ⟨_, h⟩
  | rollFile now =>
    change ∃ f', Sound _ f' disk (data ++ [])
    have hclose : s.close = { s.fflush f with closed := s.closed ++ [(f.name, f.accepted)] } := by
      rw [close, h.file]
    rw [List.append_nil, rollFile]
    split
    · next hlt =>
      rw [hclose]
      exact ⟨_, h.roll hlt (hl now rfl)⟩
    · exact ⟨f, h⟩
  | writeOut count hf =>
    cases h.file.symm.trans hf
    change ∃ f', Sound _ f' disk (data ++ [])
    rw [List.append_nil]
    exact ⟨_, h.writeOut count⟩

/-- The constructor has opened the first file. -/
theorem sound_new {basename : List Byte} {threadSafe : Bool} {now : Nat} (hpos : 0 < now)
    (hnow : (gmtime now).FourDigitYear) :
    (new basename threadSafe now disk).Sound (.open (getLogFileName basename now)) disk [] := by
  have hnew : new basename threadSafe now disk = ⟨basename, threadSafe,
      now / kRollPerSeconds * kRollPerSeconds, now, now,
      some (.open (getLogFileName basename now)), disk, []⟩ := by
    simp only [new, rollFile, close]
    rw [if_pos hpos]
  rw [hnew]
  exact ⟨⟨rfl, List.pairwise_singleton _ _, rfl, by simp, rfl, fun _ _ _ => rfl⟩, Nat.le_refl _,
    rfl, hnow⟩

/-- So the account is right after every run. -/
theorem run_sound {tr : List (LogFiles × LogFileStep)} (h : (logFileMachine disk).Run s tr t)
    (hinit : (logFileMachine disk).init s) (htimely : Meets Timely tr) :
    ∃ f, t.Sound f disk (logged tr) := by
  induction h with
  | nil =>
    obtain ⟨basename, threadSafe, now, hpos, hnow, rfl⟩ := hinit
    exact ⟨_, sound_new hpos hnow⟩
  | @snoc tr u v l _ hst ih =>
    obtain ⟨htimely', hl⟩ := meets_snoc.mp htimely
    obtain ⟨f, hu⟩ := ih htimely'
    have hsnoc : logged (tr ++ [(u, l)]) = logged tr ++ l.data := by simp [logged]
    rw [hsnoc]
    exact step_sound hu hl hst

/-! ### The `LogFile` of `ThreadFunc` -/

/-- As `ThreadFunc` uses it. -/
def view (s : LogFiles) (f : Stream) : LogFile := ⟨s.mutex, f.accepted, f.written⟩

/-- `append` does what it does there. -/
theorem append_refines {a : AppendFile} {calls : Nat → Fwrite} {bytes : List Byte} {fuel : Nat}
    (ha : f.append calls bytes fuel = some a) :
    { s with file := some { f with toAppendFile := a } }.view { f with toAppendFile := a } =
      (s.view f).append bytes := by
  simp only [view, LogFile.append, LogFile.append_unlocked, accepted_append ha]

/-- So does `flush`. -/
theorem flush_refines (h : s.Sound f disk data) :
    ∃ f', (s.flush f).file = some f' ∧ (s.flush f).view f' = (s.view f).flush := by
  have hle := h.written_le
  have hview : (s.view f).mutex = s.mutex := rfl
  rw [flush, LogFile.flush, hview]
  split
  · refine ⟨wroteOut f f.accepted.length, rfl, ?_⟩
    simp only [view, wroteOut, fflush, writeOut, List.length_take, List.length_drop]
    congr 1
    omega
  · exact ⟨f, h.file, rfl⟩

end LogFiles

/-- **Nothing logged is lost, and no file is written twice.**  In every run of a `LogFile` made
after the Epoch, whatever the clock answers then (years of four digits), however often it is rolled
and whenever stdio writes out: the files have different names, in their order; together they got all
that was logged, in order; a file closed holds its part behind what it held before, and so does the
last but for what is still in its stream; no other file is touched. -/
theorem files_kept {disk : List Byte → List Byte} {s t : LogFiles}
    {tr : List (LogFiles × LogFileStep)} (hinit : (logFileMachine disk).init s)
    (h : (logFileMachine disk).Run s tr t) (htimely : Meets LogFiles.Timely tr) :
    ∃ f, t.Kept f disk (logged tr) := by
  obtain ⟨f, ht⟩ := LogFiles.run_sound h hinit htimely
  exact ⟨f, ht.toKept⟩

/-- The theorem for a file rolled once, and a clock that is put back then. -/
theorem files_kept_rolled : ∃ (t : LogFiles) (f : Stream), t.Kept f (fun _ => [1]) [97, 98] ∧
    t.closed = [(getLogFileName [120] 1700000000, [97])] ∧
    f.name = getLogFileName [120] 1700000060 := by
  let s₀ := LogFiles.new [120] false 1700000000 fun _ => [1]
  let f₀ := Stream.open (getLogFileName [120] 1700000000)
  let s₁ : LogFiles := { s₀ with file := some { f₀ with accepted := [97], writtenBytes := 1 } }
  let s₂ := (s₁.rollFile 1700000060).1
  let s₃ := (s₂.rollFile 1700000030).1
  let f₁ := Stream.open (getLogFileName [120] 1700000060)
  have htakes : ∀ (f : AppendFile) (c : Byte), f.append (fun _ => ⟨1, 0⟩) [c] 2 =
      some { f with accepted := f.accepted ++ [c], writtenBytes := f.writtenBytes + 1 } :=
    fun _ _ => rfl
  have happend : LogFiles.Step s₀ (.append [97]) s₁ := .append (f := f₀) rfl (htakes _ _)
  have happend' : LogFiles.Step s₃ (.append [98])
      { s₃ with file := some { f₁ with accepted := [98], writtenBytes := 1 } } :=
    .append (f := f₁) rfl (htakes _ _)
  have hrun := (((Machine.Run.nil (M := logFileMachine fun _ => [1])).snoc happend).snoc
    (LogFiles.Step.rollFile 1700000060)).snoc (LogFiles.Step.rollFile 1700000030)
  obtain ⟨f, hkept⟩ := files_kept ⟨[120], false, 1700000000, by decide, by decide, rfl⟩
    (hrun.snoc happend') (by simp [Meets, LogFiles.Timely]; decide)
  obtain rfl := Option.some.inj hkept.file
  exact ⟨_, _, hkept, rfl, rfl⟩

end Reactor.Log
