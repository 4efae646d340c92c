import Reactor.Log.Header

/-!
# Log — Logger

The constructors of `Logger`, the insertions of its user, and `Impl::finish`, which its destructor
calls.  `finish` inserts five pieces, and the stream takes or refuses each of them by itself.  So a
record that leaves the stream two bytes of room for the last three pieces gets its colon, and not
its newline.

* `trailer_ends_iff`: when the last three pieces end the record.
* `finish_ends_iff`: `finish` ends the record if and only if it leaves room for the newline, or the
  record has ended before it.
* `record_ends_iff`: the same for every record.
-/

namespace Reactor.Log
open Reactor.Lib

/-- `Logger::LogLevel` -/
inductive LogLevel where
  | TRACE
  | DEBUG
  | INFO
  | WARN
  | ERROR
  | FATAL
  deriving DecidableEq, Repr

/-- The array of a literal, with its null. -/
def literalArray (cs : List Char) : List Byte := literal cs ++ [0]

/-- The names of the levels, as arrays of seven bytes or six. -/
def LogLevelName : LogLevel → List Byte
  | .TRACE => literalArray ['T', 'R', 'A', 'C', 'E', ' ']
  | .DEBUG => literalArray ['D', 'E', 'B', 'U', 'G', ' ']
  | .INFO => literalArray ['I', 'N', 'F', 'O', ' ']
  | .WARN => literalArray ['W', 'A', 'R', 'N', ' ']
  | .ERROR => literalArray ['E', 'R', 'R', 'O', 'R', ' ']
  | .FATAL => literalArray ['F', 'A', 'T', 'A', 'L', ' ']

/-- A literal, inserted as the pointer it is. -/
def Insertion.literal (cs : List Char) : Insertion := .pointer (some (literalArray cs))

/-- A value of type `int`. -/
def Integer.ofInt (v : Int32) : Integer :=
  ⟨.int, v.toInt, v.minValue_le_toInt, Int.le_sub_one_of_lt v.toInt_lt⟩

/-- An `int`. -/
def Insertion.int (v : Int32) : Insertion := .integer (.ofInt v)

/-! ### The source file -/

/-- `SourceFile`: `_size` bytes at `_data`. -/
structure SourceFile where
  data : List Byte
  size : Int
  size_le : size ≤ data.length

namespace SourceFile

/-- `strchr(str, '/') + 1 - str`, if there is a slash. -/
def afterSlash (memory : List Byte) : Option Nat :=
  ((cString memory).findIdx? (· = 47)).map (· + 1)

/-- The constructor from an array, which is as long as its type says. -/
def ofArray (arr : List Byte) : SourceFile :=
  match afterSlash arr with
  | some n => ⟨arr.drop n, arr.length - 1 - n, by rw [List.length_drop]; omega⟩
  | none => ⟨arr, arr.length - 1, Int.sub_le_self _ (by decide)⟩

/-- `operator<<`, which is that of a `charStream`. -/
def insertion (file : SourceFile) : Insertion := .charStream ⟨file.data, file.size, file.size_le⟩

end SourceFile

/-! ### The logger -/

/-- What a logger finds when it is made. -/
structure Surroundings where
  localtime : Int → Tm
  t_time : { array : List Byte // array.length = 64 }
  /-- `Timestamp::now()` -/
  now : Int
  errno : Int32
  /-- The memory `strerror_r` returns a pointer to. -/
  strerror_r : Int32 → List Byte
  /-- What is in the memory of the stream. -/
  memory : { array : List Byte // array.length = kSmallBuffer }

/-- `Logger::Impl` -/
structure Impl where
  stream : LogStream
  level : LogLevel
  line : Int32
  basename : SourceFile

namespace Impl

/-- `_stream << …` -/
def inserts (impl : Impl) (is : List Insertion) : Option Impl :=
  (impl.stream.inserts is).map fun stream => { impl with stream }

/-- The constructor. -/
def new (env : Surroundings) (level : LogLevel) (savedErrno : Int32) (file : SourceFile)
    (line : Int32) : Option Impl := do
  let impl : Impl := ⟨.new env.memory.1 env.memory.2, level, line, file⟩
  let impl ← impl.inserts (formatTime env.localtime env.t_time env.now)
  let impl ← impl.inserts [.append ((LogLevelName level).take 6)]
  if savedErrno ≠ 0 then
    impl.inserts [.pointer (some (env.strerror_r savedErrno)),
      .literal [' ', '(', 'e', 'r', 'r', 'n', 'o', ' ', '='], .int savedErrno, .literal [')', ' ']]
  else some impl

/-- `finish()`: the source file, the line number and the end of the line. -/
def finish (impl : Impl) : Option Impl :=
  impl.inserts [.literal [' ', '-', ' '], impl.basename.insertion, .char 58, .int impl.line,
    .char 10]

end Impl

/-- The constructors of `Logger`, past the file and the line. -/
inductive Constructor where
  | default
  | level (level : LogLevel)
  | func (level : LogLevel) (func : Option (List Byte))
  | toAbort (toAbort : Bool)

/-- `Logger::Logger` -/
def Constructor.run (env : Surroundings) (file : SourceFile) (line : Int32) :
    Constructor → Option Impl
  | .default => Impl.new env .INFO 0 file line
  | .level logLevel => Impl.new env logLevel 0 file line
  | .func logLevel name => do
    let impl ← Impl.new env logLevel 0 file line
    impl.inserts [.pointer name, .char 32]
  | .toAbort abort => Impl.new env (if abort then .FATAL else .ERROR) env.errno file line

/-! ### The end of a record -/

/-- The last byte is a newline. -/
def EndsLine (text : List Byte) : Prop := text.getLast? = some 10

/-- Whether a text is one line can be computed. -/
instance (text : List Byte) : Decidable (EndsLine text) := inferInstanceAs (Decidable (_ = _))

/-- Whether a text ends a line is seen at its end. -/
theorem endsLine_append (s : List Byte) {t : List Byte} (ht : t ≠ []) :
    EndsLine (s ++ t) ↔ EndsLine t := by
  rw [EndsLine, EndsLine, List.getLast?_append_of_ne_nil s ht]

theorem not_endsLine_nil : ¬ EndsLine [] := by decide

namespace Insertion

theorem taken_cons_of {room : Nat} {i : Insertion} (h : i.Accepted room) (is : List Insertion) :
    taken room (i :: is) = i.text ++ taken (room - i.text.length) is := by
  rw [taken, roomAfter, if_pos h, if_pos h]

theorem taken_cons_of_not {room : Nat} {i : Insertion} (h : ¬ i.Accepted room)
    (is : List Insertion) : taken room (i :: is) = taken room is := by
  rw [taken, roomAfter, if_neg h, if_neg h, List.nil_append]

theorem roomAfter_append {room : Nat} {data : List Byte} (h : data.length < room) :
    (Insertion.append data).roomAfter room = room - data.length := if_pos h

theorem roomAfter_string {room : Nat} {str : List Byte} (h : str.length < room) :
    (Insertion.string str).roomAfter room = room - str.length := if_pos h

theorem roomAfter_le (room : Nat) (i : Insertion) : i.roomAfter room ≤ room := by
  rw [roomAfter]
  split
  · exact Nat.sub_le _ _
  · exact Nat.le_refl _

/-- A character is taken where there are two bytes of room. -/
theorem accepted_char {room : Nat} (c : Byte) : (Insertion.char c).Accepted room ↔ 1 < room :=
  Iff.rfl

theorem not_accepted_int {room : Nat} (v : Int32) (h : room < kMaxNumericSize) :
    ¬ (Insertion.int v).Accepted room := Nat.not_le.mpr h

/-- A line number leaves most of the room it asks for. -/
theorem lt_roomAfter_int {room : Nat} (v : Int32) (h : 1 < room) :
    1 < (Insertion.int v).roomAfter room := by
  have hlen : (signed v.toInt).length ≤ 20 + 1 :=
    length_signed_le (by decide) (Integer.ofInt v).natAbs_lt
  rw [roomAfter]
  split
  · next haccepted =>
    have hroom : 48 ≤ room := haccepted
    change 1 < room - (signed v.toInt).length
    omega
  · exact h

end Insertion

open Insertion in
/-- **The last three pieces** end the record if there is room for three bytes.  With two, the colon
is the last that is taken; with one, nothing is. -/
theorem trailer_ends_iff {room : Nat} (hroom : 0 < room) (s : List Byte) (line : Int32) :
    EndsLine (s ++ taken room [.char 58, .int line, .char 10]) ↔
      2 < room ∨ (room = 1 ∧ EndsLine s) := by
  by_cases hcolon : 1 < room
  · rw [taken_cons_of ((accepted_char 58).mpr hcolon)]
    change EndsLine (s ++ ([58] ++ taken (room - 1) [.int line, .char 10])) ↔ _
    by_cases htwo : 2 < room
    · -- whether or not the line is taken, there is room for the newline
      have hlast : (Insertion.char 10).Accepted ((Insertion.int line).roomAfter (room - 1)) :=
        (accepted_char 10).mpr (lt_roomAfter_int line (by omega))
      rw [taken, taken_cons_of hlast, ← List.append_assoc, ← List.append_assoc]
      exact iff_of_true ((endsLine_append _ (List.cons_ne_nil 10 [])).mpr rfl) (.inl htwo)
    · obtain rfl : room = 2 := by omega
      have hline : ¬ (Insertion.int line).Accepted 1 := not_accepted_int line (by decide)
      rw [taken_cons_of_not hline, taken_cons_of_not ((accepted_char 10).not.mpr (by decide)),
        endsLine_append s (by simp [taken])]
      exact iff_of_false (by decide) (by omega)
  · obtain rfl : room = 1 := by omega
    have hline : ¬ (Insertion.int line).Accepted 1 := not_accepted_int line (by decide)
    rw [taken_cons_of_not ((accepted_char 58).not.mpr (by decide)), taken_cons_of_not hline,
      taken_cons_of_not ((accepted_char 10).not.mpr (by decide)), taken, List.append_nil]
    simp

/-- `" - "`, before the base name. -/
abbrev dash : Insertion := .literal [' ', '-', ' ']

theorem accepted_dash {room : Nat} : dash.Accepted room ↔ 3 < room := Iff.rfl

/-- The room there is after the dash and the base name. -/
def roomAfterName (room : Nat) (file : SourceFile) : Nat :=
  file.insertion.roomAfter (dash.roomAfter room)

/-- A piece ends the line, if it is taken; if it is not, or is empty, the text before does. -/
theorem endsLine_taken (room : Nat) (s : List Byte) (i : Insertion) :
    EndsLine (s ++ Insertion.taken room [i]) ↔
      (¬ (i.Accepted room ∧ i.text ≠ []) ∧ EndsLine s) ∨ (i.Accepted room ∧ EndsLine i.text) := by
  rw [Insertion.taken, Insertion.taken, List.append_nil]
  by_cases htaken : i.Accepted room ∧ i.text ≠ []
  · rw [if_pos htaken.1, endsLine_append s htaken.2]
    simp [htaken]
  · have hadds : (if i.Accepted room then i.text else []) = [] := by
      split
      · next haccepted => exact not_not.mp fun hne => htaken ⟨haccepted, hne⟩
      · rfl
    have hnot : ¬ (i.Accepted room ∧ EndsLine i.text) := by
      rintro ⟨haccepted, hends⟩
      exact htaken ⟨haccepted, fun hnil => not_endsLine_nil (hnil ▸ hends)⟩
    rw [hadds, List.append_nil, and_iff_right htaken, or_iff_left hnot]

/-- The dash does not end a line. -/
theorem name_ends_iff {room : Nat} {file : SourceFile} (h : roomAfterName room file = 1)
    (s : List Byte) : EndsLine (s ++ Insertion.taken room [dash, file.insertion]) ↔
      (room = 1 ∧ EndsLine s) ∨
        (file.insertion.Accepted (dash.roomAfter room) ∧ EndsLine file.insertion.text) := by
  by_cases hdash : dash.Accepted room
  · have hroom : 3 < room := accepted_dash.mp hdash
    have hafter : dash.roomAfter room = room - 3 := if_pos hdash
    have hends : ¬ EndsLine (s ++ dash.text) := by
      rw [endsLine_append s (by decide)]
      decide
    have hone : ¬ (room = 1 ∧ EndsLine s) := by omega
    rw [Insertion.taken_cons_of hdash, hafter, ← List.append_assoc, endsLine_taken,
      or_iff_right hone]
    exact or_iff_right fun hbefore => hends hbefore.2
  · have hafter : dash.roomAfter room = room := if_neg hdash
    rw [roomAfterName, hafter, Insertion.roomAfter] at h
    rw [Insertion.taken_cons_of_not hdash, hafter, endsLine_taken]
    -- the base name takes room unless it is refused or empty
    have hone : room = 1 ↔ ¬ (file.insertion.Accepted room ∧ file.insertion.text ≠ []) := by
      rw [← List.length_pos_iff]
      split at h
      · next hname =>
        rw [and_iff_right hname]
        omega
      · next hname => exact iff_of_true h fun htaken => hname htaken.1
    rw [hone]

/-! ### Every record -/

namespace Impl

/-- What the newline depends on, before `finish`: three bytes of room are left after the base name;
or there is one byte, and the text before it ends the line. -/
def EndsRecord (impl : Impl) : Prop :=
  let room := impl.stream.avail
  2 < roomAfterName room impl.basename ∨ (room = 1 ∧ EndsLine impl.stream.held) ∨
    (roomAfterName room impl.basename = 1 ∧
      impl.basename.insertion.Accepted (dash.roomAfter room) ∧
        EndsLine impl.basename.insertion.text)

/-- **`finish`** ends the record just when there is room for it, or it has ended. -/
theorem finish_ends_iff {impl : Impl} (hroom : 0 < impl.stream.avail) :
    ∃ impl', impl.finish = some impl' ∧ (EndsLine impl'.stream.held ↔ impl.EndsRecord) := by
  obtain ⟨stream, he, hheld, -⟩ := impl.stream.inserts_spec
    ([dash, impl.basename.insertion] ++ [.char 58, .int impl.line, .char 10])
  refine ⟨{ impl with stream }, ?_, ?_⟩
  · rw [finish, inserts]
    exact congrArg (Option.map _) he
  · have hafter : 0 < roomAfterName impl.stream.avail impl.basename :=
      Insertion.roomAfter_pos (Insertion.roomAfter_pos hroom _) _
    change EndsLine stream.held ↔ _
    rw [hheld, Insertion.taken_append, ← List.append_assoc]
    change EndsLine (_ ++ Insertion.taken (roomAfterName impl.stream.avail impl.basename) _) ↔ _
    rw [trailer_ends_iff hafter]
    refine or_congr Iff.rfl ⟨?_, ?_⟩
    · rintro ⟨hone, hends⟩
      rcases (name_ends_iff hone _).mp hends with hbefore | hname
      · exact .inl hbefore
      · exact .inr ⟨hone, hname⟩
    · rintro (⟨hone, hends⟩ | ⟨hone, hname⟩)
      · -- with one byte of room nothing but an empty base name is taken
        have hone' : roomAfterName impl.stream.avail impl.basename = 1 := by
          have hle : roomAfterName impl.stream.avail impl.basename ≤ impl.stream.avail :=
            Nat.le_trans (Insertion.roomAfter_le _ _) (Insertion.roomAfter_le _ _)
          omega
        exact ⟨hone', (name_ends_iff hone' _).mpr (.inl ⟨hone, hends⟩)⟩
      · exact ⟨hone, (name_ends_iff hone _).mpr (.inr hname)⟩

/-- A logger of this place in the source, with room left. -/
structure Open (file : SourceFile) (line : Int32) (impl : Impl) : Prop where
  basename_eq : impl.basename = file
  line_eq : impl.line = line
  room : 0 < impl.stream.avail

variable {file : SourceFile} {line : Int32}

/-- A stream that has room goes on having some. -/
theorem Open.inserts {impl : Impl} (h : impl.Open file line) (is : List Insertion) :
    ∃ impl', impl.inserts is = some impl' ∧ impl'.Open file line ∧
      impl'.stream.avail = is.foldl Insertion.roomAfter impl.stream.avail := by
  obtain ⟨stream, he, -, havail⟩ := impl.stream.inserts_spec is
  have hroom : ∀ (is : List Insertion) (room : Nat), 0 < room →
      0 < is.foldl Insertion.roomAfter room := by
    intro is
    induction is with
    | nil => exact fun _ h => h
    | cons i is ih => exact fun room h => ih _ (Insertion.roomAfter_pos h i)
  refine ⟨{ impl with stream }, ?_, ⟨h.basename_eq, h.line_eq, ?_⟩, havail⟩
  · rw [Impl.inserts, he]
    rfl
  · exact havail ▸ hroom is _ h.room

/-- The constructor leaves room for the rest of the record. -/
theorem new_open (env : Surroundings) (level : LogLevel) (savedErrno : Int32) (file : SourceFile)
    (line : Int32) : ∃ impl, new env level savedErrno file line = some impl ∧
      impl.Open file line ∧ (savedErrno = 0 → impl.stream.avail =
        (Insertion.append ((LogLevelName level).take 6)).roomAfter
          ((formatTime env.localtime env.t_time env.now).foldl Insertion.roomAfter
            kSmallBuffer)) := by
  have hopen : (⟨.new env.memory.1 env.memory.2, level, line, file⟩ : Impl).Open file line :=
    ⟨rfl, rfl, show 0 < kSmallBuffer by decide⟩
  obtain ⟨impl₁, he₁, hopen₁, havail₁⟩ :=
    hopen.inserts (formatTime env.localtime env.t_time env.now)
  obtain ⟨impl₂, he₂, hopen₂, havail₂⟩ :=
    hopen₁.inserts [.append ((LogLevelName level).take 6)]
  simp only [new, he₁, he₂, Option.bind_eq_bind, Option.bind_some]
  by_cases hsaved : savedErrno = 0
  · refine ⟨impl₂, if_neg (not_not.mpr hsaved), hopen₂, fun _ => havail₂.trans ?_⟩
    rw [havail₁]
    rfl
  · obtain ⟨impl₃, he₃, hopen₃, -⟩ := hopen₂.inserts _
    exact ⟨impl₃, (if_pos hsaved).trans he₃, hopen₃, fun h => absurd h hsaved⟩

end Impl

/-- So it does in each of the four forms of it. -/
theorem Constructor.run_open (env : Surroundings) (file : SourceFile) (line : Int32)
    (constructor : Constructor) :
    ∃ impl, constructor.run env file line = some impl ∧ impl.Open file line := by
  cases constructor with
  | default => exact (Impl.new_open _ _ _ _ _).imp fun _ h => ⟨h.1, h.2.1⟩
  | level logLevel => exact (Impl.new_open _ _ _ _ _).imp fun _ h => ⟨h.1, h.2.1⟩
  | func logLevel name =>
    obtain ⟨impl, he, hopen, -⟩ := Impl.new_open env logLevel 0 file line
    obtain ⟨impl', he', hopen', -⟩ := hopen.inserts [.pointer name, .char 32]
    refine ⟨impl', ?_, hopen'⟩
    rw [run, he]
    exact he'
  | toAbort abort => exact (Impl.new_open _ _ _ _ _).imp fun _ h => ⟨h.1, h.2.1⟩

/-- **Every record**: whichever way its logger is made and whatever is inserted into it, `finish`
returns, and the record ends with a newline if and only if there is room for it or it has ended
before. -/
theorem record_ends_iff (env : Surroundings) (file : SourceFile) (line : Int32)
    (constructor : Constructor) (is : List Insertion) :
    ∃ impl impl' : Impl, (constructor.run env file line).bind (·.inserts is) = some impl ∧
      impl.basename = file ∧ impl.line = line ∧ impl.finish = some impl' ∧
        (EndsLine impl'.stream.held ↔ impl.EndsRecord) := by
  obtain ⟨impl₀, he₀, hopen₀⟩ := constructor.run_open env file line
  obtain ⟨impl, he, hopen, -⟩ := hopen₀.inserts is
  obtain ⟨impl', he', hends⟩ := Impl.finish_ends_iff hopen.room
  exact ⟨impl, impl', by rw [he₀]; exact he, hopen.basename_eq, hopen.line_eq, he', hends⟩

/-! ### A record that is not ended -/

theorem length_printed (array text : List Byte) : (printed array text).length = array.length :=
  Memory.length_store _ _ _

/-- Whatever the time is, the header takes 24 bytes. -/
theorem foldl_formatTime (localtime : Int → Tm)
    (t_time : { array : List Byte // array.length = 64 }) (now : Int) :
    (formatTime localtime t_time now).foldl Insertion.roomAfter kSmallBuffer = 3976 := by
  have hdate : ((printed t_time (timeText (localtime
      (now.tdiv kMicroSecondsPerSecond)))).take 17).length = 17 :=
    List.length_take_of_le (by rw [length_printed, t_time.2]; decide)
  have hmicro : ((printed (List.replicate 32 0)
      (zeroPadded 6 (now.tmod kMicroSecondsPerSecond))).take 7).length = 7 :=
    List.length_take_of_le (by rw [length_printed, List.length_replicate]; decide)
  have hroom : (Insertion.append ((printed t_time (timeText (localtime
      (now.tdiv kMicroSecondsPerSecond)))).take 17)).roomAfter kSmallBuffer = 3983 := by
    rw [Insertion.roomAfter_append (by rw [hdate]; decide), hdate]
    rfl
  rw [formatTime, List.foldl_cons, List.foldl_cons, List.foldl_nil, hroom,
    Insertion.roomAfter_append (by rw [hmicro]; decide), hmicro]

/-- The first second of 1970, with nothing in memory. -/
def firstSecond : Surroundings where
  localtime := januaries
  t_time := zeroTime
  now := 0
  errno := 0
  strerror_r _ := [0]
  memory := ⟨zeroStream.data, zeroStream.length_data⟩

/-- A message that leaves two bytes for the colon, the line and the newline: the record ends with
the colon. -/
theorem record_runs_on : ∃ impl impl' : Impl,
    (Constructor.default.run firstSecond
      (.ofArray (literalArray ['m', 'a', 'i', 'n', '.', 'c', 'c'])) 7).bind
        (·.inserts [.string (List.replicate 3965 97)]) = some impl ∧
      impl.finish = some impl' ∧ ¬ EndsLine impl'.stream.held := by
  obtain ⟨impl₀, he₀, hopen₀, havail₀⟩ := Impl.new_open firstSecond .INFO 0
    (.ofArray (literalArray ['m', 'a', 'i', 'n', '.', 'c', 'c'])) 7
  obtain ⟨impl, he, hopen, havail⟩ := hopen₀.inserts [.string (List.replicate 3965 97)]
  obtain ⟨impl', he', hends⟩ := Impl.finish_ends_iff hopen.room
  refine ⟨impl, impl', by rw [Constructor.run, he₀]; exact he, he', ?_⟩
  have hroom : impl.stream.avail = 5 := by
    rw [havail, havail₀ rfl, foldl_formatTime, List.foldl_cons, List.foldl_nil,
      show (Insertion.append ((LogLevelName .INFO).take 6)).roomAfter 3976 = 3970 from rfl,
      Insertion.roomAfter_string (by rw [List.length_replicate]; decide), List.length_replicate]
  rw [hends, Impl.EndsRecord, hroom, hopen.basename_eq]
  rintro (hthree | ⟨hone, -⟩ | ⟨hone, -⟩)
  · exact absurd hthree (by decide)
  · exact absurd hone (by decide)
  · exact absurd hone (by decide)

end Reactor.Log
