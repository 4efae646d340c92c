import Reactor.Net.WriteInterest

/-!
# Net — the overloads of send

`TcpConnection::send` in the loop thread, for an area of memory and a length, for a string and for
a `Buffer`.  The first makes a `std::string` of the pointer alone, so it sends the bytes up to the
first NUL, whatever the length; where the area has no NUL, the constructor reads past its end, and
the result is `none`.

* `sendBuffer_fst`: a string and a buffer with the same bytes are sent alike.
* `sendsAgree_iff`: the three calls leave the same output if and only if the bytes are a C string.
-/

namespace Reactor.Net

/-- `std::string(const char*)` on an area of memory: the bytes before its first NUL. -/
def cString : List Byte → Option (List Byte)
  | [] => none
  | x :: area => if x = 0 then some [] else (cString area).map (x :: ·)

theorem cString_eq_some {area s : List Byte} :
    cString area = some s ↔ 0 ∉ s ∧ ∃ more, area = s ++ 0 :: more := by
  induction area generalizing s with
  | nil => simp [cString]
  | cons x area ih =>
    by_cases hx : x = 0
    · subst hx
      cases s with
      | nil => simp [cString]
      | cons y s =>
        simp only [cString, if_true, Option.some.injEq, reduceCtorEq, false_iff, List.cons_append,
          List.cons.injEq, List.mem_cons, not_or]
        rintro ⟨⟨hy, -⟩, more, rfl, -⟩
        exact hy rfl
    · cases s with
      | nil => simp [cString, hx]
      | cons y s =>
        simp only [cString, if_neg hx, Option.map_eq_some_iff, List.cons.injEq, List.cons_append,
          List.mem_cons, not_or]
        constructor
        · rintro ⟨s', hs', rfl, rfl⟩
          obtain ⟨hmem, more, rfl⟩ := ih.mp hs'
          exact ⟨⟨Ne.symm hx, hmem⟩, more, rfl, rfl⟩
        · rintro ⟨⟨-, hmem⟩, more, rfl, rfl⟩
          exact ⟨s, ih.mpr ⟨hmem, more, rfl⟩, rfl, rfl⟩

namespace Conn

/-- `send(const std::string&)` in the loop thread; `r` is the result of the direct write, if there
is one. -/
def sendString (c : Conn) (buf : List Byte) (r : WriteResult) : Conn :=
  if c.state = .kConnected then c.sendInLoop buf r else c

/-- `send(const void*, int)` on an area of memory; the length is not used. -/
def sendMemory (c : Conn) (message : List Byte) (_len : Int) (r : WriteResult) : Option Conn :=
  (cString message).map fun s => c.sendString s r

/-- `send(Buffer*)` in the loop thread: the connection, and the buffer. -/
def sendBuffer (c : Conn) (buf : ValidBuffer) (r : WriteResult) : Conn × ValidBuffer :=
  if c.state = .kConnected then (c.sendInLoop buf.content r, buf.rertrieveAll) else (c, buf)

/-- The same bytes written to the kernel, the same pending output and the same write interest. -/
structure SameOutput (c d : Conn) : Prop where
  accepted : c.accepted = d.accepted
  outputBuffer : c.outputBuffer.content = d.outputBuffer.content
  isWriting : c.channel.isWriting = d.channel.isWriting

theorem SameOutput.refl (c : Conn) : c.SameOutput c := ⟨rfl, rfl, rfl⟩

theorem SameOutput.outputStream {c d : Conn} (h : c.SameOutput d) :
    c.outputStream = d.outputStream := by
  rw [Conn.outputStream, Conn.outputStream, h.accepted, h.outputBuffer]

/-- The three calls on the bytes `data` leave the same output: on an area of memory, on a string,
and on a buffer that holds them. -/
def SendsAgree (c : Conn) (data area : List Byte) (buf : ValidBuffer) (r : WriteResult) : Prop :=
  (∃ d, c.sendMemory area data.length r = some d ∧ d.SameOutput (c.sendString data r)) ∧
    (c.sendBuffer buf r).1.SameOutput (c.sendString data r)

/-- A string and a buffer with the same bytes are sent alike. -/
theorem sendBuffer_fst (c : Conn) (buf : ValidBuffer) (r : WriteResult) :
    (c.sendBuffer buf r).1 = c.sendString buf.content r := by
  rw [sendBuffer, sendString]
  split
  · rfl
  · rfl

/-- More than it was offered counts as all of it. -/
theorem sendInLoop_wrote_of_le (c : Conn) {data : List Byte} {n : Nat} (h : data.length ≤ n) :
    c.sendInLoop data (.wrote n) = c.sendInLoop data (.wrote data.length) := by
  by_cases hd : c.WritesDirectly
  · rw [hd.sendInLoop, hd.sendInLoop]
    simp [directWrite, Nat.sub_eq_zero_of_le h, List.take_of_length_le h]
  · exact sendInLoop_of_not_direct hd data _ _

/-- The stream after a message, whatever the result of `::write`. -/
theorem sendString_outputStream {c : Conn} (hs : c.state = .kConnected) (data : List Byte)
    (r : WriteResult) : (c.sendString data r).outputStream = c.outputStream ++ data := by
  have hne : c.state ≠ .kDisconnected := by simp [hs]
  rw [sendString, if_pos hs]
  cases r with
  | failed errno => exact c.sendInLoop_outputStream trivial hne
  | wrote n =>
    rcases Nat.le_total n data.length with hle | hle
    · exact c.sendInLoop_outputStream hle hne
    · rw [c.sendInLoop_wrote_of_le hle]
      exact c.sendInLoop_outputStream (Nat.le_refl data.length) hne

/-- Different messages make different output. -/
theorem SameOutput.message_eq {c : Conn} (hs : c.state = .kConnected) {s data : List Byte}
    {r : WriteResult} (h : (c.sendString s r).SameOutput (c.sendString data r)) : s = data := by
  have hstream := h.outputStream
  rw [sendString_outputStream hs, sendString_outputStream hs] at hstream
  exact List.append_cancel_left hstream

/-- **When the overloads agree.**  On a connected connection, for the same result of `::write`,
sending an area of memory, a string and a buffer leave the same bytes written, the same
`_outputBuffer` and the same write interest if and only if there is no NUL among the bytes and one
behind them in the area. -/
theorem sendsAgree_iff {c : Conn} (hs : c.state = .kConnected) {data area : List Byte}
    {buf : ValidBuffer} (hbuf : buf.content = data) (r : WriteResult) :
    c.SendsAgree data area buf r ↔ 0 ∉ data ∧ ∃ more, area = data ++ 0 :: more := by
  rw [← cString_eq_some]
  constructor
  · rintro ⟨⟨d, hd, hsame⟩, -⟩
    obtain ⟨s, harea, rfl⟩ := Option.map_eq_some_iff.mp hd
    rw [harea, hsame.message_eq hs]
  · intro harea
    refine ⟨⟨c.sendString data r, by rw [sendMemory, harea]; rfl, .refl _⟩, ?_⟩
    rw [sendBuffer_fst, hbuf]
    exact .refl _

/-- A connection just established. -/
def established : Conn := (new 64 false false).connectEstablished

/-- The theorem on a byte with a NUL behind it. -/
theorem sendsAgree_text :
    established.SendsAgree [65] [65, 0] ((ValidBuffer.new 16).append [65]) (.wrote 1) :=
  (sendsAgree_iff rfl (by simp) (.wrote 1)).mpr ⟨by decide, [], rfl⟩

/-- Three bytes, the second of them NUL, with a NUL behind them: the first overload sends one. -/
theorem sendMemory_nul : ¬ ∀ (c : Conn) (data area : List Byte) (buf : ValidBuffer)
    (r : WriteResult), c.state = .kConnected → data <+: area → buf.content = data →
      r.Fits data.length → (∀ s, cString area = some s → r.Fits s.length) →
      c.SendsAgree data area buf r := by
  intro hagree
  have harea : cString [65, 0, 66, 0] = some [65] := by decide
  obtain ⟨⟨d, hd, hsame⟩, -⟩ := hagree established [65, 0, 66] [65, 0, 66, 0]
    ((ValidBuffer.new 16).append [65, 0, 66]) (.wrote 0) rfl ⟨[0], rfl⟩ (by simp)
    (Nat.zero_le _) fun s _ => Nat.zero_le _
  rw [sendMemory, harea] at hd
  cases hd
  have := hsame.message_eq rfl
  simp at this

end Conn

end Reactor.Net
