import Reactor.Net.WriteInterest

/-!
# Net — a fatal write error

What `sendInLoop` keeps of a message when the direct `::write` fails with `EPIPE` or `ECONNRESET`.
The flag that would drop it is assigned `false` in that branch too, so the whole message is
buffered like after `EWOULDBLOCK`, writable events are requested for it, and `handleWrite` leaves a
failing write where it is: the request is never withdrawn.

* `sendInLoop_fatal`: a direct write that fails for good keeps the message like any other.
* `keepsRequesting_iff`: when `handleWrite` goes on asking for writable events, however often its
  write fails.
* `fatalWrite_iff`: the output is left as it was for the empty message only.
-/

namespace Reactor.Net
open Reactor.Lib

/-- The errors after which a socket takes no more data. -/
def Errno.IsFatal (errno : Errno) : Prop := errno = .EPIPE ∨ errno = .ECONNRESET

namespace Conn

/-- `d` has the output of `c`: the same buffer, interest set and queued functors. -/
structure OutputUnchanged (c d : Conn) : Prop where
  outputBuffer : d.outputBuffer = c.outputBuffer
  channel : d.channel = c.channel
  queued : d.queued = c.queued

theorem OutputUnchanged.refl (c : Conn) : c.OutputUnchanged c := ⟨rfl, rfl, rfl⟩

/-- The branch of a fatal error resets `nwrote` and leaves `faultError` at `false`. -/
theorem directWrite_fatal (c : Conn) (data : List Byte) {errno : Errno} (he : errno.IsFatal) :
    c.directWrite data (.failed errno) = (c, 0, data.length, false) := by
  have hblock : errno ≠ .EWOULDBLOCK := by
    rcases he with rfl | rfl <;> simp
  rw [directWrite, if_pos ⟨hblock, he⟩]

/-- A fatal direct write leaves the message to `keepRemaining`, as a whole. -/
theorem WritesDirectly.sendInLoop_fatal {c : Conn} (h : c.WritesDirectly) (data : List Byte)
    {errno : Errno} (he : errno.IsFatal) : c.sendInLoop data (.failed errno) =
      if 0 < data.length then c.keepRemaining data 0 data.length else c := by
  rw [h.sendInLoop, c.directWrite_fatal data he]

/-- What is not written goes behind what is pending. -/
theorem keepRemaining_content (c : Conn) (data : List Byte) :
    (c.keepRemaining data 0 data.length).outputBuffer.content = c.outputBuffer.content ++ data := by
  simp [keepRemaining]

/-- `handleWrite` on a write that fails only logs. -/
theorem handleWrite_failed (c : Conn) (errno : Errno) : c.handleWrite (.failed errno) = c := by
  simp [handleWrite]

end Conn

/-! ### The drain handler on a dead socket -/

/-- A `handleWrite` whose write fails. -/
def ConnStep.DrainFails : ConnStep → Prop
  | .handleWrite (.failed _) => True
  | _ => False

/-- Failing drains change nothing, over any number of them. -/
theorem run_drainFails {c d : Conn} {tr : List (Conn × ConnStep)} (h : connMachine.Run c tr d)
    (hf : Meets (fun _ l => l.DrainFails) tr) : d = c := by
  refine h.keeps (I := (· = c)) ?_ hf rfl
  rintro u l v rfl hl ⟨-, rfl⟩
  match l, hl with
  | .handleWrite (.failed errno), _ => exact u.handleWrite_failed errno

/-- There are arbitrarily long runs of failing drains, of any error. -/
theorem exists_run_drainFails (c : Conn) (errno : Errno) (n : Nat) :
    ∃ tr, connMachine.Run c tr c ∧ tr.length = n ∧
      Meets (fun _ l => l.DrainFails) tr := by
  induction n with
  | zero => exact ⟨[], .nil, rfl, meets_nil _⟩
  | succ n ih =>
    obtain ⟨tr, hr, hlen, hf⟩ := ih
    have hs : connMachine.step c (.handleWrite (.failed errno)) c :=
      ⟨trivial, (c.handleWrite_failed errno).symm⟩
    exact ⟨_, hr.snoc hs, by simp [hlen], meets_snoc.mpr ⟨hf, trivial⟩⟩

/-- The connection still asks for writable events after any number of drains that all fail. -/
def Conn.KeepsRequesting (c : Conn) : Prop :=
  ∀ n, ∃ tr d, connMachine.Run c tr d ∧ tr.length = n ∧ Meets (fun _ l => l.DrainFails) tr ∧
    d.channel.isWriting = true

/-- Nothing but the interest set decides: no failing drain ever withdraws the request. -/
theorem Conn.keepsRequesting_iff (c : Conn) :
    c.KeepsRequesting ↔ c.channel.isWriting = true := by
  constructor
  · intro h
    obtain ⟨tr, d, hr, -, hf, hw⟩ := h 0
    rwa [run_drainFails hr hf] at hw
  · intro hw n
    obtain ⟨tr, hr, hlen, hf⟩ := exists_run_drainFails c .EPIPE n
    exact ⟨tr, c, hr, hlen, hf, hw⟩

/-! ### The message after the error -/

namespace Conn.WritesDirectly

variable {c : Conn} {errno : Errno}

/-- The output is as before exactly if there was nothing to keep. -/
theorem outputUnchanged_iff (h : c.WritesDirectly) (data : List Byte) (he : errno.IsFatal) :
    c.OutputUnchanged (c.sendInLoop data (.failed errno)) ↔ data = [] := by
  rw [h.sendInLoop_fatal data he]
  by_cases hpos : 0 < data.length
  · rw [if_pos hpos]
    constructor
    · intro hunchanged
      have hcontent := c.keepRemaining_content data
      rw [hunchanged.outputBuffer] at hcontent
      exact List.self_eq_append_right.mp hcontent
    · intro hnil
      exact absurd hnil (List.length_pos_iff.mp hpos)
  · rw [if_neg hpos]
    have hnil : data = [] := List.length_eq_zero_iff.mp (Nat.eq_zero_of_not_pos hpos)
    exact ⟨fun _ => hnil, fun _ => .refl c⟩

/-- Writable events are requested, and go on being requested, for every message kept. -/
theorem keepsRequesting_iff (h : c.WritesDirectly) (data : List Byte) (he : errno.IsFatal) :
    (c.sendInLoop data (.failed errno)).KeepsRequesting ↔ data ≠ [] := by
  rw [h.sendInLoop_fatal data he, Conn.keepsRequesting_iff, ← List.length_pos_iff]
  by_cases hpos : 0 < data.length
  · rw [if_pos hpos]
    exact ⟨fun _ => hpos, fun _ => by simp [keepRemaining]⟩
  · rw [if_neg hpos, h.2.1]
    exact iff_of_false Bool.false_ne_true hpos

end Conn.WritesDirectly

/-- **A fatal write error.**  When the direct write fails for good, `sendInLoop` leaves the output
buffer, the interest set and the queued functors as they were, with no run that keeps requesting
writable events, if and only if the message is empty; for any other message failing drains go on
requesting them, however many there are. -/
theorem fatalWrite_iff {c : Conn} (h : c.WritesDirectly) (data : List Byte) {errno : Errno}
    (he : errno.IsFatal) :
    (c.OutputUnchanged (c.sendInLoop data (.failed errno)) ∧
        ¬ (c.sendInLoop data (.failed errno)).KeepsRequesting ↔ data = []) ∧
      ((c.sendInLoop data (.failed errno)).KeepsRequesting ↔ data ≠ []) := by
  have hkeeps := h.keepsRequesting_iff data he
  refine ⟨?_, hkeeps⟩
  rw [h.outputUnchanged_iff data he, hkeeps, not_not, and_self]

theorem writesDirectly_connectEstablished (mark : Nat) (writeComplete highWater : Bool) :
    (Conn.new mark writeComplete highWater).connectEstablished.WritesDirectly := by
  refine ⟨by simp [Conn.connectEstablished, Conn.setState, Conn.invoke], ?_, ?_⟩
  · simp [Conn.connectEstablished, Conn.new, Conn.setState, Conn.invoke]
  · simp [Conn.connectEstablished, Conn.new, Conn.setState, Conn.invoke]

/-- The theorem on a broken pipe and a message of one byte. -/
theorem fatalWrite_iff_brokenPipe :
    let c := (Conn.new 8 true true).connectEstablished
    ¬ (c.OutputUnchanged (c.sendInLoop [1] (.failed .EPIPE)) ∧
        ¬ (c.sendInLoop [1] (.failed .EPIPE)).KeepsRequesting) := by
  intro c h
  have hiff := fatalWrite_iff (writesDirectly_connectEstablished 8 true true) [1]
    (show Errno.IsFatal .EPIPE from .inl rfl)
  exact absurd (hiff.1.mp h) (by simp)

/-- On a broken pipe the byte of a one-byte message is buffered, and writable events are requested
for it whatever the number of failing drains: the connection is as any other reachable one. -/
theorem sendInLoop_brokenPipe_keeps :
    ∃ c : Conn, connMachine.Reachable c ∧ c.WritesDirectly ∧
      c.outputBuffer.content = [] ∧
      (c.sendInLoop [1] (.failed .EPIPE)).outputBuffer.content = [1] ∧
      ¬ c.OutputUnchanged (c.sendInLoop [1] (.failed .EPIPE)) ∧
      (c.sendInLoop [1] (.failed .EPIPE)).KeepsRequesting := by
  have hdirect := writesDirectly_connectEstablished 8 true true
  have hreach : connMachine.Reachable (Conn.new 8 true true).connectEstablished := by
    have hinit : connMachine.init (Conn.new 8 true true) := ⟨8, true, true, rfl⟩
    have hstep : connMachine.step (Conn.new 8 true true) .connectEstablished
        (Conn.new 8 true true).connectEstablished := ⟨trivial, rfl⟩
    exact (Machine.Reachable.of_init hinit).run (.one hstep)
  have hempty : (Conn.new 8 true true).connectEstablished.outputBuffer.content = [] :=
    ValidBuffer.content_new _
  refine ⟨_, hreach, hdirect, hempty, ?_, ?_, ?_⟩
  · rw [hdirect.sendInLoop_fatal [1] (.inl rfl), if_pos (by decide), Conn.keepRemaining_content,
      hempty, List.nil_append]
  · rw [hdirect.outputUnchanged_iff [1] (.inl rfl)]
    simp
  · rw [hdirect.keepsRequesting_iff [1] (.inl rfl)]
    simp

end Reactor.Net
