import Reactor.Net.OutputStream

/-!
# Net — write interest

The channel asks for writable events exactly while `_outputBuffer` holds something.  The flag lives
in the channel and the bytes in the buffer; `WritesPending` says that they agree, and every
operation short of a close keeps it.

* `WritesPending.sendInLoop`, `WritesPending.handleWrite`: the two functions that change both.
* `handleWrite_shutdownWrites`: `handleWrite` shuts the write side down when it drains the buffer
  of a connection in `kDisconnecting`, and not otherwise.
* `isWriting_iff_pending`: over every run of an established connection up to its close.
-/

namespace Reactor.Net
open Reactor.Lib

namespace Conn

/-- The write interest agrees with the pending output. -/
def WritesPending (c : Conn) : Prop :=
  c.channel.isWriting = true ↔ c.outputBuffer.content ≠ []

/-- `handleWrite` on the result `r` empties the buffer. -/
def DrainedBy (c : Conn) : WriteResult → Prop
  | .wrote n => c.channel.isWriting = true ∧ 0 < n ∧ c.outputBuffer.readableBytes ≤ n
  | .failed _ => False

/-! ### The parts of `sendInLoop` -/

theorem WritesPending.empty {c : Conn} (h : c.WritesPending) (hw : c.channel.isWriting = false) :
    c.outputBuffer.content = [] := by
  by_contra hne
  rw [h.mpr hne] at hw
  cases hw

@[simp] theorem isWriting_requestWriting (c : Conn) :
    c.requestWriting.channel.isWriting = true := by
  rw [requestWriting_eq]
  cases h : c.channel.isWriting with
  | true => simpa using h
  | false => simp

/-- The direct write changes neither the channel nor the buffer. -/
@[simp] theorem directWrite_frame (c : Conn) (data : List Byte) (r : WriteResult) :
    (c.directWrite data r).1.channel = c.channel ∧
      (c.directWrite data r).1.outputBuffer = c.outputBuffer ∧
      (c.directWrite data r).1.state = c.state := by
  cases r with
  | wrote n =>
    rw [directWrite]
    split
    · simp
    · exact ⟨rfl, rfl, rfl⟩
  | failed errno => exact ⟨rfl, rfl, rfl⟩

/-- What is kept makes the channel wait for writing. -/
theorem keepRemaining_writesPending (c : Conn) {data : List Byte} {nwrote : Nat}
    (h : nwrote < data.length) :
    (c.keepRemaining data nwrote (data.length - nwrote)).WritesPending := by
  have hpos : 0 < data.length - nwrote := Nat.sub_pos_of_lt h
  have hne : (data.drop nwrote).take (data.length - nwrote) ≠ [] := by
    rw [← List.length_pos_iff, List.length_take, List.length_drop]
    exact Nat.lt_min.mpr ⟨hpos, hpos⟩
  simp [WritesPending, keepRemaining, hne]

/-- **`sendInLoop` keeps the interest in step** with the buffer, on both paths. -/
theorem WritesPending.sendInLoop {c : Conn} (h : c.WritesPending) {data : List Byte}
    {r : WriteResult} (hr : r.Fits data.length) : (c.sendInLoop data r).WritesPending := by
  by_cases hs : c.state = .kDisconnected
  · rw [Conn.sendInLoop, if_pos hs]; exact h
  rcases c.sendInLoop_cases hr hs with ⟨d, nwrote, hw, -, -, heq⟩ | heq
  · rw [heq]
    by_cases hrem : nwrote < data.length
    · rw [if_pos hrem]; exact d.keepRemaining_writesPending hrem
    · -- all is written: the channel and the buffer are as before
      have hframe := c.directWrite_frame data r
      rw [hw] at hframe
      rw [if_neg hrem, WritesPending, hframe.1, hframe.2.1]
      exact h
  · rw [heq]
    by_cases hpos : 0 < data.length
    · rw [if_pos hpos]; exact c.keepRemaining_writesPending hpos
    · rw [if_neg hpos]; exact h

/-! ### `handleWrite` -/

@[simp] theorem shutdownInLoop_frame (c : Conn) :
    c.shutdownInLoop.outputBuffer = c.outputBuffer ∧ c.shutdownInLoop.channel = c.channel ∧
      c.shutdownInLoop.state = c.state ∧ c.shutdownInLoop.accepted = c.accepted ∧
      c.shutdownInLoop.queued = c.queued := by
  rw [shutdownInLoop_eq]
  exact ⟨rfl, rfl, rfl, rfl, rfl⟩

theorem shutdownInLoop_shutdownWrites (c : Conn) :
    c.shutdownInLoop.shutdownWrites =
      c.shutdownWrites + if c.channel.isWriting then 0 else 1 := by
  rw [shutdownInLoop_eq]

/-- The write side is shut down where nothing is pending. -/
theorem shutdownInLoop_lt (c : Conn) :
    c.shutdownWrites < c.shutdownInLoop.shutdownWrites ↔ c.channel.isWriting = false := by
  rw [shutdownInLoop_shutdownWrites]
  cases c.channel.isWriting <;> simp

@[simp] theorem drained_frame (c : Conn) :
    c.drained.outputBuffer = c.outputBuffer ∧ c.drained.channel = c.channel.disableWriting ∧
      c.drained.state = c.state := by
  rw [drained]
  split
  · simp
  · simp

@[simp] theorem notifyWriteComplete_shutdownWrites (c : Conn) :
    c.notifyWriteComplete.shutdownWrites = c.shutdownWrites := by
  rw [notifyWriteComplete_eq]

theorem drained_shutdownWrites (c : Conn) :
    c.drained.shutdownWrites =
      c.shutdownWrites + if c.state = .kDisconnecting then 1 else 0 := by
  rw [drained]
  simp only [notifyWriteComplete_frame]
  split
  · rw [shutdownInLoop_shutdownWrites]; simp
  · simp

/-- **`handleWrite` keeps the interest in step** with the buffer. -/
theorem WritesPending.handleWrite {c : Conn} (h : c.WritesPending) (r : WriteResult) :
    (c.handleWrite r).WritesPending := by
  by_cases hw : c.channel.isWriting = true
  · cases r with
    | failed errno =>
      rw [Conn.handleWrite, if_pos hw]
      exact h
    | wrote n =>
      rw [Conn.handleWrite, if_pos hw]
      split
      · dsimp only
        split
        · next he => simpa [WritesPending] using he
        · next he => simpa [WritesPending, hw] using he
      · exact h
  · simp only [Conn.handleWrite, if_neg hw]
    exact h

theorem handleWrite_state (c : Conn) (r : WriteResult) : (c.handleWrite r).state = c.state := by
  cases r with
  | failed errno => simp [Conn.handleWrite]
  | wrote n =>
    rw [Conn.handleWrite]
    split
    · split
      · dsimp only
        split
        · simp
        · rfl
      · rfl
    · rfl

/-- A `handleWrite` that empties the buffer goes on to `drained`. -/
theorem DrainedBy.handleWrite {c : Conn} {n : Nat} (h : c.DrainedBy (.wrote n)) :
    c.handleWrite (.wrote n) = Conn.drained { c with
      accepted := c.accepted ++ c.outputBuffer.content.take n
      outputBuffer := c.outputBuffer.retrieve n } := by
  obtain ⟨hw, hn, hle⟩ := h
  have hempty : (c.outputBuffer.retrieve n).readableBytes = 0 := by
    rw [ValidBuffer.readableBytes_eq_zero, ValidBuffer.content_retrieve]
    exact List.drop_eq_nil_of_le (by rwa [ValidBuffer.length_content])
  simp only [Conn.handleWrite, hw, if_true, hn, hempty]

/-- When all is written the channel waits no more. -/
theorem DrainedBy.isWriting {c : Conn} {r : WriteResult} (h : c.DrainedBy r) :
    (c.handleWrite r).channel.isWriting = false := by
  cases r with
  | failed errno => exact h.elim
  | wrote n => rw [h.handleWrite]; simp

/-- `handleWrite` calls `shutdownWrite` when it drains the buffer of a connection that is being
shut down. -/
theorem handleWrite_shutdownWrites (c : Conn) (r : WriteResult) :
    c.shutdownWrites < (c.handleWrite r).shutdownWrites ↔
      c.state = .kDisconnecting ∧ c.DrainedBy r := by
  by_cases hd : c.DrainedBy r
  · cases r with
    | failed errno => exact hd.elim
    | wrote n =>
      rw [hd.handleWrite, drained_shutdownWrites]
      by_cases hs : c.state = .kDisconnecting <;> simp [hs, hd]
  · have hsame : (c.handleWrite r).shutdownWrites = c.shutdownWrites := by
      by_cases hw : c.channel.isWriting = true
      · cases r with
        | failed errno => simp [Conn.handleWrite]
        | wrote n =>
          simp only [Conn.handleWrite, hw, if_true]
          by_cases hn : 0 < n
          · have hrest : (c.outputBuffer.retrieve n).readableBytes ≠ 0 := by
              rw [Ne, ValidBuffer.readableBytes_eq_zero, ValidBuffer.content_retrieve,
                List.drop_eq_nil_iff, ValidBuffer.length_content]
              exact fun hle => hd ⟨hw, hn, hle⟩
            rw [if_pos hn, if_neg hrest]
          · rw [if_neg hn]
      · simp only [Conn.handleWrite, if_neg hw]
    simp [hsame, hd]

/-! ### What `sendInLoop` leaves alone -/

@[simp] theorem notifyHighWaterMark_shutdownWrites (c : Conn) (remaining : Nat) :
    (c.notifyHighWaterMark remaining).shutdownWrites = c.shutdownWrites := by
  obtain ⟨functors, heq⟩ := c.notifyHighWaterMark_eq remaining
  rw [heq]

@[simp] theorem requestWriting_shutdownWrites (c : Conn) :
    c.requestWriting.shutdownWrites = c.shutdownWrites := by
  rw [requestWriting_eq]

@[simp] theorem keepRemaining_frame (c : Conn) (data : List Byte) (nwrote remaining : Nat) :
    (c.keepRemaining data nwrote remaining).state = c.state ∧
      (c.keepRemaining data nwrote remaining).shutdownWrites = c.shutdownWrites := by
  simp [keepRemaining]

@[simp] theorem directWrite_shutdownWrites (c : Conn) (data : List Byte) (r : WriteResult) :
    (c.directWrite data r).1.shutdownWrites = c.shutdownWrites := by
  cases r with
  | wrote n =>
    rw [directWrite]
    split
    · simp
    · rfl
  | failed errno => rfl

@[simp] theorem sendInLoop_frame (c : Conn) (data : List Byte) (r : WriteResult) :
    (c.sendInLoop data r).state = c.state ∧
      (c.sendInLoop data r).shutdownWrites = c.shutdownWrites := by
  rw [Conn.sendInLoop]
  split
  · exact ⟨rfl, rfl⟩
  · simp only []
    split <;> split <;> simp

/-! ### The direct path -/

/-- `sendInLoop` calls `::write` first. -/
def WritesDirectly (c : Conn) : Prop :=
  c.state ≠ .kDisconnected ∧ c.channel.isWriting = false ∧ c.outputBuffer.readableBytes = 0

theorem WritesDirectly.sendInLoop {c : Conn} (h : c.WritesDirectly) (data : List Byte)
    (r : WriteResult) : c.sendInLoop data r =
      if 0 < (c.directWrite data r).2.2.1 then (c.directWrite data r).1.keepRemaining data
        (c.directWrite data r).2.1 (c.directWrite data r).2.2.1
      else (c.directWrite data r).1 := by
  obtain ⟨hs, hw, he⟩ := h
  have hfault : (c.directWrite data r).2.2.2 = false := by
    cases r with
    | wrote n => rfl
    | failed errno => simp [directWrite]
  simp [Conn.sendInLoop, hs, hw, he, hfault]

/-- Off the direct path nothing depends on what `::write` would return. -/
theorem sendInLoop_of_not_direct {c : Conn} (h : ¬ c.WritesDirectly) (data : List Byte)
    (r r' : WriteResult) : c.sendInLoop data r = c.sendInLoop data r' := by
  by_cases hs : c.state = .kDisconnected
  · rw [Conn.sendInLoop, if_pos hs, Conn.sendInLoop, if_pos hs]
  · have hbuffered : ¬ ((!c.channel.isWriting && c.outputBuffer.readableBytes == 0) = true) := by
      simpa [WritesDirectly, hs] using h
    simp only [Conn.sendInLoop, if_neg hs, if_neg hbuffered]

/-! ### An open connection -/

/-- The connection is not closed, and its write interest agrees with its pending output. -/
structure Open (c : Conn) : Prop where
  notDisconnected : c.state ≠ .kDisconnected
  writesPending : c.WritesPending

theorem open_connectEstablished {c : Conn} (h : c.WritesPending) : c.connectEstablished.Open where
  notDisconnected := by simp [connectEstablished, setState, invoke]
  writesPending := by simpa [WritesPending, connectEstablished, setState, invoke] using h

theorem Open.shutdownInLoop {c : Conn} (h : c.Open) : c.shutdownInLoop.Open where
  notDisconnected := by simpa using h.notDisconnected
  writesPending := by simpa [WritesPending] using h.writesPending

theorem Open.setState {c : Conn} (h : c.Open) {state : StateE} (hs : state ≠ .kDisconnected) :
    (c.setState state).Open :=
  ⟨hs, h.writesPending⟩

end Conn

/-- The steps of an established connection that do not close it. -/
def ConnStep.StaysOpen (_ : Conn) : ConnStep → Prop
  | .sendInLoop .. | .shutdown | .shutdownInLoop | .forceClose | .handleWrite _ => True
  | .handleRead (.data bytes) => bytes ≠ []
  | .handleRead (.failed _) => True
  | .connectEstablished | .connectDestroyed | .forceCloseInLoop | .handleClose => False

/-- What one step keeps. -/
theorem Conn.Open.run {c : Conn} (h : c.Open) {l : ConnStep} (hp : l.Possible c)
    (hl : l.StaysOpen c) : (l.run c).Open := by
  cases l with
  | sendInLoop data r =>
    refine ⟨?_, h.writesPending.sendInLoop hp⟩
    simpa [ConnStep.run] using h.notDisconnected
  | shutdown =>
    rw [ConnStep.run, Conn.shutdown]
    split
    · exact (h.setState (by simp)).shutdownInLoop
    · exact h
  | shutdownInLoop => exact h.shutdownInLoop
  | forceClose =>
    rw [ConnStep.run, Conn.forceClose]
    split
    · exact ⟨by simp [Conn.setState, Conn.queueInLoop], h.writesPending⟩
    · exact h
  | handleRead r =>
    cases r with
    | data bytes =>
      rw [ConnStep.run, Conn.handleRead, if_pos (List.length_pos_of_ne_nil hl)]
      exact ⟨h.notDisconnected, h.writesPending⟩
    | failed errno => exact h
  | handleWrite r =>
    refine ⟨?_, h.writesPending.handleWrite r⟩
    rw [ConnStep.run, Conn.handleWrite_state]
    exact h.notDisconnected
  | _ => exact hl.elim

/-- **Write interest matches pending output.**  After every step of a run of an established
connection up to its close, the channel asks for writable events if and only if `_outputBuffer`
holds something, and a message would be written directly if and only if it holds nothing. -/
theorem isWriting_iff_pending {c d : Conn} {tr : List (Conn × ConnStep)} (h₀ : connMachine.init c)
    (hr : connMachine.Run c.connectEstablished tr d)
    (ho : Meets (fun c l => l.StaysOpen c) tr) :
    (d.channel.isWriting = true ↔ 0 < d.outputBuffer.readableBytes) ∧
      (d.WritesDirectly ↔ d.outputBuffer.readableBytes = 0) := by
  obtain ⟨mark, writeComplete, highWater, rfl⟩ := h₀
  have hinit : (Conn.new mark writeComplete highWater).connectEstablished.Open :=
    Conn.open_connectEstablished (by simp [Conn.WritesPending, Conn.new])
  have hopen : d.Open := by
    refine hr.keeps ?_ ho hinit
    rintro s l t hs hl ⟨hp, rfl⟩
    exact hs.run hp hl
  have hpending : d.channel.isWriting = true ↔ 0 < d.outputBuffer.readableBytes := by
    have hw : d.channel.isWriting = true ↔ d.outputBuffer.content ≠ [] := hopen.writesPending
    rw [hw, Nat.pos_iff_ne_zero, Ne, Ne, ValidBuffer.readableBytes_eq_zero]
  refine ⟨hpending, fun h => h.2.2, fun h => ⟨hopen.notDisconnected, ?_, h⟩⟩
  rw [← Bool.not_eq_true, hpending, h]
  simp

/-- The theorem after a short write. -/
theorem isWriting_iff_pending_shortWrite :
    let d := ((Conn.new 8 true true).connectEstablished.sendInLoop [1, 2, 3] (.wrote 1)).forceClose
    d.channel.isWriting = true ∧ ¬ d.WritesDirectly := by
  intro d
  have hr := Machine.Run.nil (M := connMachine) (s := (Conn.new 8 true true).connectEstablished)
    |>.snoc (l := ConnStep.sendInLoop [1, 2, 3] (.wrote 1)) ⟨show 1 ≤ 3 by decide, rfl⟩
    |>.snoc (t := (Conn.new 8 true true).connectEstablished.sendInLoop [1, 2, 3] (.wrote 1))
      (l := ConnStep.forceClose) ⟨trivial, rfl⟩
  have hpending : d.outputBuffer.readableBytes = 2 := by
    rw [← ValidBuffer.length_content]
    simp [d, Conn.sendInLoop, Conn.connectEstablished, Conn.new, Conn.setState, Conn.invoke,
      Conn.directWrite, Conn.keepRemaining, Conn.forceClose, Conn.queueInLoop]
  obtain ⟨hw, hd⟩ := isWriting_iff_pending (d := d) ⟨8, true, true, rfl⟩ hr <| by
    simp only [meets_snoc, meets_nil, ConnStep.StaysOpen, and_self]
  exact ⟨hw.mpr (by rw [hpending]; decide), fun h => by rw [hd, hpending] at h; cases h⟩

end Reactor.Net
