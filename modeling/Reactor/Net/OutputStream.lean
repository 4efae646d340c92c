import Reactor.Net.TcpConnection

/-!
# Net — the output stream

Every byte handed to `sendInLoop` is transmitted or still buffered, once and in order.  The two
write paths meet in `outputStream`: the direct write moves a prefix of the message to the kernel
and `keepRemaining` buffers exactly the rest, and `handleWrite` moves a prefix of the buffer to
the kernel.

* `sendInLoop_outputStream`, `handleWrite_outputStream`: the two paths, one call each.
* `run_outputStream`: over every run, whatever the writes return.
-/

namespace Reactor.Net
open Reactor.Lib

namespace Conn

/-! ### What the small functions do -/

theorem notifyWriteComplete_eq (c : Conn) : c.notifyWriteComplete = { c with
    queued := c.queued ++ if c.writeCompleteCallback then [.writeComplete] else [] } := by
  cases h : c.writeCompleteCallback with
  | true => simp [notifyWriteComplete, queueInLoop, h]
  | false => simp [notifyWriteComplete, h]

theorem notifyHighWaterMark_eq (c : Conn) (remaining : Nat) :
    ∃ functors, c.notifyHighWaterMark remaining = { c with queued := c.queued ++ functors } := by
  rw [notifyHighWaterMark]
  split
  · exact ⟨_, rfl⟩
  · exact ⟨[], by simp⟩

theorem requestWriting_eq (c : Conn) : c.requestWriting = { c with
    channel := if c.channel.isWriting then c.channel else c.channel.enableWriting } := by
  cases h : c.channel.isWriting with
  | true => simp [requestWriting, h]
  | false => simp [requestWriting, h]

theorem shutdownInLoop_eq (c : Conn) : c.shutdownInLoop = { c with
    shutdownWrites := c.shutdownWrites + if c.channel.isWriting then 0 else 1 } := by
  cases h : c.channel.isWriting with
  | true => simp [shutdownInLoop, h]
  | false => simp [shutdownInLoop, h]

/-! ### What they leave alone -/

@[simp] theorem notifyWriteComplete_frame (c : Conn) :
    c.notifyWriteComplete.outputBuffer = c.outputBuffer ∧
      c.notifyWriteComplete.channel = c.channel ∧ c.notifyWriteComplete.state = c.state := by
  rw [notifyWriteComplete_eq]
  exact ⟨rfl, rfl, rfl⟩

@[simp] theorem notifyHighWaterMark_frame (c : Conn) (remaining : Nat) :
    (c.notifyHighWaterMark remaining).outputBuffer = c.outputBuffer ∧
      (c.notifyHighWaterMark remaining).channel = c.channel ∧
      (c.notifyHighWaterMark remaining).state = c.state := by
  obtain ⟨functors, heq⟩ := c.notifyHighWaterMark_eq remaining
  rw [heq]
  exact ⟨rfl, rfl, rfl⟩

@[simp] theorem requestWriting_frame (c : Conn) :
    c.requestWriting.outputBuffer = c.outputBuffer ∧ c.requestWriting.state = c.state := by
  rw [requestWriting_eq]
  exact ⟨rfl, rfl⟩

theorem outputStream_channel (c : Conn) (channel : Channel) :
    Conn.outputStream { c with channel := channel } = c.outputStream := rfl

@[simp] theorem queueInLoop_outputStream (c : Conn) (f : ConnFunctor) :
    (c.queueInLoop f).outputStream = c.outputStream := rfl

@[simp] theorem invoke_outputStream (c : Conn) (cb : ConnCallback) :
    (c.invoke cb).outputStream = c.outputStream := rfl

@[simp] theorem notifyWriteComplete_outputStream (c : Conn) :
    c.notifyWriteComplete.outputStream = c.outputStream := by
  rw [notifyWriteComplete_eq]
  rfl

@[simp] theorem notifyHighWaterMark_outputStream (c : Conn) (remaining : Nat) :
    (c.notifyHighWaterMark remaining).outputStream = c.outputStream := by
  obtain ⟨functors, heq⟩ := c.notifyHighWaterMark_eq remaining
  rw [heq]
  rfl

@[simp] theorem requestWriting_outputStream (c : Conn) :
    c.requestWriting.outputStream = c.outputStream := by
  rw [requestWriting_eq]
  rfl

@[simp] theorem setState_outputStream (c : Conn) (state : StateE) :
    (c.setState state).outputStream = c.outputStream := rfl

@[simp] theorem shutdownInLoop_outputStream (c : Conn) :
    c.shutdownInLoop.outputStream = c.outputStream := by
  rw [shutdownInLoop_eq]
  rfl

@[simp] theorem shutdown_outputStream (c : Conn) : c.shutdown.outputStream = c.outputStream := by
  rw [shutdown]
  split
  · simp
  · rfl

@[simp] theorem drained_outputStream (c : Conn) : c.drained.outputStream = c.outputStream := by
  rw [drained]
  split
  · simp [outputStream_channel]
  · simp [outputStream_channel]

@[simp] theorem forceClose_outputStream (c : Conn) :
    c.forceClose.outputStream = c.outputStream := by
  rw [forceClose]
  split
  · simp
  · rfl

@[simp] theorem handleClose_outputStream (c : Conn) :
    c.handleClose.outputStream = c.outputStream := rfl

@[simp] theorem forceCloseInLoop_outputStream (c : Conn) :
    c.forceCloseInLoop.outputStream = c.outputStream := by
  rw [forceCloseInLoop]
  split
  · simp
  · rfl

@[simp] theorem connectEstablished_outputStream (c : Conn) :
    c.connectEstablished.outputStream = c.outputStream := rfl

@[simp] theorem connectDestroyed_outputStream (c : Conn) :
    c.connectDestroyed.outputStream = c.outputStream := by
  rw [connectDestroyed]
  split
  · rfl
  · rfl

@[simp] theorem handleRead_outputStream (c : Conn) (r : ReadResult) :
    (c.handleRead r).outputStream = c.outputStream := by
  cases r with
  | data bytes =>
    rw [handleRead]
    split
    · rfl
    · rfl
  | failed errno => rfl

/-! ### The two write paths -/

/-- The direct write, when nothing is pending, hands the kernel the first `nwrote` bytes and
leaves the rest to be kept. -/
theorem directWrite_spec (c : Conn) {data : List Byte} {r : WriteResult}
    (hr : r.Fits data.length) (hempty : c.outputBuffer.content = []) :
    ∃ (d : Conn) (nwrote : Nat), c.directWrite data r = (d, nwrote, data.length - nwrote, false) ∧
      nwrote ≤ data.length ∧ d.outputStream = c.outputStream ++ data.take nwrote := by
  cases r with
  | wrote n =>
    refine ⟨_, n, rfl, hr, ?_⟩
    split
    · rw [notifyWriteComplete_outputStream]; simp [outputStream, hempty]
    · simp [outputStream, hempty]
  | failed errno => exact ⟨c, 0, by simp [directWrite], Nat.zero_le _, by simp⟩

/-- Keeping what `nwrote` left over. -/
theorem keepRemaining_outputStream (c : Conn) (data : List Byte) (nwrote : Nat) :
    (c.keepRemaining data nwrote (data.length - nwrote)).outputStream =
      c.outputStream ++ data.drop nwrote := by
  have hall : (data.drop nwrote).take (data.length - nwrote) = data.drop nwrote :=
    List.take_of_length_le (by simp)
  have hstream := c.notifyHighWaterMark_outputStream (data.length - nwrote)
  simp only [keepRemaining, requestWriting_outputStream, hall]
  simp only [outputStream, ValidBuffer.content_append] at hstream ⊢
  rw [← List.append_assoc, hstream]

/-- The two paths of `sendInLoop`: with nothing pending, the direct write, and the rest kept if
there is one; else the whole message kept, if it is not empty. -/
theorem sendInLoop_cases (c : Conn) {data : List Byte} {r : WriteResult}
    (hr : r.Fits data.length) (hs : c.state ≠ .kDisconnected) :
    (∃ (d : Conn) (nwrote : Nat), c.directWrite data r = (d, nwrote, data.length - nwrote, false) ∧
      nwrote ≤ data.length ∧ d.outputStream = c.outputStream ++ data.take nwrote ∧
      c.sendInLoop data r = if nwrote < data.length
        then d.keepRemaining data nwrote (data.length - nwrote) else d) ∨
      c.sendInLoop data r =
        if 0 < data.length then c.keepRemaining data 0 (data.length - 0) else c := by
  rw [sendInLoop, if_neg hs]
  by_cases hd : !c.channel.isWriting && c.outputBuffer.readableBytes == 0
  · have hempty : c.outputBuffer.content = [] := by simpa using (Bool.and_eq_true_iff.mp hd).2
    obtain ⟨d, nwrote, hw, hn, hstream⟩ := c.directWrite_spec hr hempty
    refine .inl ⟨d, nwrote, hw, hn, hstream, ?_⟩
    rw [if_pos hd, hw]
    simp only [Bool.not_false, Bool.true_and, decide_eq_true_eq, Nat.sub_pos_iff_lt]
  · right
    rw [if_neg hd]
    simp only [Bool.not_false, Bool.true_and, decide_eq_true_eq, Nat.sub_zero]

/-- **`sendInLoop` takes on the whole message**, in one piece and behind everything taken on
before. -/
theorem sendInLoop_outputStream (c : Conn) {data : List Byte} {r : WriteResult}
    (hr : r.Fits data.length) (hs : c.state ≠ .kDisconnected) :
    (c.sendInLoop data r).outputStream = c.outputStream ++ data := by
  rcases c.sendInLoop_cases hr hs with ⟨d, nwrote, -, hn, hstream, heq⟩ | heq
  · -- the direct write takes the front of the message, and the buffer the rest
    rw [heq]
    by_cases hrem : nwrote < data.length
    · rw [if_pos hrem, keepRemaining_outputStream, hstream, List.append_assoc,
        List.take_append_drop]
    · have hall : data.take nwrote = data := List.take_of_length_le (Nat.le_of_not_lt hrem)
      rw [if_neg hrem, hstream, hall]
  · -- the whole message goes behind what is pending
    rw [heq]
    by_cases hpos : 0 < data.length
    · rw [if_pos hpos, keepRemaining_outputStream, List.drop_zero]
    · rw [if_neg hpos, List.length_eq_zero_iff.mp (Nat.eq_zero_of_not_pos hpos), List.append_nil]

/-- **`handleWrite` only moves bytes** from the front of the buffer to the kernel. -/
theorem handleWrite_outputStream (c : Conn) (r : WriteResult) :
    (c.handleWrite r).outputStream = c.outputStream := by
  cases r with
  | failed errno => simp [handleWrite]
  | wrote n =>
    -- the write itself; what follows touches neither end of the stream
    have hmove : Conn.outputStream { c with
        accepted := c.accepted ++ c.outputBuffer.content.take n
        outputBuffer := c.outputBuffer.retrieve n } = c.outputStream := by
      simp [outputStream]
    rw [handleWrite]
    split
    · split
      · dsimp only
        split
        · rw [drained_outputStream]
          exact hmove
        · exact hmove
      · rfl
    · rfl

end Conn

/-! ### Every run -/

/-- A step adds its message to the stream, and takes nothing from it. -/
theorem ConnStep.outputStream_run {c : Conn} {l : ConnStep} (h : l.Possible c) :
    (l.run c).outputStream = c.outputStream ++ l.message c := by
  cases l with
  | sendInLoop data r =>
    by_cases hs : c.state = .kDisconnected
    · simp [ConnStep.run, ConnStep.message, Conn.sendInLoop, hs]
    · simpa [ConnStep.run, ConnStep.message, hs] using c.sendInLoop_outputStream h hs
  | handleWrite r => simpa [ConnStep.run, ConnStep.message] using c.handleWrite_outputStream r
  | _ => simp [ConnStep.run, ConnStep.message]

/-- **The output stream.**  At every step of every run, what the kernel has accepted followed by
what `_outputBuffer` holds is the concatenation of the messages handed to `sendInLoop` while the
connection was not disconnected: no byte is lost, duplicated or reordered. -/
theorem run_outputStream {c d : Conn} {tr : List (Conn × ConnStep)} (h₀ : connMachine.init c)
    (h : connMachine.Run c tr d) : d.accepted ++ d.outputBuffer.content = messages tr := by
  change d.outputStream = messages tr
  induction h with
  | nil =>
    obtain ⟨mark, writeComplete, highWater, rfl⟩ := h₀
    simp [Conn.outputStream, Conn.new, messages]
  | snoc _ hs ih =>
    obtain ⟨hp, rfl⟩ := hs
    rw [ConnStep.outputStream_run hp, ih]
    simp [messages]

/-- The theorem on a short write that is drained later. -/
theorem run_outputStream_shortWrite :
    let c := (Conn.new 8 true true).connectEstablished
    let d := (c.sendInLoop [1, 2, 3] (.wrote 1)).handleWrite (.wrote 2)
    d.accepted ++ d.outputBuffer.content = [1, 2, 3] := by
  intro c d
  have hpending : (c.sendInLoop [1, 2, 3] (.wrote 1)).outputBuffer.readableBytes = 2 := by
    rw [← ValidBuffer.length_content]
    simp [c, Conn.sendInLoop, Conn.connectEstablished, Conn.new, Conn.setState, Conn.invoke,
      Conn.directWrite, Conn.keepRemaining]
  have h := Machine.Run.nil (M := connMachine) (s := Conn.new 8 true true)
    |>.snoc (l := ConnStep.connectEstablished) ⟨trivial, rfl⟩
    |>.snoc (l := ConnStep.sendInLoop [1, 2, 3] (.wrote 1)) ⟨show 1 ≤ 3 by decide, rfl⟩
    |>.snoc (t := c.sendInLoop [1, 2, 3] (.wrote 1)) (l := ConnStep.handleWrite (.wrote 2))
      ⟨hpending.ge, rfl⟩
  have hm := run_outputStream ⟨8, true, true, rfl⟩ h
  refine hm.trans ?_
  simp [messages, ConnStep.message, ConnStep.run, Conn.connectEstablished, Conn.setState,
    Conn.invoke]

end Reactor.Net
