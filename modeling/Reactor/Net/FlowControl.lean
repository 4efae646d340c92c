import Reactor.Net.WriteInterest

/-!
# Net — flow control

Which steps queue the high-water and the write-complete callback.  The code finds a crossing of the
mark from the old length of the buffer and the bytes left over by a direct write, and reports
completion from two places; here a step is measured by the pending output before and after it.

* `ConnStep.notifications`: what a step should queue, from the output pending around it.
* `ConnStep.queued_run`: what one step queues.
* `run_queued`: over every run of sends and drains, one notification for each occasion.
-/

namespace Reactor.Net
open Reactor.Lib

namespace Conn

/-- The pending output. -/
def pending (c : Conn) : Nat := c.outputBuffer.readableBytes

/-- The high-water notification for a step that ends with `p` bytes pending. -/
def riseTo (c : Conn) (p : Nat) : List ConnFunctor :=
  if c.pending < c.highWaterMark ∧ c.highWaterMark ≤ p then [.highWaterMark p] else []

/-- The mark is not reached by output that does not grow. -/
theorem riseTo_of_le {c : Conn} {p : Nat} (h : p ≤ c.pending) : c.riseTo p = [] := by
  rw [riseTo, if_neg]
  rintro ⟨hlt, hle⟩
  exact absurd (Nat.lt_of_lt_of_le hlt hle) (Nat.not_lt.mpr h)

/-- Whether a `send` writes at once can be computed. -/
instance (c : Conn) : Decidable c.WritesDirectly :=
  inferInstanceAs (Decidable (_ ∧ _ ∧ _))

/-- Both callbacks are set. -/
structure Notifies (c : Conn) : Prop where
  writeComplete : c.writeCompleteCallback = true
  highWaterMark : c.highWaterMarkCallback = true

end Conn

/-- The step writes a whole message directly, or drains a buffer that holds something. -/
def ConnStep.Completes (c : Conn) : ConnStep → Prop
  | .sendInLoop data r => c.WritesDirectly ∧ r = .wrote data.length
  | .handleWrite _ => 0 < c.pending
  | _ => False

/-- Whether a step writes all there is can be computed. -/
instance (c : Conn) : (l : ConnStep) → Decidable (l.Completes c)
  | .sendInLoop data r => inferInstanceAs (Decidable (c.WritesDirectly ∧ r = .wrote data.length))
  | .handleWrite _ => Nat.decLt 0 c.pending
  | .connectEstablished | .connectDestroyed | .shutdown | .shutdownInLoop | .forceClose
  | .forceCloseInLoop | .handleRead _ | .handleClose => .isFalse id

/-- What a step should queue: the write-complete callback if it completes the output, and the
high-water callback if the pending output rises to the mark. -/
def ConnStep.notifications (c : Conn) (l : ConnStep) : List ConnFunctor :=
  (if l.Completes c ∧ (l.run c).pending = 0 then [.writeComplete] else []) ++
    c.riseTo (l.run c).pending

/-- The steps of the flow control. -/
def ConnStep.Flows : ConnStep → Prop
  | .sendInLoop .. | .handleWrite _ => True
  | _ => False

namespace Conn

/-! ### What `sendInLoop` queues -/

theorem pending_eq (c : Conn) : c.pending = c.outputBuffer.content.length :=
  (ValidBuffer.length_content _).symm

/-- The pending output grows by what was not written. -/
theorem keepRemaining_pending (c : Conn) (data : List Byte) (nwrote : Nat) :
    (c.keepRemaining data nwrote (data.length - nwrote)).pending =
      c.pending + (data.length - nwrote) := by
  have hall : (data.drop nwrote).take (data.length - nwrote) = data.drop nwrote :=
    List.take_of_length_le (by simp)
  simp [pending_eq, keepRemaining, hall]

/-- The crossing test of the code, on the old length and what is left over. -/
theorem notifyHighWaterMark_queued {c : Conn} (h : c.Notifies) (remaining : Nat) :
    (c.notifyHighWaterMark remaining).queued = c.queued ++ c.riseTo (c.pending + remaining) := by
  change (if c.pending + remaining ≥ c.highWaterMark ∧ c.pending < c.highWaterMark ∧
    c.highWaterMarkCallback then c.queueInLoop (.highWaterMark (c.pending + remaining))
    else c).queued = _
  rw [riseTo]
  by_cases hrise : c.pending < c.highWaterMark ∧ c.highWaterMark ≤ c.pending + remaining
  · rw [if_pos hrise, if_pos ⟨hrise.2, hrise.1, h.highWaterMark⟩]
    rfl
  · rw [if_neg hrise, if_neg (fun hcode => hrise ⟨hcode.2.1, hcode.1⟩), List.append_nil]

/-- The mark is reported if the output has risen to it. -/
theorem keepRemaining_queued {c : Conn} (h : c.Notifies) (data : List Byte) (nwrote : Nat) :
    (c.keepRemaining data nwrote (data.length - nwrote)).queued = c.queued ++
      c.riseTo (c.keepRemaining data nwrote (data.length - nwrote)).pending := by
  rw [keepRemaining_pending, ← notifyHighWaterMark_queued h, keepRemaining, requestWriting_eq]

/-- A direct write of the whole message leaves nothing to keep. -/
theorem WritesDirectly.sendInLoop_whole {c : Conn} (h : c.WritesDirectly) (data : List Byte) :
    c.sendInLoop data (.wrote data.length) =
      Conn.notifyWriteComplete { c with accepted := c.accepted ++ data } := by
  simp [h.sendInLoop, directWrite]

/-- Any other call keeps what is left over, of a connection that has queued nothing yet. -/
theorem sendInLoop_kept {c : Conn} {data : List Byte} {r : WriteResult} (hr : r.Fits data.length)
    (h : ¬ (c.WritesDirectly ∧ r = .wrote data.length)) :
    ∃ accepted nwrote, c.sendInLoop data r =
      if nwrote < data.length then
        keepRemaining { c with accepted := accepted } data nwrote (data.length - nwrote)
      else { c with accepted := accepted } := by
  by_cases hs : c.state = .kDisconnected
  · exact ⟨c.accepted, data.length, by simp [Conn.sendInLoop, hs]⟩
  by_cases hd : c.WritesDirectly
  · cases r with
    | wrote n =>
      -- a short write: the message was not written whole
      have hne : n ≠ data.length := fun he => h ⟨hd, by rw [he]⟩
      have hlt : n < data.length := Nat.lt_of_le_of_ne hr hne
      have hpos : data.length - n ≠ 0 := Nat.sub_ne_zero_of_lt hlt
      refine ⟨c.accepted ++ data.take n, n, ?_⟩
      simp [hd.sendInLoop, directWrite, hpos, hlt]
    | failed errno => exact ⟨c.accepted, 0, by simp [hd.sendInLoop, directWrite]⟩
  · refine ⟨c.accepted, 0, ?_⟩
    have hbuffered : ¬ ((!c.channel.isWriting && c.outputBuffer.readableBytes == 0) = true) := by
      simpa [WritesDirectly, hs] using hd
    simp only [Conn.sendInLoop, if_neg hs, if_neg hbuffered]
    simp

/-- What `sendInLoop` queues. -/
theorem sendInLoop_queued {c : Conn} (h : c.Notifies) {data : List Byte} {r : WriteResult}
    (hr : r.Fits data.length) : (c.sendInLoop data r).queued =
      c.queued ++ (ConnStep.sendInLoop data r).notifications c := by
  rw [ConnStep.notifications]
  by_cases hw : c.WritesDirectly ∧ r = .wrote data.length
  · obtain ⟨hd, rfl⟩ := hw
    have hsame : (c.sendInLoop data (.wrote data.length)).pending = c.pending := by
      rw [hd.sendInLoop_whole, pending, notifyWriteComplete_eq]
      rfl
    rw [ConnStep.run, if_pos ⟨⟨hd, rfl⟩, hsame.trans hd.2.2⟩, riseTo_of_le hsame.le,
      hd.sendInLoop_whole, notifyWriteComplete_eq]
    simp [h.writeComplete]
  · obtain ⟨accepted, nwrote, heq⟩ := sendInLoop_kept hr hw
    rw [if_neg (fun hc => hw hc.1), List.nil_append, ConnStep.run, heq]
    by_cases hrem : nwrote < data.length
    · simp only [if_pos hrem]
      exact keepRemaining_queued (c := { c with accepted := accepted }) ⟨h.1, h.2⟩ data nwrote
    · simp only [if_neg hrem]
      have hstays : c.riseTo c.pending = [] := riseTo_of_le (Nat.le_refl _)
      exact ((congrArg (c.queued ++ ·) hstays).trans (List.append_nil _)).symm

/-! ### What `handleWrite` queues -/

theorem drained_queued {c : Conn} (h : c.Notifies) :
    c.drained.queued = c.queued ++ [.writeComplete] := by
  rw [drained]
  have hnotify : (Conn.notifyWriteComplete { c with channel := c.channel.disableWriting }).queued =
      c.queued ++ [.writeComplete] := by
    rw [notifyWriteComplete_eq]
    simp [h.writeComplete]
  split
  · rw [shutdownInLoop_eq]
    exact hnotify
  · exact hnotify

/-- A `handleWrite` that does not empty the buffer queues nothing, and leaves something pending
where something was. -/
theorem handleWrite_undrained {c : Conn} {r : WriteResult} (h : ¬ c.DrainedBy r) :
    (c.handleWrite r).queued = c.queued ∧ (c.handleWrite r).pending ≤ c.pending ∧
      ((c.handleWrite r).pending = 0 → c.pending = 0) := by
  by_cases hmove : c.channel.isWriting = true ∧ ∃ n, r = .wrote n ∧ 0 < n
  · obtain ⟨hw, n, rfl, hn⟩ := hmove
    have hrest : (c.outputBuffer.retrieve n).readableBytes = c.outputBuffer.readableBytes - n := by
      rw [← ValidBuffer.length_content, ← ValidBuffer.length_content]
      simp
    have hmore : n < c.outputBuffer.readableBytes := Nat.lt_of_not_le fun hle => h ⟨hw, hn, hle⟩
    have hne : (c.outputBuffer.retrieve n).readableBytes ≠ 0 := by
      rw [hrest]
      exact Nat.sub_ne_zero_of_lt hmore
    simp only [handleWrite, hw, if_true, hn, if_neg hne, pending]
    exact ⟨trivial, hrest ▸ Nat.sub_le _ _, fun hzero => absurd hzero hne⟩
  · have hsame : c.handleWrite r = c := by
      cases r with
      | failed errno => simp [handleWrite]
      | wrote n =>
        rw [handleWrite]
        split
        · next hw => rw [if_neg (fun hn => hmove ⟨hw, n, rfl, hn⟩)]
        · rfl
    rw [hsame]
    exact ⟨rfl, Nat.le_refl _, id⟩

theorem DrainedBy.pending {c : Conn} {r : WriteResult} (h : c.DrainedBy r) :
    (c.handleWrite r).pending = 0 := by
  cases r with
  | failed errno => exact h.elim
  | wrote n =>
    rw [h.handleWrite, Conn.pending, (drained_frame _).1, ValidBuffer.readableBytes_eq_zero,
      ValidBuffer.content_retrieve]
    exact List.drop_eq_nil_of_le (by rw [ValidBuffer.length_content]; exact h.2.2)

/-- What `handleWrite` queues. -/
theorem handleWrite_queued {c : Conn} (h : c.Notifies) {r : WriteResult}
    (hr : r.Fits c.outputBuffer.readableBytes) : (c.handleWrite r).queued =
      c.queued ++ (ConnStep.handleWrite r).notifications c := by
  rw [ConnStep.notifications, ConnStep.run]
  by_cases hd : c.DrainedBy r
  · cases r with
    | failed errno => exact hd.elim
    | wrote n =>
      have hsome : 0 < c.pending := Nat.lt_of_lt_of_le hd.2.1 hr
      rw [if_pos ⟨hsome, hd.pending⟩, riseTo_of_le (hd.pending.le.trans (Nat.zero_le _)),
        List.append_nil,
        hd.handleWrite]
      exact drained_queued ⟨h.1, h.2⟩
  · obtain ⟨hqueued, hle, hzero⟩ := handleWrite_undrained hd
    have hnot : ¬ ((ConnStep.handleWrite r).Completes c ∧ (c.handleWrite r).pending = 0) :=
      fun hc => absurd (hzero hc.2) (Nat.ne_of_gt hc.1)
    rw [if_neg hnot, riseTo_of_le hle, hqueued, List.append_nil, List.append_nil]

/-! ### What no step changes -/

/-- The mark and the two callbacks, which are set from outside. -/
def settings (c : Conn) : Nat × Bool × Bool :=
  (c.highWaterMark, c.writeCompleteCallback, c.highWaterMarkCallback)

theorem Notifies.of_settings {c d : Conn} (h : c.Notifies) (hs : d.settings = c.settings) :
    d.Notifies := by
  obtain ⟨-, hw, hh⟩ : d.highWaterMark = c.highWaterMark ∧ _ := by
    simpa [settings, and_assoc] using hs
  exact ⟨hw ▸ h.1, hh ▸ h.2⟩

@[simp] theorem notifyWriteComplete_settings (c : Conn) :
    c.notifyWriteComplete.settings = c.settings := by
  rw [notifyWriteComplete_eq]
  rfl

@[simp] theorem keepRemaining_settings (c : Conn) (data : List Byte) (nwrote remaining : Nat) :
    (c.keepRemaining data nwrote remaining).settings = c.settings := by
  obtain ⟨functors, heq⟩ := c.notifyHighWaterMark_eq remaining
  rw [keepRemaining, requestWriting_eq, heq]
  rfl

/-- The callbacks and the mark are the client's. -/
theorem sendInLoop_settings {c : Conn} {data : List Byte} {r : WriteResult}
    (hr : r.Fits data.length) : (c.sendInLoop data r).settings = c.settings := by
  by_cases hw : c.WritesDirectly ∧ r = .wrote data.length
  · obtain ⟨hd, rfl⟩ := hw
    rw [hd.sendInLoop_whole, notifyWriteComplete_settings]
    rfl
  · obtain ⟨accepted, nwrote, heq⟩ := sendInLoop_kept hr hw
    rw [heq]
    split
    · rw [keepRemaining_settings]; rfl
    · rfl

theorem drained_settings (c : Conn) : c.drained.settings = c.settings := by
  have hnotify : (Conn.notifyWriteComplete
      { c with channel := c.channel.disableWriting }).settings = c.settings := by
    rw [notifyWriteComplete_settings]
    rfl
  rw [drained]
  split
  · rw [shutdownInLoop_eq]; exact hnotify
  · exact hnotify

theorem handleWrite_settings (c : Conn) (r : WriteResult) :
    (c.handleWrite r).settings = c.settings := by
  cases r with
  | failed errno => simp [handleWrite]
  | wrote n =>
    rw [handleWrite]
    split
    · split
      · dsimp only
        split
        · rw [drained_settings]; rfl
        · rfl
      · rfl
    · rfl

end Conn

/-! ### Every run -/

/-- **What one step queues**, and that it leaves the mark and the callbacks as they are. -/
theorem ConnStep.queued_run {c : Conn} {l : ConnStep} (h : c.Notifies) (hp : l.Possible c)
    (hf : l.Flows) : (l.run c).queued = c.queued ++ l.notifications c ∧
      (l.run c).settings = c.settings := by
  match l, hf with
  | .sendInLoop data r, _ => exact ⟨Conn.sendInLoop_queued h hp, Conn.sendInLoop_settings hp⟩
  | .handleWrite r, _ => exact ⟨Conn.handleWrite_queued h hp, c.handleWrite_settings r⟩

/-- No step queues the write-complete callback while it leaves output pending. -/
theorem ConnStep.writeComplete_not_mem {c : Conn} {l : ConnStep} (h : 0 < (l.run c).pending) :
    ConnFunctor.writeComplete ∉ l.notifications c := by
  have hnot : ¬ (l.Completes c ∧ (l.run c).pending = 0) := fun hc => absurd hc.2 (Nat.ne_of_gt h)
  rw [ConnStep.notifications, if_neg hnot, List.nil_append, Conn.riseTo]
  split <;> simp

/-- **Flow control is exact.**  A run of sends and drains of a connection with both callbacks set
queues, in order, one write-complete callback for each step that completes the output and one
high-water callback for each step that takes it from below the mark to it or above, with the new
pending length; and nothing else.  The mark stays what it is, and no step queues the write-complete
callback while output is pending. -/
theorem run_queued {c d : Conn} {tr : List (Conn × ConnStep)} (hr : connMachine.Run c tr d)
    (hf : Meets (fun _ l => l.Flows) tr) (h : c.Notifies) :
    d.queued = c.queued ++ (tr.flatMap fun p => p.2.notifications p.1) ∧
      d.highWaterMark = c.highWaterMark ∧
      Meets (fun u l => u.highWaterMark = c.highWaterMark ∧
        (l.run u).queued = u.queued ++ l.notifications u ∧
        (0 < (l.run u).pending → .writeComplete ∉ l.notifications u)) tr := by
  suffices hall : d.settings = c.settings ∧
      d.queued = c.queued ++ (tr.flatMap fun p => p.2.notifications p.1) ∧
      Meets (fun u l => u.highWaterMark = c.highWaterMark ∧
        (l.run u).queued = u.queued ++ l.notifications u ∧
        (0 < (l.run u).pending → .writeComplete ∉ l.notifications u)) tr from
    ⟨hall.2.1, congrArg Prod.fst hall.1, hall.2.2⟩
  induction hr with
  | nil => exact ⟨rfl, by simp, meets_nil _⟩
  | @snoc tr u v l _ hs ih =>
    obtain ⟨hp, rfl⟩ := hs
    obtain ⟨hf', hl⟩ := meets_snoc.mp hf
    obtain ⟨hset, hqueued, hmeets⟩ := ih hf'
    obtain ⟨hstep, hkeep⟩ := ConnStep.queued_run (h.of_settings hset) hp hl
    refine ⟨hkeep.trans hset, ?_, meets_snoc.mpr ⟨hmeets, congrArg Prod.fst hset, hstep, ?_⟩⟩
    · rw [hstep, hqueued, List.flatMap_append, List.flatMap_singleton, List.append_assoc]
    · exact ConnStep.writeComplete_not_mem

/-- The theorem on a short write that reaches the mark, and its drain. -/
theorem run_queued_shortWrite :
    let c := (Conn.new 2 true true).connectEstablished
    ((c.sendInLoop [1, 2, 3] (.wrote 1)).handleWrite (.wrote 2)).queued =
      [.highWaterMark 2, .writeComplete] := by
  intro c
  have hempty : c.pending = 0 := by
    rw [Conn.pending_eq]
    simp [c, Conn.connectEstablished, Conn.new, Conn.setState, Conn.invoke]
  have hsent : (c.sendInLoop [1, 2, 3] (.wrote 1)).pending = 2 := by
    rw [Conn.pending_eq]
    simp [c, Conn.sendInLoop, Conn.connectEstablished, Conn.new, Conn.setState, Conn.invoke,
      Conn.directWrite, Conn.keepRemaining]
  have hdrains : (c.sendInLoop [1, 2, 3] (.wrote 1)).DrainedBy (.wrote 2) :=
    ⟨by decide, by decide, hsent.le⟩
  have hr := Machine.Run.nil (M := connMachine) (s := c)
    |>.snoc (l := ConnStep.sendInLoop [1, 2, 3] (.wrote 1)) ⟨show 1 ≤ 3 by decide, rfl⟩
    |>.snoc (t := c.sendInLoop [1, 2, 3] (.wrote 1)) (l := ConnStep.handleWrite (.wrote 2))
      ⟨hsent.ge, rfl⟩
  have hflows : Meets (fun _ l => ConnStep.Flows l)
      ([] ++ [(c, ConnStep.sendInLoop [1, 2, 3] (.wrote 1))] ++
        [(c.sendInLoop [1, 2, 3] (.wrote 1), ConnStep.handleWrite (.wrote 2))]) := by
    simp only [meets_snoc, meets_nil, ConnStep.Flows, and_self]
  have hrises : (ConnStep.sendInLoop [1, 2, 3] (.wrote 1)).notifications c =
      [.highWaterMark 2] := by
    rw [ConnStep.notifications, ConnStep.run, hsent, Conn.riseTo, hempty,
      if_neg (fun hc => absurd hc.2 (by decide)), if_pos ⟨by decide, by decide⟩, List.nil_append]
  have hcompletes : (ConnStep.handleWrite (.wrote 2)).notifications
      (c.sendInLoop [1, 2, 3] (.wrote 1)) = [.writeComplete] := by
    have hsome : 0 < (c.sendInLoop [1, 2, 3] (.wrote 1)).pending := by rw [hsent]; decide
    rw [ConnStep.notifications, ConnStep.run, hdrains.pending, if_pos ⟨hsome, rfl⟩,
      Conn.riseTo_of_le (Nat.zero_le _), List.append_nil]
  refine (run_queued hr hflows ⟨rfl, rfl⟩).1.trans ?_
  rw [List.nil_append, List.flatMap_append, List.flatMap_singleton, List.flatMap_singleton,
    hrises, hcompletes]
  rfl

end Reactor.Net
