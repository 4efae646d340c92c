import Reactor.Net.SendOverloads

/-!
# Net — message callbacks

A `TcpConnection` in its loop thread with the client that set its message callback.  The client
looks at the input buffer, takes from it, and calls `send` and `shutdown`, all of it within the
callback.  `calls` and `segments` are history: the calls so far, and what each `readFd` delivered
with the time the callback was given.

* `sentBytes`: what a list of calls asks for, the messages up to the first `shutdown`.
* `session_transmits`: what is taken on is always asked for, in order.  Until the connection is
  closed it is all that is asked for, and the write side is shut down exactly when the client has
  asked for it and nothing is pending (`Session.Uncut`).
* `writable_delivers`: enough writable events deliver all of it.
-/

namespace Reactor.Net
open Reactor.Lib

/-- A call a message callback makes on its connection: `send` of a string, or of a `Buffer` of the
callback's own, or `shutdown`. -/
inductive ConnCall where
  | send (message : List Byte)
  | shutdown
  deriving DecidableEq

/-- A message callback of a client that keeps a `σ`: from the input buffer and the time of the read,
what it keeps then, what it leaves in the buffer, and the calls it makes. -/
abbrev MessageCallback (σ : Type) :=
  σ → ValidBuffer → Int → Option (σ × ValidBuffer × List ConnCall)

/-- The bytes a list of calls asks to transmit. -/
def sentBytes : List ConnCall → List Byte
  | [] => []
  | .send message :: calls => message ++ sentBytes calls
  | .shutdown :: _ => []

theorem sentBytes_append (calls calls' : List ConnCall) :
    sentBytes (calls ++ calls') =
      sentBytes calls ++ if .shutdown ∈ calls then [] else sentBytes calls' := by
  induction calls with
  | nil => simp [sentBytes]
  | cons call calls ih =>
    cases call with
    | send message => simp [sentBytes, ih]
    | shutdown => simp [sentBytes]

/-- More calls ask for more. -/
theorem sentBytes_mono {calls calls' : List ConnCall} (h : calls <+: calls') :
    sentBytes calls <+: sentBytes calls' := by
  obtain ⟨more, rfl⟩ := h
  rw [sentBytes_append]
  exact List.prefix_append _ _

/-- There is always room for `extrabuf`, at least. -/
theorem Buffer.kExtraSize_le_readCapacity (b : Buffer) : kExtraSize ≤ b.readCapacity := by
  rw [readCapacity]
  split
  · exact Nat.le_add_left _ _
  · next h => exact Nat.not_lt.mp h

namespace Conn

/-- A call, with the result of its direct `::write` if it makes one. -/
def makeCall (c : Conn) : ConnCall × WriteResult → Conn
  | (.send message, r) => c.sendString message r
  | (.shutdown, _) => c.shutdown

/-- The calls of a callback, in order. -/
def makeCalls (c : Conn) (calls : List (ConnCall × WriteResult)) : Conn := calls.foldl makeCall c

end Conn

/-- `::write` accepts at most the message. -/
def ConnCall.Fits : ConnCall × WriteResult → Prop
  | (.send message, r) => r.Fits message.length
  | (.shutdown, _) => True

/-! ### The machine -/

/-- A connection with the client's message callback: what the client keeps, what it has called, and
what it was given. -/
structure Session (σ : Type) where
  client : σ
  conn : Conn
  calls : List ConnCall
  segments : List (Int × List Byte)

/-- A read, whose bytes the callback is given, or any other step of the connection. -/
inductive SessionStep where
  /-- `handleRead` gets bytes, and calls the message callback. -/
  | read (receiveTime : Int) (bytes : List Byte)
  | conn (l : ConnStep)

/-- What the loop thread does with the connection besides: the other events, and the functors and
calls that close it. -/
def ConnStep.NotByClient : ConnStep → Prop
  | .handleWrite _ | .handleClose | .forceClose | .forceCloseInLoop | .connectDestroyed => True
  | .handleRead (.data bytes) => bytes = []
  | .handleRead (.failed _) => True
  | .connectEstablished | .sendInLoop .. | .shutdown | .shutdownInLoop => False

variable {σ : Type}

namespace Session

/-- The connection has just been established. -/
def new (client : σ) (mark : Nat) (writeComplete highWater : Bool) : Session σ :=
  ⟨client, (Conn.new mark writeComplete highWater).connectEstablished, [], []⟩

/-- The message callback has been called on `bytes` read at `receiveTime`. -/
def afterCallback (s : Session σ) (receiveTime : Int) (bytes : List Byte) (client : σ)
    (buf : ValidBuffer) (calls : List (ConnCall × WriteResult)) : Session σ where
  client := client
  conn := { s.conn.handleRead (.data bytes) with inputBuffer := buf }.makeCalls calls
  calls := s.calls ++ calls.map Prod.fst
  segments := s.segments ++ [(receiveTime, bytes)]

/-- The steps; what the callback calls is done before `handleRead` returns. -/
inductive Step (onMessage : MessageCallback σ) : Session σ → SessionStep → Session σ → Prop where
  | read {s : Session σ} {receiveTime : Int} {bytes : List Byte} {client : σ} {buf : ValidBuffer}
      {calls : List (ConnCall × WriteResult)} (hne : bytes ≠ [])
      (hp : bytes.length ≤ s.conn.inputBuffer.1.readCapacity)
      (hcall : onMessage s.client (s.conn.inputBuffer.readFd bytes) receiveTime =
        some (client, buf, calls.map Prod.fst))
      (hr : ∀ p ∈ calls, ConnCall.Fits p) :
      Step onMessage s (.read receiveTime bytes)
        (s.afterCallback receiveTime bytes client buf calls)
  | conn {s : Session σ} {l : ConnStep} (hl : l.NotByClient) (hp : l.Possible s.conn) :
      Step onMessage s (.conn l) { s with conn := l.run s.conn }

end Session

/-- A connection with a client that keeps `client` at first. -/
def sessionMachine (onMessage : MessageCallback σ) (client : σ) :
    Machine (Session σ) SessionStep where
  init s := ∃ mark writeComplete highWater, s = .new client mark writeComplete highWater
  step := Session.Step onMessage

/-! ### The calls of one callback -/

namespace Conn

variable {c : Conn}

/-- `send` outside `kConnected` does nothing, and neither does `shutdown`. -/
theorem makeCalls_of_ne (h : c.state ≠ .kConnected) (calls : List (ConnCall × WriteResult)) :
    c.makeCalls calls = c := by
  induction calls with
  | nil => rfl
  | cons p calls ih =>
    have hsame : c.makeCall p = c := by
      rcases p with ⟨_ | _, r⟩
      · rw [makeCall, sendString, if_neg h]
      · rw [makeCall, Conn.shutdown, if_neg h]
    rw [makeCalls, List.foldl_cons, hsame]
    exact ih

/-- What a client has got from a connection that is not closed: `asked` is taken on, and the write
side is shut down if and only if the client has called `shutdown` and nothing is pending. -/
structure Serves (c : Conn) (shut : Bool) (asked : List Byte) : Prop where
  state : c.state = if shut then .kDisconnecting else .kConnected
  stream : c.outputStream = asked
  writesPending : c.WritesPending
  shutdownWrites : c.shutdownWrites = if shut ∧ c.outputBuffer.content = [] then 1 else 0

theorem Serves.send {asked message : List Byte} {r : WriteResult} (h : c.Serves false asked)
    (hr : r.Fits message.length) : (c.sendString message r).Serves false (asked ++ message) := by
  have hs : c.state = .kConnected := h.state
  refine ⟨?_, ?_, ?_, ?_⟩
  · rw [sendString, if_pos hs, (sendInLoop_frame c message r).1, hs]
    rfl
  · rw [sendString_outputStream hs, h.stream]
  · rw [sendString, if_pos hs]
    exact h.writesPending.sendInLoop hr
  · rw [sendString, if_pos hs, (sendInLoop_frame c message r).2, h.shutdownWrites]
    simp

/-- The channel waits for writing exactly if something is pending. -/
theorem WritesPending.isWriting_eq_false (h : c.WritesPending) :
    c.channel.isWriting = false ↔ c.outputBuffer.content = [] := by
  have hiff : c.channel.isWriting = true ↔ c.outputBuffer.content ≠ [] := h
  rw [← Bool.not_eq_true, hiff, not_not]

/-- The shutdown is asked for, and done if nothing is pending. -/
theorem Serves.shutdown {asked : List Byte} (h : c.Serves false asked) :
    c.shutdown.Serves true asked := by
  have hs : c.state = .kConnected := h.state
  rw [Conn.shutdown, if_pos hs]
  refine ⟨by simp [setState], by simpa using h.stream, ?_, ?_⟩
  · simpa [WritesPending, setState] using h.writesPending
  · rw [shutdownInLoop_shutdownWrites, shutdownInLoop_frame _ |>.1]
    have hzero : c.shutdownWrites = 0 := by simpa using h.shutdownWrites
    have hwriting := h.writesPending.isWriting_eq_false
    cases hw : c.channel.isWriting <;> simp_all [setState]

/-- All calls of one callback. -/
theorem Serves.makeCalls {shut : Bool} {asked : List Byte} (h : c.Serves shut asked)
    {calls : List (ConnCall × WriteResult)} (hr : ∀ p ∈ calls, ConnCall.Fits p) :
    (c.makeCalls calls).Serves (shut || decide (.shutdown ∈ calls.map Prod.fst))
      (asked ++ if shut then [] else sentBytes (calls.map Prod.fst)) := by
  induction calls generalizing c shut asked with
  | nil => simpa [Conn.makeCalls, sentBytes] using h
  | cons p calls ih =>
    cases shut with
    | true =>
      have hne : c.state ≠ .kConnected := by simp [h.state]
      rw [makeCalls_of_ne hne]
      simpa using h
    | false =>
      have hr' := fun p hp => hr p (List.mem_cons_of_mem _ hp)
      rcases p with ⟨message | _, r⟩
      · have hsend := ih (h.send (hr _ List.mem_cons_self)) hr'
        have hmem : ConnCall.shutdown ∈ ((ConnCall.send message, r) :: calls).map Prod.fst ↔
            ConnCall.shutdown ∈ calls.map Prod.fst := by simp
        simp only [hmem]
        simpa [Conn.makeCalls, makeCall, sentBytes] using hsend
      · have hshut := ih h.shutdown hr'
        simpa [Conn.makeCalls, makeCall, sentBytes] using hshut

/-! ### The input buffer -/

@[simp] theorem directWrite_inputBuffer (c : Conn) (data : List Byte) (r : WriteResult) :
    (c.directWrite data r).1.inputBuffer = c.inputBuffer := by
  cases r with
  | wrote n =>
    rw [directWrite]
    split
    · rw [notifyWriteComplete_eq]
    · rfl
  | failed errno => rfl

@[simp] theorem keepRemaining_inputBuffer (c : Conn) (data : List Byte) (nwrote remaining : Nat) :
    (c.keepRemaining data nwrote remaining).inputBuffer = c.inputBuffer := by
  obtain ⟨functors, heq⟩ := c.notifyHighWaterMark_eq remaining
  rw [keepRemaining, heq, requestWriting_eq]

@[simp] theorem sendInLoop_inputBuffer (c : Conn) (data : List Byte) (r : WriteResult) :
    (c.sendInLoop data r).inputBuffer = c.inputBuffer := by
  rw [Conn.sendInLoop]
  split
  · rfl
  · simp only []
    split <;> split <;> simp

/-- The calls leave it alone. -/
theorem makeCalls_inputBuffer (c : Conn) (calls : List (ConnCall × WriteResult)) :
    (c.makeCalls calls).inputBuffer = c.inputBuffer := by
  induction calls generalizing c with
  | nil => rfl
  | cons p calls ih =>
    refine (ih (c.makeCall p)).trans ?_
    rcases p with ⟨message | _, r⟩
    · rw [makeCall, sendString]
      split
      · exact c.sendInLoop_inputBuffer message r
      · rfl
    · rw [makeCall, Conn.shutdown]
      split
      · rw [shutdownInLoop_eq]
        rfl
      · rfl

theorem drained_inputBuffer (c : Conn) : c.drained.inputBuffer = c.inputBuffer := by
  rw [drained]
  split
  · rw [shutdownInLoop_eq, notifyWriteComplete_eq]
  · rw [notifyWriteComplete_eq]

theorem handleWrite_inputBuffer (c : Conn) (r : WriteResult) :
    (c.handleWrite r).inputBuffer = c.inputBuffer := by
  simp only [Conn.handleWrite]
  split
  · cases r with
    | failed errno => rfl
    | wrote n =>
      simp only []
      split
      · split
        · rw [drained_inputBuffer]
        · rfl
      · rfl
  · rfl

/-! ### The other events -/

/-- A write event that comes late does nothing. -/
theorem handleWrite_of_not_writing (h : c.channel.isWriting = false) (r : WriteResult) :
    c.handleWrite r = c := by
  simp [Conn.handleWrite, h]

/-- A `handleWrite` that does not drain the buffer calls no `shutdownWrite`, and leaves the buffer
empty only if it was. -/
theorem handleWrite_of_not_drained {r : WriteResult} (h : ¬ c.DrainedBy r) :
    (c.handleWrite r).shutdownWrites = c.shutdownWrites ∧
      ((c.handleWrite r).outputBuffer.content = [] → c.outputBuffer.content = []) := by
  by_cases hw : c.channel.isWriting = true
  · cases r with
    | failed errno => simp [Conn.handleWrite]
    | wrote n =>
      simp only [Conn.handleWrite, hw, if_true]
      by_cases hn : 0 < n
      · have hrest : (c.outputBuffer.retrieve n).content ≠ [] := by
          rw [ValidBuffer.content_retrieve, Ne, List.drop_eq_nil_iff, ValidBuffer.length_content]
          exact fun hle => h ⟨hw, hn, hle⟩
        rw [if_pos hn, if_neg (mt (ValidBuffer.readableBytes_eq_zero _).mp hrest)]
        exact ⟨rfl, fun he => absurd he hrest⟩
      · rw [if_neg hn]
        exact ⟨rfl, id⟩
  · rw [handleWrite_of_not_writing (by simpa using hw)]
    exact ⟨rfl, id⟩

/-- A write event does what has been asked for. -/
theorem Serves.handleWrite {shut : Bool} {asked : List Byte} (h : c.Serves shut asked)
    (r : WriteResult) : (c.handleWrite r).Serves shut asked := by
  have hpending := h.writesPending.handleWrite r
  refine ⟨by rw [handleWrite_state, h.state], by rw [handleWrite_outputStream, h.stream],
    hpending, ?_⟩
  by_cases hd : c.DrainedBy r
  · have hempty : (c.handleWrite r).outputBuffer.content = [] :=
      hpending.isWriting_eq_false.mp hd.isWriting
    cases r with
    | failed errno => exact hd.elim
    | wrote n =>
      have hne : c.outputBuffer.content ≠ [] := h.writesPending.mp hd.1
      rw [hempty, hd.handleWrite, drained_shutdownWrites, h.shutdownWrites]
      have hstate := h.state
      cases shut <;> simp_all
  · obtain ⟨hsame, hempty⟩ := handleWrite_of_not_drained hd
    have hiff : (c.handleWrite r).outputBuffer.content = [] ↔ c.outputBuffer.content = [] := by
      refine ⟨hempty, fun he => ?_⟩
      rwa [handleWrite_of_not_writing (h.writesPending.isWriting_eq_false.mpr he)]
    rw [hsame, h.shutdownWrites]
    simp only [hiff]

/-! ### What the kernel has accepted -/

theorem directWrite_accepted (c : Conn) (data : List Byte) (r : WriteResult) :
    c.accepted <+: (c.directWrite data r).1.accepted := by
  cases r with
  | wrote n =>
    rw [directWrite]
    split
    · rw [notifyWriteComplete_eq]
      exact List.prefix_append _ _
    · exact List.prefix_append _ _
  | failed errno => exact List.prefix_refl _

theorem keepRemaining_accepted (c : Conn) (data : List Byte) (nwrote remaining : Nat) :
    (c.keepRemaining data nwrote remaining).accepted = c.accepted := by
  obtain ⟨functors, heq⟩ := c.notifyHighWaterMark_eq remaining
  rw [keepRemaining, heq, requestWriting_eq]

theorem sendInLoop_accepted (c : Conn) (data : List Byte) (r : WriteResult) :
    c.accepted <+: (c.sendInLoop data r).accepted := by
  by_cases hd : c.WritesDirectly
  · rw [hd.sendInLoop]
    split
    · rw [keepRemaining_accepted]
      exact c.directWrite_accepted data r
    · exact c.directWrite_accepted data r
  · rw [Conn.sendInLoop]
    split
    · exact List.prefix_refl _
    · next hs =>
      have hbuffered : ¬ ((!c.channel.isWriting && c.outputBuffer.readableBytes == 0) = true) := by
        simpa [WritesDirectly, hs] using hd
      simp only [if_neg hbuffered]
      split
      · rw [keepRemaining_accepted]
      · exact List.prefix_refl _

theorem makeCalls_accepted (c : Conn) (calls : List (ConnCall × WriteResult)) :
    c.accepted <+: (c.makeCalls calls).accepted := by
  induction calls generalizing c with
  | nil => exact List.prefix_refl _
  | cons p calls ih =>
    refine List.IsPrefix.trans ?_ (ih (c.makeCall p))
    rcases p with ⟨message | _, r⟩
    · rw [makeCall, sendString]
      split
      · exact c.sendInLoop_accepted message r
      · exact List.prefix_refl _
    · rw [makeCall, Conn.shutdown]
      split
      · rw [shutdownInLoop_eq]
        exact List.prefix_refl _
      · exact List.prefix_refl _

theorem drained_accepted (c : Conn) : c.drained.accepted = c.accepted := by
  rw [drained]
  split
  · rw [shutdownInLoop_eq, notifyWriteComplete_eq]
  · rw [notifyWriteComplete_eq]

/-- The kernel gets the front of the pending output. -/
theorem handleWrite_accepted (h : c.channel.isWriting = true) (n : Nat) :
    (c.handleWrite (.wrote n)).accepted = c.accepted ++ c.outputBuffer.content.take n := by
  simp only [Conn.handleWrite, h, if_true]
  split
  · split
    · rw [drained_accepted]
    · rfl
  · next hn => simp [Nat.eq_zero_of_not_pos hn]

theorem handleWrite_accepted_mono (c : Conn) (r : WriteResult) :
    c.accepted <+: (c.handleWrite r).accepted := by
  by_cases hw : c.channel.isWriting = true
  · cases r with
    | wrote n =>
      rw [handleWrite_accepted hw]
      exact List.prefix_append _ _
    | failed errno => simp [Conn.handleWrite]
  · rw [handleWrite_of_not_writing (by simpa using hw)]

end Conn

/-! ### Every run -/

/-- None of it hands anything to `sendInLoop`. -/
theorem ConnStep.NotByClient.outputStream_run {c : Conn} {l : ConnStep} (hl : l.NotByClient)
    (hp : l.Possible c) : (l.run c).outputStream = c.outputStream := by
  rw [ConnStep.outputStream_run hp]
  cases l <;> first | exact List.append_nil _ | exact hl.elim

/-- Only `handleWrite` gives the kernel anything, and none of it touches the input buffer. -/
theorem ConnStep.NotByClient.frame {c : Conn} {l : ConnStep} (hl : l.NotByClient) :
    (∃ r, l = .handleWrite r) ∨
      ((l.run c).accepted = c.accepted ∧ (l.run c).inputBuffer = c.inputBuffer) := by
  cases l with
  | handleWrite r => exact .inl ⟨r, rfl⟩
  | handleRead r =>
    cases r with
    | data bytes =>
      rw [show bytes = [] from hl]
      exact .inr ⟨rfl, rfl⟩
    | failed errno => exact .inr ⟨rfl, rfl⟩
  | handleClose => exact .inr ⟨rfl, rfl⟩
  | forceClose =>
    rw [ConnStep.run, Conn.forceClose]
    split <;> exact .inr ⟨rfl, rfl⟩
  | forceCloseInLoop =>
    rw [ConnStep.run, Conn.forceCloseInLoop]
    split <;> exact .inr ⟨rfl, rfl⟩
  | connectDestroyed =>
    rw [ConnStep.run, Conn.connectDestroyed]
    split <;> exact .inr ⟨rfl, rfl⟩
  | _ => exact hl.elim

/-- A step that is no call of the client takes nothing back that the kernel has accepted. -/
theorem ConnStep.NotByClient.accepted_run {c : Conn} {l : ConnStep} (hl : l.NotByClient) :
    c.accepted <+: (l.run c).accepted := by
  rcases hl.frame with ⟨r, rfl⟩ | ⟨hacc, -⟩
  · exact c.handleWrite_accepted_mono r
  · rw [hacc]

theorem ConnStep.NotByClient.inputBuffer_run {c : Conn} {l : ConnStep} (hl : l.NotByClient) :
    (l.run c).inputBuffer = c.inputBuffer := by
  rcases hl.frame with ⟨r, rfl⟩ | ⟨-, hinput⟩
  · exact c.handleWrite_inputBuffer r
  · exact hinput

/-- None of it opens the connection. -/
theorem ConnStep.NotByClient.state_ne {c : Conn} {l : ConnStep} (hl : l.NotByClient)
    (h : c.state ≠ .kConnected) : (l.run c).state ≠ .kConnected := by
  cases l with
  | handleWrite r => rwa [ConnStep.run, Conn.handleWrite_state]
  | handleRead r =>
    cases r with
    | data bytes =>
      simp [ConnStep.run, Conn.handleRead, show bytes = [] from hl, Conn.handleClose,
        Conn.setState, Conn.invoke]
    | failed errno => exact h
  | handleClose => simp [ConnStep.run, Conn.handleClose, Conn.setState, Conn.invoke]
  | forceClose =>
    rw [ConnStep.run, Conn.forceClose]
    split
    · simp [Conn.setState, Conn.queueInLoop]
    · exact h
  | forceCloseInLoop =>
    rw [ConnStep.run, Conn.forceCloseInLoop]
    split
    · simp [Conn.handleClose, Conn.setState, Conn.invoke]
    · exact h
  | connectDestroyed => simp [ConnStep.run, Conn.connectDestroyed, h]
  | _ => exact hl.elim

/-- The steps that leave the connection as open as it is. -/
def SessionStep.StaysOpen : SessionStep → Prop
  | .read .. => True
  | .conn (.handleWrite _) | .conn (.handleRead (.failed _)) => True
  | .conn _ => False

/-- A writable event in which the kernel takes a byte of what is pending. -/
def SessionStep.Moves (s : Session σ) : SessionStep → Prop
  | .conn (.handleWrite (.wrote n)) => s.conn.outputBuffer.content ≠ [] → 0 < n
  | _ => False

/-- Whether a step brings the output on can be computed. -/
instance (s : Session σ) : (l : SessionStep) → Decidable (l.Moves s)
  | .conn (.handleWrite (.wrote n)) => inferInstanceAs (Decidable (_ → 0 < n))
  | .conn (.handleWrite (.failed _)) | .read .. | .conn .connectEstablished
  | .conn .connectDestroyed | .conn (.sendInLoop ..) | .conn .shutdown | .conn .shutdownInLoop
  | .conn .forceClose | .conn .forceCloseInLoop | .conn (.handleRead _) | .conn .handleClose =>
    .isFalse id

namespace Session

variable {onMessage : MessageCallback σ} {s t : Session σ} {l : SessionStep}

/-- All that the client has asked for is taken on. -/
def Uncut (s : Session σ) : Prop :=
  s.conn.Serves (decide (.shutdown ∈ s.calls)) (sentBytes s.calls)

/-- An uncut session is disconnecting if and only if the client has called `shutdown`. -/
theorem Uncut.state_eq (h : s.Uncut) :
    s.conn.state = if .shutdown ∈ s.calls then .kDisconnecting else .kConnected := by
  rw [h.state]
  exact if_congr (decide_eq_true_iff) rfl rfl

theorem uncut_new (client : σ) (mark : Nat) (writeComplete highWater : Bool) :
    (new client mark writeComplete highWater).Uncut where
  state := rfl
  stream := by
    simp [new, sentBytes, Conn.outputStream, Conn.new, Conn.connectEstablished, Conn.invoke,
      Conn.setState]
  writesPending := (Conn.open_connectEstablished (by simp [Conn.WritesPending, Conn.new])).2
  shutdownWrites := rfl

/-- The read itself changes nothing of the output. -/
theorem Uncut.handleRead (h : s.Uncut) {bytes : List Byte} (hne : bytes ≠ []) (buf : ValidBuffer) :
    Conn.Serves { s.conn.handleRead (.data bytes) with inputBuffer := buf }
      (decide (.shutdown ∈ s.calls)) (sentBytes s.calls) := by
  rw [Conn.handleRead, if_pos (List.length_pos_of_ne_nil hne)]
  exact ⟨h.state, h.stream, h.writesPending, h.shutdownWrites⟩

/-- A step that closes nothing keeps the connection as the client asked. -/
theorem Step.uncut (h : s.Uncut) (hl : l.StaysOpen) (hs : Step onMessage s l t) : t.Uncut := by
  cases hs with
  | @read _ bytes _ buf calls hne hp hcall hr =>
    have hmake := (h.handleRead hne buf).makeCalls hr
    have hmem : decide (ConnCall.shutdown ∈ s.calls ++ calls.map Prod.fst) =
        (decide (.shutdown ∈ s.calls) || decide (.shutdown ∈ calls.map Prod.fst)) := by
      rw [← Bool.decide_or]
      exact decide_eq_decide.mpr List.mem_append
    unfold Uncut afterCallback
    rw [sentBytes_append, hmem]
    simpa using hmake
  | @conn l hn hp =>
    cases l with
    | handleWrite r => exact h.handleWrite r
    | handleRead r =>
      cases r with
      | data bytes => exact hl.elim
      | failed errno => exact h
    | _ => exact hl.elim

/-- The connection was closed, or is being closed, and takes on no more. -/
structure Cut (s : Session σ) : Prop where
  state : s.conn.state ≠ .kConnected
  stream : ∃ calls, calls <+: s.calls ∧ s.conn.outputStream = sentBytes calls

/-- A step that closes an open connection. -/
theorem Step.cuts (h : s.Uncut) (hl : ¬ l.StaysOpen) (hs : Step onMessage s l t) : t.Cut := by
  cases hs with
  | read => exact absurd trivial hl
  | @conn l hn hp =>
    refine ⟨?_, s.calls, List.prefix_refl _, ?_⟩
    · have hopen : s.conn.state = .kConnected ∨ s.conn.state = .kDisconnecting := by
        rw [h.state]
        split
        · exact .inr rfl
        · exact .inl rfl
      cases l with
      | handleClose => simp [ConnStep.run, Conn.handleClose, Conn.setState, Conn.invoke]
      | forceClose =>
        simp [ConnStep.run, Conn.forceClose, hopen, Conn.setState, Conn.queueInLoop]
      | forceCloseInLoop =>
        simp [ConnStep.run, Conn.forceCloseInLoop, hopen, Conn.handleClose, Conn.setState,
          Conn.invoke]
      | connectDestroyed =>
        rcases hopen with hs | hs <;>
          simp [ConnStep.run, Conn.connectDestroyed, hs, Conn.setState, Conn.invoke]
      | handleRead r =>
        cases r with
        | data bytes =>
          simp [ConnStep.run, Conn.handleRead, show bytes = [] from hn, Conn.handleClose,
            Conn.setState, Conn.invoke]
        | failed errno => exact absurd trivial hl
      | handleWrite r => exact absurd trivial hl
      | _ => exact hn.elim
    · rw [hn.outputStream_run hp, h.stream]

/-- A callback outside `kConnected` changes nothing of the output. -/
theorem Step.cut (h : s.Cut) (hs : Step onMessage s l t) : t.Cut := by
  obtain ⟨calls₀, hpre, hstream⟩ := h.stream
  cases hs with
  | @read receiveTime bytes _ buf calls hne hp hcall hr =>
    have hread : ({ s.conn.handleRead (.data bytes) with inputBuffer := buf }).state ≠
        .kConnected := by
      rw [Conn.handleRead, if_pos (List.length_pos_of_ne_nil hne)]
      exact h.state
    refine ⟨?_, calls₀, hpre.trans (List.prefix_append _ _), ?_⟩
    · rw [afterCallback, Conn.makeCalls_of_ne hread]
      exact hread
    · rw [afterCallback, Conn.makeCalls_of_ne hread, ← hstream]
      exact s.conn.handleRead_outputStream (.data bytes)
  | conn hn hp => exact ⟨hn.state_ne h.state, calls₀, hpre, (hn.outputStream_run hp).trans hstream⟩

/-- Whatever the step, what goes out is all that the callback asked for, or a front of it. -/
theorem Step.uncut_or_cut (h : s.Uncut ∨ s.Cut) (hs : Step onMessage s l t) : t.Uncut ∨ t.Cut := by
  rcases h with h | h
  · by_cases hl : l.StaysOpen
    · exact .inl (hs.uncut h hl)
    · exact .inr (hs.cuts h hl)
  · exact .inr (hs.cut h)

/-- A session that nothing has closed. -/
theorem run_uncut {tr : List (Session σ × SessionStep)} {client : σ}
    (h₀ : (sessionMachine onMessage client).init s)
    (h : (sessionMachine onMessage client).Run s tr t)
    (hopen : Meets (fun _ l => l.StaysOpen) tr) : t.Uncut := by
  obtain ⟨mark, writeComplete, highWater, rfl⟩ := h₀
  exact h.keeps (I := Session.Uncut) (fun hi hl hs => Session.Step.uncut hi hl hs) hopen
    (uncut_new client mark writeComplete highWater)

/-- What is taken on, in any run. -/
theorem run_stream {tr : List (Session σ × SessionStep)} {client : σ}
    (h₀ : (sessionMachine onMessage client).init s)
    (h : (sessionMachine onMessage client).Run s tr t) :
    ∃ calls, calls <+: t.calls ∧ t.conn.outputStream = sentBytes calls := by
  obtain ⟨mark, writeComplete, highWater, rfl⟩ := h₀
  have hany : t.Uncut ∨ t.Cut :=
    h.keeps (I := fun u => u.Uncut ∨ u.Cut) (C := fun _ _ => True)
      (fun hi _ hs => Session.Step.uncut_or_cut hi hs) (fun _ _ => trivial)
      (.inl (uncut_new client mark writeComplete highWater))
  rcases hany with huncut | hcut
  · exact ⟨t.calls, List.prefix_refl _, huncut.stream⟩
  · exact hcut.stream

end Session

/-! ### A session -/

/-- A callback that answers anything with the same two bytes, and shuts down. -/
def answerOnce : MessageCallback Unit := fun _ buf _ => some ((), buf, [.send [7, 8], .shutdown])

/-- A connection that has got a byte; the kernel took one of the two bytes. -/
def answered : Session Unit :=
  let s := Session.new () 64 false false
  s.afterCallback 0 [1] () (s.conn.inputBuffer.readFd [1])
    [(.send [7, 8], .wrote 1), (.shutdown, .wrote 0)]

theorem answered_run : (sessionMachine answerOnce ()).Run (.new () 64 false false)
    [(.new () 64 false false, .read 0 [1])] answered := by
  refine .one (.read (by decide)
    (Nat.le_trans (by decide) (Buffer.kExtraSize_le_readCapacity _)) rfl ?_)
  simp [ConnCall.Fits, WriteResult.Fits]

theorem answered_pending : answered.conn.outputBuffer.content = [8] := by
  simp [answered, Session.new, Session.afterCallback, Conn.new, Conn.connectEstablished,
    Conn.setState, Conn.invoke, Conn.handleRead, Conn.makeCalls, Conn.makeCall, Conn.sendString,
    Conn.sendInLoop, Conn.directWrite, Conn.keepRemaining, Conn.shutdown]

theorem answered_write : (sessionMachine answerOnce ()).Run answered
    [(answered, .conn (.handleWrite (.wrote 1)))]
    { answered with conn := answered.conn.handleWrite (.wrote 1) } := by
  refine .one (.conn trivial ?_)
  change 1 ≤ answered.conn.outputBuffer.readableBytes
  rw [← ValidBuffer.length_content, answered_pending]
  exact Nat.le_refl 1

/-- **What a client gets.**  In every run, whatever else the loop does, the bytes the kernel has
accepted followed by those pending are what the calls of the message callback up to some point ask
for.  If nothing has closed the connection it is all of them, and the write side is shut down, once,
exactly when the client has asked for it and nothing is pending. -/
theorem session_transmits (onMessage : MessageCallback σ) (client : σ) {s t : Session σ}
    {tr : List (Session σ × SessionStep)} (h₀ : (sessionMachine onMessage client).init s)
    (h : (sessionMachine onMessage client).Run s tr t) :
    (∃ calls, calls <+: t.calls ∧
      t.conn.accepted ++ t.conn.outputBuffer.content = sentBytes calls) ∧
    (Meets (fun _ l => l.StaysOpen) tr →
      t.conn.accepted ++ t.conn.outputBuffer.content = sentBytes t.calls ∧
      t.conn.shutdownWrites =
        if .shutdown ∈ t.calls ∧ t.conn.outputBuffer.content = [] then 1 else 0) := by
  refine ⟨Session.run_stream h₀ h, fun hopen => ?_⟩
  have huncut := Session.run_uncut h₀ h hopen
  exact ⟨huncut.stream, by simpa using huncut.shutdownWrites⟩

/-- The theorem on the session that has answered. -/
theorem session_transmits_answered :
    answered.conn.accepted ++ answered.conn.outputBuffer.content = [7, 8] ∧
      answered.conn.shutdownWrites = 0 := by
  have h := (session_transmits answerOnce () ⟨64, false, false, rfl⟩ answered_run).2
    (by simp [Meets, SessionStep.StaysOpen])
  rw [answered_pending] at h ⊢
  exact h

/-! ### Delivery -/

namespace Session

variable {onMessage : MessageCallback σ} {s t : Session σ} {l : SessionStep}

/-- The bytes accepted only grow. -/
theorem Step.accepted (hs : Step onMessage s l t) : s.conn.accepted <+: t.conn.accepted := by
  cases hs with
  | @read _ bytes _ buf calls hne hp hcall hr =>
    have hread : ({ s.conn.handleRead (.data bytes) with inputBuffer := buf }).accepted =
        s.conn.accepted := by
      rw [Conn.handleRead, if_pos (List.length_pos_of_ne_nil hne)]
      rfl
    rw [← hread]
    exact Conn.makeCalls_accepted _ calls
  | conn hn hp => exact hn.accepted_run

/-- The calls made only grow. -/
theorem Step.calls (hs : Step onMessage s l t) : s.calls <+: t.calls := by
  cases hs with
  | read => exact List.prefix_append _ _
  | conn => exact List.prefix_refl _

/-- Of an uncut session with `target` asked for, a writable event either has nothing more of it to
write or accepts a byte. -/
theorem Step.moves (h : s.Uncut) (hm : l.Moves s) (hs : Step onMessage s l t) :
    s.conn.outputBuffer.content = [] ∨ s.conn.accepted.length < t.conn.accepted.length := by
  by_cases hempty : s.conn.outputBuffer.content = []
  · exact .inl hempty
  · refine .inr ?_
    cases hs with
    | read => exact hm.elim
    | @conn l hn hp =>
      cases l with
      | handleWrite r =>
        cases r with
        | failed errno => exact hm.elim
        | wrote n =>
          have hn : 0 < n := hm hempty
          have hlen := List.length_pos_of_ne_nil hempty
          rw [ConnStep.run, Conn.handleWrite_accepted (h.writesPending.mpr hempty)]
          simp only [List.length_append, List.length_take]
          omega
      | _ => exact hm.elim

/-- Along a run of writable events and reads, what was asked for at first is accepted as far as the
events reach. -/
theorem run_accepted {tr : List (Session σ × SessionStep)} {client : σ}
    (h : (sessionMachine onMessage client).Run s tr t) (hs : s.Uncut)
    (hopen : Meets (fun _ l => l.StaysOpen) tr) :
    t.Uncut ∧ s.calls <+: t.calls ∧ min (sentBytes s.calls).length
      (s.conn.accepted.length + tr.countP (fun p => p.2.Moves p.1)) ≤ t.conn.accepted.length := by
  induction h with
  | nil => exact ⟨hs, List.prefix_refl _, by simp⟩
  | @snoc tr u v l _ hst ih =>
    obtain ⟨hopen', hl⟩ := meets_snoc.mp hopen
    obtain ⟨hu, hcalls, hle⟩ := ih hopen'
    have hst' : Step onMessage u l v := hst
    refine ⟨hst'.uncut hu hl, hcalls.trans hst'.calls, ?_⟩
    have hgrow := hst'.accepted.length_le
    by_cases hm : l.Moves u
    · have hcount : (tr ++ [(u, l)]).countP (fun p => decide (p.2.Moves p.1)) =
          tr.countP (fun p => decide (p.2.Moves p.1)) + 1 := by simp [hm]
      rw [hcount]
      rcases hst'.moves hu hm with hempty | hlt
      · -- all that has been asked for is accepted already
        have hall : u.conn.accepted = sentBytes u.calls := by
          have hstream := hu.stream
          rwa [Conn.outputStream, hempty, List.append_nil] at hstream
        have htarget := (sentBytes_mono hcalls).length_le
        rw [← hall] at htarget
        omega
      · omega
    · have hcount : (tr ++ [(u, l)]).countP (fun p => decide (p.2.Moves p.1)) =
          tr.countP (fun p => decide (p.2.Moves p.1)) := by simp [hm]
      rw [hcount]
      omega

end Session

/-- **Writable events deliver.**  If nothing closes the connection, as many writable events as there
are bytes pending, in any order with reads and others, deliver all that the client had asked for; if
it had called `shutdown`, the output buffer is empty then and the write side shut down. -/
theorem writable_delivers (onMessage : MessageCallback σ) (client : σ) {s₀ s t : Session σ}
    {tr tr' : List (Session σ × SessionStep)} (h₀ : (sessionMachine onMessage client).init s₀)
    (h : (sessionMachine onMessage client).Run s₀ tr s)
    (h' : (sessionMachine onMessage client).Run s tr' t)
    (hopen : Meets (fun _ l => l.StaysOpen) (tr ++ tr'))
    (hevents : s.conn.outputBuffer.content.length ≤ tr'.countP (fun p => p.2.Moves p.1)) :
    sentBytes s.calls <+: t.conn.accepted ∧
      (.shutdown ∈ s.calls → t.conn.accepted = sentBytes s.calls ∧ t.conn.shutdownWrites = 1) := by
  have hopen₁ : Meets (fun _ l => l.StaysOpen) tr := fun p hp =>
    hopen p (List.mem_append_left tr' hp)
  have hopen₂ : Meets (fun _ l => l.StaysOpen) tr' := fun p hp =>
    hopen p (List.mem_append_right tr hp)
  have hs := Session.run_uncut h₀ h hopen₁
  obtain ⟨ht, hcalls, hle⟩ := Session.run_accepted h' hs hopen₂
  have hasked : s.conn.accepted.length + s.conn.outputBuffer.content.length =
      (sentBytes s.calls).length := by rw [← hs.stream, Conn.outputStream, List.length_append]
  have hpre : sentBytes s.calls <+: t.conn.accepted := by
    refine List.prefix_of_prefix_length_le (sentBytes_mono hcalls) ?_ (by omega)
    rw [← ht.stream]
    exact List.prefix_append _ _
  refine ⟨hpre, fun hmem => ?_⟩
  have hmem' : ConnCall.shutdown ∈ t.calls := hcalls.subset hmem
  have hsame : sentBytes t.calls = sentBytes s.calls := by
    obtain ⟨more, hmore⟩ := hcalls
    rw [← hmore, sentBytes_append, if_pos hmem, List.append_nil]
  have hstream : t.conn.accepted ++ t.conn.outputBuffer.content = sentBytes s.calls := by
    rw [← hsame]
    exact ht.stream
  have hempty : t.conn.outputBuffer.content = [] := by
    have hlen := hpre.length_le
    rw [← hstream, List.length_append] at hlen
    exact List.length_eq_zero_iff.mp (by omega)
  refine ⟨by rwa [hempty, List.append_nil] at hstream, ?_⟩
  simpa [hmem', hempty] using ht.shutdownWrites

/-- The theorem on the byte that was pending. -/
theorem writable_delivers_answered :
    (answered.conn.handleWrite (.wrote 1)).accepted = [7, 8] ∧
      (answered.conn.handleWrite (.wrote 1)).shutdownWrites = 1 := by
  have hcalls : answered.calls = [.send [7, 8], .shutdown] := rfl
  have h := writable_delivers answerOnce () ⟨64, false, false, rfl⟩ answered_run answered_write
    (by simp [Meets, SessionStep.StaysOpen]) (by simp [answered_pending, SessionStep.Moves])
  rw [hcalls] at h
  exact h.2 (by decide)

end Reactor.Net
