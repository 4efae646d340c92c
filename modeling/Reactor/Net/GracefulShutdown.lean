import Reactor.Net.SendAccounting

/-!
# Net — graceful shutdown

`shutdownWrite` is put off while `_outputBuffer` holds something, but not while a `send` waits in
the functor queue.  A shutdown queued behind the sends finds them done; one run in place, by
`shutdown()` in the loop thread or by `handleWrite` when it has drained the buffer, may come before
them.

* `Transmitted`: what the kernel has accepted, against what was handed over.
* `lossless_iff`: as long as no queued string is changed, each `shutdownWrite` of a run finds the
  sends before `shutdown()` accepted if and only if it does not overtake one of them.
* `queued_send_lost`: a run in which it does.
-/

namespace Reactor.Net
open Reactor.Lib

namespace SharedConn

variable {T : Type} [DecidableEq T]

/-! ### What the kernel has accepted -/

/-- The connection is open, asks for writable events exactly while output is pending, and has
taken on what was handed over. -/
structure Transmitted (s : SharedConn T) : Prop where
  notDisconnected : s.conn.state ≠ .kDisconnected
  writesPending : s.conn.WritesPending
  stream : s.conn.outputStream = s.handed.flatMap Prod.snd

omit [DecidableEq T] in
theorem Transmitted.new (threadId : T) (mark : Nat) (writeComplete highWater : Bool)
    (memory : Nat → Byte) :
    (SharedConn.new threadId (.new mark writeComplete highWater) memory).Transmitted := by
  refine ⟨?_, ?_, ?_⟩ <;>
    simp [SharedConn.new, Conn.new, Conn.WritesPending, Conn.outputStream]

omit [DecidableEq T] in
theorem Transmitted.isOpen {s : SharedConn T} (h : s.Transmitted) : s.conn.Open :=
  ⟨h.notDisconnected, h.writesPending⟩

/-- A function of the connection that sends nothing. -/
theorem Transmitted.setConn {s : SharedConn T} (h : s.Transmitted) {c : Conn} (hc : c.Open)
    (hs : c.outputStream = s.conn.outputStream) : (s.setConn c).Transmitted :=
  ⟨hc.notDisconnected, hc.writesPending, hs.trans h.stream⟩

theorem Transmitted.shutdownInLoop {s : SharedConn T} (h : s.Transmitted) :
    (s.setConn s.conn.shutdownInLoop).Transmitted :=
  h.setConn h.isOpen.shutdownInLoop (Conn.shutdownInLoop_outputStream _)

/-- `sendInLoop` puts the message behind the others. -/
theorem Transmitted.handOver {s : SharedConn T} (h : s.Transmitted) (call : Nat)
    {data : List Byte} {r : WriteResult} (hr : r.Fits data.length) :
    (s.handOver call data r).Transmitted where
  notDisconnected := by
    have : (s.conn.sendInLoop data r).state ≠ .kDisconnected := by simpa using h.notDisconnected
    exact this
  writesPending := h.writesPending.sendInLoop hr
  stream := by
    change (s.conn.sendInLoop data r).outputStream = _
    rw [s.conn.sendInLoop_outputStream hr h.notDisconnected, h.stream]
    simp [SharedConn.handOver]

/-- The handlers the loop thread runs. -/
theorem Transmitted.run {s : SharedConn T} (h : s.Transmitted) {l : ConnStep} (hl : s.Runs l)
    (hp : l.Possible s.conn) : (s.setConn (l.run s.conn)).Transmitted := by
  cases l with
  | connectEstablished =>
    exact h.setConn (Conn.open_connectEstablished h.writesPending)
      (Conn.connectEstablished_outputStream _)
  | handleRead r =>
    cases r with
    | failed errno => exact hl.elim
    | data bytes => exact h.setConn (h.isOpen.run hp hl.1) (Conn.handleRead_outputStream _ _)
  | handleWrite r => exact h.setConn (h.isOpen.run hp trivial) (Conn.handleWrite_outputStream _ _)
  | _ => exact hl.elim

/-- Every step keeps what was handed over and what goes out together. -/
theorem Step.transmitted {s t : SharedConn T} {l : SharedStep T} (hs : s.Transmitted)
    (h : Step s l t) : t.Transmitted := by
  have hsame : ∀ {u : SharedConn T}, u.conn = s.conn → u.handed = s.handed → u.Transmitted :=
    fun hc hh => ⟨by rw [hc]; exact hs.1, by rw [hc]; exact hs.2, by rw [hc, hh]; exact hs.3⟩
  cases h with
  | @call u task r hidle h hpc hr =>
    have hu : Transmitted { s with loop := u } := hsame rfl rfl
    cases task with
    | sendInLoop call arg => exact hu.handOver call (hr call arg rfl)
    | shutdownInLoop => exact hu.shutdownInLoop
    | callback | other => exact hu
  | conn l hidle hidle' hl hp => exact hs.run hl hp
  | sendAct th arg r hc hr =>
    rw [SharedConn.sendAct_eq]
    split
    · apply Transmitted.handOver _ _ hr; exact hsame rfl rfl
    · exact hsame rfl rfl
  | storeState => exact ⟨by simp [setClient, Conn.setState], hs.writesPending, hs.stream⟩
  | shutdownAct th hc =>
    rw [SharedConn.shutdownAct_eq]
    split
    · apply Transmitted.shutdownInLoop; exact hsame rfl rfl
    · exact hsame rfl rfl
  | _ => exact hsame rfl rfl

/-! ### Shutting down in order -/

/-- The kernel has accepted every byte of the send of that number: the message, and before it all
that was handed over before. -/
def Accepted (s : SharedConn T) (call : Nat) : Prop :=
  ∀ message, s.sends[call]? = some message → message ≠ [] →
    ∃ pre post, s.handed = pre ++ (call, message) :: post ∧
      pre.flatMap Prod.snd ++ message <+: s.conn.accepted

/-- A step that executes `shutdownWrite` finds accepted every send that returned before
`shutdown()` was called. -/
def Lossless (s : SharedConn T) (l : SharedStep T) : Prop :=
  ∀ t, Step s l t → s.conn.shutdownWrites < t.conn.shutdownWrites →
    ∀ call ∈ t.due, t.Accepted call

/-- A send that returned before `shutdown()` was called, of at least one byte, is still in the
functor queue. -/
def Waiting (s : SharedConn T) : Prop :=
  ∃ call arg, Task.sendInLoop call arg ∈ s.queue ∧ call ∈ s.due ∧ arg.bytes s.memory ≠ []

/-- The step executes `shutdownWrite` without going through the functor queue: `shutdown()` in the
loop thread with no output pending, or a `handleWrite` that drains the buffer of a connection in
`kDisconnecting`. -/
def ShutsDownHere (s : SharedConn T) : SharedStep T → Prop
  | .shutdownAct t => s.loop.isInLoopThread t = true ∧ s.conn.channel.isWriting = false
  | .conn (.handleWrite r) => s.conn.state = .kDisconnecting ∧ s.conn.DrainedBy r
  | _ => False

/-- No shutdown overtakes a queued send. -/
def InOrder (s : SharedConn T) (l : SharedStep T) : Prop := s.ShutsDownHere l → ¬ s.Waiting

omit [DecidableEq T] in
/-- With no output pending, what is accepted is what was handed over, and the sends that are due
are accepted unless one of them waits. -/
theorem accepted_iff {s : SharedConn T} (hc : s.Consistent) (ht : s.Transmitted)
    (hempty : s.conn.outputBuffer.content = []) :
    (∀ call ∈ s.due, s.Accepted call) ↔ ¬ s.Waiting := by
  have hacc : s.conn.accepted = s.handed.flatMap Prod.snd := by
    simpa [Conn.outputStream, hempty] using ht.stream
  constructor
  · rintro h ⟨call, arg, hq, hdue, hne⟩
    have hlt := hc.history.due call hdue
    obtain ⟨pre, post, hh, -⟩ := h call hdue _ (hc.accounted.queued call arg hq) hne
    have hhanded : call ∈ s.handed.map Prod.fst := by simp [hh]
    have hqueued : call ∈ s.queue.filterMap Task.call? := List.mem_filterMap.mpr ⟨_, hq, rfl⟩
    rcases hc.accounted.handed_or_queued hlt with ⟨-, hn⟩ | ⟨hn, -⟩
    · exact hn hqueued
    · exact hn hhanded
  · -- handed over, it lies in what is accepted behind what was handed over before
    intro hw call hdue message hm hne
    rcases hc.accounted.handed_or_queued (hc.history.due call hdue) with ⟨hh, -⟩ | ⟨-, hq⟩
    · obtain ⟨⟨call', m⟩, hp, rfl⟩ := List.mem_map.mp hh
      obtain rfl : m = message := by
        have := hc.accounted.handed _ hp
        rw [this] at hm
        exact Option.some.inj hm
      obtain ⟨pre, post, hsplit⟩ := List.append_of_mem hp
      refine ⟨pre, post, hsplit, post.flatMap Prod.snd, ?_⟩
      rw [hacc, hsplit]
      simp
    · obtain ⟨task, hmem, htask⟩ := List.mem_filterMap.mp hq
      cases task with
      | sendInLoop call' arg =>
        obtain rfl : call' = call := by simpa [Task.call?] using htask
        have := hc.accounted.queued _ arg hmem
        rw [this] at hm
        obtain rfl := Option.some.inj hm
        exact absurd ⟨_, arg, hmem, hdue, hne⟩ hw
      | _ => simp [Task.call?] at htask

omit [DecidableEq T] in
/-- A send waits among queued functors if and only if it waits among those that are not plain. -/
theorem waiting_append {s t : SharedConn T} {tasks others : List Task}
    (ho : ∀ task ∈ others, task.Plain) (hq : t.queue = tasks ++ others) (hd : t.due = s.due)
    (hm : t.memory = s.memory) :
    t.Waiting ↔ ∃ call arg, Task.sendInLoop call arg ∈ tasks ∧ call ∈ s.due ∧
      arg.bytes s.memory ≠ [] := by
  simp [Waiting, hq, hd, hm, Task.Plain.not_sendInLoop ho]

/-- What a step that executes `shutdownWrite` does to the queue. -/
theorem Step.shutdownWrite {s t : SharedConn T} {l : SharedStep T} (h : Step s l t)
    (hlt : s.conn.shutdownWrites < t.conn.shutdownWrites) :
    t.conn.channel.isWriting = false ∧ t.due = s.due ∧ t.memory = s.memory ∧
      ∃ others, (∀ task ∈ others, Task.Plain task) ∧
        ((s.ShutsDownHere l ∧ t.queue = s.queue ++ others) ∨
          (¬ s.ShutsDownHere l ∧ ∃ rest, s.queue = .shutdownInLoop :: rest ∧
            t.queue = rest ++ others)) := by
  have hnot : ¬ s.conn.shutdownWrites < s.conn.shutdownWrites := Nat.lt_irrefl _
  cases h with
  | @call u task r hidle h hpc hr =>
    cases h with
    | @call f q hpc₀ hn =>
      obtain rfl : f = task := by simpa using hpc
      cases f with
      | sendInLoop call arg =>
        change _ < (s.conn.sendInLoop _ r).shutdownWrites at hlt
        simp at hlt
      | shutdownInLoop =>
        have hw := (Conn.shutdownInLoop_lt _).mp hlt
        refine ⟨by simpa [runTask, SharedConn.setConn] using hw, rfl, rfl, ?_⟩
        exact ⟨_, plain_newCallbacks _ _, .inr ⟨id, q.contents, SwapQueue.contents_next? hn,
          setConn_queue _ _⟩⟩
      | callback f => exact absurd hlt hnot
      | other => exact absurd hlt hnot
  | conn l hidle hidle' hl hp =>
    cases l with
    | connectEstablished => exact absurd hlt hnot
    | handleRead r =>
      cases r with
      | failed errno => exact hl.elim
      | data bytes =>
        have hpos : 0 < bytes.length := List.length_pos_of_ne_nil hl.1
        simp [SharedConn.setConn, ConnStep.run, Conn.handleRead, hpos, Conn.invoke] at hlt
    | handleWrite r =>
      have hd := (s.conn.handleWrite_shutdownWrites r).mp hlt
      exact ⟨hd.2.isWriting, rfl, rfl, _, plain_newCallbacks _ _, .inl ⟨hd, setConn_queue _ _⟩⟩
    | _ => exact hl.elim
  | sendAct th arg r hc hr =>
    rw [SharedConn.sendAct_eq] at hlt
    split at hlt
    · change _ < (s.conn.sendInLoop _ r).shutdownWrites at hlt
      simp at hlt
    · exact absurd hlt hnot
  | shutdownAct th hc =>
    rw [SharedConn.shutdownAct_eq] at hlt ⊢
    split at hlt
    · next hth =>
      have hw := (Conn.shutdownInLoop_lt _).mp hlt
      rw [if_pos hth]
      refine ⟨by simpa [SharedConn.setConn, setClient] using hw, rfl, rfl, ?_⟩
      exact ⟨_, plain_newCallbacks _ _, .inl ⟨⟨hth, hw⟩, setConn_queue _ _⟩⟩
    · exact absurd hlt hnot
  | _ => exact absurd hlt hnot

/-- The write side is shut down by such a step. -/
theorem Step.shutdownWrites_lt {s t : SharedConn T} {l : SharedStep T} (h : Step s l t)
    (hl : s.ShutsDownHere l) : s.conn.shutdownWrites < t.conn.shutdownWrites := by
  cases h with
  | conn l =>
    cases l with
    | handleWrite r => exact (s.conn.handleWrite_shutdownWrites r).mpr hl
    | _ => exact hl.elim
  | shutdownAct th hc =>
    obtain ⟨hth, hw⟩ := hl
    have hact : s.shutdownAct th =
        (s.setClient th (.returning none)).setConn s.conn.shutdownInLoop := if_pos hth
    rw [hact]
    exact (Conn.shutdownInLoop_lt _).mpr hw
  | _ => exact hl.elim

/-- A step executes `shutdownWrite` without loss if and only if it overtakes no queued send. -/
theorem Step.lossless_iff_inOrder {s t : SharedConn T} {l : SharedStep T} (hc : s.Consistent)
    (ht : s.Transmitted) (hl : s.StringsKept l) (h : Step s l t) :
    s.Lossless l ↔ s.InOrder l := by
  have hiff : ∀ {u}, Step s l u → u.conn.channel.isWriting = false →
      ((∀ call ∈ u.due, u.Accepted call) ↔ ¬ u.Waiting) := by
    intro u hu hw
    have htu := hu.transmitted ht
    exact accepted_iff (hu.consistent hc hl) htu (htu.writesPending.empty hw)
  constructor
  · intro hloss hhere
    have hlt := h.shutdownWrites_lt hhere
    obtain ⟨hw, hd, hm, others, ho, ⟨-, hq⟩ | ⟨hnot, -⟩⟩ := h.shutdownWrite hlt
    · have := (hiff h hw).mp (hloss t h hlt)
      rwa [waiting_append ho hq hd hm] at this
    · exact absurd hhere hnot
  · intro hord u hu hlt
    obtain ⟨hw, hd, hm, others, ho, ⟨hhere, hq⟩ | ⟨-, rest, hq₀, hq⟩⟩ := hu.shutdownWrite hlt
    · refine (hiff hu hw).mpr ?_
      rw [waiting_append ho hq hd hm]
      exact hord hhere
    · -- the shutdown comes from the queue, and nothing that is due is behind it
      refine (hiff hu hw).mpr ?_
      rw [waiting_append ho hq hd hm]
      rintro ⟨call, arg, hmem, hdue, -⟩
      have hfirst := hc.dueFirst
      rw [hq₀] at hfirst
      exact (List.pairwise_cons.mp hfirst).1 _ hmem rfl call hdue rfl

end SharedConn

/-- **A shutdown loses nothing exactly when it overtakes no queued send.**  In a run that
overwrites no queued string, each execution of `shutdownWrite` finds accepted by the kernel every
byte of every send that saw `kConnected` and returned before `shutdown()` was called, if and only
if no shutdown that does not go through the functor queue is executed while one of these sends
waits there. -/
theorem lossless_iff {T : Type} [DecidableEq T] {s t : SharedConn T}
    {tr : List (SharedConn T × SharedStep T)} (hs : (sharedMachine T).init s)
    (hr : (sharedMachine T).Run s tr t) (hm : Meets SharedConn.StringsKept tr) :
    Meets SharedConn.Lossless tr ↔ Meets SharedConn.InOrder tr := by
  obtain ⟨threadId, mark, writeComplete, highWater, memory, rfl⟩ := hs
  refine hr.meets_iff (I := fun u => u.Consistent ∧ u.Transmitted) ?_ ?_ hm ⟨?_, ?_⟩
  · exact fun ⟨hc, ht⟩ hl hst =>
      ⟨SharedConn.Step.consistent hc hl hst, SharedConn.Step.transmitted ht hst⟩
  · exact fun ⟨hc, ht⟩ hl hst => SharedConn.Step.lossless_iff_inOrder hc ht hl hst
  · exact .new threadId _ memory
  · exact .new threadId mark writeComplete highWater memory

/-- The iff at a run in which another thread sends one byte and shuts down, both through the
queue. -/
theorem lossless_iff_queued : ∃ s tr t, (sharedMachine Bool).Run s tr t ∧
    t.conn.accepted = [1] ∧ t.conn.shutdownWrites = 1 ∧
    (Meets SharedConn.Lossless tr ↔ Meets SharedConn.InOrder tr) := by
  have hr := Machine.Run.nil (M := sharedMachine Bool)
      (s := .new false (.new 8 false false) fun _ => 0)
    |>.snoc (.loop (.enter rfl rfl) rfl)
    |>.snoc (.loop (.startPoll rfl rfl) rfl)
    |>.snoc (.loop (.pollReturn [.other] rfl (by simp)) rfl)
    |>.snoc (.conn .connectEstablished rfl rfl ⟨rfl, trivial⟩ trivial)
    |>.snoc (.send true (.buffer [1]) ⟨rfl, .of_ne rfl (by decide)⟩)
    |>.snoc (.sendAct true (.buffer [1]) (.wrote 0) rfl (Nat.zero_le _))
    |>.snoc (.loop (.queueInLoopWakeup true rfl) trivial)
    |>.snoc (.ret true rfl rfl)
    |>.snoc (.shutdown true ⟨rfl, .of_ne rfl (by decide)⟩ rfl)
    |>.snoc (.storeState true rfl)
    |>.snoc (.shutdownAct true rfl)
    |>.snoc (.loop (.queueInLoopWakeup true rfl) trivial)
    |>.snoc (.loop (.handleEvent rfl rfl) rfl)
    |>.snoc (.loop (.startPending rfl) rfl)
    |>.snoc (.loop (.swap rfl) rfl)
    |>.snoc (.call (.wrote 1) rfl (.call rfl rfl) rfl
        (by simp [SendArg.bytes, WriteResult.Fits]))
    |>.snoc (.loop (.finish rfl rfl) rfl)
    |>.snoc (.call (.wrote 0) rfl (.call rfl rfl) rfl (by simp))
  refine ⟨_, _, _, hr, rfl, rfl, lossless_iff ⟨false, 8, false, false, _, rfl⟩ hr ?_⟩
  simp only [meets_snoc, meets_nil]
  trivial

/-- A run that loses a byte: another thread sends it while the loop thread is in a handler, and
the handler then calls `shutdown()`, which runs `shutdownInLoop` before the functor of the
send. -/
theorem queued_send_lost : ¬ ∀ (s t : SharedConn Bool) tr, (sharedMachine Bool).init s →
    (sharedMachine Bool).Run s tr t → Meets SharedConn.Lossless tr := by
  intro hlasts
  have hr := Machine.Run.nil (M := sharedMachine Bool)
      (s := .new false (.new 8 false false) fun _ => 0)
    |>.snoc (.loop (.enter rfl rfl) rfl)
    |>.snoc (.loop (.startPoll rfl rfl) rfl)
    |>.snoc (.loop (.pollReturn [.other] rfl (by simp)) rfl)
    |>.snoc (.conn .connectEstablished rfl rfl ⟨rfl, trivial⟩ trivial)
    |>.snoc (.send true (.buffer [1]) ⟨rfl, .of_ne rfl (by decide)⟩)
    |>.snoc (.sendAct true (.buffer [1]) (.wrote 0) rfl (Nat.zero_le _))
    |>.snoc (.loop (.queueInLoopWakeup true rfl) trivial)
    |>.snoc (.ret true rfl rfl)
    |>.snoc (.shutdown false ⟨rfl, rfl, fun _ => trivial⟩ rfl)
    |>.snoc (.storeState false rfl)
    |>.snoc (.shutdownAct false rfl)
  have hlossless := (meets_snoc.mp (hlasts _ _ _ ⟨false, 8, false, false, _, rfl⟩ hr)).2
  obtain ⟨pre, post, hhanded, -⟩ :=
    hlossless _ (.shutdownAct false rfl) Nat.zero_lt_one 0 (by decide) [1] rfl (by simp)
  cases pre <;> cases hhanded

end Reactor.Net
