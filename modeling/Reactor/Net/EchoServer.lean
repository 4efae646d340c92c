import Reactor.Net.MessageCallback

/-!
# Net — EchoServer

The server of the example: it takes all of the input buffer, sends it back, and shuts down.  It does
so at every read, so only what the first read delivers comes back.

* `echo_first_segment`: what goes out, in every run.
-/

namespace Reactor.Net
open Reactor.Lib

/-- `retrieveAllAsString`, on a buffer whose indices are in order. -/
def ValidBuffer.retrieveAllAsString (b : ValidBuffer) : List Byte × ValidBuffer :=
  (b.content, b.retrieve b.readableBytes)

/-- It is `Buffer::retrieveAllAsString`, whose assertion holds. -/
theorem ValidBuffer.retrieveAllAsString_eq (b : ValidBuffer) :
    b.1.retrieveAllAsString =
      some (b.retrieveAllAsString.1, b.retrieveAllAsString.2.1) := by
  rw [Buffer.retrieveAllAsString, Buffer.retrieveAsString, if_pos (Nat.le_refl _)]
  rfl

theorem ValidBuffer.content_retrieveAllAsString (b : ValidBuffer) :
    b.retrieveAllAsString.2.content = [] := by
  rw [retrieveAllAsString, content_retrieve, ← length_content, List.drop_length]

namespace EchoServer

/-- `EchoServer::onMessage`: the message is sent back, and the connection shut down. -/
def onMessage : MessageCallback Unit := fun _ buf _ =>
  let (msg, buf) := buf.retrieveAllAsString
  some ((), buf, [.send msg, .shutdown])

/-- The calls are those for the segments so far, and the input buffer is empty. -/
structure Echoes (s : Session Unit) : Prop where
  inputBuffer : s.conn.inputBuffer.content = []
  calls : s.calls = s.segments.flatMap fun segment => [.send segment.2, .shutdown]

/-- What a read delivers is what `onMessage` takes. -/
theorem Echoes.retrieveAllAsString_readFd {s : Session Unit} (h : Echoes s) (bytes : List Byte) :
    (s.conn.inputBuffer.readFd bytes).retrieveAllAsString.1 = bytes := by
  rw [ValidBuffer.retrieveAllAsString, ValidBuffer.content_readFd, h.inputBuffer, List.nil_append]

/-- Every step keeps it: only the first read is sent back. -/
theorem Echoes.step {s t : Session Unit} {l : SessionStep} (h : Echoes s)
    (hs : Session.Step onMessage s l t) : Echoes t := by
  cases hs with
  | @read _ bytes _ buf calls hne hp hcall hr =>
    simp only [onMessage, Option.some.injEq, Prod.mk.injEq] at hcall
    obtain ⟨-, hbuf, hcalls⟩ := hcall
    refine ⟨?_, ?_⟩
    · rw [Session.afterCallback, Conn.makeCalls_inputBuffer, ← hbuf]
      exact ValidBuffer.content_retrieveAllAsString _
    · rw [Session.afterCallback, ← hcalls, h.calls, h.retrieveAllAsString_readFd]
      simp
  | conn hn hp => exact ⟨(congrArg _ hn.inputBuffer_run).trans h.inputBuffer, h.calls⟩

/-- So it is after every run. -/
theorem run_echoes {s t : Session Unit} {tr : List (Session Unit × SessionStep)}
    (h₀ : (sessionMachine onMessage ()).init s) (h : (sessionMachine onMessage ()).Run s tr t) :
    Echoes t := by
  obtain ⟨mark, writeComplete, highWater, rfl⟩ := h₀
  refine h.keeps (I := Echoes) (C := fun _ _ => True) (fun hi _ hs => hi.step hs)
    (fun _ _ => trivial) ⟨?_, rfl⟩
  simp [Session.new, Conn.connectEstablished, Conn.new, Conn.setState, Conn.invoke]

/-- A read, when the kernel takes a byte of the answer at once. -/
theorem Echoes.read {s : Session Unit} (h : Echoes s) (receiveTime : Int) (bytes : List Byte)
    (hne : bytes ≠ []) (hlen : bytes.length ≤ Buffer.kExtraSize) :
    Session.Step onMessage s (.read receiveTime bytes) (s.afterCallback receiveTime bytes ()
      (s.conn.inputBuffer.readFd bytes).retrieveAllAsString.2
      [(.send bytes, .wrote 1), (.shutdown, .wrote 0)]) := by
  refine .read hne (hlen.trans (Buffer.kExtraSize_le_readCapacity _)) ?_ ?_
  · simp [onMessage, h.retrieveAllAsString_readFd]
  · have hlen : 1 ≤ bytes.length := List.length_pos_of_ne_nil hne
    simpa [ConnCall.Fits, WriteResult.Fits] using hlen

end EchoServer

/-- What the first read delivers. -/
def firstSegment (segments : List (Int × List Byte)) : List Byte :=
  (segments.head?.map Prod.snd).getD []

/-- What the callbacks ask for is the first segment. -/
theorem sentBytes_echo (segments : List (Int × List Byte)) :
    sentBytes (segments.flatMap fun segment => [.send segment.2, .shutdown]) =
      firstSegment segments := by
  cases segments <;> simp [sentBytes, firstSegment]

/-- **The first segment comes back, and nothing else.**  What a client of the echo server gets is
always a prefix of what the server's first read delivered; if nothing closes the connection it is
all of it, and the write side is shut down behind it.  What later reads deliver is taken off the
input buffer and lost. -/
theorem echo_first_segment {s t : Session Unit} {tr : List (Session Unit × SessionStep)}
    (h₀ : (sessionMachine EchoServer.onMessage ()).init s)
    (h : (sessionMachine EchoServer.onMessage ()).Run s tr t) :
    t.conn.accepted ++ t.conn.outputBuffer.content <+: firstSegment t.segments ∧
    t.conn.inputBuffer.content = [] ∧
    (Meets (fun _ l => l.StaysOpen) tr →
      t.conn.accepted ++ t.conn.outputBuffer.content = firstSegment t.segments ∧
      t.conn.shutdownWrites =
        if t.segments ≠ [] ∧ t.conn.outputBuffer.content = [] then 1 else 0) := by
  have hechoes := EchoServer.run_echoes h₀ h
  have hsent : sentBytes t.calls = firstSegment t.segments := by
    rw [hechoes.calls, sentBytes_echo]
  refine ⟨?_, hechoes.inputBuffer, fun hopen => ?_⟩
  · obtain ⟨calls, hpre, hstream⟩ := Session.run_stream h₀ h
    rw [Conn.outputStream] at hstream
    rw [hstream, ← hsent]
    exact sentBytes_mono hpre
  · have huncut := Session.run_uncut h₀ h hopen
    refine ⟨huncut.stream.trans hsent, ?_⟩
    have hmem : ConnCall.shutdown ∈ t.calls ↔ t.segments ≠ [] := by
      rw [hechoes.calls]
      cases t.segments <;> simp
    simpa [hmem] using huncut.shutdownWrites

/-- The theorem on a message that comes in two segments, when the kernel takes the first byte at
once. -/
theorem echo_first_segment_two : ∃ t tr,
    (sessionMachine EchoServer.onMessage ()).Run (.new () 64 false false) tr t ∧
      t.segments = [(0, [1, 2]), (1, [3])] ∧
      t.conn.accepted ++ t.conn.outputBuffer.content = [1, 2] := by
  have hinit : (sessionMachine EchoServer.onMessage ()).init (.new () 64 false false) :=
    ⟨64, false, false, rfl⟩
  have hfirst := Machine.Run.one (M := sessionMachine EchoServer.onMessage ())
    ((EchoServer.run_echoes hinit .nil).read 0 [1, 2] (by decide) (by decide))
  have hboth := hfirst.snoc
    ((EchoServer.run_echoes hinit hfirst).read 1 [3] (by decide) (by decide))
  refine ⟨_, _, hboth, rfl, ?_⟩
  have h := (echo_first_segment hinit hboth).2.2 (by simp [Meets, SessionStep.StaysOpen])
  exact h.1

end Reactor.Net
