import Reactor.Lib.Runs
import Reactor.Net.Buffer
import Reactor.Net.Channel

/-!
# Net — TcpConnection

`TcpConnection` in its loop thread.  `Conn` is the object together with what it has done to the
outside so far: the bytes `::write` has accepted on its descriptor, the functors it has passed to
`queueInLoop`, the number of `::shutdown(fd, SHUT_WR)` calls, and the callbacks it has invoked.
The result of each system call is an argument.  What a client does inside a callback is the next
step of a run, not part of the function that invokes the callback.

`messages` is the stream a run was asked to transmit, and `outputStream` the stream it has taken
on: the accepted bytes followed by the readable bytes of `_outputBuffer`.
-/

namespace Reactor.Net
open Reactor.Lib

/-- `StateE` -/
inductive StateE where
  | kDisconnected
  | kConnecting
  | kConnected
  | kDisconnecting
  deriving DecidableEq, Repr

/-- The values of `errno` that `sendInLoop` tells apart. -/
inductive Errno where
  | EWOULDBLOCK
  | EPIPE
  | ECONNRESET
  | other (code : Nat)
  deriving DecidableEq, Repr

/-- What `::write` returned. -/
inductive WriteResult where
  | wrote (n : Nat)
  | failed (errno : Errno)
  deriving DecidableEq, Repr

/-- `::write` accepts at most what it is offered. -/
def WriteResult.Fits : WriteResult → Nat → Prop
  | .wrote n, offered => n ≤ offered
  | .failed _, _ => True

/-- Whether `::write` can have answered so can be computed. -/
instance (r : WriteResult) (offered : Nat) : Decidable (r.Fits offered) := by
  cases r <;> unfold WriteResult.Fits <;> infer_instance

/-- What `readv` returned, with the bytes it delivered. -/
inductive ReadResult where
  | data (bytes : List Byte)
  | failed (errno : Errno)
  deriving DecidableEq, Repr

/-- The functors a connection passes to `queueInLoop`. -/
inductive ConnFunctor where
  | writeComplete
  | highWaterMark (len : Nat)
  | shutdownInLoop
  | forceCloseInLoop
  deriving DecidableEq, Repr

/-- The callbacks a connection invokes in place; the connection callback sees the state. -/
inductive ConnCallback where
  | connection (state : StateE)
  | message
  | close
  deriving DecidableEq, Repr

/-- `TcpConnection`, with what it has queued in its loop, the callbacks it has invoked and what the
kernel has taken. -/
structure TcpConnection where
  /-- `_state` -/
  state : StateE
  /-- `_channel` -/
  channel : Channel
  /-- `_inputBuffer` -/
  inputBuffer : ValidBuffer
  /-- `_outputBuffer` -/
  outputBuffer : ValidBuffer
  /-- `_highWaterMark` -/
  highWaterMark : Nat
  /-- `_writeCompleteCallback` is set. -/
  writeCompleteCallback : Bool
  /-- `_highWaterMarkCallback` is set. -/
  highWaterMarkCallback : Bool

/-- A connection and its effects so far. -/
structure Conn extends TcpConnection where
  accepted : List Byte
  queued : List ConnFunctor
  shutdownWrites : Nat
  callbacks : List ConnCallback

namespace Conn

/-- The constructor, with the callbacks and the mark then set on the connection. -/
def new (highWaterMark : Nat) (writeCompleteCallback highWaterMarkCallback : Bool) : Conn where
  state := .kConnecting
  channel := .new
  inputBuffer := .new kInitialSize
  outputBuffer := .new kInitialSize
  highWaterMark := highWaterMark
  writeCompleteCallback := writeCompleteCallback
  highWaterMarkCallback := highWaterMarkCallback
  accepted := []
  queued := []
  shutdownWrites := 0
  callbacks := []

/-- `setState(state)` -/
def setState (c : Conn) (state : StateE) : Conn := { c with state := state }

/-- `queueInLoop` of the connection's loop. -/
def queueInLoop (c : Conn) (f : ConnFunctor) : Conn := { c with queued := c.queued ++ [f] }

/-- A callback of the client is invoked. -/
def invoke (c : Conn) (cb : ConnCallback) : Conn := { c with callbacks := c.callbacks ++ [cb] }

/-- `if (_writeCompleteCallback)`, queue it. -/
def notifyWriteComplete (c : Conn) : Conn :=
  if c.writeCompleteCallback then c.queueInLoop .writeComplete else c

/-- Queue the high-water callback when `remaining` more bytes take the pending output from below
the mark to it or above. -/
def notifyHighWaterMark (c : Conn) (remaining : Nat) : Conn :=
  let oldLen := c.outputBuffer.readableBytes
  if oldLen + remaining ≥ c.highWaterMark ∧ oldLen < c.highWaterMark ∧ c.highWaterMarkCallback then
    c.queueInLoop (.highWaterMark (oldLen + remaining))
  else c

/-- `if (!_channel->isWriting())`, enable writing. -/
def requestWriting (c : Conn) : Conn :=
  if c.channel.isWriting then c else { c with channel := c.channel.enableWriting }

/-- The direct `::write` of `sendInLoop`: the connection, `nwrote`, `remaining` and `faultError`
after it. -/
def directWrite (c : Conn) (data : List Byte) : WriteResult → Conn × Nat × Nat × Bool
  | .wrote nwrote =>
    let remaining := data.length - nwrote
    let c := { c with accepted := c.accepted ++ data.take nwrote }
    (if remaining = 0 then c.notifyWriteComplete else c, nwrote, remaining, false)
  | .failed errno =>
    -- the code assigns `faultError = false` for a broken pipe too
    (c, 0, data.length, if errno ≠ .EWOULDBLOCK ∧ (errno = .EPIPE ∨ errno = .ECONNRESET) then false
      else false)

/-- The part of `sendInLoop` that keeps what was not written. -/
def keepRemaining (c : Conn) (data : List Byte) (nwrote remaining : Nat) : Conn :=
  let c := c.notifyHighWaterMark remaining
  let c := { c with outputBuffer := c.outputBuffer.append ((data.drop nwrote).take remaining) }
  c.requestWriting

/-- `sendInLoop(data, len)`; `r` is the result of the direct write, if there is one. -/
def sendInLoop (c : Conn) (data : List Byte) (r : WriteResult) : Conn :=
  if c.state = .kDisconnected then c
  else
    let (c, nwrote, remaining, faultError) :=
      if !c.channel.isWriting && c.outputBuffer.readableBytes == 0 then c.directWrite data r
      else (c, 0, data.length, false)
    if !faultError && 0 < remaining then c.keepRemaining data nwrote remaining else c

/-- `shutdownInLoop()` -/
def shutdownInLoop (c : Conn) : Conn :=
  if c.channel.isWriting then c else { c with shutdownWrites := c.shutdownWrites + 1 }

/-- `shutdown()` called in the loop thread, where `runInLoop` runs the functor at once. -/
def shutdown (c : Conn) : Conn :=
  if c.state = .kConnected then (c.setState .kDisconnecting).shutdownInLoop else c

/-- `forceClose()` -/
def forceClose (c : Conn) : Conn :=
  if c.state = .kConnected ∨ c.state = .kDisconnecting then
    (c.setState .kDisconnecting).queueInLoop .forceCloseInLoop
  else c

/-- `handleClose()` -/
def handleClose (c : Conn) : Conn :=
  let c := c.setState .kDisconnected
  let c := { c with channel := c.channel.disableAll }
  (c.invoke (.connection c.state)).invoke .close

/-- `forceCloseInLoop()` -/
def forceCloseInLoop (c : Conn) : Conn :=
  if c.state = .kConnected ∨ c.state = .kDisconnecting then c.handleClose else c

/-- `connectEstablished()` -/
def connectEstablished (c : Conn) : Conn :=
  let c := c.setState .kConnected
  let c := { c with channel := c.channel.enableReading }
  c.invoke (.connection c.state)

/-- `connectDestroyed()` -/
def connectDestroyed (c : Conn) : Conn :=
  let c := if c.state = .kConnected then
      let c := c.setState .kDisconnected
      let c := { c with channel := c.channel.disableAll }
      c.invoke (.connection c.state)
    else c
  { c with channel := c.channel.remove }

/-- `handleRead`; at the end of the stream (`n = 0`) it closes, on an error it only logs. -/
def handleRead (c : Conn) : ReadResult → Conn
  | .data bytes =>
    if 0 < bytes.length then
      { c with inputBuffer := c.inputBuffer.readFd bytes }.invoke .message
    else c.handleClose
  | .failed _ => c

/-- The part of `handleWrite` run when the output buffer has become empty. -/
def drained (c : Conn) : Conn :=
  let c := { c with channel := c.channel.disableWriting }
  let c := c.notifyWriteComplete
  if c.state = .kDisconnecting then c.shutdownInLoop else c

/-- `handleWrite`; `r` is the result of `writeFd`. -/
def handleWrite (c : Conn) (r : WriteResult) : Conn :=
  if c.channel.isWriting then
    match r with
    | .wrote n =>
      if 0 < n then
        let c := { c with
          accepted := c.accepted ++ c.outputBuffer.content.take n
          outputBuffer := c.outputBuffer.retrieve n }
        if c.outputBuffer.readableBytes = 0 then c.drained else c
      else c
    | .failed _ => c
  else c

/-- The bytes taken on: accepted by the kernel, or waiting in `_outputBuffer`. -/
def outputStream (c : Conn) : List Byte := c.accepted ++ c.outputBuffer.content

end Conn

/-! ### Runs of the loop thread -/

/-- What the loop thread may do with a connection: events, functors, and calls a client makes in
the loop thread. -/
inductive ConnStep where
  | connectEstablished
  | connectDestroyed
  | sendInLoop (data : List Byte) (r : WriteResult)
  | shutdown
  | shutdownInLoop
  | forceClose
  | forceCloseInLoop
  | handleRead (r : ReadResult)
  | handleWrite (r : WriteResult)
  | handleClose
  deriving DecidableEq

/-- What a system call cannot do: accept more than it is offered. -/
def ConnStep.Possible (c : Conn) : ConnStep → Prop
  | .sendInLoop data r => r.Fits data.length
  | .handleWrite r => r.Fits c.outputBuffer.readableBytes
  | .handleRead (.data bytes) => bytes.length ≤ c.inputBuffer.1.readCapacity
  | _ => True

/-- Whether a step is possible can be computed. -/
instance (c : Conn) (l : ConnStep) : Decidable (l.Possible c) := by
  unfold ConnStep.Possible; split <;> infer_instance

/-- What the step does. -/
def ConnStep.run (c : Conn) : ConnStep → Conn
  | .connectEstablished => c.connectEstablished
  | .connectDestroyed => c.connectDestroyed
  | .sendInLoop data r => c.sendInLoop data r
  | .shutdown => c.shutdown
  | .shutdownInLoop => c.shutdownInLoop
  | .forceClose => c.forceClose
  | .forceCloseInLoop => c.forceCloseInLoop
  | .handleRead r => c.handleRead r
  | .handleWrite r => c.handleWrite r
  | .handleClose => c.handleClose

/-- A connection in its loop thread: any steps in any order. -/
def connMachine : Machine Conn ConnStep where
  init c := ∃ mark writeComplete highWater, c = .new mark writeComplete highWater
  step c l d := l.Possible c ∧ d = l.run c

/-- The message a step hands to `sendInLoop` while the connection is not disconnected. -/
def ConnStep.message (c : Conn) : ConnStep → List Byte
  | .sendInLoop data _ => if c.state = .kDisconnected then [] else data
  | _ => []

/-- The concatenation, in call order, of the messages a run handed to `sendInLoop`. -/
def messages (tr : List (Conn × ConnStep)) : List Byte := tr.flatMap fun p => p.2.message p.1

end Reactor.Net
