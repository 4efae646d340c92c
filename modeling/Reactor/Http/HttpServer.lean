import Reactor.Http.HttpContext
import Reactor.Http.HttpResponse
import Reactor.Net.TcpConnection

/-!
# Http — HttpServer

`HttpServer::onMessage` and `onRequest`, on what they see of a connection: its state, its input
buffer, and `send` and `shutdown`, of which the first takes a reply only while the connection is
connected.  `accepted` and `requests` are history: the replies `send` took, and the requests the
HTTP callback was called with.

* `onMessage_eq`: `onMessage` always returns, and acts on the lines of the input buffer.
* `badRequest_mem_receiveAll`: a 400 that has been sent stays sent.
-/

namespace Reactor.Http
open Reactor.Lib Reactor.Net

/-- The client's callback: what it makes of the response. -/
abbrev HttpCallback := HttpRequest → HttpResponse → HttpResponse

/-- What the server hands to `send`. -/
inductive Reply where
  /-- The text `HTTP/1.1 400 Bad Request`, and two CRLF. -/
  | badRequest
  | response (r : HttpResponse)

/-- A connection as the HTTP server sees it: its state, its input, the replies taken for sending and
the requests the callback was called with. -/
structure HttpConnection where
  state : StateE
  inputBuffer : ValidBuffer
  accepted : List Reply
  requests : List HttpRequest

namespace HttpConnection

/-- A connection just established. -/
def connected : HttpConnection := ⟨.kConnected, .new kInitialSize, [], []⟩

/-- `send` of a reply: nothing of it is taken unless the connection is established. -/
def send (c : HttpConnection) (r : Reply) : HttpConnection :=
  if c.state = .kConnected then { c with accepted := c.accepted ++ [r] } else c

/-- `shutdown` of the connection. -/
def shutdown (c : HttpConnection) : HttpConnection :=
  if c.state = .kConnected then { c with state := .kDisconnecting } else c

/-- The response to `req`, when the callback has filled it in. -/
def respond (httpCallback : HttpCallback) (req : HttpRequest) : HttpResponse :=
  let connection := req.getHeader (text ['C', 'o', 'n', 'n', 'e', 'c', 't', 'i', 'o', 'n'])
  let close := connection = text ['c', 'l', 'o', 's', 'e'] || (req.version = .kHttp10 &&
    connection ≠ text ['K', 'e', 'e', 'p', '-', 'A', 'l', 'i', 'v', 'e'])
  httpCallback req (.new close)

/-- `onRequest`: the callback answers, the answer is sent, and the connection shut down if the
answer closes it. -/
def onRequest (httpCallback : HttpCallback) (c : HttpConnection) (req : HttpRequest) :
    HttpConnection :=
  let response := respond httpCallback req
  let c := { c with requests := c.requests ++ [req] }.send (.response response)
  if response.closeConnection then c.shutdown else c

/-- The part of `onMessage` after `parseRequest`. -/
def handle (httpCallback : HttpCallback) (c : HttpConnection) (ok : Bool) (context : HttpContext) :
    HttpConnection :=
  let c := if ok then c else (c.send .badRequest).shutdown
  if context.gotAll then c.onRequest httpCallback context.request else c

/-- `onMessage`, with a context of its own for each call. -/
def onMessage (httpCallback : HttpCallback) (c : HttpConnection) (receiveTime : Int) :
    Option HttpConnection :=
  (HttpContext.new.parseRequest c.inputBuffer receiveTime).map fun (ok, context, buf) =>
    { c with inputBuffer := buf }.handle httpCallback ok context

/-- A segment arrives: its bytes and the time. -/
def receive (httpCallback : HttpCallback) (c : HttpConnection) (segment : Int × List Byte) :
    Option HttpConnection :=
  { c with inputBuffer := c.inputBuffer.append segment.2 }.onMessage httpCallback segment.1

/-- The segments arrive one after another. -/
def receiveAll (httpCallback : HttpCallback) (c : HttpConnection) :
    List (Int × List Byte) → Option HttpConnection
  | [] => some c
  | segment :: segments =>
    (c.receive httpCallback segment).bind fun c => c.receiveAll httpCallback segments

/-! ### What comes out -/

variable (httpCallback : HttpCallback) (c : HttpConnection)

/-- **`onMessage` always returns**, and acts on the lines of the input buffer. -/
theorem onMessage_eq (receiveTime : Int) :
    ∃ ok context buf, (ok, context, HttpContext.linesOf buf) =
        HttpContext.feed receiveTime false .new (HttpContext.linesOf c.inputBuffer) ∧
      HttpContext.restOf buf = HttpContext.restOf c.inputBuffer ∧
      c.onMessage httpCallback receiveTime =
        some ({ c with inputBuffer := buf }.handle httpCallback ok context) := by
  obtain ⟨ok, context, buf, hp, hfeed, hrest⟩ :=
    HttpContext.parseRequest_eq_feed (c := .new) (.inl rfl) c.inputBuffer receiveTime
  exact ⟨ok, context, buf, hfeed, hrest, by rw [onMessage, hp]; rfl⟩

@[simp] theorem send_frame (r : Reply) :
    (c.send r).inputBuffer = c.inputBuffer ∧ (c.send r).requests = c.requests ∧
      (c.send r).state = c.state := by
  unfold send; split <;> simp

@[simp] theorem shutdown_frame :
    c.shutdown.inputBuffer = c.inputBuffer ∧ c.shutdown.requests = c.requests ∧
      c.shutdown.accepted = c.accepted := by
  unfold shutdown; split <;> simp

/-- A reply is taken only where the connection is established. -/
theorem mem_send {r r' : Reply} :
    r' ∈ (c.send r).accepted ↔ r' ∈ c.accepted ∨ (c.state = .kConnected ∧ r' = r) := by
  unfold send
  split
  · next h => simp [h]
  · next h => simp [h]

@[simp] theorem onRequest_requests (req : HttpRequest) :
    (c.onRequest httpCallback req).requests = c.requests ++ [req] := by
  unfold onRequest; dsimp only; split <;> simp

@[simp] theorem badRequest_mem_onRequest (req : HttpRequest) :
    .badRequest ∈ (c.onRequest httpCallback req).accepted ↔ .badRequest ∈ c.accepted := by
  unfold onRequest
  dsimp only
  split <;> simp [mem_send]

/-- A 400 that has been accepted stays. -/
theorem badRequest_mem_handle {ok : Bool} {context : HttpContext}
    (h : .badRequest ∈ c.accepted) : .badRequest ∈ (c.handle httpCallback ok context).accepted := by
  unfold handle
  dsimp only
  split <;> split <;> simp [mem_send, h]

theorem badRequest_mem_receiveAll {segments : List (Int × List Byte)} {t : HttpConnection}
    (h : .badRequest ∈ c.accepted) (ht : c.receiveAll httpCallback segments = some t) :
    .badRequest ∈ t.accepted := by
  induction segments generalizing c with
  | nil => cases ht; exact h
  | cons segment segments ih =>
    obtain ⟨c', hc', ht⟩ := Option.bind_eq_some_iff.mp ht
    refine ih c' ?_ ht
    obtain ⟨ok, context, buf, -, -, hon⟩ :=
      onMessage_eq httpCallback { c with inputBuffer := c.inputBuffer.append segment.2 } segment.1
    rw [receive, hon] at hc'
    cases hc'
    exact badRequest_mem_handle _ _ h

/-- The server takes every segment. -/
theorem exists_receiveAll (segments : List (Int × List Byte)) :
    ∃ t, c.receiveAll httpCallback segments = some t := by
  induction segments generalizing c with
  | nil => exact ⟨c, rfl⟩
  | cons segment segments ih =>
    obtain ⟨ok, context, buf, -, -, hon⟩ :=
      onMessage_eq httpCallback { c with inputBuffer := c.inputBuffer.append segment.2 } segment.1
    obtain ⟨t, ht⟩ := ih ({ c with inputBuffer := buf }.handle httpCallback ok context)
    exact ⟨t, by rw [receiveAll, receive, hon]; exact ht⟩

end HttpConnection

end Reactor.Http
