import Reactor.Http.RequestRoundTrip
import Reactor.Net.MessageCallback

/-!
# Http — on the wire

`HttpServer::onMessage` as the message callback of a `TcpConnection`: it parses the connection's
input buffer, sends the 400 or the response as bytes, and calls `shutdown`.  `HttpConnection` keeps
of the connection what the server sees of it; here it is shown to say what goes out.

* `Answers`: how a session and an `HttpConnection` that has got the same segments correspond.
* `http_wire`: they do in every run that nothing closes, so that what goes out is the replies taken,
  each serialised, and the write side is shut down behind the one that closes.
-/

namespace Reactor.Http
open Reactor.Lib Reactor.Net

/-- `HTTP/1.1 400 Bad Request`, and two CRLF. -/
def badRequestText : List Byte :=
  text ['H', 'T', 'T', 'P', '/', '1', '.', '1', ' ', '4', '0', '0', ' ', 'B', 'a', 'd', ' ', 'R',
    'e', 'q', 'u', 'e', 's', 't'] ++ crlf ++ crlf

/-- The order in which the header map of a response is gone through. -/
abbrev HeaderOrder := HttpResponse → List (List Byte × List Byte)

/-- What `onRequest` appends to its own `Buffer`, and sends. -/
def HttpResponse.bytes (entries : HeaderOrder) (r : HttpResponse) : List Byte :=
  (r.appendToBuffer (entries r) (.new kInitialSize)).content

/-- What is sent of a reply. -/
def Reply.bytes (entries : HeaderOrder) : Reply → List Byte
  | .badRequest => badRequestText
  | .response r => r.bytes entries

namespace HttpServer

/-- The calls `onRequest` makes. -/
def onRequest (httpCallback : HttpCallback) (entries : HeaderOrder) (req : HttpRequest) :
    List ConnCall :=
  let response := HttpConnection.respond httpCallback req
  .send (response.bytes entries) :: if response.closeConnection then [.shutdown] else []

/-- `onMessage`, by the calls it makes; it keeps the requests it has called the HTTP callback
with. -/
def onMessage (httpCallback : HttpCallback) (entries : HeaderOrder) :
    MessageCallback (List HttpRequest) := fun requests buf receiveTime =>
  (HttpContext.new.parseRequest buf receiveTime).map fun (ok, context, buf) =>
    let calls := if ok then [] else [.send badRequestText, .shutdown]
    if context.gotAll then
      (requests ++ [context.request], buf, calls ++ onRequest httpCallback entries context.request)
    else (requests, buf, calls)

/-- `defaultHttpCallback` -/
def defaultHttpCallback : HttpCallback := fun _ r =>
  { r with
    statusCode := 404
    statusMessage := text ['N', 'o', 't', ' ', 'F', 'o', 'u', 'n', 'd']
    closeConnection := true }

end HttpServer

namespace HttpConnection

variable (httpCallback : HttpCallback)

theorem receiveAll_snoc (c : HttpConnection) (segments : List (Int × List Byte))
    (segment : Int × List Byte) :
    c.receiveAll httpCallback (segments ++ [segment]) =
      (c.receiveAll httpCallback segments).bind fun c => c.receive httpCallback segment := by
  induction segments generalizing c with
  | nil => simp [receiveAll]
  | cons s segments ih => simp [receiveAll, Option.bind_assoc, ih]

/-- The calls of one `onMessage`, after `parseRequest`. -/
def calls (entries : HeaderOrder) (ok : Bool) (context : HttpContext) : List ConnCall :=
  (if ok then [] else [.send badRequestText, .shutdown]) ++
    if context.gotAll then HttpServer.onRequest httpCallback entries context.request else []

/-- **One `onMessage` on a connected connection** takes the replies its calls send before the first
`shutdown`, and is disconnecting if there is one. -/
theorem handle_connected (entries : HeaderOrder) {c : HttpConnection} (h : c.state = .kConnected)
    (ok : Bool) (context : HttpContext) :
    ∃ replies, (c.handle httpCallback ok context).accepted = c.accepted ++ replies ∧
      replies.flatMap (Reply.bytes entries) = sentBytes (calls httpCallback entries ok context) ∧
      (c.handle httpCallback ok context).state =
        if .shutdown ∈ calls httpCallback entries ok context then .kDisconnecting
        else .kConnected := by
  cases ok with
  | false =>
    refine ⟨[.badRequest], ?_, by simp [calls, sentBytes, Reply.bytes], ?_⟩
    · cases hg : context.gotAll <;> simp [handle, hg, onRequest, send, shutdown, h]
    · cases hg : context.gotAll <;> simp [handle, hg, onRequest, send, shutdown, h, calls]
  | true =>
    cases hg : context.gotAll with
    | false =>
      refine ⟨[], ?_, ?_, ?_⟩ <;> simp [handle, hg, h, calls, sentBytes]
    | true =>
      refine ⟨[.response (respond httpCallback context.request)], ?_, ?_, ?_⟩ <;>
      cases hc : (respond httpCallback context.request).closeConnection <;>
        simp [handle, hg, onRequest, send, shutdown, h, hc, calls, HttpServer.onRequest, sentBytes,
          Reply.bytes]

/-- Otherwise it takes nothing. -/
theorem handle_of_ne {c : HttpConnection} (h : c.state ≠ .kConnected) (ok : Bool)
    (context : HttpContext) :
    (c.handle httpCallback ok context).accepted = c.accepted ∧
      (c.handle httpCallback ok context).state = c.state := by
  cases ok <;> cases hg : context.gotAll <;> simp [handle, hg, onRequest, send, shutdown, h]

/-- The callback is called once the request is complete. -/
theorem handle_requests (c : HttpConnection) (ok : Bool) (context : HttpContext) :
    (c.handle httpCallback ok context).requests =
      c.requests ++ if context.gotAll then [context.request] else [] := by
  cases ok <;> cases hg : context.gotAll <;> simp [handle, hg]

theorem handle_inputBuffer (c : HttpConnection) (ok : Bool) (context : HttpContext) :
    (c.handle httpCallback ok context).inputBuffer = c.inputBuffer := by
  cases ok <;> cases hg : context.gotAll <;> simp [handle, hg, onRequest] <;> split <;> simp

end HttpConnection

/-- `parseRequest` sees of the buffer its content only. -/
theorem HttpContext.parseRequest_content {buf left : ValidBuffer} {receiveTime : Int} {ok : Bool}
    {context : HttpContext}
    (hp : HttpContext.new.parseRequest buf receiveTime = some (ok, context, left))
    {buf' : ValidBuffer} (h : buf'.content = buf.content) :
    ∃ left', HttpContext.new.parseRequest buf' receiveTime = some (ok, context, left') ∧
      left'.content = left.content := by
  obtain ⟨ok₁, context₁, left₁, hp₁, hfeed₁, hrest₁⟩ :=
    parseRequest_eq_feed (c := .new) (.inl rfl) buf receiveTime
  obtain ⟨ok₂, context₂, left₂, hp₂, hfeed₂, hrest₂⟩ :=
    parseRequest_eq_feed (c := .new) (.inl rfl) buf' receiveTime
  rw [hp] at hp₁
  cases hp₁
  have hlines : linesOf buf' = linesOf buf := by rw [linesOf, h, linesOf]
  have hleft : restOf buf' = restOf buf := by rw [restOf, h, restOf]
  rw [hlines, ← hfeed₁] at hfeed₂
  obtain ⟨rfl, rfl, hlines'⟩ : ok₂ = ok ∧ context₂ = context ∧ linesOf left₂ = linesOf left := by
    simpa using hfeed₂
  refine ⟨left₂, hp₂, ?_⟩
  have hrest' : restOf left₂ = restOf left := by rw [hrest₁, hrest₂, hleft]
  calc left₂.content = unlines Buffer.CR Buffer.LF (linesOf left₂) ++ restOf left₂ :=
        (unlines_lines _).symm
    _ = unlines Buffer.CR Buffer.LF (linesOf left) ++ restOf left := by rw [hlines', hrest']
    _ = left.content := unlines_lines _

/-! ### The correspondence -/

/-- A session that nothing has closed, and the connection as the server sees it. -/
structure Answers (entries : HeaderOrder) (s : Session (List HttpRequest)) (c : HttpConnection) :
    Prop where
  state : s.conn.state = c.state
  inputBuffer : s.conn.inputBuffer.content = c.inputBuffer.content
  requests : s.client = c.requests
  accepted : sentBytes s.calls = c.accepted.flatMap (Reply.bytes entries)

section

variable {httpCallback : HttpCallback} {entries : HeaderOrder}
  {s t : Session (List HttpRequest)} {l : SessionStep} {c : HttpConnection}

theorem answers_new (mark : Nat) (writeComplete highWater : Bool) :
    Answers entries (.new [] mark writeComplete highWater) .connected where
  state := rfl
  inputBuffer := by
    simp [Session.new, Conn.connectEstablished, Conn.new, Conn.setState, Conn.invoke,
      HttpConnection.connected]
  requests := rfl
  accepted := rfl

/-- What `onMessage` does to a session, in terms of `parseRequest` and `handle`. -/
theorem onMessage_eq_some {requests client : List HttpRequest} {buf left : ValidBuffer}
    {receiveTime : Int} {calls : List ConnCall}
    (h : HttpServer.onMessage httpCallback entries requests buf receiveTime =
      some (client, left, calls)) :
    ∃ ok context, HttpContext.new.parseRequest buf receiveTime = some (ok, context, left) ∧
      client = requests ++ (if context.gotAll then [context.request] else []) ∧
      calls = HttpConnection.calls httpCallback entries ok context := by
  obtain ⟨⟨ok, context, left'⟩, hparse, hcall⟩ := Option.map_eq_some_iff.mp h
  cases hg : context.gotAll <;> simp only [hg] at hcall <;> cases hcall <;>
    exact ⟨ok, context, hparse, by simp [hg], by simp [HttpConnection.calls, hg]⟩

/-- What has been accepted and what is pending are the replies taken. -/
theorem Answers.stream (h : Answers entries s c) (hs : s.Uncut) :
    s.conn.accepted ++ s.conn.outputBuffer.content = c.accepted.flatMap (Reply.bytes entries) :=
  hs.stream.trans h.accepted

/-- The write side is shut down behind the reply that closes. -/
theorem Answers.shutdownWrites (h : Answers entries s c) (hs : s.Uncut) :
    s.conn.shutdownWrites =
      if c.state = .kDisconnecting ∧ s.conn.outputBuffer.content = [] then 1 else 0 := by
  have hstate : c.state = .kDisconnecting ↔ .shutdown ∈ s.calls := by
    rw [← h.state, hs.state_eq]
    split <;> simp [*]
  exact hs.shutdownWrites.trans
    (if_congr (and_congr_left fun _ => decide_eq_true_iff.trans hstate.symm) rfl rfl)

/-- A segment, when the calls are made on the connection. -/
theorem Answers.read (h : Answers entries s c) (hs : s.Uncut) {receiveTime : Int}
    {bytes : List Byte} {client : List HttpRequest} {buf : ValidBuffer}
    {calls : List (ConnCall × WriteResult)}
    (hcall : HttpServer.onMessage httpCallback entries s.client (s.conn.inputBuffer.readFd bytes)
      receiveTime = some (client, buf, calls.map Prod.fst))
    (ht : (s.afterCallback receiveTime bytes client buf calls).Uncut) :
    ∃ c', c.receive httpCallback (receiveTime, bytes) = some c' ∧
      Answers entries (s.afterCallback receiveTime bytes client buf calls) c' := by
  obtain ⟨ok, context, hparse, hclient, hcalls⟩ := onMessage_eq_some hcall
  have hcontent : (c.inputBuffer.append bytes).content =
      (s.conn.inputBuffer.readFd bytes).content := by simp [h.inputBuffer]
  obtain ⟨left, hparse', hleft⟩ := HttpContext.parseRequest_content hparse hcontent
  have hstate : (s.afterCallback receiveTime bytes client buf calls).conn.state =
      if .shutdown ∈ s.calls ++ calls.map Prod.fst then .kDisconnecting else .kConnected :=
    ht.state_eq
  have hsc : c.state = if .shutdown ∈ s.calls then .kDisconnecting else .kConnected :=
    h.state ▸ hs.state_eq
  refine ⟨({ c with inputBuffer := left } : HttpConnection).handle httpCallback ok context,
    by rw [HttpConnection.receive, HttpConnection.onMessage, hparse']; rfl, ?_, ?_, ?_, ?_⟩
  · rw [hstate]
    by_cases hshut : .shutdown ∈ s.calls
    · have hne : c.state ≠ .kConnected := by simp [hsc, hshut]
      rw [(HttpConnection.handle_of_ne httpCallback
        (c := { c with inputBuffer := left }) hne ok context).2]
      simp [hsc, hshut]
    · have heq : c.state = .kConnected := by simp [hsc, hshut]
      obtain ⟨replies, -, -, hst⟩ := HttpConnection.handle_connected httpCallback entries
        (c := { c with inputBuffer := left }) heq ok context
      rw [hst, ← hcalls]
      simp only [List.mem_append, hshut, false_or]
  · rw [HttpConnection.handle_inputBuffer, Session.afterCallback, Conn.makeCalls_inputBuffer]
    exact hleft.symm
  · rw [HttpConnection.handle_requests, Session.afterCallback, hclient, h.requests]
  · rw [Session.afterCallback, sentBytes_append, h.accepted]
    by_cases hshut : .shutdown ∈ s.calls
    · have hne : c.state ≠ .kConnected := by simp [hsc, hshut]
      rw [(HttpConnection.handle_of_ne httpCallback
        (c := { c with inputBuffer := left }) hne ok context).1]
      simp [hshut]
    · have heq : c.state = .kConnected := by simp [hsc, hshut]
      obtain ⟨replies, hacc, hbytes, -⟩ := HttpConnection.handle_connected httpCallback entries
        (c := { c with inputBuffer := left }) heq ok context
      rw [hacc, List.flatMap_append, hbytes, ← hcalls]
      simp [hshut]

/-- A read is a segment for the connection-level model; every other step leaves that as it is. -/
theorem Step.answers (h : Answers entries s c) (hs : s.Uncut) (hl : l.StaysOpen)
    (hstep : Session.Step (HttpServer.onMessage httpCallback entries) s l t)
    (hsegments : HttpConnection.connected.receiveAll httpCallback s.segments = some c) :
    ∃ c', HttpConnection.connected.receiveAll httpCallback t.segments = some c' ∧
      Answers entries t c' := by
  have ht := hstep.uncut hs hl
  cases hstep with
  | read hne hp hcall hr =>
    obtain ⟨c', hreceive, hc'⟩ := h.read hs hcall ht
    refine ⟨c', ?_, hc'⟩
    rw [Session.afterCallback, HttpConnection.receiveAll_snoc, hsegments]
    exact hreceive
  | @conn l hn hp =>
    refine ⟨c, hsegments, ?_, ?_, h.requests, h.accepted⟩
    · rw [← h.state, ht.state_eq, hs.state_eq]
    · rw [← h.inputBuffer]
      exact congrArg ValidBuffer.content hn.inputBuffer_run

/-- A run that nothing closes, and the connection that has got its segments. -/
theorem run_answers {tr : List (Session (List HttpRequest) × SessionStep)}
    (h₀ : (sessionMachine (HttpServer.onMessage httpCallback entries) []).init s)
    (h : (sessionMachine (HttpServer.onMessage httpCallback entries) []).Run s tr t)
    (hopen : Meets (fun _ l => l.StaysOpen) tr) :
    t.Uncut ∧ ∃ c, HttpConnection.connected.receiveAll httpCallback t.segments = some c ∧
      Answers entries t c := by
  obtain ⟨mark, writeComplete, highWater, rfl⟩ := h₀
  refine h.keeps (I := fun u => u.Uncut ∧
    ∃ c, HttpConnection.connected.receiveAll httpCallback u.segments = some c ∧
      Answers entries u c) ?_ hopen
    ⟨Session.uncut_new [] mark writeComplete highWater, .connected, rfl,
      answers_new mark writeComplete highWater⟩
  rintro u l v ⟨hu, c, hc, ha⟩ hl hstep
  exact ⟨Session.Step.uncut hu hl hstep, Step.answers ha hu hl hstep hc⟩

end

/-- **What goes out.**  In every run that nothing closes, in whatever pieces reads and writes are
done: the connection as the server sees it has got the segments read, its replies are what has been
accepted by the kernel followed by what is pending, each serialised and in order, and the write side
is shut down once all of it is accepted, if the server has called `shutdown`. -/
theorem http_wire (httpCallback : HttpCallback) (entries : HeaderOrder)
    {s t : Session (List HttpRequest)} {tr : List (Session (List HttpRequest) × SessionStep)}
    (h₀ : (sessionMachine (HttpServer.onMessage httpCallback entries) []).init s)
    (h : (sessionMachine (HttpServer.onMessage httpCallback entries) []).Run s tr t)
    (hopen : Meets (fun _ l => l.StaysOpen) tr) :
    ∃ c, HttpConnection.connected.receiveAll httpCallback t.segments = some c ∧
      t.client = c.requests ∧ t.conn.inputBuffer.content = c.inputBuffer.content ∧
      t.conn.state = c.state ∧
      t.conn.accepted ++ t.conn.outputBuffer.content =
        c.accepted.flatMap (Reply.bytes entries) ∧
      t.conn.shutdownWrites =
        if c.state = .kDisconnecting ∧ t.conn.outputBuffer.content = [] then 1 else 0 := by
  obtain ⟨huncut, c, hc, ht⟩ := run_answers h₀ h hopen
  exact ⟨c, hc, ht.requests, ht.inputBuffer, ht.state, ht.stream huncut, ht.shutdownWrites huncut⟩

/-- A request the default callback answers is read, and the kernel takes nothing at first. -/
theorem HttpServer.step_getRoot : ∃ context left t,
    HttpContext.new.parseRequest ((Session.new ([] : List HttpRequest) 64 false
      false).conn.inputBuffer.readFd getRoot.bytes) 0 = some (true, context, left) ∧
    context.gotAll = true ∧
    Session.Step (HttpServer.onMessage defaultHttpCallback fun _ => []) (.new [] 64 false false)
      (.read 0 getRoot.bytes) t ∧
    t.segments = [(0, getRoot.bytes)] := by
  let s : Session (List HttpRequest) := .new [] 64 false false
  let req := readRequest 0 getRoot.requestLine getRoot.headers
  let response := HttpConnection.respond defaultHttpCallback req
  have hinput : (s.conn.inputBuffer.readFd getRoot.bytes).content = getRoot.bytes ++ [] := by
    simp [s, Session.new, Conn.connectEstablished, Conn.new, Conn.setState, Conn.invoke]
  obtain ⟨left, hp, -⟩ := getRoot.parseRequest_text [] hinput 0
  have hread : Session.Step (HttpServer.onMessage defaultHttpCallback fun _ => []) s
      (.read 0 getRoot.bytes) (s.afterCallback 0 getRoot.bytes [req] left
        [(.send (response.bytes fun _ => []), .wrote 0), (.shutdown, .wrote 0)]) := by
    refine .read (by decide) (Nat.le_trans (by decide) (Buffer.kExtraSize_le_readCapacity _)) ?_
      (by simp [ConnCall.Fits, WriteResult.Fits])
    exact congrArg (Option.map _) hp
  exact ⟨_, left, _, hp, rfl, hread, rfl⟩

/-- The theorem on that request. -/
theorem http_wire_getRoot : ∃ t response,
    (sessionMachine (HttpServer.onMessage HttpServer.defaultHttpCallback fun _ => []) []).Run
      (.new [] 64 false false) [(.new [] 64 false false, .read 0 getRoot.bytes)] t ∧
    t.conn.accepted ++ t.conn.outputBuffer.content = HttpResponse.bytes (fun _ => []) response ∧
    response.statusCode = 404 := by
  obtain ⟨context, left, t, hp, hgot, hread, hsegments⟩ := HttpServer.step_getRoot
  let response := HttpConnection.respond HttpServer.defaultHttpCallback context.request
  refine ⟨t, response, .one hread, ?_, rfl⟩
  obtain ⟨c, hc, -, -, -, hbytes, -⟩ := http_wire HttpServer.defaultHttpCallback (fun _ => [])
    ⟨64, false, false, rfl⟩ (.one hread) (by simp [Meets, SessionStep.StaysOpen])
  have hinput : (HttpConnection.connected.inputBuffer.append getRoot.bytes).content =
      ((Session.new ([] : List HttpRequest) 64 false false).conn.inputBuffer.readFd
        getRoot.bytes).content := by
    simp [HttpConnection.connected, Session.new, Conn.connectEstablished, Conn.new, Conn.setState,
      Conn.invoke]
  obtain ⟨left', hp', -⟩ := HttpContext.parseRequest_content hp hinput
  have haccepted : c.accepted = [.response response] := by
    rw [hsegments, HttpConnection.receiveAll, HttpConnection.receive, HttpConnection.onMessage,
      hp'] at hc
    simp only [Option.map_some, Option.bind_some, HttpConnection.receiveAll,
      HttpConnection.handle, hgot, if_true] at hc
    cases hc
    rfl
  rw [hbytes, haccepted]
  simp [Reply.bytes]

end Reactor.Http
