import Reactor.Http.RequestRoundTrip

/-!
# Http — requests that share a segment

`HttpServer::onMessage` makes one context for each call and one call of `parseRequest`, so it
answers one request for each segment; what follows it stays in the input buffer.

* `receive_segment`: one call on a segment of whole requests.
* `allAnswered_iff`: every request is answered at once if and only if no segment has two.
* `two_in_a_segment`: the segment that has two.
* `receiveAll_lag`: after `n` segments the first `n` requests have been answered, up to the first
  response that closes the connection; the others are in the input buffer.
-/

namespace Reactor.Http
open Reactor.Lib Reactor.Net

/-- A segment of one or more whole requests, and the time it arrives. -/
structure Segment where
  receiveTime : Int
  first : RequestText
  more : List RequestText

namespace Segment

/-- The requests of the segment, in the order in which they come. -/
def requests (s : Segment) : List RequestText := s.first :: s.more

/-- What arrives. -/
def arrival (s : Segment) : Int × List Byte :=
  (s.receiveTime, s.requests.flatMap RequestText.bytes)

end Segment

/-- The callback's argument is the request of the text. -/
structure RequestText.Read (R : RequestText) (req : HttpRequest) : Prop where
  method : req.method = R.method
  target : req.path ++ req.query = R.target
  question : 63 ∉ req.path ∧ (req.query = [] ∨ req.query.head? = some 63)
  version : req.version = R.version
  headers : req.headers = headerMap R.headers

/-- What is read of a request is the request. -/
theorem RequestText.read_readRequest (R : RequestText) (receiveTime : Int) :
    R.Read (readRequest receiveTime R.requestLine R.headers) := by
  have hline := HttpRequest.processRequestLine_string R.method_ne R.version_ne R.space .new
  have hframe := HttpRequest.foldl_addLine_frame R.headers
    { (HttpRequest.new.processRequestLine R.requestLine).2 with receiveTime := receiveTime }
  rw [← RequestText.requestLine] at hline
  rw [← readRequest, hline] at hframe
  obtain ⟨hmethod, hpath, hquery, hversion⟩ := hframe
  have hheaders := (R.isRequestLine.spec receiveTime R.headers).2
  cases hfind : find 63 R.target with
  | none =>
    simp only [HttpRequest.setTarget, hfind] at hmethod hpath hquery hversion
    exact ⟨hmethod, by rw [hpath, hquery]; exact List.append_nil _,
      by rw [hpath, hquery]; exact ⟨find_eq_none.mp hfind, .inl rfl⟩, hversion, hheaders⟩
  | some p =>
    obtain ⟨path, query⟩ := p
    obtain ⟨htarget, hquestion⟩ := find_eq_some.mp hfind
    simp only [HttpRequest.setTarget, hfind] at hmethod hpath hquery hversion
    exact ⟨hmethod, by rw [hpath, hquery, htarget],
      by rw [hpath, hquery]; exact ⟨hquestion, .inr rfl⟩, hversion, hheaders⟩

namespace HttpConnection

/-- **One call on a segment of whole requests** calls the callback with the first and leaves the
others in the input buffer. -/
theorem receive_segment (httpCallback : HttpCallback) {c : HttpConnection}
    (h : c.inputBuffer.content = []) (s : Segment) :
    ∃ c' req, c.receive httpCallback s.arrival = some c' ∧
      c'.requests = c.requests ++ [req] ∧ s.first.Read req ∧
      c'.inputBuffer.content = s.more.flatMap RequestText.bytes := by
  have hcontent : (c.inputBuffer.append s.arrival.2).content =
      s.first.bytes ++ s.more.flatMap RequestText.bytes := by
    simp [h, Segment.arrival, Segment.requests]
  obtain ⟨buf, hp, hbuf⟩ := s.first.parseRequest_text _ hcontent s.receiveTime
  have hcall : c.receive httpCallback s.arrival =
      some ({ c with inputBuffer := buf }.handle httpCallback true
        ⟨.kGotAll, readRequest s.receiveTime s.first.requestLine s.first.headers⟩) := by
    rw [receive, onMessage]
    exact congrArg (Option.map _) hp
  refine ⟨_, _, hcall, ?_, s.first.read_readRequest s.receiveTime, ?_⟩
  · simp [handle, HttpContext.gotAll]
  · simp only [handle, HttpContext.gotAll, onRequest, if_true, decide_true]
    split <;> simpa using hbuf

end HttpConnection

/-! ### Segment after segment -/

/-- After each segment the callback has been called once for each request received so far, in
order, and the input buffer is empty. -/
def AllAnsweredFrom (httpCallback : HttpCallback) (c : HttpConnection)
    (received : List RequestText) (segments : List Segment) : Prop :=
  ∀ pre, pre <+: segments →
    ∃ t, c.receiveAll httpCallback (pre.map Segment.arrival) = some t ∧
      List.Forall₂ RequestText.Read (received ++ pre.flatMap Segment.requests) t.requests ∧
      t.inputBuffer.content = []

/-- From a connection just established. -/
def AllAnswered (httpCallback : HttpCallback) (segments : List Segment) : Prop :=
  AllAnsweredFrom httpCallback .connected [] segments

/-- The first segment must be answered whole, and then the rest must. -/
theorem allAnsweredFrom_cons (httpCallback : HttpCallback) {c c' : HttpConnection}
    {received : List RequestText} {s : Segment} {segments : List Segment}
    (hc : c.receive httpCallback s.arrival = some c')
    (h : List.Forall₂ RequestText.Read received c.requests) (hbuf : c.inputBuffer.content = []) :
    AllAnsweredFrom httpCallback c received (s :: segments) ↔
      AllAnsweredFrom httpCallback c' (received ++ s.requests) segments := by
  constructor
  · intro hall pre hpre
    obtain ⟨t, ht, hreqs, hempty⟩ := hall (s :: pre) (List.cons_prefix_cons.mpr ⟨rfl, hpre⟩)
    rw [List.map_cons, HttpConnection.receiveAll, hc] at ht
    exact ⟨t, ht, by simpa using hreqs, hempty⟩
  · intro hall pre hpre
    cases pre with
    | nil => exact ⟨c, rfl, by simpa using h, hbuf⟩
    | cons s' pre =>
      obtain ⟨rfl, htail⟩ := List.cons_prefix_cons.mp hpre
      obtain ⟨t, ht, hreqs, hempty⟩ := hall pre htail
      exact ⟨t, by rw [List.map_cons, HttpConnection.receiveAll, hc]; exact ht,
        by simpa using hreqs, hempty⟩

/-- From a connection that has answered all it got: the rest is answered if no segment has more than
one request. -/
theorem allAnsweredFrom_iff (httpCallback : HttpCallback) {c : HttpConnection}
    {received : List RequestText} (segments : List Segment)
    (h : List.Forall₂ RequestText.Read received c.requests) (hbuf : c.inputBuffer.content = []) :
    AllAnsweredFrom httpCallback c received segments ↔ ∀ s ∈ segments, s.more = [] := by
  induction segments generalizing c received with
  | nil =>
    refine iff_of_true (fun pre hpre => ?_) (by simp)
    rw [List.prefix_nil.mp hpre]
    exact ⟨c, rfl, by simpa using h, hbuf⟩
  | cons s segments ih =>
    obtain ⟨c', req, hc, hreqs, hread, hleft⟩ := c.receive_segment httpCallback hbuf s
    rw [allAnsweredFrom_cons httpCallback hc h hbuf, List.forall_mem_cons]
    constructor
    · intro hall
      -- after this call there is one request more, so the segment had one
      obtain ⟨t, ht, hforall, -⟩ := hall [] (List.nil_prefix)
      cases ht
      have hmore : s.more = [] := by
        have hlength := hforall.length_eq
        have hlength' := h.length_eq
        simp only [List.flatMap_nil, List.append_nil, List.length_append, hreqs, Segment.requests,
          List.length_cons, List.length_nil] at hlength
        exact List.eq_nil_of_length_eq_zero (by omega)
      refine ⟨hmore, (ih ?_ ?_).mp hall⟩
      · simpa using hforall
      · rw [hleft, hmore]; rfl
    · rintro ⟨hmore, hsegments⟩
      refine (ih ?_ ?_).mpr hsegments
      · rw [hreqs, Segment.requests, hmore]
        exact List.rel_append h (.cons hread .nil)
      · rw [hleft, hmore]; rfl

/-- **When every request is answered at once.**  After each segment the callback has been called
once for each request received so far and the input buffer is empty, if and only if every segment
is a single request.  It does not matter what the callback answers. -/
theorem allAnswered_iff (httpCallback : HttpCallback) (segments : List Segment) :
    AllAnswered httpCallback segments ↔ ∀ s ∈ segments, s.more = [] :=
  allAnsweredFrom_iff httpCallback segments .nil (ValidBuffer.content_new _)

/-- Of two requests in one segment the second is not answered, though the connection is kept
open. -/
theorem two_in_a_segment : ¬ ∀ httpCallback : HttpCallback,
    (∀ req, (HttpConnection.respond httpCallback req).closeConnection = false) →
      ∀ segments, AllAnswered httpCallback segments := by
  intro h
  have hiff := allAnsweredFrom_iff (fun _ r => { r with closeConnection := false })
    (c := .connected) [⟨0, getRoot, [getRoot]⟩] .nil (ValidBuffer.content_new _)
  have hall := hiff.mp (h _ (fun _ => rfl) _) _ List.mem_cons_self
  cases hall

/-! ### In the long run -/

/-- One of the responses closes the connection. -/
def closes (httpCallback : HttpCallback) (reqs : List HttpRequest) : Bool :=
  reqs.any fun req => (HttpConnection.respond httpCallback req).closeConnection

/-- The responses up to the first that closes the connection. -/
def repliesTo (httpCallback : HttpCallback) : List HttpRequest → List Reply
  | [] => []
  | req :: reqs =>
    let response := HttpConnection.respond httpCallback req
    .response response :: if response.closeConnection then [] else repliesTo httpCallback reqs

/-- One more request has a reply unless an earlier one closed the connection. -/
theorem repliesTo_snoc (httpCallback : HttpCallback) (reqs : List HttpRequest)
    (req : HttpRequest) : repliesTo httpCallback (reqs ++ [req]) =
      repliesTo httpCallback reqs ++ if closes httpCallback reqs then []
        else [.response (HttpConnection.respond httpCallback req)] := by
  induction reqs with
  | nil => simp [repliesTo, closes]
  | cons first reqs ih =>
    cases hc : (HttpConnection.respond httpCallback first).closeConnection with
    | true => simp [repliesTo, closes, hc]
    | false => simpa [repliesTo, closes, hc] using ih

namespace HttpConnection

/-- The callback has been called with the requests `called`, and the texts in `queue` wait in the
input buffer. -/
structure Behind (httpCallback : HttpCallback) (called queue : List RequestText)
    (c : HttpConnection) : Prop where
  inputBuffer : c.inputBuffer.content = queue.flatMap RequestText.bytes
  requests : List.Forall₂ RequestText.Read called c.requests
  accepted : c.accepted = repliesTo httpCallback c.requests
  state : c.state = if closes httpCallback c.requests then .kDisconnecting else .kConnected

/-- `onRequest` sends the response as long as no earlier one has closed the connection. -/
theorem onRequest_replies (httpCallback : HttpCallback) {c : HttpConnection} (req : HttpRequest)
    (ha : c.accepted = repliesTo httpCallback c.requests)
    (hs : c.state = if closes httpCallback c.requests then .kDisconnecting else .kConnected) :
    (c.onRequest httpCallback req).accepted = repliesTo httpCallback (c.requests ++ [req]) ∧
      (c.onRequest httpCallback req).state =
        if closes httpCallback (c.requests ++ [req]) then .kDisconnecting else .kConnected := by
  have hcloses : closes httpCallback (c.requests ++ [req]) =
      (closes httpCallback c.requests || (respond httpCallback req).closeConnection) := by
    simp [closes]
  rw [repliesTo_snoc, hcloses]
  cases hc : closes httpCallback c.requests <;>
    cases hr : (respond httpCallback req).closeConnection <;>
      simp [onRequest, send, shutdown, hs, ha, hc, hr]

/-- **A segment of whole requests has one answered**: the one at the head of the queue. -/
theorem Behind.receive {httpCallback : HttpCallback} {called queue queue' : List RequestText}
    {R : RequestText} {c : HttpConnection} (h : Behind httpCallback called queue c) (s : Segment)
    (hqueue : queue ++ s.requests = R :: queue') :
    ∃ c', c.receive httpCallback s.arrival = some c' ∧
      Behind httpCallback (called ++ [R]) queue' c' := by
  have hcontent : (c.inputBuffer.append s.arrival.2).content =
      R.bytes ++ queue'.flatMap RequestText.bytes := by
    rw [ValidBuffer.content_append, h.inputBuffer, Segment.arrival, ← List.flatMap_append, hqueue,
      List.flatMap_cons]
  obtain ⟨buf, hp, hbuf⟩ := R.parseRequest_text _ hcontent s.receiveTime
  let req := readRequest s.receiveTime R.requestLine R.headers
  have hcall : c.receive httpCallback s.arrival =
      some ({ c with inputBuffer := buf }.onRequest httpCallback req) := by
    rw [HttpConnection.receive, onMessage]
    exact congrArg (Option.map _) hp
  obtain ⟨ha, hs⟩ := onRequest_replies httpCallback (c := { c with inputBuffer := buf }) req
    h.accepted h.state
  refine ⟨_, hcall, ?_, ?_, ?_, ?_⟩
  · simp only [onRequest]
    split <;> simpa using hbuf
  · rw [onRequest_requests]
    exact List.rel_append h.requests (.cons (R.read_readRequest s.receiveTime) .nil)
  · rw [ha, onRequest_requests]
  · rw [hs, onRequest_requests]

/-- Each segment has one request answered, the first of those that wait; the rest waits on. -/
theorem Behind.receiveAll {httpCallback : HttpCallback} {called queue : List RequestText}
    {c : HttpConnection} (h : Behind httpCallback called queue c) (segments : List Segment) :
    ∃ t, c.receiveAll httpCallback (segments.map Segment.arrival) = some t ∧
      Behind httpCallback
        (called ++ (queue ++ segments.flatMap Segment.requests).take segments.length)
        ((queue ++ segments.flatMap Segment.requests).drop segments.length) t := by
  induction segments generalizing called queue c with
  | nil => exact ⟨c, rfl, by simpa using h⟩
  | cons s segments ih =>
    obtain ⟨R, queue', hqueue⟩ : ∃ R queue', queue ++ s.requests = R :: queue' := by
      cases queue with
      | nil => exact ⟨s.first, s.more, rfl⟩
      | cons R queue => exact ⟨R, queue ++ s.requests, rfl⟩
    obtain ⟨c', hc', hbehind⟩ := h.receive s hqueue
    obtain ⟨t, ht, hlast⟩ := ih hbehind
    refine ⟨t, by rw [List.map_cons, HttpConnection.receiveAll, hc']; exact ht, ?_⟩
    rw [List.flatMap_cons, ← List.append_assoc, hqueue]
    simpa using hlast

end HttpConnection

/-- **The lag.**  After `n` segments of whole requests, however many each has, the callback has been
called with the first `n` requests that came, in order, the others are still in the input buffer,
and the responses up to the first that closes the connection have been sent. -/
theorem receiveAll_lag (httpCallback : HttpCallback) (segments : List Segment) :
    ∃ t, HttpConnection.connected.receiveAll httpCallback (segments.map Segment.arrival) =
        some t ∧
      List.Forall₂ RequestText.Read
        ((segments.flatMap Segment.requests).take segments.length) t.requests ∧
      t.inputBuffer.content =
        ((segments.flatMap Segment.requests).drop segments.length).flatMap RequestText.bytes ∧
      t.accepted = repliesTo httpCallback t.requests ∧
      t.state = if closes httpCallback t.requests then .kDisconnecting else .kConnected := by
  have hnew : HttpConnection.Behind httpCallback [] [] .connected :=
    ⟨ValidBuffer.content_new _, .nil, rfl, rfl⟩
  obtain ⟨t, ht, hbehind⟩ := hnew.receiveAll segments
  exact ⟨t, ht, hbehind.requests, hbehind.inputBuffer, hbehind.accepted, hbehind.state⟩

end Reactor.Http
