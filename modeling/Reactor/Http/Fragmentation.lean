import Reactor.Http.HttpServer

/-!
# Http — fragmentation

`HttpServer::onMessage` parses each segment with a new context, and takes a segment without a
complete line for a bad request.  So a request that arrives in several segments is answered as if
it had come in one only if each segment, with the bytes left over before it, could begin a request
of its own.

* `RequestText`: a well-formed request.
* `completed`: the lines each segment completes.
* `deliveredAsOne_iff`: when a cut does not show.
* `cut_after_G`: a cut that does.
-/

namespace Reactor.Http
open Reactor.Lib Reactor.Net

/-! ### Requests, as text and as read -/

/-- The text of a well-formed request: a supported method and version, a target without a space,
and header lines with a colon. -/
structure RequestText where
  method : Method
  target : List Byte
  version : Version
  headers : List (List Byte)
  method_ne : method ≠ .kInvalid
  version_ne : version ≠ .kUnknown
  space : 32 ∉ target
  colon : ∀ line ∈ headers, 58 ∈ line
  clean : ∀ line ∈ (method.string ++ 32 :: (target ++ 32 :: version.string)) :: headers,
    search Buffer.CR Buffer.LF line = none

namespace RequestText

/-- The request line, without its end. -/
def requestLine (R : RequestText) : List Byte :=
  R.method.string ++ 32 :: (R.target ++ 32 :: R.version.string)

/-- Its lines, the blank one included. -/
def lines (R : RequestText) : List (List Byte) := R.requestLine :: R.headers ++ [[]]

/-- What a client sends of the request: its lines, each with CR LF, and the empty one. -/
def bytes (R : RequestText) : List Byte := unlines Buffer.CR Buffer.LF R.lines

end RequestText

/-- `processRequestLine` accepts the line. -/
def IsRequestLine (line : List Byte) : Prop := (HttpRequest.new.processRequestLine line).1 = true

/-- What header lines make of the header map. -/
def headerMap (hs : List (List Byte)) : List Byte → Option (List Byte) :=
  (hs.foldl HttpRequest.addLine .new).headers

/-- The request a new context reads from a request line and header lines. -/
def readRequest (receiveTime : Int) (line : List Byte) (hs : List (List Byte)) : HttpRequest :=
  hs.foldl HttpRequest.addLine
    { (HttpRequest.new.processRequestLine line).2 with receiveTime := receiveTime }

/-- The same method, path, query, version and headers. -/
def HttpRequest.Agrees (r r' : HttpRequest) : Prop :=
  r.method = r'.method ∧ r.path = r'.path ∧ r.query = r'.query ∧ r.version = r'.version ∧
    r.headers = r'.headers

/-- The request line of a request is one that is accepted. -/
theorem RequestText.isRequestLine (R : RequestText) : IsRequestLine R.requestLine := by
  rw [IsRequestLine, requestLine,
    HttpRequest.processRequestLine_string R.method_ne R.version_ne R.space]

/-- What is read behind such a line has this line as its own, and the headers that follow. -/
theorem IsRequestLine.spec {line : List Byte} (h : IsRequestLine line) (receiveTime : Int)
    (hs : List (List Byte)) :
    line = (readRequest receiveTime line hs).requestLine ∧
      (readRequest receiveTime line hs).headers = headerMap hs := by
  have hp : HttpRequest.new.processRequestLine line =
      (true, (HttpRequest.new.processRequestLine line).2) := Prod.ext h rfl
  obtain ⟨hline, hheaders, -⟩ := HttpRequest.processRequestLine_eq_true rfl hp
  refine ⟨?_, HttpRequest.headers_foldl_addLine hs hheaders⟩
  refine hline.trans ?_
  simp [readRequest, HttpRequest.requestLine, HttpRequest.methodString]

/-- Requests read from two request lines agree if the lines do and the header maps do. -/
theorem agrees_readRequest {line line' : List Byte} (h : IsRequestLine line)
    (h' : IsRequestLine line') (t t' : Int) (hs hs' : List (List Byte)) :
    (readRequest t line hs).Agrees (readRequest t' line' hs') ↔
      line = line' ∧ headerMap hs = headerMap hs' := by
  obtain ⟨hline, hmap⟩ := h.spec t hs
  obtain ⟨hline', hmap'⟩ := h'.spec t' hs'
  constructor
  · rintro ⟨hm, hp, hq, hv, hh⟩
    refine ⟨?_, by rw [← hmap, ← hmap', hh]⟩
    rw [hline, hline', HttpRequest.requestLine, HttpRequest.requestLine, HttpRequest.methodString,
      HttpRequest.methodString, hm, hp, hq, hv]
  · rintro ⟨rfl, hh⟩
    refine ⟨?_, ?_, ?_, ?_, by rw [hmap, hmap', hh]⟩ <;> simp [readRequest]

/-! ### One segment -/

/-- A new context takes nothing off if there is no line, or the first is no request line. -/
theorem HttpContext.feed_rejected (receiveTime : Int) {todo : List (List Byte)}
    (hg : ∀ line ls, todo = line :: ls → ¬ IsRequestLine line) :
    (feed receiveTime false .new todo).1 = false ∧
      (feed receiveTime false .new todo).2.1.gotAll = false ∧
      (feed receiveTime false .new todo).2.2 = todo := by
  cases todo with
  | nil => exact ⟨rfl, rfl, rfl⟩
  | cons line ls =>
    have hbad := hg line ls rfl
    rw [feed_badLine (by simpa [IsRequestLine] using hbad)]
    exact ⟨rfl, rfl, rfl⟩

namespace HttpConnection

/-- A connection in the middle of a request, all of whose segments so far have been accepted: `r`
is what they left in the buffer. -/
structure Waiting (c : HttpConnection) (r : List Byte) : Prop where
  state : c.state = .kConnected
  content : c.inputBuffer.content = r
  unfinished : search Buffer.CR Buffer.LF r = none
  requests : c.requests = []
  accepted : .badRequest ∉ c.accepted

theorem waiting_connected : connected.Waiting [] :=
  ⟨rfl, by simp [connected], rfl, rfl, by simp [connected]⟩

/-- What a segment does, by the lines it completes. -/
theorem receive_eq (httpCallback : HttpCallback) {c : HttpConnection} {r : List Byte}
    (h : c.Waiting r) (segment : Int × List Byte) :
    ∃ ok context buf, (ok, context, HttpContext.linesOf buf) =
        HttpContext.feed segment.1 false .new (lines Buffer.CR Buffer.LF (r ++ segment.2)) ∧
      buf.content = unlines Buffer.CR Buffer.LF (HttpContext.linesOf buf) ++
        rest Buffer.CR Buffer.LF (r ++ segment.2) ∧
      c.receive httpCallback segment =
        some ({ c with inputBuffer := buf }.handle httpCallback ok context) := by
  obtain ⟨ok, context, buf, hfeed, hrest, hon⟩ := onMessage_eq httpCallback
    { c with inputBuffer := c.inputBuffer.append segment.2 } segment.1
  simp only [HttpContext.linesOf, HttpContext.restOf, ValidBuffer.content_append, h.content]
    at hfeed hrest
  refine ⟨ok, context, buf, hfeed, ?_, hon⟩
  rw [← hrest, HttpContext.linesOf, unlines_lines]

/-- With no line complete, or a first line that is no request line, the bytes stay in the buffer,
and the connection sends a 400 if it is connected, after which it is not. -/
theorem receive_rejected (httpCallback : HttpCallback) (c : HttpConnection)
    (segment : Int × List Byte)
    (hg : ∀ line ls, lines Buffer.CR Buffer.LF (c.inputBuffer.content ++ segment.2) = line :: ls →
      ¬ IsRequestLine line) :
    ∃ c', c.receive httpCallback segment = some c' ∧ c'.state ≠ .kConnected ∧
      c'.inputBuffer.content = c.inputBuffer.content ++ segment.2 ∧ c'.requests = c.requests ∧
      c'.accepted = c.accepted ++ if c.state = .kConnected then [.badRequest] else [] := by
  obtain ⟨ok, context, buf, hfeed, hrest, hon⟩ := onMessage_eq httpCallback
    { c with inputBuffer := c.inputBuffer.append segment.2 } segment.1
  simp only [HttpContext.linesOf, HttpContext.restOf, ValidBuffer.content_append] at hfeed hrest
  obtain ⟨hok, hgot, hleft⟩ := HttpContext.feed_rejected segment.1 hg
  rw [← hfeed] at hok hgot hleft
  simp only at hok hgot hleft
  have hcontent : buf.content = c.inputBuffer.content ++ segment.2 := by
    rw [← unlines_lines (a := Buffer.CR) (b := Buffer.LF) buf.content, hleft, hrest, unlines_lines]
  refine ⟨_, hon, ?_⟩
  simp only [handle, hok, hgot]
  by_cases hs : c.state = .kConnected
  · simp [send, shutdown, hs, hcontent]
  · simp [send, shutdown, hs, hcontent]

/-- A segment that completes no line, or whose first line is no request line, is answered with
a 400. -/
theorem receive_bad (httpCallback : HttpCallback) {c : HttpConnection} {r : List Byte}
    (h : c.Waiting r) (segment : Int × List Byte)
    (hg : ∀ line ls, lines Buffer.CR Buffer.LF (r ++ segment.2) = line :: ls →
      ¬ IsRequestLine line) :
    ∃ c', c.receive httpCallback segment = some c' ∧ .badRequest ∈ c'.accepted := by
  obtain ⟨c', hr, -, -, -, hacc⟩ := receive_rejected httpCallback c segment (by rwa [h.content])
  exact ⟨c', hr, by simp [hacc, h.state]⟩

/-- A segment that completes a request line and some header lines: the connection goes on
waiting, but the context is gone. -/
theorem receive_more (httpCallback : HttpCallback) {c : HttpConnection} {r : List Byte}
    (h : c.Waiting r) {segment : Int × List Byte} {line : List Byte} {hs : List (List Byte)}
    (hl : lines Buffer.CR Buffer.LF (r ++ segment.2) = line :: hs) (hline : IsRequestLine line)
    (hcolon : ∀ x ∈ hs, 58 ∈ x) :
    ∃ c', c.receive httpCallback segment = some c' ∧
      c'.Waiting (rest Buffer.CR Buffer.LF (r ++ segment.2)) := by
  obtain ⟨ok, context, buf, hfeed, hbuf, hr⟩ := receive_eq httpCallback h segment
  have hp : HttpRequest.new.processRequestLine line =
      (true, (HttpRequest.new.processRequestLine line).2) := Prod.ext hline rfl
  rw [hl, HttpContext.feed_requestLine hp, ← List.append_nil hs,
    HttpContext.feed_headers hcolon] at hfeed
  simp only [HttpContext.feed, Prod.mk.injEq] at hfeed
  obtain ⟨rfl, rfl, hlines⟩ := hfeed
  rw [hlines] at hbuf
  exact ⟨_, hr, h.state, by simpa [handle, HttpContext.gotAll] using hbuf, search_rest _,
    h.requests, h.accepted⟩

/-- A segment that completes a request line, header lines and the blank line: the callback is
called. -/
theorem receive_all (httpCallback : HttpCallback) {c : HttpConnection} {r : List Byte}
    (h : c.Waiting r) {segment : Int × List Byte} {line : List Byte} {hs : List (List Byte)}
    (hl : lines Buffer.CR Buffer.LF (r ++ segment.2) = line :: (hs ++ [[]]))
    (hline : IsRequestLine line) (hcolon : ∀ x ∈ hs, 58 ∈ x) :
    ∃ c', c.receive httpCallback segment = some c' ∧
      c'.requests = [readRequest segment.1 line hs] ∧ .badRequest ∉ c'.accepted := by
  obtain ⟨ok, context, buf, hfeed, hbuf, hr⟩ := receive_eq httpCallback h segment
  have hp : HttpRequest.new.processRequestLine line =
      (true, (HttpRequest.new.processRequestLine line).2) := Prod.ext hline rfl
  rw [hl, HttpContext.feed_requestLine hp, HttpContext.feed_headers hcolon] at hfeed
  simp only [HttpContext.feed, find, Prod.mk.injEq] at hfeed
  obtain ⟨rfl, rfl, hlines⟩ := hfeed
  refine ⟨_, hr, ?_, ?_⟩
  · simp [handle, HttpContext.gotAll, h.requests, readRequest]
  · simpa [handle, HttpContext.gotAll] using h.accepted

end HttpConnection

/-! ### Every cut -/

/-- The lines each segment completes, when `r` is left over from before. -/
def completed (r : List Byte) : List (List Byte) → List (List (List Byte))
  | [] => []
  | segment :: segments =>
    lines Buffer.CR Buffer.LF (r ++ segment) ::
      completed (rest Buffer.CR Buffer.LF (r ++ segment)) segments

/-- Each segment completes a line, the first of them is a request line, and the last segment
repeats the request line and completes header lines that give the same map. -/
def Repeats (requestLine : List Byte) (headers : List (List Byte))
    (gs : List (List (List Byte))) : Prop :=
  (∀ g ∈ gs, ∃ line ls, g = line :: ls ∧ IsRequestLine line) ∧
    ∃ hs, gs.getLast? = some (requestLine :: (hs ++ [[]])) ∧ headerMap hs = headerMap headers

/-- The callback has been called once, with a request that agrees with `req`, and no 400 has been
sent. -/
def HttpConnection.Served (c : HttpConnection) (req : HttpRequest) : Prop :=
  ∃ req', c.requests = [req'] ∧ req'.Agrees req ∧ .badRequest ∉ c.accepted

/-- One group of lines repeats the request if it is the request. -/
theorem repeats_single {requestLine line : List Byte} {headers hs : List (List Byte)}
    (hline : IsRequestLine line) :
    Repeats requestLine headers [line :: (hs ++ [[]])] ↔
      line = requestLine ∧ headerMap hs = headerMap headers := by
  constructor
  · rintro ⟨-, hs', hlast, hmap⟩
    simp only [List.getLast?_singleton, Option.some.injEq, List.cons.injEq,
      List.append_cancel_right_eq] at hlast
    exact ⟨hlast.1, hlast.2 ▸ hmap⟩
  · rintro ⟨rfl, hmap⟩
    exact ⟨by simp [hline], hs, rfl, hmap⟩

/-- The first of several groups must be the request, whatever lines follow it. -/
theorem repeats_cons {requestLine line : List Byte} {headers ls : List (List Byte)}
    {gs : List (List (List Byte))} (hline : IsRequestLine line) (hne : gs ≠ []) :
    Repeats requestLine headers ((line :: ls) :: gs) ↔ Repeats requestLine headers gs := by
  have hlast : ((line :: ls) :: gs).getLast? = gs.getLast? := by
    cases gs with
    | nil => exact absurd rfl hne
    | cons g gs => rfl
  simp only [Repeats, hlast, List.forall_mem_cons]
  exact and_congr_left fun _ => ⟨And.right, fun h => ⟨⟨line, ls, rfl, hline⟩, h⟩⟩

theorem not_isRequestLine_nil : ¬ IsRequestLine [] := by
  simp [IsRequestLine, HttpRequest.processRequestLine, find]

/-- The last segment: the callback is called, and with the right request if the segment repeats
it. -/
theorem receiveAll_last (httpCallback : HttpCallback) {requestLine : List Byte}
    (hreq : IsRequestLine requestLine) (headers : List (List Byte)) (time : Int)
    {segment : Int × List Byte} {c : HttpConnection} {r line : List Byte} {hs : List (List Byte)}
    (hc : c.Waiting r)
    (hl : lines Buffer.CR Buffer.LF (r ++ segment.2) = line :: (hs ++ [[]]))
    (hline : IsRequestLine line) (hcolon : ∀ x ∈ hs, 58 ∈ x) :
    ∃ t, c.receiveAll httpCallback [segment] = some t ∧
      (t.Served (readRequest time requestLine headers) ↔
        Repeats requestLine headers [line :: (hs ++ [[]])]) := by
  obtain ⟨t, hr, hreqs, hok⟩ := HttpConnection.receive_all httpCallback hc hl hline hcolon
  refine ⟨t, by rw [HttpConnection.receiveAll, hr]; rfl, ?_⟩
  rw [repeats_single hline, ← agrees_readRequest hline hreq segment.1 time]
  constructor
  · rintro ⟨req, hreqs', hagrees, -⟩
    rw [hreqs] at hreqs'
    cases hreqs'
    exact hagrees
  · exact fun hagrees => ⟨_, hreqs, hagrees, hok⟩

/-- A segment that is answered with a 400, whatever comes after it. -/
theorem receiveAll_bad (httpCallback : HttpCallback) {c : HttpConnection} {r : List Byte}
    (hc : c.Waiting r) {segment : Int × List Byte} (segments : List (Int × List Byte))
    (hg : ∀ line ls, lines Buffer.CR Buffer.LF (r ++ segment.2) = line :: ls →
      ¬ IsRequestLine line) :
    ∃ t, c.receiveAll httpCallback (segment :: segments) = some t ∧ ∀ req, ¬ t.Served req := by
  obtain ⟨c', hr, hbad⟩ := HttpConnection.receive_bad httpCallback hc segment hg
  obtain ⟨t, ht⟩ := HttpConnection.exists_receiveAll httpCallback c' segments
  refine ⟨t, by rw [HttpConnection.receiveAll, hr]; exact ht, ?_⟩
  rintro req ⟨_, -, -, hnot⟩
  exact hnot (HttpConnection.badRequest_mem_receiveAll httpCallback c' hbad ht)

/-- There are no bytes in no segment only. -/
theorem segments_eq_nil {segments : List (Int × List Byte)} (hne : ∀ s ∈ segments, s.2 ≠ [])
    (h : segments.flatMap Prod.snd = []) : segments = [] := by
  cases segments with
  | nil => rfl
  | cons s segments =>
    rw [List.flatMap_cons] at h
    exact absurd (List.append_eq_nil_iff.mp h).1 (hne s List.mem_cons_self)

/-- The induction: what has been left from earlier segments is carried in `r`, the groups complete
so far in `pre`. -/
theorem receiveAll_served_iff (httpCallback : HttpCallback) {requestLine : List Byte}
    (hreq : IsRequestLine requestLine) (headers : List (List Byte)) (time : Int)
    {segments : List (Int × List Byte)} (hne : ∀ s ∈ segments, s.2 ≠ []) :
    ∀ {c : HttpConnection} {r : List Byte} {pre : List (List Byte)}, c.Waiting r →
      r ++ segments.flatMap Prod.snd = unlines Buffer.CR Buffer.LF (pre ++ [[]]) →
      (∀ x ∈ pre ++ [[]], search Buffer.CR Buffer.LF x = none) → (∀ x ∈ pre.tail, 58 ∈ x) →
      ∃ t, c.receiveAll httpCallback segments = some t ∧
        (t.Served (readRequest time requestLine headers) ↔
          Repeats requestLine headers (completed r (segments.map Prod.snd))) := by
  -- `pre` is what is still to come of the text, and `r` its part that has come without a line end
  induction segments with
  | nil =>
    intro c r pre hc hcat hclean _
    exact absurd (eq_nil_of_unlines Buffer.CR_ne_LF hclean hc.unfinished (by simpa using hcat))
      (by simp)
  | cons segment segments ih =>
    intro c r pre hc hcat hclean hcolon
    obtain ⟨hseg, hne'⟩ := List.forall_mem_cons.mp hne
    rw [List.flatMap_cons, ← List.append_assoc] at hcat
    obtain ⟨todo, htodo, hleft⟩ := exists_lines_of_append Buffer.CR_ne_LF hclean hcat
    simp only [List.map_cons, completed]
    by_cases hg : ∃ line ls, lines Buffer.CR Buffer.LF (r ++ segment.2) = line :: ls ∧
        IsRequestLine line
    · obtain ⟨line, ls, hl, hline⟩ := hg
      rw [hl] at htodo ⊢
      rcases List.eq_nil_or_concat todo with rfl | ⟨pre', last, rfl⟩
      · -- the last line is complete, so this is the last segment
        obtain rfl := segments_eq_nil hne' (List.append_eq_nil_iff.mp hleft).2
        cases pre with
        | nil =>
          simp only [List.nil_append, List.append_nil, List.cons.injEq] at htodo
          rw [← htodo.1] at hline
          exact absurd hline not_isRequestLine_nil
        | cons first hs =>
          simp only [List.append_nil, List.cons_append, List.cons.injEq] at htodo
          obtain ⟨rfl, rfl⟩ := htodo
          exact receiveAll_last httpCallback hreq headers time hc hl hline hcolon
      · -- more lines are to come
        rw [List.concat_eq_append, ← List.append_assoc] at htodo
        obtain ⟨rfl, hlast⟩ := List.append_inj' htodo rfl
        cases hlast
        have hcolon' : ∀ x ∈ ls ++ pre', 58 ∈ x := hcolon
        obtain ⟨c', hr, hc'⟩ := HttpConnection.receive_more httpCallback hc hl hline
          fun x hx => hcolon' x (List.mem_append_left _ hx)
        have hclean' : ∀ x ∈ pre' ++ [[]], search Buffer.CR Buffer.LF x = none := fun x hx =>
          hclean x (by rw [List.append_assoc]; exact List.mem_append_right _ hx)
        obtain ⟨t, ht, hiff⟩ := ih hne' hc' (by simpa using hleft) hclean' fun x hx =>
          hcolon' x (List.mem_append_right _ (List.mem_of_mem_tail hx))
        refine ⟨t, by rw [HttpConnection.receiveAll, hr]; exact ht, ?_⟩
        rw [hiff, repeats_cons hline]
        intro hnil
        cases segments with
        | nil =>
          exact absurd (eq_nil_of_unlines Buffer.CR_ne_LF hclean' hc'.unfinished
            (by simpa using hleft)) (by simp)
        | cons s segments => cases hnil
    · -- no line, or no request line: a 400 is accepted for sending, and stays accepted
      obtain ⟨t, ht, hnot⟩ := receiveAll_bad httpCallback hc segments
        fun line ls hl hline => hg ⟨line, ls, hl, hline⟩
      refine ⟨t, ht, iff_of_false (hnot _) ?_⟩
      rintro ⟨hall, -⟩
      exact hg (hall _ List.mem_cons_self)

/-- After the segments the callback has been called once, with the request it is called with when
the text arrives in one segment, and no 400 has been sent. -/
def DeliveredAsOne (httpCallback : HttpCallback) (R : RequestText)
    (segments : List (Int × List Byte)) : Prop :=
  ∀ time one, HttpConnection.connected.receiveAll httpCallback [(time, R.bytes)] = some one →
    ∃ t req, HttpConnection.connected.receiveAll httpCallback segments = some t ∧
      one.requests = [req] ∧ t.Served req

theorem RequestText.clean_lines (R : RequestText) :
    ∀ x ∈ R.lines, search Buffer.CR Buffer.LF x = none := by
  intro x hx
  rcases List.mem_append.mp hx with hx | hx
  · exact R.clean x hx
  · rw [List.mem_singleton.mp hx]
    rfl

/-- The bytes of a request are cut into its lines again. -/
theorem RequestText.lines_bytes (R : RequestText) :
    Lib.lines Buffer.CR Buffer.LF ([] ++ R.bytes) = R.requestLine :: (R.headers ++ [[]]) := by
  have hl := (lines_unlines Buffer.CR_ne_LF R.clean_lines []).1
  rwa [List.append_nil, lines_nil, List.append_nil] at hl

/-- In one segment every request is served. -/
theorem RequestText.receiveAll_one (httpCallback : HttpCallback) (R : RequestText) (time : Int) :
    ∃ one, HttpConnection.connected.receiveAll httpCallback [(time, R.bytes)] = some one ∧
      one.requests = [readRequest time R.requestLine R.headers] := by
  obtain ⟨one, hr, hreqs, -⟩ := HttpConnection.receive_all httpCallback
    HttpConnection.waiting_connected (show Lib.lines Buffer.CR Buffer.LF
      ([] ++ (time, R.bytes).2) = _ from R.lines_bytes) R.isRequestLine R.colon
  exact ⟨one, by rw [HttpConnection.receiveAll, hr]; rfl, hreqs⟩

/-- The general condition on the cut. -/
theorem RequestText.delivered_iff_repeats (httpCallback : HttpCallback) (R : RequestText)
    {segments : List (Int × List Byte)} (hne : ∀ s ∈ segments, s.2 ≠ [])
    (hcat : segments.flatMap Prod.snd = R.bytes) :
    DeliveredAsOne httpCallback R segments ↔
      Repeats R.requestLine R.headers (completed [] (segments.map Prod.snd)) := by
  have hserved : ∀ time, ∃ t, HttpConnection.connected.receiveAll httpCallback segments = some t ∧
      (t.Served (readRequest time R.requestLine R.headers) ↔
        Repeats R.requestLine R.headers (completed [] (segments.map Prod.snd))) := by
    exact fun time => receiveAll_served_iff httpCallback R.isRequestLine R.headers time hne
      HttpConnection.waiting_connected (show [] ++ segments.flatMap Prod.snd =
        unlines Buffer.CR Buffer.LF ((R.requestLine :: R.headers) ++ [[]]) from hcat) R.clean_lines
      R.colon
  constructor
  · intro h
    obtain ⟨one, hone, hreqs⟩ := R.receiveAll_one httpCallback 0
    obtain ⟨t, req, ht, hreqs', hreq⟩ := h 0 one hone
    obtain ⟨t', ht', hiff⟩ := hserved 0
    rw [ht] at ht'; cases ht'
    rw [hreqs] at hreqs'; cases hreqs'
    exact hiff.mp hreq
  · intro h time one hone
    obtain ⟨one', hone', hreqs⟩ := R.receiveAll_one httpCallback time
    rw [hone] at hone'; cases hone'
    obtain ⟨t, ht, hiff⟩ := hserved time
    exact ⟨t, _, ht, hreqs, hiff.mpr h⟩

/-- The lines completed by each segment are together the lines of all bytes. -/
theorem flatten_completed (r : List Byte) (segments : List (List Byte)) :
    search Buffer.CR Buffer.LF r = none →
      (completed r segments).flatten = Lib.lines Buffer.CR Buffer.LF (r ++ segments.flatten) := by
  induction segments generalizing r with
  | nil => intro hr; simp [completed, (lines_none hr).1]
  | cons segment segments ih =>
    intro _
    rw [completed, List.flatten_cons, ih _ (search_rest _), List.flatten_cons,
      ← List.append_assoc, (lines_append (r ++ segment) _).1]

/-- A request whose request line has no colon must come in one segment: no later segment can start
with that line. -/
theorem RequestText.repeats_iff_one_segment (R : RequestText) (hR : 58 ∉ R.requestLine)
    {segments : List (Int × List Byte)} (hcat : segments.flatMap Prod.snd = R.bytes) :
    Repeats R.requestLine R.headers (completed [] (segments.map Prod.snd)) ↔
      segments.length = 1 := by
  have hflat := flatten_completed [] (segments.map Prod.snd) rfl
  rw [← List.flatMap_def, hcat, R.lines_bytes] at hflat
  match segments with
  | [] => simp [completed] at hflat
  | [s] =>
    simp only [List.map_cons, List.map_nil, completed, List.flatten_cons, List.flatten_nil,
      List.append_nil] at hflat ⊢
    rw [hflat]
    simp [repeats_single R.isRequestLine]
  | s :: s' :: segments =>
    refine iff_of_false ?_ (by simp)
    rintro ⟨hall, hs, hlast, -⟩
    rw [List.map_cons, completed] at hall hlast hflat
    obtain ⟨line, ls, hg, -⟩ := hall _ List.mem_cons_self
    rw [hg, List.flatten_cons, List.cons_append, List.cons.injEq] at hflat
    -- the request line would be one of the header lines, or blank
    rw [List.map_cons, completed, List.getLast?_cons_cons] at hlast
    have hmem : R.requestLine ∈ R.headers ++ [[]] := by
      rw [← hflat.2]
      exact List.mem_append_right _
        (List.mem_flatten.mpr ⟨_, List.mem_of_getLast? hlast, List.mem_cons_self⟩)
    rcases List.mem_append.mp hmem with hmem | hmem
    · exact hR (R.colon _ hmem)
    · exact not_isRequestLine_nil (List.mem_singleton.mp hmem ▸ R.isRequestLine)

/-- **When a cut does not show.**  A well-formed request cut into non-empty segments is served as
if it had come in one if and only if every segment, with the bytes left over by the one before,
completes a line and starts with a request line, and the last one starts with the request line of
the text and completes header lines that give the same map.  When the request line has no colon,
that is to say that there is one segment. -/
theorem deliveredAsOne_iff (httpCallback : HttpCallback) (R : RequestText)
    {segments : List (Int × List Byte)} (hne : ∀ s ∈ segments, s.2 ≠ [])
    (hcat : segments.flatMap Prod.snd = R.bytes) :
    (DeliveredAsOne httpCallback R segments ↔
      Repeats R.requestLine R.headers (completed [] (segments.map Prod.snd))) ∧
    (58 ∉ R.requestLine → (DeliveredAsOne httpCallback R segments ↔ segments.length = 1)) := by
  have hiff := R.delivered_iff_repeats httpCallback hne hcat
  exact ⟨hiff, fun hR => hiff.trans (R.repeats_iff_one_segment hR hcat)⟩

/-- `GET / HTTP/1.1`, without headers. -/
def getRoot : RequestText where
  method := .kGet
  target := text ['/']
  version := .kHttp11
  headers := []
  method_ne := by decide
  version_ne := by decide
  space := by decide
  colon := by simp
  clean := by decide

/-- The theorem at one segment. -/
theorem deliveredAsOne_iff_getRoot :
    (DeliveredAsOne (fun _ r => r) getRoot [(0, getRoot.bytes)] ↔
      Repeats getRoot.requestLine [] (completed [] [getRoot.bytes])) ∧
    DeliveredAsOne (fun _ r => r) getRoot [(0, getRoot.bytes)] := by
  have h := @deliveredAsOne_iff (fun _ r => r) getRoot [(0, getRoot.bytes)]
    (by decide) (by decide)
  exact ⟨h.1, (h.2 (by decide)).mpr rfl⟩

/-- Cut after its first byte, the request is answered with a 400. -/
theorem cut_after_G : ¬ ∀ (httpCallback : HttpCallback) (R : RequestText)
    (segments : List (Int × List Byte)), (∀ s ∈ segments, s.2 ≠ []) →
      segments.flatMap Prod.snd = R.bytes → DeliveredAsOne httpCallback R segments := by
  intro hdelivered
  have hone := getRoot.receiveAll_one (fun _ r => r) 0
  obtain ⟨one, hone, -⟩ := hone
  obtain ⟨t, req, ht, -, req', -, -, hnot⟩ := hdelivered (fun _ r => r) getRoot
    [(0, text ['G']), (0, getRoot.bytes.drop 1)] (by decide) (by decide) 0 one hone
  have hno : Lib.lines Buffer.CR Buffer.LF ([] ++ text ['G']) = [] := (lines_none (by decide)).1
  obtain ⟨c, hc, hbad⟩ := HttpConnection.receive_bad (fun _ r => r)
    HttpConnection.waiting_connected (0, text ['G']) fun line ls hl => by
      rw [hno] at hl; cases hl
  rw [HttpConnection.receiveAll, hc] at ht
  exact hnot (HttpConnection.badRequest_mem_receiveAll _ c hbad ht)

end Reactor.Http
