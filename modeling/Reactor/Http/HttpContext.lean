import Reactor.Http.HttpRequest

/-!
# Http — HttpContext

`HttpContext::parseRequest`, as one iteration of its loop (`iterate`) and the loop (`parseLoop`),
over the input buffer.  In the states `kExpectBody` and `kGotAll` the loop does not end; `none`
stands for that, and for a failed assertion.

* `feed`: the parser over the lines of its input, with no buffer.
* `parseRequest_eq_feed`: `parseRequest` ends, in the states in which it waits for a line, and does
  to the buffer what `feed` does to its lines.
-/

namespace Reactor.Http
open Reactor.Lib Reactor.Net

/-- How far `parseRequest` has come in a request. -/
inductive HttpRequestParseState where
  | kExpectRequestLine
  | kExpectHeaders
  | kExpectBody
  | kGotAll
  deriving DecidableEq, Repr

/-- What a connection keeps of the request it is reading. -/
structure HttpContext where
  state : HttpRequestParseState
  request : HttpRequest

namespace HttpContext

/-- The constructor. -/
def new : HttpContext := ⟨.kExpectRequestLine, .new⟩

/-- The request is complete. -/
def gotAll (c : HttpContext) : Bool := c.state = .kGotAll

/-- The variables of the loop in `parseRequest`. -/
structure Loop where
  ok : Bool
  hasMore : Bool
  context : HttpContext
  buf : ValidBuffer

/-- One iteration; `none` if an assertion of `retrieveUntil` fails. -/
def iterate (receiveTime : Int) (v : Loop) : Option Loop :=
  match v.context.state with
  | .kExpectRequestLine =>
    match v.buf.findCRLF with
    | none => some { v with hasMore := false }
    | some crlf =>
      match v.context.request.processRequestLine (v.buf.bytesUntil crlf) with
      | (true, request) =>
        (v.buf.retrieveUntil (crlf + 2)).map fun buf =>
          ⟨true, v.hasMore, ⟨.kExpectHeaders, { request with receiveTime := receiveTime }⟩, buf⟩
      | (false, request) => some ⟨false, false, { v.context with request := request }, v.buf⟩
  | .kExpectHeaders =>
    match v.buf.findCRLF with
    | none => some { v with hasMore := false }
    | some crlf =>
      match find 58 (v.buf.bytesUntil crlf) with
      | some (field, value) =>
        (v.buf.retrieveUntil (crlf + 2)).map fun buf =>
          ⟨v.ok, v.hasMore, ⟨.kExpectHeaders, v.context.request.addHeader field value⟩, buf⟩
      | none =>
        (v.buf.retrieveUntil (crlf + 2)).map fun buf =>
          ⟨v.ok, false, { v.context with state := .kGotAll }, buf⟩
  | .kExpectBody | .kGotAll => some v

/-- `n` iterations at most, as long as `hasMore`. -/
def parseLoop (receiveTime : Int) : Nat → Loop → Option Loop
  | 0, v => if v.hasMore then none else some v
  | n + 1, v => if v.hasMore then (iterate receiveTime v).bind (parseLoop receiveTime n) else some v

/-- The loop ends within one iteration for each byte and one more, or not at all. -/
def parseRequest (c : HttpContext) (buf : ValidBuffer) (receiveTime : Int) :
    Option (Bool × HttpContext × ValidBuffer) :=
  (parseLoop receiveTime (buf.readableBytes + 1) ⟨false, true, c, buf⟩).map fun v =>
    (v.ok, v.context, v.buf)

/-! ### The parser over lines -/

/-- What `parseRequest` makes of the complete lines: the result, the context, and the lines it
leaves in the buffer. -/
def feed (receiveTime : Int) (ok : Bool) (c : HttpContext) :
    List (List Byte) → Bool × HttpContext × List (List Byte)
  | [] => (ok, c, [])
  | line :: ls =>
    match c.state with
    | .kExpectRequestLine =>
      match c.request.processRequestLine line with
      | (true, request) =>
        feed receiveTime true ⟨.kExpectHeaders, { request with receiveTime := receiveTime }⟩ ls
      | (false, request) => (false, { c with request := request }, line :: ls)
    | .kExpectHeaders =>
      match find 58 line with
      | some (field, value) =>
        feed receiveTime ok ⟨.kExpectHeaders, c.request.addHeader field value⟩ ls
      | none => (ok, { c with state := .kGotAll }, ls)
    | .kExpectBody | .kGotAll => (ok, c, line :: ls)

/-- The parser waits for a line. -/
def ExpectsLine (c : HttpContext) : Prop :=
  c.state = .kExpectRequestLine ∨ c.state = .kExpectHeaders

/-- The complete lines of a buffer. -/
def linesOf (buf : ValidBuffer) : List (List Byte) := lines Buffer.CR Buffer.LF buf.content

/-- The unfinished line of a buffer. -/
def restOf (buf : ValidBuffer) : List Byte := rest Buffer.CR Buffer.LF buf.content

/-- What `findCRLF` and `retrieveUntil` do to the lines: there is none, or the first is found and
taken off. -/
theorem linesOf_cases (buf : ValidBuffer) :
    (buf.findCRLF = none ∧ linesOf buf = [] ∧ restOf buf = buf.content) ∨
      ∃ crlf buf', buf.findCRLF = some crlf ∧ buf.retrieveUntil (crlf + 2) = some buf' ∧
        linesOf buf = buf.bytesUntil crlf :: linesOf buf' ∧ restOf buf' = restOf buf := by
  have hspec := buf.findCRLF_spec
  cases hs : search Buffer.CR Buffer.LF buf.content with
  | none =>
    rw [hs] at hspec
    exact .inl ⟨hspec, (lines_none hs).1, (lines_none hs).2⟩
  | some i =>
    rw [hs] at hspec
    obtain ⟨crlf, hf, hb, hr⟩ := hspec
    refine .inr ⟨crlf, _, hf, hr, ?_, ?_⟩
    · rw [linesOf, (lines_some hs).1, hb, linesOf, ValidBuffer.content_retrieve]
    · rw [restOf, restOf, (lines_some hs).2, ValidBuffer.content_retrieve]

/-- A loop that has ended stays as it is, whatever fuel is left. -/
theorem parseLoop_done (receiveTime : Int) (n : Nat) {v : Loop} (h : v.hasMore = false) :
    parseLoop receiveTime n v = some v := by
  cases n <;> simp [parseLoop, h]

/-- **The loop does to the lines what `feed` does**, given an iteration for each of them and one
more, and leaves the unfinished line alone. -/
theorem parseLoop_eq_feed (receiveTime : Int) {n : Nat} {v : Loop} (hm : v.hasMore = true)
    (he : v.context.ExpectsLine) (hn : (linesOf v.buf).length < n) :
    ∃ w, parseLoop receiveTime n v = some w ∧
      (w.ok, w.context, linesOf w.buf) = feed receiveTime v.ok v.context (linesOf v.buf) ∧
      restOf w.buf = restOf v.buf := by
  induction n generalizing v with
  | zero => omega
  | succ n ih =>
    obtain ⟨ok, hasMore, ⟨state, request⟩, buf⟩ := v
    simp only at hm hn ⊢
    subst hm
    rcases linesOf_cases buf with ⟨hf, hl, hr⟩ | ⟨crlf, buf', hf, hret, hl, hr⟩
    · -- no line: the loop stops
      refine ⟨⟨ok, false, ⟨state, request⟩, buf⟩, ?_, by rw [hl]; rfl, rfl⟩
      rcases he with rfl | rfl <;> simp [parseLoop, iterate, hf, parseLoop_done]
    · rw [hl] at hn ⊢
      rw [List.length_cons] at hn
      rcases he with he | he <;> simp only at he <;> subst he
      · -- a rejected request line is not retrieved
        cases hp : request.processRequestLine (buf.bytesUntil crlf) with
        | mk accepted request' =>
          cases accepted with
          | true =>
            obtain ⟨w, hw, hfeed, hrest⟩ := ih (v := ⟨true, true, ⟨.kExpectHeaders,
              { request' with receiveTime := receiveTime }⟩, buf'⟩) rfl (.inr rfl)
              (Nat.lt_of_succ_lt_succ hn)
            exact ⟨w, by simp [parseLoop, iterate, hf, hp, hret, hw], by simp [feed, hp, hfeed],
              hrest.trans hr⟩
          | false =>
            exact ⟨⟨false, false, ⟨.kExpectRequestLine, request'⟩, buf⟩,
              by simp [parseLoop, iterate, hf, hp, parseLoop_done], by simp [feed, hp, hl], rfl⟩
      · cases hc : find 58 (buf.bytesUntil crlf) with
        | some p =>
          obtain ⟨field, value⟩ := p
          obtain ⟨w, hw, hfeed, hrest⟩ := ih (v := ⟨ok, true, ⟨.kExpectHeaders,
            request.addHeader field value⟩, buf'⟩) rfl (.inr rfl) (Nat.lt_of_succ_lt_succ hn)
          exact ⟨w, by simp [parseLoop, iterate, hf, hc, hret, hw], by simp [feed, hc, hfeed],
            hrest.trans hr⟩
        | none =>
          exact ⟨⟨ok, false, ⟨.kGotAll, request⟩, buf'⟩,
            by simp [parseLoop, iterate, hf, hc, hret, parseLoop_done], by simp [feed, hc], hr⟩

/-- **`parseRequest` ends whenever the parser waits for a line**, and does to the lines of the
buffer what `feed` does. -/
theorem parseRequest_eq_feed {c : HttpContext} (he : c.ExpectsLine) (buf : ValidBuffer)
    (receiveTime : Int) :
    ∃ ok c' buf', c.parseRequest buf receiveTime = some (ok, c', buf') ∧
      (ok, c', linesOf buf') = feed receiveTime false c (linesOf buf) ∧
      restOf buf' = restOf buf := by
  have hn : (linesOf buf).length < buf.readableBytes + 1 := by
    have := length_lines_le (a := Buffer.CR) (b := Buffer.LF) buf.content
    rw [ValidBuffer.length_content] at this
    exact Nat.lt_succ_of_le this
  obtain ⟨w, hw, hfeed, hrest⟩ :=
    parseLoop_eq_feed receiveTime (v := ⟨false, true, c, buf⟩) rfl he hn
  exact ⟨w.ok, w.context, w.buf, by simp [parseRequest, hw], hfeed, hrest⟩

end HttpContext

/-! ### Header lines -/

namespace HttpRequest

/-- What the parser makes of a line of the header section. -/
def addLine (r : HttpRequest) (line : List Byte) : HttpRequest :=
  match find 58 line with
  | some (field, value) => r.addHeader field value
  | none => r

/-- Header lines leave the request line alone. -/
@[simp] theorem foldl_addLine_frame (hs : List (List Byte)) (r : HttpRequest) :
    (hs.foldl addLine r).method = r.method ∧ (hs.foldl addLine r).path = r.path ∧
      (hs.foldl addLine r).query = r.query ∧ (hs.foldl addLine r).version = r.version := by
  induction hs generalizing r with
  | nil => simp
  | cons line hs ih =>
    have hline : (addLine r line).method = r.method ∧ (addLine r line).path = r.path ∧
        (addLine r line).query = r.query ∧ (addLine r line).version = r.version := by
      unfold addLine; split <;> simp [addHeader]
    simp [ih, hline]

/-- What header lines make of the headers depends on the headers only. -/
theorem headers_foldl_addLine {r r' : HttpRequest} (hs : List (List Byte))
    (h : r.headers = r'.headers) :
    (hs.foldl addLine r).headers = (hs.foldl addLine r').headers := by
  induction hs generalizing r r' with
  | nil => exact h
  | cons line hs ih =>
    refine ih ?_
    unfold addLine
    split
    · simp [addHeader, h]
    · exact h

end HttpRequest

namespace HttpContext

/-- Lines with a colon are taken one after another. -/
theorem feed_headers {receiveTime : Int} {ok : Bool} {r : HttpRequest} {hs : List (List Byte)}
    (h : ∀ line ∈ hs, 58 ∈ line) (ls : List (List Byte)) :
    feed receiveTime ok ⟨.kExpectHeaders, r⟩ (hs ++ ls) =
      feed receiveTime ok ⟨.kExpectHeaders, hs.foldl HttpRequest.addLine r⟩ ls := by
  induction hs generalizing r with
  | nil => rfl
  | cons line hs ih =>
    obtain ⟨hline, hs'⟩ := List.forall_mem_cons.mp h
    cases hf : find 58 line with
    | none => exact absurd hline (find_eq_none.mp hf)
    | some p =>
      rw [List.foldl_cons, ← ih hs']
      simp [feed, HttpRequest.addLine, hf]

/-- What is no request line is left in the buffer. -/
theorem feed_badLine {receiveTime : Int} {line : List Byte}
    (h : (HttpRequest.new.processRequestLine line).1 = false) (ls : List (List Byte)) :
    feed receiveTime false .new (line :: ls) =
      (false, { new with request := (HttpRequest.new.processRequestLine line).2 }, line :: ls) := by
  have hp : HttpRequest.new.processRequestLine line =
      (false, (HttpRequest.new.processRequestLine line).2) := Prod.ext h rfl
  simp only [feed, new]
  rw [hp]

/-- A request line first. -/
theorem feed_requestLine {receiveTime : Int} {line : List Byte} {r : HttpRequest}
    (h : HttpRequest.new.processRequestLine line = (true, r)) (ls : List (List Byte)) :
    feed receiveTime false .new (line :: ls) =
      feed receiveTime true ⟨.kExpectHeaders, { r with receiveTime := receiveTime }⟩ ls := by
  simp [feed, new, h]

end HttpContext

end Reactor.Http
