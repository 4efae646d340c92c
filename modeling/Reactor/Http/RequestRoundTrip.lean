import Reactor.Http.Fragmentation

/-!
# Http — request round trip

A request written out is read back: `parseRequest` on a new context takes the request line, the
header lines and the blank line off the buffer, whatever follows them.

* `RequestFields`: what a request line and header lines are written from.
* `parseRequest_text`: one call on the text of a well-formed request.
* `parseRequest_render`: the round trip.
-/

namespace Reactor.Http
open Reactor.Lib Reactor.Net

/-! ### What is written out -/

/-- A header field: a name without a colon, and a value without white space around it. -/
structure HeaderField where
  name : List Byte
  value : List Byte
  colon : 58 ∉ name
  first : ∀ c ∈ value.head?, HttpRequest.isspace c = false
  last : ∀ c ∈ value.getLast?, HttpRequest.isspace c = false
  clean : search Buffer.CR Buffer.LF (name ++ 58 :: 32 :: value) = none

/-- `name: value` -/
def HeaderField.line (f : HeaderField) : List Byte := f.name ++ 58 :: 32 :: f.value

/-- A request: a supported method and version, and path and query as they stand in the target. -/
structure RequestFields where
  method : Method
  path : List Byte
  query : List Byte
  version : Version
  headers : List HeaderField
  method_ne : method ≠ .kInvalid
  version_ne : version ≠ .kUnknown
  path_space : 32 ∉ path
  path_question : 63 ∉ path
  path_clean : search Buffer.CR Buffer.LF path = none
  query_question : query = [] ∨ query.head? = some 63
  query_space : 32 ∉ query
  query_clean : search Buffer.CR Buffer.LF query = none

namespace RequestFields

/-- The request line the fields are rendered as. -/
def requestLine (R : RequestFields) : List Byte :=
  R.method.string ++ 32 :: (R.path ++ R.query ++ 32 :: R.version.string)

/-- The request written out. -/
def bytes (R : RequestFields) : List Byte :=
  unlines Buffer.CR Buffer.LF (R.requestLine :: R.headers.map HeaderField.line ++ [[]])

/-- The header map: of the fields with one name the last counts. -/
def headerMap (R : RequestFields) (name : List Byte) : Option (List Byte) :=
  (R.headers.reverse.find? (·.name = name)).map HeaderField.value

end RequestFields

/-! ### Well-formed text -/

/-- **One call on the text of a well-formed request** reads it and leaves what follows. -/
theorem RequestText.parseRequest_text (R : RequestText) (trailing : List Byte) {buf : ValidBuffer}
    (h : buf.content = R.bytes ++ trailing) (receiveTime : Int) :
    ∃ buf', HttpContext.new.parseRequest buf receiveTime =
        some (true, ⟨.kGotAll, readRequest receiveTime R.requestLine R.headers⟩, buf') ∧
      buf'.content = trailing := by
  obtain ⟨hlines, hrest⟩ := lines_unlines Buffer.CR_ne_LF R.clean_lines trailing
  rw [← RequestText.bytes, ← h] at hlines hrest
  obtain ⟨ok, c, buf', hp, hfeed, hleft⟩ :=
    HttpContext.parseRequest_eq_feed (c := .new) (.inl rfl) buf receiveTime
  have hline : HttpRequest.new.processRequestLine R.requestLine =
      (true, (HttpRequest.new.processRequestLine R.requestLine).2) := Prod.ext R.isRequestLine rfl
  rw [HttpContext.linesOf, HttpContext.linesOf, hlines, RequestText.lines, List.cons_append,
    List.cons_append, HttpContext.feed_requestLine hline, List.append_assoc,
    HttpContext.feed_headers R.colon] at hfeed
  simp only [List.cons_append, List.nil_append, HttpContext.feed, find, Prod.mk.injEq] at hfeed
  obtain ⟨rfl, rfl, hbuf⟩ := hfeed
  refine ⟨buf', hp, ?_⟩
  calc buf'.content = unlines Buffer.CR Buffer.LF (Lib.lines Buffer.CR Buffer.LF buf'.content) ++
        rest Buffer.CR Buffer.LF buf'.content := (unlines_lines _).symm
    _ = unlines Buffer.CR Buffer.LF (Lib.lines Buffer.CR Buffer.LF trailing) ++
        rest Buffer.CR Buffer.LF trailing := by rw [hbuf, ← hrest]; exact congrArg _ hleft
    _ = trailing := unlines_lines _

/-! ### The fields of the text -/

namespace HeaderField

/-- The first colon of a header line ends the name. -/
theorem find_line (f : HeaderField) : find 58 f.line = some (f.name, 32 :: f.value) :=
  find_eq_some.mpr ⟨rfl, f.colon⟩

theorem addLine_line (f : HeaderField) (r : HttpRequest) :
    r.addLine f.line =
      { r with headers := Function.update r.headers f.name (some f.value) } := by
  rw [HttpRequest.addLine, f.find_line]
  simp only [HttpRequest.addHeader,
    trim_value (p := HttpRequest.isspace) (by decide) f.first f.last]

/-- The last field with a name gives the value. -/
theorem foldl_addLine_headers (fs : List HeaderField) (r : HttpRequest) (name : List Byte) :
    ((fs.map line).foldl HttpRequest.addLine r).headers name =
      ((fs.reverse.find? (·.name = name)).map value).or (r.headers name) := by
  induction fs using List.reverseRecOn with
  | nil => simp
  | append_singleton fs f ih =>
    rw [List.map_append, List.foldl_append, List.map_singleton, List.foldl_cons, List.foldl_nil,
      f.addLine_line, List.reverse_append, List.reverse_singleton, List.singleton_append,
      List.find?_cons]
    by_cases hn : f.name = name
    · subst hn; simp
    · simp [hn, Function.update_of_ne (Ne.symm hn), ih]

end HeaderField

namespace RequestFields

theorem requestLine_clean (R : RequestFields) :
    search Buffer.CR Buffer.LF R.requestLine = none := by
  have hmethod : search Buffer.CR Buffer.LF (R.method.string ++ [32]) = none := by
    cases R.method <;> decide
  have hversion : search Buffer.CR Buffer.LF (32 :: R.version.string) = none := by
    cases R.version <;> decide
  have htarget : search Buffer.CR Buffer.LF (R.path ++ R.query) = none := by
    refine search_append_eq_none R.path_clean R.query_clean fun _ => ?_
    rcases R.query_question with hq | hq <;> rw [hq] <;> decide
  have hend : search Buffer.CR Buffer.LF (R.path ++ R.query ++ 32 :: R.version.string) = none :=
    search_append_eq_none htarget hversion fun _ => by simp [Buffer.LF]
  have hline := search_append_eq_none hmethod hend fun hlast => by simp [Buffer.CR] at hlast
  rwa [List.append_assoc] at hline

/-- The text of a request. -/
def toText (R : RequestFields) : RequestText where
  method := R.method
  target := R.path ++ R.query
  version := R.version
  headers := R.headers.map HeaderField.line
  method_ne := R.method_ne
  version_ne := R.version_ne
  space := by simp [R.path_space, R.query_space]
  colon := by simp [HeaderField.line]
  clean := by
    intro line hline
    rcases List.mem_cons.mp hline with rfl | hline
    · exact R.requestLine_clean
    · obtain ⟨f, -, rfl⟩ := List.mem_map.mp hline
      exact f.clean

/-- Path and query are cut apart at the question mark. -/
theorem setTarget_target (R : RequestFields) {r : HttpRequest} (hr : r.query = []) :
    r.setTarget (R.path ++ R.query) = { r with path := R.path, query := R.query } := by
  rcases R.query_question with hq | hq
  · rw [hq, List.append_nil, HttpRequest.setTarget, find_eq_none.mpr R.path_question]
    simp [hr]
  · obtain ⟨q, hq⟩ := List.head?_eq_some_iff.mp hq
    rw [hq, HttpRequest.setTarget, find_eq_some.mpr ⟨rfl, R.path_question⟩]

/-- The request line of the fields sets the method, the version, the path and the query, and nothing
else. -/
theorem processRequestLine_requestLine (R : RequestFields) :
    HttpRequest.new.processRequestLine R.requestLine =
      (true, ⟨R.method, R.version, R.path, R.query, 0, fun _ => none⟩) := by
  rw [requestLine, HttpRequest.processRequestLine_string R.method_ne R.version_ne
    (show 32 ∉ R.path ++ R.query by simp [R.path_space, R.query_space]),
    R.setTarget_target (by rfl)]
  rfl

end RequestFields

/-- **A request written out is read back.**  One call of `parseRequest` on a new context takes the
request off the buffer, with the last value of each header name, and leaves the bytes that
follow it. -/
theorem parseRequest_render (R : RequestFields) (trailing : List Byte) {buf : ValidBuffer}
    (h : buf.content = R.bytes ++ trailing) (receiveTime : Int) :
    ∃ c buf', HttpContext.new.parseRequest buf receiveTime = some (true, c, buf') ∧
      c.gotAll = true ∧ c.request.method = R.method ∧ c.request.path = R.path ∧
      c.request.query = R.query ∧ c.request.version = R.version ∧
      c.request.headers = R.headerMap ∧ buf'.content = trailing := by
  obtain ⟨buf', hp, hbuf⟩ := R.toText.parseRequest_text trailing h receiveTime
  have hread : readRequest receiveTime R.toText.requestLine R.toText.headers =
      (R.headers.map HeaderField.line).foldl HttpRequest.addLine
        ⟨R.method, R.version, R.path, R.query, receiveTime, fun _ => none⟩ := by
    rw [readRequest, show R.toText.requestLine = R.requestLine from rfl,
      R.processRequestLine_requestLine]
    rfl
  obtain ⟨hmethod, hpath, hquery, hversion⟩ :=
    HttpRequest.foldl_addLine_frame (R.headers.map HeaderField.line)
      ⟨R.method, R.version, R.path, R.query, receiveTime, fun _ => none⟩
  rw [hread] at hp
  refine ⟨_, buf', hp, rfl, hmethod, hpath, hquery, hversion, funext fun name => ?_, hbuf⟩
  rw [HeaderField.foldl_addLine_headers]
  simp [RequestFields.headerMap]

/-- `POST /a?b HTTP/1.0` with two fields of one name. -/
def postTwice : RequestFields where
  method := .kPost
  path := text ['/', 'a']
  query := text ['?', 'b']
  version := .kHttp10
  headers := [⟨text ['N'], text ['1'], by decide, by simp [text, HttpRequest.isspace],
      by simp [text, HttpRequest.isspace], by decide⟩,
    ⟨text ['N'], text ['2'], by decide, by simp [text, HttpRequest.isspace],
      by simp [text, HttpRequest.isspace], by decide⟩]
  method_ne := by decide
  version_ne := by decide
  path_space := by decide
  path_question := by decide
  path_clean := by decide
  query_question := by decide
  query_space := by decide
  query_clean := by decide

/-- The second value is read, and the next request is left. -/
theorem parseRequest_render_postTwice :
    ∃ c buf', HttpContext.new.parseRequest
        ((ValidBuffer.new kInitialSize).append (postTwice.bytes ++ text ['G', 'E', 'T'])) 0 =
          some (true, c, buf') ∧
      c.request.headers (text ['N']) = some (text ['2']) ∧
      buf'.content = text ['G', 'E', 'T'] := by
  have hcontent : ((ValidBuffer.new kInitialSize).append
      (postTwice.bytes ++ text ['G', 'E', 'T'])).content =
        postTwice.bytes ++ text ['G', 'E', 'T'] := by simp
  obtain ⟨c, buf', hp, -, -, -, -, -, hheaders, hbuf⟩ :=
    parseRequest_render postTwice (text ['G', 'E', 'T']) hcontent 0
  exact ⟨c, buf', hp, by rw [hheaders]; decide, hbuf⟩

end Reactor.Http
