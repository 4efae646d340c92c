import Reactor.Http.Pipelining
import Reactor.Http.ResponseDecoding
import Reactor.Http.Wire

/-!
# Http — the exchange

A client that sends whole requests and reads the bytes of the connection, response after response: a
status line, header lines and a blank line, and a body as long as `Content-Length` says or as far as
the end of the stream.  It takes what stands behind the three digits for the status message, since
`appendToBuffer` writes no space there.

* `readAll_cons`: items that end where they say are read back one after another.
* `readResponse_bytes`: a response is read back, with what follows it if it says how long it is.
* `http_exchange`: what goes out in a run is read as the responses to the requests, in order.
-/

namespace Reactor.Http
open Reactor.Lib Reactor.Net

/-! ### Item after item -/

section

variable {α β : Type*}

/-- The items the bytes consist of, of which at most `n` are read. -/
def readAll (item : List β → Option (α × List β)) : Nat → List β → Option (List α)
  | _, [] => some []
  | 0, _ :: _ => none
  | n + 1, bytes => (item bytes).bind fun p => (readAll item n p.2).map (p.1 :: ·)

@[simp] theorem readAll_nil (item : List β → Option (α × List β)) (n : Nat) :
    readAll item n [] = some [] := by
  cases n <;> rfl

/-- An item is read, and the rest of the bytes after it. -/
theorem readAll_cons {item : List β → Option (α × List β)} {a : α} {bytes rest : List β} {n : Nat}
    (hne : bytes ≠ []) (h : item bytes = some (a, rest)) :
    readAll item (n + 1) bytes = (readAll item n rest).map (a :: ·) := by
  cases bytes with
  | nil => exact absurd rfl hne
  | cons b bytes => simp only [readAll, h, Option.bind_some]

end

/-! ### What the client reads -/

/-- Status code and message. -/
def readStatusLine (line : List Byte) : Option (Nat × List Byte) :=
  if line.take 9 = versionText then
    match line.drop 9 with
    | d₁ :: d₂ :: d₃ :: message => (number [d₁, d₂, d₃]).map fun code => (code, message)
    | _ => none
  else none

/-- As many bytes as `Content-Length` says, or all there are, and what follows. -/
def readBody (headers : List (List Byte × List Byte)) (bytes : List Byte) :
    Option (List Byte × List Byte) :=
  match lookup contentLengthName headers with
  | none => some (bytes, [])
  | some value => (number value).bind fun n =>
      if n ≤ bytes.length then some (bytes.take n, bytes.drop n) else none

/-- A response, and what follows it. -/
def readResponse (bytes : List Byte) : Option (HttpResponse × List Byte) :=
  (cutLine bytes).bind fun (statusLine, bytes) =>
    (readStatusLine statusLine).bind fun (code, message) =>
      (decodeHeaders bytes.length bytes).bind fun (headers, bytes) =>
        (readBody headers bytes).map fun (body, rest) =>
          ({ statusCode := code
             statusMessage := message
             closeConnection := lookup connectionName headers = some closeValue
             headers := fun name =>
               if name = connectionName ∨ name = contentLengthName then none
               else lookup name headers
             body := body }, rest)

/-! ### One response -/

/-- The code is told from the message by its three digits, though no space is between them. -/
theorem readStatusLine_append {n : Nat} (h : 100 ≤ n ∧ n ≤ 999) (message : List Byte) :
    readStatusLine (versionText ++ decimal n ++ message) = some (n, message) := by
  obtain ⟨d₁, d₂, d₃, hd⟩ := decimal_statusCode h
  have htake : (versionText ++ [d₁, d₂, d₃] ++ message).take 9 = versionText := rfl
  have hdrop : (versionText ++ [d₁, d₂, d₃] ++ message).drop 9 = d₁ :: d₂ :: d₃ :: message := rfl
  rw [hd, readStatusLine, if_pos htake, hdrop]
  simp only [← hd, number_decimal, Option.map_some]

/-- A body that is all there is can be followed by more, if its length is given. -/
theorem readBody_append {headers : List (List Byte × List Byte)} {body rest : List Byte}
    (h : decodeBody headers body = some body)
    (hrest : lookup contentLengthName headers = none → rest = []) :
    readBody headers (body ++ rest) = some (body, rest) := by
  rw [decodeBody] at h
  rw [readBody]
  cases hl : lookup contentLengthName headers with
  | none => simp [hrest hl]
  | some value =>
    rw [hl] at h
    obtain ⟨n, hn, hbody⟩ := Option.bind_eq_some_iff.mp h
    have hle : n ≤ body.length := by
      by_contra hlt
      simp [hlt] at hbody
    have htake : body.take n = body := by simpa [hle] using hbody
    have hlength : n = body.length := by
      have := congrArg List.length htake
      rw [List.length_take, Nat.min_eq_left hle] at this
      exact this
    simp [hn, hlength]

namespace HttpResponse

variable {r : HttpResponse} {entries : List (List Byte × List Byte)}

/-- **A response is read back**, and so is what follows it unless it closes the connection. -/
theorem readResponse_appendToBuffer (h : r.Serialisable entries) (n : Nat) {rest : List Byte}
    (hrest : r.closeConnection = true → rest = []) :
    readResponse ((r.appendToBuffer entries (.new n)).content ++ rest) = some (r, rest) := by
  have hcode : r.statusCode < 10 ^ 22 := Nat.lt_of_le_of_lt h.code.2 (by decide)
  have hbytes : (r.appendToBuffer entries (.new n)).content ++ rest =
      versionText ++ decimal r.statusCode ++ r.statusMessage ++ crlf ++
        (unlines Buffer.CR Buffer.LF ((r.framing ++ entries).map fun h => headerLine h.1 h.2) ++
          crlf ++ (r.body ++ rest)) := by
    rw [content_appendToBuffer _ _ _ hcode h.body, ValidBuffer.content_new, List.nil_append]
    simp [afterCode]
  have hheaders : ∀ x ∈ r.framing ++ entries, HeaderOk x := by
    intro x hx
    rcases List.mem_append.mp hx with hx | hx
    · exact r.framing_ok x hx
    · exact (h.header x hx).1
  have hlines := length_le_length_unlines (a := Buffer.CR) (b := Buffer.LF)
    ((r.framing ++ entries).map fun h => headerLine h.1 h.2)
  rw [List.length_map] at hlines
  have hbody : readBody (r.framing ++ entries) (r.body ++ rest) = some (r.body, rest) := by
    refine readBody_append (decodeBody_framing h) fun hnone => hrest ?_
    cases hclose : r.closeConnection with
    | true => rfl
    | false => simp [lookup, framing, hclose] at hnone
  have hmap : (fun name => if name = connectionName ∨ name = contentLengthName then none
      else lookup name (r.framing ++ entries)) = r.headers := by
    funext name
    split
    · next hn => exact (h.headers_framing hn).symm
    · next hn => rw [r.lookup_framing entries hn, lookup_of_iterates h.iterates]
  rw [hbytes, readResponse, cutLine_append (cr_statusLine h.message.1), Option.bind_some]
  simp only [readStatusLine_append h.code, Option.bind_some]
  rw [decodeHeaders_unlines hheaders _ (by
    simp only [List.length_append, crlf, List.length_cons, List.length_nil] at hlines ⊢
    omega), Option.bind_some]
  simp only [hbody, Option.map_some, hmap, r.lookup_connection, Bool.decide_eq_true]

theorem bytes_ne_nil (entries : HeaderOrder) (h : r.Serialisable (entries r)) :
    r.bytes entries ≠ [] := by
  have hcode : r.statusCode < 10 ^ 22 := Nat.lt_of_le_of_lt h.code.2 (by decide)
  rw [bytes, content_appendToBuffer _ _ _ hcode h.body]
  simp [versionText, text]

end HttpResponse

/-! ### The exchange -/

/-- The responses up to the first that closes the connection. -/
def answers (httpCallback : HttpCallback) : List HttpRequest → List HttpResponse
  | [] => []
  | req :: reqs =>
    let response := HttpConnection.respond httpCallback req
    response :: if response.closeConnection then [] else answers httpCallback reqs

theorem repliesTo_eq (httpCallback : HttpCallback) (reqs : List HttpRequest) :
    repliesTo httpCallback reqs = (answers httpCallback reqs).map .response := by
  induction reqs with
  | nil => rfl
  | cons req reqs ih =>
    rw [repliesTo, answers]
    cases (HttpConnection.respond httpCallback req).closeConnection with
    | true => rfl
    | false => exact congrArg _ ih

/-- The answers are read back, one after another. -/
theorem readAll_answers {httpCallback : HttpCallback} {entries : HeaderOrder}
    (h : ∀ req, (HttpConnection.respond httpCallback req).Serialisable
      (entries (HttpConnection.respond httpCallback req))) (reqs : List HttpRequest) {n : Nat}
    (hn : reqs.length ≤ n) :
    readAll readResponse n
      ((answers httpCallback reqs).flatMap (HttpResponse.bytes entries)) =
        some (answers httpCallback reqs) := by
  induction reqs generalizing n with
  | nil => simp [answers]
  | cons req reqs ih =>
    obtain ⟨n, rfl⟩ := Nat.exists_eq_succ_of_ne_zero (Nat.ne_of_gt (Nat.lt_of_lt_of_le
      (Nat.succ_pos _) hn))
    have hne := HttpResponse.bytes_ne_nil entries (h req)
    have hread : ∀ rest,
        ((HttpConnection.respond httpCallback req).closeConnection = true → rest = []) →
          readResponse ((HttpConnection.respond httpCallback req).bytes entries ++ rest) =
            some (HttpConnection.respond httpCallback req, rest) := fun rest hrest =>
      HttpResponse.readResponse_appendToBuffer (h req) kInitialSize hrest
    rw [answers, List.flatMap_cons]
    cases hclose : (HttpConnection.respond httpCallback req).closeConnection with
    | true =>
      rw [if_pos rfl, List.flatMap_nil]
      rw [readAll_cons (by simp [hne]) (hread [] fun _ => rfl)]
      simp
    | false =>
      rw [if_neg Bool.false_ne_true]
      have hrest := hread ((answers httpCallback reqs).flatMap (HttpResponse.bytes entries))
        fun hc => absurd (hclose.symm.trans hc) Bool.false_ne_true
      rw [readAll_cons (by simp [hne]) hrest, ih (Nat.le_of_succ_le_succ hn), Option.map_some]

/-- **What the client reads.**  In every run that nothing closes, in whatever pieces the kernel
takes what is written, if what the server read were segments of whole requests: it has called the
callback with as many requests as there were segments, the first of those that came, in order; what
goes out is read as the responses to these, in order, up to the first that closes the connection;
and the write side is shut down, which ends the body of that one, exactly when the kernel has
accepted all of it.

The responses of the callback must be such as can be read back at all (`Serialisable`): a code of
three digits, a message without CR and LF, headers whose names are neither empty nor `Connection`
nor `Content-Length` and hold no colon, CR or LF, whose values hold no CR or LF and have no blanks
around them, a body of less than 10^13 bytes; and `entries` must be their headers in the order in
which the map is iterated. -/
theorem http_exchange {httpCallback : HttpCallback} {entries : HeaderOrder}
    (hresponse : ∀ req, (HttpConnection.respond httpCallback req).Serialisable
      (entries (HttpConnection.respond httpCallback req)))
    {s t : Session (List HttpRequest)} {tr : List (Session (List HttpRequest) × SessionStep)}
    (h₀ : (sessionMachine (HttpServer.onMessage httpCallback entries) []).init s)
    (h : (sessionMachine (HttpServer.onMessage httpCallback entries) []).Run s tr t)
    (hopen : Meets (fun _ l => l.StaysOpen) tr) {segments : List Segment}
    (hsegments : t.segments = segments.map Segment.arrival) :
    List.Forall₂ RequestText.Read ((segments.flatMap Segment.requests).take segments.length)
        t.client ∧
      readAll readResponse t.client.length (t.conn.accepted ++ t.conn.outputBuffer.content) =
        some (answers httpCallback t.client) ∧
      t.conn.shutdownWrites =
        if closes httpCallback t.client ∧ t.conn.outputBuffer.content = [] then 1 else 0 := by
  obtain ⟨huncut, c, hc, ht⟩ := run_answers h₀ h hopen
  have hnew : HttpConnection.Behind httpCallback [] [] .connected :=
    ⟨ValidBuffer.content_new _, .nil, rfl, rfl⟩
  obtain ⟨c', hc', hbehind⟩ := hnew.receiveAll segments
  rw [← hsegments, hc] at hc'
  cases hc'
  rw [ht.requests]
  refine ⟨hbehind.requests, ?_, ?_⟩
  · have hstream : t.conn.accepted ++ t.conn.outputBuffer.content =
        (answers httpCallback c.requests).flatMap (HttpResponse.bytes entries) := by
      rw [ht.stream huncut, hbehind.accepted, repliesTo_eq, List.flatMap_map]
      rfl
    rw [hstream]
    exact readAll_answers hresponse c.requests (Nat.le_refl _)
  · have hstate : c.state = .kDisconnecting ↔ closes httpCallback c.requests = true := by
      rw [hbehind.state]
      split <;> simp [*]
    exact (ht.shutdownWrites huncut).trans
      (if_congr (and_congr_left fun _ => hstate) rfl rfl)

/-- The theorem on a request the default callback answers. -/
theorem http_exchange_getRoot : ∃ t : Session (List HttpRequest), t.client.length = 1 ∧
    readAll readResponse t.client.length (t.conn.accepted ++ t.conn.outputBuffer.content) =
      some (answers HttpServer.defaultHttpCallback t.client) := by
  obtain ⟨-, -, t, -, -, hread, hsegments⟩ := HttpServer.step_getRoot
  have hone : t.segments = [⟨0, getRoot, []⟩].map Segment.arrival := by
    simp [hsegments, Segment.arrival, Segment.requests]
  have hresponse : ∀ req, (HttpConnection.respond HttpServer.defaultHttpCallback req).Serialisable
      ((fun _ => [] : HeaderOrder) (HttpConnection.respond HttpServer.defaultHttpCallback req)) :=
    fun _ => HttpResponse.notFound_serialisable
  have hexchange := http_exchange hresponse ⟨64, false, false, rfl⟩ (.one hread)
    (by simp [Meets, SessionStep.StaysOpen]) hone
  exact ⟨t, hexchange.1.length_eq.symm, hexchange.2.1⟩

end Reactor.Http
