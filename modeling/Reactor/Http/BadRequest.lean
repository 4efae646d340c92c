import Reactor.Http.Fragmentation

/-!
# Http — the bad request

`onMessage` has no memory of a failure: each segment is parsed by a new context.  A line it has
rejected stays at the head of the input buffer, so every later segment is rejected too; the first
rejection leaves `kConnected`, and `send` takes no second 400.

* `Malformed`: no line of the bytes is complete, or the first one is no request line.
* `receive_malformed`: what one segment does then.
* `one_badRequest`: exactly one 400, in whatever segments the bytes come.
-/

namespace Reactor.Http
open Reactor.Lib Reactor.Net

/-- The first line, if there is one, is no request line. -/
def Malformed (bytes : List Byte) : Prop :=
  ∀ line ls, lines Buffer.CR Buffer.LF bytes = line :: ls → ¬ IsRequestLine line

/-- What has come so far is malformed if all of it is. -/
theorem Malformed.of_append {bytes more : List Byte} (h : Malformed (bytes ++ more)) :
    Malformed bytes := by
  intro line ls hl
  refine h line (ls ++ lines Buffer.CR Buffer.LF (rest Buffer.CR Buffer.LF bytes ++ more)) ?_
  rw [(lines_append bytes more).1, hl, List.cons_append]

namespace HttpConnection

/-- The 400s `send` takes in this state. -/
def badRequests (state : StateE) : List Reply := if state = .kConnected then [.badRequest] else []

/-- A segment after which the bytes in the buffer are malformed leaves them there, and makes the
connection send a 400 if it is connected, after which it is not. -/
theorem receive_malformed (httpCallback : HttpCallback) (c : HttpConnection)
    (segment : Int × List Byte) (h : Malformed (c.inputBuffer.content ++ segment.2)) :
    ∃ c', c.receive httpCallback segment = some c' ∧ c'.state ≠ .kConnected ∧
      c'.inputBuffer.content = c.inputBuffer.content ++ segment.2 ∧ c'.requests = c.requests ∧
      c'.accepted = c.accepted ++ badRequests c.state :=
  receive_rejected httpCallback c segment h

/-- The segments one after another, on a connection in any state. -/
theorem receiveAll_malformed (httpCallback : HttpCallback) {segments : List (Int × List Byte)} :
    ∀ {c : HttpConnection}, segments ≠ [] →
      Malformed (c.inputBuffer.content ++ segments.flatMap Prod.snd) →
      ∃ t, c.receiveAll httpCallback segments = some t ∧
        t.inputBuffer.content = c.inputBuffer.content ++ segments.flatMap Prod.snd ∧
        t.requests = c.requests ∧ t.accepted = c.accepted ++ badRequests c.state := by
  induction segments with
  | nil => exact fun hne => absurd rfl hne
  | cons segment segments ih =>
    intro c _ h
    rw [List.flatMap_cons, ← List.append_assoc] at h
    obtain ⟨c', hc', hs, hcontent, hreq, hacc⟩ :=
      receive_malformed httpCallback c segment h.of_append
    cases segments with
    | nil => exact ⟨c', by rw [receiveAll, hc']; rfl, by simpa using hcontent, hreq, hacc⟩
    | cons segment' segments =>
      obtain ⟨t, ht, htcontent, htreq, htacc⟩ := ih (c := c') (by simp) (by rwa [hcontent])
      refine ⟨t, by rw [receiveAll, hc', Option.bind_some, ht], ?_, htreq.trans hreq, ?_⟩
      · rw [htcontent, hcontent, List.append_assoc, ← List.flatMap_cons]
      · have hno : badRequests c'.state = [] := if_neg hs
        rw [htacc, hno, List.append_nil, hacc]

end HttpConnection

/-- **A malformed request line yields exactly one 400.**  If the first line of the bytes is
complete and rejected by `processRequestLine`, a connected connection that receives them in any
segments has taken one 400 for sending, and no other reply; the HTTP callback has not been called,
and the input buffer holds all the bytes, the rejected line at their head. -/
theorem one_badRequest (httpCallback : HttpCallback) {c : HttpConnection}
    (hs : c.state = .kConnected) (hb : c.inputBuffer.content = [])
    {segments : List (Int × List Byte)} {line : List Byte} {ls : List (List Byte)}
    (hl : lines Buffer.CR Buffer.LF (segments.flatMap Prod.snd) = line :: ls)
    (hline : (HttpRequest.new.processRequestLine line).1 = false) :
    ∃ t, c.receiveAll httpCallback segments = some t ∧
      t.accepted = c.accepted ++ [.badRequest] ∧ t.requests = c.requests ∧
      t.inputBuffer.content = segments.flatMap Prod.snd ∧
      line ++ [Buffer.CR, Buffer.LF] <+: t.inputBuffer.content := by
  have hne : segments ≠ [] := by
    rintro rfl
    simp at hl
  have hmal : Malformed (c.inputBuffer.content ++ segments.flatMap Prod.snd) := by
    intro line' ls' hl'
    rw [hb, List.nil_append, hl] at hl'
    cases hl'
    simpa [IsRequestLine] using hline
  obtain ⟨t, ht, hcontent, hreq, hacc⟩ :=
    HttpConnection.receiveAll_malformed httpCallback hne hmal
  rw [hb, List.nil_append] at hcontent
  refine ⟨t, ht, by rw [hacc, HttpConnection.badRequests, if_pos hs], hreq, hcontent, ?_⟩
  have hall := unlines_lines (a := Buffer.CR) (b := Buffer.LF) (segments.flatMap Prod.snd)
  rw [hl, unlines_cons] at hall
  refine ⟨unlines Buffer.CR Buffer.LF ls ++
    rest Buffer.CR Buffer.LF (segments.flatMap Prod.snd), ?_⟩
  rw [hcontent]
  simpa using hall

/-- The theorem on a blank line that comes in two segments. -/
theorem one_badRequest_blank : ∃ t,
    HttpConnection.connected.receiveAll (fun _ response => response)
      [(0, [Buffer.CR]), (1, [Buffer.LF, 71])] = some t ∧
      t.accepted = [.badRequest] ∧ t.requests = [] := by
  have hclean : ∀ x ∈ [([] : List Byte)], search Buffer.CR Buffer.LF x = none := by simp [search]
  have hl : lines Buffer.CR Buffer.LF
      ([((0 : Int), [Buffer.CR]), (1, [Buffer.LF, 71])].flatMap Prod.snd) = [[]] := by
    refine (lines_unlines Buffer.CR_ne_LF hclean [71]).1.trans ?_
    rw [(lines_none (by decide)).1, List.append_nil]
  obtain ⟨t, ht, hacc, hreq, -⟩ := one_badRequest (fun _ response => response)
    (c := .connected) rfl (by simp [HttpConnection.connected]) hl rfl
  exact ⟨t, ht, hacc, hreq⟩

end Reactor.Http
