import Reactor.Http.Fragmentation

/-!
# Http — incremental parsing

One `HttpContext` that parses as the chunks arrive.  A line that is not complete, or a request line
that is rejected, is parsed again after the next chunk; neither changes what comes out.  The header
section ends at the first line without a colon, which need not be blank.

* `feed_resume`: a parser that goes on is one that has been given everything at once.
* `parseChunks_eq_parseRequest`: the cut into chunks does not show.
* `endsAtBlankLine_iff`: when the bytes taken off are a request line, header lines and a blank line.
* `colonless_line`: when they are not.
-/

namespace Reactor.Http
open Reactor.Lib Reactor.Net

/-! ### Requests up to the receive time -/

namespace HttpRequest

/-- Two requests agree if only their times differ. -/
theorem agrees_iff {r r' : HttpRequest} :
    r.Agrees r' ↔ r' = { r with receiveTime := r'.receiveTime } := by
  obtain ⟨method, version, path, query, time, headers⟩ := r
  obtain ⟨method', version', path', query', time', headers'⟩ := r'
  simp only [Agrees, mk.injEq]
  constructor
  · rintro ⟨rfl, rfl, rfl, rfl, rfl⟩
    simp
  · rintro ⟨rfl, rfl, rfl, rfl, -, rfl⟩
    simp

theorem Agrees.refl (r : HttpRequest) : r.Agrees r := ⟨rfl, rfl, rfl, rfl, rfl⟩

theorem Agrees.symm {r r' : HttpRequest} (h : r.Agrees r') : r'.Agrees r := by
  obtain ⟨h₁, h₂, h₃, h₄, h₅⟩ := h
  exact ⟨h₁.symm, h₂.symm, h₃.symm, h₄.symm, h₅.symm⟩

theorem Agrees.trans {r r' r'' : HttpRequest} (h : r.Agrees r') (h' : r'.Agrees r'') :
    r.Agrees r'' := by
  obtain ⟨h₁, h₂, h₃, h₄, h₅⟩ := h
  obtain ⟨h₁', h₂', h₃', h₄', h₅'⟩ := h'
  exact ⟨h₁.trans h₁', h₂.trans h₂', h₃.trans h₃', h₄.trans h₄', h₅.trans h₅'⟩

theorem agrees_receiveTime (r : HttpRequest) (receiveTime : Int) :
    r.Agrees { r with receiveTime := receiveTime } := ⟨rfl, rfl, rfl, rfl, rfl⟩

/-- What a request line writes does not depend on the request it is written to: writing it again
changes nothing, and the receive time is left alone. -/
structure Writes (f : HttpRequest → HttpRequest) : Prop where
  again : ∀ r, f (f r) = f r
  receiveTime : ∀ r t, f { r with receiveTime := t } = { f r with receiveTime := t }

/-- What is set, and whether it is a method, does not depend on the request. -/
theorem setMethod_eq (m : List Byte) :
    ∃ method, ∀ r : HttpRequest,
      r.setMethod m = (decide (method ≠ .kInvalid), { r with method := method }) :=
  ⟨_, fun _ => rfl⟩

/-- The path is set from the target alone; the query only if the target has one. -/
theorem setTarget_eq (target : List Byte) :
    ∃ path, ∃ query : Option (List Byte), ∀ r : HttpRequest,
      r.setTarget target = { r with path := path, query := query.getD r.query } := by
  unfold setTarget
  split
  · next path query _ => exact ⟨path, some (63 :: query), fun _ => rfl⟩
  · exact ⟨target, none, fun _ => rfl⟩

/-- What the request line writes does not depend on the request either. -/
theorem processRequestLine_eq (line : List Byte) :
    ∃ ok f, Writes f ∧ ∀ r : HttpRequest, r.processRequestLine line = (ok, f r) := by
  unfold processRequestLine
  split
  · exact ⟨false, id, ⟨fun _ => rfl, fun _ _ => rfl⟩, fun _ => rfl⟩
  · next m start _ =>
    obtain ⟨method, hm⟩ := setMethod_eq m
    simp only [hm]
    by_cases hmethod : method = .kInvalid
    · exact ⟨false, fun r => { r with method := .kInvalid }, ⟨fun _ => rfl, fun _ _ => rfl⟩,
        fun r => by simp [hmethod]⟩
    · simp only [hmethod, ne_eq, not_false_eq_true, decide_true]
      split
      · exact ⟨false, fun r => { r with method := method }, ⟨fun _ => rfl, fun _ _ => rfl⟩,
          fun _ => rfl⟩
      · next target version _ =>
        obtain ⟨path, query, ht⟩ := setTarget_eq target
        simp only [ht]
        have hquery : ∀ q : List Byte, query.getD (query.getD q) = query.getD q := by
          intro q; cases query <;> rfl
        have hfalse : Writes fun r : HttpRequest =>
            { r with method := method, path := path, query := query.getD r.query } :=
          ⟨fun r => by simp [hquery], fun _ _ => rfl⟩
        have htrue : ∀ v, Writes fun r : HttpRequest =>
            { r with method := method, path := path, query := query.getD r.query, version := v } :=
          fun v => ⟨fun r => by simp [hquery], fun _ _ => rfl⟩
        split
        · split
          · exact ⟨true, _, htrue .kHttp11, fun _ => rfl⟩
          · split
            · exact ⟨true, _, htrue .kHttp10, fun _ => rfl⟩
            · exact ⟨false, _, hfalse, fun _ => rfl⟩
        · exact ⟨false, _, hfalse, fun _ => rfl⟩

/-- A line read again is read the same way, and writes the same. -/
theorem processRequestLine_again (r : HttpRequest) (line : List Byte) :
    (r.processRequestLine line).2.processRequestLine line = r.processRequestLine line := by
  obtain ⟨ok, f, hf, hp⟩ := processRequestLine_eq line
  rw [hp r, hp, hf.again]

/-- So a request line has the same verdict for two requests that agree, which agree behind it. -/
theorem Agrees.processRequestLine {r r' : HttpRequest} (h : r.Agrees r') (line : List Byte) :
    (r.processRequestLine line).1 = (r'.processRequestLine line).1 ∧
      (r.processRequestLine line).2.Agrees (r'.processRequestLine line).2 := by
  obtain ⟨ok, f, hf, hp⟩ := processRequestLine_eq line
  rw [agrees_iff.mp h, hp, hp, hf.receiveTime r r'.receiveTime]
  exact ⟨rfl, agrees_receiveTime _ _⟩

theorem Agrees.addHeader {r r' : HttpRequest} (h : r.Agrees r') (field value : List Byte) :
    (r.addHeader field value).Agrees (r'.addHeader field value) := by
  obtain ⟨h₁, h₂, h₃, h₄, h₅⟩ := h
  exact ⟨h₁, h₂, h₃, h₄, by simp [HttpRequest.addHeader, h₅]⟩

end HttpRequest

/-! ### Lines in two parts -/

namespace HttpContext

/-- The same state, and the same request up to the receive time. -/
def Agrees (c c' : HttpContext) : Prop := c.state = c'.state ∧ c.request.Agrees c'.request

theorem Agrees.refl (c : HttpContext) : c.Agrees c := ⟨rfl, .refl _⟩

theorem Agrees.symm {c c' : HttpContext} (h : c.Agrees c') : c'.Agrees c :=
  ⟨h.1.symm, h.2.symm⟩

theorem Agrees.trans {c c' c'' : HttpContext} (h : c.Agrees c') (h' : c'.Agrees c'') :
    c.Agrees c'' := ⟨h.1.trans h'.1, h.2.trans h'.2⟩

/-- What `feed` makes of the lines depends on the receive time only in the receive time. -/
theorem feed_agrees (t t' : Int) (ok ok' : Bool) {c c' : HttpContext} (h : c.Agrees c')
    (ls : List (List Byte)) :
    (feed t ok c ls).2.1.Agrees (feed t' ok' c' ls).2.1 ∧
      (feed t ok c ls).2.2 = (feed t' ok' c' ls).2.2 := by
  induction ls generalizing ok ok' c c' with
  | nil => exact ⟨h, rfl⟩
  | cons line ls ih =>
    obtain ⟨state, r⟩ := c
    obtain ⟨state', r'⟩ := c'
    obtain ⟨hstate, hr⟩ := h
    simp only at hstate hr
    subst hstate
    cases state with
    | kExpectRequestLine =>
      obtain ⟨hok, hline⟩ := hr.processRequestLine line
      simp only [feed]
      rcases hp : r.processRequestLine line with ⟨_ | _, r₁⟩ <;>
        rcases hp' : r'.processRequestLine line with ⟨_ | _, r₁'⟩ <;>
        simp only [hp, hp'] at hok hline ⊢
      · exact ⟨⟨rfl, hline⟩, trivial⟩
      · cases hok
      · cases hok
      · exact ih true true ⟨rfl, (HttpRequest.agrees_receiveTime _ _).symm.trans
          (hline.trans (HttpRequest.agrees_receiveTime _ _))⟩
    | kExpectHeaders =>
      simp only [feed]
      cases find 58 line with
      | none => exact ⟨⟨rfl, hr⟩, rfl⟩
      | some p => exact ih ok ok' ⟨rfl, hr.addHeader _ _⟩
    | kExpectBody => exact ⟨⟨rfl, hr⟩, rfl⟩
    | kGotAll => exact ⟨⟨rfl, hr⟩, rfl⟩

/-- A parser that has got all of it takes no more lines. -/
theorem feed_gotAll_append {t : Int} {ok : Bool} {c : HttpContext} (he : c.ExpectsLine)
    {ls : List (List Byte)} (h : (feed t ok c ls).2.1.gotAll = true) (ms : List (List Byte)) :
    feed t ok c (ls ++ ms) =
      ((feed t ok c ls).1, (feed t ok c ls).2.1, (feed t ok c ls).2.2 ++ ms) := by
  induction ls generalizing ok c with
  | nil => rcases he with he | he <;> simp [feed, gotAll, he] at h
  | cons line ls ih =>
    obtain ⟨state, r⟩ := c
    rcases he with he | he <;> simp only at he <;> subst he <;>
      simp only [feed, List.cons_append] at h ⊢
    · rcases hp : r.processRequestLine line with ⟨_ | _, r₁⟩ <;> simp only [hp] at h ⊢
      · simp [gotAll] at h
      · exact ih (.inr rfl) h
    · cases hc : find 58 line with
      | none => rfl
      | some p =>
        simp only [hc] at h
        exact ih (.inr rfl) h

/-- **A parser that goes on** with the lines it has left and those that come is one that has been
given all the lines at once. -/
theorem feed_resume (t t' : Int) (ok ok' : Bool) {c : HttpContext} (he : c.ExpectsLine)
    {ls : List (List Byte)} (h : (feed t ok c ls).2.1.gotAll = false) (ms : List (List Byte)) :
    (feed t ok c ls).2.1.ExpectsLine ∧
      (feed t ok c (ls ++ ms)).2.1.Agrees
        (feed t' ok' (feed t ok c ls).2.1 ((feed t ok c ls).2.2 ++ ms)).2.1 ∧
      (feed t ok c (ls ++ ms)).2.2 =
        (feed t' ok' (feed t ok c ls).2.1 ((feed t ok c ls).2.2 ++ ms)).2.2 := by
  induction ls generalizing ok c with
  | nil => exact ⟨he, feed_agrees t t' ok ok' (.refl c) ms⟩
  | cons line ls ih =>
    obtain ⟨state, r⟩ := c
    rcases he with he | he <;> simp only at he <;> subst he <;>
      simp only [feed, List.cons_append] at h ⊢
    · cases hp : r.processRequestLine line with
      | mk accepted r₁ =>
        cases accepted with
        | true =>
          simp only [hp] at h ⊢
          exact ih true (.inr rfl) h
        | false =>
          -- the rejected line is read again, and rejected again
          have hagain := r.processRequestLine_again line
          rw [hp] at hagain
          simp only [feed, List.cons_append, hagain]
          exact ⟨.inl rfl, .refl _, trivial⟩
    · cases hc : find 58 line with
      | none => simp [hc, gotAll] at h
      | some p =>
        simp only [hc] at h ⊢
        exact ih ok (.inr rfl) h

/-! ### Chunks -/

/-- The chunks arrive one after another, and the context parses after each until it has got all:
the context, the buffer, and the chunks that have not been appended. -/
def parseChunks (c : HttpContext) (buf : ValidBuffer) :
    List (Int × List Byte) → Option (HttpContext × ValidBuffer × List (Int × List Byte))
  | [] => some (c, buf, [])
  | chunk :: chunks =>
    if c.gotAll then some (c, buf, chunk :: chunks)
    else (c.parseRequest (buf.append chunk.2) chunk.1).bind fun (_, c, buf) =>
      parseChunks c buf chunks

/-- A new context that has been given all of `bytes` at once would agree with `c`, and leave
`unread`. -/
structure ParsedFrom (bytes : List Byte) (c : HttpContext) (unread : List Byte) : Prop where
  context : (feed 0 false .new (lines Buffer.CR Buffer.LF bytes)).2.1.Agrees c
  lines : Lib.lines Buffer.CR Buffer.LF unread =
    (feed 0 false .new (Lib.lines Buffer.CR Buffer.LF bytes)).2.2
  rest : Lib.rest Buffer.CR Buffer.LF unread = Lib.rest Buffer.CR Buffer.LF bytes

theorem parsedFrom_nil : ParsedFrom [] .new [] := by
  constructor <;> simp [feed, Agrees.refl]

namespace ParsedFrom

variable {bytes unread : List Byte} {c : HttpContext}

/-- Whether the request is complete can be told from all bytes at once. -/
theorem gotAll_eq (h : ParsedFrom bytes c unread) :
    (feed 0 false .new (Lib.lines Buffer.CR Buffer.LF bytes)).2.1.gotAll = c.gotAll := by
  rw [HttpContext.gotAll, h.context.1]; rfl

/-- All that is left is in the lines and the rest. -/
theorem unique {c' : HttpContext} {unread' : List Byte} (h : ParsedFrom bytes c unread)
    (h' : ParsedFrom bytes c' unread') : c.Agrees c' ∧ unread = unread' := by
  refine ⟨h.context.symm.trans h'.context, ?_⟩
  rw [← unlines_lines (a := Buffer.CR) (b := Buffer.LF) unread, h.lines, h.rest, ← h'.lines,
    ← h'.rest, unlines_lines]

/-- What comes after the context has got all stays where it is. -/
theorem append (h : ParsedFrom bytes c unread) (hc : c.gotAll = true) (more : List Byte) :
    ParsedFrom (bytes ++ more) c (unread ++ more) := by
  have hfeed := feed_gotAll_append (.inl rfl) (h.gotAll_eq.trans hc)
    (Lib.lines Buffer.CR Buffer.LF (Lib.rest Buffer.CR Buffer.LF bytes ++ more))
  rw [← (lines_append bytes more).1] at hfeed
  refine ⟨by rw [hfeed]; exact h.context, ?_, ?_⟩
  · rw [hfeed, (lines_append unread more).1, h.lines, h.rest]
  · rw [(lines_append unread more).2, (lines_append bytes more).2, h.rest]

/-- One more chunk is parsed as if it had come with the ones before. -/
theorem parseRequest (h : ParsedFrom bytes c unread) (hc : c.gotAll = false) {buf : ValidBuffer}
    (hbuf : buf.content = unread) (chunk : Int × List Byte) :
    ∃ ok c' buf', c.parseRequest (buf.append chunk.2) chunk.1 = some (ok, c', buf') ∧
      ParsedFrom (bytes ++ chunk.2) c' buf'.content := by
  obtain ⟨he, hagrees, hleft⟩ := feed_resume 0 chunk.1 false false (.inl rfl)
    (h.gotAll_eq.trans hc)
    (Lib.lines Buffer.CR Buffer.LF (Lib.rest Buffer.CR Buffer.LF bytes ++ chunk.2))
  rw [← (lines_append bytes chunk.2).1] at hagrees hleft
  have hexpects : c.ExpectsLine := by rwa [ExpectsLine, ← h.context.1]
  obtain ⟨ok, c', buf', hp, hfeed, hrest⟩ :=
    parseRequest_eq_feed hexpects (buf.append chunk.2) chunk.1
  rw [linesOf, linesOf, ValidBuffer.content_append, hbuf, (lines_append unread chunk.2).1, h.lines,
    h.rest] at hfeed
  rw [restOf, restOf, ValidBuffer.content_append, hbuf, (lines_append unread chunk.2).2,
    h.rest] at hrest
  have hsame := feed_agrees chunk.1 chunk.1 false false h.context
    ((feed 0 false .new (Lib.lines Buffer.CR Buffer.LF bytes)).2.2 ++
      Lib.lines Buffer.CR Buffer.LF (Lib.rest Buffer.CR Buffer.LF bytes ++ chunk.2))
  rw [← hfeed] at hsame
  exact ⟨ok, c', buf', hp, hagrees.trans hsame.1, hsame.2.symm.trans hleft.symm,
    hrest.trans (lines_append bytes chunk.2).2.symm⟩

/-- **However the bytes are cut**, the context agrees with one that has been given them at once,
and the bytes not consumed are the same. -/
theorem parseChunks (h : ParsedFrom bytes c unread) {buf : ValidBuffer}
    (hbuf : buf.content = unread) (chunks : List (Int × List Byte)) :
    ∃ c' buf' left, c.parseChunks buf chunks = some (c', buf', left) ∧
      ParsedFrom (bytes ++ chunks.flatMap Prod.snd) c'
        (buf'.content ++ left.flatMap Prod.snd) := by
  induction chunks generalizing bytes unread c buf with
  | nil => exact ⟨c, buf, [], rfl, by simpa [hbuf] using h⟩
  | cons chunk chunks ih =>
    cases hc : c.gotAll with
    | true =>
      exact ⟨c, buf, chunk :: chunks, by simp [HttpContext.parseChunks, hc],
        by rw [hbuf]; exact h.append hc _⟩
    | false =>
      obtain ⟨ok, c₁, buf₁, hp, h₁⟩ := h.parseRequest hc hbuf chunk
      obtain ⟨c', buf', left, hrun, h'⟩ := ih h₁ rfl
      refine ⟨c', buf', left, by simp [HttpContext.parseChunks, hc, hp, hrun], ?_⟩
      rwa [List.flatMap_cons, ← List.append_assoc]

end ParsedFrom

/-- A new context and a new buffer. -/
theorem exists_parseChunks (n : Nat) (chunks : List (Int × List Byte)) :
    ∃ c buf left, HttpContext.new.parseChunks (.new n) chunks = some (c, buf, left) ∧
      ParsedFrom (chunks.flatMap Prod.snd) c (buf.content ++ left.flatMap Prod.snd) := by
  simpa using parsedFrom_nil.parseChunks (ValidBuffer.content_new n) chunks

end HttpContext

/-- **Incremental parsing is one-shot parsing.**  The chunks one after another, with a call of
`parseRequest` after each, end in the same state with the same method, path, query, version and
headers as one call on all the bytes, and leave the same bytes, unread or not yet fed. -/
theorem parseChunks_eq_parseRequest (chunks : List (Int × List Byte)) (n m : Nat)
    (receiveTime : Int) :
    ∃ c buf left ok c' buf',
      HttpContext.new.parseChunks (.new n) chunks = some (c, buf, left) ∧
      HttpContext.new.parseRequest ((ValidBuffer.new m).append (chunks.flatMap Prod.snd))
        receiveTime = some (ok, c', buf') ∧
      c.state = c'.state ∧ c.request.Agrees c'.request ∧
      buf.content ++ left.flatMap Prod.snd = buf'.content := by
  obtain ⟨c, buf, left, hchunks, hparsed⟩ := HttpContext.exists_parseChunks n chunks
  obtain ⟨ok, c', buf', hone, hparsed'⟩ := HttpContext.parsedFrom_nil.parseRequest rfl
    (ValidBuffer.content_new m) (receiveTime, chunks.flatMap Prod.snd)
  obtain ⟨⟨hstate, hrequest⟩, hunread⟩ := hparsed.unique hparsed'
  exact ⟨c, buf, left, ok, c', buf', hchunks, hone, hstate, hrequest, hunread⟩

/-! ### The end of the header section -/

namespace HttpContext

/-- The lines by which a context gets all of a request: a request line, header lines, and a line
without a colon, whatever it is. -/
structure IsHead (line : List Byte) (hs : List (List Byte)) (x : List Byte) : Prop where
  requestLine : IsRequestLine line
  headers : ∀ h ∈ hs, 58 ∈ h
  last : 58 ∉ x

/-- The last line is the first after the request line that has no colon. -/
theorem IsHead.find?_eq {line x : List Byte} {hs : List (List Byte)} (h : IsHead line hs x)
    (ms : List (List Byte)) : (hs ++ x :: ms).find? (58 ∉ ·) = some x :=
  List.find?_eq_some_iff_append.mpr
    ⟨by simpa using h.last, hs, ms, rfl, by simpa using h.headers⟩

/-- A head that is complete is consumed up to its empty line, and no further. -/
theorem feed_head {t : Int} {ok : Bool} {line x : List Byte} {hs : List (List Byte)}
    (h : IsHead line hs x) (ms : List (List Byte)) :
    (feed t ok .new (line :: (hs ++ x :: ms))).2.1.gotAll = true ∧
      (feed t ok .new (line :: (hs ++ x :: ms))).2.2 = ms := by
  obtain ⟨r, hp⟩ : ∃ r, HttpRequest.new.processRequestLine line = (true, r) :=
    ⟨_, Prod.ext h.requestLine rfl⟩
  simp [feed, new, hp, feed_headers h.headers, find_eq_none.mpr h.last, gotAll]

/-- A request is complete only behind such a head. -/
theorem gotAll_feed {t : Int} {ok : Bool} {ls : List (List Byte)}
    (h : (feed t ok .new ls).2.1.gotAll = true) :
    ∃ line hs x ms, IsHead line hs x ∧ ls = line :: (hs ++ x :: ms) := by
  cases ls with
  | nil => simp [feed, gotAll, new] at h
  | cons line ls =>
    cases hp : HttpRequest.new.processRequestLine line with
    | mk accepted r =>
      cases accepted with
      | false => simp [feed, new, hp, gotAll] at h
      | true =>
        cases hx : ls.find? (58 ∉ ·) with
        | none =>
          -- header lines only
          have hcolon : ∀ x ∈ ls, 58 ∈ x := by simpa [List.find?_eq_none] using hx
          have hfeed : feed t true ⟨.kExpectHeaders, { r with receiveTime := t }⟩ (ls ++ []) = _ :=
            feed_headers hcolon []
          rw [List.append_nil] at hfeed
          simp [feed, new, hp, hfeed, gotAll] at h
        | some x =>
          obtain ⟨hlast, hs, ms, rfl, hcolon⟩ := List.find?_eq_some_iff_append.mp hx
          exact ⟨line, hs, x, ms,
            ⟨congrArg Prod.fst hp, by simpa using hcolon, by simpa using hlast⟩, rfl⟩

/-- The bytes taken off by a context that has got all are such lines. -/
theorem ParsedFrom.consumed {bytes unread : List Byte} {c : HttpContext}
    (h : ParsedFrom bytes c unread) (hc : c.gotAll = true) :
    ∃ line hs x, IsHead line hs x ∧
      Lib.lines Buffer.CR Buffer.LF bytes =
        line :: (hs ++ x :: Lib.lines Buffer.CR Buffer.LF unread) ∧
      bytes = unlines Buffer.CR Buffer.LF (line :: (hs ++ [x])) ++ unread := by
  obtain ⟨line, hs, x, ms, hhead, hl⟩ := gotAll_feed (h.gotAll_eq.trans hc)
  have hms : Lib.lines Buffer.CR Buffer.LF unread = ms := by
    rw [h.lines, hl, (feed_head hhead ms).2]
  refine ⟨line, hs, x, hhead, by rw [hl, hms], ?_⟩
  calc bytes = unlines Buffer.CR Buffer.LF (Lib.lines Buffer.CR Buffer.LF bytes) ++
        Lib.rest Buffer.CR Buffer.LF bytes := (unlines_lines _).symm
    _ = unlines Buffer.CR Buffer.LF (line :: (hs ++ [x])) ++
        (unlines Buffer.CR Buffer.LF (Lib.lines Buffer.CR Buffer.LF unread) ++
          Lib.rest Buffer.CR Buffer.LF unread) := by rw [hl, ← h.rest, hms]; simp [unlines]
    _ = _ := by rw [unlines_lines]

end HttpContext

/-- An accepted request line, header lines with a colon, and a blank line. -/
def IsRequestHead (bytes : List Byte) : Prop :=
  ∃ line hs, IsRequestLine line ∧ (∀ h ∈ hs, 58 ∈ h) ∧
    (∀ x ∈ line :: hs, search Buffer.CR Buffer.LF x = none) ∧
    bytes = unlines Buffer.CR Buffer.LF (line :: (hs ++ [[]]))

/-- If the context gets all, the bytes taken off are a request head. -/
def EndsAtBlankLine (n : Nat) (chunks : List (Int × List Byte)) : Prop :=
  ∀ c buf left consumed, HttpContext.new.parseChunks (.new n) chunks = some (c, buf, left) →
    c.gotAll = true →
    chunks.flatMap Prod.snd = consumed ++ (buf.content ++ left.flatMap Prod.snd) →
    IsRequestHead consumed

/-- After an accepted request line, the first line without a colon is blank. -/
def BlankBeforeColonless (bytes : List Byte) : Prop :=
  ∀ line ls, lines Buffer.CR Buffer.LF bytes = line :: ls → IsRequestLine line →
    ∀ x ∈ ls.find? (58 ∉ ·), x = []

/-- A context that has been given a head whose last line is not blank has not ended at a blank
line. -/
theorem not_endsAtBlankLine {n : Nat} {chunks : List (Int × List Byte)} {line x : List Byte}
    {hs ms : List (List Byte)} (hhead : HttpContext.IsHead line hs x) (hx : x ≠ [])
    (hl : lines Buffer.CR Buffer.LF (chunks.flatMap Prod.snd) = line :: (hs ++ x :: ms)) :
    ¬ EndsAtBlankLine n chunks := by
  intro h
  obtain ⟨c, buf, left, hrun, hparsed⟩ := HttpContext.exists_parseChunks n chunks
  have hc : c.gotAll = true := by
    rw [← hparsed.gotAll_eq, hl, (HttpContext.feed_head hhead ms).1]
  obtain ⟨line', hs', x', hhead', hl', hbytes⟩ := hparsed.consumed hc
  obtain ⟨line₂, hs₂, -, -, hclean₂, hcons⟩ := h c buf left _ hrun hc hbytes
  have hxx' : some x = some x' := by
    rw [← hhead.find?_eq ms, ← hhead'.find?_eq, (List.cons.inj (hl.symm.trans hl')).2]
  have hlines : line' :: (hs' ++ [x']) = line₂ :: (hs₂ ++ [[]]) := by
    refine unlines_inj Buffer.CR_ne_LF (fun y hy => ?_) (fun y hy => ?_) hcons
    · refine search_of_mem_lines (l := chunks.flatMap Prod.snd) ?_
      rw [hl', List.append_cons, ← List.cons_append]
      exact List.mem_append_left _ hy
    · rw [← List.cons_append] at hy
      rcases List.mem_append.mp hy with hy | hy
      · exact hclean₂ y hy
      · rw [List.mem_singleton.mp hy]; rfl
  have hlast := congrArg List.getLast? hlines
  rw [← List.cons_append, ← List.cons_append, List.getLast?_concat, List.getLast?_concat] at hlast
  exact hx (Option.some.inj (hxx'.trans hlast))

/-- **Where the header section ends.**  In whatever chunks the bytes come, a context that gets all
has taken off a request line, header lines and a blank line if and only if the first line without a
colon after the request line is blank. -/
theorem endsAtBlankLine_iff (n : Nat) (chunks : List (Int × List Byte)) :
    EndsAtBlankLine n chunks ↔ BlankBeforeColonless (chunks.flatMap Prod.snd) := by
  constructor
  · intro h line ls hl hline x hx
    obtain ⟨hlast, hs, ms, rfl, hcolon⟩ := List.find?_eq_some_iff_append.mp hx
    by_contra hne
    exact not_endsAtBlankLine ⟨hline, by simpa using hcolon, by simpa using hlast⟩ hne hl h
  · intro h c buf left consumed hrun hc hcons
    obtain ⟨c', buf', left', hrun', hparsed⟩ := HttpContext.exists_parseChunks n chunks
    rw [hrun] at hrun'
    cases hrun'
    obtain ⟨line, hs, x, hhead, hl, hbytes⟩ := hparsed.consumed hc
    have hx : x = [] := h line _ hl hhead.requestLine x (hhead.find?_eq _)
    subst hx
    refine ⟨line, hs, hhead.requestLine, hhead.headers, fun y hy => ?_, ?_⟩
    · refine search_of_mem_lines (l := chunks.flatMap Prod.snd) ?_
      rw [hl, ← List.cons_append]
      exact List.mem_append_left _ hy
    · rw [hcons] at hbytes
      exact List.append_cancel_right hbytes

/-- `GET / HTTP/1.1`, and a line `Host` without a colon. -/
def hostWithoutColon : List (List Byte) := [getRoot.requestLine, text ['H', 'o', 's', 't']]

/-- The context has got all. -/
theorem colonless_line : ¬ ∀ n chunks, EndsAtBlankLine n chunks := by
  intro h
  have hclean : ∀ x ∈ hostWithoutColon, search Buffer.CR Buffer.LF x = none := by decide
  have hl := (lines_unlines Buffer.CR_ne_LF hclean []).1
  rw [lines_nil, List.append_nil, List.append_nil] at hl
  have hhead : HttpContext.IsHead getRoot.requestLine [] (text ['H', 'o', 's', 't']) :=
    ⟨getRoot.isRequestLine, by simp, by decide⟩
  have hlines : lines Buffer.CR Buffer.LF
      ([((0 : Int), unlines Buffer.CR Buffer.LF hostWithoutColon)].flatMap Prod.snd) =
        getRoot.requestLine :: ([] ++ text ['H', 'o', 's', 't'] :: []) := by
    rw [List.flatMap_singleton, hl]
    rfl
  exact not_endsAtBlankLine hhead (by decide) hlines (h kInitialSize _)

end Reactor.Http
