import Reactor.Http.HttpContext
import Reactor.Lib.Runs

/-!
# Http — the verdict of parseRequest

`parseRequest` on the contexts its public functions lead to.  Its result starts out false in each
call and is assigned for a request line only; its loop has no branch for `kGotAll`.

* `Reachable.state`: no context comes to `kExpectBody`.
* `verdictSound_iff`: the result tells a malformed request line from the rest in a call that reads a
  request line, and in no other.
* `parseRequest_ends_iff`: the loop ends, within one iteration more than there are line ends, unless
  the context has got all; then it does not end.
-/

namespace Reactor.Http
open Reactor.Lib Reactor.Net

/-- A call on a context. -/
inductive ContextCall where
  | parseRequest (buf : ValidBuffer) (receiveTime : Int)
  | reset

namespace HttpContext

/-- `reset()`, which `onMessage` calls behind a request. -/
def reset (_ : HttpContext) : HttpContext := ⟨.kExpectRequestLine, .new⟩

/-- A context is constructed, and its functions are called in any order, on any buffers. -/
def contextMachine : Machine HttpContext ContextCall where
  init c := c = .new
  step c l d := match l with
    | .parseRequest buf receiveTime =>
      ∃ ok buf', c.parseRequest buf receiveTime = some (ok, d, buf')
    | .reset => d = c.reset

/-- The context expects a request line, and the first line of the buffer is complete and rejected by
`processRequestLine`. -/
def Rejects (c : HttpContext) (buf : ValidBuffer) : Prop :=
  c.state = .kExpectRequestLine ∧ ∃ crlf, buf.findCRLF = some crlf ∧
    (c.request.processRequestLine (buf.bytesUntil crlf)).1 = false

/-- The parser waits for a line that has not come. -/
def NeedsMore (c : HttpContext) (buf : ValidBuffer) : Prop :=
  c.ExpectsLine ∧ buf.findCRLF = none

/-- The result `ok` of a call means that the request line is not malformed. -/
structure VerdictSound (c : HttpContext) (buf : ValidBuffer) (ok : Bool) (c' : HttpContext)
    (buf' : ValidBuffer) : Prop where
  malformed : ok = false ↔ c.Rejects buf
  /-- It is not false because more bytes are needed. -/
  more : ok = false → ¬ c'.NeedsMore buf'
  /-- It is not false in the call that completes the headers. -/
  complete : ok = false → c'.gotAll = false

/-- The loop of `parseRequest` ends within `n` iterations, and no assertion fails in it. -/
def EndsWithin (c : HttpContext) (buf : ValidBuffer) (receiveTime : Int) (n : Nat) : Prop :=
  ∃ v, parseLoop receiveTime n ⟨false, true, c, buf⟩ = some v

/-! ### Contexts -/

theorem gotAll_iff {c : HttpContext} : c.gotAll = true ↔ c.state = .kGotAll := by simp [gotAll]

/-- A context that is not done, and expects no body, expects a line. -/
theorem expectsLine_of_not_gotAll {c : HttpContext} (h : c.state ≠ .kExpectBody)
    (hg : c.gotAll = false) : c.ExpectsLine := by
  obtain ⟨state, request⟩ := c
  cases state with
  | kExpectRequestLine => exact .inl rfl
  | kExpectHeaders => exact .inr rfl
  | kExpectBody => exact absurd rfl h
  | kGotAll => cases hg

/-- No line leads to `kExpectBody`. -/
theorem state_feed (receiveTime : Int) (ok : Bool) {c : HttpContext}
    (h : c.state ≠ .kExpectBody) (ls : List (List Byte)) :
    (feed receiveTime ok c ls).2.1.state ≠ .kExpectBody := by
  induction ls generalizing ok c with
  | nil => exact h
  | cons line ls ih =>
    obtain ⟨state, request⟩ := c
    cases state with
    | kExpectRequestLine =>
      simp only [feed]
      rcases request.processRequestLine line with ⟨_ | _, request'⟩
      · exact h
      · exact ih _ (by simp)
    | kExpectHeaders =>
      simp only [feed]
      cases find 58 line with
      | none => simp
      | some p => exact ih _ (by simp)
    | kExpectBody => exact absurd rfl h
    | kGotAll => simp [feed]

/-- **With all of a request, the loop does not end**: its body has no branch for `kGotAll`. -/
theorem parseLoop_gotAll {receiveTime : Int} {v : Loop} (hm : v.hasMore = true)
    (hg : v.context.state = .kGotAll) (n : Nat) : parseLoop receiveTime n v = none := by
  induction n with
  | zero => simp [parseLoop, hm]
  | succ n ih =>
    have hstay : iterate receiveTime v = some v := by
      rw [iterate]
      split <;> simp_all
    rw [parseLoop, if_pos hm, hstay, Option.bind_some, ih]

/-- A context that is done stays in the loop for ever. -/
theorem parseRequest_gotAll {c : HttpContext} (hg : c.gotAll = true) (buf : ValidBuffer)
    (receiveTime : Int) : c.parseRequest buf receiveTime = none := by
  rw [parseRequest, parseLoop_gotAll rfl (gotAll_iff.mp hg)]
  rfl

/-- No context comes to `kExpectBody`. -/
theorem state_of_reachable {c : HttpContext} (h : contextMachine.Reachable c) :
    c.state ≠ .kExpectBody := by
  refine h.keeps (I := fun c => c.state ≠ .kExpectBody) ?_ ?_
  · rintro c rfl
    simp [new]
  · intro c l d hc hs
    cases l with
    | reset =>
      obtain rfl : d = c.reset := hs
      simp [reset]
    | parseRequest buf receiveTime =>
      obtain ⟨ok, buf', hp⟩ := hs
      cases hg : c.gotAll with
      | true =>
        rw [parseRequest_gotAll hg] at hp
        cases hp
      | false =>
        obtain ⟨ok₁, c₁, buf₁, hp₁, hfeed, -⟩ :=
          parseRequest_eq_feed (expectsLine_of_not_gotAll hc hg) buf receiveTime
        rw [hp₁] at hp
        cases hp
        have := state_feed receiveTime false hc (linesOf buf)
        rwa [← hfeed] at this

/-! ### The result -/

/-- Header lines do not change the result. -/
theorem feed_ok (receiveTime : Int) (ok : Bool) (r : HttpRequest) (ls : List (List Byte)) :
    (feed receiveTime ok ⟨.kExpectHeaders, r⟩ ls).1 = ok := by
  induction ls generalizing r with
  | nil => rfl
  | cons line ls ih =>
    simp only [feed]
    cases find 58 line with
    | none => rfl
    | some p => exact ih _

/-- In a call without a complete line, or on header lines, the result is false. -/
theorem feed_waiting {receiveTime : Int} {c : HttpContext} (he : c.ExpectsLine) {buf : ValidBuffer}
    (h : ¬ (c.state = .kExpectRequestLine ∧ buf.findCRLF ≠ none)) :
    (feed receiveTime false c (linesOf buf)).1 = false := by
  obtain ⟨state, request⟩ := c
  rcases he with he | he <;> simp only at he <;> subst he
  · rcases linesOf_cases buf with ⟨-, hl, -⟩ | ⟨crlf, buf', hf, -⟩
    · rw [hl]; rfl
    · exact absurd ⟨rfl, by simp [hf]⟩ h
  · exact feed_ok _ _ _ _

/-- In a call that reads a request line the result is whether it is accepted; a rejected line is
left where it is. -/
theorem feed_reading (receiveTime : Int) {c : HttpContext} (hs : c.state = .kExpectRequestLine)
    {buf : ValidBuffer} {crlf : Nat} (hf : buf.findCRLF = some crlf) :
    (feed receiveTime false c (linesOf buf)).1 =
        (c.request.processRequestLine (buf.bytesUntil crlf)).1 ∧
      ((c.request.processRequestLine (buf.bytesUntil crlf)).1 = false →
        (feed receiveTime false c (linesOf buf)).2.1.gotAll = false ∧
        (feed receiveTime false c (linesOf buf)).2.2 ≠ []) := by
  obtain ⟨state, request⟩ := c
  simp only at hs
  subst hs
  rcases linesOf_cases buf with ⟨hnone, -⟩ | ⟨crlf', buf', hf', -, hl, -⟩
  · rw [hf] at hnone
    cases hnone
  · obtain rfl : crlf = crlf' := Option.some.inj (hf.symm.trans hf')
    rw [hl]
    simp only [feed]
    rcases request.processRequestLine (buf.bytesUntil crlf) with ⟨_ | _, request'⟩
    · simp [gotAll]
    · exact ⟨feed_ok _ _ _ _, fun h => by cases h⟩

theorem findCRLF_of_linesOf {buf : ValidBuffer} (h : linesOf buf ≠ []) : buf.findCRLF ≠ none := by
  rcases linesOf_cases buf with ⟨-, hl, -⟩ | ⟨crlf, buf', hf, -⟩
  · exact absurd hl h
  · simp [hf]

/-- **When the verdict means malformed.**  On a context that has not got all, the result of
`parseRequest` tells a malformed request line from everything else if and only if the context
expects a request line and the buffer has a complete line. -/
theorem verdictSound_iff {c : HttpContext} (h : contextMachine.Reachable c)
    (hg : c.gotAll = false) (buf : ValidBuffer) (receiveTime : Int) :
    ∃ ok c' buf', c.parseRequest buf receiveTime = some (ok, c', buf') ∧
      (c.VerdictSound buf ok c' buf' ↔
        c.state = .kExpectRequestLine ∧ buf.findCRLF ≠ none) := by
  have he := expectsLine_of_not_gotAll (state_of_reachable h) hg
  obtain ⟨ok, c', buf', hp, hfeed, -⟩ := parseRequest_eq_feed he buf receiveTime
  refine ⟨ok, c', buf', hp, ?_, ?_⟩
  · intro hsound
    by_contra hnot
    have hok : ok = false := (congrArg Prod.fst hfeed).trans (feed_waiting he hnot)
    obtain ⟨hs, crlf, hf, -⟩ := hsound.malformed.mp hok
    exact hnot ⟨hs, by simp [hf]⟩
  · rintro ⟨hs, hf⟩
    obtain ⟨crlf, hf⟩ := Option.ne_none_iff_exists'.mp hf
    obtain ⟨hverdict, hreject⟩ := feed_reading receiveTime hs hf
    rw [← hfeed] at hverdict hreject
    simp only at hverdict hreject
    refine ⟨⟨fun hok => ⟨hs, crlf, hf, hverdict ▸ hok⟩, ?_⟩, fun hok hmore => ?_, fun hok => ?_⟩
    · rintro ⟨-, crlf', hf', hbad⟩
      obtain rfl : crlf = crlf' := Option.some.inj (hf.symm.trans hf')
      exact hverdict.trans hbad
    · exact findCRLF_of_linesOf (hreject (hverdict ▸ hok)).2 hmore.2
    · exact (hreject (hverdict ▸ hok)).1

/-- Two lines, `GET / HTTP/1.1` and a blank one. -/
def getLines : List (List Byte) :=
  [text ['G', 'E', 'T', ' ', '/', ' ', 'H', 'T', 'T', 'P', '/', '1', '.', '1'], []]

/-- A buffer that holds the request of `getLines`, and nothing else. -/
def getBuffer : ValidBuffer :=
  (ValidBuffer.new kInitialSize).append (unlines Buffer.CR Buffer.LF getLines)

theorem linesOf_getBuffer : linesOf getBuffer = getLines := by
  have hclean : ∀ x ∈ getLines, search Buffer.CR Buffer.LF x = none := by decide
  have hl := (lines_unlines Buffer.CR_ne_LF hclean []).1
  rw [lines_nil, List.append_nil, List.append_nil] at hl
  simpa [linesOf, getBuffer] using hl

/-- The theorem where the first call reads a request line. -/
theorem verdictSound_get : ∃ ok c' buf',
    HttpContext.new.parseRequest getBuffer 0 = some (ok, c', buf') ∧
      HttpContext.new.VerdictSound getBuffer ok c' buf' := by
  obtain ⟨ok, c', buf', hp, hiff⟩ := verdictSound_iff (.of_init rfl) rfl getBuffer 0
  have hfound : getBuffer.findCRLF ≠ none :=
    findCRLF_of_linesOf (by simp [linesOf_getBuffer, getLines])
  exact ⟨ok, c', buf', hp, hiff.mpr ⟨rfl, hfound⟩⟩

/-- The first byte of a request, and no more: the result is false. -/
theorem verdict_incomplete : ¬ ∀ c buf t ok c' buf', contextMachine.Reachable c →
    c.gotAll = false → c.parseRequest buf t = some (ok, c', buf') →
      c.VerdictSound buf ok c' buf' := by
  intro hevery
  let buf : ValidBuffer := (ValidBuffer.new kInitialSize).append (text ['G'])
  have hl : linesOf buf = [] := by
    simp only [linesOf, buf, ValidBuffer.content_append, ValidBuffer.content_new, List.nil_append]
    exact (lines_none (by decide)).1
  obtain ⟨ok, c', buf', hp, hfeed, -⟩ := parseRequest_eq_feed (c := .new) (.inl rfl) buf 0
  have hsound := hevery .new buf 0 ok c' buf' (.of_init rfl) rfl hp
  rw [hl] at hfeed
  obtain ⟨-, crlf, hf, -⟩ := hsound.malformed.mp (congrArg Prod.fst hfeed)
  rcases linesOf_cases buf with ⟨hnone, -⟩ | ⟨crlf', buf'', -, -, hl', -⟩
  · rw [hf] at hnone
    cases hnone
  · rw [hl] at hl'
    cases hl'

/-! ### The loop -/

/-- **When `parseRequest` ends.**  On a context its public functions lead to, the loop ends after at
most one iteration more than there are CRLF pairs in the readable bytes, with no assertion failing,
if and only if the context has not got all; if it has, the loop never ends. -/
theorem parseRequest_ends_iff {c : HttpContext} (h : contextMachine.Reachable c)
    (buf : ValidBuffer) (receiveTime : Int) :
    (c.EndsWithin buf receiveTime (delimiters Buffer.CR Buffer.LF buf.content + 1) ↔
      c.gotAll = false) ∧
    (c.gotAll = true → ∀ n, ¬ c.EndsWithin buf receiveTime n) := by
  have hnever : c.gotAll = true → ∀ n, ¬ c.EndsWithin buf receiveTime n := by
    rintro hg n ⟨v, hv⟩
    rw [parseLoop_gotAll rfl (gotAll_iff.mp hg)] at hv
    cases hv
  refine ⟨⟨fun hends => ?_, fun hg => ?_⟩, hnever⟩
  · by_contra hg
    exact hnever (by simpa using hg) _ hends
  · have he := expectsLine_of_not_gotAll (state_of_reachable h) hg
    have hn : (linesOf buf).length < delimiters Buffer.CR Buffer.LF buf.content + 1 := by
      rw [linesOf, length_lines Buffer.CR_ne_LF]
      exact Nat.lt_succ_self _
    obtain ⟨v, hv, -⟩ := parseLoop_eq_feed receiveTime (v := ⟨false, true, c, buf⟩) rfl he hn
    exact ⟨v, hv⟩

/-- The loop ends on a new context. -/
theorem parseRequest_ends_new : HttpContext.new.EndsWithin getBuffer 0
    (delimiters Buffer.CR Buffer.LF getBuffer.content + 1) :=
  (parseRequest_ends_iff (.of_init rfl) getBuffer 0).1.mpr rfl

/-- A second call, after one that has got all of a request, does not end. -/
theorem parseRequest_again : ¬ ∀ c buf t, contextMachine.Reachable c →
    c.EndsWithin buf t (delimiters Buffer.CR Buffer.LF buf.content + 1) := by
  intro hevery
  obtain ⟨ok, c', buf', hp, hfeed, -⟩ := parseRequest_eq_feed (c := .new) (.inl rfl) getBuffer 0
  have hstep : contextMachine.step .new (.parseRequest getBuffer 0) c' := ⟨ok, buf', hp⟩
  have hr : contextMachine.Reachable c' := .run (.of_init rfl) (.one hstep)
  have hg : c'.state = .kGotAll := by
    rw [linesOf_getBuffer] at hfeed
    have hstate := congrArg (fun p => p.2.1.state) hfeed
    exact hstate.trans (by decide)
  obtain ⟨v, hv⟩ := hevery c' buf' 0 hr
  rw [parseLoop_gotAll rfl hg] at hv
  cases hv

end HttpContext

end Reactor.Http
