import Reactor.Http.HttpResponse

/-!
# Http — decoding a response

A decoder for the HTTP/1.1 response grammar: version, space, three digits, space, reason and CRLF;
header lines; a blank line; and a body delimited by `Content-Length` or by the end of the bytes.
`appendToBuffer` writes no space between the status code and the status message, so nothing it
writes is decoded to what it was written from.

* `decode_withSpace`: with the space, every response is decoded.
* `decode_appendToBuffer_ne`: without it, none is.
-/

namespace Reactor.Http
open Reactor.Lib Reactor.Net

/-! ### The grammar -/

/-- A digit. -/
def isDigit (c : Byte) : Bool := 48 ≤ c && c ≤ 57

/-- The number a non-empty list of digits stands for. -/
def number (ds : List Byte) : Option Nat :=
  if ds ≠ [] ∧ ds.all isDigit then some (value ds) else none

/-- The line up to the first CRLF, and what follows. -/
def cutLine (bytes : List Byte) : Option (List Byte × List Byte) :=
  (search Buffer.CR Buffer.LF bytes).map fun i => (bytes.take i, bytes.drop (i + 2))

/-- Status code and reason. -/
def decodeStatusLine (line : List Byte) : Option (Nat × List Byte) :=
  if line.take 9 = versionText then
    match line.drop 9 with
    | d₁ :: d₂ :: d₃ :: sp :: reason =>
      if sp = 32 then (number [d₁, d₂, d₃]).map fun code => (code, reason) else none
    | _ => none
  else none

/-- Optional white space. -/
def isOWS (c : Byte) : Bool := c = 32 || c = 9

/-- Name and value; the name is not empty. -/
def decodeHeader (line : List Byte) : Option (List Byte × List Byte) :=
  match find 58 line with
  | some (name, value) =>
    if name = [] then none else some (name, (value.dropWhile isOWS).rdropWhile isOWS)
  | none => none

/-- The header lines up to the blank line, and what follows; at most `n` lines are read. -/
def decodeHeaders : Nat → List Byte → Option (List (List Byte × List Byte) × List Byte)
  | 0, _ => none
  | n + 1, bytes =>
    match cutLine bytes with
    | none => none
    | some ([], rest) => some ([], rest)
    | some (line, rest) =>
      (decodeHeader line).bind fun header =>
        (decodeHeaders n rest).map fun p => (header :: p.1, p.2)

/-- The value of the first header with a name. -/
def lookup (name : List Byte) (headers : List (List Byte × List Byte)) : Option (List Byte) :=
  (headers.find? fun h => h.1 = name).map Prod.snd

/-- As many bytes as `Content-Length` says, or all there are. -/
def decodeBody (headers : List (List Byte × List Byte)) (bytes : List Byte) :
    Option (List Byte) :=
  match lookup contentLengthName headers with
  | none => some bytes
  | some value => (number value).bind fun n =>
      if n ≤ bytes.length then some (bytes.take n) else none

/-- The response; the headers that frame it are not part of the map. -/
def decode (bytes : List Byte) : Option HttpResponse :=
  (cutLine bytes).bind fun (statusLine, bytes) =>
    (decodeStatusLine statusLine).bind fun (code, reason) =>
      (decodeHeaders bytes.length bytes).bind fun (headers, bytes) =>
        (decodeBody headers bytes).map fun body =>
          { statusCode := code
            statusMessage := reason
            closeConnection := lookup connectionName headers = some closeValue
            headers := fun name =>
              if name = connectionName ∨ name = contentLengthName then none
              else lookup name headers
            body := body }

/-! ### Numbers -/

theorem isDigit_of_mem_decimal {n : Nat} {c : Byte} (h : c ∈ decimal n) : isDigit c = true := by
  simpa [isDigit] using mem_decimal h

theorem number_decimal (n : Nat) : number (decimal n) = some n := by
  rw [number, if_pos ⟨decimal_ne_nil n, List.all_eq_true.mpr fun c hc => isDigit_of_mem_decimal hc⟩,
    value_decimal]

/-- A status code is three digits. -/
theorem decimal_statusCode {n : Nat} (h : 100 ≤ n ∧ n ≤ 999) :
    ∃ d₁ d₂ d₃, decimal n = [d₁, d₂, d₃] := by
  have hle := (length_decimal_le_iff (n := n) (k := 3) (by omega)).mpr (by omega)
  have hgt := mt (length_decimal_le_iff (n := n) (k := 2) (by omega)).mp (by omega)
  match hd : decimal n with
  | [d₁, d₂, d₃] => exact ⟨d₁, d₂, d₃, rfl⟩
  | [] | [_] | [_, _] =>
    rw [hd] at hgt
    exact absurd (by simp) hgt
  | _ :: _ :: _ :: _ :: _ =>
    rw [hd] at hle
    simp only [List.length_cons] at hle
    omega

/-! ### Lines -/

/-- A header that is read back from its line. -/
structure HeaderOk (h : List Byte × List Byte) : Prop where
  name_ne : h.1 ≠ []
  colon : 58 ∉ h.1
  name_cr : Buffer.CR ∉ h.1
  value_cr : Buffer.CR ∉ h.2
  first : ∀ c ∈ h.2.head?, isOWS c = false
  last : ∀ c ∈ h.2.getLast?, isOWS c = false

/-- A line without a CR is cut off before its end. -/
theorem cutLine_append {line : List Byte} (h : Buffer.CR ∉ line) (bytes : List Byte) :
    cutLine (line ++ crlf ++ bytes) = some (line, bytes) := by
  have hs := search_delimiter Buffer.CR_ne_LF (search_eq_none_of_not_mem h) bytes
  have hdrop : (line ++ Buffer.CR :: Buffer.LF :: bytes).drop (line.length + 2) = bytes := by
    rw [← List.drop_drop, List.drop_left]; rfl
  rw [cutLine, List.append_assoc, crlf, List.cons_append, List.singleton_append, hs]
  simp [hdrop]

namespace HeaderOk

variable {h : List Byte × List Byte}

theorem decodeHeader_headerLine (hh : HeaderOk h) : decodeHeader (headerLine h.1 h.2) = some h := by
  have hfind : find 58 (headerLine h.1 h.2) = some (h.1, 32 :: h.2) :=
    find_eq_some.mpr ⟨rfl, hh.colon⟩
  rw [decodeHeader, hfind]
  simp only [hh.name_ne, if_false, trim_value (p := isOWS) (by decide) hh.first hh.last]

theorem cr_headerLine (hh : HeaderOk h) : Buffer.CR ∉ headerLine h.1 h.2 := by
  have hsep : Buffer.CR ∉ ([58, 32] : List Byte) := by decide
  rw [headerLine, List.append_cons, List.append_cons, List.mem_append]
  simp only [List.append_assoc, List.mem_append, not_or]
  exact ⟨⟨hh.name_cr, by simpa using hsep⟩, hh.value_cr⟩

theorem headerLine_ne (name value : List Byte) : headerLine name value ≠ [] := by
  simp [headerLine]

end HeaderOk

/-- Header lines and a blank line are read back, with what follows. -/
theorem decodeHeaders_unlines {hs : List (List Byte × List Byte)} (h : ∀ x ∈ hs, HeaderOk x)
    (bytes : List Byte) {n : Nat} (hn : hs.length < n) :
    decodeHeaders n (unlines Buffer.CR Buffer.LF (hs.map fun h => headerLine h.1 h.2) ++ crlf ++
      bytes) = some (hs, bytes) := by
  induction hs generalizing n with
  | nil =>
    obtain ⟨n, rfl⟩ := Nat.exists_eq_succ_of_ne_zero (Nat.ne_of_gt hn)
    have hcut : cutLine (crlf ++ bytes) = some ([], bytes) :=
      cutLine_append List.not_mem_nil bytes
    simp [decodeHeaders, hcut]
  | cons x hs ih =>
    obtain ⟨hx, hhs⟩ := List.forall_mem_cons.mp h
    obtain ⟨n, rfl⟩ := Nat.exists_eq_succ_of_ne_zero (Nat.ne_of_gt (Nat.zero_lt_of_lt hn))
    have hcut := cutLine_append hx.cr_headerLine
      (unlines Buffer.CR Buffer.LF (hs.map fun h => headerLine h.1 h.2) ++ crlf ++ bytes)
    have hbytes : unlines Buffer.CR Buffer.LF ((x :: hs).map fun h => headerLine h.1 h.2) ++ crlf ++
        bytes = headerLine x.1 x.2 ++ crlf ++
          (unlines Buffer.CR Buffer.LF (hs.map fun h => headerLine h.1 h.2) ++ crlf ++ bytes) := by
      simp [crlf]
    rw [hbytes, decodeHeaders, hcut]
    cases hline : headerLine x.1 x.2 with
    | nil => exact absurd hline (HeaderOk.headerLine_ne _ _)
    | cons c line =>
      simp only [← hline, hx.decodeHeader_headerLine, Option.bind_some,
        ih hhs (Nat.lt_of_succ_lt_succ hn), Option.map_some]

/-! ### The response -/

/-- A response that the grammar can express: three digits, and texts that do not break a line. -/
structure HttpResponse.Serialisable (entries : List (List Byte × List Byte)) (r : HttpResponse) :
    Prop where
  iterates : r.Iterates entries
  code : 100 ≤ r.statusCode ∧ r.statusCode ≤ 999
  message : Buffer.CR ∉ r.statusMessage ∧ Buffer.LF ∉ r.statusMessage
  header : ∀ h ∈ entries, HeaderOk h ∧ Buffer.LF ∉ h.1 ∧ Buffer.LF ∉ h.2
  name : ∀ h ∈ entries, h.1 ≠ connectionName ∧ h.1 ≠ contentLengthName
  body : r.body.length < 10 ^ 13

namespace HttpResponse

variable {r : HttpResponse} {entries : List (List Byte × List Byte)}

/-- The list the map is iterated as has the values the map has. -/
theorem lookup_of_iterates (h : r.Iterates entries) (name : List Byte) :
    lookup name entries = r.headers name := by
  cases hl : entries.find? (fun h => h.1 = name) with
  | none =>
    rw [lookup, hl, Option.map_none]
    cases hn : r.headers name with
    | none => rfl
    | some value =>
      have := List.find?_eq_none.mp hl _ ((h.mem_iff name value).mpr hn)
      simp at this
  | some p =>
    have hname : p.1 = name := by simpa using List.find?_some hl
    rw [lookup, hl, Option.map_some, ← hname, (h.mem_iff p.1 p.2).mp (List.mem_of_find?_eq_some hl)]

/-- The map has no framing header. -/
theorem Serialisable.headers_framing (h : r.Serialisable entries) {name : List Byte}
    (hn : name = connectionName ∨ name = contentLengthName) : r.headers name = none := by
  cases hv : r.headers name with
  | none => rfl
  | some value =>
    obtain ⟨h₁, h₂⟩ := h.name _ ((h.iterates.mem_iff name value).mpr hv)
    rcases hn with hn | hn
    · exact absurd hn h₁
    · exact absurd hn h₂

/-- The headers `appendToBuffer` adds can be read back. -/
theorem framing_ok (r : HttpResponse) : ∀ x ∈ r.framing, HeaderOk x := by
  have hconnection : ∀ value ∈ [closeValue, keepAliveValue], HeaderOk (connectionName, value) := by
    intro value hvalue
    have hv : value = closeValue ∨ value = keepAliveValue := by simpa using hvalue
    rcases hv with rfl | rfl
    · exact ⟨by decide, by decide, by decide, by decide, by simp [closeValue, text, isOWS],
        by simp [closeValue, text, isOWS]⟩
    · exact ⟨by decide, by decide, by decide, by decide, by simp [keepAliveValue, text, isOWS],
        by simp [keepAliveValue, text, isOWS]⟩
  have hows : ∀ c ∈ decimal r.body.length, isOWS c = false := by
    intro c hc
    have hd := isDigit_of_mem_decimal hc
    simp only [isDigit, Bool.and_eq_true, decide_eq_true_eq] at hd
    simp only [isOWS, Bool.or_eq_false_iff, decide_eq_false_iff_not]
    constructor <;> rintro rfl <;> exact absurd hd (by decide)
  have hlength : HeaderOk (contentLengthName, decimal r.body.length) := by
    have hname : contentLengthName ≠ [] ∧ 58 ∉ contentLengthName ∧
        Buffer.CR ∉ contentLengthName := by decide
    refine ⟨hname.1, hname.2.1, hname.2.2, fun hc => ?_, fun c hc => hows c ?_,
      fun c hc => hows c ?_⟩
    · exact absurd (isDigit_of_mem_decimal hc) (by decide)
    · exact List.mem_of_mem_head? hc
    · exact List.mem_of_getLast? hc
  intro x hx
  unfold framing at hx
  split at hx
  · rw [List.mem_singleton.mp hx]
    exact hconnection _ (by simp)
  · rcases List.mem_cons.mp hx with rfl | hx
    · exact hlength
    · rw [List.mem_singleton.mp hx]
      exact hconnection _ (by simp)

/-- What the framing headers say. -/
theorem decodeBody_framing (h : r.Serialisable entries) :
    decodeBody (r.framing ++ entries) r.body = some r.body := by
  cases hclose : r.closeConnection with
  | true =>
    have hnone : lookup contentLengthName (r.framing ++ entries) = none := by
      have hne : connectionName ≠ contentLengthName := by decide
      have hentries := lookup_of_iterates h.iterates contentLengthName
      rw [h.headers_framing (.inr rfl)] at hentries
      simpa [lookup, framing, hclose, hne] using hentries
    rw [decodeBody, hnone]
  | false =>
    have hsome : lookup contentLengthName (r.framing ++ entries) =
        some (decimal r.body.length) := by
      simp [lookup, framing, hclose]
    rw [decodeBody, hsome]
    simp [number_decimal]

/-- The `Connection` header tells whether the response closes. -/
theorem lookup_connection (r : HttpResponse) (entries : List (List Byte × List Byte)) :
    (lookup connectionName (r.framing ++ entries) = some closeValue) =
      (r.closeConnection = true) := by
  have hne : contentLengthName ≠ connectionName := by decide
  have hvalue : keepAliveValue ≠ closeValue := by decide
  cases hclose : r.closeConnection <;> simp [lookup, framing, hclose, hne, hvalue]

/-- The other headers are not touched by what `appendToBuffer` adds. -/
theorem lookup_framing (r : HttpResponse) (entries : List (List Byte × List Byte))
    {name : List Byte} (hn : ¬ (name = connectionName ∨ name = contentLengthName)) :
    lookup name (r.framing ++ entries) = lookup name entries := by
  have h₁ : connectionName ≠ name := fun h => hn (.inl h.symm)
  have h₂ : contentLengthName ≠ name := fun h => hn (.inr h.symm)
  cases hclose : r.closeConnection <;> simp [lookup, framing, hclose, h₁, h₂]

end HttpResponse

/-! ### The space -/

/-- The bytes with the space after the status code. -/
def withSpace (bytes : List Byte) : List Byte := bytes.take 12 ++ 32 :: bytes.drop 12

/-- A status line without that space is read with the message cut short, if at all. -/
theorem decodeStatusLine_eq_some {d₁ d₂ d₃ : Byte} {message reason : List Byte} {code : Nat}
    (h : decodeStatusLine (versionText ++ [d₁, d₂, d₃] ++ message) = some (code, reason)) :
    message = 32 :: reason := by
  have hdrop : (versionText ++ [d₁, d₂, d₃] ++ message).drop 9 = d₁ :: d₂ :: d₃ :: message := rfl
  rw [decodeStatusLine, hdrop] at h
  split at h
  · cases message with
    | nil => cases h
    | cons sp message =>
      simp only at h
      split at h
      · next hsp =>
        obtain ⟨_, -, hreason⟩ := Option.map_eq_some_iff.mp h
        cases hreason
        rw [hsp]
      · cases h
  · cases h

/-- With a space behind the code the status line is read back. -/
theorem decodeStatusLine_space {n : Nat} {d₁ d₂ d₃ : Byte} (h : decimal n = [d₁, d₂, d₃])
    (message : List Byte) :
    decodeStatusLine (versionText ++ [d₁, d₂, d₃] ++ 32 :: message) = some (n, message) := by
  have htake : (versionText ++ [d₁, d₂, d₃] ++ 32 :: message).take 9 = versionText := rfl
  have hdrop : (versionText ++ [d₁, d₂, d₃] ++ 32 :: message).drop 9 =
    d₁ :: d₂ :: d₃ :: 32 :: message := rfl
  rw [decodeStatusLine, if_pos htake, hdrop]
  simp only [if_true, ← h, number_decimal, Option.map_some]

theorem cr_statusLine {n : Nat} {message : List Byte} (h : Buffer.CR ∉ message) :
    Buffer.CR ∉ versionText ++ decimal n ++ message := by
  have hversion : Buffer.CR ∉ versionText := by decide
  have hdecimal : Buffer.CR ∉ decimal n := fun hc => absurd (isDigit_of_mem_decimal hc) (by decide)
  simp only [List.mem_append, not_or]
  exact ⟨⟨hversion, hdecimal⟩, h⟩

namespace HttpResponse

variable {r : HttpResponse} {entries : List (List Byte × List Byte)}

/-- The parts of a response, decoded one after another. -/
theorem decode_parts {line bytes reason rest body : List Byte} {code : Nat}
    {headers : List (List Byte × List Byte)} (hline : Buffer.CR ∉ line)
    (hstatus : decodeStatusLine line = some (code, reason))
    (hheaders : decodeHeaders bytes.length bytes = some (headers, rest))
    (hbody : decodeBody headers rest = some body) :
    decode (line ++ crlf ++ bytes) =
      some ⟨code, reason, lookup connectionName headers = some closeValue,
        fun name => if name = connectionName ∨ name = contentLengthName then none
          else lookup name headers, body⟩ := by
  rw [decode, cutLine_append hline]
  simp [hstatus, hheaders, hbody]

/-- The status message comes from the status line. -/
theorem statusMessage_of_decode {line bytes : List Byte} (hline : Buffer.CR ∉ line)
    (h : decode (line ++ crlf ++ bytes) = some r) :
    ∃ code, decodeStatusLine line = some (code, r.statusMessage) := by
  rw [decode, cutLine_append hline, Option.bind_some] at h
  obtain ⟨⟨code, reason⟩, hstatus, h⟩ := Option.bind_eq_some_iff.mp h
  obtain ⟨⟨headers, rest⟩, -, h⟩ := Option.bind_eq_some_iff.mp h
  obtain ⟨body, -, rfl⟩ := Option.map_eq_some_iff.mp h
  exact ⟨code, hstatus⟩

/-- All that follows the status line. -/
def afterLine (r : HttpResponse) (entries : List (List Byte × List Byte)) : List Byte :=
  unlines Buffer.CR Buffer.LF ((r.framing ++ entries).map fun h => headerLine h.1 h.2) ++
    crlf ++ r.body

/-- What follows the code: the message, the end of the line, and the rest of the response. -/
theorem afterCode_eq (r : HttpResponse) (entries : List (List Byte × List Byte)) :
    r.afterCode entries = r.statusMessage ++ crlf ++ r.afterLine entries := by
  simp [afterCode, afterLine]

/-- Behind the status line all is as the grammar wants it. -/
theorem decodeHeaders_afterLine (h : r.Serialisable entries) :
    decodeHeaders (r.afterLine entries).length (r.afterLine entries) =
      some (r.framing ++ entries, r.body) := by
  refine decodeHeaders_unlines (fun x hx => ?_) r.body ?_
  · rcases List.mem_append.mp hx with hx | hx
    · exact r.framing_ok x hx
    · exact (h.header x hx).1
  · have hle := length_le_length_unlines (a := Buffer.CR) (b := Buffer.LF)
      ((r.framing ++ entries).map fun h => headerLine h.1 h.2)
    rw [List.length_map] at hle
    simp only [afterLine, crlf, List.length_append, List.length_cons] at hle ⊢
    omega

/-- **With the space, every response is decoded** to what it was written from. -/
theorem decode_withSpace (h : r.Serialisable entries) (n : Nat) :
    decode (withSpace (r.appendToBuffer entries (.new n)).content) = some r := by
  obtain ⟨d₁, d₂, d₃, hd⟩ := decimal_statusCode h.code
  have hcode : r.statusCode < 10 ^ 22 := Nat.lt_of_le_of_lt h.code.2 (by decide)
  have hspace : withSpace (r.appendToBuffer entries (.new n)).content =
      versionText ++ decimal r.statusCode ++ 32 :: r.statusMessage ++ crlf ++
        r.afterLine entries := by
    rw [content_appendToBuffer _ _ _ hcode h.body, ValidBuffer.content_new, List.nil_append, hd,
      afterCode_eq]
    simp [withSpace, versionText, text]
  have hcr : Buffer.CR ∉ versionText ++ decimal r.statusCode ++ 32 :: r.statusMessage :=
    cr_statusLine (by simpa [Buffer.CR] using h.message.1)
  have hstatus : decodeStatusLine (versionText ++ decimal r.statusCode ++ 32 :: r.statusMessage) =
      some (r.statusCode, r.statusMessage) := by rw [hd, decodeStatusLine_space hd]
  rw [hspace, decode_parts hcr hstatus (decodeHeaders_afterLine h) (decodeBody_framing h)]
  have hheaders : (fun name => if name = connectionName ∨ name = contentLengthName then none
      else lookup name (r.framing ++ entries)) = r.headers := by
    funext name
    split
    · next hn => exact (h.headers_framing hn).symm
    · next hn => rw [r.lookup_framing entries hn, lookup_of_iterates h.iterates]
  simp only [hheaders, r.lookup_connection, Bool.decide_eq_true]

/-- Without it, the decoder finds no space, or takes the first byte of the message for it. -/
theorem decode_ne (hcode : 100 ≤ r.statusCode ∧ r.statusCode ≤ 999)
    (hmessage : Buffer.CR ∉ r.statusMessage) (hbody : r.body.length < 10 ^ 13)
    (entries : List (List Byte × List Byte)) (n : Nat) :
    decode (r.appendToBuffer entries (.new n)).content ≠ some r := by
  obtain ⟨d₁, d₂, d₃, hd⟩ := decimal_statusCode hcode
  have hcode' : r.statusCode < 10 ^ 22 := Nat.lt_of_le_of_lt hcode.2 (by decide)
  intro h
  rw [content_appendToBuffer _ _ _ hcode' hbody, ValidBuffer.content_new, List.nil_append,
    afterCode_eq, ← List.append_assoc, ← List.append_assoc] at h
  obtain ⟨code, hstatus⟩ := statusMessage_of_decode (cr_statusLine hmessage) h
  rw [hd] at hstatus
  exact List.cons_ne_self _ _ (decodeStatusLine_eq_some hstatus).symm

/-- **No response is decoded to what it was written from.**  Three digits, a status message that
does not break the line and a body whose length fits are enough for that, whatever the headers and
the framing are. -/
theorem decode_appendToBuffer_ne (r : HttpResponse) (entries : List (List Byte × List Byte))
    (n : Nat) (hcode : 100 ≤ r.statusCode ∧ r.statusCode ≤ 999)
    (hmessage : Buffer.CR ∉ r.statusMessage ∧ Buffer.LF ∉ r.statusMessage)
    (hbody : r.body.length < 10 ^ 13) :
    decode (r.appendToBuffer entries (.new n)).content ≠ some r :=
  decode_ne hcode hmessage.1 hbody entries n

/-- The answer of `defaultHttpCallback`. -/
def notFound : HttpResponse where
  statusCode := 404
  statusMessage := text ['N', 'o', 't', ' ', 'F', 'o', 'u', 'n', 'd']
  closeConnection := true
  headers := fun _ => none
  body := []

theorem notFound_serialisable : notFound.Serialisable [] :=
  ⟨⟨by simp, by simp [notFound]⟩, by decide, by decide, by simp, by simp, by decide⟩

/-- The theorem at that answer. -/
theorem decode_notFound_ne :
    decode (notFound.appendToBuffer [] (.new kInitialSize)).content ≠ some notFound :=
  decode_appendToBuffer_ne notFound [] kInitialSize (by decide) (by decide) (by decide)

/-- It cannot be decoded. -/
theorem notFound_not_decoded : ¬ ∀ r entries n, HttpResponse.Serialisable entries r →
    decode (r.appendToBuffer entries (.new n)).content = some r :=
  fun h => decode_ne (by decide) (by decide) (by decide) [] kInitialSize
    (h notFound [] kInitialSize notFound_serialisable)

end HttpResponse

end Reactor.Http
