import Reactor.Http.HttpRequest
import Reactor.Lib.Format

/-!
# Http — HttpResponse

`HttpResponse::appendToBuffer`.  The header map is a `std::unordered_map`, so the order in which it
is gone through is a parameter.

* `content_appendToBuffer`: the bytes appended, when no `snprintf` is cut short.
-/

namespace Reactor.Http
open Reactor.Lib Reactor.Net

/-- A response; its header map is a function, its order of iteration a parameter of
`appendToBuffer`. -/
structure HttpResponse where
  statusCode : Nat
  statusMessage : List Byte
  closeConnection : Bool
  headers : List Byte → Option (List Byte)
  body : List Byte

/-- The constructor. -/
def HttpResponse.new (close : Bool) : HttpResponse := ⟨0, [], close, fun _ => none, []⟩

/-! ### The texts -/

/-- The end of a line. -/
def crlf : List Byte := [Buffer.CR, Buffer.LF]

/-- `HTTP/1.1` and a space. -/
def versionText : List Byte := text ['H', 'T', 'T', 'P', '/', '1', '.', '1', ' ']

/-- `Connection`, as `appendToBuffer` writes it. -/
def connectionName : List Byte := text ['C', 'o', 'n', 'n', 'e', 'c', 't', 'i', 'o', 'n']

/-- `Content-Length`, as `appendToBuffer` writes it. -/
def contentLengthName : List Byte :=
  text ['C', 'o', 'n', 't', 'e', 'n', 't', '-', 'L', 'e', 'n', 'g', 't', 'h']

/-- `close`, the value of `Connection` in the last response of a connection. -/
def closeValue : List Byte := text ['c', 'l', 'o', 's', 'e']

/-- `Keep-Alive`, its value in any other. -/
def keepAliveValue : List Byte := text ['K', 'e', 'e', 'p', '-', 'A', 'l', 'i', 'v', 'e']

/-- `name: value` -/
def headerLine (name value : List Byte) : List Byte := name ++ 58 :: 32 :: value

namespace HttpResponse

/-- `entries` is the header map in the order of its iteration. -/
structure Iterates (entries : List (List Byte × List Byte)) (r : HttpResponse) : Prop where
  nodup : (entries.map Prod.fst).Nodup
  mem_iff : ∀ name value, (name, value) ∈ entries ↔ r.headers name = some value

/-- `appendToBuffer`, where the header map is iterated as `entries`; `snprintf` has a buffer of 32
bytes. -/
def appendToBuffer (r : HttpResponse) (entries : List (List Byte × List Byte))
    (output : ValidBuffer) : ValidBuffer :=
  let output := output.append (snprintf 32 (versionText ++ decimal r.statusCode))
  let output := (output.append r.statusMessage).append crlf
  let output :=
    if r.closeConnection then output.append (headerLine connectionName closeValue ++ crlf)
    else
      let output := output.append
        (snprintf 32 (headerLine contentLengthName (decimal r.body.length) ++ crlf))
      output.append (headerLine connectionName keepAliveValue ++ crlf)
  let output := entries.foldl (fun output header =>
    (((output.append header.1).append [58, 32]).append header.2).append crlf) output
  (output.append crlf).append r.body

/-- The framing headers. -/
def framing (r : HttpResponse) : List (List Byte × List Byte) :=
  if r.closeConnection then [(connectionName, closeValue)]
  else [(contentLengthName, decimal r.body.length), (connectionName, keepAliveValue)]

/-- All that follows the status code. -/
def afterCode (r : HttpResponse) (entries : List (List Byte × List Byte)) : List Byte :=
  r.statusMessage ++ crlf ++
    unlines Buffer.CR Buffer.LF ((r.framing ++ entries).map fun h => headerLine h.1 h.2) ++
      crlf ++ r.body

/-- Each entry of the map is a line. -/
theorem content_foldl_entries (entries : List (List Byte × List Byte)) (output : ValidBuffer) :
    (entries.foldl (fun output header =>
      (((output.append header.1).append [58, 32]).append header.2).append crlf) output).content =
      output.content ++ unlines Buffer.CR Buffer.LF (entries.map fun h => headerLine h.1 h.2) := by
  induction entries generalizing output with
  | nil => simp
  | cons header entries ih =>
    rw [List.foldl_cons, ih]
    simp [headerLine, crlf]

/-- **The bytes appended**, for a status code and a length that fit the 32 bytes of `buf`. -/
theorem content_appendToBuffer (r : HttpResponse) (entries : List (List Byte × List Byte))
    (output : ValidBuffer) (hcode : r.statusCode < 10 ^ 22) (hbody : r.body.length < 10 ^ 13) :
    (r.appendToBuffer entries output).content =
      output.content ++ (versionText ++ decimal r.statusCode ++ r.afterCode entries) := by
  have hstatus : (versionText ++ decimal r.statusCode).length < 32 := by
    have := (length_decimal_le_iff (by omega)).mpr hcode
    have hversion : versionText.length = 9 := rfl
    rw [List.length_append]
    omega
  have hlength : (headerLine contentLengthName (decimal r.body.length) ++ crlf).length < 32 := by
    have := (length_decimal_le_iff (by omega)).mpr hbody
    have hname : contentLengthName.length = 14 := rfl
    have hcrlf : crlf.length = 2 := rfl
    simp only [headerLine, List.length_append, List.length_cons]
    omega
  simp only [appendToBuffer, ValidBuffer.content_append, content_foldl_entries,
    snprintf_eq hstatus, snprintf_eq hlength, afterCode, framing]
  cases r.closeConnection <;> simp [crlf]

end HttpResponse

end Reactor.Http
