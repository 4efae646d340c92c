import Mathlib.Logic.Function.Basic
import Mathlib.Data.List.DropRight
import Reactor.Net.Buffer

/-!
# Http — HttpRequest

`HttpRequest`, the searches of the parser, and the two functions that read a line: `addHeader` and
`processRequestLine`.

* `find_eq_some`: what `std::find` cuts a line into.
* `processRequestLine_eq_true`: an accepted request line is its method, target and version written
  out.
* `processRequestLine_iff`: which lines are accepted, and what becomes of them.
-/

namespace Reactor.Http
open Reactor.Lib Reactor.Net

/-- The bytes of an ASCII text. -/
def text (cs : List Char) : List Byte := cs.map fun c => c.toNat.toUInt8

/-! ### `std::find` -/

/-- `std::find` for `c`: the bytes before it and those after it, if it is there. -/
def find (c : Byte) : List Byte → Option (List Byte × List Byte)
  | [] => none
  | x :: l => if x = c then some ([], l) else (find c l).map fun p => (x :: p.1, p.2)

/-- `std::find` finds nothing if the byte does not occur. -/
theorem find_eq_none {c : Byte} {l : List Byte} : find c l = none ↔ c ∉ l := by
  induction l with
  | nil => simp [find]
  | cons x l ih =>
    by_cases h : x = c
    · simp [find, h]
    · simp [find, h, ih, Ne.symm h]

/-- `std::find` cuts at the first place where the byte occurs. -/
theorem find_eq_some {c : Byte} {l p q : List Byte} :
    find c l = some (p, q) ↔ l = p ++ c :: q ∧ c ∉ p := by
  induction l generalizing p with
  | nil => simp [find]
  | cons x l ih =>
    by_cases h : x = c
    · cases p with
      | nil => simp [find, h]
      | cons y p =>
        subst h
        simp only [find, if_true, Option.some.injEq, Prod.mk.injEq, List.cons_append,
          List.cons.injEq, List.mem_cons, not_or, reduceCtorEq, false_and, false_iff]
        rintro ⟨⟨rfl, -⟩, hne, -⟩
        exact hne rfl
    · cases p with
      | nil => simp [find, h]
      | cons y p =>
        simp only [find, h, if_false, Option.map_eq_some_iff, Prod.mk.injEq, List.cons.injEq,
          Prod.exists, List.cons_append, List.mem_cons, not_or]
        constructor
        · rintro ⟨p', q', hf, ⟨rfl, rfl⟩, rfl⟩
          exact ⟨⟨rfl, (ih.mp hf).1⟩, Ne.symm h, (ih.mp hf).2⟩
        · rintro ⟨⟨rfl, hl⟩, -, hp⟩
          exact ⟨p, q, ih.mpr ⟨hl, hp⟩, ⟨rfl, rfl⟩, rfl⟩

/-- A value after a space, with none of what is trimmed off around it, is trimmed down to
itself. -/
theorem trim_value {p : Byte → Bool} (hp : p 32 = true) {value : List Byte}
    (first : ∀ c ∈ value.head?, p c = false) (last : ∀ c ∈ value.getLast?, p c = false) :
    ((32 :: value).dropWhile p).rdropWhile p = value := by
  have hfirst : value.dropWhile p = value := by
    rw [List.dropWhile_eq_self_iff]
    intro hl
    simp [first _ (List.head?_eq_getElem? ▸ List.getElem?_eq_getElem hl)]
  have hlast : value.rdropWhile p = value := by
    rw [List.rdropWhile_eq_self_iff]
    intro hl
    simp [last _ (List.getLast?_eq_some_getLast hl)]
  rw [List.dropWhile_cons, if_pos hp, hfirst, hlast]

/-! ### The request -/

/-- The methods, and `kInvalid` for any other. -/
inductive Method where
  | kInvalid
  | kGet
  | kPost
  | kHead
  | kPut
  | kDelete
  deriving DecidableEq, Repr

/-- The versions, and `kUnknown` for any other. -/
inductive Version where
  | kUnknown
  | kHttp10
  | kHttp11
  deriving DecidableEq, Repr

/-- The text `methodString` returns. -/
def Method.string : Method → List Byte
  | .kInvalid => text ['U', 'N', 'K', 'N', 'O', 'W', 'N']
  | .kGet => text ['G', 'E', 'T']
  | .kPost => text ['P', 'O', 'S', 'T']
  | .kHead => text ['H', 'E', 'A', 'D']
  | .kPut => text ['P', 'U', 'T']
  | .kDelete => text ['D', 'E', 'L', 'E', 'T', 'E']

/-- The version as it stands in a request line. -/
def Version.string : Version → List Byte
  | .kUnknown => []
  | .kHttp10 => text ['H', 'T', 'T', 'P', '/', '1', '.', '0']
  | .kHttp11 => text ['H', 'T', 'T', 'P', '/', '1', '.', '1']

/-- A request, as far as it has been parsed; strings are lists of bytes. -/
structure HttpRequest where
  method : Method
  version : Version
  path : List Byte
  query : List Byte
  receiveTime : Int
  /-- `_headers` -/
  headers : List Byte → Option (List Byte)

namespace HttpRequest

/-- The constructor. -/
def new : HttpRequest := ⟨.kInvalid, .kUnknown, [], [], 0, fun _ => none⟩

/-- `setMethod(start, end)`, of the bytes between; it answers whether there is such a method. -/
def setMethod (r : HttpRequest) (m : List Byte) : Bool × HttpRequest :=
  let method : Method :=
    if m = text ['G', 'E', 'T'] then .kGet
    else if m = text ['P', 'O', 'S', 'T'] then .kPost
    else if m = text ['H', 'E', 'A', 'D'] then .kHead
    else if m = text ['P', 'U', 'T'] then .kPut
    else if m = text ['D', 'E', 'L', 'E', 'T', 'E'] then .kDelete
    else .kInvalid
  (decide (method ≠ .kInvalid), { r with method := method })

/-- `methodString()` of the request's method. -/
def methodString (r : HttpRequest) : List Byte := r.method.string

/-- `isspace` in the C locale. -/
def isspace (c : Byte) : Bool := c = 32 || (9 ≤ c && c ≤ 13)

/-- `addHeader` on `field ':' value`. -/
def addHeader (r : HttpRequest) (field value : List Byte) : HttpRequest :=
  let value := (value.dropWhile isspace).rdropWhile isspace
  { r with headers := Function.update r.headers field (some value) }

/-- The empty string for a field that is not there. -/
def getHeader (r : HttpRequest) (field : List Byte) : List Byte := (r.headers field).getD []

/-- The part of `processRequestLine` that sets path and query. -/
def setTarget (r : HttpRequest) (target : List Byte) : HttpRequest :=
  match find 63 target with
  | some (path, query) => { r with path := path, query := 63 :: query }
  | none => { r with path := target }

/-- `HttpContext::processRequestLine`, on the request of the context. -/
def processRequestLine (r : HttpRequest) (line : List Byte) : Bool × HttpRequest :=
  match find 32 line with
  | none => (false, r)
  | some (m, start) =>
    match r.setMethod m with
    | (false, r) => (false, r)
    | (true, r) =>
      match find 32 start with
      | none => (false, r)
      | some (target, start) =>
        let r := r.setTarget target
        if start.length = 8 ∧ start.take 7 = text ['H', 'T', 'T', 'P', '/', '1', '.'] then
          if start.drop 7 = text ['1'] then (true, { r with version := .kHttp11 })
          else if start.drop 7 = text ['0'] then (true, { r with version := .kHttp10 })
          else (false, r)
        else (false, r)

/-- The request line that a request was read from. -/
def requestLine (r : HttpRequest) : List Byte :=
  r.methodString ++ 32 :: (r.path ++ r.query ++ 32 :: r.version.string)

/-- A method that is accepted is one of the five, spelled as the code spells it. -/
theorem setMethod_eq_true {r r' : HttpRequest} {m : List Byte}
    (h : r.setMethod m = (true, r')) :
    ∃ method : Method,
      method ≠ .kInvalid ∧ m = method.string ∧ r' = { r with method := method } := by
  simp only [setMethod, Prod.mk.injEq, decide_eq_true_eq] at h
  obtain ⟨hne, rfl⟩ := h
  refine ⟨_, hne, ?_, rfl⟩
  revert hne
  repeat' split
  all_goals simp_all [Method.string]

theorem setMethod_string {method : Method} (h : method ≠ .kInvalid) (r : HttpRequest) :
    r.setMethod method.string = (true, { r with method := method }) := by
  cases method with
  | kInvalid => exact absurd rfl h
  | _ => rfl

/-- Path and query are the target, on a request that has no query yet. -/
theorem setTarget_spec {r : HttpRequest} (hq : r.query = []) (target : List Byte) :
    ∃ path query, r.setTarget target = { r with path := path, query := query } ∧
      path ++ query = target := by
  unfold setTarget
  split
  · next path query h => exact ⟨path, 63 :: query, rfl, (find_eq_some.mp h).1.symm⟩
  · exact ⟨target, r.query, rfl, by simp [hq]⟩

/-- A supported method, a target without a space and a supported version make a request line. -/
theorem processRequestLine_string {method : Method} {version : Version} {target : List Byte}
    (hm : method ≠ .kInvalid) (hv : version ≠ .kUnknown) (ht : 32 ∉ target) (r : HttpRequest) :
    r.processRequestLine (method.string ++ 32 :: (target ++ 32 :: version.string)) =
      (true, { ({ r with method := method } : HttpRequest).setTarget target with
        version := version }) := by
  have hspace : 32 ∉ method.string := by cases method <;> decide
  rw [processRequestLine, find_eq_some.mpr ⟨rfl, hspace⟩]
  simp only [setMethod_string hm, find_eq_some.mpr ⟨rfl, ht⟩]
  cases version with
  | kUnknown => exact absurd rfl hv
  | kHttp10 => rfl
  | kHttp11 => rfl

/-- What `processRequestLine` accepts is a method, a target and a version. -/
theorem processRequestLine_accepted {r r' : HttpRequest} {line : List Byte}
    (h : r.processRequestLine line = (true, r')) :
    ∃ (method : Method) (version : Version) (target : List Byte), method ≠ .kInvalid ∧
      version ≠ .kUnknown ∧ 32 ∉ target ∧
      line = method.string ++ 32 :: (target ++ 32 :: version.string) ∧
      r' = { ({ r with method := method } : HttpRequest).setTarget target with
        version := version } := by
  have hsplit : ∃ (method : Method) (version : Version) (target : List Byte),
      method ≠ .kInvalid ∧ version ≠ .kUnknown ∧ 32 ∉ target ∧
        line = method.string ++ 32 :: (target ++ 32 :: version.string) := by
    unfold processRequestLine at h
    split at h
    · cases h
    · next m start hm =>
      split at h
      · cases h
      · next r₁ hr₁ =>
        obtain ⟨method, hmethod, rfl, rfl⟩ := setMethod_eq_true hr₁
        obtain ⟨rfl, -⟩ := find_eq_some.mp hm
        split at h
        · cases h
        · next target version ht =>
          obtain ⟨rfl, hspace⟩ := find_eq_some.mp ht
          dsimp only at h
          split at h
          · next hv =>
            -- the first seven bytes of the version are checked, then the last one
            have hversion := List.take_append_drop 7 version
            rw [hv.2] at hversion
            split at h
            · next hlast =>
              exact ⟨method, .kHttp11, target, hmethod, by simp, hspace, by
                rw [← hversion, hlast]; rfl⟩
            · split at h
              · next hlast =>
                exact ⟨method, .kHttp10, target, hmethod, by simp, hspace, by
                  rw [← hversion, hlast]; rfl⟩
              · cases h
          · cases h
  obtain ⟨method, version, target, hm, hv, ht, rfl⟩ := hsplit
  refine ⟨method, version, target, hm, hv, ht, rfl, ?_⟩
  rw [processRequestLine_string hm hv ht] at h
  exact (Prod.mk.inj h).2.symm

/-- **An accepted request line** is the method, the target and the version of the request, written
out; the other fields are left alone. -/
theorem processRequestLine_eq_true {r r' : HttpRequest} {line : List Byte} (hq : r.query = [])
    (h : r.processRequestLine line = (true, r')) :
    line = r'.requestLine ∧ r'.headers = r.headers ∧ r'.receiveTime = r.receiveTime := by
  obtain ⟨method, version, target, -, -, -, rfl, rfl⟩ := processRequestLine_accepted h
  obtain ⟨path, query, hset, rfl⟩ := setTarget_spec (r := { r with method := method }) hq target
  rw [hset]
  exact ⟨rfl, rfl, rfl⟩

/-! ### The grammar -/

/-- A supported method, a space, a target without one, a space, and a supported version. -/
def WellFormedLine (line : List Byte) : Prop :=
  ∃ (method : Method) (version : Version) (target : List Byte), method ≠ .kInvalid ∧
    version ≠ .kUnknown ∧ 32 ∉ target ∧
    line = method.string ++ 32 :: (target ++ 32 :: version.string)

/-- The target is cut at its first question mark; without one the query is not set. -/
theorem setTarget_cases (r : HttpRequest) (target : List Byte) :
    (63 ∉ target ∧ r.setTarget target = { r with path := target }) ∨
      ∃ path query, 63 ∉ path ∧ target = path ++ 63 :: query ∧
        r.setTarget target = { r with path := path, query := 63 :: query } := by
  unfold setTarget
  split
  · next path query h =>
    obtain ⟨rfl, hpath⟩ := find_eq_some.mp h
    exact .inr ⟨path, query, hpath, rfl, rfl⟩
  · next h => exact .inl ⟨find_eq_none.mp h, rfl⟩

/-- **The request line grammar is exact.**  `processRequestLine` accepts the lines of the grammar
and no others.  Of a line it accepts the path has no question mark, and on a request without a
query the query is empty or starts with one, and method, path, query and version written out are
the line; they are, on any request, if and only if no query is left over from before. -/
theorem processRequestLine_iff (r : HttpRequest) (line : List Byte) :
    ((r.processRequestLine line).1 = true ↔ WellFormedLine line) ∧
      ((r.processRequestLine line).1 = true →
        63 ∉ (r.processRequestLine line).2.path ∧
        (r.query = [] → (r.processRequestLine line).2.query = [] ∨
          (r.processRequestLine line).2.query.head? = some 63) ∧
        ((r.processRequestLine line).2.requestLine = line ↔ r.query = [] ∨ 63 ∈ line)) := by
  refine ⟨⟨fun h => ?_, ?_⟩, fun h => ?_⟩
  · obtain ⟨method, version, target, hm, hv, ht, hline, -⟩ :=
      processRequestLine_accepted (Prod.ext h rfl : _ = (true, (r.processRequestLine line).2))
    exact ⟨method, version, target, hm, hv, ht, hline⟩
  · rintro ⟨method, version, target, hm, hv, ht, rfl⟩
    rw [processRequestLine_string hm hv ht]
  · obtain ⟨method, version, target, -, -, -, rfl, heq⟩ :=
      processRequestLine_accepted (Prod.ext h rfl : _ = (true, (r.processRequestLine line).2))
    have hmethod : 63 ∉ method.string := by cases method <;> decide
    have hversion : 63 ∉ version.string := by cases version <;> decide
    rw [heq]
    rcases setTarget_cases { r with method := method } target with
      ⟨hno, hset⟩ | ⟨path, query, hpath, rfl, hset⟩
    · rw [hset]
      refine ⟨hno, fun hq => .inl hq, ?_⟩
      simp [requestLine, methodString, hmethod, hversion, hno]
    · rw [hset]
      refine ⟨hpath, fun _ => .inr rfl, ?_⟩
      simp [requestLine, methodString]

end HttpRequest

end Reactor.Http
