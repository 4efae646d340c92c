import Reactor.Net.SendAccounting

/-!
# Net — the strings of send

`send(const std::string&)` called in a thread other than the loop thread binds the address and the
length of the string's characters into the functor it queues; the loop thread reads the characters
when it runs the functor.  This is the machine of a shared connection together with what becomes of
the strings: a thread constructs one, passes it to `send`, changes its characters and destroys it.
Callers keep their side: a string passed to `send` is alive, and is left alone until `send` has
bound it.

Beyond the steps of `SharedConn.Step` the connection may be closed here: the loop thread runs any
of its functions, and a thread in `shutdown()` or `forceClose()` stores `kDisconnecting`.

`given`, `calls` and `dangling` are history: the content of the string a thread passed to `send` at
the time of the call; for every send that saw `kConnected` its thread and that content, by number;
and whether the loop has read a string that was destroyed.

* `Intact`: every string in the queue is as it was passed, and a thread's sends are in its order.
* `StringStep.intact`: the step lemma.
* `delivers_of_kept`: as long as no queued string is changed or destroyed, what is handed to
  `sendInLoop` is what was passed to `send`, in each thread's order.
* `changed_string_sent`: a run in which a thread changes its string after `send` has returned.
-/

namespace Reactor.Net
open Reactor.Lib

/-! ### The characters of a string -/

namespace SendArg

/-- Every character of the string is in allocated memory. -/
def live (allocated : Nat → Bool) : SendArg → Bool
  | .string data len => (List.range len).all fun k => allocated (data + k)
  | .buffer _ => true

theorem live_iff {allocated : Nat → Bool} {arg : SendArg} :
    arg.live allocated = true ↔ ∀ a, arg.Spans a → allocated a = true := by
  cases arg with
  | buffer message => exact ⟨fun _ _ h => h.elim, fun _ => rfl⟩
  | string data len =>
    simp only [live, List.all_eq_true, List.mem_range, Spans]
    constructor
    · rintro h a ⟨hle, hlt⟩
      have := h (a - data) (by omega)
      rwa [Nat.add_sub_cancel' hle] at this
    · exact fun h k hk => h (data + k) ⟨Nat.le_add_right data k, by omega⟩

end SendArg

/-- A shared connection, with what memory is in use; what each thread has given `send` last, the
calls it made, and whether memory was read that was not in use, are history. -/
structure StringConn (T : Type) where
  shared : SharedConn T
  allocated : Nat → Bool
  given : T → List Byte
  calls : List (T × List Byte)
  dangling : Bool

namespace StringConn

variable {T : Type} [DecidableEq T]

/-- No call has been made. -/
def new (shared : SharedConn T) (allocated : Nat → Bool) : StringConn T where
  shared := shared
  allocated := allocated
  given := fun _ => []
  calls := []
  dangling := false

/-- The address lies in a string that is being passed to `send`. -/
def InCall (s : StringConn T) (a : Nat) : Prop :=
  ∃ t arg, s.shared.clients t = .sendLoaded arg ∧ arg.Spans a

/-- The callers keep their side: `send` is called with a live string, and only live strings not in
a call are changed. -/
def Proper (s : StringConn T) : SharedStep T → Prop
  | .send _ arg => arg.live s.allocated = true
  | .store _ a _ => s.allocated a = true ∧ ¬ s.InCall a
  | _ => True

/-- The step runs a queued `sendInLoop` whose string is destroyed. -/
def readsDestroyed (s : StringConn T) : SharedStep T → Bool
  | .call _ =>
    match s.shared.queue with
    | .sendInLoop _ arg :: _ => !arg.live s.allocated
    | _ => false
  | _ => false

/-- The history behind a step of the shared connection. -/
def after (s : StringConn T) (l : SharedStep T) (u : SharedConn T) : StringConn T :=
  { s with
    shared := u
    given :=
      match l with
      | .send t arg => Function.update s.given t (arg.bytes s.shared.memory)
      | _ => s.given
    calls :=
      match l with
      | .sendAct t _ => s.calls ++ [(t, s.given t)]
      | _ => s.calls
    dangling := s.dangling || s.readsDestroyed l }

/-- The functions the loop thread runs in any order; `sendInLoop` is not called from outside. -/
def Handles : ConnStep → Prop
  | .sendInLoop _ _ => False
  | _ => True

/-- Memory with a string's characters in it. -/
def write (memory : Nat → Byte) (data : Nat) (content : List Byte) (a : Nat) : Byte :=
  if data ≤ a then content.getD (a - data) (memory a) else memory a

/-- A string is constructed at an address. -/
def construct (s : StringConn T) (data : Nat) (content : List Byte) : StringConn T :=
  { s with
    shared := { s.shared with memory := write s.shared.memory data content }
    allocated := fun a => if data ≤ a ∧ a < data + content.length then true else s.allocated a }

/-- The memory of a string is given back. -/
def destroy (s : StringConn T) (data len : Nat) : StringConn T :=
  { s with allocated := fun a => if data ≤ a ∧ a < data + len then false else s.allocated a }

end StringConn

/-- The steps of the connection, and those of the strings. -/
inductive StringStep (T : Type) where
  | shared (l : SharedStep T)
  /-- The loop thread runs a function of the connection. -/
  | handle (l : ConnStep)
  /-- `shutdown()` or `forceClose()` stores `kDisconnecting`, whatever it saw. -/
  | storeState (t : T)
  | construct (t : T) (data : Nat) (content : List Byte)
  | destroy (t : T) (data len : Nat)

namespace StringConn

variable {T : Type} [DecidableEq T]

/-- The steps; a string is constructed in memory that is not in use, and destroyed by a thread that
is in no call, unless a call uses it. -/
inductive Step : StringConn T → StringStep T → StringConn T → Prop where
  | shared {s : StringConn T} {l : SharedStep T} {u : SharedConn T}
      (h : SharedConn.Step s.shared l u) (hl : s.Proper l) : Step s (.shared l) (s.after l u)
  | handle {s : StringConn T} (l : ConnStep)
      (hidle : s.shared.clients s.shared.loop.threadId = .idle)
      (hidle' : s.shared.loop.callers s.shared.loop.threadId = .idle)
      (hcode : s.shared.loop.InClientCode) (hl : Handles l) (hp : l.Possible s.shared.conn) :
      Step s (.handle l) { s with shared := s.shared.setConn (l.run s.shared.conn) }
  | storeState {s : StringConn T} (t : T) (hc : s.shared.clients t = .idle) :
      Step s (.storeState t)
        { s with shared := { s.shared with conn := s.shared.conn.setState .kDisconnecting } }
  | construct {s : StringConn T} (t : T) (data : Nat) (content : List Byte)
      (hc : s.shared.clients t = .idle)
      (hfree : ∀ a, data ≤ a → a < data + content.length → s.allocated a = false) :
      Step s (.construct t data content) (s.construct data content)
  | destroy {s : StringConn T} (t : T) (data len : Nat) (hc : s.shared.clients t = .idle)
      (hlive : ∀ a, data ≤ a → a < data + len → s.allocated a = true ∧ ¬ s.InCall a) :
      Step s (.destroy t data len) (s.destroy data len)

end StringConn

/-- The machine, from a constructed loop and a constructed connection and any strings. -/
def stringMachine (T : Type) [DecidableEq T] : Machine (StringConn T) (StringStep T) where
  init s := ∃ shared allocated, (sharedMachine T).init shared ∧ s = .new shared allocated
  step := StringConn.Step

namespace StringConn

variable {T : Type} [DecidableEq T]

/-- The send of that number was called in `t`. -/
def calledBy (calls : List (T × List Byte)) (t : T) (call : Nat) : Bool :=
  (calls[call]?).map Prod.fst == some t

/-- The loop has read no destroyed string, what was handed to `sendInLoop` is the content of the
string at the time of the call, and the sends of a thread other than the loop thread were handed
over in the order of its calls. -/
structure Delivers (s : StringConn T) : Prop where
  notDangling : s.dangling = false
  content : ∀ p ∈ s.shared.handed, (s.calls[p.1]?).map Prod.snd = some p.2
  inOrder : ∀ t, t ≠ s.shared.loop.threadId →
    (s.shared.handed.map Prod.fst).filter (calledBy s.calls t) <+:
      (List.range s.calls.length).filter (calledBy s.calls t)

/-- No character of a queued string is changed, and no queued string is destroyed. -/
def Kept (s : StringConn T) : StringStep T → Prop
  | .shared l => s.shared.StringsKept l
  | .destroy _ data len => ∀ call arg, Task.sendInLoop call arg ∈ s.shared.queue →
      ∀ a, arg.Spans a → ¬ (data ≤ a ∧ a < data + len)
  | _ => True

end StringConn

/-! ### What a step does to the sends -/

namespace SharedConn

variable {T : Type} [DecidableEq T]

/-- The sends handed over, then those in the queue. -/
def numbers (s : SharedConn T) : List Nat :=
  s.handed.map Prod.fst ++ s.queue.filterMap Task.call?

theorem Step.threadId {s t : SharedConn T} {l : SharedStep T} (h : Step s l t) :
    t.loop.threadId = s.loop.threadId := by
  have hloop : ∀ {u : EventLoop T Task} {l : LoopStep T Task}, EventLoop.Step s.loop l u →
      u.threadId = s.loop.threadId := by
    intro u l h
    cases h <;> simp [EventLoop.handleRead, EventLoop.emplaceBack, EventLoop.storeQuit]
  cases h with
  | loop h => exact hloop h
  | @call u task r hidle h =>
    cases task with
    | sendInLoop | shutdownInLoop => exact (setConn_threadId _ _).trans (hloop h)
    | callback | other => exact hloop h
  | conn => exact setConn_threadId _ _
  | sendAct th arg r =>
    rw [SharedConn.sendAct_eq]
    split
    · exact setConn_threadId _ _
    · simp [EventLoop.emplaceBack]
  | shutdownAct th =>
    rw [SharedConn.shutdownAct_eq]
    split
    · exact setConn_threadId _ _
    · simp [EventLoop.emplaceBack]
  | _ => rfl

/-- A step that is no send leaves the sends. -/
theorem Step.sends_eq {s t : SharedConn T} {l : SharedStep T} (h : Step s l t)
    (hl : ∀ th r, l ≠ .sendAct th r) : t.sends = s.sends := by
  cases h with
  | @call u task => cases task <;> rfl
  | sendAct th arg r => exact absurd rfl (hl th r)
  | shutdownAct th => exact (s.shutdownAct_frame th).2.1
  | _ => rfl

/-- A step changes the memory only where it stores. -/
theorem Step.memory_eq {s t : SharedConn T} {l : SharedStep T} (h : Step s l t) {a : Nat}
    (hl : ∀ th b, l ≠ .store th a b) : t.memory a = s.memory a := by
  cases h with
  | @call u task => cases task <;> rfl
  | sendAct th arg r =>
    rw [SharedConn.sendAct_eq]
    split <;> rfl
  | shutdownAct th =>
    rw [SharedConn.shutdownAct_eq]
    split <;> rfl
  | store th a' b =>
    refine Function.update_of_ne ?_ b s.memory
    rintro rfl
    exact hl th b rfl
  | _ => rfl

/-- A thread is past the test of `send` by its own call only. -/
theorem Step.sendLoaded {s t : SharedConn T} {l : SharedStep T} (h : Step s l t) {th : T}
    {arg : SendArg} (hc : t.clients th = .sendLoaded arg) :
    s.clients th = .sendLoaded arg ∨ l = .send th arg := by
  have hset : ∀ {c : T} {pc : ClientPc}, pc ≠ .sendLoaded arg →
      t.clients = Function.update s.clients c pc → s.clients th = .sendLoaded arg := by
    intro c pc hpc he
    rw [he] at hc
    by_cases hth : th = c
    · subst hth; rw [Function.update_self] at hc; exact absurd hc hpc
    · rwa [Function.update_of_ne hth] at hc
  cases h with
  | @call u task => cases task <;> exact .inl hc
  | send c arg' =>
    by_cases hth : th = c
    · subst hth
      refine .inr ?_
      simp only [setClient, Function.update_self] at hc
      split at hc
      · cases hc; rfl
      · cases hc
    · exact .inl (by simpa [setClient, hth] using hc)
  | sendAct c arg' r => exact .inl (hset (by simp) (s.sendAct_frame c arg' r).1)
  | shutdown c => exact .inl (hset (by split <;> simp) rfl)
  | storeState c => exact .inl (hset (by simp) rfl)
  | shutdownAct c => exact .inl (hset (by simp) (s.shutdownAct_frame c).1)
  | ret c => exact .inl (hset (by simp) rfl)
  | _ => exact .inl hc

omit [DecidableEq T] in
/-- A step that is no send hands over the sends in the order of the queue. -/
theorem Effect.numbers {s t : SharedConn T} (h : Effect s t) (hs : t.sends = s.sends) :
    t.numbers = s.numbers := by
  have hnew : ∀ {arg : SendArg}, t.sends ≠ s.sends ++ [arg.bytes s.memory] := by simp [hs]
  unfold SharedConn.numbers
  cases h with
  | append ho _ _ hh hq => rw [hh, hq, List.filterMap_append, Task.Plain.filterMap_call? ho]; simp
  | push arg _ hs' => exact absurd hs' hnew
  | direct arg _ _ hs' => exact absurd hs' hnew
  | shutdown _ _ _ hh hq => rw [hh, hq]; simp [Task.call?]
  | call call arg ho _ _ hh hq₀ hq =>
    rw [hh, hq, hq₀, List.filterMap_append, Task.Plain.filterMap_call? ho]
    simp [Task.call?]
  | pop ht ho _ _ hh hq₀ hq =>
    rw [hh, hq, hq₀, List.filterMap_append, Task.Plain.filterMap_call? ho,
      List.filterMap_cons_none ht, List.append_nil]
  | store _ _ _ hh hq => rw [hh, hq]

omit [DecidableEq T] in
/-- A step that is no send queues none. -/
theorem Effect.queued {s t : SharedConn T} (h : Effect s t) (hs : t.sends = s.sends) {call : Nat}
    {arg : SendArg} (hm : Task.sendInLoop call arg ∈ t.queue) :
    Task.sendInLoop call arg ∈ s.queue := by
  have hnew : ∀ {arg : SendArg}, t.sends ≠ s.sends ++ [arg.bytes s.memory] := by simp [hs]
  cases h with
  | append ho _ _ _ hq =>
    rw [hq] at hm
    exact (List.mem_append.mp hm).resolve_right (Task.Plain.not_sendInLoop ho)
  | push arg _ hs' => exact absurd hs' hnew
  | direct arg _ _ hs' => exact absurd hs' hnew
  | shutdown _ _ _ _ hq => rw [hq] at hm; simpa using hm
  | call _ _ ho _ _ _ hq₀ hq | pop _ ho _ _ _ hq₀ hq =>
    rw [hq] at hm
    rw [hq₀]
    exact List.mem_cons_of_mem _
      ((List.mem_append.mp hm).resolve_right (Task.Plain.not_sendInLoop ho))
  | store _ _ _ _ hq => rwa [hq] at hm

theorem handOver_queue (s : SharedConn T) (call : Nat) (data : List Byte) (r : WriteResult) :
    (s.handOver call data r).queue = s.queue ++ s.newCallbacks (s.conn.sendInLoop data r) :=
  setConn_queue s _

theorem handOver_numbers (s : SharedConn T) (call : Nat) (data : List Byte) (r : WriteResult) :
    (s.handOver call data r).numbers =
      s.handed.map Prod.fst ++ [call] ++ s.queue.filterMap Task.call? := by
  rw [numbers, handOver_queue, List.filterMap_append,
    Task.Plain.filterMap_call? (plain_newCallbacks _ _)]
  simp [handOver]

/-- A send queues itself or nothing. -/
theorem queued_sendAct {s : SharedConn T} {th : T} {arg arg' : SendArg} {r : WriteResult}
    {call : Nat} (hm : Task.sendInLoop call arg' ∈ (s.sendAct th arg r).queue) :
    Task.sendInLoop call arg' ∈ s.queue ∨ arg' = arg := by
  rw [SharedConn.sendAct_eq] at hm
  split at hm
  · rw [handOver_queue] at hm
    exact .inl ((List.mem_append.mp hm).resolve_right
      (Task.Plain.not_sendInLoop (plain_newCallbacks _ _)))
  · rw [SharedConn.queue, EventLoop.emplaceBack_contents] at hm
    refine (List.mem_append.mp hm).imp id fun hm => ?_
    exact (Task.sendInLoop.inj (List.mem_singleton.mp hm)).2

/-- A send comes last among those of its thread, unless it is handed over in place. -/
theorem filter_numbers_sendAct (s : SharedConn T) (th : T) (arg : SendArg) (r : WriteResult)
    {p : Nat → Bool} (hp : th = s.loop.threadId → p s.sends.length = false) :
    (s.sendAct th arg r).numbers.filter p = (s.numbers ++ [s.sends.length]).filter p := by
  rw [SharedConn.sendAct_eq]
  split
  · next hth =>
    rw [handOver_numbers]
    simp [numbers, hp (beq_iff_eq.mp hth), setClient, SharedConn.queue]
  · simp [numbers, SharedConn.queue, setClient, Task.call?]

end SharedConn

/-! ### The strings in the queue -/

namespace StringConn

variable {T : Type} [DecidableEq T]

/-- Every string in the queue is alive and as it was passed, and so is every string in a call; the
sends of a thread other than the loop thread are handed over or queued in the order of its
calls. -/
structure Intact (s : StringConn T) : Prop where
  batchDone : s.shared.loop.BatchDone
  accounted : Accounted s.shared.memory s.shared.sends s.shared.handed s.shared.queue
  sends : s.calls.map Prod.snd = s.shared.sends
  loaded : ∀ t arg, s.shared.clients t = .sendLoaded arg →
    s.given t = arg.bytes s.shared.memory ∧ arg.live s.allocated = true
  queued : ∀ call arg, Task.sendInLoop call arg ∈ s.shared.queue → arg.live s.allocated = true
  inOrder : ∀ t, t ≠ s.shared.loop.threadId →
    s.shared.numbers.filter (calledBy s.calls t) =
      (List.range s.calls.length).filter (calledBy s.calls t)
  notDangling : s.dangling = false

omit [DecidableEq T] in
/-- The memory outside of the string stays. -/
theorem write_of_not {memory : Nat → Byte} {data : Nat} {content : List Byte} {a : Nat}
    (h : ¬ (data ≤ a ∧ a < data + content.length)) : write memory data content a = memory a := by
  unfold write
  split
  · next hle => rw [List.getD_eq_getElem?_getD, List.getElem?_eq_none (by omega), Option.getD_none]
  · rfl

theorem calledBy_append {calls : List (T × List Byte)} {call : Nat} (h : call < calls.length)
    (x : T × List Byte) (t : T) : calledBy (calls ++ [x]) t call = calledBy calls t call := by
  rw [calledBy, calledBy, List.getElem?_append_left h]

@[simp] theorem calledBy_new (calls : List (T × List Byte)) (x : T × List Byte) (t : T) :
    calledBy (calls ++ [x]) t calls.length = (x.1 == t) := by
  simp [calledBy]

namespace Intact

theorem new {shared : SharedConn T} (h : (sharedMachine T).init shared) (allocated : Nat → Bool) :
    (StringConn.new shared allocated).Intact := by
  obtain ⟨threadId, mark, writeComplete, highWater, memory, rfl⟩ := h
  have hc := SharedConn.Consistent.new threadId (.new mark writeComplete highWater) memory
  exact {
    batchDone := hc.batchDone
    accounted := hc.accounted
    sends := rfl
    loaded := fun t arg h => by cases h
    queued := fun call arg h => by cases h
    inOrder := fun t _ => rfl
    notDangling := rfl }

variable {s : StringConn T}

theorem length_calls (h : s.Intact) : s.shared.sends.length = s.calls.length := by
  simp [← h.sends]

theorem lt_length (h : s.Intact) {call : Nat} (hm : call ∈ s.shared.numbers) :
    call < s.calls.length := by
  have := h.accounted.once.mem_iff.mp hm
  rwa [List.mem_range, h.length_calls] at this

/-- The invariant says of a run what is asked of it. -/
theorem delivers (h : s.Intact) : s.Delivers where
  notDangling := h.notDangling
  content := by
    intro p hp
    have := h.accounted.handed p hp
    rwa [← h.sends, List.getElem?_map] at this
  inOrder := by
    intro t ht
    refine ⟨(s.shared.queue.filterMap Task.call?).filter (calledBy s.calls t), ?_⟩
    rw [← List.filter_append]
    exact h.inOrder t ht

end Intact

/-! ### What the steps keep -/

/-- No send is made and no string is touched. -/
theorem Intact.of_effect {s t : StringConn T} (hi : s.Intact)
    (he : SharedConn.Effect s.shared t.shared) (hs : t.shared.sends = s.shared.sends)
    (hcalls : t.calls = s.calls) (hall : t.allocated = s.allocated)
    (hb : t.shared.loop.BatchDone) (hid : t.shared.loop.threadId = s.shared.loop.threadId)
    (hloaded : ∀ th arg, t.shared.clients th = .sendLoaded arg →
      t.given th = arg.bytes t.shared.memory ∧ arg.live s.allocated = true)
    (hd : t.dangling = false) : t.Intact where
  batchDone := hb
  accounted := he.accounted hi.accounted
  sends := by rw [hcalls, hs, hi.sends]
  loaded := by rwa [hall]
  queued := by
    intro call arg hm
    rw [hall]
    exact hi.queued call arg (he.queued hs hm)
  inOrder := by
    intro th hth
    rw [hid] at hth
    rw [he.numbers hs, hcalls]
    exact hi.inOrder th hth
  notDangling := hd

section Shared

variable {s : StringConn T} {u : SharedConn T} {l : SharedStep T}

/-- The strings in a call stay as they are. -/
theorem Intact.loaded_after (hi : s.Intact) (h : SharedConn.Step s.shared l u) (hl : s.Proper l)
    (t : T) (arg : SendArg) (hc : u.clients t = .sendLoaded arg) :
    (s.after l u).given t = arg.bytes u.memory ∧ arg.live s.allocated = true := by
  rcases h.sendLoaded hc with hc' | rfl
  · have hgiven : (s.after l u).given t = s.given t := by
      cases h with
      | send t' arg' hcan =>
        -- a thread in a call does not start another
        refine Function.update_of_ne ?_ _ s.given
        rintro rfl
        rw [hcan.1] at hc'
        cases hc'
      | _ => rfl
    have hbytes : arg.bytes u.memory = arg.bytes s.shared.memory := by
      refine SendArg.bytes_congr fun a ha => h.memory_eq ?_
      rintro th b rfl
      exact hl.2 ⟨t, arg, hc', ha⟩
    rw [hgiven, hbytes]
    exact hi.loaded t arg hc'
  · have hbytes : arg.bytes u.memory = arg.bytes s.shared.memory :=
      SendArg.bytes_congr fun a _ => h.memory_eq (by simp)
    refine ⟨?_, hl⟩
    rw [hbytes]
    exact Function.update_self t _ s.given

/-- No functor reads a string that is gone. -/
theorem Intact.not_readsDestroyed (hi : s.Intact) (l : SharedStep T) :
    s.readsDestroyed l = false := by
  unfold readsDestroyed
  split
  · split
    · next call arg rest hq => simp [hi.queued call arg (by simp [hq])]
    · rfl
  · rfl

theorem Intact.notDangling_after (hi : s.Intact) (l : SharedStep T) (u : SharedConn T) :
    (s.after l u).dangling = false := by
  simp [after, hi.notDangling, hi.not_readsDestroyed l]

/-- A step of the shared connection that is no send. -/
theorem Intact.quiet (hi : s.Intact) (h : SharedConn.Step s.shared l u) (hl : s.Proper l)
    (hk : s.shared.StringsKept l) (hno : ∀ th r, l ≠ .sendAct th r) : (s.after l u).Intact := by
  have hcalls : (s.after l u).calls = s.calls := by
    cases l with
    | sendAct th r => exact absurd rfl (hno th r)
    | _ => rfl
  exact hi.of_effect (h.effect hi.batchDone hk) (h.sends_eq hno) hcalls rfl
    (h.batchDone hi.batchDone) h.threadId (hi.loaded_after h hl) (hi.notDangling_after l u)

/-- The number of a new send is behind those of the other sends of its thread. -/
theorem Intact.inOrder_sendAct (hi : s.Intact) {th : T} (arg : SendArg) (r : WriteResult) {t : T}
    (ht : t ≠ s.shared.loop.threadId) (x : List Byte) :
    (s.shared.sendAct th arg r).numbers.filter (calledBy (s.calls ++ [(th, x)]) t) =
      (List.range (s.calls ++ [(th, x)]).length).filter (calledBy (s.calls ++ [(th, x)]) t) := by
  have hnew : th = s.shared.loop.threadId →
      calledBy (s.calls ++ [(th, x)]) t s.shared.sends.length = false := by
    rintro rfl
    rw [hi.length_calls, calledBy_new]
    exact beq_eq_false_iff_ne.mpr ht.symm
  have hnumbers : s.shared.numbers.filter (calledBy (s.calls ++ [(th, x)]) t) =
      s.shared.numbers.filter (calledBy s.calls t) :=
    List.filter_congr fun call hm => calledBy_append (hi.lt_length hm) _ t
  have hrange : (List.range s.calls.length).filter (calledBy (s.calls ++ [(th, x)]) t) =
      (List.range s.calls.length).filter (calledBy s.calls t) :=
    List.filter_congr fun call hm => calledBy_append (List.mem_range.mp hm) _ t
  rw [SharedConn.filter_numbers_sendAct _ _ _ _ hnew, List.filter_append, hnumbers,
    hi.inOrder t ht, hi.length_calls, List.length_append, List.length_singleton, List.range_succ,
    List.filter_append, hrange]

/-- A send. -/
theorem Intact.sendAct (hi : s.Intact) {th : T} {r : WriteResult}
    (h : SharedConn.Step s.shared (.sendAct th r) u) : (s.after (.sendAct th r) u).Intact := by
  have he := h.effect (l := .sendAct th r) hi.batchDone trivial
  have hloaded := hi.loaded_after (l := .sendAct th r) h trivial
  have hbatch := h.batchDone hi.batchDone
  have hid := h.threadId
  cases h with
  | sendAct th arg r hc hr =>
    obtain ⟨hgiven, hlive⟩ := hi.loaded th arg hc
    have hs := (s.shared.sendAct_frame th arg r).2.1
    exact {
      batchDone := hbatch
      accounted := he.accounted hi.accounted
      sends := by
        change (s.calls ++ [(th, s.given th)]).map Prod.snd = (s.shared.sendAct th arg r).sends
        rw [hs, List.map_append, hi.sends, hgiven]
        rfl
      loaded := hloaded
      queued := by
        intro call arg' hm
        rcases SharedConn.queued_sendAct hm with hm | rfl
        · exact hi.queued call arg' hm
        · exact hlive
      inOrder := fun t ht => hi.inOrder_sendAct arg r (hid ▸ ht) _
      notDangling := hi.notDangling_after _ _ }

end Shared

/-- The loop thread has run a function of the connection. -/
theorem Intact.handle {s : StringConn T} (hi : s.Intact) (c : Conn) :
    Intact { s with shared := s.shared.setConn c } :=
  hi.of_effect
    (.append (SharedConn.plain_newCallbacks _ _) rfl rfl rfl (SharedConn.setConn_queue _ _))
    rfl rfl rfl (SharedConn.setConn_batchDone hi.batchDone c) (SharedConn.setConn_threadId _ c)
    hi.loaded hi.notDangling

theorem Intact.storeState {s : StringConn T} (hi : s.Intact) (c : Conn) :
    Intact { s with shared := { s.shared with conn := c } } :=
  hi.of_effect (.same rfl rfl rfl rfl) rfl rfl rfl hi.batchDone rfl hi.loaded hi.notDangling

/-- A string is constructed in memory that is free. -/
theorem Intact.construct {s : StringConn T} (hi : s.Intact) {data : Nat} {content : List Byte}
    (hfree : ∀ a, data ≤ a → a < data + content.length → s.allocated a = false) :
    (s.construct data content).Intact := by
  have hkept : ∀ {arg : SendArg}, arg.live s.allocated = true → ∀ a, arg.Spans a →
      write s.shared.memory data content a = s.shared.memory a := by
    intro arg hlive a ha
    refine write_of_not fun hin => ?_
    have := SendArg.live_iff.mp hlive a ha
    simp [hfree a hin.1 hin.2] at this
  have hlive : ∀ {arg : SendArg}, arg.live s.allocated = true →
      arg.live (s.construct data content).allocated = true := fun h =>
    SendArg.live_iff.mpr fun a ha => by simp [StringConn.construct, SendArg.live_iff.mp h a ha]
  exact {
    batchDone := hi.batchDone
    accounted := hi.accounted.reread fun call arg hm => hkept (hi.queued call arg hm)
    sends := hi.sends
    loaded := by
      intro t arg hc
      obtain ⟨hgiven, hl⟩ := hi.loaded t arg hc
      exact ⟨hgiven.trans (SendArg.bytes_congr (hkept hl)).symm, hlive hl⟩
    queued := fun call arg hm => hlive (hi.queued call arg hm)
    inOrder := hi.inOrder
    notDangling := hi.notDangling }

/-- A string that is neither queued nor in a call is destroyed. -/
theorem Intact.destroy {s : StringConn T} (hi : s.Intact) {data len : Nat}
    (hcall : ∀ a, data ≤ a → a < data + len → ¬ s.InCall a)
    (hk : ∀ call arg, Task.sendInLoop call arg ∈ s.shared.queue →
      ∀ a, arg.Spans a → ¬ (data ≤ a ∧ a < data + len)) : (s.destroy data len).Intact := by
  have hlive : ∀ {arg : SendArg}, arg.live s.allocated = true →
      (∀ a, arg.Spans a → ¬ (data ≤ a ∧ a < data + len)) →
      arg.live (s.destroy data len).allocated = true := fun h hout =>
    SendArg.live_iff.mpr fun a ha => (if_neg (hout a ha)).trans (SendArg.live_iff.mp h a ha)
  exact {
    batchDone := hi.batchDone
    accounted := hi.accounted
    sends := hi.sends
    loaded := by
      intro t arg hc
      obtain ⟨hgiven, hl⟩ := hi.loaded t arg hc
      exact ⟨hgiven, hlive hl fun a ha hin => hcall a hin.1 hin.2 ⟨t, arg, hc, ha⟩⟩
    queued := fun call arg hm => hlive (hi.queued call arg hm) (hk call arg hm)
    inOrder := hi.inOrder
    notDangling := hi.notDangling }

/-- **The step lemma**: a step that leaves the queued strings alone keeps them intact. -/
theorem Step.intact {s t : StringConn T} {l : StringStep T} (hi : s.Intact) (hk : s.Kept l)
    (h : Step s l t) : t.Intact := by
  cases h with
  | @shared l u h hl =>
    by_cases hno : ∀ th r, l ≠ .sendAct th r
    · exact hi.quiet h hl hk hno
    · obtain ⟨th, r, rfl⟩ : ∃ th r, l = .sendAct th r := by simpa using hno
      exact hi.sendAct h
  | handle l => exact hi.handle _
  | storeState th => exact hi.storeState _
  | construct th data content hc hfree => exact hi.construct hfree
  | destroy th data len hc hlive =>
    exact hi.destroy (fun a hle hlt => (hlive a hle hlt).2) hk

end StringConn

/-- **Sends from other threads deliver what they were given, as long as the strings are left
alone.**  In a run in which no character of a string is changed, and no string is destroyed,
between the call of `send` and the run of the functor it queued, the loop reads no destroyed
string, each `sendInLoop` is called on the content its string had when `send` was called, and the
sends of each thread other than the loop thread are handed over in the order of its calls. -/
theorem delivers_of_kept {T : Type} [DecidableEq T] {s t : StringConn T}
    {tr : List (StringConn T × StringStep T)} (hs : (stringMachine T).init s)
    (hr : (stringMachine T).Run s tr t) (hk : Meets StringConn.Kept tr) : t.Delivers := by
  obtain ⟨shared, allocated, hshared, rfl⟩ := hs
  refine (hr.keeps (I := StringConn.Intact) ?_ hk (.new hshared allocated)).delivers
  exact fun hi hk h => StringConn.Step.intact hi hk h

/-- The theorem at a run in which a thread passes a string of one byte to `send` and destroys it
after the loop has run the functor. -/
theorem delivers_of_kept_destroyed : ∃ s tr t, (stringMachine Bool).Run s tr t ∧
    t.shared.handed = [(0, [1])] ∧ t.calls = [(true, [1])] ∧ t.Delivers := by
  have hr := Machine.Run.nil (M := stringMachine Bool)
      (s := .new (.new false (.new 8 false false) fun _ => 0) fun _ => false)
    |>.snoc (.construct true 0 [1] rfl fun _ _ _ => rfl)
    |>.snoc (.shared (.loop (.enter rfl rfl) rfl) trivial)
    |>.snoc (.shared (.loop (.startPoll rfl rfl) rfl) trivial)
    |>.snoc (.shared (.loop (.pollReturn [.other] rfl (by simp)) rfl) trivial)
    |>.snoc (.shared (.conn .connectEstablished rfl rfl ⟨rfl, trivial⟩ trivial) trivial)
    |>.snoc (.shared (.send true (.string 0 1) ⟨rfl, .of_ne rfl (by decide)⟩) rfl)
    |>.snoc (.shared (.sendAct true (.string 0 1) (.wrote 0) rfl (Nat.zero_le _)) trivial)
    |>.snoc (.shared (.loop (.queueInLoopWakeup true rfl) trivial) trivial)
    |>.snoc (.shared (.ret true rfl rfl) trivial)
    |>.snoc (.shared (.loop (.handleEvent rfl rfl) rfl) trivial)
    |>.snoc (.shared (.loop (.startPending rfl) rfl) trivial)
    |>.snoc (.shared (.loop (.swap rfl) rfl) trivial)
    |>.snoc (.shared (.call (.wrote 0) rfl (.call rfl rfl) rfl fun _ _ _ => Nat.zero_le _) trivial)
    |>.snoc (.destroy true 0 1 rfl fun a hle hlt => ⟨if_pos ⟨hle, hlt⟩, by
      rintro ⟨t, arg, h, -⟩
      cases t <;> cases h⟩)
  have hinit : (stringMachine Bool).init
      (.new (.new false (.new 8 false false) fun _ => 0) fun _ => false) :=
    ⟨_, _, ⟨false, 8, false, false, _, rfl⟩, rfl⟩
  refine ⟨_, _, _, hr, rfl, rfl, delivers_of_kept hinit hr ?_⟩
  simp only [meets_snoc, meets_nil]
  refine ⟨by trivial, ?_⟩
  rintro call arg ⟨⟩

/-- A thread sends a string and changes it after `send` has returned, before the loop runs the
functor: the changed string is sent. -/
theorem changed_string_sent : ¬ ∀ (s t : StringConn Bool) tr, (stringMachine Bool).init s →
    (stringMachine Bool).Run s tr t → t.Delivers := by
  intro hsent
  have hr := Machine.Run.nil (M := stringMachine Bool)
      (s := .new (.new false (.new 8 false false) fun _ => 0) fun _ => false)
    |>.snoc (.construct true 0 [1] rfl fun _ _ _ => rfl)
    |>.snoc (.shared (.loop (.enter rfl rfl) rfl) trivial)
    |>.snoc (.shared (.loop (.startPoll rfl rfl) rfl) trivial)
    |>.snoc (.shared (.loop (.pollReturn [.other] rfl (by simp)) rfl) trivial)
    |>.snoc (.shared (.conn .connectEstablished rfl rfl ⟨rfl, trivial⟩ trivial) trivial)
    |>.snoc (.shared (.send true (.string 0 1) ⟨rfl, .of_ne rfl (by decide)⟩) rfl)
    |>.snoc (.shared (.sendAct true (.string 0 1) (.wrote 0) rfl (Nat.zero_le _)) trivial)
    |>.snoc (.shared (.loop (.queueInLoopWakeup true rfl) trivial) trivial)
    |>.snoc (.shared (.ret true rfl rfl) trivial)
    |>.snoc (.shared (.store true 0 2 rfl) ⟨rfl, by
      rintro ⟨t, arg, h, -⟩
      cases t <;> cases h⟩)
    |>.snoc (.shared (.loop (.handleEvent rfl rfl) rfl) trivial)
    |>.snoc (.shared (.loop (.startPending rfl) rfl) trivial)
    |>.snoc (.shared (.loop (.swap rfl) rfl) trivial)
    |>.snoc (.shared (.call (.wrote 0) rfl (.call rfl rfl) rfl fun _ _ _ => Nat.zero_le _) trivial)
  have hcontent := (hsent _ _ _ ⟨_, _, ⟨false, 8, false, false, _, rfl⟩, rfl⟩ hr).content
    (0, [2]) (by decide)
  cases hcontent

end Reactor.Net
