import Reactor.Net.SharedConnection

/-!
# Net — every send accounted for

What becomes of the sends on a shared connection: each is handed to `sendInLoop` or queued, once,
with the bytes it was called on, as long as no queued string is changed; and the shutdown that
goes through the queue is behind every send that returned before `shutdown()` was called.

* `Step.effect`: what a step can do to the queue and to the history of the sends, once for all.
* `Accounted`, `DueFirst`: the two facts, each kept by every effect.
* `Step.consistent`: the step lemma for both.
-/

namespace Reactor.Net
open Reactor.Lib

/-! ### The loop's queue -/

namespace EventLoop

variable {T F : Type} [DecidableEq T]

@[simp] theorem emplaceBack_contents (s : EventLoop T F) (t : T) (f : F) :
    (s.emplaceBack t f).queue.contents = s.queue.contents ++ [f] := by
  simp [emplaceBack]

theorem BatchDone.emplaceBack {s : EventLoop T F} (h : s.BatchDone) (t : T) (f : F) :
    (s.emplaceBack t f).BatchDone := by
  simpa [BatchDone, EventLoop.emplaceBack] using h

theorem BatchDone.queueHere {s : EventLoop T F} (h : s.BatchDone) (f : F) :
    (s.queueHere f).BatchDone := by
  have := h.emplaceBack s.threadId f
  simpa [BatchDone, EventLoop.queueHere] using this

@[simp] theorem queueHere_frame (s : EventLoop T F) (f : F) :
    (s.queueHere f).pc = s.pc ∧ (s.queueHere f).threadId = s.threadId ∧
      (s.queueHere f).queue.contents = s.queue.contents ++ [f] := by
  simp [queueHere, emplaceBack]

end EventLoop

/-- What a string holds depends on its own characters only. -/
theorem SendArg.bytes_congr {memory memory' : Nat → Byte} {arg : SendArg}
    (h : ∀ a, arg.Spans a → memory' a = memory a) : arg.bytes memory' = arg.bytes memory := by
  cases arg with
  | buffer message => rfl
  | string data len =>
    refine List.map_congr_left fun k hk => h (data + k) ⟨Nat.le_add_right data k, ?_⟩
    exact Nat.add_lt_add_left (List.mem_range.mp hk) data

/-- Neither a send nor a shutdown. -/
def Task.Plain (task : Task) : Prop := task.call? = none ∧ task ≠ .shutdownInLoop

/-- No call of `send` waits among such functors. -/
theorem Task.Plain.filterMap_call? {tasks : List Task} (h : ∀ task ∈ tasks, task.Plain) :
    tasks.filterMap Task.call? = [] :=
  List.filterMap_eq_nil_iff.mpr fun task hm => (h task hm).1

theorem Task.Plain.not_sendInLoop {tasks : List Task} (h : ∀ task ∈ tasks, task.Plain)
    {call : Nat} {arg : SendArg} : Task.sendInLoop call arg ∉ tasks := fun hm => by
  have := (h _ hm).1
  simp [Task.call?] at this

theorem Task.Plain.not_due {tasks : List Task} (h : ∀ task ∈ tasks, task.Plain)
    (due : List Nat) :
    ∀ task ∈ tasks, task ≠ .shutdownInLoop ∧ ∀ call ∈ due, task.call? ≠ some call :=
  fun task hm => ⟨(h task hm).2, fun call _ he => by simp [(h task hm).1] at he⟩

namespace SharedConn

variable {T : Type} [DecidableEq T]

/-- The callbacks a function of the connection queued. -/
def newCallbacks (s : SharedConn T) (c : Conn) : List Task :=
  (c.queued.drop s.conn.queued.length).map .callback

/-- Queueing callbacks one after the other. -/
theorem foldl_queueHere (fs : List ConnFunctor) (l : EventLoop T Task) :
    (fs.foldl (fun l f => l.queueHere (.callback f)) l).pc = l.pc ∧
      (fs.foldl (fun l f => l.queueHere (.callback f)) l).threadId = l.threadId ∧
      (fs.foldl (fun l f => l.queueHere (.callback f)) l).queue.contents =
        l.queue.contents ++ fs.map .callback := by
  induction fs generalizing l with
  | nil => simp
  | cons f fs ih => simpa using ih (l.queueHere (.callback f))

@[simp] theorem setConn_queue (s : SharedConn T) (c : Conn) :
    (s.setConn c).queue = s.queue ++ s.newCallbacks c := (foldl_queueHere _ _).2.2

@[simp] theorem setConn_threadId (s : SharedConn T) (c : Conn) :
    (s.setConn c).loop.threadId = s.loop.threadId := (foldl_queueHere _ _).2.1

theorem setConn_batchDone {s : SharedConn T} (h : s.loop.BatchDone) (c : Conn) :
    (s.setConn c).loop.BatchDone := by
  have hfold : ∀ (fs : List ConnFunctor) (l : EventLoop T Task), l.BatchDone →
      (fs.foldl (fun l f => l.queueHere (.callback f)) l).BatchDone := by
    intro fs
    induction fs with
    | nil => exact fun _ h => h
    | cons f fs ih => exact fun l h => ih _ (h.queueHere _)
  exact hfold _ _ h

omit [DecidableEq T] in
/-- What a function of the connection queues is plain. -/
theorem plain_newCallbacks (s : SharedConn T) (c : Conn) :
    ∀ task ∈ s.newCallbacks c, task.Plain := by
  intro task hm
  obtain ⟨f, -, rfl⟩ := List.mem_map.mp hm
  exact ⟨rfl, by simp⟩

/-- What the loop's own steps do to the queue. -/
theorem Free.queue {s : SharedConn T} {l : LoopStep T Task} {u : EventLoop T Task}
    (hl : s.Free l) (hb : s.loop.BatchDone) (h : EventLoop.Step s.loop l u) :
    ∃ others, (∀ task ∈ others, task.Plain) ∧ u.queue.contents = s.queue ++ others := by
  have hnone : u.queue.contents = s.queue →
      ∃ others, (∀ task ∈ others, Task.Plain task) ∧ u.queue.contents = s.queue ++ others :=
    fun h => ⟨[], by simp, by simpa using h⟩
  cases h with
  | call => exact absurd hl id
  | swap hpc => exact hnone (SwapQueue.contents_swap (hb (by simp [hpc])))
  | queueInLoop t f | runInLoop t f =>
    obtain ⟨-, rfl⟩ := hl
    exact ⟨[.other], by simp [Task.Plain, Task.call?], by simp [SharedConn.queue]⟩
  | _ => exact hnone (by simp [SharedConn.queue, EventLoop.handleRead, EventLoop.storeQuit])

end SharedConn

/-! ### Every send is accounted for -/

/-- Every send is handed over or queued, once, with its own bytes. -/
structure Accounted (memory : Nat → Byte) (sends : List (List Byte))
    (handed : List (Nat × List Byte)) (queue : List Task) : Prop where
  once : (handed.map Prod.fst ++ queue.filterMap Task.call?).Perm (List.range sends.length)
  handed : ∀ p ∈ handed, sends[p.1]? = some p.2
  queued : ∀ call arg, Task.sendInLoop call arg ∈ queue → sends[call]? = some (arg.bytes memory)

namespace Accounted

variable {memory : Nat → Byte} {sends : List (List Byte)} {handed : List (Nat × List Byte)}
  {queue : List Task}

theorem nil (memory : Nat → Byte) : Accounted memory [] [] [] where
  once := by simp
  handed := by simp
  queued := by simp

/-- Functors that are no sends are queued. -/
theorem append (h : Accounted memory sends handed queue) {others : List Task}
    (ho : others.filterMap Task.call? = []) : Accounted memory sends handed (queue ++ others) where
  once := by simpa [ho] using h.once
  handed := h.handed
  queued := by
    intro call arg hm
    rcases List.mem_append.mp hm with hm | hm
    · exact h.queued call arg hm
    · have : call ∈ others.filterMap Task.call? := List.mem_filterMap.mpr ⟨_, hm, rfl⟩
      simp [ho] at this

/-- A new send is queued. -/
theorem push (h : Accounted memory sends handed queue) (arg : SendArg) :
    Accounted memory (sends ++ [arg.bytes memory]) handed
      (queue ++ [.sendInLoop sends.length arg]) where
  once := by
    have := h.once.append_right [sends.length]
    simpa [Task.call?, List.range_succ] using this
  handed := by
    intro p hp
    have := h.handed p hp
    rwa [List.getElem?_append_left (List.getElem?_eq_some_iff.mp this).1]
  queued := by
    intro call arg' hm
    rcases List.mem_append.mp hm with hm | hm
    · have := h.queued call arg' hm
      rwa [List.getElem?_append_left (List.getElem?_eq_some_iff.mp this).1]
    · obtain ⟨rfl, rfl⟩ : call = sends.length ∧ arg' = arg := by simpa using hm
      simp

/-- A new send is handed over at once. -/
theorem direct (h : Accounted memory sends handed queue) (arg : SendArg) :
    Accounted memory (sends ++ [arg.bytes memory])
      (handed ++ [(sends.length, arg.bytes memory)]) queue where
  once := by
    -- its number goes between those handed over and those queued
    have hmid : (handed.map Prod.fst ++ [sends.length] ++ queue.filterMap Task.call?).Perm
        (handed.map Prod.fst ++ queue.filterMap Task.call? ++ [sends.length]) := by
      rw [List.append_assoc, List.append_assoc]
      exact List.perm_append_comm.append_left _
    simpa [List.range_succ] using hmid.trans (h.once.append_right [sends.length])
  handed := by
    intro p hp
    rcases List.mem_append.mp hp with hp | hp
    · have := h.handed p hp
      rwa [List.getElem?_append_left (List.getElem?_eq_some_iff.mp this).1]
    · obtain rfl := List.mem_singleton.mp hp
      simp
  queued := by
    intro call arg' hm
    have := h.queued call arg' hm
    rwa [List.getElem?_append_left (List.getElem?_eq_some_iff.mp this).1]

/-- The send at the front of the queue is handed over. -/
theorem call {call : Nat} {arg : SendArg} {rest : List Task}
    (h : Accounted memory sends handed (.sendInLoop call arg :: rest)) :
    Accounted memory sends (handed ++ [(call, arg.bytes memory)]) rest where
  once := by simpa [Task.call?] using h.once
  handed := by
    intro p hp
    rcases List.mem_append.mp hp with hp | hp
    · exact h.handed p hp
    · obtain rfl := List.mem_singleton.mp hp
      exact h.queued call arg (by simp)
  queued := fun call' arg' hm => h.queued call' arg' (List.mem_cons_of_mem _ hm)

/-- Another functor leaves the front of the queue. -/
theorem pop {task : Task} {rest : List Task} (h : Accounted memory sends handed (task :: rest))
    (ht : task.call? = none) : Accounted memory sends handed rest where
  once := by simpa [List.filterMap_cons, ht] using h.once
  handed := h.handed
  queued := fun call' arg' hm => h.queued call' arg' (List.mem_cons_of_mem _ hm)

/-- The memory changes outside every queued string. -/
theorem reread (h : Accounted memory sends handed queue) {memory' : Nat → Byte}
    (hm' : ∀ call arg, Task.sendInLoop call arg ∈ queue → ∀ a, arg.Spans a → memory' a = memory a) :
    Accounted memory' sends handed queue where
  once := h.once
  handed := h.handed
  queued := by
    intro call arg hm
    rw [SendArg.bytes_congr (hm' call arg hm)]
    exact h.queued call arg hm

/-- A byte outside every queued string is overwritten. -/
theorem store (h : Accounted memory sends handed queue) {a : Nat} (b : Byte)
    (ha : ∀ call arg, Task.sendInLoop call arg ∈ queue → ¬ arg.Spans a) :
    Accounted (Function.update memory a b) sends handed queue := by
  refine h.reread fun call arg hm a' hspan => Function.update_of_ne ?_ b memory
  rintro rfl
  exact ha call arg hm hspan

/-- A send is handed over or queued, and not both. -/
theorem handed_or_queued (h : Accounted memory sends handed queue) {call : Nat}
    (hc : call < sends.length) :
    (call ∈ handed.map Prod.fst ∧ call ∉ queue.filterMap Task.call?) ∨
      (call ∉ handed.map Prod.fst ∧ call ∈ queue.filterMap Task.call?) := by
  have hnodup := h.once.nodup_iff.mpr List.nodup_range
  have hmem := h.once.mem_iff.mpr (List.mem_range.mpr hc)
  have hdisj := (List.nodup_append.mp hnodup).2.2
  rcases List.mem_append.mp hmem with hm | hm
  · exact .inl ⟨hm, fun hq => hdisj _ hm _ hq rfl⟩
  · exact .inr ⟨fun hh => hdisj _ hh _ hm rfl, hm⟩

end Accounted

namespace SharedConn

variable {T : Type} [DecidableEq T]

/-- What a step does to the queue and to the history of the sends. -/
inductive Effect (s t : SharedConn T) : Prop where
  | append {others : List Task} (ho : ∀ task ∈ others, task.Plain) (hm : t.memory = s.memory)
      (hs : t.sends = s.sends) (hh : t.handed = s.handed) (hq : t.queue = s.queue ++ others)
  | push (arg : SendArg) (hm : t.memory = s.memory)
      (hs : t.sends = s.sends ++ [arg.bytes s.memory]) (hh : t.handed = s.handed)
      (hq : t.queue = s.queue ++ [.sendInLoop s.sends.length arg])
  | direct {others : List Task} (arg : SendArg) (ho : ∀ task ∈ others, task.Plain)
      (hm : t.memory = s.memory) (hs : t.sends = s.sends ++ [arg.bytes s.memory])
      (hh : t.handed = s.handed ++ [(s.sends.length, arg.bytes s.memory)])
      (hq : t.queue = s.queue ++ others)
  | shutdown {c : T} (hc : s.clients c = .shutdownStored) (hm : t.memory = s.memory)
      (hs : t.sends = s.sends) (hh : t.handed = s.handed)
      (hq : t.queue = s.queue ++ [.shutdownInLoop])
  | call {others rest : List Task} (call : Nat) (arg : SendArg)
      (ho : ∀ task ∈ others, task.Plain) (hm : t.memory = s.memory) (hs : t.sends = s.sends)
      (hh : t.handed = s.handed ++ [(call, arg.bytes s.memory)])
      (hq₀ : s.queue = .sendInLoop call arg :: rest) (hq : t.queue = rest ++ others)
  | pop {others rest : List Task} {task : Task} (ht : task.call? = none)
      (ho : ∀ task ∈ others, task.Plain) (hm : t.memory = s.memory) (hs : t.sends = s.sends)
      (hh : t.handed = s.handed) (hq₀ : s.queue = task :: rest) (hq : t.queue = rest ++ others)
  | store {a : Nat} {b : Byte}
      (ha : ∀ call arg, Task.sendInLoop call arg ∈ s.queue → ¬ arg.Spans a)
      (hm : t.memory = Function.update s.memory a b) (hs : t.sends = s.sends)
      (hh : t.handed = s.handed) (hq : t.queue = s.queue)

/-- No byte of a queued string is changed. -/
def StringsKept (s : SharedConn T) : SharedStep T → Prop
  | .store _ a b =>
    s.memory a ≠ b → ∀ call arg, Task.sendInLoop call arg ∈ s.queue → ¬ arg.Spans a
  | _ => True

omit [DecidableEq T] in
/-- A step that touches neither the queue nor the sends. -/
theorem Effect.same {s t : SharedConn T} (hm : t.memory = s.memory) (hs : t.sends = s.sends)
    (hh : t.handed = s.handed) (hq : t.queue = s.queue) : Effect s t :=
  .append (show ∀ task ∈ [], Task.Plain task by simp) hm hs hh (by simpa using hq)

omit [DecidableEq T] in
/-- A functor that belongs to no send is taken. -/
theorem Effect.popSame {s t : SharedConn T} {task : Task} {rest : List Task}
    (ht : task.call? = none) (hm : t.memory = s.memory) (hs : t.sends = s.sends)
    (hh : t.handed = s.handed) (hq₀ : s.queue = task :: rest) (hq : t.queue = rest) :
    Effect s t :=
  .pop ht (show ∀ task ∈ [], Task.Plain task by simp) hm hs hh hq₀ (by simpa using hq)

/-- What a step does to the sends. -/
theorem Step.effect {s t : SharedConn T} {l : SharedStep T} (hb : s.loop.BatchDone)
    (hl : s.StringsKept l) (h : Step s l t) : Effect s t := by
  cases h with
  | loop h hf =>
    obtain ⟨others, ho, hq⟩ := hf.queue hb h
    exact .append ho rfl rfl rfl hq
  | @call u task r hidle h hpc hr =>
    cases h with
    | @call f q hpc₀ hn =>
      obtain rfl : f = task := by simpa using hpc
      have hq₀ := SwapQueue.contents_next? hn
      cases f with
      | sendInLoop call arg =>
        exact .call call arg (plain_newCallbacks _ _) rfl rfl rfl hq₀ (setConn_queue _ _)
      | shutdownInLoop =>
        exact .pop rfl (plain_newCallbacks _ _) rfl rfl rfl hq₀ (setConn_queue _ _)
      | callback | other => exact .popSame rfl rfl rfl rfl hq₀ rfl
  | conn l => exact .append (plain_newCallbacks _ _) rfl rfl rfl (setConn_queue _ _)
  | sendAct t arg r hc hr =>
    rw [SharedConn.sendAct_eq]
    split
    · exact .direct arg (plain_newCallbacks _ _) rfl rfl rfl (setConn_queue _ _)
    · exact .push arg rfl rfl rfl (EventLoop.emplaceBack_contents ..)
  | shutdownAct t hc =>
    rw [SharedConn.shutdownAct_eq]
    split
    · exact .append (plain_newCallbacks _ _) rfl rfl rfl (setConn_queue _ _)
    · exact .shutdown hc rfl rfl rfl (EventLoop.emplaceBack_contents ..)
  | store t a b hc =>
    by_cases hb : s.memory a = b
    · exact .same (by rw [← hb]; exact Function.update_eq_self a s.memory) rfl rfl rfl
    · exact .store (hl hb) rfl rfl rfl rfl
  | _ => exact .same rfl rfl rfl rfl

omit [DecidableEq T] in
/-- Each of the effects keeps the sends accounted for. -/
theorem Effect.accounted {s t : SharedConn T} (h : Effect s t)
    (ha : Accounted s.memory s.sends s.handed s.queue) :
    Accounted t.memory t.sends t.handed t.queue := by
  cases h with
  | append ho hm hs hh hq =>
    rw [hm, hs, hh, hq]; exact ha.append (Task.Plain.filterMap_call? ho)
  | push arg hm hs hh hq => rw [hm, hs, hh, hq]; exact ha.push arg
  | direct arg ho hm hs hh hq =>
    rw [hm, hs, hh, hq]; exact (ha.direct arg).append (Task.Plain.filterMap_call? ho)
  | shutdown hc hm hs hh hq => rw [hm, hs, hh, hq]; exact ha.append rfl
  | call call arg ho hm hs hh hq₀ hq =>
    rw [hq₀] at ha
    rw [hm, hs, hh, hq]
    exact ha.call.append (Task.Plain.filterMap_call? ho)
  | pop ht ho hm hs hh hq₀ hq =>
    rw [hq₀] at ha
    rw [hm, hs, hh, hq]
    exact (ha.pop ht).append (Task.Plain.filterMap_call? ho)
  | store hf hm hs hh hq => rw [hm, hs, hh, hq]; exact ha.store _ hf

/-! ### The shutdown in the queue comes after the sends before it -/

/-- No send that was due when `shutdown()` was called is queued behind `shutdownInLoop`. -/
def DueFirst (due : List Nat) (queue : List Task) : Prop :=
  queue.Pairwise fun a b => a = .shutdownInLoop → ∀ call ∈ due, b.call? ≠ some call

/-- The counters of the history, and what is not there before `shutdown()` is called. -/
structure History (s : SharedConn T) : Prop where
  returning : ∀ t call, s.clients t = .returning (some call) → call < s.sends.length
  returned : ∀ call ∈ s.returned, call < s.sends.length
  due : ∀ call ∈ s.due, call < s.sends.length
  uncalled : s.shutdownCalled = false → .shutdownInLoop ∉ s.queue ∧
    ∀ t, s.clients t ≠ .shutdownLoaded ∧ s.clients t ≠ .shutdownStored

theorem DueFirst.append {due : List Nat} {queue others : List Task} (h : DueFirst due queue)
    (ho : ∀ task ∈ others, task ≠ .shutdownInLoop ∧ ∀ call ∈ due, task.call? ≠ some call) :
    DueFirst due (queue ++ others) := by
  refine List.pairwise_append.mpr ⟨h, ?_, fun _ _ b hb _ => (ho b hb).2⟩
  exact List.pairwise_of_forall_mem_list fun a ha _ _ hsh => absurd hsh (ho a ha).1

omit [DecidableEq T] in
theorem Effect.sends_le {s t : SharedConn T} (h : Effect s t) :
    s.sends.length ≤ t.sends.length := by
  cases h with
  | push arg _ hs | direct arg _ _ hs => rw [hs]; simp
  | append _ _ hs | shutdown _ _ hs | call _ _ _ _ hs | pop _ _ _ hs | store _ _ hs => rw [hs]

omit [DecidableEq T] in
/-- The sends that are due stay before the shutdown. -/
theorem Effect.dueFirst {s t : SharedConn T} (h : Effect s t) (hh : s.History)
    (hd : DueFirst s.due s.queue) : DueFirst s.due t.queue := by
  cases h with
  | append ho _ _ _ hq => rw [hq]; exact hd.append (Task.Plain.not_due ho _)
  | direct _ ho _ _ _ hq => rw [hq]; exact hd.append (Task.Plain.not_due ho _)
  | push arg _ _ _ hq =>
    rw [hq]
    refine hd.append fun task hm => ?_
    obtain rfl := List.mem_singleton.mp hm
    refine ⟨by simp, fun call hc he => ?_⟩
    -- the number of the new send is larger than any that is due
    obtain rfl : s.sends.length = call := by simpa [Task.call?] using he
    exact absurd (hh.due _ hc) (Nat.lt_irrefl _)
  | shutdown _ _ _ _ hq =>
    rw [hq]
    refine List.pairwise_append.mpr ⟨hd, List.pairwise_singleton _ _, fun _ _ b hb _ call _ => ?_⟩
    obtain rfl := List.mem_singleton.mp hb
    simp [Task.call?]
  | call _ _ ho _ _ _ hq₀ hq | pop _ ho _ _ _ hq₀ hq =>
    rw [hq₀] at hd
    rw [hq]
    exact DueFirst.append (List.pairwise_cons.mp hd).2 (Task.Plain.not_due ho _)
  | store _ _ _ _ hq => rw [hq]; exact hd

omit [DecidableEq T] in
/-- No shutdown is queued before one is asked for. -/
theorem Effect.shutdownInLoop_not_mem {s t : SharedConn T} (h : Effect s t) (hh : s.History)
    (hc : s.shutdownCalled = false) : Task.shutdownInLoop ∉ t.queue := by
  obtain ⟨hq, hpc⟩ := hh.uncalled hc
  have hplain : ∀ {others : List Task}, (∀ task ∈ others, task.Plain) →
      Task.shutdownInLoop ∉ others := fun ho hm => (ho _ hm).2 rfl
  cases h with
  | append ho _ _ _ hq' | direct _ ho _ _ _ hq' =>
    rw [hq']; exact fun hm => (List.mem_append.mp hm).elim hq (hplain ho)
  | push _ _ _ _ hq' =>
    rw [hq']; simpa using hq
  | shutdown hc' => exact absurd hc' (hpc _).2
  | call _ _ ho _ _ _ hq₀ hq' | pop _ ho _ _ _ hq₀ hq' =>
    rw [hq₀] at hq
    rw [hq']
    intro hm
    rcases List.mem_append.mp hm with hm | hm
    · exact hq (List.mem_cons_of_mem _ hm)
    · exact hplain ho hm
  | store _ _ _ _ hq' => rw [hq']; exact hq

/-- Where a thread may be, by the history. -/
def PcFits (t : SharedConn T) (pc : ClientPc) : Prop :=
  (∀ call, pc = .returning (some call) → call < t.sends.length) ∧
    (t.shutdownCalled = false → pc ≠ .shutdownLoaded ∧ pc ≠ .shutdownStored)

omit [DecidableEq T] in
theorem Effect.history {s t : SharedConn T} (he : Effect s t) (hh : s.History)
    (hcalled : t.shutdownCalled = false → s.shutdownCalled = false)
    (hpc : ∀ th, t.clients th = s.clients th ∨ t.PcFits (t.clients th))
    (hret : ∀ call ∈ t.returned, call < t.sends.length)
    (hdue : ∀ call ∈ t.due, call < t.sends.length) : t.History where
  returning := by
    intro th call hc
    rcases hpc th with heq | hfits
    · rw [heq] at hc; exact Nat.lt_of_lt_of_le (hh.returning th call hc) he.sends_le
    · exact hfits.1 call hc
  returned := hret
  due := hdue
  uncalled := by
    intro hc
    refine ⟨he.shutdownInLoop_not_mem hh (hcalled hc), fun th => ?_⟩
    rcases hpc th with heq | hfits
    · rw [heq]; exact (hh.uncalled (hcalled hc)).2 th
    · exact hfits.2 hc

/-- A step that moves one thread in its call, or none. -/
theorem PcFits.update {s t : SharedConn T} {c : T} {pc : ClientPc}
    (hc : t.clients = Function.update s.clients c pc) (hpc : t.PcFits pc) (th : T) :
    t.clients th = s.clients th ∨ t.PcFits (t.clients th) := by
  by_cases h : th = c
  · subst h; rw [hc, Function.update_self]; exact .inr hpc
  · rw [hc, Function.update_of_ne h]; exact .inl rfl

theorem sendAct_frame (s : SharedConn T) (th : T) (arg : SendArg) (r : WriteResult) :
    (s.sendAct th arg r).clients = Function.update s.clients th (.returning (some s.sends.length)) ∧
      (s.sendAct th arg r).sends = s.sends ++ [arg.bytes s.memory] ∧
      (s.sendAct th arg r).returned = s.returned ∧ (s.sendAct th arg r).due = s.due ∧
      (s.sendAct th arg r).shutdownCalled = s.shutdownCalled := by
  rw [sendAct_eq]
  split <;> exact ⟨rfl, rfl, rfl, rfl, rfl⟩

theorem shutdownAct_frame (s : SharedConn T) (th : T) :
    (s.shutdownAct th).clients = Function.update s.clients th (.returning none) ∧
      (s.shutdownAct th).sends = s.sends ∧ (s.shutdownAct th).returned = s.returned ∧
      (s.shutdownAct th).due = s.due ∧
      (s.shutdownAct th).shutdownCalled = s.shutdownCalled := by
  rw [shutdownAct_eq]
  split <;> exact ⟨rfl, rfl, rfl, rfl, rfl⟩

/-- Every step keeps the history in order. -/
theorem Step.history {s t : SharedConn T} {l : SharedStep T} (h : Step s l t)
    (he : Effect s t) (hh : s.History) : t.History := by
  have hret : ∀ call ∈ s.returned, call < t.sends.length :=
    fun call hc => Nat.lt_of_lt_of_le (hh.returned call hc) he.sends_le
  have hdue : ∀ call ∈ s.due, call < t.sends.length :=
    fun call hc => Nat.lt_of_lt_of_le (hh.due call hc) he.sends_le
  cases h with
  | loop | conn | store => exact he.history hh id (fun _ => .inl rfl) hret hdue
  | @call u task => cases task <;> exact he.history hh id (fun _ => .inl rfl) hret hdue
  | send th arg =>
    refine he.history hh id (PcFits.update (c := th) rfl ?_) hret hdue
    split <;> exact ⟨by simp, by simp⟩
  | sendAct th arg r hc hr =>
    obtain ⟨hcl, hs, hrt, hd, hca⟩ := s.sendAct_frame th arg r
    refine he.history hh (by rw [hca]; exact id) (PcFits.update hcl ⟨?_, by simp⟩)
      (by rwa [hrt]) (by rwa [hd])
    rintro call ⟨⟩
    simp [hs]
  | shutdown th hc hone =>
    refine he.history hh (fun h => by cases h) (PcFits.update (c := th) rfl ?_) hret hret
    exact ⟨by split <;> simp, fun h => by cases h⟩
  | storeState th hc =>
    refine he.history hh id (PcFits.update (c := th) rfl ⟨by simp, fun h => ?_⟩) hret hdue
    exact absurd hc ((hh.uncalled h).2 th).1
  | shutdownAct th hc =>
    obtain ⟨hcl, hs, hrt, hd, hca⟩ := s.shutdownAct_frame th
    refine he.history hh (by rw [hca]; exact id) (PcFits.update hcl ⟨by simp, by simp⟩)
      (by rwa [hrt]) (by rwa [hd])
  | @ret th call hc hidle =>
    refine he.history hh id (PcFits.update (c := th) rfl ⟨by simp, by simp⟩) ?_ hdue
    intro call' hm
    rcases List.mem_append.mp hm with hm | hm
    · exact hret call' hm
    · obtain rfl : call = some call' := by simpa using hm
      exact hh.returning th call' hc

/-! ### The invariant of the queue -/

/-- Every send is accounted for, and none that is due is behind a queued shutdown. -/
structure Consistent (s : SharedConn T) : Prop where
  batchDone : s.loop.BatchDone
  accounted : Accounted s.memory s.sends s.handed s.queue
  history : s.History
  dueFirst : DueFirst s.due s.queue

omit [DecidableEq T] in
theorem Consistent.new (threadId : T) (conn : Conn) (memory : Nat → Byte) :
    (SharedConn.new threadId conn memory).Consistent where
  batchDone := fun _ => rfl
  accounted := .nil memory
  history := by
    refine ⟨?_, ?_, ?_, fun _ => ⟨?_, ?_⟩⟩ <;>
      simp [SharedConn.new, SharedConn.queue, EventLoop.new]
  dueFirst := List.Pairwise.nil

theorem Step.batchDone {s t : SharedConn T} {l : SharedStep T} (h : Step s l t)
    (hb : s.loop.BatchDone) : t.loop.BatchDone := by
  cases h with
  | loop h => exact h.batchDone hb
  | @call u task r hidle h hpc hr =>
    have hu : u.BatchDone := h.batchDone hb
    cases task with
    | sendInLoop | shutdownInLoop => apply setConn_batchDone; exact hu
    | callback | other => exact hu
  | conn => exact setConn_batchDone hb _
  | sendAct th arg r hc hr =>
    rw [SharedConn.sendAct_eq]
    split
    · apply setConn_batchDone; exact hb
    · exact EventLoop.BatchDone.emplaceBack hb _ _
  | shutdownAct th hc =>
    rw [SharedConn.shutdownAct_eq]
    split
    · apply setConn_batchDone; exact hb
    · exact EventLoop.BatchDone.emplaceBack hb _ _
  | _ => exact hb

theorem Step.due {s t : SharedConn T} {l : SharedStep T} (h : Step s l t) :
    t.due = s.due ∨ s.shutdownCalled = false := by
  cases h with
  | @call u task => cases task <;> exact .inl rfl
  | sendAct th arg r => exact .inl (s.sendAct_frame th arg r).2.2.2.1
  | shutdownAct th => exact .inl (s.shutdownAct_frame th).2.2.2.1
  | shutdown th hc hone => exact .inr hone
  | _ => exact .inl rfl

/-- **The step lemma**: a step that overwrites no queued string keeps every send accounted
for. -/
theorem Step.consistent {s t : SharedConn T} {l : SharedStep T} (hs : s.Consistent)
    (hl : s.StringsKept l) (h : Step s l t) : t.Consistent := by
  obtain ⟨hb, ha, hh, hd⟩ := hs
  have he := h.effect hb hl
  refine ⟨h.batchDone hb, he.accounted ha, h.history he hh, ?_⟩
  rcases h.due with hdue | hc
  · rw [hdue]; exact he.dueFirst hh hd
  · -- before `shutdown()` is called there is no shutdown in the queue
    have hq := he.shutdownInLoop_not_mem hh hc
    exact List.pairwise_of_forall_mem_list fun a ha _ _ hsh => absurd (hsh ▸ ha) hq

end SharedConn

end Reactor.Net
