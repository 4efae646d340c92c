import Reactor.Net.TcpServer

/-!
# Net — server books

The close of a connection crosses its loop and the base loop twice: `handleClose` calls
`removeConnection`, that runs or queues `removeConnectionInLoop` in the base loop, and that queues
`connectDestroyed` in the connection's loop.  What has been done at one place is at the next, or
waits on the way there; between the two it is in the hand of the thread that takes it along.

* `Booked`: every functor waits in its own loop, and nothing is lost or doubled on the way.
* `Booked.record`: the entries of the log, and what is in hand before and after them.
* `Adds`: what the functions add to the log.
-/

namespace Reactor.Net
open Reactor.Lib

namespace TcpServer

/-! ### What is on the way, and what has been done -/

/-- The functors a loop is running and those in its queue. -/
def waiting (s : TcpServer) (L : LoopId) : List ServerFunctor := (s.batch L).getD [] ++ s.queue L

/-- How often a functor waits in a loop, or is in hand: about to be run or queued there. -/
def owed (s : TcpServer) (hand : Option (LoopId × ServerFunctor)) (L : LoopId)
    (f : ServerFunctor) : Nat :=
  (s.waiting L).count f + if hand = some (L, f) then 1 else 0

/-- How often something has been done to a connection. -/
def count (s : TcpServer) (a : Action) (i : Nat) : Nat :=
  s.log.countP fun e => e.action = a ∧ e.conn = i

theorem count_congr {s t : TcpServer} (h : t.log = s.log) : t.count = s.count := by
  funext a i
  rw [count, count, h]

/-- The loop of a connection, if it exists. -/
def loopOf (s : TcpServer) (i : Nat) : Option LoopId := (s.conns[i]?).map ServerConn.loop

/-- The loop a functor is for. -/
def home (s : TcpServer) : ServerFunctor → Option LoopId
  | .connectEstablished i | .forceCloseInLoop i | .connectDestroyed i => s.loopOf i
  | .removeConnectionInLoop i => (s.loopOf i).map fun _ => .base

variable {s : TcpServer} {L : LoopId} {i : Nat} {x : ServerConn}

@[simp] theorem record_frame (s : TcpServer) (L : LoopId) (a : Action) (i : Nat) :
    (s.record L a i).conns = s.conns ∧ (s.record L a i).connections = s.connections ∧
      (s.record L a i).nextConnId = s.nextConnId ∧ (s.record L a i).batch = s.batch ∧
      (s.record L a i).queue = s.queue ∧ (s.record L a i).teardown = s.teardown ∧
      (s.record L a i).waiting = s.waiting ∧ (s.record L a i).loopOf = s.loopOf :=
  ⟨rfl, rfl, rfl, rfl, rfl, rfl, rfl, rfl⟩

@[simp] theorem queueInLoop_frame (s : TcpServer) (L : LoopId) (f : ServerFunctor) :
    (s.queueInLoop L f).conns = s.conns ∧ (s.queueInLoop L f).connections = s.connections ∧
      (s.queueInLoop L f).nextConnId = s.nextConnId ∧ (s.queueInLoop L f).batch = s.batch ∧
      (s.queueInLoop L f).log = s.log ∧ (s.queueInLoop L f).teardown = s.teardown ∧
      (s.queueInLoop L f).loopOf = s.loopOf :=
  ⟨rfl, rfl, rfl, rfl, rfl, rfl, rfl⟩

@[simp] theorem setConn_frame (s : TcpServer) (i : Nat) (c : Conn) :
    (s.setConn i c).connections = s.connections ∧ (s.setConn i c).nextConnId = s.nextConnId ∧
      (s.setConn i c).batch = s.batch ∧ (s.setConn i c).queue = s.queue ∧
      (s.setConn i c).log = s.log ∧ (s.setConn i c).teardown = s.teardown ∧
      (s.setConn i c).waiting = s.waiting :=
  ⟨rfl, rfl, rfl, rfl, rfl, rfl, rfl⟩

/-- The connections after one of them has changed. -/
theorem getElem?_setConn (s : TcpServer) (i j : Nat) (c : Conn) :
    (s.setConn i c).conns[j]? =
      if i = j then (s.conns[j]?).map fun x => { x with conn := c } else s.conns[j]? := by
  rw [setConn, List.getElem?_modify]
  split
  · rfl
  · simp

@[simp] theorem loopOf_setConn (s : TcpServer) (i : Nat) (c : Conn) :
    (s.setConn i c).loopOf = s.loopOf := by
  funext j
  rw [loopOf, getElem?_setConn]
  split
  · cases h : s.conns[j]? <;> simp [loopOf, h]
  · rfl

theorem loopOf_eq (hx : s.conns[i]? = some x) : s.loopOf i = some x.loop := by
  rw [loopOf, hx]
  rfl

@[simp] theorem count_record (s : TcpServer) (L : LoopId) (a b : Action) (i j : Nat) :
    (s.record L a i).count b j = s.count b j + if a = b ∧ i = j then 1 else 0 := by
  simp [count, record, List.countP_append, List.countP_cons]

@[simp] theorem waiting_queueInLoop (s : TcpServer) (L L' : LoopId) (f : ServerFunctor) :
    (s.queueInLoop L f).waiting L' = s.waiting L' ++ if L = L' then [f] else [] := by
  by_cases h : L = L'
  · subst h; simp [waiting, queueInLoop]
  · simp [waiting, queueInLoop, h, Function.update_of_ne (Ne.symm h)]

theorem lt_length (hx : s.conns[i]? = some x) : i < s.conns.length :=
  (List.getElem?_eq_some_iff.mp hx).1

/-! ### The books -/

/-- A loop owes a functor only if it is the functor's own, what is closed is owed to the base loop
or has been removed, and what is removed or swept is owed to its own loop or has been destroyed. -/
structure Booked (s : TcpServer) (hand : Option (LoopId × ServerFunctor)) : Prop where
  homed : ∀ {L f}, 0 < s.owed hand L f → s.home f = some L
  logged : ∀ e ∈ s.log, s.loopOf e.conn ≠ none
  closes : ∀ j, s.count .closed j =
    s.owed hand .base (.removeConnectionInLoop j) + s.count .removed j
  destroys : ∀ {j L}, s.loopOf j = some L → s.count .removed j + s.count .swept j =
    s.owed hand L (.connectDestroyed j) + s.count .destroyed j

variable {t : TcpServer} {hand hand' : Option (LoopId × ServerFunctor)} {f : ServerFunctor}

theorem Booked.hand_homed (h : Booked s (some (L, f))) : s.home f = some L :=
  h.homed (by simp [owed])

theorem Booked.congr (h : Booked s hand) (hlog : t.log = s.log) (hloop : t.loopOf = s.loopOf)
    (howed : ∀ L f, t.owed hand' L f = s.owed hand L f) : Booked t hand' := by
  have hcount : t.count = s.count := count_congr hlog
  have hhome : t.home = s.home := by
    funext f
    cases f <;> simp only [home, hloop]
  constructor
  · intro L f hf
    rw [hhome]
    exact h.homed (howed L f ▸ hf)
  · rw [hlog, hloop]
    exact h.logged
  · intro j
    rw [hcount, howed]
    exact h.closes j
  · intro j L hj
    rw [hcount, howed]
    exact h.destroys (hloop ▸ hj)

/-- Queueing what is in hand. -/
theorem Booked.queue (h : Booked s (some (L, f))) : Booked (s.queueInLoop L f) none :=
  h.congr rfl rfl fun L' f' => by
    rw [owed, owed, waiting_queueInLoop, List.count_append]
    by_cases hL : L = L' <;> by_cases hf : f = f' <;> simp [hL, hf]

/-- Taking the next functor of the batch in hand. -/
theorem Booked.take {rest : List ServerFunctor} (h : Booked s none)
    (hb : s.batch L = some (f :: rest)) :
    Booked { s with batch := Function.update s.batch L (some rest) } (some (L, f)) :=
  h.congr rfl rfl fun L' f' => by
    by_cases hL : L = L'
    · subst hL
      by_cases hf : f = f' <;> simp [owed, waiting, hb, hf]
    · simp [owed, waiting, hL, Function.update_of_ne (Ne.symm hL)]

/-- A loop takes its queue: the same is owed. -/
theorem Booked.swap (h : Booked s none) (hb : s.batch L = none) :
    Booked { s with
      batch := Function.update s.batch L (some (s.queue L))
      queue := Function.update s.queue L [] } none :=
  h.congr rfl rfl fun L' f' => by
    by_cases hL : L = L'
    · subst hL
      simp [owed, waiting, hb]
    · simp [owed, waiting, Function.update_of_ne (Ne.symm hL)]

theorem Booked.done (h : Booked s none) (hb : s.batch L = some []) :
    Booked { s with batch := Function.update s.batch L none } none :=
  h.congr rfl rfl fun L' f' => by
    by_cases hL : L = L'
    · subst hL
      simp [owed, waiting, hb]
    · simp [owed, waiting, Function.update_of_ne (Ne.symm hL)]

/-- What happens to a connection is not in the books. -/
theorem Booked.setConn (h : Booked s hand) (i : Nat) (c : Conn) : Booked (s.setConn i c) hand :=
  h.congr rfl (loopOf_setConn s i c) fun _ _ => rfl

/-- Running what is in hand, or taking something else, if that is not in the books. -/
theorem Booked.change (h : Booked s hand)
    (hf : ∀ L j, hand ≠ some (L, .removeConnectionInLoop j) ∧
      hand ≠ some (L, .connectDestroyed j))
    (hf' : ∀ L j, hand' ≠ some (L, .removeConnectionInLoop j) ∧
      hand' ≠ some (L, .connectDestroyed j))
    (hhome : ∀ {L f}, hand' = some (L, f) → s.home f = some L) : Booked s hand' where
  homed := by
    intro L f hpos
    by_cases hh : hand' = some (L, f)
    · exact hhome hh
    · refine h.homed (L := L) (f := f) ?_
      rw [owed, if_neg hh] at hpos
      rw [owed]
      omega
  logged := h.logged
  closes := by
    intro j
    have := h.closes j
    rw [owed, if_neg (hf _ _).1] at this
    rw [owed, if_neg (hf' _ _).1, this]
  destroys := by
    intro j L hj
    have := h.destroys hj
    rw [owed, if_neg (hf _ _).2] at this
    rw [owed, if_neg (hf' _ _).2, this]

/-- An entry of the log, and what is in hand before and after it. -/
theorem Booked.record {a : Action} (h : Booked s hand) (hi : s.loopOf i ≠ none)
    (hhome : ∀ {L f}, hand' = some (L, f) → s.home f = some L)
    (hcloses : ∀ j, ((if a = .closed ∧ i = j then 1 else 0) +
        if hand = some (.base, .removeConnectionInLoop j) then 1 else 0) =
      (if hand' = some (.base, .removeConnectionInLoop j) then 1 else 0) +
        if a = .removed ∧ i = j then 1 else 0)
    (hdestroys : ∀ {j L}, s.loopOf j = some L →
      ((if a = .removed ∧ i = j then 1 else 0) + (if a = .swept ∧ i = j then 1 else 0) +
        if hand = some (L, .connectDestroyed j) then 1 else 0) =
      (if hand' = some (L, .connectDestroyed j) then 1 else 0) +
        if a = .destroyed ∧ i = j then 1 else 0) : Booked (s.record L a i) hand' where
  homed := by
    intro L' f hpos
    by_cases hh : hand' = some (L', f)
    · exact hhome hh
    · refine h.homed (L := L') (f := f) ?_
      rw [owed, if_neg hh] at hpos
      change 0 < (s.waiting L').count f + 0 at hpos
      rw [owed]
      omega
  logged := by
    intro e he
    rcases List.mem_append.mp he with he | he
    · exact h.logged e he
    · rw [List.mem_singleton.mp he]
      exact hi
  closes := by
    intro j
    have hold := h.closes j
    have hnew := hcloses j
    simp only [owed, count_record, record_frame] at hold ⊢
    omega
  destroys := by
    intro j L' hj
    have hold := h.destroys hj
    have hnew := hdestroys hj
    simp only [owed, count_record, record_frame] at hold ⊢
    omega

/-- What is closed is to be removed. -/
theorem Booked.closed (h : Booked s none) (hi : s.loopOf i ≠ none) :
    Booked (s.record L .closed i) (some (.base, .removeConnectionInLoop i)) := by
  refine h.record hi ?_ (by simp) (by simp)
  rintro L' f hf
  obtain ⟨rfl, rfl⟩ : LoopId.base = L' ∧ _ = f := by simpa using hf
  obtain ⟨L', hL'⟩ := Option.ne_none_iff_exists'.mp hi
  simp [home, hL']

/-- What is removed, or visited by the destructor, is to be destroyed. -/
theorem Booked.leaves {a : Action} (h : Booked s hand) (hi : s.loopOf i = some L)
    (ha : a = .removed ∧ hand = some (.base, .removeConnectionInLoop i) ∨
      a = .swept ∧ hand = none) :
    Booked (s.record .base a i) (some (L, .connectDestroyed i)) := by
  refine h.record (by simp [hi]) ?_ ?_ ?_
  · rintro L' f hf
    obtain ⟨rfl, rfl⟩ : L = L' ∧ _ = f := by simpa using hf
    exact hi
  · rcases ha with ⟨rfl, rfl⟩ | ⟨rfl, rfl⟩ <;> simp
  · intro j L' hj
    by_cases hij : i = j
    · subst hij
      obtain rfl : L = L' := by simpa [hi] using hj
      rcases ha with ⟨rfl, rfl⟩ | ⟨rfl, rfl⟩ <;> simp
    · rcases ha with ⟨rfl, rfl⟩ | ⟨rfl, rfl⟩ <;> simp [hij]

/-- `connectDestroyed` is done, and struck off. -/
theorem Booked.destroyed (h : Booked s (some (L, .connectDestroyed i))) :
    Booked (s.record L .destroyed i) none := by
  have hi : s.loopOf i = some L := h.hand_homed
  refine h.record (by simp [hi]) (by simp) (by simp) ?_
  intro j L' hj
  by_cases hij : i = j
  · subst hij
    obtain rfl : L = L' := by simpa [hi] using hj
    simp
  · simp [hij]

/-- `connectEstablished` and events are not in the books. -/
theorem Booked.noted {a : Action} (h : Booked s hand) (hi : s.loopOf i ≠ none)
    (ha : a = .established ∨ a = .event) (hhand : hand = none) :
    Booked (s.record L a i) none := by
  subst hhand
  rcases ha with rfl | rfl <;> exact h.record hi (by simp) (by simp) (by simp)

/-! ### The functions -/

theorem removeConnectionInLoop_eq (hx : s.conns[i]? = some x) :
    s.removeConnectionInLoop i =
      ({ s.record .base .removed i with
        connections := Function.update s.connections x.name none }).queueInLoop x.loop
          (.connectDestroyed i) := by
  rw [removeConnectionInLoop, hx]
  rfl

theorem runConn_eq (hx : s.conns[i]? = some x) (l : ConnStep) :
    s.runConn L i l =
      if l.Closes x.conn then
        ((s.setConn i (l.run x.conn)).record L .closed i).removeConnection L i
      else s.setConn i (l.run x.conn) := by
  rw [runConn, hx]

theorem connectEstablished_eq (hx : s.conns[i]? = some x) :
    s.connectEstablished L i =
      (s.record L .established i).setConn i x.conn.connectEstablished := by
  rw [connectEstablished, runConn_eq (s := s.record L .established i) hx,
    if_neg (by simp [ConnStep.Closes])]
  rfl

theorem connectDestroyed_eq (hx : s.conns[i]? = some x) :
    s.connectDestroyed L i = (s.record L .destroyed i).setConn i x.conn.connectDestroyed := by
  rw [connectDestroyed, runConn_eq (s := s.record L .destroyed i) hx,
    if_neg (by simp [ConnStep.Closes])]
  rfl

theorem loopOf_some (h : s.loopOf i = some L) : ∃ x, s.conns[i]? = some x ∧ x.loop = L :=
  Option.map_eq_some_iff.mp h

theorem exists_of_count {a : Action} (h : s.count a i ≠ 0) :
    ∃ d ∈ s.log, d.action = a ∧ d.conn = i := by
  simpa using List.countP_pos_iff.mp (Nat.pos_of_ne_zero h)

/-! ### A connection accepted -/

/-- `newConnection` before it runs or queues `connectEstablished`. -/
def insert (s : TcpServer) (L : LoopId) (next : Nat) (nextConnId : BitVec 32) (name : List Byte)
    (conn : Conn) : TcpServer :=
  { s with
    next := next
    nextConnId := nextConnId
    conns := s.conns ++ [⟨L, name, conn⟩]
    connections := Function.update s.connections name (some s.conns.length) }

variable {n : Nat} {id : BitVec 32} {name : List Byte} {c : Conn}

theorem getElem?_insert {j : Nat} {y : ServerConn}
    (hy : (s.insert L n id name c).conns[j]? = some y) :
    s.conns[j]? = some y ∨ j = s.conns.length ∧ y = ⟨L, name, c⟩ := by
  change (s.conns ++ [⟨L, name, c⟩])[j]? = some y at hy
  rw [List.getElem?_append] at hy
  split at hy
  · exact .inl hy
  · have hlt := (List.getElem?_eq_some_iff.mp hy).1
    rw [List.length_singleton] at hlt
    rw [show j - s.conns.length = 0 by omega] at hy
    exact .inr ⟨by omega, (Option.some.inj hy).symm⟩

theorem getElem?_insert_left {j : Nat} {y : ServerConn} (hy : s.conns[j]? = some y) :
    (s.insert L n id name c).conns[j]? = some y := by
  change (s.conns ++ [⟨L, name, c⟩])[j]? = some y
  rw [List.getElem?_append_left (lt_length hy), hy]

theorem loopOf_insert_left {j : Nat} {L' : LoopId} (hj : s.loopOf j = some L') :
    (s.insert L n id name c).loopOf j = some L' := by
  obtain ⟨y, hy, rfl⟩ := loopOf_some hj
  exact loopOf_eq (getElem?_insert_left hy)

theorem loopOf_insert_self : (s.insert L n id name c).loopOf s.conns.length = some L := by
  simp [loopOf, insert]

theorem home_insert_left {f : ServerFunctor} {L' : LoopId} (hf : s.home f = some L') :
    (s.insert L n id name c).home f = some L' := by
  cases f with
  | removeConnectionInLoop i =>
    obtain ⟨L'', hL'', rfl⟩ := Option.map_eq_some_iff.mp hf
    rw [home, loopOf_insert_left hL'']
    rfl
  | _ => exact loopOf_insert_left hf

theorem owed_insert {L' : LoopId} (hf : f ≠ .connectEstablished s.conns.length) :
    (s.insert L n id name c).owed (some (L, .connectEstablished s.conns.length)) L' f =
      s.owed none L' f := by
  rw [owed, owed, if_neg fun h => hf (Prod.mk.inj (Option.some.inj h)).2.symm]
  rfl

theorem loopOf_length (s : TcpServer) : s.loopOf s.conns.length = none := by
  simp [loopOf]

/-- Nothing has been done to a connection that does not exist. -/
theorem Booked.count_eq_zero (h : Booked s hand) (a : Action) (hi : s.loopOf i = none) :
    s.count a i = 0 := by
  by_contra hne
  obtain ⟨d, hd, -, rfl⟩ := exists_of_count hne
  exact h.logged d hd hi

/-- A connection is inserted, and its `connectEstablished` owed. -/
theorem Booked.insert (h : Booked s none) :
    Booked (s.insert L n id name c) (some (L, .connectEstablished s.conns.length)) where
  homed := by
    intro L' f hpos
    by_cases hh : some (L, ServerFunctor.connectEstablished s.conns.length) = some (L', f)
    · obtain ⟨rfl, rfl⟩ := Prod.mk.inj (Option.some.inj hh)
      exact loopOf_insert_self
    · rw [owed, if_neg hh] at hpos
      exact home_insert_left (h.homed (L := L') (f := f) hpos)
  logged := by
    intro e he
    obtain ⟨L', hL'⟩ := Option.ne_none_iff_exists'.mp (h.logged e he)
    rw [loopOf_insert_left hL']
    simp
  closes := by
    intro j
    rw [owed_insert (by simp)]
    exact h.closes j
  destroys := by
    intro j L' hj
    rw [owed_insert (by simp)]
    obtain ⟨y, hy, rfl⟩ := loopOf_some hj
    rcases getElem?_insert hy with hy | ⟨rfl, rfl⟩
    · exact h.destroys (loopOf_eq hy)
    · have hzero : ∀ a, s.count a s.conns.length = 0 := fun a =>
        h.count_eq_zero a s.loopOf_length
      have howed : s.owed none L (.connectDestroyed s.conns.length) = 0 := by
        by_contra hne
        have := h.homed (Nat.pos_of_ne_zero hne)
        rw [home, loopOf_length] at this
        simp at this
      change s.count .removed _ + s.count .swept _ =
        s.owed none L (.connectDestroyed s.conns.length) + s.count .destroyed _
      simp [hzero, howed]

/-- `newConnection` inserts, and runs or queues. -/
theorem newConnection_eq (s : TcpServer) (g : ServerConfig) :
    ∃ L n c, c.state = .kConnecting ∧ c.channel.registered = false ∧ s.newConnection g =
      let t := s.insert L n (s.nextConnId + 1) (connName g s.nextConnId) c
      if L = .base then t.connectEstablished .base s.conns.length
      else t.queueInLoop L (.connectEstablished s.conns.length) :=
  ⟨(s.getNextLoop g).1, (s.getNextLoop g).2,
    .new (64 * 1024 * 1024) g.writeCompleteCallback false, rfl, rfl, rfl⟩

/-! ### What the functions log -/

/-- The entry for what is done now. -/
def entry (s : TcpServer) (L : LoopId) (a : Action) (i : Nat) : LogEntry :=
  ⟨a, i, L, (s.batch L).isSome, s.teardown matches .gone⟩

/-- The log grows by some entries; what entries are made of stays. -/
structure Adds (s t : TcpServer) (new : List LogEntry) : Prop where
  log : t.log = s.log ++ new
  teardown : t.teardown = s.teardown
  batch : t.batch = s.batch

theorem Adds.none (hlog : t.log = s.log) (ht : t.teardown = s.teardown) (hb : t.batch = s.batch) :
    Adds s t [] := ⟨by rw [hlog, List.append_nil], ht, hb⟩

theorem Adds.trans {u : TcpServer} {new new' : List LogEntry} (h : Adds s t new)
    (h' : Adds t u new') : Adds s u (new ++ new') :=
  ⟨by rw [h'.log, h.log, List.append_assoc], h'.teardown.trans h.teardown, h'.batch.trans h.batch⟩

theorem adds_record (s : TcpServer) (L : LoopId) (a : Action) (i : Nat) :
    Adds s (s.record L a i) [s.entry L a i] := ⟨rfl, rfl, rfl⟩

theorem adds_removeConnectionInLoop (hx : s.conns[i]? = some x) :
    Adds s (s.removeConnectionInLoop i) [s.entry .base .removed i] := by
  rw [removeConnectionInLoop_eq hx]
  exact ⟨rfl, rfl, rfl⟩

/-- A connection closes and, in the base loop, is removed. -/
def closing (s : TcpServer) (L : LoopId) (i : Nat) : List LogEntry :=
  s.entry L .closed i :: if L = .base then [s.entry .base .removed i] else []

/-- What a step of a connection adds to the log. -/
theorem adds_runConn (hx : s.conns[i]? = some x) (l : ConnStep) :
    Adds s (s.runConn L i l) (if l.Closes x.conn then s.closing L i else []) := by
  have hset : Adds s (s.setConn i (l.run x.conn)) [] := .none rfl rfl rfl
  rw [runConn_eq hx]
  split
  · have hrecord := hset.trans (adds_record _ L .closed i)
    rw [removeConnection, closing]
    split
    · obtain ⟨y, hy, -⟩ : ∃ y, (s.setConn i (l.run x.conn)).conns[i]? = some y ∧ y.loop = x.loop :=
        loopOf_some (by rw [loopOf_setConn, loopOf_eq hx])
      exact hrecord.trans (adds_removeConnectionInLoop
        (s := (s.setConn i (l.run x.conn)).record L .closed i) hy)
    · exact hrecord.trans (.none rfl rfl rfl)
  · exact hset

theorem adds_connectEstablished (hx : s.conns[i]? = some x) :
    Adds s (s.connectEstablished L i) [s.entry L .established i] := by
  rw [connectEstablished_eq hx]
  exact ⟨rfl, rfl, rfl⟩

theorem adds_connectDestroyed (hx : s.conns[i]? = some x) :
    Adds s (s.connectDestroyed L i) [s.entry L .destroyed i] := by
  rw [connectDestroyed_eq hx]
  exact ⟨rfl, rfl, rfl⟩

theorem adds_newConnection (s : TcpServer) (g : ServerConfig) :
    ∃ L : LoopId, Adds s (s.newConnection g)
      (if L = .base then [s.entry .base .established s.conns.length] else []) := by
  obtain ⟨L, n, c, -, -, heq⟩ := s.newConnection_eq g
  have hins : Adds s (s.insert L n (s.nextConnId + 1) (connName g s.nextConnId) c) [] :=
    .none rfl rfl rfl
  refine ⟨L, ?_⟩
  rw [heq]
  split
  · obtain ⟨x, hx, -⟩ := loopOf_some (loopOf_insert_self :
      (s.insert L n (s.nextConnId + 1) (connName g s.nextConnId) c).loopOf _ = _)
    exact hins.trans (adds_connectEstablished hx)
  · exact .none rfl rfl rfl

/-- What a functor logs when it is run. -/
def functorEntries (s : TcpServer) (L : LoopId) : ServerFunctor → List LogEntry
  | .connectEstablished i => [s.entry L .established i]
  | .forceCloseInLoop i =>
    match s.conns[i]? with
    | some x => if ConnStep.forceCloseInLoop.Closes x.conn then s.closing L i else []
    | none => []
  | .removeConnectionInLoop i => [s.entry .base .removed i]
  | .connectDestroyed i => [s.entry L .destroyed i]

theorem adds_runFunctor (h : Booked s (some (L, f))) :
    Adds s (s.runFunctor L f) (s.functorEntries L f) := by
  have hhome := h.hand_homed
  cases f with
  | connectEstablished i =>
    obtain ⟨x, hx, -⟩ := loopOf_some hhome
    exact adds_connectEstablished hx
  | forceCloseInLoop i =>
    obtain ⟨x, hx, -⟩ := loopOf_some hhome
    simp only [functorEntries, hx]
    exact adds_runConn hx .forceCloseInLoop
  | removeConnectionInLoop i =>
    obtain ⟨L', hL', -⟩ := Option.map_eq_some_iff.mp hhome
    obtain ⟨x, hx, -⟩ := loopOf_some hL'
    exact adds_removeConnectionInLoop hx
  | connectDestroyed i =>
    obtain ⟨x, hx, -⟩ := loopOf_some hhome
    exact adds_connectDestroyed hx

end TcpServer

end Reactor.Net
