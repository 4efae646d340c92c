import Reactor.Net.ServerBooks

/-!
# Net — server connections

The connections of a server over its runs.  As long as fewer than 2^31 are accepted, each has a name
of its own, and the map is exactly what the books say.

* `Justified`: what has been logged before an entry of the log.
* `Orderly`: the books, the map and the log together.
* `server_life_cycle`: what holds of the connections of a server in every run.
-/

namespace Reactor.Net
open Reactor.Lib

namespace TcpServer

variable {s t : TcpServer} {L : LoopId} {i : Nat} {x : ServerConn}
  {hand hand' : Option (LoopId × ServerFunctor)} {f : ServerFunctor}

/-! ### Names -/

/-- The address and the number leave room in the buffer. -/
theorem length_toIpPort_le (a : InetAddress) : a.toIpPort.length ≤ 21 := by
  have hbyte : ∀ b : UInt8, (decimal b.toNat).length ≤ 3 := fun b =>
    (length_decimal_le_iff (by omega)).mpr (by have := b.toNat_lt; omega)
  have hport : (decimal a.port.toNat).length ≤ 5 :=
    (length_decimal_le_iff (by omega)).mpr (by have := a.port.toNat_lt; omega)
  have h1 := hbyte a.addr.1
  have h2 := hbyte a.addr.2.1
  have h3 := hbyte a.addr.2.2.1
  have h4 := hbyte a.addr.2.2.2
  simp only [InetAddress.toIpPort, InetAddress.toIp, List.length_append, List.length_cons]
  omega

/-- Names with different numbers are different. -/
theorem connName_inj {g : ServerConfig} {a b : BitVec 32} (h : connName g a = connName g b) :
    a = b := by
  have hfits : ∀ id : BitVec 32,
      (45 :: (g.listenAddr.toIpPort ++ 35 :: signed id.toInt)).length < 64 := fun id => by
    have hid : (signed id.toInt).length ≤ 10 + 1 :=
      length_signed_le (by omega) (by have := id.toInt_lt; have := id.le_toInt; omega)
    have := length_toIpPort_le g.listenAddr
    simp only [List.length_cons, List.length_append]
    omega
  rw [connName, connName, List.append_cancel_left_eq, snprintf_eq (hfits a), snprintf_eq (hfits b),
    List.cons.injEq, List.append_cancel_left_eq, List.cons.injEq] at h
  exact BitVec.eq_of_toInt_eq (signed_inj h.2.2)

/-- Fewer than 2^31 connections have names of their own. -/
theorem connName_number {g : ServerConfig} {i j : Nat} (hi : i < 2 ^ 31) (hj : j < 2 ^ 31)
    (h : connName g (BitVec.ofNat 32 (i + 1)) = connName g (BitVec.ofNat 32 (j + 1))) : i = j := by
  have hid := congrArg BitVec.toNat (connName_inj h)
  rw [BitVec.toNat_ofNat, BitVec.toNat_ofNat, Nat.mod_eq_of_lt (by omega),
    Nat.mod_eq_of_lt (by omega)] at hid
  omega

/-! ### The invariant -/

/-- What is logged of a connection, given the entries before: `connectEstablished` in its own loop,
events there after it, and `connectDestroyed` there, from `doPendingFunctors` and after
`handleClose`. -/
def Justified (loopOf : Nat → Option LoopId) (before : List LogEntry) (e : LogEntry) : Prop :=
  match e.action with
  | .established => loopOf e.conn = some e.loop
  | .event => loopOf e.conn = some e.loop ∧
      ∃ d ∈ before, d.action = .established ∧ d.conn = e.conn
  | .destroyed => loopOf e.conn = some e.loop ∧ e.inFunctors = true ∧
      ∃ d ∈ before, d.action = .closed ∧ d.conn = e.conn
  | _ => True

theorem Justified.mono {f f' : Nat → Option LoopId} {before : List LogEntry} {e : LogEntry}
    (h : Justified f before e) (hf : ∀ {L}, f e.conn = some L → f' e.conn = some L) :
    Justified f' before e := by
  unfold Justified at h ⊢
  split <;> simp_all

/-- The books are kept, a connection not yet established is not in the poller, the map holds what
has not been removed, and the log is in order. -/
structure Orderly (g : ServerConfig) (s : TcpServer) (hand : Option (LoopId × ServerFunctor)) :
    Prop extends Booked s hand where
  unswept : s.teardown = .alive → ∀ j, s.count .swept j = 0
  untouched : ∀ {j x}, s.conns[j]? = some x → s.count .established j = 0 →
    x.conn.state = .kConnecting ∧ x.conn.channel.registered = false
  named : ∀ {j x}, s.conns[j]? = some x → x.name = connName g (BitVec.ofNat 32 (j + 1))
  next : s.nextConnId = BitVec.ofNat 32 (s.conns.length + 1)
  held : ∀ {name j}, s.connections name = some j →
    (∃ x, s.conns[j]? = some x ∧ x.name = name) ∧ s.count .removed j = 0
  holds : s.teardown = .alive → s.conns.length < 2 ^ 31 → ∀ {j x}, s.conns[j]? = some x →
    s.count .removed j = 0 → s.connections x.name = some j
  ordered : s.teardown = .alive → Each (Justified s.loopOf) s.log

variable {g : ServerConfig}

/-- What is only about the queues is only in the books. -/
theorem Orderly.congr (h : Orderly g s hand) (hb : Booked t hand') (hconns : t.conns = s.conns)
    (hmap : t.connections = s.connections) (hnext : t.nextConnId = s.nextConnId)
    (hlog : t.log = s.log) (ht : t.teardown = s.teardown) : Orderly g t hand' := by
  have hcount : t.count = s.count := count_congr hlog
  have hloop : t.loopOf = s.loopOf := by
    funext j
    rw [loopOf, loopOf, hconns]
  refine ⟨hb, ?_, ?_, ?_, ?_, ?_, ?_, ?_⟩
  · rw [ht, hcount]
    exact h.unswept
  · rw [hconns, hcount]
    exact h.untouched
  · rw [hconns]
    exact h.named
  · rw [hnext, hconns]
    exact h.next
  · rw [hmap, hconns, hcount]
    exact h.held
  · rw [ht, hconns, hcount, hmap]
    exact h.holds
  · rw [ht, hloop, hlog]
    exact h.ordered

/-- A connection is written: it is still untouched, or has been established. -/
theorem Orderly.setConn {c : Conn} (h : Orderly g s hand)
    (hc : s.count .established i ≠ 0 ∨ c.state = .kConnecting ∧ c.channel.registered = false) :
    Orderly g (s.setConn i c) hand := by
  have hget : ∀ {j y}, (s.setConn i c).conns[j]? = some y →
      ∃ x, s.conns[j]? = some x ∧ x.name = y.name ∧ (y.conn = x.conn ∨ j = i ∧ y.conn = c) := by
    intro j y hy
    rw [getElem?_setConn] at hy
    split at hy
    · next hij =>
      obtain ⟨x, hx, rfl⟩ := Option.map_eq_some_iff.mp hy
      exact ⟨x, hx, rfl, .inr ⟨hij.symm, rfl⟩⟩
    · exact ⟨y, hy, rfl, .inl rfl⟩
  have hlen : (s.setConn i c).conns.length = s.conns.length := List.length_modify ..
  refine ⟨h.toBooked.setConn i c, h.unswept, ?_, ?_, ?_, ?_, ?_, ?_⟩
  · intro j y hy hj
    obtain ⟨x, hx, -, hconn | ⟨rfl, hconn⟩⟩ := hget hy
    · rw [hconn]
      exact h.untouched hx hj
    · rw [hconn]
      exact hc.resolve_left fun hne => hne hj
  · intro j y hy
    obtain ⟨x, hx, hname, -⟩ := hget hy
    exact hname ▸ h.named hx
  · rw [hlen]
    exact h.next
  · intro name j hj
    obtain ⟨⟨x, hx, hname⟩, hremoved⟩ := h.held hj
    refine ⟨?_, hremoved⟩
    rw [getElem?_setConn, hx]
    split
    · exact ⟨_, rfl, hname⟩
    · exact ⟨x, rfl, hname⟩
  · rw [hlen]
    intro ht hbound j y hy hj
    obtain ⟨x, hx, hname, -⟩ := hget hy
    exact hname ▸ h.holds ht hbound hx hj
  · rw [loopOf_setConn]
    exact h.ordered

/-- An entry of the log, if it is justified. -/
theorem Orderly.record {a : Action} (h : Orderly g s hand) (hb : Booked (s.record L a i) hand')
    (ha : a ≠ .removed) (hswept : a = .swept → s.teardown ≠ .alive)
    (hj : s.teardown = .alive → Justified s.loopOf s.log
      ⟨a, i, L, (s.batch L).isSome, s.teardown matches .gone⟩) :
    Orderly g (s.record L a i) hand' := by
  refine ⟨hb, ?_, ?_, h.named, h.next, ?_, ?_, ?_⟩
  · intro ht j
    have hne : a ≠ .swept := fun heq => hswept heq ht
    simp [hne, h.unswept ht j]
  · intro j x hx hj
    refine h.untouched hx ?_
    rw [count_record] at hj
    omega
  · intro name j hname
    simpa [ha] using h.held hname
  · intro ht hbound j x hx hj
    refine h.holds ht hbound hx ?_
    simpa [ha] using hj
  · exact fun ht => (h.ordered ht).snoc (hj ht)

/-- `removeConnectionInLoop` before it queues. -/
theorem Orderly.removed (h : Orderly g s (some (.base, .removeConnectionInLoop i)))
    (hx : s.conns[i]? = some x) :
    Orderly g { s.record .base .removed i with
      connections := Function.update s.connections x.name none }
        (some (x.loop, .connectDestroyed i)) := by
  have hb := h.toBooked.leaves (loopOf_eq hx) (.inl ⟨rfl, rfl⟩)
  refine ⟨hb.congr rfl rfl fun _ _ => rfl, ?_, ?_, h.named, h.next, ?_, ?_, ?_⟩
  · intro ht j
    change (s.record .base .removed i).count .swept j = 0
    simp [h.unswept ht j]
  · intro j y hy hj
    change (s.record .base .removed i).count .established j = 0 at hj
    exact h.untouched hy (by simpa using hj)
  · intro name j hj
    change Function.update s.connections x.name none name = some j at hj
    change _ ∧ (s.record .base .removed i).count .removed j = 0
    by_cases hname : name = x.name
    · rw [hname, Function.update_self] at hj
      simp at hj
    · rw [Function.update_of_ne hname] at hj
      obtain ⟨⟨y, hy, rfl⟩, hremoved⟩ := h.held hj
      refine ⟨⟨y, hy, rfl⟩, ?_⟩
      have hij : i ≠ j := by
        rintro rfl
        rw [hx] at hy
        exact hname (congrArg ServerConn.name (Option.some.inj hy)).symm
      simp [hij, hremoved]
  · intro ht hbound j y hy hj
    change (s.record .base .removed i).count .removed j = 0 at hj
    change Function.update s.connections x.name none y.name = some j
    have hij : i ≠ j := by
      rintro rfl
      simp at hj
    -- the entry of another connection is under another name
    have hname : y.name ≠ x.name := by
      rw [h.named hy, h.named hx]
      intro heq
      exact hij (connName_number ((lt_length hy).trans hbound) ((lt_length hx).trans hbound)
        heq).symm
    rw [Function.update_of_ne hname]
    exact h.holds ht hbound hy (by simpa [hij] using hj)
  · exact fun ht => (h.ordered ht).snoc trivial

/-! ### The functions -/

theorem Orderly.queue (h : Orderly g s (some (L, f))) : Orderly g (s.queueInLoop L f) none :=
  h.congr h.toBooked.queue rfl rfl rfl rfl rfl

/-- The entry of the map goes, and `connectDestroyed` is owed. -/
theorem Orderly.removeConnectionInLoop
    (h : Orderly g s (some (.base, .removeConnectionInLoop i))) :
    Orderly g (s.removeConnectionInLoop i) none := by
  obtain ⟨L, hL, -⟩ := Option.map_eq_some_iff.mp h.hand_homed
  obtain ⟨x, hx, rfl⟩ := loopOf_some hL
  rw [removeConnectionInLoop_eq hx]
  exact (h.removed hx).queue

theorem Orderly.removeConnection
    (h : Orderly g s (some (.base, .removeConnectionInLoop i))) (L : LoopId) :
    Orderly g (s.removeConnection L i) none := by
  rw [TcpServer.removeConnection]
  split
  · exact h.removeConnectionInLoop
  · exact h.queue

/-- A step of a connection, with its close callback. -/
theorem Orderly.runConn {l : ConnStep} (h : Orderly g s none) (hx : s.conns[i]? = some x)
    (hc : s.count .established i ≠ 0 ∨
      (l.run x.conn).state = .kConnecting ∧ (l.run x.conn).channel.registered = false) :
    Orderly g (s.runConn L i l) none := by
  have hset := h.setConn hc
  rw [runConn_eq hx]
  split
  · have hi : (s.setConn i (l.run x.conn)).loopOf i ≠ none := by
      rw [loopOf_setConn, loopOf_eq hx]
      simp
    exact (hset.record (hset.toBooked.closed hi) (by simp) (by simp)
      fun _ => trivial).removeConnection L
  · exact hset

/-- `connectEstablished` is done where it is owed. -/
theorem Orderly.connectEstablished (h : Orderly g s (some (L, .connectEstablished i))) :
    Orderly g (s.connectEstablished L i) none := by
  have hL : s.loopOf i = some L := h.hand_homed
  obtain ⟨x, hx, rfl⟩ := loopOf_some hL
  have hb : Booked s none := h.toBooked.change (by simp) (by simp) (by simp)
  rw [connectEstablished_eq hx]
  refine (h.record (hb.noted (by simp [hL]) (.inl rfl) rfl) (by simp) (by simp)
    fun _ => hL).setConn (.inl ?_)
  simp

theorem Orderly.connectDestroyed (h : Orderly g s (some (L, .connectDestroyed i)))
    (hb : s.teardown = .alive → (s.batch L).isSome = true) :
    Orderly g (s.connectDestroyed L i) none := by
  have hL : s.loopOf i = some L := h.hand_homed
  obtain ⟨x, hx, rfl⟩ := loopOf_some hL
  -- it is owed only to what has been removed, and that had been closed
  have hclosed : s.teardown = .alive → s.count .closed i ≠ 0 := fun ht => by
    have hcloses := h.closes i
    have hdestroys := h.destroys hL
    rw [h.unswept ht, owed, if_pos rfl] at hdestroys
    omega
  rw [connectDestroyed_eq hx]
  refine (h.record h.toBooked.destroyed (by simp) (by simp)
    fun ht => ⟨hL, hb ht, exists_of_count (hclosed ht)⟩).setConn ?_
  by_cases hest : s.count .established i = 0
  · obtain ⟨hstate, -⟩ := h.untouched hx hest
    exact .inr (by simp [Conn.connectDestroyed, hstate, Channel.remove])
  · exact .inl (by simpa using hest)

/-- What is run in a loop's thread keeps the invariant, if that loop runs functors. -/
theorem Orderly.runFunctor (h : Orderly g s (some (L, f)))
    (hb : s.teardown = .alive → (s.batch L).isSome = true) :
    Orderly g (s.runFunctor L f) none := by
  have hhome := h.hand_homed
  cases f with
  | connectEstablished i => exact h.connectEstablished
  | forceCloseInLoop i =>
    obtain ⟨x, hx, rfl⟩ := loopOf_some hhome
    have hnone : Orderly g s none :=
      h.congr (h.toBooked.change (by simp) (by simp) (by simp)) rfl rfl rfl rfl rfl
    refine hnone.runConn hx ?_
    by_cases hest : s.count .established i = 0
    · obtain ⟨hstate, hreg⟩ := h.untouched hx hest
      exact .inr (by simp [ConnStep.run, Conn.forceCloseInLoop, hstate, hreg])
    · exact .inl hest
  | removeConnectionInLoop i =>
    obtain ⟨_, -, rfl⟩ := Option.map_eq_some_iff.mp hhome
    exact h.removeConnectionInLoop
  | connectDestroyed i => exact h.connectDestroyed hb

theorem Orderly.insert {n : Nat} {c : Conn} (h : Orderly g s none) (hstate : c.state = .kConnecting)
    (hreg : c.channel.registered = false) :
    Orderly g (s.insert L n (s.nextConnId + 1) (connName g s.nextConnId) c)
      (some (L, .connectEstablished s.conns.length)) := by
  refine ⟨h.toBooked.insert, h.unswept, ?_, ?_, ?_, ?_, ?_, ?_⟩
  · intro j x hx hj
    rcases getElem?_insert hx with hx | ⟨rfl, rfl⟩
    · exact h.untouched hx hj
    · exact ⟨hstate, hreg⟩
  · intro j x hx
    rcases getElem?_insert hx with hx | ⟨rfl, rfl⟩
    · exact h.named hx
    · rw [← h.next]
  · have hlen : (s.insert L n (s.nextConnId + 1) (connName g s.nextConnId) c).conns.length =
        s.conns.length + 1 := List.length_append ..
    rw [hlen, show s.conns.length + 1 + 1 = (s.conns.length + 1) + 1 from rfl, BitVec.ofNat_add,
      ← h.next]
    rfl
  · intro nm j hj
    change Function.update s.connections (connName g s.nextConnId) (some s.conns.length) nm =
      some j at hj
    by_cases hnm : nm = connName g s.nextConnId
    · rw [hnm, Function.update_self] at hj
      obtain rfl := Option.some.inj hj
      refine ⟨⟨⟨L, connName g s.nextConnId, c⟩, ?_, hnm.symm⟩,
        h.count_eq_zero .removed s.loopOf_length⟩
      simp [TcpServer.insert]
    · rw [Function.update_of_ne hnm] at hj
      obtain ⟨⟨x, hx, hname⟩, hremoved⟩ := h.held hj
      exact ⟨⟨x, getElem?_insert_left hx, hname⟩, hremoved⟩
  · intro ht hbound j x hx hj
    change (s.conns ++ [_]).length < 2 ^ 31 at hbound
    rw [List.length_append, List.length_singleton] at hbound
    change Function.update s.connections (connName g s.nextConnId) (some s.conns.length) x.name =
      some j
    rcases getElem?_insert hx with hx | ⟨rfl, rfl⟩
    · have hname : x.name ≠ connName g s.nextConnId := by
        rw [h.named hx, h.next]
        intro heq
        have := connName_number ((lt_length hx).trans (by omega)) (by omega) heq
        exact absurd (lt_length hx) (by omega)
      rw [Function.update_of_ne hname]
      exact h.holds ht (by omega) hx hj
    · rw [Function.update_self]
  · intro ht before e after heq
    refine (h.ordered ht before e after heq).mono fun hL => loopOf_insert_left hL

theorem Orderly.newConnection (h : Orderly g s none) : Orderly g (s.newConnection g) none := by
  obtain ⟨L, n, c, hstate, hreg, heq⟩ := s.newConnection_eq g
  have hins : Orderly g (s.insert L n _ _ c) _ := h.insert hstate hreg
  rw [heq]
  split
  · next hL =>
    subst hL
    exact hins.connectEstablished
  · exact hins.queue

/-! ### Steps -/

/-- Once the destructor has begun, the map may lose its entries. -/
theorem Orderly.teardown {td : Teardown} {m : List Byte → Option Nat} (h : Orderly g s hand)
    (ht : td ≠ .alive) (hm : ∀ name j, m name = some j → s.connections name = some j) :
    Orderly g { s with teardown := td, connections := m } hand :=
  ⟨h.toBooked.congr rfl rfl fun _ _ => rfl, fun h' => absurd h' ht, h.untouched, h.named, h.next,
    fun hj => h.held (hm _ _ hj), fun h' => absurd h' ht, fun h' => absurd h' ht⟩

theorem orderly_init (g : ServerConfig) : Orderly g .new none := by
  refine ⟨⟨?_, ?_, ?_, ?_⟩, fun _ _ => rfl, ?_, ?_, rfl, ?_, ?_, fun _ => each_nil _⟩ <;>
    simp [TcpServer.new, owed, waiting, count, loopOf]

/-- Every step keeps the order. -/
theorem orderly_step {l : ServerStep} (h : Orderly g s none) (hstep : TcpServer.Step g s l t) :
    Orderly g t none := by
  cases hstep with
  | accept ht hb => exact h.newConnection
  | @event i x l hx hf hb hr hl hp hg =>
    have hest : s.count .established i ≠ 0 := fun h0 => by
      rw [(h.untouched hx h0).2] at hr
      exact Bool.noConfusion hr
    have hi : s.loopOf i ≠ none := by simp [loopOf_eq hx]
    refine (h.record (h.toBooked.noted hi (.inr rfl) rfl) (by simp) (by simp)
      fun _ => ⟨loopOf_eq hx, exists_of_count hest⟩).runConn hx (.inl ?_)
    simpa using hest
  | call hx hc hl hp => exact h.setConn (.inl fun h0 => hc (h.untouched hx h0).1)
  | storeDisconnecting hx hc => exact h.setConn (.inl fun h0 => hc (h.untouched hx h0).1)
  | @queueForceClose i x hx hc =>
    have hb : Booked s (some (x.loop, .forceCloseInLoop i)) := by
      refine h.toBooked.change (by simp) (by simp) ?_
      rintro L' f heq
      obtain ⟨rfl, rfl⟩ := Prod.mk.inj (Option.some.inj heq)
      exact loopOf_eq hx
    exact Orderly.queue (h.congr hb rfl rfl rfl rfl rfl)
  | swap hf hb hg => exact h.congr (h.toBooked.swap hb) rfl rfl rfl rfl rfl
  | run hf hb hg =>
    refine Orderly.runFunctor (h.congr (h.toBooked.take hb) rfl rfl rfl rfl rfl) fun _ => ?_
    simp
  | done hf hb hg => exact h.congr (h.toBooked.done hb) rfl rfl rfl rfl rfl
  | destroy ht hn ho => exact h.teardown (by simp) fun _ _ hj => hj
  | @sweep i rest ht =>
    refine Orderly.teardown (m := (s.sweep i).connections) ?_ (by simp) fun _ _ hj => hj
    rw [TcpServer.sweep]
    split
    · exact h
    · next x hx =>
      have hswept := h.record (h.toBooked.leaves (loopOf_eq hx) (.inr ⟨rfl, rfl⟩)) (by simp)
        (by simp [ht]) (by simp [ht])
      split
      · next hL =>
        rw [hL] at hswept
        exact hswept.connectDestroyed (by simp [ht])
      · exact hswept.queue
  | finish ht hg => exact h.teardown (by simp) (by simp)

/-- Only `destroy` begins the destruction. -/
theorem alive_step {l : ServerStep} (h : Orderly g s none) (ht : s.teardown = .alive)
    (hl : ∀ order, l ≠ .destroy order) (hstep : TcpServer.Step g s l t) : t.teardown = .alive := by
  cases hstep with
  | accept _ hb =>
    obtain ⟨L, hadds⟩ := s.adds_newConnection g
    rw [hadds.teardown, ht]
  | @event i x l hx =>
    rw [(adds_runConn (s := s.record x.loop .event i) hx l).teardown]
    exact ht
  | call hx hc hl hp => exact ht
  | storeDisconnecting hx hc => exact ht
  | queueForceClose hx hc => exact ht
  | swap hf hb hg => exact ht
  | run hf hb hg =>
    rw [(adds_runFunctor (h.toBooked.take hb)).teardown]
    exact ht
  | done hf hb hg => exact ht
  | destroy _ hn ho => exact absurd rfl (hl _)
  | sweep ht' => simp [ht] at ht'
  | finish ht' => simp [ht] at ht'

/-! ### The life cycle -/

/-- The map holds exactly the accepted connections that have not been removed, under a name no
other has, and the next name is free; what is done to a connection is done in order, and
`connectDestroyed` once at most. -/
structure LifeCycle (g : ServerConfig) (s : TcpServer) : Prop where
  held : ∀ name i, s.connections name = some i ↔
    (∃ x, s.conns[i]? = some x ∧ x.name = name) ∧ s.count .removed i = 0
  free : s.connections (connName g s.nextConnId) = none
  ordered : Each (Justified s.loopOf) s.log
  destroyed_once : ∀ i, s.count .destroyed i ≤ 1

/-- What the order means for the map and for each connection. -/
theorem Orderly.lifeCycle (h : Orderly g s none) (ht : s.teardown = .alive)
    (haccepts : s.conns.length < 2 ^ 31) (honce : ∀ i, s.count .closed i ≤ 1) : LifeCycle g s where
  held := by
    intro name i
    constructor
    · exact h.held
    · rintro ⟨⟨x, hx, rfl⟩, hremoved⟩
      exact h.holds ht haccepts hx hremoved
  free := by
    rw [Option.eq_none_iff_forall_ne_some]
    intro i hi
    obtain ⟨⟨x, hx, hname⟩, -⟩ := h.held hi
    rw [h.named hx, h.next] at hname
    have := connName_number ((lt_length hx).trans haccepts) haccepts hname
    exact absurd (lt_length hx) (by omega)
  ordered := h.ordered ht
  destroyed_once := by
    intro i
    have hcloses := h.closes i
    have hclosed := honce i
    cases hL : s.loopOf i with
    | none =>
      rw [h.count_eq_zero .destroyed hL]
      omega
    | some L =>
      have hdestroys := h.destroys hL
      rw [h.unswept ht] at hdestroys
      omega

end TcpServer

open TcpServer

/-- **The life cycle of the connections of a server.**  In every run in which the server is not
destroyed, fewer than 2^31 connections are accepted and `handleClose` runs at most once for each:
`_connections` holds exactly the connections not yet removed, the next insertion overwrites none,
`connectEstablished` runs in the connection's own loop before its events, and `connectDestroyed`
once at most, in its own loop, after `handleClose` and from `doPendingFunctors`. -/
theorem server_life_cycle {g : ServerConfig} {s t : TcpServer} {tr : List (TcpServer × ServerStep)}
    (hinit : (serverMachine g).init s) (h : (serverMachine g).Run s tr t)
    (halive : Meets (fun _ l => ∀ order, l ≠ .destroy order) tr)
    (haccepts : t.conns.length < 2 ^ 31) (honce : ∀ i, t.count .closed i ≤ 1) :
    LifeCycle g t := by
  obtain rfl : s = .new := hinit
  have hinv : Orderly g t none ∧ t.teardown = .alive :=
    h.keeps (I := fun u => Orderly g u none ∧ u.teardown = .alive)
      (fun hu hl hst => ⟨orderly_step hu.1 hst, alive_step hu.1 hu.2 hl hst⟩) halive
      ⟨orderly_init g, rfl⟩
  exact hinv.1.lifeCycle hinv.2 haccepts honce

/-- A server without io loops, at 127.0.0.1:80. -/
def oneLoop : ServerConfig := ⟨[], ⟨(127, 0, 0, 1), 80⟩, 0, false, false⟩

/-- The same with one io loop. -/
def oneThread : ServerConfig := { oneLoop with numLoops := 1 }

theorem free_of_alive {s : TcpServer} (L : LoopId) (h : s.teardown = .alive) : s.Free L :=
  fun _ rest hrest => by simp [h] at hrest

theorem runs_of_alive {s : TcpServer} (g : ServerConfig) (L : LoopId) (h : s.teardown = .alive) :
    s.Runs g L := fun _ hgone => by simp [h] at hgone

/-- The loop of a connection handles its hang-up. -/
theorem step_handleClose {g : ServerConfig} {s : TcpServer} {L : LoopId} {i : Nat} {x : ServerConn}
    (hx : s.conns[i]? = some x) (hL : x.loop = L) (ht : s.teardown = .alive)
    (hb : s.batch L = none) (hr : x.conn.channel.registered = true) :
    TcpServer.Step g s (.event i .handleClose)
      ((s.record L .event i).runConn L i .handleClose) := by
  subst hL
  exact .event hx (free_of_alive _ ht) hb hr trivial trivial (runs_of_alive g _ ht)

/-- A server with one io loop, which has both connections it has accepted: the peer of the first has
closed it, and it has gone through the queues of the two loops. -/
theorem server_life_cycle_oneThread : ∃ t, (serverMachine oneThread).Reachable t ∧
    t.conns.length = 2 ∧ t.count .established 1 = 1 ∧ t.count .destroyed 0 = 1 ∧
    LifeCycle oneThread t := by
  have hinit : (serverMachine oneThread).init .new := rfl
  have haccept := ((Machine.Run.nil (M := serverMachine oneThread) (s := .new)).snoc
    (.accept rfl rfl)).snoc (.accept rfl rfl)
  have hestablish := (((haccept.snoc
    (.swap (L := .io 0) (free_of_alive _ rfl) rfl (runs_of_alive _ _ rfl))).snoc
    (.run (L := .io 0) (free_of_alive _ rfl) rfl (runs_of_alive _ _ rfl))).snoc
    (.run (L := .io 0) (free_of_alive _ rfl) rfl (runs_of_alive _ _ rfl))).snoc
    (.done (L := .io 0) (free_of_alive _ rfl) rfl (runs_of_alive _ _ rfl))
  have hclose := hestablish.snoc (step_handleClose (i := 0) rfl rfl rfl rfl rfl)
  have hremove := (hclose.snoc
    (.swap (L := .base) (free_of_alive _ rfl) rfl (runs_of_alive _ _ rfl))).snoc
    (.run (L := .base) (free_of_alive _ rfl) rfl (runs_of_alive _ _ rfl))
  have hdestroy := (hremove.snoc
    (.swap (L := .io 0) (free_of_alive _ rfl) rfl (runs_of_alive _ _ rfl))).snoc
    (.run (L := .io 0) (free_of_alive _ rfl) rfl (runs_of_alive _ _ rfl))
  refine ⟨_, ⟨_, _, hinit, hdestroy⟩, rfl, rfl, rfl, server_life_cycle hinit hdestroy ?_ ?_ ?_⟩
  · simp [Meets]
  · decide
  · intro i
    let log : List LogEntry := [⟨.established, 0, .io 0, true, false⟩,
      ⟨.established, 1, .io 0, true, false⟩, ⟨.event, 0, .io 0, false, false⟩,
      ⟨.closed, 0, .io 0, false, false⟩, ⟨.removed, 0, .base, true, false⟩,
      ⟨.destroyed, 0, .io 0, true, false⟩]
    change log.countP (fun e => e.action = .closed ∧ e.conn = i) ≤ 1
    by_cases hi : 0 = i <;> simp [log, hi]

end Reactor.Net
