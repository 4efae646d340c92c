import Reactor.Net.RoundRobin

/-!
# Net — the life of a connection

What the loops of a server do to one of its connections, whatever they do to the others: it is
established once, then its loop handles its events and its clients call, it is closed, and at last
`connectDestroyed` takes its channel out of the poller.  `Life` is what a server's state says of one
connection, and every step of the server is a step of the connection's life, or none.

* `Life.Sound`: what holds all along, unless a client stores `kDisconnecting` in a connection that
  has been closed.
* `step_life`: the simulation.
* `run_sound`: so it holds of every connection in every run.
-/

namespace Reactor.Net
open Reactor.Lib

/-- A connection, how often its `connectEstablished` waits in its loop, and how often things have
been done to it. -/
structure Life where
  conn : Conn
  starting : Nat
  established : Nat
  closed : Nat
  destroyed : Nat

/-- What is done to a connection from `newConnection` to `connectDestroyed`, by whoever does it. -/
inductive LifeStep where
  | establish
  | run (l : ConnStep)
  | storeDisconnecting
  | destroy
  deriving DecidableEq

namespace Life

/-- An entry of the log about the connection. -/
def note (v : Life) (a : Action) : Life :=
  { v with
    established := v.established + if a = .established then 1 else 0
    closed := v.closed + if a = .closed then 1 else 0
    destroyed := v.destroyed + if a = .destroyed then 1 else 0 }

/-- A step of the connection, with what is logged of it. -/
def ran (v : Life) (l : ConnStep) : Life :=
  { v with
    conn := l.run v.conn
    closed := v.closed + if l.Closes v.conn then 1 else 0 }

/-- The steps: events come to a channel the poller knows, calls to a connection the client has. -/
inductive Step : Life → LifeStep → Life → Prop where
  | establish {v : Life} (h : 0 < v.starting) :
      Step v .establish { v with
        conn := v.conn.connectEstablished
        starting := v.starting - 1
        established := v.established + 1 }
  /-- An event, a client's call, or `forceCloseInLoop`. -/
  | run {v : Life} {l : ConnStep}
      (hl : TcpServer.IsEvent l ∧ v.conn.channel.registered = true ∨
        TcpServer.IsCall l ∧ v.conn.state ≠ .kConnecting ∨ l = .forceCloseInLoop)
      (hp : l.Possible v.conn) :
      Step v (.run l) (v.ran l)
  | storeDisconnecting {v : Life} (h : v.conn.state ≠ .kConnecting) :
      Step v .storeDisconnecting { v with conn := v.conn.setState .kDisconnecting }
  | destroy {v : Life} (h : 0 < v.closed) :
      Step v .destroy { v with
        conn := v.conn.connectDestroyed
        destroyed := v.destroyed + 1 }

/-- A connection is established once; before, it is not in the poller.  Once closed it stays
disconnected, and what is destroyed has been closed and is not in the poller any more. -/
structure Sound (v : Life) : Prop where
  once : v.starting + v.established = 1
  untouched : v.established = 0 →
    v.conn.state = .kConnecting ∧ v.conn.channel.registered = false
  shut : 0 < v.closed → v.established = 1 ∧ v.conn.state = .kDisconnected
  gone : 0 < v.destroyed → 0 < v.closed ∧ v.conn.channel.registered = false

end Life

/-! ### What closes, and what a closed connection does -/

/-- A step that closes leaves the connection disconnected. -/
theorem ConnStep.Closes.state_run {c : Conn} {l : ConnStep} (h : l.Closes c) :
    (l.run c).state = .kDisconnected := by
  cases l with
  | handleClose => rfl
  | handleRead r =>
    rw [show r = .data [] from h]
    rfl
  | forceCloseInLoop =>
    rw [ConnStep.run, Conn.forceCloseInLoop, if_pos (show c.state = .kConnected ∨ _ from h)]
    rfl
  | _ => exact h.elim

/-- A closed connection stays closed. -/
theorem ConnStep.disconnected_run {c : Conn} {l : ConnStep}
    (hl : TcpServer.IsEvent l ∨ TcpServer.IsCall l ∨ l = .forceCloseInLoop)
    (h : c.state = .kDisconnected) : (l.run c).state = .kDisconnected := by
  cases l with
  | handleRead r =>
    rcases handleRead_cases c r with ⟨-, heq⟩ | ⟨-, heq⟩ | ⟨-, heq, -⟩
    · rw [ConnStep.run, heq, h]
    · rw [ConnStep.run, heq]
      rfl
    · rw [ConnStep.run, heq, h]
  | handleWrite r => rw [ConnStep.run, Conn.handleWrite_state, h]
  | handleClose => rfl
  | sendInLoop data r => rw [ConnStep.run, (c.sendInLoop_frame data r).1, h]
  | shutdown => simp [ConnStep.run, Conn.shutdown, h]
  | shutdownInLoop => rw [ConnStep.run, Conn.shutdownInLoop_eq, h]
  | forceCloseInLoop => simp [ConnStep.run, Conn.forceCloseInLoop, h]
  | _ => simp [TcpServer.IsEvent, TcpServer.IsCall] at hl

/-- No call reaches the channel of a closed connection. -/
theorem ConnStep.channel_run_of_disconnected {c : Conn} {l : ConnStep}
    (hl : TcpServer.IsCall l ∨ l = .forceCloseInLoop) (h : c.state = .kDisconnected) :
    (l.run c).channel = c.channel := by
  cases l with
  | sendInLoop data r => rw [ConnStep.run, Conn.sendInLoop, if_pos h]
  | shutdown => simp [ConnStep.run, Conn.shutdown, h]
  | shutdownInLoop => rw [ConnStep.run, Conn.shutdownInLoop_eq]
  | forceCloseInLoop => simp [ConnStep.run, Conn.forceCloseInLoop, h]
  | _ => simp [TcpServer.IsCall] at hl

namespace Life

variable {v w : Life} {k : LifeStep}

/-- What closes has been established. -/
theorem Sound.established_of_closes (h : v.Sound) {l : ConnStep} (hc : l.Closes v.conn)
    (hl : TcpServer.IsEvent l ∧ v.conn.channel.registered = true ∨
      TcpServer.IsCall l ∧ v.conn.state ≠ .kConnecting ∨ l = .forceCloseInLoop) :
    v.established = 1 := by
  have honce := h.once
  by_contra hne
  obtain ⟨hstate, hreg⟩ := h.untouched (by omega)
  rcases hl with ⟨-, hr⟩ | ⟨-, hs⟩ | rfl
  · rw [hreg] at hr
    cases hr
  · exact hs hstate
  · simp [ConnStep.Closes, hstate] at hc

/-- **Every step keeps it**, but a `kDisconnecting` stored after the close. -/
theorem Step.sound (h : v.Sound) (hs : Step v k w)
    (hk : k = .storeDisconnecting → v.closed = 0) : w.Sound := by
  have honce := h.once
  cases hs with
  | establish hstart =>
    have hest : v.established = 0 := by omega
    have hclosed : ¬ 0 < v.closed := fun hc => by
      have := (h.shut hc).1
      omega
    have hgone : ¬ 0 < v.destroyed := fun hd => hclosed (h.gone hd).1
    exact ⟨by dsimp only; omega, fun h0 => by dsimp only at h0; omega,
      fun hc => absurd hc hclosed, fun hd => absurd hd hgone⟩
  | @run l hl hp =>
    have hkind : TcpServer.IsEvent l ∨ TcpServer.IsCall l ∨ l = .forceCloseInLoop :=
      hl.imp And.left (Or.imp_left And.left)
    refine ⟨h.once, fun h0 => ?_, fun hc => ?_, fun hd => ?_⟩
    · obtain ⟨hstate, hreg⟩ := h.untouched h0
      rcases hl with ⟨-, hr⟩ | ⟨-, hs⟩ | rfl
      · rw [hreg] at hr
        cases hr
      · exact absurd hstate hs
      · simp [ran, ConnStep.run, Conn.forceCloseInLoop, hstate, hreg]
    · by_cases hcl : l.Closes v.conn
      · exact ⟨h.established_of_closes hcl hl, hcl.state_run⟩
      · have hold : 0 < v.closed := by simpa [ran, hcl] using hc
        exact ⟨(h.shut hold).1, ConnStep.disconnected_run hkind (h.shut hold).2⟩
    · obtain ⟨hclosed, hreg⟩ := h.gone hd
      refine ⟨Nat.lt_of_lt_of_le hclosed (Nat.le_add_right _ _), ?_⟩
      rcases hl with ⟨-, hr⟩ | hl
      · rw [hreg] at hr
        cases hr
      · rw [ran, ConnStep.channel_run_of_disconnected (hl.imp_left And.left) (h.shut hclosed).2,
          hreg]
  | storeDisconnecting hstate =>
    have hclosed := hk rfl
    have hgone : ¬ 0 < v.destroyed := fun hd => by
      have := (h.gone hd).1
      omega
    exact ⟨honce, fun h0 => absurd (h.untouched h0).1 hstate, fun hc => by dsimp only at hc; omega,
      fun hd => absurd hd hgone⟩
  | destroy hclosed =>
    obtain ⟨hest, hstate⟩ := h.shut hclosed
    refine ⟨honce, fun h0 => by dsimp only at h0; omega, fun _ => ⟨hest, ?_⟩,
      fun _ => ⟨hclosed, rfl⟩⟩
    simp [Conn.connectDestroyed, hstate]

end Life

/-! ### The simulation -/

/-- What a step of the server is in the life of a connection, if it is one. -/
def ServerStep.Does (s : TcpServer) (i : Nat) : ServerStep → LifeStep → Prop
  | .event j l, .run l' | .call j l, .run l' => j = i ∧ l = l'
  | .run _, .run l => l = .forceCloseInLoop
  | .run _, .establish => True
  | .run L, .destroy => s.loopOf i = some L
  | .storeDisconnecting j, .storeDisconnecting => j = i
  | _, _ => False

theorem ServerStep.Does.storeDisconnecting {s : TcpServer} {i : Nat} {l : ServerStep}
    (h : l.Does s i .storeDisconnecting) : l = .storeDisconnecting i := by
  cases l with
  | storeDisconnecting j => exact congrArg _ h
  | _ => exact h.elim

namespace TcpServer

variable {g : ServerConfig} {s t : TcpServer} {L : LoopId} {i j : Nat} {x : ServerConn}
  {v : Life} {a : Action} {f : ServerFunctor}

/-- What the state says of a connection. -/
def life (s : TcpServer) (i : Nat) : Option Life := (s.conns[i]?).map fun x =>
  { conn := x.conn
    starting := (s.waiting x.loop).count (.connectEstablished i)
    established := s.count .established i
    closed := s.count .closed i
    destroyed := s.count .destroyed i }

theorem life_congr (hconns : t.conns = s.conns) (hlog : t.log = s.log)
    (hwaiting : ∀ L, t.waiting L = s.waiting L) (i : Nat) : t.life i = s.life i := by
  simp only [life, hconns, hwaiting, count_congr hlog]

/-- An entry of the log is noted in the life it is about. -/
theorem life_record (s : TcpServer) (L : LoopId) (a : Action) (j i : Nat) :
    (s.record L a j).life i = (s.life i).map fun v => if j = i then v.note a else v := by
  simp only [life, Option.map_map]
  congr 1
  funext x
  by_cases hij : j = i <;> simp [Life.note, hij]

/-- A functor that establishes nothing makes no difference. -/
theorem life_queueInLoop (s : TcpServer) (L : LoopId) (hf : f ≠ .connectEstablished i) :
    (s.queueInLoop L f).life i = s.life i := by
  have hcount : ∀ L', ((s.queueInLoop L f).waiting L').count (.connectEstablished i) =
      (s.waiting L').count (.connectEstablished i) := fun L' => by
    rw [waiting_queueInLoop, List.count_append]
    split <;> simp [hf]
  simp only [life, hcount]
  rfl

/-- A connection changes in its own life only. -/
theorem life_setConn (s : TcpServer) (j i : Nat) (c : Conn) :
    (s.setConn j c).life i = (s.life i).map fun v => if j = i then { v with conn := c } else v := by
  rw [life, getElem?_setConn, life]
  split
  · simp only [Option.map_map]
    rfl
  · simp only [Option.map_map]
    rfl

/-- A removal does nothing to the connection but queue its `connectDestroyed`. -/
theorem life_removeConnectionInLoop (hx : s.conns[j]? = some x) (i : Nat) :
    (s.removeConnectionInLoop j).life i = s.life i := by
  rw [removeConnectionInLoop_eq hx, life_queueInLoop _ _ (by simp)]
  refine (life_record s .base .removed j i).trans ?_
  cases h : s.life i with
  | none => rfl
  | some v => simp [Life.note]

/-- `removeConnection` is bookkeeping of the server. -/
theorem life_removeConnection (hx : s.conns[j]? = some x) (L : LoopId) (i : Nat) :
    (s.removeConnection L j).life i = s.life i := by
  rw [removeConnection]
  split
  · exact life_removeConnectionInLoop hx i
  · exact life_queueInLoop _ _ (by simp)

/-- The life of the connection is that of the object. -/
theorem conn_of_life (hx : s.conns[i]? = some x) (hv : s.life i = some v) : v.conn = x.conn := by
  rw [life, hx] at hv
  exact congrArg Life.conn (Option.some.inj hv).symm

/-- What is set in a connection and computed from it. -/
theorem life_setConn_run (hx : s.conns[j]? = some x) (run : Conn → Conn) (i : Nat) :
    (s.setConn j (run x.conn)).life i =
      (s.life i).map fun v => if j = i then { v with conn := run v.conn } else v := by
  rw [life_setConn]
  cases hv : s.life i with
  | none => rfl
  | some v =>
    simp only [Option.map_some]
    split
    · next hij =>
      subst hij
      rw [conn_of_life hx hv]
    · rfl

/-- A step of a connection is in its own life only. -/
theorem life_runConn (hx : s.conns[j]? = some x) (L : LoopId) (l : ConnStep) (i : Nat) :
    (s.runConn L j l).life i = (s.life i).map fun v => if j = i then v.ran l else v := by
  have hset := life_setConn_run hx l.run i
  rw [runConn_eq hx]
  split
  · next hc =>
    obtain ⟨y, hy, -⟩ : ∃ y, (s.setConn j (l.run x.conn)).conns[j]? = some y ∧ y.loop = x.loop :=
      loopOf_some (by rw [loopOf_setConn, loopOf_eq hx])
    rw [life_removeConnection (s := (s.setConn j (l.run x.conn)).record L .closed j) hy,
      life_record, hset, Option.map_map]
    cases hv : s.life i with
    | none => rfl
    | some v =>
      by_cases hij : j = i
      · subst hij
        rw [← conn_of_life hx hv] at hc
        simp [Life.note, Life.ran, hc]
      · simp [hij]
  · next hc =>
    rw [hset]
    cases hv : s.life i with
    | none => rfl
    | some v =>
      by_cases hij : j = i
      · subst hij
        rw [← conn_of_life hx hv] at hc
        simp [Life.ran, hc]
      · simp [hij]

/-- `connectEstablished`, as a step of the life. -/
theorem life_connectEstablished (hx : s.conns[j]? = some x) (L : LoopId) (i : Nat) :
    (s.connectEstablished L j).life i = (s.life i).map fun v => if j = i then
      { v.note .established with conn := v.conn.connectEstablished } else v := by
  rw [connectEstablished_eq hx,
    life_setConn_run (s := s.record L .established j) hx Conn.connectEstablished, life_record,
    Option.map_map]
  congr 1
  funext v
  by_cases hij : j = i <;> simp [hij, Life.note]

/-- `connectDestroyed`, as a step of the life. -/
theorem life_connectDestroyed (hx : s.conns[j]? = some x) (L : LoopId) (i : Nat) :
    (s.connectDestroyed L j).life i = (s.life i).map fun v => if j = i then
      { v.note .destroyed with conn := v.conn.connectDestroyed } else v := by
  rw [connectDestroyed_eq hx,
    life_setConn_run (s := s.record L .destroyed j) hx Conn.connectDestroyed, life_record,
    Option.map_map]
  congr 1
  funext v
  by_cases hij : j = i <;> simp [hij, Life.note]

/-- Taking a functor in hand. -/
theorem life_take {rest : List ServerFunctor} (h : Booked s none)
    (hb : s.batch L = some (f :: rest)) (i : Nat) :
    TcpServer.life { s with batch := Function.update s.batch L (some rest) } i =
      (s.life i).map fun v => { v with
        starting := v.starting - if f = .connectEstablished i then 1 else 0 } := by
  simp only [life, Option.map_map]
  cases hx : s.conns[i]? with
  | none => rfl
  | some x =>
    have hcount : ((TcpServer.waiting
          { s with batch := Function.update s.batch L (some rest) } x.loop).count
            (.connectEstablished i)) =
        (s.waiting x.loop).count (.connectEstablished i) -
          if f = .connectEstablished i then 1 else 0 := by
      by_cases hL : x.loop = L
      · subst hL
        by_cases hf : f = .connectEstablished i <;> simp [waiting, hb, hf]
      · -- a functor of the connection is in its own loop
        have hf : f ≠ .connectEstablished i := by
          rintro rfl
          have hhome := (h.take hb).hand_homed
          rw [home, loopOf, hx] at hhome
          exact hL (Option.some.inj hhome)
        simp [waiting, Function.update_of_ne hL, hf]
    simp only [Option.map_some, Function.comp_apply, hcount]
    rfl

/-- A connection accepted leaves the lives of the others alone. -/
theorem life_newConnection (g : ServerConfig) (hi : i < s.conns.length) :
    (s.newConnection g).life i = s.life i := by
  obtain ⟨L, n, c, -, -, heq⟩ := s.newConnection_eq g
  have hins : ∀ id name, (s.insert L n id name c).life i = s.life i := fun id name => by
    have hx := List.getElem?_eq_getElem hi
    rw [life, getElem?_insert_left hx, life, hx]
    rfl
  have hne : s.conns.length ≠ i := by omega
  rw [heq]
  split
  · obtain ⟨x, hx, -⟩ := loopOf_some (loopOf_insert_self :
      (s.insert L n (s.nextConnId + 1) (connName g s.nextConnId) c).loopOf _ = _)
    rw [life_connectEstablished hx, hins]
    simp [hne]
  · rw [life_queueInLoop _ _ (by simp [hne]), hins]

/-- A connection just accepted is sound, established already or about to be. -/
theorem sound_newConnection (h : Booked s none) (g : ServerConfig) :
    ∃ v, (s.newConnection g).life s.conns.length = some v ∧ v.Sound := by
  obtain ⟨L, n, c, hstate, hreg, heq⟩ := s.newConnection_eq g
  have hzero : ∀ a, s.count a s.conns.length = 0 := fun a => h.count_eq_zero a s.loopOf_length
  have hnone : (s.waiting L).count (.connectEstablished s.conns.length) = 0 := by
    by_contra hne
    have hhome := h.homed (L := L) (f := .connectEstablished s.conns.length)
      (by rw [owed]; omega)
    rw [home, loopOf_length] at hhome
    cases hhome
  let u : TcpServer := s.insert L n (s.nextConnId + 1) (connName g s.nextConnId) c
  have hx : u.conns[s.conns.length]? = some ⟨L, connName g s.nextConnId, c⟩ := by
    simp [u, TcpServer.insert]
  have hcounts : ∀ a, u.count a s.conns.length = 0 := hzero
  rw [heq]
  split
  · -- established at once
    have hlife : u.life s.conns.length = some ⟨c, 0, 0, 0, 0⟩ := by
      rw [life, hx]
      simp only [Option.map_some, hcounts]
      rw [show (u.waiting L).count (.connectEstablished s.conns.length) = 0 from hnone]
    refine ⟨_, (life_connectEstablished hx .base s.conns.length).trans
      (congrArg _ hlife), ?_⟩
    constructor <;> simp [Life.note]
  · refine ⟨⟨c, 1, 0, 0, 0⟩, ?_, ?_⟩
    · have hx' : (u.queueInLoop L (.connectEstablished s.conns.length)).conns[s.conns.length]? =
          some ⟨L, connName g s.nextConnId, c⟩ := hx
      have hone : ((u.queueInLoop L (.connectEstablished s.conns.length)).waiting L).count
          (.connectEstablished s.conns.length) = 1 := by
        rw [waiting_queueInLoop, if_pos rfl, List.count_append]
        change (s.waiting L).count _ + _ = 1
        rw [hnone]
        simp
      change (u.queueInLoop L (.connectEstablished s.conns.length)).life s.conns.length = _
      rw [life, hx']
      have hcounts' : ∀ a, (u.queueInLoop L (.connectEstablished s.conns.length)).count a
          s.conns.length = 0 := hzero
      simp only [Option.map_some, hone, hcounts']
    · constructor <;> simp [hstate, hreg]

/-- What the functor in hand is to a connection, taken from the batch of its loop. -/
theorem life_runFunctor {rest : List ServerFunctor} (h : Orderly g s none)
    (ht : s.teardown = .alive) (hb : s.batch L = some (f :: rest)) (hv : s.life i = some v) :
    ∃ w, (TcpServer.runFunctor { s with batch := Function.update s.batch L (some rest) } L f).life i
        = some w ∧
      (w = v ∨ ∃ k, Life.Step v k w ∧ (ServerStep.run L).Does s i k) := by
  let u : TcpServer := { s with batch := Function.update s.batch L (some rest) }
  have hhome : s.home f = some L := (h.toBooked.take hb).hand_homed
  have hlife : u.life i = some { v with
      starting := v.starting - if f = .connectEstablished i then 1 else 0 } := by
    rw [life_take h.toBooked hb, hv]
    rfl
  cases f with
  | connectEstablished j =>
    obtain ⟨x, hx, hxL⟩ := loopOf_some hhome
    refine ⟨_, (life_connectEstablished (s := u) hx L i).trans (congrArg _ hlife), ?_⟩
    by_cases hij : j = i
    · subst hij
      refine .inr ⟨.establish, ?_, trivial⟩
      have hpos : 0 < v.starting := by
        rw [life, hx] at hv
        cases hv
        exact List.count_pos_iff.mpr (by simp [waiting, hxL, hb])
      simpa [Life.note] using Life.Step.establish hpos
    · simp [hij]
  | forceCloseInLoop j =>
    obtain ⟨x, hx, -⟩ := loopOf_some hhome
    refine ⟨_, (life_runConn (s := u) hx L .forceCloseInLoop i).trans (congrArg _ hlife), ?_⟩
    by_cases hij : j = i
    · subst hij
      refine .inr ⟨.run .forceCloseInLoop, ?_, rfl⟩
      simpa using Life.Step.run (v := v) (.inr (.inr rfl)) trivial
    · simp [hij]
  | removeConnectionInLoop j =>
    obtain ⟨L', hL', -⟩ := Option.map_eq_some_iff.mp hhome
    obtain ⟨x, hx, -⟩ := loopOf_some hL'
    refine ⟨v, (life_removeConnectionInLoop (s := u) hx i).trans ?_, .inl rfl⟩
    simpa using hlife
  | connectDestroyed j =>
    obtain ⟨x, hx, -⟩ := loopOf_some hhome
    refine ⟨_, (life_connectDestroyed (s := u) hx L i).trans (congrArg _ hlife), ?_⟩
    by_cases hij : j = i
    · subst hij
      refine .inr ⟨.destroy, ?_, hhome⟩
      -- it is owed only to what has been removed, and that had been closed
      have hclosed : 0 < v.closed := by
        rw [life, hx] at hv
        cases hv
        have howed : 0 < s.owed none L (.connectDestroyed j) := by
          rw [owed]
          exact Nat.lt_of_lt_of_le (List.count_pos_iff.mpr (by simp [waiting, hb]))
            (Nat.le_add_right _ _)
        have hcloses := h.closes j
        have hdestroys := h.destroys hhome
        rw [h.unswept ht] at hdestroys
        change 0 < s.count .closed j
        omega
      simpa [Life.note] using Life.Step.destroy hclosed
    · simp [hij]

/-- **The simulation.**  A step of a server that is not destroyed is a step in the life of a
connection, or none. -/
theorem step_life {l : ServerStep} (h : Orderly g s none) (ht : s.teardown = .alive)
    (hd : ∀ order, l ≠ .destroy order) (hstep : TcpServer.Step g s l t)
    (hv : s.life i = some v) :
    ∃ w, t.life i = some w ∧
      ((w = v ∧ ∀ l', l ≠ .call i l') ∨ ∃ k, Life.Step v k w ∧ l.Does s i k) := by
  have hset : ∀ {j x} (run : Conn → Conn), s.conns[j]? = some x →
      (s.setConn j (run x.conn)).life i =
        some (if j = i then { v with conn := run v.conn } else v) := fun run hx => by
    rw [life_setConn_run hx, hv]
    rfl
  cases hstep with
  | accept _ hb =>
    have hi : i < s.conns.length := by
      obtain ⟨x, hx, -⟩ := Option.map_eq_some_iff.mp hv
      exact lt_length hx
    exact ⟨v, by rw [life_newConnection g hi, hv], .inl ⟨rfl, by simp⟩⟩
  | @event j x l hx hf hb hr hl hp hg =>
    have hrecord : (s.record x.loop .event j).life i = some v := by
      rw [life_record, hv]
      simp [Life.note]
    refine ⟨if j = i then v.ran l else v, ?_, ?_⟩
    · rw [life_runConn (s := s.record x.loop .event j) hx, hrecord]
      rfl
    · by_cases hij : j = i
      · subst hij
        have hreg : v.conn.channel.registered = true := by rw [conn_of_life hx hv, hr]
        refine .inr ⟨.run l, ?_, rfl, rfl⟩
        simpa using Life.Step.run (.inl ⟨hl, hreg⟩) (by rwa [conn_of_life hx hv])
      · exact .inl ⟨if_neg hij, by simp⟩
  | @call j x l hx hc hl hp =>
    refine ⟨_, hset l.run hx, ?_⟩
    by_cases hij : j = i
    · subst hij
      have hstate : v.conn.state ≠ .kConnecting := by rwa [conn_of_life hx hv]
      refine .inr ⟨.run l, ?_, rfl, rfl⟩
      have hcl : ¬ l.Closes v.conn := by cases l <;> simp_all [IsCall, ConnStep.Closes]
      simpa [Life.ran, hcl] using
        Life.Step.run (.inr (.inl ⟨hl, hstate⟩)) (by rwa [conn_of_life hx hv])
    · exact .inl ⟨if_neg hij, by simp [hij]⟩
  | @storeDisconnecting j x hx hc =>
    refine ⟨_, hset (·.setState .kDisconnecting) hx, ?_⟩
    by_cases hij : j = i
    · subst hij
      have hstate : v.conn.state ≠ .kConnecting := by rwa [conn_of_life hx hv]
      refine .inr ⟨.storeDisconnecting, ?_, rfl⟩
      simpa using Life.Step.storeDisconnecting hstate
    · exact .inl ⟨if_neg hij, by simp⟩
  | queueForceClose hx hc =>
    exact ⟨v, by rw [life_queueInLoop _ _ (by simp), hv], .inl ⟨rfl, by simp⟩⟩
  | @swap L hf hb hg =>
    refine ⟨v, ?_, .inl ⟨rfl, by simp⟩⟩
    rw [← hv]
    refine life_congr (by rfl) (by rfl) (fun L' => ?_) i
    by_cases hL : L' = L
    · subst hL
      simp [waiting, hb]
    · simp [waiting, Function.update_of_ne hL]
  | @run L f rest hf hb hg =>
    obtain ⟨w, hw, hcases⟩ := life_runFunctor h ht hb hv
    exact ⟨w, hw, hcases.imp_left fun heq => ⟨heq, by simp⟩⟩
  | @done L hf hb hg =>
    refine ⟨v, ?_, .inl ⟨rfl, by simp⟩⟩
    rw [← hv]
    refine life_congr (by rfl) (by rfl) (fun L' => ?_) i
    by_cases hL : L' = L
    · subst hL
      simp [waiting, hb]
    · simp [waiting, Function.update_of_ne hL]
  | destroy _ hn ho => exact absurd rfl (hd _)
  | sweep ht' => simp [ht] at ht'
  | finish ht' => simp [ht] at ht'

/-! ### Every run -/

/-- An accepted connection has a life. -/
theorem exists_life (hx : s.conns[i]? = some x) :
    ∃ v, s.life i = some v ∧ v.conn = x.conn ∧ v.closed = s.count .closed i ∧
      v.destroyed = s.count .destroyed i :=
  ⟨_, by rw [life, hx]; rfl, rfl, rfl, rfl⟩

theorem lt_of_life (hv : s.life i = some v) : i < s.conns.length := by
  obtain ⟨x, hx, -⟩ := Option.map_eq_some_iff.mp hv
  exact lt_length hx

/-- A step accepts one connection, or none. -/
theorem step_length {l : ServerStep} (h : TcpServer.Step g s l t) :
    t.conns.length = s.conns.length ∨ l = .accept ∧ t.conns.length = s.conns.length + 1 := by
  by_cases hl : l = .accept
  · subst hl
    cases h with
    | accept ht hb =>
      exact .inr ⟨rfl, by simpa using congrArg List.length (s.placed_newConnection g).1⟩
  · exact .inl (step_placed hl h).length

end TcpServer

/-- `kDisconnecting` is not stored in a connection that has been closed. -/
def ServerStep.Timely (s : TcpServer) (l : ServerStep) : Prop :=
  ∀ i, l = .storeDisconnecting i → s.count .closed i = 0

/-- The server is alive, its books are kept, and its connections' lives are sound. -/
structure Lives (g : ServerConfig) (s : TcpServer) : Prop where
  orderly : s.Orderly g none
  alive : s.teardown = .alive
  sound : ∀ {i v}, s.life i = some v → v.Sound

variable {g : ServerConfig} {s t : TcpServer}

theorem lives_init (g : ServerConfig) : Lives g .new :=
  ⟨TcpServer.orderly_init g, rfl, fun hv => by cases hv⟩

/-- Every step of the server is a step of each life, or none. -/
theorem lives_step {l : ServerStep} (h : Lives g s) (hd : ∀ order, l ≠ .destroy order)
    (hl : l.Timely s) (hstep : TcpServer.Step g s l t) : Lives g t := by
  refine ⟨TcpServer.orderly_step h.orderly hstep, TcpServer.alive_step h.orderly h.alive hd hstep,
    fun {i w} hw => ?_⟩
  by_cases hi : i < s.conns.length
  · obtain ⟨v, hv, -, hclosed, -⟩ := TcpServer.exists_life (List.getElem?_eq_getElem hi)
    obtain ⟨w', hw', hcases⟩ := TcpServer.step_life h.orderly h.alive hd hstep hv
    obtain rfl : w = w' := Option.some.inj (hw.symm.trans hw')
    rcases hcases with ⟨rfl, -⟩ | ⟨k, hk, hdoes⟩
    · exact h.sound hv
    · refine hk.sound (h.sound hv) ?_
      rintro rfl
      exact hclosed.trans (hl i hdoes.storeDisconnecting)
  · -- it has just been accepted
    have hlt := TcpServer.lt_of_life hw
    rcases TcpServer.step_length hstep with hlen | ⟨rfl, hlen⟩
    · exact absurd (hlen ▸ hlt) hi
    · obtain rfl : i = s.conns.length := by omega
      cases hstep with
      | accept ht hb =>
        obtain ⟨v, hv, hsound⟩ := TcpServer.sound_newConnection h.orderly.toBooked g
        obtain rfl : w = v := Option.some.inj (hw.symm.trans hv)
        exact hsound

/-- **Every connection of a living server** has a sound life, in every run. -/
theorem run_lives {tr : List (TcpServer × ServerStep)} (hinit : (serverMachine g).init s)
    (h : (serverMachine g).Run s tr t)
    (halive : Meets (fun _ l => ∀ order, l ≠ .destroy order) tr)
    (htimely : Meets (fun s l => l.Timely s) tr) : Lives g t := by
  obtain rfl : s = .new := hinit
  refine h.keeps (I := Lives g) (C := fun s l => (∀ order, l ≠ .destroy order) ∧ l.Timely s)
    (fun hi hc hstep => lives_step hi hc.1 hc.2 hstep)
    (fun p hp => ⟨halive p hp, htimely p hp⟩) (lives_init g)

end Reactor.Net
