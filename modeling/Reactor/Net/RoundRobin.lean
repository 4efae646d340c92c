import Mathlib.Data.Int.CardIntervalMod
import Reactor.Net.ServerConnections

/-!
# Net — round robin

`getNextLoop` of the pool gives the loops out in turn, so over the life of a server the connections
are spread evenly: whatever else happens, the loops of the pool have got numbers of connections
that differ by one at most.

* `Placed`: no other step moves a connection.
* `round_robin`: where each connection is, and how many each loop has got.
-/

namespace Reactor.Net
open Reactor.Lib

/-- The loop of the connection accepted after `i` others. -/
def ServerConfig.place (g : ServerConfig) (i : Nat) : LoopId :=
  if g.numLoops = 0 then .base else .io (i % g.numLoops)

namespace TcpServer

/-- The connections a loop has got. -/
def load (s : TcpServer) (L : LoopId) : Nat := s.conns.countP fun x => x.loop = L

/-- The connections keep their loops, and the pool its place in the turn. -/
structure Placed (s t : TcpServer) : Prop where
  loops : t.conns.map ServerConn.loop = s.conns.map ServerConn.loop
  next : t.next = s.next

variable {g : ServerConfig} {s t : TcpServer}

theorem Placed.refl (s : TcpServer) : Placed s s := ⟨rfl, rfl⟩

theorem Placed.trans {u : TcpServer} (h : Placed s t) (h' : Placed t u) : Placed s u :=
  ⟨h'.loops.trans h.loops, h'.next.trans h.next⟩

theorem Placed.length (h : Placed s t) : t.conns.length = s.conns.length := by
  simpa using congrArg List.length h.loops

theorem placed_record (s : TcpServer) (L : LoopId) (a : Action) (i : Nat) :
    Placed s (s.record L a i) := ⟨rfl, rfl⟩

theorem placed_setConn (s : TcpServer) (i : Nat) (c : Conn) : Placed s (s.setConn i c) := by
  refine ⟨List.ext_getElem? fun j => ?_, rfl⟩
  simpa only [loopOf, List.getElem?_map] using congrFun (loopOf_setConn s i c) j

theorem placed_removeConnectionInLoop (s : TcpServer) (i : Nat) :
    Placed s (s.removeConnectionInLoop i) := by
  rw [removeConnectionInLoop]
  split <;> exact ⟨rfl, rfl⟩

/-- A step of a connection leaves it in its loop. -/
theorem placed_runConn (s : TcpServer) (L : LoopId) (i : Nat) (l : ConnStep) :
    Placed s (s.runConn L i l) := by
  rw [runConn]
  split
  · exact .refl s
  · next x hx =>
    have hset := placed_setConn s i (l.run x.conn)
    dsimp only
    split
    · rw [removeConnection]
      split
      · exact (hset.trans (placed_record _ L .closed i)).trans
          (placed_removeConnectionInLoop _ i)
      · exact hset.trans ⟨rfl, rfl⟩
    · exact hset

theorem placed_connectEstablished (s : TcpServer) (L : LoopId) (i : Nat) :
    Placed s (s.connectEstablished L i) :=
  (s.placed_record L .established i).trans (placed_runConn _ L i .connectEstablished)

theorem placed_connectDestroyed (s : TcpServer) (L : LoopId) (i : Nat) :
    Placed s (s.connectDestroyed L i) :=
  (s.placed_record L .destroyed i).trans (placed_runConn _ L i .connectDestroyed)

theorem placed_runFunctor (s : TcpServer) (L : LoopId) (f : ServerFunctor) :
    Placed s (s.runFunctor L f) := by
  cases f with
  | connectEstablished i => exact s.placed_connectEstablished L i
  | forceCloseInLoop i => exact s.placed_runConn L i .forceCloseInLoop
  | removeConnectionInLoop i => exact s.placed_removeConnectionInLoop i
  | connectDestroyed i => exact s.placed_connectDestroyed L i

theorem placed_sweep (s : TcpServer) (i : Nat) : Placed s (s.sweep i) := by
  rw [sweep]
  split
  · exact .refl s
  · dsimp only
    split
    · exact (s.placed_record .base .swept i).trans (placed_connectDestroyed _ .base i)
    · exact ⟨rfl, rfl⟩

/-- **Only `accept` places a connection.** -/
theorem step_placed {l : ServerStep} (hl : l ≠ .accept) (hstep : TcpServer.Step g s l t) :
    Placed s t := by
  cases hstep with
  | accept ht hb => exact absurd rfl hl
  | @event i x l hx =>
    exact (s.placed_record x.loop .event i).trans (placed_runConn _ x.loop i l)
  | @call i x l hx => exact s.placed_setConn i (l.run x.conn)
  | @storeDisconnecting i x hx => exact s.placed_setConn i (x.conn.setState .kDisconnecting)
  | queueForceClose hx hc => exact ⟨rfl, rfl⟩
  | swap hf hb hg => exact ⟨rfl, rfl⟩
  | @run L f rest hf hb hg =>
    have htake : Placed s { s with batch := Function.update s.batch L (some rest) } := ⟨rfl, rfl⟩
    exact htake.trans (placed_runFunctor _ L f)
  | done hf hb hg => exact ⟨rfl, rfl⟩
  | destroy ht hn ho => exact ⟨rfl, rfl⟩
  | @sweep i rest ht => exact ⟨(s.placed_sweep i).loops, (s.placed_sweep i).next⟩
  | finish ht hg => exact ⟨rfl, rfl⟩

/-- It places it where the pool says. -/
theorem placed_newConnection (s : TcpServer) (g : ServerConfig) :
    (s.newConnection g).conns.map ServerConn.loop =
        s.conns.map ServerConn.loop ++ [(s.getNextLoop g).1] ∧
      (s.newConnection g).next = (s.getNextLoop g).2 := by
  let t := s.insert (s.getNextLoop g).1 (s.getNextLoop g).2 (s.nextConnId + 1)
    (connName g s.nextConnId) (.new (64 * 1024 * 1024) g.writeCompleteCallback false)
  have hplaced : Placed t (s.newConnection g) := by
    change Placed t (if (s.getNextLoop g).1 = .base then t.connectEstablished .base s.conns.length
      else t.queueInLoop (s.getNextLoop g).1 (.connectEstablished s.conns.length))
    split
    · exact t.placed_connectEstablished .base s.conns.length
    · exact ⟨rfl, rfl⟩
  exact ⟨by rw [hplaced.loops]; simp [t, TcpServer.insert], hplaced.next⟩

/-- A connection stays in its loop. -/
theorem step_loopOf {l : ServerStep} {i : Nat} {L : LoopId} (hL : s.loopOf i = some L)
    (hstep : TcpServer.Step g s l t) : t.loopOf i = some L := by
  have hget : ∀ u : TcpServer, u.loopOf i = (u.conns.map ServerConn.loop)[i]? := fun u =>
    (List.getElem?_map ..).symm
  rw [hget] at hL ⊢
  by_cases hl : l = .accept
  · subst hl
    cases hstep with
    | accept ht hb =>
      rw [(s.placed_newConnection g).1,
        List.getElem?_append_left (List.getElem?_eq_some_iff.mp hL).1, hL]
  · rw [(step_placed hl hstep).loops, hL]

/-- The turn the pool is at, and where the connections are. -/
structure InTurn (g : ServerConfig) (s : TcpServer) : Prop where
  next : s.next = if g.numLoops = 0 then 0 else s.conns.length % g.numLoops
  loops : s.conns.map ServerConn.loop = (List.range s.conns.length).map g.place

theorem Placed.inTurn (h : Placed s t) (hs : InTurn g s) : InTurn g t :=
  ⟨by rw [h.next, h.length, hs.next], by rw [h.loops, h.length, hs.loops]⟩

/-- A new connection takes the loop whose turn it is. -/
theorem inTurn_newConnection (h : InTurn g s) : InTurn g (s.newConnection g) := by
  obtain ⟨hloops, hnext⟩ := s.placed_newConnection g
  have hlen : (s.newConnection g).conns.length = s.conns.length + 1 := by
    simpa using congrArg List.length hloops
  have hfirst : (s.getNextLoop g).1 = g.place s.conns.length := by
    rw [getNextLoop, ServerConfig.place, h.next]
    split <;> rfl
  refine ⟨?_, ?_⟩
  · rw [hnext, hlen, getNextLoop, h.next]
    split
    · rfl
    · next hn =>
      -- the next place in the turn
      have hlt := Nat.mod_lt s.conns.length (Nat.pos_of_ne_zero hn)
      rw [← Nat.mod_add_mod]
      dsimp only
      split
      · next hwrap => rw [show s.conns.length % g.numLoops + 1 = g.numLoops by omega, Nat.mod_self]
      · next hwrap => exact (Nat.mod_eq_of_lt (Nat.not_le.mp hwrap)).symm
  · rw [hloops, hlen, h.loops, hfirst, List.range_succ, List.map_append]
    rfl

/-- Every step keeps the turn. -/
theorem inTurn_step {l : ServerStep} (h : InTurn g s) (hstep : TcpServer.Step g s l t) :
    InTurn g t := by
  by_cases hl : l = .accept
  · subst hl
    cases hstep with
    | accept ht hb => exact inTurn_newConnection h
  · exact (step_placed hl hstep).inTurn h

/-- How many of the first `m` connections a loop of the pool has got. -/
theorem countP_place (m : Nat) {k : Nat} (hk : k < g.numLoops) :
    (List.range m).countP (fun i => g.place i = .io k) =
      m / g.numLoops + if k < m % g.numLoops then 1 else 0 := by
  have hn : g.numLoops ≠ 0 := by omega
  have hcount : (List.range m).countP (fun i => g.place i = .io k) =
      m.count (· ≡ k [MOD g.numLoops]) := by
    rw [Nat.count]
    refine List.countP_congr fun i _ => ?_
    simp [ServerConfig.place, hn, Nat.ModEq, Nat.mod_eq_of_lt hk]
  rw [hcount, Nat.count_modEq_card m (by omega), Nat.mod_eq_of_lt hk]

theorem InTurn.load (h : InTurn g s) {k : Nat} (hk : k < g.numLoops) :
    s.load (.io k) = s.conns.length / g.numLoops +
      if k < s.conns.length % g.numLoops then 1 else 0 := by
  have hmap : s.load (.io k) = (s.conns.map ServerConn.loop).countP (· = .io k) := by
    rw [List.countP_map]
    rfl
  rw [hmap, h.loops, List.countP_map, ← countP_place s.conns.length hk]
  rfl

theorem InTurn.loop_eq (h : InTurn g s) {i : Nat} {x : ServerConn} (hx : s.conns[i]? = some x) :
    x.loop = g.place i := by
  have hget := congrArg (·[i]?) h.loops
  simp only [List.getElem?_map, hx, List.getElem?_range (lt_length hx), Option.map_some] at hget
  exact Option.some.inj hget

end TcpServer

open TcpServer

/-- **Round robin.**  In every reachable state of a server, while it is alive and after, the
connection accepted after `i` others is in the loop `i` modulo the number of loops, or in the base
loop if the pool has none; and of `m` connections each loop of the pool has got `m` divided by the
number of loops, and the first `m` modulo that number one more. -/
theorem round_robin {g : ServerConfig} {s : TcpServer} (h : (serverMachine g).Reachable s) :
    (∀ (i : Nat) (x : ServerConn), s.conns[i]? = some x →
      x.loop = if g.numLoops = 0 then .base else .io (i % g.numLoops)) ∧
    ∀ k < g.numLoops, s.load (.io k) = s.conns.length / g.numLoops +
      if k < s.conns.length % g.numLoops then 1 else 0 := by
  have hturn : InTurn g s := by
    refine h.keeps (I := InTurn g) ?_ fun hi hstep => inTurn_step hi hstep
    rintro s rfl
    exact ⟨by simp [TcpServer.new], rfl⟩
  exact ⟨fun i x hx => hturn.loop_eq hx, fun k hk => hturn.load hk⟩

/-- A server with two loops, at 127.0.0.1:80. -/
def twoLoops : ServerConfig := { oneLoop with numLoops := 2 }

/-- The theorem on three connections and two loops. -/
theorem round_robin_three : ∃ s, (serverMachine twoLoops).Reachable s ∧ s.conns.length = 3 ∧
    s.load (.io 0) = 2 ∧ s.load (.io 1) = 1 := by
  let s₁ := TcpServer.new.newConnection twoLoops
  let s₂ := s₁.newConnection twoLoops
  let s₃ := s₂.newConnection twoLoops
  have h₁ : TcpServer.Step twoLoops .new .accept s₁ := .accept rfl rfl
  have h₂ : TcpServer.Step twoLoops s₁ .accept s₂ := .accept rfl rfl
  have h₃ : TcpServer.Step twoLoops s₂ .accept s₃ := .accept rfl rfl
  have hruns : (serverMachine twoLoops).Run .new _ s₃ :=
    ((Machine.Run.nil.snoc h₁).snoc h₂).snoc h₃
  have hreach : (serverMachine twoLoops).Reachable s₃ := ⟨.new, _, rfl, hruns⟩
  obtain ⟨-, hload⟩ := round_robin hreach
  have hlen : s₃.conns.length = 3 := rfl
  refine ⟨s₃, hreach, hlen, ?_, ?_⟩
  · rw [hload 0 (by decide), hlen]
    rfl
  · rw [hload 1 (by decide), hlen]
    rfl

end Reactor.Net
