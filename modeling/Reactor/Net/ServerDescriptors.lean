import Reactor.Net.ConnectionLife

/-!
# Net — descriptors of a server

The poller of a loop keeps raw pointers to channels, under their descriptors.  A channel lives as
long as its connection, and a descriptor may come back from `accept` once the connection it belonged
to is gone.  What keeps a connection is the map, or a functor that waits in a loop.

* `registered_descriptors`: a channel the poller knows belongs to a connection that is kept, and no
  two of them have one descriptor.
* `dispatch_keeps_channels`: the channels of a loop stay until the loop runs functors, in runs with
  fewer than 2^31 connections in which nobody stores `kDisconnecting` in one that is closed.
-/

namespace Reactor.Net
open Reactor.Lib

/-- The connection a functor is about; it has a share in it. -/
def ServerFunctor.conn : ServerFunctor → Nat
  | .connectEstablished i | .forceCloseInLoop i | .removeConnectionInLoop i
  | .connectDestroyed i => i

/-- The map has a share in the connection, or a functor that has not been run. -/
def TcpServer.Kept (s : TcpServer) (i : Nat) : Prop :=
  (∃ name, s.connections name = some i) ∨ ∃ L, ∃ f ∈ s.waiting L, f.conn = i

/-- `accept` gives a descriptor that no connection still kept has. -/
def ServerStep.Fresh (fd : Nat → Nat) (s : TcpServer) (l : ServerStep) : Prop :=
  l = .accept → ∀ i, s.Kept i → fd i ≠ fd s.conns.length

variable {g : ServerConfig} {s t : TcpServer} {L : LoopId} {i : Nat} {x : ServerConn}

/-! ### What is not destroyed is kept -/

/-- A connection that has not been destroyed is kept. -/
theorem Lives.kept (h : Lives g s) (haccepts : s.conns.length < 2 ^ 31)
    (hx : s.conns[i]? = some x) (hd : s.count .destroyed i = 0) : s.Kept i := by
  by_cases hr : s.count .removed i = 0
  · exact .inl ⟨x.name, h.orderly.holds h.alive haccepts hx hr⟩
  · -- removed, so `connectDestroyed` waits in its loop
    have hdestroys := h.orderly.destroys (TcpServer.loopOf_eq hx)
    rw [h.orderly.unswept h.alive, hd, TcpServer.owed] at hdestroys
    have hpos : 0 < (s.waiting x.loop).count (.connectDestroyed i) := by
      simp only [reduceCtorEq, if_false] at hdestroys
      omega
    exact .inr ⟨x.loop, _, List.count_pos_iff.mp hpos, rfl⟩

/-- What the poller knows has not been destroyed. -/
theorem Lives.not_destroyed (h : Lives g s) (hx : s.conns[i]? = some x)
    (hreg : x.conn.channel.registered = true) : s.count .destroyed i = 0 := by
  obtain ⟨v, hv, hconn, -, hdestroyed⟩ := TcpServer.exists_life hx
  by_contra hne
  have hgone := ((h.sound hv).gone (by omega)).2
  rw [hconn, hreg] at hgone
  cases hgone

theorem Life.Step.destroyed_le {v w : Life} {k : LifeStep} (h : Life.Step v k w) :
    v.destroyed ≤ w.destroyed := by
  cases h with
  | destroy => exact Nat.le_succ _
  | _ => exact Nat.le_refl _

/-- What is destroyed stays so. -/
theorem Lives.destroyed_le {l : ServerStep} (h : Lives g s) (hd : ∀ order, l ≠ .destroy order)
    (hstep : TcpServer.Step g s l t) (hi : i < s.conns.length) :
    s.count .destroyed i ≤ t.count .destroyed i := by
  obtain ⟨v, hv, -, -, hbefore⟩ := TcpServer.exists_life (List.getElem?_eq_getElem hi)
  obtain ⟨w, hw, hcases⟩ := TcpServer.step_life h.orderly h.alive hd hstep hv
  obtain ⟨y, hy, rfl⟩ := Option.map_eq_some_iff.mp hw
  rw [← hbefore]
  rcases hcases with ⟨rfl, -⟩ | ⟨k, hk, -⟩
  · exact Nat.le_refl _
  · exact hk.destroyed_le

/-! ### Descriptors -/

/-- A connection not destroyed shares its descriptor with none accepted after it. -/
def Apart (fd : Nat → Nat) (s : TcpServer) : Prop :=
  ∀ i j, i < j → j < s.conns.length → s.count .destroyed i = 0 → fd i ≠ fd j

/-- A descriptor that is given anew is not that of a channel in a poller. -/
theorem Apart.step {fd : Nat → Nat} {l : ServerStep} (h : Apart fd s) (hs : Lives g s)
    (haccepts : s.conns.length < 2 ^ 31) (hd : ∀ order, l ≠ .destroy order)
    (hfresh : l.Fresh fd s) (hstep : TcpServer.Step g s l t) : Apart fd t := by
  intro i j hij hj hdestroyed
  have hcases := TcpServer.step_length hstep
  have hi : i < s.conns.length := by omega
  have hbefore : s.count .destroyed i = 0 :=
    Nat.le_zero.mp (hdestroyed ▸ hs.destroyed_le hd hstep hi)
  by_cases hlt : j < s.conns.length
  · exact h i j hij hlt hbefore
  · -- the connection just accepted
    rcases hcases with hlen | ⟨hl, hlen⟩
    · omega
    · obtain rfl : j = s.conns.length := by omega
      exact hfresh hl i (hs.kept haccepts (List.getElem?_eq_getElem hi) hbefore)

/-- So no two of these have one descriptor. -/
theorem run_apart {fd : Nat → Nat} {tr : List (TcpServer × ServerStep)}
    (hinit : (serverMachine g).init s) (h : (serverMachine g).Run s tr t)
    (halive : Meets (fun _ l => ∀ order, l ≠ .destroy order) tr)
    (htimely : Meets (fun s l => l.Timely s) tr) (hfresh : Meets (fun s l => l.Fresh fd s) tr)
    (haccepts : t.conns.length < 2 ^ 31) : Lives g t ∧ Apart fd t := by
  obtain rfl : s = .new := hinit
  have hinv : Lives g t ∧ (t.conns.length < 2 ^ 31 → Apart fd t) := by
    refine h.keeps (I := fun u => Lives g u ∧ (u.conns.length < 2 ^ 31 → Apart fd u))
      (C := fun s l => (∀ order, l ≠ .destroy order) ∧ l.Timely s ∧ l.Fresh fd s) ?_
      (fun p hp => ⟨halive p hp, htimely p hp, hfresh p hp⟩)
      ⟨lives_init g, fun _ i j _ hj => absurd hj (by simp [TcpServer.new])⟩
    rintro u l v ⟨hu, hapart⟩ ⟨hd, hl, hf⟩ hstep
    refine ⟨lives_step hu hd hl hstep, fun hlen => ?_⟩
    have hbefore : u.conns.length < 2 ^ 31 := by
      rcases TcpServer.step_length hstep with h | ⟨-, h⟩ <;> omega
    exact (hapart hbefore).step hu hbefore hd hf hstep
  exact ⟨hinv.1, hinv.2 haccepts⟩

/-- **The channels the pollers know.**  In every run in which the server is not destroyed, fewer
than 2^31 connections are accepted and no `kDisconnecting` is stored in a connection that has been
closed: a connection whose channel is in a poller is kept by the map or by a functor that waits; and
if `accept` gives only descriptors that no connection still kept has, no two such connections have
one descriptor, in one loop or in two. -/
theorem registered_descriptors {fd : Nat → Nat} {tr : List (TcpServer × ServerStep)}
    (hinit : (serverMachine g).init s) (h : (serverMachine g).Run s tr t)
    (halive : Meets (fun _ l => ∀ order, l ≠ .destroy order) tr)
    (htimely : Meets (fun s l => l.Timely s) tr) (hfresh : Meets (fun s l => l.Fresh fd s) tr)
    (haccepts : t.conns.length < 2 ^ 31) :
    (∀ (i : Nat) (x : ServerConn), t.conns[i]? = some x → x.conn.channel.registered = true →
      t.Kept i) ∧
    ∀ (i j : Nat) (x y : ServerConn), t.conns[i]? = some x → x.conn.channel.registered = true →
      t.conns[j]? = some y → y.conn.channel.registered = true → fd i = fd j → i = j := by
  obtain ⟨hlives, hapart⟩ := run_apart hinit h halive htimely hfresh haccepts
  refine ⟨fun i x hx hreg => hlives.kept haccepts hx (hlives.not_destroyed hx hreg), ?_⟩
  intro i j x y hx hxr hy hyr heq
  rcases Nat.lt_trichotomy i j with hij | hij | hij
  · exact absurd heq
      (hapart i j hij (TcpServer.lt_length hy) (hlives.not_destroyed hx hxr))
  · exact hij
  · exact absurd heq.symm
      (hapart j i hij (TcpServer.lt_length hx) (hlives.not_destroyed hy hyr))

/-- What is kept has been accepted. -/
theorem Lives.lt_of_kept (h : Lives g s) (hk : s.Kept i) : i < s.conns.length := by
  rcases hk with ⟨name, hname⟩ | ⟨L, f, hf, rfl⟩
  · obtain ⟨⟨x, hx, -⟩, -⟩ := h.orderly.held hname
    exact TcpServer.lt_length hx
  · have howed : 0 < s.owed none L f :=
      Nat.lt_of_lt_of_le (List.count_pos_iff.mpr hf) (Nat.le_add_right _ _)
    have hhome := h.orderly.homed howed
    have hloop : ∃ L', s.loopOf f.conn = some L' := by
      cases f with
      | removeConnectionInLoop i =>
        obtain ⟨L', hL', -⟩ := Option.map_eq_some_iff.mp hhome
        exact ⟨L', hL'⟩
      | _ => exact ⟨L, hhome⟩
    obtain ⟨L', hL'⟩ := hloop
    obtain ⟨x, hx, -⟩ := TcpServer.loopOf_some hL'
    exact TcpServer.lt_length hx

/-- The theorem on two connections of one loop. -/
theorem registered_descriptors_two : ∃ t, (serverMachine oneLoop).Reachable t ∧
    t.conns.length = 2 ∧ t.Kept 0 ∧ t.Kept 1 := by
  let s₁ := TcpServer.new.newConnection oneLoop
  let s₂ := s₁.newConnection oneLoop
  have h₁ : TcpServer.Step oneLoop .new .accept s₁ := .accept rfl rfl
  have h₂ : TcpServer.Step oneLoop s₁ .accept s₂ := .accept rfl rfl
  have hruns : (serverMachine oneLoop).Run .new _ s₂ := (Machine.Run.nil.snoc h₁).snoc h₂
  have hlives₁ : Lives oneLoop s₁ :=
    lives_step (lives_init oneLoop) (by simp) (fun i hi => by cases hi) h₁
  have hfresh : Meets (fun s l => ServerStep.Fresh id s l)
      ([] ++ [(.new, ServerStep.accept)] ++ [(s₁, .accept)]) := by
    intro p hp _ i hk
    rcases List.mem_cons.mp hp with rfl | hp
    · exact Nat.ne_of_lt ((lives_init oneLoop).lt_of_kept hk)
    · rw [List.mem_singleton.mp hp] at hk ⊢
      exact Nat.ne_of_lt (hlives₁.lt_of_kept hk)
  obtain ⟨hkept, -⟩ := registered_descriptors rfl hruns (by simp [Meets])
    (by simp [Meets, ServerStep.Timely]) hfresh (by decide)
  exact ⟨s₂, ⟨.new, _, rfl, hruns⟩, rfl, hkept 0 _ rfl rfl, hkept 1 _ rfl rfl⟩

/-! ### While a loop handles events -/

namespace Conn

variable {c : Conn}

theorem registered_keepRemaining (h : c.channel.registered = true) (data : List Byte)
    (nwrote remaining : Nat) :
    (c.keepRemaining data nwrote remaining).channel.registered = true := by
  obtain ⟨functors, heq⟩ := c.notifyHighWaterMark_eq remaining
  rw [keepRemaining, heq, requestWriting_eq]
  dsimp only
  split
  · exact h
  · rfl

theorem registered_sendInLoop (h : c.channel.registered = true) (data : List Byte)
    (r : WriteResult) : (c.sendInLoop data r).channel.registered = true := by
  have hdirect := (c.directWrite_frame data r).1
  rw [sendInLoop]
  split
  · exact h
  · simp only []
    split <;> split
    · exact registered_keepRemaining (by rw [hdirect, h]) _ _ _
    · rw [hdirect, h]
    · exact registered_keepRemaining h _ _ _
    · exact h

theorem registered_handleWrite (h : c.channel.registered = true) (r : WriteResult) :
    (c.handleWrite r).channel.registered = true := by
  simp only [Conn.handleWrite]
  split
  · cases r with
    | failed errno => exact h
    | wrote n =>
      simp only []
      split
      · split
        · rw [(drained_frame _).2.1]
          rfl
        · exact h
      · exact h
  · exact h

end Conn

/-- Only `connectDestroyed` takes a channel out of the poller. -/
theorem ConnStep.registered_run {c : Conn} {l : ConnStep} (hl : l ≠ .connectDestroyed)
    (h : c.channel.registered = true) : (l.run c).channel.registered = true := by
  cases l with
  | connectEstablished => rfl
  | connectDestroyed => exact absurd rfl hl
  | sendInLoop data r => exact Conn.registered_sendInLoop h data r
  | shutdown =>
    rw [ConnStep.run, Conn.shutdown]
    split
    · rw [Conn.shutdownInLoop_eq]
      exact h
    · exact h
  | shutdownInLoop => rwa [ConnStep.run, Conn.shutdownInLoop_eq]
  | forceClose =>
    rw [ConnStep.run, Conn.forceClose]
    split <;> exact h
  | forceCloseInLoop =>
    rw [ConnStep.run, Conn.forceCloseInLoop]
    split
    · rfl
    · exact h
  | handleRead r =>
    rcases handleRead_cases c r with ⟨-, heq⟩ | ⟨-, heq⟩ | ⟨-, -, hchannel, -⟩
    · rwa [ConnStep.run, heq]
    · rw [ConnStep.run, heq]
      rfl
    · rwa [ConnStep.run, hchannel]
  | handleWrite r => exact Conn.registered_handleWrite h r
  | handleClose => rfl

/-- Only `connectDestroyed` takes a channel out of the poller. -/
theorem Life.Step.registered {v w : Life} {k : LifeStep} (h : Life.Step v k w) (hk : k ≠ .destroy)
    (hreg : v.conn.channel.registered = true) : w.conn.channel.registered = true := by
  cases h with
  | establish => rfl
  | @run l hl =>
    refine ConnStep.registered_run ?_ hreg
    rintro rfl
    simp [TcpServer.IsEvent, TcpServer.IsCall] at hl
  | storeDisconnecting => exact hreg
  | destroy => exact absurd rfl hk

/-- A loop that handles events goes on so until it takes its queue. -/
theorem TcpServer.step_batch {l : ServerStep} (h : s.Orderly g none) (hb : s.batch L = none)
    (hl : l ≠ .swap L) (hd : ∀ order, l ≠ .destroy order) (ht : s.teardown = .alive)
    (hstep : TcpServer.Step g s l t) : t.batch L = none := by
  cases hstep with
  | accept _ _ =>
    obtain ⟨L', hadds⟩ := s.adds_newConnection g
    rw [hadds.batch, hb]
  | @event i x l hx =>
    rw [(adds_runConn (s := s.record x.loop .event i) hx l).batch]
    exact hb
  | call hx hc hl hp => exact hb
  | storeDisconnecting hx hc => exact hb
  | queueForceClose hx hc => exact hb
  | @swap L' hf hb' hg =>
    have hne : L ≠ L' := fun heq => hl (heq ▸ rfl)
    exact (Function.update_of_ne hne _ _).trans hb
  | @run L' f rest hf hb' hg =>
    rw [(adds_runFunctor (h.toBooked.take hb')).batch]
    have hne : L ≠ L' := by
      rintro rfl
      rw [hb] at hb'
      cases hb'
    exact (Function.update_of_ne hne _ _).trans hb
  | @done L' hf hb' hg =>
    have hne : L ≠ L' := by
      rintro rfl
      rw [hb] at hb'
      cases hb'
    exact (Function.update_of_ne hne _ _).trans hb
  | destroy _ hn ho => exact absurd rfl (hd _)
  | sweep ht' => simp [ht] at ht'
  | finish ht' => simp [ht] at ht'

/-- A step of a loop that is handling events, or of another. -/
theorem Lives.registered_step {l : ServerStep} (h : Lives g s) (hb : s.batch L = none)
    (hd : ∀ order, l ≠ .destroy order) (hstep : TcpServer.Step g s l t)
    (hx : s.conns[i]? = some x) (hL : x.loop = L) (hreg : x.conn.channel.registered = true) :
    ∃ y, t.conns[i]? = some y ∧ y.loop = L ∧ y.conn.channel.registered = true := by
  obtain ⟨v, hv, hconn, -⟩ := TcpServer.exists_life hx
  obtain ⟨w, hw, hcases⟩ := TcpServer.step_life h.orderly h.alive hd hstep hv
  have hwreg : w.conn.channel.registered = true := by
    rcases hcases with ⟨rfl, -⟩ | ⟨k, hk, hdoes⟩
    · rw [hconn, hreg]
    · refine hk.registered ?_ (by rw [hconn, hreg])
      rintro rfl
      cases hstep with
      | run _ hb' _ =>
        -- that loop would be running functors
        have hloop : s.loopOf i = some _ := hdoes
        rw [TcpServer.loopOf_eq hx, hL] at hloop
        cases hloop
        rw [hb] at hb'
        cases hb'
      | _ => exact hdoes.elim
  obtain ⟨y, hy, rfl⟩ := Option.map_eq_some_iff.mp hw
  have hloop := TcpServer.step_loopOf (hL ▸ TcpServer.loopOf_eq hx) hstep
  rw [TcpServer.loopOf_eq hy] at hloop
  exact ⟨y, hy, Option.some.inj hloop, hwreg⟩

/-- **A dispatch keeps its channels.**  From a state in which a loop handles events, and until it
takes its queue, whatever is done in its own thread and in others, as long as the server is not
destroyed, fewer than 2^31 connections have been accepted (`haccepts`) and no thread stores
`kDisconnecting` in a connection that is closed already (`htimely`): every channel of the loop that
its poller knew stays there, and its connection is kept.  So no channel that a `poll` has found
active is gone when its turn comes. -/
theorem dispatch_keeps_channels {s₀ : TcpServer} {tr tr' : List (TcpServer × ServerStep)}
    (hinit : (serverMachine g).init s₀) (h : (serverMachine g).Run s₀ tr s)
    (h' : (serverMachine g).Run s tr' t)
    (halive : Meets (fun _ l => ∀ order, l ≠ .destroy order) (tr ++ tr'))
    (htimely : Meets (fun s l => l.Timely s) (tr ++ tr')) (haccepts : t.conns.length < 2 ^ 31)
    (hb : s.batch L = none) (hpolls : Meets (fun _ l => l ≠ .swap L) tr')
    (hx : s.conns[i]? = some x) (hL : x.loop = L) (hreg : x.conn.channel.registered = true) :
    t.Kept i ∧ ∃ y, t.conns[i]? = some y ∧ y.conn.channel.registered = true := by
  have hs : Lives g s := run_lives hinit h (fun p hp => halive p (List.mem_append_left _ hp))
    fun p hp => htimely p (List.mem_append_left _ hp)
  have hinv : Lives g t ∧ t.batch L = none ∧
      ∃ y, t.conns[i]? = some y ∧ y.loop = L ∧ y.conn.channel.registered = true := by
    refine h'.keeps (I := fun u => Lives g u ∧ u.batch L = none ∧
        ∃ y, u.conns[i]? = some y ∧ y.loop = L ∧ y.conn.channel.registered = true)
      (C := fun s l => (∀ order, l ≠ .destroy order) ∧ l.Timely s ∧ l ≠ .swap L) ?_
      (fun p hp => ⟨halive p (List.mem_append_right _ hp), htimely p (List.mem_append_right _ hp),
        hpolls p hp⟩) ⟨hs, hb, x, hx, hL, hreg⟩
    rintro u l v ⟨hu, hbu, y, hy, hyL, hyreg⟩ ⟨hd, hl, hswap⟩ hstep
    exact ⟨lives_step hu hd hl hstep, TcpServer.step_batch hu.orderly hbu hswap hd hu.alive hstep,
      hu.registered_step hbu hd hstep hy hyL hyreg⟩
  obtain ⟨hlives, -, y, hy, -, hyreg⟩ := hinv
  exact ⟨hlives.kept haccepts hy (hlives.not_destroyed hy hyreg), y, hy, hyreg⟩

/-- The theorem where the peer of the connection has closed it. -/
theorem dispatch_keeps_channels_closed :
    let s := TcpServer.new.newConnection oneLoop
    let t := (s.record .base .event 0).runConn .base 0 .handleClose
    t.Kept 0 ∧ t.connections = fun _ => none := by
  intro s t
  have h₁ : TcpServer.Step oneLoop .new .accept s := .accept rfl rfl
  have h₂ : TcpServer.Step oneLoop s (.event 0 .handleClose) t :=
    step_handleClose rfl rfl rfl rfl rfl
  have hruns : (serverMachine oneLoop).Run .new _ s := Machine.Run.one h₁
  have hdispatch : (serverMachine oneLoop).Run s _ t := Machine.Run.one h₂
  refine ⟨(dispatch_keeps_channels rfl hruns hdispatch (by simp [Meets])
    (by simp [Meets, ServerStep.Timely]) (by decide) (L := .base) (i := 0) rfl (by simp [Meets])
    rfl rfl rfl).1, ?_⟩
  -- the map has let it go, and `connectDestroyed` waits
  have hmap : t.connections =
      Function.update (Function.update (fun _ => none) (TcpServer.connName oneLoop 1) (some 0))
        (TcpServer.connName oneLoop 1) none := rfl
  rw [hmap, Function.update_idem]
  exact Function.update_eq_self (f := fun _ => none) (TcpServer.connName oneLoop 1)

end Reactor.Net
