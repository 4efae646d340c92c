import Reactor.Net.ServerConnections

/-!
# Net — TcpServer destroyed

The destructor visits the entries of the map and does not look into the base loop's queue.  A
removal that waits there has been left out: it runs when the server is gone, and the connection,
still in the map, is destroyed twice.

* `ServerStep.Closes`: which connection a step closes.
* `Logged`: what a step adds to the log.
* `destroyed_safely_iff`: a run is safe if no removal waits when the destructor ends, no connection
  closes after it, and none closes twice; and only then, if what was queued has been run.
* `removal_outlives_server`: a run that is not.
-/

namespace Reactor.Net
open Reactor.Lib

/-- The step runs `handleClose` of connection `i`. -/
def ServerStep.Closes (s : TcpServer) (i : Nat) : ServerStep → Prop
  | .event j l => j = i ∧ ∃ x, s.conns[i]? = some x ∧ l.Closes x.conn
  | .run L => ∃ rest x, s.batch L = some (.forceCloseInLoop i :: rest) ∧ s.conns[i]? = some x ∧
      ConnStep.forceCloseInLoop.Closes x.conn
  | _ => False

/-- At the end of the destructor no removal waits in the base loop, and a connection closes before
it, and for the first time. -/
def ServerStep.Safe (s : TcpServer) (l : ServerStep) : Prop :=
  (∀ i, l.Closes s i → s.teardown ≠ .gone ∧ s.count .closed i = 0) ∧
    (l = .finish → ∀ i, .removeConnectionInLoop i ∉ s.waiting .base)

/-- No `removeConnectionInLoop` has run after the destructor, and `connectDestroyed` once at most
for each connection. -/
structure DestroyedSafely (s : TcpServer) : Prop where
  punctual : ∀ e ∈ s.log, e.action = .removed → e.late = false
  once : ∀ i, s.count .destroyed i ≤ 1

namespace TcpServer

variable {g : ServerConfig} {s t : TcpServer} {L : LoopId} {i : Nat} {x : ServerConn}

/-! ### What a step logs -/

/-- How often something is done to a connection in some entries. -/
def countIn (new : List LogEntry) (a : Action) (i : Nat) : Nat :=
  new.countP fun e => e.action = a ∧ e.conn = i

theorem count_append {new : List LogEntry} (h : t.log = s.log ++ new) (a : Action) (i : Nat) :
    t.count a i = s.count a i + countIn new a i := by
  rw [count, h, List.countP_append]
  rfl

/-- Entries of a step that closes the connections `K`; removals are only among them if the base
loop's thread is not in the destructor. -/
structure Logged (s : TcpServer) (K : Nat → Prop) (new : List LogEntry) : Prop where
  late : ∀ e ∈ new, e.late = (s.teardown matches .gone)
  unswept : ∀ e ∈ new, e.action ≠ .swept
  removed : ∀ e ∈ new, e.action = .removed → s.Free .base
  closes : ∀ i, K i → countIn new .closed i = 1
  spares : ∀ i, ¬ K i → countIn new .closed i = 0

variable {K : Nat → Prop} {new : List LogEntry}

theorem logged_nil (hK : ∀ i, ¬ K i) : Logged s K [] :=
  ⟨by simp, by simp, by simp, fun i h => absurd h (hK i), fun _ _ => rfl⟩

/-- An entry that is no close and no visit of the destructor. -/
theorem Logged.cons {a : Action} (h : Logged s K new) (L : LoopId) (i : Nat)
    (ha : a ≠ .closed ∧ a ≠ .swept) (hb : a = .removed → s.Free .base) :
    Logged s K (s.entry L a i :: new) := by
  have hcount : ∀ j, countIn (s.entry L a i :: new) .closed j = countIn new .closed j := fun j => by
    simp [countIn, entry, ha.1]
  refine ⟨?_, ?_, ?_, ?_, ?_⟩
  · rintro e (_ | ⟨_, he⟩)
    · rfl
    · exact h.late e he
  · rintro e (_ | ⟨_, he⟩)
    · exact ha.2
    · exact h.unswept e he
  · rintro e (_ | ⟨_, he⟩)
    · exact hb
    · exact h.removed e he
  · intro j hj
    rw [hcount, h.closes j hj]
  · intro j hj
    rw [hcount, h.spares j hj]

theorem mem_closing {e : LogEntry} (he : e ∈ s.closing L i) :
    e = s.entry L .closed i ∨ L = .base ∧ e = s.entry .base .removed i := by
  rcases List.mem_cons.mp he with he | he
  · exact .inl he
  · split at he
    · next hL => exact .inr ⟨hL, List.mem_singleton.mp he⟩
    · simp at he

theorem logged_closing (hL : s.Free L) (hK : ∀ j, K j ↔ i = j) : Logged s K (s.closing L i) := by
  have hcount : ∀ j, countIn (s.closing L i) .closed j = if i = j then 1 else 0 := fun j => by
    by_cases hbase : L = .base <;> by_cases hij : i = j <;>
      simp [countIn, closing, entry, hbase, hij]
  refine ⟨?_, ?_, ?_, ?_, ?_⟩
  · intro e he
    rcases mem_closing he with rfl | ⟨-, rfl⟩ <;> rfl
  · intro e he
    rcases mem_closing he with rfl | ⟨-, rfl⟩ <;> simp [entry]
  · intro e he ha
    rcases mem_closing he with rfl | ⟨rfl, -⟩
    · simp [entry] at ha
    · exact hL
  · intro j hj
    rw [hcount, if_pos ((hK j).mp hj)]
  · intro j hj
    rw [hcount, if_neg fun h => hj ((hK j).mpr h)]

/-- What the destructor logs at a visit. -/
def Visits (s : TcpServer) (i : Nat) (new : List LogEntry) : Prop :=
  new = [] ∨ ∃ d, new = s.entry .base .swept i :: d ∧ ∀ e ∈ d, e.action = .destroyed

/-- What a step does to the log and to the destructor. -/
inductive Logs (s : TcpServer) (l : ServerStep) (t : TcpServer) : Prop where
  | plain (new : List LogEntry) (hlog : t.log = s.log ++ new) (hnew : Logged s (l.Closes s) new)
      (ht : t.teardown = s.teardown) (hl : l ≠ .finish)
  | destroy (order : List Nat) (hlog : t.log = s.log) (hs : s.teardown = .alive)
      (ht : t.teardown = .sweeping order) (hn : order.Nodup)
      (ho : ∀ i ∈ order, ∃ name, s.connections name = some i) (hl : ∃ order, l = .destroy order)
  | sweep (i : Nat) (rest : List Nat) (new : List LogEntry) (hlog : t.log = s.log ++ new)
      (hs : s.teardown = .sweeping (i :: rest)) (ht : t.teardown = .sweeping rest)
      (hnew : Visits s i new) (hl : l = .sweep)
  | finish (hlog : t.log = s.log) (hs : s.teardown = .sweeping []) (ht : t.teardown = .gone)
      (hl : l = .finish)

/-- What a functor in hand logs. -/
theorem logged_functor {f : ServerFunctor} (h : Booked s (some (L, f))) (hf : s.Free L)
    (hK : ∀ j, K j ↔ ∃ x, f = .forceCloseInLoop j ∧ s.conns[j]? = some x ∧
      ConnStep.forceCloseInLoop.Closes x.conn) : Logged s K (s.functorEntries L f) := by
  have hhome := h.hand_homed
  cases f with
  | connectEstablished i =>
    exact (logged_nil fun j hj => by simpa using (hK j).mp hj).cons _ _ (by simp) (by simp)
  | removeConnectionInLoop i =>
    obtain ⟨_, -, rfl⟩ := Option.map_eq_some_iff.mp hhome
    exact (logged_nil fun j hj => by simpa using (hK j).mp hj).cons _ _ (by simp) fun _ => hf
  | connectDestroyed i =>
    exact (logged_nil fun j hj => by simpa using (hK j).mp hj).cons _ _ (by simp) (by simp)
  | forceCloseInLoop i =>
    obtain ⟨x, hx, -⟩ := loopOf_some hhome
    have hiff : ∀ j, K j ↔ i = j ∧ ConnStep.forceCloseInLoop.Closes x.conn := by
      intro j
      rw [hK]
      constructor
      · rintro ⟨y, hj, hy, hc⟩
        obtain rfl := ServerFunctor.forceCloseInLoop.inj hj
        obtain rfl := Option.some.inj (hx.symm.trans hy)
        exact ⟨rfl, hc⟩
      · rintro ⟨rfl, hc⟩
        exact ⟨x, rfl, hx, hc⟩
    simp only [functorEntries, hx]
    split
    · next hc => exact logged_closing hf fun j => by rw [hiff, and_iff_left hc]
    · next hc => exact logged_nil fun j hj => hc ((hiff j).mp hj).2

/-- The sweep of a connection records it, and what it destroys in place. -/
theorem sweep_log (hx : s.conns[i]? = some x) :
    ∃ d, (s.sweep i).log = s.log ++ (s.entry .base .swept i :: d) ∧
      ∀ e ∈ d, e.action = .destroyed := by
  have hrecord := s.adds_record .base .swept i
  simp only [TcpServer.sweep, hx]
  split
  · have hadds := hrecord.trans
      (adds_connectDestroyed (s := s.record .base .swept i) (L := .base) hx)
    exact ⟨_, hadds.log, by simp [entry]⟩
  · exact ⟨[], hrecord.log, by simp⟩

/-- What a step adds to the log. -/
theorem step_logs {l : ServerStep} (h : Orderly g s none) (hstep : TcpServer.Step g s l t) :
    Logs s l t := by
  have hidle : ∀ {l : ServerStep}, l ≠ .finish → (∀ i, ¬ l.Closes s i) → t.log = s.log →
      t.teardown = s.teardown → Logs s l t := fun hl hK hlog ht =>
    .plain [] (by rw [hlog, List.append_nil]) (logged_nil hK) ht hl
  cases hstep with
  | accept ht hb =>
    obtain ⟨L, hadds⟩ := s.adds_newConnection g
    refine .plain _ hadds.log ?_ hadds.teardown (by simp)
    split
    · exact (logged_nil fun _ => id).cons _ _ (by simp) (by simp)
    · exact logged_nil fun _ => id
  | @event i x l hx hf hb hr hl hp hg =>
    have hadds := (adds_record s x.loop .event i).trans
      (adds_runConn (s := s.record x.loop .event i) (L := x.loop) hx l)
    refine .plain _ hadds.log (Logged.cons ?_ _ _ (by simp) (by simp)) hadds.teardown (by simp)
    split
    · next hc =>
      refine logged_closing hf fun j => ⟨fun hj => hj.1, ?_⟩
      rintro rfl
      exact ⟨rfl, x, hx, hc⟩
    · next hc =>
      refine logged_nil fun j hj => hc ?_
      obtain ⟨rfl, y, hy, hcy⟩ := hj
      obtain rfl := Option.some.inj (hx.symm.trans hy)
      exact hcy
  | call hx hc hl hp => exact hidle (by simp) (fun _ => id) rfl rfl
  | storeDisconnecting hx hc => exact hidle (by simp) (fun _ => id) rfl rfl
  | queueForceClose hx hc => exact hidle (by simp) (fun _ => id) rfl rfl
  | swap hf hb hg => exact hidle (by simp) (fun _ => id) rfl rfl
  | @run L f rest hf hb hg =>
    have htake := h.toBooked.take hb
    have hadds := adds_runFunctor htake
    have hnew := logged_functor (K := (ServerStep.run L).Closes s) htake hf fun j => by
      constructor
      · rintro ⟨rest', x, hbatch, hx, hc⟩
        rw [hb] at hbatch
        exact ⟨x, (List.cons.inj (Option.some.inj hbatch)).1, hx, hc⟩
      · rintro ⟨x, rfl, hx, hc⟩
        exact ⟨rest, x, hb, hx, hc⟩
    exact .plain _ hadds.log ⟨hnew.late, hnew.unswept, hnew.removed, hnew.closes, hnew.spares⟩
      hadds.teardown (by simp)
  | done hf hb hg => exact hidle (by simp) (fun _ => id) rfl rfl
  | destroy ht hn ho => exact .destroy _ rfl ht rfl hn (fun i hi => (ho i).mp hi) ⟨_, rfl⟩
  | @sweep i rest ht =>
    cases hx : s.conns[i]? with
    | none => exact .sweep i rest [] (by simp [TcpServer.sweep, hx]) ht rfl (.inl rfl) rfl
    | some x =>
      obtain ⟨d, hd, hdestroyed⟩ := sweep_log hx
      exact .sweep i rest _ hd ht rfl (.inr ⟨d, rfl, hdestroyed⟩) rfl
  | finish ht hg => exact .finish rfl ht rfl rfl

/-! ### Safe steps -/

theorem Booked.removed_le_closed {hand : Option (LoopId × ServerFunctor)} (h : Booked s hand)
    (i : Nat) : s.count .removed i ≤ s.count .closed i := by
  have := h.closes i
  omega

/-- Nothing has gone wrong: no removal was late, nothing was closed or visited twice, what was
visited has not been removed, what is to be visited has been neither, and what closes is removed
before the server is gone. -/
structure Calm (s : TcpServer) : Prop where
  punctual : ∀ e ∈ s.log, e.action = .removed → e.late = false
  closed_once : ∀ i, s.count .closed i ≤ 1
  swept_once : ∀ i, s.count .swept i ≤ 1
  apart : ∀ i, s.count .swept i = 0 ∨ s.count .removed i = 0
  to_visit : ∀ {rest}, s.teardown = .sweeping rest →
    rest.Nodup ∧ ∀ i ∈ rest, s.count .swept i = 0 ∧ s.count .removed i = 0
  none_left : s.teardown = .gone → ∀ i, s.count .closed i = s.count .removed i

theorem calm_init : Calm .new := by
  constructor <;> simp [TcpServer.new, count]

theorem countIn_eq_zero {a : Action} (h : ∀ e ∈ new, e.action ≠ a) (i : Nat) :
    countIn new a i = 0 := by
  rw [countIn, List.countP_eq_zero]
  intro e he
  simp [h e he]

/-- Once the destructor has begun, a safe step removes nothing. -/
theorem Logged.no_removal {l : ServerStep} (hnew : Logged s (l.Closes s) new)
    (ht : Orderly g t none) (hcalm : Calm s) (hsafe : l.Safe s) (hlog : t.log = s.log ++ new)
    (halive : s.teardown ≠ .alive) (i : Nat) :
    countIn new .removed i = 0 := by
  cases htd : s.teardown with
  | alive => exact absurd htd halive
  | sweeping rest =>
    exact countIn_eq_zero (fun e he ha => hnew.removed e he ha rfl rest htd) i
  | gone =>
    -- all that has closed had been removed, and nothing closes
    have hspares := hnew.spares i fun hc => (hsafe.1 i hc).1 htd
    have hclosed := count_append hlog .closed i
    have hremoved := count_append hlog .removed i
    have hbefore := hcalm.none_left htd i
    have hafter := ht.removed_le_closed i
    omega

/-- A safe step of the loops or the clients. -/
theorem Calm.plain {l : ServerStep} (hcalm : Calm s) (hs : Orderly g s none)
    (ht : Orderly g t none) (hsafe : l.Safe s) (hlog : t.log = s.log ++ new)
    (hnew : Logged s (l.Closes s) new) (htd : t.teardown = s.teardown) : Calm t := by
  have hgrow := count_append hlog
  have hnone := hnew.no_removal ht hcalm hsafe hlog
  have hswept : ∀ i, t.count .swept i = s.count .swept i := fun i => by
    rw [hgrow, countIn_eq_zero hnew.unswept, Nat.add_zero]
  refine ⟨?_, ?_, ?_, ?_, ?_, ?_⟩
  · intro e he ha
    rw [hlog] at he
    rcases List.mem_append.mp he with he | he
    · exact hcalm.punctual e he ha
    · rw [hnew.late e he]
      cases htd' : s.teardown with
      | gone =>
        have hpos : 0 < countIn new .removed e.conn :=
          List.countP_pos_iff.mpr ⟨e, he, by simp [ha]⟩
        rw [hnone (by simp [htd'])] at hpos
        exact absurd hpos (Nat.lt_irrefl 0)
      | _ => rfl
  · intro i
    rw [hgrow]
    by_cases hc : l.Closes s i
    · rw [hnew.closes i hc, (hsafe.1 i hc).2]
    · rw [hnew.spares i hc]
      exact hcalm.closed_once i
  · intro i
    rw [hswept]
    exact hcalm.swept_once i
  · intro i
    rw [hswept, hgrow]
    by_cases halive : s.teardown = .alive
    · exact .inl (hs.unswept halive i)
    · rw [hnone halive]
      exact hcalm.apart i
  · intro rest hrest
    rw [htd] at hrest
    obtain ⟨hnodup, hvisit⟩ := hcalm.to_visit hrest
    refine ⟨hnodup, fun i hi => ?_⟩
    rw [hswept, hgrow, hnone (by simp [hrest])]
    exact hvisit i hi
  · intro hgone i
    rw [htd] at hgone
    rw [hgrow, hgrow, hnone (by simp [hgone]), hnew.spares i fun hc => (hsafe.1 i hc).1 hgone]
    exact hcalm.none_left hgone i

theorem Visits.mem {e : LogEntry} (h : Visits s i new) (he : e ∈ new) :
    e = s.entry .base .swept i ∨ e.action = .destroyed := by
  rcases h with rfl | ⟨d, rfl, hd⟩
  · simp at he
  · exact (List.mem_cons.mp he).imp id (hd e)

theorem Visits.countIn_le (h : Visits s i new) (j : Nat) :
    countIn new .swept j ≤ if i = j then 1 else 0 := by
  rcases h with rfl | ⟨d, rfl, hd⟩
  · simp [countIn]
  · have hzero : countIn d .swept j = 0 := countIn_eq_zero (fun e he => by rw [hd e he]; simp) j
    rw [countIn] at hzero
    rw [countIn, List.countP_cons, hzero]
    simp [entry]

/-- A visit of the destructor: what it visits has been neither visited nor removed. -/
theorem Calm.sweep {rest : List Nat} (hcalm : Calm s) (hs : s.teardown = .sweeping (i :: rest))
    (hlog : t.log = s.log ++ new) (hnew : Visits s i new) (ht : t.teardown = .sweeping rest) :
    Calm t := by
  obtain ⟨hnodup, hvisit⟩ := hcalm.to_visit hs
  obtain ⟨hi, hnodup'⟩ := List.nodup_cons.mp hnodup
  have hother : ∀ a j, a ≠ .swept → a ≠ .destroyed → t.count a j = s.count a j := by
    intro a j ha ha'
    rw [count_append hlog, countIn_eq_zero, Nat.add_zero]
    intro e he
    rcases hnew.mem he with rfl | hd
    · exact ha.symm
    · rw [hd]
      exact ha'.symm
  have hswept : ∀ j, t.count .swept j ≤ s.count .swept j + if i = j then 1 else 0 := fun j => by
    rw [count_append hlog]
    have := hnew.countIn_le j
    omega
  refine ⟨?_, ?_, ?_, ?_, ?_, by simp [ht]⟩
  · intro e he ha
    rw [hlog] at he
    rcases List.mem_append.mp he with he | he
    · exact hcalm.punctual e he ha
    · rcases hnew.mem he with rfl | hd
      · simp [entry] at ha
      · simp [hd] at ha
  · intro j
    rw [hother _ _ (by simp) (by simp)]
    exact hcalm.closed_once j
  · intro j
    have hj := hswept j
    by_cases hij : i = j
    · subst hij
      rw [if_pos rfl, (hvisit i (List.mem_cons_self ..)).1] at hj
      exact hj
    · rw [if_neg hij] at hj
      exact hj.trans (hcalm.swept_once j)
  · intro j
    rw [hother .removed _ (by simp) (by simp)]
    have hj := hswept j
    by_cases hij : i = j
    · subst hij
      exact .inr (hvisit i (List.mem_cons_self ..)).2
    · rw [if_neg hij] at hj
      exact (hcalm.apart j).imp (fun h => by omega) id
  · intro rest' hrest
    obtain rfl : rest = rest' := by simpa [ht] using hrest
    refine ⟨hnodup', fun j hj => ?_⟩
    have hij : i ≠ j := fun h => hi (h ▸ hj)
    have hsj := hswept j
    obtain ⟨h0, h1⟩ := hvisit j (List.mem_cons_of_mem _ hj)
    rw [if_neg hij] at hsj
    rw [hother .removed _ (by simp) (by simp)]
    exact ⟨by omega, h1⟩

/-- A safe step keeps the server calm. -/
theorem calm_step {l : ServerStep} (hs : Orderly g s none) (ht : Orderly g t none)
    (hcalm : Calm s) (hsafe : l.Safe s) (hstep : TcpServer.Step g s l t) : Calm t := by
  cases step_logs hs hstep with
  | plain new hlog hnew htd hl => exact hcalm.plain hs ht hsafe hlog hnew htd
  | destroy order hlog halive htd hn ho hl =>
    have hcount : t.count = s.count := count_congr hlog
    refine ⟨hlog ▸ hcalm.punctual, ?_, ?_, ?_, ?_, by simp [htd]⟩
    · exact hcount ▸ hcalm.closed_once
    · exact hcount ▸ hcalm.swept_once
    · exact hcount ▸ hcalm.apart
    · intro rest hrest
      obtain rfl : order = rest := by simpa [htd] using hrest
      refine ⟨hn, fun i hi => ?_⟩
      obtain ⟨name, hname⟩ := ho i hi
      rw [hcount]
      exact ⟨hs.unswept halive i, (hs.held hname).2⟩
  | sweep i rest new hlog hsw htd hnew hl => exact hcalm.sweep hsw hlog hnew htd
  | finish hlog hsw htd hl =>
    have hcount : t.count = s.count := count_congr hlog
    refine ⟨hlog ▸ hcalm.punctual, ?_, ?_, ?_, by simp [htd], ?_⟩
    · exact hcount ▸ hcalm.closed_once
    · exact hcount ▸ hcalm.swept_once
    · exact hcount ▸ hcalm.apart
    · intro _ i
      have hcloses := hs.closes i
      rw [owed, List.count_eq_zero.mpr (hsafe.2 hl i), if_neg (by simp)] at hcloses
      rw [hcount]
      omega

theorem Calm.destroyedSafely (h : Calm s) (hs : Orderly g s none) : DestroyedSafely s where
  punctual := h.punctual
  once := by
    intro i
    have hremoved := hs.removed_le_closed i
    have hclosed := h.closed_once i
    have hswept := h.swept_once i
    cases hL : s.loopOf i with
    | none =>
      rw [hs.count_eq_zero .destroyed hL]
      omega
    | some L =>
      have hdestroys := hs.destroys hL
      rcases h.apart i with h0 | h0 <;> omega

/-! ### Unsafe steps -/

/-- A connection has been closed twice, or the server is gone and a removal is late or to come. -/
def Spoilt (s : TcpServer) : Prop :=
  (∃ i, 2 ≤ s.count .closed i) ∨
    s.teardown = .gone ∧ ((∃ i, s.count .removed i < s.count .closed i) ∨
      ∃ e ∈ s.log, e.action = .removed ∧ e.late = true)

/-- A removal missing when the server is gone is missing after the step, or was late. -/
theorem Logged.spoilt {l : ServerStep} (hnew : Logged s (l.Closes s) new)
    (ht : Orderly g t none) (hlog : t.log = s.log ++ new) (htd : t.teardown = s.teardown)
    (hgone : s.teardown = .gone) {i : Nat} (hlt : s.count .removed i < t.count .closed i) :
    Spoilt t := by
  refine .inr ⟨htd.trans hgone, ?_⟩
  have hgrow := count_append hlog .removed i
  have hle := ht.removed_le_closed i
  by_cases hmissing : t.count .removed i < t.count .closed i
  · exact .inl ⟨i, hmissing⟩
  · obtain ⟨e, he, ha⟩ := List.countP_pos_iff.mp (show 0 < countIn new .removed i by omega)
    simp only [decide_eq_true_eq] at ha
    refine .inr ⟨e, hlog ▸ List.mem_append_right _ he, ha.1, ?_⟩
    rw [hnew.late e he, hgone]

theorem spoilt_of_break {l : ServerStep} (hs : Orderly g s none) (ht : Orderly g t none)
    (hbreak : ¬ l.Safe s) (hstep : TcpServer.Step g s l t) : Spoilt t := by
  cases step_logs hs hstep with
  | plain new hlog hnew htd hl =>
    rw [ServerStep.Safe, not_and_or] at hbreak
    have hclose := hbreak.resolve_right fun h => h fun hfinish => absurd hfinish hl
    push Not at hclose
    obtain ⟨i, hi, hbad⟩ := hclose
    have hgrow := count_append hlog .closed i
    rw [hnew.closes i hi] at hgrow
    by_cases hgone : s.teardown = .gone
    · have := hs.removed_le_closed i
      exact hnew.spoilt ht hlog htd hgone (show s.count .removed i < t.count .closed i by omega)
    · exact .inl ⟨i, by have := hbad hgone; omega⟩
  | destroy order hlog halive htd hn ho hl =>
    obtain ⟨order, rfl⟩ := hl
    exact absurd ⟨fun i hi => hi.elim, by simp⟩ hbreak
  | sweep i rest new hlog hsw htd hnew hl =>
    subst hl
    exact absurd ⟨fun i hi => hi.elim, by simp⟩ hbreak
  | finish hlog hsw htd hl =>
    subst hl
    rw [ServerStep.Safe, not_and_or] at hbreak
    have hwaits := hbreak.resolve_left fun h => h fun i hi => hi.elim
    push Not at hwaits
    obtain ⟨-, i, hi⟩ := hwaits
    have hcloses := hs.closes i
    have hpos := List.count_pos_iff.mpr hi
    rw [owed] at hcloses
    refine .inr ⟨htd, .inl ⟨i, ?_⟩⟩
    rw [count_congr hlog]
    omega

/-- What an unsafe step has spoilt stays so. -/
theorem spoilt_step {l : ServerStep} (hs : Orderly g s none) (ht : Orderly g t none)
    (hspoilt : Spoilt s) (hstep : TcpServer.Step g s l t) : Spoilt t := by
  have hprefix : ∃ new, t.log = s.log ++ new := by
    cases step_logs hs hstep with
    | plain new hlog => exact ⟨new, hlog⟩
    | destroy order hlog => exact ⟨[], by rw [hlog, List.append_nil]⟩
    | sweep i rest new hlog => exact ⟨new, hlog⟩
    | finish hlog => exact ⟨[], by rw [hlog, List.append_nil]⟩
  obtain ⟨new, hlog⟩ := hprefix
  rcases hspoilt with ⟨i, hi⟩ | ⟨hgone, hbad⟩
  · have := count_append hlog .closed i
    exact .inl ⟨i, by omega⟩
  · cases step_logs hs hstep with
    | plain new hlog hnew htd =>
      rcases hbad with ⟨i, hi⟩ | ⟨e, he, ha, hlate⟩
      · have := count_append hlog .closed i
        exact hnew.spoilt ht hlog htd hgone (show s.count .removed i < t.count .closed i by omega)
      · exact .inr ⟨htd.trans hgone, .inr ⟨e, hlog ▸ List.mem_append_left _ he, ha, hlate⟩⟩
    | destroy order _ halive => simp [hgone] at halive
    | sweep i rest _ _ hsw => simp [hgone] at hsw
    | finish _ hsw => simp [hgone] at hsw

/-- When all that was queued has been run, it shows. -/
theorem Spoilt.not_safely (h : Spoilt s) (hs : Orderly g s none) (hidle : ∀ L, s.waiting L = []) :
    ¬ DestroyedSafely s := by
  intro hsafe
  have hcloses : ∀ i, s.count .closed i = s.count .removed i := fun i => by
    have := hs.closes i
    rw [owed, hidle, List.count_nil, if_neg (by simp)] at this
    omega
  rcases h with ⟨i, hi⟩ | ⟨-, ⟨i, hi⟩ | ⟨e, he, ha, hlate⟩⟩
  · cases hL : s.loopOf i with
    | none =>
      rw [hs.count_eq_zero .closed hL] at hi
      omega
    | some L =>
      have hdestroys := hs.destroys hL
      have honce := hsafe.once i
      rw [owed, hidle, List.count_nil, if_neg (by simp)] at hdestroys
      have := hcloses i
      omega
  · have := hcloses i
    omega
  · rw [hsafe.punctual e he ha] at hlate
    exact Bool.noConfusion hlate

end TcpServer

open TcpServer

/-- **When a server is destroyed safely.**  In a run in which no removal waits when the destructor
ends, no connection closes after it and none twice, no `removeConnectionInLoop` runs after the
destructor and `connectDestroyed` once at most for each connection.  A run that is not of this kind
breaks one of the two when what was queued has been run. -/
theorem destroyed_safely_iff {g : ServerConfig} {s t : TcpServer}
    {tr : List (TcpServer × ServerStep)} (hinit : (serverMachine g).init s)
    (h : (serverMachine g).Run s tr t) :
    (Meets (fun u l => l.Safe u) tr → DestroyedSafely t) ∧
      ((∀ L, t.waiting L = []) → (DestroyedSafely t ↔ Meets (fun u l => l.Safe u) tr)) := by
  obtain rfl : s = .new := hinit
  have horderly : Orderly g t none :=
    Machine.Reachable.keeps (M := serverMachine g) (I := fun u => Orderly g u none)
      (fun hu => by obtain rfl := (show _ = TcpServer.new from hu); exact orderly_init g)
      orderly_step ⟨.new, tr, rfl, h⟩
  have hsafely : Meets (fun u l => l.Safe u) tr → DestroyedSafely t := fun hmeets => by
    have hcalm : Orderly g t none ∧ Calm t :=
      h.keeps (I := fun u => Orderly g u none ∧ Calm u)
        (fun hu hl hst => ⟨orderly_step hu.1 hst,
          calm_step hu.1 (orderly_step hu.1 hst) hu.2 hl hst⟩) hmeets ⟨orderly_init g, calm_init⟩
    exact hcalm.2.destroyedSafely horderly
  refine ⟨hsafely, fun hidle => ⟨fun hsafe => ?_, hsafely⟩⟩
  by_contra hmeets
  have hspoilt : Spoilt t := h.breaks (I := fun u => Orderly g u none) orderly_step
    (fun hu hl hst => spoilt_of_break hu (orderly_step hu hst) hl hst)
    (fun hu hd hst => spoilt_step hu (orderly_step hu hst) hd hst) (orderly_init g) hmeets
  exact hspoilt.not_safely horderly hidle hsafe

/-- The map after the first connection. -/
theorem mem_first_iff {m : List Byte → Option Nat} {name : List Byte}
    (hm : m = Function.update (fun _ => none) name (some 0)) (i : Nat) :
    i ∈ [0] ↔ ∃ name, m name = some i := by
  subst hm
  constructor
  · intro hi
    exact ⟨name, by rw [Function.update_self, List.mem_singleton.mp hi]⟩
  · rintro ⟨nm, hnm⟩
    by_cases h : nm = name
    · rw [h, Function.update_self] at hnm
      exact List.mem_singleton.mpr (Option.some.inj hnm).symm
    · rw [Function.update_of_ne h] at hnm
      simp at hnm

/-- A server without io loops is destroyed with one connection open. -/
theorem destroyed_safely_oneLoop :
    ∃ t, t.teardown = .gone ∧ t.count .destroyed 0 = 1 ∧ DestroyedSafely t := by
  let s₁ : TcpServer := TcpServer.new.newConnection oneLoop
  let s₂ : TcpServer := { s₁ with teardown := .sweeping [0] }
  let s₃ : TcpServer := { s₂.sweep 0 with teardown := .sweeping [] }
  let s₄ : TcpServer := { s₃ with teardown := .gone, connections := fun _ => none }
  have haccept : TcpServer.Step oneLoop .new .accept s₁ := .accept rfl rfl
  have hdestroy : TcpServer.Step oneLoop s₁ (.destroy [0]) s₂ :=
    .destroy rfl (by simp) (mem_first_iff rfl)
  have hsweep : TcpServer.Step oneLoop s₂ .sweep s₃ := .sweep rfl
  have hfinish : TcpServer.Step oneLoop s₃ .finish s₄ := .finish rfl fun _ _ => rfl
  have hrun : (serverMachine oneLoop).Run .new _ s₄ :=
    (((Machine.Run.nil.snoc haccept).snoc hdestroy).snoc hsweep).snoc hfinish
  have hwaits : s₃.waiting .base = [] := rfl
  have hinit : (serverMachine oneLoop).init .new := rfl
  refine ⟨s₄, rfl, by decide, (destroyed_safely_iff hinit hrun).1 ?_⟩
  simp [Meets, ServerStep.Safe, ServerStep.Closes, hwaits]

/-- A connection closes in an io loop just before the server is destroyed: the base loop runs the
removal when the server is gone. -/
theorem removal_outlives_server : ¬ ∀ g s t tr, (serverMachine g).init s →
    (serverMachine g).Run s tr t → DestroyedSafely t := by
  let s₁ : TcpServer := TcpServer.new.newConnection oneThread
  let s₂ : TcpServer := { s₁ with
    batch := Function.update s₁.batch (.io 0) (some [.connectEstablished 0])
    queue := Function.update s₁.queue (.io 0) [] }
  let s₃ : TcpServer := { s₂ with
    batch := Function.update s₂.batch (.io 0) (some []) }.runFunctor (.io 0) (.connectEstablished 0)
  let s₄ : TcpServer := { s₃ with batch := Function.update s₃.batch (.io 0) none }
  let s₅ : TcpServer := (s₄.record (.io 0) .event 0).runConn (.io 0) 0 .handleClose
  let s₆ : TcpServer := { s₅ with teardown := .sweeping [0] }
  let s₇ : TcpServer := { s₆.sweep 0 with teardown := .sweeping [] }
  let s₈ : TcpServer := { s₇ with teardown := .gone, connections := fun _ => none }
  let s₉ : TcpServer := { s₈ with
    batch := Function.update s₈.batch .base (some [.removeConnectionInLoop 0])
    queue := Function.update s₈.queue .base [] }
  let s₁₀ : TcpServer := { s₉ with
    batch := Function.update s₉.batch .base (some []) }.runFunctor .base (.removeConnectionInLoop 0)
  have haccept : TcpServer.Step oneThread .new .accept s₁ := .accept rfl rfl
  have hswap : TcpServer.Step oneThread s₁ (.swap (.io 0)) s₂ :=
    .swap (free_of_alive _ rfl) rfl (runs_of_alive _ _ rfl)
  have hrun : TcpServer.Step oneThread s₂ (.run (.io 0)) s₃ :=
    .run (free_of_alive _ rfl) rfl (runs_of_alive _ _ rfl)
  have hdone : TcpServer.Step oneThread s₃ (.done (.io 0)) s₄ :=
    .done (free_of_alive _ rfl) rfl (runs_of_alive _ _ rfl)
  have hclose : TcpServer.Step oneThread s₄ (.event 0 .handleClose) s₅ :=
    step_handleClose rfl rfl rfl rfl rfl
  have hdestroy : TcpServer.Step oneThread s₅ (.destroy [0]) s₆ :=
    .destroy rfl (by simp) (mem_first_iff rfl)
  have hsweep : TcpServer.Step oneThread s₆ .sweep s₇ := .sweep rfl
  have hjoin : ∀ k, s₇.batch (.io k) = none := fun k => by cases k <;> rfl
  have hfinish : TcpServer.Step oneThread s₇ .finish s₈ := .finish rfl fun _ => hjoin
  have hswap' : TcpServer.Step oneThread s₈ (.swap .base) s₉ :=
    .swap (fun _ rest h => by simp [s₈] at h) rfl fun h => absurd rfl h
  have hrun' : TcpServer.Step oneThread s₉ (.run .base) s₁₀ :=
    .run (fun _ rest h => by simp [s₉, s₈] at h) rfl fun h => absurd rfl h
  have hruns : (serverMachine oneThread).Run .new _ s₁₀ :=
    (((((((((Machine.Run.nil.snoc haccept).snoc hswap).snoc hrun).snoc hdone).snoc hclose).snoc
      hdestroy).snoc hsweep).snoc hfinish).snoc hswap').snoc hrun'
  intro h
  have hpunctual := (h oneThread .new s₁₀ _ rfl hruns).punctual
  revert hpunctual
  decide

end Reactor.Net
