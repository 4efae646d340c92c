import Mathlib.Algebra.Group.Nat.Defs
import Reactor.Net.ConnectorSockets

/-!
# Net — ConnectorAccounting

When a `Connector` accounts for every socket it makes.  `handleError` takes the channel out of the
poller and leaves its socket; `connecting` and `resetChannel` destroy whatever channel there is.

* `Complete`: every socket is held, closed or reported, and no channel was destroyed in the poller.
* `Step.complete_iff`: the steps that keep it so.
* `Step.complete_back`: a socket or a channel once lost stays lost.
* `sockets_accounted_iff`: so a run that never errs is one without such steps.
-/

namespace Reactor.Net
open Reactor.Lib

namespace Connector

/-- Every socket is either that of the channel in the poller, or closed once, or reported once, and
no channel was destroyed in the poller. -/
def Accounts (s : Connector) : Prop :=
  s.destroyed = [] ∧ ∀ k < s.sockets.created,
    (if s.held = some k then 1 else 0) + s.sockets.closed.count k + s.sockets.reported.count k = 1

/-- No `EPOLLERR` alone for an attempt under way, and no channel is made or reset while the poller
has one. -/
def KeepsSockets (s : Connector) (l : ConnectorStep) : Prop :=
  ¬ s.ErrorOnly l ∧ (s.Connecting l ∨ s.Resetting l → s.held = none)

/-- Every socket is waiting for its attempt, closed, or handed to the client. -/
structure Complete (s : Connector) : Prop where
  destroyed : s.destroyed = []
  sockets : ∀ k < s.sockets.created,
    s.held = some k ∨ k ∈ s.sockets.closed ∨ k ∈ s.sockets.reported

/-- Of a sound connector, what is asked of every socket comes to three conditions. -/
theorem accounts_iff {s : Connector} (h : s.Sound) : s.Accounts ↔ s.Complete := by
  have hone : ∀ k, (if s.held = some k then 1 else 0) + s.sockets.closed.count k +
      s.sockets.reported.count k = 1 ↔
      s.held = some k ∨ k ∈ s.sockets.closed ∨ k ∈ s.sockets.reported := by
    intro k
    rw [h.closed_nodup.count, h.reported_nodup.count]
    have hclosed := h.held_closed k
    have hreported := h.held_reported k
    have hdisjoint := h.disjoint k
    by_cases hk : s.held = some k
    · simp [hk, hclosed hk, hreported hk]
    · by_cases hc : k ∈ s.sockets.closed
      · simp [hk, hc, hdisjoint hc]
      · by_cases hr : k ∈ s.sockets.reported <;> simp [hk, hc, hr]
  exact ⟨fun ha => ⟨ha.1, fun k hk => (hone k).mp (ha.2 k hk)⟩,
    fun hc => ⟨hc.destroyed, fun k hk => (hone k).mpr (hc.sockets k hk)⟩⟩

/-- A step that is ordinary loses no socket. -/
theorem Ordinary.keepsSockets {s : Connector} {l : ConnectorStep} (h : s.Ordinary l) :
    s.KeepsSockets l :=
  ⟨fun he => h.handled he.handled, fun hc => absurd hc (not_or.mpr ⟨h.connecting, h.resetting⟩)⟩

/-- A step that replaces the channel. -/
theorem keepsSockets_iff {s : Connector} {l : ConnectorStep} (h : s.Connecting l ∨ s.Resetting l) :
    s.KeepsSockets l ↔ s.held = none := by
  refine ⟨fun hk => hk.2 h, fun hk => ⟨fun he => ?_, fun _ => hk⟩⟩
  exact h.elim he.handled.not_connecting he.handled.not_resetting

/-- The channel that is replaced is not in the poller. -/
theorem destroyed_iff {s t : Connector} (hc : s.Complete)
    (h : t.destroyed = s.destroyed ++ s.held.toList) : t.destroyed = [] ↔ s.held = none := by
  rw [h, hc.destroyed]
  cases s.held with
  | none => simp
  | some k => simp

/-- A step that disposes of the socket held, if it takes the channel out of the poller. -/
theorem Complete.step {s t : Connector} (hc : s.Complete) (hdestroyed : t.destroyed = s.destroyed)
    (hcreated : t.sockets.created = s.sockets.created)
    (hsockets : ∀ k, s.held = some k ∨ s.sockets.Disposed k →
      t.held = some k ∨ t.sockets.Disposed k) : t.Complete :=
  ⟨hdestroyed.trans hc.destroyed, fun k hk => hsockets k (hc.sockets k (hcreated ▸ hk))⟩

/-- A step loses a socket exactly if it is one of those named. -/
theorem Step.complete_iff {s t : Connector} {l : ConnectorStep} (h : s.Sound) (hc : s.Complete)
    (hs : Step s l t) : t.Complete ↔ s.KeepsSockets l := by
  cases hs.effect with
  | quiet hl hsockets hheld hdestroyed =>
    refine iff_of_true (hc.step hdestroyed (by rw [hsockets]) fun k hk => ?_) hl.keepsSockets
    rwa [hsockets, hheld]
  | connecting ret hl hret hsockets hheld hdestroyed =>
    rw [keepsSockets_iff (.inl hl), ← destroyed_iff hc hdestroyed]
    refine ⟨Complete.destroyed, fun hnil => ⟨hnil, ?_⟩⟩
    rw [destroyed_iff hc hdestroyed] at hnil
    rw [hsockets, hheld]
    intro k hk
    rcases Nat.lt_succ_iff_lt_or_eq.mp hk with hlt | rfl
    · exact .inr ((hc.sockets k hlt).resolve_left (by simp [hnil]))
    · exact .inl rfl
  | refused ret hl hsockets hheld hdestroyed =>
    refine iff_of_true ⟨hdestroyed.trans hc.destroyed, fun k hk => ?_⟩ hl.keepsSockets
    have hdisposed : t.sockets.Disposed k ↔ s.sockets.Disposed k ∨ k = s.sockets.created := by
      rw [hsockets, Sockets.disposed_close, Sockets.disposed_connect]
    rw [hsockets] at hk
    rw [hheld]
    rcases Nat.lt_succ_iff_lt_or_eq.mp hk with hlt | heq
    · exact (hc.sockets k hlt).imp_right fun hd => hdisposed.mpr (.inl hd)
    · exact .inr (hdisposed.mpr (.inr heq))
  | reset hl hsockets hheld hdestroyed =>
    rw [keepsSockets_iff (.inr hl), ← destroyed_iff hc hdestroyed]
    refine ⟨Complete.destroyed, fun hnil => ⟨hnil, ?_⟩⟩
    rw [destroyed_iff hc hdestroyed] at hnil
    rw [hsockets]
    intro k hk
    exact .inr ((hc.sockets k hk).resolve_left (by simp [hnil]))
  | error k hl hk hsockets hheld =>
    -- the socket is nobody's now
    refine iff_of_false (fun ht => ?_) (fun hkeeps => hkeeps.1 hl)
    have hlost := ht.sockets k (by rw [hsockets]; exact h.held_lt k hk)
    rw [hheld, hsockets] at hlost
    rcases hlost with hnone | hclosed | hreported
    · cases hnone
    · exact h.held_closed k hk hclosed
    · exact h.held_reported k hk hreported
  | close k err localaddr peeraddr hl hk hclose hsockets hheld hdestroyed =>
    subst hl
    refine iff_of_true (hc.step hdestroyed (by simp [hsockets, Sockets.close]) fun j hj => .inr ?_)
      ⟨by simp [ErrorOnly], fun hor => hor.elim False.elim False.elim⟩
    simpa [hsockets, hk, or_comm, eq_comm] using hj
  | report k err localaddr peeraddr hl hk hstate hconnect hself hout hnone hsockets hheld
      hdestroyed =>
    subst hl
    refine iff_of_true (hc.step hdestroyed (by simp [hsockets, Sockets.report]) fun j hj => .inr ?_)
      ⟨by simp [ErrorOnly], fun hor => hor.elim False.elim False.elim⟩
    simpa [hsockets, hk, or_comm, eq_comm] using hj
  | kernel k a hl hout herr hsockets hheld hdestroyed =>
    refine iff_of_true (hc.step hdestroyed (by rw [hsockets]) fun j hj => ?_) hl.keepsSockets
    rwa [hsockets, hheld]
  | undefined k hl hk =>
    rw [hc.destroyed] at hk
    cases hk

/-- A socket that is lost is not found again. -/
theorem Step.complete_back {s t : Connector} {l : ConnectorStep} (hs : Step s l t)
    (ht : t.Complete) : s.Complete := by
  -- the step disposes of a socket only if the channel held it before
  have hback : ∀ rest, t.destroyed = s.destroyed ++ rest →
      s.sockets.created ≤ t.sockets.created →
      (∀ k < s.sockets.created, t.held = some k → s.held = some k) →
      (∀ k < s.sockets.created, t.sockets.Disposed k → s.held = some k ∨ s.sockets.Disposed k) →
      s.Complete := by
    intro rest hdestroyed hle hheld hdisposed
    refine ⟨(List.append_eq_nil_iff.mp (hdestroyed.symm.trans ht.destroyed)).1, fun k hk => ?_⟩
    rcases ht.sockets k (Nat.lt_of_lt_of_le hk hle) with hk' | hk'
    · exact .inl (hheld k hk hk')
    · exact hdisposed k hk hk'
  cases hs.effect with
  | quiet hl hsockets hheld hdestroyed | undefined k hl hk hsockets hheld hdestroyed
  | kernel k a hl hout herr hsockets hheld hdestroyed =>
    refine hback [] (by simp [hdestroyed]) (by rw [hsockets]) (fun k _ hk => hheld ▸ hk) ?_
    rw [hsockets]
    exact fun k _ hd => .inr hd
  | connecting ret hl hret hsockets hheld hdestroyed =>
    refine hback _ hdestroyed ?_ ?_ ?_
    · rw [hsockets]
      exact Nat.le_succ _
    · intro k hk hheld'
      cases hheld.symm.trans hheld'
      exact absurd hk (Nat.lt_irrefl _)
    · rw [hsockets]
      exact fun k _ hd => .inr hd
  | refused ret hl hsockets hheld hdestroyed =>
    refine hback [] (by simp [hdestroyed]) ?_ (fun k _ hk => hheld ▸ hk) ?_
    · rw [hsockets]
      exact Nat.le_succ _
    · intro k hk hd
      rw [hsockets, Sockets.disposed_close] at hd
      exact .inr (hd.resolve_right (Nat.ne_of_lt hk))
  | reset hl hsockets hheld hdestroyed =>
    refine hback _ hdestroyed (by rw [hsockets]) (by simp [hheld]) ?_
    rw [hsockets]
    exact fun k _ hd => .inr hd
  | error k hl hk hsockets hheld hdestroyed =>
    refine hback [] (by simp [hdestroyed]) (by rw [hsockets]; exact Nat.le_refl _)
      (by simp [hheld]) ?_
    rw [hsockets]
    exact fun k _ hd => .inr hd
  | close k err localaddr peeraddr hl hk hclose hsockets hheld hdestroyed
  | report k err localaddr peeraddr hl hk hstate hconnect hself hout hnone hsockets hheld
      hdestroyed =>
    refine hback [] (by simp [hdestroyed]) (by simp [hsockets, Sockets.close, Sockets.report])
      (by simp [hheld]) fun j _ hd => ?_
    simpa [hsockets, hk, or_comm, eq_comm] using hd

end Connector

/-- **When the connector accounts for every socket.**  At the end of a run, every socket is in
exactly one of the three conditions and no channel was destroyed in the poller, if and only if in
no step `EPOLLERR` came alone for an attempt under way, nor was a channel made or reset while the
poller had one. -/
theorem sockets_accounted_iff {s t : Connector} {tr : List (Connector × ConnectorStep)}
    (h₀ : connectorMachine.init s) (hr : connectorMachine.Run s tr t) :
    t.Accounts ↔ Meets Connector.KeepsSockets tr := by
  obtain rfl : s = .new := h₀
  have ht : t.Sound := hr.keeps (I := Connector.Sound) (C := fun _ _ => True)
    (fun hi _ hs => Connector.Step.sound hi hs) (fun _ _ => trivial) Connector.sound_new
  rw [Connector.accounts_iff ht]
  exact hr.ends_iff (I := Connector.Sound) (Q := Connector.Complete)
    (fun hi hs => Connector.Step.sound hi hs) (fun _ hs hq => Connector.Step.complete_back hs hq)
    (fun hi hq hs => Connector.Step.complete_iff hi hq hs) Connector.sound_new
    ⟨rfl, by simp [Connector.new, Sockets.new]⟩

/-- The theorem for an attempt that is refused and tried again. -/
theorem sockets_accounted_retried : ∃ t tr, connectorMachine.Run .new tr t ∧
    t.sockets.closed = [0] ∧ t.held = some 1 ∧ t.Accounts := by
  let addr : SockaddrIn6 := ⟨.AF_INET, 80, 1, 0⟩
  have hr := Machine.Run.nil (M := connectorMachine) (s := .new)
    |>.snoc (.start (some .EINPROGRESS))
    |>.snoc (.complete (k := 0) (some .ECONNREFUSED) rfl (by decide))
    |>.snoc (.dispatch (k := 0) false true addr addr rfl (by decide))
    |>.snoc (.functor none rfl)
    |>.snoc (.timer none (List.mem_singleton_self 500))
  refine ⟨_, _, hr, rfl, rfl, (sockets_accounted_iff rfl hr).mpr ?_⟩
  simp only [meets_snoc, meets_nil, true_and]
  refine ⟨⟨⟨⟨⟨id, fun _ => rfl⟩, id, ?_⟩, ?_, ?_⟩, id, fun _ => rfl⟩, id, fun _ => rfl⟩
  · exact fun hc => hc.elim False.elim False.elim
  · simp [Connector.ErrorOnly]
  · exact fun hc => hc.elim False.elim False.elim

/-- After an error event alone, the socket is neither closed nor reported, and no channel has it. -/
theorem sockets_lost_error : ∃ t tr, connectorMachine.Run .new tr t ∧ ¬ t.Accounts := by
  let addr : SockaddrIn6 := ⟨.AF_INET, 80, 1, 0⟩
  have hr := Machine.Run.nil (M := connectorMachine) (s := .new)
    |>.snoc (.start (some .EINPROGRESS))
    |>.snoc (.complete (k := 0) (some .ECONNREFUSED) rfl (by decide))
    |>.snoc (.dispatch (k := 0) true false addr addr rfl (by decide))
  refine ⟨_, _, hr, fun h => ?_⟩
  have hzero := h.2 0 (by decide)
  revert hzero
  decide

end Reactor.Net
