import Reactor.Net.ConnectorSockets

/-!
# Net — ConnectorReports

When `_newConnectionCallback` is called for connections only.  `handleError` reads the pending error
and leaves the state as it is; `handleWrite`, in the same dispatch, then finds no error.

* `Unseen`: no socket reported is one of which `handleError` read an error.
* `Step.unseen_iff`: a step keeps it so unless both handlers run for an attempt with an error.
* `reports_connections_iff`: so only such a step reports a socket that has no connection.
-/

namespace Reactor.Net
open Reactor.Lib

namespace Connector

/-- Every socket reported has a connection, is reported once, and has not been seen to fail. -/
def ReportsConnections (s : Connector) : Prop :=
  s.undefined = false ∧ s.sockets.reported.Nodup ∧ ∀ k ∈ s.sockets.reported,
    (s.sockets.attempts k).outcome = .succeeded ∧ k ∉ s.sockets.errorSeen

/-- The dispatch of `EPOLLERR` and `EPOLLOUT` together, for an attempt that is wanted, has an error
and does not look like a connection to itself; or one to a destroyed channel. -/
def ConsumesError (s : Connector) : ConnectorStep → Prop
  | .dispatch err out localaddr peeraddr => (err = true ∧ out = true) ∧ s.state = .kConnecting ∧
      s.connectFlag = true ∧ isSelfConnect localaddr peeraddr = false ∧
      ∃ k, s.held = some k ∧ s.sockets.socketError k ≠ none
  | .dispatchDestroyed _ => True
  | _ => False

/-- No socket has been reported whose error `handleError` had taken. -/
def Unseen (s : Connector) : Prop :=
  s.undefined = false ∧ ∀ k ∈ s.sockets.reported, k ∉ s.sockets.errorSeen

/-- Of a sound connector: every socket reported is connected if no error of one has been taken. -/
theorem reportsConnections_iff {s : Connector} (h : s.Sound) : s.ReportsConnections ↔ s.Unseen := by
  refine ⟨fun hr => ⟨hr.1, fun k hk => (hr.2.2 k hk).2⟩, fun hu => ⟨hu.1, h.reported_nodup, ?_⟩⟩
  intro k hk
  exact ⟨(Sockets.Sound.real h k hk).resolve_right (hu.2 k hk), hu.2 k hk⟩

/-- Only the error of the socket in the poller is read, which is not reported before. -/
theorem Sound.mem_seeError {s : Connector} {j k : Nat} (h : s.Sound) (hk : s.held = some k)
    (hj : j ∈ s.sockets.reported) :
    j ∈ (s.sockets.seeError k).errorSeen ↔ j ∈ s.sockets.errorSeen := by
  have hjk : j ≠ k := fun hjk => h.held_reported k hk (hjk ▸ hj)
  simp [Sockets.mem_seeError, hjk]

theorem Sound.mem_ready {s : Connector} {j k : Nat} (h : s.Sound) (hk : s.held = some k)
    (hj : j ∈ s.sockets.reported) (err : Bool) :
    j ∈ (s.readySockets err k).errorSeen ↔ j ∈ s.sockets.errorSeen := by
  cases err with
  | false => exact Iff.rfl
  | true => exact h.mem_seeError hk hj

/-- The socket to be reported was seen to fail if and only if `handleError` has just read an error
of it. -/
theorem Sound.mem_ready_self {s : Connector} {k : Nat} (h : s.Sound) (hk : s.held = some k)
    (err : Bool) :
    k ∈ (s.readySockets err k).errorSeen ↔ err = true ∧ s.sockets.socketError k ≠ none := by
  have hnot := h.held_errorSeen k hk
  cases err with
  | false => simp [readySockets, hnot]
  | true => simp [readySockets, Sockets.mem_seeError, hnot]

theorem ConsumesError.handled {s : Connector} {l : ConnectorStep} (h : s.ConsumesError l) :
    s.Handled l := by
  cases l with
  | dispatch err out localaddr peeraddr => exact ⟨h.2.1, .inl h.1.1⟩
  | dispatchDestroyed k => trivial
  | _ => exact h.elim

/-- An event that both takes the error and reports is not one of the error alone. -/
theorem ConsumesError.not_errorOnly {s : Connector} {l : ConnectorStep} (h : s.ConsumesError l) :
    ¬ s.ErrorOnly l := by
  cases l with
  | dispatch err out localaddr peeraddr =>
    intro he
    simp [ConsumesError, he.2.2] at h
  | dispatchDestroyed => exact id
  | _ => exact h.elim

/-- Without a socket reported, only the errors of those reported matter. -/
theorem Unseen.kept {s t : Connector} (hu : s.Unseen) (hundefined : t.undefined = s.undefined)
    (hreported : t.sockets.reported = s.sockets.reported)
    (hseen : ∀ j ∈ s.sockets.reported, j ∈ t.sockets.errorSeen ↔ j ∈ s.sockets.errorSeen) :
    t.Unseen := by
  refine ⟨hundefined ▸ hu.1, fun j hj => ?_⟩
  rw [hreported] at hj
  rw [hseen j hj]
  exact hu.2 j hj

/-- When the socket in the poller is reported, its error must not have been read before. -/
theorem Unseen.report_iff {s t : Connector} {k : Nat} {err : Bool} (h : s.Sound) (hu : s.Unseen)
    (hk : s.held = some k) (hundefined : t.undefined = s.undefined)
    (hsockets : t.sockets = ((s.readySockets err k).clearError k).report k) :
    t.Unseen ↔ ¬ (err = true ∧ s.sockets.socketError k ≠ none) := by
  rw [← h.mem_ready_self hk err]
  have hreported : t.sockets.reported = s.sockets.reported ++ [k] := by
    simp [hsockets, Sockets.report]
  have herrorSeen : t.sockets.errorSeen = (s.readySockets err k).errorSeen := by
    rw [hsockets]
    rfl
  constructor
  · intro hu' hmem
    exact hu'.2 k (by simp [hreported]) (herrorSeen ▸ hmem)
  · intro hnot
    refine ⟨hundefined ▸ hu.1, fun j hj => ?_⟩
    rw [herrorSeen]
    rw [hreported, List.mem_append, List.mem_singleton] at hj
    rcases hj with hj | rfl
    · rw [h.mem_ready hk hj]
      exact hu.2 j hj
    · exact hnot

/-- A step reports a socket whose error was taken exactly if it takes it first. -/
theorem Step.unseen_iff {s t : Connector} {l : ConnectorStep} (h : s.Sound) (hu : s.Unseen)
    (hs : Step s l t) : t.Unseen ↔ ¬ s.ConsumesError l := by
  -- a step that reports no socket
  have hkept : t.undefined = s.undefined → t.sockets.reported = s.sockets.reported →
      (∀ j ∈ s.sockets.reported, j ∈ t.sockets.errorSeen ↔ j ∈ s.sockets.errorSeen) →
      ¬ s.ConsumesError l → (t.Unseen ↔ ¬ s.ConsumesError l) := by
    intro hundefined hreported hseen hc
    exact iff_of_true (hu.kept hundefined hreported hseen) hc
  cases hs.effect with
  | quiet hl hsockets hheld hdestroyed hundefined =>
    exact hkept hundefined (by rw [hsockets]) (by simp [hsockets])
      fun hc => hl.handled hc.handled
  | connecting ret hl hret hsockets hheld hdestroyed hundefined =>
    refine hkept hundefined (by rw [hsockets]; rfl) (by simp [hsockets, Sockets.connect]) fun hc =>
      hc.handled.not_connecting hl
  | refused ret hl hsockets hheld hdestroyed hundefined =>
    exact hkept hundefined (by rw [hsockets]; rfl)
      (by simp [hsockets, Sockets.connect, Sockets.close]) fun hc => hl.handled hc.handled
  | reset hl hsockets hheld hdestroyed hundefined =>
    refine hkept hundefined (by rw [hsockets]) (by simp [hsockets]) fun hc =>
      hc.handled.not_resetting hl
  | error k hl hk hsockets hheld hdestroyed hundefined =>
    refine hkept hundefined (by rw [hsockets]; rfl) (fun j hj => ?_) fun hc => hc.not_errorOnly hl
    rw [hsockets]
    exact h.mem_seeError hk hj
  | close k err localaddr peeraddr hl hk hclose hsockets hheld hdestroyed hundefined =>
    refine hkept hundefined (by simp [hsockets, Sockets.close]) (fun j hj => ?_) fun hc => ?_
    · rw [hsockets]
      exact h.mem_ready hk hj err
    · subst hl
      obtain ⟨⟨rfl, -⟩, -, hconnect, hself, -⟩ := hc
      -- the error was read by `handleError`
      have hread : (s.readySockets true k).socketError k = none := by
        simp [readySockets, Sockets.seeError, Sockets.clearError, Sockets.socketError]
      rcases hclose with herr | hself' | hconnect'
      · exact herr hread
      · simp [hself] at hself'
      · simp [hconnect] at hconnect'
  | report k err localaddr peeraddr hl hk hstate hconnect hself hout hnone hsockets hheld hdestroyed
      hundefined =>
    subst hl
    rw [Unseen.report_iff h hu hk hundefined hsockets]
    simp [ConsumesError, hstate, hconnect, hself, hk]
  | kernel k a hl hout herr hsockets hheld hdestroyed hundefined =>
    exact hkept hundefined (by rw [hsockets]) (by simp [hsockets])
      fun hc => hl.handled hc.handled
  | undefined k hl hk hsockets hheld hdestroyed hundefined =>
    subst hl
    exact iff_of_false (fun hu' => by simp [hu'.1] at hundefined) (fun hc => hc trivial)

/-- A socket reported stays so, and so does an error seen. -/
theorem Step.unseen_back {s t : Connector} {l : ConnectorStep} (hs : Step s l t) (ht : t.Unseen) :
    s.Unseen := by
  have hkept : t.undefined = s.undefined → s.sockets.reported ⊆ t.sockets.reported →
      s.sockets.errorSeen ⊆ t.sockets.errorSeen → s.Unseen := by
    intro hundefined hreported hseen
    exact ⟨hundefined ▸ ht.1, fun k hk hmem => ht.2 k (hreported hk) (hseen hmem)⟩
  have hready : ∀ err k, s.sockets.errorSeen ⊆ (s.readySockets err k).errorSeen := by
    rintro (- | -) k j hj
    · exact hj
    · exact Sockets.mem_seeError.mpr (.inl hj)
  cases hs.effect with
  | quiet hl hsockets hheld hdestroyed hundefined | reset hl hsockets hheld hdestroyed hundefined =>
    exact hkept hundefined (by simp [hsockets]) (by simp [hsockets])
  | connecting ret hl hret hsockets hheld hdestroyed hundefined
  | kernel k a hl hout herr hsockets hheld hdestroyed hundefined =>
    exact hkept hundefined (by rw [hsockets]; exact List.Subset.refl _)
      (by rw [hsockets]; exact List.Subset.refl _)
  | refused ret hl hsockets hheld hdestroyed hundefined =>
    exact hkept hundefined (by rw [hsockets]; exact List.Subset.refl _)
      (by rw [hsockets]; exact List.Subset.refl _)
  | error k hl hk hsockets hheld hdestroyed hundefined =>
    exact hkept hundefined (by rw [hsockets]; exact List.Subset.refl _)
      (by rw [hsockets]; exact hready true k)
  | close k err localaddr peeraddr hl hk hclose hsockets hheld hdestroyed hundefined =>
    exact hkept hundefined (by simp [hsockets, Sockets.close])
      (by rw [hsockets]; exact hready err k)
  | report k err localaddr peeraddr hl hk hstate hconnect hself hout hnone hsockets hheld hdestroyed
      hundefined =>
    exact hkept hundefined (by simp [hsockets, Sockets.report])
      (by rw [hsockets]; exact hready err k)
  | undefined k hl hk hsockets hheld hdestroyed hundefined =>
    rw [ht.1] at hundefined
    cases hundefined

end Connector

/-- **When the connector reports only connections.**  At the end of a run, `_newConnectionCallback`
has been called for sockets only whose attempt succeeded, for each of them once, and for none of
which `handleError` had read an error, if and only if in no step `EPOLLERR` and `EPOLLOUT` were
dispatched together for an attempt with an error (and no event to a destroyed channel). -/
theorem reports_connections_iff {s t : Connector} {tr : List (Connector × ConnectorStep)}
    (h₀ : connectorMachine.init s) (hr : connectorMachine.Run s tr t) :
    t.ReportsConnections ↔ Meets (fun s l => ¬ s.ConsumesError l) tr := by
  obtain rfl : s = .new := h₀
  have ht : t.Sound := hr.keeps (I := Connector.Sound) (C := fun _ _ => True)
    (fun hi _ hs => Connector.Step.sound hi hs) (fun _ _ => trivial) Connector.sound_new
  rw [Connector.reportsConnections_iff ht]
  exact hr.ends_iff (I := Connector.Sound) (Q := Connector.Unseen)
    (fun hi hs => Connector.Step.sound hi hs) (fun _ hs hq => Connector.Step.unseen_back hs hq)
    (fun hi hq hs => Connector.Step.unseen_iff hi hq hs) Connector.sound_new
    ⟨rfl, by simp [Connector.new, Sockets.new]⟩

/-- The theorem for an attempt that succeeds. -/
theorem reports_connections_succeeded : ∃ t tr, connectorMachine.Run .new tr t ∧
    t.sockets.reported = [0] ∧ t.ReportsConnections := by
  let addr : SockaddrIn6 := ⟨.AF_INET, 80, 1, 0⟩
  have hr := Machine.Run.nil (M := connectorMachine) (s := .new)
    |>.snoc (.start (some .EINPROGRESS))
    |>.snoc (.complete (k := 0) none rfl (by decide))
    |>.snoc (.dispatch (k := 0) false true addr { addr with sin6_port := 81 } rfl (by decide))
  refine ⟨_, _, hr, rfl, (reports_connections_iff rfl hr).mpr ?_⟩
  simp only [meets_snoc, meets_nil, true_and]
  refine ⟨⟨id, id⟩, fun hc => ?_⟩
  cases hc.1.1

/-- A refused attempt whose error and writability are dispatched together is reported. -/
theorem reports_refused : ∃ t tr, connectorMachine.Run .new tr t ∧ t.sockets.reported = [0] ∧
    (t.sockets.attempts 0).outcome = .failed ∧ ¬ t.ReportsConnections := by
  let addr : SockaddrIn6 := ⟨.AF_INET, 80, 1, 0⟩
  have hr := Machine.Run.nil (M := connectorMachine) (s := .new)
    |>.snoc (.start (some .EINPROGRESS))
    |>.snoc (.complete (k := 0) (some .ECONNREFUSED) rfl (by decide))
    |>.snoc (.dispatch (k := 0) true true addr { addr with sin6_port := 81 } rfl (by decide))
  refine ⟨_, _, hr, rfl, rfl, fun h => ?_⟩
  cases (h.2.2 0 (by decide)).1

end Reactor.Net
