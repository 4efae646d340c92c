import Mathlib.Algebra.Group.Nat.Defs
import Reactor.Net.Connector

/-!
# Net — ConnectorSockets

What becomes of the sockets of a `Connector`.

* `Sockets.Sound`: a socket is held by the channel in the poller, closed or reported, and not two of
  these.
* `Effect`, `Step.effect`: what a step can do with the sockets and the channel.
* `Step.sound`: every step keeps the first.
-/

namespace Reactor.Net
open Reactor.Lib

namespace Sockets

/-! ### What the calls leave as it was -/

variable {S : Sockets} {held : Option Nat} {j k : Nat}

theorem attempts_connect (ret : Option ConnectErrno) (hk : k < S.created) :
    (S.connect ret).attempts k = S.attempts k :=
  Function.update_of_ne (Nat.ne_of_lt hk) _ _

@[simp] theorem outcome_clearError : ((S.clearError j).attempts k).outcome =
    (S.attempts k).outcome := by
  by_cases h : k = j
  · subst h
    simp [clearError]
  · simp [clearError, h]

@[simp] theorem clearError_created : (S.clearError j).created = S.created := rfl
@[simp] theorem clearError_closed : (S.clearError j).closed = S.closed := rfl
@[simp] theorem clearError_reported : (S.clearError j).reported = S.reported := rfl
@[simp] theorem clearError_errorSeen : (S.clearError j).errorSeen = S.errorSeen := rfl

/-- An error that was there has been taken. -/
theorem mem_seeError : k ∈ (S.seeError j).errorSeen ↔
    k ∈ S.errorSeen ∨ k = j ∧ S.socketError j ≠ none := by
  cases h : S.socketError j with
  | none => simp [seeError, h]
  | some e => simp [seeError, h]

/-- The socket has been closed or handed on. -/
def Disposed (S : Sockets) (k : Nat) : Prop := k ∈ S.closed ∨ k ∈ S.reported

@[simp] theorem disposed_connect (ret : Option ConnectErrno) :
    (S.connect ret).Disposed k ↔ S.Disposed k := Iff.rfl

@[simp] theorem disposed_clearError : (S.clearError j).Disposed k ↔ S.Disposed k := Iff.rfl

@[simp] theorem disposed_close : (S.close j).Disposed k ↔ S.Disposed k ∨ k = j := by
  simp [Disposed, close, or_right_comm]

@[simp] theorem disposed_report : (S.report j).Disposed k ↔ S.Disposed k ∨ k = j := by
  simp [Disposed, report, or_assoc]

/-- A socket held by the channel in the poller is open and not handed on, one that is closed is not
reported, and one that is reported has a connection, unless `handleError` read an error of it. -/
structure Sound (S : Sockets) (held : Option Nat) : Prop where
  held_lt : ∀ k, held = some k → k < S.created
  held_closed : ∀ k, held = some k → k ∉ S.closed
  held_reported : ∀ k, held = some k → k ∉ S.reported
  /-- The error of a failed attempt has not been read. -/
  held_error : ∀ k, held = some k → (S.attempts k).outcome = .failed → S.socketError k ≠ none
  held_errorSeen : ∀ k, held = some k → k ∉ S.errorSeen
  closed_lt : ∀ k ∈ S.closed, k < S.created
  reported_lt : ∀ k ∈ S.reported, k < S.created
  errorSeen_lt : ∀ k ∈ S.errorSeen, k < S.created
  closed_nodup : S.closed.Nodup
  reported_nodup : S.reported.Nodup
  disjoint : ∀ k ∈ S.closed, k ∉ S.reported
  real : ∀ k ∈ S.reported, (S.attempts k).outcome = .succeeded ∨ k ∈ S.errorSeen

namespace Sound

theorem release (h : S.Sound held) : S.Sound none :=
  { h with
    held_lt := by simp
    held_closed := by simp
    held_reported := by simp
    held_error := by simp
    held_errorSeen := by simp }

/-- The new socket is not accounted for yet. -/
theorem connect (h : S.Sound held) (ret : Option ConnectErrno) : (S.connect ret).Sound held where
  held_lt k hk := Nat.lt_succ_of_lt (h.held_lt k hk)
  held_closed := h.held_closed
  held_reported := h.held_reported
  held_error k hk := by
    rw [socketError, attempts_connect ret (h.held_lt k hk)]
    exact h.held_error k hk
  held_errorSeen := h.held_errorSeen
  closed_lt k hk := Nat.lt_succ_of_lt (h.closed_lt k hk)
  reported_lt k hk := Nat.lt_succ_of_lt (h.reported_lt k hk)
  errorSeen_lt k hk := Nat.lt_succ_of_lt (h.errorSeen_lt k hk)
  closed_nodup := h.closed_nodup
  reported_nodup := h.reported_nodup
  disjoint := h.disjoint
  real k hk := by
    rw [attempts_connect ret (h.reported_lt k hk)]
    exact h.real k hk

/-- The new socket is held. -/
theorem connecting (h : S.Sound held) {ret : Option ConnectErrno}
    (hret : connectOutcome ret ≠ .failed) : (S.connect ret).Sound (some S.created) :=
  { (h.connect ret).release with
    held_lt := by
      rintro _ ⟨⟩
      exact Nat.lt_succ_self _
    held_closed := by
      rintro _ ⟨⟩ hk
      exact absurd (h.closed_lt _ hk) (Nat.lt_irrefl _)
    held_reported := by
      rintro _ ⟨⟩ hk
      exact absurd (h.reported_lt _ hk) (Nat.lt_irrefl _)
    held_error := by
      rintro _ ⟨⟩ hfailed
      simp [Sockets.connect, hret] at hfailed
    held_errorSeen := by
      rintro _ ⟨⟩ hk
      exact absurd (h.errorSeen_lt _ hk) (Nat.lt_irrefl _) }

theorem close (h : S.Sound held) (hlt : k < S.created) (hheld : held ≠ some k)
    (hclosed : k ∉ S.closed) (hreported : k ∉ S.reported) : (S.close k).Sound held :=
  { h with
    held_closed := by
      intro j hj hmem
      rcases List.mem_append.mp hmem with hmem | hmem
      · exact h.held_closed j hj hmem
      · exact hheld (List.mem_singleton.mp hmem ▸ hj)
    closed_lt := by
      intro j hmem
      rcases List.mem_append.mp hmem with hmem | hmem
      · exact h.closed_lt j hmem
      · exact List.mem_singleton.mp hmem ▸ hlt
    closed_nodup := by
      refine List.nodup_append.mpr ⟨h.closed_nodup, List.nodup_singleton k, ?_⟩
      rintro j hj _ hk rfl
      exact hclosed (List.mem_singleton.mp hk ▸ hj)
    disjoint := by
      intro j hmem
      rcases List.mem_append.mp hmem with hmem | hmem
      · exact h.disjoint j hmem
      · exact List.mem_singleton.mp hmem ▸ hreported }

/-- A socket is handed to the client, which has it from then on. -/
theorem report (h : S.Sound none) (hlt : k < S.created) (hclosed : k ∉ S.closed)
    (hreported : k ∉ S.reported)
    (hreal : (S.attempts k).outcome = .succeeded ∨ k ∈ S.errorSeen) : (S.report k).Sound none :=
  { h with
    held_reported := by simp
    reported_lt := by
      intro j hmem
      rcases List.mem_append.mp hmem with hmem | hmem
      · exact h.reported_lt j hmem
      · exact List.mem_singleton.mp hmem ▸ hlt
    reported_nodup := by
      refine List.nodup_append.mpr ⟨h.reported_nodup, List.nodup_singleton k, ?_⟩
      rintro j hj _ hk rfl
      exact hreported (List.mem_singleton.mp hk ▸ hj)
    disjoint := by
      intro j hj hmem
      rcases List.mem_append.mp hmem with hmem | hmem
      · exact h.disjoint j hj hmem
      · exact hclosed (List.mem_singleton.mp hmem ▸ hj)
    real := by
      intro j hmem
      rcases List.mem_append.mp hmem with hmem | hmem
      · exact h.real j hmem
      · exact List.mem_singleton.mp hmem ▸ hreal }

theorem clearError (h : S.Sound none) (k : Nat) : (S.clearError k).Sound none :=
  { h with
    held_error := by simp
    real := by
      intro j hj
      rw [outcome_clearError]
      exact h.real j hj }

theorem seeError (h : S.Sound none) (hlt : k < S.created) : (S.seeError k).Sound none :=
  { h.clearError k with
    held_errorSeen := by simp
    errorSeen_lt := by
      intro j hj
      rcases mem_seeError.mp hj with hj | ⟨rfl, -⟩
      · exact h.errorSeen_lt j hj
      · exact hlt
    real := by
      intro j hj
      rw [mem_seeError]
      exact ((h.clearError k).real j hj).imp_right .inl }

/-- A change of one attempt that has succeeded before if it has after, and whose error is there if
it has failed. -/
theorem update (h : S.Sound held) (a : Attempt)
    (hout : (S.attempts k).outcome = .succeeded → a.outcome = .succeeded)
    (herr : a.outcome = .failed → a.soError ≠ none) :
    ({ S with attempts := Function.update S.attempts k a } : Sockets).Sound held :=
  { h with
    held_error := by
      intro j hj
      by_cases hjk : j = k
      · subst hjk
        simpa [socketError] using herr
      · simpa [socketError, hjk] using h.held_error j hj
    real := by
      intro j hj
      refine (h.real j hj).imp_left fun hsucc => ?_
      by_cases hjk : j = k
      · subst hjk
        simpa using hout hsucc
      · simpa [hjk] using hsucc }

end Sound

end Sockets

namespace Connector

/-! ### What a step can do -/

/-- The step makes a new channel. -/
def Connecting (s : Connector) : ConnectorStep → Prop
  | .start ret | .restart ret => connectCase ret = .connecting
  | .timer _ ret => s.connectFlag = true ∧ connectCase ret = .connecting
  | .functor ret => s.functors.head? = some .startInLoop ∧ s.connectFlag = true ∧
      connectCase ret = .connecting
  | _ => False

/-- The step runs `resetChannel`. -/
def Resetting (s : Connector) : ConnectorStep → Prop
  | .functor _ => s.functors.head? = some .resetChannel
  | _ => False

/-- A handler runs for an attempt under way, or on a destroyed channel. -/
def Handled (s : Connector) : ConnectorStep → Prop
  | .dispatch err out _ _ => s.state = .kConnecting ∧ (err = true ∨ out = true)
  | .dispatchDestroyed _ => True
  | _ => False

/-- `EPOLLERR` alone, for an attempt under way. -/
def ErrorOnly (s : Connector) : ConnectorStep → Prop
  | .dispatch err out _ _ => s.state = .kConnecting ∧ err = true ∧ out = false
  | _ => False

theorem ErrorOnly.handled {s : Connector} {l : ConnectorStep} (h : s.ErrorOnly l) :
    s.Handled l := by
  cases l with
  | dispatch => exact ⟨h.1, .inl h.2.1⟩
  | _ => exact h.elim

/-- An event comes to an attempt, and is not the beginning of one. -/
theorem Handled.not_connecting {s : Connector} {l : ConnectorStep} (h : s.Handled l) :
    ¬ s.Connecting l := by
  cases l with
  | dispatch | dispatchDestroyed => exact id
  | _ => exact h.elim

theorem Handled.not_resetting {s : Connector} {l : ConnectorStep} (h : s.Handled l) :
    ¬ s.Resetting l := by
  cases l with
  | dispatch | dispatchDestroyed => exact id
  | _ => exact h.elim

/-- None of these. -/
structure Ordinary (s : Connector) (l : ConnectorStep) : Prop where
  connecting : ¬ s.Connecting l
  resetting : ¬ s.Resetting l
  handled : ¬ s.Handled l

/-- The sockets when `handleWrite` reads the error of `k`. -/
def readySockets (s : Connector) (err : Bool) (k : Nat) : Sockets :=
  if err then s.sockets.seeError k else s.sockets

/-- The effect of a step on the sockets and on what the poller has. -/
inductive Effect (s : Connector) (l : ConnectorStep) (t : Connector) : Prop where
  | quiet (hl : s.Ordinary l) (hsockets : t.sockets = s.sockets) (hheld : t.held = s.held)
      (hdestroyed : t.destroyed = s.destroyed) (hundefined : t.undefined = s.undefined)
  | connecting (ret : Option ConnectErrno) (hl : s.Connecting l)
      (hret : connectOutcome ret ≠ .failed) (hsockets : t.sockets = s.sockets.connect ret)
      (hheld : t.held = some s.sockets.created)
      (hdestroyed : t.destroyed = s.destroyed ++ s.held.toList)
      (hundefined : t.undefined = s.undefined)
  | refused (ret : Option ConnectErrno) (hl : s.Ordinary l)
      (hsockets : t.sockets = (s.sockets.connect ret).close s.sockets.created)
      (hheld : t.held = s.held) (hdestroyed : t.destroyed = s.destroyed)
      (hundefined : t.undefined = s.undefined)
  | reset (hl : s.Resetting l) (hsockets : t.sockets = s.sockets) (hheld : t.held = none)
      (hdestroyed : t.destroyed = s.destroyed ++ s.held.toList)
      (hundefined : t.undefined = s.undefined)
  | error (k : Nat) (hl : s.ErrorOnly l) (hk : s.held = some k)
      (hsockets : t.sockets = s.sockets.seeError k) (hheld : t.held = none)
      (hdestroyed : t.destroyed = s.destroyed) (hundefined : t.undefined = s.undefined)
  | close (k : Nat) (err : Bool) (localaddr peeraddr : SockaddrIn6)
      (hl : l = .dispatch err true localaddr peeraddr) (hk : s.held = some k)
      (hclose : (s.readySockets err k).socketError k ≠ none ∨
        isSelfConnect localaddr peeraddr = true ∨ s.connectFlag = false)
      (hsockets : t.sockets = ((s.readySockets err k).clearError k).close k) (hheld : t.held = none)
      (hdestroyed : t.destroyed = s.destroyed) (hundefined : t.undefined = s.undefined)
  | report (k : Nat) (err : Bool) (localaddr peeraddr : SockaddrIn6)
      (hl : l = .dispatch err true localaddr peeraddr) (hk : s.held = some k)
      (hstate : s.state = .kConnecting) (hconnect : s.connectFlag = true)
      (hself : isSelfConnect localaddr peeraddr = false)
      (hout : (s.sockets.attempts k).outcome ≠ .pending)
      (hnone : (s.readySockets err k).socketError k = none)
      (hsockets : t.sockets = ((s.readySockets err k).clearError k).report k)
      (hheld : t.held = none) (hdestroyed : t.destroyed = s.destroyed)
      (hundefined : t.undefined = s.undefined)
  | kernel (k : Nat) (a : Attempt) (hl : s.Ordinary l)
      (hout : (s.sockets.attempts k).outcome = .succeeded → a.outcome = .succeeded)
      (herr : a.outcome = .failed → a.soError ≠ none)
      (hsockets : t.sockets =
        { s.sockets with attempts := Function.update s.sockets.attempts k a })
      (hheld : t.held = s.held) (hdestroyed : t.destroyed = s.destroyed)
      (hundefined : t.undefined = s.undefined)
  | undefined (k : Nat) (hl : l = .dispatchDestroyed k) (hk : k ∈ s.destroyed)
      (hsockets : t.sockets = s.sockets) (hheld : t.held = s.held)
      (hdestroyed : t.destroyed = s.destroyed) (hundefined : t.undefined = true)

/-- `startInLoop()`, whatever the rest of the step did with the queue, the timers and the flag. -/
theorem effect_startInLoop {s s' : Connector} {l : ConnectorStep} {ret : Option ConnectErrno}
    (hsockets : s'.sockets = s.sockets) (hchannel : s'.channel = s.channel)
    (hdestroyed : s'.destroyed = s.destroyed) (hundefined : s'.undefined = s.undefined)
    (hl : s.Connecting l ↔ s'.connectFlag = true ∧ connectCase ret = .connecting)
    (hr : ¬ s.Resetting l) (he : ¬ s.Handled l) : s.Effect l (s'.startInLoop ret) := by
  have hheld : s'.held = s.held := by rw [held, held, hchannel]
  cases hflag : s'.connectFlag with
  | false =>
    rw [startInLoop, hflag]
    exact .quiet ⟨by simp [hl, hflag], hr, he⟩ hsockets hheld hdestroyed hundefined
  | true =>
    rw [startInLoop, hflag, if_pos rfl]
    rcases s'.connect_cases ret with ⟨hcase, hret, heq⟩ | ⟨hcase, heq⟩ | ⟨hcase, heq⟩
    · rw [heq]
      refine .connecting ret (hl.mpr ⟨hflag, hcase⟩) hret ?_ ?_ ?_ hundefined
      · rw [← hsockets]
      · rw [← hsockets]
        rfl
      · rw [← hdestroyed, ← hheld]
    · rw [heq, retry_eq]
      exact .refused ret ⟨by simp [hl, hcase], hr, he⟩ (by rw [← hsockets]) hheld hdestroyed
        hundefined
    · rw [heq]
      exact .refused ret ⟨by simp [hl, hcase], hr, he⟩ (by rw [← hsockets]) hheld hdestroyed
        hundefined

/-- `handleWrite()` in `s'`, whether `handleError` has run before it or not. -/
theorem effect_handleWrite {s s' : Connector} {c c' : SocketChannel} {err : Bool}
    {localaddr peeraddr : SockaddrIn6} (hk : s.held = some c.fd) (hs : s.state = .kConnecting)
    (hout : (s.sockets.attempts c.fd).outcome ≠ .pending) (hs' : s'.state = .kConnecting)
    (hc' : s'.channel = some c') (hfd : c'.fd = c.fd)
    (hsockets : s'.sockets = s.readySockets err c.fd) (hdestroyed : s'.destroyed = s.destroyed)
    (hundefined : s'.undefined = s.undefined) (hflag : s'.connectFlag = s.connectFlag) :
    s.Effect (.dispatch err true localaddr peeraddr) (s'.handleWrite localaddr peeraddr) := by
  rcases handleWrite_cases hs' hc' localaddr peeraddr with
    ⟨hwhy, heq⟩ | ⟨⟨hnone, hself⟩, ⟨hconnect, heq⟩ | ⟨hconnect, heq⟩⟩
  · rw [heq, retry_eq]
    refine .close c.fd err localaddr peeraddr rfl hk ?_ ?_ rfl hdestroyed hundefined
    · rw [hsockets, hfd] at hwhy
      exact hwhy.imp_right .inl
    · rw [← hsockets, ← hfd]
  · rw [heq]
    refine .report c.fd err localaddr peeraddr rfl hk hs (hflag ▸ hconnect) hself hout ?_ ?_ rfl
      hdestroyed hundefined
    · rwa [hsockets, hfd] at hnone
    · rw [← hsockets, ← hfd]
  · rw [heq]
    refine .close c.fd err localaddr peeraddr rfl hk (.inr (.inr (hflag ▸ hconnect))) ?_ rfl
      hdestroyed hundefined
    rw [← hsockets, ← hfd]

/-- What an event does, in the terms of the effects. -/
theorem effect_dispatch {s : Connector} {k : Nat} (err out : Bool)
    (localaddr peeraddr : SockaddrIn6) (hk : s.held = some k)
    (hout : out = true → (s.sockets.attempts k).outcome ≠ .pending) :
    s.Effect (.dispatch err out localaddr peeraddr) (s.dispatch err out localaddr peeraddr) := by
  by_cases hs : s.state = .kConnecting
  · obtain ⟨c, hc, -, rfl⟩ := held_eq_some.mp hk
    cases err with
    | false =>
      cases out with
      | false => exact .quiet ⟨id, id, by simp [Handled]⟩ rfl rfl rfl rfl
      | true => exact effect_handleWrite hk hs (hout rfl) hs hc rfl rfl rfl rfl rfl
    | true =>
      have herr := handleError_eq hs hc
      cases out with
      | false =>
        simp only [dispatch, herr]
        exact .error c.fd ⟨hs, rfl, rfl⟩ hk rfl rfl rfl rfl
      | true =>
        simp only [dispatch, herr]
        exact effect_handleWrite hk hs (hout rfl) hs rfl rfl rfl rfl rfl rfl
  · rw [dispatch_idle hs]
    exact .quiet ⟨id, id, fun he => hs he.1⟩ rfl rfl rfl rfl

/-- What a step does to the sockets. -/
theorem Step.effect {s t : Connector} {l : ConnectorStep} (hs : Step s l t) : s.Effect l t := by
  cases hs with
  | start ret | restart ret =>
    exact effect_startInLoop rfl rfl rfl rfl (by simp [Connecting]) id id
  | startElsewhere | stop => exact .quiet ⟨id, id, id⟩ rfl rfl rfl rfl
  | timer ret hd => exact effect_startInLoop rfl rfl rfl rfl Iff.rfl id id
  | @functor f rest ret hf =>
    cases f with
    | startInLoop =>
      exact effect_startInLoop rfl rfl rfl rfl (by simp [Connecting, hf]) (by simp [Resetting, hf])
        id
    | resetChannel => exact .reset (by simp [Resetting, hf]) rfl rfl rfl rfl
  | dispatch err out localaddr peeraddr hk hout =>
    exact effect_dispatch err out localaddr peeraddr hk hout
  | dispatchDestroyed hk => exact .undefined _ rfl hk rfl rfl rfl rfl
  | @complete sockfd error hk hlt =>
    refine .kernel sockfd _ ⟨id, id, id⟩ (by simp [hk]) ?_ rfl rfl rfl rfl
    cases error <;> simp
  | @fail sockfd error hk =>
    exact .kernel sockfd _ ⟨id, id, id⟩ (fun _ => rfl) (by simp) rfl rfl rfl rfl

/-! ### The invariant -/

/-- The sockets are sound, the one that is waited for included. -/
def Sound (s : Connector) : Prop := s.sockets.Sound s.held

theorem sound_new : new.Sound := by
  constructor <;> simp [new, Sockets.new, held]

section Ready
variable (s : Connector) (err : Bool) (k : Nat)

@[simp] theorem readySockets_created : (s.readySockets err k).created = s.sockets.created := by
  cases err <;> rfl

@[simp] theorem readySockets_closed : (s.readySockets err k).closed = s.sockets.closed := by
  cases err <;> rfl

@[simp] theorem readySockets_reported : (s.readySockets err k).reported = s.sockets.reported := by
  cases err <;> rfl

@[simp] theorem disposed_ready (j : Nat) :
    (s.readySockets err k).Disposed j ↔ s.sockets.Disposed j := by
  cases err <;> rfl

end Ready

/-- What is known of the socket in the poller when `handleWrite` has read its error. -/
theorem Sound.ready {s : Connector} {k : Nat} (h : s.Sound) (hk : s.held = some k) (err : Bool) :
    ((s.readySockets err k).clearError k).Sound none := by
  have hnone : s.sockets.Sound none := Sockets.Sound.release h
  cases err with
  | false => exact hnone.clearError k
  | true => exact (hnone.seeError (h.held_lt k hk)).clearError k

/-- The socket reported has a connection, or an error of it was seen. -/
theorem Sound.ready_real {s : Connector} {k : Nat} {err : Bool} (h : s.Sound) (hk : s.held = some k)
    (hout : (s.sockets.attempts k).outcome ≠ .pending)
    (hnone : (s.readySockets err k).socketError k = none) :
    (s.sockets.attempts k).outcome = .succeeded ∨ k ∈ (s.readySockets err k).errorSeen := by
  cases hk' : (s.sockets.attempts k).outcome with
  | pending => exact absurd hk' hout
  | succeeded => exact .inl rfl
  | failed =>
    have herr := h.held_error k hk hk'
    cases err with
    | false => exact absurd hnone herr
    | true => exact .inr (Sockets.mem_seeError.mpr (.inr ⟨rfl, herr⟩))

/-- Every step keeps the sockets sound. -/
theorem Step.sound {s t : Connector} {l : ConnectorStep} (h : s.Sound) (hs : Step s l t) :
    t.Sound := by
  have hlt := Nat.lt_irrefl s.sockets.created
  rw [Sound]
  cases hs.effect with
  | quiet hl hsockets hheld => rw [hsockets, hheld]; exact h
  | undefined k hl hk hsockets hheld => rw [hsockets, hheld]; exact h
  | connecting ret hl hret hsockets hheld => rw [hsockets, hheld]; exact h.connecting hret
  | refused ret hl hsockets hheld =>
    rw [hsockets, hheld]
    exact (h.connect ret).close (Nat.lt_succ_self _) (fun hk => hlt (h.held_lt _ hk))
      (fun hk => hlt (h.closed_lt _ hk)) (fun hk => hlt (h.reported_lt _ hk))
  | reset hl hsockets hheld => rw [hsockets, hheld]; exact Sockets.Sound.release h
  | error k hl hk hsockets hheld =>
    rw [hsockets, hheld]
    exact (Sockets.Sound.release h).seeError (h.held_lt k hk)
  | close k err localaddr peeraddr hl hk hclose hsockets hheld =>
    rw [hsockets, hheld]
    exact (h.ready hk err).close (by simpa using h.held_lt k hk) (by simp)
      (by simpa using h.held_closed k hk) (by simpa using h.held_reported k hk)
  | report k err localaddr peeraddr hl hk hstate hconnect hself hout hnone hsockets hheld =>
    rw [hsockets, hheld]
    refine (h.ready hk err).report (by simpa using h.held_lt k hk)
      (by simpa using h.held_closed k hk) (by simpa using h.held_reported k hk) ?_
    rw [Sockets.outcome_clearError]
    cases err with
    | false => exact h.ready_real hk hout hnone
    | true => simpa [readySockets, Sockets.seeError] using h.ready_real hk hout hnone
  | kernel k a hl hout herr hsockets hheld => rw [hsockets, hheld]; exact h.update a hout herr

end Connector

end Reactor.Net
