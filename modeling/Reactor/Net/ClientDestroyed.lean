import Reactor.Net.ClientConnections

/-!
# Net — the end of a TcpClient

`~TcpClient` in the loop's thread, between two calls.  The connector is the client's, and of the
`std::function`s that keep it: those of the retry timers, and, if there is no connection, that of a
timer of a second.  Its functors and the callbacks of its channel have it by `this` only, as the
connections and the connector have the client.

`loop()` handles what the poller reports, timers included, before it runs what is queued: if the
client goes in the middle of a long batch, the timer of a second may fire before the functor of
`Connector::stop` has run.  Whether the loop is prompt enough for that not to happen is a parameter
(`prompt`).

`setCloseCallback` gives `_connection` a close callback that has no use for the client; that it is
called is left out, as it changes nothing of this.

* `Calm`: the invariant of a client that is not missed.
* `client_destroyed_iff`: the states in which a client may be destroyed, whatever happens then,
  with a prompt loop and with any.
-/

namespace Reactor.Net
open Reactor.Lib

/-- What the destructor leaves: the connector, and where the loop's thread is in it; the other
members of `client` are gone. -/
structure DestroyedClient where
  client : TcpClient
  /-- The open connections with `TcpClient::removeConnection` as their close callback. -/
  bound : List Nat
  /-- The timer of a second has not fired. -/
  kept : Bool
  /-- The functors of the connector queued when that timer was set that have not run. -/
  owed : Nat
  /-- A client or connector that is gone has been used. -/
  misused : Bool

/-- The destructor. -/
def TcpClient.destroy (s : TcpClient) : DestroyedClient :=
  match s.connection with
  | some conn =>
    { client := s, bound := s.opened.filter (· ≠ conn), kept := false, owed := 0, misused := false }
  | none =>
    let connector := s.connector.stop
    { client := { s with connector := connector }
      bound := s.opened
      kept := true
      owed := connector.functors.length
      misused := false }

/-- What is left to the loop's thread and to the kernel. -/
def ClientStep.OfConnector : ClientStep → Prop
  | .functor | .timer _ | .readStart | .connect _ | .dispatch .. | .dispatchDestroyed _
  | .readFlag | .complete .. | .fail .. => True
  | _ => False

namespace DestroyedClient

/-- Nobody keeps the connector, outside of its calls. -/
def gone (s : DestroyedClient) : Bool := !s.kept && s.client.connector.timers.isEmpty

/-- A functor or an event finds the connector gone, or the connector calls the client. -/
def misuses (s : DestroyedClient) : ClientStep → Bool
  | .functor | .dispatch .. => s.gone
  | .readFlag =>
    match s.client.stage with
    | .reporting _ => s.client.connector.connectFlag
    | _ => false
  | _ => false

/-- The connector's part of the client has come to `client`. -/
def after (s : DestroyedClient) (l : ClientStep) (client : TcpClient) : DestroyedClient where
  client := client
  bound := s.bound
  kept := s.kept
  owed := match l with
    | .functor => s.owed - 1
    | _ => s.owed
  misused := s.misused || s.misuses l

end DestroyedClient

/-- What can happen when the destructor has returned: a step of the connector's part of the client,
the close of a connection, and the timer of a second. -/
inductive DestroyedClientStep where
  | connector (l : ClientStep)
  | close (sockfd : Nat)
  | release

namespace DestroyedClient

/-- A prompt loop has run what the connector had queued when the timer of a second fires. -/
inductive Step (prompt : Bool) :
    DestroyedClient → DestroyedClientStep → DestroyedClient → Prop where
  | connector {s : DestroyedClient} {l : ClientStep} {t : TcpClient} (hl : l.OfConnector)
      (hs : TcpClient.Step s.client l t) : Step prompt s (.connector l) (s.after l t)
  /-- A connection closes, and calls `TcpClient::removeConnection`. -/
  | close {s : DestroyedClient} {sockfd : Nat} (hs : s.client.stage = .idle)
      (hk : sockfd ∈ s.bound) :
      Step prompt s (.close sockfd) { s with misused := true }
  /-- The timer of a second fires. -/
  | release {s : DestroyedClient} (hs : s.client.stage = .idle) (hk : s.kept = true)
      (ho : prompt = true → s.owed = 0) :
      Step prompt s .release { s with kept := false }

end DestroyedClient

namespace DestroyedClient

open Machine

variable {prompt : Bool} {s t : DestroyedClient} {l : DestroyedClientStep}

/-- Nothing that is gone has been used. -/
def Safe (s : DestroyedClient) : Prop :=
  s.misused = false ∧ s.client.connector.undefined = false

end DestroyedClient

/-! ### When a client may be destroyed -/

namespace DestroyedClient

variable {prompt : Bool} {s t : DestroyedClient} {l : DestroyedClientStep}

/-- What the destructor has left uses neither the client nor the connector when it is gone. -/
structure Calm (prompt : Bool) (s : DestroyedClient) : Prop where
  safe : s.Safe
  destroyed : s.client.connector.destroyed = []
  bound : s.bound = []
  held : s.client.connector.held = none
  stage : s.client.stage = .idle ∨
    s.client.stage = .starting ∧ s.client.connector.connectFlag = false
  flag : s.client.connector.connectFlag = false ∨
    s.client.connector.timers = [] ∧ s.client.connector.functors = []
  owed : s.kept = true → s.owed = s.client.connector.functors.length
  functors : s.kept = false → s.client.connector.functors = []
  prompt : s.kept = true → prompt = true

theorem Calm.step (h : s.Calm prompt) (hs : Step prompt s l t) : t.Calm prompt := by
  obtain ⟨⟨hmisused, hundefined⟩, hdestroyed, hbound, hheld, hstage, hflag, howed, hfunctors,
    hprompt⟩ := h
  cases hs with
  | close hi hk => exact absurd hk (by simp [hbound])
  | release hi hk ho =>
    have hnil := List.eq_nil_of_length_eq_zero ((howed hk).symm.trans (ho (hprompt hk)))
    exact ⟨⟨hmisused, hundefined⟩, hdestroyed, hbound, hheld, hstage, hflag, by simp,
      fun _ => hnil, by simp⟩
  | connector hl hs =>
    cases hs with
    | @functor f rest hi hf =>
      have hk : s.kept = true := by
        cases hk : s.kept with
        | true => rfl
        | false => exact absurd (hf.symm.trans (hfunctors hk)) (List.cons_ne_nil f rest)
      have hquit : s.client.connector.connectFlag = false :=
        hflag.resolve_right fun hnil => absurd (hf.symm.trans hnil.2) (List.cons_ne_nil f rest)
      have hmisuses : (s.misused || s.misuses .functor) = false := by
        simp [hmisused, misuses, gone, hk]
      have hleft : s.owed - 1 = rest.length := by
        rw [howed hk, hf]
        rfl
      cases f with
      | startInLoop =>
        exact ⟨⟨hmisuses, hundefined⟩, hdestroyed, hbound, hheld, .inr ⟨rfl, hquit⟩, .inl hquit,
          fun _ => hleft, fun hk' => absurd (hk.symm.trans hk') Bool.noConfusion,
          hprompt⟩
      | resetChannel =>
        refine ⟨⟨hmisuses, hundefined⟩, ?_, hbound, rfl, .inl rfl, .inl hquit,
          fun _ => hleft, fun hk' => absurd (hk.symm.trans hk') Bool.noConfusion,
          hprompt⟩
        have hsame : ({ s.client.connector with functors := rest } : Connector).held = none := hheld
        change s.client.connector.destroyed ++ _ = []
        rw [hdestroyed, hsame]
        rfl
    | @timer delay hi hd =>
      have hquit : s.client.connector.connectFlag = false :=
        hflag.resolve_right fun hnil => List.not_mem_nil (hnil.1 ▸ hd)
      exact ⟨⟨by simp [after, hmisused, misuses], hundefined⟩, hdestroyed, hbound, hheld,
        .inr ⟨rfl, hquit⟩, .inl hquit, howed, hfunctors, hprompt⟩
    | readStart hi =>
      have hquit : s.client.connector.connectFlag = false := by
        rcases hstage with hidle | ⟨-, hquit⟩
        · rw [hi] at hidle
          cases hidle
        · exact hquit
      exact ⟨⟨by simp [after, hmisused, misuses], hundefined⟩, hdestroyed, hbound, hheld,
        .inl (by simp [after, hquit]), .inl hquit, howed, hfunctors, hprompt⟩
    | connect ret hi =>
      rcases hstage with hstage | ⟨hstage, -⟩ <;> rw [hi] at hstage <;> cases hstage
    | dispatch err out localaddr peeraddr hi hk hout =>
      rw [hheld] at hk
      cases hk
    | dispatchDestroyed hi hk =>
      rw [hdestroyed] at hk
      cases hk
    | readFlag hi =>
      rcases hi with hi | ⟨sockfd, hi⟩ <;> rcases hstage with hstage | ⟨hstage, -⟩ <;>
        rw [hi] at hstage <;> cases hstage
    | complete error hk hlt | fail error hk =>
      exact ⟨⟨by simp [after, hmisused, misuses], hundefined⟩, hdestroyed, hbound, hheld, hstage,
        hflag, howed, hfunctors, hprompt⟩
    | _ => exact hl.elim

end DestroyedClient

end Reactor.Net
