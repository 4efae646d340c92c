import Mathlib.Algebra.Order.Ring.Nat
import Mathlib.Data.List.Range
import Reactor.Net.TcpClient

/-!
# Net — backoff

How long a `Connector` waits before it tries again.  `_retryDelayMs` is doubled with each retry, up
to `kMaxRetryDelayMs`, and set back by `restart` only: neither a connection that is made nor a call
of `start` or `stop` changes it.

* `Step.retryDelayMs`: what each step of a client does to it.
* `delays_doubled`: the delays, over every run of a client.
-/

namespace Reactor.Net
open Reactor.Lib

/-- The delay of the retry after `k` others. -/
def backoff (k : Nat) : Nat := min (kInitRetryDelayMs * 2 ^ k) kMaxRetryDelayMs

/-- The next delay is twice this one, up to the longest. -/
theorem backoff_succ (k : Nat) : min (backoff k * 2) kMaxRetryDelayMs = backoff (k + 1) := by
  rw [backoff, backoff, Nat.pow_succ, ← Nat.mul_assoc]
  omega

namespace Connector

/-- What the calls write leaves the delay and the timers alone. -/
theorem delay_connectCall (c : Connector) (ret : Option ConnectErrno) :
    (c.connectCall ret).1.retryDelayMs = c.retryDelayMs ∧
      (c.connectCall ret).1.timers = c.timers := by
  unfold connectCall
  cases connectCase ret <;> exact ⟨rfl, rfl⟩

theorem delay_handleError (c : Connector) :
    c.handleError.retryDelayMs = c.retryDelayMs ∧ c.handleError.timers = c.timers := by
  unfold handleError
  split
  · cases hc : c.channel <;> simp [withChannel, hc, removeAndResetChannel]
  · exact ⟨rfl, rfl⟩

theorem delay_writeCall (c : Connector) (localaddr peeraddr : SockaddrIn6) :
    (c.writeCall localaddr peeraddr).1.retryDelayMs = c.retryDelayMs ∧
      (c.writeCall localaddr peeraddr).1.timers = c.timers := by
  unfold writeCall
  split
  · cases hc : c.channel with
    | none => exact ⟨rfl, rfl⟩
    | some ch =>
      simp only
      split
      · exact ⟨rfl, rfl⟩
      · split <;> exact ⟨rfl, rfl⟩
  · exact ⟨rfl, rfl⟩

theorem delay_dispatchCall (c : Connector) (err out : Bool) (localaddr peeraddr : SockaddrIn6) :
    (c.dispatchCall err out localaddr peeraddr).1.retryDelayMs = c.retryDelayMs ∧
      (c.dispatchCall err out localaddr peeraddr).1.timers = c.timers := by
  have herr : ∀ err : Bool, (if err then c.handleError else c).retryDelayMs = c.retryDelayMs ∧
      (if err then c.handleError else c).timers = c.timers := by
    intro err
    cases err with
    | false => exact ⟨rfl, rfl⟩
    | true => exact c.delay_handleError
  obtain ⟨hdelay, htimers⟩ := herr err
  unfold dispatchCall
  cases out with
  | false => exact ⟨hdelay, htimers⟩
  | true =>
    obtain ⟨hdelay', htimers'⟩ :=
      delay_writeCall (if err then c.handleError else c) localaddr peeraddr
    exact ⟨hdelay'.trans hdelay, htimers'.trans htimers⟩

end Connector

namespace TcpClient

variable {s t : TcpClient} {l : ClientStep}

/-- What a step asks of `runAfter`. -/
def asks (s : TcpClient) : ClientStep → List Nat
  | .readFlag =>
    if s.stage = .retrying ∧ s.connector.connectFlag = true then [s.connector.retryDelayMs] else []
  | _ => []

/-- `_retryDelayMs` after a step. -/
def nextDelay (s : TcpClient) : ClientStep → Nat
  | .restart => kInitRetryDelayMs
  | l => if s.asks l = [] then s.connector.retryDelayMs
    else min (s.connector.retryDelayMs * 2) kMaxRetryDelayMs

/-- The delays asked for since the last `restart`, or ever, after another step. -/
def delaysAfter (delays : List Nat) : TcpClient × ClientStep → List Nat
  | (_, .restart) => []
  | (s, l) => delays ++ s.asks l

/-- The delays asked for in a run since the last `restart`, or ever. -/
def delays (tr : List (TcpClient × ClientStep)) : List Nat := tr.foldl delaysAfter []

theorem delays_snoc (tr : List (TcpClient × ClientStep)) :
    delays (tr ++ [(s, l)]) = delaysAfter (delays tr) (s, l) := by
  simp [delays]

/-- A step asks for one timer at most, with the delay that is due. -/
theorem asks_eq (s : TcpClient) (l : ClientStep) :
    s.asks l = [] ∨ s.asks l = [s.connector.retryDelayMs] := by
  unfold asks
  split
  · split
    · exact .inr rfl
    · exact .inl rfl
  · exact .inl rfl

/-- **One step.**  The delay is doubled when it has been asked for, and set back by `restart`. -/
theorem Step.retryDelayMs (hs : Step s l t) :
    t.connector.retryDelayMs = s.nextDelay l ∧
      ∀ d ∈ t.connector.timers, d ∈ s.connector.timers ∨ d ∈ s.asks l := by
  cases hs with
  | restart => exact ⟨rfl, fun d hd => .inl hd⟩
  | @functor f rest hstage hf =>
    cases f with
    | startInLoop => exact ⟨rfl, fun d hd => .inl hd⟩
    | resetChannel => exact ⟨rfl, fun d hd => .inl hd⟩
  | timer => exact ⟨rfl, fun d hd => .inl (List.mem_of_mem_erase hd)⟩
  | connect ret =>
    obtain ⟨hdelay, htimers⟩ := s.connector.delay_connectCall ret
    exact ⟨hdelay, fun d hd => .inl (htimers ▸ hd)⟩
  | dispatch err out localaddr peeraddr =>
    obtain ⟨hdelay, htimers⟩ := s.connector.delay_dispatchCall err out localaddr peeraddr
    exact ⟨hdelay, fun d hd => .inl (htimers ▸ hd)⟩
  | readFlag hstage =>
    rcases hstage with hstage | ⟨sockfd, hstage⟩
    · by_cases hflag : s.connector.connectFlag = true
      · simp [nextDelay, asks, TcpClient.readFlag, Connector.readFlag, hstage, hflag]
      · simp [nextDelay, asks, TcpClient.readFlag, Connector.readFlag, hstage, hflag]
    · by_cases hflag : s.connector.connectFlag = true
      · simp [nextDelay, asks, TcpClient.readFlag, Connector.readFlag, hstage, hflag, newConnection]
      · simp [nextDelay, asks, TcpClient.readFlag, Connector.readFlag, hstage, hflag]
  | _ => exact ⟨rfl, fun d hd => .inl hd⟩

/-- These delays have been asked for since the delay was set to the first. -/
structure Doubled (s : TcpClient) (delays : List Nat) : Prop where
  delays_eq : delays = (List.range delays.length).map backoff
  next : s.connector.retryDelayMs = backoff delays.length
  timers : ∀ d ∈ s.connector.timers, ∃ k, d = backoff k

/-- A step that does not set it back. -/
theorem Doubled.asked {delays : List Nat} (h : s.Doubled delays)
    (hdelay : t.connector.retryDelayMs = if s.asks l = [] then s.connector.retryDelayMs
      else min (s.connector.retryDelayMs * 2) kMaxRetryDelayMs)
    (htimers : ∀ d ∈ t.connector.timers, ∃ k, d = backoff k) : t.Doubled (delays ++ s.asks l) := by
  rcases s.asks_eq l with hasks | hasks
  · rw [if_pos hasks] at hdelay
    rw [hasks, List.append_nil]
    exact ⟨h.delays_eq, hdelay.trans h.next, htimers⟩
  · rw [if_neg (by simp [hasks]), h.next, backoff_succ] at hdelay
    rw [hasks, h.next]
    refine ⟨?_, by rw [List.length_append, List.length_singleton, hdelay], htimers⟩
    rw [List.length_append, List.length_singleton, List.range_succ, List.map_append,
      List.map_singleton, ← h.delays_eq]

/-- Every step keeps the sequence; `restart` begins it again. -/
theorem Doubled.step {delays : List Nat} (h : s.Doubled delays) (hs : Step s l t) :
    t.Doubled (delaysAfter delays (s, l)) := by
  obtain ⟨hdelay, hadded⟩ := hs.retryDelayMs
  have htimers : ∀ d ∈ t.connector.timers, ∃ k, d = backoff k := by
    intro d hd
    rcases hadded d hd with hd | hd
    · exact h.timers d hd
    · rcases s.asks_eq l with hasks | hasks <;> rw [hasks] at hd
      · cases hd
      · exact ⟨_, (List.mem_singleton.mp hd).trans h.next⟩
  cases l with
  | restart => exact ⟨rfl, hdelay, htimers⟩
  | _ => exact h.asked hdelay htimers

end TcpClient

/-- **The delays are doubled up to the longest.**  In every run of a client, whatever its
connections, its attempts and the calling thread do: the delays of the retries since the last
`restart`, or ever, are 500 milliseconds, twice as much, and so on up to 30000, in order, and so
will be the next; each timer that is waiting has one of these delays. -/
theorem delays_doubled {s t : TcpClient} {tr : List (TcpClient × ClientStep)}
    (hinit : clientMachine.init s) (h : clientMachine.Run s tr t) :
    TcpClient.delays tr = (List.range (TcpClient.delays tr).length).map backoff ∧
      t.connector.retryDelayMs = backoff (TcpClient.delays tr).length ∧
      ∀ d ∈ t.connector.timers, ∃ k, d = backoff k := by
  have hdoubled : t.Doubled (TcpClient.delays tr) := by
    induction h with
    | nil =>
      cases hinit
      exact ⟨rfl, rfl, nofun⟩
    | snoc _ hst ih =>
      rw [TcpClient.delays_snoc]
      exact ih.step hst
  exact ⟨hdoubled.delays_eq, hdoubled.next, hdoubled.timers⟩

/-- The theorem for a client whose first attempt is refused. -/
theorem delays_doubled_refused : ∃ t : TcpClient, clientMachine.Reachable t ∧
    t.connector.timers = [500] ∧ t.connector.retryDelayMs = 1000 := by
  have hr := Machine.Run.nil (M := clientMachine) (s := .new)
    |>.snoc (.callConnect rfl)
    |>.snoc (.storeStart rfl)
    |>.snoc (.queueStart rfl)
    |>.snoc (.functor (f := .startInLoop) rfl rfl)
    |>.snoc (.readStart rfl)
    |>.snoc (.connect (some .ECONNREFUSED) rfl)
    |>.snoc (.readFlag (.inl rfl))
  exact ⟨_, ⟨_, _, rfl, hr⟩, rfl, (delays_doubled rfl hr).2.1.trans (by decide)⟩

end Reactor.Net
