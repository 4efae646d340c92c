import Reactor.Timer.TimerQueue

/-!
# Timer — firing

Whatever the clock does and whatever callbacks add, a `TimerQueue` fires each timer when it is due.

* `Owned`: every live timer is in `_timers` or in the expired batch, once, under its expiration.
* `Fired`: what has run, and what may still run, of each timer.
* `handleRead_runs_due`: a `handleRead` takes out and runs the entries due when it starts, each
  once and in order.
* `timers_fire`: the four together, in every reachable state.
-/

namespace Reactor.Timers
open Reactor.Lib

/-- The entries taken out of `_timers` and not yet dealt with by `reset`. -/
def Phase.batch : Phase → List Entry
  | .idle => []
  | .run expired _ | .callback expired _ => expired
  | .reset left => left

/-- The entries whose callbacks are still to be run. -/
def Phase.toRun : Phase → List Entry
  | .run _ left | .callback _ left => left
  | .idle | .reset _ => []

namespace TimerQueue

/-! ### What a step does -/

/-- What a step does to the timers: nothing, an addition, taking out the expired entries, or
dealing with the first of them in `reset`. -/
theorem Step.owned_cases {s t : TimerQueue} {l : TimerStep} (hs : Step s l t) :
    (t.heap = s.heap ∧ t.timers = s.timers ∧ t.phase.batch = s.phase.batch) ∨
      (∃ p timer, s.heap p = none ∧ p < UINTPTR_MAX ∧ timer.serial = s.handed ∧
        t.handed = s.handed + 1 ∧ t.heap = Function.update s.heap p (some timer) ∧
        t.timers = s.timers.insert ⟨timer.expiration, p⟩ ∧ t.phase = s.phase) ∨
      (s.phase = .idle ∧ t = s.handleRead) ∨
      (∃ e left timer, s.phase = .reset (e :: left) ∧ t.phase = .reset left ∧
        s.heap e.second = some timer ∧ timer.repeats = true ∧
        t.heap = Function.update s.heap e.second (some (timer.restart s.now)) ∧
        t.timers = s.timers.insert ⟨(timer.restart s.now).expiration, e.second⟩) ∨
      (∃ e left timer, s.phase = .reset (e :: left) ∧ t.phase = .reset left ∧
        s.heap e.second = some timer ∧ timer.repeats = false ∧
        t.heap = Function.update s.heap e.second none ∧ t.timers = s.timers) := by
  cases hs with
  | tick => exact .inl ⟨rfl, rfl, rfl⟩
  | addTimerInLoop p timer hc hp hmax hserial =>
    exact .inr (.inl ⟨p, timer, hp, hmax, hserial, by simp [setTimer]⟩)
  | handleRead hph => exact .inr (.inr (.inl ⟨hph, rfl⟩))
  | run hph => exact .inl ⟨rfl, rfl, by simp [hph, Phase.batch]⟩
  | callbackReturn hph => exact .inl ⟨rfl, rfl, by simp [hph, Phase.batch]⟩
  | startReset hph => exact .inl ⟨rfl, rfl, by simp [hph, Phase.batch]⟩
  | restart hph ht hr => exact .inr (.inr (.inr (.inl ⟨_, _, _, hph, rfl, ht, hr, rfl, rfl⟩)))
  | delete hph ht hr => exact .inr (.inr (.inr (.inr ⟨_, _, _, hph, rfl, ht, hr, rfl, rfl⟩)))
  | resetTimerfd hph => exact .inl ⟨rfl, rfl, by simp [hph, Phase.batch]⟩
  | resetDone hph => exact .inl ⟨rfl, rfl, by simp [hph, Phase.batch]⟩

end TimerQueue

/-! ### Where the live timers are -/

/-- Every live timer is in `_timers` or in the batch, under its expiration, and in one of them
only; no entry of either points to a deleted timer. -/
structure Owned (heap : Address → Option Timer) (timers : SortedSet Entry) (batch : List Entry) :
    Prop where
  live : ∀ e, e ∈ timers ∨ e ∈ batch →
    ∃ timer, heap e.second = some timer ∧ timer.expiration = e.first
  held : ∀ p timer, heap p = some timer →
    ⟨timer.expiration, p⟩ ∈ timers ∨ ⟨timer.expiration, p⟩ ∈ batch
  disjoint : ∀ e ∈ batch, e ∉ timers
  nodup : batch.Nodup
  address : ∀ p timer, heap p = some timer → p < UINTPTR_MAX

namespace Owned

variable {heap : Address → Option Timer} {timers : SortedSet Entry} {batch left : List Entry}

/-- A timer has one entry. -/
theorem eq_of_second (h : Owned heap timers batch) {e e' : Entry}
    (he : e ∈ timers ∨ e ∈ batch) (he' : e' ∈ timers ∨ e' ∈ batch)
    (hsec : e.second = e'.second) : e = e' := by
  obtain ⟨timer, ht, hexp⟩ := h.live e he
  obtain ⟨timer', ht', hexp'⟩ := h.live e' he'
  rw [hsec, ht'] at ht
  cases ht
  cases e; cases e'
  simp_all

/-- An entry tells the expiration of its timer. -/
theorem expiration (h : Owned heap timers batch) {e : Entry} {timer : Timer}
    (he : e ∈ timers ∨ e ∈ batch) (ht : heap e.second = some timer) :
    timer.expiration = e.first := by
  obtain ⟨timer', ht', hexp⟩ := h.live e he
  rw [ht] at ht'; cases ht'
  exact hexp

/-- Among the entries of `_timers` and of the batch from it on, an entry is the only one of its
timer. -/
theorem second_ne_of_suffix {e x : Entry} (h : Owned heap timers batch) (hsuf : e :: left <:+ batch)
    (hx : x ∈ timers ∨ x ∈ left) : x.second ≠ e.second := by
  intro hsec
  have hin : e ∈ batch := hsuf.subset List.mem_cons_self
  rcases hx with hx | hx
  · obtain rfl := h.eq_of_second (.inl hx) (.inr hin) hsec
    exact h.disjoint x hin hx
  · obtain rfl := h.eq_of_second (.inr (hsuf.subset (List.mem_cons_of_mem _ hx))) (.inr hin) hsec
    exact (List.nodup_cons.mp (h.nodup.sublist hsuf.sublist)).1 hx

/-- The first entry of the batch is the only one, anywhere, of its timer. -/
theorem second_ne {e x : Entry} (h : Owned heap timers (e :: left))
    (hx : x ∈ timers ∨ x ∈ left) : x.second ≠ e.second :=
  h.second_ne_of_suffix (List.suffix_refl _) hx

/-- Below the sentry are the entries that are due. -/
theorem lt_sentry_iff (h : Owned heap timers batch) {e : Entry} (he : e ∈ timers)
    (now : Timestamp) : e < ⟨now, UINTPTR_MAX⟩ ↔ e.first ≤ now := by
  obtain ⟨timer, ht, -⟩ := h.live e (.inl he)
  have hmax := h.address _ _ ht
  rw [Entry.lt_iff, le_iff_lt_or_eq]
  exact or_congr_right (and_iff_left hmax)

/-- A timer comes in at a free address. -/
theorem add (h : Owned heap timers batch) {p : Address} {timer : Timer} (hp : heap p = none)
    (hmax : p < UINTPTR_MAX) :
    Owned (Function.update heap p (some timer)) (timers.insert ⟨timer.expiration, p⟩) batch := by
  have hne : ∀ e, e ∈ timers ∨ e ∈ batch → e.second ≠ p := by
    rintro e he rfl
    obtain ⟨timer', ht, -⟩ := h.live e he
    rw [hp] at ht; cases ht
  refine ⟨fun e he => ?_, fun q tm hq => ?_, fun e he hin => ?_, h.nodup, fun q tm hq => ?_⟩
  · rw [SortedSet.mem_insert, or_assoc] at he
    rcases he with rfl | he
    · exact ⟨timer, by simp, rfl⟩
    · simpa [hne e he] using h.live e he
  · by_cases hqp : q = p
    · subst hqp
      simp only [Function.update_self, Option.some.injEq] at hq
      subst hq
      exact .inl (by simp)
    · rw [Function.update_of_ne hqp] at hq
      exact (h.held q tm hq).imp (fun hin => by simp [hin]) id
  · rcases SortedSet.mem_insert.mp hin with rfl | hin
    · exact hne _ (.inr he) rfl
    · exact h.disjoint e he hin
  · by_cases hqp : q = p
    · exact hqp ▸ hmax
    · rw [Function.update_of_ne hqp] at hq
      exact h.address q tm hq

/-- The expired entries go over into the batch. -/
theorem take (h : Owned heap timers []) (sentry : Entry) :
    Owned heap (timers.eraseBelow sentry) (timers.below sentry) := by
  refine ⟨fun e he => ?_, fun p timer hp => ?_, fun e he hin => ?_, timers.nodup_below sentry,
    h.address⟩
  · refine h.live e (.inl ?_)
    rcases he with he | he
    · exact (SortedSet.mem_eraseBelow.mp he).1
    · exact (SortedSet.mem_below.mp he).1
  · have hin := (h.held p timer hp).resolve_right List.not_mem_nil
    by_cases hlt : (⟨timer.expiration, p⟩ : Entry) < sentry
    · exact .inr (SortedSet.mem_below.mpr ⟨hin, hlt⟩)
    · exact .inl (SortedSet.mem_eraseBelow.mpr ⟨hin, hlt⟩)
  · exact (SortedSet.mem_eraseBelow.mp hin).2 (SortedSet.mem_below.mp he).2

/-- The first timer of the batch is deleted. -/
theorem delete {e : Entry} (h : Owned heap timers (e :: left)) :
    Owned (Function.update heap e.second none) timers left := by
  refine ⟨fun x hx => ?_, fun p timer hp => ?_,
    fun x hx => h.disjoint x (List.mem_cons_of_mem _ hx), (List.nodup_cons.mp h.nodup).2,
    fun p timer hp => ?_⟩
  · rw [Function.update_of_ne (h.second_ne hx)]
    exact h.live x (hx.imp id (List.mem_cons_of_mem _))
  · have hpe : p ≠ e.second := by rintro rfl; simp at hp
    rw [Function.update_of_ne hpe] at hp
    refine (h.held p timer hp).imp id fun hin => ?_
    rcases List.mem_cons.mp hin with hin | hin
    · exact absurd (congrArg Entry.second hin) hpe
    · exact hin
  · have hpe : p ≠ e.second := by rintro rfl; simp at hp
    rw [Function.update_of_ne hpe] at hp
    exact h.address p timer hp

/-- The first timer of the batch goes back into `_timers`, as a new one would. -/
theorem restart {e : Entry} {timer timer' : Timer} (h : Owned heap timers (e :: left))
    (ht : heap e.second = some timer) :
    Owned (Function.update heap e.second (some timer'))
      (timers.insert ⟨timer'.expiration, e.second⟩) left := by
  have hadd : Owned (Function.update (Function.update heap e.second none) e.second (some timer'))
      (timers.insert ⟨timer'.expiration, e.second⟩) left :=
    h.delete.add (by simp) (h.address _ _ ht)
  rwa [Function.update_idem] at hadd

end Owned

namespace TimerQueue

/-- Every step keeps the entries and the timers one to one. -/
theorem Step.owned {s t : TimerQueue} {l : TimerStep} (h : Owned s.heap s.timers s.phase.batch)
    (hs : Step s l t) : Owned t.heap t.timers t.phase.batch := by
  rcases hs.owned_cases with ⟨hheap, htim, hb⟩ |
      ⟨p, timer, hp, hmax, -, -, hheap, htim, hph⟩ | ⟨hph, rfl⟩ |
      ⟨e, left, timer, hph, hph', ht, -, hheap, htim⟩ |
      ⟨e, left, timer, hph, hph', ht, -, hheap, htim⟩
  · rw [hheap, htim, hb]; exact h
  · rw [hheap, htim, hph]; exact h.add hp hmax
  · simp only [hph, Phase.batch] at h
    simpa [Phase.batch] using h.take _
  · rw [hph] at h; rw [hheap, htim, hph']; exact h.restart ht
  · rw [hph] at h; rw [hheap, htim, hph']; exact h.delete

/-- A timer is deleted only after it has left `_timers`. -/
theorem Step.freed {s t : TimerQueue} {l : TimerStep} (h : Owned s.heap s.timers s.phase.batch)
    (hs : Step s l t) {p : Address} (hp : s.heap p ≠ none) (hgone : t.heap p = none) {e : Entry}
    (he : e ∈ s.timers) : e.second ≠ p := by
  -- a step that stores a timer frees none
  have hset : ∀ q timer, t.heap = Function.update s.heap q (some timer) → False := by
    intro q timer hheap
    rw [hheap] at hgone
    by_cases hpq : p = q
    · subst hpq; simp at hgone
    · rw [Function.update_of_ne hpq] at hgone; exact hp hgone
  rcases hs.owned_cases with ⟨hheap, -, -⟩ | ⟨q, timer, -, -, -, -, hheap, -⟩ | ⟨-, rfl⟩ |
      ⟨x, left, timer, -, -, -, -, hheap, -⟩ | ⟨x, left, timer, hph, -, -, -, hheap, -⟩
  · exact absurd (hheap ▸ hgone) hp
  · exact (hset _ _ hheap).elim
  · exact absurd (by simpa using hgone) hp
  · exact (hset _ _ hheap).elim
  · have hpx : p = x.second := by
      by_contra hne
      rw [hheap, Function.update_of_ne hne] at hgone
      exact hp hgone
    rw [hph] at h
    exact hpx ▸ h.second_ne (.inl he)

/-- So they are in every state. -/
theorem reachable_owned {s : TimerQueue} (h : timerMachine.Reachable s) :
    Owned s.heap s.timers s.phase.batch := by
  refine h.keeps (I := fun s => Owned s.heap s.timers s.phase.batch) ?_
    fun hi hs => Step.owned hi hs
  rintro s ⟨now, rfl⟩
  exact ⟨by simp [new, Phase.batch], by simp [new], by simp [new, Phase.batch], .nil, by simp [new]⟩

end TimerQueue

/-! ### Which timer ran -/

/-- A serial number belongs to one timer, live or gone, with one interval. -/
structure Serials (heap : Address → Option Timer) (handed : Nat) (runs : List TimerRun) :
    Prop where
  live_lt : ∀ p timer, heap p = some timer → timer.serial < handed
  run_lt : ∀ r ∈ runs, r.timer.serial < handed
  inj : ∀ p p' timer timer', heap p = some timer → heap p' = some timer' →
    timer.serial = timer'.serial → p = p'
  interval : ∀ r ∈ runs, ∀ p timer, heap p = some timer → r.timer.serial = timer.serial →
    r.timer.interval = timer.interval

namespace Serials

variable {heap : Address → Option Timer} {handed : Nat} {runs : List TimerRun}

theorem delete (h : Serials heap handed runs) (p : Address) :
    Serials (Function.update heap p none) handed runs := by
  have hsub : ∀ q timer, Function.update heap p none q = some timer → heap q = some timer := by
    intro q timer hq
    have hqp : q ≠ p := by rintro rfl; simp at hq
    rwa [Function.update_of_ne hqp] at hq
  exact ⟨fun q timer hq => h.live_lt q timer (hsub q timer hq), h.run_lt,
    fun q q' timer timer' hq hq' => h.inj q q' timer timer' (hsub q timer hq) (hsub q' timer' hq'),
    fun r hr q timer hq => h.interval r hr q timer (hsub q timer hq)⟩

/-- A timer with a serial number no other live timer has. -/
theorem set (h : Serials heap handed runs) {p : Address} {timer : Timer} (hp : heap p = none)
    (hlt : timer.serial < handed) (hnew : ∀ q tm, heap q = some tm → tm.serial ≠ timer.serial)
    (hruns : ∀ r ∈ runs, r.timer.serial = timer.serial → r.timer.interval = timer.interval) :
    Serials (Function.update heap p (some timer)) handed runs := by
  have hcases : ∀ q tm, Function.update heap p (some timer) q = some tm →
      (q = p ∧ tm = timer) ∨ heap q = some tm := by
    intro q tm hq
    by_cases hqp : q = p
    · subst hqp
      simp only [Function.update_self, Option.some.injEq] at hq
      exact .inl ⟨rfl, hq.symm⟩
    · rw [Function.update_of_ne hqp] at hq
      exact .inr hq
  refine ⟨fun q tm hq => ?_, h.run_lt, fun q q' tm tm' hq hq' hserial => ?_,
    fun r hr q tm hq hserial => ?_⟩
  · rcases hcases q tm hq with ⟨-, rfl⟩ | hq
    · exact hlt
    · exact h.live_lt q tm hq
  · rcases hcases q tm hq with ⟨hqp, htm⟩ | hold <;>
      rcases hcases q' tm' hq' with ⟨hqp', htm'⟩ | hold'
    · exact hqp.trans hqp'.symm
    · exact absurd (htm ▸ hserial.symm) (hnew q' tm' hold')
    · exact absurd (htm' ▸ hserial) (hnew q tm hold)
    · exact h.inj q q' tm tm' hold hold' hserial
  · rcases hcases q tm hq with ⟨-, rfl⟩ | hq
    · exact hruns r hr hserial
    · exact h.interval r hr q tm hq hserial

theorem add (h : Serials heap handed runs) {p : Address} {timer : Timer} (hp : heap p = none)
    (hserial : timer.serial = handed) :
    Serials (Function.update heap p (some timer)) (handed + 1) runs := by
  have hmore : Serials heap (handed + 1) runs :=
    ⟨fun q tm hq => Nat.lt_succ_of_lt (h.live_lt q tm hq),
      fun r hr => Nat.lt_succ_of_lt (h.run_lt r hr), h.inj, h.interval⟩
  refine hmore.set hp (by omega) (fun q tm hq => ?_) fun r hr hr' => ?_
  · have := h.live_lt q tm hq; omega
  · have := h.run_lt r hr; omega

/-- A timer is restarted; it keeps its number. -/
theorem restart (h : Serials heap handed runs) {p : Address} {timer : Timer}
    (ht : heap p = some timer) (now : Timestamp) :
    Serials (Function.update heap p (some (timer.restart now))) handed runs := by
  have hlt : (timer.restart now).serial < handed := by simpa using h.live_lt p timer ht
  have hset := (h.delete p).set (p := p) (by simp) hlt (fun q tm hq heq => ?_) fun r hr heq => ?_
  · rwa [Function.update_idem] at hset
  · have hqp : q ≠ p := by rintro rfl; simp at hq
    rw [Function.update_of_ne hqp] at hq
    exact hqp (h.inj q p tm timer hq ht (by simpa using heq))
  · simpa using h.interval r hr p timer ht (by simpa using heq)

theorem run (h : Serials heap handed runs) {p : Address} {timer : Timer}
    (ht : heap p = some timer) {r : TimerRun} (hr : r.timer = timer) :
    Serials heap handed (runs ++ [r]) := by
  refine ⟨h.live_lt, fun r' hr' => ?_, h.inj, fun r' hr' q tm hq heq => ?_⟩
  · rcases List.mem_append.mp hr' with hr' | hr'
    · exact h.run_lt r' hr'
    · rw [List.mem_singleton.mp hr', hr]; exact h.live_lt p timer ht
  · rcases List.mem_append.mp hr' with hr' | hr'
    · exact h.interval r' hr' q tm hq heq
    · obtain rfl := List.mem_singleton.mp hr'
      obtain rfl := h.inj p q timer tm ht hq (hr ▸ heq)
      rw [ht] at hq; cases hq
      rw [hr]

end Serials

namespace TimerQueue

/-- Every step keeps the numbers in order. -/
theorem Step.serials {s t : TimerQueue} {l : TimerStep} (h : Serials s.heap s.handed s.runs)
    (hs : Step s l t) : Serials t.heap t.handed t.runs := by
  cases hs with
  | addTimerInLoop p timer hc hp hmax hserial => simpa [setTimer] using h.add hp hserial
  | handleRead => simpa using h
  | run hph ht => exact h.run ht rfl
  | restart hph ht => exact h.restart ht s.now
  | delete => exact h.delete _
  | _ => exact h

end TimerQueue

/-! ### When it ran -/

/-- What an earlier run of a timer says about a later one: the timer repeats, and its interval has
passed. -/
def TimerRun.Before (r : TimerRun) (timer : Timer) (time : Timestamp) : Prop :=
  r.timer.serial = timer.serial →
    timer.repeats = true ∧ r.time + r.timer.interval.micros ≤ time

namespace TimerQueue

/-- No callback ran early; what is queued, or still to be run, is an interval after the last run of
the same timer, and so was every run. -/
structure Fired (s : TimerQueue) : Prop where
  suffix : s.phase.toRun <:+ s.phase.batch
  due : ∀ e ∈ s.phase.toRun, e.first ≤ s.now
  on_time : ∀ r ∈ s.runs, r.timer.expiration ≤ r.time ∧ r.time ≤ s.now
  next : ∀ r ∈ s.runs, ∀ e, e ∈ s.timers ∨ e ∈ s.phase.toRun →
    ∀ timer, s.heap e.second = some timer → r.Before timer e.first
  spaced : s.runs.Pairwise fun r r' => r.Before r'.timer r'.time

/-- A new timer has not run, and older entries point to older timers, as its address was free. -/
theorem Fired.add {s : TimerQueue} {p : Address} {timer : Timer} (h : s.Fired)
    (ho : Owned s.heap s.timers s.phase.batch) (hn : Serials s.heap s.handed s.runs)
    (hp : s.heap p = none) (hserial : timer.serial = s.handed) {r : TimerRun} (hr : r ∈ s.runs)
    {e : Entry} (he : e = ⟨timer.expiration, p⟩ ∨ e ∈ s.timers ∨ e ∈ s.phase.toRun) {tm : Timer}
    (ht : Function.update s.heap p (some timer) e.second = some tm) : r.Before tm e.first := by
  rcases he with rfl | he
  · intro hrun
    have := hn.run_lt r hr
    simp only [Function.update_self, Option.some.injEq] at ht
    subst ht; omega
  · have hne : e.second ≠ p := by
      rintro rfl
      obtain ⟨tm', ht', -⟩ := ho.live e (he.imp id (h.suffix.subset ·))
      rw [hp] at ht'; cases ht'
    rw [Function.update_of_ne hne] at ht
    exact h.next r hr e he tm ht

/-- The callback of the first timer still to be run: it is due, an interval after each earlier run
of it, and has no other entry before it is restarted. -/
theorem Fired.run {s : TimerQueue} {expired left : List Entry} {e : Entry} {timer : Timer}
    (h : s.Fired) (ho : Owned s.heap s.timers s.phase.batch) (hn : Serials s.heap s.handed s.runs)
    (hph : s.phase = .run expired (e :: left)) (ht : s.heap e.second = some timer) :
    Fired { s with runs := s.runs ++ [⟨e, timer, s.now⟩], phase := .callback expired left } := by
  have hrun : s.phase.toRun = e :: left := by simp [hph, Phase.toRun]
  have hsuf : e :: left <:+ s.phase.batch := hrun ▸ h.suffix
  have hexp := ho.expiration (.inr (hsuf.subset List.mem_cons_self)) ht
  have hdue : e.first ≤ s.now := h.due e (by simp [hrun])
  have hb : expired = s.phase.batch := by simp [hph, Phase.batch]
  refine ⟨?_, fun x hx => h.due x (by simp [hrun, show x ∈ left from hx]), ?_, ?_, ?_⟩
  · exact ((List.suffix_cons e left).trans hsuf).trans (by simp [hb, Phase.batch])
  · intro r hr
    rcases List.mem_append.mp hr with hr | hr
    · exact h.on_time r hr
    · obtain rfl := List.mem_singleton.mp hr
      exact ⟨hexp.trans_le hdue, le_refl _⟩
  · intro r hr x hx tm' ht'
    have hx' : x ∈ s.timers ∨ x ∈ left := hx
    rcases List.mem_append.mp hr with hr | hr
    · exact h.next r hr x (hx'.imp id (by simp [hrun, ·])) tm' ht'
    · obtain rfl := List.mem_singleton.mp hr
      intro hserial
      exact absurd (hn.inj _ _ _ _ ht ht' hserial).symm (ho.second_ne_of_suffix hsuf hx')
  · refine List.pairwise_append.mpr ⟨h.spaced, List.pairwise_singleton _ _, fun r hr r' hr' => ?_⟩
    obtain rfl := List.mem_singleton.mp hr'
    intro hserial
    obtain ⟨hrep, hgap⟩ := h.next r hr e (.inr (by simp [hrun])) timer ht hserial
    exact ⟨hrep, hgap.trans hdue⟩

/-- A timer restarted is set an interval after now. -/
theorem Fired.restart {s : TimerQueue} {p : Address} {timer : Timer} (h : s.Fired)
    (hn : Serials s.heap s.handed s.runs) (ht : s.heap p = some timer)
    (hrep : timer.repeats = true) {r : TimerRun} (hr : r ∈ s.runs) :
    r.Before (timer.restart s.now) (timer.restart s.now).expiration := by
  intro hserial
  have hint := hn.interval r hr _ _ ht (by simpa using hserial)
  refine ⟨by simpa using hrep, ?_⟩
  rw [Timer.restart_expiration hrep, hint]
  exact Int.add_le_add_right (h.on_time r hr).2 _

/-- A timer runs when it has expired, in the order of expirations, and once for each. -/
theorem Step.fired {s t : TimerQueue} {l : TimerStep} (ho : Owned s.heap s.timers s.phase.batch)
    (hn : Serials s.heap s.handed s.runs) (h : s.Fired) (hs : Step s l t) : t.Fired := by
  cases hs with
  | tick now hle =>
    exact ⟨h.suffix, fun e he => (h.due e he).trans hle,
      fun r hr => ⟨(h.on_time r hr).1, (h.on_time r hr).2.trans hle⟩, h.next, h.spaced⟩
  | addTimerInLoop p timer hc hp hmax hserial =>
    refine ⟨by simpa [setTimer] using h.suffix, by simpa [setTimer] using h.due,
      by simpa [setTimer] using h.on_time, ?_, by simpa [setTimer] using h.spaced⟩
    intro r hr e he tm ht
    simp only [addTimerInLoop_frame, setTimer, SortedSet.mem_insert, or_assoc] at hr he ht
    exact h.add ho hn hp hserial hr he ht
  | handleRead hph =>
    refine ⟨by simp [Phase.toRun, Phase.batch], fun e he => ?_, by simpa using h.on_time, ?_,
      by simpa using h.spaced⟩
    · have he' : e ∈ s.timers ∧ e < ⟨s.now, UINTPTR_MAX⟩ := by simpa [Phase.toRun] using he
      simpa using (ho.lt_sentry_iff he'.1 s.now).mp he'.2
    · intro r hr e he tm ht
      simp only [handleRead_frame, Phase.toRun, SortedSet.mem_eraseBelow, SortedSet.mem_below]
        at hr he ht
      exact h.next r hr e (.inl (he.elim And.left And.left)) tm ht
  | run hph ht => exact h.run ho hn hph ht
  | callbackReturn hph =>
    exact ⟨by simpa [hph, Phase.toRun, Phase.batch] using h.suffix,
      by simpa [hph, Phase.toRun] using h.due, h.on_time,
      by simpa [hph, Phase.toRun] using h.next, h.spaced⟩
  | startReset hph | resetDone hph =>
    exact ⟨List.nil_suffix, by simp [Phase.toRun], h.on_time,
      by simpa [hph, Phase.toRun] using h.next, h.spaced⟩
  | resetTimerfd hph =>
    exact ⟨List.nil_suffix, by simp [Phase.toRun], h.on_time,
      by simpa [hph, Phase.toRun, TimerQueue.resetTimerfd] using h.next, h.spaced⟩
  | @restart left e timer hph ht hr =>
    have ho' : Owned s.heap s.timers (e :: left) := by rw [hph] at ho; exact ho
    refine ⟨List.nil_suffix, by simp [Phase.toRun], h.on_time, ?_, h.spaced⟩
    intro r hr' x hx tm ht'
    simp only [insert, setTimer, SortedSet.mem_insert, Phase.toRun, List.not_mem_nil,
      or_false] at hx ht'
    rcases hx with rfl | hx
    · simp only [Function.update_self, Option.some.injEq] at ht'
      subst ht'
      exact h.restart hn ht hr hr'
    · rw [Function.update_of_ne (ho'.second_ne (.inl hx))] at ht'
      exact h.next r hr' x (.inl hx) tm ht'
  | @delete left e timer hph ht hr =>
    have ho' : Owned s.heap s.timers (e :: left) := by rw [hph] at ho; exact ho
    refine ⟨List.nil_suffix, by simp [Phase.toRun], h.on_time, ?_, h.spaced⟩
    intro r hr' x hx tm ht'
    simp only [setTimer, Phase.toRun, List.not_mem_nil, or_false] at hx ht'
    rw [Function.update_of_ne (ho'.second_ne (.inl hx))] at ht'
    exact h.next r hr' x (.inl hx) tm ht'

/-- So it is in every state. -/
theorem reachable_fired {s : TimerQueue} (h : timerMachine.Reachable s) :
    Serials s.heap s.handed s.runs ∧ s.Fired := by
  have hall : Owned s.heap s.timers s.phase.batch ∧ Serials s.heap s.handed s.runs ∧ s.Fired := by
    refine h.keeps
      (I := fun s => Owned s.heap s.timers s.phase.batch ∧ Serials s.heap s.handed s.runs ∧ s.Fired)
      ?_ fun ⟨ho, hn, hf⟩ hs => ⟨Step.owned ho hs, Step.serials hn hs, Step.fired ho hn hf hs⟩
    rintro s ⟨now, rfl⟩
    exact ⟨reachable_owned (.of_init ⟨now, rfl⟩),
      ⟨by simp [new], by simp [new], by simp [new], by simp [new]⟩,
      ⟨by simp [new, Phase.toRun], by simp [new, Phase.toRun], by simp [new], by simp [new],
        .nil⟩⟩
  exact hall.2

/-! ### One `handleRead` -/

/-- The entries `handleRead` takes out. -/
def due (s : TimerQueue) : List Entry := s.timers.below ⟨s.now, UINTPTR_MAX⟩

/-- In state `u` the `handleRead` that began in `s` has run its expired entries up to where the
phase says. -/
def Handling (s u : TimerQueue) : Prop :=
  match u.phase with
  | .run expired left | .callback expired left =>
    expired = s.due ∧ ∃ ran, ran ++ left = expired ∧
      u.runs.map TimerRun.entry = s.runs.map TimerRun.entry ++ ran
  | .reset _ | .idle => u.runs.map TimerRun.entry = s.runs.map TimerRun.entry ++ s.due

theorem handling_handleRead (s : TimerQueue) : s.Handling s.handleRead := by
  simp [Handling, due]

/-- Until the next `handleRead` what is done belongs to the batch of this one. -/
theorem Step.handling {s u v : TimerQueue} {l : TimerStep} (h : s.Handling u)
    (hl : l ≠ .handleRead) (hs : Step u l v) : s.Handling v := by
  unfold Handling at h ⊢
  cases hs with
  | tick => exact h
  | addTimerInLoop p timer => simpa [setTimer] using h
  | handleRead => exact absurd rfl hl
  | @run expired left e timer hph ht =>
    simp only [hph] at h
    obtain ⟨hex, ran, hran, hruns⟩ := h
    exact ⟨hex, ran ++ [e], by simpa using hran, by simp [hruns]⟩
  | callbackReturn hph => simpa only [hph] using h
  | startReset hph =>
    simp only [hph, List.append_nil] at h
    obtain ⟨hex, ran, rfl, hruns⟩ := h
    rw [← hex]
    exact hruns
  | restart hph | delete hph | resetTimerfd hph | resetDone hph =>
    simp only [hph] at h
    exact h

end TimerQueue

/-- **Every entry due is run.**  When the `handleRead` that began in `s` is over, `_timers` has lost
the entries that were due when it began, and only those, and it has run exactly them, each once and
in order. -/
theorem handleRead_runs_due {s u t : TimerQueue} {tr : List (TimerQueue × TimerStep)}
    (h : timerMachine.Reachable s) (hu : timerMachine.step s .handleRead u)
    (hr : timerMachine.Run u tr t) (hm : Meets (fun _ l => l ≠ .handleRead) tr)
    (ht : t.phase = .idle) :
    (∀ e, e ∈ u.timers ↔ e ∈ s.timers ∧ ¬ e.first ≤ s.now) ∧
      (∀ e, e ∈ s.due ↔ e ∈ s.timers ∧ e.first ≤ s.now) ∧ s.due.Nodup ∧
      t.runs.map TimerRun.entry = s.runs.map TimerRun.entry ++ s.due := by
  have ho := TimerQueue.reachable_owned h
  cases hu
  have hend : s.Handling t := hr.keeps (I := s.Handling)
    (fun hi hl hs => TimerQueue.Step.handling hi hl hs) hm s.handling_handleRead
  refine ⟨fun e => ?_, fun e => ?_, s.timers.nodup_below _, ?_⟩
  · rw [(TimerQueue.handleRead_frame s).2.2.1, SortedSet.mem_eraseBelow]
    exact and_congr_right fun he => not_congr (ho.lt_sentry_iff he s.now)
  · rw [TimerQueue.due, SortedSet.mem_below]
    exact and_congr_right fun he => ho.lt_sentry_iff he s.now
  · simpa [TimerQueue.Handling, ht] using hend

/-- The loop of `reset` can be gone through to its end: it meets no deleted timer. -/
theorem exists_reset {s : TimerQueue} {left : List Entry} (h : timerMachine.Reachable s)
    (hph : s.phase = .reset left) : ∃ tr t, timerMachine.Run s tr t ∧
      Meets (fun _ l => l ≠ .handleRead) tr ∧ t.phase = .idle := by
  have ho := TimerQueue.reachable_owned h
  induction left generalizing s with
  | nil =>
    cases hf : s.timers.first? with
    | none => exact ⟨_, _, .one (.resetDone hph hf), by simp [Meets], rfl⟩
    | some e =>
      obtain ⟨timer, ht, -⟩ := ho.live e (.inl (SortedSet.first?_mem hf))
      exact ⟨_, _, .one (.resetTimerfd hph hf ht), by simp [Meets], rfl⟩
  | cons e left ih =>
    obtain ⟨timer, ht, -⟩ := ho.live e (.inr (by simp [hph, Phase.batch]))
    have hstep : ∃ l u, l ≠ .handleRead ∧ timerMachine.step s l u ∧ u.phase = .reset left := by
      by_cases hr : timer.repeats = true
      · exact ⟨_, _, by simp, .restart hph ht hr, rfl⟩
      · exact ⟨_, _, by simp, .delete hph ht (by simpa using hr), rfl⟩
    obtain ⟨l, u, hl, hs, hph'⟩ := hstep
    have hu := h.run (.one hs)
    obtain ⟨tr, t, hr, hm, ht⟩ := ih hu hph' (TimerQueue.reachable_owned hu)
    refine ⟨_, t, (Machine.Run.one hs).trans hr, ?_, ht⟩
    simpa [Meets, hl] using hm

/-- Every `handleRead` can be gone through to its end. -/
theorem exists_handleRead {s : TimerQueue} {expired left : List Entry}
    (h : timerMachine.Reachable s) (hph : s.phase = .run expired left) :
    ∃ tr t, timerMachine.Run s tr t ∧ Meets (fun _ l => l ≠ .handleRead) tr ∧
      t.phase = .idle := by
  have ho := TimerQueue.reachable_owned h
  have hsuf := (TimerQueue.reachable_fired h).2.suffix
  induction left generalizing s with
  | nil =>
    have hs : timerMachine.step s .startReset _ := .startReset hph
    obtain ⟨tr, t, hr, hm, ht⟩ := exists_reset (h.run (.one hs)) rfl
    refine ⟨_, t, (Machine.Run.one hs).trans hr, ?_, ht⟩
    simpa [Meets] using hm
  | cons e left ih =>
    have he : e ∈ s.phase.batch := hsuf.subset (by simp [hph, Phase.toRun])
    obtain ⟨timer, ht, -⟩ := ho.live e (.inr he)
    have hs : timerMachine.step s .run _ := .run hph ht
    have hs' : timerMachine.step _ .callbackReturn _ :=
      .callbackReturn (s := { s with
        runs := s.runs ++ [⟨e, timer, s.now⟩], phase := .callback expired left }) rfl
    have hu := (h.run (.one hs)).run (.one hs')
    obtain ⟨tr, t, hr, hm, ht⟩ := ih hu rfl (TimerQueue.reachable_owned hu)
      (TimerQueue.reachable_fired hu).2.suffix
    refine ⟨_, t, ((Machine.Run.one hs).trans (.one hs')).trans hr, ?_, ht⟩
    simpa [Meets] using hm

/-- **Each timer fires when it is due, and as often as it should.**  In every reachable state: no
callback has run before its timer's expiration; the runs of one timer are an interval apart, and
there is a second one only if the timer repeats; outside `handleRead` each live timer has exactly
one entry in `_timers`, under its expiration; no step deletes a timer that `_timers` still points
to; and a `handleRead` begun now takes out and runs exactly the entries due now, and comes to an
end if its callbacks do. -/
theorem timers_fire {s : TimerQueue} (h : timerMachine.Reachable s) :
    (∀ r ∈ s.runs, r.timer.expiration ≤ r.time) ∧
    (s.runs.Pairwise fun r r' => r.timer.serial = r'.timer.serial →
      r'.timer.repeats = true ∧ r.time + r.timer.interval.micros ≤ r'.time) ∧
    (s.phase = .idle → ∀ p timer, s.heap p = some timer →
      ∀ e, e ∈ s.timers ∧ e.second = p ↔ e = ⟨timer.expiration, p⟩) ∧
    (∀ l t p, timerMachine.step s l t → s.heap p ≠ none → t.heap p = none →
      ∀ e ∈ s.timers, e.second ≠ p) ∧
    (∀ u tr t, timerMachine.step s .handleRead u → timerMachine.Run u tr t →
      Meets (fun _ l => l ≠ .handleRead) tr → t.phase = .idle →
      (∀ e, e ∈ u.timers ↔ e ∈ s.timers ∧ ¬ e.first ≤ s.now) ∧
        (∀ e, e ∈ s.due ↔ e ∈ s.timers ∧ e.first ≤ s.now) ∧ s.due.Nodup ∧
        t.runs.map TimerRun.entry = s.runs.map TimerRun.entry ++ s.due) ∧
    (∀ u, timerMachine.step s .handleRead u → ∃ tr t, timerMachine.Run u tr t ∧
      Meets (fun _ l => l ≠ .handleRead) tr ∧ t.phase = .idle) := by
  have ho := TimerQueue.reachable_owned h
  obtain ⟨-, hf⟩ := TimerQueue.reachable_fired h
  refine ⟨fun r hr => (hf.on_time r hr).1, hf.spaced, ?_, ?_,
    fun u tr t hu hr hm ht => handleRead_runs_due h hu hr hm ht, ?_⟩
  · intro hidle p timer hp e
    constructor
    · rintro ⟨he, rfl⟩
      cases e
      simpa [eq_comm] using ho.expiration (.inl he) hp
    · rintro rfl
      simpa [hidle, Phase.batch] using ho.held p timer hp
  · exact fun l t p hs hp hgone e he => TimerQueue.Step.freed ho hs hp hgone he
  · rintro u hs
    refine exists_handleRead (h.run (.one hs)) (show u.phase = .run s.due s.due from ?_)
    cases hs
    simp [TimerQueue.due]

/-- The theorem at a one-shot timer for time 5, which runs at time 7. -/
theorem timers_fire_oneShot : ∃ s, timerMachine.Reachable s ∧
    s.runs.map (fun r => (r.timer.expiration, r.time)) = [(5, 7)] ∧
    ∀ r ∈ s.runs, r.timer.expiration ≤ r.time := by
  let timer : Timer := ⟨5, ⟨false, 0, nofun⟩, 0⟩
  have hr := Machine.Run.nil (M := timerMachine) (s := .new 0)
    |>.snoc (.addTimerInLoop 8 timer (.inl rfl) rfl (by decide) rfl)
    |>.snoc (.tick 7 (by decide))
    |>.snoc (.handleRead rfl)
    |>.snoc (.run (e := ⟨5, 8⟩) rfl rfl)
  have h : timerMachine.Reachable _ := ⟨_, _, ⟨0, rfl⟩, hr⟩
  exact ⟨_, h, rfl, (timers_fire h).1⟩

end Reactor.Timers
