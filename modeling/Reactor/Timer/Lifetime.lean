import Mathlib.Data.List.Nodup
import Mathlib.Data.List.Perm.Basic
import Reactor.Timer.Firing

/-!
# Timer — life time

The `Timer` objects from `new` in `addTimer` to `delete`.  Called in another thread, `addTimer`
leaves the timer to a functor of the loop; a loop may be destroyed before it has run its functors.

* `Accounted`: every timer the queue has got is live or deleted, and none is deleted twice.
* `Accounted.deleteAll`: the loop of `~TimerQueue`.
* `timers_deleted`: over every run, and what the destructor leaves.

The loop is destroyed where it is at rest, not by one of its callbacks.
-/

namespace Reactor.Timers
open Reactor.Lib

/-- A timer with this serial number is live. -/
def Live (heap : Address → Option Timer) (n : Nat) : Prop :=
  ∃ p timer, heap p = some timer ∧ timer.serial = n

/-- `delete timer.second` for each entry; the heap then, and what was deleted.  `none` is a pointer
to no timer. -/
def deleteAll (heap : Address → Option Timer) :
    List Entry → Option ((Address → Option Timer) × List Nat)
  | [] => some (heap, [])
  | e :: rest => do
    let timer ← heap e.second
    let (heap, deleted) ← deleteAll (Function.update heap e.second none) rest
    return (heap, timer.serial :: deleted)

/-- A `TimerQueue` with the timers that are on their way to it, and those that have been deleted. -/
structure TimerLife where
  queue : TimerQueue
  /-- The functors of `addTimer` in other threads that have not run, with their timers. -/
  pending : List (Address × Timer)
  /-- How many timers `addTimer` has made. -/
  made : Nat
  /-- The timers deleted, by serial number. -/
  deleted : List Nat
  destroyed : Bool

/-- The steps of the queue, those of `addTimer` in other threads, and the destructor. -/
inductive TimerLifeStep where
  | queue (l : TimerStep)
  | addTimer (p : Address) (timer : Timer)
  | functor
  | destroy

/-- What a step of the queue deletes. -/
def TimerQueue.deletes (s : TimerQueue) : TimerStep → List Nat
  | .delete => match s.phase with
    | .reset (e :: _) => (s.heap e.second).toList.map Timer.serial
    | _ => []
  | _ => []

/-- How many timers it makes. -/
def TimerStep.makes : TimerStep → Nat
  | .addTimerInLoop _ _ => 1
  | _ => 0

namespace TimerLife

/-- `addTimer` in another thread. -/
def addTimer (s : TimerLife) (p : Address) (timer : Timer) : TimerLife :=
  { s with pending := s.pending ++ [(p, timer)], made := s.made + 1 }

/-- The functor of `addTimer`. -/
def runFunctor (s : TimerLife) (p : Address) (timer : Timer) (rest : List (Address × Timer)) :
    TimerLife :=
  let timer := { timer with serial := s.queue.handed }
  let queue := { s.queue.setTimer p (some timer) with handed := s.queue.handed + 1 }
  { s with queue := queue.addTimerInLoop p timer, pending := rest }

/-- `~TimerQueue` -/
def destroy (s : TimerLife) : Option TimerLife := do
  let (heap, deleted) ← deleteAll s.queue.heap s.queue.timers.elems
  return { s with
    queue := { s.queue with heap := heap, timers := .empty }
    deleted := s.deleted ++ deleted
    destroyed := true }

/-- The steps; nothing is done to a queue that has been destroyed. -/
inductive Step : TimerLife → TimerLifeStep → TimerLife → Prop where
  /-- A timer made in the loop thread has an address that no timer has. -/
  | queue {s l queue} (hd : s.destroyed = false) (h : TimerQueue.Step s.queue l queue)
      (hp : ∀ p timer, l = .addTimerInLoop p timer → p ∉ s.pending.map Prod.fst) :
      Step s (.queue l) { s with
        queue := queue
        made := s.made + l.makes
        deleted := s.deleted ++ s.queue.deletes l }
  | addTimer {s} (p : Address) (timer : Timer) (hd : s.destroyed = false)
      (hp : s.queue.heap p = none) (hpending : p ∉ s.pending.map Prod.fst)
      (hmax : p < UINTPTR_MAX) :
      Step s (.addTimer p timer) (s.addTimer p timer)
  | functor {s p timer rest} (hd : s.destroyed = false) (hph : s.queue.phase = .idle)
      (hf : s.pending = (p, timer) :: rest) : Step s .functor (s.runFunctor p timer rest)
  | destroy {s t} (hd : s.destroyed = false) (hph : s.queue.phase = .idle)
      (ht : s.destroy = some t) : Step s .destroy t

end TimerLife

/-- A queue that has been constructed, and all that can follow. -/
def timerLifeMachine : Machine TimerLife TimerLifeStep where
  init s := ∃ now, s = ⟨.new now, [], 0, [], false⟩
  step := TimerLife.Step

/-! ### Live or deleted -/

/-- Every timer the queue has got is live or deleted, not both, and deleted once. -/
structure Accounted (heap : Address → Option Timer) (handed : Nat) (deleted : List Nat) : Prop where
  nodup : deleted.Nodup
  handed : ∀ n, n < handed ↔ n ∈ deleted ∨ Live heap n
  gone : ∀ n ∈ deleted, ¬ Live heap n

namespace Accounted

variable {heap : Address → Option Timer} {handed : Nat} {deleted : List Nat} {runs : List TimerRun}
  {p : Address} {timer timer' : Timer}

theorem live_add (hp : heap p = none) (n : Nat) :
    Live (Function.update heap p (some timer)) n ↔ n = timer.serial ∨ Live heap n := by
  constructor
  · rintro ⟨q, tm, hq, rfl⟩
    by_cases hqp : q = p
    · rw [hqp, Function.update_self] at hq
      cases hq
      exact .inl rfl
    · rw [Function.update_of_ne hqp] at hq
      exact .inr ⟨q, tm, hq, rfl⟩
  · rintro (rfl | ⟨q, tm, hq, rfl⟩)
    · exact ⟨p, timer, Function.update_self _ _ _, rfl⟩
    · have hqp : q ≠ p := by
        rintro rfl
        rw [hp] at hq
        cases hq
      exact ⟨q, tm, (Function.update_of_ne hqp _ _).trans hq, rfl⟩

/-- A timer that comes in. -/
theorem add (h : Accounted heap handed deleted) (hp : heap p = none)
    (hserial : timer.serial = handed) :
    Accounted (Function.update heap p (some timer)) (handed + 1) deleted where
  nodup := h.nodup
  handed := fun n => by
    rw [live_add hp, or_left_comm, ← h.handed, hserial]
    omega
  gone := fun n hn hlive => by
    rcases (live_add hp n).mp hlive with rfl | hlive
    · have hlt := (h.handed _).mpr (.inl hn)
      omega
    · exact h.gone n hn hlive

theorem live_delete (hs : Serials heap handed runs) (hp : heap p = some timer) (n : Nat) :
    Live (Function.update heap p none) n ↔ Live heap n ∧ n ≠ timer.serial := by
  constructor
  · rintro ⟨q, tm, hq, rfl⟩
    have hqp : q ≠ p := by
      rintro rfl
      rw [Function.update_self] at hq
      cases hq
    rw [Function.update_of_ne hqp] at hq
    exact ⟨⟨q, tm, hq, rfl⟩, fun heq => hqp (hs.inj q p tm timer hq hp heq)⟩
  · rintro ⟨⟨q, tm, hq, rfl⟩, hne⟩
    have hqp : q ≠ p := by
      rintro rfl
      rw [hp] at hq
      cases hq
      exact hne rfl
    exact ⟨q, tm, (Function.update_of_ne hqp _ _).trans hq, rfl⟩

/-- A timer that is deleted. -/
theorem delete (h : Accounted heap handed deleted) (hs : Serials heap handed runs)
    (hp : heap p = some timer) :
    Accounted (Function.update heap p none) handed (deleted ++ [timer.serial]) where
  nodup := by
    refine List.nodup_append.mpr ⟨h.nodup, by simp, fun n hn m hm heq => ?_⟩
    rw [heq, List.mem_singleton.mp hm] at hn
    exact h.gone _ hn ⟨p, timer, hp, rfl⟩
  handed := fun n => by
    rw [h.handed, live_delete hs hp, List.mem_append, List.mem_singleton]
    have hlive : Live heap timer.serial := ⟨p, timer, hp, rfl⟩
    by_cases heq : n = timer.serial
    · simp [heq, hlive]
    · simp [heq]
  gone := fun n hn hlive => by
    rw [live_delete hs hp] at hlive
    rcases List.mem_append.mp hn with hn | hn
    · exact h.gone n hn hlive.1
    · exact hlive.2 (List.mem_singleton.mp hn)

/-- A timer that is set again stays the same. -/
theorem restart (h : Accounted heap handed deleted) (hs : Serials heap handed runs)
    (hp : heap p = some timer) (hserial : timer'.serial = timer.serial) :
    Accounted (Function.update heap p (some timer')) handed deleted := by
  have hlive : ∀ n, Live (Function.update heap p (some timer')) n ↔ Live heap n := by
    intro n
    have hadd : Live (Function.update (Function.update heap p none) p (some timer')) n ↔
        n = timer'.serial ∨ Live (Function.update heap p none) n :=
      live_add (Function.update_self p none heap) n
    rw [Function.update_idem] at hadd
    rw [hadd, live_delete hs hp, hserial]
    constructor
    · rintro (rfl | ⟨hn, -⟩)
      · exact ⟨p, timer, hp, rfl⟩
      · exact hn
    · intro hn
      by_cases heq : n = timer.serial
      · exact .inl heq
      · exact .inr ⟨hn, heq⟩
  exact ⟨h.nodup, fun n => by rw [hlive, h.handed], fun n hn => by rw [hlive]; exact h.gone n hn⟩

/-- **The loop of `~TimerQueue`** deletes the timers of its entries, which are different. -/
theorem deleteAll {entries : List Entry} (h : Accounted heap handed deleted)
    (hs : Serials heap handed runs) (hnodup : (entries.map Entry.second).Nodup)
    (hlive : ∀ e ∈ entries, heap e.second ≠ none) :
    ∃ heap' more, Timers.deleteAll heap entries = some (heap', more) ∧
      Accounted heap' handed (deleted ++ more) ∧ Serials heap' handed runs ∧
      ∀ p, heap' p = if p ∈ entries.map Entry.second then none else heap p := by
  induction entries generalizing heap deleted with
  | nil => exact ⟨heap, [], rfl, by rwa [List.append_nil], hs, fun p => rfl⟩
  | cons e rest ih =>
    obtain ⟨hnot, hnodup⟩ := List.nodup_cons.mp hnodup
    obtain ⟨timer, hp⟩ := Option.ne_none_iff_exists'.mp (hlive e List.mem_cons_self)
    have hrest : ∀ e' ∈ rest, Function.update heap e.second none e'.second ≠ none := by
      intro e' hmem
      have hne : e'.second ≠ e.second := fun heq => hnot (heq ▸ List.mem_map_of_mem hmem)
      rw [Function.update_of_ne hne]
      exact hlive e' (List.mem_cons_of_mem _ hmem)
    obtain ⟨heap', more, heq, hacc, hserials, hheap⟩ :=
      ih (h.delete hs hp) (hs.delete e.second) hnodup hrest
    refine ⟨heap', timer.serial :: more, ?_, by simpa using hacc, hserials, fun p => ?_⟩
    · simp [Timers.deleteAll, hp, heq]
    · rw [hheap, List.map_cons]
      by_cases hpe : p = e.second
      · simp [hpe, hnot]
      · simp [hpe]

end Accounted

/-! ### Over a run -/

namespace TimerQueue

variable {s t : TimerQueue} {l : TimerStep} {deleted : List Nat}

/-- A step of the queue adds the timer that it makes and takes the one that it deletes. -/
theorem Step.accounted (h : Accounted s.heap s.handed deleted)
    (hserials : Serials s.heap s.handed s.runs) (hs : Step s l t) :
    Accounted t.heap t.handed (deleted ++ s.deletes l) ∧ t.handed = s.handed + l.makes := by
  have hsame : ∀ {t : TimerQueue}, s.deletes l = [] → t.heap = s.heap → t.handed = s.handed →
      Accounted t.heap t.handed (deleted ++ s.deletes l) := by
    intro t hdel hheap hhanded
    rw [hdel, hheap, hhanded, List.append_nil]
    exact h
  cases hs with
  | addTimerInLoop p timer hc hp hmax hserial =>
    refine ⟨?_, by simp [TimerStep.makes]⟩
    simpa [setTimer, deletes] using h.add hp hserial
  | handleRead => exact ⟨hsame rfl (by simp) (by simp), by simp [TimerStep.makes]⟩
  | restart hph ht =>
    refine ⟨?_, rfl⟩
    simpa [deletes, setTimer, TimerQueue.insert] using
      h.restart hserials ht (Timer.restart_serial _ _)
  | delete hph ht =>
    refine ⟨?_, rfl⟩
    simpa [deletes, setTimer, hph, ht] using h.delete hserials ht
  | _ => exact ⟨hsame rfl rfl rfl, rfl⟩

/-- An address without a timer gets one only in `addTimerInLoop`. -/
theorem Step.free (hs : Step s l t) {p : Address} (hp : s.heap p = none)
    (hne : ∀ q timer, l = .addTimerInLoop q timer → p ≠ q) : t.heap p = none := by
  cases hs with
  | addTimerInLoop q timer =>
    simpa [setTimer, Function.update_of_ne (hne q timer rfl)] using hp
  | handleRead => simpa using hp
  | @restart left e timer hph ht =>
    have hpe : p ≠ e.second := by
      rintro rfl
      rw [hp] at ht
      cases ht
    exact (Function.update_of_ne hpe _ _).trans hp
  | @delete left e timer hph ht =>
    by_cases hpe : p = e.second
    · rw [hpe]
      exact Function.update_self _ _ _
    · exact (Function.update_of_ne hpe _ _).trans hp
  | _ => exact hp

end TimerQueue

namespace TimerLife

variable {s t : TimerLife} {l : TimerLifeStep}

/-- Every timer made is pending, live or deleted. -/
structure Kept (s : TimerLife) : Prop where
  owned : Owned s.queue.heap s.queue.timers s.queue.phase.batch
  serials : Serials s.queue.heap s.queue.handed s.queue.runs
  accounted : Accounted s.queue.heap s.queue.handed s.deleted
  made : s.made = s.queue.handed + s.pending.length
  /-- The timers that are pending have addresses of their own. -/
  pending : ∀ p ∈ s.pending.map Prod.fst, s.queue.heap p = none ∧ p < UINTPTR_MAX
  nodup : (s.pending.map Prod.fst).Nodup
  done : s.destroyed = true → ∀ p, s.queue.heap p = none

/-- A step of the queue, in which it may take up the first of the timers that are pending. -/
theorem Kept.queue (h : s.Kept) (hd : s.destroyed = false) {l : TimerStep} {queue : TimerQueue}
    (hs : TimerQueue.Step s.queue l queue) (pending : List (Address × Timer)) (made : Nat)
    (hsub : pending <:+ s.pending)
    (hp : ∀ p timer, l = .addTimerInLoop p timer → p ∉ pending.map Prod.fst)
    (hmade : made + s.pending.length = s.made + l.makes + pending.length) :
    Kept { s with
      queue := queue
      pending := pending
      made := made
      deleted := s.deleted ++ s.queue.deletes l } := by
  obtain ⟨hacc, hhanded⟩ := hs.accounted h.accounted h.serials
  have hold := h.made
  refine ⟨hs.owned h.owned, hs.serials h.serials, hacc, ?_, fun p hmem => ?_,
    h.nodup.sublist (hsub.sublist.map _), fun hdone => ?_⟩
  · simp only [hhanded]
    omega
  · obtain ⟨hnone, hmax⟩ := h.pending p ((hsub.sublist.map Prod.fst).subset hmem)
    refine ⟨hs.free hnone fun q timer hl heq => ?_, hmax⟩
    exact hp q timer hl (heq ▸ hmem)
  · rw [hd] at hdone
    cases hdone

/-- The functor of `addTimer` does what `addTimer` does in the loop thread. -/
theorem Kept.functor_step (h : s.Kept) (hph : s.queue.phase = .idle) {p : Address} {timer : Timer}
    {rest : List (Address × Timer)} (hf : s.pending = (p, timer) :: rest) :
    TimerQueue.Step s.queue (.addTimerInLoop p { timer with serial := s.queue.handed })
      (s.runFunctor p timer rest).queue := by
  obtain ⟨hnone, hmax⟩ := h.pending p (by simp [hf])
  exact .addTimerInLoop p _ (.inl hph) hnone hmax rfl

/-- **`~TimerQueue`** finds every timer of its entries, and leaves none. -/
theorem Kept.destroy (h : s.Kept) (hph : s.queue.phase = .idle) :
    ∃ t, s.destroy = some t ∧ t.Kept ∧ t.destroyed = true := by
  have hidle : s.queue.phase.batch = [] := by rw [hph]; rfl
  have howned := h.owned
  rw [hidle] at howned
  have hnodup : (s.queue.timers.elems.map Entry.second).Nodup := by
    refine List.Nodup.map_on (fun e he e' he' heq => ?_) (s.queue.timers.sorted.imp ne_of_lt)
    exact howned.eq_of_second (.inl he) (.inl he') heq
  have hlive : ∀ e ∈ s.queue.timers.elems, s.queue.heap e.second ≠ none := by
    intro e he hnone
    obtain ⟨timer, ht, -⟩ := howned.live e (.inl he)
    rw [hnone] at ht
    cases ht
  obtain ⟨heap, more, heq, hacc, hserials, hheap⟩ :=
    h.accounted.deleteAll h.serials hnodup hlive
  have hgone : ∀ p, heap p = none := by
    intro p
    rw [hheap]
    split
    · rfl
    · next hnot =>
      by_contra hne
      obtain ⟨timer, ht⟩ := Option.ne_none_iff_exists'.mp hne
      have hmem := (howned.held p timer ht).resolve_right List.not_mem_nil
      exact hnot (List.mem_map_of_mem hmem)
  let t : TimerLife := { s with
    queue := { s.queue with heap := heap, timers := .empty }
    deleted := s.deleted ++ more
    destroyed := true }
  have ht : s.destroy = some t := by
    rw [TimerLife.destroy, heq]
    rfl
  have hempty : Owned heap .empty s.queue.phase.batch := by
    rw [hidle]
    exact ⟨by simp, by simp [hgone], by simp, .nil, by simp [hgone]⟩
  exact ⟨t, ht, ⟨hempty, hserials, hacc, h.made, fun p hmem => ⟨hgone p, (h.pending p hmem).2⟩,
    h.nodup, fun _ => hgone⟩, rfl⟩

/-- Every step keeps the account, the destructor's too. -/
theorem Kept.step (h : s.Kept) (hs : Step s l t) : t.Kept := by
  cases hs with
  | queue hd hq hp => exact h.queue hd hq _ _ (List.suffix_refl _) hp (by omega)
  | addTimer p timer hd hp hpending hmax =>
    refine ⟨h.owned, h.serials, h.accounted, ?_, fun q hmem => ?_, ?_, h.done⟩
    · simp [addTimer, h.made, Nat.add_assoc]
    · rw [addTimer, List.map_append] at hmem
      rcases List.mem_append.mp hmem with hmem | hmem
      · exact h.pending q hmem
      · obtain rfl := List.mem_singleton.mp hmem
        exact ⟨hp, hmax⟩
    · rw [addTimer, List.map_append]
      refine List.nodup_append.mpr ⟨h.nodup, by simp, fun q hq q' hq' heq => ?_⟩
      rw [heq, List.mem_singleton.mp hq'] at hq
      exact hpending hq
  | @functor p timer rest hd hph hf =>
    have hnodup := h.nodup
    rw [hf, List.map_cons, List.nodup_cons] at hnodup
    have hkept := h.queue hd (h.functor_step hph hf) rest s.made (hf ▸ List.suffix_cons _ _)
      (fun q timer' heq => by cases heq; exact hnodup.1) (by simp [hf, TimerStep.makes]; omega)
    have hsame : s.runFunctor p timer rest = { s with
        queue := (s.runFunctor p timer rest).queue, pending := rest,
        deleted := s.deleted ++ [] } := by
      rw [List.append_nil]
      rfl
    rw [hsame]
    exact hkept
  | destroy hd hph ht =>
    obtain ⟨t', ht', hkept, -⟩ := h.destroy hph
    cases ht.symm.trans ht'
    exact hkept

/-- So it is right in every state. -/
theorem reachable_kept (h : timerLifeMachine.Reachable s) : s.Kept := by
  refine h.keeps (I := Kept) ?_ fun hi hs => hi.step hs
  rintro s ⟨now, rfl⟩
  have hq : timerMachine.Reachable (.new now) := .of_init ⟨now, rfl⟩
  refine ⟨TimerQueue.reachable_owned hq, ?_, ⟨.nil, fun n => ?_, nofun⟩, rfl, nofun, .nil, nofun⟩
  · exact ⟨nofun, nofun, nofun, nofun⟩
  · constructor
    · exact fun hn => absurd hn (Nat.not_lt_zero n)
    · rintro (hn | ⟨_, _, hp, -⟩)
      · cases hn
      · cases hp

end TimerLife

/-- **Every timer is deleted once.**  In every run, with timers added in any thread: of the timers
that the queue has got, in their order, each is live or has been deleted, not both, and none has
been deleted twice; wherever the loop may be destroyed, `~TimerQueue` finds every timer it deletes,
and then each timer the queue has got has been deleted once.  Those left are the ones of the
functors that have not run. -/
theorem timers_deleted {s : TimerLife} (h : timerLifeMachine.Reachable s) :
    (s.deleted.Nodup ∧ (∀ n, n < s.queue.handed ↔ n ∈ s.deleted ∨ Live s.queue.heap n) ∧
      ∀ n ∈ s.deleted, ¬ Live s.queue.heap n) ∧
    s.made = s.queue.handed + s.pending.length ∧
    (s.destroyed = true → s.deleted.Perm (List.range s.queue.handed)) ∧
    (s.queue.phase = .idle → ∃ t, s.destroy = some t ∧
      t.deleted.Perm (List.range t.queue.handed)) := by
  have hkept := TimerLife.reachable_kept h
  have hperm : ∀ {s : TimerLife}, s.Kept → s.destroyed = true →
      s.deleted.Perm (List.range s.queue.handed) := by
    intro s hs hd
    rw [List.perm_ext_iff_of_nodup hs.accounted.nodup List.nodup_range]
    intro n
    rw [List.mem_range, hs.accounted.handed]
    refine ⟨.inl, fun hn => hn.resolve_right ?_⟩
    rintro ⟨p, timer, hp, -⟩
    rw [hs.done hd p] at hp
    cases hp
  refine ⟨⟨hkept.accounted.nodup, hkept.accounted.handed, hkept.accounted.gone⟩, hkept.made,
    hperm hkept, fun hph => ?_⟩
  obtain ⟨t, ht, ht', hd⟩ := hkept.destroy hph
  exact ⟨t, ht, hperm ht' hd⟩

/-- The theorem where the loop is destroyed with one timer queued, and one of another thread
pending. -/
theorem timers_deleted_one : ∃ s : TimerLife, timerLifeMachine.Reachable s ∧ s.made = 2 ∧
    s.destroyed = true ∧ s.deleted.Perm [0] := by
  let timer : Timer := ⟨1000, ⟨false, 0, nofun⟩, 0⟩
  have hr := Machine.Run.nil (M := timerLifeMachine) (s := ⟨.new 0, [], 0, [], false⟩)
    |>.snoc (.addTimer 8 timer rfl rfl (by decide) (by decide))
    |>.snoc (.functor (p := 8) rfl rfl rfl)
    |>.snoc (.addTimer 16 timer rfl rfl (by decide) (by decide))
    |>.snoc (.destroy rfl rfl rfl)
  have h : timerLifeMachine.Reachable _ := ⟨_, _, ⟨0, rfl⟩, hr⟩
  exact ⟨_, h, rfl, rfl, (timers_deleted h).2.2.1 rfl⟩

end Reactor.Timers
