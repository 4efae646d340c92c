import Reactor.Log.LineOrder

/-!
# Log — stop

When `stop()` keeps the lines accepted before it.  `ThreadFunc` takes lines over in its iterations
only; a line appended since the last one is lost when `_running` is next found false.

* `Taken`: at the call of `stop()` an iteration is still to take what there is, or there is
  nothing to take.
* `Step.covered`: then every line accepted is written or about to be.
* `Step.doomed`: else some line is not, and never will be.
* `stop_keeps_iff`: so `stop()` loses no line if and only if it is called in such a state.
-/

namespace Reactor.Log
open Reactor.Lib

namespace AsyncLogging

/-- The lines `ThreadFunc` has not taken over. -/
def untaken (s : AsyncLogging) : List Line := linesOf s.buffers ++ linesOf [s.currentBuffer]

/-- The lines passed to `output.append` in this iteration or an earlier one. -/
def handed (s : AsyncLogging) : List Line := linesOf s.written ++ linesOf s.toWrite

/-- The back-end thread has passed the test of `_running` and has its critical section before it,
or there is no line to take over. -/
def Taken (s : AsyncLogging) : Prop :=
  s.pc = .lock ∨ s.pc = .wait ∨ s.untaken = []

/-- A line appended has been handed to `ThreadFunc`, or is still to be taken. -/
theorem Ordered.handed_untaken {s : AsyncLogging} (ho : s.Ordered) :
    s.handed ++ s.untaken = s.appended := by
  rw [← ho.lines, handed, untaken, List.append_assoc, List.append_assoc, List.append_assoc]

/-! ### The stages of the threads -/

/-- What the stages of `start` and `stop` say of the thread and of the lines. -/
structure Stages (s : AsyncLogging) : Prop where
  notStarted : s.start ≠ .returned → s.pc = .notStarted
  joined : s.stop = .returned → s.pc = .returned
  /-- Nothing is appended while an iteration writes. -/
  writing : ¬ s.MutexFree → s.untaken = []
  accepted : s.accepted <+: s.appended

/-- While the back-end thread runs, `start` is over and `join` is not. -/
theorem Stages.running {s : AsyncLogging} (h : s.Stages) (hns : s.pc ≠ .notStarted)
    (hret : s.pc ≠ .returned) : s.start = .returned ∧ s.stop ≠ .returned :=
  ⟨by_contra fun hc => hns (h.notStarted hc), fun hc => hret (h.joined hc)⟩

/-- The stages go on together. -/
theorem Step.stages {s t : AsyncLogging} {l : LogStep} (hp : s.Pool) (h : s.Stages)
    (hs : Step s l t) : t.Stages := by
  cases hs with
  | append line memory hm hlen ht =>
    have hacc : s.accepted <+: s.appended ++ [line] := h.accepted.trans (List.prefix_append _ _)
    obtain ⟨_, _, _, rfl⟩ := append_frame hp hlen ht
    exact ⟨h.notStarted, h.joined, fun hfree => absurd hm hfree, hacc⟩
  | start hc => exact ⟨fun _ => h.notStarted (by simp [hc]), h.joined, h.writing, h.accepted⟩
  | startThread memory₁ memory₂ hc hpc =>
    refine ⟨by simp, fun hj => ?_, fun hfree => absurd trivial hfree, h.accepted⟩
    have := h.joined hj
    rw [hpc] at this
    cases this
  | test hpc | wait hpc =>
    obtain ⟨hstart, hstop⟩ := h.running (by simp [hpc]) (by simp [hpc])
    exact ⟨fun hc => absurd hstart hc, fun hj => absurd hj hstop,
      fun hfree => absurd trivial hfree, h.accepted⟩
  | leave hpc =>
    obtain ⟨hstart, hstop⟩ := h.running (by simp [hpc]) (by simp [hpc])
    exact ⟨fun hc => absurd hstart hc, fun _ => rfl, fun hfree => absurd trivial hfree, h.accepted⟩
  | collect hpc =>
    obtain ⟨hstart, hstop⟩ := h.running (by rcases hpc with ⟨hpc, -⟩ | hpc <;> simp [hpc])
      (by rcases hpc with ⟨hpc, -⟩ | hpc <;> simp [hpc])
    obtain ⟨b₁, b₂, spare, he₁, -, -, -, heq⟩ := collect_eq hp hpc
    rw [heq]
    exact ⟨fun hc => absurd hstart hc, fun hj => absurd hj hstop, fun _ => by simp [untaken, he₁.1],
      h.accepted⟩
  | write hpc =>
    obtain ⟨hstart, hstop⟩ := h.running (by simp [hpc]) (by simp [hpc])
    exact ⟨fun hc => absurd hstart hc, fun hj => absurd hj hstop,
      fun _ => h.writing (by simp [MutexFree, hpc]), h.accepted⟩
  | recycle hpc ht =>
    obtain ⟨hstart, hstop⟩ := h.running (by simp [hpc]) (by simp [hpc])
    obtain ⟨_, _, rfl⟩ := recycle_frame hp hpc ht
    exact ⟨fun hc => absurd hstart hc, fun hj => absurd hj hstop,
      fun hfree => absurd trivial hfree, h.accepted⟩
  | stop => exact ⟨h.notStarted, by simp, h.writing, List.prefix_refl _⟩
  | stopReturn hc hpc => exact ⟨h.notStarted, fun _ => hpc, h.writing, h.accepted⟩

/-- The three invariants together. -/
structure Sound (s : AsyncLogging) : Prop where
  pool : s.Pool
  ordered : s.Ordered
  stages : s.Stages

/-- All three invariants are kept. -/
theorem Step.sound {s t : AsyncLogging} {l : LogStep} (h : s.Sound) (hs : Step s l t) : t.Sound :=
  ⟨hs.pool h.pool, hs.ordered h.pool h.ordered, hs.stages h.pool h.stages⟩

theorem init_sound {s : AsyncLogging} (h₀ : asyncLoggingMachine.init s) : s.Sound := by
  refine ⟨reachable_pool (.of_init h₀), reachable_ordered (.of_init h₀), ?_⟩
  obtain ⟨memory₁, memory₂, rfl⟩ := h₀
  exact ⟨fun _ => rfl, by simp [new], fun hfree => absurd trivial hfree, List.prefix_refl _⟩

/-! ### What a step hands over -/

/-- A step that is not a call of `stop` accepts no line.  It hands over none, and leaves the
critical section to come where it is, unless it takes over all there are. -/
theorem Step.handed_cases {s t : AsyncLogging} {l : LogStep} (h : s.Sound) (hl : l ≠ .stop)
    (hs : Step s l t) :
    t.accepted = s.accepted ∧
      (t.handed = s.handed ∧ (s.pc = .lock ∨ s.pc = .wait → t.pc = .lock ∨ t.pc = .wait) ∨
        (s.pc = .lock ∨ s.pc = .wait) ∧ t.handed = t.appended) := by
  have hsound := hs.sound h
  cases hs with
  | append line memory hm hlen ht =>
    obtain ⟨_, _, _, rfl⟩ := append_frame h.pool hlen ht
    exact ⟨rfl, .inl ⟨rfl, id⟩⟩
  | start | stopReturn => exact ⟨rfl, .inl ⟨rfl, id⟩⟩
  | startThread memory₁ memory₂ hc hpc | test hpc | leave hpc | wait hpc =>
    exact ⟨rfl, .inl ⟨by simp [handed, toWrite, enter, hpc], by simp [hpc]⟩⟩
  | collect hpc =>
    refine ⟨rfl, .inr ⟨hpc.imp And.left id, ?_⟩⟩
    rw [← hsound.ordered.handed_untaken, hsound.stages.writing id, List.append_nil]
  | write hpc =>
    exact ⟨rfl, .inl ⟨by simp [handed, toWrite, writeBuffer, hpc, linesOf_cons], by simp [hpc]⟩⟩
  | recycle hpc ht =>
    obtain ⟨_, _, rfl⟩ := recycle_frame h.pool hpc ht
    exact ⟨rfl, .inl ⟨by simp [handed, toWrite, hpc], by simp [hpc]⟩⟩
  | stop => exact absurd rfl hl

/-! ### A stop that keeps the lines -/

/-- Once `stop()` is called: an iteration is to come, or the lines accepted are handed over. -/
def Covered (s : AsyncLogging) : Prop :=
  s.stop ≠ .idle → (s.pc = .lock ∨ s.pc = .wait) ∨ s.accepted <+: s.handed

/-- Only the call of `stop` makes it called. -/
theorem Step.stop_called {s t : AsyncLogging} {l : LogStep} (hp : s.Pool) (hl : l ≠ .stop)
    (hs : Step s l t) (ht : t.stop ≠ .idle) : s.stop ≠ .idle := by
  cases hs with
  | append line memory hm hlen heq =>
    obtain ⟨_, _, _, rfl⟩ := append_frame hp hlen heq
    exact ht
  | recycle hpc heq =>
    obtain ⟨_, _, rfl⟩ := recycle_frame hp hpc heq
    exact ht
  | stopReturn hc => simp [hc]
  | stop => exact absurd rfl hl
  | _ => exact ht

/-- If the buffers are empty when `stop` is called, every line accepted before is covered. -/
theorem Step.covered {s t : AsyncLogging} {l : LogStep} (h : s.Sound) (hcov : s.Covered)
    (hl : l = .stop → s.Taken) (hs : Step s l t) : t.Covered := by
  intro hcalled
  by_cases hstop : l = .stop
  · subst hstop
    cases hs with
    | stop =>
      rcases hl rfl with hpc | hpc | hnil
      · exact .inl (.inl hpc)
      · exact .inl (.inr hpc)
      · -- all lines appended are accepted, and handed over
        refine .inr ?_
        show s.appended <+: s.handed
        rw [← h.ordered.handed_untaken, hnil, List.append_nil]
  · obtain ⟨hacc, hcases⟩ := hs.handed_cases h hstop
    rcases hcases with ⟨hhanded, hpc⟩ | ⟨-, hall⟩
    · rw [hacc, hhanded]
      exact (hcov (hs.stop_called h.pool hstop hcalled)).imp_left hpc
    · rw [hall]
      exact .inr (hs.sound h).stages.accepted

/-! ### A stop that loses a line -/

/-- `stop()` has been called, and does not return, or loses a line. -/
def Doomed (s : AsyncLogging) : Prop :=
  s.stop ≠ .idle ∧
    (s.running = true ∧ s.pc ≠ .returned ∨
      s.running = false ∧ (s.pc = .notStarted ∨ s.pc = .test ∨ s.pc = .returned) ∧
        ¬ s.accepted <+: s.handed)

/-- A call of `stop()` with a line in the buffers and no iteration to come. -/
theorem Step.dooms {s t : AsyncLogging} (h : s.Sound) (hn : ¬ s.Taken) (hs : Step s .stop t) :
    t.Doomed := by
  cases hs with
  | stop =>
    simp only [Taken, not_or] at hn
    obtain ⟨hlock, hwait, huntaken⟩ := hn
    refine ⟨by simp, .inr ⟨rfl, ?_, fun hpre => ?_⟩⟩
    · show s.pc = .notStarted ∨ s.pc = .test ∨ s.pc = .returned
      cases hpc : s.pc with
      | notStarted => exact .inl rfl
      | test => exact .inr (.inl rfl)
      | returned => exact .inr (.inr rfl)
      | lock => exact absurd hpc hlock
      | wait => exact absurd hpc hwait
      | write left => exact absurd (h.stages.writing (by simp [MutexFree, hpc])) huntaken
    · have hlen : s.appended.length ≤ s.handed.length := List.IsPrefix.length_le hpre
      rw [← h.ordered.handed_untaken, List.length_append] at hlen
      exact huntaken (List.eq_nil_of_length_eq_zero (by omega))

/-- A line left when `stop` is called stays where it is for ever. -/
theorem Step.doomed {s t : AsyncLogging} {l : LogStep} (h : s.Sound) (hd : s.Doomed)
    (hs : Step s l t) : t.Doomed := by
  obtain ⟨hcalled, hcases⟩ := hd
  -- inside an iteration `_running` has been set again, and `join` does not return
  have hrunning : s.pc ≠ .notStarted → s.pc ≠ .test → s.pc ≠ .returned → s.running = true := by
    intro h₁ h₂ h₃
    rcases hcases with ⟨hr, -⟩ | ⟨-, hpc | hpc | hpc, -⟩
    · exact hr
    · exact absurd hpc h₁
    · exact absurd hpc h₂
    · exact absurd hpc h₃
  cases hs with
  | append line memory hm hlen ht =>
    obtain ⟨_, _, _, rfl⟩ := append_frame h.pool hlen ht
    exact ⟨hcalled, hcases⟩
  | start hc =>
    have hpc := h.stages.notStarted (by simp [hc])
    exact ⟨hcalled, .inl ⟨rfl, by simp [hpc]⟩⟩
  | startThread memory₁ memory₂ hc hpc =>
    refine ⟨hcalled, hcases.imp (fun hr => ⟨hr.1, by simp [enter]⟩) fun hl =>
      ⟨hl.1, .inr (.inl rfl), ?_⟩⟩
    simpa [handed, toWrite, enter, hpc] using hl.2.2
  | test hpc hr => exact ⟨hcalled, .inl ⟨hr, by simp⟩⟩
  | leave hpc hr =>
    refine ⟨hcalled, .inr ⟨hr, .inr (.inr rfl), ?_⟩⟩
    have hl := hcases.resolve_left fun hr' => by simp [hr] at hr'
    simpa [handed, toWrite, hpc] using hl.2.2
  | wait hpc =>
    exact ⟨hcalled, .inl ⟨hrunning (by simp [hpc]) (by simp [hpc]) (by simp [hpc]), by simp⟩⟩
  | collect hpc =>
    have hne : s.pc ≠ .notStarted ∧ s.pc ≠ .test ∧ s.pc ≠ .returned := by
      rcases hpc with ⟨hpc, -⟩ | hpc <;> simp [hpc]
    exact ⟨hcalled, .inl ⟨hrunning hne.1 hne.2.1 hne.2.2, fun hc => by cases hc⟩⟩
  | write hpc =>
    exact ⟨hcalled, .inl ⟨hrunning (by simp [hpc]) (by simp [hpc]) (by simp [hpc]), by simp⟩⟩
  | recycle hpc ht =>
    obtain ⟨_, _, rfl⟩ := recycle_frame h.pool hpc ht
    exact ⟨hcalled, .inl ⟨hrunning (by simp [hpc]) (by simp [hpc]) (by simp [hpc]), by simp⟩⟩
  | stop hc => exact absurd hc hcalled
  | stopReturn hc hpc => exact ⟨by simp, hcases⟩

end AsyncLogging

/-- **When `stop()` loses no accepted line.**  In a run in which `stop()` has returned, every line
whose `append` returned before `stop()` was called has been passed to `output.append` if and only
if, when `stop()` stored `_running`, the back-end thread had passed its test of `_running` and its
critical section was still to come, or there was no line it had not taken over. -/
theorem stop_keeps_iff {s t : AsyncLogging} {tr : List (AsyncLogging × LogStep)}
    (h₀ : asyncLoggingMachine.init s) (hr : asyncLoggingMachine.Run s tr t)
    (hret : t.stop = .returned) :
    t.accepted <+: linesOf t.written ↔ Meets (fun s l => l = .stop → s.Taken) tr := by
  have hs := AsyncLogging.init_sound h₀
  have ht : t.Sound := hr.keeps (I := AsyncLogging.Sound) (C := fun _ _ => True)
    (fun hi _ hst => AsyncLogging.Step.sound hi hst) (fun _ _ => trivial) hs
  have hpc := ht.stages.joined hret
  have hhanded : t.handed = linesOf t.written := by
    simp [AsyncLogging.handed, AsyncLogging.toWrite, hpc]
  rw [← hhanded]
  constructor
  · intro hpre
    by_contra hm
    have hd : t.Doomed := hr.breaks (I := AsyncLogging.Sound)
      (fun hi hst => AsyncLogging.Step.sound hi hst)
      (fun hi hl hst => by
        obtain ⟨rfl, hn⟩ := Classical.not_imp.mp hl
        exact AsyncLogging.Step.dooms hi hn hst)
      (fun hi hd hst => AsyncLogging.Step.doomed hi hd hst) hs hm
    rcases hd.2 with ⟨-, hne⟩ | ⟨-, -, hlost⟩
    · exact hne hpc
    · exact hlost hpre
  · intro hm
    have hcov : t.Sound ∧ t.Covered := hr.keeps (I := fun s => s.Sound ∧ s.Covered)
      (fun hi hl hst => ⟨AsyncLogging.Step.sound hi.1 hst,
        AsyncLogging.Step.covered hi.1 hi.2 hl hst⟩) hm
      ⟨hs, fun hcalled => by obtain ⟨memory₁, memory₂, rfl⟩ := h₀; exact absurd rfl hcalled⟩
    rcases hcov.2 (by simp [hret]) with hlock | hpre
    · simp [hpc] at hlock
    · exact hpre

/-- The theorem where `stop()` is called while the back-end thread waits: the line is kept. -/
theorem stop_keeps_waiting : ∃ s t tr, asyncLoggingMachine.Run s tr t ∧ t.stop = .returned ∧
    t.accepted = [[97]] ∧ t.accepted <+: linesOf t.written := by
  let memory : Buffer.Memory := ⟨List.replicate kLargeBuffer 0, List.length_replicate⟩
  have hr := Machine.Run.nil (M := asyncLoggingMachine) (s := .new memory memory)
    |>.snoc (.start rfl)
    |>.snoc (.startThread memory memory rfl rfl)
    |>.snoc (.test rfl rfl)
    |>.snoc (.wait rfl rfl)
    |>.snoc (.append [97] memory trivial (by decide) rfl)
    |>.snoc (.stop rfl)
    |>.snoc (.collect (.inr rfl))
    |>.snoc (.write rfl)
    |>.snoc (.recycle rfl rfl)
    |>.snoc (.leave rfl rfl)
    |>.snoc (.stopReturn rfl rfl)
  refine ⟨_, _, _, hr, rfl, rfl, (stop_keeps_iff ⟨memory, memory, rfl⟩ hr rfl).mpr ?_⟩
  simp only [meets_snoc, meets_nil, reduceCtorEq, false_imp_iff, true_and, and_true]
  exact fun _ => .inr (.inl rfl)

/-- A line appended while the back-end thread is about to test `_running` is lost. -/
theorem stop_loses_line : ∃ s t tr, asyncLoggingMachine.init s ∧ asyncLoggingMachine.Run s tr t ∧
    t.stop = .returned ∧ t.accepted = [[97]] ∧ ¬ t.accepted <+: linesOf t.written := by
  let memory : Buffer.Memory := ⟨List.replicate kLargeBuffer 0, List.length_replicate⟩
  have hr := Machine.Run.nil (M := asyncLoggingMachine) (s := .new memory memory)
    |>.snoc (.start rfl)
    |>.snoc (.startThread memory memory rfl rfl)
    |>.snoc (.append [97] memory trivial (by decide) rfl)
    |>.snoc (.stop rfl)
    |>.snoc (.leave rfl rfl)
    |>.snoc (.stopReturn rfl rfl)
  refine ⟨_, _, _, ⟨memory, memory, rfl⟩, hr, rfl, rfl, ?_⟩
  show ¬ [[97]] <+: ([] : List Line)
  simp

end Reactor.Log
