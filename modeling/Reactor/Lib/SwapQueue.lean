import Mathlib.Data.List.Basic

/-!
# Lib — SwapQueue

A first-in first-out queue in two stages: producers push at the back of `pending`; the consumer
exchanges `pending` with its own, exhausted, `batch` and then takes the batch from the front.
Its contents are the batch followed by what is pending, and on contents the three operations are
those of one queue: `push` appends, `swap` does nothing, `next?` takes the front.
-/

namespace Reactor.Lib

/-- A queue in two parts: the batch that is being worked off, and what has come since it was
taken. -/
structure SwapQueue (α : Type*) where
  batch : List α
  pending : List α
  deriving DecidableEq, Repr

namespace SwapQueue

variable {α : Type*}

/-- Nothing is queued and nothing is being worked off. -/
def empty : SwapQueue α := ⟨[], []⟩

/-- An element is queued behind those that wait. -/
def push (q : SwapQueue α) (a : α) : SwapQueue α := { q with pending := q.pending ++ [a] }

/-- Exchange the two stages. -/
def swap (q : SwapQueue α) : SwapQueue α := ⟨q.pending, q.batch⟩

/-- The front of the batch, and the queue without it. -/
def next? (q : SwapQueue α) : Option (α × SwapQueue α) :=
  match q.batch with
  | [] => none
  | a :: rest => some (a, { q with batch := rest })

/-- What is queued, oldest first. -/
def contents (q : SwapQueue α) : List α := q.batch ++ q.pending

@[simp] theorem push_batch (q : SwapQueue α) (a : α) : (q.push a).batch = q.batch := rfl

@[simp] theorem push_pending (q : SwapQueue α) (a : α) :
    (q.push a).pending = q.pending ++ [a] := rfl

@[simp] theorem swap_batch (q : SwapQueue α) : q.swap.batch = q.pending := rfl

@[simp] theorem swap_pending (q : SwapQueue α) : q.swap.pending = q.batch := rfl

@[simp] theorem contents_empty : (empty : SwapQueue α).contents = [] := rfl

@[simp] theorem contents_push (q : SwapQueue α) (a : α) :
    (q.push a).contents = q.contents ++ [a] := by
  simp [contents]

/-- Once the batch is exhausted, exchanging the stages changes nothing but where the contents
are. -/
theorem contents_swap {q : SwapQueue α} (h : q.batch = []) : q.swap.contents = q.contents := by
  simp [contents, h]

/-- The next element is the first of the batch; what is pending waits. -/
theorem next?_eq_some {q q' : SwapQueue α} {a : α} :
    q.next? = some (a, q') ↔ q.batch = a :: q'.batch ∧ q'.pending = q.pending := by
  cases q with
  | mk batch pending =>
    cases batch with
    | nil => simp [next?]
    | cons b rest =>
      cases q' with
      | mk batch' pending' => simp [next?, and_assoc, eq_comm]

/-- The next element is the oldest. -/
theorem contents_next? {q q' : SwapQueue α} {a : α} (h : q.next? = some (a, q')) :
    q.contents = a :: q'.contents := by
  obtain ⟨hb, hp⟩ := next?_eq_some.mp h
  simp [contents, hb, hp]

end SwapQueue

end Reactor.Lib
